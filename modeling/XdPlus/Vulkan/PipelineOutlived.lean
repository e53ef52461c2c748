/- Module: XdPlus/Vulkan/PipelineOutlived
   source: vulkan/vkshim.c, compile_batch, cache_lookup, shim_DestroyDevice, shim_CreateDevice
   digest: The end of a batch whose device was destroyed and made again at the same handle. -/

import XdPlus.Vulkan.PipelineBatchSafety

set_option autoImplicit false
set_option relaxedAutoImplicit false

namespace XdPlus.Vulkan.PipelineOutlived

open XdPlus.Base Common Driver PipelineCache PipelineBatches PipelineLedger

/-- The rules, but for the one that no call on a device is in flight when it is destroyed. -/
def Careless (s : State) : Action → Prop
  | .call _ (.destroyDevice dev) => s.devices dev = true
  | a => Lawful s a

/-- The incarnation of its device each batch was called on. Nothing in the code reads it. -/
abbrev Births := Nat → Option Nat

def Births.after (since : Births) (s : State) : Action → Births
  | .call t (.createPipelines dev _ _) => Function.update since t (s.world.devices dev)
  | _ => since

def careless (p : Process) : Machine (State × Births) Action where
  init x := x = (State.zero, fun _ => none)
  step x a x' := (system p).step x.1 a x'.1 ∧ Careless x.1 a ∧ x'.2 = x.2.after x.1 a

/-- A batch whose compile is done, up to its return. -/
def ending : Phase → Option Batch
  | .compiled b | .ended b => some b
  | _ => none

/-- There is another device at the handle now. -/
def Outlives (s : State) (since : Births) (t : Nat) (b : Batch) : Prop :=
  ending (s.threads t) = some b ∧ ∃ n, s.world.devices b.dev = some n ∧ since t ≠ some n

/-- A merge on the device, `vkGetPipelineCacheData` on it, for its size or for its content, or
the end of a cache of the batch. -/
def Intrudes (b : Batch) : Call → Prop
  | .mergePipelineCaches dev _ _ => dev = b.dev
  | .getPipelineCacheSize dev _ => dev = b.dev
  | .getPipelineCacheData dev _ _ => dev = b.dev
  | .destroyPipelineCache dev pc => dev = b.dev ∧ pc ≠ 0 ∧ (pc = b.scratch ∨ pc = b.appCache)
  | _ => False

/-- Whatever it is answered, the thread's next stretch leaves the slot of the device as it is
and makes no such call. -/
def Spares (p : Process) (s : State) (t : Nat) (b : Batch) : Prop :=
  (advance p s.cache (s.threads t)).Ensures answers (fun _ op => ¬ Intrudes b op) s.world
    (fun r _ => slotOf r.1.devCaches b.dev = slotOf s.cache.devCaches b.dev)

/-- There is nothing in the slot for the end of a batch to act on. -/
def Inert (k : CacheState) (b : Batch) (c : DevCache) : Prop :=
  if b.ownMaster then
    c.masterInUse = false ∧ c.pending = [] ∧ (c.pc = 0 ∨ k.fns.gpcd = false ∨ c.path = "")
  else if b.appCache ≠ 0 then
    (appCacheLeave k.appInflight b).1 = false ∨ k.cacheHarvest = some false ∨
      k.fns.mpc = false ∨ c.masterInUse = true ∨ c.pc = 0
  else if b.scratch ≠ 0 then
    (c.masterInUse = true ∨ k.fns.mpc = false ∨ c.pc = 0) ∧ pendingMax ≤ c.pending.length ∧
      c.warnedPendingFull = true
  else
    True

/-- The device that is there now has no slot or an inert one, and after the lock there is no
scratch cache to destroy. -/
def Clear (s : State) (t : Nat) : Prop :=
  match s.threads t with
  | .compiled b => ∀ c, slotOf s.cache.devCaches b.dev = some c → Inert s.cache b c
  | .ended b => b.scratch = 0 ∨ s.cache.fns.dpc = false
  | _ => True

section Branches

variable {p : Process} {k : CacheState} {b : Batch} {w : World} {c : DevCache}
  {i : Fin devCacheMax} {d : DevCaches} {dev : VkDevice}

private theorem slotOf_set (lookup : cacheLookup d dev = some i) (same : c.dev = dev) :
    slotOf (Function.update d i c) dev = some c := by
  have here := (cacheLookup_dev lookup).1
  have keys (j : Fin devCacheMax) : (Function.update d i c j).dev = (d j).dev := by
    rcases eq_or_ne j i with rfl | ne
    · rw [Function.update_self, same, here]
    · rw [Function.update_of_ne ne]
  have found : cacheLookup (Function.update d i c) dev = some i := by
    simp only [cacheLookup, keys] at lookup ⊢
    exact lookup
  rw [slotOf_some found, Function.update_self]

private theorem always_drainPending (fns : CacheFns) (c : DevCache) :
    (drainPending fns c).Always (fun _ => True) (Drained c) := by
  unfold drainPending
  by_cases empty : c.pending = []
  · rw [if_pos empty]
    exact ⟨rfl, rfl, rfl, empty⟩
  · rw [if_neg empty, Prog.always_bind]
    refine (Prog.always_trivial _).mono fun _ _ => ?_
    split_ifs
    · rw [Prog.always_bind]
      exact (Prog.always_trivial _).mono fun _ _ => ⟨rfl, rfl, rfl, rfl⟩
    · exact ⟨rfl, rfl, rfl, rfl⟩

private theorem always_drainAndSave (fns : CacheFns) (c : DevCache) :
    (drainAndSave p fns c).Always (fun _ => True) (Drained c) := by
  unfold drainAndSave
  rw [Prog.always_bind]
  refine (always_drainPending fns c).mono fun c₁ drained => ?_
  refine ((always_saveDiskCache c₁ false).weaken fun _ _ => trivial).mono fun c₂ same => ?_
  exact ⟨same.dev.trans drained.dev, same.pc.trans drained.pc,
    same.masterInUse.trans drained.masterInUse, same.pending.trans drained.pending⟩

private theorem exists_now (last : Nat) :
    ∃ now, ¬ (now + (2 ^ 64 - last)) % 2 ^ 64 < saveMinIntervalNs := by
  by_cases early : last ≤ 2 ^ 64
  · refine ⟨last + saveMinIntervalNs, ?_⟩
    rw [saveMinIntervalNs]
    omega
  · refine ⟨saveMinIntervalNs, ?_⟩
    rw [saveMinIntervalNs]
    omega

private theorem save_intrudes {fns : CacheFns} {post : DevCache → World → Prop}
    (on : c.dev = b.dev) (some_pc : c.pc ≠ 0) (known : fns.gpcd = true) (file : c.path ≠ "") :
    ¬ (saveDiskCache p fns c false).Ensures answers (fun _ op => ¬ Intrudes b op) w post := by
  intro spares
  obtain ⟨now, due⟩ := exists_now c.lastSaveNs
  unfold saveDiskCache at spares
  rw [if_neg (by simp [some_pc, known, file]), Prog.ensures_bind] at spares
  have after := (Prog.ensures_call.mp spares).2 now w rfl
  rw [if_neg fun early => due early.2.2, Prog.ensures_bind] at after
  exact after.1 on

private theorem drainAndSave_inert {fns : CacheFns} (empty : c.pending = [])
    (inert : c.pc = 0 ∨ fns.gpcd = false ∨ c.path = "") : drainAndSave p fns c = pure c := by
  have drains : drainPending fns c = pure c := by
    unfold drainPending
    rw [if_pos empty]
  have saves : saveDiskCache p fns c false = pure c := by
    unfold saveDiskCache
    rw [if_pos inert]
  rw [drainAndSave, drains]
  exact saves

private theorem endMaster_iff (own : b.ownMaster = true) :
    (endMaster p k b).Ensures answers (fun _ op => ¬ Intrudes b op) w
        (fun k' _ => slotOf k'.devCaches b.dev = slotOf k.devCaches b.dev) ↔
      ∀ c, slotOf k.devCaches b.dev = some c → Inert k b c := by
  unfold endMaster
  cases lookup : cacheLookup k.devCaches b.dev with
  | none => simp [slotOf, lookup]
  | some i =>
      have found := slotOf_some lookup
      have on := (cacheLookup_dev lookup).1
      simp only [found, Option.some.injEq, forall_eq', Inert, own, if_true, Prog.ensures_bind]
      constructor
      · intro spares
        have run := Prog.runs_eval (respond_allowed fun _ => "")
          (drainAndSave p k.fns { k.devCaches i with masterInUse := false }) w
        have drained := (always_drainAndSave _ _).of_runs run
        have same := spares.of_runs run
        rw [Prog.ensures_pure, CacheState.setSlot, slotOf_set lookup (drained.dev.trans on)] at same
        have result := Option.some.inj same
        rw [result] at drained
        have unused : (k.devCaches i).masterInUse = false := drained.masterInUse
        have empty : (k.devCaches i).pending = [] := drained.pending
        refine ⟨unused, empty, ?_⟩
        by_contra acts
        rw [not_or, not_or, Bool.not_eq_false] at acts
        have saves := spares
        simp only [drainAndSave, drainPending, empty, if_true, Prog.ensures_bind] at saves
        exact save_intrudes (c := { k.devCaches i with masterInUse := false, pending := [] }) on
          acts.1 acts.2.1 acts.2.2 saves
      · rintro ⟨unused, empty, inert⟩
        have same : { k.devCaches i with masterInUse := false } = k.devCaches i := by
          rw [← unused]
        rw [same, drainAndSave_inert empty inert]
        exact slotOf_set lookup on

private theorem Quiet.spares {op : Call} (quiet : Quiet op) : ¬ Intrudes b op := by
  cases op <;> first | exact quiet.elim | exact id

private theorem ensures_quiet_spares {α : Type} {prog : Shim α} {post : α → Prop}
    (quiet : prog.Always Quiet post) :
    prog.Ensures answers (fun _ op => ¬ Intrudes b op) w (fun a w' => post a ∧ w' = w) :=
  quiet.ensures (fun _ ok => Quiet.spares ok) fun _ _ _ ok answered => ok.still answered

private theorem always_readHarvest (gate : Gate) :
    (readPropExplicitOn "debug.xdplus.vkcacheharvest" gate).Always Quiet
      (fun r => gate = some false → r.1 = false) := by
  cases gate with
  | none => exact ⟨trivial, fun _ off => by cases off⟩
  | some on =>
      intro off
      exact Option.some.inj off

private theorem readHarvest_on {Q : Bool × Gate → World → Prop} (gate : Gate)
    (not_off : gate ≠ some false)
    (spares : (readPropExplicitOn "debug.xdplus.vkcacheharvest" gate).Ensures answers
      (fun _ op => ¬ Intrudes b op) w Q) : Q (true, some true) w := by
  cases gate with
  | none => exact spares.2 "1" w rfl
  | some on =>
      cases on with
      | true => exact spares
      | false => exact absurd rfl not_off

private theorem endApp_iff (not_own : b.ownMaster = false) (app : b.appCache ≠ 0) :
    (endApp p k b).Ensures answers (fun _ op => ¬ Intrudes b op) w
        (fun k' _ => slotOf k'.devCaches b.dev = slotOf k.devCaches b.dev) ↔
      ∀ c, slotOf k.devCaches b.dev = some c → Inert k b c := by
  have inert (c : DevCache) : Inert k b c ↔ ((appCacheLeave k.appInflight b).1 = false ∨
      k.cacheHarvest = some false ∨ k.fns.mpc = false ∨ c.masterInUse = true ∨ c.pc = 0) := by
    simp [Inert, not_own, app]
  unfold endApp
  simp only [inert]
  by_cases last : (appCacheLeave k.appInflight b).1 = true
  · rw [if_pos last]
    simp only [last, Bool.true_eq_false, false_or, Prog.ensures_bind]
    cases lookup : cacheLookup k.devCaches b.dev with
    | none =>
        refine iff_of_true ?_ (by simp [slotOf, lookup])
        refine (ensures_quiet_spares (always_readPropExplicitOn _ _)).mono fun _ _ _ => ?_
        exact rfl
    | some i =>
        have found := slotOf_some lookup
        simp only [found, Option.some.injEq, forall_eq']
        constructor
        · intro spares
          by_contra acts
          simp only [not_or, Bool.not_eq_false, Bool.not_eq_true] at acts
          obtain ⟨not_off, known, unused, some_pc⟩ := acts
          have merges := readHarvest_on k.cacheHarvest not_off spares
          rw [if_pos ⟨rfl, known, unused, some_pc⟩, Prog.ensures_bind] at merges
          exact merges.1 rfl
        · intro calm
          refine (ensures_quiet_spares (always_readHarvest k.cacheHarvest)).mono ?_
          rintro ⟨harvest, gate⟩ w' ⟨off, -⟩
          rw [if_neg fun acts => ?_]
          · exact found
          · obtain ⟨is_on, known, unused, some_pc⟩ := acts
            rcases calm with is_off | unknown | used | null
            · rw [off is_off] at is_on
              cases is_on
            · cases known.symm.trans unknown
            · cases unused.symm.trans used
            · exact some_pc null
  · rw [if_neg last]
    refine iff_of_true rfl fun c _ => .inl ?_
    simpa using last

private theorem endScratch_iff (not_own : b.ownMaster = false) (no_app : b.appCache = 0)
    (some_scratch : b.scratch ≠ 0) :
    (endScratch p k b).Ensures answers (fun _ op => ¬ Intrudes b op) w
        (fun r _ => slotOf r.1.devCaches b.dev = slotOf k.devCaches b.dev) ↔
      ∀ c, slotOf k.devCaches b.dev = some c → Inert k b c := by
  have inert (c : DevCache) : Inert k b c ↔ ((c.masterInUse = true ∨ k.fns.mpc = false ∨
      c.pc = 0) ∧ pendingMax ≤ c.pending.length ∧ c.warnedPendingFull = true) := by
    simp [Inert, not_own, no_app, some_scratch]
  unfold endScratch
  simp only [inert]
  cases lookup : cacheLookup k.devCaches b.dev with
  | none => exact iff_of_true rfl (by simp [slotOf, lookup])
  | some i =>
      have found := slotOf_some lookup
      have on := (cacheLookup_dev lookup).1
      simp only [found, Option.some.injEq, forall_eq']
      split_ifs with mergeable room
      · rw [Prog.ensures_bind]
        refine iff_of_false (fun spares => spares.1 rfl) fun calm => ?_
        obtain ⟨unused, known, some_pc⟩ := mergeable
        rcases calm.1 with used | unknown | null
        · cases unused.symm.trans used
        · cases known.symm.trans unknown
        · exact some_pc null
      · refine iff_of_false (fun spares => ?_) fun calm => absurd room (not_lt.mpr calm.2.1)
        have written : slotOf (k.setSlot i { k.devCaches i with
            pending := (k.devCaches i).pending ++ [b.scratch] }).devCaches b.dev =
              some { k.devCaches i with
                pending := (k.devCaches i).pending ++ [b.scratch] } := slotOf_set lookup on
        have same := Option.some.inj (written.symm.trans spares)
        have longer := congrArg (fun c => c.pending.length) same
        simp at longer
      · have blocked : (k.devCaches i).masterInUse = true ∨ k.fns.mpc = false ∨
            (k.devCaches i).pc = 0 := by
          by_contra free
          simp only [not_or, Bool.not_eq_false, Bool.not_eq_true] at free
          exact mergeable free
        have written : slotOf (k.setSlot i { k.devCaches i with
            warnedPendingFull := true }).devCaches b.dev =
              some { k.devCaches i with warnedPendingFull := true } := slotOf_set lookup on
        rw [Prog.ensures_pure, written]
        constructor
        · intro same
          refine ⟨blocked, not_lt.mp room, ?_⟩
          exact (congrArg DevCache.warnedPendingFull (Option.some.inj same)).symm
        · rintro ⟨-, -, warned⟩
          rw [← warned]

private theorem countBatch_iff {Q : CacheState → World → Prop} :
    (countBatch p k b).Ensures answers (fun _ op => ¬ Intrudes b op) w Q ↔
      Q { k with
        compiledCount := (k.compiledCount + b.n) % 2 ^ 32
        slowSession := k.slowSession || slowNs < b.dt } w := by
  unfold countBatch
  simp only
  split_ifs
  · rw [Prog.ensures_bind]
    constructor
    · intro spares
      exact spares.2 () w rfl
    · intro goal
      refine ⟨id, fun _ w' answered => ?_⟩
      obtain rfl : w' = w := answered
      exact goal
  · exact Iff.rfl

private theorem batchEnd_iff :
    (batchEnd p k b).Ensures answers (fun _ op => ¬ Intrudes b op) w
        (fun r _ => slotOf r.1.devCaches b.dev = slotOf k.devCaches b.dev) ↔
      ∀ c, slotOf k.devCaches b.dev = some c → Inert k b c := by
  simp only [batchEnd, Prog.ensures_bind]
  rw [countBatch_iff]
  by_cases own : b.ownMaster = true
  · rw [if_pos own, Prog.ensures_bind]
    exact endMaster_iff own
  · rw [if_neg own]
    have not_own := Bool.eq_false_iff.mpr own
    by_cases app : b.appCache ≠ 0
    · rw [if_pos app, Prog.ensures_bind]
      exact endApp_iff not_own app
    · rw [if_neg app]
      by_cases some_scratch : b.scratch ≠ 0
      · rw [if_pos some_scratch]
        exact endScratch_iff not_own (not_not.mp app) some_scratch
      · rw [if_neg some_scratch]
        refine iff_of_true rfl fun c _ => ?_
        simp only [Inert, if_neg own, if_neg app, if_neg some_scratch]

end Branches

/-- In every run in which devices may be destroyed under a compile: what is left of a batch
spares the device that took over the handle of its own exactly if that has no slot, or one the
branch of the batch does not act on, and if the batch has no scratch cache to destroy. -/
theorem outlived_batch_spares_iff {p : Process} : ∀ x, (careless p).Reachable x → ∀ t b,
    Outlives x.1 x.2 t b → (Spares p x.1 t b ↔ Clear x.1 t) := by
  rintro ⟨s, since⟩ - t b ⟨is_ending, -⟩
  unfold Spares Clear
  simp only at is_ending ⊢
  cases phase : s.threads t with
  | compiled b' =>
      obtain rfl : b' = b := by simpa [phase, ending] using is_ending
      simp only [advance, Prog.ensures_bind]
      exact batchEnd_iff
  | ended b' =>
      obtain rfl : b' = b := by simpa [phase, ending] using is_ending
      simp only [advance, batchRelease, Prog.ensures_bind]
      split_ifs with destroys
      · refine iff_of_false (fun spares => ?_) fun clear => ?_
        · exact spares.1 ⟨rfl, destroys.1, .inl rfl⟩
        · rcases clear with none_left | unknown
          · exact destroys.1 none_left
          · cases destroys.2.symm.trans unknown
      · refine iff_of_true rfl ?_
        by_contra left
        rw [not_or, Bool.not_eq_false] at left
        exact destroys left
  | _ => simp [phase, ending] at is_ending

def nextCareless (p : Process) (x : State × Births) (a : Action) : State × Births :=
  (x.1.next p (fun _ => "") a, x.2.after x.1 a)

/-- Calls that create something, or destroy a device, in their place. -/
def permitsCareless (x : State × Births) : Action → Bool
  | .call t (.destroyDevice dev) => x.1.threads t == .idle && x.1.devices dev
  | a => x.1.permits a

private theorem nextCareless_step {p : Process} (x : State × Births) (a : Action)
    (permitted : permitsCareless x a = true) :
    (careless p).step x a (nextCareless p x a) := by
  have lawful (permits : x.1.permits a = true) :
      (system p).step x.1 a (nextCareless p x a).1 ∧ Lawful x.1 a := next_step permits
  cases a with
  | call t e =>
      cases e with
      | destroyDevice dev =>
          obtain ⟨idle, held⟩ : x.1.threads t = .idle ∧ x.1.devices dev = true := by
            simpa [permitsCareless] using permitted
          exact ⟨⟨idle, rfl⟩, held, rfl⟩
      | _ =>
          obtain ⟨step, law⟩ := lawful permitted
          exact ⟨step, law, rfl⟩
  | _ =>
      obtain ⟨step, law⟩ := lawful permitted
      exact ⟨step, law, rfl⟩

/-- A batch compiles into the master while its device is destroyed and made again. -/
def recycled : List Action :=
  [.call 0 .createDevice, .advance 0, .advance 0,
    .call 0 (.createPipelines 1 0 1), .advance 0, .advance 0, .advance 0,
    .call 1 (.destroyDevice 1), .advance 1, .advance 1,
    .call 1 .createDevice, .advance 1, .advance 1]

theorem recycled_reachable {actions : List Action} {x : State × Births}
    (ends : Machine.follow (nextCareless fullProcess) permitsCareless
      (State.zero, fun _ => none) actions = some x) : (careless fullProcess).Reachable x :=
  Machine.Reachable.follow (.start rfl) nextCareless_step actions ends

/-- The new device has no slot yet. -/
theorem outlived_batch_spares_unused : ∃ x b, (careless fullProcess).Reachable x ∧
    Outlives x.1 x.2 0 b ∧ Spares fullProcess x.1 0 b := by
  have ran : (Machine.follow (nextCareless fullProcess) permitsCareless
      (State.zero, fun _ => none) (recycled ++ [.advance 0])).map
        (fun x => (x.1.threads 0, x.1.world.devices 1, x.2 0, slotOf x.1.cache.devCaches 1)) =
          some (.compiled ⟨1, 0, 1, true, false, 0, 1, 0, 0⟩, some 1, some 0, none) := by
    decide +kernel
  obtain ⟨x, ends, facts⟩ := Option.map_eq_some_iff.mp ran
  simp only [Prod.mk.injEq] at facts
  obtain ⟨phase, device, since, missing⟩ := facts
  have outlives : Outlives x.1 x.2 0 ⟨1, 0, 1, true, false, 0, 1, 0, 0⟩ := by
    refine ⟨by rw [phase]; rfl, 1, device, ?_⟩
    rw [since]
    decide
  refine ⟨x, _, recycled_reachable ends, outlives, ?_⟩
  refine (outlived_batch_spares_iff x (recycled_reachable ends) 0 _ outlives).mpr ?_
  rw [Clear, phase]
  intro c found
  cases missing.symm.trans found

/-- A batch of the new device compiles into its master when the old batch ends: that ends up
marked as free. -/
theorem outlived_batch_frees_master : ∃ x b, (careless fullProcess).Reachable x ∧
    Outlives x.1 x.2 0 b ∧ (∃ b', x.1.threads 1 = .compiling b' ∧ b'.ownMaster = true ∧
      (slotOf x.1.cache.devCaches 1).map DevCache.masterInUse = some true ∧
      (slotOf (nextCareless fullProcess x (.advance 0)).1.cache.devCaches 1).map
        DevCache.masterInUse = some false) ∧ ¬ Spares fullProcess x.1 0 b := by
  have ran : (Machine.follow (nextCareless fullProcess) permitsCareless
      (State.zero, fun _ => none) (recycled ++ [.call 1 (.createPipelines 1 0 1), .advance 1,
        .advance 1, .advance 1, .advance 0])).map
        (fun x => ((x.1.threads 0, x.1.threads 1), (x.1.world.devices 1, x.2 0),
          (slotOf x.1.cache.devCaches 1).map DevCache.masterInUse,
          (slotOf (nextCareless fullProcess x (.advance 0)).1.cache.devCaches 1).map
            DevCache.masterInUse)) =
          some ((.compiled ⟨1, 0, 1, true, false, 0, 1, 0, 0⟩,
            .compiling ⟨1, 0, 1, true, false, 0, 1, 0, 0⟩), (some 1, some 0), some true,
            some false) := by
    decide +kernel
  obtain ⟨x, ends, facts⟩ := Option.map_eq_some_iff.mp ran
  simp only [Prod.mk.injEq] at facts
  obtain ⟨⟨phase, other⟩, ⟨device, since⟩, before, after⟩ := facts
  have outlives : Outlives x.1 x.2 0 ⟨1, 0, 1, true, false, 0, 1, 0, 0⟩ := by
    refine ⟨by rw [phase]; rfl, 1, device, ?_⟩
    rw [since]
    decide
  refine ⟨x, _, recycled_reachable ends, outlives, ⟨_, other, rfl, before, after⟩, ?_⟩
  intro spares
  have run := Prog.runs_eval (respond_allowed fun _ => "")
    (advance fullProcess x.1.cache (x.1.threads 0)) x.1.world
  have same := congrArg (Option.map DevCache.masterInUse) (spares.of_runs run)
  have cache : (nextCareless fullProcess x (.advance 0)).1.cache = ((advance fullProcess x.1.cache
      (x.1.threads 0)).eval (respond fun _ => "") x.1.world).1.1 := PipelineOwnership.moved_cache
  rw [cache] at after
  cases after.symm.trans (same.trans before)

end XdPlus.Vulkan.PipelineOutlived
