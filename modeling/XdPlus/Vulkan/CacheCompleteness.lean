/- Module: XdPlus/Vulkan/CacheCompleteness
   source: vulkan/vkshim.c, cache_claim, ensure_disk_cache, save_disk_cache, drain_pending,
     compile_batch, drop_disk_cache, shim_DestroyDevice
   digest: What a process has compiled is in the file once its last device is gone. -/

import XdPlus.Vulkan.CacheStretches

set_option autoImplicit false
set_option relaxedAutoImplicit false

namespace XdPlus.Vulkan.CacheCompleteness

open XdPlus.Base Common Driver PipelineCache PipelineBatches PipelineLedger PipelineOwnership
  PipelineBatchSafety CacheFiles CacheSections CacheHoldings CacheRuns

open CacheClearing (gamePath Alone alone_zero go go_hooks newDevice newCache compile endDevice)

variable {E : Type} [DecidableEq E]

section Steps

variable {g : App E} {path : String} {r : Run E} {s : State} {d : Disk E} {t : Nat}

private theorem carried_advance {k : CacheState} {phase : Phase} {handed : Handed} {w : World}
    (kept : Kept g path r)
    (self : selfPath g.process g.uid = some path)
    (exports : g.process.exported = ⟨true, true, true, true⟩) (grows : Grows g.blobs)
    (within : Within g r (.hook (.advance t))) (careful : Careful g path r (.hook (.advance t)))
    (run : Stretch g r t k phase handed w d) :
    Carried g path r (.advance t) (r.state.moved t k phase handed w) d := by
  have silent (quiet : CacheClearing.Harmless (r.state.threads t))
      (still : Still (r.state.threads t)) :
      Carried g path r (.advance t) (r.state.moved t k phase handed w) d := by
    have same := (always_still still).of_runs run
    exact kept.silent run quiet ⟨same.1, same.2.2⟩
  simp only [Within] at within
  simp only [Careful] at careful
  cases now : r.state.threads t with
  | arrived b =>
      rw [now] at careful
      exact kept.arrived self exports run now careful
  | begun b => exact kept.begun run now
  | ready b => exact kept.ready run now
  | compiled b =>
      rw [now] at within careful
      exact kept.compiled self run now within careful
  | creating dev initial => exact kept.creating run now
  | created dev out => exact kept.created self exports run now
  | merging dev dst srcs => exact kept.merging run now
  | droppingDevice dev =>
      rw [now] at within careful
      exact kept.dropping grows self run now within careful
  | madeDevice dev =>
      refine kept.silent run (by rw [now]; trivial) ?_
      have no_slot : cacheLookup r.state.cache.devCaches dev = none :=
        Inv.no_slot kept.inv (by rw [now]; rfl) (by simp [now])
      rw [Stretch, now] at run
      obtain ⟨k', x, ran, same, -⟩ := Prog.runs_bind.mp run
      obtain ⟨rfl, -⟩ := Prod.mk.inj same
      have dropped := (always_dropDiskCache _ false).of_runs ran
      rw [no_slot] at dropped
      rw [dropped]
      exact ⟨rfl, rfl⟩
  | _ => exact silent (by rw [now]; trivial) (by rw [now]; trivial)

private theorem carried_call {e : Entry} (kept : Kept g path r) (idle : r.state.threads t = .idle)
    (law : Lawful r.state (.call t e)) :
    Carried g path r (.call t e) (r.state.enter t e) r.disk := by
  have threads : (r.state.enter t e).threads = Function.update r.state.threads t e.phase := by
    cases e <;> rfl
  have cache : (r.state.enter t e).cache = r.state.cache := by cases e <;> rfl
  refine kept.still (Inv.enter kept.inv e idle law) (by rw [cache]; exact .refl _)
    (by rw [cache]; exact id) rfl rfl (fun _ _ => .refl _) ?_ ?_ (absurd rfl) ?_
  · intro t' h carried
    have ne : t' ≠ t := by
      rintro rfl
      rw [idle] at carried
      cases carried
    rwa [threads, Function.update_of_ne ne]
  · intro t'
    rw [threads]
    by_cases same : t' = t
    · rw [same, Function.update_self]
      cases e <;> trivial
    · rw [Function.update_of_ne same]
      exact kept.provided t'
  · intro e' member
    cases member

private theorem carried_resolve {fns : CacheFns} (kept : Kept g path r)
    (step : (lawful g.process).step r.state (.resolve fns) s) :
    Carried g path r (.resolve fns) s r.disk := by
  have inv := inv_step kept.inv step
  obtain rfl : s = _ := step.1
  refine kept.still inv (.refl _) ?_ rfl rfl (fun _ _ => .refl _) (fun _ _ carried => carried)
    kept.provided (absurd rfl) ?_
  · intro able
    simp only [Able, resolveCacheFns, able.1, able.2.1, able.2.2, Bool.true_or, and_self]
  · intro e member
    cases member

theorem kept_hook {a : Action} (kept : Kept g path r)
    (self : selfPath g.process g.uid = some path)
    (exports : g.process.exported = ⟨true, true, true, true⟩) (grows : Grows g.blobs)
    (within : Within g r (.hook a)) (careful : Careful g path r (.hook a))
    (hooks : Hooks g.platform g.process r.state r.disk a s d) : Kept g path (r.after a s d) := by
  have step := hooks.lawful
  obtain ⟨law, made⟩ := hooks
  refine Carried.kept ?_ kept
  cases a with
  | call t e =>
      obtain ⟨⟨idle, rfl⟩, rfl⟩ := made
      exact carried_call kept idle law
  | resolve fns =>
      obtain ⟨-, rfl⟩ := made
      exact carried_resolve kept step
  | advance t =>
      obtain ⟨k, phase, handed, w, run, rfl⟩ := made
      exact carried_advance kept self exports grows within careful run

theorem kept_set {name value : String} (kept : Kept g path r)
    (same : name = cacheGenProp → value = r.disk.props name) : Kept g path (r.set name value) := by
  have gen : (r.set name value).disk.props cacheGenProp = r.disk.props cacheGenProp := by
    simp only [Run.set]
    by_cases is_gen : name = cacheGenProp
    · rw [same is_gen, Function.update_eq_self]
    · exact Function.update_of_ne (Ne.symm is_gen) _ _
  have stale : (r.set name value).disk.Stale path ↔ r.disk.Stale path := by
    simp only [Disk.Stale, gen]
    rfl
  refine ⟨kept.inv, ?_, kept.slot, ?_, ?_, kept.noted, kept.provided, kept.located⟩
  · rw [gen]
    exact kept.worded
  · intro dev c found
    rw [stale]
    exact kept.settled found
  · intro some_compiled
    rw [stale]
    exact kept.current some_compiled

theorem kept_reachable (self : selfPath g.process g.uid = some path)
    (exports : g.process.exported = ⟨true, true, true, true⟩) (grows : Grows g.blobs)
    (reach : ((machine g).guarded fun r a => Within g r a ∧ Careful g path r a).Reachable r) :
    Kept g path r := by
  apply reach.invariant
  · intro r init
    obtain ⟨zero, nothing, unnoted, worded⟩ := init
    have no_slot : ∀ {dev c}, slotOf r.state.cache.devCaches dev ≠ some c := by
      intro dev c found
      rw [zero] at found
      obtain ⟨i, -, rfl⟩ := Option.map_eq_some_iff.mp found
      obtain ⟨is_zero, handle⟩ := slotOf_dev found
      exact handle is_zero.symm
    refine ⟨?_, worded, fun found => absurd found no_slot, fun found => absurd found no_slot,
      absurd nothing, ?_, ?_, ?_⟩
    · rw [zero]
      exact inv_zero
    · intro dev e member
      rw [unnoted] at member
      cases member
    · intro t
      rw [zero]
      trivial
    · intro e member
      rw [nothing] at member
      cases member
  · intro r a r' _ kept step
    obtain ⟨step, within, careful⟩ := step
    cases a with
    | hook a =>
        obtain ⟨s, d, hooks, rfl⟩ := step
        exact kept_hook kept self exports grows within careful hooks
    | setprop name value =>
        obtain ⟨same, rfl⟩ := step
        exact kept_set kept same

/-- In a run whose null-cache batches all find a slot and whose saves spare what the run has
saved, everything they compiled is in the file once the last device is gone. -/
theorem compiled_saved (self : selfPath g.process g.uid = some path)
    (exports : g.process.exported = ⟨true, true, true, true⟩) (grows : Grows g.blobs)
    (reach : ((machine g).guarded fun r a => Within g r a ∧ Careful g path r a).Reachable r)
    (last : r.Over) : r.Complete g path := by
  have kept : Kept g path r := kept_reachable self exports grows reach
  intro e member
  rcases kept.located e member with there | ⟨h, held, -⟩
  · exact there
  · exfalso
    obtain ⟨unheld, dropped⟩ := last
    rcases held with ⟨dev, among⟩ | ⟨t, carried⟩
    · cases found : slotOf r.state.cache.devCaches dev with
      | none =>
          rw [slotHandles_none found] at among
          cases among
      | some c =>
          rcases kept.inv.usage.present found with held | ⟨t, dropping⟩
          · cases (unheld dev).symm.trans held
          · exact dropped t dev dropping
    · have used : ∃ dev, (r.state.threads t).uses = some dev := by
        generalize r.state.threads t = now at carried
        cases now
        all_goals first
          | exact ⟨_, rfl⟩
          | cases carried
      obtain ⟨dev, used⟩ := used
      cases (unheld dev).symm.trans (kept.inv.usage.uses used)

/-- A device that goes leaves the file as it was if its cache has the size the slot noted, and
otherwise puts its cache in the place of whatever is in the file. -/
theorem destroyDevice_file {dev : VkDevice} {c : DevCache} {r' : Run E}
    (self : selfPath g.process g.uid = some path)
    (exports : g.process.exported = ⟨true, true, true, true⟩) (grows : Grows g.blobs)
    (reach : ((machine g).guarded fun r a => Within g r a ∧ Careful g path r a).Reachable r)
    (now : r.state.threads t = .droppingDevice dev)
    (found : slotOf r.state.cache.devCaches dev = some c)
    (within : Within g r (.hook (.advance t)))
    (step : (machine g).step r (.hook (.advance t)) r') :
    ((g.blobs.encode (grown r.disk c [])).length = c.lastSavedSize →
      ∀ e, InFile g.blobs path r'.disk e ↔ InFile g.blobs path r.disk e) ∧
    ((g.blobs.encode (grown r.disk c [])).length ≠ c.lastSavedSize →
      (g.blobs.encode (grown r.disk c [])).length ≠ 0 →
      ∀ e, InFile g.blobs path r'.disk e ↔ e ∈ grown r.disk c []) := by
  have kept : Kept g path r := kept_reachable self exports grows reach
  obtain ⟨s, d, ⟨-, k, phase, handed, w, run, -⟩, rfl⟩ := step
  obtain ⟨c', rewritten⟩ := kept.rewritten_dropping self run now found
  have under : (g.blobs.encode (grown r.disk c [])).length ≤
      capOf g.process r.disk.props "vkcachemax" cacheMaxMb := by
    simp only [Within, now] at within
    exact within c found
  constructor
  · intro same e
    rcases rewritten.file with ⟨kept_file, -⟩ | ⟨changed, -⟩
    · show InFile g.blobs path d e ↔ _
      simp only [InFile, kept_file]
    · exact absurd same changed
  · intro changed some_size e
    rcases rewritten.file with ⟨-, -, skipped⟩ | ⟨-, -, replaced⟩
    · rcases skipped rfl under with empty | same
      · exact absurd empty some_size
      · exact absurd same changed
    · constructor
      · intro there
        obtain ⟨data, es, is_file, decoded, member⟩ := there
        obtain rfl := Option.some.inj (replaced.symm.trans is_file)
        rw [show g.platform.blobs = g.blobs from rfl, g.blobs.decode_encode] at decoded
        obtain rfl := Option.some.inj decoded
        exact member
      · exact fun member => ⟨_, _, replaced, g.blobs.decode_encode _, member⟩

end Steps

section Runs

/-- Entries are bytes. A blob starts with what tells the driver by; that of a driver that tells
itself by another byte is thrown away. -/
def marked : Blobs UInt8 where
  encode es := 1 :: es
  decode
    | 1 :: es => some es
    | _ => none
  decode_encode _ := rfl

def game : App UInt8 where
  process := fullProcess
  uid := 10000
  blobs := marked

private theorem game_self : selfPath game.process game.uid = some gamePath := by decide +kernel

private theorem game_grows : Grows game.blobs := fun _ es _ =>
  Nat.lt_succ_self (es.length + 1)

/-- The next state, if `fine` allows that; a batch compiles `x.2`. -/
def next (fine : Run UInt8 → Action → Bool) (r : Run UInt8) (x : Action × List UInt8) :
    Option (Run UInt8) :=
  if fine r x.1 then
    (go game.platform x.2 r.state r.disk x.1).map fun y => r.after x.1 y.1 y.2
  else none

private theorem next_moves {P : Run UInt8 → Event → Prop} {fine : Run UInt8 → Action → Bool}
    (meets : ∀ r a, fine r a = true → P r (.hook a)) (r : Run UInt8) (x : Action × List UInt8)
    (r' : Run UInt8) (alone : Alone r.state) (goes : next fine r x = some r') :
    (∃ a, ((machine game).guarded P).step r a r') ∧ Alone r'.state := by
  simp only [next] at goes
  split_ifs at goes with allowed
  obtain ⟨⟨s, d⟩, went, rfl⟩ := Option.map_eq_some_iff.mp goes
  obtain ⟨hooks, alone'⟩ := go_hooks (fun _ _ => trivial) alone went
  exact ⟨⟨.hook x.1, ⟨s, d, hooks, rfl⟩, meets r x.1 allowed⟩, alone'⟩

/-- Nothing has run yet, and that is at the path. -/
def installed (file : Option Bytes) : Run UInt8 where
  state := State.zero
  disk := ⟨fun path => if path = gamePath then file else none, fun _ => "", fun _ => "",
    fun _ => [], []⟩
  compiled := []
  noted _ := []

private theorem init_installed (file : Option Bytes) : (machine game).init (installed file) := by
  refine ⟨rfl, rfl, fun _ => rfl, ?_⟩
  simp [Worded, installed]

private theorem over_held {r : Run UInt8} (inv : Inv r.state) (alone : Alone r.state)
    (none_held : ((List.range 64).all fun dev => !r.state.devices dev) = true)
    (idle : (r.state.threads 0 == .idle) = true) : r.Over := by
  constructor
  · intro dev
    by_contra held
    obtain ⟨n, live⟩ := inv.usage.live (by simpa using held)
    have small : dev < 64 := by
      by_contra large
      rw [(alone.few dev (not_lt.mp large)).1] at live
      cases live
    have unheld := List.all_eq_true.mp none_held dev (List.mem_range.mpr small)
    simp [held] at unheld
  · intro t dev dropping
    by_cases same : t = 0
    · rw [same, beq_iff_eq.mp idle] at dropping
      cases dropping
    · rw [alone.idle t same] at dropping
      cases dropping

private theorem hooks_inv {r r' : Run UInt8} {a : Event} (inv : Inv r.state)
    (step : (machine game).step r a r') : Inv r'.state := by
  cases a with
  | hook a =>
      obtain ⟨s, d, hooks, rfl⟩ := step
      exact inv_step inv hooks.lawful
  | setprop name value =>
      obtain ⟨-, rfl⟩ := step
      exact inv

private theorem reachable_run {P : Run UInt8 → Event → Prop} {fine : Run UInt8 → Action → Bool}
    (meets : ∀ r a, fine r a = true → P r (.hook a)) {A : Type} (look : Run UInt8 → A) {a : A}
    {file : Option Bytes} {moves : List (Action × List UInt8)}
    (ran : (moves.foldlM (next fine) (installed file)).map look = some a) :
    ∃ r : Run UInt8, ((machine game).guarded P).Reachable r ∧ Inv r.state ∧ Alone r.state ∧
      look r = a := by
  obtain ⟨r, played, seen⟩ := Option.map_eq_some_iff.mp ran
  have start : ((machine game).guarded P).Reachable (installed file) :=
    .start (init_installed file)
  obtain ⟨reach, alone⟩ := start.moved (next_moves meets) alone_zero moves played
  have inv : Inv r.state := by
    refine reach.invariant ?_ fun _ _ _ _ inv step => hooks_inv inv step.1
    rintro s ⟨zero, -⟩
    exact zero ▸ inv_zero
  exact ⟨r, reach, inv, alone, seen⟩

/-- What the theorems about whole runs speak of. -/
private def view (r : Run UInt8) : Option Bytes × List UInt8 × Bool × Bool :=
  (r.disk.files gamePath, r.compiled, (List.range 64).all fun dev => !r.state.devices dev,
    r.state.threads 0 == .idle)

private theorem over_run {P : Run UInt8 → Event → Prop} {fine : Run UInt8 → Action → Bool}
    (meets : ∀ r a, fine r a = true → P r (.hook a)) {moves : List (Action × List UInt8)}
    {file : Option Bytes} {compiled : List UInt8}
    (ran : (moves.foldlM (next fine) (installed none)).map view =
      some (file, compiled, true, true)) :
    ∃ r : Run UInt8, ((machine game).guarded P).Reachable r ∧ r.Over ∧
      r.disk.files gamePath = file ∧ r.compiled = compiled := by
  obtain ⟨r, reach, inv, alone, seen⟩ := reachable_run meets view ran
  simp only [view, Prod.mk.injEq] at seen
  obtain ⟨is_file, is_compiled, none_held, idle⟩ := seen
  exact ⟨r, reach, over_held inv alone none_held idle, is_file, is_compiled⟩

/-- Batches that compile these entries. -/
def compiling (made : List UInt8) (actions : List Action) : List (Action × List UInt8) :=
  actions.map fun a => (a, made)

/-- Five devices at once, of which the first four get the slots. -/
def crowded : List (Action × List UInt8) :=
  compiling [7] (newDevice ++ newDevice ++ newDevice ++ newDevice ++ newDevice ++ newCache 1 ++
    newCache 2 ++ newCache 3 ++ newCache 4 ++ compile 5 ++ endDevice 1 ++ endDevice 2 ++
    endDevice 3 ++ endDevice 4 ++ endDevice 5)

private def roomy (r : Run UInt8) : Action → Bool
  | .advance t =>
      match r.state.threads t with
      | .compiled b => (slotOf r.state.cache.devCaches b.dev).all fun c =>
          c.pending.length < pendingMax
      | .droppingDevice dev => (slotOf r.state.cache.devCaches dev).all fun c =>
          (marked.encode (grown r.disk c [])).length ≤
            capOf game.process r.disk.props "vkcachemax" cacheMaxMb
      | _ => true
  | _ => true

private theorem within_roomy (r : Run UInt8) (a : Action) (fine : roomy r a = true) :
    Within game r (.hook a) := by
  cases a with
  | advance t =>
      simp only [Within]
      simp only [roomy] at fine
      cases now : r.state.threads t with
      | compiled b =>
          intro _ c found
          simpa [now, found] using fine
      | droppingDevice dev =>
          intro c found
          have under : (marked.encode (grown r.disk c [])).length ≤
              capOf game.process r.disk.props "vkcachemax" cacheMaxMb := by
            simpa [now, found] using fine
          exact under
      | _ => trivial
  | _ => trivial

/-- What the fifth device compiled is nowhere. -/
theorem compiled_lost : selfPath game.process game.uid = some gamePath ∧
    game.process.exported = ⟨true, true, true, true⟩ ∧ Grows game.blobs ∧
    ∃ r, ((machine game).guarded (Within game)).Reachable r ∧ r.Over ∧
      ¬ r.Complete game gamePath := by
  have ran : (crowded.foldlM (next roomy) (installed none)).map view =
      some (some [1], [7], true, true) := by decide +kernel
  obtain ⟨r, reach, last, file, compiled⟩ := over_run within_roomy ran
  refine ⟨game_self, rfl, game_grows, r, reach, last, fun complete => ?_⟩
  obtain ⟨data, es, there, decoded, member⟩ :=
    complete 7 (by rw [compiled]; exact List.mem_singleton.mpr rfl)
  obtain rfl := Option.some.inj (file.symm.trans there)
  obtain rfl := Option.some.inj decoded
  cases member

/-- The file is in the cache that is written over it. -/
private def spares (r : Run UInt8) (c : DevCache) (srcs : List VkPipelineCache) : Bool :=
  ((r.disk.files gamePath).bind marked.decode).all fun es =>
    es.all fun e => (grown r.disk c srcs).contains e

private theorem spares_meets {r : Run UInt8} {c : DevCache} {srcs : List VkPipelineCache}
    (fine : spares r c srcs = true) : Spares game gamePath r c srcs := by
  intro _ e _ there
  obtain ⟨data, es, is_file, decoded, member⟩ := there
  have is_decoded : marked.decode data = some es := decoded
  have all : es.all (fun e => (grown r.disk c srcs).contains e) = true := by
    simpa [spares, is_file, is_decoded] using fine
  simpa using List.all_eq_true.mp all e member

private def careful (r : Run UInt8) : Action → Bool
  | .advance t => roomy r (.advance t) &&
      match r.state.threads t with
      | .arrived b => (cacheClaim r.state.cache.devCaches b.dev).isSome
      | .compiled b => (slotOf r.state.cache.devCaches b.dev).all fun c => spares r c (sources b)
      | .droppingDevice dev => (slotOf r.state.cache.devCaches dev).all fun c =>
          spares r c [] && ((marked.encode (grown r.disk c [])).length != c.lastSavedSize ||
            (marked.encode (r.noted dev)).length == c.lastSavedSize)
      | _ => true
  | _ => true

private theorem careful_meets (r : Run UInt8) (a : Action) (fine : careful r a = true) :
    Within game r (.hook a) ∧ Careful game gamePath r (.hook a) := by
  cases a with
  | advance t =>
      simp only [careful, Bool.and_eq_true] at fine
      obtain ⟨room, fine⟩ := fine
      refine ⟨within_roomy r _ room, ?_⟩
      simp only [Careful]
      cases now : r.state.threads t with
      | arrived b =>
          intro _ missing
          simp [now, missing] at fine
      | compiled b =>
          simp only [now] at fine
          intro c found _
          exact spares_meets (by simpa [found] using fine)
      | droppingDevice dev =>
          simp only [now] at fine
          intro c found
          obtain ⟨spared, sized⟩ : spares r c [] = true ∧ _ := by simpa [found] using fine
          exact ⟨spares_meets spared, fun same => sized.resolve_left (absurd same)⟩
      | _ => trivial
  | call t e => exact ⟨trivial, trivial⟩
  | resolve fns => exact ⟨trivial, trivial⟩

/-- The second device adds to what the first has left, the third compiles nothing new. -/
def inTurn : List (Action × List UInt8) :=
  compiling [7] (newDevice ++ compile 1 ++ endDevice 1) ++
    compiling [8] (newDevice ++ compile 1 ++ endDevice 1 ++ newDevice ++ compile 1 ++ endDevice 1)

theorem compiled_saved_inTurn : ∃ r : Run UInt8,
    ((machine game).guarded fun r a => Within game r a ∧ Careful game gamePath r a).Reachable r ∧
      r.Over ∧ r.compiled = [8, 8, 7] ∧ r.disk.files gamePath = some [1, 8, 7] ∧
      r.Complete game gamePath := by
  have ran : (inTurn.foldlM (next careful) (installed none)).map view =
      some (some [1, 8, 7], [8, 8, 7], true, true) := by decide +kernel
  obtain ⟨r, reach, last, file, compiled⟩ := over_run
    (P := fun r a => Within game r a ∧ Careful game gamePath r a) careful_meets ran
  exact ⟨r, reach, last, compiled, file, compiled_saved game_self rfl game_grows reach last⟩

/-- Two devices at once; the first has saved, the second is about to. -/
def together : List (Action × List UInt8) :=
  compiling [7] (newDevice ++ compile 1) ++
    compiling [8] (newDevice ++ compile 2 ++ endDevice 1 ++ [.call 0 (.destroyDevice 2)])

/-- A device that is about to save. -/
def alone : List (Action × List UInt8) :=
  compiling [7] (newDevice ++ compile 1 ++ [.call 0 (.destroyDevice 1)])

/-- A device is about to save what its cache has grown to. -/
structure Departure where
  grown : List UInt8
  lastSavedSize : Nat
  file : Option Bytes
  compiled : List UInt8
  deriving DecidableEq

private def departing (dev : VkDevice) (r : Run UInt8) : Option Departure :=
  if r.state.threads 0 = .droppingDevice dev ∧ roomy r (.advance 0) = true ∧
      (next (fun _ _ => true) r (.advance 0, [])).isSome = true then
    (slotOf r.state.cache.devCaches dev).map fun c =>
      ⟨grown r.disk c [], c.lastSavedSize, r.disk.files gamePath, r.compiled⟩
  else none

private theorem departing_run {dev : VkDevice} {leaves : Departure} {file : Option Bytes}
    {moves : List (Action × List UInt8)}
    (ran : (moves.foldlM (next careful) (installed file)).map (departing dev) =
      some (some leaves)) :
    ∃ r c r', ((machine game).guarded fun r a => Within game r a ∧
        Careful game gamePath r a).Reachable r ∧
      r.state.threads 0 = .droppingDevice dev ∧ slotOf r.state.cache.devCaches dev = some c ∧
      Within game r (.hook (.advance 0)) ∧ (machine game).step r (.hook (.advance 0)) r' ∧
      grown r.disk c [] = leaves.grown ∧ c.lastSavedSize = leaves.lastSavedSize ∧
      r.disk.files gamePath = leaves.file ∧ r.compiled = leaves.compiled := by
  obtain ⟨r, reach, -, alone, seen⟩ := reachable_run
    (P := fun r a => Within game r a ∧ Careful game gamePath r a) careful_meets (departing dev) ran
  unfold departing at seen
  split_ifs at seen with ready
  obtain ⟨now, room, goes⟩ := ready
  obtain ⟨c, found, rfl⟩ := Option.map_eq_some_iff.mp seen
  obtain ⟨r', goes⟩ := Option.isSome_iff_exists.mp goes
  obtain ⟨⟨s, d⟩, went, rfl⟩ := Option.map_eq_some_iff.mp goes
  have hooks := (go_hooks (fun _ _ => trivial) alone went).1
  exact ⟨r, c, _, reach, now, found, within_roomy r _ room, ⟨s, d, hooks, rfl⟩, rfl, rfl, rfl,
    rfl⟩

/-- What the first of two devices compiled goes from the file; what a device compiled whose driver
threw a blob of that size away never gets there. -/
theorem destroyDevice_file_loses :
    (∃ r r' : Run UInt8, r.state.threads 0 = .droppingDevice 2 ∧
      (machine game).step r (.hook (.advance 0)) r' ∧ 7 ∈ r.compiled ∧
      InFile marked gamePath r.disk 7 ∧ ¬ InFile marked gamePath r'.disk 7) ∧
    ∃ r r' : Run UInt8, r.state.threads 0 = .droppingDevice 1 ∧
      (machine game).step r (.hook (.advance 0)) r' ∧ 7 ∈ r.compiled ∧
      (∃ c, slotOf r.state.cache.devCaches 1 = some c ∧ 7 ∈ grown r.disk c []) ∧
      ¬ InFile marked gamePath r'.disk 7 := by
  have overwritten : (together.foldlM (next careful) (installed none)).map (departing 2) =
      some (some ⟨[8], 0, some [1, 7], [8, 7]⟩) := by decide +kernel
  have skipped : (alone.foldlM (next careful) (installed (some [2, 9]))).map (departing 1) =
      some (some ⟨[7], 2, some [2, 9], [7]⟩) := by decide +kernel
  constructor
  · obtain ⟨r, c, r', reach, now, found, within, step, holds, size, file, compiled⟩ :=
      departing_run overwritten
    have after := (destroyDevice_file game_self rfl game_grows reach now found within step).2
    rw [holds, size] at after
    refine ⟨r, r', now, step, by rw [compiled]; decide, ⟨_, [7], file, rfl, by decide⟩, ?_⟩
    rw [show marked = game.blobs from rfl, after (by decide) (by decide)]
    decide
  · obtain ⟨r, c, r', reach, now, found, within, step, holds, size, file, compiled⟩ :=
      departing_run skipped
    have after := (destroyDevice_file game_self rfl game_grows reach now found within step).1
    rw [holds, size] at after
    refine ⟨r, r', now, step, by rw [compiled]; decide, ⟨c, found, by rw [holds]; decide⟩, ?_⟩
    rw [show marked = game.blobs from rfl, after rfl]
    rintro ⟨data, es, there, decoded, -⟩
    obtain rfl := Option.some.inj (file.symm.trans there)
    cases decoded

end Runs

end XdPlus.Vulkan.CacheCompleteness
