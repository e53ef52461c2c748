/- Module: XdPlus/Vulkan/PipelineLedger
   source: vulkan/vkshim.c, cache_lookup .. drain_pending, compile_batch
   digest: What the sections under cache_mu do to the caches of one device. -/

import XdPlus.Base.Ownership
import XdPlus.Vulkan.PipelineBatches

set_option autoImplicit false
set_option relaxedAutoImplicit false

namespace XdPlus.Vulkan.PipelineLedger

open XdPlus.Base Common Driver PipelineCache PipelineBatches

section Table

variable {d d' : DevCaches} {dev other : VkDevice} {i : Fin devCacheMax} {c : DevCache}

/-- No device has two slots. -/
def Keyed (d : DevCaches) : Prop := ∀ i j, (d i).dev ≠ 0 → (d i).dev = (d j).dev → i = j

def slotOf (d : DevCaches) (dev : VkDevice) : Option DevCache := (cacheLookup d dev).map d

theorem cacheLookup_dev (found : cacheLookup d dev = some i) : (d i).dev = dev ∧ dev ≠ 0 := by
  unfold cacheLookup at found
  split_ifs at found with null
  have here := firstIndex_holds found
  exact ⟨by simpa using here, null⟩

theorem cacheLookup_eq (keyed : Keyed d) (here : (d i).dev = dev) (handle : dev ≠ 0) :
    cacheLookup d dev = some i := by
  unfold cacheLookup
  rw [if_neg handle]
  refine firstIndex_unique (by simpa using here) fun j same => ?_
  have also : (d j).dev = dev := by simpa using same
  exact keyed j i (also ▸ handle) (also.trans here.symm)

theorem cacheLookup_none (missing : cacheLookup d dev = none) (handle : dev ≠ 0)
    (i : Fin devCacheMax) : (d i).dev ≠ dev := by
  unfold cacheLookup at missing
  rw [if_neg handle] at missing
  simpa using firstIndex_eq_none.mp missing i

theorem slotOf_some (found : cacheLookup d dev = some i) : slotOf d dev = some (d i) := by
  simp [slotOf, found]

theorem slotOf_dev (found : slotOf d dev = some c) : c.dev = dev ∧ dev ≠ 0 := by
  unfold slotOf at found
  cases lookup : cacheLookup d dev with
  | none => simp [lookup] at found
  | some i =>
      obtain rfl : d i = c := by simpa [lookup] using found
      exact cacheLookup_dev lookup

theorem slotOf_update (keyed' : Keyed (Function.update d i c))
    (before : (d i).dev ≠ other) (after : c.dev ≠ other) :
    slotOf (Function.update d i c) other = slotOf d other := by
  rcases eq_or_ne other 0 with rfl | handle
  · simp [slotOf, cacheLookup]
  cases lookup : cacheLookup d other with
  | some j =>
      have ne : j ≠ i := by
        rintro rfl
        exact before (cacheLookup_dev lookup).1
      have here : (Function.update d i c j).dev = other := by
        rw [Function.update_of_ne ne]
        exact (cacheLookup_dev lookup).1
      rw [slotOf_some (cacheLookup_eq keyed' here handle), slotOf_some lookup,
        Function.update_of_ne ne]
  | none =>
      cases lookup' : cacheLookup (Function.update d i c) other with
      | none => simp [slotOf, lookup, lookup']
      | some j =>
          have here := (cacheLookup_dev lookup').1
          rcases eq_or_ne j i with rfl | ne
          · rw [Function.update_self] at here
            exact absurd here after
          · rw [Function.update_of_ne ne] at here
            exact absurd here (cacheLookup_none lookup handle j)

theorem Keyed.update (keyed : Keyed d) (unique : ∀ j, j ≠ i → (d j).dev = c.dev → c.dev = 0) :
    Keyed (Function.update d i c) := by
  intro j k handle same
  rcases eq_or_ne j i with rfl | jne
  · rcases eq_or_ne k j with rfl | kne
    · rfl
    · rw [Function.update_self, Function.update_of_ne kne] at same
      rw [Function.update_self] at handle
      exact absurd (unique k kne same.symm) handle
  · rw [Function.update_of_ne jne] at handle same
    rcases eq_or_ne k i with rfl | kne
    · rw [Function.update_self] at same
      exact absurd (same ▸ unique j jne same) handle
    · rw [Function.update_of_ne kne] at same
      exact keyed j k handle same

/-- Only the slot of `dev` differs between two tables. -/
structure OnlySlot (dev : VkDevice) (d d' : DevCaches) : Prop where
  keyed : Keyed d'
  others : ∀ other, other ≠ dev → slotOf d' other = slotOf d other

theorem OnlySlot.refl (keyed : Keyed d) : OnlySlot dev d d := ⟨keyed, fun _ _ => rfl⟩

theorem OnlySlot.trans {d'' : DevCaches} (first : OnlySlot dev d d')
    (second : OnlySlot dev d' d'') : OnlySlot dev d d'' :=
  ⟨second.keyed, fun other ne => (second.others other ne).trans (first.others other ne)⟩

theorem onlySlot_set (keyed : Keyed d) (found : cacheLookup d dev = some i) (same : c.dev = dev) :
    OnlySlot dev d (Function.update d i c) ∧ slotOf (Function.update d i c) dev = some c ∧
      cacheLookup (Function.update d i c) dev = some i := by
  obtain ⟨here, handle⟩ := cacheLookup_dev found
  have keyed' : Keyed (Function.update d i c) := by
    refine keyed.update fun j ne also => ?_
    exact absurd (keyed j i (by rw [also, same]; exact handle)
      (by rw [also, same, here])) ne
  have lookup : cacheLookup (Function.update d i c) dev = some i :=
    cacheLookup_eq keyed' (by simpa using same) handle
  refine ⟨⟨keyed', fun other ne => ?_⟩, ?_, lookup⟩
  · exact slotOf_update keyed' (here ▸ ne.symm) (same ▸ ne.symm)
  · rw [slotOf_some lookup, Function.update_self]

theorem onlySlot_zero (keyed : Keyed d) (found : cacheLookup d dev = some i) :
    OnlySlot dev d (Function.update d i DevCache.zero) ∧
      slotOf (Function.update d i DevCache.zero) dev = none := by
  obtain ⟨here, handle⟩ := cacheLookup_dev found
  have keyed' : Keyed (Function.update d i DevCache.zero) := keyed.update fun _ _ _ => rfl
  refine ⟨⟨keyed', fun other ne => ?_⟩, ?_⟩
  · rcases eq_or_ne other 0 with rfl | nonzero
    · simp [slotOf, cacheLookup]
    · exact slotOf_update keyed' (here ▸ ne.symm) nonzero.symm
  · cases lookup : cacheLookup (Function.update d i DevCache.zero) dev with
    | none => simp [slotOf, lookup]
    | some j =>
        have there := (cacheLookup_dev lookup).1
        rcases eq_or_ne j i with rfl | ne
        · rw [Function.update_self] at there
          exact absurd there.symm handle
        · rw [Function.update_of_ne ne] at there
          exact absurd (keyed j i (there ▸ handle) (there.trans here.symm)) ne

theorem cacheClaim_spec (keyed : Keyed d) (handle : dev ≠ 0)
    (claimed : cacheClaim d dev = some (i, d')) :
    OnlySlot dev d d' ∧ cacheLookup d' dev = some i ∧
      d' i = (slotOf d dev).getD { DevCache.zero with dev := dev } := by
  unfold cacheClaim at claimed
  cases lookup : cacheLookup d dev with
  | some j =>
      rw [lookup] at claimed
      obtain ⟨rfl, rfl⟩ : j = i ∧ d = d' := by simpa using claimed
      exact ⟨.refl keyed, lookup, by simp [slotOf_some lookup]⟩
  | none =>
      rw [lookup] at claimed
      cases free : firstIndex fun i => decide ((d i).dev = 0) with
      | none => simp [free] at claimed
      | some j =>
          simp only [free, Option.some.injEq, Prod.mk.injEq] at claimed
          obtain ⟨rfl, rfl⟩ := claimed
          have empty : (d j).dev = 0 := by simpa using firstIndex_holds free
          have keyed' : Keyed (Function.update d j { DevCache.zero with dev := dev }) :=
            keyed.update fun k _ also => absurd also (cacheLookup_none lookup handle k)
          refine ⟨⟨keyed', fun other ne => ?_⟩, ?_, ?_⟩
          · rcases eq_or_ne other 0 with rfl | nonzero
            · simp [slotOf, cacheLookup]
            · exact slotOf_update keyed' (empty ▸ nonzero.symm) ne.symm
          · exact cacheLookup_eq keyed' (by simp) handle
          · simp [slotOf, lookup]

end Table

/-- What a cache is, its incarnation aside. -/
def kind (w : World) (pc : VkPipelineCache) : Option (VkDevice × Owner) :=
  (w.caches pc).map fun b => (b.dev, b.owner)

/-- The caches a call names, and the device it names them on. -/
def named : Call → Option (VkDevice × List VkPipelineCache)
  | .mergePipelineCaches dev dst srcs => some (dev, dst :: srcs)
  | .getPipelineCacheSize dev pc | .getPipelineCacheData dev pc _
  | .destroyPipelineCache dev pc | .createPipelines dev pc _ => some (dev, [pc])
  | _ => none

/-- A call names no cache that is `busy`, and only caches that were `given` or are the
shim's own on that device. -/
def Proper (busy given : VkPipelineCache → Prop) (w : World) (op : Call) : Prop :=
  ∀ dev pcs, named op = some (dev, pcs) → ∀ pc ∈ pcs, pc ≠ 0 →
    ¬ busy pc ∧ (given pc ∨ kind w pc = some (dev, .shim))

/-- Calls that bionic or the kernel answers. -/
def Quiet : Call → Prop
  | .malloc _ | .nowNs | .getuid | .systemPropertyGet _ | .systemPropertySet .. | .openRead _
  | .openWrite _ | .fstatSize _ | .read .. | .write .. | .close _ | .rename .. | .unlink _ => True
  | _ => False

/-- Calls that at most read the cache `pc`. -/
def Looks (dev : VkDevice) (pc : VkPipelineCache) (op : Call) : Prop :=
  Quiet op ∨ op = .getPipelineCacheSize dev pc ∨ ∃ size, op = .getPipelineCacheData dev pc size

section Calls

variable {busy given : VkPipelineCache → Prop} {w w' : World} {op : Call} {dev : VkDevice}
  {pc : VkPipelineCache}

theorem Quiet.still {ans : Answer op} (quiet : Quiet op) (answered : answers w op ans w') :
    w' = w := by
  cases op <;> first | exact quiet.elim | exact answered

theorem Quiet.proper (quiet : Quiet op) : Proper busy given w op := by
  intro dev pcs names
  cases op <;> first | exact quiet.elim | cases names

theorem Looks.still {ans : Answer op} (looks : Looks dev pc op)
    (answered : answers w op ans w') : w' = w := by
  rcases looks with quiet | rfl | ⟨size, rfl⟩
  · exact quiet.still answered
  · exact answered
  · exact answered

theorem Looks.proper (looks : Looks dev pc op)
    (fine : pc ≠ 0 → ¬ busy pc ∧ (given pc ∨ kind w pc = some (dev, .shim))) :
    Proper busy given w op := by
  intro dev' pcs names
  rcases looks with quiet | rfl | ⟨size, rfl⟩
  · exact quiet.proper dev' pcs names
  all_goals
    cases names
    intro h member handle
    obtain rfl : h = pc := by simpa using member
    exact fine handle

theorem ensures_quiet {α : Type} {p : Shim α} {post : α → Prop} (quiet : p.Always Quiet post) :
    p.Ensures answers (Proper busy given) w (fun a w' => post a ∧ w' = w) :=
  quiet.ensures (fun _ ok => ok.proper) (fun _ _ _ ok answered => ok.still answered)

end Calls

section File

variable {p : Process} {fns : CacheFns} {c : DevCache}

/-- What the file operations do not touch. -/
structure SameCore (c c' : DevCache) : Prop where
  dev : c'.dev = c.dev
  pc : c'.pc = c.pc
  masterInUse : c'.masterInUse = c.masterInUse
  pending : c'.pending = c.pending

theorem SameCore.refl (c : DevCache) : SameCore c c := ⟨rfl, rfl, rfl, rfl⟩

theorem SameCore.trans {c c' c'' : DevCache} (first : SameCore c c') (second : SameCore c' c'') :
    SameCore c c'' :=
  ⟨second.dev.trans first.dev, second.pc.trans first.pc,
    second.masterInUse.trans first.masterInUse, second.pending.trans first.pending⟩

theorem always_readPropOn (name : String) (gate : Gate) :
    (readPropOn name gate).Always Quiet (fun _ => True) := by
  cases gate with
  | none => exact ⟨trivial, fun _ => trivial⟩
  | some on => trivial

theorem always_readPropExplicitOn (name : String) (gate : Gate) :
    (readPropExplicitOn name gate).Always Quiet (fun _ => True) := by
  cases gate with
  | none => exact ⟨trivial, fun _ => trivial⟩
  | some on => trivial

private theorem always_capBytes (name : String) (defMb : Nat) :
    (capBytes p name defMb).Always Quiet (fun _ => True) := by
  simp only [capBytes, Prog.always_bind, Prog.always_call]
  refine ⟨trivial, fun v => ?_⟩
  split_ifs
  · exact ⟨trivial, fun _ => trivial⟩
  · trivial

private theorem always_readStamp (path : String) :
    (readStamp path).Always Quiet (fun _ => True) := by
  simp only [readStamp, Prog.always_bind, Prog.always_call]
  refine ⟨trivial, fun fd => ?_⟩
  cases fd with
  | none => trivial
  | some fd => exact ⟨trivial, fun _ => ⟨trivial, fun _ => trivial⟩⟩

theorem always_dropCacheIfStale (path : String) :
    (dropCacheIfStale path).Always Quiet (fun _ => True) := by
  simp only [dropCacheIfStale, Prog.always_bind, Prog.always_call]
  refine ⟨trivial, fun gen => ?_⟩
  split_ifs
  · trivial
  · simp only [Prog.always_bind]
    refine (always_readStamp _).mono fun stamp _ => ?_
    split_ifs
    · trivial
    · simp only [Prog.always_bind, Prog.always_call]
      refine ⟨trivial, fun _ => ⟨trivial, fun fd => ?_⟩⟩
      cases fd with
      | none => trivial
      | some fd => exact ⟨trivial, fun _ => ⟨trivial, fun _ => trivial⟩⟩

private theorem always_readWhole (fd : Nat) : (readWhole fd).Always Quiet (fun _ => True) := by
  simp only [readWhole, Prog.always_bind, Prog.always_call]
  refine ⟨trivial, fun size => ?_⟩
  cases size with
  | none => trivial
  | some size =>
      by_cases empty : size = 0
      · simp [empty]
      · simp only [empty, if_false, Prog.always_bind, Prog.always_call]
        refine ⟨trivial, fun room => ?_⟩
        split_ifs
        · refine ⟨trivial, fun data => ?_⟩
          cases data <;> trivial
        · trivial

theorem always_loadInitial (path : String) :
    (loadInitial path).Always Quiet (fun _ => True) := by
  unfold loadInitial
  split_ifs
  · trivial
  · simp only [Prog.always_bind, Prog.always_call]
    refine ⟨trivial, fun fd => ?_⟩
    cases fd with
    | none => trivial
    | some fd =>
        simp only [Prog.always_bind, Prog.always_call]
        exact (always_readWhole fd).mono fun _ _ => ⟨trivial, fun _ => trivial⟩

private theorem always_replaceFile (c : DevCache) (data : Bytes) :
    (replaceFile c data).Always Quiet (SameCore c) := by
  simp only [replaceFile, Prog.always_bind, Prog.always_call]
  refine ⟨trivial, fun fd => ?_⟩
  cases fd with
  | none => exact .refl c
  | some fd =>
      simp only [Prog.always_bind, Prog.always_call]
      refine ⟨trivial, fun written => ?_⟩
      have finish : ∀ closed : Bool, Prog.Always Quiet (do
          if closed then
            if ← Shim.call (.rename (c.path ++ ".tmp") c.path) then
              return { c with lastSavedSize := data.length }
            else return c
          else
            let _ ← Shim.call (.close fd)
            let _ ← Shim.call (.unlink (c.path ++ ".tmp"))
            return c : Shim DevCache) (SameCore c) := by
        intro closed
        cases closed with
        | true =>
            refine ⟨trivial, fun renamed => ?_⟩
            cases renamed
            · exact .refl c
            · exact ⟨rfl, rfl, rfl, rfl⟩
        | false => exact ⟨trivial, fun _ => ⟨trivial, fun _ => .refl c⟩⟩
      split_ifs
      · exact ⟨trivial, fun closed => finish closed⟩
      · exact finish false

theorem always_saveDiskCache (c : DevCache) (force : Bool) :
    (saveDiskCache p fns c force).Always (Looks c.dev c.pc) (SameCore c) := by
  unfold saveDiskCache
  split_ifs
  · exact .refl c
  · simp only [Prog.always_bind, Prog.always_call]
    refine ⟨.inl trivial, fun now => ?_⟩
    split_ifs
    · exact .refl c
    · simp only [Prog.always_bind, Prog.always_call]
      refine ⟨.inr (.inl rfl), fun sized => ?_⟩
      split_ifs
      · exact .refl c
      · simp only [Prog.always_bind]
        refine Prog.Always.mono ((always_capBytes _ _).weaken fun _ => .inl) fun cap _ => ?_
        split_ifs
        · exact ⟨rfl, rfl, rfl, rfl⟩
        · simp only [Prog.always_bind, Prog.always_call]
          refine ⟨.inl trivial, fun room => ?_⟩
          split_ifs
          · simp only [Prog.always_bind, Prog.always_call]
            refine ⟨.inr (.inr ⟨_, rfl⟩), fun got => ?_⟩
            split_ifs
            · exact ⟨rfl, rfl, rfl, rfl⟩
            · refine ((always_replaceFile _ _).weaken fun _ => .inl).mono fun c' same => ?_
              exact ⟨same.dev, same.pc, same.masterInUse, same.pending⟩
          · exact ⟨rfl, rfl, rfl, rfl⟩

end File

section Device

variable {p : Process} {fns : CacheFns} {c : DevCache} {w : World} {dev : VkDevice}
  {busy given : VkPipelineCache → Prop}

/-- The caches a slot is responsible for. -/
def handles (c : DevCache) : List VkPipelineCache := (if c.pc = 0 then [] else [c.pc]) ++ c.pending

@[simp] theorem mem_handles {pc : VkPipelineCache} :
    pc ∈ handles c ↔ (pc = c.pc ∧ c.pc ≠ 0) ∨ pc ∈ c.pending := by
  unfold handles
  split_ifs with null <;> simp [null]

theorem SameCore.handles_eq {c c' : DevCache} (same : SameCore c c') : handles c' = handles c := by
  simp [handles, same.pc, same.pending]

/-- A slot's caches are all there, and nobody else is at work with them. -/
structure Held (busy : VkPipelineCache → Prop) (w : World) (c : DevCache) : Prop where
  nodup : (handles c).Nodup
  live : ∀ pc ∈ handles c, kind w pc = some (c.dev, .shim)
  free : ∀ pc ∈ handles c, ¬ busy pc

theorem Held.master_not_pending (held : Held busy w c) (some_pc : c.pc ≠ 0) :
    c.pc ∉ c.pending := by
  have nodup := held.nodup
  simp only [handles, some_pc, if_false, List.cons_append, List.nil_append,
    List.nodup_cons] at nodup
  exact nodup.1

/-- Nothing but `gone` went. -/
structure Loses (gone : List VkPipelineCache) (w w' : World) : Prop where
  devices : w'.devices = w.devices
  rest : ∀ pc, pc ∉ gone → w'.caches pc = w.caches pc

theorem Loses.refl (gone : List VkPipelineCache) (w : World) : Loses gone w w :=
  ⟨rfl, fun _ _ => rfl⟩

theorem Loses.kind_eq {gone : List VkPipelineCache} {w w' : World} (loses : Loses gone w w')
    {pc : VkPipelineCache} (stays : pc ∉ gone) : kind w' pc = kind w pc := by
  simp only [kind, loses.rest pc stays]

theorem ensures_saveDiskCache (held : Held busy w c) (force : Bool) :
    (saveDiskCache p fns c force).Ensures answers (Proper busy given) w
      (fun c' w' => SameCore c c' ∧ w' = w) := by
  refine (always_saveDiskCache c force).ensures (fun op looks => looks.proper fun some_pc => ?_)
    (fun op ans w' looks answered => looks.still answered)
  have mine : c.pc ∈ handles c := by simp [some_pc]
  exact ⟨held.free _ mine, .inr (held.live _ mine)⟩

private theorem ensures_destroyAll (pcs : List VkPipelineCache) (nodup : pcs.Nodup)
    (live : ∀ pc ∈ pcs, kind w pc = some (dev, .shim)) (free : ∀ pc ∈ pcs, ¬ busy pc) :
    (destroyAll dev pcs).Ensures answers (Proper busy given) w (fun _ w' => Loses pcs w w') := by
  induction pcs generalizing w with
  | nil => exact .refl [] w
  | cons pc rest ih =>
      obtain ⟨fresh, nodup_rest⟩ := List.nodup_cons.mp nodup
      simp only [destroyAll, Prog.ensures_bind, Prog.ensures_call]
      refine ⟨?_, fun _ w' answered => ?_⟩
      · rintro _ _ ⟨⟩ h member -
        obtain rfl : h = pc := by simpa using member
        exact ⟨free h (List.mem_cons_self ..), .inr (live h (List.mem_cons_self ..))⟩
      · obtain rfl : w' = w.removeCache pc := answered
        have still : ∀ h, h ≠ pc → (w.removeCache pc).caches h = w.caches h := fun h ne =>
          World.caches_removeCache ne
        refine (ih nodup_rest (fun h member => ?_)
          (fun h member => free h (List.mem_cons_of_mem _ member))).mono ?_
        · have ne : h ≠ pc := by
            rintro rfl
            exact fresh member
          rw [kind, still h ne]
          exact live h (List.mem_cons_of_mem _ member)
        · intro _ w'' loses
          refine ⟨loses.devices, fun h stays => ?_⟩
          rw [List.mem_cons, not_or] at stays
          rw [loses.rest h stays.2, still h stays.1]

private theorem ensures_mergeInto (held : Held busy w c) :
    (mergeInto fns c c.pending).Ensures answers (Proper busy given) w (fun _ w' => w' = w) := by
  unfold mergeInto
  split_ifs with able
  · refine ⟨?_, fun _ w' answered => answered⟩
    rintro _ _ ⟨⟩ h member -
    have mine : h ∈ handles c := by
      rcases List.mem_cons.mp member with rfl | queued
      · simp [able.2]
      · simp [queued]
    exact ⟨held.free h mine, .inr (held.live h mine)⟩
  · exact rfl

/-- The queue is emptied; the master stays. -/
structure Drained (c c' : DevCache) : Prop where
  dev : c'.dev = c.dev
  pc : c'.pc = c.pc
  masterInUse : c'.masterInUse = c.masterInUse
  pending : c'.pending = []

theorem Drained.held {c c' : DevCache} {w' : World} (drained : Drained c c')
    (loses : Loses c.pending w w') (held : Held busy w c) : Held busy w' c' := by
  have only : ∀ pc, pc ∈ handles c' → pc = c.pc ∧ c.pc ≠ 0 := by
    intro pc member
    simpa [drained.pc, drained.pending] using member
  constructor
  · unfold handles
    rw [drained.pending]
    split_ifs <;> simp
  · intro pc member
    obtain ⟨rfl, some_pc⟩ := only pc member
    rw [loses.kind_eq (held.master_not_pending some_pc), drained.dev]
    exact held.live _ (by simp [some_pc])
  · intro pc member
    obtain ⟨rfl, some_pc⟩ := only pc member
    exact held.free _ (by simp [some_pc])

theorem ensures_drainPending (held : Held busy w c) :
    (drainPending fns c).Ensures answers (Proper busy given) w
      (fun c' w' => Drained c c' ∧ Loses c.pending w w') := by
  unfold drainPending
  by_cases empty : c.pending = []
  · rw [if_pos empty]
    exact ⟨⟨rfl, rfl, rfl, empty⟩, .refl _ w⟩
  · rw [if_neg empty]
    simp only [Prog.ensures_bind]
    refine (ensures_mergeInto held).mono ?_
    rintro _ _ rfl
    split_ifs
    · simp only [Prog.ensures_bind]
      refine (ensures_destroyAll c.pending (List.Nodup.of_append_right held.nodup)
        (fun pc member => held.live pc (by simp [member]))
        (fun pc member => held.free pc (by simp [member]))).mono ?_
      exact fun _ w' loses => ⟨⟨rfl, rfl, rfl, rfl⟩, loses⟩
    · exact ⟨⟨rfl, rfl, rfl, rfl⟩, .refl _ _⟩

theorem ensures_drainAndSave (held : Held busy w c) :
    (drainAndSave p fns c).Ensures answers (Proper busy given) w
      (fun c' w' => Drained c c' ∧ Loses c.pending w w') := by
  simp only [drainAndSave, Prog.ensures_bind]
  refine (ensures_drainPending held).mono ?_
  rintro c₁ w₁ ⟨drained, loses⟩
  refine (ensures_saveDiskCache (drained.held loses held) false).mono ?_
  rintro c₂ _ ⟨same, rfl⟩
  exact ⟨⟨same.dev.trans drained.dev, same.pc.trans drained.pc,
    same.masterInUse.trans drained.masterInUse, same.pending.trans drained.pending⟩, loses⟩

/-- A cache is made on a live device, or none is. -/
def Gains (dev : VkDevice) (owner : Owner) (made : Option VkPipelineCache) (w w' : World) : Prop :=
  match made with
  | none => w' = w
  | some pc => pc ≠ 0 ∧ w.caches pc = none ∧ w' = w.addCache pc dev owner

private theorem ensures_createPrimed (initial : Bytes) :
    (createPrimed dev initial).Ensures answers (Proper busy given) w
      (fun made w' => Gains dev .shim made w w') := by
  have allowed : ∀ data, Proper busy given w (.createPipelineCache .shim dev data) := by
    rintro data _ _ ⟨⟩
  simp only [createPrimed, Prog.ensures_bind, Prog.ensures_call]
  refine ⟨allowed initial, fun made w' answered => ?_⟩
  cases made with
  | some pc => exact answered
  | none =>
      obtain rfl : w' = w := answered
      split_ifs
      · exact rfl
      · refine ⟨allowed [], fun made w' answered => ?_⟩
        cases made <;> exact answered

/-- A slot `old` without a cache may have got one; all else about it is the same. -/
structure Primed (old : DevCache) (dev : VkDevice) (w : World) (pc : VkPipelineCache)
    (c : DevCache) (w' : World) : Prop where
  same_dev : c.dev = old.dev
  has : c.pc = pc
  masterInUse : c.masterInUse = old.masterInUse
  pending : c.pending = old.pending
  made : pc = old.pc ∧ w' = w ∨
    old.pc = 0 ∧ pc ≠ 0 ∧ w.caches pc = none ∧ w' = w.addCache pc dev .shim

private theorem ensures_loadDiskCache {c₁ : DevCache} (bare : c.pc = 0) (same : SameCore c c₁) :
    (loadDiskCache dev c₁).Ensures answers (Proper busy given) w
      (fun r w' => Primed c dev w r.1 r.2 w') := by
  simp only [loadDiskCache, Prog.ensures_bind]
  refine (ensures_quiet (always_loadInitial _)).mono ?_
  rintro initial _ ⟨-, rfl⟩
  refine (ensures_createPrimed initial).mono ?_
  intro made w₂ gains
  cases made with
  | none =>
      obtain rfl : w₂ = _ := gains
      exact ⟨same.dev, same.pc.trans bare, same.masterInUse, same.pending,
        .inl ⟨bare.symm, rfl⟩⟩
  | some pc =>
      obtain ⟨some_pc, fresh, rfl⟩ := gains
      refine ⟨Quiet.proper trivial, fun now w₃ answered => ?_⟩
      obtain rfl : w₃ = _ := answered
      exact ⟨same.dev, rfl, same.masterInUse, same.pending, .inr ⟨bare, some_pc, fresh, rfl⟩⟩

private theorem ensures_createDiskCache (bare : c.pc = 0) :
    (createDiskCache p dev c).Ensures answers (Proper busy given) w
      (fun r w' => Primed c dev w r.1 r.2 w') := by
  have path : (cachePathForSelf p).Always Quiet (fun _ => True) := by
    simp only [cachePathForSelf, Prog.always_bind, Prog.always_call]
    refine ⟨trivial, fun uid => ?_⟩
    split_ifs <;> trivial
  simp only [createDiskCache, Prog.ensures_bind]
  refine (ensures_quiet path).mono ?_
  rintro found _ ⟨-, rfl⟩
  cases found with
  | none => exact ensures_loadDiskCache bare (.refl c)
  | some path =>
      simp only [Prog.ensures_bind]
      refine (ensures_quiet (always_dropCacheIfStale path)).mono ?_
      rintro _ _ ⟨-, rfl⟩
      exact ensures_loadDiskCache bare ⟨rfl, rfl, rfl, rfl⟩

end Device

section Sections

variable {p : Process} {k k' : CacheState} {d d' : DevCaches} {w w' : World} {dev : VkDevice}
  {busy given : VkPipelineCache → Prop}

/-- The caches the slot of `dev` is responsible for. -/
def slotHandles (d : DevCaches) (dev : VkDevice) : List VkPipelineCache :=
  (slotOf d dev).elim [] handles

/-- What a section on `dev` starts from. -/
structure Ready (busy : VkPipelineCache → Prop) (d : DevCaches) (w : World) (dev : VkDevice) :
    Prop where
  keyed : Keyed d
  handle : dev ≠ 0
  device : ∃ n, w.devices dev = some n
  nodup : (slotHandles d dev).Nodup
  live : ∀ pc ∈ slotHandles d dev, kind w pc = some (dev, .shim)
  busy_live : ∀ pc, busy pc → w.caches pc ≠ none
  idle : ∀ c, slotOf d dev = some c → c.masterInUse = false → ∀ pc ∈ handles c, ¬ busy pc

theorem Ready.held {c : DevCache} (ready : Ready busy d w dev) (found : slotOf d dev = some c)
    (free : ∀ pc ∈ handles c, ¬ busy pc) : Held busy w c := by
  have same : slotHandles d dev = handles c := by simp [slotHandles, found]
  refine ⟨same ▸ ready.nodup, fun pc member => ?_, free⟩
  rw [(slotOf_dev found).1]
  exact ready.live pc (same ▸ member)

/-- What it leaves: only the slot of `dev` changes, what it holds afterwards it held before,
took over from the thread (`scratch`), or is new, and nothing went that it did not hold. -/
structure Turn (dev : VkDevice) (scratch : VkPipelineCache) (d d' : DevCaches) (w w' : World) :
    Prop where
  table : OnlySlot dev d d'
  devices : w'.devices = w.devices
  kept : ∀ pc, w.caches pc ≠ none → w'.caches pc = w.caches pc ∨ pc ∈ slotHandles d dev
  source : ∀ pc ∈ slotHandles d' dev,
    w.caches pc = none ∨ pc ∈ slotHandles d dev ∨ pc = scratch
  right : ∀ pc ∈ slotHandles d' dev, kind w' pc = some (dev, .shim)
  nodup : (slotHandles d' dev).Nodup

/-- A master in use stays where it is. -/
def KeepsMaster (dev : VkDevice) (d d' : DevCaches) : Prop :=
  ∀ c, slotOf d dev = some c → c.masterInUse = true → c.pc ≠ 0 →
    ∃ c', slotOf d' dev = some c' ∧ c'.masterInUse = true ∧ c'.pc = c.pc

theorem Turn.refl (ready : Ready busy d w dev) (scratch : VkPipelineCache) :
    Turn dev scratch d d w w where
  table := .refl ready.keyed
  devices := rfl
  kept _ _ := .inl rfl
  source _ member := .inr (.inl member)
  right := ready.live
  nodup := ready.nodup

theorem KeepsMaster.refl (dev : VkDevice) (d : DevCaches) : KeepsMaster dev d d :=
  fun c found used _ => ⟨c, found, used, rfl⟩

/-- The slot of `dev` after `ensure_disk_cache`, which returned `pc`. -/
structure Ensured (k : CacheState) (dev : VkDevice) (w : World) (pc : VkPipelineCache)
    (k' : CacheState) (w' : World) : Prop where
  inflight : k'.appInflight = k.appInflight
  table : OnlySlot dev k.devCaches k'.devCaches
  slot : (slotOf k.devCaches dev = none ∧ cacheLookup k'.devCaches dev = none ∧ pc = 0 ∧ w' = w) ∨
    ∃ i, cacheLookup k'.devCaches dev = some i ∧
      Primed ((slotOf k.devCaches dev).getD { DevCache.zero with dev := dev }) dev w pc
        (k'.devCaches i) w'

theorem ensures_ensureDiskCache (keyed : Keyed k.devCaches) (handle : dev ≠ 0) :
    (ensureDiskCache p k dev).Ensures answers (Proper busy given) w
      (fun r w' => Ensured k dev w r.1 r.2 w') := by
  unfold ensureDiskCache
  cases claimed : cacheClaim k.devCaches dev with
  | none =>
      have missing : cacheLookup k.devCaches dev = none := by
        unfold cacheClaim at claimed
        cases lookup : cacheLookup k.devCaches dev with
        | none => rfl
        | some i => simp [lookup] at claimed
      exact ⟨rfl, .refl keyed, .inl ⟨by simp [slotOf, missing], missing, rfl, rfl⟩⟩
  | some slot =>
      obtain ⟨i, d'⟩ := slot
      obtain ⟨only, lookup, was⟩ := cacheClaim_spec keyed handle claimed
      have same : Primed ((slotOf k.devCaches dev).getD { DevCache.zero with dev := dev }) dev w
          (d' i).pc (d' i) w := by
        rw [← was]
        exact ⟨rfl, rfl, rfl, rfl, .inl ⟨rfl, rfl⟩⟩
      by_cases has : (d' i).pc ≠ 0
      · simp only [has, ne_eq, not_false_eq_true, if_true]
        exact ⟨rfl, only, .inr ⟨i, lookup, same⟩⟩
      · have bare : (d' i).pc = 0 := not_not.mp has
        rw [bare] at same
        simp only [bare, ne_eq, not_true_eq_false, if_false]
        split_ifs
        · exact ⟨rfl, only, .inr ⟨i, lookup, same⟩⟩
        · simp only [Prog.ensures_bind]
          refine (ensures_createDiskCache bare).mono ?_
          rintro ⟨pc, c⟩ w' primed
          have dev_eq : c.dev = dev := primed.same_dev.trans (cacheLookup_dev lookup).1
          obtain ⟨only', -, lookup'⟩ := onlySlot_set only.keyed lookup dev_eq
          refine ⟨rfl, only.trans only', .inr ⟨i, lookup', ?_⟩⟩
          rw [← was]
          simpa [CacheState.setSlot] using primed

@[simp] theorem slotHandles_some {c : DevCache} (found : slotOf d dev = some c) :
    slotHandles d dev = handles c := by
  simp [slotHandles, found]

@[simp] theorem slotHandles_none (missing : slotOf d dev = none) : slotHandles d dev = [] := by
  simp [slotHandles, missing]

theorem kind_addCache_self {n : Nat} (device : w.devices dev = some n) (pc : VkPipelineCache)
    (owner : Owner) : kind (w.addCache pc dev owner) pc = some (dev, owner) := by
  simp [kind, World.addCache, device]

private theorem handles_getD (d : DevCaches) (dev : VkDevice) :
    handles ((slotOf d dev).getD { DevCache.zero with dev := dev }) = slotHandles d dev := by
  cases found : slotOf d dev with
  | none => simp [found, handles, DevCache.zero]
  | some c => simp [found]

private theorem Primed.handles_eq {old c : DevCache} {pc : VkPipelineCache}
    (primed : Primed old dev w pc c w') :
    (handles c = handles old ∧ w' = w) ∨
      (handles c = pc :: handles old ∧ w.caches pc = none ∧ w' = w.addCache pc dev .shim) := by
  rcases primed.made with ⟨same, rfl⟩ | ⟨bare, some_pc, fresh, rfl⟩
  · exact .inl ⟨by simp [handles, primed.has, primed.pending, same], rfl⟩
  · exact .inr ⟨by simp [handles, primed.has, primed.pending, bare, some_pc], fresh, rfl⟩

section Ensured

variable {pc : VkPipelineCache}

private theorem Ensured.handles_eq (ensured : Ensured k dev w pc k' w') :
    (slotHandles k'.devCaches dev = slotHandles k.devCaches dev ∧ w' = w) ∨
      (slotHandles k'.devCaches dev = pc :: slotHandles k.devCaches dev ∧ w.caches pc = none ∧
        w' = w.addCache pc dev .shim) := by
  rcases ensured.slot with ⟨missing, lookup, -, rfl⟩ | ⟨i, lookup, primed⟩
  · have missing' : slotOf k'.devCaches dev = none := by simp [slotOf, lookup]
    exact .inl ⟨by rw [slotHandles_none missing, slotHandles_none missing'], rfl⟩
  · rw [slotHandles_some (slotOf_some lookup), ← handles_getD k.devCaches dev]
    exact primed.handles_eq

theorem Ensured.turn (ensured : Ensured k dev w pc k' w') (ready : Ready busy k.devCaches w dev)
    (scratch : VkPipelineCache) : Turn dev scratch k.devCaches k'.devCaches w w' := by
  obtain ⟨n, device⟩ := ready.device
  rcases ensured.handles_eq with ⟨same, rfl⟩ | ⟨more, fresh, rfl⟩
  · refine ⟨ensured.table, rfl, fun _ _ => .inl rfl, fun h member => .inr (.inl (same ▸ member)),
      fun h member => ready.live h (same ▸ member), same ▸ ready.nodup⟩
  · have old : ∀ h, w.caches h ≠ none → h ≠ pc := by
      rintro h there rfl
      exact there fresh
    have there : ∀ h ∈ slotHandles k.devCaches dev, w.caches h ≠ none := by
      intro h member gone
      have live := ready.live h member
      rw [kind, gone] at live
      cases live
    refine ⟨ensured.table, rfl, fun h live => .inl (World.caches_addCache _ (old h live)), ?_, ?_,
      ?_⟩
    · intro h member
      rw [more, List.mem_cons] at member
      rcases member with rfl | before
      · exact .inl fresh
      · exact .inr (.inl before)
    · intro h member
      rw [more, List.mem_cons] at member
      rcases member with rfl | before
      · exact kind_addCache_self device h .shim
      · rw [kind, World.caches_addCache _ (old h (there h before))]
        exact ready.live h before
    · rw [more]
      exact List.nodup_cons.mpr ⟨fun member => there pc member fresh, ready.nodup⟩

theorem Ensured.keepsMaster (ensured : Ensured k dev w pc k' w') :
    KeepsMaster dev k.devCaches k'.devCaches := by
  intro c found used some_pc
  rcases ensured.slot with ⟨missing, -⟩ | ⟨i, lookup, primed⟩
  · rw [missing] at found
    cases found
  · rw [found, Option.getD_some] at primed
    refine ⟨_, slotOf_some lookup, primed.masterInUse.trans used, ?_⟩
    rcases primed.made with ⟨same, -⟩ | ⟨bare, -⟩
    · exact primed.has.trans same
    · exact absurd bare some_pc

theorem Ensured.ready (ensured : Ensured k dev w pc k' w')
    (ready : Ready busy k.devCaches w dev) : Ready busy k'.devCaches w' dev := by
  have turn := ensured.turn ready 0
  refine ⟨turn.table.keyed, ready.handle, ?_, turn.nodup, turn.right, ?_, ?_⟩
  · rw [turn.devices]
    exact ready.device
  · intro h is_busy
    have there := ready.busy_live h is_busy
    rcases ensured.handles_eq with ⟨-, rfl⟩ | ⟨-, fresh, rfl⟩
    · exact there
    · have ne : h ≠ pc := by
        rintro rfl
        exact there fresh
      rwa [World.caches_addCache _ ne]
  · intro c' found' unused h member is_busy
    rcases ensured.slot with ⟨-, lookup, -⟩ | ⟨i, lookup, primed⟩
    · simp [slotOf, lookup] at found'
    · obtain rfl : k'.devCaches i = c' := by simpa [slotOf_some lookup] using found'
      have not_before : h ∉ handles ((slotOf k.devCaches dev).getD
          { DevCache.zero with dev := dev }) := by
        intro before
        cases found : slotOf k.devCaches dev with
        | none => simp [found, handles, DevCache.zero] at before
        | some c =>
            rw [found, Option.getD_some] at primed before
            exact ready.idle c found (primed.masterInUse ▸ unused) h before is_busy
      rcases primed.handles_eq with ⟨same, -⟩ | ⟨more, fresh, -⟩
      · exact not_before (same ▸ member)
      · rw [more, List.mem_cons] at member
        rcases member with rfl | before
        · exact ready.busy_live h is_busy fresh
        · exact not_before before

end Ensured

section Batch

variable {b b' : Batch} {i : Fin devCacheMax} {c : DevCache} {scratch : VkPipelineCache}

private theorem turn_write (ready : Ready busy d w dev) (lookup : cacheLookup d dev = some i)
    (same : c.dev = dev) (devices : w'.devices = w.devices)
    (kept : ∀ pc, w.caches pc ≠ none → w'.caches pc = w.caches pc ∨ pc ∈ handles (d i))
    (source : ∀ pc ∈ handles c, pc ∈ handles (d i) ∨ pc = scratch)
    (right : ∀ pc ∈ handles c, kind w' pc = some (dev, .shim)) (nodup : (handles c).Nodup) :
    Turn dev scratch d (Function.update d i c) w w' := by
  obtain ⟨only, found', -⟩ := onlySlot_set ready.keyed lookup same
  refine ⟨only, devices, ?_, ?_, ?_, ?_⟩
  · rwa [slotHandles_some (slotOf_some lookup)]
  · rw [slotHandles_some found', slotHandles_some (slotOf_some lookup)]
    exact fun pc member => .inr (source pc member)
  · rwa [slotHandles_some found']
  · rwa [slotHandles_some found']

private theorem turn_drained {c' : DevCache} (ready : Ready busy d w dev)
    (lookup : cacheLookup d dev = some i) (same_handles : handles c = handles (d i))
    (same_dev : c.dev = (d i).dev) (held : Held busy w c) (drained : Drained c c')
    (loses : Loses c.pending w w') : Turn dev scratch d (Function.update d i c') w w' := by
  have here := (cacheLookup_dev lookup).1
  have held' := drained.held loses held
  refine turn_write ready lookup (drained.dev.trans (same_dev.trans here)) loses.devices ?_ ?_ ?_
    held'.nodup
  · intro pc _
    by_cases queued : pc ∈ c.pending
    · exact .inr (same_handles ▸ by simp [queued])
    · exact .inl (loses.rest pc queued)
  · intro pc member
    refine .inl (same_handles ▸ ?_)
    have : pc = c.pc ∧ c.pc ≠ 0 := by simpa [drained.pc, drained.pending] using member
    simp [this]
  · intro pc member
    rw [held'.live pc member, drained.dev, same_dev, here]

private theorem keepsMaster_write (ready : Ready busy d w dev)
    (lookup : cacheLookup d dev = some i) (same : c.dev = dev) (pc : c.pc = (d i).pc)
    (used : c.masterInUse = (d i).masterInUse) :
    KeepsMaster dev d (Function.update d i c) := by
  intro c₀ found in_use some_pc
  obtain rfl : d i = c₀ := by simpa [slotOf_some lookup] using found
  exact ⟨c, (onlySlot_set ready.keyed lookup same).2.1, used.trans in_use, pc⟩

/-- The first section of a batch. -/
structure BatchBegun (k : CacheState) (b : Batch) (w : World) (k' : CacheState) (b' : Batch)
    (w' : World) : Prop where
  turn : Turn b.dev 0 k.devCaches k'.devCaches w w'
  keeps : KeepsMaster b.dev k.devCaches k'.devCaches
  inflight : k'.appInflight =
    if b.appCache ≠ 0 then (appCacheRef k.appInflight b.appCache).2 else k.appInflight
  batch : (∃ own slot, b' = { b with ownMaster := own, cacheSlot := slot } ∧ b.appCache = 0) ∨
    (b.appCache ≠ 0 ∧ b' = { b with appTracked := (appCacheRef k.appInflight b.appCache).1 })
  slot : (b'.ownMaster = b.ownMaster ∧ b'.cacheSlot = b.cacheSlot) ∨
    (b'.ownMaster = true ∧ b'.cacheSlot ≠ 0 ∧
      (∀ c, slotOf k.devCaches b.dev = some c → c.masterInUse = false) ∧
      ∃ c, slotOf k'.devCaches b.dev = some c ∧ c.masterInUse = true ∧ c.pc = b'.cacheSlot)

theorem ensures_batchBegin (ready : Ready busy k.devCaches w b.dev) :
    (batchBegin p k b).Ensures answers (Proper busy given) w
      (fun r w' => BatchBegun k b w r.1 r.2 w') := by
  simp only [batchBegin, Prog.ensures_bind]
  refine (ensures_ensureDiskCache ready.keyed ready.handle).mono ?_
  rintro ⟨pc, k₁⟩ w₁ ensured
  have turn := ensured.turn ready 0
  by_cases own_cache : b.appCache ≠ 0
  · rw [if_pos own_cache]
    refine ⟨turn, ensured.keepsMaster, ?_, .inr ⟨own_cache, ?_⟩, .inl ⟨rfl, rfl⟩⟩
    · rw [if_pos own_cache, ensured.inflight]
    · rw [ensured.inflight]
  · have null : b.appCache = 0 := not_not.mp own_cache
    have refused : BatchBegun k b w k₁ b w₁ :=
      ⟨turn, ensured.keepsMaster, by rw [if_neg own_cache, ensured.inflight],
        .inl ⟨b.ownMaster, b.cacheSlot, rfl, null⟩, .inl ⟨rfl, rfl⟩⟩
    rw [if_neg own_cache]
    rcases ensured.slot with ⟨-, missing, -⟩ | ⟨i, lookup, primed⟩
    · simp only [missing]
      exact refused
    · simp only [lookup]
      split_ifs with free
      · obtain ⟨some_pc, unused⟩ := free
        have here := (cacheLookup_dev lookup).1
        have same : handles { k₁.devCaches i with masterInUse := true } =
            handles (k₁.devCaches i) := rfl
        obtain ⟨only, found', -⟩ := onlySlot_set (c := { k₁.devCaches i with
          masterInUse := true }) turn.table.keyed lookup here
        have unchanged : slotHandles (k₁.setSlot i { k₁.devCaches i with
            masterInUse := true }).devCaches b.dev = slotHandles k₁.devCaches b.dev := by
          rw [slotHandles_some (slotOf_some lookup)]
          exact (slotHandles_some found').trans same
        have was_unused : ∀ c, slotOf k.devCaches b.dev = some c → c.masterInUse = false := by
          intro c found
          rw [found, Option.getD_some] at primed
          exact primed.masterInUse ▸ unused
        refine ⟨⟨turn.table.trans only, turn.devices, turn.kept, ?_, ?_, ?_⟩, ?_, ?_,
          .inl ⟨true, pc, rfl, null⟩, .inr ⟨rfl, some_pc, was_unused, _, found', rfl, primed.has⟩⟩
        · rw [unchanged]
          exact turn.source
        · rw [unchanged]
          exact turn.right
        · rw [unchanged]
          exact turn.nodup
        · intro c found used
          rw [was_unused c found] at used
          cases used
        · rw [if_neg own_cache]
          exact ensured.inflight
      · exact refused

/-- What the last section of a batch relies on. -/
structure BatchEnds (busy given : VkPipelineCache → Prop) (d : DevCaches) (w : World)
    (b : Batch) : Prop where
  ready : Ready busy d w b.dev
  master : b.ownMaster = true → ∀ pc ∈ slotHandles d b.dev, ¬ busy pc
  scratch : b.scratch ≠ 0 →
    kind w b.scratch = some (b.dev, .shim) ∧ ¬ busy b.scratch ∧ b.scratch ∉ slotHandles d b.dev
  app : b.appCache ≠ 0 → given b.appCache ∧ ¬ busy b.appCache

/-- The last section of a batch. -/
structure BatchEnded (k : CacheState) (b : Batch) (w : World) (k' : CacheState) (b' : Batch)
    (w' : World) : Prop where
  turn : Turn b.dev b.scratch k.devCaches k'.devCaches w w'
  keeps : b.ownMaster = false → KeepsMaster b.dev k.devCaches k'.devCaches
  inflight : k'.appInflight =
    if b.ownMaster = false ∧ b.appCache ≠ 0 then (appCacheLeave k.appInflight b).2
    else k.appInflight
  batch : ∃ left, b' = { b with scratch := left } ∧
    (left = 0 ∨ left = b.scratch ∧ b.scratch ∉ slotHandles k'.devCaches b.dev)

private theorem ensures_endMaster (ends : BatchEnds busy given k.devCaches w b)
    (own : b.ownMaster = true) (no_scratch : b.scratch = 0) :
    (endMaster p k b).Ensures answers (Proper busy given) w
      (fun k' w' => BatchEnded k b w k' b w') := by
  have inflight : k.appInflight = if b.ownMaster = false ∧ b.appCache ≠ 0 then
      (appCacheLeave k.appInflight b).2 else k.appInflight := by
    simp [own]
  have batch : ∃ left, b = { b with scratch := left } ∧
      (left = 0 ∨ left = b.scratch ∧ b.scratch ∉ slotHandles k.devCaches b.dev) :=
    ⟨b.scratch, rfl, .inl no_scratch⟩
  have mastered : ∀ {d' : DevCaches}, b.ownMaster = false → KeepsMaster b.dev k.devCaches d' := by
    intro d' not_own
    rw [own] at not_own
    cases not_own
  unfold endMaster
  cases lookup : cacheLookup k.devCaches b.dev with
  | none => exact ⟨.refl ends.ready _, mastered, inflight, batch⟩
  | some i =>
      simp only [Prog.ensures_bind]
      have held : Held busy w { k.devCaches i with masterInUse := false } := by
        have as_is := ends.ready.held (slotOf_some lookup) fun pc member =>
          ends.master own pc (by rwa [slotHandles_some (slotOf_some lookup)])
        exact ⟨as_is.nodup, as_is.live, as_is.free⟩
      refine (ensures_drainAndSave held).mono ?_
      rintro c w' ⟨drained, loses⟩
      exact ⟨turn_drained (c := { k.devCaches i with masterInUse := false }) ends.ready lookup rfl
        rfl held drained loses, mastered, inflight, b.scratch, rfl, .inl no_scratch⟩

private theorem ensures_endScratch (ends : BatchEnds busy given k.devCaches w b)
    (no_app : b.appCache = 0) (some_scratch : b.scratch ≠ 0) :
    (endScratch p k b).Ensures answers (Proper busy given) w
      (fun r w' => BatchEnded k b w r.1 r.2 w') := by
  obtain ⟨scratch_live, scratch_free, scratch_apart⟩ := ends.scratch some_scratch
  have inflight : k.appInflight = if b.ownMaster = false ∧ b.appCache ≠ 0 then
      (appCacheLeave k.appInflight b).2 else k.appInflight := by
    simp [no_app]
  have unchanged : BatchEnded k b w k b w :=
    ⟨.refl ends.ready _, fun _ => .refl _ _, inflight, b.scratch, rfl,
      .inr ⟨rfl, scratch_apart⟩⟩
  unfold endScratch
  cases lookup : cacheLookup k.devCaches b.dev with
  | none => exact unchanged
  | some i =>
      have found := slotOf_some lookup
      have here := (cacheLookup_dev lookup).1
      have apart : b.scratch ∉ handles (k.devCaches i) := by
        rwa [slotHandles_some found] at scratch_apart
      simp only
      split_ifs with mergeable room
      · obtain ⟨unused, -, some_pc⟩ := mergeable
        have held := ends.ready.held found (ends.ready.idle _ found unused)
        simp only [Prog.ensures_bind, Prog.ensures_call]
        refine ⟨?_, fun _ w₁ answered => ?_⟩
        · rintro _ _ ⟨⟩ pc member -
          rcases List.mem_cons.mp member with rfl | scratch
          · have mine : (k.devCaches i).pc ∈ handles (k.devCaches i) := by simp [some_pc]
            exact ⟨held.free _ mine, .inr (here ▸ held.live _ mine)⟩
          · obtain rfl : pc = b.scratch := by simpa using scratch
            exact ⟨scratch_free, .inr scratch_live⟩
        · obtain rfl : w₁ = w := answered
          refine (ensures_drainAndSave held).mono ?_
          rintro c w' ⟨drained, loses⟩
          have dev_eq : c.dev = b.dev := drained.dev.trans here
          refine ⟨turn_drained ends.ready lookup rfl rfl held drained loses,
            fun _ => keepsMaster_write ends.ready lookup dev_eq drained.pc drained.masterInUse,
            inflight, b.scratch, rfl, .inr ⟨rfl, ?_⟩⟩
          intro member
          have : slotHandles (k.setSlot i c).devCaches b.dev = handles c :=
            slotHandles_some (onlySlot_set ends.ready.keyed lookup dev_eq).2.1
          rw [this] at member
          have was : b.scratch = (k.devCaches i).pc ∧ (k.devCaches i).pc ≠ 0 := by
            simpa [drained.pc, drained.pending] using member
          exact apart (by simp [was])
      · have held_live := ends.ready.live
        have nodup := ends.ready.nodup
        rw [slotHandles_some found] at held_live nodup
        have more : handles { k.devCaches i with
            pending := (k.devCaches i).pending ++ [b.scratch] } =
              handles (k.devCaches i) ++ [b.scratch] := by
          simp [handles]
        refine ⟨turn_write ends.ready lookup here rfl (fun _ _ => .inl rfl) ?_ ?_ ?_,
          fun _ => keepsMaster_write ends.ready lookup here rfl rfl, inflight, 0, rfl, .inl rfl⟩
        · intro pc member
          simpa [more] using member
        · intro pc member
          rw [more, List.mem_append] at member
          rcases member with old | new
          · exact held_live pc old
          · obtain rfl : pc = b.scratch := by simpa using new
            exact scratch_live
        · rw [more, List.nodup_append]
          refine ⟨nodup, List.nodup_singleton _, ?_⟩
          rintro pc old _ new rfl
          obtain rfl : pc = b.scratch := by simpa using new
          exact apart old
      · have held_live := ends.ready.live
        have nodup := ends.ready.nodup
        rw [slotHandles_some found] at held_live nodup
        refine ⟨turn_write ends.ready lookup here rfl (fun _ _ => .inl rfl) ?_ held_live nodup,
          fun _ => keepsMaster_write ends.ready lookup here rfl rfl, inflight, b.scratch, rfl,
          .inr ⟨rfl, ?_⟩⟩
        · intro pc member
          exact .inl member
        · have written := onlySlot_set (c := { k.devCaches i with warnedPendingFull := true })
            ends.ready.keyed lookup here
          have same : slotHandles (k.setSlot i { k.devCaches i with
              warnedPendingFull := true }).devCaches b.dev = handles (k.devCaches i) :=
            (slotHandles_some written.2.1).trans rfl
          rw [same]
          exact apart

private theorem ensures_endApp (ends : BatchEnds busy given k.devCaches w b)
    (not_own : b.ownMaster = false) (app : b.appCache ≠ 0) (no_scratch : b.scratch = 0) :
    (endApp p k b).Ensures answers (Proper busy given) w
      (fun k' w' => BatchEnded k b w k' b w') := by
  obtain ⟨app_given, app_free⟩ := ends.app app
  have batch : ∀ {d' : DevCaches}, ∃ left, b = { b with scratch := left } ∧
      (left = 0 ∨ left = b.scratch ∧ b.scratch ∉ slotHandles d' b.dev) :=
    ⟨b.scratch, rfl, .inl no_scratch⟩
  have inflight : (appCacheLeave k.appInflight b).2 = if b.ownMaster = false ∧
      b.appCache ≠ 0 then (appCacheLeave k.appInflight b).2 else k.appInflight := by
    simp [not_own, app]
  have unchanged : ∀ gate, BatchEnded k b w { k with
      appInflight := (appCacheLeave k.appInflight b).2, cacheHarvest := gate } b w := fun gate =>
    ⟨.refl ends.ready _, fun _ => .refl _ _, inflight, batch⟩
  unfold endApp
  simp only
  by_cases last : (appCacheLeave k.appInflight b).1 = true
  · rw [if_pos last]
    simp only [Prog.ensures_bind]
    refine (ensures_quiet (always_readPropExplicitOn _ _)).mono ?_
    rintro ⟨harvest, gate⟩ _ ⟨-, rfl⟩
    cases lookup : cacheLookup k.devCaches b.dev with
    | none => exact unchanged gate
    | some i =>
        have found := slotOf_some lookup
        have here := (cacheLookup_dev lookup).1
        simp only
        split_ifs with able
        · obtain ⟨-, -, unused, some_pc⟩ := able
          have held := ends.ready.held found (ends.ready.idle _ found unused)
          simp only [Prog.ensures_bind, Prog.ensures_call]
          refine ⟨?_, fun _ w₁ answered => ?_⟩
          · rintro _ _ ⟨⟩ pc member -
            rcases List.mem_cons.mp member with rfl | theirs
            · have mine : (k.devCaches i).pc ∈ handles (k.devCaches i) := by simp [some_pc]
              exact ⟨held.free _ mine, .inr (here ▸ held.live _ mine)⟩
            · obtain rfl : pc = b.appCache := by simpa using theirs
              exact ⟨app_free, .inl app_given⟩
          · obtain rfl : w₁ = _ := answered
            refine (ensures_drainAndSave held).mono ?_
            rintro c w' ⟨drained, loses⟩
            exact ⟨turn_drained ends.ready lookup rfl rfl held drained loses,
              fun _ => keepsMaster_write ends.ready lookup (drained.dev.trans here) drained.pc
                drained.masterInUse, inflight, batch⟩
        · exact unchanged gate
  · rw [if_neg last]
    exact unchanged k.cacheHarvest

theorem ensures_batchEnd (ends : BatchEnds busy given k.devCaches w b)
    (own : b.ownMaster = true → b.scratch = 0) (app : b.appCache ≠ 0 → b.scratch = 0) :
    (batchEnd p k b).Ensures answers (Proper busy given) w
      (fun r w' => BatchEnded k b w r.1 r.2 w') := by
  have counted : (countBatch p k b).Always Quiet (fun k' =>
      k'.devCaches = k.devCaches ∧ k'.appInflight = k.appInflight) := by
    unfold countBatch
    simp only
    split_ifs
    · exact ⟨trivial, fun _ => ⟨rfl, rfl⟩⟩
    · exact ⟨rfl, rfl⟩
  simp only [batchEnd, Prog.ensures_bind]
  refine (ensures_quiet counted).mono ?_
  rintro k₁ w₁ ⟨⟨same, same_inflight⟩, is_w⟩
  subst w₁
  have ends₁ : BatchEnds busy given k₁.devCaches w b := same ▸ ends
  have back : ∀ {k' b' w'}, BatchEnded k₁ b w k' b' w' → BatchEnded k b w k' b' w' := by
    rintro k' b' w' ⟨turn, keeps, inflight, batch⟩
    rw [same] at turn keeps
    rw [same_inflight] at inflight
    exact ⟨turn, keeps, inflight, batch⟩
  split_ifs with is_own is_app has_scratch
  · simp only [Prog.ensures_bind]
    exact (ensures_endMaster ends₁ is_own (own is_own)).mono fun _ _ ended => back ended
  · simp only [Prog.ensures_bind]
    exact (ensures_endApp ends₁ (by simpa using is_own) is_app (app is_app)).mono
      fun _ _ ended => back ended
  · exact (ensures_endScratch ends₁ (not_not.mp is_app) has_scratch).mono
      fun _ _ ended => back ended
  · refine back ⟨.refl ends₁.ready _, fun _ => .refl _ _, ?_, b.scratch, rfl,
      .inl (not_not.mp has_scratch)⟩
    simp [not_not.mp is_app]

end Batch

theorem ensures_primeAppCache {out : VkPipelineCache} (ready : Ready busy k.devCaches w dev)
    (out_given : given out) (out_free : ¬ busy out) :
    (primeAppCache p k dev out).Ensures answers (Proper busy given) w (fun k' w' =>
      Turn dev 0 k.devCaches k'.devCaches w w' ∧ KeepsMaster dev k.devCaches k'.devCaches ∧
        k'.appInflight = k.appInflight) := by
  simp only [primeAppCache, Prog.ensures_bind]
  refine (ensures_ensureDiskCache ready.keyed ready.handle).mono ?_
  rintro ⟨pc, k₁⟩ w₁ ensured
  have done := And.intro (ensured.turn ready 0) (And.intro ensured.keepsMaster ensured.inflight)
  rcases ensured.slot with ⟨-, missing, -⟩ | ⟨i, lookup, primed⟩
  · simp only [missing]
    exact done
  · simp only [lookup]
    split_ifs with able
    · obtain ⟨some_pc, -, -, unused⟩ := able
      have ready₁ := ensured.ready ready
      have found := slotOf_some lookup
      have held := ready₁.held found (ready₁.idle _ found unused)
      have has : (k₁.devCaches i).pc = pc := primed.has
      have mine : pc ∈ handles (k₁.devCaches i) := by simp [has, some_pc]
      simp only [Prog.ensures_bind, Prog.ensures_call]
      refine ⟨Quiet.proper trivial, fun _ w₂ quiet₂ => ?_⟩
      obtain rfl : w₂ = w₁ := quiet₂
      refine ⟨?_, fun _ w₃ merged => ?_⟩
      · rintro _ _ ⟨⟩ h member -
        rcases List.mem_cons.mp member with rfl | ours
        · exact ⟨out_free, .inl out_given⟩
        · obtain rfl : h = pc := by simpa using ours
          refine ⟨held.free h mine, .inr ?_⟩
          rw [held.live h mine, (cacheLookup_dev lookup).1]
      · obtain rfl : w₃ = w₂ := merged
        refine ⟨Quiet.proper trivial, fun _ w₄ quiet₄ => ?_⟩
        obtain rfl : w₄ = w₃ := quiet₄
        exact done
    · exact done

/-- Calls about caches that exist. -/
def OnCaches : Call → Prop
  | .mergePipelineCaches .. | .getPipelineCacheSize .. | .getPipelineCacheData ..
  | .destroyPipelineCache .. => True
  | op => Quiet op

private theorem Looks.onCaches {pc : VkPipelineCache} {op : Call} (looks : Looks dev pc op) :
    OnCaches op := by
  rcases looks with quiet | rfl | ⟨size, rfl⟩
  · cases op <;> first | exact quiet | trivial
  · trivial
  · trivial

private theorem always_destroyAll (pcs : List VkPipelineCache) :
    (destroyAll dev pcs).Always OnCaches (fun _ => True) := by
  induction pcs with
  | nil => trivial
  | cons pc rest ih => exact ⟨trivial, fun _ => ih⟩

private theorem always_drainPending (fns : CacheFns) (c : DevCache) :
    (drainPending fns c).Always OnCaches (fun _ => True) := by
  have merged : (mergeInto fns c c.pending).Always OnCaches (fun _ => True) := by
    unfold mergeInto
    split_ifs
    · exact ⟨trivial, fun _ => trivial⟩
    · trivial
  unfold drainPending
  split_ifs
  · trivial
  · rw [Prog.always_bind]
    refine merged.mono fun _ _ => ?_
    rw [Prog.always_bind]
    exact (always_destroyAll _).mono fun _ _ => trivial
  · rw [Prog.always_bind]
    exact merged.mono fun _ _ => trivial

private theorem always_drainAndSave (fns : CacheFns) (c : DevCache) :
    (drainAndSave p fns c).Always OnCaches (fun _ => True) := by
  simp only [drainAndSave, Prog.always_bind]
  refine (always_drainPending fns c).mono fun c₁ _ => ?_
  exact ((always_saveDiskCache c₁ false).weaken fun _ looks => looks.onCaches).mono
    fun _ _ => trivial

theorem always_batchEnd {b : Batch} :
    (batchEnd p k b).Always OnCaches (fun r => r.1.fns = k.fns) := by
  have counted : (countBatch p k b).Always OnCaches (fun k' => k'.fns = k.fns) := by
    unfold countBatch
    simp only
    split_ifs
    · exact ⟨trivial, fun _ => rfl⟩
    · exact rfl
  simp only [batchEnd, Prog.always_bind]
  refine counted.mono fun k₁ fns => ?_
  split_ifs
  · simp only [Prog.always_bind, endMaster]
    cases cacheLookup k₁.devCaches b.dev with
    | none => exact fns
    | some i =>
        simp only [Prog.always_bind]
        exact (always_drainAndSave _ _).mono fun _ _ => fns
  · simp only [Prog.always_bind, endApp]
    split_ifs
    · simp only [Prog.always_bind]
      refine ((always_readPropExplicitOn _ _).weaken fun op quiet => ?_).mono fun r _ => ?_
      · cases op <;> first | exact quiet | trivial
      cases cacheLookup k₁.devCaches b.dev with
      | none => exact fns
      | some i =>
          simp only
          split_ifs
          · simp only [Prog.always_bind, Prog.always_call]
            exact ⟨trivial, fun _ => (always_drainAndSave _ _).mono fun _ _ => fns⟩
          · exact fns
    · exact fns
  · unfold endScratch
    cases cacheLookup k₁.devCaches b.dev with
    | none => exact fns
    | some i =>
        simp only
        split_ifs
        · simp only [Prog.always_bind, Prog.always_call]
          exact ⟨trivial, fun _ => (always_drainAndSave _ _).mono fun _ _ => fns⟩
        · exact fns
        · exact fns
  · exact fns

theorem onCaches_was {α : Type} {prog : Shim α} {post : α → Prop} {r : α}
    (always : prog.Always OnCaches post) (run : prog.Runs answers w r w') {pc : VkPipelineCache}
    {what : VkDevice × Owner} (there : kind w' pc = some what) : kind w pc = some what := by
  have keep : ∀ w₁ op (ans : Answer op) w₂, OnCaches op → answers w₁ op ans w₂ →
      (∀ pc what, kind w₁ pc = some what → kind w pc = some what) →
      ∀ pc what, kind w₂ pc = some what → kind w pc = some what := by
    intro w₁ op ans w₂ on answered before h what' live
    refine before h what' ?_
    cases op
    case destroyPipelineCache dev pc =>
      obtain rfl : w₂ = w₁.removeCache pc := answered
      rcases eq_or_ne h pc with rfl | ne
      · simp [kind, World.removeCache] at live
      · rwa [kind, World.caches_removeCache ne] at live
    all_goals first
      | exact on.elim
      | exact answered ▸ live
  exact ((always.anywhere.keep keep fun _ _ same => same).of_runs run).2 pc what there

theorem always_dropDiskCache (slot : Option (Fin devCacheMax)) (alive : Bool) :
    (dropDiskCache p k slot alive).Always OnCaches
      (fun k' => k' = slot.elim k fun i => k.setSlot i DevCache.zero) := by
  unfold dropDiskCache
  cases slot with
  | none => exact rfl
  | some i =>
      cases alive with
      | false => exact rfl
      | true =>
          simp only [if_true, Prog.always_bind]
          refine (always_drainPending _ _).mono fun c _ => ?_
          have saved : (saveDiskCache p k.fns c true).Always OnCaches (fun _ => True) :=
            ((always_saveDiskCache c true).weaken fun _ looks => looks.onCaches).mono
              fun _ _ => trivial
          split_ifs
          · rw [Prog.always_bind]
            exact saved.mono fun c _ => ⟨trivial, fun _ => rfl⟩
          · rw [Prog.always_bind]
            exact saved.mono fun _ _ => rfl
          · exact rfl

theorem ensures_dropDiskCache (ready : Ready busy k.devCaches w dev)
    (free : ∀ pc ∈ slotHandles k.devCaches dev, ¬ busy pc) :
    (dropDiskCache p k (cacheLookup k.devCaches dev) true).Ensures answers (Proper busy given) w
      (fun k' w' => Turn dev 0 k.devCaches k'.devCaches w w' ∧ slotOf k'.devCaches dev = none ∧
        k'.appInflight = k.appInflight) := by
  unfold dropDiskCache
  cases lookup : cacheLookup k.devCaches dev with
  | none => exact ⟨.refl ready 0, by simp [slotOf, lookup], rfl⟩
  | some i =>
      have found := slotOf_some lookup
      rw [slotHandles_some found] at free
      have held := ready.held found free
      obtain ⟨only, gone⟩ := onlySlot_zero ready.keyed lookup
      have dropped : ∀ w', w'.devices = w.devices →
          (∀ pc, pc ∉ handles (k.devCaches i) → w'.caches pc = w.caches pc) →
          Turn dev 0 k.devCaches (k.setSlot i DevCache.zero).devCaches w w' ∧
            slotOf (k.setSlot i DevCache.zero).devCaches dev = none ∧
            (k.setSlot i DevCache.zero).appInflight = k.appInflight := by
        intro w' devices rest
        have none_left : slotHandles (k.setSlot i DevCache.zero).devCaches dev = [] :=
          slotHandles_none gone
        refine ⟨⟨only, devices, fun pc _ => ?_, ?_, ?_, ?_⟩, gone, rfl⟩
        · rw [slotHandles_some found]
          by_cases mine : pc ∈ handles (k.devCaches i)
          · exact .inr mine
          · exact .inl (rest pc mine)
        · simp [none_left]
        · simp [none_left]
        · simp [none_left]
      simp only [if_true, Prog.ensures_bind]
      refine (ensures_drainPending held).mono ?_
      rintro c w₁ ⟨drained, loses⟩
      have outside : ∀ pc, pc ∉ handles (k.devCaches i) → w₁.caches pc = w.caches pc := by
        intro pc not_mine
        refine loses.rest pc fun queued => not_mine ?_
        simp [queued]
      by_cases has : c.pc ≠ 0
      · rw [if_pos has]
        simp only [Prog.ensures_bind]
        have held₁ := drained.held loses held
        refine (ensures_saveDiskCache held₁ true).mono ?_
        rintro c₂ w₂ ⟨same, rfl⟩
        have mine : c₂.pc ∈ handles c := by simp [same.pc, has]
        split_ifs
        · simp only [Prog.ensures_bind, Prog.ensures_call]
          refine ⟨?_, fun _ w₃ destroyed => ?_⟩
          · rintro _ _ ⟨⟩ h member -
            obtain rfl : h = c₂.pc := by simpa using member
            refine ⟨held₁.free _ mine, .inr ?_⟩
            rw [held₁.live _ mine, same.dev]
          · obtain rfl : w₃ = w₂.removeCache c₂.pc := destroyed
            refine dropped _ loses.devices fun pc not_mine => ?_
            have ne : pc ≠ c₂.pc := by
              rintro rfl
              rw [same.pc, drained.pc] at not_mine
              rw [drained.pc] at has
              exact not_mine (by simp [has])
            rw [← outside pc not_mine]
            exact World.caches_removeCache ne
        · exact dropped _ loses.devices outside
      · rw [if_neg has]
        exact dropped _ loses.devices outside

end Sections

end XdPlus.Vulkan.PipelineLedger
