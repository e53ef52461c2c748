/- Module: XdPlus/Vulkan/CacheRuns
   source: vulkan/vkshim.c, cache_claim, ensure_disk_cache, save_disk_cache, drain_pending,
     compile_batch, drop_disk_cache, shim_DestroyDevice
   digest: The runs of a process with what they compile, and where each entry is kept. -/

import XdPlus.Vulkan.CacheHoldings

/-!
A run remembers what its batches compiled, and for each device what its cache held when the slot
last noted a size. An entry that is not in the file is in a cache the process has in hand.
-/

set_option autoImplicit false
set_option relaxedAutoImplicit false

namespace XdPlus.Vulkan.CacheRuns

open XdPlus.Base Common Driver PipelineCache PipelineBatches PipelineLedger PipelineOwnership
  PipelineBatchSafety CacheFiles CacheSections CacheHoldings

variable {E : Type} [DecidableEq E]

/-- A process, its user, and the blobs of the driver. -/
structure App (E : Type) where
  process : Process
  uid : Nat
  blobs : Blobs E

/-- Nothing fails, and the driver loses nothing. -/
def App.platform (g : App E) : Platform E := ⟨g.blobs, g.uid, fun _ => True, True⟩

/-- `compiled` is what batches with a null cache compiled; `noted` is what the cache of a device
held when its slot last noted a size. -/
structure Run (E : Type) where
  state : State
  disk : Disk E
  compiled : List E
  noted : VkDevice → List E

inductive Event where
  | hook (a : Action)
  | setprop (name value : String)

/-- The pipelines a step compiles, if its batch brought no cache. -/
def madeBy (d : Disk E) : Phase → List E
  | .ready b => if b.appCache = 0 then d.made else []
  | _ => []

def madeIn (s : State) (d : Disk E) : Action → List E
  | .advance t => madeBy d (s.threads t)
  | _ => []

/-- A slot notes a size when it gets its cache, and when it has written the file. -/
def note (old new : Option DevCache) (before : List E) (d : Disk E) : List E :=
  match new with
  | none => []
  | some c =>
      if old.map (fun c => (c.pc, c.lastSavedSize)) = some (c.pc, c.lastSavedSize) then before
      else d.contents c.pc

def Run.after (r : Run E) (a : Action) (s : State) (d : Disk E) : Run E where
  state := s
  disk := d
  compiled := madeIn r.state d a ++ r.compiled
  noted dev := note (slotOf r.state.cache.devCaches dev) (slotOf s.cache.devCaches dev)
    (r.noted dev) d

def Run.set (r : Run E) (name value : String) : Run E :=
  { r with disk := { r.disk with props := Function.update r.disk.props name value } }

/-- Any number of devices in one process; the generation stays as it is. -/
def machine (g : App E) : Machine (Run E) Event where
  init r := r.state = State.zero ∧ r.compiled = [] ∧ (∀ dev, r.noted dev = []) ∧
    Worded (r.disk.props cacheGenProp)
  step r a r' :=
    match a with
    | .hook a => ∃ s d, Hooks g.platform g.process r.state r.disk a s d ∧ r' = r.after a s d
    | .setprop name value => (name = cacheGenProp → value = r.disk.props name) ∧
        r' = r.set name value

/-- The serialised size stays within the cap, and the queue has room. -/
def Within (g : App E) (r : Run E) : Event → Prop
  | .hook (.advance t) =>
      match r.state.threads t with
      | .compiled b => b.scratch ≠ 0 → ∀ c, slotOf r.state.cache.devCaches b.dev = some c →
          c.pending.length < pendingMax
      | .droppingDevice dev => ∀ c, slotOf r.state.cache.devCaches dev = some c →
          (g.blobs.encode (grown r.disk c [])).length ≤
            capOf g.process r.disk.props "vkcachemax" cacheMaxMb
      | _ => True
  | _ => True

/-- The application has given back every device. -/
def Run.Over (r : Run E) : Prop :=
  (∀ dev, r.state.devices dev = false) ∧ ∀ t dev, r.state.threads t ≠ .droppingDevice dev

/-- What batches with a null cache have compiled is in the file. -/
def Run.Complete (g : App E) (path : String) (r : Run E) : Prop :=
  ∀ e ∈ r.compiled, InFile g.blobs path r.disk e

/-- An entry of this run: compiled in it, or known by a device to be in the file. -/
def Run.Ours (r : Run E) (e : E) : Prop := e ∈ r.compiled ∨ ∃ dev, e ∈ r.noted dev

/-- Nothing of this run is in the file that is not in the cache written over it. -/
def Spares (g : App E) (path : String) (r : Run E) (c : DevCache)
    (srcs : List VkPipelineCache) : Prop :=
  (g.blobs.encode (grown r.disk c srcs)).length ≠ c.lastSavedSize →
    ∀ e, r.Ours e → InFile g.blobs path r.disk e → e ∈ grown r.disk c srcs

/-- What the end of a batch merges into the master. -/
def sources (b : Batch) : List VkPipelineCache :=
  if b.ownMaster = true then [] else if b.appCache ≠ 0 then [b.appCache] else [b.scratch]

/-- The end of a batch gets to the master. -/
def Merges (r : Run E) (b : Batch) (c : DevCache) : Prop :=
  b.ownMaster = true ∨ c.masterInUse = false ∧ (b.appCache ≠ 0 →
    (propExplicitOn r.disk.props harvestProp r.state.cache.cacheHarvest).1 = true)

/-- A batch with a null cache finds a slot; a save spares the entries of this run; and when a
device goes whose cache has the size its slot noted, that was the size of what it then held. -/
def Careful (g : App E) (path : String) (r : Run E) : Event → Prop
  | .hook (.advance t) =>
      match r.state.threads t with
      | .arrived b => b.appCache = 0 → cacheClaim r.state.cache.devCaches b.dev ≠ none
      | .compiled b => ∀ c, slotOf r.state.cache.devCaches b.dev = some c → Merges r b c →
          Spares g path r c (sources b)
      | .droppingDevice dev => ∀ c, slotOf r.state.cache.devCaches dev = some c →
          Spares g path r c [] ∧
          ((g.blobs.encode (grown r.disk c [])).length = c.lastSavedSize →
            (g.blobs.encode (r.noted dev)).length = c.lastSavedSize)
      | _ => True
  | _ => True

/-- The scratch cache of a batch that has not come to its end. -/
def carries : Phase → Option VkPipelineCache
  | .ready b | .compiling b | .compiled b => if b.scratch = 0 then none else some b.scratch
  | _ => none

/-- A cache whose entries are on their way to the file. -/
def InHand (s : State) (h : VkPipelineCache) : Prop :=
  (∃ dev, h ∈ slotHandles s.cache.devCaches dev) ∨ ∃ t, carries (s.threads t) = some h

def Located (blobs : Blobs E) (path : String) (s : State) (d : Disk E) (e : E) : Prop :=
  InFile blobs path d e ∨ ∃ h, InHand s h ∧ e ∈ d.contents h

/-- A batch with a null cache has a slot to go to, and a cache to compile into. -/
def Provided (caches : DevCaches) : Phase → Prop
  | .begun b => b.appCache = 0 → slotOf caches b.dev ≠ none
  | .ready b | .compiling b | .compiled b => b.appCache = 0 →
      slotOf caches b.dev ≠ none ∧ (b.ownMaster = true ∨ b.scratch ≠ 0)
  | _ => True

/-- What is needed to merge caches and to save them. -/
def Able (fns : CacheFns) : Prop := fns.cpc = true ∧ fns.gpcd = true ∧ fns.mpc = true

section Tables

variable {caches caches' : DevCaches} {dev : VkDevice}

/-- What the entries of a slot depend on. -/
def core (c : DevCache) : VkPipelineCache × String × Nat × List VkPipelineCache :=
  (c.pc, c.path, c.lastSavedSize, c.pending)

/-- Two tables whose slots differ in their flags at most. -/
def Alike (caches caches' : DevCaches) : Prop :=
  ∀ dev, (slotOf caches' dev).map core = (slotOf caches dev).map core

theorem Alike.refl (caches : DevCaches) : Alike caches caches := fun _ => rfl

theorem Alike.slot (alike : Alike caches caches') {c' : DevCache}
    (found : slotOf caches' dev = some c') : ∃ c, slotOf caches dev = some c ∧ c.pc = c'.pc ∧
      c.path = c'.path ∧ c.lastSavedSize = c'.lastSavedSize ∧ c.pending = c'.pending := by
  have same := alike dev
  rw [found, Option.map_some, eq_comm, Option.map_eq_some_iff] at same
  obtain ⟨c, before, same⟩ := same
  simp only [core, Prod.mk.injEq] at same
  exact ⟨c, before, same⟩

theorem Alike.none (alike : Alike caches caches') :
    slotOf caches' dev = none ↔ slotOf caches dev = none := by
  have same := alike dev
  constructor
  · intro missing
    rw [missing] at same
    simpa using same.symm
  · intro missing
    rw [missing] at same
    simpa using same

theorem Alike.handles (alike : Alike caches caches') :
    slotHandles caches' dev = slotHandles caches dev := by
  cases found : slotOf caches' dev with
  | none => rw [slotHandles_none found, slotHandles_none (alike.none.mp found)]
  | some c' =>
      obtain ⟨c, before, pc, -, -, pending⟩ := alike.slot found
      rw [slotHandles_some found, slotHandles_some before]
      simp [PipelineLedger.handles, pc, pending]

theorem Provided.keep {phase : Phase} (provided : Provided caches phase)
    (slots : ∀ dev, phase.uses = some dev → slotOf caches dev ≠ none →
      slotOf caches' dev ≠ none) : Provided caches' phase := by
  cases phase with
  | begun b => exact fun null => slots b.dev rfl (provided null)
  | ready b | compiling b | compiled b =>
      exact fun null => (provided null).imp_left (slots b.dev rfl)
  | _ => trivial

theorem onlySlot_handles (only : OnlySlot dev caches caches') {other : VkDevice}
    (ne : other ≠ dev) : slotHandles caches' other = slotHandles caches other := by
  simp only [slotHandles, only.others other ne]

theorem alike_set {i : Fin devCacheMax} {c : DevCache} (keyed : Keyed caches)
    (lookup : cacheLookup caches dev = some i) (same_dev : c.dev = dev)
    (same : core c = core (caches i)) : Alike caches (Function.update caches i c) := by
  obtain ⟨only, found, -⟩ := onlySlot_set keyed lookup same_dev
  intro other
  by_cases mine : other = dev
  · rw [mine, found, slotOf_some lookup, Option.map_some, Option.map_some, same]
  · rw [only.others other mine]

end Tables

structure Kept (g : App E) (path : String) (r : Run E) : Prop where
  inv : Inv r.state
  worded : Worded (r.disk.props cacheGenProp)
  slot : ∀ {dev c}, slotOf r.state.cache.devCaches dev = some c →
    c.pc ≠ 0 ∧ c.path = path ∧ Adds (r.noted dev) (r.disk.contents c.pc)
  settled : ∀ {dev c}, slotOf r.state.cache.devCaches dev = some c →
    Able r.state.cache.fns ∧ ¬ r.disk.Stale path
  current : r.compiled ≠ [] → ¬ r.disk.Stale path
  noted : ∀ dev, ∀ e ∈ r.noted dev, slotOf r.state.cache.devCaches dev ≠ none ∧
    InFile g.blobs path r.disk e
  provided : ∀ t, Provided r.state.cache.devCaches (r.state.threads t)
  located : ∀ e ∈ r.compiled, Located g.blobs path r.state r.disk e

section Steps

variable {g : App E} {path : String} {r : Run E} {s : State} {d : Disk E} {t : Nat}
  {phase : Phase} {a : Action}

/-- The slot of a device after a step: it had noted that size, and its cache has grown at most;
or it has noted it now, and what the cache holds is in the file. -/
def Slotted (g : App E) (path : String) (r : Run E) (d : Disk E) (dev : VkDevice)
    (c : DevCache) : Prop :=
  c.pc ≠ 0 ∧ c.path = path ∧
    ((∃ c₀, slotOf r.state.cache.devCaches dev = some c₀ ∧ c₀.pc = c.pc ∧
        c₀.lastSavedSize = c.lastSavedSize ∧ Adds (r.disk.contents c.pc) (d.contents c.pc)) ∨
      ((slotOf r.state.cache.devCaches dev).map (fun c => (c.pc, c.lastSavedSize)) ≠
          some (c.pc, c.lastSavedSize) ∧
        ∀ e ∈ d.contents c.pc, InFile g.blobs path d e))

/-- What a step leaves of the slots, the file and the entries. -/
structure Carried (g : App E) (path : String) (r : Run E) (a : Action) (s : State) (d : Disk E) :
    Prop where
  inv : Inv s
  props : d.props = r.disk.props
  slot : ∀ {dev c}, slotOf s.cache.devCaches dev = some c → Slotted g path r d dev c
  settled : ∀ {dev c}, slotOf s.cache.devCaches dev = some c → Able s.cache.fns ∧ ¬ d.Stale path
  current : r.compiled ≠ [] ∨ madeIn r.state d a ≠ [] → ¬ d.Stale path
  file : ∀ e, r.Ours e → InFile g.blobs path r.disk e → InFile g.blobs path d e
  provided : ∀ t, Provided s.cache.devCaches (s.threads t)
  held : ∀ h, InHand r.state h → ∀ e ∈ r.disk.contents h, Located g.blobs path s d e
  made : ∀ e ∈ madeIn r.state d a, Located g.blobs path s d e

theorem Carried.kept (carried : Carried g path r a s d) (kept : Kept g path r) :
    Kept g path (r.after a s d) := by
  refine ⟨carried.inv, ?_, ?_, carried.settled, ?_, ?_, carried.provided, ?_⟩
  · show Worded (d.props cacheGenProp)
    rw [carried.props]
    exact kept.worded
  · intro dev c found
    obtain ⟨some_pc, here, same | ⟨new, -⟩⟩ := carried.slot found
    · obtain ⟨c₀, before, pc, size, adds⟩ := same
      have unchanged : (r.after a s d).noted dev = r.noted dev := by
        have found' : slotOf s.cache.devCaches dev = some c := found
        simp [Run.after, note, found', before, pc, size]
      rw [unchanged]
      refine ⟨some_pc, here, .trans ?_ adds⟩
      rw [← pc]
      exact (kept.slot before).2.2
    · have changed : (r.after a s d).noted dev = d.contents c.pc := by
        have found' : slotOf s.cache.devCaches dev = some c := found
        simp only [Run.after, note, found', if_neg new]
      rw [changed]
      exact ⟨some_pc, here, .refl _⟩
  · intro some_compiled
    apply carried.current
    by_contra none_made
    push Not at none_made
    apply some_compiled
    show madeIn r.state d a ++ r.compiled = []
    rw [none_made.1, none_made.2, List.append_nil]
  · intro dev e member
    cases found : slotOf s.cache.devCaches dev with
    | none => simp [Run.after, note, found] at member
    | some c =>
        constructor
        · intro missing
          cases found.symm.trans missing
        · simp only [Run.after, note, found] at member
          split_ifs at member with same
          · exact carried.file e (.inr ⟨dev, member⟩) (kept.noted dev e member).2
          · obtain ⟨-, -, ⟨c₀, before, pc, size, -⟩ | ⟨-, loaded⟩⟩ := carried.slot found
            · rw [before, Option.map_some, pc, size] at same
              exact absurd rfl same
            · exact loaded e member
  · intro e member
    rcases List.mem_append.mp member with new | old
    · exact carried.made e new
    · rcases kept.located e old with there | ⟨h, inHand, held⟩
      · exact .inl (carried.file e (.inl old) there)
      · exact carried.held h inHand e held

omit [DecidableEq E] in
theorem inHand_shims {s : State} {h : VkPipelineCache} (inv : Inv s) (inHand : InHand s h) :
    CacheClearing.Shims s.world h := by
  rcases inHand with ⟨dev, member⟩ | ⟨t, carried⟩
  · have held : Holds s (.slot dev) h (dev, .shim) := ⟨member, rfl⟩
    exact ⟨dev, inv.owned.right held⟩
  · have mine : ∃ dev, own (s.threads t) = some (h, dev, .shim) := by
      unfold carries at carried
      split at carried
      all_goals first
        | cases carried
        | skip
      all_goals
        rename_i b phase
        split_ifs at carried with none_there
        obtain rfl := Option.some.inj carried
        exact ⟨b.dev, by rw [phase]; exact if_neg none_there⟩
    obtain ⟨dev, mine⟩ := mine
    have held : Holds s (.thread t) h (dev, .shim) := mine
    exact ⟨dev, inv.owned.right held⟩

omit [DecidableEq E] in
theorem there_of_inHand {s : State} {h : VkPipelineCache} (inv : Inv s) (held : InHand s h) :
    s.world.caches h ≠ none := by
  obtain ⟨dev, live⟩ := inHand_shims inv held
  intro gone
  rw [kind, gone] at live
  cases live

omit [DecidableEq E] in
theorem inHand_master {s : State} {dev : VkDevice} {c : DevCache}
    (found : slotOf s.cache.devCaches dev = some c) (some_pc : c.pc ≠ 0) : InHand s c.pc := by
  refine .inl ⟨dev, ?_⟩
  rw [slotHandles_some found, mem_handles]
  exact .inl ⟨rfl, some_pc⟩

theorem Kept.slotted {dev : VkDevice} {c : DevCache} (kept : Kept g path r)
    (found : slotOf r.state.cache.devCaches dev = some c)
    (adds : Adds (r.disk.contents c.pc) (d.contents c.pc)) : Slotted g path r d dev c := by
  obtain ⟨some_pc, here, -⟩ := kept.slot found
  exact ⟨some_pc, here, .inl ⟨c, found, rfl, rfl, adds⟩⟩

theorem Kept.still (kept : Kept g path r) (inv : Inv s)
    (alike : Alike r.state.cache.devCaches s.cache.devCaches)
    (fns : Able r.state.cache.fns → Able s.cache.fns) (files : d.files = r.disk.files)
    (props : d.props = r.disk.props)
    (contents : ∀ h, InHand r.state h → Adds (r.disk.contents h) (d.contents h))
    (carry : ∀ t h, carries (r.state.threads t) = some h → carries (s.threads t) = some h)
    (provided : ∀ t, Provided r.state.cache.devCaches (s.threads t))
    (current : madeIn r.state d a ≠ [] → ¬ r.disk.Stale path)
    (made : ∀ e ∈ madeIn r.state d a, ∃ h, InHand r.state h ∧ e ∈ d.contents h) :
    Carried g path r a s d := by
  have stale : d.Stale path ↔ r.disk.Stale path := stale_congr props (by rw [files])
  have inHand : ∀ h, InHand r.state h → InHand s h := by
    intro h held
    rcases held with ⟨dev, member⟩ | ⟨t, carried⟩
    · exact .inl ⟨dev, by rwa [alike.handles]⟩
    · exact .inr ⟨t, carry t h carried⟩
  refine ⟨inv, props, ?_, ?_, ?_, ?_, ?_, ?_, ?_⟩
  · intro dev c found
    obtain ⟨c₀, before, pc, is_path, size, -⟩ := alike.slot found
    obtain ⟨some_pc, here, -⟩ := kept.slot before
    rw [pc] at some_pc
    rw [is_path] at here
    have held : InHand r.state c.pc := pc ▸ inHand_master before (pc ▸ some_pc)
    exact ⟨some_pc, here, .inl ⟨c₀, before, pc, size, contents c.pc held⟩⟩
  · intro dev c found
    obtain ⟨c₀, before, -⟩ := alike.slot found
    rw [stale]
    exact (kept.settled before).imp_left fns
  · intro some_made
    rw [stale]
    exact some_made.elim kept.current current
  · intro e _ there
    obtain ⟨data, es, is_file, decoded, member⟩ := there
    exact ⟨data, es, by rw [files, is_file], decoded, member⟩
  · exact fun t => (provided t).keep fun dev _ => alike.none.not.mpr
  · intro h held e member
    exact .inr ⟨h, inHand h held, (contents h held).mem member⟩
  · intro e new
    obtain ⟨h, held, member⟩ := made e new
    exact .inr ⟨h, inHand h held, member⟩

section Threads

variable {k : CacheState} {handed : Handed} {w : World}

omit [DecidableEq E] in
theorem carries_moved {t' : Nat} {h : VkPipelineCache}
    (carried : carries (r.state.threads t') = some h)
    (mine : carries (r.state.threads t) = some h → carries phase = some h) :
    carries ((r.state.moved t k phase handed w).threads t') = some h := by
  rw [moved_threads]
  by_cases same : t' = t
  · rw [same] at carried ⊢
    rw [Function.update_self]
    exact mine carried
  · rwa [Function.update_of_ne same]

theorem Kept.provided_moved (kept : Kept g path r) {caches : DevCaches}
    (mine : Provided caches phase)
    (others : ∀ t' dev, t' ≠ t → (r.state.threads t').uses = some dev →
      slotOf r.state.cache.devCaches dev ≠ none → slotOf caches dev ≠ none) (t' : Nat) :
    Provided caches ((r.state.moved t k phase handed w).threads t') := by
  rw [moved_threads]
  by_cases same : t' = t
  · rw [same, Function.update_self]
    exact mine
  · rw [Function.update_of_ne same]
    exact (kept.provided t').keep fun dev used => others t' dev same used

end Threads

theorem Kept.stretch {k : CacheState} {phase : Phase} {handed : Handed} {w : World}
    (kept : Kept g path r) (inv : Inv (r.state.moved t k phase handed w))
    (alike : Alike r.state.cache.devCaches k.devCaches) (fns : k.fns = r.state.cache.fns)
    (files : d.files = r.disk.files) (props : d.props = r.disk.props)
    (contents : ∀ h, InHand r.state h → Adds (r.disk.contents h) (d.contents h))
    (carry : ∀ h, carries (r.state.threads t) = some h → carries phase = some h)
    (provided : Provided r.state.cache.devCaches phase)
    (current : madeBy d (r.state.threads t) ≠ [] → ¬ r.disk.Stale path)
    (made : ∀ e ∈ madeBy d (r.state.threads t), ∃ h, InHand r.state h ∧ e ∈ d.contents h) :
    Carried g path r (.advance t) (r.state.moved t k phase handed w) d := by
  refine kept.still inv (by rw [moved_cache]; exact alike)
    (fun able => by rwa [moved_cache, fns]) files props contents ?_ ?_ current made
  · exact fun t' h carried => carries_moved carried (carry h)
  · exact kept.provided_moved provided fun _ _ _ _ has => has

theorem Kept.touched {k : CacheState} {phase : Phase} {handed : Handed} {w : World}
    {dev : VkDevice} (kept : Kept g path r) (inv : Inv (r.state.moved t k phase handed w))
    (only : OnlySlot dev r.state.cache.devCaches k.devCaches)
    (settled : Able k.fns ∧ ¬ d.Stale path) (props : d.props = r.disk.props)
    (adds : ∀ h, InHand r.state h → Adds (r.disk.contents h) (d.contents h))
    (slot : ∀ c, slotOf k.devCaches dev = some c → Slotted g path r d dev c)
    (stays : ∀ t', (r.state.threads t').uses = some dev →
      slotOf r.state.cache.devCaches dev ≠ none → slotOf k.devCaches dev ≠ none)
    (file : ∀ e, r.Ours e → InFile g.blobs path r.disk e → InFile g.blobs path d e)
    (provided : Provided k.devCaches phase)
    (passed : ∀ h, h ∈ slotHandles r.state.cache.devCaches dev ∨
      carries (r.state.threads t) = some h → ∀ e ∈ r.disk.contents h,
        Located g.blobs path (r.state.moved t k phase handed w) d e)
    (nothing : madeBy d (r.state.threads t) = []) :
    Carried g path r (.advance t) (r.state.moved t k phase handed w) d := by
  have table : (r.state.moved t k phase handed w).cache = k := moved_cache
  refine ⟨inv, props, ?_, ?_, fun _ => settled.2, file, ?_, ?_, ?_⟩
  · intro other c found
    rw [table] at found
    by_cases mine : other = dev
    · rw [mine] at found ⊢
      exact slot c found
    · rw [only.others other mine] at found
      exact kept.slotted found (adds c.pc (inHand_master found (kept.slot found).1))
  · intro other c _
    rw [table]
    exact settled
  · rw [table]
    refine kept.provided_moved provided fun t' other _ used has => ?_
    by_cases mine : other = dev
    · rw [mine] at used has ⊢
      exact stays t' used has
    · rwa [only.others other mine]
  · intro h held e member
    have still : InHand (r.state.moved t k phase handed w) h →
        Located g.blobs path (r.state.moved t k phase handed w) d e :=
      fun held' => .inr ⟨h, held', (adds h held).mem member⟩
    rcases held with ⟨other, among⟩ | ⟨t', carried⟩
    · by_cases mine : other = dev
      · rw [mine] at among
        exact passed h (.inl among) e member
      · apply still
        refine .inl ⟨other, ?_⟩
        rwa [table, onlySlot_handles only mine]
    · by_cases mine : t' = t
      · rw [mine] at carried
        exact passed h (.inr carried) e member
      · apply still
        refine .inr ⟨t', ?_⟩
        rwa [moved_threads, Function.update_of_ne mine]
  · intro e member
    have none_made : e ∈ madeBy d (r.state.threads t) := member
    rw [nothing] at none_made
    cases none_made

/-- A batch that goes on keeps its cache and its slot. -/
def Onward (caches : DevCaches) (phase phase' : Phase) : Prop :=
  (∀ h, carries phase = some h → carries phase' = some h) ∧
    (Provided caches phase → Provided caches phase')

private theorem onward_bare {caches : DevCaches} {phase phase' : Phase}
    (none_carried : carries phase = none) (provided : Provided caches phase') :
    Onward caches phase phase' := by
  refine ⟨fun h carried => ?_, fun _ => provided⟩
  rw [none_carried] at carried
  cases carried

/-- The stretches that neither begin nor end a batch, and compile nothing. -/
def Between : Phase → Prop
  | .arrived _ | .begun _ | .ready _ | .compiled _ => False
  | _ => True

private theorem always_onward {p : Process} {k : CacheState} {caches : DevCaches}
    (between : Between phase) :
    (advance p k phase).Always (fun _ => True) (fun r => Onward caches phase r.2.1) := by
  cases phase with
  | arrived b => exact between.elim
  | begun b => exact between.elim
  | compiled b => exact between.elim
  | idle => exact onward_bare rfl trivial
  | ready b => exact between.elim
  | compiling b => exact ⟨trivial, fun _ => ⟨fun _ carried => carried, id⟩⟩
  | creating dev initial =>
      simp only [advance, Prog.always_bind]
      refine (Prog.always_trivial _).mono fun r _ => ?_
      obtain ⟨out, prime, gate⟩ := r
      cases out with
      | none => exact onward_bare rfl trivial
      | some out => cases prime <;> exact onward_bare rfl trivial
  | makingDevice =>
      simp only [advance, Prog.always_bind]
      refine (Prog.always_trivial _).mono fun made _ => ?_
      cases made <;> exact onward_bare rfl trivial
  | reading dev pc room =>
      cases room <;> exact ⟨trivial, fun _ => onward_bare rfl trivial⟩
  | _ =>
      simp only [advance, Prog.always_bind]
      exact (Prog.always_trivial _).mono fun _ _ => onward_bare rfl trivial

/-- A thread in a hook, and what the driver and the files make of its next stretch. -/
abbrev Stretch (g : App E) (r : Run E) (t : Nat) (k : CacheState) (phase : Phase)
    (handed : Handed) (w : World) (d : Disk E) : Prop :=
  (advance g.process r.state.cache (r.state.threads t)).Runs
    (answers.prod (stores g.platform)) (r.state.world, r.disk) (k, phase, handed) (w, d)

section Advance

variable {k : CacheState} {handed : Handed} {w : World}

theorem Kept.inv_moved (kept : Kept g path r) (run : Stretch g r t k phase handed w d) :
    Inv (r.state.moved t k phase handed w) := by
  have step : (lawful g.process).step r.state (.advance t) (r.state.moved t k phase handed w) :=
    ⟨⟨k, phase, handed, w, run.prod.1, rfl⟩, trivial⟩
  exact inv_step kept.inv step

theorem Kept.onward (kept : Kept g path r) (run : Stretch g r t k phase handed w d)
    (table : k.devCaches = r.state.cache.devCaches ∧ k.fns = r.state.cache.fns)
    (between : Between (r.state.threads t))
    (files : d.files = r.disk.files) (props : d.props = r.disk.props)
    (contents : ∀ h, InHand r.state h → d.contents h = r.disk.contents h) :
    Carried g path r (.advance t) (r.state.moved t k phase handed w) d := by
  have nothing : madeBy d (r.state.threads t) = [] := by
    generalize r.state.threads t = now at between
    cases now
    all_goals first
      | rfl
      | exact between.elim
  have onward : Onward r.state.cache.devCaches (r.state.threads t) phase :=
    (always_onward between).of_runs run
  apply kept.stretch (kept.inv_moved run) (table.1 ▸ .refl _) table.2 files props
  · intro h held
    rw [contents h held]
    exact .refl _
  · exact onward.1
  · exact onward.2 (kept.provided t)
  · intro some_made
    exact absurd nothing some_made
  · intro e member
    rw [nothing] at member
    cases member

theorem Kept.silent (kept : Kept g path r) (run : Stretch g r t k phase handed w d)
    (quiet : CacheClearing.Harmless (r.state.threads t))
    (table : k.devCaches = r.state.cache.devCaches ∧ k.fns = r.state.cache.fns) :
    Carried g path r (.advance t) (r.state.moved t k phase handed w) d := by
  have silent : Yields g.platform (advance g.process r.state.cache (r.state.threads t)) r.disk
      (fun _ d => True ∧ d = r.disk) :=
    (CacheClearing.always_silent quiet).ensures (fun _ _ => trivial)
      fun _ _ _ quiet answered => CacheClearing.stores_silent quiet answered
  have same : d = r.disk := (silent.of_runs run.prod.2).2
  have between : Between (r.state.threads t) := by
    generalize r.state.threads t = now at quiet
    cases now <;> trivial
  exact kept.onward run table between (by rw [same]) (by rw [same]) fun h _ => by rw [same]

end Advance

end Steps

end XdPlus.Vulkan.CacheRuns
