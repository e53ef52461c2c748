/- Module: XdPlus/Vulkan/CacheSections
   source: vulkan/vkshim.c, compile_batch, shim_CreatePipelineCache, drop_disk_cache
   digest: What the sections under cache_mu do to the entries and to the file. -/

import XdPlus.Vulkan.CacheFiles

set_option autoImplicit false
set_option relaxedAutoImplicit false

namespace XdPlus.Vulkan.CacheSections

open XdPlus.Base Common Driver PipelineCache PipelineBatches PipelineLedger CacheFiles

variable {E : Type} [DecidableEq E] {pf : Platform E} {p : Process} {d : Disk E} {k : CacheState}
  {b : Batch} {path : String}

def harvestProp : String := "debug.xdplus.vkcacheharvest"

/-- The master of a slot gets the entries of `srcs` and of the queue, and is saved. -/
def Worked (pf : Platform E) (p : Process) (fns : CacheFns) (c : DevCache)
    (srcs : List VkPipelineCache) (c' : DevCache) (d d' : Disk E) : Prop :=
  ∃ d₁ d₂, Merged pf fns c srcs d d₁ ∧ Merged pf fns c c.pending d₁ d₂ ∧
    Saved pf p fns false { c with pending := [] } c' d₂ d'

private theorem yields_drainAndSave {fns : CacheFns} {c : DevCache} {srcs : List VkPipelineCache}
    {d₁ : Disk E} (merged : Merged pf fns c srcs d d₁) :
    Yields pf (drainAndSave p fns c) d₁ (fun c' d' => Worked pf p fns c srcs c' d d') := by
  simp only [drainAndSave, Prog.ensures_bind]
  refine yields_drainPending.mono ?_
  rintro c₁ d₂ ⟨rfl, drained⟩
  exact (yields_saveDiskCache false).mono fun c₂ d₃ saved => ⟨d₁, d₂, merged, drained, saved⟩

/-- The ways the last section of a batch can go, by what it does to the slot of its device. -/
inductive Ending (pf : Platform E) (p : Process) (fns : CacheFns) (gate : Gate) (b : Batch)
    (caches : DevCaches) (d : Disk E) : Batch → DevCaches → Disk E → Prop
  | nothing (reason : cacheLookup caches b.dev = none ∨ b.ownMaster = false ∧
      (b.appCache ≠ 0 ∨ b.scratch = 0)) : Ending pf p fns gate b caches d b caches d
  | master {i : Fin devCacheMax} {c' : DevCache} {d' : Disk E} (own : b.ownMaster = true)
      (lookup : cacheLookup caches b.dev = some i)
      (worked : Worked pf p fns { caches i with masterInUse := false } [] c' d d') :
      Ending pf p fns gate b caches d b (Function.update caches i c') d'
  | harvest {i : Fin devCacheMax} {c' : DevCache} {d' : Disk E} (own : b.ownMaster = false)
      (app : b.appCache ≠ 0) (on : (propExplicitOn d.props harvestProp gate).1 = true)
      (lookup : cacheLookup caches b.dev = some i)
      (free : (caches i).masterInUse = false) (some_pc : (caches i).pc ≠ 0)
      (worked : Worked pf p fns (caches i) [b.appCache] c' d d') :
      Ending pf p fns gate b caches d b (Function.update caches i c') d'
  | scratch {i : Fin devCacheMax} {c' : DevCache} {d' : Disk E} (own : b.ownMaster = false)
      (app : b.appCache = 0) (some_scratch : b.scratch ≠ 0)
      (lookup : cacheLookup caches b.dev = some i)
      (free : (caches i).masterInUse = false) (some_pc : (caches i).pc ≠ 0)
      (worked : Worked pf p fns (caches i) [b.scratch] c' d d') :
      Ending pf p fns gate b caches d b (Function.update caches i c') d'
  | queued {i : Fin devCacheMax} (own : b.ownMaster = false)
      (app : b.appCache = 0) (some_scratch : b.scratch ≠ 0)
      (lookup : cacheLookup caches b.dev = some i) :
      Ending pf p fns gate b caches d { b with scratch := 0 } (Function.update caches i
        { caches i with pending := (caches i).pending ++ [b.scratch] }) d
  | full {i : Fin devCacheMax} (own : b.ownMaster = false)
      (app : b.appCache = 0) (some_scratch : b.scratch ≠ 0)
      (lookup : cacheLookup caches b.dev = some i)
      (full : pendingMax ≤ (caches i).pending.length) :
      Ending pf p fns gate b caches d b (Function.update caches i
        { caches i with warnedPendingFull := true }) d

/-- The last section of a batch; the gate of the harvest has been read or not. -/
structure Ends (pf : Platform E) (p : Process) (k : CacheState) (b : Batch) (d : Disk E)
    (b' : Batch) (k' : CacheState) (d' : Disk E) : Prop where
  ending : Ending pf p k.fns k.cacheHarvest b k.devCaches d b' k'.devCaches d'
  gate : k'.cacheHarvest = k.cacheHarvest ∨
    k'.cacheHarvest = (propExplicitOn d.props harvestProp k.cacheHarvest).2

private theorem yields_readPropExplicitOn (name : String) (gate : Gate) :
    Yields pf (readPropExplicitOn name gate) d
      (fun r d' => r = propExplicitOn d.props name gate ∧ d' = d) := by
  cases gate with
  | some on => exact ⟨rfl, rfl⟩
  | none =>
      simp only [readPropExplicitOn, Prog.ensures_bind, Prog.ensures_call]
      refine ⟨trivial, ?_⟩
      rintro _ _ ⟨rfl, rfl⟩
      exact ⟨rfl, rfl⟩

private theorem yields_endMaster (own : b.ownMaster = true) :
    Yields pf (endMaster p k b) d (fun k' d' => Ends pf p k b d b k' d') := by
  unfold endMaster
  cases lookup : cacheLookup k.devCaches b.dev with
  | none => exact ⟨.nothing (.inl lookup), .inl rfl⟩
  | some i =>
      simp only [Prog.ensures_bind]
      refine (yields_drainAndSave (merged_nothing pf k.fns _ d)).mono fun c' d' worked => ?_
      exact ⟨.master own lookup worked, .inl rfl⟩

private theorem yields_endApp (own : b.ownMaster = false) (app : b.appCache ≠ 0) :
    Yields pf (endApp p k b) d (fun k' d' => Ends pf p k b d b k' d') := by
  unfold endApp
  simp only
  split_ifs
  · simp only [Prog.ensures_bind]
    refine (yields_readPropExplicitOn _ _).mono ?_
    rintro _ d ⟨rfl, rfl⟩
    cases lookup : cacheLookup k.devCaches b.dev with
    | none => exact ⟨.nothing (.inl lookup), .inr rfl⟩
    | some i =>
        simp only
        split_ifs with able
        · obtain ⟨on, -, free, some_pc⟩ := able
          simp only [Prog.ensures_bind, Prog.ensures_call]
          refine ⟨trivial, fun r d₁ merged => ?_⟩
          refine (yields_drainAndSave (merged_by_call merged)).mono fun c' d' worked => ?_
          exact ⟨.harvest own app on lookup free some_pc worked, .inr rfl⟩
        · exact ⟨.nothing (.inr ⟨own, .inl app⟩), .inr rfl⟩
  · exact ⟨.nothing (.inr ⟨own, .inl app⟩), .inl rfl⟩

private theorem yields_endScratch (own : b.ownMaster = false) (app : b.appCache = 0)
    (some_scratch : b.scratch ≠ 0) : Yields pf (endScratch p k b) d (fun r d' =>
      Ends pf p k b d r.2 r.1 d') := by
  unfold endScratch
  cases lookup : cacheLookup k.devCaches b.dev with
  | none => exact ⟨.nothing (.inl lookup), .inl rfl⟩
  | some i =>
      simp only
      split_ifs with able room
      · obtain ⟨free, -, some_pc⟩ := able
        simp only [Prog.ensures_bind, Prog.ensures_call]
        refine ⟨trivial, fun r d₁ merged => ?_⟩
        refine (yields_drainAndSave (merged_by_call merged)).mono fun c' d' worked => ?_
        exact ⟨.scratch own app some_scratch lookup free some_pc worked, .inl rfl⟩
      · exact ⟨.queued own app some_scratch lookup, .inl rfl⟩
      · exact ⟨.full own app some_scratch lookup (Nat.not_lt.mp room), .inl rfl⟩

private theorem yields_countBatch : Yields pf (countBatch p k b) d (fun k' d' =>
    (k'.devCaches = k.devCaches ∧ k'.fns = k.fns ∧ k'.cacheHarvest = k.cacheHarvest) ∧
      d' = d) := by
  unfold countBatch
  simp only
  split_ifs
  · simp only [publishProgress, Prog.ensures_bind, Prog.ensures_call]
    refine ⟨trivial, ?_⟩
    rintro _ _ rfl
    exact ⟨⟨rfl, rfl, rfl⟩, rfl⟩
  · exact ⟨⟨rfl, rfl, rfl⟩, rfl⟩

theorem yields_batchEnd :
    Yields pf (batchEnd p k b) d (fun r d' => Ends pf p k b d r.2 r.1 d') := by
  simp only [batchEnd, Prog.ensures_bind]
  refine yields_countBatch.mono ?_
  rintro k₁ d ⟨⟨table, fns, gate⟩, rfl⟩
  have back {b' : Batch} {k' : CacheState} {d' : Disk E} (ends : Ends pf p k₁ b d b' k' d') :
      Ends pf p k b d b' k' d' := by
    obtain ⟨ending, read⟩ := ends
    rw [table, fns, gate] at ending
    rw [gate] at read
    exact ⟨ending, read⟩
  split_ifs with own app some_scratch
  · simp only [Prog.ensures_bind]
    exact (yields_endMaster own).mono fun _ _ ends => back ends
  · simp only [Prog.ensures_bind]
    exact (yields_endApp (by simpa using own) app).mono fun _ _ ends => back ends
  · exact (yields_endScratch (by simpa using own) (not_not.mp app) some_scratch).mono
      fun _ _ ends => back ends
  · exact back ⟨.nothing (.inr ⟨by simpa using own, .inr (not_not.mp some_scratch)⟩), .inl rfl⟩

/-- The slot `c` of a device that goes: its queue is merged and its master saved. -/
def GivenUp (pf : Platform E) (p : Process) (fns : CacheFns) (c : DevCache) (d d' : Disk E) :
    Prop :=
  ∃ d₁, Merged pf fns c c.pending d d₁ ∧
    (c.pc = 0 ∧ d' = d₁ ∨ ∃ c', Saved pf p fns true { c with pending := [] } c' d₁ d')

theorem yields_dropDiskCache (slot : Option (Fin devCacheMax)) (alive : Bool) :
    Yields pf (dropDiskCache p k slot alive) d (fun k' d' => match slot with
      | none => k' = k ∧ d' = d
      | some i => k' = k.setSlot i DevCache.zero ∧
          if alive then GivenUp pf p k.fns (k.devCaches i) d d' else d' = d) := by
  unfold dropDiskCache
  cases slot with
  | none => exact ⟨rfl, rfl⟩
  | some i =>
      cases alive with
      | false => exact ⟨rfl, rfl⟩
      | true =>
          simp only [if_true, Prog.ensures_bind]
          refine yields_drainPending.mono ?_
          rintro c₁ d₁ ⟨rfl, merged⟩
          by_cases some_pc : (k.devCaches i).pc ≠ 0
          · rw [if_pos some_pc]
            simp only [Prog.ensures_bind]
            refine (yields_saveDiskCache true).mono fun c₂ d₂ saved => ?_
            split_ifs
            · simp only [Prog.ensures_bind, Prog.ensures_call]
              refine ⟨trivial, ?_⟩
              rintro _ _ rfl
              exact ⟨rfl, d₁, merged, .inr ⟨c₂, saved⟩⟩
            · exact ⟨rfl, d₁, merged, .inr ⟨c₂, saved⟩⟩
          · rw [if_neg some_pc]
            exact ⟨rfl, d₁, merged, .inl ⟨not_not.mp some_pc, rfl⟩⟩

/-- A slot that has its cache has its path. -/
def Pathed (path : String) (c : DevCache) : Prop := c.path = path ∨ c.pc = 0 ∧ c.path = ""

private theorem pathed_update {caches : DevCaches} (pathed : ∀ j, Pathed path (caches j))
    (i : Fin devCacheMax) {c : DevCache} (slot : Pathed path c) (j : Fin devCacheMax) :
    Pathed path (Function.update caches i c j) := by
  rcases eq_or_ne j i with rfl | ne
  · rwa [Function.update_self]
  · rw [Function.update_of_ne ne]
    exact pathed j

private theorem pathed_claim {dev : VkDevice} {i : Fin devCacheMax} {caches : DevCaches}
    (pathed : ∀ j, Pathed path (k.devCaches j))
    (claimed : cacheClaim k.devCaches dev = some (i, caches)) (j : Fin devCacheMax) :
    Pathed path (caches j) := by
  unfold cacheClaim at claimed
  split at claimed
  · cases claimed
    exact pathed j
  · split at claimed
    · cases claimed
      exact pathed_update pathed i (.inr ⟨rfl, rfl⟩) j
    · cases claimed

private theorem pathed_ensureDiskCache (self : selfPath p pf.uid = some path)
    (pathed : ∀ j, Pathed path (k.devCaches j)) (dev : VkDevice) :
    Yields pf (ensureDiskCache p k dev) d (fun r _ => ∀ j, Pathed path (r.2.devCaches j)) := by
  refine (yields_ensureDiskCache k dev).mono ?_
  rintro ⟨pc, k'⟩ d' (⟨unmade, -⟩ | ⟨i, caches, c', makes, table, created⟩) j
  · unfold Unmade at unmade
    split at unmade
    · rw [unmade.2]
      exact pathed j
    · rename_i claimed
      rw [unmade.1]
      exact pathed_claim pathed claimed j
  · rw [table]
    refine pathed_update (pathed_claim pathed makes.1) i ?_ j
    obtain ⟨size, ns, rfl⟩ := created.rest
    simp [Pathed, self]

omit [DecidableEq E] in
private theorem Saved.pathed {fns : CacheFns} {force : Bool} {c c' : DevCache} {d' : Disk E}
    (saved : Saved pf p fns force c c' d d') (pathed : Pathed path c) : Pathed path c' := by
  obtain ⟨size, ns, frozen, rfl⟩ := saved.slot
  exact pathed

private theorem Ends.pathed {b' : Batch} {k' : CacheState} {d' : Disk E}
    (ends : Ends pf p k b d b' k' d') (pathed : ∀ j, Pathed path (k.devCaches j)) :
    ∀ j, Pathed path (k'.devCaches j) := by
  obtain ⟨ending, -⟩ := ends
  generalize k'.devCaches = caches at ending
  cases ending with
  | nothing reason => exact pathed
  | master own lookup worked =>
      obtain ⟨d₁, d₂, -, -, saved⟩ := worked
      exact pathed_update pathed _ (Saved.pathed saved (pathed _))
  | harvest own app on lookup free some_pc worked =>
      obtain ⟨d₁, d₂, -, -, saved⟩ := worked
      exact pathed_update pathed _ (Saved.pathed saved (pathed _))
  | scratch own app some_scratch lookup free some_pc worked =>
      obtain ⟨d₁, d₂, -, -, saved⟩ := worked
      exact pathed_update pathed _ (Saved.pathed saved (pathed _))
  | queued own app some_scratch lookup => exact pathed_update pathed _ (pathed _)
  | full own app some_scratch lookup full => exact pathed_update pathed _ (pathed _)

private theorem pathed_batchBegin (self : selfPath p pf.uid = some path)
    (pathed : ∀ j, Pathed path (k.devCaches j)) :
    Yields pf (batchBegin p k b) d (fun r _ => ∀ j, Pathed path (r.1.devCaches j)) := by
  simp only [batchBegin, Prog.ensures_bind]
  refine (pathed_ensureDiskCache self pathed b.dev).mono fun r d' slots => ?_
  split_ifs
  · exact slots
  · cases cacheLookup r.2.devCaches b.dev with
    | none => exact slots
    | some i =>
        simp only
        split_ifs
        · exact pathed_update slots i (slots i)
        · exact slots

private theorem pathed_primeAppCache (self : selfPath p pf.uid = some path)
    (pathed : ∀ j, Pathed path (k.devCaches j)) (dev : VkDevice) (out : VkPipelineCache) :
    Yields pf (primeAppCache p k dev out) d (fun k' _ => ∀ j, Pathed path (k'.devCaches j)) := by
  simp only [primeAppCache, Prog.ensures_bind]
  refine (pathed_ensureDiskCache self pathed dev).mono fun r d' slots => ?_
  cases cacheLookup r.2.devCaches dev with
  | none => exact slots
  | some i =>
      simp only
      split_ifs
      · exact ⟨trivial, fun _ _ _ => ⟨trivial, fun _ _ _ => ⟨trivial, fun _ _ _ => slots⟩⟩⟩
      · exact slots

private theorem pathed_dropDiskCache (pathed : ∀ j, Pathed path (k.devCaches j))
    (slot : Option (Fin devCacheMax)) (alive : Bool) :
    Yields pf (dropDiskCache p k slot alive) d
      (fun k' _ => ∀ j, Pathed path (k'.devCaches j)) := by
  refine (yields_dropDiskCache slot alive).mono fun k' d' dropped => ?_
  cases slot with
  | none =>
      rw [dropped.1]
      exact pathed
  | some i =>
      rw [dropped.1]
      exact pathed_update pathed i (.inr ⟨rfl, rfl⟩)

/-- The stretches that leave the table alone. -/
def Still : Phase → Prop
  | .arrived _ | .compiled _ | .created .. | .madeDevice _ | .droppingDevice _ => False
  | _ => True

theorem always_still {phase : Phase} (still : Still phase) :
    (advance p k phase).Always (fun _ => True) (fun r => r.1.devCaches = k.devCaches ∧
      r.1.cacheHarvest = k.cacheHarvest ∧ r.1.fns = k.fns) := by
  cases phase with
  | idle => exact ⟨rfl, rfl, rfl⟩
  | arrived b => exact still.elim
  | compiled b => exact still.elim
  | created dev out => exact still.elim
  | madeDevice dev => exact still.elim
  | droppingDevice dev => exact still.elim
  | creating dev initial =>
      simp only [advance, Prog.always_bind]
      refine (Prog.always_trivial _).mono fun r _ => ?_
      obtain ⟨out, prime, gate⟩ := r
      cases out with
      | none => exact ⟨rfl, rfl, rfl⟩
      | some out => cases prime <;> exact ⟨rfl, rfl, rfl⟩
  | makingDevice =>
      simp only [advance, Prog.always_bind]
      refine (Prog.always_trivial _).mono fun made _ => ?_
      cases made <;> exact ⟨rfl, rfl, rfl⟩
  | reading dev pc room =>
      cases room <;> exact ⟨trivial, fun _ => ⟨rfl, rfl, rfl⟩⟩
  | destroying dev pc => exact ⟨trivial, fun _ => ⟨rfl, rfl, rfl⟩⟩
  | _ =>
      simp only [advance, Prog.always_bind]
      exact (Prog.always_trivial _).mono fun _ _ => ⟨rfl, rfl, rfl⟩

theorem pathed_advance (self : selfPath p pf.uid = some path)
    (pathed : ∀ j, Pathed path (k.devCaches j)) (phase : Phase) :
    Yields pf (advance p k phase) d (fun r _ => ∀ j, Pathed path (r.1.devCaches j)) := by
  have unmoved (still : Still phase) :
      Yields pf (advance p k phase) d (fun r _ => ∀ j, Pathed path (r.1.devCaches j)) := by
    refine (always_still still).anywhere.mono fun r _ same => ?_
    rw [same.1]
    exact pathed
  cases phase with
  | arrived b =>
      simp only [advance, Prog.ensures_bind]
      exact (pathed_batchBegin self pathed).mono fun _ _ slots => slots
  | compiled b =>
      simp only [advance, Prog.ensures_bind]
      exact yields_batchEnd.mono fun _ _ ends => ends.pathed pathed
  | created dev out =>
      simp only [advance, Prog.ensures_bind]
      exact (pathed_primeAppCache self pathed dev out).mono fun _ _ slots => slots
  | madeDevice dev =>
      simp only [advance, Prog.ensures_bind]
      exact (pathed_dropDiskCache pathed _ _).mono fun _ _ slots => slots
  | droppingDevice dev =>
      simp only [advance, Prog.ensures_bind]
      exact (pathed_dropDiskCache pathed _ _).mono fun _ _ slots => slots
  | _ => exact unmoved trivial

end XdPlus.Vulkan.CacheSections
