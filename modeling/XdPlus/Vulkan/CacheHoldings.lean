/- Module: XdPlus/Vulkan/CacheHoldings
   source: vulkan/vkshim.c, ensure_disk_cache, save_disk_cache, drain_pending, compile_batch,
     drop_disk_cache
   digest: What a driver that loses nothing makes of the entries in a slot's caches. -/

import Mathlib.Data.List.TakeWhile
import XdPlus.Vulkan.CacheClearing

set_option autoImplicit false
set_option relaxedAutoImplicit false

namespace XdPlus.Vulkan.CacheHoldings

open XdPlus.Base Common Driver PipelineCache PipelineBatches PipelineLedger PipelineOwnership
  CacheFiles CacheSections CacheClearing

variable {E : Type} [DecidableEq E]

section Growth

variable {es es' es'' : List E}

/-- The entries of a cache, and those after some were added. -/
def Adds (es es' : List E) : Prop := ∃ new, es' = new ∪ es

theorem Adds.refl (es : List E) : Adds es es := ⟨[], rfl⟩

theorem Adds.trans (first : Adds es es') (second : Adds es' es'') : Adds es es'' := by
  obtain ⟨new, rfl⟩ := first
  obtain ⟨more, rfl⟩ := second
  refine ⟨more ++ new, ?_⟩
  induction more with
  | nil => rfl
  | cons e more ih => rw [List.cons_union, ih, List.cons_append, List.cons_union]

theorem Adds.mem (adds : Adds es es') {e : E} (member : e ∈ es) : e ∈ es' := by
  obtain ⟨new, rfl⟩ := adds
  exact List.mem_union_right new member

/-- The driver serialises a cache to more bytes with each new entry. -/
def Grows (blobs : Blobs E) : Prop :=
  ∀ e es, e ∉ es → (blobs.encode es).length < (blobs.encode (e :: es)).length

theorem Grows.adds {blobs : Blobs E} (grows : Grows blobs) (adds : Adds es es') :
    es' = es ∨ (blobs.encode es).length < (blobs.encode es').length := by
  obtain ⟨new, rfl⟩ := adds
  induction new with
  | nil => exact .inl rfl
  | cons e new ih =>
      rw [List.cons_union]
      by_cases known : e ∈ new ∪ es
      · rwa [List.insert_of_mem known]
      · rw [List.insert_of_not_mem known]
        have longer := grows e (new ∪ es) known
        right
        rcases ih with same | shorter
        · rwa [same] at longer ⊢
        · omega

end Growth

section Slots

variable {pf : Platform E} {p : Process} {fns : CacheFns} {c c' : DevCache} {path : String}
  {srcs : List VkPipelineCache} {d d' : Disk E} {force : Bool}

/-- The file holds this entry. -/
def InFile (blobs : Blobs E) (path : String) (d : Disk E) (e : E) : Prop :=
  ∃ data es, d.files path = some data ∧ blobs.decode data = some es ∧ e ∈ es

/-- What the master of a slot holds with `srcs` and the queue merged into it. -/
def grown (d : Disk E) (c : DevCache) (srcs : List VkPipelineCache) : List E :=
  c.pending.flatMap d.contents ∪ (srcs.flatMap d.contents ∪ d.contents c.pc)

theorem grown_adds (d : Disk E) (c : DevCache) (srcs : List VkPipelineCache) :
    Adds (d.contents c.pc) (grown d c srcs) := .trans ⟨_, rfl⟩ ⟨_, rfl⟩

theorem grown_pending {h : VkPipelineCache} {e : E} (queued : h ∈ c.pending)
    (member : e ∈ d.contents h) : e ∈ grown d c srcs :=
  List.mem_union_left (List.mem_flatMap.mpr ⟨h, queued, member⟩) _

theorem grown_source {h : VkPipelineCache} {e : E} (merged : h ∈ srcs)
    (member : e ∈ d.contents h) : e ∈ grown d c srcs :=
  List.mem_union_right _ (List.mem_union_left (List.mem_flatMap.mpr ⟨h, merged, member⟩) _)

/-- The queue of a slot is merged, and its master, which then holds `es`, is saved or not. -/
structure Rewritten (pf : Platform E) (p : Process) (path : String) (force : Bool)
    (c c' : DevCache) (es : List E) (d d' : Disk E) : Prop where
  slot : ∃ size ns frozen, c' = { c with
    pending := [], lastSavedSize := size, lastSaveNs := ns, frozen := frozen }
  master : d'.contents c.pc = es
  others : ∀ h, h ≠ c.pc → d'.contents h = d.contents h
  props : d'.props = d.props
  stamp : d'.files (genPath path) = d.files (genPath path)
  file :
    (d'.files path = d.files path ∧ c'.lastSavedSize = c.lastSavedSize ∧
      (force = true → (pf.blobs.encode es).length ≤ capOf p d.props "vkcachemax" cacheMaxMb →
        (pf.blobs.encode es).length = 0 ∨ (pf.blobs.encode es).length = c.lastSavedSize)) ∨
    ((pf.blobs.encode es).length ≠ c.lastSavedSize ∧
      c'.lastSavedSize = (pf.blobs.encode es).length ∧
      d'.files path = some (pf.blobs.encode es))

omit [DecidableEq E] in
private theorem rewritten_saved {d₁ : Disk E} {es : List E} (steady : pf.steady)
    (self : selfPath p pf.uid = some path) (here : c.path = path) (some_pc : c.pc ≠ 0)
    (able : fns.gpcd = true) (files : d₁.files = d.files) (props : d₁.props = d.props)
    (master : d₁.contents c.pc = es)
    (others : ∀ h, h ≠ c.pc → d₁.contents h = d.contents h)
    (saved : Saved pf p fns force { c with pending := [] } c' d₁ d') :
    Rewritten pf p path force c c' es d d' := by
  obtain ⟨full, gen, tmp, tmp_gen⟩ := paths_apart self
  have blob : blobOf pf d₁ { c with pending := [] } = pf.blobs.encode es := by
    rw [← master]
    rfl
  have result := saved.files
  rw [blob] at result
  refine ⟨saved.slot, by rw [saved.contents, master], ?_, saved.props.trans props, ?_, ?_⟩
  · intro h ne
    rw [saved.contents, others h ne]
  · rcases result with ⟨same, -⟩ | ⟨-, -, -, -, replaced⟩
    · rw [same, files]
    · simp only [here] at replaced
      rw [replaced, ← files]
      simp [Disk.put, gen, tmp_gen.symm]
  · rcases result with ⟨same, size, skipped⟩ | ⟨-, -, changed, size, replaced⟩
    · left
      refine ⟨by rw [same, files], size, fun forced under => ?_⟩
      rw [← props] at under
      exact skipped steady able some_pc (here ▸ full) forced under
    · right
      refine ⟨changed, size, ?_⟩
      simp only [here] at replaced
      rw [replaced]
      simp [Disk.put, tmp.symm]

theorem rewritten_worked (steady : pf.steady) (self : selfPath p pf.uid = some path)
    (here : c.path = path) (some_pc : c.pc ≠ 0) (apart : c.pc ∉ c.pending)
    (able : fns.gpcd = true ∧ fns.mpc = true) (worked : Worked pf p fns c srcs c' d d') :
    Rewritten pf p path false c c' (grown d c srcs) d d' := by
  obtain ⟨d₁, d₂, merged, drained, saved⟩ := worked
  have queue : c.pending.flatMap d₁.contents = c.pending.flatMap d.contents := by
    apply List.flatMap_congr
    intro h queued
    apply merged.others
    rintro rfl
    exact apart queued
  refine rewritten_saved steady self here some_pc able.1 (drained.files.trans merged.files)
    (drained.props.trans merged.props) ?_ ?_ saved
  · rw [drained.full steady able.2 some_pc, merged.full steady able.2 some_pc, queue]
    rfl
  · intro h ne
    rw [drained.others h ne, merged.others h ne]

theorem rewritten_givenUp (steady : pf.steady) (self : selfPath p pf.uid = some path)
    (here : c.path = path) (some_pc : c.pc ≠ 0) (able : fns.gpcd = true ∧ fns.mpc = true)
    (given : GivenUp pf p fns c d d') :
    ∃ c', Rewritten pf p path true c c' (grown d c []) d d' := by
  obtain ⟨d₁, merged, saved⟩ := given
  rcases saved with ⟨null, -⟩ | ⟨c', saved⟩
  · exact absurd null some_pc
  · refine ⟨c', rewritten_saved steady self here some_pc able.1 merged.files merged.props ?_
      merged.others saved⟩
    rw [merged.full steady able.2 some_pc]
    rfl

variable {es : List E}

theorem Rewritten.adds (rewritten : Rewritten pf p path force c c' es d d')
    (adds : Adds (d.contents c.pc) es) (h : VkPipelineCache) :
    Adds (d.contents h) (d'.contents h) := by
  by_cases same : h = c.pc
  · rw [same, rewritten.master]
    exact adds
  · rw [rewritten.others h same]
    exact .refl _

omit [DecidableEq E] in
theorem Rewritten.inFile (rewritten : Rewritten pf p path force c c' es d d') {e : E}
    (before : InFile pf.blobs path d e)
    (spared : (pf.blobs.encode es).length ≠ c.lastSavedSize → e ∈ es) :
    InFile pf.blobs path d' e := by
  obtain ⟨data, old, there, decoded, member⟩ := before
  rcases rewritten.file with ⟨same, -⟩ | ⟨changed, -, replaced⟩
  · exact ⟨data, old, same.trans there, decoded, member⟩
  · exact ⟨_, es, replaced, pf.blobs.decode_encode es, spared changed⟩

omit [DecidableEq E] in
theorem Rewritten.fresh (rewritten : Rewritten pf p path force c c' es d d')
    (changed : c'.lastSavedSize ≠ c.lastSavedSize) {e : E} (member : e ∈ es) :
    InFile pf.blobs path d' e := by
  rcases rewritten.file with ⟨-, same, -⟩ | ⟨-, -, replaced⟩
  · exact absurd same changed
  · exact ⟨_, es, replaced, pf.blobs.decode_encode es, member⟩

end Slots

section Opening

variable {pf : Platform E} {p : Process} {path : String} {k : CacheState} {dev : VkDevice}
  {w : World} {d d' : Disk E}

/-- A value that the stamp file gives back as it is. -/
def Worded (gen : String) : Prop :=
  gen.toUTF8.toList.length ≤ 91 ∧ ∀ b ∈ gen.toUTF8.toList, b ≠ 0

omit [DecidableEq E] in
theorem stale_congr (props : d'.props = d.props)
    (stamp : d'.files (genPath path) = d.files (genPath path)) :
    d'.Stale path ↔ d.Stale path := by
  simp only [Disk.Stale, Disk.stamp, props, stamp]

omit [DecidableEq E] in
private theorem not_stale_cleared (worded : Worded (d.props cacheGenProp)) :
    ¬ (d.cleared path).Stale path := by
  obtain ⟨short, plain⟩ := worded
  intro stale
  apply stale.2
  have stamp : (d.cleared path).stamp path =
      ((d.props cacheGenProp).toUTF8.toList.take 91).takeWhile (· ≠ 0) := by
    simp [Disk.stamp, Disk.cleared, Disk.put]
  have props : (d.cleared path).props = d.props := rfl
  rw [stamp, props, List.take_of_length_le short, List.takeWhile_eq_self_iff]
  intro b member
  simpa using plain b member

/-- The device had no slot; now it has one, with a cache made from the file. -/
structure Opened (pf : Platform E) (p : Process) (path : String) (k : CacheState)
    (dev : VkDevice) (w : World) (pc : VkPipelineCache) (k' : CacheState) (d d' : Disk E) :
    Prop where
  missing : slotOf k.devCaches dev = none
  only : OnlySlot dev k.devCaches k'.devCaches
  slot : ∃ c, slotOf k'.devCaches dev = some c ∧ c.pc = pc ∧ c.path = path ∧ c.pending = []
  some_pc : pc ≠ 0
  fresh : w.caches pc = none
  fns : k'.fns = resolveCacheFns p.exported k.fns
  props : d'.props = d.props
  others : ∀ h, h ≠ pc → d'.contents h = d.contents h
  settled : ¬ d'.Stale path
  kept : ¬ d.Stale path → d'.files = d.files
  loaded : ∀ e ∈ d'.contents pc, InFile pf.blobs path d' e

private theorem both_createPrimed (steady : pf.steady) (initial : Bytes) :
    Both pf (createPrimed dev initial) (w, d) (fun made _ => ∃ pc, made = some pc ∧ pc ≠ 0) := by
  simp only [Both, createPrimed, Prog.ensures_bind, Prog.ensures_call]
  refine ⟨trivial, fun made x answered => ?_⟩
  cases made with
  | some pc => exact ⟨pc, rfl, answered.1.1⟩
  | none =>
      rw [if_neg (answered.2.1 steady)]
      refine ⟨trivial, fun made x answered => ?_⟩
      cases made with
      | some pc => exact ⟨pc, rfl, answered.1.1⟩
      | none => exact absurd rfl (answered.2.1 steady)

private theorem both_loadDiskCache (steady : pf.steady) (c : DevCache) (x : World × Disk E) :
    Both pf (loadDiskCache dev c) x (fun r _ => r.1 ≠ 0) := by
  simp only [Both, loadDiskCache, Prog.ensures_bind]
  refine (Prog.always_trivial _).anywhere.mono fun initial x _ => ?_
  refine (both_createPrimed steady initial).mono fun made x found => ?_
  obtain ⟨pc, rfl, some_pc⟩ := found
  simp only [Prog.ensures_bind, Prog.ensures_call]
  exact ⟨trivial, fun _ _ _ => some_pc⟩

private theorem both_createDiskCache (steady : pf.steady) (c : DevCache) :
    Both pf (createDiskCache p dev c) (w, d) (fun r _ => r.1 ≠ 0) := by
  simp only [Both, createDiskCache, Prog.ensures_bind]
  refine (Prog.always_trivial _).anywhere.mono fun found x _ => ?_
  cases found with
  | none => exact both_loadDiskCache steady c x
  | some path =>
      simp only [Prog.ensures_bind]
      exact (Prog.always_trivial _).anywhere.mono fun _ x _ => both_loadDiskCache steady _ x

omit [DecidableEq E] in
private theorem opened_created {c c' : DevCache} {k' : CacheState} {pc : VkPipelineCache}
    (steady : pf.steady) (self : selfPath p pf.uid = some path)
    (worded : Worded (d.props cacheGenProp)) (missing : slotOf k.devCaches dev = none)
    (only : OnlySlot dev k.devCaches k'.devCaches) (found : slotOf k'.devCaches dev = some c')
    (empty : c.pending = []) (some_pc : pc ≠ 0) (fresh : w.caches pc = none)
    (fns : k'.fns = resolveCacheFns p.exported k.fns) (created : Created pf p c pc c' d d') :
    Opened pf p path k dev w pc k' d d' := by
  obtain ⟨⟨size, ns, rest⟩, d₁, refreshed, made⟩ := created
  rw [self] at refreshed
  simp only [self, Option.getD_some] at made rest
  obtain ⟨initial, es, read, loads, same, -⟩ := made.resolve_left fun refused =>
    refused.2.1 steady
  have renewed : d₁.props = d.props ∧ d₁.contents = d.contents ∧ ¬ d₁.Stale path ∧
      (¬ d.Stale path → d₁.files = d.files) := by
    rcases refreshed with ⟨not_stale, same⟩ | ⟨stale, same⟩
    · refine ⟨same.props, same.contents, ?_, fun _ => same.files⟩
      rwa [stale_congr same.props (by rw [same.files])]
    · refine ⟨same.props, same.contents, ?_, fun not_stale => absurd stale not_stale⟩
      rw [stale_congr same.props (by rw [same.files])]
      exact not_stale_cleared worded
  obtain ⟨props, contents, settled, kept⟩ := renewed
  have files : d'.files = d₁.files := same.files
  have props' : d'.props = d₁.props := same.props
  refine ⟨missing, only, ⟨c', found, ?_, ?_, ?_⟩, some_pc, fresh, fns, props'.trans props,
    ?_, ?_, ?_, ?_⟩
  · rw [rest]
  · rw [rest]
  · rw [rest]
    exact empty
  · intro h ne
    rw [same.contents, Disk.fill_of_ne _ _ ne, contents]
  · rwa [stale_congr props' (by rw [files])]
  · intro not_stale
    rw [files, kept not_stale]
  · intro e member
    rw [same.contents, Disk.fill_self] at member
    rcases loads with rfl | ⟨full, decoded⟩
    · cases member
    · rcases read with nothing | file
      · exact absurd nothing full
      · exact ⟨initial, es, by rw [files, file], decoded, member⟩

private theorem both_ensureDiskCache_bare {i : Fin devCacheMax} {caches : DevCaches}
    (steady : pf.steady) (exports : p.exported = ⟨true, true, true, true⟩)
    (claimed : cacheClaim k.devCaches dev = some (i, caches)) (bare : (caches i).pc = 0) :
    Both pf (ensureDiskCache p k dev) (w, d)
      (fun r _ => r.1 ≠ 0 ∧ r.2.fns = resolveCacheFns p.exported k.fns) := by
  have cpc : (resolveCacheFns p.exported k.fns).cpc = true := by simp [resolveCacheFns, exports]
  have gpcd : (resolveCacheFns p.exported k.fns).gpcd = true := by simp [resolveCacheFns, exports]
  simp only [Both, ensureDiskCache, claimed, bare, ne_eq, not_true_eq_false, if_false, cpc, gpcd,
    Bool.true_eq_false, or_self, Prog.ensures_bind]
  exact (both_createDiskCache steady (caches i)).mono fun r x some_pc => ⟨some_pc, rfl⟩

/-- `ensure_disk_cache` where every slot has its cache: nothing is done, for a device with a slot
or for want of one, or the device gets both. -/
theorem both_ensureDiskCache (steady : pf.steady) (self : selfPath p pf.uid = some path)
    (exports : p.exported = ⟨true, true, true, true⟩) (worded : Worded (d.props cacheGenProp))
    (keyed : Keyed k.devCaches) (handle : dev ≠ 0)
    (full : ∀ c, slotOf k.devCaches dev = some c → c.pc ≠ 0) :
    Both pf (ensureDiskCache p k dev) (w, d) (fun r x =>
      (r.2 = k ∧ x.2 = d ∧ (slotOf k.devCaches dev = none → cacheClaim k.devCaches dev = none)) ∨
      Opened pf p path k dev w r.1 r.2 d x.2) := by
  cases claimed : cacheClaim k.devCaches dev with
  | none =>
      simp only [Both, ensureDiskCache, claimed]
      exact .inl ⟨rfl, rfl, fun _ => trivial⟩
  | some slot =>
      obtain ⟨i, caches⟩ := slot
      obtain ⟨only, lookup, was⟩ := cacheClaim_spec keyed handle claimed
      cases found : slotOf k.devCaches dev with
      | some c =>
          obtain ⟨j, there, -⟩ := Option.map_eq_some_iff.mp found
          have same : caches = k.devCaches := by
            simp only [cacheClaim, there, Option.some.injEq, Prod.mk.injEq] at claimed
            exact claimed.2.symm
          have some_pc : (caches i).pc ≠ 0 := by
            rw [was, found]
            exact full c found
          simp only [Both, ensureDiskCache, claimed, ne_eq, some_pc, not_false_eq_true, if_true]
          left
          refine ⟨by rw [same], rfl, fun missing => ?_⟩
          cases missing
      | none =>
          have bare : caches i = { DevCache.zero with dev := dev } := by rw [was, found]; rfl
          have books : (ensureDiskCache p k dev).Ensures answers
              (Proper (fun _ => False) (fun _ => False)) w
              (fun r w' => Ensured k dev w r.1 r.2 w') := ensures_ensureDiskCache keyed handle
          have null : (caches i).pc = 0 := by rw [bare]; rfl
          have made := both_ensureDiskCache_bare (w := w) (d := d) steady exports claimed null
          have both := (books.prod (x := (w, d)) (yields_ensureDiskCache k dev)).and made
          refine (both.weaken fun _ _ _ => trivial).mono fun r x facts => .inr ?_
          obtain ⟨⟨ensured, disk⟩, some_pc, fns⟩ := facts
          have fresh : w.caches r.1 = none := by
            rcases ensured.slot with ⟨-, -, is_null, -⟩ | ⟨j, -, primed⟩
            · exact absurd is_null some_pc
            · rw [found] at primed
              rcases primed.made with ⟨is_null, -⟩ | ⟨-, -, fresh, -⟩
              · exact absurd is_null some_pc
              · exact fresh
          rcases disk with ⟨unmade, -⟩ | ⟨j, caches', c', makes, table, created⟩
          · simp only [Unmade, claimed, null] at unmade
            exact absurd unmade.2.1 some_pc
          · obtain ⟨rfl, rfl⟩ : i = j ∧ caches = caches' := by
              simpa [claimed] using makes.1
            have dev_eq : c'.dev = dev := by
              obtain ⟨size, ns, rest⟩ := created.rest
              rw [rest]
              exact (cacheLookup_dev lookup).1
            obtain ⟨only', found', -⟩ := onlySlot_set only.keyed lookup dev_eq
            rw [← table] at only' found'
            exact opened_created steady self worded found (only.trans only') found'
              (by rw [bare]; rfl) some_pc fresh fns created

end Opening

end XdPlus.Vulkan.CacheHoldings
