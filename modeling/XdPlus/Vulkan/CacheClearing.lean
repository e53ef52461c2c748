/- Module: XdPlus/Vulkan/CacheClearing
   source: vulkan/vkshim.c, drop_cache_if_stale, ensure_disk_cache, save_disk_cache,
     compile_batch, the pipeline-cache hooks, drop_disk_cache;
     rootdir/system/bin/xdplus_tweaks, vkcache_clear
   digest: What is in the cache file while its stamp is that of the generation property. -/

import XdPlus.Vulkan.CacheSections
import XdPlus.Vulkan.PipelineBatchSafety

/-!
Every entry knows when it was compiled, counted in changes of the generation property. A stretch
of a hook is clean if it brings no old entry under a stamp of now.
-/

set_option autoImplicit false
set_option relaxedAutoImplicit false

namespace XdPlus.Vulkan.CacheClearing

open XdPlus.Base Common Driver PipelineCache PipelineBatches PipelineLedger PipelineOwnership
  CacheFiles CacheSections

section Sections

variable {E : Type} [DecidableEq E] {pf : Platform E} {Q : E → Prop} {path : String}
  {H H' : VkPipelineCache → Prop} {p : Process} {d d' d'' : Disk E} {fns : CacheFns}

/-- The file and the caches in `H` hold entries of one kind only. -/
structure Only (pf : Platform E) (Q : E → Prop) (path : String) (H : VkPipelineCache → Prop)
    (d : Disk E) : Prop where
  file : ∀ data es, d.files path = some data → pf.blobs.decode data = some es → ∀ e ∈ es, Q e
  caches : ∀ pc, H pc → ∀ e ∈ d.contents pc, Q e

/-- The stamp file is there and says what the generation property says. -/
def Current (d : Disk E) (path : String) : Prop :=
  d.props cacheGenProp ≠ "" ∧
    d.files (genPath path) = some (d.props cacheGenProp).toUTF8.toList

/-- The stamp stays as it is, and nothing of another kind gets in. -/
structure Keeps (pf : Platform E) (Q : E → Prop) (path : String) (H : VkPipelineCache → Prop)
    (d d' : Disk E) : Prop where
  props : d'.props = d.props
  stamp : d'.files (genPath path) = d.files (genPath path)
  only : Only pf Q path H d → Only pf Q path H d'

omit [DecidableEq E] in
private theorem Keeps.refl (d : Disk E) : Keeps pf Q path H d d := ⟨rfl, rfl, id⟩

omit [DecidableEq E] in
private theorem Keeps.trans (first : Keeps pf Q path H d d') (second : Keeps pf Q path H d' d'') :
    Keeps pf Q path H d d'' :=
  ⟨second.props.trans first.props, second.stamp.trans first.stamp, second.only ∘ first.only⟩

omit [DecidableEq E] in
private theorem Keeps.inside (props : d'.props = d.props) (files : d'.files = d.files)
    (caches : Only pf Q path H d → ∀ pc, H pc → ∀ e ∈ d'.contents pc, Q e) :
    Keeps pf Q path H d d' := by
  refine ⟨props, by rw [files], fun only => ⟨?_, caches only⟩⟩
  rw [files]
  exact only.file

omit [DecidableEq E] in
private theorem keeps_saved {c c' : DevCache} {force : Bool}
    (saved : Saved pf p fns force c c' d d') (self : selfPath p pf.uid = some path)
    (pathed : Pathed path c) (mine : c.pc ≠ 0 → H c.pc) : Keeps pf Q path H d d' := by
  obtain ⟨-, gen, tmp, tmp_gen⟩ := paths_apart self
  have caches (only : Only pf Q path H d) (pc : VkPipelineCache) (held : H pc) :
      ∀ e ∈ d'.contents pc, Q e := by
    rw [saved.contents]
    exact only.caches pc held
  rcases saved.files with ⟨files, -⟩ | ⟨some_pc, some_path, -, -, files⟩
  · exact .inside saved.props files caches
  · obtain rfl : c.path = path := by
      rcases pathed with here | ⟨null, -⟩
      · exact here
      · exact absurd null some_pc
    refine ⟨saved.props, ?_, fun only => ⟨fun data es there loads => ?_, caches only⟩⟩
    · simp [files, Disk.put, gen, tmp_gen.symm]
    · simp only [files, Disk.put, Function.update_of_ne tmp.symm, Function.update_self] at there
      obtain rfl := Option.some.inj there
      rw [blobOf, pf.blobs.decode_encode] at loads
      obtain rfl := Option.some.inj loads
      exact only.caches c.pc (mine some_pc)

private theorem keeps_merged {c : DevCache} {srcs : List VkPipelineCache}
    (merged : Merged pf fns c srcs d d') (mine : ∀ pc ∈ srcs, H pc) : Keeps pf Q path H d d' := by
  refine .inside merged.props merged.files fun only pc held e member => ?_
  rcases eq_or_ne pc c.pc with rfl | ne
  · rcases List.mem_union_iff.mp (merged.within e member) with merged_in | there
    · obtain ⟨src, listed, among⟩ := List.mem_flatMap.mp merged_in
      exact only.caches src (mine src listed) e among
    · exact only.caches _ held e there
  · rw [merged.others pc ne] at member
    exact only.caches pc held e member

private theorem keeps_worked {c c' : DevCache} {srcs : List VkPipelineCache}
    (worked : Worked pf p fns c srcs c' d d') (self : selfPath p pf.uid = some path)
    (pathed : Pathed path c) (mine : ∀ pc ∈ handles c, H pc) (sources : ∀ pc ∈ srcs, H pc) :
    Keeps pf Q path H d d' := by
  obtain ⟨d₁, d₂, merged, drained, saved⟩ := worked
  have queued : ∀ pc ∈ c.pending, H pc := fun pc member => mine pc (by simp [member])
  have master : c.pc ≠ 0 → H c.pc := fun some_pc => mine c.pc (by simp [some_pc])
  exact (keeps_merged merged sources).trans
    ((keeps_merged drained queued).trans (keeps_saved saved self pathed master))

private theorem keeps_ends {k k' : CacheState} {b b' : Batch}
    (self : selfPath p pf.uid = some path) (pathed : ∀ i, Pathed path (k.devCaches i))
    (off : (propExplicitOn d.props harvestProp k.cacheHarvest).1 = false)
    (mine : ∀ i, cacheLookup k.devCaches b.dev = some i → ∀ pc ∈ handles (k.devCaches i), H pc)
    (scratch : b.scratch ≠ 0 → H b.scratch) (ends : Ends pf p k b d b' k' d') :
    Keeps pf Q path H d d' := by
  obtain ⟨ending, -⟩ := ends
  generalize k'.devCaches = caches at ending
  cases ending with
  | nothing reason => exact .refl d
  | master own lookup worked =>
      exact keeps_worked worked self (pathed _) (mine _ lookup) (by simp)
  | harvest own app on lookup free some_pc worked =>
      rw [off] at on
      cases on
  | scratch own app some_scratch lookup free some_pc worked =>
      refine keeps_worked worked self (pathed _) (mine _ lookup) fun pc member => ?_
      rw [List.mem_singleton.mp member]
      exact scratch some_scratch
  | queued own app some_scratch lookup => exact .refl d
  | full own app some_scratch lookup full => exact .refl d

private theorem keeps_givenUp {c : DevCache} (self : selfPath p pf.uid = some path)
    (pathed : Pathed path c) (mine : ∀ pc ∈ handles c, H pc)
    (given : GivenUp pf p fns c d d') : Keeps pf Q path H d d' := by
  obtain ⟨d₁, merged, saved⟩ := given
  have queued : ∀ pc ∈ c.pending, H pc := fun pc member => mine pc (by simp [member])
  refine (keeps_merged merged queued).trans ?_
  rcases saved with ⟨-, rfl⟩ | ⟨c', saved⟩
  · exact .refl d'
  · exact keeps_saved saved self pathed fun some_pc => mine c.pc (by simp [some_pc])

/-- What is asked of a stretch: the properties stay, and if the stamp is that of now afterwards,
nothing of another kind is in the file or in the caches that are there then. -/
structure Clean (pf : Platform E) (Q : E → Prop) (path : String) (H : VkPipelineCache → Prop)
    (d : Disk E) (H' : VkPipelineCache → Prop) (d' : Disk E) : Prop where
  props : d'.props = d.props
  only : (Current d path → Only pf Q path H d) → Current d' path → Only pf Q path H' d'

omit [DecidableEq E] in
private theorem Keeps.clean (keeps : Keeps pf Q path H d d') (fewer : ∀ pc, H' pc → H pc) :
    Clean pf Q path H d H' d' := by
  refine ⟨keeps.props, fun was current => ?_⟩
  have before : Current d path := by simpa only [Current, keeps.props, keeps.stamp] using current
  have only := keeps.only (was before)
  exact ⟨only.file, fun pc held => only.caches pc (fewer pc held)⟩

omit [DecidableEq E] in
private theorem Clean.trans {H'' : VkPipelineCache → Prop} (first : Clean pf Q path H d H' d')
    (second : Clean pf Q path H' d' H'' d'') : Clean pf Q path H d H'' d'' :=
  ⟨second.props.trans first.props, second.only ∘ first.only⟩

omit [DecidableEq E] in
private theorem clean_inside (props : d'.props = d.props) (files : d'.files = d.files)
    (caches : Only pf Q path H d → ∀ pc, H' pc → ∀ e ∈ d'.contents pc, Q e) :
    Clean pf Q path H d H' d' := by
  refine ⟨props, fun was current => ?_⟩
  have only := was (by simpa only [Current, props, files] using current)
  exact ⟨by rw [files]; exact only.file, caches only⟩

omit [DecidableEq E] in
private theorem clean_created {c c' : DevCache} {pc : VkPipelineCache}
    (self : selfPath p pf.uid = some path) (created : Created pf p c pc c' d d')
    (new : ∀ h, H' h → h = pc ∧ pc ≠ 0 ∨ H h)
    (settled : d.Stale path → ∀ pc, H pc → ∀ e ∈ d.contents pc, Q e) :
    Clean pf Q path H d H' d' := by
  obtain ⟨-, gen, -⟩ := paths_apart self
  obtain ⟨d₁, refreshed, made⟩ := created.disk
  simp only [self, Option.getD_some] at made refreshed
  have renewed : d₁.props = d.props ∧ d₁.contents = d.contents ∧
      ((Current d path → Only pf Q path H d) → Current d₁ path → Only pf Q path H d₁) := by
    rcases refreshed with ⟨-, same⟩ | ⟨stale, same⟩
    · refine ⟨same.props, same.contents, fun was current => ?_⟩
      have only := was (by simpa only [Current, same.props, same.files] using current)
      exact ⟨by rw [same.files]; exact only.file, by rw [same.contents]; exact only.caches⟩
    · refine ⟨same.props, same.contents, fun _ _ => ⟨fun data es there => ?_, ?_⟩⟩
      · simp [same.files, Disk.cleared, Disk.put, gen.symm] at there
      · rw [same.contents]
        exact settled stale
  obtain ⟨props, contents, only₁⟩ := renewed
  rcases made with ⟨null, -, same⟩ | ⟨initial, es, read, loads, same, -⟩
  · refine ⟨same.props.trans props, fun was current => ?_⟩
    have only := only₁ was (by simpa only [Current, same.props, same.files] using current)
    refine ⟨by rw [same.files]; exact only.file, fun h held => ?_⟩
    rw [same.contents]
    rcases new h held with ⟨-, some_pc⟩ | old
    · exact absurd null some_pc
    · exact only.caches h old
  · refine ⟨same.props.trans props, fun was current => ?_⟩
    have only := only₁ was (by simpa [Current, same.props, same.files] using current)
    refine ⟨by rw [same.files]; exact only.file, fun h held e member => ?_⟩
    rw [same.contents] at member
    rcases eq_or_ne h pc with rfl | ne
    · rw [Disk.fill_self] at member
      rcases loads with rfl | ⟨full, decoded⟩
      · cases member
      · rcases read with empty | file
        · exact absurd empty full
        · exact only.file initial es file decoded e member
    · rw [Disk.fill_of_ne _ _ ne] at member
      rcases new h held with ⟨is, -⟩ | old
      · exact absurd is ne
      · exact only.caches h old e member

end Sections

/-- A cache of the shim's own: the master of a slot, one that waits in a queue, or the scratch
cache of a batch. -/
def Shims (w : World) (pc : VkPipelineCache) : Prop := ∃ dev, kind w pc = some (dev, .shim)

/-- Calls that change no file and no cache, and make none of the shim's. -/
def Silent : Call → Prop
  | .nowNs | .systemPropertyGet _ | .systemPropertySet .. | .getPipelineCacheSize ..
  | .getPipelineCacheData .. | .destroyPipelineCache .. | .createDevice | .destroyDevice _ => True
  | _ => False

section Worlds

variable {w w' : World} {pc h : VkPipelineCache} {dev : VkDevice}

private theorem shims_addShim (held : Shims (w.addCache pc dev .shim) h) : h = pc ∨ Shims w h := by
  obtain ⟨dev', held⟩ := held
  rcases eq_or_ne h pc with rfl | ne
  · exact .inl rfl
  · rw [kind, World.caches_addCache _ ne] at held
    exact .inr ⟨dev', held⟩

private theorem shims_addApp (held : Shims (w.addCache pc dev .app) h) : h ≠ pc ∧ Shims w h := by
  obtain ⟨dev', held⟩ := held
  rcases eq_or_ne h pc with rfl | ne
  · simp only [kind, World.addCache, Function.update_self, Option.map_map,
      Option.map_eq_some_iff] at held
    obtain ⟨n, -, is⟩ := held
    cases (Prod.mk.inj is).2
  · rw [kind, World.caches_addCache _ ne] at held
    exact ⟨ne, dev', held⟩

private theorem shims_silent {op : Call} {ans : Answer op} (silent : Silent op)
    (answered : answers w op ans w') (held : Shims w' h) : Shims w h := by
  obtain ⟨dev', held⟩ := held
  refine ⟨dev', ?_⟩
  cases op
  case destroyPipelineCache dev pc =>
    obtain rfl : w' = w.removeCache pc := answered
    rcases eq_or_ne h pc with rfl | ne
    · simp [kind, World.removeCache] at held
    · rwa [kind, World.caches_removeCache ne] at held
  case createDevice =>
    cases ans with
    | none => exact answered ▸ held
    | some dev =>
        obtain ⟨-, -, rfl⟩ := answered
        exact held
  case destroyDevice dev =>
    obtain rfl : w' = w.removeDevice dev := answered
    obtain ⟨birth, born, is⟩ := Option.map_eq_some_iff.mp held
    exact Option.map_eq_some_iff.mpr ⟨birth, (World.caches_removeDevice.mp born).1, is⟩
  all_goals first
    | exact silent.elim
    | exact answered ▸ held

end Worlds

section Stretches

variable {E : Type} [DecidableEq E] {pf : Platform E} {Q : E → Prop} {path : String}
  {p : Process} {k : CacheState} {b : Batch} {w : World} {d : Disk E}

theorem stores_silent {op : Call} {ans : Answer op} {d' : Disk E} (silent : Silent op)
    (answered : stores pf d op ans d') : d' = d := by
  cases op
  case systemPropertyGet name => exact answered.2
  case getPipelineCacheSize dev pc => exact answered.2.2
  case getPipelineCacheData dev pc room => exact answered.2.2
  all_goals first
    | exact silent.elim
    | exact answered

/-- A stretch that is clean wherever it ends. -/
abbrev Cleanly {α : Type} (pf : Platform E) (Q : E → Prop) (path : String) (prog : Shim α)
    (w : World) (d : Disk E) : Prop :=
  Both pf prog (w, d) (fun _ x' => Clean pf Q path (Shims w) d (Shims x'.1) x'.2)

private theorem cleanly_silent {α : Type} {prog : Shim α}
    (always : prog.Always Silent fun _ => True) : Cleanly pf Q path prog w d := by
  have keep : ∀ x op (ans : Answer op) x', Silent op → answers.prod (stores pf) x op ans x' →
      (x.2 = d ∧ ∀ h, Shims x.1 h → Shims w h) → x'.2 = d ∧ ∀ h, Shims x'.1 h → Shims w h := by
    intro x op ans x' silent answered before
    refine ⟨(stores_silent silent answered.2).trans before.1, fun h held => ?_⟩
    exact before.2 h (shims_silent silent answered.1 held)
  have whole : prog.Ensures (answers.prod (stores pf)) (fun _ op => Silent op) (w, d)
      (fun _ _ => True) := always.anywhere
  have kept := whole.keep (I := fun x => x.2 = d ∧ ∀ h, Shims x.1 h → Shims w h) keep
    ⟨rfl, fun _ held => held⟩
  refine (kept.weaken fun _ _ _ => trivial).mono fun a x' facts => ?_
  obtain ⟨-, same, fewer⟩ := facts
  rw [same]
  exact (Keeps.refl d).clean fewer

private theorem Cleanly.bind {α β : Type} {prog : Shim α} {f : α → Shim β}
    (first : Cleanly pf Q path prog w d) (rest : ∀ a w' d', Cleanly pf Q path (f a) w' d') :
    Cleanly pf Q path (prog >>= f) w d := by
  rw [Cleanly, Both, Prog.ensures_bind]
  refine first.mono fun a x clean => ?_
  exact (rest a x.1 x.2).mono fun _ x' clean' => clean.trans clean'

private theorem cleanly_pure {α : Type} (a : α) : Cleanly pf Q path (pure a) w d :=
  cleanly_silent trivial

private theorem cleanly_refused {owner : Owner} {dev : VkDevice} {initial : Bytes}
    {x : World × Disk E}
    (answered : answers.prod (stores pf) (w, d) (.createPipelineCache owner dev initial) none x) :
    Clean pf Q path (Shims w) d (Shims x.1) x.2 := by
  obtain ⟨world, -, disk⟩ := answered
  have same : x.1 = w := world
  rw [same, disk]
  exact (Keeps.refl d).clean fun _ held => held

private theorem cleanly_createScratch {dev : VkDevice} :
    Cleanly pf Q path (Shim.call (.createPipelineCache .shim dev [])) w d := by
  refine ⟨trivial, fun made x answered => ?_⟩
  cases made with
  | none => exact cleanly_refused answered
  | some scratch =>
      obtain ⟨⟨-, -, world⟩, es, loads, disk⟩ := answered
      obtain rfl : es = [] := loads.resolve_right fun full => full.1 rfl
      change Clean pf Q path (Shims w) d (Shims x.1) x.2
      rw [world, disk]
      refine clean_inside rfl rfl fun only h held e member => ?_
      rcases eq_or_ne h scratch with rfl | ne
      · rw [Disk.fill_self] at member
        cases member
      · rw [Disk.fill_of_ne _ _ ne] at member
        exact only.caches h ((shims_addShim held).resolve_left ne) e member

private theorem cleanly_batchScratch {fns : CacheFns} :
    Cleanly pf Q path (batchScratch fns b) w d := by
  unfold batchScratch
  split_ifs
  · refine cleanly_createScratch.bind fun made w' d' => ?_
    cases made with
    | none => exact cleanly_pure b
    | some scratch => exact cleanly_pure _
  · exact cleanly_pure b

private theorem cleanly_batchCompile (recent : ∀ e, pf.recent e → Q e) :
    Cleanly pf Q path (batchCompile b) w d := by
  simp only [Cleanly, Both, batchCompile, Prog.ensures_bind, Prog.ensures_call]
  refine ⟨trivial, fun t0 x answered => ⟨trivial, fun r x' compiled => ?_⟩⟩
  obtain ⟨world, disk⟩ : x.1 = w ∧ x.2 = d := answered
  obtain ⟨world', made, es, within, -, disk'⟩ := compiled
  have same : x'.1 = w := Eq.trans world' world
  rw [disk] at within disk'
  refine clean_inside (by rw [disk']; rfl) (by rw [disk']; rfl) fun only h held e member => ?_
  rw [same] at held
  rw [disk'] at member
  change e ∈ (d.fill b.cacheSlot es).contents h at member
  rcases eq_or_ne h b.cacheSlot with rfl | ne
  · rw [Disk.fill_self] at member
    rcases within e member with before | ⟨-, now⟩
    · exact only.caches _ held e before
    · exact recent e now
  · rw [Disk.fill_of_ne _ _ ne] at member
    exact only.caches h held e member

private theorem cleanly_createApp {dev : VkDevice} {initial : Bytes} :
    Cleanly pf Q path (Shim.call (.createPipelineCache .app dev initial)) w d := by
  refine ⟨trivial, fun made x answered => ?_⟩
  cases made with
  | none => exact cleanly_refused answered
  | some out =>
      obtain ⟨⟨-, -, world⟩, es, -, disk⟩ := answered
      change Clean pf Q path (Shims w) d (Shims x.1) x.2
      rw [world, disk]
      refine clean_inside rfl rfl fun only h held e member => ?_
      obtain ⟨ne, before⟩ := shims_addApp held
      rw [Disk.fill_of_ne _ _ ne] at member
      exact only.caches h before e member

private theorem cleanly_createAppCache {gate : Gate} {dev : VkDevice} {initial : Bytes} :
    Cleanly pf Q path (createAppCache gate dev initial) w d := by
  have quiet : (readPropOn "debug.xdplus.vkcacheprime" gate).Always Silent (fun _ => True) := by
    cases gate with
    | none => exact ⟨trivial, fun _ => trivial⟩
    | some on => trivial
  refine cleanly_createApp.bind fun made w' d' => ?_
  cases made with
  | none => exact cleanly_pure _
  | some out => exact (cleanly_silent quiet).bind fun r w' d' => cleanly_pure _

private theorem cleanly_mergeApp {dev : VkDevice} {out : VkPipelineCache}
    {srcs : List VkPipelineCache} (theirs : ¬ Shims w out) :
    Cleanly pf Q path (Shim.call (.mergePipelineCaches dev out srcs)) w d := by
  refine ⟨trivial, fun r x answered => ?_⟩
  obtain ⟨world, es, -, -, disk⟩ := answered
  have same : x.1 = w := world
  change Clean pf Q path (Shims w) d (Shims x.1) x.2
  rw [same, disk]
  refine clean_inside rfl rfl fun only h held e member => ?_
  have ne : h ≠ out := by
    rintro rfl
    exact theirs held
  rw [Disk.fill_of_ne _ _ ne] at member
  exact only.caches h held e member

/-- `ensure_disk_cache`, where no cache of the shim's holds another kind of entry while the
stamp is rewritten. -/
private theorem cleanly_ensureDiskCache {dev : VkDevice}
    (self : selfPath p pf.uid = some path) (keyed : Keyed k.devCaches) (handle : dev ≠ 0)
    (settled : (∃ i caches, Makes p k dev i caches) → d.Stale path →
      ∀ pc, Shims w pc → ∀ e ∈ d.contents pc, Q e) :
    Both pf (ensureDiskCache p k dev) (w, d) (fun r x' =>
      Clean pf Q path (Shims w) d (Shims x'.1) x'.2 ∧ Ensured k dev w r.1 r.2 x'.1) := by
  have books : (ensureDiskCache p k dev).Ensures answers
      (Proper (fun _ => False) (fun _ => False)) w
      (fun r w' => Ensured k dev w r.1 r.2 w') := ensures_ensureDiskCache keyed handle
  refine (books.prod (x := (w, d)) (yields_ensureDiskCache k dev)).mono fun r x' facts => ?_
  obtain ⟨ensured, found⟩ := facts
  refine ⟨?_, ensured⟩
  have new : ∀ h, Shims x'.1 h → h = r.1 ∧ r.1 ≠ 0 ∨ Shims w h := by
    intro h held
    rcases ensured.slot with ⟨-, -, -, world⟩ | ⟨i, -, primed⟩
    · exact .inr (world ▸ held)
    rcases primed.made with ⟨-, world⟩ | ⟨-, some_pc, -, world⟩
    · exact .inr (world ▸ held)
    · rw [world] at held
      exact (shims_addShim held).imp_left fun is => ⟨is, some_pc⟩
  rcases found with ⟨unmade, same⟩ | ⟨i, caches, c', makes, -, created⟩
  · have world : x'.1 = w := by
      rcases ensured.slot with ⟨-, -, -, world⟩ | ⟨i, lookup, primed⟩
      · exact world
      rcases primed.made with ⟨-, world⟩ | ⟨bare, some_pc, -⟩
      · exact world
      unfold Unmade at unmade
      split at unmade
      · exact absurd unmade.1 some_pc
      · rename_i j caches claimed
        obtain ⟨-, -, was⟩ := cacheClaim_spec keyed handle claimed
        rw [← was] at bare
        exact absurd (unmade.2.1.trans bare) some_pc
    rw [world, same]
    exact (Keeps.refl d).clean fun _ held => held
  · exact clean_created self created new (settled ⟨i, caches, makes⟩)

private theorem cleanly_primeAppCache {dev dev' : VkDevice} {out : VkPipelineCache}
    (self : selfPath p pf.uid = some path) (keyed : Keyed k.devCaches) (handle : dev ≠ 0)
    (theirs : kind w out = some (dev', .app))
    (settled : (∃ i caches, Makes p k dev i caches) → d.Stale path →
      ∀ pc, Shims w pc → ∀ e ∈ d.contents pc, Q e) :
    Cleanly pf Q path (primeAppCache p k dev out) w d := by
  simp only [Cleanly, Both, primeAppCache, Prog.ensures_bind]
  refine (cleanly_ensureDiskCache self keyed handle settled).mono fun r x facts => ?_
  obtain ⟨clean, ensured⟩ := facts
  have still_theirs : ¬ Shims x.1 out := by
    have same : kind x.1 out = some (dev', .app) := by
      rcases ensured.slot with ⟨-, -, -, world⟩ | ⟨i, -, primed⟩
      · rw [world]
        exact theirs
      rcases primed.made with ⟨-, world⟩ | ⟨-, -, fresh, world⟩
      · rw [world]
        exact theirs
      · have ne : out ≠ r.1 := by
          rintro rfl
          simp [kind, fresh] at theirs
        rw [world, kind, World.caches_addCache _ ne]
        exact theirs
    rintro ⟨dev'', held⟩
    rw [same] at held
    cases held
  have done (k' : CacheState) : Both pf (pure k') x
      (fun _ x' => Clean pf Q path (Shims w) d (Shims x'.1) x'.2) := clean
  cases cacheLookup r.2.devCaches dev with
  | none => exact done r.2
  | some i =>
      simp only
      split_ifs
      · have silent : Cleanly pf Q path (Shim.call .nowNs) x.1 x.2 :=
          cleanly_silent ⟨trivial, fun _ => trivial⟩
        have merged : Cleanly pf Q path (do
            let _ ← Shim.call .nowNs
            let _ ← Shim.call (.mergePipelineCaches dev out [r.1])
            let _ ← Shim.call .nowNs
            return r.2) x.1 x.2 := by
          refine ⟨trivial, fun _ x₁ asked => ?_⟩
          obtain ⟨world, disk⟩ : x₁.1 = x.1 ∧ x₁.2 = x.2 := asked
          have same : x₁ = (x.1, x.2) := Prod.ext world disk
          rw [same]
          refine (cleanly_mergeApp still_theirs).bind fun _ w' d' => ?_
          exact cleanly_silent ⟨trivial, fun _ => trivial⟩
        exact merged.mono fun _ x' clean' => clean.trans clean'
      · exact done r.2

end Stretches

section Hooks

variable {E : Type} [DecidableEq E] {pf : Platform E} {Q : E → Prop} {path : String}
  {p : Process} {s : State} {t : Nat} {d : Disk E}

/-- What thread `t` does next rewrites a stale stamp only while no cache of the shim's holds
another kind of entry. -/
def Settled (p : Process) (path : String) (Q : E → Prop) (s : State) (d : Disk E) (t : Nat) :
    Prop :=
  ∀ dev, (∃ b, s.threads t = .arrived b ∧ b.dev = dev) ∨
      (∃ out, s.threads t = .created dev out) →
    (∃ i caches, Makes p s.cache dev i caches) → d.Stale path →
    ∀ pc, Shims s.world pc → ∀ e ∈ d.contents pc, Q e

theorem slot_shims (inv : Inv s) {dev : VkDevice} {i : Fin devCacheMax}
    (lookup : cacheLookup s.cache.devCaches dev = some i) :
    ∀ pc ∈ handles (s.cache.devCaches i), Shims s.world pc := by
  intro pc member
  have slot : Holds s (.slot dev) pc (dev, .shim) := by
    refine ⟨?_, rfl⟩
    rw [slotHandles_some (slotOf_some lookup)]
    exact member
  exact ⟨dev, inv.owned.right slot⟩

theorem app_not_shims (inv : Inv s) {pc : VkPipelineCache} {dev : VkDevice}
    (known : s.appCaches pc = some dev) : ¬ Shims s.world pc := by
  have theirs : Holds s .app pc (dev, .app) := ⟨known, rfl⟩
  rintro ⟨dev', held⟩
  rw [inv.owned.right theirs] at held
  cases held

/-- The stretches that change no file and no cache. -/
def Harmless : Phase → Prop
  | .idle | .compiling _ | .ended _ | .reading .. | .destroying .. | .makingDevice
  | .madeDevice _ | .droppedDevice _ => True
  | _ => False

theorem always_silent {phase : Phase} (quiet : Harmless phase) :
    (advance p s.cache phase).Always Silent (fun _ => True) := by
  cases phase with
  | idle => trivial
  | compiling b => exact ⟨trivial, fun _ => trivial⟩
  | ended b =>
      simp only [advance, batchRelease, Prog.always_bind]
      split_ifs
      · exact ⟨trivial, fun _ => trivial⟩
      · trivial
  | reading dev pc room =>
      cases room with
      | none => exact ⟨trivial, fun _ => trivial⟩
      | some room => exact ⟨trivial, fun _ => trivial⟩
  | destroying dev pc => exact ⟨trivial, fun _ => trivial⟩
  | makingDevice =>
      refine ⟨trivial, fun made => ?_⟩
      cases made <;> trivial
  | madeDevice dev =>
      simp only [advance, dropDiskCache, Prog.always_bind]
      cases cacheLookup s.cache.devCaches dev <;> trivial
  | droppedDevice dev => exact ⟨trivial, fun _ => trivial⟩
  | _ => exact quiet.elim

private theorem cleanly_arrived {b : Batch} (inv : Inv s) (phase : s.threads t = .arrived b)
    (self : selfPath p pf.uid = some path) (settled : Settled p path Q s d t) :
    Cleanly pf Q path (advance p s.cache (.arrived b)) s.world d := by
  have used : (s.threads t).uses = some b.dev := by rw [phase]; rfl
  obtain ⟨n, device⟩ := inv.usage.live (inv.usage.uses used)
  simp only [Cleanly, Both, advance, batchBegin, Prog.ensures_bind]
  refine (cleanly_ensureDiskCache self inv.keyed (inv.sound.device device)
    (settled b.dev (.inl ⟨b, phase, rfl⟩))).mono fun r x facts => ?_
  split_ifs
  · exact facts.1
  · cases cacheLookup r.2.devCaches b.dev with
    | none => exact facts.1
    | some i =>
        simp only
        split_ifs
        · exact facts.1
        · exact facts.1

private theorem cleanly_created {dev : VkDevice} {out : VkPipelineCache} (inv : Inv s)
    (phase : s.threads t = .created dev out) (self : selfPath p pf.uid = some path)
    (settled : Settled p path Q s d t) :
    Cleanly pf Q path (advance p s.cache (.created dev out)) s.world d := by
  have used : (s.threads t).uses = some dev := by rw [phase]; rfl
  obtain ⟨n, device⟩ := inv.usage.live (inv.usage.uses used)
  have mine : Holds s (.thread t) out (dev, .app) := by simp [Holds, phase, own]
  refine Cleanly.bind ?_ fun _ _ _ => cleanly_pure _
  exact cleanly_primeAppCache self inv.keyed (inv.sound.device device) (inv.owned.right mine)
    (settled dev (.inr ⟨out, phase⟩))

private theorem cleanly_merging {dev : VkDevice} {dst : VkPipelineCache}
    {srcs : List VkPipelineCache} (inv : Inv s) (phase : s.threads t = .merging dev dst srcs) :
    Cleanly pf Q path (advance p s.cache (.merging dev dst srcs)) s.world d := by
  have used : (s.threads t).uses = some dev := by rw [phase]; rfl
  have theirs : ¬ Shims s.world dst := by
    rcases eq_or_ne dst 0 with rfl | some_dst
    · rintro ⟨dev', held⟩
      exact inv.sound.null held
    · refine app_not_shims inv (inv.usage.lent used ?_ some_dst)
      rw [phase]
      exact List.mem_cons_self ..
  exact (cleanly_mergeApp theirs).bind fun _ _ _ => cleanly_pure _

private theorem clean_compiled {b : Batch} {r : CacheState × Phase × Handed} {x : World × Disk E}
    (inv : Inv s) (phase : s.threads t = .compiled b)
    (self : selfPath p pf.uid = some path) (pathed : ∀ i, Pathed path (s.cache.devCaches i))
    (off : (propExplicitOn d.props harvestProp s.cache.cacheHarvest).1 = false)
    (run : (advance p s.cache (.compiled b)).Runs (answers.prod (stores pf)) (s.world, d) r x) :
    Clean pf Q path (Shims s.world) d (Shims x.1) x.2 := by
  obtain ⟨⟨k', b'⟩, x', ran, -, rfl⟩ := Prog.runs_bind.mp run
  have section_ends : Yields pf (batchEnd p s.cache b) d
      (fun r d' => Ends pf p s.cache b d r.2 r.1 d') := yields_batchEnd
  have ends : Ends pf p s.cache b d b' k' x.2 := section_ends.of_runs ran.prod.2
  have scratch : b.scratch ≠ 0 → Shims s.world b.scratch := by
    intro some_scratch
    have mine : Holds s (.thread t) b.scratch (b.dev, .shim) := by
      simp [Holds, phase, own, some_scratch]
    exact ⟨b.dev, inv.owned.right mine⟩
  refine (keeps_ends self pathed off (fun i lookup => slot_shims inv lookup) scratch ends).clean ?_
  rintro pc ⟨dev, held⟩
  exact ⟨dev, onCaches_was always_batchEnd ran.prod.1 held⟩

private theorem clean_dropping {dev : VkDevice} {r : CacheState × Phase × Handed}
    {x : World × Disk E} (inv : Inv s)
    (self : selfPath p pf.uid = some path) (pathed : ∀ i, Pathed path (s.cache.devCaches i))
    (run : (advance p s.cache (.droppingDevice dev)).Runs (answers.prod (stores pf)) (s.world, d)
      r x) : Clean pf Q path (Shims s.world) d (Shims x.1) x.2 := by
  obtain ⟨k', x', ran, -, rfl⟩ := Prog.runs_bind.mp run
  have keeps : Keeps pf Q path (Shims s.world) d x.2 := by
    have dropped := Prog.Ensures.of_runs (yields_dropDiskCache _ true) ran.prod.2
    cases lookup : cacheLookup s.cache.devCaches dev with
    | none =>
        rw [lookup] at dropped
        rw [dropped.2]
        exact .refl d
    | some i =>
        rw [lookup] at dropped
        exact keeps_givenUp self (pathed i) (slot_shims inv lookup) dropped.2
  refine keeps.clean ?_
  rintro pc ⟨dev', held⟩
  exact ⟨dev', onCaches_was (always_dropDiskCache _ true) ran.prod.1 held⟩

/-- Every stretch is clean that does not rewrite the stamp at the wrong time. -/
theorem clean_advance {r : CacheState × Phase × Handed} {x : World × Disk E} (inv : Inv s)
    (self : selfPath p pf.uid = some path) (pathed : ∀ i, Pathed path (s.cache.devCaches i))
    (off : (propExplicitOn d.props harvestProp s.cache.cacheHarvest).1 = false)
    (recent : ∀ e, pf.recent e → Q e) (settled : Settled p path Q s d t)
    (run : (advance p s.cache (s.threads t)).Runs (answers.prod (stores pf)) (s.world, d) r x) :
    Clean pf Q path (Shims s.world) d (Shims x.1) x.2 := by
  have ended (clean : Cleanly pf Q path (advance p s.cache (s.threads t)) s.world d) :
      Clean pf Q path (Shims s.world) d (Shims x.1) x.2 := clean.of_runs run
  cases phase : s.threads t with
  | arrived b => exact ended (phase ▸ cleanly_arrived inv phase self settled)
  | begun b =>
      rw [phase] at ended
      exact ended (cleanly_batchScratch.bind fun _ _ _ => cleanly_pure _)
  | ready b =>
      rw [phase] at ended
      exact ended ((cleanly_batchCompile recent).bind fun _ _ _ => cleanly_pure _)
  | compiled b =>
      rw [phase] at run
      exact clean_compiled inv phase self pathed off run
  | creating dev initial =>
      rw [phase] at ended
      refine ended (cleanly_createAppCache.bind fun r _ _ => ?_)
      obtain ⟨out, prime, gate⟩ := r
      cases out with
      | none => exact cleanly_pure _
      | some out =>
          simp only
          split_ifs
          · exact cleanly_pure _
          · exact cleanly_pure _
  | created dev out => exact ended (phase ▸ cleanly_created inv phase self settled)
  | merging dev dst srcs => exact ended (phase ▸ cleanly_merging inv phase)
  | droppingDevice dev =>
      rw [phase] at run
      exact clean_dropping inv self pathed run
  | _ =>
      rw [phase] at ended
      exact ended (cleanly_silent (always_silent trivial))

end Hooks

section Gate

variable {E : Type} [DecidableEq E] {pf : Platform E} {p : Process} {k : CacheState} {d : Disk E}

/-- The property is off, and was whenever it was read. -/
def Off (props : PropertyStore) (gate : Gate) : Prop :=
  (props harvestProp).toList.head? ≠ some '1' ∧ gate ≠ some true

private theorem Off.unread {props : PropertyStore} {gate : Gate} (off : Off props gate) :
    (propExplicitOn props harvestProp gate).1 = false := by
  cases gate with
  | none => simpa [propExplicitOn] using off.1
  | some on => simpa [propExplicitOn] using off.2

private theorem Off.read {props : PropertyStore} {gate : Gate} (off : Off props gate) :
    Off props (propExplicitOn props harvestProp gate).2 := by
  refine ⟨off.1, ?_⟩
  cases gate with
  | none => simpa [propExplicitOn] using off.1
  | some on => exact off.2

private theorem always_ensureDiskCache_gate {dev : VkDevice} :
    (ensureDiskCache p k dev).Always (fun _ => True)
      (fun r => r.2.cacheHarvest = k.cacheHarvest) := by
  unfold ensureDiskCache
  cases cacheClaim k.devCaches dev with
  | none => rfl
  | some slot =>
      simp only
      split_ifs
      · rfl
      · rfl
      · rw [Prog.always_bind]
        exact (Prog.always_trivial _).mono fun _ _ => rfl

private theorem off_advance {phase : Phase} (off : Off d.props k.cacheHarvest) :
    Yields pf (advance p k phase) d (fun r _ => Off d.props r.1.cacheHarvest) := by
  have unread {prog : Shim (CacheState × Phase × Handed)}
      (always : prog.Always (fun _ => True) (fun r => r.1.cacheHarvest = k.cacheHarvest)) :
      Yields pf prog d (fun r _ => Off d.props r.1.cacheHarvest) := by
    refine always.anywhere.mono fun r _ same => ?_
    rw [same]
    exact off
  have still (quiet : Still phase) :
      Yields pf (advance p k phase) d (fun r _ => Off d.props r.1.cacheHarvest) :=
    unread ((always_still quiet).mono fun _ same => same.2.1)
  cases phase with
  | arrived b =>
      apply unread
      simp only [advance, batchBegin, Prog.always_bind]
      refine always_ensureDiskCache_gate.mono fun r same => ?_
      split_ifs
      · exact same
      · cases cacheLookup r.2.devCaches b.dev with
        | none => exact same
        | some i =>
            simp only
            split_ifs <;> exact same
  | created dev out =>
      apply unread
      simp only [advance, primeAppCache, Prog.always_bind]
      refine always_ensureDiskCache_gate.mono fun r same => ?_
      cases cacheLookup r.2.devCaches dev with
      | none => exact same
      | some i =>
          simp only
          split_ifs
          · exact ⟨trivial, fun _ => ⟨trivial, fun _ => ⟨trivial, fun _ => same⟩⟩⟩
          · exact same
  | compiled b =>
      simp only [advance, Prog.ensures_bind]
      refine yields_batchEnd.mono fun r d' ends => ?_
      rcases ends.gate with same | read
      · show Off d.props r.1.cacheHarvest
        rw [same]
        exact off
      · show Off d.props r.1.cacheHarvest
        rw [read]
        exact off.read
  | madeDevice dev =>
      apply unread
      simp only [advance, Prog.always_bind]
      refine ((always_dropDiskCache _ false).weaken fun _ _ => trivial).mono fun k' is => ?_
      rw [is]
      cases cacheLookup k.devCaches dev <;> rfl
  | droppingDevice dev =>
      apply unread
      simp only [advance, Prog.always_bind]
      refine ((always_dropDiskCache _ true).weaken fun _ _ => trivial).mono fun k' is => ?_
      rw [is]
      cases cacheLookup k.devCaches dev <;> rfl
  | _ => exact still trivial

end Gate

section Package

variable {E : Type} [DecidableEq E]

/-- A package: its processes, its user, the blobs of the driver, and the number of changes the
generation property had seen when an entry was compiled. -/
structure Package (E : Type) where
  process : Process
  uid : Nat
  blobs : Blobs E
  born : E → Nat

def Package.platform (g : Package E) (epoch : Nat) : Platform E :=
  ⟨g.blobs, g.uid, fun e => g.born e = epoch, False⟩

/-- The process of the package, the files and properties, and the changes of the generation
property so far. -/
structure Run (E : Type) where
  state : State
  disk : Disk E
  epoch : Nat

/-- `exit` ends the process, and the next one begins. -/
inductive Event where
  | hook (a : Action)
  | setprop (name value : String)
  | exit

/-- Every entry of the file was compiled since the generation property took its value. -/
def Run.Final (g : Package E) (path : String) (r : Run E) : Prop :=
  Current r.disk path → ∀ data es, r.disk.files path = some data →
    g.blobs.decode data = some es → ∀ e ∈ es, r.epoch ≤ g.born e

def Run.set (r : Run E) (name value : String) : Run E :=
  { r with
    disk := { r.disk with props := Function.update r.disk.props name value }
    epoch := if name = cacheGenProp ∧ value ≠ r.disk.props name then r.epoch + 1 else r.epoch }

/-- Any number of devices in one process, and one process after the other; the harvest is off. -/
def machine (g : Package E) (path : String) : Machine (Run E) Event where
  init r := r.state = State.zero ∧ (r.disk.props harvestProp).toList.head? ≠ some '1' ∧
    r.Final g path
  step r a r' :=
    match a with
    | .hook a =>
        Hooks (g.platform r.epoch) g.process r.state r.disk a r'.state r'.disk ∧
          r'.epoch = r.epoch
    | .setprop name value => name ≠ harvestProp ∧ r' = r.set name value
    | .exit => r' = { r with state := State.zero }

/-- A stale stamp is rewritten only while no cache of the shim's holds an entry from before the
generation took its value, and the generation does not go back to what the stamp says. -/
def Careful (g : Package E) (path : String) (r : Run E) : Event → Prop
  | .hook (.advance t) =>
      Settled g.process path (fun e => r.epoch ≤ g.born e) r.state r.disk t
  | .setprop name value => name = cacheGenProp → value ≠ "" → value ≠ r.disk.props name →
      r.disk.files (genPath path) ≠ some value.toUTF8.toList
  | _ => True

/-- What every state keeps. -/
structure Kept (g : Package E) (path : String) (r : Run E) : Prop where
  inv : Inv r.state
  pathed : ∀ i, Pathed path (r.state.cache.devCaches i)
  off : Off r.disk.props r.state.cache.cacheHarvest
  only : Current r.disk path → Only (g.platform r.epoch) (fun e => r.epoch ≤ g.born e) path
    (Shims r.state.world) r.disk

variable {g : Package E} {path : String} {r r' : Run E}

omit [DecidableEq E] in
private theorem only_file {pf : Platform E} {Q : E → Prop} {d : Disk E}
    (file : ∀ data es, d.files path = some data → pf.blobs.decode data = some es → ∀ e ∈ es, Q e) :
    Only pf Q path (Shims State.zero.world) d := by
  refine ⟨file, ?_⟩
  rintro pc ⟨dev, held⟩
  cases held

omit [DecidableEq E] in
private theorem kept_zero (off : (r.disk.props harvestProp).toList.head? ≠ some '1')
    (final : r.Final g path) : Kept g path { r with state := State.zero } := by
  refine ⟨PipelineBatchSafety.inv_zero, fun i => .inr ⟨rfl, rfl⟩, ⟨off, ?_⟩, fun current => ?_⟩
  · simp [State.zero, CacheState.zero]
  · exact only_file (final current)

omit [DecidableEq E] in
private theorem Kept.final (kept : Kept g path r) : r.Final g path :=
  fun current => (kept.only current).file

omit [DecidableEq E] in
private theorem Kept.set {name value : String} (kept : Kept g path r) (other : name ≠ harvestProp)
    (careful : Careful g path r (.setprop name value)) : Kept g path (r.set name value) := by
  refine ⟨kept.inv, kept.pathed, ⟨?_, kept.off.2⟩, fun current => ?_⟩
  · show (Function.update r.disk.props name value harvestProp).toList.head? ≠ some '1'
    rw [Function.update_of_ne other.symm]
    exact kept.off.1
  · obtain ⟨set, stamp⟩ := current
    simp only [Run.set] at set stamp ⊢
    by_cases changed : name = cacheGenProp ∧ value ≠ r.disk.props name
    · -- the stamp is not the new value
      obtain ⟨rfl, new⟩ := changed
      rw [Function.update_self] at set stamp
      exact absurd stamp (careful rfl set new)
    · rw [if_neg changed]
      have same : Function.update r.disk.props name value cacheGenProp =
          r.disk.props cacheGenProp := by
        rcases eq_or_ne name cacheGenProp with rfl | ne
        · rw [Function.update_self]
          simpa using changed
        · rw [Function.update_of_ne ne.symm]
      rw [same] at set stamp
      have only := kept.only ⟨set, stamp⟩
      exact ⟨only.file, only.caches⟩

private theorem Kept.hook {a : Action} (kept : Kept g path r)
    (self : selfPath g.process g.uid = some path) (careful : Careful g path r (.hook a))
    (step : (machine g path).step r (.hook a) r') : Kept g path r' := by
  obtain ⟨hooks, epoch⟩ := step
  have inv : Inv r'.state := PipelineBatchSafety.inv_step kept.inv hooks.lawful
  obtain ⟨-, made⟩ := hooks
  cases a with
  | call t e =>
      obtain ⟨⟨idle, entered⟩, disk⟩ := made
      have cache : r'.state.cache = r.state.cache := by rw [entered]; cases e <;> rfl
      have world : r'.state.world = r.state.world := by rw [entered]; cases e <;> rfl
      refine ⟨inv, ?_, ?_, ?_⟩
      · rw [cache]
        exact kept.pathed
      · rw [cache, disk]
        exact kept.off
      · rw [world, disk, epoch]
        exact kept.only
  | resolve fns =>
      obtain ⟨resolved, disk⟩ := made
      have same : r'.state = _ := resolved
      refine ⟨inv, ?_, ?_, ?_⟩
      · rw [same]
        exact kept.pathed
      · rw [same, disk]
        exact kept.off
      · rw [same, disk, epoch]
        exact kept.only
  | advance t =>
      obtain ⟨cache, phase, handed, world, run, moved⟩ := made
      have recent : ∀ e, (g.platform r.epoch).recent e → r.epoch ≤ g.born e :=
        fun e now => Nat.le_of_eq (Eq.symm now)
      have clean := clean_advance kept.inv self kept.pathed kept.off.unread recent careful run
      have pathed := (pathed_advance self kept.pathed _).of_runs run.prod.2
      have off := (off_advance kept.off).of_runs run.prod.2
      have is_cache : r'.state.cache = cache := by rw [moved, moved_cache]
      have is_world : r'.state.world = world := by rw [moved]; cases handed <;> rfl
      refine ⟨inv, ?_, ?_, fun current => ?_⟩
      · rw [is_cache]
        exact pathed
      · rw [is_cache, clean.props]
        exact off
      · rw [is_world, epoch]
        exact clean.only kept.only current

/-- Where no stamp is rewritten under caches that still hold old entries, clearing is final. -/
theorem clearing_final (self : selfPath g.process g.uid = some path)
    (reach : ((machine g path).guarded (Careful g path)).Reachable r) : r.Final g path := by
  have kept : Kept g path r := by
    apply reach.invariant
    · intro r init
      obtain ⟨zero, off, final⟩ := init
      have start := kept_zero off final
      rwa [← zero] at start
    · intro r a r' _ kept step
      obtain ⟨step, careful⟩ := step
      cases a with
      | hook a => exact kept.hook self careful step
      | setprop name value =>
          obtain ⟨other, rfl⟩ := step
          exact kept.set other careful
      | exit =>
          obtain rfl : r' = _ := step
          exact kept_zero kept.off.1 kept.final
  exact kept.final

end Package

section OneThread

variable {E : Type} [DecidableEq E] {pf : Platform E} {s s' : State} {d d' : Disk E}
  {a : Action} {made : List E}

/-- Handles are small, as `serve` gives them out. -/
def Few (w : World) : Prop := ∀ h, 64 ≤ h → w.devices h = none ∧ w.caches h = none

private theorem freeHandle_small {α : Type} {taken : Nat → Option α} {h : Nat}
    (found : freeHandle taken = some h) : h < 64 := by
  have member := List.mem_of_find?_eq_some found
  rw [List.mem_range'] at member
  omega

private theorem few_serve (recent : ∀ e ∈ made, pf.recent e) (x : World × Disk E) (op : Call)
    (ans : Answer op) (x' : World × Disk E) (served : serve pf made x op = some (ans, x'))
    (few : Few x.1) : Few x'.1 := by
  have answered : answers x.1 op ans x'.1 := (serve_allowed recent x op _ served).1
  cases op
  case createDevice =>
    cases found : freeHandle x.1.devices with
    | none =>
        have is : x'.1 = x.1 := by
          simpa [respond, found] using congrArg (fun r => r.2.1) (Option.some.inj served).symm
        exact is ▸ few
    | some dev =>
        have is : x'.1 = x.1.addDevice dev := by
          simpa [respond, found] using congrArg (fun r => r.2.1) (Option.some.inj served).symm
        intro h large
        have other : h ≠ dev := (Nat.lt_of_lt_of_le (freeHandle_small found) large).ne'
        rw [is, World.devices_addDevice other]
        exact few h large
  case createPipelineCache owner dev initial =>
    obtain ⟨pc, found, is⟩ := Option.map_eq_some_iff.mp served
    obtain ⟨-, rfl⟩ := Prod.mk.inj is
    intro h large
    have other : h ≠ pc := (Nat.lt_of_lt_of_le (freeHandle_small found) large).ne'
    exact ⟨(few h large).1, (World.caches_addCache _ other).trans (few h large).2⟩
  case destroyDevice dev =>
    have is : x'.1 = x.1.removeDevice dev := answered
    rw [is]
    intro h large
    simp [World.removeDevice, Function.update_apply, few h large]
  case destroyPipelineCache dev pc =>
    have is : x'.1 = x.1.removeCache pc := answered
    rw [is]
    intro h large
    simp [World.removeCache, Function.update_apply, few h large]
  all_goals exact answered ▸ few

/-- No other thread does anything. -/
structure Alone (s : State) : Prop where
  idle : ∀ t, t ≠ 0 → s.threads t = .idle
  few : Few s.world

theorem alone_zero : Alone State.zero := ⟨fun _ _ => rfl, fun _ _ => ⟨rfl, rfl⟩⟩

/-- Calls in their place, none with a cache of the application's. -/
def permits (s : State) (e : Entry) : Bool :=
  s.threads 0 == .idle &&
    match e with
    | .createPipelines dev cache _ => s.devices dev && cache == 0
    | .createPipelineCache dev _ => s.devices dev
    | .createDevice => true
    | .destroyDevice dev => s.devices dev
    | _ => false

private theorem lawful_permits {e : Entry} (alone : Alone s) (permitted : permits s e = true) :
    s.threads 0 = .idle ∧ Lawful s (.call 0 e) := by
  obtain ⟨idle, legal⟩ : s.threads 0 = .idle ∧ _ := by simpa [permits] using permitted
  refine ⟨idle, ?_⟩
  cases e with
  | createPipelines dev cache n =>
      obtain ⟨held, null⟩ : s.devices dev = true ∧ cache = 0 := by simpa using legal
      exact ⟨held, .inl null⟩
  | createPipelineCache dev initial => exact legal
  | createDevice => trivial
  | destroyDevice dev =>
      refine ⟨legal, fun t uses => ?_⟩
      have nothing : s.threads t = .idle := by
        rcases eq_or_ne t 0 with rfl | other
        · exact idle
        · exact alone.idle t other
      rw [nothing] at uses
      cases uses
  | _ => cases legal

/-- What thread 0 does next, if it may and everything is answered; a batch compiles `made`. -/
def go (pf : Platform E) (made : List E) (s : State) (d : Disk E) :
    Action → Option (State × Disk E)
  | .advance 0 =>
      ((advance fullProcess s.cache (s.threads 0)).attempt (serve pf made) (s.world, d)).map
        fun x => (s.moved 0 x.1.1 x.1.2.1 x.1.2.2 x.2.1, x.2.2)
  | .call 0 e => if permits s e then some (s.enter 0 e, d) else none
  | _ => none

theorem go_hooks (recent : ∀ e ∈ made, pf.recent e) (alone : Alone s)
    (goes : go pf made s d a = some (s', d')) :
    Hooks pf fullProcess s d a s' d' ∧ Alone s' := by
  have untouched : ∀ {phase}, ∀ t, t ≠ 0 → Function.update s.threads 0 phase t = .idle := by
    intro phase t other
    rw [Function.update_of_ne other]
    exact alone.idle t other
  cases a with
  | advance t =>
      cases t with
      | zero =>
          obtain ⟨⟨⟨cache, phase, handed⟩, world, disk⟩, ran, is⟩ :=
            Option.map_eq_some_iff.mp goes
          obtain ⟨rfl, rfl⟩ := Prod.mk.inj is
          have run := Prog.runs_attempt (serve_allowed recent) ran
          have served : Prog.Runs (fun x op ans x' => serve pf made x op = some (ans, x'))
              (advance fullProcess s.cache (s.threads 0)) (s.world, d) (cache, phase, handed)
              (world, disk) := Prog.runs_attempt (fun _ _ _ is => is) ran
          have few : Few world := Prog.Runs.invariant (I := fun x => Few x.1) (few_serve recent)
            served alone.few
          refine ⟨⟨trivial, cache, phase, handed, world, run, rfl⟩, fun t other => ?_, ?_⟩
          · rw [moved_threads]
            exact untouched t other
          · cases handed <;> exact few
      | succ t => cases goes
  | call t e =>
      cases t with
      | zero =>
          simp only [go] at goes
          split_ifs at goes with permitted
          obtain ⟨rfl, rfl⟩ := Prod.mk.inj (Option.some.inj goes)
          obtain ⟨idle, law⟩ := lawful_permits alone permitted
          refine ⟨⟨law, ⟨idle, rfl⟩, rfl⟩, fun t other => ?_, ?_⟩
          · cases e <;> exact untouched t other
          · cases e <;> exact alone.few
      | succ t => cases goes
  | resolve fns => cases goes

/-- One call of each kind from its entry to its return. -/
def newDevice : List Action := [.call 0 .createDevice, .advance 0, .advance 0]

def newCache (dev : VkDevice) : List Action :=
  [.call 0 (.createPipelineCache dev []), .advance 0, .advance 0]

def compile (dev : VkDevice) : List Action :=
  .call 0 (.createPipelines dev 0 1) :: List.replicate 6 (.advance 0)

def endDevice (dev : VkDevice) : List Action :=
  [.call 0 (.destroyDevice dev), .advance 0, .advance 0]

end OneThread

section Runs

/-- Entries are known by when they were compiled, and a blob is its entries. -/
def game : Package UInt8 where
  process := fullProcess
  uid := 10000
  blobs := ⟨id, some, fun _ => rfl⟩
  born := UInt8.toNat

def gamePath : String := "/data/user/0/app/cache/vkshim.pcache"

private theorem game_path : selfPath game.process game.uid = some gamePath := by decide +kernel

/-- What a batch compiles now. -/
def fresh (epoch : Nat) : List UInt8 := [UInt8.ofNat epoch].filter fun e => e.toNat = epoch

/-- The next state, if `fine` allows that. -/
def Run.next (fine : Run UInt8 → Event → Bool) (r : Run UInt8) (a : Event) :
    Option (Run UInt8) :=
  if fine r a then
    match a with
    | .hook a => (go (game.platform r.epoch) (fresh r.epoch) r.state r.disk a).map fun x =>
        ⟨x.1, x.2, r.epoch⟩
    | .setprop name value => if name = harvestProp then none else some (r.set name value)
    | .exit => some { r with state := State.zero }
  else none

private theorem next_moves {P : Run UInt8 → Event → Prop} {fine : Run UInt8 → Event → Bool}
    (meets : ∀ r a, Alone r.state → fine r a = true → P r a) (r : Run UInt8) (a : Event)
    (r' : Run UInt8) (alone : Alone r.state) (goes : r.next fine a = some r') :
    (∃ a, ((machine game gamePath).guarded P).step r a r') ∧ Alone r'.state := by
  simp only [Run.next] at goes
  split_ifs at goes with allowed
  have guard := meets r a alone allowed
  cases a with
  | hook a =>
      obtain ⟨⟨s, d⟩, went, rfl⟩ := Option.map_eq_some_iff.mp goes
      have recent : ∀ e ∈ fresh r.epoch, (game.platform r.epoch).recent e := by
        intro e member
        show e.toNat = r.epoch
        simpa using (List.mem_filter.mp member).2
      obtain ⟨hooks, alone'⟩ := go_hooks recent alone went
      exact ⟨⟨.hook a, ⟨hooks, rfl⟩, guard⟩, alone'⟩
  | setprop name value =>
      simp only at goes
      split_ifs at goes with same
      obtain rfl := Option.some.inj goes
      exact ⟨⟨.setprop name value, ⟨same, rfl⟩, guard⟩, alone⟩
  | exit =>
      obtain rfl := Option.some.inj goes
      exact ⟨⟨.exit, rfl, guard⟩, alone_zero⟩

/-- A package that has not run since the generation took its value. -/
def Run.installed (gen : String) (epoch : Nat) : Run UInt8 where
  state := State.zero
  disk :=
    { files := fun path => if path = genPath gamePath then some gen.toUTF8.toList else none
      fds := fun _ => ""
      props := fun name => if name = cacheGenProp then gen else ""
      contents := fun _ => []
      made := [] }
  epoch := epoch

private theorem init_installed (gen : String) (epoch : Nat) :
    (machine game gamePath).init (Run.installed gen epoch) := by
  have apart : gamePath ≠ genPath gamePath := by decide +kernel
  have other : harvestProp ≠ cacheGenProp := by decide
  refine ⟨rfl, ?_, fun _ data es there => ?_⟩
  · simp [Run.installed, other]
  · simp [Run.installed, apart] at there

/-- What the theorems speak of. -/
private def Run.view (r : Run UInt8) : Option Bytes × Option Bytes × String × Nat :=
  (r.disk.files gamePath, r.disk.files (genPath gamePath), r.disk.props cacheGenProp, r.epoch)

private theorem reachable_run {P : Run UInt8 → Event → Prop} {fine : Run UInt8 → Event → Bool}
    (meets : ∀ r a, Alone r.state → fine r a = true → P r a) {gen : String} {epoch : Nat}
    {events : List Event} {file stamp : Option Bytes} {gen' : String} {epoch' : Nat}
    (ran : (events.foldlM (Run.next fine) (Run.installed gen epoch)).map Run.view =
      some (file, stamp, gen', epoch')) :
    ∃ r : Run UInt8, ((machine game gamePath).guarded P).Reachable r ∧
      r.disk.files gamePath = file ∧ r.disk.files (genPath gamePath) = stamp ∧
      r.disk.props cacheGenProp = gen' ∧ r.epoch = epoch' := by
  obtain ⟨r, played, view⟩ := Option.map_eq_some_iff.mp ran
  simp only [Run.view, Prod.mk.injEq] at view
  have start : ((machine game gamePath).guarded P).Reachable (Run.installed gen epoch) :=
    .start (init_installed gen epoch)
  exact ⟨r, (start.moved (next_moves meets) alone_zero events played).1, view⟩

/-- The caches are cleared while a device that has compiled is alive, and a second device needs
its cache before the first one goes. -/
def clearedBetween : List Event :=
  (newDevice ++ compile 1).map .hook ++ [.setprop cacheGenProp "2"] ++
    (newDevice ++ compile 2 ++ endDevice 1).map .hook

/-- The entry of the first device is back, under the stamp that says it was cleared. -/
theorem clearing_undone : ∃ r, (machine game gamePath).Reachable r ∧ ¬ r.Final game gamePath := by
  have ran : (clearedBetween.foldlM (Run.next fun _ _ => true) (Run.installed "1" 0)).map
      Run.view = some (some [0], some "2".toUTF8.toList, "2", 1) := by decide +kernel
  obtain ⟨r, reach, file, stamp, gen, epoch⟩ :=
    reachable_run (P := fun _ _ => True) (fun _ _ _ _ => trivial) ran
  refine ⟨r, reach.of_guarded, fun final => ?_⟩
  have current : Current r.disk gamePath := ⟨by rw [gen]; decide, by rw [stamp, gen]⟩
  have old := final current [0] [0] file rfl 0 (List.mem_singleton.mpr rfl)
  rw [epoch] at old
  exact absurd old (by decide)

/-- A cache of the shim's with an entry from before the generation took its value. -/
private def old (r : Run UInt8) (pc : VkPipelineCache) : Bool :=
  match kind r.state.world pc with
  | some (_, .shim) => (r.disk.contents pc).any fun e => e.toNat < r.epoch
  | _ => false

/-- The stamp needs no rewriting, or no cache is old; a new generation is not the one of the
stamp. -/
private def careful (r : Run UInt8) : Event → Bool
  | .hook (.advance t) =>
      match r.state.threads t with
      | .arrived _ | .created .. =>
          r.disk.stamp gamePath == (r.disk.props cacheGenProp).toUTF8.toList ||
            (List.range 64).all fun pc => !old r pc
      | _ => true
  | .setprop name value => name != cacheGenProp ||
      r.disk.files (genPath gamePath) != some value.toUTF8.toList
  | _ => true

private theorem careful_meets (r : Run UInt8) (a : Event) (alone : Alone r.state)
    (fine : careful r a = true) : Careful game gamePath r a := by
  cases a with
  | hook a =>
      cases a with
      | advance t =>
          intro dev who _ stale pc shims e member
          obtain ⟨dev', shims⟩ := shims
          have small : pc < 64 := by
            by_contra large
            simp [kind, (alone.few pc (not_lt.mp large)).2] at shims
          have checked : r.disk.stamp gamePath = (r.disk.props cacheGenProp).toUTF8.toList ∨
              ∀ pc < 64, old r pc = false := by
            rcases who with ⟨b, phase, -⟩ | ⟨out, phase⟩
            · simpa [careful, phase] using fine
            · simpa [careful, phase] using fine
          rcases checked with current | new
          · exact absurd current stale.2
          · have none_old : (r.disk.contents pc).any (fun e => e.toNat < r.epoch) = false := by
              simpa [old, shims] using new pc small
            have recent : r.epoch ≤ e.toNat := by
              simpa using List.any_eq_false.mp none_old e member
            exact recent
      | _ => trivial
  | setprop name value =>
      intro same _ _
      simpa [careful, same] using fine
  | exit => trivial

/-- A device compiles and goes, the caches are cleared, and the next device drops the file and
saves its own. -/
def clearedAfter : List Event :=
  (newDevice ++ compile 1 ++ endDevice 1).map .hook ++ [.setprop cacheGenProp "2"] ++
    (newDevice ++ compile 1 ++ endDevice 1).map .hook

theorem clearing_final_clearedAfter :
    (∃ r : Run UInt8, ((machine game gamePath).guarded (Careful game gamePath)).Reachable r ∧
      r.disk.files gamePath = some [5] ∧ ¬ Current r.disk gamePath ∧ r.epoch = 6) ∧
    ∃ r : Run UInt8, ((machine game gamePath).guarded (Careful game gamePath)).Reachable r ∧
      r.disk.files gamePath = some [6] ∧ Current r.disk gamePath ∧ r.epoch = 6 ∧
      r.Final game gamePath := by
  have cleared : ((clearedAfter.take 14).foldlM (Run.next careful) (Run.installed "1" 5)).map
      Run.view = some (some [5], some "1".toUTF8.toList, "2", 6) := by decide +kernel
  have ran : (clearedAfter.foldlM (Run.next careful) (Run.installed "1" 5)).map Run.view =
      some (some [6], some "2".toUTF8.toList, "2", 6) := by decide +kernel
  constructor
  · obtain ⟨r, reach, file, stamp, gen, epoch⟩ := reachable_run careful_meets cleared
    refine ⟨r, reach, file, fun current => ?_, epoch⟩
    have same := current.2
    rw [stamp, gen] at same
    exact absurd same (by decide +kernel)
  · obtain ⟨r, reach, file, stamp, gen, epoch⟩ := reachable_run careful_meets ran
    exact ⟨r, reach, file, ⟨by rw [gen]; decide, by rw [stamp, gen]⟩, epoch,
      clearing_final game_path reach⟩

end Runs

end XdPlus.Vulkan.CacheClearing
