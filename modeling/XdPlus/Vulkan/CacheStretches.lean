/- Module: XdPlus/Vulkan/CacheStretches
   source: vulkan/vkshim.c, ensure_disk_cache, save_disk_cache, drain_pending, compile_batch,
     shim_CreatePipelineCache, drop_disk_cache
   digest: What each stretch of a hook leaves of the entries a process has in hand. -/

import XdPlus.Vulkan.CacheRuns

set_option autoImplicit false
set_option relaxedAutoImplicit false

namespace XdPlus.Vulkan.CacheRuns

open XdPlus.Base Common Driver PipelineCache PipelineBatches PipelineLedger PipelineOwnership
  PipelineBatchSafety CacheFiles CacheSections CacheHoldings

variable {E : Type} [DecidableEq E] {g : App E} {path : String} {r : Run E} {s : State}
  {d : Disk E} {t : Nat} {phase : Phase} {k : CacheState} {handed : Handed} {w : World}

/-- What a new cache leaves alone. -/
def Spared (w : World) (d d' : Disk E) : Prop :=
  d'.files = d.files ∧ d'.props = d.props ∧
    ∀ h, w.caches h ≠ none → d'.contents h = d.contents h

omit [DecidableEq E] in
private theorem spared_fill {w : World} {d : Disk E} {pc : VkPipelineCache}
    (fresh : w.caches pc = none) (es : List E) : Spared w d (d.fill pc es) := by
  refine ⟨rfl, rfl, fun h there => Disk.fill_of_ne d es ?_⟩
  rintro rfl
  exact there fresh

private theorem both_createAppCache {pf : Platform E} {gate : Gate} {dev : VkDevice}
    {initial : Bytes} {w : World} {d : Disk E} :
    Both pf (createAppCache gate dev initial) (w, d) (fun _ x => Spared w d x.2) := by
  simp only [Both, createAppCache, Prog.ensures_bind, Prog.ensures_call]
  refine ⟨trivial, fun made x answered => ?_⟩
  cases made with
  | none =>
      have same : x.2 = d := answered.2.2
      show Spared w d x.2
      rw [same]
      exact ⟨rfl, rfl, fun _ _ => rfl⟩
  | some out =>
      obtain ⟨⟨-, fresh, -⟩, es, -, disk⟩ := answered
      have spared : Spared w d x.2 := by
        rw [disk]
        exact spared_fill fresh es
      cases gate with
      | some on => exact spared
      | none =>
          refine ⟨trivial, fun v x' read => ?_⟩
          have same : x'.2 = x.2 := read.2.2
          show Spared w d x'.2
          rwa [same]

theorem Kept.creating {dev : VkDevice} {initial : Bytes} (kept : Kept g path r)
    (run : Stretch g r t k phase handed w d) (now : r.state.threads t = .creating dev initial) :
    Carried g path r (.advance t) (r.state.moved t k phase handed w) d := by
  have spared : Spared r.state.world r.disk d := by
    have both : Both g.platform (advance g.process r.state.cache (.creating dev initial))
        (r.state.world, r.disk) (fun _ x => Spared r.state.world r.disk x.2) := by
      simp only [Both, advance, Prog.ensures_bind]
      refine both_createAppCache.mono fun made x spared => ?_
      obtain ⟨out, prime, gate⟩ := made
      cases out with
      | none => exact spared
      | some out => cases prime <;> exact spared
    rw [Stretch, now] at run
    exact both.of_runs run
  have still := (always_still (by rw [now]; trivial)).of_runs run
  exact kept.onward run ⟨still.1, still.2.2⟩ (by rw [now]; trivial) spared.1 spared.2.1
    fun h held => spared.2.2 h (there_of_inHand kept.inv held)

theorem Kept.merging {dev : VkDevice} {dst : VkPipelineCache} {srcs : List VkPipelineCache}
    (kept : Kept g path r) (run : Stretch g r t k phase handed w d)
    (now : r.state.threads t = .merging dev dst srcs) :
    Carried g path r (.advance t) (r.state.moved t k phase handed w) d := by
  have used : (r.state.threads t).uses = some dev := by rw [now]; rfl
  have merged : ∃ es, d = r.disk.fill dst es := by
    rw [Stretch, now] at run
    obtain ⟨r₁, x₁, ⟨-, es, -, -, disk⟩, -, rfl⟩ := run
    exact ⟨es, disk⟩
  obtain ⟨es, rfl⟩ := merged
  have still := (always_still (by rw [now]; trivial)).of_runs run
  refine kept.onward run ⟨still.1, still.2.2⟩ (by rw [now]; trivial) rfl rfl fun h held => ?_
  apply Disk.fill_of_ne
  rintro rfl
  have shims := inHand_shims kept.inv held
  by_cases null : h = 0
  · obtain ⟨dev', live⟩ := shims
    rw [null] at live
    exact kept.inv.sound.null live
  · refine CacheClearing.app_not_shims kept.inv (kept.inv.usage.lent used ?_ null) shims
    rw [now]
    exact List.mem_cons_self ..

private theorem both_batchScratch {pf : Platform E} {fns : CacheFns} {b : Batch} {w : World}
    {d : Disk E} (steady : pf.steady) :
    Both pf (batchScratch fns b) (w, d) (fun b' x => Spared w d x.2 ∧ b'.dev = b.dev ∧
      b'.appCache = b.appCache ∧ (b.appCache = 0 → fns.cpc = true →
        b'.ownMaster = true ∨ b'.scratch ≠ 0)) := by
  unfold batchScratch
  split_ifs with wanted
  · simp only [Both, Prog.ensures_bind, Prog.ensures_call]
    refine ⟨trivial, fun made x answered => ?_⟩
    cases made with
    | none => exact absurd rfl (answered.2.1 steady)
    | some scratch =>
        obtain ⟨⟨nonzero, fresh, -⟩, es, -, disk⟩ := answered
        refine ⟨?_, rfl, rfl, fun _ _ => .inr nonzero⟩
        show Spared w d x.2
        rw [disk]
        exact spared_fill fresh es
  · refine ⟨⟨rfl, rfl, fun _ _ => rfl⟩, rfl, rfl, fun null able => .inl ?_⟩
    by_contra not_own
    exact wanted ⟨by simpa using not_own, null, able⟩

theorem Kept.begun {b : Batch} (kept : Kept g path r) (run : Stretch g r t k phase handed w d)
    (now : r.state.threads t = .begun b) :
    Carried g path r (.advance t) (r.state.moved t k phase handed w) d := by
  have still := (always_still (by rw [now]; trivial)).of_runs run
  have inv := kept.inv_moved run
  have provided := kept.provided t
  rw [now] at provided
  have facts : ∃ b', phase = .ready b' ∧ Spared r.state.world r.disk d ∧ b'.dev = b.dev ∧
      b'.appCache = b.appCache ∧ (b.appCache = 0 → r.state.cache.fns.cpc = true →
        b'.ownMaster = true ∨ b'.scratch ≠ 0) := by
    rw [Stretch, now] at run
    obtain ⟨b', x, ran, same, rfl⟩ := Prog.runs_bind.mp run
    obtain ⟨-, is_phase⟩ := Prod.mk.inj same
    exact ⟨b', (Prod.mk.inj is_phase).1, (both_batchScratch trivial).of_runs ran⟩
  obtain ⟨b', rfl, spared, dev, app, has⟩ := facts
  apply kept.stretch inv (still.1 ▸ .refl _) still.2.2 spared.1 spared.2.1
  · intro h held
    rw [spared.2.2 h (there_of_inHand kept.inv held)]
    exact .refl _
  · intro h carried
    rw [now] at carried
    cases carried
  · intro null
    have slot := provided (app ▸ null)
    rw [dev]
    obtain ⟨c, found⟩ := Option.ne_none_iff_exists'.mp slot
    exact ⟨slot, has (app ▸ null) (kept.settled found).1.1⟩
  · rw [now]
    exact fun none_made => absurd rfl none_made
  · rw [now]
    intro e member
    cases member

private theorem Kept.inHand_cacheSlot {b : Batch} (kept : Kept g path r)
    (now : r.state.threads t = .ready b) (null : b.appCache = 0) :
    InHand r.state b.cacheSlot := by
  have provided := kept.provided t
  have shape := kept.inv.batches.shaped t
  rw [now] at provided shape
  rcases (provided null).2 with is_own | some_scratch
  · have masters : Masters (r.state.threads t) b := by rw [now]; exact ⟨rfl, is_own⟩
    obtain ⟨nonzero, c, found, -, is_pc⟩ := kept.inv.batches.master masters
    rw [← is_pc] at nonzero ⊢
    exact inHand_master found nonzero
  · have not_own : b.ownMaster = false := by
      by_contra is_own
      exact some_scratch (shape.1 (by simpa using is_own)).2
    right
    refine ⟨t, ?_⟩
    rw [now, shape.2.2 not_own null]
    exact if_neg some_scratch

theorem Kept.ready {b : Batch} (kept : Kept g path r) (run : Stretch g r t k phase handed w d)
    (now : r.state.threads t = .ready b) :
    Carried g path r (.advance t) (r.state.moved t k phase handed w) d := by
  have still := (always_still (by rw [now]; trivial)).of_runs run
  have inv := kept.inv_moved run
  have provided := kept.provided t
  rw [now] at provided
  have facts : ∃ t0 made, phase = .compiling { b with t0 := t0 } ∧ handed = .nothing ∧ d =
      { r.disk.fill b.cacheSlot (made ∪ r.disk.contents b.cacheSlot) with made := made } := by
    rw [Stretch, now] at run
    obtain ⟨t0, x, ⟨-, same⟩, r', x', ⟨-, made, es, -, full, disk⟩, ended, rfl⟩ := run
    have before : x.2 = r.disk := same
    obtain ⟨-, ended⟩ := Prod.mk.inj ended
    obtain ⟨is_phase, is_handed⟩ := Prod.mk.inj ended
    rw [full trivial, before] at disk
    exact ⟨t0, made, is_phase, is_handed, disk⟩
  obtain ⟨t0, made, rfl, rfl, rfl⟩ := facts
  refine kept.stretch inv (still.1 ▸ .refl _) still.2.2 rfl rfl ?_ ?_ provided ?_ ?_
  · intro h held
    by_cases same : h = b.cacheSlot
    · rw [same]
      exact ⟨made, Disk.fill_self ..⟩
    · exact ⟨[], Disk.fill_of_ne _ _ same⟩
  · intro h carried
    rw [now] at carried
    exact carried
  · rw [now]
    intro some_made
    by_cases null : b.appCache = 0
    · obtain ⟨c, found⟩ := Option.ne_none_iff_exists'.mp (provided null).1
      exact (kept.settled found).2
    · exact absurd (if_neg null) some_made
  · rw [now]
    intro e member
    by_cases null : b.appCache = 0
    · have new : e ∈ made := by simpa [madeBy, null] using member
      refine ⟨b.cacheSlot, kept.inHand_cacheSlot now null, ?_⟩
      show e ∈ (r.disk.fill b.cacheSlot _).contents b.cacheSlot
      rw [Disk.fill_self]
      exact List.mem_union_left new _
    · simp [madeBy, null] at member

theorem Kept.opened {dev : VkDevice} {pc : VkPipelineCache} {k₁ : CacheState} {d₁ : Disk E}
    (kept : Kept g path r) (exports : g.process.exported = ⟨true, true, true, true⟩)
    (inv : Inv (r.state.moved t k phase handed w))
    (opened : Opened g.platform g.process path r.state.cache dev r.state.world pc k₁ r.disk d₁)
    (only : OnlySlot dev k₁.devCaches k.devCaches) (alike : Alike k₁.devCaches k.devCaches)
    (fns : k.fns = k₁.fns) (files : d.files = d₁.files) (props : d.props = d₁.props)
    (contents : ∀ h, InHand r.state h ∨ h = pc → d.contents h = d₁.contents h)
    (bare : carries (r.state.threads t) = none) (provided : Provided k.devCaches phase)
    (nothing : madeBy d (r.state.threads t) = []) :
    Carried g path r (.advance t) (r.state.moved t k phase handed w) d := by
  refine kept.touched inv (opened.only.trans only) ⟨?_, ?_⟩ (props.trans opened.props) ?_ ?_ ?_ ?_
    provided ?_ nothing
  · rw [fns, opened.fns]
    simp [Able, resolveCacheFns, exports]
  · rw [stale_congr props (by rw [files])]
    exact opened.settled
  · intro h held
    have ne : h ≠ pc := by
      rintro rfl
      exact there_of_inHand kept.inv held opened.fresh
    rw [contents h (.inl held), opened.others h ne]
    exact .refl _
  · intro c found
    obtain ⟨c₁, between, is_pc, here, -⟩ := opened.slot
    obtain ⟨c₂, also, pc₂, path₂, -⟩ := alike.slot found
    obtain rfl : c₁ = c₂ := Option.some.inj (between.symm.trans also)
    have pc_eq : c.pc = pc := pc₂.symm.trans is_pc
    refine ⟨pc_eq ▸ opened.some_pc, path₂.symm.trans here, .inr ⟨?_, fun e member => ?_⟩⟩
    · rw [opened.missing]
      rintro ⟨⟩
    · rw [pc_eq, contents pc (.inr rfl)] at member
      obtain ⟨data, es, there, decoded, among⟩ := opened.loaded e member
      exact ⟨data, es, by rw [files, there], decoded, among⟩
  · intro _ _ has
    exact absurd opened.missing has
  · intro e ours there
    have fresh_file : ¬ r.disk.Stale path := by
      rcases ours with compiled | ⟨other, noted⟩
      · exact kept.current (List.ne_nil_of_mem compiled)
      · obtain ⟨c, found⟩ := Option.ne_none_iff_exists'.mp (kept.noted other e noted).1
        exact (kept.settled found).2
    obtain ⟨data, es, is_file, decoded, member⟩ := there
    exact ⟨data, es, by rw [files, opened.kept fresh_file, is_file], decoded, member⟩
  · intro h who
    rcases who with among | carried
    · rw [slotHandles_none opened.missing] at among
      cases among
    · rw [bare] at carried
      cases carried

/-- What `ensure_disk_cache` does for a device: nothing, or it opens the slot. -/
def Ensures (g : App E) (path : String) (r : Run E) (dev : VkDevice) (k : CacheState)
    (d : Disk E) : Prop :=
  (k = r.state.cache ∧ d = r.disk ∧ (slotOf r.state.cache.devCaches dev = none →
      cacheClaim r.state.cache.devCaches dev = none)) ∨
    ∃ pc, Opened g.platform g.process path r.state.cache dev r.state.world pc k r.disk d

theorem Kept.ensures {dev : VkDevice} (kept : Kept g path r)
    (self : selfPath g.process g.uid = some path)
    (exports : g.process.exported = ⟨true, true, true, true⟩)
    (used : (r.state.threads t).uses = some dev) :
    Both g.platform (ensureDiskCache g.process r.state.cache dev) (r.state.world, r.disk)
      (fun made x => Ensures g path r dev made.2 x.2) := by
  obtain ⟨n, device⟩ := kept.inv.usage.live (kept.inv.usage.uses used)
  refine (both_ensureDiskCache trivial self exports kept.worded kept.inv.keyed
    (kept.inv.sound.device device) fun c found => (kept.slot found).1).mono fun made x result => ?_
  rcases result with nothing | opened
  · exact .inl nothing
  · exact .inr ⟨made.1, opened⟩

theorem Ensures.keyed {dev : VkDevice} {k : CacheState} {d : Disk E} (kept : Kept g path r)
    (result : Ensures g path r dev k d) : Keyed k.devCaches := by
  rcases result with ⟨same, -⟩ | ⟨pc, opened⟩
  · rw [same]
    exact kept.inv.keyed
  · exact opened.only.keyed

private theorem both_batchBegin {b : Batch} (kept : Kept g path r)
    (self : selfPath g.process g.uid = some path)
    (exports : g.process.exported = ⟨true, true, true, true⟩)
    (used : (r.state.threads t).uses = some b.dev) :
    Both g.platform (batchBegin g.process r.state.cache b) (r.state.world, r.disk)
      (fun made x => ∃ k, Ensures g path r b.dev k x.2 ∧
        OnlySlot b.dev k.devCaches made.1.devCaches ∧ Alike k.devCaches made.1.devCaches ∧
        made.1.fns = k.fns ∧ made.2.dev = b.dev ∧ made.2.appCache = b.appCache) := by
  simp only [Both, batchBegin, Prog.ensures_bind]
  refine (kept.ensures self exports used).mono fun made x result => ?_
  have keyed := result.keyed kept
  split_ifs with app
  · exact ⟨made.2, result, .refl keyed, .refl _, rfl, rfl, rfl⟩
  · cases lookup : cacheLookup made.2.devCaches b.dev with
    | none => exact ⟨made.2, result, .refl keyed, .refl _, rfl, rfl, rfl⟩
    | some i =>
        have here : { made.2.devCaches i with masterInUse := true }.dev = b.dev :=
          (cacheLookup_dev lookup).1
        simp only
        split_ifs
        · exact ⟨made.2, result, (onlySlot_set keyed lookup here).1,
            alike_set keyed lookup here rfl, rfl, rfl, rfl⟩
        · exact ⟨made.2, result, .refl keyed, .refl _, rfl, rfl, rfl⟩

theorem Kept.arrived {b : Batch} (kept : Kept g path r)
    (self : selfPath g.process g.uid = some path)
    (exports : g.process.exported = ⟨true, true, true, true⟩)
    (run : Stretch g r t k phase handed w d) (now : r.state.threads t = .arrived b)
    (room : b.appCache = 0 → cacheClaim r.state.cache.devCaches b.dev ≠ none) :
    Carried g path r (.advance t) (r.state.moved t k phase handed w) d := by
  have used : (r.state.threads t).uses = some b.dev := by rw [now]; rfl
  have inv := kept.inv_moved run
  have facts : ∃ b' k₁, phase = .begun b' ∧ Ensures g path r b.dev k₁ d ∧
      OnlySlot b.dev k₁.devCaches k.devCaches ∧ Alike k₁.devCaches k.devCaches ∧
      k.fns = k₁.fns ∧ b'.dev = b.dev ∧ b'.appCache = b.appCache := by
    rw [Stretch, now] at run
    obtain ⟨⟨k', b'⟩, x, ran, same, rfl⟩ := Prog.runs_bind.mp run
    obtain ⟨rfl, ended⟩ := Prod.mk.inj same
    obtain ⟨k₁, result⟩ := (both_batchBegin kept self exports used).of_runs ran
    exact ⟨b', k₁, (Prod.mk.inj ended).1, result⟩
  obtain ⟨b', k₁, rfl, result, only, alike, fns, dev, app⟩ := facts
  have bare : carries (r.state.threads t) = none := by rw [now]; rfl
  have nothing_made : madeBy d (r.state.threads t) = [] := by rw [now]; rfl
  rcases result with ⟨rfl, rfl, claimed⟩ | ⟨pc, opened⟩
  · refine kept.stretch inv alike fns rfl rfl (fun h _ => .refl _) ?_ ?_ ?_ ?_
    · intro h carried
      rw [bare] at carried
      cases carried
    · intro null missing
      rw [dev] at missing
      exact room (app ▸ null) (claimed missing)
    · exact fun some_made => absurd nothing_made some_made
    · intro e member
      rw [nothing_made] at member
      cases member
  · refine kept.opened exports inv opened only alike fns rfl rfl (fun _ _ => rfl) bare ?_
      nothing_made
    intro _
    obtain ⟨c, found, -⟩ := opened.slot
    rw [dev, Ne, alike.none, found]
    rintro ⟨⟩

private theorem both_primeAppCache {dev : VkDevice} {out : VkPipelineCache} (kept : Kept g path r)
    (self : selfPath g.process g.uid = some path)
    (exports : g.process.exported = ⟨true, true, true, true⟩)
    (used : (r.state.threads t).uses = some dev) :
    Both g.platform (primeAppCache g.process r.state.cache dev out) (r.state.world, r.disk)
      (fun k x => ∃ d₁, Ensures g path r dev k d₁ ∧ x.2.files = d₁.files ∧ x.2.props = d₁.props ∧
        ∀ h, h ≠ out → x.2.contents h = d₁.contents h) := by
  simp only [Both, primeAppCache, Prog.ensures_bind]
  refine (kept.ensures self exports used).mono fun made x result => ?_
  have done : Both g.platform (pure made.2) x (fun k x' => ∃ d₁, Ensures g path r dev k d₁ ∧
      x'.2.files = d₁.files ∧ x'.2.props = d₁.props ∧
        ∀ h, h ≠ out → x'.2.contents h = d₁.contents h) :=
    ⟨x.2, result, rfl, rfl, fun _ _ => rfl⟩
  cases cacheLookup made.2.devCaches dev with
  | none => exact done
  | some i =>
      simp only
      split_ifs
      · refine ⟨trivial, fun _ x₁ asked => ⟨trivial, fun _ x₂ merged => ⟨trivial, ?_⟩⟩⟩
        intro _ x₃ asked'
        have first : x₁.2 = x.2 := asked.2
        obtain ⟨-, es, -, -, disk⟩ := merged
        have last : x₃.2 = x₂.2 := asked'.2
        rw [first] at disk
        refine ⟨x.2, result, ?_, ?_, fun h ne => ?_⟩
        · rw [last, disk]
          rfl
        · rw [last, disk]
          rfl
        · rw [last, disk]
          exact Disk.fill_of_ne _ _ ne
      · exact done

theorem Kept.created {dev : VkDevice} {out : VkPipelineCache} (kept : Kept g path r)
    (self : selfPath g.process g.uid = some path)
    (exports : g.process.exported = ⟨true, true, true, true⟩)
    (run : Stretch g r t k phase handed w d) (now : r.state.threads t = .created dev out) :
    Carried g path r (.advance t) (r.state.moved t k phase handed w) d := by
  have used : (r.state.threads t).uses = some dev := by rw [now]; rfl
  have inv := kept.inv_moved run
  have facts : phase = .idle ∧ ∃ d₁, Ensures g path r dev k d₁ ∧ d.files = d₁.files ∧
      d.props = d₁.props ∧ ∀ h, h ≠ out → d.contents h = d₁.contents h := by
    rw [Stretch, now] at run
    obtain ⟨k', x, ran, same, rfl⟩ := Prog.runs_bind.mp run
    obtain ⟨rfl, ended⟩ := Prod.mk.inj same
    exact ⟨(Prod.mk.inj ended).1, (both_primeAppCache kept self exports used).of_runs ran⟩
  obtain ⟨rfl, d₁, result, files, props, contents⟩ := facts
  have theirs : kind r.state.world out = some (dev, .app) := by
    have mine : Holds r.state (.thread t) out (dev, .app) := by simp [Holds, now, own]
    exact kept.inv.owned.right mine
  have apart : ∀ h, InHand r.state h → h ≠ out := by
    intro h held
    rintro rfl
    obtain ⟨dev', live⟩ := inHand_shims kept.inv held
    rw [theirs] at live
    cases live
  have bare : carries (r.state.threads t) = none := by rw [now]; rfl
  have nothing_made : madeBy d (r.state.threads t) = [] := by rw [now]; rfl
  rcases result with ⟨rfl, rfl, -⟩ | ⟨pc, opened⟩
  · refine kept.onward run ⟨rfl, rfl⟩ (by rw [now]; trivial) files props fun h held => ?_
    exact contents h (apart h held)
  · refine kept.opened exports inv opened (.refl opened.only.keyed) (.refl _) rfl files props ?_
      bare trivial nothing_made
    intro h who
    apply contents h
    rcases who with held | rfl
    · exact apart h held
    · rintro rfl
      rw [kind, opened.fresh] at theirs
      cases theirs

section Endings

variable {dev : VkDevice} {c₀ c c' : DevCache} {srcs : List VkPipelineCache}

private theorem Kept.rewritten (kept : Kept g path r)
    (inv : Inv (r.state.moved t k phase handed w))
    (found : slotOf r.state.cache.devCaches dev = some c₀) (same : core c = core c₀)
    (rewritten : Rewritten g.platform g.process path false c c' (grown r.disk c₀ srcs) r.disk d)
    (only : OnlySlot dev r.state.cache.devCaches k.devCaches)
    (found' : slotOf k.devCaches dev = some c') (fns : k.fns = r.state.cache.fns)
    (spares : Spares g path r c₀ srcs)
    (merged : ∀ h, carries (r.state.threads t) = some h → h ∈ srcs)
    (provided : Provided k.devCaches phase) (nothing : madeBy d (r.state.threads t) = []) :
    Carried g path r (.advance t) (r.state.moved t k phase handed w) d := by
  simp only [core, Prod.mk.injEq] at same
  obtain ⟨pc_eq, path_eq, size_eq, -⟩ := same
  obtain ⟨some_pc, here, -⟩ := kept.slot found
  have slot' : c'.pc = c₀.pc ∧ c'.path = c₀.path := by
    obtain ⟨size, ns, frozen, rfl⟩ := rewritten.slot
    exact ⟨pc_eq, path_eq⟩
  have some_pc' : c'.pc ≠ 0 := slot'.1 ▸ some_pc
  have adds : ∀ h, Adds (r.disk.contents h) (d.contents h) := by
    refine rewritten.adds ?_
    rw [pc_eq]
    exact grown_adds r.disk c₀ srcs
  have master : d.contents c'.pc = grown r.disk c₀ srcs := by
    rw [slot'.1, ← pc_eq]
    exact rewritten.master
  refine kept.touched inv only ⟨?_, ?_⟩ rewritten.props (fun h _ => adds h) ?_ ?_ ?_ provided ?_
    nothing
  · rw [fns]
    exact (kept.settled found).1
  · rw [stale_congr rewritten.props rewritten.stamp]
    exact (kept.settled found).2
  · intro c₁ is_slot
    obtain rfl : c' = c₁ := Option.some.inj (found'.symm.trans is_slot)
    refine ⟨some_pc', slot'.2.trans here, ?_⟩
    by_cases size : c'.lastSavedSize = c.lastSavedSize
    · exact .inl ⟨c₀, found, slot'.1.symm, (size.trans size_eq).symm, adds c'.pc⟩
    · refine .inr ⟨fun also => ?_, fun e member => ?_⟩
      · rw [found, Option.map_some] at also
        have sizes := (Prod.mk.inj (Option.some.inj also)).2
        exact size (sizes.symm.trans size_eq.symm)
      · rw [master] at member
        exact rewritten.fresh size member
  · intro _ _ _ missing
    cases found'.symm.trans missing
  · intro e ours there
    refine rewritten.inFile there fun changed => ?_
    rw [size_eq] at changed
    exact spares changed e ours there
  · intro h who e member
    have in_master : e ∈ grown r.disk c₀ srcs := by
      rcases who with among | carried
      · rw [slotHandles_some found, mem_handles] at among
        rcases among with ⟨rfl, -⟩ | queued
        · exact (grown_adds r.disk c₀ srcs).mem member
        · exact grown_pending queued member
      · exact grown_source (merged h carried) member
    refine .inr ⟨c'.pc, inHand_master (by rwa [moved_cache]) some_pc', ?_⟩
    rwa [master]

private theorem Kept.queued {scratch : VkPipelineCache} (kept : Kept g path r)
    (inv : Inv (r.state.moved t k phase handed w))
    (found : slotOf r.state.cache.devCaches dev = some c)
    (only : OnlySlot dev r.state.cache.devCaches k.devCaches)
    (found' : slotOf k.devCaches dev = some { c with pending := c.pending ++ [scratch] })
    (fns : k.fns = r.state.cache.fns)
    (carried : ∀ h, carries (r.state.threads t) = some h → h = scratch)
    (provided : Provided k.devCaches phase)
    (nothing : madeBy r.disk (r.state.threads t) = []) :
    Carried g path r (.advance t) (r.state.moved t k phase handed w) r.disk := by
  obtain ⟨some_pc, here, -⟩ := kept.slot found
  refine kept.touched inv only ?_ rfl (fun _ _ => .refl _) ?_ ?_ (fun _ _ there => there) provided
    ?_ nothing
  · rw [fns]
    exact kept.settled found
  · intro c₁ is_slot
    obtain rfl := Option.some.inj (found'.symm.trans is_slot)
    exact ⟨some_pc, here, .inl ⟨c, found, rfl, rfl, .refl _⟩⟩
  · intro _ _ _ missing
    cases found'.symm.trans missing
  · intro h who e member
    refine .inr ⟨h, .inl ⟨dev, ?_⟩, member⟩
    rw [moved_cache, slotHandles_some found', mem_handles]
    rcases who with among | is_carried
    · rw [slotHandles_some found, mem_handles] at among
      exact among.imp_right (List.mem_append_left _)
    · right
      rw [carried h is_carried]
      exact List.mem_append_right _ (List.mem_singleton.mpr rfl)

private theorem Kept.written {i : Fin devCacheMax} (kept : Kept g path r)
    (self : selfPath g.process g.uid = some path)
    (inv : Inv (r.state.moved t k phase handed w))
    (lookup : cacheLookup r.state.cache.devCaches dev = some i)
    (worked : Worked g.platform g.process r.state.cache.fns c srcs c' r.disk d)
    (same_dev : c.dev = (r.state.cache.devCaches i).dev)
    (same : core c = core (r.state.cache.devCaches i))
    (table : k.devCaches = Function.update r.state.cache.devCaches i c')
    (fns : k.fns = r.state.cache.fns) (spares : Spares g path r (r.state.cache.devCaches i) srcs)
    (merged : ∀ h, carries (r.state.threads t) = some h → h ∈ srcs)
    (provided : Provided k.devCaches phase) (nothing : madeBy d (r.state.threads t) = []) :
    Carried g path r (.advance t) (r.state.moved t k phase handed w) d := by
  have found := slotOf_some lookup
  obtain ⟨some_pc, here, -⟩ := kept.slot found
  obtain ⟨⟨-, gpcd, mpc⟩, -⟩ := kept.settled found
  have apart : (r.state.cache.devCaches i).pc ∉ (r.state.cache.devCaches i).pending := by
    have nodup := kept.inv.nodup dev
    rw [slotHandles_some found] at nodup
    simp only [handles, some_pc, if_false, List.cons_append, List.nil_append,
      List.nodup_cons] at nodup
    exact nodup.1
  have parts := same
  simp only [core, Prod.mk.injEq] at parts
  obtain ⟨pc_eq, path_eq, -, pending_eq⟩ := parts
  have rewritten := rewritten_worked trivial self (path_eq.trans here) (pc_eq ▸ some_pc)
    (by rwa [pc_eq, pending_eq]) ⟨gpcd, mpc⟩ worked
  have grown_eq : grown r.disk c srcs = grown r.disk (r.state.cache.devCaches i) srcs := by
    simp only [grown, pc_eq, pending_eq]
  rw [grown_eq] at rewritten
  have dev_eq : c'.dev = dev := by
    obtain ⟨size, ns, frozen, rfl⟩ := rewritten.slot
    exact same_dev.trans (cacheLookup_dev lookup).1
  obtain ⟨only, found', -⟩ := onlySlot_set kept.inv.keyed lookup dev_eq
  rw [← table] at only found'
  exact kept.rewritten inv found same rewritten only found' fns spares merged provided nothing

theorem Kept.compiled {b : Batch} (kept : Kept g path r)
    (self : selfPath g.process g.uid = some path) (run : Stretch g r t k phase handed w d)
    (now : r.state.threads t = .compiled b)
    (room : b.scratch ≠ 0 → ∀ c, slotOf r.state.cache.devCaches b.dev = some c →
      c.pending.length < pendingMax)
    (spares : ∀ c, slotOf r.state.cache.devCaches b.dev = some c → Merges r b c →
      Spares g path r c (sources b)) :
    Carried g path r (.advance t) (r.state.moved t k phase handed w) d := by
  have inv := kept.inv_moved run
  have provided := kept.provided t
  have shape := kept.inv.batches.shaped t
  rw [now] at provided shape
  obtain ⟨own_bare, app_bare, -⟩ := shape
  have carried : ∀ h, carries (r.state.threads t) = some h → b.ownMaster = false ∧
      b.appCache = 0 ∧ b.scratch ≠ 0 ∧ h = b.scratch := by
    intro h is_carried
    rw [now] at is_carried
    simp only [carries] at is_carried
    split_ifs at is_carried with bare
    refine ⟨?_, ?_, bare, (Option.some.inj is_carried).symm⟩
    · by_contra is_own
      exact bare (own_bare (by simpa using is_own)).2
    · by_contra app
      exact bare (app_bare app).2
  have nothing_made : madeBy d (r.state.threads t) = [] := by rw [now]; rfl
  have facts : ∃ b', phase = .ended b' ∧ k.fns = r.state.cache.fns ∧
      Ends g.platform g.process r.state.cache b r.disk b' k d := by
    rw [Stretch, now] at run
    obtain ⟨⟨k', b'⟩, x, ran, same, rfl⟩ := Prog.runs_bind.mp run
    obtain ⟨rfl, ended⟩ := Prod.mk.inj same
    have ends : Yields g.platform (batchEnd g.process r.state.cache b) r.disk
        (fun r₁ d₁ => Ends g.platform g.process r.state.cache b r.disk r₁.2 r₁.1 d₁) :=
      yields_batchEnd
    exact ⟨b', (Prod.mk.inj ended).1, always_batchEnd.of_runs ran, ends.of_runs ran.prod.2⟩
  obtain ⟨b', rfl, fns, ends⟩ := facts
  obtain ⟨ending, -⟩ := ends
  generalize table : k.devCaches = caches at ending
  cases ending with
  | nothing reason =>
      refine kept.stretch inv (table ▸ .refl _) fns rfl rfl (fun _ _ => .refl _) ?_ trivial ?_ ?_
      · intro h is_carried
        obtain ⟨not_own, null, some_scratch, -⟩ := carried h is_carried
        rcases reason with missing | ⟨-, app | bare⟩
        · refine absurd ?_ (provided null).1
          simp [slotOf, missing]
        · exact absurd null app
        · exact absurd bare some_scratch
      · exact fun some_made => absurd nothing_made some_made
      · intro e member
        rw [nothing_made] at member
        cases member
  | master own lookup worked =>
      have spared := spares _ (slotOf_some lookup) (.inl own)
      rw [sources, if_pos own] at spared
      refine kept.written self inv lookup worked rfl rfl table fns spared ?_ trivial nothing_made
      intro h is_carried
      rw [(carried h is_carried).1] at own
      cases own
  | harvest own app on lookup free some_pc worked =>
      have spared := spares _ (slotOf_some lookup) (.inr ⟨free, fun _ => on⟩)
      rw [sources, if_neg (by simp [own]), if_pos app] at spared
      refine kept.written self inv lookup worked rfl rfl table fns spared ?_ trivial nothing_made
      intro h is_carried
      exact absurd (carried h is_carried).2.1 app
  | scratch own app some_scratch lookup free some_pc worked =>
      have spared := spares _ (slotOf_some lookup) (.inr ⟨free, fun theirs => absurd app theirs⟩)
      rw [sources, if_neg (by simp [own]), if_neg (by simp [app])] at spared
      refine kept.written self inv lookup worked rfl rfl table fns spared ?_ trivial nothing_made
      intro h is_carried
      rw [(carried h is_carried).2.2.2]
      exact List.mem_singleton.mpr rfl
  | queued own app some_scratch lookup =>
      have found := slotOf_some lookup
      obtain ⟨only, found', -⟩ := onlySlot_set (c := { r.state.cache.devCaches _ with
        pending := (r.state.cache.devCaches _).pending ++ [b.scratch] }) kept.inv.keyed lookup
        (cacheLookup_dev lookup).1
      rw [← table] at only found'
      exact kept.queued inv found only found' fns (fun h is_carried =>
        (carried h is_carried).2.2.2) trivial nothing_made
  | full own app some_scratch lookup full =>
      have under := room some_scratch _ (slotOf_some lookup)
      omega

end Endings

private theorem Kept.saved {dev : VkDevice} {c c' : DevCache} (kept : Kept g path r)
    (grows : Grows g.blobs) (found : slotOf r.state.cache.devCaches dev = some c)
    (rewritten : Rewritten g.platform g.process path true c c' (grown r.disk c []) r.disk d)
    (under : (g.blobs.encode (grown r.disk c [])).length ≤
      capOf g.process r.disk.props "vkcachemax" cacheMaxMb)
    (noted : (g.blobs.encode (grown r.disk c [])).length = c.lastSavedSize →
      (g.blobs.encode (r.noted dev)).length = c.lastSavedSize) {e : E}
    (member : e ∈ grown r.disk c []) : InFile g.blobs path d e := by
  rcases rewritten.file with ⟨same, -, skipped⟩ | ⟨-, -, replaced⟩
  · -- the save was skipped, so nothing has come to what the slot noted
    have nothing_new : grown r.disk c [] = r.noted dev := by
      have sizes := skipped rfl under
      have adds := (kept.slot found).2.2.trans (grown_adds r.disk c [])
      rcases grows.adds adds with same | longer
      · exact same
      · exfalso
        rcases sizes with empty | size
        · have none_left : (g.blobs.encode (grown r.disk c [])).length = 0 := empty
          omega
        · have is_size : (g.blobs.encode (grown r.disk c [])).length = c.lastSavedSize := size
          have also := noted is_size
          omega
    rw [nothing_new] at member
    obtain ⟨data, es, there, decoded, among⟩ := (kept.noted dev e member).2
    exact ⟨data, es, same.trans there, decoded, among⟩
  · exact ⟨_, _, replaced, g.blobs.decode_encode _, member⟩

private theorem stretch_dropping {dev : VkDevice} (run : Stretch g r t k phase handed w d)
    (now : r.state.threads t = .droppingDevice dev) :
    phase = .droppedDevice dev ∧
      (cacheLookup r.state.cache.devCaches dev = none → k = r.state.cache ∧ d = r.disk) ∧
      ∀ i, cacheLookup r.state.cache.devCaches dev = some i →
        k = r.state.cache.setSlot i DevCache.zero ∧
          GivenUp g.platform g.process r.state.cache.fns (r.state.cache.devCaches i) r.disk d := by
  rw [Stretch, now] at run
  obtain ⟨k', x, ran, same, rfl⟩ := Prog.runs_bind.mp run
  obtain ⟨rfl, ended⟩ := Prod.mk.inj same
  have dropped := Prog.Ensures.of_runs (yields_dropDiskCache _ true) ran.prod.2
  refine ⟨(Prod.mk.inj ended).1, fun missing => ?_, fun i lookup => ?_⟩
  · rwa [missing] at dropped
  · rwa [lookup] at dropped

theorem Kept.rewritten_dropping {dev : VkDevice} {c : DevCache} (kept : Kept g path r)
    (self : selfPath g.process g.uid = some path) (run : Stretch g r t k phase handed w d)
    (now : r.state.threads t = .droppingDevice dev)
    (found : slotOf r.state.cache.devCaches dev = some c) :
    ∃ c', Rewritten g.platform g.process path true c c' (grown r.disk c []) r.disk d := by
  obtain ⟨some_pc, here, -⟩ := kept.slot found
  obtain ⟨able, -⟩ := kept.settled found
  obtain ⟨i, lookup, rfl⟩ := Option.map_eq_some_iff.mp found
  exact rewritten_givenUp trivial self here some_pc able.2
    ((stretch_dropping run now).2.2 i lookup).2

theorem Kept.dropping {dev : VkDevice} (kept : Kept g path r) (grows : Grows g.blobs)
    (self : selfPath g.process g.uid = some path) (run : Stretch g r t k phase handed w d)
    (now : r.state.threads t = .droppingDevice dev)
    (under : ∀ c, slotOf r.state.cache.devCaches dev = some c →
      (g.blobs.encode (grown r.disk c [])).length ≤
        capOf g.process r.disk.props "vkcachemax" cacheMaxMb)
    (careful : ∀ c, slotOf r.state.cache.devCaches dev = some c → Spares g path r c [] ∧
      ((g.blobs.encode (grown r.disk c [])).length = c.lastSavedSize →
        (g.blobs.encode (r.noted dev)).length = c.lastSavedSize)) :
    Carried g path r (.advance t) (r.state.moved t k phase handed w) d := by
  have inv := kept.inv_moved run
  obtain ⟨rfl, unslotted, dropped⟩ := stretch_dropping run now
  cases lookup : cacheLookup r.state.cache.devCaches dev with
  | none =>
      obtain ⟨rfl, rfl⟩ := unslotted lookup
      exact kept.onward run ⟨rfl, rfl⟩ (by rw [now]; trivial) rfl rfl fun _ _ => rfl
  | some i =>
      obtain ⟨is_k, -⟩ := dropped i lookup
      have found := slotOf_some lookup
      obtain ⟨able, current⟩ := kept.settled found
      obtain ⟨c', rewritten⟩ := kept.rewritten_dropping self run now found
      obtain ⟨only, gone⟩ := onlySlot_zero kept.inv.keyed lookup
      have table : k.devCaches = Function.update r.state.cache.devCaches i DevCache.zero := by
        rw [is_k]
        rfl
      rw [← table] at only gone
      refine kept.touched inv only ⟨by rw [is_k]; exact able, ?_⟩ rewritten.props
        (fun h _ => rewritten.adds (grown_adds r.disk _ []) h) ?_ ?_ ?_ trivial ?_
        (by rw [now]; rfl)
      · rwa [stale_congr rewritten.props rewritten.stamp]
      · intro c is_slot
        cases gone.symm.trans is_slot
      · -- no call is in flight on a device that goes
        intro t' used
        have claim : claims (r.state.threads t) = some dev := by rw [now]; rfl
        cases (kept.inv.usage.uses used).symm.trans (kept.inv.usage.claimed claim).1
      · intro e ours there
        exact rewritten.inFile there fun changed => (careful _ found).1 changed e ours there
      · intro h who e member
        left
        refine kept.saved grows found rewritten (under _ found) (careful _ found).2 ?_
        rcases who with among | carried
        · rw [slotHandles_some found, mem_handles] at among
          rcases among with ⟨rfl, -⟩ | queued
          · exact (grown_adds r.disk _ []).mem member
          · exact grown_pending queued member
        · rw [now] at carried
          cases carried

end XdPlus.Vulkan.CacheRuns
