/- Module: XdPlus/Vulkan/CommandStream
   source: vulkan/vkshim.c, shim_CmdBlitImage, emit_emulated_blit, cb_to_device, prop_on
   digest: A command buffer recorded through the shim does what the application recorded. -/

import XdPlus.Vulkan.MipBlitMeaning

/-!
Blits go through the hook. What else reaches the driver is a parameter, of which it is known that
it depends on the application's images only.
-/

set_option autoImplicit false
set_option relaxedAutoImplicit false

namespace XdPlus.Vulkan.CommandStream

open XdPlus.Base Common Driver CommandBufferTable ImageTable MipBlit GpuImages MipBlitRegion
  MipBlitRecording MipBlitMeaning

/-- A call of `vkCmdBlitImage`. -/
structure Blit where
  src : VkImage
  srcLayout : VkImageLayout
  dst : VkImage
  dstLayout : VkImageLayout
  regions : List VkImageBlit
  filter : VkFilter

/-- What an application records. -/
inductive AppCommand (κ : Type) where
  | other (k : κ)
  | blit (b : Blit)

/-- What the command buffer holds: the application's other commands and those of the shim. -/
inductive Item (κ : Type) where
  | other (k : κ)
  | shim (c : Command)

abbrev Images := VkImage → Option VkImageCreateInfo

/-- These images, and nothing recorded anywhere. -/
abbrev Images.blank (images : Images) : Recording := ⟨images, fun _ => []⟩

/-- The hook's table and its gate. -/
abbrev HookState := CbTable × Gate

section Recording

variable {κ : Type} (host : Host) (imgs : ImgTable) (cb : VkCommandBuffer)

def Blit.program (b : Blit) (s : HookState) : Shim HookState :=
  shimCmdBlitImage host s.1 imgs s.2 cb b.src b.srcLayout b.dst b.dstLayout b.regions b.filter

/-- One command after the other, with a driver that serves the scratch images. Of what a blit
leaves behind, only what is in `cb` belongs to the stream. -/
inductive Records : HookState → Images → List (AppCommand κ) → List (Item κ) → HookState →
    Images → Prop
  | done {s : HookState} {images : Images} : Records s images [] [] s images
  | other {s s' : HookState} {images images' : Images} {k : κ} {rest : List (AppCommand κ)}
      {items : List (Item κ)} : Records s images rest items s' images' →
      Records s images (.other k :: rest) (.other k :: items) s' images'
  | blit {s s₁ s' : HookState} {images images' : Images} {w : Recording} {b : Blit}
      {rest : List (AppCommand κ)} {items : List (Item κ)} :
      (b.program host imgs cb s).Runs serving images.blank s₁ w →
      Records s₁ w.images rest items s' images' →
      Records s images (.blit b :: rest) ((w.recorded cb).map .shim ++ items) s' images'

end Recording

section Meaning

variable {κ τ : Type} (B : Blitter τ) (format : VkImage → VkFormat)
  (garbage : VkImage → Cell → τ) (other : κ → Gpu τ → Option (Gpu τ))

instance (g : Gpu τ) (b : Blit) (r : VkImageBlit) :
    Decidable (LayoutsFor g b.src b.srcLayout b.dst b.dstLayout r) :=
  inferInstanceAs (Decidable (_ ∧ _))

/-- The blit that was asked for, on whatever levels. -/
def askedBlit (b : Blit) (g : Gpu τ) : Option (Gpu τ) :=
  if ∀ r ∈ b.regions, LayoutsFor g b.src b.srcLayout b.dst b.dstLayout r then
    some { g with
      memory := Function.update g.memory b.dst
        (requested B (format b.src) (format b.dst) b.filter b.regions (g.memory b.src)
          (g.memory b.dst)) }
  else none

def asked : Gpu τ → List (AppCommand κ) → Option (Gpu τ)
  | g, [] => some g
  | g, .other k :: rest => (other k g).bind fun g => asked g rest
  | g, .blit b :: rest => (askedBlit B format b g).bind fun g => asked g rest

def executed : Gpu τ → List (Item κ) → Option (Gpu τ)
  | g, [] => some g
  | g, .other k :: rest => (other k g).bind fun g => executed g rest
  | g, .shim c :: rest => (exec B format garbage g c).bind fun g => executed g rest

theorem executed_shim (g : Gpu τ) (cmds : List Command) (items : List (Item κ)) :
    executed B format garbage other g (cmds.map .shim ++ items) =
      (execAll B format garbage g cmds).bind fun g => executed B format garbage other g items := by
  induction cmds generalizing g with
  | nil => rfl
  | cons c rest ih =>
      simp only [List.map_cons, List.cons_append, executed, execAll, Option.bind_assoc]
      congr 1
      funext g'
      exact ih g'

end Meaning

/-- The application's images are alike. -/
def Agree {τ : Type} (images : Images) (g h : Gpu τ) : Prop :=
  ∀ img ci, images img = some ci → g.memory img = h.memory img ∧ g.layout img = h.layout img

/-- A command that depends on the application's images only. -/
def Local {τ : Type} (images : Images) (run : Gpu τ → Option (Gpu τ)) : Prop :=
  ∀ g h h', Agree images g h → run h = some h' → ∃ g', run g = some g' ∧ Agree images g' h'

/-- A blit between images that exist, with regions out of each other's way. One that names a mip
level is one that can be emulated. -/
structure Blit.Allowed (images : Images) (imgs : ImgTable) (b : Blit) : Prop where
  src : ∃ ci, images b.src = some ci
  dst : ∃ ci, images b.dst = some ci
  unrelated : b.regions.Pairwise (Unrelated b.src b.dst)
  mips : b.regions.any namesMip = true → ∃ srcInfo dstInfo,
    findImg imgs b.src = some srcInfo ∧ findImg imgs b.dst = some dstInfo ∧
      Tracked images.blank b.src srcInfo ∧ Tracked images.blank b.dst dstInfo ∧
      formatIsDepthStencil srcInfo.format = false ∧ dstInfo.format = srcInfo.format ∧
      ∀ r ∈ b.regions, ValidRegion srcInfo.extent dstInfo.extent r

/-- The emulation is on and can work, for a command buffer the shim knows. -/
structure Ready (host : Host) (cb : VkCommandBuffer) (s : HookState) : Prop where
  handle : cb ≠ 0
  functions : host.scratchFns = true
  memory_types : host.memProps.isSome
  enabled : (propOn host.props "debug.xdplus.vkblitmip" s.2).1 = true
  tracked : cbToDevice s.1 cb ≠ 0

section OneBlit

variable {τ : Type} (B : Blitter τ) {host : Host} {imgs : ImgTable} {cb : VkCommandBuffer}
  {s s₁ : HookState} {app images : Images} {w : Recording} {b : Blit}

/-- Regions that write different texels do together what each asks for. -/
theorem foldl_blitRegion (f h : VkFormat) (filter : VkFilter) {regions : List VkImageBlit}
    (apart : regions.Pairwise fun r s => ∀ c, InTarget r c → ¬ InTarget s c)
    (source target : Cell → τ) :
    regions.foldl (fun target r => blitRegion B f h filter r source target) target =
      requested B f h filter regions source target := by
  induction regions generalizing target with
  | nil => rfl
  | cons r rest ih =>
      obtain ⟨r_apart, rest_apart⟩ := List.pairwise_cons.mp apart
      rw [List.foldl_cons, ih rest_apart]
      funext c
      by_cases here : InTarget r c
      · have later : rest.find? (fun s => InTarget s c) = none := by
          rw [List.find?_eq_none]
          intro s member
          simpa using r_apart s member c here
        simp only [requested, later, List.find?_cons, here, decide_true]
      · simp only [requested, List.find?_cons, here, decide_false]
        cases found : rest.find? (fun s => InTarget s c) with
        | none => simp only [blitRegion, here, if_false]
        | some s =>
            have inside : InTarget s c := by simpa using List.find?_some found
            simp only [blitRegion, inside, if_true]

theorem agree_asked {format : VkImage → VkFormat} {g h h' : Gpu τ}
    (allowed : b.Allowed app imgs) (agree : Agree app g h)
    (done : askedBlit B format b h = some h') :
    (∀ r ∈ b.regions, LayoutsFor g b.src b.srcLayout b.dst b.dstLayout r) ∧
      ∀ g' : Gpu τ,
        g'.memory b.dst = requested B (format b.src) (format b.dst) b.filter b.regions
          (g.memory b.src) (g.memory b.dst) →
        (∀ img ci, app img = some ci → g'.layout img = g.layout img ∧
          (img ≠ b.dst → g'.memory img = g.memory img)) → Agree app g' h' := by
  obtain ⟨src_ci, src_live⟩ := allowed.src
  obtain ⟨dst_ci, dst_live⟩ := allowed.dst
  obtain ⟨src_memory, src_layout⟩ := agree b.src src_ci src_live
  obtain ⟨dst_memory, dst_layout⟩ := agree b.dst dst_ci dst_live
  unfold askedBlit at done
  split_ifs at done with layouts
  obtain rfl := Option.some.inj done
  constructor
  · intro r member
    obtain ⟨readable, writable⟩ := layouts r member
    refine ⟨fun l small => ?_, fun l small => ?_⟩
    · rw [src_layout]
      exact readable l small
    · rw [dst_layout]
      exact writable l small
  · intro g' result same img ci live
    obtain ⟨memory, layout⟩ := agree img ci live
    refine ⟨?_, (same img ci live).1.trans layout⟩
    by_cases target : img = b.dst
    · rw [target, result, src_memory, dst_memory]
      show _ = Function.update h.memory b.dst _ b.dst
      rw [Function.update_self]
    · rw [(same img ci live).2 target, memory]
      exact (Function.update_of_ne target _ _).symm

/-- The commands do to the application's images what the blit does. -/
def Faithful (format : VkImage → VkFormat) (app : Images) (b : Blit) (cmds : List Command) :
    Prop :=
  ∀ (garbage : VkImage → Cell → τ) (g h h' : Gpu τ), Agree app g h →
    askedBlit B format b h = some h' →
    ∃ g', execAll B format garbage g cmds = some g' ∧ Agree app g' h'

theorem faithful_plain (format : VkImage → VkFormat) (allowed : b.Allowed app imgs)
    (plain : ¬ b.regions.any namesMip = true) :
    Faithful B format app b
      [.blitImage b.src b.srcLayout b.dst b.dstLayout b.regions b.filter] := by
  intro garbage g h h' agree done
  obtain ⟨layouts, result⟩ := agree_asked B allowed agree done
  have level_zero : ∀ r ∈ b.regions, g.InLayout b.src r.srcSubresource b.srcLayout ∧
      g.InLayout b.dst r.dstSubresource b.dstLayout ∧
      r.srcSubresource.mipLevel = 0 ∧ r.dstSubresource.mipLevel = 0 := by
    intro r member
    have no_mip : namesMip r = false := by
      by_contra named
      exact plain (List.any_eq_true.mpr ⟨r, member, by simpa using named⟩)
    have levels : r.srcSubresource.mipLevel = 0 ∧ r.dstSubresource.mipLevel = 0 := by
      simpa [namesMip] using no_mip
    exact ⟨(layouts r member).1, (layouts r member).2, levels⟩
  refine ⟨_, ?_, result
    { g with
      memory := Function.update g.memory b.dst
        (requested B (format b.src) (format b.dst) b.filter b.regions (g.memory b.src)
          (g.memory b.dst)) } ?_ ?_⟩
  · simp only [execAll, exec, if_pos level_zero, Option.bind_some]
    rw [foldl_blitRegion B _ _ _ (allowed.unrelated.imp fun unrelated => unrelated.targets)]
  · exact Function.update_self ..
  · intro img ci live
    exact ⟨rfl, fun other => Function.update_of_ne other _ _⟩

theorem program_mip (allowed : b.Allowed app imgs) (ready : Ready host cb s)
    (mip : b.regions.any namesMip = true) :
    ∃ memProps srcInfo dstInfo,
      findImg imgs b.src = some srcInfo ∧ findImg imgs b.dst = some dstInfo ∧
      b.program host imgs cb s = (do
        let t ← emitRegions cb (cbToDevice s.1 cb) b.src b.srcLayout b.dst b.dstLayout b.filter
          memProps srcInfo dstInfo (slotClaimDevice s.1 cb (cbToDevice s.1 cb)) b.regions
        return (t, (propOn host.props "debug.xdplus.vkblitmip" s.2).2)) := by
  obtain ⟨srcInfo, dstInfo, src_found, dst_found, -, -, colour, -⟩ := allowed.mips mip
  obtain ⟨memProps, memory_types⟩ := Option.isSome_iff_exists.mp ready.memory_types
  refine ⟨memProps, srcInfo, dstInfo, src_found, dst_found, ?_⟩
  simp only [Blit.program, shimCmdBlitImage, mip, ready.enabled, ready.tracked, ready.functions,
    memory_types, src_found, dst_found, colour, Bool.not_true, Bool.false_eq_true, if_false]

private theorem ready_after {t : CbTable} {gate : Gate} (ready : Ready host cb s)
    (kept : Keeps s.1 t) (same : (propOn host.props "debug.xdplus.vkblitmip" gate).1 = true) :
    Ready host cb (t, gate) where
  handle := ready.handle
  functions := ready.functions
  memory_types := ready.memory_types
  enabled := same
  tracked := by
    rw [kept.cbToDevice ready.tracked]
    exact ready.tracked

/-- Whatever the driver answers, the hook leaves the command buffer ready for the next blit, the
images that were there, every other buffer empty, and commands that do what was asked. -/
theorem blit_recorded (known : ∀ img ci, app img = some ci → images img = some ci)
    (allowed : b.Allowed app imgs) (ready : Ready host cb s)
    (run : (b.program host imgs cb s).Runs serving images.blank s₁ w) :
    Ready host cb s₁ ∧ (∀ img ci, images img = some ci → w.images img = some ci) ∧
      Adds cb (w.recorded cb) images.blank w ∧
      ∀ format, Formats w format → Faithful B format app b (w.recorded cb) := by
  by_cases mip : b.regions.any namesMip = true
  · obtain ⟨memProps, srcInfo, dstInfo, src_found, dst_found, eq⟩ := program_mip allowed ready mip
    obtain ⟨_, _, src_found', dst_found', src_tracked, dst_tracked, -, same_format, valid⟩ :=
      allowed.mips mip
    obtain rfl := Option.some.inj (src_found'.symm.trans src_found)
    obtain rfl := Option.some.inj (dst_found'.symm.trans dst_found)
    have tracked : ∀ {img info}, Tracked app.blank img info → Tracked images.blank img info := by
      intro img info tracked
      obtain ⟨ci, live, facts⟩ := tracked
      exact ⟨ci, known img ci live, facts⟩
    rw [eq] at run
    obtain ⟨t, mid, emitted, rfl, rfl⟩ := Prog.runs_bind.mp run
    obtain ⟨i, found, own⟩ := slotFor_of_device ready.tracked
    have claimed := keeps_slotClaimDevice s.1 cb (cbToDevice s.1 cb)
    have found' := claimed.slotFor.trans found
    have own' := (claimed i).1.trans own
    have kept : Keeps _ t :=
      (always_emitRegions found' own' ready.handle b.regions).of_runs emitted
    obtain ⟨grown, cmds, adds, performs⟩ := (ensures_emitRegions B _ found' own'
      ready.handle b.filter memProps b.regions valid allowed.unrelated same_format
      (tracked src_tracked) (tracked dst_tracked)).of_runs emitted
    obtain rfl : w.recorded cb = cmds := by simpa using adds.recorded_eq
    refine ⟨ready_after ready (claimed.trans kept) ?_, grown, adds, ?_⟩
    · rw [propOn_snd, propOn_cached]
      exact ready.enabled
    · intro format formats garbage g h h' agree done
      obtain ⟨layouts, result⟩ := agree_asked B allowed agree done
      obtain ⟨g', ran, written, same⟩ := performs g layouts format garbage formats
      obtain ⟨src_ci, src_live, src_format, -⟩ := src_tracked
      obtain ⟨dst_ci, dst_live, dst_format, -⟩ := dst_tracked
      have src_is := formats _ _ (grown _ _ (known _ _ src_live))
      have dst_is := formats _ _ (grown _ _ (known _ _ dst_live))
      refine ⟨g', ran, result g' ?_ fun img ci live => same img ci (known img ci live)⟩
      rw [written, src_is, dst_is, src_format, dst_format]
  · have plain : (!b.regions.any namesMip) = true := by simpa using mip
    simp only [Blit.program, shimCmdBlitImage, plain, if_true] at run
    obtain ⟨_, mid, recorded, rfl, same⟩ := Prog.runs_bind.mp run
    rw [Prog.runs_call] at recorded
    obtain rfl : mid = _ := recorded
    obtain rfl := same
    have adds : Adds cb [.blitImage b.src b.srcLayout b.dst b.dstLayout b.regions b.filter]
        images.blank (images.blank.append cb _) := adds_append rfl
    rw [adds.recorded_eq]
    exact ⟨ready, fun _ _ live => live, adds, fun format _ => faithful_plain B format allowed mip⟩

end OneBlit

section Stream

variable {κ τ : Type} (B : Blitter τ) {host : Host} {imgs : ImgTable} {cb : VkCommandBuffer}
  {s s' : HookState} {app images images' : Images} {stream : List (AppCommand κ)}
  {items : List (Item κ)}

private theorem records_faithful (records : Records host imgs cb s images stream items s' images')
    (known : ∀ img ci, app img = some ci → images img = some ci) (ready : Ready host cb s)
    (allowed : ∀ b, .blit b ∈ stream → b.Allowed app imgs) :
    Ready host cb s' ∧ (∀ img ci, images img = some ci → images' img = some ci) ∧
      ∀ (format : VkImage → VkFormat) (garbage : VkImage → Cell → τ)
        (other : κ → Gpu τ → Option (Gpu τ)), Formats images'.blank format →
        (∀ k, Local app (other k)) → ∀ g h h', Agree app g h →
        asked B format other h stream = some h' →
        ∃ g', executed B format garbage other g items = some g' ∧ Agree app g' h' := by
  induction records with
  | done =>
      refine ⟨ready, fun _ _ live => live, fun format garbage other _ _ g h h' agree done => ?_⟩
      obtain rfl := Option.some.inj done
      exact ⟨g, rfl, agree⟩
  | other _ ih =>
      obtain ⟨ready', grown, meaning⟩ :=
        ih known ready fun b member => allowed b (List.mem_cons_of_mem _ member)
      refine ⟨ready', grown, fun format garbage other formats local_ g h h' agree done => ?_⟩
      obtain ⟨h₁, first, rest⟩ := Option.bind_eq_some_iff.mp done
      obtain ⟨g₁, first', agree₁⟩ := local_ _ g h h₁ agree first
      obtain ⟨g', rest', agree'⟩ := meaning format garbage other formats local_ g₁ h₁ h' agree₁ rest
      refine ⟨g', ?_, agree'⟩
      simp only [executed, first', Option.bind_some, rest']
  | blit run _ ih =>
      obtain ⟨ready₁, grown₁, -, faithful⟩ :=
        blit_recorded B known (allowed _ (List.mem_cons_self ..)) ready run
      obtain ⟨ready', grown, meaning⟩ :=
        ih (fun img ci live => grown₁ img ci (known img ci live)) ready₁
          fun b member => allowed b (List.mem_cons_of_mem _ member)
      refine ⟨ready', fun img ci live => grown img ci (grown₁ img ci live), ?_⟩
      intro format garbage other formats local_ g h h' agree done
      have formats₁ : Formats _ format :=
        fun img ci live => formats img ci (grown img ci live)
      obtain ⟨h₁, first, rest⟩ := Option.bind_eq_some_iff.mp done
      obtain ⟨g₁, first', agree₁⟩ := faithful format formats₁ garbage g h h₁ agree first
      obtain ⟨g', rest', agree'⟩ := meaning format garbage other formats local_ g₁ h₁ h' agree₁ rest
      refine ⟨g', ?_, agree'⟩
      rw [executed_shim, first', Option.bind_some, rest']

/-- What is recorded into the buffer does to the application's images what it asked for, whatever
else is in the stream and wherever the scratch images end up, and the hook stays ready. -/
theorem recorded_as_asked (records : Records host imgs cb s app stream items s' images')
    (ready : Ready host cb s) (allowed : ∀ b, .blit b ∈ stream → b.Allowed app imgs)
    {format : VkImage → VkFormat} (formats : Formats images'.blank format)
    {other : κ → Gpu τ → Option (Gpu τ)} (foreign : ∀ k, Local app (other k)) {g h' : Gpu τ}
    (defined : asked B format other g stream = some h') (garbage : VkImage → Cell → τ) :
    Ready host cb s' ∧
      ∃ g', executed B format garbage other g items = some g' ∧ Agree app g' h' := by
  obtain ⟨ready', -, meaning⟩ := records_faithful B records (fun _ _ live => live) ready allowed
  exact ⟨ready', meaning format garbage other formats foreign g g h' (fun _ _ _ => ⟨rfl, rfl⟩)
    defined⟩

/-- A driver with handles to spare records every stream. -/
theorem records_exist (spare : Unbounded images.blank) (s : HookState)
    (stream : List (AppCommand κ)) :
    ∃ items s' images', Records host imgs cb s images stream items s' images' := by
  induction stream generalizing s images with
  | nil => exact ⟨[], s, images, .done⟩
  | cons c rest ih =>
      cases c with
      | other k =>
          obtain ⟨items, s', images', records⟩ := ih spare s
          exact ⟨_, s', images', .other records⟩
      | blit b =>
          obtain ⟨s₁, w, run, spare₁⟩ := serving_runs (b.program host imgs cb s) spare
          have spare₂ : Unbounded (Images.blank w.images) := spare₁
          obtain ⟨items, s', images', records⟩ := ih spare₂ s₁
          exact ⟨_, s', images', .blit run records⟩

end Stream

/-! A mip chain of three levels, each blitted from the one before. -/

def transition (k : Nat × VkImageLayout) (g : Gpu Nat) : Option (Gpu Nat) :=
  some { g with
    layout := fun img level layer =>
      if img = 10 ∧ level = k.1 then k.2 else g.layout img level layer }

theorem transition_local {app : Images} (k : Nat × VkImageLayout) : Local app (transition k) := by
  intro g h h' agree done
  obtain rfl := Option.some.inj done
  refine ⟨_, rfl, fun img ci live => ?_⟩
  obtain ⟨memory, layout⟩ := agree img ci live
  refine ⟨memory, ?_⟩
  simp only [layout]

def quarteringRegion : VkImageBlit where
  srcSubresource := ⟨1, 1, 0, 1⟩
  srcOffset0 := ⟨0, 0, 0⟩
  srcOffset1 := ⟨2, 2, 1⟩
  dstSubresource := ⟨1, 2, 0, 1⟩
  dstOffset0 := ⟨0, 0, 0⟩
  dstOffset1 := ⟨1, 1, 1⟩

def levelBlit (region : VkImageBlit) : Blit :=
  ⟨10, .transferSrcOptimal, 10, .transferDstOptimal, [region], .linear⟩

def mipChain : List (AppCommand (Nat × VkImageLayout)) :=
  [.other (0, .transferSrcOptimal), .other (1, .transferDstOptimal),
    .blit (levelBlit halvingRegion), .other (1, .transferSrcOptimal),
    .other (2, .transferDstOptimal), .blit (levelBlit quarteringRegion)]

private theorem levelBlit_allowed {region : VkImageBlit}
    (valid : ValidRegion ⟨4, 4, 1⟩ ⟨4, 4, 1⟩ region) :
    (levelBlit region).Allowed halvingStart.images halving.imgs where
  src := ⟨_, rfl⟩
  dst := ⟨_, rfl⟩
  unrelated := List.pairwise_singleton _ _
  mips := by
    have found : findImg halving.imgs 10 = some halving.srcInfo := by decide +kernel
    intro _
    refine ⟨halving.srcInfo, halving.srcInfo, found, found, ⟨_, rfl, rfl, rfl⟩,
      ⟨_, rfl, rfl, rfl⟩, by decide, rfl, fun r member => ?_⟩
    obtain rfl : r = region := by simpa [levelBlit] using member
    exact valid

private theorem mipChain_allowed {b : Blit} (member : .blit b ∈ mipChain) :
    b.Allowed halvingStart.images halving.imgs := by
  have either : b = levelBlit halvingRegion ∨ b = levelBlit quarteringRegion := by
    simpa [mipChain] using member
  rcases either with rfl | rfl
  · apply levelBlit_allowed
    refine ⟨rfl, rfl, ?_, ?_⟩ <;>
      simp [BoxInside, AxisInside, InInt32, halvingRegion, levelExt, mipExt]
  · apply levelBlit_allowed
    refine ⟨rfl, rfl, ?_, ?_⟩ <;>
      simp [BoxInside, AxisInside, InInt32, quarteringRegion, levelExt, mipExt]

private theorem mipChain_ready : Ready halving.host 5 (halving.table, none) where
  handle := by decide
  functions := rfl
  memory_types := rfl
  enabled := by decide +kernel
  tracked := by decide +kernel

private theorem mipChain_asked (format : VkImage → VkFormat) (g : Gpu Nat) :
    ∃ h', asked cornerBlitter format transition g mipChain = some h' ∧
      h'.memory 10 ⟨2, 0, ⟨0, 0, 0⟩⟩ = g.memory 10 ⟨0, 0, ⟨0, 0, 0⟩⟩ := by
  simp [asked, askedBlit, mipChain, levelBlit, transition, LayoutsFor, Gpu.InLayout,
    halvingRegion, quarteringRegion, requested, blitRegion, InTarget, InLayers, InBox,
    cornerBlitter]

/-- The last level ends up with the corner texel of the first. -/
theorem recorded_as_asked_mipChain :
    ∃ (items : List (Item (Nat × VkImageLayout))) (s' : HookState) (images' : Images)
      (format : VkImage → VkFormat),
      Records halving.host halving.imgs 5 (halving.table, none) halvingStart.images mipChain items
        s' images' ∧
      ∀ g : Gpu Nat, ∃ g', executed cornerBlitter format (fun _ _ => 0) transition g items =
        some g' ∧ g'.memory 10 ⟨2, 0, ⟨0, 0, 0⟩⟩ = g.memory 10 ⟨0, 0, ⟨0, 0, 0⟩⟩ := by
  have spare : Unbounded (Images.blank halvingStart.images) := by
    intro n
    refine ⟨max n 10 + 1, by omega, ?_⟩
    have other : max n 10 + 1 ≠ 10 := by omega
    simp only [halvingStart, if_neg other]
  obtain ⟨items, s', images', records⟩ : ∃ items s' images',
      Records halving.host halving.imgs 5 (halving.table, none) halvingStart.images mipChain items
        s' images' := records_exist spare (halving.table, none) mipChain
  have formats := formats_createdFormat (Images.blank images')
  refine ⟨items, s', images', createdFormat (Images.blank images'), records, fun g => ?_⟩
  obtain ⟨h', defined, corner⟩ := mipChain_asked (createdFormat (Images.blank images')) g
  obtain ⟨-, g', ran, agree⟩ := recorded_as_asked cornerBlitter records mipChain_ready
    (fun b member => mipChain_allowed member) formats transition_local defined fun _ _ => 0
  refine ⟨g', ran, ?_⟩
  rw [(agree 10 _ rfl).1, corner]

end XdPlus.Vulkan.CommandStream
