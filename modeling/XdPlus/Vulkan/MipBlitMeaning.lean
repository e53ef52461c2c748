/- Module: XdPlus/Vulkan/MipBlitMeaning
   source: vulkan/vkshim.c, emit_emulated_blit, shim_CmdBlitImage, get_scratch_pair
   digest: A blit on mip levels, rewritten through scratch images, does what was asked. -/

import XdPlus.Vulkan.MipBlitRecording
import XdPlus.Vulkan.MipBlitRegion

set_option autoImplicit false
set_option relaxedAutoImplicit false

namespace XdPlus.Vulkan.MipBlitMeaning

open XdPlus.Base Common Driver CommandBufferTable ImageTable MipBlit GpuImages MipBlitRegion
  MipBlitRecording

section Region

variable {τ : Type} (B : Blitter τ) {t : CbTable} {w : Recording} {i : Fin cbTableMax}
  {cb : VkCommandBuffer} {src dst : VkImage} {srcLayout dstLayout : VkImageLayout}
  {srcInfo dstInfo : ImgInfo}

/-- Texels of the images that exist are told apart by the formats these were created in. -/
def Formats (w : Recording) (format : VkImage → VkFormat) : Prop :=
  ∀ img ci, w.images img = some ci → format img = ci.format

/-- The formats images were created in. -/
def createdFormat (w : Recording) (img : VkImage) : VkFormat :=
  ((w.images img).map VkImageCreateInfo.format).getD 0

theorem formats_createdFormat (w : Recording) : Formats w (createdFormat w) := by
  intro img ci live
  simp [createdFormat, live]

/-- The layouts a region relies on. -/
def LayoutsFor (g : Gpu τ) (src : VkImage) (srcLayout : VkImageLayout) (dst : VkImage)
    (dstLayout : VkImageLayout) (r : VkImageBlit) : Prop :=
  g.InLayout src r.srcSubresource srcLayout ∧ g.InLayout dst r.dstSubresource dstLayout

/-- The table's entry is about this image. -/
def Tracked (w : Recording) (img : VkImage) (info : ImgInfo) : Prop :=
  ∃ ci, w.images img = some ci ∧ ci.format = info.format ∧ ci.extent = info.extent

/-- The format a region's texels are written in. -/
def writtenFormat (srcInfo dstInfo : ImgInfo) (r : VkImageBlit) : VkFormat :=
  if r.dstSubresource.mipLevel = 0 then dstInfo.format else srcInfo.format

/-- What running `cmds` does, for a region or for several: `result` on the destination
and nothing else to any image that existed before. -/
def Performs (w w' : Recording) (src dst : VkImage) (cmds : List Command) (g : Gpu τ)
    (result : (Cell → τ) → (Cell → τ) → Cell → τ) : Prop :=
  ∀ format garbage, Formats w' format →
    ∃ g', execAll B format garbage g cmds = some g' ∧
      g'.memory dst = result (g.memory src) (g.memory dst) ∧
      ∀ img ci, w.images img = some ci → g'.layout img = g.layout img ∧
        (img ≠ dst → g'.memory img = g.memory img)

theorem regionCommands_performs {p : ScratchPair} {w' : Recording} {r : VkImageBlit}
    (pair : NewPair w w' p srcInfo.format (levelExt srcInfo.extent r.srcSubresource.mipLevel)
      (levelExt dstInfo.extent r.dstSubresource.mipLevel))
    (single : SingleLayer r) (filter : VkFilter) (src_tracked : Tracked w src srcInfo)
    (dst_tracked : Tracked w dst dstInfo) {g : Gpu τ}
    (layouts : LayoutsFor g src srcLayout dst dstLayout r) {format : VkImage → VkFormat}
    (garbage : VkImage → Cell → τ) (formats : Formats w' format) :
    ∃ g' view, execAll B format garbage g
        (regionCommands src srcLayout dst dstLayout r filter p) = some g' ∧
      (∀ q, (r.srcSubresource.mipLevel ≠ 0 → InCopied r.srcOffset0 r.srcOffset1 q) →
        view ⟨0, (midSubresource r.srcSubresource).baseArrayLayer, q⟩ =
          g.memory src ⟨r.srcSubresource.mipLevel, r.srcSubresource.baseArrayLayer, q⟩) ∧
      g'.memory dst = delivered B srcInfo.format (writtenFormat srcInfo dstInfo r) filter r view
        (garbage p.dstImg) (g.memory dst) ∧
      ∀ img ci, w.images img = some ci → g'.layout img = g.layout img ∧
        (img ≠ dst → g'.memory img = g.memory img) := by
  obtain ⟨src_ci, src_live, src_format, -⟩ := src_tracked
  obtain ⟨dst_ci, dst_live, dst_format, -⟩ := dst_tracked
  have old : ∀ {img ci}, w.images img = some ci → img ≠ p.srcImg ∧ img ≠ p.dstImg := by
    intro img ci live
    refine ⟨?_, ?_⟩
    · rintro rfl
      rw [pair.src_new] at live
      cases live
    · rintro rfl
      rw [pair.dst_new] at live
      cases live
  have apart : Apart src dst p :=
    ⟨(old src_live).1.symm, (old dst_live).1.symm, (old src_live).2.symm, (old dst_live).2.symm,
      pair.apart⟩
  have src_is : format src = srcInfo.format :=
    (formats src src_ci (pair.grown src src_ci src_live)).trans src_format
  have dst_is : format dst = dstInfo.format :=
    (formats dst dst_ci (pair.grown dst dst_ci dst_live)).trans dst_format
  have scratch_src : format p.srcImg = srcInfo.format := formats _ _ pair.src_made
  have scratch_dst : format p.dstImg = srcInfo.format := formats _ _ pair.dst_made
  obtain ⟨g', view, run, seen, result, same⟩ := regionCommands_exec B format garbage single filter
    apart (scratch_src.trans src_is.symm) layouts.1 layouts.2
  refine ⟨g', view, run, seen, ?_, fun img ci live => same img (old live).1 (old live).2⟩
  have written : format (midDst dst r p) = writtenFormat srcInfo dstInfo r := by
    unfold midDst writtenFormat
    split_ifs
    · exact dst_is
    · exact scratch_dst
  rw [result, src_is, written]

theorem ensures_emitValidRegion (dev : VkDevice) (found : slotFor t cb = some i) {r : VkImageBlit}
    (filter : VkFilter) (memProps : VkPhysicalDeviceMemoryProperties)
    (valid : ValidRegion srcInfo.extent dstInfo.extent r)
    (src_tracked : Tracked w src srcInfo) (dst_tracked : Tracked w dst dstInfo) :
    (emitEmulatedBlit t cb dev src srcLayout dst dstLayout r filter memProps srcInfo
      dstInfo).Ensures serving anyCall w (fun _ w' => Extends w w' ∧
        ∃ cmds, Adds cb cmds w w' ∧ ∀ g : Gpu τ, LayoutsFor g src srcLayout dst dstLayout r →
          Performs B w w' src dst cmds g (blitRegion B srcInfo.format
            (writtenFormat srcInfo dstInfo r) filter r)) := by
  refine (ensures_emitEmulatedBlit t).mono fun t' w' emitted => ?_
  rcases emitted with ⟨refused, -⟩ | ⟨p, pair, adds⟩
  · simp [found] at refused
  · refine ⟨pair.grown, _, adds, fun g layouts format garbage formats => ?_⟩
    have staged := valid.staged
    obtain ⟨g', view, run, seen, result, same⟩ := regionCommands_performs B pair staged.single
      filter src_tracked dst_tracked layouts garbage formats
    refine ⟨g', run, ?_, same⟩
    rw [result]
    exact delivered_eq_blitRegion B staged _ _ _ fun q inside =>
      seen q fun level => staged.src_copied level q inside

end Region

section Regions

variable {τ : Type} (B : Blitter τ) {src dst : VkImage} {srcLayout dstLayout : VkImageLayout}
  {srcInfo dstInfo : ImgInfo}

/-- Two regions of one call that do not get in each other's way: they write different
texels, and neither reads what the other writes. -/
structure Unrelated (src dst : VkImage) (r s : VkImageBlit) : Prop where
  targets : ∀ c, InTarget r c → ¬ InTarget s c
  first_reads : src = dst → ∀ c, InSource r c → ¬ InTarget s c
  second_reads : src = dst → ∀ c, InSource s c → ¬ InTarget r c

private theorem blitRegion_congr {srcExt dstExt : VkExtent3D} {r : VkImageBlit}
    (valid : ValidRegion srcExt dstExt r) (f h : VkFormat) (filter : VkFilter)
    {source source' target target' : Cell → τ} (same : ∀ c, InSource r c → source' c = source c)
    {c : Cell} (inside : InTarget r c) :
    blitRegion B f h filter r source' target' c = blitRegion B f h filter r source target c := by
  simp only [blitRegion, inside, if_true]
  refine B.reads_inside _ _ _ _ _ _ _ _ _ _ fun q in_box => same _ ⟨⟨rfl, ?_, ?_⟩, in_box⟩
  · exact Nat.le_add_right _ _
  · obtain ⟨⟨-, low, high⟩, -⟩ := inside
    rw [valid.dst_layer] at high
    rw [valid.src_layer]
    show r.srcSubresource.baseArrayLayer + (c.layer - r.dstSubresource.baseArrayLayer) <
      r.srcSubresource.baseArrayLayer + 1
    omega

private theorem requested_cons {srcExt dstExt : VkExtent3D} {r : VkImageBlit}
    {rest : List VkImageBlit} (valid : ∀ s ∈ rest, ValidRegion srcExt dstExt s)
    (f h : VkFormat) (filter : VkFilter) {source source' target : Cell → τ}
    (targets : ∀ s ∈ rest, ∀ c, InTarget r c → ¬ InTarget s c)
    (same : ∀ s ∈ rest, ∀ c, InSource s c → source' c = source c) :
    requested B f h filter rest source' (blitRegion B f h filter r source target) =
      requested B f h filter (r :: rest) source target := by
  funext c
  by_cases here : InTarget r c
  · have later : rest.find? (fun s => InTarget s c) = none := by
      rw [List.find?_eq_none]
      intro s member
      simpa using targets s member c here
    simp only [requested, later, List.find?_cons, here, decide_true]
  · simp only [requested, List.find?_cons, here, decide_false]
    cases found : rest.find? (fun s => InTarget s c) with
    | none => simp only [blitRegion, here, if_false]
    | some s =>
        have member := List.mem_of_find?_eq_some found
        have inside : InTarget s c := by simpa using List.find?_some found
        exact blitRegion_congr B (valid s member) _ _ _ (same s member) inside

theorem ensures_emitRegions {t : CbTable} {w : Recording} {i : Fin cbTableMax}
    {cb : VkCommandBuffer} (dev : VkDevice) (found : slotFor t cb = some i)
    (own : (t i).cb = cb) (nonzero : cb ≠ 0) (filter : VkFilter)
    (memProps : VkPhysicalDeviceMemoryProperties) (regions : List VkImageBlit)
    (valid : ∀ r ∈ regions, ValidRegion srcInfo.extent dstInfo.extent r)
    (unrelated : regions.Pairwise (Unrelated src dst))
    (same_format : dstInfo.format = srcInfo.format)
    (src_tracked : Tracked w src srcInfo) (dst_tracked : Tracked w dst dstInfo) :
    (emitRegions cb dev src srcLayout dst dstLayout filter memProps srcInfo dstInfo t
      regions).Ensures serving anyCall w (fun _ w' =>
        Extends w w' ∧ ∃ cmds, Adds cb cmds w w' ∧
          ∀ g : Gpu τ, (∀ r ∈ regions, LayoutsFor g src srcLayout dst dstLayout r) →
            Performs B w w' src dst cmds g
              (requested B srcInfo.format dstInfo.format filter regions)) := by
  induction regions generalizing t w with
  | nil =>
      refine ⟨Extends.refl w, [], adds_nil rfl, fun g _ format garbage _ => ?_⟩
      exact ⟨g, rfl, rfl, fun _ _ _ => ⟨rfl, fun _ => rfl⟩⟩
  | cons r rest ih =>
      obtain ⟨r_unrelated, rest_unrelated⟩ := List.pairwise_cons.mp unrelated
      simp only [emitRegions, Prog.ensures_bind]
      refine (((ensures_emitValidRegion B dev found filter memProps
        (valid r (List.mem_cons_self ..)) src_tracked dst_tracked).and
        (always_emitEmulatedBlit found own nonzero).anywhere).weaken fun _ _ _ => trivial).mono ?_
      rintro t₁ w₁ ⟨⟨grown₁, cmds₁, adds₁, performs₁⟩, kept₁⟩
      have kept : ∀ {img info}, Tracked w img info → Tracked w₁ img info := by
        rintro img info ⟨ci, live, facts⟩
        exact ⟨ci, grown₁ img ci live, facts⟩
      refine (ih (kept₁.slotFor.trans found) ((kept₁ i).1.trans own)
        (fun s member => valid s (List.mem_cons_of_mem r member))
        rest_unrelated (kept src_tracked) (kept dst_tracked)).mono ?_
      rintro t₂ w₂ ⟨grown₂, cmds₂, adds₂, performs₂⟩
      refine ⟨grown₁.trans grown₂, cmds₁ ++ cmds₂, adds₁.trans adds₂, ?_⟩
      · intro g layouts format garbage formats
        have formats₁ : Formats w₁ format := fun img ci live => formats img ci (grown₂ img ci live)
        obtain ⟨g₁, run₁, result₁, same₁⟩ :=
          performs₁ g (layouts r (List.mem_cons_self ..)) format garbage formats₁
        obtain ⟨src_ci, src_live, -⟩ := src_tracked
        obtain ⟨dst_ci, dst_live, -⟩ := dst_tracked
        have layouts₁ : ∀ s ∈ rest, LayoutsFor g₁ src srcLayout dst dstLayout s := by
          intro s member
          obtain ⟨readable, writable⟩ := layouts s (List.mem_cons_of_mem r member)
          refine ⟨fun l small => ?_, fun l small => ?_⟩
          · rw [(same₁ src src_ci src_live).1]
            exact readable l small
          · rw [(same₁ dst dst_ci dst_live).1]
            exact writable l small
        obtain ⟨g₂, run₂, result₂, same₂⟩ := performs₂ g₁ layouts₁ format garbage formats
        refine ⟨g₂, ?_, ?_, ?_⟩
        · rw [execAll_append, run₁, Option.bind_some, run₂]
        · have written : writtenFormat srcInfo dstInfo r = dstInfo.format := by
            unfold writtenFormat
            split_ifs
            · rfl
            · exact same_format.symm
          rw [written] at result₁
          rw [result₂, result₁]
          refine requested_cons B (fun s member => valid s (List.mem_cons_of_mem r member)) _ _ _
            (fun s member => (r_unrelated s member).targets) fun s member c reads => ?_
          by_cases same_image : src = dst
          · subst same_image
            have outside := (r_unrelated s member).second_reads rfl c reads
            rw [result₁]
            simp only [blitRegion, outside, if_false]
          · rw [(same₁ src src_ci src_live).2 same_image]
        · intro img ci live
          obtain ⟨layout₁, memory₁⟩ := same₁ img ci live
          obtain ⟨layout₂, memory₂⟩ := same₂ img ci (grown₁ img ci live)
          exact ⟨layout₂.trans layout₁, fun other => (memory₂ other).trans (memory₁ other)⟩

/-- A call on mip levels, in one format. -/
structure Request where
  host : Host
  memProps : VkPhysicalDeviceMemoryProperties
  table : CbTable
  imgs : ImgTable
  gate : Gate
  cb : VkCommandBuffer
  src : VkImage
  srcLayout : VkImageLayout
  srcInfo : ImgInfo
  dst : VkImage
  dstLayout : VkImageLayout
  dstInfo : ImgInfo
  regions : List VkImageBlit
  filter : VkFilter

def Request.program (q : Request) : Shim (CbTable × Gate) :=
  shimCmdBlitImage q.host q.table q.imgs q.gate q.cb q.src q.srcLayout q.dst q.dstLayout
    q.regions q.filter

/-- A tracked command buffer and tracked colour images, the emulation on and able to work,
and some region on a mip level. -/
structure Request.Emulated (q : Request) (w : Recording) : Prop where
  handle : q.cb ≠ 0
  tracked : cbToDevice q.table q.cb ≠ 0
  enabled : (propOn q.host.props "debug.xdplus.vkblitmip" q.gate).1 = true
  functions : q.host.scratchFns = true
  memory_types : q.host.memProps = some q.memProps
  src_found : findImg q.imgs q.src = some q.srcInfo
  dst_found : findImg q.imgs q.dst = some q.dstInfo
  src_tracked : Tracked w q.src q.srcInfo
  dst_tracked : Tracked w q.dst q.dstInfo
  colour : formatIsDepthStencil q.srcInfo.format = false
  mip : q.regions.any namesMip = true

/-- Regions of one layer, inside their levels and out of each other's way. -/
structure Request.Valid (q : Request) : Prop where
  regions : ∀ r ∈ q.regions, ValidRegion q.srcInfo.extent q.dstInfo.extent r
  unrelated : q.regions.Pairwise (Unrelated q.src q.dst)

theorem Request.program_eq {q : Request} {w : Recording} (emulated : q.Emulated w) :
    q.program = (do
      let t ← emitRegions q.cb (cbToDevice q.table q.cb) q.src q.srcLayout q.dst q.dstLayout
        q.filter q.memProps q.srcInfo q.dstInfo
        (slotClaimDevice q.table q.cb (cbToDevice q.table q.cb)) q.regions
      return (t, (propOn q.host.props "debug.xdplus.vkblitmip" q.gate).2)) := by
  have some_mip : (!q.regions.any namesMip) = false := by simp [emulated.mip]
  simp only [Request.program, shimCmdBlitImage, some_mip, emulated.enabled, emulated.tracked,
    emulated.functions, emulated.memory_types, emulated.src_found, emulated.dst_found,
    emulated.colour, Bool.not_true, Bool.false_eq_true, if_false]

/-- The recorded commands of a call on mip levels leave the destination as the blits that
were asked for would, and every other texel of source and destination, and every other
image, as it was. `execAll` stops at a command that names an image in a layout it is not
in, so every scratch image is named in the layout the barrier before left it in. -/
theorem recorded_blit_meaning {w : Recording} (q : Request) (emulated : q.Emulated w)
    (valid : q.Valid) (same_format : q.dstInfo.format = q.srcInfo.format) (r : CbTable × Gate)
    (w' : Recording) (run : q.program.Runs serving w r w') :
    ∃ cmds, Adds q.cb cmds w w' ∧
      ∀ (g : Gpu τ) (format : VkImage → VkFormat) (garbage : VkImage → Cell → τ),
        Formats w' format →
        (∀ r ∈ q.regions, LayoutsFor g q.src q.srcLayout q.dst q.dstLayout r) →
        ∃ g', execAll B format garbage g cmds = some g' ∧
          g'.memory q.dst = requested B q.srcInfo.format q.dstInfo.format q.filter q.regions
            (g.memory q.src) (g.memory q.dst) ∧
          (∀ c, (∀ r ∈ q.regions, ¬ InTarget r c) →
            g'.memory q.dst c = g.memory q.dst c) ∧
          ∀ img ci, w.images img = some ci → img ≠ q.dst →
            g'.memory img = g.memory img := by
  obtain ⟨i, found, own⟩ := slotFor_of_device emulated.tracked
  have claimed := slotClaimDevice_cb q.table q.cb (cbToDevice q.table q.cb)
  rw [Request.program_eq emulated] at run
  obtain ⟨t, mid, emitted, rfl, rfl⟩ := Prog.runs_bind.mp run
  obtain ⟨-, cmds, adds, performs⟩ := (ensures_emitRegions B _
    ((slotFor_congr claimed).trans found) ((claimed i).trans own) emulated.handle q.filter
    q.memProps q.regions valid.regions valid.unrelated same_format emulated.src_tracked
    emulated.dst_tracked).of_runs emitted
  refine ⟨cmds, adds, fun g format garbage formats layouts => ?_⟩
  obtain ⟨g', ran, result, same⟩ := performs g layouts format garbage formats
  refine ⟨g', ran, result, fun c outside => ?_, fun img ci live other => (same img ci live).2 other⟩
  have missed : q.regions.find? (fun r => InTarget r c) = none := by
    rw [List.find?_eq_none]
    intro r member
    simpa using outside r member
  rw [result]
  simp only [requested, missed]

end Regions

/-! Level 0 of a 4 by 4 image into its level 1, with a blit that takes the corner. -/

def cornerBlitter : Blitter Nat where
  sample _ _ _ s0 s1 _ _ view _ := if InBox s0 s1 s0 then view s0 else 0
  reads_inside := by
    intro f g filter s0 s1 d0 d1 view other p same
    by_cases inside : InBox s0 s1 s0
    · simp [inside, same s0 inside]
    · simp [inside]

def halvingRegion : VkImageBlit where
  srcSubresource := ⟨1, 0, 0, 1⟩
  srcOffset0 := ⟨0, 0, 0⟩
  srcOffset1 := ⟨4, 4, 1⟩
  dstSubresource := ⟨1, 1, 0, 1⟩
  dstOffset0 := ⟨0, 0, 0⟩
  dstOffset1 := ⟨2, 2, 1⟩

def halving : Request where
  host := ⟨fun _ => "", true, some [1]⟩
  memProps := [1]
  table := rememberPool CbTable.zero 1 5 2
  imgs := rememberImg ImgTable.zero 10 37 ⟨4, 4, 1⟩ 1
  gate := none
  cb := 5
  src := 10
  srcLayout := .transferSrcOptimal
  srcInfo := ⟨10, 37, ⟨4, 4, 1⟩, 1, 1, true⟩
  dst := 10
  dstLayout := .transferDstOptimal
  dstInfo := ⟨10, 37, ⟨4, 4, 1⟩, 1, 1, true⟩
  regions := [halvingRegion]
  filter := .linear

/-- Image 10 and nothing else. -/
def halvingStart : Recording where
  images img := if img = 10 then
    some ⟨.type2D, 37, ⟨4, 4, 1⟩, 3, 1, 7, .undefined⟩ else none
  recorded _ := []

private theorem halving_emulated : halving.Emulated halvingStart where
  handle := by decide
  tracked := by decide +kernel
  enabled := by decide +kernel
  functions := rfl
  memory_types := rfl
  src_found := by decide +kernel
  dst_found := by decide +kernel
  src_tracked := ⟨_, rfl, rfl, rfl⟩
  dst_tracked := ⟨_, rfl, rfl, rfl⟩
  colour := by decide
  mip := by decide

private theorem halving_valid : halving.Valid where
  regions := by
    intro r member
    obtain rfl : r = halvingRegion := by simpa [halving] using member
    refine ⟨rfl, rfl, ?_, ?_⟩ <;>
      simp [BoxInside, AxisInside, InInt32, halvingRegion, halving, levelExt, mipExt]
  unrelated := List.pairwise_singleton _ _

/-- Level 1 ends up with the corner texel of level 0. -/
theorem recorded_blit_halving : ∃ r w', halving.program.Runs serving halvingStart r w' ∧
    w'.recorded 6 = [] ∧ ∀ g : Gpu Nat, g.memory 10 ⟨0, 0, ⟨0, 0, 0⟩⟩ = 9 →
      g.layout 10 0 0 = .transferSrcOptimal → g.layout 10 1 0 = .transferDstOptimal →
      ∃ format g', execAll cornerBlitter format (fun _ _ => 0) g (w'.recorded 5) = some g' ∧
        g'.memory 10 ⟨1, 0, ⟨1, 1, 0⟩⟩ = 9 := by
  have more : Unbounded halvingStart := by
    intro n
    refine ⟨max n 10 + 1, by omega, ?_⟩
    have other : max n 10 + 1 ≠ 10 := by omega
    simp only [halvingStart, if_neg other]
  -- the call stays a variable here, so that nothing evaluates its program
  obtain ⟨q, q_eq⟩ : ∃ q, q = halving := ⟨_, rfl⟩
  rw [← q_eq]
  obtain ⟨r, w', run, -⟩ := serving_runs q.program more
  obtain ⟨cmds, adds, meaning⟩ := recorded_blit_meaning cornerBlitter q
    (q_eq ▸ halving_emulated) (q_eq ▸ halving_valid) (q_eq ▸ rfl) r w' run
  have cb_eq : q.cb = 5 := by rw [q_eq]; rfl
  rw [cb_eq] at adds
  have cmds_eq : w'.recorded 5 = cmds := by simpa [halvingStart] using adds.recorded_eq
  have other : w'.recorded 6 = [] := by
    rw [adds]
    rfl
  refine ⟨r, w', run, other, fun g texel readable writable => ?_⟩
  have layouts : ∀ r ∈ q.regions, LayoutsFor g q.src q.srcLayout q.dst q.dstLayout r := by
    intro r member
    obtain rfl : r = halvingRegion := by simpa [q_eq, halving] using member
    subst q_eq
    refine ⟨fun l small => ?_, fun l small => ?_⟩
    · obtain rfl : l = 0 := by simpa [halvingRegion] using small
      exact readable
    · obtain rfl : l = 0 := by simpa [halvingRegion] using small
      exact writable
  obtain ⟨g', ran, result, -, -⟩ := meaning g (createdFormat w') (fun _ _ => 0)
    (formats_createdFormat w') layouts
  refine ⟨_, g', cmds_eq ▸ ran, ?_⟩
  have inside : InTarget halvingRegion ⟨1, 0, ⟨1, 1, 0⟩⟩ := by decide
  have corner : InBox halvingRegion.srcOffset0 halvingRegion.srcOffset1
      halvingRegion.srcOffset0 := by decide
  have dst_eq : q.dst = 10 := by rw [q_eq]; rfl
  rw [← dst_eq, result]
  simp [requested, q_eq, halving, inside, blitRegion, cornerBlitter, corner]
  exact texel

end XdPlus.Vulkan.MipBlitMeaning
