/- Module: XdPlus/Vulkan/MipBlitRegion
   source: vulkan/vkshim.c, emit_emulated_blit
   digest: Executing one region's commands is the blit that was asked for, up to the format
     a staged destination is written in. -/

import XdPlus.Vulkan.GpuImages
import XdPlus.Vulkan.MipBlit

set_option autoImplicit false
set_option relaxedAutoImplicit false

namespace XdPlus.Vulkan.MipBlitRegion

open Common Driver CommandBufferTable MipBlit GpuImages

/-- `int32_t`. -/
def InInt32 (x : Int) : Prop := -2 ^ 31 ≤ x ∧ x < 2 ^ 31

/-- One axis of a box: corners in order, inside a level of `extent` texels. -/
def AxisInside (a b : Int) (extent : Nat) : Prop :=
  InInt32 a ∧ InInt32 b ∧ 0 ≤ a ∧ a < b ∧ b ≤ extent

def BoxInside (a b : VkOffset3D) (e : VkExtent3D) : Prop :=
  AxisInside a.x b.x e.width ∧ AxisInside a.y b.y e.height ∧ AxisInside a.z b.z e.depth

/-- A single-layer region inside the levels it names; `srcExt` and `dstExt` are the
extents of the images' level 0. -/
structure ValidRegion (srcExt dstExt : VkExtent3D) (r : VkImageBlit) : Prop where
  src_layer : r.srcSubresource.layerCount = 1
  dst_layer : r.dstSubresource.layerCount = 1
  src_inside : BoxInside r.srcOffset0 r.srcOffset1 (levelExt srcExt r.srcSubresource.mipLevel)
  dst_inside : BoxInside r.dstOffset0 r.dstOffset1 (levelExt dstExt r.dstSubresource.mipLevel)

/-- A single layer on both sides. -/
structure SingleLayer (r : VkImageBlit) : Prop where
  src : r.srcSubresource.layerCount = 1
  dst : r.dstSubresource.layerCount = 1

/-- The box a copy of a region's end covers. -/
def InCopied (a b p : VkOffset3D) : Prop := InBox a (VkOffset3D.corner a (regionExtent a b)) p

instance (a b p : VkOffset3D) : Decidable (InCopied a b p) :=
  inferInstanceAs (Decidable (InBox _ _ _))

/-- A region whose staged ends the copies match: what the blit reads has been copied, and
what is copied back is what the blit writes. -/
structure Staged (r : VkImageBlit) : Prop where
  single : SingleLayer r
  src_copied : r.srcSubresource.mipLevel ≠ 0 → ∀ p, InBox r.srcOffset0 r.srcOffset1 p →
    InCopied r.srcOffset0 r.srcOffset1 p
  dst_copied : r.dstSubresource.mipLevel ≠ 0 → ∀ p,
    InCopied r.dstOffset0 r.dstOffset1 p ↔ InBox r.dstOffset0 r.dstOffset1 p

section Geometry

/-- Corners in order, and no further apart than `uint32_t` can say. -/
def AxisOrdered (a b : Int) : Prop := a < b ∧ b - a < 2 ^ 32

def BoxOrdered (a b : VkOffset3D) : Prop :=
  AxisOrdered a.x b.x ∧ AxisOrdered a.y b.y ∧ AxisOrdered a.z b.z

private theorem span_eq {a b : Int} (ordered : AxisOrdered a b) : (span a b : Int) = b - a := by
  obtain ⟨order, small⟩ := ordered
  have length : (b - a) % 2 ^ 32 = b - a := Int.emod_eq_of_lt (by omega) small
  simp only [span, length]
  rw [if_pos (by omega)]
  omega

theorem span_pos (a b : Int) : 0 < span a b := by
  simp only [span]
  split_ifs <;> omega

theorem inCopied_iff {a b : VkOffset3D} (ordered : BoxOrdered a b) (p : VkOffset3D) :
    InCopied a b p ↔ InBox a b p := by
  obtain ⟨x, y, z⟩ := ordered
  simp only [InCopied, InBox, VkOffset3D.corner, regionExtent]
  rw [span_eq x, span_eq y, span_eq z]
  simp only [add_sub_cancel]

theorem inCopied_start (a b : VkOffset3D) : InCopied a b a := by
  have x := span_pos a.x b.x
  have y := span_pos a.y b.y
  have z := span_pos a.z b.z
  simp only [InCopied, InBox, VkOffset3D.corner, regionExtent]
  omega

private theorem BoxInside.ordered {a b : VkOffset3D} {e : VkExtent3D} (inside : BoxInside a b e) :
    BoxOrdered a b := by
  have axis {a b : Int} {n : Nat} (h : AxisInside a b n) : AxisOrdered a b := by
    obtain ⟨⟨-, -⟩, ⟨-, upper⟩, low, order, -⟩ := h
    exact ⟨order, by omega⟩
  exact ⟨axis inside.1, axis inside.2.1, axis inside.2.2⟩

theorem ValidRegion.staged {srcExt dstExt : VkExtent3D} {r : VkImageBlit}
    (valid : ValidRegion srcExt dstExt r) : Staged r where
  single := ⟨valid.src_layer, valid.dst_layer⟩
  src_copied _ p inside := (inCopied_iff valid.src_inside.ordered p).mpr inside
  dst_copied _ p := inCopied_iff valid.dst_inside.ordered p

@[simp] private theorem shift_self (p a : VkOffset3D) : VkOffset3D.shift p a a = p := by
  simp [VkOffset3D.shift]

private theorem regionLayers_eq {r : VkImageBlit} (single : SingleLayer r) :
    regionLayers r = 1 := by
  simp [regionLayers, single.src]

end Geometry

section Commands

variable {τ : Type} {B : Blitter τ} {format : VkImage → VkFormat}
  {garbage : VkImage → Cell → τ} {g : Gpu τ}

/-- Level 0, layer 0 of one image in another layout. -/
def relayout (g : Gpu τ) (img : VkImage) (layout : VkImageLayout) : Gpu τ :=
  { g with
    layout := Function.update g.layout img
      (Function.update (g.layout img) 0 (Function.update (g.layout img 0) 0 layout)) }

def overwrite (g : Gpu τ) (img : VkImage) (texels : Cell → τ) : Gpu τ :=
  { g with memory := Function.update g.memory img texels }

@[simp] private theorem relayout_memory (img : VkImage) (layout : VkImageLayout) :
    (relayout g img layout).memory = g.memory := rfl

@[simp] private theorem relayout_self (img : VkImage) (layout : VkImageLayout) :
    (relayout g img layout).layout img 0 0 = layout := by
  simp [relayout]

private theorem relayout_of_ne {img other : VkImage} (ne : other ≠ img)
    (layout : VkImageLayout) : (relayout g img layout).layout other = g.layout other := by
  simp [relayout, Function.update_of_ne ne]

@[simp] private theorem overwrite_layout (img : VkImage) (texels : Cell → τ) :
    (overwrite g img texels).layout = g.layout := rfl

@[simp] private theorem overwrite_self (img : VkImage) (texels : Cell → τ) :
    (overwrite g img texels).memory img = texels := by
  simp [overwrite]

private theorem overwrite_of_ne {img other : VkImage} (ne : other ≠ img)
    (texels : Cell → τ) : (overwrite g img texels).memory other = g.memory other := by
  simp [overwrite, Function.update_of_ne ne]

private theorem exec_discard (img : VkImage) (layout : VkImageLayout) (a b : Nat) :
    exec B format garbage g (imageBarrier img .undefined layout a b) =
      some (relayout (overwrite g img (garbage img)) img layout) := by
  simp [exec, imageBarrier, relayout, overwrite]

private theorem exec_barrier {img : VkImage} {old : VkImageLayout} (layout : VkImageLayout)
    (a b : Nat) (defined : old ≠ .undefined) (current : g.layout img 0 0 = old) :
    exec B format garbage g (imageBarrier img old layout a b) = some (relayout g img layout) := by
  simp [exec, imageBarrier, relayout, defined, current]

private theorem exec_copy {src dst : VkImage} {srcLayout dstLayout : VkImageLayout}
    {r : VkImageCopy} (src_ok : g.InLayout src r.srcSubresource srcLayout)
    (dst_ok : g.InLayout dst r.dstSubresource dstLayout) :
    exec B format garbage g (.copyImage src srcLayout dst dstLayout [r]) =
      some (overwrite g dst (copyRegion r (g.memory src) (g.memory dst))) := by
  simp [exec, src_ok, dst_ok, overwrite]

private theorem exec_blit {src dst : VkImage} {srcLayout dstLayout : VkImageLayout}
    {r : VkImageBlit} (filter : VkFilter) (src_ok : g.InLayout src r.srcSubresource srcLayout)
    (dst_ok : g.InLayout dst r.dstSubresource dstLayout)
    (levels : r.srcSubresource.mipLevel = 0 ∧ r.dstSubresource.mipLevel = 0) :
    exec B format garbage g (.blitImage src srcLayout dst dstLayout [r] filter) =
      some (overwrite g dst
        (blitRegion B (format src) (format dst) filter r (g.memory src) (g.memory dst))) := by
  simp [exec, src_ok, dst_ok, levels, overwrite]

private theorem inLayout_scratch {img : VkImage} {sub : VkImageSubresourceLayers}
    {layout : VkImageLayout} (shape : sub.mipLevel = 0 ∧ sub.baseArrayLayer = 0 ∧
      sub.layerCount = 1) (current : g.layout img 0 0 = layout) : g.InLayout img sub layout := by
  intro l small
  obtain rfl : l = 0 := by omega
  rw [shape.1, shape.2.1]
  exact current

private theorem inLayout_congr {g' : Gpu τ} {img : VkImage} {sub : VkImageSubresourceLayers}
    {layout : VkImageLayout} (same : g'.layout img = g.layout img)
    (ok : g.InLayout img sub layout) : g'.InLayout img sub layout := by
  intro l small
  rw [same]
  exact ok l small

end Commands

section Stages

variable {τ : Type} (B : Blitter τ) (format : VkImage → VkFormat)
  (garbage : VkImage → Cell → τ) {g : Gpu τ} {r : VkImageBlit} {src dst : VkImage}
  {srcLayout dstLayout : VkImageLayout} {p : ScratchPair}

/-- The image the intermediate blit reads, and the layout it is read in. -/
def midSrc (src : VkImage) (r : VkImageBlit) (p : ScratchPair) : VkImage :=
  if r.srcSubresource.mipLevel = 0 then src else p.srcImg

/-- The commands that bring a source level to level 0. -/
def stageSrc (src : VkImage) (srcLayout : VkImageLayout) (r : VkImageBlit) (p : ScratchPair) :
    List Command :=
  if r.srcSubresource.mipLevel ≠ 0 then
    [imageBarrier p.srcImg .undefined .transferDstOptimal 0 accessTransferWriteBit,
      .copyImage src srcLayout p.srcImg .transferDstOptimal [copySrc r],
      imageBarrier p.srcImg .transferDstOptimal .transferSrcOptimal accessTransferWriteBit
        accessTransferReadBit]
  else []

private theorem stageSrc_exec (single : SingleLayer r) (apart : p.srcImg ≠ src)
    (readable : g.InLayout src r.srcSubresource srcLayout) :
    ∃ g', execAll B format garbage g (stageSrc src srcLayout r p) = some g' ∧
      (∀ img, img ≠ p.srcImg → g'.memory img = g.memory img ∧ g'.layout img = g.layout img) ∧
      g'.InLayout (midSrc src r p) (midSubresource r.srcSubresource)
        (if r.srcSubresource.mipLevel = 0 then srcLayout else .transferSrcOptimal) ∧
      ∀ q, (r.srcSubresource.mipLevel ≠ 0 → InCopied r.srcOffset0 r.srcOffset1 q) →
        g'.memory (midSrc src r p)
            ⟨0, (midSubresource r.srcSubresource).baseArrayLayer, q⟩ =
          g.memory src ⟨r.srcSubresource.mipLevel, r.srcSubresource.baseArrayLayer, q⟩ := by
  by_cases direct : r.srcSubresource.mipLevel = 0
  · refine ⟨g, by simp [stageSrc, direct, execAll], fun _ _ => ⟨rfl, rfl⟩, ?_, ?_⟩
    · simpa [midSrc, midSubresource, direct, Gpu.InLayout] using readable
    · intro q _
      simp [midSrc, midSubresource, direct]
  · let g₁ := relayout (overwrite g p.srcImg (garbage p.srcImg)) p.srcImg .transferDstOptimal
    let g₂ := overwrite g₁ p.srcImg (copyRegion (copySrc r) (g₁.memory src) (g₁.memory p.srcImg))
    have layers := regionLayers_eq single
    have same_src : g₁.memory src = g.memory src ∧ g₁.layout src = g.layout src :=
      ⟨overwrite_of_ne apart.symm _, relayout_of_ne apart.symm _⟩
    have sub : (copySrc r).srcSubresource = r.srcSubresource := by
      simp [copySrc, layers, ← single.src]
    have copied : exec B format garbage g₁
        (.copyImage src srcLayout p.srcImg .transferDstOptimal [copySrc r]) = some g₂ :=
      exec_copy (sub ▸ inLayout_congr same_src.2 readable)
        (inLayout_scratch ⟨rfl, rfl, layers⟩ (relayout_self _ _))
    refine ⟨relayout g₂ p.srcImg .transferSrcOptimal, ?_, ?_, ?_, ?_⟩
    · have discarded : exec B format garbage g (imageBarrier p.srcImg .undefined
          .transferDstOptimal 0 accessTransferWriteBit) = some g₁ := exec_discard _ _ _ _
      have readied : exec B format garbage g₂ (imageBarrier p.srcImg .transferDstOptimal
          .transferSrcOptimal accessTransferWriteBit accessTransferReadBit) =
            some (relayout g₂ p.srcImg .transferSrcOptimal) :=
        exec_barrier _ _ _ (by decide) (relayout_self _ _)
      simp only [stageSrc, direct, ne_eq, not_false_eq_true, if_true, execAll, discarded, copied,
        readied, Option.bind_some]
    · intro img other
      refine ⟨?_, ?_⟩
      · rw [relayout_memory, overwrite_of_ne other, relayout_memory, overwrite_of_ne other]
      · rw [relayout_of_ne other, overwrite_layout, relayout_of_ne other, overwrite_layout]
    · simp only [midSrc, direct, if_false]
      refine inLayout_scratch ⟨rfl, ?_, single.src⟩ (relayout_self _ _)
      simp [midSubresource, direct]
    · intro q copied
      have target : InLayers (copySrc r).dstSubresource ⟨0, 0, q⟩ ∧
          InBox (copySrc r).dstOffset
            (VkOffset3D.corner (copySrc r).dstOffset (copySrc r).extent) q := by
        refine ⟨⟨rfl, Nat.le_refl 0, ?_⟩, copied direct⟩
        simp [copySrc, layers]
      simp only [midSrc, midSubresource, direct, ne_eq, not_false_eq_true, if_true, if_false,
        relayout_memory, g₂, overwrite_self, copyRegion]
      rw [if_pos target, same_src.1]
      simp [copySrc]

/-- The image the intermediate blit writes. -/
def midDst (dst : VkImage) (r : VkImageBlit) (p : ScratchPair) : VkImage :=
  if r.dstSubresource.mipLevel = 0 then dst else p.dstImg

/-- The command that readies a scratch destination. -/
def readyDst (r : VkImageBlit) (p : ScratchPair) : List Command :=
  if r.dstSubresource.mipLevel ≠ 0 then
    [imageBarrier p.dstImg .undefined .transferDstOptimal 0 accessTransferWriteBit]
  else []

private theorem readyDst_exec (single : SingleLayer r)
    (writable : g.InLayout dst r.dstSubresource dstLayout) :
    ∃ g', execAll B format garbage g (readyDst r p) = some g' ∧
      (∀ img, img ≠ p.dstImg → g'.memory img = g.memory img ∧ g'.layout img = g.layout img) ∧
      g'.InLayout (midDst dst r p) (midSubresource r.dstSubresource)
        (if r.dstSubresource.mipLevel = 0 then dstLayout else .transferDstOptimal) ∧
      (r.dstSubresource.mipLevel ≠ 0 → g'.memory p.dstImg = garbage p.dstImg) := by
  by_cases direct : r.dstSubresource.mipLevel = 0
  · refine ⟨g, by simp [readyDst, direct, execAll], fun _ _ => ⟨rfl, rfl⟩, ?_,
      fun staged => absurd direct staged⟩
    simpa [midDst, midSubresource, direct, Gpu.InLayout] using writable
  · refine ⟨relayout (overwrite g p.dstImg (garbage p.dstImg)) p.dstImg .transferDstOptimal,
      ?_, ?_, ?_, fun _ => overwrite_self _ _⟩
    · simp [readyDst, direct, execAll, exec_discard]
    · intro img other
      exact ⟨overwrite_of_ne other _, relayout_of_ne other _⟩
    · simp only [midDst, direct, if_false]
      refine inLayout_scratch ⟨rfl, ?_, single.dst⟩ (relayout_self _ _)
      simp [midSubresource, direct]

/-- The commands that bring a scratch destination to its level. -/
def unstageDst (dst : VkImage) (dstLayout : VkImageLayout) (r : VkImageBlit)
    (p : ScratchPair) : List Command :=
  if r.dstSubresource.mipLevel ≠ 0 then
    [imageBarrier p.dstImg .transferDstOptimal .transferSrcOptimal accessTransferWriteBit
        accessTransferReadBit,
      .copyImage p.dstImg .transferSrcOptimal dst dstLayout [copyDst r]]
  else []

theorem regionCommands_eq (filter : VkFilter) :
    regionCommands src srcLayout dst dstLayout r filter p =
      stageSrc src srcLayout r p ++ (readyDst r p ++
        ([.blitImage (midSrc src r p)
            (if r.srcSubresource.mipLevel = 0 then srcLayout else .transferSrcOptimal)
            (midDst dst r p)
            (if r.dstSubresource.mipLevel = 0 then dstLayout else .transferDstOptimal)
            [midBlit r] filter] ++ unstageDst dst dstLayout r p)) := by
  simp only [regionCommands, stageSrc, readyDst, unstageDst, midSrc, midDst, List.append_assoc]

private theorem copyDst_subresource (single : SingleLayer r) :
    (copyDst r).dstSubresource = r.dstSubresource := by
  simp [copyDst, regionLayers_eq single, ← single.dst]

private theorem copyRegion_copyDst (single : SingleLayer r) (source target : Cell → τ)
    (c : Cell) :
    copyRegion (copyDst r) source target c =
      if InLayers r.dstSubresource c ∧ InCopied r.dstOffset0 r.dstOffset1 c.pos then
        source ⟨0, c.layer - r.dstSubresource.baseArrayLayer, c.pos⟩
      else target c := by
  simp only [copyRegion, copyDst_subresource single]
  simp only [copyDst, shift_self, Nat.zero_add]
  rfl

private theorem unstageDst_exec (single : SingleLayer r) (apart : p.dstImg ≠ dst)
    (scratch_layout : r.dstSubresource.mipLevel ≠ 0 →
      g.layout p.dstImg 0 0 = .transferDstOptimal)
    (writable : g.InLayout dst r.dstSubresource dstLayout) :
    ∃ g', execAll B format garbage g (unstageDst dst dstLayout r p) = some g' ∧
      g'.memory dst = (if r.dstSubresource.mipLevel = 0 then g.memory dst
        else copyRegion (copyDst r) (g.memory p.dstImg) (g.memory dst)) ∧
      ∀ img, img ≠ p.dstImg → g'.layout img = g.layout img ∧
        (img ≠ dst → g'.memory img = g.memory img) := by
  by_cases direct : r.dstSubresource.mipLevel = 0
  · refine ⟨g, by simp [unstageDst, direct, execAll], ?_, fun _ _ => ⟨rfl, fun _ => rfl⟩⟩
    rw [if_pos direct]
  · let g₁ := relayout g p.dstImg .transferSrcOptimal
    have sub := copyDst_subresource single
    have readied : exec B format garbage g (imageBarrier p.dstImg .transferDstOptimal
        .transferSrcOptimal accessTransferWriteBit accessTransferReadBit) = some g₁ :=
      exec_barrier _ _ _ (by decide) (scratch_layout direct)
    have copied : exec B format garbage g₁
        (.copyImage p.dstImg .transferSrcOptimal dst dstLayout [copyDst r]) =
          some (overwrite g₁ dst (copyRegion (copyDst r) (g₁.memory p.dstImg) (g₁.memory dst))) :=
      exec_copy (inLayout_scratch ⟨rfl, rfl, regionLayers_eq single⟩ (relayout_self _ _))
        (sub ▸ inLayout_congr (relayout_of_ne apart.symm _) writable)
    refine ⟨overwrite g₁ dst (copyRegion (copyDst r) (g₁.memory p.dstImg) (g₁.memory dst)),
      ?_, ?_, fun img other => ⟨?_, fun not_dst => ?_⟩⟩
    · simp only [unstageDst, direct, ne_eq, not_false_eq_true, if_true, execAll, readied, copied,
        Option.bind_some]
    · rw [overwrite_self, if_neg direct]
      rfl
    · rw [overwrite_layout]
      exact relayout_of_ne other _
    · exact overwrite_of_ne not_dst _

/-- The destination afterwards: the intermediate blit goes into it, or into a scratch image
that is copied into it. -/
def delivered (f h : VkFormat) (filter : VkFilter) (r : VkImageBlit)
    (view scratch target : Cell → τ) : Cell → τ :=
  if r.dstSubresource.mipLevel = 0 then blitRegion B f h filter (midBlit r) view target
  else copyRegion (copyDst r) (blitRegion B f h filter (midBlit r) view scratch) target

private theorem inTarget_layer {sub : VkImageSubresourceLayers} {c : Cell}
    (single : sub.layerCount = 1) (inside : InLayers sub c) : c.layer = sub.baseArrayLayer := by
  obtain ⟨-, low, high⟩ := inside
  omega

private theorem blitRegion_single (single : SingleLayer r) (f h : VkFormat)
    (filter : VkFilter) {source target : Cell → τ} {c : Cell} (inside : InTarget r c) :
    blitRegion B f h filter r source target c =
      B.sample f h filter r.srcOffset0 r.srcOffset1 r.dstOffset0 r.dstOffset1
        (fun q => source ⟨r.srcSubresource.mipLevel, r.srcSubresource.baseArrayLayer, q⟩)
        c.pos := by
  have layer : c.layer = r.dstSubresource.baseArrayLayer :=
    inTarget_layer single.dst inside.1
  simp only [blitRegion, inside, if_true, layer, Nat.sub_self, Nat.add_zero]

private theorem blitRegion_mid (single : SingleLayer r) (f h : VkFormat)
    (filter : VkFilter) {view source : Cell → τ} (target : Cell → τ)
    (seen : ∀ q, InBox r.srcOffset0 r.srcOffset1 q →
      view ⟨0, (midSubresource r.srcSubresource).baseArrayLayer, q⟩ =
        source ⟨r.srcSubresource.mipLevel, r.srcSubresource.baseArrayLayer, q⟩)
    {c : Cell} (inside : InTarget (midBlit r) c) :
    blitRegion B f h filter (midBlit r) view target c =
      B.sample f h filter r.srcOffset0 r.srcOffset1 r.dstOffset0 r.dstOffset1
        (fun q => source ⟨r.srcSubresource.mipLevel, r.srcSubresource.baseArrayLayer, q⟩)
        c.pos := by
  have mid : SingleLayer (midBlit r) := ⟨single.src, single.dst⟩
  rw [blitRegion_single B mid f h filter inside]
  exact B.reads_inside _ _ _ _ _ _ _ _ _ _ seen

theorem delivered_eq_blitRegion (staged : Staged r) (f h : VkFormat) (filter : VkFilter)
    {view scratch source target : Cell → τ}
    (seen : ∀ q, InBox r.srcOffset0 r.srcOffset1 q →
      view ⟨0, (midSubresource r.srcSubresource).baseArrayLayer, q⟩ =
        source ⟨r.srcSubresource.mipLevel, r.srcSubresource.baseArrayLayer, q⟩) :
    delivered B f h filter r view scratch target = blitRegion B f h filter r source target := by
  have single := staged.single
  funext c
  unfold delivered
  by_cases direct : r.dstSubresource.mipLevel = 0
  · have same : InTarget (midBlit r) c ↔ InTarget r c := by
      simp [InTarget, InLayers, midBlit, midSubresource, direct]
    rw [if_pos direct]
    by_cases inside : InTarget r c
    · rw [blitRegion_mid B single _ _ _ _ seen (same.mpr inside),
        blitRegion_single B single _ _ _ inside]
    · have outside : ¬ InTarget (midBlit r) c := fun h => inside (same.mp h)
      simp only [blitRegion, inside, outside, if_false]
  · have same : (InLayers r.dstSubresource c ∧ InCopied r.dstOffset0 r.dstOffset1 c.pos) ↔
        InTarget r c := and_congr_right fun _ => staged.dst_copied direct c.pos
    rw [if_neg direct, copyRegion_copyDst single]
    by_cases inside : InTarget r c
    · have layer := inTarget_layer single.dst inside.1
      have mid_target : InTarget (midBlit r) ⟨0, 0, c.pos⟩ := by
        refine ⟨⟨rfl, ?_, ?_⟩, inside.2⟩
        · simp [midBlit, midSubresource, direct]
        · simp [midBlit, midSubresource, direct, single.dst]
      rw [if_pos (same.mpr inside), blitRegion_single B single _ _ _ inside, layer, Nat.sub_self]
      exact blitRegion_mid B single _ _ _ _ seen mid_target
    · rw [if_neg (fun h => inside (same.mp h))]
      simp only [blitRegion, inside, if_false]

theorem delivered_empty (single : SingleLayer r) (f h : VkFormat) (filter : VkFilter)
    (view scratch target : Cell → τ) (staged : r.dstSubresource.mipLevel ≠ 0)
    (empty : ∀ q, ¬ InBox r.dstOffset0 r.dstOffset1 q) :
    delivered B f h filter r view scratch target
        ⟨r.dstSubresource.mipLevel, r.dstSubresource.baseArrayLayer, r.dstOffset0⟩ =
      scratch ⟨0, 0, r.dstOffset0⟩ := by
  have unwritten : ¬ InTarget (midBlit r) ⟨0, 0, r.dstOffset0⟩ := fun inside =>
    empty _ inside.2
  have copied : InLayers r.dstSubresource
        ⟨r.dstSubresource.mipLevel, r.dstSubresource.baseArrayLayer, r.dstOffset0⟩ ∧
      InCopied r.dstOffset0 r.dstOffset1 r.dstOffset0 :=
    ⟨⟨rfl, Nat.le_refl _, by simp [single.dst]⟩, inCopied_start _ _⟩
  rw [delivered, if_neg staged, copyRegion_copyDst single, if_pos copied, Nat.sub_self]
  simp only [blitRegion, unwritten, if_false]

/-- A scratch pair that is nobody else's. -/
structure Apart (src dst : VkImage) (p : ScratchPair) : Prop where
  src_src : p.srcImg ≠ src
  src_dst : p.srcImg ≠ dst
  dst_src : p.dstImg ≠ src
  dst_dst : p.dstImg ≠ dst
  pair : p.srcImg ≠ p.dstImg

/-- What one region's commands deliver, out of what the intermediate blit sees of the source
level; no other image but the scratch is touched. -/
theorem regionCommands_exec (single : SingleLayer r) (filter : VkFilter)
    (apart : Apart src dst p) (same_format : format p.srcImg = format src)
    (readable : g.InLayout src r.srcSubresource srcLayout)
    (writable : g.InLayout dst r.dstSubresource dstLayout) :
    ∃ g' view, execAll B format garbage g
        (regionCommands src srcLayout dst dstLayout r filter p) = some g' ∧
      (∀ q, (r.srcSubresource.mipLevel ≠ 0 → InCopied r.srcOffset0 r.srcOffset1 q) →
        view ⟨0, (midSubresource r.srcSubresource).baseArrayLayer, q⟩ =
          g.memory src ⟨r.srcSubresource.mipLevel, r.srcSubresource.baseArrayLayer, q⟩) ∧
      g'.memory dst = delivered B (format src) (format (midDst dst r p)) filter r view
        (garbage p.dstImg) (g.memory dst) ∧
      ∀ img, img ≠ p.srcImg → img ≠ p.dstImg → g'.layout img = g.layout img ∧
        (img ≠ dst → g'.memory img = g.memory img) := by
  obtain ⟨g₁, staged_run, same₁, src_layout, view₁⟩ :=
    stageSrc_exec B format garbage single apart.src_src readable
  have src_writable : g₁.InLayout dst r.dstSubresource dstLayout :=
    inLayout_congr (same₁ dst apart.src_dst.symm).2 writable
  obtain ⟨g₂, ready_run, same₂, dst_layout, garbled⟩ :=
    readyDst_exec B format garbage single src_writable
  have mid_src_ne : midSrc src r p ≠ p.dstImg := by
    unfold midSrc
    split_ifs
    · exact apart.dst_src.symm
    · exact apart.pair
  have mid_format : format (midSrc src r p) = format src := by
    unfold midSrc
    split_ifs
    · rfl
    · exact same_format
  let g₃ := overwrite g₂ (midDst dst r p) (blitRegion B (format (midSrc src r p))
    (format (midDst dst r p)) filter (midBlit r) (g₂.memory (midSrc src r p))
    (g₂.memory (midDst dst r p)))
  have blit_run : exec B format garbage g₂ (.blitImage (midSrc src r p)
      (if r.srcSubresource.mipLevel = 0 then srcLayout else .transferSrcOptimal)
      (midDst dst r p)
      (if r.dstSubresource.mipLevel = 0 then dstLayout else .transferDstOptimal)
      [midBlit r] filter) = some g₃ :=
    exec_blit filter (inLayout_congr (same₂ _ mid_src_ne).2 src_layout) dst_layout ⟨rfl, rfl⟩
  have scratch_layout : r.dstSubresource.mipLevel ≠ 0 →
      g₃.layout p.dstImg 0 0 = .transferDstOptimal := by
    intro staged
    have one : 0 < (midSubresource r.dstSubresource).layerCount := by
      simp [midSubresource, single.dst]
    have current := dst_layout 0 one
    rw [overwrite_layout]
    simpa [midDst, midSubresource, staged] using current
  have dst_kept : g₂.memory dst = g.memory dst :=
    (same₂ dst apart.dst_dst.symm).1.trans (same₁ dst apart.src_dst.symm).1
  have writable₃ : g₃.InLayout dst r.dstSubresource dstLayout :=
    inLayout_congr (same₂ dst apart.dst_dst.symm).2 src_writable
  obtain ⟨g', unstage_run, result, same₃⟩ :=
    unstageDst_exec B format garbage single apart.dst_dst scratch_layout writable₃
  refine ⟨g', g₂.memory (midSrc src r p), ?_, fun q copied => ?_, ?_,
    fun img not_src not_dst => ⟨?_, fun other => ?_⟩⟩
  · rw [regionCommands_eq, execAll_append, staged_run, Option.bind_some, execAll_append, ready_run,
      Option.bind_some]
    simp only [List.cons_append, List.nil_append, execAll, blit_run, Option.bind_some]
    exact unstage_run
  · rw [(same₂ _ mid_src_ne).1]
    exact view₁ q copied
  · rw [result, delivered, ← mid_format]
    by_cases direct : r.dstSubresource.mipLevel = 0
    · have mid : midDst dst r p = dst := if_pos direct
      rw [if_pos direct, if_pos direct, ← dst_kept]
      simp only [g₃, mid, overwrite_self]
    · have mid : midDst dst r p = p.dstImg := if_neg direct
      rw [if_neg direct, if_neg direct, ← dst_kept, ← garbled direct]
      simp only [g₃, mid, overwrite_self, overwrite_of_ne apart.dst_dst.symm]
  · rw [(same₃ img not_dst).1, overwrite_layout, (same₂ img not_dst).2, (same₁ img not_src).2]
  · have ne : img ≠ midDst dst r p := by
      unfold midDst
      split_ifs
      · exact other
      · exact not_dst
    rw [(same₃ img not_dst).2 other, overwrite_of_ne ne, (same₂ img not_dst).1,
      (same₁ img not_src).1]

end Stages

end XdPlus.Vulkan.MipBlitRegion
