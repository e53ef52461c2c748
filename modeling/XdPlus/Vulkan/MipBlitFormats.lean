/- Module: XdPlus/Vulkan/MipBlitFormats
   source: vulkan/vkshim.c, emit_emulated_blit, get_scratch_pair
   digest: When a rewritten blit between two formats still converts. -/

import XdPlus.Vulkan.MipBlitBounds
import XdPlus.Vulkan.MipBlitMeaning

/-!
Both scratch images take the source's format, so a staged destination receives texels
encoded for the source: the blit into the scratch does not convert, and the copy out of
it is raw.
-/

set_option autoImplicit false
set_option relaxedAutoImplicit false

namespace XdPlus.Vulkan.MipBlitFormats

open XdPlus.Base Common Driver CommandBufferTable ImageTable MipBlit GpuImages MipBlitRegion
open MipBlitRecording MipBlitMeaning MipBlitBounds

/-- A level-0 blit that converts: texels `τ` are read as colours `χ`, these are resampled,
and the result is written in the destination's format. -/
structure Conversion (τ χ : Type) where
  decode : VkFormat → τ → χ
  encode : VkFormat → χ → τ
  resample : VkFilter → VkOffset3D → VkOffset3D → VkOffset3D → VkOffset3D →
    (VkOffset3D → χ) → VkOffset3D → χ
  reads_inside : ∀ filter s0 s1 d0 d1 view other p,
    (∀ q, InBox s0 s1 q → view q = other q) →
      resample filter s0 s1 d0 d1 view p = resample filter s0 s1 d0 d1 other p

section Conversion

variable {τ χ : Type}

def Conversion.blitter (C : Conversion τ χ) : Blitter τ where
  sample f g filter s0 s1 d0 d1 view p :=
    C.encode g (C.resample filter s0 s1 d0 d1 (fun q => C.decode f (view q)) p)
  reads_inside := by
    intro f g filter s0 s1 d0 d1 view other p same
    refine congrArg (C.encode g) (C.reads_inside _ _ _ _ _ _ _ _ fun q inside => ?_)
    rw [same q inside]

/-- The colour that belongs at a texel of the destination. -/
def Conversion.colour (C : Conversion τ χ) (f : VkFormat) (filter : VkFilter) (r : VkImageBlit)
    (source : Cell → τ) (c : Cell) : χ :=
  C.resample filter r.srcOffset0 r.srcOffset1 r.dstOffset0 r.dstOffset1
    (fun q => C.decode f (source ⟨r.srcSubresource.mipLevel,
      r.srcSubresource.baseArrayLayer + (c.layer - r.dstSubresource.baseArrayLayer), q⟩)) c.pos

theorem blitRegion_blitter (C : Conversion τ χ) (f g : VkFormat) (filter : VkFilter)
    (r : VkImageBlit) (source target : Cell → τ) (c : Cell) :
    blitRegion C.blitter f g filter r source target c =
      if InTarget r c then C.encode g (C.colour f filter r source c) else target c := rfl

/-- Two blits out of one format write the same where their formats store the blitted
colours alike. -/
theorem blitRegion_eq_iff (C : Conversion τ χ) (f g h : VkFormat) (filter : VkFilter)
    (r : VkImageBlit) (source target : Cell → τ) :
    blitRegion C.blitter f g filter r source target =
        blitRegion C.blitter f h filter r source target ↔
      ∀ c, InTarget r c → C.encode g (C.colour f filter r source c) =
        C.encode h (C.colour f filter r source c) := by
  constructor
  · intro same c inside
    have at_c := congrFun same c
    simpa only [blitRegion_blitter, inside, if_true] using at_c
  · intro alike
    funext c
    simp only [blitRegion_blitter]
    split_ifs with inside
    · exact alike c inside
    · rfl

end Conversion

section Boxes

variable {a b : VkOffset3D} {level : VkExtent3D}

/-- Corners in order on every axis. -/
def InOrder (a b : VkOffset3D) : Prop := a.x < b.x ∧ a.y < b.y ∧ a.z < b.z

private theorem InOrder.ordered (order : InOrder a b) (small : InUint32 level)
    (first : CornerInside level a) (second : CornerInside level b) : BoxOrdered a b := by
  have axis {x y : Int} {size : Nat} (lt : x < y) (small : size < 2 ^ 32)
      (first : SpanInside x 0 size) (second : SpanInside y 0 size) : AxisOrdered x y := by
    obtain ⟨low, -⟩ := first
    obtain ⟨-, high⟩ := second
    exact ⟨lt, by omega⟩
  exact ⟨axis order.1 small.1 first.1 second.1, axis order.2.1 small.2.1 first.2.1 second.2.1,
    axis order.2.2 small.2.2 first.2.2 second.2.2⟩

private theorem inOrder_of_staged (staged : BoxStaged a b level) {p : VkOffset3D}
    (inside : InBox a b p) : InOrder a b := by
  have axis {x y q : Int} {size : Nat} (staged : AxisStaged x y size)
      (inside : min x y ≤ q ∧ q < max x y) : x < y := by
    rcases staged with order | ⟨rfl, -⟩
    · exact order
    · omega
  exact ⟨axis staged.1 inside.1, axis staged.2.1 inside.2.1, axis staged.2.2 inside.2.2⟩

private theorem empty_of_not_inOrder (staged : BoxStaged a b level)
    (disorder : ¬ InOrder a b) (p : VkOffset3D) : ¬ InBox a b p :=
  fun inside => disorder (inOrder_of_staged staged inside)

private theorem staged_of_inOrder (order : InOrder a b) : BoxStaged a b level :=
  ⟨.inl order.1, .inl order.2.1, .inl order.2.2⟩

end Boxes

section Rewritten

variable {τ χ : Type} {t t' : CbTable} {w w' : Recording} {cb : VkCommandBuffer} {dev : VkDevice}
  {src dst : VkImage} {srcLayout dstLayout : VkImageLayout} {srcInfo dstInfo : ImgInfo}
  {r : VkImageBlit} {filter : VkFilter} {memProps : VkPhysicalDeviceMemoryProperties}

/-- What has gone into `cb` between `w` and `w'` stays inside its images and leaves the
destination as the blit that was asked for would: the source converted to the destination's
format. -/
def Converted (C : Conversion τ χ) (cb : VkCommandBuffer) (w w' : Recording) (src : VkImage)
    (srcInfo : ImgInfo) (dst : VkImage) (dstInfo : ImgInfo) (r : VkImageBlit)
    (filter : VkFilter) (g : Gpu τ) : Prop :=
  ∃ cmds, Adds cb cmds w w' ∧ (∀ c ∈ cmds, CommandInside w'.images c) ∧
    ∀ format garbage, Formats w' format →
      ∃ g', execAll C.blitter format garbage g cmds = some g' ∧
        g'.memory dst = blitRegion C.blitter srcInfo.format dstInfo.format filter r
          (g.memory src) (g.memory dst)

/-- The image as it was created, and what the table says of it. -/
structure Describes (w : Recording) (img : VkImage) (ci : VkImageCreateInfo) (info : ImgInfo) :
    Prop where
  live : w.images img = some ci
  format : ci.format = info.format
  extent : ci.extent = info.extent

theorem Describes.tracked {img : VkImage} {ci : VkImageCreateInfo} {info : ImgInfo}
    (described : Describes w img ci info) : Tracked w img info :=
  ⟨ci, described.live, described.format, described.extent⟩

section Pair

variable (C : Conversion τ χ) {srcCi dstCi : VkImageCreateInfo} {p : ScratchPair}
  (pair : NewPair w w' p srcInfo.format (levelExt srcInfo.extent r.srcSubresource.mipLevel)
    (levelExt dstInfo.extent r.dstSubresource.mipLevel))
  (adds : Adds cb (regionCommands src srcLayout dst dstLayout r filter p) w w')
  (from_src : Describes w src srcCi srcInfo) (into_dst : Describes w dst dstCi dstInfo)

include pair from_src into_dst in
private theorem inside_iff (ok : Acceptable srcCi dstCi r) (mip : namesMip r = true) :
    (∀ c ∈ regionCommands src srcLayout dst dstLayout r filter p, CommandInside w'.images c) ↔
      Stageable srcCi.extent dstCi.extent r :=
  regionCommands_inside_iff ok mip (pair.grown _ _ from_src.live) (pair.grown _ _ into_dst.live)
    (from_src.extent ▸ pair.src_made) (into_dst.extent ▸ pair.dst_made)

include pair adds from_src into_dst in
private theorem converted_iff_alike (staged : Staged r)
    (inside : ∀ c ∈ regionCommands src srcLayout dst dstLayout r filter p,
      CommandInside w'.images c) {g : Gpu τ}
    (layouts : LayoutsFor g src srcLayout dst dstLayout r) :
    Converted C cb w w' src srcInfo dst dstInfo r filter g ↔
      blitRegion C.blitter srcInfo.format (writtenFormat srcInfo dstInfo r) filter r
          (g.memory src) (g.memory dst) =
        blitRegion C.blitter srcInfo.format dstInfo.format filter r
          (g.memory src) (g.memory dst) := by
  have performs : ∀ format garbage, Formats w' format → ∃ g',
      execAll C.blitter format garbage g
          (regionCommands src srcLayout dst dstLayout r filter p) = some g' ∧
        g'.memory dst = blitRegion C.blitter srcInfo.format (writtenFormat srcInfo dstInfo r)
          filter r (g.memory src) (g.memory dst) := by
    intro format garbage formats
    obtain ⟨g', view, run, seen, result, -⟩ := regionCommands_performs C.blitter pair
      staged.single filter from_src.tracked into_dst.tracked layouts garbage formats
    refine ⟨g', run, result.trans ?_⟩
    exact delivered_eq_blitRegion C.blitter staged _ _ _ fun q in_box =>
      seen q fun level => staged.src_copied level q in_box
  constructor
  · rintro ⟨cmds, adds', -, converted⟩
    obtain rfl := adds.unique adds'
    obtain ⟨g', run', result'⟩ :=
      converted (createdFormat w') g.memory (formats_createdFormat w')
    obtain ⟨g'', run, result⟩ := performs (createdFormat w') g.memory (formats_createdFormat w')
    obtain rfl : g' = g'' := Option.some.inj (run'.symm.trans run)
    exact result.symm.trans result'
  · intro same
    refine ⟨_, adds, inside, fun format garbage formats => ?_⟩
    obtain ⟨g', run, result⟩ := performs format garbage formats
    exact ⟨g', run, result.trans same⟩

include pair adds from_src into_dst in
/-- Where a staged destination's box is empty, a texel of the scratch image is written all the
same, whatever it holds. -/
private theorem not_converted_of_empty [Nontrivial τ] (single : SingleLayer r)
    (level : r.dstSubresource.mipLevel ≠ 0) (empty : ∀ q, ¬ InBox r.dstOffset0 r.dstOffset1 q)
    {g : Gpu τ} (layouts : LayoutsFor g src srcLayout dst dstLayout r) :
    ¬ Converted C cb w w' src srcInfo dst dstInfo r filter g := by
  rintro ⟨cmds, adds', -, converted⟩
  obtain rfl := adds.unique adds'
  let c : Cell := ⟨r.dstSubresource.mipLevel, r.dstSubresource.baseArrayLayer, r.dstOffset0⟩
  obtain ⟨texel, other⟩ := exists_ne (g.memory dst c)
  obtain ⟨g', run', result'⟩ :=
    converted (createdFormat w') (fun _ _ => texel) (formats_createdFormat w')
  obtain ⟨g'', view, run, -, result, -⟩ := regionCommands_performs C.blitter pair single filter
    from_src.tracked into_dst.tracked layouts (fun _ _ => texel) (formats_createdFormat w')
  obtain rfl : g' = g'' := Option.some.inj (run'.symm.trans run)
  have written : g'.memory dst c = texel := by
    rw [result]
    exact delivered_empty C.blitter single _ _ _ _ _ _ level empty
  have asked : g'.memory dst c = g.memory dst c := by
    rw [result', blitRegion, if_neg fun target => empty _ target.2]
  exact other (written.symm.trans asked)

end Pair

/-- A rewritten blit between two formats converts exactly where every end on a mip level has its
box in order, or a source an empty one short of the edge, and the destination is level 0 or
the formats store the blitted colours in the same bits. -/
theorem converted_iff [Nontrivial τ] (C : Conversion τ χ) {srcCi dstCi : VkImageCreateInfo}
    (tracked : cbToDevice t cb ≠ 0) (from_src : Describes w src srcCi srcInfo)
    (into_dst : Describes w dst dstCi dstInfo) (ok : Acceptable srcCi dstCi r)
    (one : r.srcSubresource.layerCount = 1) (mip : namesMip r = true)
    (run : (emitEmulatedBlit t cb dev src srcLayout dst dstLayout r filter memProps srcInfo
      dstInfo).Runs serving w t' w')
    (g : Gpu τ) (layouts : LayoutsFor g src srcLayout dst dstLayout r) :
    Converted C cb w w' src srcInfo dst dstInfo r filter g ↔
      (r.srcSubresource.mipLevel ≠ 0 → BoxStaged r.srcOffset0 r.srcOffset1
        (levelExt srcCi.extent r.srcSubresource.mipLevel)) ∧
      (r.dstSubresource.mipLevel ≠ 0 → InOrder r.dstOffset0 r.dstOffset1) ∧
      (r.dstSubresource.mipLevel = 0 ∨
        ∀ c, InTarget r c →
          C.encode srcInfo.format (C.colour srcInfo.format filter r (g.memory src) c) =
            C.encode dstInfo.format (C.colour srcInfo.format filter r (g.memory src) c)) := by
  obtain ⟨i, found, -⟩ := slotFor_of_device tracked
  have single : SingleLayer r := ⟨one, ok.same_layers.trans one⟩
  obtain ⟨p, pair, adds⟩ : ∃ p, NewPair w w' p srcInfo.format
      (levelExt srcInfo.extent r.srcSubresource.mipLevel)
      (levelExt dstInfo.extent r.dstSubresource.mipLevel) ∧
      Adds cb (regionCommands src srcLayout dst dstLayout r filter p) w w' := by
    refine ((ensures_emitEmulatedBlit t).of_runs run).resolve_left ?_
    simp [found]
  have bounds : (∀ c ∈ regionCommands src srcLayout dst dstLayout r filter p,
      CommandInside w'.images c) ↔ Stageable srcCi.extent dstCi.extent r :=
    inside_iff pair from_src into_dst ok mip
  have copies (src_box : r.srcSubresource.mipLevel ≠ 0 → BoxStaged r.srcOffset0 r.srcOffset1
      (levelExt srcCi.extent r.srcSubresource.mipLevel))
      (dst_order : r.dstSubresource.mipLevel ≠ 0 → InOrder r.dstOffset0 r.dstOffset1) :
      Staged r := by
    refine ⟨single, fun level q inside => ?_, fun level => inCopied_iff ?_⟩
    · have order := inOrder_of_staged (src_box level) inside
      exact (inCopied_iff (order.ordered (levelExt_lt _ ok.src_extent) ok.src_inside.2.1
        ok.src_inside.2.2) q).mpr inside
    · exact (dst_order level).ordered (levelExt_lt _ ok.dst_extent) ok.dst_inside.2.1
        ok.dst_inside.2.2
  have formats_left : (blitRegion C.blitter srcInfo.format (writtenFormat srcInfo dstInfo r)
        filter r (g.memory src) (g.memory dst) =
      blitRegion C.blitter srcInfo.format dstInfo.format filter r (g.memory src)
        (g.memory dst)) ↔ (r.dstSubresource.mipLevel = 0 ∨
        ∀ c, InTarget r c →
          C.encode srcInfo.format (C.colour srcInfo.format filter r (g.memory src) c) =
            C.encode dstInfo.format (C.colour srcInfo.format filter r (g.memory src) c)) := by
    rw [blitRegion_eq_iff]
    by_cases level : r.dstSubresource.mipLevel = 0 <;> simp [writtenFormat, level]
  constructor
  · intro converted
    obtain ⟨cmds, adds', inside, -⟩ := id converted
    obtain rfl := adds.unique adds'
    have stageable := bounds.mp inside
    have dst_order (level : r.dstSubresource.mipLevel ≠ 0) :
        InOrder r.dstOffset0 r.dstOffset1 := by
      by_contra disorder
      exact not_converted_of_empty C pair adds from_src into_dst single level
        (empty_of_not_inOrder (stageable.dst_box level) disorder) layouts converted
    refine ⟨stageable.src_box, dst_order, formats_left.mp ?_⟩
    exact (converted_iff_alike C pair adds from_src into_dst
      (copies stageable.src_box dst_order) inside layouts).mp converted
  · rintro ⟨src_box, dst_order, formats⟩
    have inside := bounds.mpr ⟨one, src_box, fun level => staged_of_inOrder (dst_order level)⟩
    exact (converted_iff_alike C pair adds from_src into_dst (copies src_box dst_order) inside
      layouts).mpr (formats_left.mpr formats)

end Rewritten

/-! A 4 by 4 RGBA image into a 4 by 4 BGRA one. -/

section ByteOrder

structure Texel where
  b0 : Nat
  b1 : Nat
  b2 : Nat
  b3 : Nat
  deriving DecidableEq, Repr

structure Colour where
  red : Nat
  green : Nat
  blue : Nat
  alpha : Nat
  deriving DecidableEq, Repr

/-- `VK_FORMAT_R8G8B8A8_UNORM`. -/
def r8g8b8a8 : VkFormat := 37

/-- `VK_FORMAT_B8G8R8A8_UNORM`. -/
def b8g8r8a8 : VkFormat := 44

/-- The two byte orders, and a blit that takes the corner of its source. -/
def byteOrder : Conversion Texel Colour where
  decode f x := if f = b8g8r8a8 then ⟨x.b2, x.b1, x.b0, x.b3⟩ else ⟨x.b0, x.b1, x.b2, x.b3⟩
  encode f c := if f = b8g8r8a8 then ⟨c.blue, c.green, c.red, c.alpha⟩
    else ⟨c.red, c.green, c.blue, c.alpha⟩
  resample _ s0 s1 _ _ view _ := if InBox s0 s1 s0 then view s0 else ⟨0, 0, 0, 0⟩
  reads_inside := by
    intro filter s0 s1 d0 d1 view other p same
    by_cases inside : InBox s0 s1 s0
    · simp [inside, same s0 inside]
    · simp [inside]

def rgbaImage : VkImageCreateInfo := ⟨.type2D, r8g8b8a8, ⟨4, 4, 1⟩, 3, 1, 7, .undefined⟩

def bgraImage : VkImageCreateInfo := ⟨.type2D, b8g8r8a8, ⟨4, 4, 1⟩, 3, 1, 7, .undefined⟩

/-- Image 10 is RGBA, image 11 is BGRA. -/
def twoFormats : Recording where
  images img := if img = 10 then some rgbaImage else if img = 11 then some bgraImage else none
  recorded _ := []

def rgbaInfo : ImgInfo := ⟨10, r8g8b8a8, ⟨4, 4, 1⟩, 1, 1, true⟩

def bgraInfo : ImgInfo := ⟨11, b8g8r8a8, ⟨4, 4, 1⟩, 1, 1, true⟩

/-- One texel of image 10 into image 11, from one level into another, to the right or
mirrored. -/
def blitTexel (srcLevel dstLevel : Nat) (x0 x1 : Int) : VkImageBlit where
  srcSubresource := ⟨1, srcLevel, 0, 1⟩
  srcOffset0 := ⟨0, 0, 0⟩
  srcOffset1 := ⟨1, 1, 1⟩
  dstSubresource := ⟨1, dstLevel, 0, 1⟩
  dstOffset0 := ⟨x0, 0, 0⟩
  dstOffset1 := ⟨x1, 1, 1⟩

def emitBlitTexel (t : CbTable) (region : VkImageBlit) : Shim CbTable :=
  emitEmulatedBlit t 5 1 10 .transferSrcOptimal 11 .transferDstOptimal region .nearest [1]
    rgbaInfo bgraInfo

/-- Every texel holds the bytes 1, 2, 3, 4. -/
def uniformGpu : Gpu Texel where
  memory _ _ := ⟨1, 2, 3, 4⟩
  layout img _ _ := if img = 10 then .transferSrcOptimal else .transferDstOptimal

private theorem twoFormats_unbounded : Unbounded twoFormats := by
  intro n
  refine ⟨max n 11 + 1, by omega, ?_⟩
  have not_rgba : max n 11 + 1 ≠ 10 := by omega
  have not_bgra : max n 11 + 1 ≠ 11 := by omega
  simp only [twoFormats, if_neg not_rgba, if_neg not_bgra]

private theorem rgba_described : Describes twoFormats 10 rgbaImage rgbaInfo := ⟨rfl, rfl, rfl⟩

private theorem bgra_described : Describes twoFormats 11 bgraImage bgraInfo := ⟨rfl, rfl, rfl⟩

private theorem blitTexel_layouts (region : VkImageBlit) :
    LayoutsFor uniformGpu 10 .transferSrcOptimal 11 .transferDstOptimal region :=
  ⟨fun _ _ => rfl, fun _ _ => rfl⟩

private theorem texel_nontrivial : Nontrivial Texel :=
  ⟨⟨0, 0, 0, 0⟩, ⟨1, 0, 0, 0⟩, by decide⟩

/-- Out of level 1 into level 0 the bytes are swapped, mirrored as the blit may be. -/
theorem converted_into_base :
    ∃ t' w', (emitBlitTexel oneBuffer (blitTexel 1 0 1 0)).Runs serving twoFormats t' w' ∧
      Converted byteOrder 5 twoFormats w' 10 rgbaInfo 11 bgraInfo (blitTexel 1 0 1 0) .nearest
        uniformGpu := by
  have := texel_nontrivial
  obtain ⟨t, t_eq⟩ : ∃ t, t = oneBuffer := ⟨_, rfl⟩
  have tracked : cbToDevice t 5 ≠ 0 := by rw [t_eq]; decide +kernel
  have ok : Acceptable rgbaImage bgraImage (blitTexel 1 0 1 0) := by
    refine ⟨⟨?_, ?_, ?_⟩, ⟨?_, ?_, ?_⟩, ?_, ?_, rfl, ?_⟩ <;>
      simp [LayersInside, CornerInside, AreaInside, SpanInside, rgbaImage, bgraImage, blitTexel,
        levelExt, mipExt, InUint32]
  rw [← t_eq]
  obtain ⟨t', w', run, -⟩ := serving_runs (emitBlitTexel t (blitTexel 1 0 1 0))
    twoFormats_unbounded
  refine ⟨t', w', run, (converted_iff byteOrder tracked rgba_described bgra_described
    ok rfl (by decide) run uniformGpu (blitTexel_layouts _)).mpr ⟨fun _ => ?_, ?_, .inl rfl⟩⟩
  · simp [BoxStaged, AxisStaged, blitTexel]
  · exact fun level => absurd rfl level

/-- Out of level 0 into level 1 they are not. -/
theorem converted_fails_into_mip :
    Acceptable rgbaImage bgraImage (blitTexel 0 1 0 1) ∧
      ∃ t' w', (emitBlitTexel oneBuffer (blitTexel 0 1 0 1)).Runs serving twoFormats t' w' ∧
        ¬ Converted byteOrder 5 twoFormats w' 10 rgbaInfo 11 bgraInfo (blitTexel 0 1 0 1)
          .nearest uniformGpu := by
  have ok : Acceptable rgbaImage bgraImage (blitTexel 0 1 0 1) := by
    refine ⟨⟨?_, ?_, ?_⟩, ⟨?_, ?_, ?_⟩, ?_, ?_, rfl, ?_⟩ <;>
      simp [LayersInside, CornerInside, AreaInside, SpanInside, rgbaImage, bgraImage, blitTexel,
        levelExt, mipExt, InUint32]
  obtain ⟨t, t_eq⟩ : ∃ t, t = oneBuffer := ⟨_, rfl⟩
  have tracked : cbToDevice t 5 ≠ 0 := by rw [t_eq]; decide +kernel
  rw [← t_eq]
  obtain ⟨t', w', run, -⟩ := serving_runs (emitBlitTexel t (blitTexel 0 1 0 1))
    twoFormats_unbounded
  refine ⟨ok, t', w', run, fun converted => ?_⟩
  obtain ⟨i, found, -⟩ := slotFor_of_device tracked
  obtain ⟨p, pair, adds⟩ := ((ensures_emitEmulatedBlit t).of_runs run).resolve_left
    (by simp [found])
  obtain ⟨cmds, adds', inside, -⟩ := id converted
  obtain rfl := adds.unique adds'
  have staged : Staged (blitTexel 0 1 0 1) :=
    ⟨⟨rfl, rfl⟩, fun level => absurd rfl level,
      fun _ => inCopied_iff (by simp [BoxOrdered, AxisOrdered, blitTexel])⟩
  have same := (converted_iff_alike byteOrder pair adds rgba_described bgra_described staged
    inside (blitTexel_layouts _)).mp converted
  have texel := congrFun same ⟨1, 0, ⟨0, 0, 0⟩⟩
  revert texel
  decide

end ByteOrder

end XdPlus.Vulkan.MipBlitFormats
