/- Module: XdPlus/Vulkan/GpuImages
   source: vulkan/vkshim.c, the comment on the measured behaviour of vkCmdBlitImage and
     vkCmdCopyImage
   digest: What recorded transfer commands do to images, as far as the blob can be trusted. -/

import XdPlus.Vulkan.Driver

/-!
An image is an array of texels over mip level, layer and position. `vkCmdCopyImage`
moves raw texels at any level. `vkCmdBlitImage` is relied on at level 0 only; what it
computes is a parameter, of which it is known that it reads inside the source region.
-/

set_option autoImplicit false
set_option relaxedAutoImplicit false

namespace XdPlus.Vulkan.GpuImages

open Common Driver

/-- One texel's place in an image. -/
structure Cell where
  level : Nat
  layer : Nat
  pos : VkOffset3D
  deriving DecidableEq, Repr

/-- Between two corners, in whichever order they are given. -/
def InBox (a b p : VkOffset3D) : Prop :=
  (min a.x b.x ≤ p.x ∧ p.x < max a.x b.x) ∧ (min a.y b.y ≤ p.y ∧ p.y < max a.y b.y) ∧
    (min a.z b.z ≤ p.z ∧ p.z < max a.z b.z)

instance (a b p : VkOffset3D) : Decidable (InBox a b p) :=
  inferInstanceAs (Decidable (_ ∧ _ ∧ _))

/-- In one of the layers, and on the level, that `sub` names. -/
def InLayers (sub : VkImageSubresourceLayers) (c : Cell) : Prop :=
  c.level = sub.mipLevel ∧ sub.baseArrayLayer ≤ c.layer ∧
    c.layer < sub.baseArrayLayer + sub.layerCount

instance (sub : VkImageSubresourceLayers) (c : Cell) : Decidable (InLayers sub c) :=
  inferInstanceAs (Decidable (_ ∧ _ ∧ _))

/-- How a blit turns source texels into a destination texel: source and destination
format, filter, the corners of both boxes, the source level, the position asked for. -/
structure Blitter (τ : Type) where
  sample : VkFormat → VkFormat → VkFilter → VkOffset3D → VkOffset3D → VkOffset3D →
    VkOffset3D → (VkOffset3D → τ) → VkOffset3D → τ
  reads_inside : ∀ f g filter s0 s1 d0 d1 view other p,
    (∀ q, InBox s0 s1 q → view q = other q) →
      sample f g filter s0 s1 d0 d1 view p = sample f g filter s0 s1 d0 d1 other p

section Execution

variable {τ : Type}

/-- The texels a region writes. -/
def InTarget (r : VkImageBlit) (c : Cell) : Prop :=
  InLayers r.dstSubresource c ∧ InBox r.dstOffset0 r.dstOffset1 c.pos

instance (r : VkImageBlit) (c : Cell) : Decidable (InTarget r c) :=
  inferInstanceAs (Decidable (_ ∧ _))

/-- The texels a region reads. -/
def InSource (r : VkImageBlit) (c : Cell) : Prop :=
  InLayers r.srcSubresource c ∧ InBox r.srcOffset0 r.srcOffset1 c.pos

/-- One blit region from an image of format `f` into one of format `g`. -/
def blitRegion (B : Blitter τ) (f g : VkFormat) (filter : VkFilter) (r : VkImageBlit)
    (source target : Cell → τ) : Cell → τ := fun c =>
  if InTarget r c then
    B.sample f g filter r.srcOffset0 r.srcOffset1 r.dstOffset0 r.dstOffset1
      (fun q => source ⟨r.srcSubresource.mipLevel,
        r.srcSubresource.baseArrayLayer + (c.layer - r.dstSubresource.baseArrayLayer), q⟩) c.pos
  else target c

def VkOffset3D.shift (p a b : VkOffset3D) : VkOffset3D :=
  ⟨b.x + (p.x - a.x), b.y + (p.y - a.y), b.z + (p.z - a.z)⟩

def VkOffset3D.corner (p : VkOffset3D) (e : VkExtent3D) : VkOffset3D :=
  ⟨p.x + e.width, p.y + e.height, p.z + e.depth⟩

/-- One copy region, raw. -/
def copyRegion (r : VkImageCopy) (source target : Cell → τ) : Cell → τ := fun c =>
  if InLayers r.dstSubresource c ∧
      InBox r.dstOffset (VkOffset3D.corner r.dstOffset r.extent) c.pos then
    source ⟨r.srcSubresource.mipLevel,
      r.srcSubresource.baseArrayLayer + (c.layer - r.dstSubresource.baseArrayLayer),
      VkOffset3D.shift c.pos r.dstOffset r.srcOffset⟩
  else target c

/-- Texels, and the layout each level and layer is in. -/
structure Gpu (τ : Type) where
  memory : VkImage → Cell → τ
  layout : VkImage → Nat → Nat → VkImageLayout

/-- The layers `sub` names are in `layout`. -/
def Gpu.InLayout (g : Gpu τ) (img : VkImage) (sub : VkImageSubresourceLayers)
    (layout : VkImageLayout) : Prop :=
  ∀ l < sub.layerCount, g.layout img sub.mipLevel (sub.baseArrayLayer + l) = layout

instance (g : Gpu τ) (img : VkImage) (sub : VkImageSubresourceLayers) (layout : VkImageLayout) :
    Decidable (g.InLayout img sub layout) :=
  inferInstanceAs (Decidable (∀ l < _, _))

/-- One command. A command that names an image in a layout it is not in, or a blit on a
mip level, gives nothing to rely on. A barrier out of `UNDEFINED` leaves `garbage`. -/
def exec (B : Blitter τ) (format : VkImage → VkFormat) (garbage : VkImage → Cell → τ)
    (g : Gpu τ) : Command → Option (Gpu τ)
  | .pipelineBarrier b =>
      if b.oldLayout = .undefined ∨ g.layout b.image 0 0 = b.oldLayout then
        some
          { memory := if b.oldLayout = .undefined then
              Function.update g.memory b.image (garbage b.image) else g.memory
            layout := Function.update g.layout b.image
              (Function.update (g.layout b.image) 0
                (Function.update (g.layout b.image 0) 0 b.newLayout)) }
      else none
  | .copyImage src srcLayout dst dstLayout regions =>
      if ∀ r ∈ regions, g.InLayout src r.srcSubresource srcLayout ∧
          g.InLayout dst r.dstSubresource dstLayout then
        some { g with
          memory := Function.update g.memory dst
            (regions.foldl (fun target r => copyRegion r (g.memory src) target)
              (g.memory dst)) }
      else none
  | .blitImage src srcLayout dst dstLayout regions filter =>
      if ∀ r ∈ regions, g.InLayout src r.srcSubresource srcLayout ∧
          g.InLayout dst r.dstSubresource dstLayout ∧
          r.srcSubresource.mipLevel = 0 ∧ r.dstSubresource.mipLevel = 0 then
        some { g with
          memory := Function.update g.memory dst
            (regions.foldl (fun target r =>
              blitRegion B (format src) (format dst) filter r (g.memory src) target)
              (g.memory dst)) }
      else none

/-- A recording, from its first command to its last. -/
def execAll (B : Blitter τ) (format : VkImage → VkFormat) (garbage : VkImage → Cell → τ) :
    Gpu τ → List Command → Option (Gpu τ)
  | g, [] => some g
  | g, c :: rest => (exec B format garbage g c).bind fun g => execAll B format garbage g rest

theorem execAll_append (B : Blitter τ) (format : VkImage → VkFormat)
    (garbage : VkImage → Cell → τ) (g : Gpu τ) (first second : List Command) :
    execAll B format garbage g (first ++ second) =
      (execAll B format garbage g first).bind fun g => execAll B format garbage g second := by
  induction first generalizing g with
  | nil => rfl
  | cons c rest ih =>
      simp only [List.cons_append, execAll, Option.bind_assoc]
      congr 1
      funext g'
      exact ih g'

/-- What the application asked for: every region at once, out of the texels before. -/
def requested (B : Blitter τ) (f g : VkFormat) (filter : VkFilter) (regions : List VkImageBlit)
    (source target : Cell → τ) : Cell → τ := fun c =>
  match regions.find? fun r => InTarget r c with
  | some r => blitRegion B f g filter r source target c
  | none => target c

end Execution

end XdPlus.Vulkan.GpuImages
