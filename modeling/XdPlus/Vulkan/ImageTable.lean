/- Module: XdPlus/Vulkan/ImageTable
   source: vulkan/vkshim.c, find_img, remember_img, forget_img and the image hooks
   digest: The table of live image metadata. -/

import XdPlus.Base.SlotTable
import XdPlus.Vulkan.Driver

set_option autoImplicit false
set_option relaxedAutoImplicit false

namespace XdPlus.Vulkan.ImageTable

open XdPlus.Base Common Driver

def imgTableMax : Nat := 1024

structure ImgInfo where
  img : VkImage
  format : VkFormat
  extent : VkExtent3D
  arrayLayers : Nat
  aspect : Nat
  used : Bool
  deriving DecidableEq, Repr

abbrev ImgTable := Fin imgTableMax → ImgInfo

def ImgInfo.zero : ImgInfo := ⟨0, 0, ⟨0, 0, 0⟩, 0, 0, false⟩

def ImgTable.zero : ImgTable := fun _ => ImgInfo.zero

/-- `VK_IMAGE_ASPECT_COLOR_BIT`. -/
def imageAspectColorBit : Nat := 1

def findImg (t : ImgTable) (img : VkImage) : Option ImgInfo :=
  (firstIndex fun i => (t i).used && (t i).img == img).map t

def rememberImg (t : ImgTable) (img : VkImage) (format : VkFormat) (extent : VkExtent3D)
    (arrayLayers : Nat) : ImgTable :=
  match firstIndex fun i => !(t i).used with
  | none => t
  | some slot =>
      Function.update t slot ⟨img, format, extent, arrayLayers, imageAspectColorBit, true⟩

def forgetImg (t : ImgTable) (img : VkImage) : ImgTable :=
  match firstIndex fun i => (t i).used && (t i).img == img with
  | none => t
  | some i => Function.update t i { t i with used := false }

def shimCreateImage (t : ImgTable) (dev : VkDevice) (ci : VkImageCreateInfo) :
    Shim (Option VkImage × ImgTable) := do
  match ← Shim.call (.createImage dev ci) with
  | none => return (none, t)
  | some img => return (some img, rememberImg t img ci.format ci.extent ci.arrayLayers)

def shimDestroyImage (t : ImgTable) (dev : VkDevice) (img : VkImage) : Shim ImgTable := do
  let t := forgetImg t img
  Shim.call (.destroyImage dev img)
  return t

end XdPlus.Vulkan.ImageTable
