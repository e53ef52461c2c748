/- Module: XdPlus/Vulkan/Driver
   source: vulkan/vkshim.c, the real_* pointers and the C library calls around them
   digest: Everything the shim asks of the blob, the kernel and bionic, as one type of call. -/

import XdPlus.Base.Program
import XdPlus.Vulkan.Common

set_option autoImplicit false
set_option relaxedAutoImplicit false

namespace XdPlus.Vulkan.Driver

open XdPlus.Base Common

abbrev VkFormat := Nat

/-- `uint32_t` on every axis. -/
structure VkExtent3D where
  width : Nat
  height : Nat
  depth : Nat
  deriving DecidableEq, Repr

/-- `int32_t` on every axis. -/
structure VkOffset3D where
  x : Int
  y : Int
  z : Int
  deriving DecidableEq, Repr

structure VkImageSubresourceLayers where
  aspectMask : Nat
  mipLevel : Nat
  baseArrayLayer : Nat
  layerCount : Nat
  deriving DecidableEq, Repr

structure VkImageBlit where
  srcSubresource : VkImageSubresourceLayers
  srcOffset0 : VkOffset3D
  srcOffset1 : VkOffset3D
  dstSubresource : VkImageSubresourceLayers
  dstOffset0 : VkOffset3D
  dstOffset1 : VkOffset3D
  deriving DecidableEq, Repr

structure VkImageCopy where
  srcSubresource : VkImageSubresourceLayers
  srcOffset : VkOffset3D
  dstSubresource : VkImageSubresourceLayers
  dstOffset : VkOffset3D
  extent : VkExtent3D
  deriving DecidableEq, Repr

inductive VkImageLayout where
  | undefined
  | general
  | transferSrcOptimal
  | transferDstOptimal
  | other (code : Nat)
  deriving DecidableEq, Repr

inductive VkFilter where
  | nearest
  | linear
  deriving DecidableEq, Repr

inductive VkImageType where
  | type1D
  | type2D
  | type3D
  deriving DecidableEq, Repr

structure VkImageCreateInfo where
  imageType : VkImageType
  format : VkFormat
  extent : VkExtent3D
  mipLevels : Nat
  arrayLayers : Nat
  usage : Nat
  initialLayout : VkImageLayout
  deriving DecidableEq, Repr

structure VkMemoryRequirements where
  size : Nat
  memoryTypeBits : Nat
  deriving DecidableEq, Repr, Inhabited

/-- `memoryTypes[i].propertyFlags` for `i < memoryTypeCount`. -/
abbrev VkPhysicalDeviceMemoryProperties := List Nat

/-- A transfer-to-transfer barrier on level 0, layer 0. -/
structure VkImageMemoryBarrier where
  image : VkImage
  oldLayout : VkImageLayout
  newLayout : VkImageLayout
  srcAccessMask : Nat
  dstAccessMask : Nat
  deriving DecidableEq, Repr

/-- What ends up in a command buffer. -/
inductive Command where
  | pipelineBarrier (b : VkImageMemoryBarrier)
  | copyImage (src : VkImage) (srcLayout : VkImageLayout) (dst : VkImage)
      (dstLayout : VkImageLayout) (regions : List VkImageCopy)
  | blitImage (src : VkImage) (srcLayout : VkImageLayout) (dst : VkImage)
      (dstLayout : VkImageLayout) (regions : List VkImageBlit) (filter : VkFilter)
  deriving DecidableEq, Repr

/-- Who asked for a pipeline cache. The driver is not told; the ledgers are. -/
inductive Owner where
  | shim
  | app
  deriving DecidableEq, Repr

abbrev Bytes := List UInt8

inductive Call where
  | createDevice
  | destroyDevice (dev : VkDevice)
  | createImage (dev : VkDevice) (ici : VkImageCreateInfo)
  | getImageMemoryRequirements (dev : VkDevice) (img : VkImage)
  | allocateMemory (dev : VkDevice) (allocationSize memoryTypeIndex : Nat)
  | bindImageMemory (dev : VkDevice) (img : VkImage) (mem : VkDeviceMemory)
  | destroyImage (dev : VkDevice) (img : VkImage)
  | freeMemory (dev : VkDevice) (mem : VkDeviceMemory)
  | record (cb : VkCommandBuffer) (c : Command)
  | allocateCommandBuffers (dev : VkDevice) (pool : VkCommandPool) (commandBufferCount : Nat)
  | beginCommandBuffer (cb : VkCommandBuffer)
  | resetCommandBuffer (cb : VkCommandBuffer)
  | freeCommandBuffers (dev : VkDevice) (pool : VkCommandPool) (cbs : List VkCommandBuffer)
  | resetCommandPool (dev : VkDevice) (pool : VkCommandPool)
  | destroyCommandPool (dev : VkDevice) (pool : VkCommandPool)
  | createPipelineCache (owner : Owner) (dev : VkDevice) (initialData : Bytes)
  | mergePipelineCaches (dev : VkDevice) (dst : VkPipelineCache) (srcs : List VkPipelineCache)
  | getPipelineCacheSize (dev : VkDevice) (pc : VkPipelineCache)
  | getPipelineCacheData (dev : VkDevice) (pc : VkPipelineCache) (size : Nat)
  | destroyPipelineCache (dev : VkDevice) (pc : VkPipelineCache)
  | createPipelines (dev : VkDevice) (cache : VkPipelineCache) (n : Nat)
  | malloc (size : Nat)
  | nowNs
  | getuid
  | systemPropertyGet (name : String)
  | systemPropertySet (name value : String)
  | openRead (path : String)
  | openWrite (path : String)
  | fstatSize (fd : Nat)
  | read (fd : Nat) (room : Nat)
  | write (fd : Nat) (data : Bytes)
  | close (fd : Nat)
  | rename (old new : String)
  | unlink (path : String)
  deriving DecidableEq, Repr

/-- `none` is a failed call; an output handle is untouched then. Calls whose result the
shim ignores, or only logs, answer nothing. -/
abbrev Answer : Call → Type
  | .createDevice => Option VkDevice
  | .createImage .. => Option VkImage
  | .getImageMemoryRequirements .. => VkMemoryRequirements
  | .allocateMemory .. => Option VkDeviceMemory
  | .allocateCommandBuffers .. => Option (List VkCommandBuffer)
  | .beginCommandBuffer .. => VkResult
  | .resetCommandBuffer .. => VkResult
  | .resetCommandPool .. => VkResult
  | .createPipelineCache .. => Option VkPipelineCache
  | .mergePipelineCaches .. => VkResult
  | .getPipelineCacheSize .. => VkResult × Nat
  | .getPipelineCacheData .. => VkResult × Bytes
  | .createPipelines .. => VkResult
  | .malloc _ => Bool
  | .nowNs => Nat
  | .getuid => Nat
  | .systemPropertyGet _ => String
  | .openRead _ => Option Nat
  | .openWrite _ => Option Nat
  | .fstatSize _ => Option Nat
  | .read .. => Option Bytes
  | .write .. => Option Nat
  | .close _ => Bool
  | .rename .. => Bool
  | .unlink _ => Bool
  | .destroyDevice _ | .bindImageMemory .. | .destroyImage .. | .freeMemory .. | .record ..
  | .freeCommandBuffers .. | .destroyCommandPool .. | .destroyPipelineCache ..
  | .systemPropertySet .. => Unit

/-- Every call has an answer, the one a test gets where nothing else is said. -/
instance (op : Call) : Inhabited (Answer op) := by
  cases op <;> exact ⟨by first | exact none | exact () | exact .success | exact default⟩

/-- Code of the shim. -/
abbrev Shim := Prog Call Answer

/-- One call out of the shim. -/
abbrev Shim.call (c : Call) : Shim (Answer c) := Prog.call c

end XdPlus.Vulkan.Driver
