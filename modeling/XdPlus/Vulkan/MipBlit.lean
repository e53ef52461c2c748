/- Module: XdPlus/Vulkan/MipBlit
   source: vulkan/vkshim.c, record_image_barrier, mip_ext, emit_emulated_blit, shim_CmdBlitImage
   digest: vkCmdBlitImage on a mip level, rewritten into copies and a level-0 blit. -/

import XdPlus.Vulkan.CommandBufferTable
import XdPlus.Vulkan.ImageTable

set_option autoImplicit false
set_option relaxedAutoImplicit false

namespace XdPlus.Vulkan.MipBlit

open XdPlus.Base Common Driver CommandBufferTable ImageTable

/-- `VK_ACCESS_TRANSFER_READ_BIT`. -/
def accessTransferReadBit : Nat := 0x800

/-- `VK_ACCESS_TRANSFER_WRITE_BIT`. -/
def accessTransferWriteBit : Nat := 0x1000

def imageBarrier (img : VkImage) (oldLayout newLayout : VkImageLayout)
    (srcAccess dstAccess : Nat) : Command :=
  .pipelineBarrier ⟨img, oldLayout, newLayout, srcAccess, dstAccess⟩

def mipExt (base level : Nat) : Nat :=
  if base >>> level ≠ 0 then base >>> level else 1

/-- The extents of one mip level. -/
def levelExt (e : VkExtent3D) (level : Nat) : VkExtent3D :=
  ⟨mipExt e.width level, mipExt e.height level, mipExt e.depth level⟩

/-- `(uint32_t)(b - a)`, and `1` where that is zero. -/
def span (a b : Int) : Nat :=
  let d := ((b - a) % 2 ^ 32).toNat
  if d ≠ 0 then d else 1

def regionExtent (a b : VkOffset3D) : VkExtent3D :=
  ⟨span a.x b.x, span a.y b.y, span a.z b.z⟩

def regionLayers (region : VkImageBlit) : Nat :=
  if region.srcSubresource.layerCount ≠ 0 then region.srcSubresource.layerCount else 1

/-- The real source level into level 0 of the source scratch. -/
def copySrc (region : VkImageBlit) : VkImageCopy where
  srcSubresource :=
    { aspectMask := region.srcSubresource.aspectMask
      mipLevel := region.srcSubresource.mipLevel
      baseArrayLayer := region.srcSubresource.baseArrayLayer
      layerCount := regionLayers region }
  srcOffset := region.srcOffset0
  dstSubresource :=
    { aspectMask := region.srcSubresource.aspectMask
      mipLevel := 0
      baseArrayLayer := 0
      layerCount := regionLayers region }
  dstOffset := region.srcOffset0
  extent := regionExtent region.srcOffset0 region.srcOffset1

/-- Level 0 of the destination scratch into the real destination level. -/
def copyDst (region : VkImageBlit) : VkImageCopy where
  srcSubresource :=
    { aspectMask := region.dstSubresource.aspectMask
      mipLevel := 0
      baseArrayLayer := 0
      layerCount := regionLayers region }
  srcOffset := region.dstOffset0
  dstSubresource :=
    { aspectMask := region.dstSubresource.aspectMask
      mipLevel := region.dstSubresource.mipLevel
      baseArrayLayer := region.dstSubresource.baseArrayLayer
      layerCount := regionLayers region }
  dstOffset := region.dstOffset0
  extent := regionExtent region.dstOffset0 region.dstOffset1

/-- One end of the intermediate blit: a staged end addresses layer 0. -/
def midSubresource (sub : VkImageSubresourceLayers) : VkImageSubresourceLayers :=
  { sub with
    mipLevel := 0
    baseArrayLayer := if sub.mipLevel ≠ 0 then 0 else sub.baseArrayLayer }

def midBlit (region : VkImageBlit) : VkImageBlit :=
  { region with
    srcSubresource := midSubresource region.srcSubresource
    dstSubresource := midSubresource region.dstSubresource }

/-- The commands `emit_emulated_blit` records for a region, in order, once it has its
scratch images. A destination that is level 0 already is written by the blit itself. -/
def regionCommands (src : VkImage) (srcLayout : VkImageLayout) (dst : VkImage)
    (dstLayout : VkImageLayout) (region : VkImageBlit) (filter : VkFilter) (p : ScratchPair) :
    List Command :=
  let srcMip := region.srcSubresource.mipLevel
  let dstMip := region.dstSubresource.mipLevel
  let midDst := if dstMip = 0 then dst else p.dstImg
  let midDstLayout := if dstMip = 0 then dstLayout else .transferDstOptimal
  let midSrc := if srcMip = 0 then src else p.srcImg
  let midSrcLayout := if srcMip = 0 then srcLayout else .transferSrcOptimal
  (if srcMip ≠ 0 then
    [imageBarrier p.srcImg .undefined .transferDstOptimal 0 accessTransferWriteBit,
      .copyImage src srcLayout p.srcImg .transferDstOptimal [copySrc region],
      imageBarrier p.srcImg .transferDstOptimal .transferSrcOptimal accessTransferWriteBit
        accessTransferReadBit]
    else []) ++
  (if dstMip ≠ 0 then
    [imageBarrier p.dstImg .undefined .transferDstOptimal 0 accessTransferWriteBit]
    else []) ++
  [.blitImage midSrc midSrcLayout midDst midDstLayout [midBlit region] filter] ++
  (if dstMip ≠ 0 then
    [imageBarrier p.dstImg .transferDstOptimal .transferSrcOptimal accessTransferWriteBit
        accessTransferReadBit,
      .copyImage p.dstImg .transferSrcOptimal dst dstLayout [copyDst region]]
    else [])

def recordCommands (cb : VkCommandBuffer) : List Command → Shim Unit
  | [] => return ()
  | c :: rest => do
      Shim.call (.record cb c)
      recordCommands cb rest

theorem ensures_recordCommands_of {W : Type} {env : Prog.Environment Call Answer W}
    {guard : W → Call → Prop} {cb : VkCommandBuffer} {held : W → Command → W}
    (allowed : ∀ w c, guard w (.record cb c))
    (records : ∀ w c ans w', env w (.record cb c) ans w' → w' = held w c) (w : W)
    (cs : List Command) :
    (recordCommands cb cs).Ensures env guard w (fun _ w' => w' = cs.foldl held w) := by
  induction cs generalizing w with
  | nil => exact (rfl : w = w)
  | cons c rest ih =>
      simp only [recordCommands, Prog.ensures_bind, Prog.ensures_call]
      refine ⟨allowed w c, fun ans w' answered => ?_⟩
      obtain rfl := records w c ans w' answered
      exact ih _

/-- Both scratch images take the source's format. The metadata is there: the only caller
has looked it up. -/
def emitEmulatedBlit (t : CbTable) (cb : VkCommandBuffer) (dev : VkDevice)
    (src : VkImage) (srcLayout : VkImageLayout) (dst : VkImage) (dstLayout : VkImageLayout)
    (region : VkImageBlit) (filter : VkFilter) (memProps : VkPhysicalDeviceMemoryProperties)
    (srcInfo dstInfo : ImgInfo) : Shim CbTable := do
  let srcExt := levelExt srcInfo.extent region.srcSubresource.mipLevel
  let dstExt := levelExt dstInfo.extent region.dstSubresource.mipLevel
  match ← getScratchPair t dev cb srcInfo.format srcExt dstExt memProps with
  | (none, t) => return t
  | (some p, t) =>
      recordCommands cb (regionCommands src srcLayout dst dstLayout region filter p)
      return t

/-- `for (i = 0; i < n; i++) emit_emulated_blit(..., &regions[i], ...);`. -/
def emitRegions (cb : VkCommandBuffer) (dev : VkDevice)
    (src : VkImage) (srcLayout : VkImageLayout) (dst : VkImage) (dstLayout : VkImageLayout)
    (filter : VkFilter) (memProps : VkPhysicalDeviceMemoryProperties)
    (srcInfo dstInfo : ImgInfo) : CbTable → List VkImageBlit → Shim CbTable
  | t, [] => return t
  | t, region :: rest => do
      let t ← emitEmulatedBlit t cb dev src srcLayout dst dstLayout region filter memProps
        srcInfo dstInfo
      emitRegions cb dev src srcLayout dst dstLayout filter memProps srcInfo dstInfo t rest

/-- `D16_UNORM`, `D32_SFLOAT`, `S8_UINT`, `D16_UNORM_S8_UINT`, `D24_UNORM_S8_UINT` and
`D32_SFLOAT_S8_UINT` by their numbers. -/
def formatIsDepthStencil (f : VkFormat) : Bool :=
  f == 124 || f == 126 || f == 127 || f == 128 || f == 129 || f == 130

/-- What the process gives the blit hook: its properties, whether the blob exports the
functions the scratch route needs, and the memory types it reports, if it can be asked. -/
structure Host where
  props : PropertyStore
  scratchFns : Bool
  memProps : Option VkPhysicalDeviceMemoryProperties

def namesMip (region : VkImageBlit) : Bool :=
  region.srcSubresource.mipLevel != 0 || region.dstSubresource.mipLevel != 0

/-- The hook returns the table and the gate it may have read. -/
def shimCmdBlitImage (host : Host) (t : CbTable) (imgs : ImgTable) (blitMipEmulate : Gate)
    (cb : VkCommandBuffer) (src : VkImage) (srcLayout : VkImageLayout)
    (dst : VkImage) (dstLayout : VkImageLayout) (regions : List VkImageBlit)
    (filter : VkFilter) : Shim (CbTable × Gate) := do
  if !regions.any namesMip then
    Shim.call (.record cb (.blitImage src srcLayout dst dstLayout regions filter))
    return (t, blitMipEmulate)
  else
    let (emulate, gate) := propOn host.props "debug.xdplus.vkblitmip" blitMipEmulate
    if !emulate then
      return (t, gate)
    else
      let dev := cbToDevice t cb
      if dev = 0 then
        return (t, gate)
      else
        let t := slotClaimDevice t cb dev
        match host.scratchFns, host.memProps, findImg imgs src, findImg imgs dst with
        | true, some memProps, some srcInfo, some dstInfo =>
            if formatIsDepthStencil srcInfo.format then
              return (t, gate)
            else
              let t ← emitRegions cb dev src srcLayout dst dstLayout filter memProps srcInfo
                dstInfo t regions
              return (t, gate)
        | _, _, _, _ => return (t, gate)

end XdPlus.Vulkan.MipBlit
