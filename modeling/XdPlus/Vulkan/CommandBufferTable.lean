/- Module: XdPlus/Vulkan/CommandBufferTable
   source: vulkan/vkshim.c, find_memory_type .. remember_pool, cb_to_device and the
     command-buffer lifetime hooks
   digest: Scratch images and the table that says which command buffer owns them. -/

import XdPlus.Base.SlotTable
import XdPlus.Vulkan.Driver

set_option autoImplicit false
set_option relaxedAutoImplicit false

namespace XdPlus.Vulkan.CommandBufferTable

open XdPlus.Base Common Driver

def cbTableMax : Nat := 256

structure ScratchPair where
  srcImg : VkImage
  srcMem : VkDeviceMemory
  dstImg : VkImage
  dstMem : VkDeviceMemory
  deriving DecidableEq, Repr

/-- `count` is the length of `pairs`; `cap` is what the array has room for. -/
structure CbScratch where
  dev : VkDevice
  cb : VkCommandBuffer
  pool : VkCommandPool
  pairs : List ScratchPair
  cap : Nat
  deriving DecidableEq, Repr

abbrev CbTable := Fin cbTableMax → CbScratch

def CbScratch.zero : CbScratch := ⟨0, 0, 0, [], 0⟩

def CbTable.zero : CbTable := fun _ => CbScratch.zero

/-- `VK_MEMORY_PROPERTY_DEVICE_LOCAL_BIT`. -/
def memoryPropertyDeviceLocalBit : Nat := 1

/-- `VK_IMAGE_USAGE_TRANSFER_SRC_BIT | VK_IMAGE_USAGE_TRANSFER_DST_BIT`. -/
def imageUsageTransferBits : Nat := 3

/-- The index of the first match as an `int`, `-1` without one. -/
def findMemoryType (mask flags : Nat) (props : VkPhysicalDeviceMemoryProperties) : Int :=
  match props.zipIdx.find? fun (propertyFlags, i) =>
      mask &&& (1 <<< i) ≠ 0 ∧ propertyFlags &&& flags = flags with
  | some (_, i) => i
  | none => -1

/-- The return value and the two outputs of `alloc_scratch_image`. -/
structure Allocated where
  ok : Bool
  img : VkImage
  mem : VkDeviceMemory
  deriving DecidableEq, Repr

/-- `img` and `mem` are the outputs as the caller initialised them. They are left as they
were where nothing is created, and keep the handle of an image destroyed again. -/
def allocScratchImage (dev : VkDevice) (format : VkFormat) (width height depth usage : Nat)
    (props : VkPhysicalDeviceMemoryProperties) (img : VkImage) (mem : VkDeviceMemory) :
    Shim Allocated := do
  let ici : VkImageCreateInfo :=
    { imageType := if 1 < depth then .type3D else if 1 < height then .type2D else .type1D
      format := format
      extent := ⟨width, height, depth⟩
      mipLevels := 1
      arrayLayers := 1
      usage := usage
      initialLayout := .undefined }
  match ← Shim.call (.createImage dev ici) with
  | none => return ⟨false, img, mem⟩
  | some img =>
      let req ← Shim.call (.getImageMemoryRequirements dev img)
      -- the index passes through a `uint32_t`, which is then compared with zero
      let type : Nat :=
        (findMemoryType req.memoryTypeBits memoryPropertyDeviceLocalBit props % 2 ^ 32).toNat
      if (type : Int) < 0 then
        Shim.call (.destroyImage dev img)
        return ⟨false, img, mem⟩
      else
        match ← Shim.call (.allocateMemory dev req.size type) with
        | none =>
            Shim.call (.destroyImage dev img)
            return ⟨false, img, mem⟩
        | some mem =>
            Shim.call (.bindImageMemory dev img mem)
            return ⟨true, img, mem⟩

/-- `if (handle) release(dev, handle);`. -/
def releaseIf (handle : Nat) (release : Call) : Shim Unit := do
  if handle ≠ 0 then
    let _ ← Shim.call release
    return ()
  else
    return ()

/-- Every caller gives the pair's storage up right afterwards. -/
def freeScratchPair (dev : VkDevice) (p : ScratchPair) : Shim Unit := do
  releaseIf p.srcImg (.destroyImage dev p.srcImg)
  releaseIf p.srcMem (.freeMemory dev p.srcMem)
  releaseIf p.dstImg (.destroyImage dev p.dstImg)
  releaseIf p.dstMem (.freeMemory dev p.dstMem)

/-- `for (j = 0; j < count; j++) free_scratch_pair(dev, &pairs[j]);`. -/
def freePairs (dev : VkDevice) : List ScratchPair → Shim Unit
  | [] => return ()
  | p :: rest => do
      freeScratchPair dev p
      freePairs dev rest

/-- The slot's array of pairs grown by `realloc` when it is full. -/
def growPairs (slot : CbScratch) : Shim (Option CbScratch) := do
  if slot.pairs.length = slot.cap then
    let newCap := if slot.cap ≠ 0 then slot.cap * 2 else 4
    if ← Shim.call (.malloc (newCap * 32)) then
      return some { slot with cap := newCap }
    else
      return none
  else
    return some slot

/-- The slot a search for `cb` ends at: its own, else the first empty one. -/
def slotFor (t : CbTable) (cb : VkCommandBuffer) : Option (Fin cbTableMax) :=
  claimSlot (fun i => (t i).cb == cb) (fun i => (t i).cb == 0)

def getScratchPair (t : CbTable) (dev : VkDevice) (cb : VkCommandBuffer) (format : VkFormat)
    (srcExt dstExt : VkExtent3D) (props : VkPhysicalDeviceMemoryProperties) :
    Shim (Option ScratchPair × CbTable) := do
  match slotFor t cb with
  | none => return (none, t)
  | some i =>
      let claimed : CbScratch :=
        if (t i).cb = 0 then { t i with cb := cb, pairs := [], cap := 0 } else t i
      match ← growPairs claimed with
      | none => return (none, Function.update t i claimed)
      | some slot =>
          let t := Function.update t i slot
          let src ← allocScratchImage dev format srcExt.width srcExt.height srcExt.depth
            imageUsageTransferBits props 0 0
          if src.ok then
            let dst ← allocScratchImage dev format dstExt.width dstExt.height dstExt.depth
              imageUsageTransferBits props 0 0
            let pair : ScratchPair := ⟨src.img, src.mem, dst.img, dst.mem⟩
            if dst.ok then
              return (some pair,
                Function.update t i { slot with pairs := slot.pairs ++ [pair] })
            else
              freeScratchPair dev pair
              return (none, t)
          else
            freeScratchPair dev ⟨src.img, src.mem, 0, 0⟩
            return (none, t)

def freeCbScratchImages (dev : VkDevice) (slot : CbScratch) : Shim CbScratch := do
  let d := if dev ≠ 0 then dev else slot.dev
  freePairs d (if d ≠ 0 then slot.pairs else [])
  return { slot with pairs := [], cap := 0 }

/-- `free_cb_scratch_images`, and the identity dropped with it. -/
def forgetSlot (dev : VkDevice) (slot : CbScratch) : Shim CbScratch := do
  let slot ← freeCbScratchImages dev slot
  return { slot with dev := 0, cb := 0, pool := 0 }

/-- `for (i ...) if (cb_table[i].cb == cb) { body; break; }`. -/
def atBuffer (t : CbTable) (cb : VkCommandBuffer) (body : CbScratch → Shim CbScratch) :
    Shim CbTable := do
  match firstIndex fun i => (t i).cb == cb with
  | none => return t
  | some i =>
      let slot ← body (t i)
      return Function.update t i slot

/-- `for (i ...) if (test(cb_table[i])) body;` over the indices left. -/
def atSlots (test : CbScratch → Bool) (body : CbScratch → Shim CbScratch) :
    List (Fin cbTableMax) → CbTable → Shim CbTable
  | [], t => return t
  | i :: rest, t => do
      if test (t i) then
        let slot ← body (t i)
        atSlots test body rest (Function.update t i slot)
      else
        atSlots test body rest t

def recycleCb (t : CbTable) (dev : VkDevice) (cb : VkCommandBuffer) : Shim CbTable :=
  atBuffer t cb (freeCbScratchImages dev)

def clearCb (t : CbTable) (dev : VkDevice) (cb : VkCommandBuffer) : Shim CbTable :=
  atBuffer t cb (forgetSlot dev)

def recyclePool (t : CbTable) (dev : VkDevice) (pool : VkCommandPool) : Shim CbTable :=
  atSlots (fun s => s.pool == pool) (freeCbScratchImages dev) (List.finRange cbTableMax) t

def clearPool (t : CbTable) (dev : VkDevice) (pool : VkCommandPool) : Shim CbTable :=
  atSlots (fun s => s.pool == pool) (forgetSlot dev) (List.finRange cbTableMax) t

def slotClaimDevice (t : CbTable) (cb : VkCommandBuffer) (dev : VkDevice) : CbTable :=
  match firstIndex fun i => (t i).cb == cb with
  | none => t
  | some i => Function.update t i { t i with dev := if (t i).dev = 0 then dev else (t i).dev }

def rememberPool (t : CbTable) (dev : VkDevice) (cb : VkCommandBuffer)
    (pool : VkCommandPool) : CbTable :=
  match slotFor t cb with
  | none => t
  | some i =>
      let kept := if (t i).cb ≠ cb then { t i with pairs := [], cap := 0 } else t i
      Function.update t i { kept with cb := cb, dev := dev, pool := pool }

/-- No break in the loop: the last match counts. -/
def cbToDevice (t : CbTable) (cb : VkCommandBuffer) : VkDevice :=
  (List.finRange cbTableMax).foldl (fun dev i => if (t i).cb = cb then (t i).dev else dev) 0

def shimBeginCommandBuffer (t : CbTable) (cb : VkCommandBuffer) :
    Shim (VkResult × CbTable) := do
  let t ← recycleCb t 0 cb
  let r ← Shim.call (.beginCommandBuffer cb)
  return (r, t)

def shimResetCommandBuffer (t : CbTable) (cb : VkCommandBuffer) :
    Shim (VkResult × CbTable) := do
  let t ← recycleCb t 0 cb
  let r ← Shim.call (.resetCommandBuffer cb)
  return (r, t)

/-- `for (i = 0; i < n; i++) clear_cb(dev, cbs[i]);`. -/
def clearCbs (dev : VkDevice) : CbTable → List VkCommandBuffer → Shim CbTable
  | t, [] => return t
  | t, cb :: rest => do
      let t ← clearCb t dev cb
      clearCbs dev t rest

def shimFreeCommandBuffers (t : CbTable) (dev : VkDevice) (pool : VkCommandPool)
    (cbs : List VkCommandBuffer) : Shim CbTable := do
  let t ← clearCbs dev t cbs
  Shim.call (.freeCommandBuffers dev pool cbs)
  return t

/-- `for (i = 0; i < commandBufferCount; i++) remember_pool(dev, cbs[i], pool);`. -/
def rememberPools (dev : VkDevice) (pool : VkCommandPool) (t : CbTable)
    (cbs : List VkCommandBuffer) : CbTable :=
  cbs.foldl (fun t cb => rememberPool t dev cb pool) t

def shimAllocateCommandBuffers (t : CbTable) (dev : VkDevice) (pool : VkCommandPool)
    (commandBufferCount : Nat) : Shim (Option (List VkCommandBuffer) × CbTable) := do
  match ← Shim.call (.allocateCommandBuffers dev pool commandBufferCount) with
  | none => return (none, t)
  | some cbs => return (some cbs, rememberPools dev pool t cbs)

def shimResetCommandPool (t : CbTable) (dev : VkDevice) (pool : VkCommandPool) :
    Shim (VkResult × CbTable) := do
  let t ← recyclePool t dev pool
  let r ← Shim.call (.resetCommandPool dev pool)
  return (r, t)

def shimDestroyCommandPool (t : CbTable) (dev : VkDevice) (pool : VkCommandPool) :
    Shim CbTable := do
  let t ← clearPool t dev pool
  Shim.call (.destroyCommandPool dev pool)
  return t

/-- How `alloc_scratch_image` creates an image. -/
def scratchInfo (format : VkFormat) (e : VkExtent3D) : VkImageCreateInfo where
  imageType := if 1 < e.depth then .type3D else if 1 < e.height then .type2D else .type1D
  format := format
  extent := e
  mipLevels := 1
  arrayLayers := 1
  usage := imageUsageTransferBits
  initialLayout := .undefined

section Rules

variable {W : Type} {env : Prog.Environment Call Answer W} {guard : W → Call → Prop} {w : W}
  {dev : VkDevice}

theorem ensures_allocScratchImage_of {format : VkFormat} {e : VkExtent3D}
    {props : VkPhysicalDeviceMemoryProperties} {post : Allocated → W → Prop}
    (asks : ∀ img, Prog.Idle env guard (.getImageMemoryRequirements dev img))
    (binds : ∀ img mem, Prog.Idle env guard (.bindImageMemory dev img mem))
    (creates : guard w (.createImage dev (scratchInfo format e)))
    (refused : ∀ w', env w (.createImage dev (scratchInfo format e)) none w' →
      post ⟨false, 0, 0⟩ w')
    (created : ∀ img w₁, env w (.createImage dev (scratchInfo format e)) (some img) w₁ →
      ∀ size i, guard w₁ (.allocateMemory dev size i) ∧
        (∀ w₂, env w₁ (.allocateMemory dev size i) none w₂ →
          (Shim.call (.destroyImage dev img)).Ensures env guard w₂
            (fun _ => post ⟨false, img, 0⟩)) ∧
        ∀ mem w₂, env w₁ (.allocateMemory dev size i) (some mem) w₂ →
          post ⟨true, img, mem⟩ w₂) :
    (allocScratchImage dev format e.width e.height e.depth imageUsageTransferBits props
      0 0).Ensures env guard w post := by
  simp only [allocScratchImage]
  rw [Prog.ensures_bind, Prog.ensures_call]
  refine ⟨creates, fun made w₁ answered => ?_⟩
  cases made with
  | none => exact refused w₁ answered
  | some img =>
      refine (asks img).ensures_bind fun req => ?_
      -- an index that has been through a `uint32_t` is never negative
      rw [if_neg (by omega), Prog.ensures_bind, Prog.ensures_call]
      obtain ⟨allowed, without, withMemory⟩ := created img w₁ answered _ _
      refine ⟨allowed, fun mem w₂ allocated => ?_⟩
      cases mem with
      | none =>
          rw [Prog.ensures_bind]
          exact without w₂ allocated
      | some mem => exact (binds img mem).ensures_bind fun _ => withMemory mem w₂ allocated

theorem ensures_growPairs_of {slot : CbScratch} {post : Option CbScratch → W → Prop}
    (allowed : ∀ size, guard w (.malloc size))
    (served : ∀ size ok w', env w (.malloc size) ok w' → w' = w ∧ (ok = false → post none w))
    (grown : ∀ cap, post (some { slot with cap := cap }) w) :
    (growPairs slot).Ensures env guard w post := by
  unfold growPairs
  by_cases full : slot.pairs.length = slot.cap
  · rw [if_pos full, Prog.ensures_bind, Prog.ensures_call]
    refine ⟨allowed _, fun ok w' answered => ?_⟩
    obtain ⟨rfl, refused⟩ := served _ ok w' answered
    cases ok with
    | true => exact grown _
    | false => exact refused rfl
  · rw [if_neg full]
    exact grown slot.cap

theorem claimed_own {slot : CbScratch} {cb : VkCommandBuffer} (own : slot.cb = cb)
    (nonzero : cb ≠ 0) :
    (if slot.cb = 0 then ({ slot with cb := cb, pairs := [], cap := 0 } : CbScratch)
      else slot) = slot :=
  if_neg (own ▸ nonzero)

end Rules

/-- Code that records nothing. -/
def Unrecorded (op : Call) : Prop := ∀ cb c, op ≠ .record cb c

section Unrecorded

private theorem always_releaseIf {handle : Nat} {release : Call} (silent : Unrecorded release) :
    (releaseIf handle release).Always Unrecorded (fun _ => True) := by
  unfold releaseIf
  split_ifs
  · exact ⟨silent, fun _ => trivial⟩
  · trivial

theorem always_freeScratchPair (dev : VkDevice) (p : ScratchPair) :
    (freeScratchPair dev p).Always Unrecorded (fun _ => True) := by
  have image (img : VkImage) : Unrecorded (.destroyImage dev img) := by simp [Unrecorded]
  have memory (mem : VkDeviceMemory) : Unrecorded (.freeMemory dev mem) := by simp [Unrecorded]
  simp only [freeScratchPair, Prog.always_bind]
  refine (always_releaseIf (image _)).mono fun _ _ => ?_
  refine (always_releaseIf (memory _)).mono fun _ _ => ?_
  exact (always_releaseIf (image _)).mono fun _ _ => always_releaseIf (memory _)

end Unrecorded

private theorem cbToDevice_scan (t : CbTable) (cb : VkCommandBuffer)
    (is : List (Fin cbTableMax)) (dev : VkDevice) :
    is.foldl (fun dev i => if (t i).cb = cb then (t i).dev else dev) dev = dev ∨
      ∃ i, (t i).cb = cb ∧
        is.foldl (fun dev i => if (t i).cb = cb then (t i).dev else dev) dev = (t i).dev := by
  induction is generalizing dev with
  | nil => exact .inl rfl
  | cons i rest ih =>
      simp only [List.foldl_cons]
      by_cases held : (t i).cb = cb
      · rw [if_pos held]
        rcases ih (t i).dev with same | other
        · exact .inr ⟨i, held, same⟩
        · exact .inr other
      · rw [if_neg held]
        exact ih dev

theorem cbToDevice_found {t : CbTable} {i : Fin cbTableMax} {cb : VkCommandBuffer}
    (held : (t i).cb = cb) (is : List (Fin cbTableMax)) (dev : VkDevice) (member : i ∈ is) :
    ∃ j, (t j).cb = cb ∧
      is.foldl (fun dev i => if (t i).cb = cb then (t i).dev else dev) dev = (t j).dev := by
  induction is generalizing dev with
  | nil => cases member
  | cons k rest ih =>
      simp only [List.foldl_cons]
      rcases List.mem_cons.mp member with rfl | later
      · rw [if_pos held]
        rcases cbToDevice_scan t cb rest (t i).dev with same | found
        · exact ⟨i, held, same⟩
        · exact found
      · exact ih _ later

theorem cbToDevice_held {t : CbTable} {cb : VkCommandBuffer} (nonzero : cbToDevice t cb ≠ 0) :
    ∃ i, (t i).cb = cb ∧ cbToDevice t cb = (t i).dev :=
  (cbToDevice_scan t cb (List.finRange cbTableMax) 0).resolve_left nonzero

theorem slotFor_of_device {t : CbTable} {cb : VkCommandBuffer}
    (tracked : cbToDevice t cb ≠ 0) : ∃ i, slotFor t cb = some i ∧ (t i).cb = cb := by
  obtain ⟨j, held, -⟩ := cbToDevice_held tracked
  obtain ⟨i, found⟩ :=
    firstIndex_isSome (p := fun i => (t i).cb == cb) (i := j) (by simpa using held)
  refine ⟨i, ?_, by simpa using firstIndex_holds found⟩
  rw [slotFor, claimSlot_eq, found]
  rfl

theorem slotFor_congr {t t' : CbTable} {cb : VkCommandBuffer}
    (same : ∀ j, (t' j).cb = (t j).cb) : slotFor t' cb = slotFor t cb := by
  simp only [slotFor, same]

theorem slotClaimDevice_cb (t : CbTable) (cb : VkCommandBuffer) (dev : VkDevice)
    (j : Fin cbTableMax) : (slotClaimDevice t cb dev j).cb = (t j).cb := by
  unfold slotClaimDevice
  cases firstIndex fun i => (t i).cb == cb with
  | none => rfl
  | some i =>
      rcases eq_or_ne j i with rfl | ne
      · simp
      · simp [Function.update_of_ne ne]

end XdPlus.Vulkan.CommandBufferTable
