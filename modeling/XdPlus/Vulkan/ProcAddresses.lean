/- Module: XdPlus/Vulkan/ProcAddresses
   source: vulkan/vkshim.c, shim_GetInstanceProcAddr, shim_GetDeviceProcAddr, shim_memext_proc,
     khr_name, resolve_cache_fns, resolve_scratch_fns, resolve_identity_fns, resolve_memext_fns,
     ensure_mem_props, shim_CreateInstance
   digest: Which pointer a name is answered with, and the real pointers behind the hooks. -/

import Mathlib.Logic.Function.Basic
import XdPlus.Base.Machine
import XdPlus.Vulkan.Extensions

/-!
The shim keeps one static pointer for each function of the blob it calls, null until somebody
asks for the name. What it hands out is a hook of its own or a pointer of the blob.
-/

set_option autoImplicit false
set_option relaxedAutoImplicit false

namespace XdPlus.Vulkan.ProcAddresses

open XdPlus.Base Common Extensions

abbrev VkInstance := Nat
abbrev VkPhysicalDevice := Nat

/-- The blob's answers; a device is asked through `vkGetDeviceProcAddr`. -/
structure Blob (φ : Type) where
  gipa : VkInstance → String → Option φ
  gdpa : VkDevice → String → Option φ

/-- `static PFN_... real_*`, but for `real_gipa`. -/
inductive RealFn where
  | gdpa | cgp | ccp | cpc | mpc | gpcd | dpc | dd | cd | cbi | cs
  | cbrp | cerp | cns | cdraw | cdrawi | cdrawind | cdrawiind | cca
  | ci | di | am | fm | gimr | gbmr | gismr | bim | bbm | cci | cpb
  | bcb | rcb | fcb | ccpool | rcpool | dcpool | acb
  | gpdmp | cinst | edep | gpdp | gpdf | gpdfp | gpdifp | gpdqfp | gpdsifp
  deriving DecidableEq

/-- The functions `shim_*` that are handed out. -/
inductive Hook where
  | getDeviceProcAddr | createGraphicsPipelines | createComputePipelines
  | createDevice | destroyDevice | createInstance | enumerateDeviceExtensionProperties
  | mergePipelineCaches | createPipelineCache | getPipelineCacheData | destroyPipelineCache
  | cmdBlitImage | createSampler | createImage | destroyImage
  | beginCommandBuffer | resetCommandBuffer | freeCommandBuffers | allocateCommandBuffers
  | resetCommandPool | destroyCommandPool
  | cmdBeginRenderPass | cmdEndRenderPass | cmdNextSubpass | cmdDraw | cmdDrawIndexed
  | cmdDrawIndirect | cmdDrawIndexedIndirect | cmdClearAttachments
  | getPhysicalDeviceProperties | getPhysicalDeviceProperties2KHR
  | getPhysicalDeviceFeatures2KHR | getPhysicalDeviceFormatProperties2KHR
  | getPhysicalDeviceImageFormatProperties2KHR | getPhysicalDeviceQueueFamilyProperties2KHR
  | getPhysicalDeviceMemoryProperties2KHR | getPhysicalDeviceSparseImageFormatProperties2KHR
  | getPhysicalDeviceExternalFencePropertiesKHR
  | getImageMemoryRequirements2KHR | getBufferMemoryRequirements2KHR
  | getImageSparseMemoryRequirements2KHR | bindBufferMemory2KHR | bindImageMemory2KHR
  | getDescriptorSetLayoutSupportKHR
  deriving DecidableEq

/-- A `PFN_vkVoidFunction` that is not null. -/
inductive Proc (φ : Type) where
  | shim (hook : Hook)
  | blob (f : φ)
  deriving DecidableEq

/-- The pointers, the gates and what the shim remembers beside them. `scratch` says whether a
command buffer may own scratch images; `handedOut` is ghost. -/
structure Interposer (φ : Type) where
  real : RealFn → Option φ
  gates : Gates
  khrAlias : Gate
  shimInstance : VkInstance
  physicalDev : VkPhysicalDevice
  shimDev : VkDevice
  memPropsLoaded : Bool
  identityResolved : Bool
  scratch : Bool
  handedOut : Hook → Bool

/-- The library has been loaded and its device opened. -/
def Interposer.opened (φ : Type) : Interposer φ where
  real _ := none
  gates := ⟨none, none⟩
  khrAlias := none
  shimInstance := 0
  physicalDev := 0
  shimDev := 0
  memPropsLoaded := false
  identityResolved := false
  scratch := false
  handedOut _ := false

variable {φ : Type}

/-- `real_x = answer;`. -/
def Interposer.assign (s : Interposer φ) (r : RealFn) (answer : Option φ) : Interposer φ :=
  { s with real := Function.update s.real r answer }

/-- `if (!real_x) real_x = answer;`. -/
def Interposer.resolve (s : Interposer φ) (r : RealFn) (answer : Option φ) : Interposer φ :=
  if (s.real r).isSome then s else s.assign r answer

/-- One `resolve` after the other. -/
def Interposer.resolveAll (s : Interposer φ) (ask : String → Option φ) :
    List (RealFn × String) → Interposer φ
  | [] => s
  | (r, name) :: rest => (s.resolve r (ask name)).resolveAll ask rest

/-- A name whose hook is given out if the blob has the function. -/
structure Hooked where
  name : String
  real : RealFn
  hook : Hook

/-- The comparisons at the head of `shim_GetInstanceProcAddr`. -/
def instanceHooks : List Hooked :=
  [⟨"vkGetDeviceProcAddr", .gdpa, .getDeviceProcAddr⟩,
    ⟨"vkCreateGraphicsPipelines", .cgp, .createGraphicsPipelines⟩,
    ⟨"vkCreateComputePipelines", .ccp, .createComputePipelines⟩,
    ⟨"vkCreateDevice", .cd, .createDevice⟩,
    ⟨"vkDestroyDevice", .dd, .destroyDevice⟩,
    ⟨"vkCreateInstance", .cinst, .createInstance⟩,
    ⟨"vkEnumerateDeviceExtensionProperties", .edep, .enumerateDeviceExtensionProperties⟩]

/-- The comparisons of `shim_GetDeviceProcAddr`. -/
def deviceHooks : List Hooked :=
  [⟨"vkCreateGraphicsPipelines", .cgp, .createGraphicsPipelines⟩,
    ⟨"vkCreateComputePipelines", .ccp, .createComputePipelines⟩,
    ⟨"vkDestroyDevice", .dd, .destroyDevice⟩,
    ⟨"vkMergePipelineCaches", .mpc, .mergePipelineCaches⟩,
    ⟨"vkCreatePipelineCache", .cpc, .createPipelineCache⟩,
    ⟨"vkGetPipelineCacheData", .gpcd, .getPipelineCacheData⟩,
    ⟨"vkDestroyPipelineCache", .dpc, .destroyPipelineCache⟩,
    ⟨"vkCmdBlitImage", .cbi, .cmdBlitImage⟩,
    ⟨"vkCreateSampler", .cs, .createSampler⟩,
    ⟨"vkCreateImage", .ci, .createImage⟩,
    ⟨"vkDestroyImage", .di, .destroyImage⟩,
    ⟨"vkBeginCommandBuffer", .bcb, .beginCommandBuffer⟩,
    ⟨"vkResetCommandBuffer", .rcb, .resetCommandBuffer⟩,
    ⟨"vkFreeCommandBuffers", .fcb, .freeCommandBuffers⟩,
    ⟨"vkAllocateCommandBuffers", .acb, .allocateCommandBuffers⟩,
    ⟨"vkResetCommandPool", .rcpool, .resetCommandPool⟩,
    ⟨"vkDestroyCommandPool", .dcpool, .destroyCommandPool⟩,
    ⟨"vkCmdBeginRenderPass", .cbrp, .cmdBeginRenderPass⟩,
    ⟨"vkCmdEndRenderPass", .cerp, .cmdEndRenderPass⟩,
    ⟨"vkCmdNextSubpass", .cns, .cmdNextSubpass⟩,
    ⟨"vkCmdDraw", .cdraw, .cmdDraw⟩,
    ⟨"vkCmdDrawIndexed", .cdrawi, .cmdDrawIndexed⟩,
    ⟨"vkCmdDrawIndirect", .cdrawind, .cmdDrawIndirect⟩,
    ⟨"vkCmdDrawIndexedIndirect", .cdrawiind, .cmdDrawIndexedIndirect⟩,
    ⟨"vkCmdClearAttachments", .cca, .cmdClearAttachments⟩]

/-- The one name of the identity block that needs the blob's function first. -/
def identityHooks : List Hooked :=
  [⟨"vkGetPhysicalDeviceProperties", .gpdp, .getPhysicalDeviceProperties⟩]

/-- A hook that is given out without a look at the blob, under two names. -/
structure Answered where
  khr : String
  core : String
  hook : Hook

/-- The rest of the identity block. -/
def identityProcs : List Answered :=
  [⟨"vkGetPhysicalDeviceProperties2KHR", "vkGetPhysicalDeviceProperties2",
      .getPhysicalDeviceProperties2KHR⟩,
    ⟨"vkGetPhysicalDeviceFeatures2KHR", "vkGetPhysicalDeviceFeatures2",
      .getPhysicalDeviceFeatures2KHR⟩,
    ⟨"vkGetPhysicalDeviceFormatProperties2KHR", "vkGetPhysicalDeviceFormatProperties2",
      .getPhysicalDeviceFormatProperties2KHR⟩,
    ⟨"vkGetPhysicalDeviceImageFormatProperties2KHR", "vkGetPhysicalDeviceImageFormatProperties2",
      .getPhysicalDeviceImageFormatProperties2KHR⟩,
    ⟨"vkGetPhysicalDeviceQueueFamilyProperties2KHR", "vkGetPhysicalDeviceQueueFamilyProperties2",
      .getPhysicalDeviceQueueFamilyProperties2KHR⟩,
    ⟨"vkGetPhysicalDeviceMemoryProperties2KHR", "vkGetPhysicalDeviceMemoryProperties2",
      .getPhysicalDeviceMemoryProperties2KHR⟩,
    ⟨"vkGetPhysicalDeviceSparseImageFormatProperties2KHR",
      "vkGetPhysicalDeviceSparseImageFormatProperties2",
      .getPhysicalDeviceSparseImageFormatProperties2KHR⟩,
    ⟨"vkGetPhysicalDeviceExternalFencePropertiesKHR",
      "vkGetPhysicalDeviceExternalFenceProperties",
      .getPhysicalDeviceExternalFencePropertiesKHR⟩]

/-- The names of `shim_memext_proc`. -/
def memextProcs : List Answered :=
  [⟨"vkGetImageMemoryRequirements2KHR", "vkGetImageMemoryRequirements2",
      .getImageMemoryRequirements2KHR⟩,
    ⟨"vkGetBufferMemoryRequirements2KHR", "vkGetBufferMemoryRequirements2",
      .getBufferMemoryRequirements2KHR⟩,
    ⟨"vkGetImageSparseMemoryRequirements2KHR", "vkGetImageSparseMemoryRequirements2",
      .getImageSparseMemoryRequirements2KHR⟩,
    ⟨"vkBindBufferMemory2KHR", "vkBindBufferMemory2", .bindBufferMemory2KHR⟩,
    ⟨"vkBindImageMemory2KHR", "vkBindImageMemory2", .bindImageMemory2KHR⟩,
    ⟨"vkGetDescriptorSetLayoutSupportKHR", "vkGetDescriptorSetLayoutSupport",
      .getDescriptorSetLayoutSupportKHR⟩]

/-- The table's answer, if it has the name. -/
def lookupHooked (ask : String → Option φ) (table : List Hooked) (name : String)
    (s : Interposer φ) : Option (Option (Proc φ) × Interposer φ) :=
  (table.find? fun e => e.name == name).map fun e =>
    let s := s.resolve e.real (ask name)
    (if (s.real e.real).isSome then some (.shim e.hook) else none, s)

def lookupAnswered (table : List Answered) (name : String) : Option (Proc φ) :=
  (table.find? fun e => e.khr == name || e.core == name).map fun e => .shim e.hook

/-- The name of the extension's entry point, for a name that ends in a version digit, in a
buffer of `n` bytes. -/
def khrName (name : String) (n : Nat) : Option String :=
  if name.utf8ByteSize + 4 ≥ n then none
  else if name.utf8ByteSize < 3 ∨ name.toList.getLast? ≠ some '2' then none
  else some (name ++ "KHR")

/-- The blob's answer, or its answer to the alias. -/
def blobOrAlias (ask : String → Option φ) (props : PropertyStore) (name : String)
    (s : Interposer φ) : Option (Proc φ) × Interposer φ :=
  match ask name with
  | some f => (some (.blob f), s)
  | none =>
      let (on, khrAlias) := propOn props "debug.xdplus.vkkhralias" s.khrAlias
      (if on then ((khrName name 128).bind ask).map .blob else none,
        { s with khrAlias := khrAlias })

/-- `shim_memext_proc`, and what both functions go on with. -/
def memextOrBlob (ask : String → Option φ) (props : PropertyStore) (name : String)
    (s : Interposer φ) : Option (Proc φ) × Interposer φ :=
  let (on, memext) := propOn props "debug.xdplus.vkmemext" s.gates.memext
  let s := { s with gates := { s.gates with memext := memext } }
  match if on then lookupAnswered memextProcs name else none with
  | some p => (some p, s)
  | none => blobOrAlias ask props name s

def shimGetDeviceProcAddr (blob : Blob φ) (props : PropertyStore) (dev : VkDevice)
    (name : String) (s : Interposer φ) : Option (Proc φ) × Interposer φ :=
  match lookupHooked (blob.gdpa dev) deviceHooks name s with
  | some r => r
  | none =>
      if name = "vkGetDeviceProcAddr" then (some (.shim .getDeviceProcAddr), s)
      else memextOrBlob (blob.gdpa dev) props name s

/-- The identity block, once its gate is known to be on. -/
def lookupIdentity (ask : String → Option φ) (name : String) (s : Interposer φ) :
    Option (Option (Proc φ) × Interposer φ) :=
  match lookupHooked ask identityHooks name s with
  | some r => some r
  | none => (lookupAnswered identityProcs name).map fun p => (some p, s)

def shimGetInstanceProcAddr (blob : Blob φ) (props : PropertyStore) (inst : VkInstance)
    (name : String) (s : Interposer φ) : Option (Proc φ) × Interposer φ :=
  match lookupHooked (blob.gipa inst) instanceHooks name s with
  | some r => r
  | none =>
      let (on, drvinfo) := propOn props "debug.xdplus.vkdrvinfo" s.gates.drvinfo
      let s := { s with gates := { s.gates with drvinfo := drvinfo } }
      match if on then lookupIdentity (blob.gipa inst) name s else none with
      | some r => r
      | none => memextOrBlob (blob.gipa inst) props name s

def cacheFns : List (RealFn × String) :=
  [(.cpc, "vkCreatePipelineCache"), (.mpc, "vkMergePipelineCaches"),
    (.gpcd, "vkGetPipelineCacheData"), (.dpc, "vkDestroyPipelineCache")]

def scratchFns : List (RealFn × String) :=
  [(.ci, "vkCreateImage"), (.di, "vkDestroyImage"), (.am, "vkAllocateMemory"),
    (.fm, "vkFreeMemory"), (.gimr, "vkGetImageMemoryRequirements"),
    (.bim, "vkBindImageMemory"), (.cci, "vkCmdCopyImage"), (.cpb, "vkCmdPipelineBarrier"),
    (.bcb, "vkBeginCommandBuffer"), (.rcb, "vkResetCommandBuffer"),
    (.fcb, "vkFreeCommandBuffers"), (.ccpool, "vkCreateCommandPool"),
    (.rcpool, "vkResetCommandPool"), (.dcpool, "vkDestroyCommandPool"),
    (.acb, "vkAllocateCommandBuffers")]

def memextFns : List (RealFn × String) :=
  [(.gimr, "vkGetImageMemoryRequirements"), (.gbmr, "vkGetBufferMemoryRequirements"),
    (.gismr, "vkGetImageSparseMemoryRequirements"), (.bim, "vkBindImageMemory"),
    (.bbm, "vkBindBufferMemory")]

/-- What `resolve_identity_fns` asks for on its only round: the first if it is null, then these
five, then the last if it is null. -/
def identityFns : List (RealFn × String) :=
  [(.gpdf, "vkGetPhysicalDeviceFeatures"), (.gpdfp, "vkGetPhysicalDeviceFormatProperties"),
    (.gpdifp, "vkGetPhysicalDeviceImageFormatProperties"),
    (.gpdqfp, "vkGetPhysicalDeviceQueueFamilyProperties"),
    (.gpdsifp, "vkGetPhysicalDeviceSparseImageFormatProperties")]

def Interposer.assignAll (s : Interposer φ) (ask : String → Option φ) :
    List (RealFn × String) → Interposer φ
  | [] => s
  | (r, name) :: rest => (s.assign r (ask name)).assignAll ask rest

def resolveCacheFns (blob : Blob φ) (dev : VkDevice) (s : Interposer φ) : Interposer φ :=
  s.resolveAll (blob.gdpa dev) cacheFns

def resolveScratchFns (blob : Blob φ) (dev : VkDevice) (s : Interposer φ) : Interposer φ :=
  s.resolveAll (blob.gdpa dev) scratchFns

def resolveMemextFns (blob : Blob φ) (dev : VkDevice) (s : Interposer φ) : Interposer φ :=
  s.resolveAll (blob.gdpa dev) memextFns

def resolveIdentityFns (blob : Blob φ) (s : Interposer φ) : Interposer φ :=
  if s.identityResolved then s
  else
    let ask := blob.gipa s.shimInstance
    let s := { s with identityResolved := true }
    let s := s.resolve .gpdp (ask "vkGetPhysicalDeviceProperties")
    let s := s.assignAll ask identityFns
    s.resolve .gpdmp (ask "vkGetPhysicalDeviceMemoryProperties")

/-- `if (!real_x && handle) real_x = answer;`. -/
def Interposer.resolveFor (s : Interposer φ) (handle : Nat) (r : RealFn) (answer : Option φ) :
    Interposer φ :=
  if handle = 0 then s else s.resolve r answer

def ensureMemProps (blob : Blob φ) (s : Interposer φ) : Interposer φ :=
  if s.memPropsLoaded then s
  else
    let s := s.resolveFor s.shimInstance .gpdmp
      (blob.gipa s.shimInstance "vkGetPhysicalDeviceMemoryProperties")
    let s := s.resolveFor s.shimDev .gpdmp
      (blob.gdpa s.shimDev "vkGetPhysicalDeviceMemoryProperties")
    { s with memPropsLoaded := (s.real .gpdmp).isSome && s.physicalDev != 0 }

/-- A call of a hook. `listed` says whether it gets as far as a look at the gates, for a name that
was listed or a structure that was chained; `served` whether it gets past the returns before the
part that needs further functions. -/
structure Visit where
  hook : Hook
  dev : VkDevice
  physical : VkPhysicalDevice
  created : Nat
  listed : Bool
  served : Bool

/-- What `vkCreateInstance` leaves behind. -/
def Interposer.instanceCreated (blob : Blob φ) (created : VkInstance) (s : Interposer φ) :
    Interposer φ :=
  { s with shimInstance := created }.assign .gpdmp
    (blob.gipa created "vkGetPhysicalDeviceMemoryProperties")

/-- What `vkCreateDevice` leaves behind. -/
def Interposer.deviceCreated (blob : Blob φ) (physical : VkPhysicalDevice) (created : VkDevice)
    (s : Interposer φ) : Interposer φ :=
  let s := { s with physicalDev := physical, shimDev := created }.resolve .gpdmp
    (blob.gdpa created "vkGetPhysicalDeviceMemoryProperties")
  { s with memPropsLoaded := (s.real .gpdmp).isSome }

/-- The test before the regions of `shim_CmdBlitImage`. -/
def Interposer.emulates (s : Interposer φ) : Bool :=
  (s.real .ci).isSome && (s.real .cci).isSome && (s.real .cbi).isSome && s.memPropsLoaded

/-- What a hook changes of the pointers and gates. -/
def Interposer.enter (blob : Blob φ) (props : PropertyStore) (v : Visit) (s : Interposer φ) :
    Interposer φ :=
  match v.hook with
  | .createGraphicsPipelines | .createComputePipelines | .createPipelineCache =>
      if v.served then resolveCacheFns blob v.dev s else s
  | .cmdBlitImage =>
      if v.served then
        let s := ensureMemProps blob (resolveScratchFns blob v.dev s)
        { s with scratch := s.scratch || s.emulates }
      else s
  | .createInstance => if v.served then s.instanceCreated blob v.created else s
  | .createDevice =>
      let s := if v.listed then { s with gates := settle props s.gates } else s
      if v.served then s.deviceCreated blob v.physical v.created else s
  | .enumerateDeviceExtensionProperties => { s with gates := settle props s.gates }
  | .getPhysicalDeviceProperties2KHR =>
      let s := resolveIdentityFns blob s
      if v.listed then
        let (_, memext) := propOn props "debug.xdplus.vkmemext" s.gates.memext
        { s with gates := { s.gates with memext := memext } }
      else s
  | .getPhysicalDeviceFeatures2KHR | .getPhysicalDeviceFormatProperties2KHR
  | .getPhysicalDeviceImageFormatProperties2KHR | .getPhysicalDeviceQueueFamilyProperties2KHR
  | .getPhysicalDeviceMemoryProperties2KHR | .getPhysicalDeviceSparseImageFormatProperties2KHR
  | .getDescriptorSetLayoutSupportKHR => resolveIdentityFns blob s
  | .getImageMemoryRequirements2KHR | .getBufferMemoryRequirements2KHR
  | .getImageSparseMemoryRequirements2KHR | .bindBufferMemory2KHR | .bindImageMemory2KHR =>
      resolveMemextFns blob v.dev s
  | _ => s

/-- The function of the blob that a hook stands in front of, if it calls one unseen. -/
def Hook.own : Hook → Option RealFn
  | .getDeviceProcAddr => some .gdpa
  | .createGraphicsPipelines => some .cgp
  | .createComputePipelines => some .ccp
  | .createDevice => some .cd
  | .destroyDevice => some .dd
  | .createInstance => some .cinst
  | .enumerateDeviceExtensionProperties => some .edep
  | .mergePipelineCaches => some .mpc
  | .createPipelineCache => some .cpc
  | .getPipelineCacheData => some .gpcd
  | .destroyPipelineCache => some .dpc
  | .cmdBlitImage => some .cbi
  | .createSampler => some .cs
  | .createImage => some .ci
  | .destroyImage => some .di
  | .beginCommandBuffer => some .bcb
  | .resetCommandBuffer => some .rcb
  | .freeCommandBuffers => some .fcb
  | .allocateCommandBuffers => some .acb
  | .resetCommandPool => some .rcpool
  | .destroyCommandPool => some .dcpool
  | .cmdBeginRenderPass => some .cbrp
  | .cmdEndRenderPass => some .cerp
  | .cmdNextSubpass => some .cns
  | .cmdDraw => some .cdraw
  | .cmdDrawIndexed => some .cdrawi
  | .cmdDrawIndirect => some .cdrawind
  | .cmdDrawIndexedIndirect => some .cdrawiind
  | .cmdClearAttachments => some .cca
  | .getPhysicalDeviceProperties => some .gpdp
  | .getPhysicalDeviceProperties2KHR => some .gpdp
  | .getPhysicalDeviceFeatures2KHR => some .gpdf
  | .getPhysicalDeviceFormatProperties2KHR => some .gpdfp
  | .getPhysicalDeviceImageFormatProperties2KHR => some .gpdifp
  | .getPhysicalDeviceQueueFamilyProperties2KHR => some .gpdqfp
  | .getPhysicalDeviceMemoryProperties2KHR => some .gpdmp
  | .getPhysicalDeviceSparseImageFormatProperties2KHR => some .gpdsifp
  | .getPhysicalDeviceExternalFencePropertiesKHR => none
  | .getImageMemoryRequirements2KHR => some .gimr
  | .getBufferMemoryRequirements2KHR => some .gbmr
  | .getImageSparseMemoryRequirements2KHR => some .gismr
  | .bindBufferMemory2KHR => some .bbm
  | .bindImageMemory2KHR => some .bim
  | .getDescriptorSetLayoutSupportKHR => none

/-- The other pointers a call goes through without a test for null, once `enter` has left `s`. -/
def Visit.further (v : Visit) (s : Interposer φ) : List RealFn :=
  match v.hook with
  | .createGraphicsPipelines | .createComputePipelines | .createPipelineCache
  | .createDevice => if v.served then [.gdpa] else []
  | .cmdBlitImage =>
      if v.served then
        .gdpa :: if s.emulates then [.ci, .di, .am, .fm, .gimr, .bim, .cci, .cpb] else []
      else []
  | .beginCommandBuffer | .resetCommandBuffer | .freeCommandBuffers | .resetCommandPool
  | .destroyCommandPool | .destroyDevice => if s.scratch then [.di, .fm] else []
  | .getImageMemoryRequirements2KHR | .getBufferMemoryRequirements2KHR
  | .getImageSparseMemoryRequirements2KHR | .bindBufferMemory2KHR | .bindImageMemory2KHR =>
      [.gdpa]
  | _ => []

/-- Every pointer a call goes through without a test for null. -/
def Visit.calls (v : Visit) (s : Interposer φ) : List RealFn := v.hook.own.toList ++ v.further s

/-- What an application or its loader does, one call at a time. -/
inductive Action where
  | instanceLookup (inst : VkInstance) (name : String)
  | deviceLookup (dev : VkDevice) (name : String)
  | call (v : Visit)

def Interposer.handOut (s : Interposer φ) : Option (Proc φ) → Interposer φ
  | some (.shim hook) => { s with handedOut := Function.update s.handedOut hook true }
  | _ => s

/-- Only what was handed out can be called. -/
def Permitted (s : Interposer φ) : Action → Prop
  | .instanceLookup _ _ => True
  | .deviceLookup _ _ => s.handedOut .getDeviceProcAddr = true
  | .call v => s.handedOut v.hook = true

def next (blob : Blob φ) (props : PropertyStore) (s : Interposer φ) : Action → Interposer φ
  | .instanceLookup inst name =>
      let r := shimGetInstanceProcAddr blob props inst name s
      r.2.handOut r.1
  | .deviceLookup dev name =>
      let r := shimGetDeviceProcAddr blob props dev name s
      r.2.handOut r.1
  | .call v => s.enter blob props v

/-- The properties may change from one call to the next. -/
def machine (blob : Blob φ) : Machine (Interposer φ) (PropertyStore × Action) where
  init s := s = .opened φ
  step s l s' := Permitted s l.2 ∧ s' = next blob l.1 s l.2

end XdPlus.Vulkan.ProcAddresses
