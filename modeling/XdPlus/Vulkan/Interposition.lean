/- Module: XdPlus/Vulkan/Interposition
   source: vulkan/vkshim.c, shim_GetInstanceProcAddr, shim_GetDeviceProcAddr, and the hooks they
     hand out
   digest: No hook is entered with nothing behind it, and no name is answered amiss. -/

import XdPlus.Vulkan.ProcAddresses

set_option autoImplicit false
set_option relaxedAutoImplicit false

namespace XdPlus.Vulkan.Interposition

open XdPlus.Base Common Extensions ProcAddresses

variable {φ : Type}

/-- The function each pointer is for. -/
def RealFn.name : RealFn → String
  | .gdpa => "vkGetDeviceProcAddr"
  | .cgp => "vkCreateGraphicsPipelines"
  | .ccp => "vkCreateComputePipelines"
  | .cpc => "vkCreatePipelineCache"
  | .mpc => "vkMergePipelineCaches"
  | .gpcd => "vkGetPipelineCacheData"
  | .dpc => "vkDestroyPipelineCache"
  | .dd => "vkDestroyDevice"
  | .cd => "vkCreateDevice"
  | .cbi => "vkCmdBlitImage"
  | .cs => "vkCreateSampler"
  | .cbrp => "vkCmdBeginRenderPass"
  | .cerp => "vkCmdEndRenderPass"
  | .cns => "vkCmdNextSubpass"
  | .cdraw => "vkCmdDraw"
  | .cdrawi => "vkCmdDrawIndexed"
  | .cdrawind => "vkCmdDrawIndirect"
  | .cdrawiind => "vkCmdDrawIndexedIndirect"
  | .cca => "vkCmdClearAttachments"
  | .ci => "vkCreateImage"
  | .di => "vkDestroyImage"
  | .am => "vkAllocateMemory"
  | .fm => "vkFreeMemory"
  | .gimr => "vkGetImageMemoryRequirements"
  | .gbmr => "vkGetBufferMemoryRequirements"
  | .gismr => "vkGetImageSparseMemoryRequirements"
  | .bim => "vkBindImageMemory"
  | .bbm => "vkBindBufferMemory"
  | .cci => "vkCmdCopyImage"
  | .cpb => "vkCmdPipelineBarrier"
  | .bcb => "vkBeginCommandBuffer"
  | .rcb => "vkResetCommandBuffer"
  | .fcb => "vkFreeCommandBuffers"
  | .ccpool => "vkCreateCommandPool"
  | .rcpool => "vkResetCommandPool"
  | .dcpool => "vkDestroyCommandPool"
  | .acb => "vkAllocateCommandBuffers"
  | .gpdmp => "vkGetPhysicalDeviceMemoryProperties"
  | .cinst => "vkCreateInstance"
  | .edep => "vkEnumerateDeviceExtensionProperties"
  | .gpdp => "vkGetPhysicalDeviceProperties"
  | .gpdf => "vkGetPhysicalDeviceFeatures"
  | .gpdfp => "vkGetPhysicalDeviceFormatProperties"
  | .gpdifp => "vkGetPhysicalDeviceImageFormatProperties"
  | .gpdqfp => "vkGetPhysicalDeviceQueueFamilyProperties"
  | .gpdsifp => "vkGetPhysicalDeviceSparseImageFormatProperties"

/-- The blob gave `f` for the function `r` is for. -/
def Asked (blob : Blob φ) (r : RealFn) (f : φ) : Prop :=
  (∃ inst, blob.gipa inst (RealFn.name r) = some f) ∨ ∃ dev, blob.gdpa dev (RealFn.name r) = some f

/-- An answer to the name of `r`. -/
def Answers (blob : Blob φ) (r : RealFn) (answer : Option φ) : Prop :=
  ∀ f, answer = some f → Asked blob r f

/-- The names that ask the blob first. -/
def allHooked : List Hooked := instanceHooks ++ deviceHooks ++ identityHooks

/-- All that `resolve_identity_fns` resolves. -/
def allIdentityFns : List (RealFn × String) :=
  (.gpdp, "vkGetPhysicalDeviceProperties") ::
    (.gpdmp, "vkGetPhysicalDeviceMemoryProperties") :: identityFns

/-- A blob of Vulkan 1.0: it has these functions, whatever handle it is asked through. -/
structure Complete (blob : Blob φ) : Prop where
  gipa : ∀ inst, ∀ p ∈ allIdentityFns, (blob.gipa inst p.2).isSome
  gdpa : ∀ dev, ∀ p ∈ scratchFns ++ memextFns, (blob.gdpa dev p.2).isSome

theorem name_hooked {e : Hooked} (listed : e ∈ allHooked) :
    e.name = RealFn.name e.real := by
  revert e
  decide

theorem name_resolved {p : RealFn × String}
    (listed : p ∈ cacheFns ++ scratchFns ++ memextFns ++ allIdentityFns) :
    p.2 = RealFn.name p.1 := by
  revert p
  decide

theorem answers_gdpa {blob : Blob φ} {dev : VkDevice} {r : RealFn} {name : String}
    (right : name = RealFn.name r) : Answers blob r (blob.gdpa dev name) := by
  rintro f given
  exact .inr ⟨dev, right ▸ given⟩

theorem answers_gipa {blob : Blob φ} {inst : VkInstance} {r : RealFn} {name : String}
    (right : name = RealFn.name r) : Answers blob r (blob.gipa inst name) := by
  rintro f given
  exact .inl ⟨inst, right ▸ given⟩

section Resolving

variable {s : Interposer φ} {r r' : RealFn} {a : Option φ} {ask : String → Option φ}
  {fns : List (RealFn × String)}

theorem real_assign : (s.assign r a).real r' = if r' = r then a else s.real r' := by
  unfold Interposer.assign
  by_cases same : r' = r
  · rw [same, if_pos rfl]
    exact Function.update_self ..
  · rw [if_neg same]
    exact Function.update_of_ne same ..

theorem real_resolve : (s.resolve r a).real r' =
    if r' = r ∧ (s.real r).isSome = false then a else s.real r' := by
  unfold Interposer.resolve
  cases known : (s.real r).isSome with
  | true => simp
  | false => simp [real_assign]

theorem isSome_resolve (there : (s.real r').isSome) : ((s.resolve r a).real r').isSome := by
  rw [real_resolve]
  split_ifs with replaced
  · obtain ⟨rfl, null⟩ := replaced
    cases there.symm.trans null
  · exact there

theorem isSome_resolve_self (given : a.isSome) : ((s.resolve r a).real r).isSome := by
  rw [real_resolve]
  split_ifs with replaced
  · exact given
  · by_contra null
    exact replaced ⟨rfl, by simpa using null⟩

theorem isSome_assign (given : a.isSome) (there : (s.real r').isSome) :
    ((s.assign r a).real r').isSome := by
  rw [real_assign]
  split_ifs
  · exact given
  · exact there

theorem isSome_resolveAll (there : (s.real r').isSome) :
    ((s.resolveAll ask fns).real r').isSome := by
  induction fns generalizing s with
  | nil => exact there
  | cons p rest ih => exact ih (isSome_resolve there)

theorem isSome_resolveAll_self {name : String} (listed : (r, name) ∈ fns)
    (given : (ask name).isSome) : ((s.resolveAll ask fns).real r).isSome := by
  induction fns generalizing s with
  | nil => cases listed
  | cons p rest ih =>
      rcases List.mem_cons.mp listed with rfl | later
      · exact isSome_resolveAll (s := s.resolve r (ask name)) (isSome_resolve_self given)
      · exact ih later

theorem isSome_assignAll (given : ∀ p ∈ fns, (ask p.2).isSome) (there : (s.real r').isSome) :
    ((s.assignAll ask fns).real r').isSome := by
  induction fns generalizing s with
  | nil => exact there
  | cons p rest ih =>
      exact ih (fun q member => given q (List.mem_cons_of_mem p member))
        (isSome_assign (given p (List.mem_cons_self ..)) there)

theorem isSome_assignAll_self (given : ∀ p ∈ fns, (ask p.2).isSome) {name : String}
    (listed : (r, name) ∈ fns) : ((s.assignAll ask fns).real r).isSome := by
  induction fns generalizing s with
  | nil => cases listed
  | cons p rest ih =>
      have later_given : ∀ q ∈ rest, (ask q.2).isSome := fun q member =>
        given q (List.mem_cons_of_mem p member)
      rcases List.mem_cons.mp listed with rfl | later
      · apply isSome_assignAll later_given
        rw [real_assign, if_pos rfl]
        exact given _ (List.mem_cons_self ..)
      · exact ih later_given later

end Resolving

/-- Pointers are what they are for, and a hook that depends on one has it. -/
structure Wired (blob : Blob φ) (s : Interposer φ) : Prop where
  names : ∀ r, Answers blob r (s.real r)
  hooked : ∀ e ∈ allHooked, s.handedOut e.hook = true →
    (s.real e.real).isSome
  scratch : s.scratch = true → (s.real .di).isSome ∧ (s.real .fm).isSome

def IdentityThere (s : Interposer φ) : Prop := ∀ p ∈ allIdentityFns, (s.real p.1).isSome

structure Inv (blob : Blob φ) (s : Interposer φ) : Prop where
  wired : Wired blob s
  identity : s.identityResolved = true → IdentityThere s

/-- No pointer is null again. -/
def Grows (s s' : Interposer φ) : Prop := ∀ r, (s.real r).isSome → (s'.real r).isSome

section Keeping

variable {blob : Blob φ} {s s' : Interposer φ} {ask : String → Option φ}
  {fns : List (RealFn × String)}

theorem Grows.trans {s'' : Interposer φ} (first : Grows s s') (second : Grows s' s'') :
    Grows s s'' := fun r there => second r (first r there)

theorem grows_resolve {r : RealFn} {a : Option φ} : Grows s (s.resolve r a) :=
  fun _ there => isSome_resolve there

theorem grows_resolveAll : Grows s (s.resolveAll ask fns) := fun _ there => isSome_resolveAll there

theorem grows_assignAll (given : ∀ p ∈ fns, (ask p.2).isSome) : Grows s (s.assignAll ask fns) :=
  fun _ there => isSome_assignAll given there

theorem Wired.congr (wired : Wired blob s) (real : s'.real = s.real)
    (handedOut : s'.handedOut = s.handedOut) (scratch : s'.scratch = s.scratch) :
    Wired blob s' := by
  obtain ⟨names, hooked, owned⟩ := wired
  refine ⟨?_, ?_, ?_⟩
  · rwa [real]
  · rwa [handedOut, real]
  · rwa [scratch, real]

theorem Inv.congr (inv : Inv blob s) (real : s'.real = s.real)
    (handedOut : s'.handedOut = s.handedOut) (scratch : s'.scratch = s.scratch)
    (resolved : s'.identityResolved = s.identityResolved) : Inv blob s' := by
  refine ⟨inv.wired.congr real handedOut scratch, fun flag p listed => ?_⟩
  rw [real]
  exact inv.identity (resolved ▸ flag) p listed

theorem Wired.assign (wired : Wired blob s) {r : RealFn} {a : Option φ}
    (answers : Answers blob r a) (kept : (s.real r).isSome → a.isSome) :
    Wired blob (s.assign r a) := by
  have grown : Grows s (s.assign r a) := by
    intro r' there
    rw [real_assign]
    split_ifs with same
    · exact kept (same ▸ there)
    · exact there
  refine ⟨fun r' => ?_, fun e listed given => grown _ (wired.hooked e listed given),
    fun owned => ⟨grown _ (wired.scratch owned).1, grown _ (wired.scratch owned).2⟩⟩
  rw [real_assign]
  split_ifs with same
  · exact same ▸ answers
  · exact wired.names r'

theorem Wired.resolve (wired : Wired blob s) {r : RealFn} {a : Option φ}
    (answers : Answers blob r a) : Wired blob (s.resolve r a) := by
  unfold Interposer.resolve
  split_ifs with there
  · exact wired
  · exact wired.assign answers fun known => absurd known there

theorem Wired.resolveAll (wired : Wired blob s) (answers : ∀ p ∈ fns, Answers blob p.1 (ask p.2)) :
    Wired blob (s.resolveAll ask fns) := by
  induction fns generalizing s with
  | nil => exact wired
  | cons p rest ih =>
      exact ih (wired.resolve (answers p (List.mem_cons_self ..))) fun q member =>
        answers q (List.mem_cons_of_mem p member)

theorem Wired.assignAll (wired : Wired blob s) (answers : ∀ p ∈ fns, Answers blob p.1 (ask p.2))
    (given : ∀ p ∈ fns, (ask p.2).isSome) : Wired blob (s.assignAll ask fns) := by
  induction fns generalizing s with
  | nil => exact wired
  | cons p rest ih =>
      have first := wired.assign (answers p (List.mem_cons_self ..)) fun _ =>
        given p (List.mem_cons_self ..)
      exact ih first (fun q member => answers q (List.mem_cons_of_mem p member))
        fun q member => given q (List.mem_cons_of_mem p member)

theorem Inv.grow (inv : Inv blob s) (wired : Wired blob s') (grown : Grows s s')
    (resolved : s'.identityResolved = s.identityResolved) : Inv blob s' :=
  ⟨wired, fun flag p listed => grown _ (inv.identity (resolved ▸ flag) p listed)⟩

@[simp] theorem identityResolved_resolve {r : RealFn} {a : Option φ} :
    (s.resolve r a).identityResolved = s.identityResolved := by
  unfold Interposer.resolve
  split_ifs <;> rfl

@[simp] theorem identityResolved_resolveAll :
    (s.resolveAll ask fns).identityResolved = s.identityResolved := by
  induction fns generalizing s with
  | nil => rfl
  | cons p rest ih => exact (ih (s := s.resolve p.1 (ask p.2))).trans identityResolved_resolve

theorem Inv.resolve (inv : Inv blob s) {r : RealFn} {a : Option φ} (answers : Answers blob r a) :
    Inv blob (s.resolve r a) :=
  inv.grow (inv.wired.resolve answers) grows_resolve identityResolved_resolve

theorem Inv.resolveDevice (inv : Inv blob s) {dev : VkDevice}
    (known : ∀ p ∈ fns, p ∈ cacheFns ++ scratchFns ++ memextFns ++ allIdentityFns) :
    Inv blob (s.resolveAll (blob.gdpa dev) fns) :=
  inv.grow (inv.wired.resolveAll fun p listed => answers_gdpa (name_resolved (known p listed)))
    grows_resolveAll identityResolved_resolveAll

private theorem answers_identity {inst : VkInstance} {p : RealFn × String}
    (listed : p ∈ allIdentityFns) : Answers blob p.1 (blob.gipa inst p.2) :=
  answers_gipa (name_resolved (List.mem_append_right _ listed))

theorem resolveIdentityFns_spec (complete : Complete blob) (inv : Inv blob s) :
    Inv blob (resolveIdentityFns blob s) ∧ Grows s (resolveIdentityFns blob s) ∧
      IdentityThere (resolveIdentityFns blob s) := by
  unfold resolveIdentityFns
  split_ifs with resolved
  · exact ⟨inv, fun _ there => there, inv.identity resolved⟩
  · have given := complete.gipa s.shimInstance
    have rest_given : ∀ p ∈ identityFns, (blob.gipa s.shimInstance p.2).isSome := fun p member =>
      given p (List.mem_cons_of_mem _ (List.mem_cons_of_mem _ member))
    have properties : ((.gpdp, "vkGetPhysicalDeviceProperties") : RealFn × String) ∈
        allIdentityFns :=
      List.mem_cons_self ..
    have memory : ((.gpdmp, "vkGetPhysicalDeviceMemoryProperties") : RealFn × String) ∈
        allIdentityFns := List.mem_cons_of_mem _ (List.mem_cons_self ..)
    let s₁ : Interposer φ := { s with identityResolved := true }
    let s₂ := s₁.resolve .gpdp (blob.gipa s.shimInstance "vkGetPhysicalDeviceProperties")
    let s₃ := s₂.assignAll (blob.gipa s.shimInstance) identityFns
    let s₄ := s₃.resolve .gpdmp (blob.gipa s.shimInstance "vkGetPhysicalDeviceMemoryProperties")
    have wired₁ : Wired blob s₁ := inv.wired.congr rfl rfl rfl
    have wired₂ : Wired blob s₂ := wired₁.resolve (answers_identity properties)
    have wired₃ : Wired blob s₃ := wired₂.assignAll (fun p member =>
      answers_identity (List.mem_cons_of_mem _ (List.mem_cons_of_mem _ member))) rest_given
    have wired₄ : Wired blob s₄ := wired₃.resolve (answers_identity memory)
    have grows₃ : Grows s₂ s₃ := grows_assignAll rest_given
    have grows₄ : Grows s₃ s₄ := grows_resolve
    have all_there : IdentityThere s₄ := by
      intro p listed
      rcases List.mem_cons.mp listed with rfl | listed
      · exact grows₄ _ (grows₃ _ (isSome_resolve_self (given _ properties)))
      · rcases List.mem_cons.mp listed with rfl | listed
        · exact isSome_resolve_self (given _ memory)
        · exact grows₄ _ (isSome_assignAll_self rest_given listed)
    have grows : Grows s s₄ := (show Grows s s₂ from grows_resolve (s := s₁)).trans
      (grows₃.trans grows₄)
    exact ⟨⟨wired₄, fun _ => all_there⟩, grows, all_there⟩

/-- A step that keeps the invariant and the pointers. -/
def Keeps (blob : Blob φ) (s s' : Interposer φ) : Prop := Inv blob s → Inv blob s' ∧ Grows s s'

theorem Keeps.refl : Keeps blob s s := fun inv => ⟨inv, fun _ there => there⟩

theorem Keeps.trans {s'' : Interposer φ} (first : Keeps blob s s') (second : Keeps blob s' s'') :
    Keeps blob s s'' := by
  intro inv
  obtain ⟨inv', grown⟩ := first inv
  obtain ⟨inv'', further⟩ := second inv'
  exact ⟨inv'', grown.trans further⟩

theorem Keeps.ite {c : Prop} [Decidable c] {a b : Interposer φ} (yes : Keeps blob s a)
    (no : Keeps blob s b) : Keeps blob s (if c then a else b) := by
  split_ifs
  · exact yes
  · exact no

theorem Keeps.congr (real : s'.real = s.real) (handedOut : s'.handedOut = s.handedOut)
    (scratch : s'.scratch = s.scratch) (resolved : s'.identityResolved = s.identityResolved) :
    Keeps blob s s' := fun inv =>
  ⟨inv.congr real handedOut scratch resolved, fun r there => by rwa [real]⟩

theorem keeps_resolve {r : RealFn} {a : Option φ} (answers : Answers blob r a) :
    Keeps blob s (s.resolve r a) := fun inv => ⟨inv.resolve answers, grows_resolve⟩

theorem keeps_resolveFor {handle : Nat} {r : RealFn} {a : Option φ} (answers : Answers blob r a) :
    Keeps blob s (s.resolveFor handle r a) :=
  .ite .refl (keeps_resolve answers)

theorem keeps_resolveDevice {dev : VkDevice}
    (known : ∀ p ∈ fns, p ∈ cacheFns ++ scratchFns ++ memextFns ++ allIdentityFns) :
    Keeps blob s (s.resolveAll (blob.gdpa dev) fns) := fun inv =>
  ⟨inv.resolveDevice known, grows_resolveAll⟩

theorem keeps_ensureMemProps : Keeps blob s (ensureMemProps blob s) := by
  unfold ensureMemProps
  split_ifs with loaded
  · exact .refl
  · exact (keeps_resolveFor (answers_gipa rfl)).trans
      ((keeps_resolveFor (answers_gdpa rfl)).trans (.congr rfl rfl rfl rfl))

theorem keeps_resolveIdentityFns (complete : Complete blob) :
    Keeps blob s (resolveIdentityFns blob s) := fun inv =>
  ⟨(resolveIdentityFns_spec complete inv).1, (resolveIdentityFns_spec complete inv).2.1⟩

theorem keeps_deviceCreated {physical : VkPhysicalDevice} {created : VkDevice} :
    Keeps blob s (s.deviceCreated blob physical created) := by
  let s₁ : Interposer φ := { s with physicalDev := physical, shimDev := created }
  have asked : Keeps blob s₁
      (s₁.resolve .gpdmp (blob.gdpa created "vkGetPhysicalDeviceMemoryProperties")) :=
    keeps_resolve (answers_gdpa rfl)
  exact (show Keeps blob s s₁ from .congr rfl rfl rfl rfl).trans
    (asked.trans (.congr rfl rfl rfl rfl))

theorem keeps_instanceCreated (complete : Complete blob) {created : VkInstance} :
    Keeps blob s (s.instanceCreated blob created) := by
  intro inv
  have given : (blob.gipa created "vkGetPhysicalDeviceMemoryProperties").isSome :=
    complete.gipa created (.gpdmp, _) (List.mem_cons_of_mem _ (List.mem_cons_self ..))
  have moved : Inv blob { s with shimInstance := created } := inv.congr rfl rfl rfl rfl
  have grown : Grows s (s.instanceCreated blob created) := fun r there =>
    isSome_assign (s := { s with shimInstance := created }) given there
  exact ⟨moved.grow (moved.wired.assign (answers_gipa rfl) fun _ => given) grown rfl, grown⟩

theorem scratchFns_there (complete : Complete blob) {dev : VkDevice} {r : RealFn} {name : String}
    (listed : (r, name) ∈ scratchFns) : ((resolveScratchFns blob dev s).real r).isSome :=
  isSome_resolveAll_self listed (complete.gdpa dev _ (List.mem_append_left _ listed))

theorem memextFns_there (complete : Complete blob) {dev : VkDevice} {r : RealFn} {name : String}
    (listed : (r, name) ∈ memextFns) : ((resolveMemextFns blob dev s).real r).isSome :=
  isSome_resolveAll_self listed (complete.gdpa dev _ (List.mem_append_right _ listed))

private theorem keeps_emulated (complete : Complete blob) {dev : VkDevice} {owned : Bool} :
    Keeps blob s
      { ensureMemProps blob (resolveScratchFns blob dev s) with scratch := owned } := by
  intro inv
  obtain ⟨resolved, grown⟩ : Inv blob (resolveScratchFns blob dev s) ∧ _ :=
    keeps_resolveDevice (by decide) inv
  obtain ⟨inv', further⟩ := keeps_ensureMemProps resolved
  have destroy := further .di (scratchFns_there complete
    (List.mem_cons_of_mem _ (List.mem_cons_self ..)))
  have release := further .fm (scratchFns_there complete
    (List.mem_cons_of_mem _ (List.mem_cons_of_mem _ (List.mem_cons_of_mem _
      (List.mem_cons_self ..)))))
  exact ⟨⟨⟨inv'.wired.names, inv'.wired.hooked, fun _ => ⟨destroy, release⟩⟩, inv'.identity⟩,
    grown.trans further⟩

theorem keeps_enter (complete : Complete blob) {props : PropertyStore} {v : Visit} :
    Keeps blob s (s.enter blob props v) := by
  have cached : Keeps blob s (if v.served then resolveCacheFns blob v.dev s else s) :=
    .ite (keeps_resolveDevice (by decide)) .refl
  have identity : Keeps blob s (resolveIdentityFns blob s) := keeps_resolveIdentityFns complete
  have memext : Keeps blob s (resolveMemextFns blob v.dev s) := keeps_resolveDevice (by decide)
  have settled : Keeps blob s { s with gates := settle props s.gates } := .congr rfl rfl rfl rfl
  unfold Interposer.enter
  cases v.hook with
  | createGraphicsPipelines => exact cached
  | createComputePipelines => exact cached
  | createPipelineCache => exact cached
  | cmdBlitImage => exact .ite (keeps_emulated complete) .refl
  | createInstance => exact .ite (keeps_instanceCreated complete) .refl
  | createDevice =>
      exact (Keeps.ite settled .refl : Keeps blob s (if v.listed then _ else s)).trans
        (.ite keeps_deviceCreated .refl)
  | enumerateDeviceExtensionProperties => exact settled
  | getPhysicalDeviceProperties2KHR => exact .ite (identity.trans (.congr rfl rfl rfl rfl)) identity
  | getPhysicalDeviceFeatures2KHR => exact identity
  | getPhysicalDeviceFormatProperties2KHR => exact identity
  | getPhysicalDeviceImageFormatProperties2KHR => exact identity
  | getPhysicalDeviceQueueFamilyProperties2KHR => exact identity
  | getPhysicalDeviceMemoryProperties2KHR => exact identity
  | getPhysicalDeviceSparseImageFormatProperties2KHR => exact identity
  | getDescriptorSetLayoutSupportKHR => exact identity
  | getImageMemoryRequirements2KHR => exact memext
  | getBufferMemoryRequirements2KHR => exact memext
  | getImageSparseMemoryRequirements2KHR => exact memext
  | bindBufferMemory2KHR => exact memext
  | bindImageMemory2KHR => exact memext
  | _ => exact .refl

end Keeping

/-- Gates that were read stay as they were read. -/
structure GatesKept (g g' : Gates) : Prop where
  drvinfo : ∀ {on}, g.drvinfo = some on → g'.drvinfo = some on
  memext : ∀ {on}, g.memext = some on → g'.memext = some on

theorem GatesKept.refl (g : Gates) : GatesKept g g := ⟨id, id⟩

theorem GatesKept.trans {g g' g'' : Gates} (first : GatesKept g g') (second : GatesKept g' g'') :
    GatesKept g g'' :=
  ⟨fun read => second.drvinfo (first.drvinfo read), fun read => second.memext (first.memext read)⟩

/-- Only gates were read. -/
def OnlyGates (s s' : Interposer φ) : Prop :=
  ∃ gates khrAlias, s' = { s with gates := gates, khrAlias := khrAlias } ∧
    GatesKept s.gates gates

/-- What a lookup of `name` comes to; `device` says whether it went through a device. -/
inductive Looked (device : Prop) (ask : String → Option φ) (name : String) (s : Interposer φ) :
    Option (Proc φ) × Interposer φ → Prop
  | hooked {e : Hooked} {s₁ : Interposer φ} : e ∈ allHooked → e.name = name → OnlyGates s s₁ →
      Looked device ask name s
        (if ((s₁.resolve e.real (ask name)).real e.real).isSome then some (.shim e.hook) else none,
          s₁.resolve e.real (ask name))
  | answered {e : Answered} {s₁ : Interposer φ} : e ∈ identityProcs ++ memextProcs →
      (e.khr = name ∨ e.core = name) → OnlyGates s s₁ →
      Looked device ask name s (some (.shim e.hook), s₁)
  | itself : device → name = "vkGetDeviceProcAddr" →
      Looked device ask name s (some (.shim .getDeviceProcAddr), s)
  | blob {f : φ} {s₁ : Interposer φ} : ask name = some f → OnlyGates s s₁ →
      Looked device ask name s (some (.blob f), s₁)
  | aliased {khr : String} {f : φ} {s₁ : Interposer φ} : ask name = none →
      khrName name 128 = some khr → ask khr = some f → OnlyGates s s₁ →
      Looked device ask name s (some (.blob f), s₁)
  | null {s₁ : Interposer φ} : ask name = none → OnlyGates s s₁ →
      Looked device ask name s (none, s₁)

section Looking

variable {blob : Blob φ} {s : Interposer φ} {device : Prop} {ask : String → Option φ}
  {props : PropertyStore} {name : String}

theorem propOn_kept {gateName : String} {gate : Gate} {on : Bool} (read : gate = some on) :
    (propOn props gateName gate).2 = some on := by
  rw [read]
  rfl

theorem lookupHooked_eq {table : List Hooked} {r : Option (Proc φ) × Interposer φ}
    (found : lookupHooked ask table name s = some r) : ∃ e ∈ table, e.name = name ∧
      r = (if ((s.resolve e.real (ask name)).real e.real).isSome then some (.shim e.hook) else none,
        s.resolve e.real (ask name)) := by
  obtain ⟨e, is_e, rfl⟩ := Option.map_eq_some_iff.mp found
  exact ⟨e, List.mem_of_find?_eq_some is_e, by simpa using List.find?_some is_e, rfl⟩

theorem lookupAnswered_eq {table : List Answered} {p : Proc φ}
    (found : lookupAnswered table name = some p) : ∃ e ∈ table, (e.khr = name ∨ e.core = name) ∧
      p = .shim e.hook := by
  obtain ⟨e, is_e, rfl⟩ := Option.map_eq_some_iff.mp found
  exact ⟨e, List.mem_of_find?_eq_some is_e, by simpa using List.find?_some is_e, rfl⟩

private theorem looked_blobOrAlias {s₀ : Interposer φ} (gates : OnlyGates s₀ s) :
    Looked device ask name s₀ (blobOrAlias ask props name s) := by
  obtain ⟨g, k, rfl, kept⟩ := gates
  unfold blobOrAlias
  cases given : ask name with
  | some f => exact .blob given ⟨g, k, rfl, kept⟩
  | none =>
      simp only
      split_ifs with on
      · cases khr : khrName name 128 with
        | none => exact .null given ⟨g, _, rfl, kept⟩
        | some khr' =>
            cases found : ask khr' with
            | none => simpa [found] using Looked.null given ⟨g, _, rfl, kept⟩
            | some f => simpa [found] using Looked.aliased given khr found ⟨g, _, rfl, kept⟩
      · exact .null given ⟨g, _, rfl, kept⟩

private theorem looked_memextOrBlob {s₀ : Interposer φ} (gates : OnlyGates s₀ s) :
    Looked device ask name s₀ (memextOrBlob ask props name s) := by
  obtain ⟨g, k, rfl, kept⟩ := gates
  have read : OnlyGates s₀ { s₀ with
      gates := ⟨g.drvinfo, (propOn props "debug.xdplus.vkmemext" g.memext).2⟩, khrAlias := k } :=
    ⟨_, _, rfl, kept.trans ⟨id, propOn_kept⟩⟩
  unfold memextOrBlob
  simp only
  cases found : (if (propOn props "debug.xdplus.vkmemext" g.memext).1 then
      lookupAnswered (φ := φ) memextProcs name else none) with
  | none => exact looked_blobOrAlias read
  | some p =>
      split_ifs at found
      obtain ⟨e, listed, named, rfl⟩ := lookupAnswered_eq found
      exact .answered (List.mem_append_right _ listed) named read

private theorem onlyGates_refl : OnlyGates s s := ⟨_, _, rfl, .refl _⟩

theorem looked_device {dev : VkDevice} :
    Looked True (blob.gdpa dev) name s (shimGetDeviceProcAddr blob props dev name s) := by
  unfold shimGetDeviceProcAddr
  cases found : lookupHooked (blob.gdpa dev) deviceHooks name s with
  | some r =>
      obtain ⟨e, listed, named, rfl⟩ := lookupHooked_eq found
      exact .hooked (by simp [allHooked, listed]) named onlyGates_refl
  | none =>
      simp only
      split_ifs with own
      · exact .itself trivial own
      · exact looked_memextOrBlob onlyGates_refl

private theorem looked_identity {s₀ : Interposer φ} {r : Option (Proc φ) × Interposer φ}
    (gates : OnlyGates s₀ s) (found : lookupIdentity ask name s = some r) :
    Looked device ask name s₀ r := by
  unfold lookupIdentity at found
  cases first : lookupHooked ask identityHooks name s with
  | some r' =>
      rw [first] at found
      obtain rfl := Option.some.inj found
      obtain ⟨e, listed, named, rfl⟩ := lookupHooked_eq first
      exact .hooked (by simp [allHooked, listed]) named gates
  | none =>
      rw [first] at found
      obtain ⟨p, second, rfl⟩ := Option.map_eq_some_iff.mp found
      obtain ⟨e, listed, named, rfl⟩ := lookupAnswered_eq second
      exact .answered (List.mem_append_left _ listed) named gates

theorem looked_instance {inst : VkInstance} :
    Looked False (blob.gipa inst) name s (shimGetInstanceProcAddr blob props inst name s) := by
  unfold shimGetInstanceProcAddr
  cases first : lookupHooked (blob.gipa inst) instanceHooks name s with
  | some r =>
      obtain ⟨e, listed, named, rfl⟩ := lookupHooked_eq first
      exact .hooked (by simp [allHooked, listed]) named onlyGates_refl
  | none =>
      have read : OnlyGates s { s with gates := { s.gates with
          drvinfo := (propOn props "debug.xdplus.vkdrvinfo" s.gates.drvinfo).2 } } :=
        ⟨_, _, rfl, propOn_kept, id⟩
      simp only
      cases found : (if (propOn props "debug.xdplus.vkdrvinfo" s.gates.drvinfo).1 then
          lookupIdentity (blob.gipa inst) name { s with gates := { s.gates with
            drvinfo := (propOn props "debug.xdplus.vkdrvinfo" s.gates.drvinfo).2 } }
          else none) with
      | none => exact looked_memextOrBlob read
      | some r =>
          split_ifs at found
          exact looked_identity read found

/-- Whatever is asked of the blob is asked under the name of the pointer. -/
def AsksRightly (blob : Blob φ) (ask : String → Option φ) : Prop :=
  ∀ {r : RealFn} {name : String}, name = RealFn.name r → Answers blob r (ask name)

private theorem hooked_apart {e : Hooked} (hooked : e ∈ allHooked) {a : Answered}
    (answered : a ∈ identityProcs ++ memextProcs) : e.hook ≠ a.hook := by
  revert a
  revert e
  decide

theorem getDeviceProcAddr_hooked :
    ⟨"vkGetDeviceProcAddr", .gdpa, .getDeviceProcAddr⟩ ∈ allHooked :=
  List.mem_append_left _ (List.mem_append_left _ (List.mem_cons_self ..))

private theorem hooked_unique {e e' : Hooked} (listed : e ∈ allHooked) (listed' : e' ∈ allHooked)
    (same : e.hook = e'.hook) : e.real = e'.real := by
  revert e'
  revert e
  decide

theorem Inv.onlyGates {s₁ : Interposer φ} (inv : Inv blob s) (gates : OnlyGates s s₁) :
    Inv blob s₁ := by
  obtain ⟨g, k, rfl, -⟩ := gates
  exact inv.congr rfl rfl rfl rfl

theorem Inv.handOut (inv : Inv blob s) {hook : Hook}
    (there : ∀ e ∈ allHooked, e.hook = hook → (s.real e.real).isSome) :
    Inv blob (s.handOut (some (.shim hook))) := by
  refine ⟨⟨inv.wired.names, fun e listed given => ?_, inv.wired.scratch⟩, inv.identity⟩
  by_cases same : e.hook = hook
  · exact there e listed same
  · apply inv.wired.hooked e listed
    have kept : Function.update s.handedOut hook true e.hook = true := given
    rwa [Function.update_of_ne same] at kept

theorem inv_handOut (rightly : AsksRightly blob ask) {r : Option (Proc φ) × Interposer φ}
    (looked : Looked device ask name s r) (itself : device → (s.real .gdpa).isSome)
    (inv : Inv blob s) : Inv blob (r.2.handOut r.1) := by
  cases looked with
  | @hooked e s₁ listed named gates =>
      have resolved : Inv blob (s₁.resolve e.real (ask name)) :=
        (inv.onlyGates gates).resolve (rightly (named.symm.trans (name_hooked listed)))
      simp only
      split_ifs with there
      · exact resolved.handOut fun e' listed' same => hooked_unique listed listed' same.symm ▸ there
      · exact resolved
  | answered listed named gates =>
      exact (inv.onlyGates gates).handOut fun e' listed' same =>
        absurd same (hooked_apart listed' listed)
  | itself through own =>
      refine inv.handOut fun e listed same => ?_
      have real : e.real = .gdpa := hooked_unique listed getDeviceProcAddr_hooked same
      exact real ▸ itself through
  | blob given gates => exact inv.onlyGates gates
  | aliased null khr given gates => exact inv.onlyGates gates
  | null given gates => exact inv.onlyGates gates

end Looking

section Runs

variable {blob : Blob φ} {s : Interposer φ}

theorem inv_opened : Inv blob (.opened φ) := by
  refine ⟨⟨fun r f given => ?_, fun e listed given => ?_, fun owned => ?_⟩, fun resolved => ?_⟩
  · cases given
  · cases given
  · cases owned
  · cases resolved

theorem gdpa_there (inv : Inv blob s) (loaded : s.handedOut .getDeviceProcAddr = true) :
    (s.real .gdpa).isSome :=
  inv.wired.hooked _ getDeviceProcAddr_hooked loaded

theorem inv_next (complete : Complete blob) (inv : Inv blob s) {props : PropertyStore}
    {action : Action} (permitted : Permitted s action) : Inv blob (next blob props s action) := by
  cases action with
  | instanceLookup inst name =>
      exact inv_handOut answers_gipa looked_instance False.elim inv
  | deviceLookup dev name =>
      exact inv_handOut answers_gdpa looked_device (fun _ => gdpa_there inv permitted) inv
  | call v => exact (keeps_enter complete inv).1

theorem inv_reachable (complete : Complete blob) (reach : (machine blob).Reachable s) :
    Inv blob s := by
  refine reach.invariant ?_ ?_
  · rintro _ rfl
    exact inv_opened
  · rintro s l _ - inv ⟨permitted, rfl⟩
    exact inv_next complete inv permitted

private theorem own_cases {hook : Hook} {r : RealFn} (own : hook.own = some r) :
    (∃ e ∈ allHooked, e.hook = hook ∧ e.real = r) ∨
      (hook ∈ identityProcs.map Answered.hook ∧ r ∈ allIdentityFns.map Prod.fst) ∨
      (hook ∈ memextProcs.map Answered.hook ∧ r ∈ memextFns.map Prod.fst) := by
  cases hook <;> cases own <;> decide

private theorem enter_identity (complete : Complete blob) (inv : Inv blob s)
    {props : PropertyStore} {v : Visit} (identity : v.hook ∈ identityProcs.map Answered.hook)
    (calls : v.hook.own ≠ none) : IdentityThere (s.enter blob props v) := by
  have there := (resolveIdentityFns_spec complete inv).2.2
  obtain ⟨hook, dev, physical, created, listed, served⟩ := v
  simp only [identityProcs, List.map_cons, List.map_nil, List.mem_cons, List.not_mem_nil,
    or_false] at identity
  rcases identity with rfl | rfl | rfl | rfl | rfl | rfl | rfl | rfl
  · show IdentityThere (if listed then _ else _)
    split_ifs <;> exact there
  iterate 6 exact there
  · exact absurd rfl calls

private theorem enter_memext {props : PropertyStore} {v : Visit}
    (memext : v.hook ∈ memextProcs.map Answered.hook) (calls : v.hook.own ≠ none) :
    s.enter blob props v = resolveMemextFns blob v.dev s := by
  obtain ⟨hook, dev, physical, created, listed, served⟩ := v
  simp only [memextProcs, List.map_cons, List.map_nil, List.mem_cons, List.not_mem_nil,
    or_false] at memext
  rcases memext with rfl | rfl | rfl | rfl | rfl | rfl
  iterate 5 rfl
  · exact absurd rfl calls

private theorem own_there (complete : Complete blob) (inv : Inv blob s) {props : PropertyStore}
    {v : Visit} (given : s.handedOut v.hook = true) {r : RealFn} (own : v.hook.own = some r) :
    ((s.enter blob props v).real r).isSome := by
  have calls : v.hook.own ≠ none := by simp [own]
  obtain ⟨e, listed, hook, rfl⟩ | ⟨identity, listed⟩ | ⟨memext, listed⟩ := own_cases own
  · exact (keeps_enter complete inv).2 _ (inv.wired.hooked e listed (hook ▸ given))
  · obtain ⟨p, pair, rfl⟩ := List.mem_map.mp listed
    exact enter_identity complete inv identity calls p pair
  · obtain ⟨p, pair, rfl⟩ := List.mem_map.mp listed
    rw [enter_memext memext calls]
    exact memextFns_there complete pair

private theorem emulated_there (complete : Complete blob) (inv : Inv blob s) {dev : VkDevice}
    {r : RealFn} (listed : r ∈ scratchFns.map Prod.fst) :
    ((ensureMemProps blob (resolveScratchFns blob dev s)).real r).isSome := by
  obtain ⟨resolved, -⟩ : Inv blob (resolveScratchFns blob dev s) ∧ _ :=
    keeps_resolveDevice (by decide) inv
  obtain ⟨p, pair, rfl⟩ := List.mem_map.mp listed
  exact (keeps_ensureMemProps resolved).2 _ (scratchFns_there complete pair)

private theorem further_there (complete : Complete blob) (inv : Inv blob s)
    (loaded : s.handedOut .getDeviceProcAddr = true) {props : PropertyStore} {v : Visit} :
    ∀ r ∈ v.further (s.enter blob props v), ((s.enter blob props v).real r).isSome := by
  obtain ⟨inv', grown⟩ : Inv blob (s.enter blob props v) ∧ _ := keeps_enter complete inv
  have device : ∀ r ∈ [RealFn.gdpa], ((s.enter blob props v).real r).isSome := by
    intro r member
    rw [List.mem_singleton.mp member]
    exact grown _ (gdpa_there inv loaded)
  have served : ∀ r ∈ if v.served then [RealFn.gdpa] else [],
      ((s.enter blob props v).real r).isSome := by
    split_ifs
    · exact device
    · exact fun r member => absurd member (List.not_mem_nil)
  have owned : ∀ r ∈ if (s.enter blob props v).scratch then [RealFn.di, RealFn.fm] else [],
      ((s.enter blob props v).real r).isSome := by
    split_ifs with scratch
    · intro r member
      simp only [List.mem_cons, List.not_mem_nil, or_false] at member
      rcases member with rfl | rfl
      · exact (inv'.wired.scratch scratch).1
      · exact (inv'.wired.scratch scratch).2
    · exact fun r member => absurd member (List.not_mem_nil)
  unfold Visit.further
  cases hook : v.hook with
  | createGraphicsPipelines => exact served
  | createComputePipelines => exact served
  | createPipelineCache => exact served
  | createDevice => exact served
  | cmdBlitImage =>
      show ∀ r ∈ if v.served then _ else _, _
      split_ifs with past emulated
      · intro r member
        rcases List.mem_cons.mp member with rfl | member
        · exact device _ (List.mem_singleton_self _)
        · have listed : r ∈ scratchFns.map Prod.fst := by
            revert r
            decide
          have blits : (s.enter blob props v).real =
              (ensureMemProps blob (resolveScratchFns blob v.dev s)).real := by
            unfold Interposer.enter
            simp only [hook, past, if_true]
          rw [blits]
          exact emulated_there complete inv listed
      · exact device
      · exact fun r member => absurd member (List.not_mem_nil)
  | beginCommandBuffer => exact owned
  | resetCommandBuffer => exact owned
  | freeCommandBuffers => exact owned
  | resetCommandPool => exact owned
  | destroyCommandPool => exact owned
  | destroyDevice => exact owned
  | getImageMemoryRequirements2KHR => exact device
  | getBufferMemoryRequirements2KHR => exact device
  | getImageSparseMemoryRequirements2KHR => exact device
  | bindBufferMemory2KHR => exact device
  | bindImageMemory2KHR => exact device
  | _ => exact fun r member => absurd member (List.not_mem_nil)

/-- A blob whose functions are known by their names. -/
def echo : Blob String where
  gipa _ name := some name
  gdpa _ name := some name

theorem echo_complete : Complete echo := ⟨fun _ _ _ => rfl, fun _ _ _ => rfl⟩

def unset : PropertyStore := fun _ => ""

/-- A device is created and asked for the blit, and the blit is emulated. -/
def echoLoaded : Interposer String :=
  next echo unset (.opened String) (.instanceLookup 1 "vkGetDeviceProcAddr")

def echoAsked : Interposer String :=
  next echo unset echoLoaded (.instanceLookup 1 "vkCreateDevice")

def echoCreated : Interposer String :=
  next echo unset echoAsked (.call ⟨.createDevice, 0, 3, 7, true, true⟩)

def echoReady : Interposer String :=
  next echo unset echoCreated (.deviceLookup 7 "vkCmdBlitImage")

def echoBlit : Visit := ⟨.cmdBlitImage, 7, 0, 0, false, true⟩

theorem echoReady_reachable : (machine echo).Reachable echoReady := by
  have loaded : (machine echo).Reachable echoLoaded :=
    .next (l := (unset, .instanceLookup 1 "vkGetDeviceProcAddr")) (.start rfl) ⟨trivial, rfl⟩
  have asked : (machine echo).Reachable echoAsked :=
    loaded.next (l := (unset, .instanceLookup 1 "vkCreateDevice")) ⟨trivial, rfl⟩
  have created : (machine echo).Reachable echoCreated :=
    asked.next (l := (unset, .call ⟨.createDevice, 0, 3, 7, true, true⟩))
      ⟨(by decide : echoAsked.handedOut .createDevice = true), rfl⟩
  exact created.next (l := (unset, .deviceLookup 7 "vkCmdBlitImage"))
    ⟨(by decide : echoCreated.handedOut .getDeviceProcAddr = true), rfl⟩

/-- A hook that was handed out finds each function it calls without a look at the pointer, and the
function is the one the blob gave for that name. -/
theorem entered_safely (complete : Complete blob) (reach : (machine blob).Reachable s)
    (loaded : s.handedOut .getDeviceProcAddr = true) (props : PropertyStore) (v : Visit)
    (given : s.handedOut v.hook = true) :
    ∀ r ∈ v.calls (s.enter blob props v),
      ∃ f, (s.enter blob props v).real r = some f ∧ Asked blob r f := by
  have inv := inv_reachable complete reach
  have entered : Keeps blob s (s.enter blob props v) := keeps_enter complete
  have inv' := (entered inv).1
  intro r member
  have there : ((s.enter blob props v).real r).isSome := by
    rcases List.mem_append.mp member with own | further
    · exact own_there complete inv given (by simpa using own)
    · exact further_there complete inv loaded r further
  obtain ⟨f, is_f⟩ := Option.isSome_iff_exists.mp there
  exact ⟨f, is_f, inv'.wired.names r f is_f⟩

theorem entered_safely_echoBlit :
    echoBlit.calls (echoReady.enter echo unset echoBlit) =
        [.cbi, .gdpa, .ci, .di, .am, .fm, .gimr, .bim, .cci, .cpb] ∧
      ∀ r ∈ echoBlit.calls (echoReady.enter echo unset echoBlit),
        ∃ f, (echoReady.enter echo unset echoBlit).real r = some f ∧ Asked echo r f :=
  ⟨by decide, entered_safely echo_complete echoReady_reachable (by decide) unset echoBlit
    (by decide)⟩

/-- An answer hides nothing of the blob's, is the blob's own or that to the alias, or is the hook
for this name with the blob's function behind it. -/
structure Honest (blob : Blob φ) (ask : String → Option φ) (name : String)
    (r : Option (Proc φ) × Interposer φ) : Prop where
  hides_nothing : (ask name).isSome → r.1 ≠ none
  of_blob : ∀ {f}, r.1 = some (.blob f) → ask name = some f ∨
    (ask name = none ∧ ∃ khr, khrName name 128 = some khr ∧ ask khr = some f)
  of_shim : ∀ {hook}, r.1 = some (.shim hook) →
    (∃ p f, hook.own = some p ∧ RealFn.name p = name ∧ r.2.real p = some f ∧ Asked blob p f) ∨
      ∃ a ∈ identityProcs ++ memextProcs, a.hook = hook ∧ (a.khr = name ∨ a.core = name)

private theorem own_hooked {e : Hooked} (listed : e ∈ allHooked) : e.hook.own = some e.real := by
  revert e
  decide

private theorem honest_of_looked {device : Prop} {ask : String → Option φ}
    (rightly : AsksRightly blob ask) (inv : Inv blob s) {name : String}
    {r : Option (Proc φ) × Interposer φ} (looked : Looked device ask name s r)
    (itself : device → (s.real .gdpa).isSome) : Honest blob ask name r := by
  cases looked with
  | @hooked e s₁ listed named gates =>
      have right : name = RealFn.name e.real := named.symm.trans (name_hooked listed)
      have resolved : Inv blob (s₁.resolve e.real (ask name)) :=
        (inv.onlyGates gates).resolve (rightly right)
      refine ⟨fun given => ?_, fun got => ?_, fun got => ?_⟩
      · simp [isSome_resolve_self given]
      · simp only at got
        split_ifs at got
        cases got
      · simp only at got
        split_ifs at got with there
        obtain rfl := Proc.shim.inj (Option.some.inj got)
        obtain ⟨f, is_f⟩ := Option.isSome_iff_exists.mp there
        exact .inl ⟨_, f, own_hooked listed, right.symm, is_f, resolved.wired.names _ f is_f⟩
  | answered listed named gates =>
      refine ⟨fun _ => by simp, fun got => (by cases got), fun got => ?_⟩
      obtain rfl := Proc.shim.inj (Option.some.inj got)
      exact .inr ⟨_, listed, rfl, named⟩
  | itself through own =>
      refine ⟨fun _ => by simp, fun got => (by cases got), fun got => ?_⟩
      obtain rfl := Proc.shim.inj (Option.some.inj got)
      obtain ⟨f, is_f⟩ := Option.isSome_iff_exists.mp (itself through)
      exact .inl ⟨.gdpa, f, rfl, own.symm, is_f, inv.wired.names _ f is_f⟩
  | blob given gates =>
      refine ⟨fun _ => by simp, fun got => ?_, fun got => (by cases got)⟩
      obtain rfl := Proc.blob.inj (Option.some.inj got)
      exact .inl given
  | aliased null khr given gates =>
      refine ⟨fun _ => by simp, fun got => ?_, fun got => (by cases got)⟩
      obtain rfl := Proc.blob.inj (Option.some.inj got)
      exact .inr ⟨null, _, khr, given⟩
  | null null gates =>
      refine ⟨fun given => ?_, fun got => (by cases got), fun got => (by cases got)⟩
      rw [null] at given
      cases given

/-- Whatever was looked up before. -/
theorem lookups_honest (complete : Complete blob) (reach : (machine blob).Reachable s)
    (props : PropertyStore) (name : String) :
    (∀ inst, Honest blob (blob.gipa inst) name (shimGetInstanceProcAddr blob props inst name s)) ∧
      (s.handedOut .getDeviceProcAddr = true → ∀ dev,
        Honest blob (blob.gdpa dev) name (shimGetDeviceProcAddr blob props dev name s)) := by
  have inv := inv_reachable complete reach
  refine ⟨fun inst => ?_, fun loaded dev => ?_⟩
  · exact honest_of_looked answers_gipa inv looked_instance False.elim
  · exact honest_of_looked answers_gdpa inv looked_device fun _ => gdpa_there inv loaded

theorem lookups_honest_echoReady :
    (∀ inst, Honest echo (echo.gipa inst) "vkCmdDraw"
      (shimGetInstanceProcAddr echo unset inst "vkCmdDraw" echoReady)) ∧
      (echoReady.handedOut .getDeviceProcAddr = true → ∀ dev,
        Honest echo (echo.gdpa dev) "vkCmdDraw"
          (shimGetDeviceProcAddr echo unset dev "vkCmdDraw" echoReady)) :=
  lookups_honest echo_complete echoReady_reachable unset "vkCmdDraw"

private theorem settle_kept {props : PropertyStore} {g : Gates} : GatesKept g (settle props g) := by
  refine ⟨fun read => ?_, fun read => ?_⟩
  · rw [settle, read]
    rfl
  · rw [settle, read]
    rfl

@[simp] theorem gates_resolve {r : RealFn} {a : Option φ} : (s.resolve r a).gates = s.gates := by
  unfold Interposer.resolve
  split_ifs <;> rfl

@[simp] theorem gates_resolveAll {ask : String → Option φ} {fns : List (RealFn × String)} :
    (s.resolveAll ask fns).gates = s.gates := by
  induction fns generalizing s with
  | nil => rfl
  | cons p rest ih => exact (ih (s := s.resolve p.1 (ask p.2))).trans gates_resolve

@[simp] theorem gates_assignAll {ask : String → Option φ} {fns : List (RealFn × String)} :
    (s.assignAll ask fns).gates = s.gates := by
  induction fns generalizing s with
  | nil => rfl
  | cons p rest ih => exact ih (s := s.assign p.1 (ask p.2))

theorem gates_resolveIdentityFns : (resolveIdentityFns blob s).gates = s.gates := by
  unfold resolveIdentityFns
  split_ifs
  · rfl
  · simp

@[simp] theorem gates_resolveFor {handle : Nat} {r : RealFn} {a : Option φ} :
    (s.resolveFor handle r a).gates = s.gates := by
  unfold Interposer.resolveFor
  split_ifs
  · rfl
  · exact gates_resolve

theorem gates_ensureMemProps : (ensureMemProps blob s).gates = s.gates := by
  unfold ensureMemProps
  split_ifs
  · rfl
  · simp

theorem gates_deviceCreated {physical : VkPhysicalDevice} {created : VkDevice} :
    (s.deviceCreated blob physical created).gates = s.gates := gates_resolve

private theorem gates_handOut {p : Option (Proc φ)} : (s.handOut p).gates = s.gates := by
  unfold Interposer.handOut
  split <;> rfl

private theorem looked_kept {device : Prop} {ask : String → Option φ} {name : String}
    {r : Option (Proc φ) × Interposer φ} (looked : Looked device ask name s r) :
    GatesKept s.gates (r.2.handOut r.1).gates := by
  rw [gates_handOut]
  cases looked with
  | hooked _ _ gates =>
      obtain ⟨_, _, rfl, kept⟩ := gates
      rwa [gates_resolve]
  | answered _ _ gates =>
      obtain ⟨_, _, rfl, kept⟩ := gates
      exact kept
  | itself => exact .refl _
  | blob _ gates =>
      obtain ⟨_, _, rfl, kept⟩ := gates
      exact kept
  | aliased _ _ _ gates =>
      obtain ⟨_, _, rfl, kept⟩ := gates
      exact kept
  | null _ gates =>
      obtain ⟨_, _, rfl, kept⟩ := gates
      exact kept

private theorem enter_kept {props : PropertyStore} {v : Visit} :
    GatesKept s.gates (s.enter blob props v).gates := by
  have same : ∀ {a b : Interposer φ}, b.gates = a.gates → GatesKept a.gates b.gates := by
    intro a b equal
    rw [equal]
    exact .refl _
  have cached : GatesKept s.gates (if v.served then resolveCacheFns blob v.dev s else s).gates := by
    split_ifs
    · exact same gates_resolveAll
    · exact .refl _
  unfold Interposer.enter
  cases v.hook with
  | createGraphicsPipelines => exact cached
  | createComputePipelines => exact cached
  | createPipelineCache => exact cached
  | cmdBlitImage =>
      show GatesKept s.gates (if v.served then _ else s).gates
      split_ifs
      · exact same (gates_ensureMemProps.trans gates_resolveAll)
      · exact .refl _
  | createInstance =>
      show GatesKept s.gates (if v.served then _ else s).gates
      split_ifs
      · exact .refl _
      · exact .refl _
  | createDevice =>
      have settled : GatesKept s.gates
          (if v.listed then { s with gates := settle props s.gates } else s).gates := by
        split_ifs
        · exact settle_kept
        · exact .refl _
      show GatesKept s.gates (Interposer.gates (if v.served then _ else _))
      by_cases served : v.served
      · rw [if_pos served]
        exact settled.trans (same gates_deviceCreated)
      · rw [if_neg served]
        exact settled
  | enumerateDeviceExtensionProperties => exact settle_kept
  | getPhysicalDeviceProperties2KHR =>
      have resolved : GatesKept s.gates (resolveIdentityFns blob s).gates :=
        same gates_resolveIdentityFns
      show GatesKept s.gates (Interposer.gates (if v.listed then _ else _))
      by_cases chained : v.listed
      · rw [if_pos chained]
        exact resolved.trans ⟨id, propOn_kept⟩
      · rw [if_neg chained]
        exact resolved
  | getPhysicalDeviceFeatures2KHR => exact same gates_resolveIdentityFns
  | getPhysicalDeviceFormatProperties2KHR => exact same gates_resolveIdentityFns
  | getPhysicalDeviceImageFormatProperties2KHR => exact same gates_resolveIdentityFns
  | getPhysicalDeviceQueueFamilyProperties2KHR => exact same gates_resolveIdentityFns
  | getPhysicalDeviceMemoryProperties2KHR => exact same gates_resolveIdentityFns
  | getPhysicalDeviceSparseImageFormatProperties2KHR => exact same gates_resolveIdentityFns
  | getDescriptorSetLayoutSupportKHR => exact same gates_resolveIdentityFns
  | getImageMemoryRequirements2KHR => exact same gates_resolveAll
  | getBufferMemoryRequirements2KHR => exact same gates_resolveAll
  | getImageSparseMemoryRequirements2KHR => exact same gates_resolveAll
  | bindBufferMemory2KHR => exact same gates_resolveAll
  | bindImageMemory2KHR => exact same gates_resolveAll
  | _ => exact .refl _

theorem gates_kept {t : Interposer φ} (later : Relation.ReflTransGen
    (fun a b => ∃ l, (machine blob).step a l b) s t) : GatesKept s.gates t.gates := by
  induction later with
  | refl => exact .refl _
  | tail _ step ih =>
      obtain ⟨⟨props, action⟩, -, rfl⟩ := step
      apply ih.trans
      cases action with
      | instanceLookup inst name => exact looked_kept looked_instance
      | deviceLookup dev name => exact looked_kept looked_device
      | call v => exact enter_kept

/-- The entry points of an extension the shim adds. The two others have none. -/
def entryPoints (extension : String) : List Answered :=
  if extension = "VK_KHR_get_physical_device_properties2" then identityProcs.take 7
  else if extension = "VK_KHR_external_fence_capabilities" then identityProcs.drop 7
  else if extension = "VK_KHR_get_memory_requirements2" then memextProcs.take 3
  else if extension = "VK_KHR_bind_memory2" then (memextProcs.drop 3).take 2
  else if extension = "VK_KHR_maintenance3" then memextProcs.drop 5
  else []

private theorem entryPoints_cases {extension : String} {a : Answered}
    (listed : a ∈ entryPoints extension) :
    (a ∈ identityProcs ∧ extension ∈ ["VK_KHR_get_physical_device_properties2",
        "VK_KHR_external_fence_capabilities"]) ∨
      (a ∈ memextProcs ∧ extension ∈ ["VK_KHR_get_memory_requirements2", "VK_KHR_bind_memory2",
        "VK_KHR_maintenance3"]) := by
  unfold entryPoints at listed
  split_ifs at listed with h h h h h
  · exact .inl ⟨List.mem_of_mem_take listed, by simp [h]⟩
  · exact .inl ⟨List.mem_of_mem_drop listed, by simp [h]⟩
  · exact .inr ⟨List.mem_of_mem_take listed, by simp [h]⟩
  · exact .inr ⟨List.mem_of_mem_drop (List.mem_of_mem_take listed), by simp [h]⟩
  · exact .inr ⟨List.mem_of_mem_drop listed, by simp [h]⟩
  · cases listed

private theorem answered_apart {a : Answered} (listed : a ∈ identityProcs ++ memextProcs)
    {name : String} (named : a.khr = name ∨ a.core = name) :
    name ≠ "vkGetDeviceProcAddr" ∧ ∀ table ∈ [instanceHooks, deviceHooks, identityHooks],
      ∀ (ask : String → Option φ) (s : Interposer φ), lookupHooked ask table name s = none := by
  have apart : ∀ a ∈ identityProcs ++ memextProcs, ∀ name ∈ [a.khr, a.core],
      name ≠ "vkGetDeviceProcAddr" ∧ ∀ table ∈ [instanceHooks, deviceHooks, identityHooks],
        (table.find? fun e => e.name == name).isNone := by decide
  obtain ⟨other, absent⟩ := apart a listed name (by rcases named with rfl | rfl <;> simp)
  refine ⟨other, fun table member ask s => ?_⟩
  rw [lookupHooked, Option.isNone_iff_eq_none.mp (absent table member)]
  rfl

private theorem found_of_apart {own other : List Answered}
    (apart : ∀ a ∈ own, ∀ name ∈ [a.khr, a.core],
      (own.find? fun e => e.khr == name || e.core == name).map Answered.hook = some a.hook ∧
        (other.find? fun e => e.khr == name || e.core == name).isNone)
    {a : Answered} (listed : a ∈ own) {name : String} (named : a.khr = name ∨ a.core = name) :
    lookupAnswered own name = some (.shim a.hook : Proc φ) ∧
      lookupAnswered other name = (none : Option (Proc φ)) := by
  obtain ⟨found, absent⟩ := apart a listed name (by rcases named with rfl | rfl <;> simp)
  obtain ⟨e, is_e, same⟩ := Option.map_eq_some_iff.mp found
  refine ⟨?_, ?_⟩
  · rw [lookupAnswered, is_e, ← same]
    rfl
  · rw [lookupAnswered, Option.isNone_iff_eq_none.mp absent]
    rfl

private theorem identity_found {a : Answered} (listed : a ∈ identityProcs) {name : String}
    (named : a.khr = name ∨ a.core = name) :
    lookupAnswered identityProcs name = some (.shim a.hook : Proc φ) ∧
      lookupAnswered memextProcs name = (none : Option (Proc φ)) :=
  found_of_apart (by decide) listed named

private theorem memext_found {a : Answered} (listed : a ∈ memextProcs) {name : String}
    (named : a.khr = name ∨ a.core = name) :
    lookupAnswered memextProcs name = some (.shim a.hook : Proc φ) ∧
      lookupAnswered identityProcs name = (none : Option (Proc φ)) :=
  found_of_apart (by decide) listed named

private theorem blobOrAlias_ne {ask : String → Option φ} {props : PropertyStore} {name : String}
    {hook : Hook} : (blobOrAlias ask props name s).1 ≠ some (.shim hook) := by
  unfold blobOrAlias
  cases ask name with
  | some f => simp
  | none =>
      simp only
      split_ifs
      · cases (khrName name 128).bind ask <;> simp
      · simp

private theorem memextOrBlob_iff {ask : String → Option φ} {props : PropertyStore} {name : String}
    {on : Bool} (read : s.gates.memext = some on) {hook : Hook}
    (found : lookupAnswered memextProcs name = some (.shim hook : Proc φ)) :
    (memextOrBlob ask props name s).1 = some (.shim hook) ↔ on = true := by
  simp only [memextOrBlob, read, propOn_cached, found]
  cases on with
  | true => simp
  | false => simp [blobOrAlias_ne]

private theorem memextOrBlob_ne {ask : String → Option φ} {props : PropertyStore} {name : String}
    {hook : Hook} (absent : lookupAnswered memextProcs name = (none : Option (Proc φ))) :
    (memextOrBlob ask props name s).1 ≠ some (.shim hook) := by
  simp only [memextOrBlob, absent, ite_self]
  exact blobOrAlias_ne

private theorem instance_identity {props : PropertyStore} {inst : VkInstance} {on : Bool}
    (read : s.gates.drvinfo = some on) {a : Answered} (listed : a ∈ identityProcs) {name : String}
    (named : a.khr = name ∨ a.core = name) :
    (shimGetInstanceProcAddr blob props inst name s).1 = some (.shim a.hook) ↔ on = true := by
  obtain ⟨-, absent⟩ := answered_apart (φ := φ) (List.mem_append_left _ listed) named
  obtain ⟨found, no_memext⟩ := identity_found (φ := φ) listed named
  simp only [shimGetInstanceProcAddr, absent instanceHooks (by simp), read, propOn_cached]
  cases on with
  | true => simp [lookupIdentity, absent identityHooks (by simp), found]
  | false => simp [memextOrBlob_ne no_memext]

private theorem instance_memext {props : PropertyStore} {inst : VkInstance} {on : Bool}
    (read : s.gates.memext = some on) {a : Answered} (listed : a ∈ memextProcs) {name : String}
    (named : a.khr = name ∨ a.core = name) :
    (shimGetInstanceProcAddr blob props inst name s).1 = some (.shim a.hook) ↔ on = true := by
  obtain ⟨-, absent⟩ := answered_apart (φ := φ) (List.mem_append_right _ listed) named
  obtain ⟨found, no_identity⟩ := memext_found (φ := φ) listed named
  simp only [shimGetInstanceProcAddr, absent instanceHooks (by simp), lookupIdentity,
    absent identityHooks (by simp), no_identity, Option.map_none, ite_self]
  apply memextOrBlob_iff _ found
  exact read

private theorem device_memext {props : PropertyStore} {dev : VkDevice} {on : Bool}
    (read : s.gates.memext = some on) {a : Answered} (listed : a ∈ memextProcs) {name : String}
    (named : a.khr = name ∨ a.core = name) :
    (shimGetDeviceProcAddr blob props dev name s).1 = some (.shim a.hook) ↔ on = true := by
  obtain ⟨other, absent⟩ := answered_apart (φ := φ) (List.mem_append_right _ listed) named
  simp only [shimGetDeviceProcAddr, absent deviceHooks (by simp), if_neg other]
  exact memextOrBlob_iff read (memext_found listed named).1

private theorem identity_ne_memext {a b : Answered} (identity : a ∈ identityProcs)
    (memext : b ∈ memextProcs) : a.hook ≠ b.hook := by
  revert b
  revert a
  decide

private theorem owned_identity {specVersion : String → Nat} {g : Gates} {extension : String}
    (among : extension ∈ ["VK_KHR_get_physical_device_properties2",
      "VK_KHR_external_fence_capabilities"]) :
    extension ∈ ownedNames specVersion g ↔ g.drvinfo = some true := by
  simp only [List.mem_cons, List.not_mem_nil, or_false] at among
  rcases among with rfl | rfl
  all_goals
    simp only [ownedNames, added]
    split_ifs with drv mem mem <;> simp [shimExtraExts, shimMemExts, ext, drv]

private theorem owned_memext {specVersion : String → Nat} {g : Gates} {extension : String}
    (among : extension ∈ ["VK_KHR_get_memory_requirements2", "VK_KHR_bind_memory2",
      "VK_KHR_maintenance3"]) :
    extension ∈ ownedNames specVersion g ↔ g.memext = some true := by
  simp only [List.mem_cons, List.not_mem_nil, or_false] at among
  rcases among with rfl | rfl | rfl
  all_goals
    simp only [ownedNames, added]
    split_ifs with drv mem mem <;> simp [shimExtraExts, shimMemExts, ext, mem]

/-- Once the extensions were enumerated, and however the properties change, an entry point of an
added extension is answered with its hook exactly if the extension was reported. -/
theorem answered_iff_advertised (specVersion : String → Nat) (props : PropertyStore) {v : Visit}
    (reads : v.hook = .enumerateDeviceExtensionProperties) {t : Interposer φ}
    (later : Relation.ReflTransGen (fun a b => ∃ l, (machine blob).step a l b)
      (s.enter blob props v) t) {extension : String} {a : Answered}
    (listed : a ∈ entryPoints extension) {name : String} (named : a.khr = name ∨ a.core = name)
    (props' : PropertyStore) :
    (∀ inst, (shimGetInstanceProcAddr blob props' inst name t).1 = some (.shim a.hook) ↔
      extension ∈ ownedNames specVersion (settle props s.gates)) ∧
    (a ∈ memextProcs → ∀ dev,
      (shimGetDeviceProcAddr blob props' dev name t).1 = some (.shim a.hook) ↔
        extension ∈ ownedNames specVersion (settle props s.gates)) := by
  have entered : (s.enter blob props v).gates = settle props s.gates := by
    simp only [Interposer.enter, reads]
  have kept := gates_kept later
  rw [entered] at kept
  have drvinfo := kept.drvinfo rfl
  have memext := kept.memext rfl
  obtain ⟨identity, among⟩ | ⟨mem, among⟩ := entryPoints_cases listed
  · rw [owned_identity among, settle, Option.some.injEq]
    exact ⟨fun inst => instance_identity drvinfo identity named, fun mem =>
      absurd rfl (identity_ne_memext identity mem)⟩
  · rw [owned_memext among, settle, Option.some.injEq]
    exact ⟨fun inst => instance_memext memext mem named,
      fun _ dev => device_memext memext mem named⟩

def echoReport : Visit :=
  ⟨.enumerateDeviceExtensionProperties, 0, 3, 0, true, true⟩

theorem answered_iff_advertised_echoReady :
    (shimGetDeviceProcAddr echo (fun _ => "0") 7 "vkBindImageMemory2"
        (echoReady.enter echo unset echoReport)).1 =
      some (.shim .bindImageMemory2KHR) := by
  have listed : (⟨"vkBindImageMemory2KHR", "vkBindImageMemory2", .bindImageMemory2KHR⟩ :
      Answered) ∈ entryPoints "VK_KHR_bind_memory2" :=
    List.mem_cons_of_mem _ (List.mem_cons_self ..)
  have memext : (⟨"vkBindImageMemory2KHR", "vkBindImageMemory2", .bindImageMemory2KHR⟩ :
      Answered) ∈ memextProcs := by simp [memextProcs]
  have reads : echoReport.hook = .enumerateDeviceExtensionProperties := rfl
  have later : Relation.ReflTransGen (fun a b => ∃ l, (machine echo).step a l b)
      (echoReady.enter echo unset echoReport) (echoReady.enter echo unset echoReport) := .refl
  have both := answered_iff_advertised (fun _ => 1) unset reads later listed (.inr rfl)
    fun _ => "0"
  exact (both.2 memext 7).mpr (by decide)

end Runs

end XdPlus.Vulkan.Interposition
