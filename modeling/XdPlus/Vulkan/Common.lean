/- Module: XdPlus/Vulkan/Common
   source: vulkan/vkshim.c, prop_on, prop_explicit_on
   digest: Vulkan handles and results, and the property gates the shim reads once. -/

import Mathlib.Tactic.Common

set_option autoImplicit false
set_option relaxedAutoImplicit false

namespace XdPlus.Vulkan.Common

/-- Handles are opaque numbers; `0` is `VK_NULL_HANDLE`. -/
abbrev VkDevice := Nat
abbrev VkCommandBuffer := Nat
abbrev VkCommandPool := Nat
abbrev VkImage := Nat
abbrev VkDeviceMemory := Nat
abbrev VkPipelineCache := Nat

/-- The result codes the shim tells apart; every other code is an error. -/
inductive VkResult where
  | success
  | incomplete
  | error (code : Int)
  deriving DecidableEq, Repr, Inhabited

/-- `__system_property_get`, the empty string for an unset property. -/
abbrev PropertyStore := String → String

/-- `static int gate = -1` and its value once read. -/
abbrev Gate := Option Bool

/-- On unless the property starts with `0`, and read only once. -/
def propOn (props : PropertyStore) (name : String) (cache : Gate) : Bool × Gate :=
  match cache with
  | some on => (on, some on)
  | none =>
      let on := (props name).toList.head? != some '0'
      (on, some on)

/-- Off unless the property starts with `1`, and read only once. -/
def propExplicitOn (props : PropertyStore) (name : String) (cache : Gate) : Bool × Gate :=
  match cache with
  | some on => (on, some on)
  | none =>
      let on := (props name).toList.head? == some '1'
      (on, some on)

@[simp] theorem propOn_cached (props : PropertyStore) (name : String) (on : Bool) :
    propOn props name (some on) = (on, some on) := rfl

theorem propOn_snd (props : PropertyStore) (name : String) (cache : Gate) :
    (propOn props name cache).2 = some (propOn props name cache).1 := by
  cases cache <;> rfl

end XdPlus.Vulkan.Common
