/- Module: XdPlus/Vulkan/DescriptorLayout
   source: vulkan/vkshim.c, fill_maintenance3_properties, shim_GetDescriptorSetLayoutSupportKHR
   digest: A layout the shim calls supported is within every per-type limit. -/

import Mathlib.Algebra.BigOperators.Group.List.Basic
import Mathlib.Algebra.Order.BigOperators.Group.List
import Mathlib.Algebra.Order.Ring.Nat
import XdPlus.Vulkan.Common

set_option autoImplicit false
set_option relaxedAutoImplicit false

namespace XdPlus.Vulkan.DescriptorLayout

open Common

/-- `VkPhysicalDeviceLimits`, in the fields that are read. -/
structure VkPhysicalDeviceLimits where
  maxDescriptorSetSamplers : UInt32
  maxDescriptorSetUniformBuffers : UInt32
  maxDescriptorSetStorageBuffers : UInt32
  maxDescriptorSetSampledImages : UInt32
  maxDescriptorSetStorageImages : UInt32
  maxDescriptorSetInputAttachments : UInt32
  deriving DecidableEq, Repr

/-- After `memset(&props, 0, sizeof props)`. -/
def VkPhysicalDeviceLimits.zero : VkPhysicalDeviceLimits := ⟨0, 0, 0, 0, 0, 0⟩

/-- The blob's 1.0 queries on the physical device, `none` where it does not export one:
`real_gpdp`, in the limits it fills in, and `real_gpdmp`, in the heap sizes. -/
structure Queries where
  limits : Option VkPhysicalDeviceLimits
  heaps : Option (List UInt64)
  deriving DecidableEq, Repr

/-- The limits the shim goes by. -/
def Queries.reported (q : Queries) : VkPhysicalDeviceLimits :=
  q.limits.getD .zero

structure VkPhysicalDeviceMaintenance3Properties where
  maxPerSetDescriptors : UInt32
  maxMemoryAllocationSize : UInt64
  deriving DecidableEq, Repr

/-- `if (limit < m) m = limit;`. -/
def lower (m limit : UInt32) : UInt32 :=
  if limit < m then limit else m

/-- `if (size > biggest) biggest = size;`. -/
def raise (biggest size : UInt64) : UInt64 :=
  if biggest < size then size else biggest

def fillMaintenance3Properties (q : Queries) : VkPhysicalDeviceMaintenance3Properties :=
  let l := q.reported
  let m := l.maxDescriptorSetSamplers
  let m := lower m l.maxDescriptorSetUniformBuffers
  let m := lower m l.maxDescriptorSetStorageBuffers
  let m := lower m l.maxDescriptorSetSampledImages
  let m := lower m l.maxDescriptorSetStorageImages
  let m := lower m l.maxDescriptorSetInputAttachments
  ⟨m, (q.heaps.getD []).foldl raise 0⟩

inductive VkDescriptorType where
  | sampler
  | combinedImageSampler
  | sampledImage
  | storageImage
  | uniformTexelBuffer
  | storageTexelBuffer
  | uniformBuffer
  | storageBuffer
  | uniformBufferDynamic
  | storageBufferDynamic
  | inputAttachment
  deriving DecidableEq, Repr

structure VkDescriptorSetLayoutBinding where
  descriptorType : VkDescriptorType
  descriptorCount : UInt32
  deriving DecidableEq, Repr

/-- `bindingCount` is the length of `pBindings`, and a `uint32_t`. -/
structure VkDescriptorSetLayoutCreateInfo where
  pBindings : List VkDescriptorSetLayoutBinding
  bindingCount_lt : pBindings.length < 2 ^ 32

/-- `for (i = 0; i < bindingCount; i++) total += pBindings[i].descriptorCount;` from `total`. -/
def accumulate (total : UInt64) (bindings : List VkDescriptorSetLayoutBinding) : UInt64 :=
  bindings.foldl (fun total b => total + b.descriptorCount.toUInt64) total

/-- `out->supported`. -/
def shimGetDescriptorSetLayoutSupport (q : Queries) (ci : VkDescriptorSetLayoutCreateInfo) :
    Bool :=
  let m3 := fillMaintenance3Properties q
  accumulate 0 ci.pBindings ≤ m3.maxPerSetDescriptors.toUInt64

/-- The six limits of a descriptor set. -/
inductive Limit where
  | samplers
  | uniformBuffers
  | storageBuffers
  | sampledImages
  | storageImages
  | inputAttachments
  deriving DecidableEq, Repr

def VkPhysicalDeviceLimits.get (l : VkPhysicalDeviceLimits) : Limit → UInt32
  | .samplers => l.maxDescriptorSetSamplers
  | .uniformBuffers => l.maxDescriptorSetUniformBuffers
  | .storageBuffers => l.maxDescriptorSetStorageBuffers
  | .sampledImages => l.maxDescriptorSetSampledImages
  | .storageImages => l.maxDescriptorSetStorageImages
  | .inputAttachments => l.maxDescriptorSetInputAttachments

private theorem lower_toNat (m limit : UInt32) :
    (lower m limit).toNat = min limit.toNat m.toNat := by
  unfold lower
  split_ifs with less
  · exact (Nat.min_eq_left (Nat.le_of_lt (UInt32.lt_iff_toNat_lt.mp less))).symm
  · exact (Nat.min_eq_right (Nat.not_lt.mp fun h => less (UInt32.lt_iff_toNat_lt.mpr h))).symm

theorem maxPerSetDescriptors_le (q : Queries) (limit : Limit) :
    (fillMaintenance3Properties q).maxPerSetDescriptors.toNat ≤
      (q.reported.get limit).toNat := by
  simp only [fillMaintenance3Properties, lower_toNat]
  cases limit <;> simp only [VkPhysicalDeviceLimits.get] <;> omega

theorem maxPerSetDescriptors_attained (q : Queries) :
    ∃ limit, (fillMaintenance3Properties q).maxPerSetDescriptors = q.reported.get limit := by
  simp only [fillMaintenance3Properties, lower]
  split_ifs
  all_goals first
    | exact ⟨.samplers, rfl⟩
    | exact ⟨.uniformBuffers, rfl⟩
    | exact ⟨.storageBuffers, rfl⟩
    | exact ⟨.sampledImages, rfl⟩
    | exact ⟨.storageImages, rfl⟩
    | exact ⟨.inputAttachments, rfl⟩

/-- The exact number of descriptors of a layout. -/
def total (bindings : List VkDescriptorSetLayoutBinding) : Nat :=
  (bindings.map fun b => b.descriptorCount.toNat).sum

private theorem accumulate_toNat (acc : UInt64) (bindings : List VkDescriptorSetLayoutBinding) :
    (accumulate acc bindings).toNat = (acc.toNat + total bindings) % 2 ^ 64 := by
  induction bindings generalizing acc with
  | nil => exact (Nat.mod_eq_of_lt acc.toNat_lt).symm
  | cons b rest ih =>
      have step : accumulate acc (b :: rest) =
          accumulate (acc + b.descriptorCount.toUInt64) rest := rfl
      rw [step, ih, UInt64.toNat_add, UInt32.toNat_toUInt64]
      simp only [total, List.map_cons, List.sum_cons]
      omega

private theorem total_le (bindings : List VkDescriptorSetLayoutBinding) :
    total bindings ≤ bindings.length * (2 ^ 32 - 1) := by
  induction bindings with
  | nil => exact Nat.le_refl 0
  | cons b rest ih =>
      have count := b.descriptorCount.toNat_lt
      simp only [total, List.map_cons, List.sum_cons, List.length_cons] at ih ⊢
      omega

/-- 2^32 - 1 counts of 32 bits stay below 2^64: nothing wraps. -/
theorem accumulate_exact (ci : VkDescriptorSetLayoutCreateInfo) :
    (accumulate 0 ci.pBindings).toNat = total ci.pBindings := by
  have sum := total_le ci.pBindings
  have length := ci.bindingCount_lt
  have small : total ci.pBindings < 2 ^ 64 := by omega
  rw [accumulate_toNat]
  simpa using Nat.mod_eq_of_lt small

/-- Which limits a descriptor of a type counts against, from the Vulkan specification's text
on the `maxDescriptorSet*` limits. The dynamic types have limits of their own besides, which
the shim leaves out of its minimum on purpose. -/
def charges : VkDescriptorType → List Limit
  | .sampler => [.samplers]
  | .combinedImageSampler => [.samplers, .sampledImages]
  | .sampledImage => [.sampledImages]
  | .storageImage => [.storageImages]
  | .uniformTexelBuffer => [.sampledImages]
  | .storageTexelBuffer => [.storageImages]
  | .uniformBuffer => [.uniformBuffers]
  | .storageBuffer => [.storageBuffers]
  | .uniformBufferDynamic => [.uniformBuffers]
  | .storageBufferDynamic => [.storageBuffers]
  | .inputAttachment => [.inputAttachments]

/-- The descriptors of a layout that count against a limit. -/
def charged (limit : Limit) (bindings : List VkDescriptorSetLayoutBinding) : Nat :=
  total (bindings.filter fun b => limit ∈ charges b.descriptorType)

private theorem charged_le (limit : Limit) (bindings : List VkDescriptorSetLayoutBinding) :
    charged limit bindings ≤ total bindings := by
  exact (List.filter_sublist.map _).sum_le_sum (fun _ _ => Nat.zero_le _)

private theorem supported_iff (q : Queries) (ci : VkDescriptorSetLayoutCreateInfo) :
    shimGetDescriptorSetLayoutSupport q ci = true ↔
      total ci.pBindings ≤ (fillMaintenance3Properties q).maxPerSetDescriptors.toNat := by
  simp only [shimGetDescriptorSetLayoutSupport, decide_eq_true_eq, UInt64.le_iff_toNat_le,
    accumulate_exact, UInt32.toNat_toUInt64]

/-- A supported layout keeps every limit; a layout is supported exactly when its descriptors,
counted exactly, are within the reported maximum, which is the least of the limits; the order of
the bindings is immaterial. -/
theorem shimGetDescriptorSetLayoutSupport_sound (q : Queries)
    (ci : VkDescriptorSetLayoutCreateInfo) :
    (shimGetDescriptorSetLayoutSupport q ci = true →
      ∀ limit, charged limit ci.pBindings ≤ (q.reported.get limit).toNat) ∧
    (shimGetDescriptorSetLayoutSupport q ci = true ↔
      total ci.pBindings ≤ (fillMaintenance3Properties q).maxPerSetDescriptors.toNat) ∧
    (accumulate 0 ci.pBindings).toNat = total ci.pBindings ∧
    ((∀ limit, (fillMaintenance3Properties q).maxPerSetDescriptors.toNat ≤
        (q.reported.get limit).toNat) ∧
      ∃ limit, (fillMaintenance3Properties q).maxPerSetDescriptors = q.reported.get limit) ∧
    (∀ ci' : VkDescriptorSetLayoutCreateInfo, ci'.pBindings.Perm ci.pBindings →
      shimGetDescriptorSetLayoutSupport q ci' = shimGetDescriptorSetLayoutSupport q ci) := by
  refine ⟨fun supported limit => ?_, supported_iff q ci, accumulate_exact ci,
    ⟨maxPerSetDescriptors_le q, maxPerSetDescriptors_attained q⟩, ?_⟩
  · calc charged limit ci.pBindings
      _ ≤ total ci.pBindings := charged_le limit ci.pBindings
      _ ≤ (fillMaintenance3Properties q).maxPerSetDescriptors.toNat :=
          (supported_iff q ci).mp supported
      _ ≤ (q.reported.get limit).toNat := maxPerSetDescriptors_le q limit
  · intro ci' shuffled
    have same : total ci'.pBindings = total ci.pBindings := (shuffled.map _).sum_eq
    rw [Bool.eq_iff_iff, supported_iff, supported_iff, same]

end XdPlus.Vulkan.DescriptorLayout
