/- Module: XdPlus/Vulkan/ScratchMemory
   source: vulkan/vkshim.c, find_memory_type, alloc_scratch_image
   digest: Which memory type backs a scratch image, and what becomes of a table without one. -/

import Mathlib.Data.Nat.Bitwise
import Mathlib.Data.List.Enum
import XdPlus.Vulkan.CommandBufferTable

set_option autoImplicit false
set_option relaxedAutoImplicit false

namespace XdPlus.Vulkan.ScratchMemory

open XdPlus.Base Common Driver CommandBufferTable

/-- Type `i` exists, the image may use it, and it has all of `flags`. -/
structure Suits (props : VkPhysicalDeviceMemoryProperties) (mask flags i : Nat) : Prop where
  below : i < props.length
  bit : mask.testBit i = true
  flagged : props[i] &&& flags = flags

/-- What the driver answers to one request for a scratch image; every call is made at most
once. -/
structure Reply where
  image : Option VkImage
  requirements : VkMemoryRequirements
  memory : Option VkDeviceMemory
  deriving DecidableEq, Repr

def Reply.respond (r : Reply) (w : Unit) : (op : Call) → Answer op × Unit
  | .createImage .. => (r.image, w)
  | .getImageMemoryRequirements .. => (r.requirements, w)
  | .allocateMemory .. => (r.memory, w)
  | _ => (default, w)

section Search

variable {mask flags : Nat} {props : VkPhysicalDeviceMemoryProperties}

private theorem mask_bit (mask i : Nat) : mask &&& (1 <<< i) ≠ 0 ↔ mask.testBit i = true := by
  rw [Nat.one_shiftLeft, Nat.and_two_pow]
  cases mask.testBit i <;> simp

private theorem suits_of_mem {p : Nat × Nat} (found : p ∈ props.zipIdx)
    (fits : mask &&& (1 <<< p.2) ≠ 0 ∧ p.1 &&& flags = flags) : Suits props mask flags p.2 := by
  obtain ⟨below, entry⟩ := List.getElem?_eq_some_iff.mp (List.mem_zipIdx_iff_getElem?.mp found)
  refine ⟨below, (mask_bit mask p.2).mp fits.1, ?_⟩
  rw [entry]
  exact fits.2

theorem findMemoryType_cases (mask flags : Nat) (props : VkPhysicalDeviceMemoryProperties) :
    (∃ i : Nat, findMemoryType mask flags props = i ∧ Suits props mask flags i) ∨
      (findMemoryType mask flags props = -1 ∧ ∀ i, ¬ Suits props mask flags i) := by
  unfold findMemoryType
  split
  · rename_i entry i found
    have fits := List.find?_some found
    rw [decide_eq_true_eq] at fits
    exact .inl ⟨i, rfl, suits_of_mem (List.mem_of_find?_eq_some found) fits⟩
  · rename_i missing
    refine .inr ⟨rfl, ?_⟩
    rintro i ⟨below, bit, flagged⟩
    have entry : (props[i], i) ∈ props.zipIdx := by
      rw [List.mem_zipIdx_iff_getElem?]
      exact List.getElem?_eq_getElem below
    have unfit := List.find?_eq_none.mp missing _ entry
    rw [decide_eq_true_eq] at unfit
    exact unfit ⟨(mask_bit mask i).mpr bit, flagged⟩

end Search

/-- The arguments of `alloc_scratch_image`; `img` and `mem` are its outputs as the caller
initialised them. -/
structure Request where
  dev : VkDevice
  format : VkFormat
  width : Nat
  height : Nat
  depth : Nat
  usage : Nat
  props : VkPhysicalDeviceMemoryProperties
  img : VkImage
  mem : VkDeviceMemory

namespace Request

variable (q : Request) (r : Reply)

def code : Shim Allocated :=
  allocScratchImage q.dev q.format q.width q.height q.depth q.usage q.props q.img q.mem

/-- The calls made, in order. -/
def calls : List Call := q.code.asked r.respond ()

def result : Allocated := (q.code.eval r.respond ()).1

/-- A type the image may use, device-local. -/
def Eligible (i : Nat) : Prop :=
  Suits q.props r.requirements.memoryTypeBits memoryPropertyDeviceLocalBit i

/-- Memory is allocated of an eligible type only; without one the image is destroyed again,
nothing is allocated and an error is returned. -/
structure SelectsMemoryType : Prop where
  eligible : ∀ dev size i, .allocateMemory dev size i ∈ q.calls r → q.Eligible r i
  undone : (∀ i, ¬ q.Eligible r i) → ∀ made, r.image = some made →
    .destroyImage q.dev made ∈ q.calls r
  nothing : (∀ i, ¬ q.Eligible r i) → ∀ dev size i, .allocateMemory dev size i ∉ q.calls r
  refused : (∀ i, ¬ q.Eligible r i) → (q.result r).ok = false

variable {q r}

private theorem calls_unmade (failed : r.image = none) :
    (∀ dev size i, .allocateMemory dev size i ∉ q.calls r) ∧ (q.result r).ok = false := by
  simp [calls, result, code, allocScratchImage, Reply.respond, failed]

/-- With an image made, memory is asked for whatever the search returned: an index that has
been through a `uint32_t` is never negative. -/
private theorem allocates {made : VkImage} (created : r.image = some made)
    (dev : VkDevice) (size i : Nat) :
    .allocateMemory dev size i ∈ q.calls r ↔
      dev = q.dev ∧ size = r.requirements.size ∧
        i = (findMemoryType r.requirements.memoryTypeBits memoryPropertyDeviceLocalBit
          q.props % 2 ^ 32).toNat := by
  have unsigned (n : Nat) : ¬ (n : Int) < 0 := by omega
  simp only [calls, code, allocScratchImage, Prog.asked_bind, Prog.asked_call, Prog.eval_call,
    Reply.respond, created, unsigned, if_false]
  cases r.memory <;> simp

private theorem index_of_found {i : Nat} (count : q.props.length ≤ 32) (fits : q.Eligible r i) :
    ((i : Int) % 2 ^ 32).toNat = i := by
  have below := fits.below
  omega

/-- The selection is right exactly where the table has an eligible type, or where no image
was made to begin with. -/
theorem selectsMemoryType_iff (q : Request) (r : Reply) (count : q.props.length ≤ 32) :
    q.SelectsMemoryType r ↔ r.image = none ∨ ∃ i, q.Eligible r i := by
  constructor
  · intro selects
    cases created : r.image with
    | none => exact .inl rfl
    | some made =>
        exact .inr ⟨_, selects.eligible _ _ _ ((allocates created _ _ _).mpr ⟨rfl, rfl, rfl⟩)⟩
  · rintro (failed | ⟨i, fits⟩)
    · obtain ⟨unasked, refused⟩ := calls_unmade (q := q) failed
      refine ⟨fun dev size i made => (unasked dev size i made).elim, ?_, fun _ => unasked,
        fun _ => refused⟩
      intro _ made created
      rw [failed] at created
      cases created
    · have some_fits : ¬ ∀ i, ¬ q.Eligible r i := fun missing => missing i fits
      refine ⟨?_, fun missing => (some_fits missing).elim,
        fun missing => (some_fits missing).elim, fun missing => (some_fits missing).elim⟩
      intro dev size j asked
      cases created : r.image with
      | none => exact ((calls_unmade created).1 dev size j asked).elim
      | some made =>
          obtain ⟨-, -, index⟩ := (allocates created dev size j).mp asked
          rcases findMemoryType_cases r.requirements.memoryTypeBits memoryPropertyDeviceLocalBit
            q.props with ⟨k, found, suits⟩ | ⟨-, missing⟩
          · rw [found, index_of_found count suits] at index
            rw [index]
            exact suits
          · exact (missing i fits).elim

/-- A 4x4 image asked of a table with one type. -/
def oneType (propertyFlags : Nat) : Request :=
  ⟨1, 37, 4, 4, 1, imageUsageTransferBits, [propertyFlags], 0, 0⟩

def granted : Reply := ⟨some 7, ⟨64, 1⟩, some 8⟩

theorem selectsMemoryType_deviceLocal :
    (oneType 1).SelectsMemoryType granted ∧
      .allocateMemory 1 64 0 ∈ (oneType 1).calls granted := by
  refine ⟨?_, by decide⟩
  exact (selectsMemoryType_iff (oneType 1) granted (by decide)).mpr
    (.inr ⟨0, by decide, by decide, by decide⟩)

/-- A table with host-visible memory only: the `-1` of the search reaches the driver as type
4294967295, and the driver's success is reported as one. -/
theorem selectsMemoryType_hostVisible :
    (oneType 2).props.length ≤ 32 ∧ (∀ i, ¬ (oneType 2).Eligible granted i) ∧
      .allocateMemory 1 64 4294967295 ∈ (oneType 2).calls granted ∧
      ((oneType 2).result granted).ok = true ∧ ¬ (oneType 2).SelectsMemoryType granted := by
  have asked : Call.allocateMemory 1 64 4294967295 ∈ (oneType 2).calls granted := by decide
  have missing : ∀ i, ¬ (oneType 2).Eligible granted i := by
    rintro i ⟨below, -, flagged⟩
    obtain rfl : i = 0 := Nat.lt_one_iff.mp below
    exact absurd (show 2 &&& 1 = 1 from flagged) (by decide)
  refine ⟨by decide, missing, asked, by decide, fun selects => ?_⟩
  exact missing _ (selects.eligible _ _ _ asked)

end Request

end XdPlus.Vulkan.ScratchMemory
