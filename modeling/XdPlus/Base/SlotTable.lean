/- Module: XdPlus/Base/SlotTable
   layer: library
   digest: Linear searches over fixed tables and the loops that claim a slot. -/

import Mathlib.Algebra.BigOperators.Group.Finset.Basic
import Mathlib.Data.List.FinRange
import Mathlib.Data.Fintype.Card
import Mathlib.Logic.Function.Basic

set_option autoImplicit false
set_option relaxedAutoImplicit false

namespace XdPlus.Base

variable {n : Nat}

/-- The index a `for (i = 0; i < n; i++) if (p(i)) { ...; break; }` loop stops at. -/
def firstIndex (p : Fin n → Bool) : Option (Fin n) :=
  (List.finRange n).find? p

theorem firstIndex_eq_none {p : Fin n → Bool} :
    firstIndex p = none ↔ ∀ i, p i = false := by
  simp [firstIndex, List.find?_eq_none]

theorem firstIndex_holds {p : Fin n → Bool} {i : Fin n} (h : firstIndex p = some i) :
    p i = true := by
  exact List.find?_some h

theorem firstIndex_isSome {p : Fin n → Bool} {i : Fin n} (h : p i = true) :
    ∃ j, firstIndex p = some j := by
  cases found : firstIndex p with
  | some j => exact ⟨j, rfl⟩
  | none => simp [firstIndex_eq_none.mp found i] at h

theorem firstIndex_unique {p : Fin n → Bool} {i : Fin n} (h : p i = true)
    (only : ∀ j, p j = true → j = i) : firstIndex p = some i := by
  obtain ⟨j, found⟩ := firstIndex_isSome h
  rw [found, only j (firstIndex_holds found)]

/-- A search that prefers a match and otherwise keeps the first free slot seen:
`if (key(i)) { slot = i; break; } if (!slot && free(i)) slot = i;`. -/
def claimScan (key free : Fin n → Bool) : List (Fin n) → Option (Fin n) → Option (Fin n)
  | [], slot => slot
  | i :: rest, slot =>
      if key i then some i
      else claimScan key free rest (if slot.isNone && free i then some i else slot)

def claimSlot (key free : Fin n → Bool) : Option (Fin n) :=
  claimScan key free (List.finRange n) none

private theorem claimScan_eq (key free : Fin n → Bool) (is : List (Fin n))
    (slot : Option (Fin n)) :
    claimScan key free is slot =
      (is.find? key).or (slot.or (is.find? free)) := by
  induction is generalizing slot with
  | nil => cases slot <;> rfl
  | cons i rest ih =>
      by_cases hkey : key i = true
      · simp [claimScan, hkey]
      · by_cases hfree : free i = true
        · cases slot <;> simp [claimScan, hkey, hfree, ih]
        · cases slot <;> simp [claimScan, hkey, hfree, ih]

theorem claimSlot_eq (key free : Fin n → Bool) :
    claimSlot key free = (firstIndex key).or (firstIndex free) := by
  simp [claimSlot, claimScan_eq, firstIndex]

theorem claimSlot_holds {key free : Fin n → Bool} {i : Fin n}
    (h : claimSlot key free = some i) :
    key i = true ∨ ((∀ j, key j = false) ∧ free i = true) := by
  rw [claimSlot_eq] at h
  cases found : firstIndex key with
  | some j =>
      rw [found] at h
      obtain rfl : j = i := by simpa using h
      exact .inl (firstIndex_holds found)
  | none =>
      rw [found] at h
      exact .inr ⟨firstIndex_eq_none.mp found, firstIndex_holds (by simpa using h)⟩

/-- What a table holds, slot positions forgotten. -/
def contents {α : Type*} (t : Fin n → α) : Multiset α :=
  Finset.univ.val.map t

@[simp] theorem card_contents {α : Type*} (t : Fin n → α) : (contents t).card = n := by
  simp [contents]

theorem mem_contents {α : Type*} {t : Fin n → α} {a : α} :
    a ∈ contents t ↔ ∃ i, t i = a := by
  simp [contents]

theorem contents_update {α : Type*} (t : Fin n → α) (i : Fin n) (a : α) :
    t i ::ₘ contents (Function.update t i a) = a ::ₘ contents t := by
  have split : (Finset.univ : Finset (Fin n)).val =
      i ::ₘ (Finset.univ.erase i : Finset (Fin n)).val := by
    rw [← Finset.insert_val_of_notMem (Finset.notMem_erase i _),
      Finset.insert_erase (Finset.mem_univ i)]
  have same : (Finset.univ.erase i : Finset (Fin n)).val.map (Function.update t i a) =
      (Finset.univ.erase i : Finset (Fin n)).val.map t := by
    apply Multiset.map_congr rfl
    intro j hj
    exact Function.update_of_ne (Finset.ne_of_mem_erase (Finset.mem_def.mpr hj)) _ _
  simp only [contents, split, Multiset.map_cons, same, Function.update_self]
  exact Multiset.cons_swap _ _ _

theorem sum_update {ι α : Type*} [DecidableEq ι] (S : Finset ι) (w : ι → α → Nat) (t : ι → α)
    {i : ι} (hi : i ∈ S) (a : α) :
    ∑ j ∈ S, w j (Function.update t i a j) + w i (t i) = ∑ j ∈ S, w j (t j) + w i a := by
  have same : ∑ j ∈ S.erase i, w j (Function.update t i a j) = ∑ j ∈ S.erase i, w j (t j) := by
    apply Finset.sum_congr rfl
    intro j hj
    rw [Function.update_of_ne (Finset.ne_of_mem_erase hj)]
  rw [← Finset.add_sum_erase S _ hi, ← Finset.add_sum_erase S (fun j => w j (t j)) hi, same,
    Function.update_self]
  omega

theorem sum_update_of_notMem {ι α : Type*} [DecidableEq ι] (S : Finset ι) (w : ι → α → Nat)
    (t : ι → α) {i : ι} (hi : i ∉ S) (a : α) :
    ∑ j ∈ S, w j (Function.update t i a j) = ∑ j ∈ S, w j (t j) := by
  apply Finset.sum_congr rfl
  intro j hj
  have ne : j ≠ i := by
    rintro rfl
    exact hi hj
  rw [Function.update_of_ne ne]

end XdPlus.Base
