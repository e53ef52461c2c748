/- Module: XdPlus/Base/CircularBuffer
   layer: library
   digest: Cells read around the end of a buffer, and what a store elsewhere leaves of them. -/

import Mathlib.Data.Nat.ModEq
import Mathlib.Logic.Function.Basic
import XdPlus.Base.Buffer

set_option autoImplicit false
set_option relaxedAutoImplicit false

namespace XdPlus.Base.Buffer

universe u

variable {α : Type u}

/-- `n` cells from index `p` on, going on at `0` behind the first `capacity`. -/
def circle (buf : Buffer α) (capacity : Nat) : Nat → Nat → List α
  | _, 0 => []
  | p, n + 1 => buf p :: circle buf capacity ((p + 1) % capacity) n

variable {buf buf' : Buffer α} {capacity p n : Nat}

@[simp] theorem length_circle : (buf.circle capacity p n).length = n := by
  induction n generalizing p with
  | zero => rfl
  | succ n ih => simp [circle, ih]

theorem circle_add (inside : p < capacity) (m : Nat) :
    buf.circle capacity p (n + m) =
      buf.circle capacity p n ++ buf.circle capacity ((p + n) % capacity) m := by
  induction n generalizing p with
  | zero => simp [circle, Nat.mod_eq_of_lt inside]
  | succ n ih =>
      have positive : 0 < capacity := by omega
      have further : ((p + 1) % capacity + n) % capacity = (p + (n + 1)) % capacity := by
        rw [Nat.mod_add_mod, Nat.add_assoc, Nat.add_comm 1]
      rw [Nat.add_right_comm, circle, circle, ih (Nat.mod_lt _ positive), further,
        List.cons_append]

theorem circle_slice (short : p + n ≤ capacity) : buf.circle capacity p n = buf.slice p n := by
  induction n generalizing p with
  | zero => rfl
  | succ n ih =>
      cases n with
      | zero => rfl
      | succ n =>
          have next : (p + 1) % capacity = p + 1 := Nat.mod_eq_of_lt (by omega)
          rw [circle, slice, next, ih (by omega)]

theorem circle_congr (inside : p < capacity)
    (agree : ∀ k, k < n → buf ((p + k) % capacity) = buf' ((p + k) % capacity)) :
    buf.circle capacity p n = buf'.circle capacity p n := by
  induction n generalizing p with
  | zero => rfl
  | succ n ih =>
      have here := agree 0 (by omega)
      rw [Nat.add_zero, Nat.mod_eq_of_lt inside] at here
      have further := ih (p := (p + 1) % capacity) (Nat.mod_lt _ (by omega)) fun k low => by
        have same := agree (k + 1) (by omega)
        rwa [Nat.mod_add_mod, Nat.add_assoc, Nat.add_comm 1]
      rw [circle, circle, here, further]

theorem mod_ne_of_lt {j k : Nat} (before : j < k) (near : k < j + capacity) :
    (p + j) % capacity ≠ (p + k) % capacity := by
  intro same
  have around : j ≡ k [MOD capacity] := Nat.ModEq.add_left_cancel' p same
  have whole := (Nat.modEq_iff_dvd' before.le).mp around
  have turn := Nat.le_of_dvd (by omega) whole
  omega

end XdPlus.Base.Buffer
