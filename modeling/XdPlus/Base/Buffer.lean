/- Module: XdPlus/Base/Buffer
   layer: library
   digest: A buffer as the cells behind a pointer: what is read from it, stored into it and
     found in it. -/

import Mathlib.Tactic.Common

set_option autoImplicit false
set_option relaxedAutoImplicit false

namespace XdPlus.Base

universe u

/-- Cells by their index. -/
abbrev Buffer (α : Type u) := Nat → α

namespace Buffer

variable {α : Type u}

/-- `n` cells from index `p` on. -/
def slice (buf : Buffer α) : Nat → Nat → List α
  | _, 0 => []
  | p, n + 1 => buf p :: slice buf (p + 1) n

/-- `data` copied to index `p`. -/
def store (buf : Buffer α) (p : Nat) (data : List α) : Buffer α :=
  fun i => if p ≤ i then data.getD (i - p) (buf i) else buf i

/-- The first of `n` cells from `p` on that holds `a`. -/
def search [DecidableEq α] (buf : Buffer α) (a : α) : Nat → Nat → Option Nat
  | _, 0 => none
  | p, n + 1 => if buf p = a then some p else search buf a (p + 1) n

variable {buf buf' : Buffer α} {p n : Nat}

@[simp] theorem length_slice : (buf.slice p n).length = n := by
  induction n generalizing p with
  | zero => rfl
  | succ n ih => simp [slice, ih]

theorem slice_add (m : Nat) :
    buf.slice p (n + m) = buf.slice p n ++ buf.slice (p + n) m := by
  induction n generalizing p with
  | zero => simp [slice]
  | succ n ih =>
      rw [Nat.add_right_comm, slice, slice, ih, List.cons_append,
        show p + 1 + n = p + (n + 1) by omega]

theorem getElem?_slice (i : Nat) (inside : i < n) : (buf.slice p n)[i]? = some (buf (p + i)) := by
  induction n generalizing p i with
  | zero => omega
  | succ n ih =>
      cases i with
      | zero => rfl
      | succ i =>
          rw [slice, List.getElem?_cons_succ, ih i (by omega), Nat.add_assoc, Nat.add_comm 1 i]

theorem slice_congr (agree : ∀ i, p ≤ i → i < p + n → buf i = buf' i) :
    buf.slice p n = buf'.slice p n := by
  induction n generalizing p with
  | zero => rfl
  | succ n ih =>
      have here := agree p (Nat.le_refl p) (by omega)
      have further := ih (p := p + 1) fun i low high => agree i (by omega) (by omega)
      rw [slice, slice, here, further]

theorem slice_drop (k : Nat) : (buf.slice p (k + n)).drop k = buf.slice (p + k) n := by
  rw [slice_add]
  exact List.drop_left' length_slice

theorem slice_store_before (q : Nat) (data : List α) (before : p + n ≤ q) :
    (buf.store q data).slice p n = buf.slice p n := by
  refine slice_congr fun i _ high => ?_
  rw [store, if_neg (by omega)]

theorem slice_store (data : List α) : (buf.store p data).slice p data.length = data := by
  refine List.ext_getElem? fun i => ?_
  by_cases inside : i < data.length
  · rw [getElem?_slice i inside, store, if_pos (Nat.le_add_right p i), Nat.add_sub_cancel_left,
      List.getD_eq_getElem?_getD, List.getElem?_eq_getElem inside, Option.getD_some]
  · rw [List.getElem?_eq_none (by simpa using inside), List.getElem?_eq_none (by omega)]

theorem slice_move (p q n : Nat) : (buf.store p (buf.slice q n)).slice p n = buf.slice q n := by
  have stored : (buf.store p (buf.slice q n)).slice p (buf.slice q n).length = buf.slice q n :=
    slice_store (buf.slice q n)
  rwa [length_slice] at stored

section Search

variable [DecidableEq α] {a : α}

theorem search_none (absent : a ∉ buf.slice p n) : buf.search a p n = none := by
  induction n generalizing p with
  | zero => rfl
  | succ n ih =>
      rw [slice, List.mem_cons, not_or] at absent
      rw [search, if_neg (Ne.symm absent.1), ih absent.2]

theorem search_stretch {first rest : List α} (holds : buf.slice p n = first ++ a :: rest)
    (plain : a ∉ first) : buf.search a p n = some (p + first.length) := by
  induction first generalizing p n with
  | nil =>
      cases n with
      | zero => cases holds
      | succ n =>
          rw [slice, List.nil_append, List.cons.injEq] at holds
          rw [search, if_pos holds.1, List.length_nil, Nat.add_zero]
  | cons b first ih =>
      cases n with
      | zero => cases holds
      | succ n =>
          rw [slice, List.cons_append, List.cons.injEq] at holds
          have other : buf p ≠ a := by
            rw [holds.1]
            exact fun same => plain (same ▸ List.mem_cons_self ..)
          have further := ih holds.2 fun member => plain (List.mem_cons_of_mem _ member)
          rw [search, if_neg other, further, List.length_cons, Nat.add_assoc, Nat.add_comm 1]

end Search

end Buffer

end XdPlus.Base
