/- Module: XdPlus/Base/Machine
   layer: library
   digest: Labelled transition systems, what they reach, and the invariant rule. -/

import Mathlib.Logic.Relation
import Mathlib.Tactic.SplitIfs

set_option autoImplicit false
set_option relaxedAutoImplicit false

namespace XdPlus.Base

universe u v

/-- A transition system: the states a process may start in and its labelled
steps. Nondeterminism of the environment lives in the choice of label. -/
structure Machine (σ : Type u) (ℓ : Type v) where
  init : σ → Prop
  step : σ → ℓ → σ → Prop

namespace Machine

variable {σ : Type u} {ℓ : Type v}

/-- The states that steps from an initial state lead to. -/
inductive Reachable (M : Machine σ ℓ) : σ → Prop
  | start {s : σ} : M.init s → Reachable M s
  | next {s t : σ} {l : ℓ} : Reachable M s → M.step s l t → Reachable M t

/-- The same system with every step that leaves `P` removed. -/
def within (M : Machine σ ℓ) (P : σ → Prop) : Machine σ ℓ where
  init s := M.init s ∧ P s
  step s l t := M.step s l t ∧ P t

/-- The same system with only the steps that meet `P` in their source state. -/
def guarded (M : Machine σ ℓ) (P : σ → ℓ → Prop) : Machine σ ℓ where
  init := M.init
  step s l t := M.step s l t ∧ P s l

variable {M : Machine σ ℓ}

theorem Reachable.invariant {I : σ → Prop} {s : σ} (reach : M.Reachable s)
    (start : ∀ s, M.init s → I s)
    (keep : ∀ s l t, M.Reachable s → I s → M.step s l t → I t) : I s := by
  induction reach with
  | start h => exact start _ h
  | next prior h ih => exact keep _ _ _ prior ih h

theorem Reachable.of_guarded {P : σ → ℓ → Prop} {s : σ} (reach : (M.guarded P).Reachable s) :
    M.Reachable s := by
  induction reach with
  | start h => exact .start h
  | next _ h ih => exact ih.next h.1

theorem Reachable.moved {α : Type*} {I : σ → Prop} {go : σ → α → Option σ}
    (moves : ∀ s a t, I s → go s a = some t → (∃ l, M.step s l t) ∧ I t)
    {s t : σ} (reach : M.Reachable s) (here : I s) (list : List α)
    (ends : list.foldlM go s = some t) : M.Reachable t ∧ I t := by
  induction list generalizing s with
  | nil =>
      obtain rfl := Option.some.inj ends
      exact ⟨reach, here⟩
  | cons a rest ih =>
      rw [List.foldlM_cons] at ends
      obtain ⟨u, goes, later⟩ := Option.bind_eq_some_iff.mp ends
      obtain ⟨⟨l, first⟩, kept⟩ := moves s a u here goes
      exact ih (reach.next first) kept later

/-- Some steps in a row, each permitted in its place. -/
def follow (next : σ → ℓ → σ) (permitted : σ → ℓ → Bool) (s : σ) (labels : List ℓ) : Option σ :=
  labels.foldlM (fun s l => if permitted s l then some (next s l) else none) s

theorem Reachable.follow {next : σ → ℓ → σ} {permitted : σ → ℓ → Bool} {s t : σ}
    (reach : M.Reachable s) (step : ∀ s l, permitted s l = true → M.step s l (next s l))
    (labels : List ℓ) (ends : Machine.follow next permitted s labels = some t) :
    M.Reachable t := by
  have moves : ∀ s l t, True → (if permitted s l then some (next s l) else none) = some t →
      (∃ l, M.step s l t) ∧ True := by
    intro s l t _ goes
    split_ifs at goes with allowed
    obtain rfl := Option.some.inj goes
    exact ⟨⟨l, step s l allowed⟩, trivial⟩
  exact (reach.moved moves trivial labels ends).1

/-- A system each of whose steps is one of `M`, or nothing, as `M` sees it. -/
theorem Reachable.simulated {σ' : Type u} {ℓ' : Type v} {N : Machine σ' ℓ'} {seen : σ' → σ}
    {s : σ'} (reach : N.Reachable s) (start : ∀ s, N.init s → M.init (seen s))
    (step : ∀ s l t, N.Reachable s → N.step s l t →
      seen t = seen s ∨ ∃ k, M.step (seen s) k (seen t)) :
    M.Reachable (seen s) := by
  induction reach with
  | start h => exact .start (start _ h)
  | next prior h ih =>
      rcases step _ _ _ prior h with same | ⟨k, first⟩
      · exact same ▸ ih
      · exact ih.next first

end Machine

end XdPlus.Base
