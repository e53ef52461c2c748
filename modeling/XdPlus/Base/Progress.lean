/- Module: XdPlus/Base/Progress
   layer: library
   digest: A system that gets closer to its goal at every step gets there; and one that
     cannot avoid it. -/

import Mathlib.Logic.Relation

set_option autoImplicit false
set_option relaxedAutoImplicit false

namespace XdPlus.Base

universe u

variable {σ : Type u}

theorem reaches_of_measure (step : σ → σ → Prop) (inv goal : σ → Prop) (measure : σ → Nat)
    (progress : ∀ s, inv s → ¬ goal s → ∃ t, step s t ∧ inv t ∧ measure t < measure s)
    (s : σ) (start : inv s) : ∃ t, Relation.ReflTransGen step s t ∧ inv t ∧ goal t := by
  induction bound : measure s using Nat.strongRecOn generalizing s with
  | ind n ih =>
      by_cases there : goal s
      · exact ⟨s, .refl, start, there⟩
      · obtain ⟨t, first, kept, lower⟩ := progress s start there
        obtain ⟨u, rest, done⟩ := ih (measure t) (bound ▸ lower) t kept rfl
        exact ⟨u, .head first rest, done⟩

/-- However the steps are chosen, they lead to the goal. -/
inductive Inevitable (step : σ → σ → Prop) (goal : σ → Prop) : σ → Prop
  | reached {s : σ} : goal s → Inevitable step goal s
  | ahead {s : σ} : (∃ t, step s t) → (∀ t, step s t → Inevitable step goal t) →
      Inevitable step goal s

theorem inevitable_of_acc {step : σ → σ → Prop} {inv goal : σ → Prop}
    (keep : ∀ s t, inv s → step s t → inv t)
    (progress : ∀ s, inv s → ¬ goal s → ∃ t, step s t) {s : σ}
    (ends : Acc (fun t s => step s t) s) (start : inv s) : Inevitable step goal s := by
  induction ends with
  | intro s _ ih =>
      by_cases there : goal s
      · exact .reached there
      · exact .ahead (progress s start there) fun t first => ih t first (keep s t start first)

/-- Each step lowers the measure, and only the goal has none. -/
theorem inevitable_of_measure {step : σ → σ → Prop} {inv goal : σ → Prop} (measure : σ → Nat)
    (keep : ∀ s t, inv s → step s t → inv t)
    (lower : ∀ s t, inv s → step s t → measure t < measure s)
    (progress : ∀ s, inv s → ¬ goal s → ∃ t, step s t) {s : σ} (start : inv s) :
    Inevitable step goal s := by
  induction bound : measure s using Nat.strongRecOn generalizing s with
  | ind n ih =>
      by_cases there : goal s
      · exact .reached there
      · refine .ahead (progress s start there) fun t first => ?_
        have lowered : measure t < n := bound ▸ lower s t start first
        exact ih (measure t) lowered (keep s t start first) rfl

end XdPlus.Base
