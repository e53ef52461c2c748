/- Module: XdPlus/Base/Ownership
   layer: library
   digest: Resources held in one place each, and how a step may move them. -/

import Mathlib.Data.Set.Basic

/-!
Holders have resources; a ledger says which resources exist and what they are. Every
resource a holder has is in the ledger as what the holder takes it for, and nobody else
has it. A step by a few holders keeps this as long as what they hold afterwards was theirs
before or is new, and nothing of the others disappears.
-/

set_option autoImplicit false
set_option relaxedAutoImplicit false

namespace XdPlus.Base

universe u v w

variable {X : Type u} {H : Type v} {D : Type w}

/-- `holds x h d`: holder `x` has the resource `h` and takes it for `d`. -/
structure Owned (holds : X → H → D → Prop) (live : H → Option D) : Prop where
  right : ∀ {x h d}, holds x h d → live h = some d
  alone : ∀ {x y h d e}, holds x h d → holds y h e → x = y

/-- What a step by the holders in `S` may do. -/
structure Handover (S : Set X) (holds holds' : X → H → D → Prop) (live live' : H → Option D) :
    Prop where
  outside : ∀ {x h d}, x ∉ S → holds' x h d → holds x h d
  source : ∀ {x h d}, x ∈ S → holds' x h d → live h = none ∨ ∃ y ∈ S, ∃ e, holds y h e
  kept : ∀ {x h d}, x ∉ S → holds x h d → live' h = some d ∨ ∃ y ∈ S, ∃ e, holds y h e
  right : ∀ {x h d}, x ∈ S → holds' x h d → live' h = some d
  alone : ∀ {x y h d e}, x ∈ S → y ∈ S → holds' x h d → holds' y h e → x = y

variable {holds holds' : X → H → D → Prop} {live live' : H → Option D}

theorem Owned.handover {S : Set X} (old : Owned holds live)
    (step : Handover S holds holds' live live') : Owned holds' live' := by
  have apart : ∀ {x y h d e}, x ∈ S → y ∉ S → holds' x h d → holds' y h e → False := by
    intro x y h d e inside outside has other
    have was := step.outside outside other
    rcases step.source inside has with free | ⟨z, member, f, had⟩
    · rw [old.right was] at free
      cases free
    · exact outside (old.alone had was ▸ member)
  constructor
  · intro x h d has
    by_cases inside : x ∈ S
    · exact step.right inside has
    · have was := step.outside inside has
      rcases step.kept inside was with same | ⟨y, member, e, had⟩
      · exact same
      · exact absurd (old.alone had was ▸ member) inside
  · intro x y h d e has other
    by_cases first : x ∈ S
    · by_cases second : y ∈ S
      · exact step.alone first second has other
      · exact (apart first second has other).elim
    · by_cases second : y ∈ S
      · exact (apart second first other has).elim
      · exact old.alone (step.outside first has) (step.outside second other)

end XdPlus.Base
