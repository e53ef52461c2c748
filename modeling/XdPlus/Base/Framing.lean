/- Module: XdPlus/Base/Framing
   layer: library
   digest: A sequence cut behind its separators, how the cut composes, and the decimal number
     at the front of a text. -/

import Mathlib.Tactic.Common

set_option autoImplicit false
set_option relaxedAutoImplicit false

namespace XdPlus.Base

universe u

variable {α : Type u} [DecidableEq α] (sep : α)

/-- The stretches that a separator ends, without it, and the rest behind the last one. -/
def cutAt : List α → List (List α) × List α
  | [] => ([], [])
  | a :: rest =>
      if a = sep then ([] :: (cutAt rest).1, (cutAt rest).2)
      else match (cutAt rest).1 with
        | [] => ([], a :: (cutAt rest).2)
        | first :: others => ((a :: first) :: others, (cutAt rest).2)

variable {sep}

theorem cutAt_plain {l : List α} (plain : sep ∉ l) : cutAt sep l = ([], l) := by
  induction l with
  | nil => rfl
  | cons a rest ih =>
      have here : a ≠ sep := fun same => plain (same ▸ List.mem_cons_self ..)
      have cut := ih fun member => plain (List.mem_cons_of_mem _ member)
      rw [cutAt, if_neg here, cut]

theorem cutAt_stretch {first : List α} (plain : sep ∉ first) (rest : List α) :
    cutAt sep (first ++ sep :: rest) = (first :: (cutAt sep rest).1, (cutAt sep rest).2) := by
  induction first with
  | nil => rw [List.nil_append, cutAt, if_pos rfl]
  | cons a first ih =>
      have here : a ≠ sep := fun same => plain (same ▸ List.mem_cons_self ..)
      have cut := ih fun member => plain (List.mem_cons_of_mem _ member)
      rw [List.cons_append, cutAt, if_neg here, cut]

variable (sep)

theorem first_stretch (l : List α) :
    sep ∉ l ∨ ∃ first rest, sep ∉ first ∧ l = first ++ sep :: rest := by
  by_cases member : sep ∈ l
  · obtain ⟨first, rest, split, plain⟩ := List.eq_append_cons_of_mem member
    exact .inr ⟨first, rest, plain, split⟩
  · exact .inl member

theorem cutAt_append (l m : List α) :
    cutAt sep (l ++ m) =
      ((cutAt sep l).1 ++ (cutAt sep ((cutAt sep l).2 ++ m)).1,
        (cutAt sep ((cutAt sep l).2 ++ m)).2) := by
  induction l with
  | nil => rfl
  | cons a rest ih =>
      by_cases here : a = sep
      · simp [cutAt, here, ih]
      · cases lines : (cutAt sep rest).1 with
        | nil => simp [cutAt, here, ih, lines]
        | cons first others => simp [cutAt, here, ih, lines]

theorem cutAt_join (l : List α) :
    (cutAt sep l).1.flatMap (· ++ [sep]) ++ (cutAt sep l).2 = l := by
  induction l with
  | nil => rfl
  | cons a rest ih =>
      by_cases here : a = sep
      · simp [cutAt, here, ih]
      · cases lines : (cutAt sep rest).1 with
        | nil =>
            rw [lines] at ih
            simpa [cutAt, here, lines] using ih
        | cons first others =>
            rw [lines] at ih
            simpa [cutAt, here, lines] using ih

theorem cutAt_separated (l : List α) :
    (∀ stretch ∈ (cutAt sep l).1, sep ∉ stretch) ∧ sep ∉ (cutAt sep l).2 := by
  induction l with
  | nil => simp [cutAt]
  | cons a rest ih =>
      by_cases here : a = sep
      · simpa [cutAt, here] using ih
      · cases lines : (cutAt sep rest).1 with
        | nil =>
            rw [lines] at ih
            simpa [cutAt, here, lines, Ne.symm here] using ih
        | cons first others =>
            rw [lines] at ih
            simpa [cutAt, here, lines, Ne.symm here] using ih

/-- The length of the longest stretch, the rest counted as one, is at most `most`. -/
def ShortStretches (most : Nat) (l : List α) : Prop :=
  (∀ stretch ∈ (cutAt sep l).1, stretch.length ≤ most) ∧ (cutAt sep l).2.length ≤ most

variable {sep}

theorem ShortStretches.beginning {most : Nat} {l m : List α}
    (short : ShortStretches sep most (l ++ m)) : ShortStretches sep most l := by
  obtain ⟨stretches, tail⟩ := short
  rw [cutAt_append] at stretches tail
  refine ⟨fun stretch member => stretches stretch (List.mem_append_left _ member), ?_⟩
  have plain := (cutAt_separated sep l).2
  rcases first_stretch sep m with whole | ⟨first, rest, separate, rfl⟩
  · have uncut : sep ∉ (cutAt sep l).2 ++ m := by simp [plain, whole]
    rw [cutAt_plain uncut] at tail
    simp only [List.length_append] at tail
    omega
  · have uncut : sep ∉ (cutAt sep l).2 ++ first := by simp [plain, separate]
    have cut := cutAt_stretch uncut rest
    rw [List.append_assoc] at cut
    have long := stretches ((cutAt sep l).2 ++ first) (by simp [cut])
    rw [List.length_append] at long
    omega

/-- `isspace`: the space, and the tab to the carriage return. -/
def isSpace (c : Char) : Bool := c == ' ' || (9 ≤ c.toNat && c.toNat ≤ 13)

/-- Blanks, a sign and digits: whether it is a minus, and what the digits come to. -/
def readDecimal (text : List Char) : Bool × Nat :=
  let text := text.dropWhile isSpace
  let negative := text.head? == some '-'
  let text := if negative || text.head? == some '+' then text.drop 1 else text
  (negative, (text.takeWhile Char.isDigit).foldl (fun n c => n * 10 + (c.toNat - 48)) 0)

end XdPlus.Base
