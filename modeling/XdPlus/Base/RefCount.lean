/- Module: XdPlus/Base/RefCount
   layer: library
   digest: A table of keys with the number of their users. -/

import Mathlib.Data.Finset.Card

set_option autoImplicit false
set_option relaxedAutoImplicit false

namespace XdPlus.Base

variable {n : Nat} {κ U : Type}

/-- Every key in use has one entry, which counts exactly its users; `null` marks an entry
that is free. -/
structure Counted (null : κ) (key : Fin n → κ) (count : Fin n → Nat) (uses : U → κ → Prop) :
    Prop where
  unique : ∀ {i j}, key i ≠ null → key i = key j → i = j
  exact : ∀ {i}, key i ≠ null →
    ∃ S : Finset U, S.Nonempty ∧ S.card = count i ∧ ∀ u, u ∈ S ↔ uses u (key i)
  listed : ∀ {u k}, uses u k → k ≠ null ∧ ∃ i, key i = k

namespace Counted

variable {null : κ} {key key' : Fin n → κ} {count count' : Fin n → Nat} {uses uses' : U → κ → Prop}
  {i : Fin n} {u v : U} {k : κ}

theorem unlisted (counted : Counted null key count uses) (missing : ∀ i, key i ≠ k) :
    ¬ uses u k := by
  intro used
  obtain ⟨-, i, here⟩ := counted.listed used
  exact missing i here

theorem alone (counted : Counted null key count uses) (here : key i = k) (one : count i = 1)
    (mine : uses u k) (other : uses v k) : v = u := by
  obtain ⟨S, -, card, members⟩ := counted.exact (here ▸ (counted.listed mine).1)
  obtain ⟨x, rfl⟩ := Finset.card_eq_one.mp (card.trans one)
  rw [here] at members
  have first := (members u).mpr mine
  have second := (members v).mpr other
  rw [Finset.mem_singleton] at first second
  rw [first, second]

theorem congr (counted : Counted null key count uses) (keys : ∀ i, key' i = key i)
    (counts : ∀ i, key i ≠ null → count' i = count i) (same : ∀ u k, uses' u k ↔ uses u k) :
    Counted null key' count' uses' := by
  refine ⟨?_, ?_, ?_⟩
  · intro i j some_key equal
    rw [keys] at some_key equal
    rw [keys] at equal
    exact counted.unique some_key equal
  · intro i some_key
    rw [keys] at some_key ⊢
    obtain ⟨S, filled, card, members⟩ := counted.exact some_key
    exact ⟨S, filled, card.trans (counts i some_key).symm,
      fun u => (members u).trans (same u _).symm⟩
  · intro u k used
    obtain ⟨some_key, i, here⟩ := counted.listed ((same u k).mp used)
    exact ⟨some_key, i, (keys i).trans here⟩

private theorem elsewhere (counted : Counted null key count uses)
    (there : ∀ j, j ≠ i → key' j = key j ∧ count' j = count j)
    (same : ∀ v l, l ≠ k → (uses' v l ↔ uses v l)) (apart : ∀ j, j ≠ i → key j ≠ null → key j ≠ k)
    {j : Fin n} (ne : j ≠ i) (some_key : key' j ≠ null) :
    ∃ S : Finset U, S.Nonempty ∧ S.card = count' j ∧ ∀ u, u ∈ S ↔ uses' u (key' j) := by
  obtain ⟨same_key, same_count⟩ := there j ne
  rw [same_key] at some_key ⊢
  obtain ⟨S, filled, card, members⟩ := counted.exact some_key
  exact ⟨S, filled, card.trans same_count.symm,
    fun u => (members u).trans (same u _ (apart j ne some_key)).symm⟩

theorem join [DecidableEq U] (counted : Counted null key count uses) (some_key : k ≠ null)
    (here : key i = k) (fresh : ¬ uses u k) (keys : ∀ j, key' j = key j)
    (more : count' i = count i + 1)
    (there : ∀ j, j ≠ i → count' j = count j)
    (joined : ∀ v l, uses' v l ↔ uses v l ∨ v = u ∧ l = k) :
    Counted null key' count' uses' := by
  have apart : ∀ j, j ≠ i → key j ≠ null → key j ≠ k := by
    rintro j ne filled equal
    exact ne (counted.unique filled (equal.trans here.symm))
  refine ⟨?_, ?_, ?_⟩
  · intro j l filled equal
    rw [keys] at filled equal
    rw [keys] at equal
    exact counted.unique filled equal
  · intro j filled
    rcases eq_or_ne j i with rfl | ne
    · obtain ⟨S, -, card, members⟩ := counted.exact (here ▸ some_key)
      rw [here] at members
      have new : u ∉ S := fun member => fresh ((members u).mp member)
      refine ⟨insert u S, Finset.insert_nonempty u S, ?_, fun v => ?_⟩
      · rw [Finset.card_insert_of_notMem new, card, more]
      · rw [keys, here, Finset.mem_insert, members, joined]
        constructor
        · rintro (rfl | old)
          · exact .inr ⟨rfl, rfl⟩
          · exact .inl old
        · rintro (old | ⟨rfl, -⟩)
          · exact .inr old
          · exact .inl rfl
    · refine counted.elsewhere (fun j ne => ⟨keys j, there j ne⟩) (fun v l other => ?_) apart ne
        filled
      rw [joined]
      exact ⟨fun used => used.resolve_right fun both => other both.2, .inl⟩
  · intro v l used
    rcases (joined v l).mp used with old | ⟨-, rfl⟩
    · obtain ⟨filled, j, at_j⟩ := counted.listed old
      exact ⟨filled, j, (keys j).trans at_j⟩
    · exact ⟨some_key, i, (keys i).trans here⟩

theorem claim (counted : Counted null key count uses) (some_key : k ≠ null)
    (free : key i = null) (missing : ∀ j, key j ≠ k) (here : key' i = k) (one : count' i = 1)
    (there : ∀ j, j ≠ i → key' j = key j ∧ count' j = count j)
    (joined : ∀ v l, uses' v l ↔ uses v l ∨ v = u ∧ l = k) :
    Counted null key' count' uses' := by
  refine ⟨?_, ?_, ?_⟩
  · intro j l filled equal
    rcases eq_or_ne j i with rfl | jne
    · rcases eq_or_ne l j with rfl | lne
      · rfl
      · rw [here, (there l lne).1] at equal
        exact absurd equal.symm (missing l)
    · rw [(there j jne).1] at filled equal
      rcases eq_or_ne l i with rfl | lne
      · rw [here] at equal
        exact absurd equal (missing j)
      · rw [(there l lne).1] at equal
        exact counted.unique filled equal
  · intro j filled
    rcases eq_or_ne j i with rfl | ne
    · refine ⟨{u}, Finset.singleton_nonempty u, one ▸ Finset.card_singleton u, fun v => ?_⟩
      rw [here, joined, Finset.mem_singleton]
      constructor
      · rintro rfl
        exact .inr ⟨rfl, rfl⟩
      · rintro (old | ⟨rfl, -⟩)
        · exact absurd old (counted.unlisted missing)
        · rfl
    · refine counted.elsewhere there (fun v l other => ?_) (fun j _ _ => missing j) ne filled
      rw [joined]
      exact ⟨fun used => used.resolve_right fun both => other both.2, .inl⟩
  · intro v l used
    rcases (joined v l).mp used with old | ⟨-, rfl⟩
    · obtain ⟨filled, j, at_j⟩ := counted.listed old
      refine ⟨filled, j, ?_⟩
      have ne : j ≠ i := by
        rintro rfl
        exact filled (at_j.symm.trans free)
      rw [(there j ne).1, at_j]
    · exact ⟨some_key, i, here⟩

theorem leave [DecidableEq U] (counted : Counted null key count uses) (here : key i = k)
    (mine : uses u k) (others : count i ≠ 1) (keys : ∀ j, key' j = key j)
    (fewer : count' i = count i - 1)
    (there : ∀ j, j ≠ i → count' j = count j)
    (left : ∀ v l, uses' v l ↔ uses v l ∧ ¬ (v = u ∧ l = k)) :
    Counted null key' count' uses' := by
  have some_key := (counted.listed mine).1
  have apart : ∀ j, j ≠ i → key j ≠ null → key j ≠ k := by
    rintro j ne filled equal
    exact ne (counted.unique filled (equal.trans here.symm))
  refine ⟨?_, ?_, ?_⟩
  · intro j l filled equal
    rw [keys] at filled equal
    rw [keys] at equal
    exact counted.unique filled equal
  · intro j filled
    rcases eq_or_ne j i with rfl | ne
    · obtain ⟨S, -, card, members⟩ := counted.exact (here ▸ some_key)
      rw [here] at members
      have member := (members u).mpr mine
      have size : (S.erase u).card = count j - 1 := by
        rw [Finset.card_erase_of_mem member, card]
      have positive : 0 < S.card := Finset.card_pos.mpr ⟨u, member⟩
      refine ⟨S.erase u, ?_, by rw [size, fewer], fun v => ?_⟩
      · rw [← Finset.card_pos]
        omega
      · rw [keys, here, Finset.mem_erase, members, left]
        constructor
        · rintro ⟨ne, used⟩
          exact ⟨used, fun both => ne both.1⟩
        · rintro ⟨used, not_me⟩
          exact ⟨fun same => not_me ⟨same, rfl⟩, used⟩
    · refine counted.elsewhere (fun j ne => ⟨keys j, there j ne⟩) (fun v l other => ?_) apart ne
        filled
      rw [left]
      exact ⟨fun used => used.1, fun used => ⟨used, fun both => other both.2⟩⟩
  · intro v l used
    obtain ⟨filled, j, at_j⟩ := counted.listed ((left v l).mp used).1
    exact ⟨filled, j, (keys j).trans at_j⟩

theorem vacate (counted : Counted null key count uses) (here : key i = k) (mine : uses u k)
    (one : count i = 1) (freed : key' i = null)
    (there : ∀ j, j ≠ i → key' j = key j ∧ count' j = count j)
    (left : ∀ v l, uses' v l ↔ uses v l ∧ ¬ (v = u ∧ l = k)) :
    Counted null key' count' uses' := by
  have apart : ∀ j, j ≠ i → key j ≠ null → key j ≠ k := by
    rintro j ne filled equal
    exact ne (counted.unique filled (equal.trans here.symm))
  refine ⟨?_, ?_, ?_⟩
  · intro j l filled equal
    have jne : j ≠ i := by
      rintro rfl
      exact filled freed
    have lne : l ≠ i := by
      rintro rfl
      exact filled (equal.trans freed)
    rw [(there j jne).1] at filled equal
    rw [(there l lne).1] at equal
    exact counted.unique filled equal
  · intro j filled
    have ne : j ≠ i := by
      rintro rfl
      exact filled freed
    refine counted.elsewhere there (fun v l other => ?_) apart ne filled
    rw [left]
    exact ⟨fun used => used.1, fun used => ⟨used, fun both => other both.2⟩⟩
  · intro v l used
    obtain ⟨old, not_me⟩ := (left v l).mp used
    obtain ⟨filled, j, at_j⟩ := counted.listed old
    have ne : j ≠ i := by
      rintro rfl
      have same : l = k := at_j.symm.trans here
      subst same
      exact not_me ⟨counted.alone here one mine old, rfl⟩
    exact ⟨filled, j, (there j ne).1.trans at_j⟩

end Counted

end XdPlus.Base
