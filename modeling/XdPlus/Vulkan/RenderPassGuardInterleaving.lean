/- Module: XdPlus/Vulkan/RenderPassGuardInterleaving
   source: vulkan/vkshim.c, supp_set, supp_active, supp_clear
   digest: Every interleaving of the table's atomic accesses decides every command correctly. -/

import Mathlib.Algebra.Order.BigOperators.Group.Finset
import XdPlus.Vulkan.RenderPassGuardAtomic

set_option autoImplicit false
set_option relaxedAutoImplicit false

namespace XdPlus.Vulkan.RenderPassGuardInterleaving

open XdPlus.Base Common RenderPassGuard RenderPassGuardAtomic

/-- How many buffers inside a null pass are at a point of kind `f`. -/
def tally (f : Pc → Bool) (s : State) : Nat := ∑ cb ∈ s.null, (f (s.pc cb)).toNat

/-- Free slots at or after `q`. -/
def room (q : Nat) (slots : Fin suppMax → VkCommandBuffer) : Nat :=
  ∑ i, (decide (q ≤ i.val ∧ slots i = 0)).toNat

/-- A search for a free slot cannot run off the end: at and after every position
there are at least as many free slots as searches that got that far. -/
structure Inv (s : State) : Prop where
  zero_out : 0 ∉ s.null ∧ 0 ∉ s.real
  apart : ∀ cb ∈ s.null, cb ∉ s.real
  unused : ∀ cb, cb ∉ s.null → cb ∉ s.real → s.pc cb = .idle
  outside : ∀ cb, cb ∉ s.null →
    (s.pc cb).slotted = true ∧ (s.pc cb).counted = true ∧ ∀ i, s.pc cb ≠ .clearScan i
  slot_owner : ∀ i, s.table.cb i ≠ 0 →
    s.table.cb i ∈ s.null ∧ (s.pc (s.table.cb i)).slotted = true
  has_slot : ∀ cb ∈ s.null, (s.pc cb).slotted = true → ∃ i, s.table.cb i = cb
  one_slot : ∀ i j, s.table.cb i = s.table.cb j → s.table.cb i ≠ 0 → i = j
  ahead : ∀ cb ∈ s.null, ∀ i, s.table.cb i = cb → (s.pc cb).passed ≤ i.val
  hint : s.table.last ≠ 0 → s.table.last ∈ s.null ∧ (s.pc s.table.last).hinted = true
  count : s.table.n = tally Pc.counted s
  filled : tally Pc.slotted s + room 0 s.table.cb = suppMax
  space : ∀ q, tally (Pc.seeks q) s ≤ room q s.table.cb

private theorem tally_goto (f : Pc → Bool) (s : State) {cb : VkCommandBuffer}
    (h : cb ∈ s.null) (p : Pc) :
    tally f (s.goto cb p) + (f (s.pc cb)).toNat = tally f s + (f p).toNat := by
  exact sum_update s.null (fun _ q => (f q).toNat) s.pc h p

private theorem tally_goto_outside (f : Pc → Bool) (s : State) {cb : VkCommandBuffer}
    (h : cb ∉ s.null) (p : Pc) : tally f (s.goto cb p) = tally f s := by
  exact sum_update_of_notMem s.null (fun _ q => (f q).toNat) s.pc h p

private theorem tally_goto_same (f : Pc → Bool) (s : State) {cb : VkCommandBuffer} {p : Pc}
    (same : f p = f (s.pc cb)) : tally f (s.goto cb p) = tally f s := by
  by_cases h : cb ∈ s.null
  · have := tally_goto f s h p
    rw [same] at this
    omega
  · exact tally_goto_outside f s h p

private theorem tally_close (f : Pc → Bool) (s : State) {cb : VkCommandBuffer}
    (h : cb ∈ s.null) : tally f (s.close cb) + (f (s.pc cb)).toNat = tally f s := by
  have same := sum_update_of_notMem (s.null.erase cb) (fun _ q => (f q).toNat) s.pc
    (Finset.notMem_erase cb s.null) .idle
  have total := Finset.add_sum_erase s.null (fun c => (f (s.pc c)).toNat) h
  simp only [tally, State.close]
  omega

private theorem tally_open (f : Pc → Bool) (s : State) {cb : VkCommandBuffer}
    (h : cb ∉ s.null) (p : Pc) :
    tally f ({ s with null := insert cb s.null }.goto cb p) = tally f s + (f p).toNat := by
  have same := sum_update_of_notMem s.null (fun _ q => (f q).toNat) s.pc h p
  simp only [tally, State.goto, Finset.sum_insert h, Function.update_self]
  omega

private theorem tally_mono {f g : Pc → Bool} (s : State) (h : ∀ p, f p = true → g p = true) :
    tally f s ≤ tally g s := by
  apply Finset.sum_le_sum
  intro cb _
  cases hf : f (s.pc cb)
  · simp
  · simp [h _ hf]

private theorem tally_pos {f : Pc → Bool} {s : State} {cb : VkCommandBuffer} (h : cb ∈ s.null)
    (hf : f (s.pc cb) = true) : 0 < tally f s := by
  have := Finset.single_le_sum (f := fun c => (f (s.pc c)).toNat) (fun _ _ => Nat.zero_le _) h
  simp only [hf, Bool.toNat_true] at this
  exact this

private theorem room_update (q : Nat) (slots : Fin suppMax → VkCommandBuffer) (i : Fin suppMax)
    (a : VkCommandBuffer) :
    room q (Function.update slots i a) + (decide (q ≤ i.val ∧ slots i = 0)).toNat =
      room q slots + (decide (q ≤ i.val ∧ a = 0)).toNat := by
  exact sum_update Finset.univ
    (fun (j : Fin suppMax) (b : VkCommandBuffer) => (decide (q ≤ j.val ∧ b = 0)).toNat)
    slots (Finset.mem_univ i) a

private theorem room_succ {slots : Fin suppMax → VkCommandBuffer} {i : Fin suppMax}
    (busy : slots i ≠ 0) : room i.val slots = room (i.val + 1) slots := by
  apply Finset.sum_congr rfl
  intro j _
  by_cases same : j = i
  · subst same
    simp [busy]
  · have : i.val ≤ j.val ↔ i.val + 1 ≤ j.val := by
      have : j.val ≠ i.val := fun h => same (Fin.ext h)
      omega
    simp [this]

/-- Searches that reached `q`, searches elsewhere and slot owners are different
buffers, so the bound leaves a slot for every search. -/
private theorem space_at_start {s : State} (bound : Bounded s)
    (filled : tally Pc.slotted s + room 0 s.table.cb = suppMax) :
    tally (Pc.seeks 0) s ≤ room 0 s.table.cb := by
  have split : tally (Pc.seeks 0) s + tally Pc.slotted s ≤ s.null.card := by
    rw [tally, tally, ← Finset.sum_add_distrib, Finset.card_eq_sum_ones]
    apply Finset.sum_le_sum
    intro cb _
    cases s.pc cb <;> simp [Pc.seeks, Pc.slotted]
  unfold Bounded at bound
  omega

private theorem inv_zero : Inv State.zero := by
  have all_free : room 0 SuppTable.zero.cb = suppMax := by decide
  constructor <;> simp [State.zero, SuppTable.zero, Pc.slotted, Pc.counted, tally]
  exact all_free

section Steps

variable {s : State} {cb : VkCommandBuffer}

private theorem Inv.ne_zero (inv : Inv s) (h : cb ∈ s.null) : cb ≠ 0 := by
  rintro rfl
  exact inv.zero_out.1 h

private theorem inv_move (inv : Inv s) (null : cb ∈ s.null) {p : Pc} {t : SuppTable}
    (frame : ∀ i b, b ≠ 0 → b ≠ cb → (t.cb i = b ↔ s.table.cb i = b))
    (own : p.slotted = true ↔ ∃ i, t.cb i = cb)
    (single : ∀ i j, t.cb i = cb → t.cb j = cb → i = j)
    (ahead : ∀ i, t.cb i = cb → p.passed ≤ i.val)
    (hint : t.last ≠ 0 → if t.last = cb then p.hinted = true else t.last = s.table.last)
    (count : t.n = tally Pc.counted (s.goto cb p))
    (filled : tally Pc.slotted (s.goto cb p) + room 0 t.cb = suppMax)
    (space : ∀ q, tally (Pc.seeks q) (s.goto cb p) ≤ room q t.cb) :
    Inv ({ s with table := t }.goto cb p) := by
  have still : ∀ b, b ≠ cb → ({ s with table := t }.goto cb p).pc b = s.pc b :=
    fun b ne => Function.update_of_ne ne _ _
  have moved : ({ s with table := t }.goto cb p).pc cb = p := Function.update_self _ _ _
  have nz := inv.ne_zero null
  refine ⟨inv.zero_out, inv.apart, ?_, ?_, ?_, ?_, ?_, ?_, ?_, count, filled, space⟩
  · intro b hn hr
    rw [still b (fun h => hn (h ▸ null))]
    exact inv.unused b hn hr
  · intro b hn
    rw [still b (fun h => hn (h ▸ null))]
    exact inv.outside b hn
  · intro i hi
    change t.cb i ≠ 0 at hi
    change t.cb i ∈ s.null ∧ (({ s with table := t }.goto cb p).pc (t.cb i)).slotted = true
    by_cases mine : t.cb i = cb
    · rw [mine, moved]
      exact ⟨null, own.mpr ⟨i, mine⟩⟩
    · have old : s.table.cb i = t.cb i := (frame i _ hi mine).mp rfl
      rw [still _ mine, ← old]
      exact inv.slot_owner i (old ▸ hi)
  · intro b hb hs
    by_cases this_one : b = cb
    · subst this_one
      exact own.mp (moved ▸ hs)
    · rw [still b this_one] at hs
      obtain ⟨i, hi⟩ := inv.has_slot b hb hs
      exact ⟨i, (frame i b (inv.ne_zero hb) this_one).mpr hi⟩
  · intro i j same hi
    change t.cb i = t.cb j at same
    change t.cb i ≠ 0 at hi
    by_cases mine : t.cb i = cb
    · exact single i j mine (same ▸ mine)
    · have hj := (frame j _ hi mine).mp same.symm
      have hi' := (frame i _ hi mine).mp rfl
      exact inv.one_slot i j (hi'.trans hj.symm) (hi' ▸ hi)
  · intro b hb i hi
    by_cases this_one : b = cb
    · subst this_one
      rw [moved]
      exact ahead i hi
    · rw [still b this_one]
      exact inv.ahead b hb i ((frame i b (inv.ne_zero hb) this_one).mp hi)
  · intro h
    change t.last ≠ 0 at h
    change t.last ∈ s.null ∧ (({ s with table := t }.goto cb p).pc t.last).hinted = true
    have := hint h
    split_ifs at this with mine
    · rw [mine, moved]
      exact ⟨null, this⟩
    · rw [still _ mine, this]
      exact inv.hint (this ▸ h)

private theorem inv_move_real (inv : Inv s) (real : cb ∈ s.real) {p : Pc}
    (slotted : p.slotted = true) (counted : p.counted = true)
    (searching : ∀ i, p ≠ .clearScan i) : Inv (s.goto cb p) := by
  have out : cb ∉ s.null := fun h => inv.apart cb h real
  have still : ∀ b ∈ s.null, (s.goto cb p).pc b = s.pc b := by
    intro b hb
    have ne : b ≠ cb := fun h => out (h ▸ hb)
    exact Function.update_of_ne ne _ _
  refine ⟨inv.zero_out, inv.apart, ?_, ?_, ?_, ?_, inv.one_slot, ?_, ?_, ?_, ?_, ?_⟩
  · intro b hn hr
    have ne : b ≠ cb := fun h => hr (h ▸ real)
    exact (Function.update_of_ne ne _ _).trans (inv.unused b hn hr)
  · intro b hn
    by_cases this_one : b = cb
    · subst this_one
      simpa [State.goto, slotted, counted] using searching
    · simpa [State.goto, this_one] using inv.outside b hn
  · intro i hi
    have old := inv.slot_owner i hi
    exact ⟨old.1, (congrArg Pc.slotted (still _ old.1)).trans old.2⟩
  · exact fun b hb hs => inv.has_slot b hb (still b hb ▸ hs)
  · exact fun b hb i hi => still b hb ▸ inv.ahead b hb i hi
  · intro h
    have old := inv.hint h
    exact ⟨old.1, (congrArg Pc.hinted (still _ old.1)).trans old.2⟩
  · rw [tally_goto_outside _ s out]
    exact inv.count
  · rw [tally_goto_outside _ s out]
    exact inv.filled
  · intro q
    rw [tally_goto_outside _ s out]
    exact inv.space q

private theorem inv_goto_same (inv : Inv s) {p : Pc} (inside : cb ∈ s.null ∨ cb ∈ s.real)
    (slotted : (s.pc cb).slotted = true ∧ p.slotted = true)
    (counted : (s.pc cb).counted = true ∧ p.counted = true) (hinted : p.hinted = true)
    (seeks : ∀ q, p.seeks q = (s.pc cb).seeks q)
    (ahead : cb ∈ s.null → ∀ i, s.table.cb i = cb → p.passed ≤ i.val)
    (clearing : cb ∉ s.null → ∀ i, p ≠ .clearScan i) : Inv (s.goto cb p) := by
  by_cases null : cb ∈ s.null
  · have nz := inv.ne_zero null
    refine inv_move inv null (t := s.table) (fun _ _ _ _ => Iff.rfl) ?_ ?_ (ahead null) ?_ ?_ ?_ ?_
    · exact ⟨fun _ => inv.has_slot cb null slotted.1, fun _ => slotted.2⟩
    · exact fun i j hi hj => inv.one_slot i j (hi.trans hj.symm) (hi ▸ nz)
    · intro _
      split_ifs
      · exact hinted
      · rfl
    · rw [tally_goto_same _ s (counted.2.trans counted.1.symm)]
      exact inv.count
    · rw [tally_goto_same _ s (slotted.2.trans slotted.1.symm)]
      exact inv.filled
    · intro q
      rw [tally_goto_same _ s (seeks q)]
      exact inv.space q
  · exact inv_move_real inv (inside.resolve_left null) slotted.2 counted.2 (clearing null)

private theorem Inv.mem_null (inv : Inv s)
    (busy : (s.pc cb).slotted = false ∨ (s.pc cb).counted = false ∨ ∃ i, s.pc cb = .clearScan i) :
    cb ∈ s.null := by
  by_contra out
  obtain ⟨slotted, counted, not_clear⟩ := inv.outside cb out
  rcases busy with h | h | ⟨i, h⟩
  · simp [slotted] at h
  · simp [counted] at h
  · exact not_clear i h

private theorem Inv.no_slot (inv : Inv s) (null : cb ∈ s.null)
    (without : (s.pc cb).slotted = false) (i : Fin suppMax) : s.table.cb i ≠ cb := by
  intro same
  have := (inv.slot_owner i (same ▸ inv.ne_zero null)).2
  simp [same, without] at this

private theorem Inv.not_hinted (inv : Inv s) (null : cb ∈ s.null)
    (without : (s.pc cb).hinted = false) : s.table.last ≠ cb := by
  intro same
  have := (inv.hint (same ▸ inv.ne_zero null)).2
  simp [same, without] at this

private theorem inv_claim (inv : Inv s) {i : Fin suppMax} (at_pc : s.pc cb = .setScan i)
    (free : s.table.cb i = 0) :
    Inv ({ s with table := { s.table with cb := Function.update s.table.cb i cb } }.goto
      cb .setHint) := by
  have unslotted : (s.pc cb).slotted = false := by simp [at_pc, Pc.slotted]
  have null : cb ∈ s.null := inv.mem_null (.inl unslotted)
  have nz := inv.ne_zero null
  have elsewhere : ∀ j, Function.update s.table.cb i cb j = cb → j = i := by
    intro j hj
    by_contra ne
    rw [Function.update_of_ne ne] at hj
    exact inv.no_slot null unslotted j hj
  refine inv_move inv null ?_ ?_ ?_ ?_ ?_ ?_ ?_ ?_
  · intro j b hb hne
    by_cases here : j = i
    · simp [here, free, hb.symm, hne.symm]
    · simp [here]
  · exact ⟨fun _ => ⟨i, Function.update_self _ _ _⟩, fun _ => rfl⟩
  · exact fun j k hj hk => (elsewhere j hj).trans (elsewhere k hk).symm
  · exact fun _ _ => Nat.zero_le _
  · intro _
    simp [inv.not_hinted null (by simp [at_pc, Pc.hinted])]
  · rw [tally_goto_same _ s (by simp [at_pc, Pc.counted])]
    exact inv.count
  · have moved := tally_goto Pc.slotted s null .setHint
    have taken := room_update 0 s.table.cb i cb
    have := inv.filled
    simp only [at_pc, free, nz, Pc.slotted, Nat.zero_le, and_true, and_false, decide_true,
      decide_false, Bool.toNat_true, Bool.toNat_false, Nat.add_zero] at moved taken
    change _ + room 0 (Function.update s.table.cb i cb) = _
    omega
  · intro q
    have moved := tally_goto (Pc.seeks q) s null .setHint
    have taken := room_update q s.table.cb i cb
    have := inv.space q
    simp only [at_pc, free, nz, Pc.seeks, and_true, and_false, decide_false,
      Bool.toNat_false, Nat.add_zero] at moved taken
    change _ ≤ room q (Function.update s.table.cb i cb)
    omega

private theorem inv_vacate (inv : Inv s) {i : Fin suppMax} (at_pc : s.pc cb = .clearScan i)
    (own : s.table.cb i = cb) :
    Inv ({ s with table := { s.table with cb := Function.update s.table.cb i 0 } }.goto
      cb .clearHint) := by
  have null : cb ∈ s.null := inv.mem_null (.inr (.inr ⟨i, at_pc⟩))
  have nz := inv.ne_zero null
  have gone : ∀ j, Function.update s.table.cb i 0 j ≠ cb := by
    intro j hj
    by_cases here : j = i
    · simp [here, nz.symm] at hj
    · rw [Function.update_of_ne here] at hj
      exact here (inv.one_slot j i (hj.trans own.symm) (hj ▸ nz))
  refine inv_move inv null ?_ ?_ ?_ ?_ ?_ ?_ ?_ ?_
  · intro j b hb hne
    by_cases here : j = i
    · simp [here, own, hb.symm, hne.symm]
    · simp [here]
  · exact ⟨fun h => by simp [Pc.slotted] at h, fun ⟨j, hj⟩ => absurd hj (gone j)⟩
  · exact fun j _ hj => absurd hj (gone j)
  · exact fun _ _ => Nat.zero_le _
  · intro _
    split_ifs <;> rfl
  · rw [tally_goto_same _ s (by simp [at_pc, Pc.counted])]
    exact inv.count
  · have moved := tally_goto Pc.slotted s null .clearHint
    have freed := room_update 0 s.table.cb i 0
    have := inv.filled
    simp only [at_pc, own, nz, Pc.slotted, Nat.zero_le, and_true, and_false, decide_true,
      decide_false, Bool.toNat_true, Bool.toNat_false, Nat.add_zero] at moved freed
    change _ + room 0 (Function.update s.table.cb i 0) = _
    omega
  · intro q
    have moved := tally_goto (Pc.seeks q) s null .clearHint
    have freed := room_update q s.table.cb i 0
    have := inv.space q
    simp only [at_pc, own, nz, Pc.seeks, and_true, and_false, decide_false,
      Bool.toNat_false, Nat.add_zero] at moved freed
    change _ ≤ room q (Function.update s.table.cb i 0)
    omega

private theorem inv_retable (inv : Inv s) (null : cb ∈ s.null) {p : Pc}
    {last : VkCommandBuffer} {n : Int} (slotted : p.slotted = (s.pc cb).slotted)
    (seeks : ∀ q, p.seeks q = (s.pc cb).seeks q) (passed : p.passed = 0)
    (hint : last ≠ 0 → if last = cb then p.hinted = true else last = s.table.last)
    (count : n = tally Pc.counted (s.goto cb p)) :
    Inv ({ s with table := { s.table with last := last, n := n } }.goto cb p) := by
  have nz := inv.ne_zero null
  refine inv_move inv null (fun _ _ _ _ => Iff.rfl) ?_ ?_ ?_ hint count ?_ ?_
  · rw [slotted]
    constructor
    · exact inv.has_slot cb null
    · rintro ⟨i, hi⟩
      have := (inv.slot_owner i (hi ▸ nz)).2
      rwa [hi] at this
  · exact fun i j hi hj => inv.one_slot i j (hi.trans hj.symm) (hi ▸ nz)
  · exact fun i _ => passed ▸ Nat.zero_le _
  · rw [tally_goto_same _ s slotted]
    exact inv.filled
  · intro q
    rw [tally_goto_same _ s (seeks q)]
    exact inv.space q

private theorem inv_setHint (inv : Inv s) (at_pc : s.pc cb = .setHint) :
    Inv ({ s with table := { s.table with last := cb } }.goto cb .setCount) := by
  have null : cb ∈ s.null := inv.mem_null (.inr (.inl (by simp [at_pc, Pc.counted])))
  refine inv_retable inv null (by simp [at_pc, Pc.slotted]) (by simp [at_pc, Pc.seeks]) rfl
    (fun _ => by simp [Pc.hinted]) ?_
  rw [tally_goto_same _ s (by simp [at_pc, Pc.counted])]
  exact inv.count

private theorem inv_setCount (inv : Inv s) (at_pc : s.pc cb = .setCount) :
    Inv ({ s with table := { s.table with n := s.table.n + 1 } }.goto cb .idle) := by
  have null : cb ∈ s.null := inv.mem_null (.inr (.inl (by simp [at_pc, Pc.counted])))
  refine inv_retable inv null (by simp [at_pc, Pc.slotted]) (by simp [at_pc, Pc.seeks]) rfl
    (fun _ => by simp [Pc.hinted]) ?_
  have moved := tally_goto Pc.counted s null .idle
  simp only [at_pc, Pc.counted, Bool.toNat_false, Bool.toNat_true] at moved
  have := inv.count
  omega

private theorem inv_clearHint (inv : Inv s) (at_pc : s.pc cb = .clearHint) :
    Inv ({ s with table := { s.table with
      last := if s.table.last = cb then 0 else s.table.last } }.goto cb .clearCount) := by
  have null : cb ∈ s.null := inv.mem_null (.inl (by simp [at_pc, Pc.slotted]))
  refine inv_retable inv null (by simp [at_pc, Pc.slotted]) (by simp [at_pc, Pc.seeks]) rfl
    ?_ ?_
  · intro h
    by_cases same : s.table.last = cb
    · simp [same] at h
    · simp [same]
  · rw [tally_goto_same _ s (by simp [at_pc, Pc.counted])]
    exact inv.count

private theorem inv_seek_on (inv : Inv s) {i j : Fin suppMax} (at_pc : s.pc cb = .setScan i)
    (busy : s.table.cb i ≠ 0) (succ : j.val = i.val + 1) : Inv (s.goto cb (.setScan j)) := by
  have unslotted : (s.pc cb).slotted = false := by simp [at_pc, Pc.slotted]
  have null : cb ∈ s.null := inv.mem_null (.inl unslotted)
  have absent := inv.no_slot null unslotted
  refine inv_move inv null (t := s.table) (fun _ _ _ _ => Iff.rfl) ?_ ?_ ?_ ?_ ?_ ?_ ?_
  · exact ⟨fun h => by simp [Pc.slotted] at h, fun ⟨k, hk⟩ => absurd hk (absent k)⟩
  · exact fun k _ hk => absurd hk (absent k)
  · exact fun k hk => absurd hk (absent k)
  · intro _
    simp [inv.not_hinted null (by simp [at_pc, Pc.hinted])]
  · rw [tally_goto_same _ s (by simp [at_pc, Pc.counted])]
    exact inv.count
  · rw [tally_goto_same _ s (by simp [at_pc, Pc.slotted])]
    exact inv.filled
  · intro q
    by_cases reached : q = i.val + 1
    · subst reached
      calc tally (Pc.seeks (i.val + 1)) (s.goto cb (.setScan j))
          ≤ tally (Pc.seeks i.val) (s.goto cb (.setScan j)) := by
            apply tally_mono
            intro p
            cases p <;> simp [Pc.seeks]
            omega
        _ = tally (Pc.seeks i.val) s := by
            apply tally_goto_same
            simp only [at_pc, Pc.seeks, succ]
            simp
        _ ≤ room i.val s.table.cb := inv.space i.val
        _ = room (i.val + 1) s.table.cb := room_succ busy
    · rw [tally_goto_same _ s]
      · exact inv.space q
      · simp only [at_pc, Pc.seeks, succ, decide_eq_decide]
        omega

private theorem seek_succeeds (inv : Inv s) {i : Fin suppMax} (at_pc : s.pc cb = .setScan i)
    (last : nextIndex i = none) : s.table.cb i = 0 := by
  have null : cb ∈ s.null := inv.mem_null (.inl (by simp [at_pc, Pc.slotted]))
  by_contra busy
  have some_search : 0 < tally (Pc.seeks i.val) s :=
    tally_pos null (by simp [at_pc, Pc.seeks])
  have none_free : room i.val s.table.cb = 0 := by
    rw [room_succ busy]
    apply Finset.sum_eq_zero
    intro k _
    have : ¬ i.val + 1 ≤ k.val := by
      have := k.isLt
      unfold nextIndex at last
      split_ifs at last with more
      omega
    simp [this]
  have := inv.space i.val
  omega

private theorem inv_close (inv : Inv s) {n : Int}
    (done : cb ∈ s.null → s.pc cb = .clearCount)
    (count : n = tally Pc.counted (s.close cb)) :
    Inv ({ s with table := { s.table with n := n } }.close cb) := by
  have still : ∀ b, b ≠ cb → (s.close cb).pc b = s.pc b :=
    fun b ne => Function.update_of_ne ne _ _
  have mem : ∀ b, b ∈ (s.close cb).null ↔ b ≠ cb ∧ b ∈ s.null := fun b => Finset.mem_erase
  have memr : ∀ b, b ∈ (s.close cb).real ↔ b ≠ cb ∧ b ∈ s.real := fun b => Finset.mem_erase
  have tallies : ∀ f, f .clearCount = false → tally f (s.close cb) = tally f s := by
    intro f hf
    by_cases null : cb ∈ s.null
    · have := tally_close f s null
      simpa [done null, hf] using this
    · have := tally_goto_outside f s null .idle
      simpa [tally, State.close, State.goto, Finset.erase_eq_of_notMem null] using this
  refine ⟨?_, ?_, ?_, ?_, ?_, ?_, inv.one_slot, ?_, ?_, count, ?_, ?_⟩
  · exact ⟨fun h => inv.zero_out.1 ((mem 0).mp h).2, fun h => inv.zero_out.2 ((memr 0).mp h).2⟩
  · exact fun b hb hr => inv.apart b ((mem b).mp hb).2 ((memr b).mp hr).2
  · intro b hn hr
    by_cases this_one : b = cb
    · simp [State.close, this_one]
    · exact (still b this_one).trans (inv.unused b (fun h => hn ((mem b).mpr ⟨this_one, h⟩))
        (fun h => hr ((memr b).mpr ⟨this_one, h⟩)))
  · intro b hn
    by_cases this_one : b = cb
    · simp [State.close, this_one, Pc.slotted, Pc.counted]
    · have := inv.outside b (fun h => hn ((mem b).mpr ⟨this_one, h⟩))
      rwa [← still b this_one] at this
  · intro i hi
    have old := inv.slot_owner i hi
    have ne : s.table.cb i ≠ cb := by
      intro same
      have := old.2
      rw [same, done (same ▸ old.1)] at this
      simp [Pc.slotted] at this
    exact ⟨(mem _).mpr ⟨ne, old.1⟩, (congrArg Pc.slotted (still _ ne)).trans old.2⟩
  · intro b hb hs
    obtain ⟨ne, hb⟩ := (mem b).mp hb
    exact inv.has_slot b hb ((congrArg Pc.slotted (still b ne)).symm.trans hs)
  · intro b hb i hi
    obtain ⟨ne, hb⟩ := (mem b).mp hb
    exact (congrArg Pc.passed (still b ne)).trans_le (inv.ahead b hb i hi)
  · intro h
    have old := inv.hint h
    have ne : s.table.last ≠ cb := by
      intro same
      have := old.2
      rw [same, done (same ▸ old.1)] at this
      simp [Pc.hinted] at this
    exact ⟨(mem _).mpr ⟨ne, old.1⟩, (congrArg Pc.hinted (still _ ne)).trans old.2⟩
  · exact (congrArg (· + room 0 s.table.cb) (tallies Pc.slotted rfl)).trans inv.filled
  · exact fun q => (tallies (Pc.seeks q) rfl).trans_le (inv.space q)

private theorem inv_clearCount (inv : Inv s) (at_pc : s.pc cb = .clearCount) :
    Inv ({ s with table := { s.table with n := s.table.n - 1 } }.close cb) := by
  have null : cb ∈ s.null := inv.mem_null (.inl (by simp [at_pc, Pc.slotted]))
  refine inv_close inv (fun _ => at_pc) ?_
  have moved := tally_close Pc.counted s null
  simp only [at_pc, Pc.counted, Bool.toNat_true] at moved
  have := inv.count
  omega

private theorem inv_close_real (inv : Inv s) (out : cb ∉ s.null) : Inv (s.close cb) := by
  refine inv_close inv (fun null => absurd null out) (n := s.table.n) ?_
  have := tally_goto_outside Pc.counted s out .idle
  simp only [tally, State.close, State.goto, Finset.erase_eq_of_notMem out] at this ⊢
  rw [this]
  exact inv.count

private theorem inv_begin_null (inv : Inv s) (nz : cb ≠ 0) (out : cb ∉ s.null)
    (unreal : cb ∉ s.real)
    (bound : Bounded ({ s with null := insert cb s.null }.goto cb (.setScan 0))) :
    Inv ({ s with null := insert cb s.null }.goto cb (.setScan 0)) := by
  have roles : ∀ b ∈ s.null, Function.update s.pc cb (.setScan 0) b = s.pc b := by
    intro b hb
    have ne : b ≠ cb := fun h => out (h ▸ hb)
    exact Function.update_of_ne ne _ _
  have filled : tally Pc.slotted ({ s with null := insert cb s.null }.goto cb (.setScan 0)) +
      room 0 s.table.cb = suppMax := by
    rw [tally_open _ s out]
    simpa [Pc.slotted] using inv.filled
  refine ⟨?_, ?_, ?_, ?_, ?_, ?_, inv.one_slot, ?_, ?_, ?_, filled, ?_⟩
  · refine ⟨fun h => ?_, inv.zero_out.2⟩
    rcases Finset.mem_insert.mp h with h | h
    · exact nz h.symm
    · exact inv.zero_out.1 h
  · intro b hb
    rcases Finset.mem_insert.mp hb with rfl | hb
    · exact unreal
    · exact inv.apart b hb
  · intro b hn hr
    simp only [State.goto, Finset.mem_insert, not_or] at hn
    simpa [State.goto, hn.1] using inv.unused b hn.2 hr
  · intro b hn
    simp only [State.goto, Finset.mem_insert, not_or] at hn
    simpa [State.goto, hn.1] using inv.outside b hn.2
  · intro i hi
    have old := inv.slot_owner i hi
    refine ⟨Finset.mem_insert_of_mem old.1, ?_⟩
    simp only [State.goto, roles _ old.1]
    exact old.2
  · intro b hb hs
    rcases Finset.mem_insert.mp hb with rfl | hb
    · simp [State.goto, Pc.slotted] at hs
    · simp only [State.goto, roles b hb] at hs
      exact inv.has_slot b hb hs
  · intro b hb i hi
    rcases Finset.mem_insert.mp hb with rfl | hb
    · simp [State.goto, Pc.passed]
    · simp only [State.goto, roles b hb]
      exact inv.ahead b hb i hi
  · intro h
    have old := inv.hint h
    refine ⟨Finset.mem_insert_of_mem old.1, ?_⟩
    simp only [State.goto, roles _ old.1]
    exact old.2
  · rw [tally_open _ s out]
    exact inv.count
  · intro q
    by_cases start : q = 0
    · subst start
      exact space_at_start bound filled
    · rw [tally_open _ s out]
      have none_new : (Pc.setScan 0).seeks q = false := by simpa [Pc.seeks] using start
      rw [none_new]
      exact inv.space q

private theorem inv_begin_real (inv : Inv s) (nz : cb ≠ 0) (out : cb ∉ s.null) :
    Inv { s with real := insert cb s.real } := by
  refine ⟨⟨inv.zero_out.1, fun h => ?_⟩, ?_, ?_, inv.outside, inv.slot_owner, inv.has_slot,
    inv.one_slot, inv.ahead, inv.hint, inv.count, inv.filled, inv.space⟩
  · rcases Finset.mem_insert.mp h with h | h
    · exact nz h.symm
    · exact inv.zero_out.2 h
  · intro b hb hr
    rcases Finset.mem_insert.mp hr with rfl | hr
    · exact out hb
    · exact inv.apart b hb hr
  · intro b hn hr
    exact inv.unused b hn (fun h => hr (Finset.mem_insert_of_mem h))

private theorem nextIndex_some {i j : Fin suppMax} (h : nextIndex i = some j) :
    j.val = i.val + 1 := by
  unfold nextIndex at h
  split_ifs at h
  rw [← Option.some.inj h]

private theorem passes (inv : Inv s) (null : cb ∈ s.null) {i j : Fin suppMax}
    (reached : (s.pc cb).passed = i.val) (miss : s.table.cb i ≠ cb) (more : nextIndex i = some j)
    (k : Fin suppMax) (hk : s.table.cb k = cb) : j.val ≤ k.val := by
  have behind := inv.ahead cb null k hk
  have here : k.val ≠ i.val := fun h => miss (Fin.ext h ▸ hk)
  have := nextIndex_some more
  omega

private theorem finds_own (inv : Inv s) (null : cb ∈ s.null) {i k : Fin suppMax}
    (reached : (s.pc cb).passed = i.val) (last : nextIndex i = none)
    (hk : s.table.cb k = cb) : s.table.cb i = cb := by
  have behind := inv.ahead cb null k hk
  have := k.isLt
  unfold nextIndex at last
  split_ifs at last with more
  have here : k = i := Fin.ext (by omega)
  exact here ▸ hk

/-- `supp_active` on a buffer, read at whatever points its three loads happen:
the verdict is whether the buffer is inside a null pass. -/
private theorem verdict_exact (inv : Inv s) {t : State} {q : Query} {w : Bool}
    (step : s.advance cb = some (t, some ⟨cb, q, w⟩)) :
    (w = true ↔ cb ∈ s.null) ∧ t = (s.decide cb q w).1 ∧ (s.pc cb).slotted = true ∧
      (s.pc cb).counted = true ∧ (∀ k, (s.pc cb).seeks k = false) := by
  have verdict : ∀ (p : Query) (b : Bool), s.decide cb p b = (t, some ⟨cb, q, w⟩) →
      w = b ∧ q = p ∧ t = (s.decide cb q w).1 := by
    intro p b h
    cases p <;> cases b <;> simp only [State.decide, Prod.mk.injEq, Option.some.injEq,
      Decision.mk.injEq, true_and] at h <;> obtain ⟨rfl, rfl, rfl⟩ := h <;> exact ⟨rfl, rfl, rfl⟩
  have not_zero : s.pc cb ≠ .idle → cb ≠ 0 := by
    rintro busy rfl
    exact busy (inv.unused 0 inv.zero_out.1 inv.zero_out.2)
  cases at_pc : s.pc cb with
  | activeCount p =>
      rw [State.advance, at_pc] at step
      simp only at step
      have nz := not_zero (by simp [at_pc])
      split_ifs at step with none_counted
      · obtain ⟨rfl, rfl, ht⟩ := verdict p false (Option.some.inj step)
        refine ⟨⟨by simp, fun null => ?_⟩, ht, rfl, rfl, fun _ => rfl⟩
        have := tally_pos (f := Pc.counted) null (by simp [at_pc, Pc.counted])
        have := inv.count
        omega
      · simp at step
  | activeHint p =>
      rw [State.advance, at_pc] at step
      simp only at step
      split_ifs at step with hit
      · obtain ⟨rfl, rfl, ht⟩ := verdict p true (Option.some.inj step)
        have nz := not_zero (by simp [at_pc])
        refine ⟨⟨fun _ => ?_, fun _ => rfl⟩, ht, rfl, rfl, fun _ => rfl⟩
        exact hit ▸ (inv.hint (hit ▸ nz)).1
      · simp at step
  | activeScan p i =>
      rw [State.advance, at_pc] at step
      simp only at step
      have nz := not_zero (by simp [at_pc])
      split_ifs at step with hit
      · obtain ⟨rfl, rfl, ht⟩ := verdict p true (Option.some.inj step)
        refine ⟨⟨fun _ => ?_, fun _ => rfl⟩, ht, rfl, rfl, fun _ => rfl⟩
        exact hit ▸ (inv.slot_owner i (hit ▸ nz)).1
      · cases more : nextIndex i with
        | some j => simp [more] at step
        | none =>
            simp only [more] at step
            obtain ⟨rfl, rfl, ht⟩ := verdict p false (Option.some.inj step)
            refine ⟨⟨by simp, fun null => ?_⟩, ht, rfl, rfl, fun _ => rfl⟩
            -- The scan ended past the slot the buffer would have had to have.
            obtain ⟨j, hj⟩ := inv.has_slot cb null (by simp [at_pc, Pc.slotted])
            exact absurd (finds_own inv null (by simp [at_pc, Pc.passed]) more hj) hit
  | setScan i =>
      rw [State.advance, at_pc] at step
      simp only at step
      split_ifs at step
      · simp at step
      · split at step <;> simp at step
  | clearScan i =>
      rw [State.advance, at_pc] at step
      simp only at step
      split_ifs at step
      · simp at step
      · split at step <;> simp at step
  | _ => simp [State.advance, at_pc] at step

private theorem decision_cb {t : State} {d : Decision}
    (step : s.advance cb = some (t, some d)) : d.cb = cb := by
  have verdict : ∀ q w, s.decide cb q w = (t, some d) → d.cb = cb := by
    intro q w h
    cases q <;> cases w <;> simp only [State.decide, Prod.mk.injEq, Option.some.injEq] at h <;>
      rw [← h.2]
  rw [State.advance] at step
  split at step
  all_goals (try split_ifs at step)
  all_goals (try split at step)
  all_goals first
    | exact verdict _ _ (Option.some.inj step)
    | simp at step

private theorem Inv.inside (inv : Inv s) (busy : s.pc cb ≠ .idle) :
    cb ∈ s.null ∨ cb ∈ s.real := by
  by_contra out
  obtain ⟨hn, hr⟩ := not_or.mp out
  exact busy (inv.unused cb hn hr)

private theorem inv_decide (inv : Inv s) {q : Query} {w : Bool} (exact_ : w = true ↔ cb ∈ s.null)
    (busy : s.pc cb ≠ .idle) (slotted : (s.pc cb).slotted = true)
    (counted : (s.pc cb).counted = true) (seeks : ∀ k, (s.pc cb).seeks k = false) :
    Inv (s.decide cb q w).1 := by
  have inside := inv.inside busy
  cases q with
  | command c =>
      exact inv_goto_same inv inside ⟨slotted, rfl⟩ ⟨counted, rfl⟩ rfl
        (fun k => (seeks k).symm) (fun _ _ _ => Nat.zero_le _) (fun _ _ => by simp)
  | endRenderPass =>
      cases w with
      | true =>
          exact inv_goto_same inv inside ⟨slotted, rfl⟩ ⟨counted, rfl⟩ rfl
            (fun k => (seeks k).symm) (fun _ _ _ => Nat.zero_le _)
            (fun out => absurd (exact_.mp rfl) out)
      | false => exact inv_close_real inv (fun null => by simpa using exact_.mpr null)

private theorem inv_advance (inv : Inv s) {t : State} {d : Option Decision}
    (step : s.advance cb = some (t, d)) : Inv t := by
  have decided : ∀ q w, s.advance cb = some (s.decide cb q w) →
      s.pc cb ≠ .idle → Inv (s.decide cb q w).1 := by
    intro q w h busy
    have label : s.decide cb q w = ((s.decide cb q w).1, some ⟨cb, q, w⟩) := by
      cases q <;> cases w <;> rfl
    rw [label] at h
    obtain ⟨exact_, _, slotted, counted, seeks⟩ := verdict_exact inv h
    exact inv_decide inv exact_ busy slotted counted seeks
  have finish : ∀ q w, s.advance cb = some (s.decide cb q w) → s.pc cb ≠ .idle → Inv t := by
    intro q w h busy
    have same : (t, d) = s.decide cb q w := Option.some.inj (step.symm.trans h)
    have := decided q w h busy
    rwa [← same] at this
  have unfolded := step
  rw [State.advance] at unfolded
  cases at_pc : s.pc cb with
  | idle => simp [at_pc] at unfolded
  | setScan i =>
      simp only [at_pc] at unfolded
      split_ifs at unfolded with free
      · obtain ⟨rfl, -⟩ := Prod.mk.inj (Option.some.inj unfolded)
        exact inv_claim inv at_pc free
      · cases more : nextIndex i with
        | some j =>
            simp only [more, Option.some.injEq, Prod.mk.injEq] at unfolded
            obtain ⟨rfl, -⟩ := unfolded
            exact inv_seek_on inv at_pc free (nextIndex_some more)
        | none => exact absurd (seek_succeeds inv at_pc more) free
  | setHint =>
      simp only [at_pc, Option.some.injEq, Prod.mk.injEq] at unfolded
      obtain ⟨rfl, -⟩ := unfolded
      exact inv_setHint inv at_pc
  | setCount =>
      simp only [at_pc, Option.some.injEq, Prod.mk.injEq] at unfolded
      obtain ⟨rfl, -⟩ := unfolded
      exact inv_setCount inv at_pc
  | activeCount q =>
      have busy : s.pc cb ≠ .idle := by simp [at_pc]
      have nz : cb ≠ 0 := by
        rintro rfl
        exact busy (inv.unused 0 inv.zero_out.1 inv.zero_out.2)
      by_cases none_counted : s.table.n = 0
      · exact finish q false (by simp [State.advance, at_pc, none_counted]) busy
      · simp only [at_pc, none_counted, nz, if_false, Option.some.injEq,
          Prod.mk.injEq] at unfolded
        obtain ⟨rfl, -⟩ := unfolded
        exact inv_goto_same inv (inv.inside busy) (by simp [at_pc, Pc.slotted])
          (by simp [at_pc, Pc.counted]) rfl (by simp [at_pc, Pc.seeks])
          (fun _ _ _ => Nat.zero_le _) (fun _ _ => by simp)
  | activeHint q =>
      have busy : s.pc cb ≠ .idle := by simp [at_pc]
      by_cases hit : s.table.last = cb
      · exact finish q true (by simp [State.advance, at_pc, hit]) busy
      · simp only [at_pc, hit, if_false, Option.some.injEq, Prod.mk.injEq] at unfolded
        obtain ⟨rfl, -⟩ := unfolded
        exact inv_goto_same inv (inv.inside busy) (by simp [at_pc, Pc.slotted])
          (by simp [at_pc, Pc.counted]) rfl (by simp [at_pc, Pc.seeks])
          (fun _ _ _ => Nat.zero_le _) (fun _ _ => by simp)
  | activeScan q i =>
      have busy : s.pc cb ≠ .idle := by simp [at_pc]
      by_cases hit : s.table.cb i = cb
      · exact finish q true (by simp [State.advance, at_pc, hit]) busy
      · cases more : nextIndex i with
        | none => exact finish q false (by simp [State.advance, at_pc, hit, more]) busy
        | some j =>
            simp only [at_pc, hit, if_false, more, Option.some.injEq, Prod.mk.injEq] at unfolded
            obtain ⟨rfl, -⟩ := unfolded
            exact inv_goto_same inv (inv.inside busy) (by simp [at_pc, Pc.slotted])
              (by simp [at_pc, Pc.counted]) rfl (by simp [at_pc, Pc.seeks])
              (fun null => passes inv null (by simp [at_pc, Pc.passed]) hit more)
              (fun _ _ => by simp)
  | clearScan i =>
      have null : cb ∈ s.null := inv.mem_null (.inr (.inr ⟨i, at_pc⟩))
      simp only [at_pc] at unfolded
      split_ifs at unfolded with hit
      · obtain ⟨rfl, -⟩ := Prod.mk.inj (Option.some.inj unfolded)
        exact inv_vacate inv at_pc hit
      · cases more : nextIndex i with
        | some j =>
            simp only [more, Option.some.injEq, Prod.mk.injEq] at unfolded
            obtain ⟨rfl, -⟩ := unfolded
            exact inv_goto_same inv (.inl null) (by simp [at_pc, Pc.slotted])
              (by simp [at_pc, Pc.counted]) rfl (by simp [at_pc, Pc.seeks])
              (fun _ => passes inv null (by simp [at_pc, Pc.passed]) hit more)
              (fun out => absurd null out)
        | none =>
            -- The own entry lies at or after the scan, so the scan meets it.
            obtain ⟨k, hk⟩ := inv.has_slot cb null (by simp [at_pc, Pc.slotted])
            exact absurd (finds_own inv null (i := i) (by simp [at_pc, Pc.passed]) more hk) hit
  | clearHint =>
      simp only [at_pc, Option.some.injEq, Prod.mk.injEq] at unfolded
      obtain ⟨rfl, -⟩ := unfolded
      exact inv_clearHint inv at_pc
  | clearCount =>
      simp only [at_pc, Option.some.injEq, Prod.mk.injEq] at unfolded
      obtain ⟨rfl, -⟩ := unfolded
      exact inv_clearCount inv at_pc

private theorem inv_next (inv : Inv s) {a : Action} {t : State} {d : Option Decision}
    (step : s.next a = some (t, d)) (bound : Bounded t) : Inv t := by
  cases a with
  | beginRenderPass b rp =>
      simp only [State.next] at step
      split_ifs at step with taken null
      · obtain ⟨rfl, -⟩ := Prod.mk.inj (Option.some.inj step)
        obtain ⟨nz, -, out, unreal⟩ := by simpa only [not_or] using taken
        exact inv_begin_null inv nz out unreal bound
      · obtain ⟨rfl, -⟩ := Prod.mk.inj (Option.some.inj step)
        obtain ⟨nz, -, out, -⟩ := by simpa only [not_or] using taken
        exact inv_begin_real inv nz out
  | call b q =>
      simp only [State.next] at step
      split_ifs at step with ready
      obtain ⟨rfl, -⟩ := Prod.mk.inj (Option.some.inj step)
      exact inv_goto_same inv ready.2 (by simp [ready.1, Pc.slotted])
        (by simp [ready.1, Pc.counted]) rfl (by simp [ready.1, Pc.seeks])
        (fun _ _ _ => Nat.zero_le _) (fun _ _ => by simp)
  | advance b => exact inv_advance inv step

end Steps

theorem inv_reachable {s : State} (reach : (system.within Bounded).Reachable s) : Inv s := by
  apply reach.invariant
  · rintro s ⟨rfl, -⟩
    exact inv_zero
  · rintro s l t _ inv ⟨step, bound⟩
    exact inv_next inv step bound

/-- In every interleaving that keeps at most `SUPP_MAX` buffers inside a null pass,
a command is withheld exactly when its buffer's pass was begun with a null
framebuffer. -/
theorem withheld_iff_null {s t : State} {a : Action} {d : Decision}
    (reach : (system.within Bounded).Reachable s) (step : s.next a = some (t, some d)) :
    d.withheld = true ↔ d.cb ∈ s.null := by
  cases a with
  | beginRenderPass cb rp =>
      simp only [State.next] at step
      split_ifs at step <;> simp at step
  | call cb q =>
      simp only [State.next] at step
      split_ifs at step
      simp at step
  | advance cb =>
      obtain rfl : d.cb = cb := decision_cb step
      exact (verdict_exact (inv_reachable reach) (q := d.query) (w := d.withheld) step).1

private theorem follow_reachable {s t : State} {acts : List Action}
    (reach : (system.within Bounded).Reachable s) (h : s.follow acts = some t) :
    (system.within Bounded).Reachable t := by
  induction acts generalizing s with
  | nil => exact Option.some.inj h ▸ reach
  | cons a rest ih =>
      simp only [State.follow] at h
      split at h
      · rename_i u d step
        split_ifs at h with bound
        exact ih (reach.next (l := (a, d)) ⟨step, bound⟩) h
      · simp at h

/-- Two buffers in null passes racing for slot 0, and a third in a real pass whose
draw reads the counter in between. -/
def race : List Action :=
  [.beginRenderPass 7 ⟨1, 0⟩, .beginRenderPass 8 ⟨1, 0⟩, .beginRenderPass 9 ⟨1, 5⟩,
    .advance 8, .advance 7, .advance 7, .advance 8, .call 9 (.command (.draw 3 1 0 0)),
    .advance 7, .advance 9, .advance 7, .advance 8, .call 8 .endRenderPass, .advance 8,
    .call 7 (.command (.draw 3 1 0 0)), .advance 7, .advance 8]

theorem withheld_iff_null_race :
    ∃ (s t : State) (d : Decision), s.next (.advance 7) = some (t, some d) ∧ d.cb = 7 ∧
      (d.withheld = true ↔ 7 ∈ s.null) ∧ d.withheld = true := by
  have reached : (State.zero.follow race).isSome = true := by decide
  obtain ⟨s, hs⟩ := Option.isSome_iff_exists.mp reached
  have verdict : (State.zero.follow race).bind (fun s => (s.next (.advance 7)).bind Prod.snd) =
      some ⟨7, .command (.draw 3 1 0 0), true⟩ := by decide
  rw [hs, Option.bind_some] at verdict
  obtain ⟨⟨t, d⟩, step, rfl⟩ := Option.bind_eq_some_iff.mp verdict
  refine ⟨s, t, _, step, rfl, ?_, rfl⟩
  exact withheld_iff_null (follow_reachable (.start ⟨rfl, by decide⟩) hs) step

end XdPlus.Vulkan.RenderPassGuardInterleaving
