/- Module: XdPlus/Hdmi/RecordScan
   source: hdmi/xdplus_hdmid.c, is_hdmi_switch_event, has_state_zero and the buffer of main
   digest: The scan of a uevent that is cut inside the key it looks for. -/

import Mathlib.Data.List.Infix
import XdPlus.Base.Buffer
import XdPlus.Base.Framing
import XdPlus.Hdmi.Uevents

set_option autoImplicit false
set_option relaxedAutoImplicit false

namespace XdPlus.Hdmi.RecordScan

open XdPlus.Base Uevents

/-- The bytes `recv` counted. -/
def message (buf : Memory) (len : Nat) : List Char := Buffer.slice buf 0 len

/-- The NUL-separated records of a message, the last one without a NUL if the message ends
inside it. -/
def recordsIn (m : List Char) : List (List Char) :=
  (cutAt nul m).1 ++ if (cutAt nul m).2 = [] then [] else [(cutAt nul m).2]

/-- The loop of both searches with an answer only if it comes to an end in time. -/
def scanWithin (text : List Char) (buf : Memory) (len : Nat) : Nat → Nat → Option Bool
  | 0, _ => none
  | rounds + 1, i =>
      if i < len then
        if strEq (fun j => buf (i + j)) text then some true
        else scanWithin text buf len rounds (i + strnlen (fun j => buf (i + j)) (len - i) + 1)
      else
        some false

/-- A search for `key` is exact on the first `len` bytes of a buffer: it ends, it finds what
is there, and what is behind them does not matter. -/
structure ScansExactly (key : List Char) (scan : Memory → Nat → Bool) (buf : Memory)
    (len : Nat) : Prop where
  ends : ∃ rounds, scanWithin key buf len rounds 0 = some (scan buf len)
  finds : scan buf len = true ↔ key ∈ recordsIn (message buf len)
  bounded : ∀ buf', (∀ i, i < len → buf' i = buf i) → scan buf' len = scan buf len

/-- The key is among the finished records, or the unfinished one is no beginning of it. -/
def Decided (key m : List Char) : Prop :=
  key ∈ (cutAt nul m).1 ∨ (cutAt nul m).2 = [] ∨ ¬ (cutAt nul m).2 <+: key

instance (key m : List Char) : Decidable (Decided key m) :=
  inferInstanceAs (Decidable (_ ∨ _ ∨ _))

section Scan

variable {text : List Char} {buf : Memory} {len : Nat}

private theorem scanWithin_eq {rounds i : Nat} (enough : len - i ≤ rounds) :
    scanWithin text buf len (rounds + 1) i = some (hasRecord text buf len rounds i) := by
  induction rounds generalizing i with
  | zero => rw [scanWithin, if_neg (by omega), hasRecord]
  | succ rounds ih =>
      rw [scanWithin, hasRecord]
      split_ifs with inside same
      · rfl
      · exact ih (by omega)
      · rfl

private theorem reads_slice (s : Memory) (p n : Nat) :
    Reads (fun j => s (p + j)) (Buffer.slice s p n) := by
  induction n generalizing p with
  | zero => trivial
  | succ n ih =>
      refine ⟨rfl, ?_⟩
      have further := ih (p + 1)
      simpa only [Nat.add_assoc, Nat.add_comm 1] using further

private theorem strEq_front {s : Memory} {front : List Char} (reads : Reads s front)
    (plain : nul ∉ front) :
    strEq s text = true ↔ ∃ rest, text = front ++ rest ∧
      strEq (fun j => s (front.length + j)) rest = true := by
  induction front generalizing s text with
  | nil => simp
  | cons c front ih =>
      obtain ⟨here, further⟩ := reads
      have not_nul : c ≠ nul := by
        rintro rfl
        exact plain (List.mem_cons_self ..)
      cases text with
      | nil => simp [strEq, here, not_nul]
      | cons d text =>
          have plain_front : nul ∉ front := fun member => plain (List.mem_cons_of_mem _ member)
          have rest : strEq (fun j => s (j + 1)) text = true ↔ ∃ rest, text = front ++ rest ∧
              strEq (fun j => s (front.length + j + 1)) rest = true := ih further plain_front
          have shift : (fun j => s (front.length + j + 1)) = fun j => s (front.length + 1 + j) := by
            funext j
            rw [Nat.add_right_comm]
          simp only [strEq, here, Bool.and_eq_true, decide_eq_true_eq, rest, List.cons_append,
            List.cons.injEq, List.length_cons, shift]
          constructor
          · rintro ⟨rfl, more, rfl, same⟩
            exact ⟨more, ⟨rfl, rfl⟩, same⟩
          · rintro ⟨more, ⟨rfl, rfl⟩, same⟩
            exact ⟨rfl, more, rfl, same⟩

private theorem hasRecord_message (plain_text : nul ∉ text) :
    hasRecord text buf len len 0 = true ↔
      text ∈ (cutAt nul (message buf len)).1 ∨
        (cutAt nul (message buf len)).2 ≠ [] ∧
          ∃ rest, text = (cutAt nul (message buf len)).2 ++ rest ∧
            strEq (fun j => buf (len + j)) rest = true := by
  obtain ⟨plain, plain_tail⟩ := cutAt_separated nul (message buf len)
  have whole : encode (cutAt nul (message buf len)).1 ++ (cutAt nul (message buf len)).2 =
      message buf len := cutAt_join nul (message buf len)
  have size : (message buf len).length = len := Buffer.length_slice
  have reads : Reads (fun j => buf (0 + j)) (message buf len) := reads_slice buf 0 len
  rw [← whole] at reads
  have enough : (encode (cutAt nul (message buf len)).1 ++
      (cutAt nul (message buf len)).2).length ≤ len := by rw [whole, size]
  have found := hasRecord_encode reads plain plain_tail plain_text enough
  rw [whole, size, Nat.zero_add] at found
  have tail_reads : Reads (fun j => buf ((encode (cutAt nul (message buf len)).1).length + j))
      (cutAt nul (message buf len)).2 := by
    simpa using (reads_append.mp reads).2
  have ends : (encode (cutAt nul (message buf len)).1).length +
      (cutAt nul (message buf len)).2.length = len := by
    rw [← List.length_append, whole, size]
  have shift : (fun j => buf ((encode (cutAt nul (message buf len)).1).length +
      ((cutAt nul (message buf len)).2.length + j))) = fun j => buf (len + j) := by
    funext j
    rw [← Nat.add_assoc, ends]
  rw [found]
  simp only [Nat.zero_add, Bool.or_eq_true, Bool.and_eq_true, decide_eq_true_eq,
    strEq_front tail_reads plain_tail, shift]

private theorem completed (buf : Memory) (len : Nat) (rest : List Char) (plain : nul ∉ rest) :
    ∃ buf' : Memory, (∀ i, i < len → buf' i = buf i) ∧
      strEq (fun j => buf' (len + j)) rest = true := by
  let after : Memory := fun i => (rest ++ [nul]).getD i nul
  refine ⟨fun i => if i < len then buf i else after (i - len), ?_, ?_⟩
  · intro i inside
    exact if_pos inside
  · have behind : (fun j => if len + j < len then buf (len + j) else after (len + j - len)) =
        after := by
      funext j
      rw [if_neg (by omega), Nat.add_sub_cancel_left]
    rw [behind, strEq_record (reads_getD (rest ++ [nul]) fun _ => nul) plain plain]
    simp

private theorem spoilt (buf : Memory) (len : Nat) (rest : List Char) (plain : nul ∉ rest) :
    ∃ buf' : Memory, (∀ i, i < len → buf' i = buf i) ∧
      strEq (fun j => buf' (len + j)) rest = false := by
  refine ⟨fun i => if i < len then buf i else if rest = [] then 'x' else nul,
    fun i inside => if_pos inside, ?_⟩
  cases rest with
  | nil =>
      simp [strEq]
      decide
  | cons c rest =>
      have not_nul : nul ≠ c := by
        rintro rfl
        exact plain (List.mem_cons_self ..)
      simp [strEq, not_nul]

private theorem message_congr {buf' : Memory} (agree : ∀ i, i < len → buf' i = buf i) :
    message buf' len = message buf len := by
  exact Buffer.slice_congr fun i _ inside => agree i (by omega)

private theorem hasRecord_decided (plain_text : nul ∉ text)
    (decided : Decided text (message buf len)) :
    hasRecord text buf len len 0 = true ↔ text ∈ recordsIn (message buf len) := by
  rw [hasRecord_message plain_text, recordsIn, List.mem_append]
  refine or_congr_right' fun absent => ?_
  rcases decided with present | closed | other
  · exact (absent present).elim
  · simp [closed]
  · have unequal : text ≠ (cutAt nul (message buf len)).2 := by
      intro same
      exact other (same ▸ List.prefix_refl _)
    constructor
    · rintro ⟨-, rest, begins, -⟩
      exact (other ⟨rest, begins.symm⟩).elim
    · intro member
      split_ifs at member
      · cases member
      · exact (unequal (List.mem_singleton.mp member)).elim

private theorem scansExactly_iff (plain_text : nul ∉ text) {scan : Memory → Nat → Bool}
    (loop : ∀ buf len, scan buf len = hasRecord text buf len len 0) :
    ScansExactly text scan buf len ↔ Decided text (message buf len) := by
  constructor
  · intro exactly
    by_contra undecided
    simp only [Decided, not_or, not_not] at undecided
    obtain ⟨absent, cut, rest, begins⟩ := undecided
    have plain_rest : nul ∉ rest := by
      rw [← begins] at plain_text
      exact fun member => plain_text (List.mem_append_right _ member)
    -- two earlier messages that left different bytes behind this one
    obtain ⟨one, agrees, completes⟩ := completed buf len rest plain_rest
    obtain ⟨other, agrees', spoils⟩ := spoilt buf len rest plain_rest
    have found : hasRecord text one len len 0 = true := by
      rw [hasRecord_message plain_text, message_congr agrees]
      exact .inr ⟨cut, rest, begins.symm, completes⟩
    have missed : ¬ hasRecord text other len len 0 = true := by
      rw [hasRecord_message plain_text, message_congr agrees']
      rintro (present | ⟨-, rest', begins', same⟩)
      · exact absent present
      · rw [← begins, List.append_cancel_left_eq] at begins'
        rw [← begins', spoils] at same
        cases same
    refine missed ?_
    rw [← loop, exactly.bounded other agrees', ← exactly.bounded one agrees, loop]
    exact found
  · intro decided
    refine ⟨⟨len + 1, ?_⟩, ?_, fun buf' agree => ?_⟩
    · rw [loop]
      exact scanWithin_eq (by omega)
    · rw [loop]
      exact hasRecord_decided plain_text decided
    · have same := message_congr agree
      have decided' : Decided text (message buf' len) := by
        rw [same]
        exact decided
      rw [loop, loop, Bool.eq_iff_iff, hasRecord_decided plain_text decided,
        hasRecord_decided plain_text decided', same]

end Scan

/-- Both searches are exact on a message. -/
structure Exact (buf : Memory) (len : Nat) : Prop where
  name : ScansExactly switchName isHdmiSwitchEvent buf len
  state : ScansExactly stateZero hasStateZero buf len

/-- They are where the message does not end inside or right behind a key that it has not
had before: the comparison goes on behind the message, with what an earlier one left. -/
theorem exact_iff (buf : Memory) (len : Nat) :
    Exact buf len ↔
      Decided switchName (message buf len) ∧ Decided stateZero (message buf len) := by
  have name : ScansExactly switchName isHdmiSwitchEvent buf len ↔
      Decided switchName (message buf len) := scansExactly_iff (by decide) fun _ _ => rfl
  have state : ScansExactly stateZero hasStateZero buf len ↔
      Decided stateZero (message buf len) := scansExactly_iff (by decide) fun _ _ => rfl
  constructor
  · rintro ⟨exact_name, exact_state⟩
    exact ⟨name.mp exact_name, state.mp exact_state⟩
  · rintro ⟨decided_name, decided_state⟩
    exact ⟨name.mpr decided_name, state.mpr decided_state⟩

/-- A message of 14 bytes, cut inside the key, received where a whole one has been. -/
def cutMessage : Memory :=
  received (received (fun _ => nul) (encode [switchName, "SWITCH_STATE=1".toList]))
    "SWITCH_NAME=hd".toList

theorem exact_cutMessage :
    isHdmiSwitchEvent cutMessage 14 = true ∧
      recordsIn (message cutMessage 14) = ["SWITCH_NAME=hd".toList] ∧ ¬ Exact cutMessage 14 := by
  refine ⟨by decide, by decide, fun exactly => ?_⟩
  have member := exactly.name.finds.mp (by decide)
  exact absurd member (by decide)

end XdPlus.Hdmi.RecordScan
