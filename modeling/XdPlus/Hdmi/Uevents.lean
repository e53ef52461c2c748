/- Module: XdPlus/Hdmi/Uevents
   source: hdmi/xdplus_hdmid.c, is_hdmi_switch_event, has_state_zero, read_hdmi_state
   digest: What the daemon finds in a uevent and in the switch attribute. -/

import XdPlus.Base.Framing

set_option autoImplicit false
set_option relaxedAutoImplicit false

namespace XdPlus.Hdmi.Uevents

/-- Memory from a pointer on. -/
abbrev Memory := Nat → Char

def nul : Char := Char.ofNat 0

def strnlen (s : Memory) : Nat → Nat
  | 0 => 0
  | max + 1 => if s 0 = nul then 0 else strnlen (fun j => s (j + 1)) max + 1

/-- `!strcmp(s, text)`. -/
def strEq (s : Memory) : List Char → Bool
  | [] => s 0 = nul
  | c :: rest => s 0 = c && strEq (fun j => s (j + 1)) rest

/-- The loop both searches are, from index `i`. It comes to `len` before `len` rounds are
over. -/
def hasRecord (text : List Char) (buf : Memory) (len : Nat) : Nat → Nat → Bool
  | 0, _ => false
  | rounds + 1, i =>
      if i < len then
        if strEq (fun j => buf (i + j)) text then true
        else hasRecord text buf len rounds (i + strnlen (fun j => buf (i + j)) (len - i) + 1)
      else
        false

def switchName : List Char := "SWITCH_NAME=hdmi".toList

def stateZero : List Char := "SWITCH_STATE=0".toList

def isHdmiSwitchEvent (buf : Memory) (len : Nat) : Bool := hasRecord switchName buf len len 0

def hasStateZero (buf : Memory) (len : Nat) : Bool := hasRecord stateZero buf len len 0

/-- `sizeof(buf)`. -/
def bufSize : Nat := 8192

/-- The records as they are sent. -/
def encode (records : List (List Char)) : List Char := records.flatMap fun r => r ++ [nul]

/-- A uevent is a run of records with a NUL behind each, shorter than the daemon's buffer. -/
structure Uevent where
  records : List (List Char)
  plain : ∀ r ∈ records, nul ∉ r
  fits : (encode records).length ≤ bufSize

def Uevent.bytes (u : Uevent) : List Char := encode u.records

/-- The uevent of a change of the hdmi switch. -/
def Uevent.Reports (u : Uevent) (on : Bool) : Prop :=
  switchName ∈ u.records ∧ (stateZero ∈ u.records ↔ on = false)

/-- The least such a uevent has. -/
def switchUevent (on : Bool) : Uevent where
  records := ["change@/devices/virtual/switch/hdmi".toList, switchName,
    if on then "SWITCH_STATE=1".toList else stateZero]
  plain := by cases on <;> decide
  fits := by cases on <;> decide

/-- `recv(sock, buf, sizeof(buf), 0)`: behind the message the buffer is as it was. -/
def received (buf : Memory) (message : List Char) : Memory :=
  fun i => (message.take bufSize).getD i (buf i)

section Records

variable {s : Memory} {buf : Memory} {text r : List Char} {records : List (List Char)}

/-- The memory begins with these bytes. -/
def Reads (s : Memory) : List Char → Prop
  | [] => True
  | c :: rest => s 0 = c ∧ Reads (fun j => s (j + 1)) rest

theorem reads_append {a b : List Char} :
    Reads s (a ++ b) ↔ Reads s a ∧ Reads (fun j => s (a.length + j)) b := by
  induction a generalizing s with
  | nil => simp [Reads]
  | cons c rest ih =>
      simp only [List.cons_append, Reads, ih, List.length_cons, and_assoc]
      have shift : (fun j => s (rest.length + j + 1)) = fun j => s (rest.length + 1 + j) := by
        funext j
        congr 1
        omega
      rw [shift]

theorem reads_getD (message : List Char) (rest : Memory) :
    Reads (fun i => message.getD i (rest i)) message := by
  induction message generalizing rest with
  | nil => trivial
  | cons c message ih => exact ⟨rfl, ih fun i => rest (i + 1)⟩

private theorem strnlen_record {max : Nat} (reads : Reads s (r ++ [nul])) (plain : nul ∉ r)
    (inside : r.length < max) : strnlen s max = r.length := by
  induction r generalizing s max with
  | nil =>
      obtain ⟨rest, rfl⟩ : ∃ rest, max = rest + 1 := ⟨max - 1, by simp at inside; omega⟩
      simp [strnlen, show s 0 = nul from reads.1]
  | cons c r ih =>
      obtain ⟨rest, rfl⟩ : ∃ rest, max = rest + 1 := ⟨max - 1, by omega⟩
      obtain ⟨here, further⟩ := reads
      have not_nul : s 0 ≠ nul := by
        rw [here]
        rintro rfl
        exact plain (List.mem_cons_self ..)
      rw [strnlen, if_neg not_nul, List.length_cons]
      rw [ih further (fun member => plain (List.mem_cons_of_mem _ member))
        (by simpa using inside)]

private theorem strnlen_cut (reads : Reads s r) (plain : nul ∉ r) :
    strnlen s r.length = r.length := by
  induction r generalizing s with
  | nil => rfl
  | cons c r ih =>
      obtain ⟨here, further⟩ := reads
      have not_nul : s 0 ≠ nul := by
        rw [here]
        rintro rfl
        exact plain (List.mem_cons_self ..)
      rw [List.length_cons, strnlen, if_neg not_nul]
      rw [ih further fun member => plain (List.mem_cons_of_mem _ member)]

theorem strEq_record (reads : Reads s (r ++ [nul])) (plain : nul ∉ r)
    (plain_text : nul ∉ text) : strEq s text = decide (text = r) := by
  induction text generalizing s r with
  | nil =>
      cases r with
      | nil => simp [strEq, show s 0 = nul from reads.1]
      | cons c r =>
          have not_nul : s 0 ≠ nul := by
            rw [show s 0 = c from reads.1]
            rintro rfl
            exact plain (List.mem_cons_self ..)
          simp [strEq, not_nul]
  | cons d text ih =>
      have d_plain : d ≠ nul := by
        rintro rfl
        exact plain_text (List.mem_cons_self ..)
      cases r with
      | nil => simp [strEq, show s 0 = nul from reads.1, d_plain.symm]
      | cons c r =>
          obtain ⟨here, further⟩ := reads
          have rest := ih further (fun member => plain (List.mem_cons_of_mem _ member))
            (fun member => plain_text (List.mem_cons_of_mem _ member))
          rw [strEq, rest, here]
          by_cases same : c = d
          · simp [same]
          · simp [same, Ne.symm same]

theorem hasRecord_encode {tail : List Char} {i rounds : Nat}
    (reads : Reads (fun j => buf (i + j)) (encode records ++ tail))
    (plain : ∀ r ∈ records, nul ∉ r) (plain_tail : nul ∉ tail) (plain_text : nul ∉ text)
    (enough : (encode records ++ tail).length ≤ rounds) :
    hasRecord text buf (i + (encode records ++ tail).length) rounds i =
      (decide (text ∈ records) ||
        (decide (tail ≠ []) && strEq (fun j => buf (i + (encode records).length + j)) text)) := by
  induction records generalizing i rounds with
  | nil =>
      have here : encode [] ++ tail = tail := by simp [encode]
      rw [here] at reads enough ⊢
      cases rounds with
      | zero =>
          obtain rfl : tail = [] := List.length_eq_zero_iff.mp (Nat.le_zero.mp enough)
          simp [hasRecord]
      | succ rounds =>
          rw [hasRecord]
          cases tail with
          | nil => simp [encode]
          | cons c tail =>
              have length : strnlen (fun j => buf (i + j)) (i + (c :: tail).length - i) =
                  (c :: tail).length := by
                rw [Nat.add_sub_cancel_left]
                exact strnlen_cut reads plain_tail
              have past : hasRecord text buf (i + (c :: tail).length) rounds
                  (i + (c :: tail).length + 1) = false := by
                cases rounds with
                | zero => rfl
                | succ rounds => rw [hasRecord, if_neg (by omega)]
              rw [if_pos (by simp), length, past]
              simp [encode]
  | cons r records ih =>
      have shape : encode (r :: records) = (r ++ [nul]) ++ encode records := by simp [encode]
      have front : (encode (r :: records)).length = r.length + 1 + (encode records).length := by
        rw [shape]
        simp only [List.length_append, List.length_singleton]
      have size : (encode (r :: records) ++ tail).length =
          r.length + 1 + (encode records ++ tail).length := by
        rw [List.length_append, front, List.length_append, Nat.add_assoc]
      rw [size] at enough ⊢
      rw [shape, List.append_assoc, reads_append] at reads
      obtain ⟨here, further⟩ := reads
      have plain_r := plain r (List.mem_cons_self ..)
      obtain ⟨rounds, rfl⟩ : ∃ rest, rounds = rest + 1 := ⟨rounds - 1, by omega⟩
      rw [hasRecord, if_pos (by omega), strEq_record here plain_r plain_text]
      by_cases found : text = r
      · simp [found]
      · have shift : (fun j => buf (i + ((r ++ [nul]).length + j))) =
            fun j => buf (i + r.length + 1 + j) := by
          funext j
          congr 1
          simp only [List.length_append, List.length_singleton]
          omega
        rw [shift] at further
        have length : strnlen (fun j => buf (i + j))
            (i + (r.length + 1 + (encode records ++ tail).length) - i) = r.length :=
          strnlen_record here plain_r (by omega)
        have again := ih further (fun r' member => plain r' (List.mem_cons_of_mem _ member))
          (show (encode records ++ tail).length ≤ rounds by omega)
        have size : i + (r.length + 1 + (encode records ++ tail).length) =
            i + r.length + 1 + (encode records ++ tail).length := by omega
        have place : i + (encode (r :: records)).length =
            i + r.length + 1 + (encode records).length := by omega
        rw [if_neg (by simp [found]), length, size, again, place]
        simp [found]

end Records

section Found

variable (u : Uevent) (buf : Memory)

private theorem hasRecord_received {text : List Char} (plain_text : nul ∉ text) :
    hasRecord text (received buf u.bytes) u.bytes.length u.bytes.length 0 =
      decide (text ∈ u.records) := by
  have whole : u.bytes.take bufSize = u.bytes := List.take_of_length_le u.fits
  have reads : Reads (fun j => received buf u.bytes (0 + j)) (encode u.records ++ []) := by
    simp only [Nat.zero_add, List.append_nil, received, whole]
    exact reads_getD u.bytes buf
  have found := hasRecord_encode reads u.plain (List.not_mem_nil) plain_text (Nat.le_refl _)
  simpa [Uevent.bytes] using found

/-- Whatever was in the buffer, the name is found if the uevent has it. -/
theorem isHdmiSwitchEvent_received :
    isHdmiSwitchEvent (received buf u.bytes) u.bytes.length = decide (switchName ∈ u.records) :=
  hasRecord_received u buf (by decide)

theorem hasStateZero_received :
    hasStateZero (received buf u.bytes) u.bytes.length = decide (stateZero ∈ u.records) :=
  hasRecord_received u buf (by decide)

end Found

/-- `atoi`, for numbers that fit. -/
def atoi (text : List Char) : Int :=
  let (negative, value) := Base.readDecimal text
  if negative then - (value : Int) else value

/-- `none` is a file that cannot be opened or read. -/
def readHdmiState : Option (List Char) → Int
  | none => -1
  | some text => if text = [] then -1 else atoi (text.take 15)

/-- What the switch class prints. -/
def switchText (on : Bool) : List Char := if on then "1\n".toList else "0\n".toList

def stateOf (on : Bool) : Int := if on then 1 else 0

theorem readHdmiState_switchText (on : Bool) :
    readHdmiState (some (switchText on)) = stateOf on := by
  cases on <;> decide

end XdPlus.Hdmi.Uevents
