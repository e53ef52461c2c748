/- Module: XdPlus/Avcd/Recorder
   source: avcd/xdplus_avcd.c, open_log, rotate_if_large, strip_kmsg_prefix, is_avc_denial and
     the loop of main
   digest: Denials are recorded line by line, however the kernel log is cut into reads. -/

import Mathlib.Data.List.Infix
import Mathlib.Data.List.TakeWhile
import Mathlib.Logic.Function.Basic
import XdPlus.Base.Buffer
import XdPlus.Base.Framing

set_option autoImplicit false
set_option relaxedAutoImplicit false

namespace XdPlus.Avcd.Recorder

open XdPlus.Base

abbrev Bytes := List UInt8

def ascii (text : String) : Bytes := text.toList.map fun c => c.toNat.toUInt8

def newline : UInt8 := 10
def space : UInt8 := 32
def semicolon : UInt8 := 59

/-- What the system calls of one `open_log` return. -/
structure Opening where
  mkdirDone : Bool
  mkdirExists : Bool
  chmodDone : Bool
  fd : Option Nat
  fchmodDone : Bool
  deriving DecidableEq, Repr

/-- `none` is `-1`. -/
def openLog (o : Opening) : Option Nat :=
  if !o.mkdirDone && !o.mkdirExists then none
  else if !o.chmodDone then none
  else match o.fd with
    | none => none
    | some fd => if o.fchmodDone then some fd else none

def maxBytes : Nat := 1024 * 1024

/-- What the system calls of one `rotate_if_large` return. -/
structure Rotation where
  size : Option Nat
  renameDone : Bool
  opening : Opening
  deriving DecidableEq, Repr

def rotateIfLarge (fd : Option Nat) (r : Rotation) : Option Nat :=
  match r.size with
  | none => fd
  | some size =>
      if size ≤ maxBytes then fd
      else if !r.renameDone then fd
      else match openLog r.opening with
        | none => fd
        | some newfd => some newfd

/-- `sizeof(buf)`. -/
def bufSize : Nat := 8192

/-- The C string at `p`: what `strchr` and `strstr` look at. -/
def stringAt (buf : Buffer UInt8) (p : Nat) : Bytes :=
  (buf.slice p (bufSize - p)).takeWhile (· ≠ 0)

def strchr (buf : Buffer UInt8) (p : Nat) (c : UInt8) : Option Nat :=
  buf.search c p (stringAt buf p).length

/-- `strstr(p, needle) != NULL`. -/
def strstr (buf : Buffer UInt8) (p : Nat) (needle : Bytes) : Bool :=
  needle <:+: stringAt buf p

def stripKmsgPrefix (buf : Buffer UInt8) (line : Nat) : Nat :=
  match strchr buf line semicolon with
  | some p =>
      let p := p + 1
      if buf p = space then p + 1 else p
  | none => line

def isAvcDenial (buf : Buffer UInt8) (line : Nat) : Bool :=
  let body := stripKmsgPrefix buf line
  strstr buf body (ascii "avc: ") && strstr buf body (ascii "denied")

/-- `written` is what `write_line` has been handed, oldest first; `rotations` counts the calls
of `rotate_if_large`. -/
structure State where
  buf : Buffer UInt8
  filled : Nat
  logfd : Option Nat
  written : List Bytes
  rotations : Nat

/-- The outcome of one `read`. -/
inductive Read where
  | interrupted
  | failed
  | empty
  | got (data : Bytes)
  deriving DecidableEq, Repr

section Loop

variable (rotate : Nat → Rotation)

/-- What becomes of a line that ends at `newline`. -/
def handleLine (s : State) (p newline : Nat) : State :=
  if isAvcDenial s.buf p then
    let body := stripKmsgPrefix s.buf p
    let logfd := rotateIfLarge s.logfd (rotate s.rotations)
    { s with
      logfd := logfd
      rotations := s.rotations + 1
      written :=
        if logfd.isSome then s.written ++ [s.buf.slice body (newline - body)] else s.written }
  else
    s

/-- `while ((newline = memchr(p, '\n', end - p)) != NULL) { ... p = newline + 1; }`. A round
takes at least one byte, so `end - p` rounds are enough. Returns `p` as well. -/
def splitLines (limit : Nat) : Nat → State → Nat → State × Nat
  | 0, s, p => (s, p)
  | rounds + 1, s, p =>
      match s.buf.search newline p (limit - p) with
      | none => (s, p)
      | some newline =>
          let s := { s with buf := Function.update s.buf newline 0 }
          splitLines limit rounds (handleLine rotate s p newline) (newline + 1)

/-- The length passed to `read`. -/
def State.room (s : State) : Nat := bufSize - 1 - s.filled

/-- `read(kmsg, buf + filled, ...); filled += n; buf[filled] = '\0';`. -/
def State.load (s : State) (data : Bytes) : State :=
  { s with
    buf := (s.buf.store s.filled data).store (s.filled + data.length) [0]
    filled := s.filled + data.length }

/-- `filled = end - p; memmove(buf, p, filled);`. -/
def State.shift (s : State) (limit p : Nat) : State :=
  { s with
    buf := s.buf.store 0 (s.buf.slice p (limit - p))
    filled := limit - p }

/-- One round of the outer loop. -/
def round (s : State) : Read → State
  | .interrupted | .failed | .empty => s
  | .got data =>
      let s := s.load data
      let limit := s.filled
      let (s, p) := splitLines rotate limit limit s 0
      if p ≠ 0 then s.shift limit p else s

def run (s : State) (reads : List Read) : State := reads.foldl (round rotate) s

/-- Every read that brings something brings at least one byte and at most what there is room
for. -/
def Lawful : State → List Read → Prop
  | _, [] => True
  | s, r :: rest =>
      (∀ data, r = .got data → 1 ≤ data.length ∧ data.length ≤ s.room) ∧
        Lawful (round rotate s r) rest

end Loop

/-- The loop is entered with a log file and nothing in the buffer that counts. -/
structure Started (s : State) : Prop where
  filled : s.filled = 0
  logfd : s.logfd.isSome = true
  written : s.written = []

/-- The bytes the reads bring. -/
def delivered (reads : List Read) : Bytes :=
  reads.flatMap fun
    | .got data => data
    | _ => []

/-- The text behind the first `;` and one space, or the whole line. -/
def body (line : Bytes) : Bytes :=
  match line.dropWhile (· ≠ semicolon) with
  | [] => line
  | _ :: rest => if rest.head? = some space then rest.tail else rest

def Denied (body : Bytes) : Prop := ascii "avc: " <:+: body ∧ ascii "denied" <:+: body

instance (body : Bytes) : Decidable (Denied body) := inferInstanceAs (Decidable (_ ∧ _))

def denialsOf (lines : List Bytes) : List Bytes := (lines.map body).filter (Denied ·)

/-- The denials in a stream: those of the lines that a newline ends. -/
def denials (stream : Bytes) : List Bytes := denialsOf (cutAt newline stream).1

/-- A line without NULs stands at `p`, a NUL in place of its newline. -/
structure LineAt (buf : Buffer UInt8) (p : Nat) (line : Bytes) : Prop where
  holds : buf.slice p line.length = line
  plain : 0 ∉ line
  ended : buf (p + line.length) = 0
  inside : p + line.length < bufSize

namespace LineAt

variable {buf : Buffer UInt8} {p : Nat} {line : Bytes}

theorem stringAt_eq (l : LineAt buf p line) : stringAt buf p = line := by
  have inside := l.inside
  obtain ⟨more, room⟩ : ∃ more, bufSize - p = line.length + (more + 1) :=
    ⟨bufSize - p - line.length - 1, by omega⟩
  have unended : ∀ b ∈ line, decide (b ≠ 0) = true := by
    intro b member
    exact decide_eq_true fun zero => l.plain (zero ▸ member)
  rw [stringAt, room, Buffer.slice_add, l.holds, Buffer.slice, l.ended,
    List.takeWhile_append_of_pos unended]
  simp

theorem drop (l : LineAt buf p line) {k : Nat} (short : k ≤ line.length) :
    LineAt buf (p + k) (line.drop k) := by
  have length : (line.drop k).length = line.length - k := List.length_drop
  have place : p + k + (line.length - k) = p + line.length := by omega
  refine ⟨?_, fun member => l.plain (List.mem_of_mem_drop member), ?_, ?_⟩
  · rw [length, ← Buffer.slice_drop, Nat.add_sub_cancel' short, l.holds]
  · rw [length, place]
    exact l.ended
  · rw [length, place]
    exact l.inside

private theorem next_eq (l : LineAt buf p line) {u v : Bytes} (split : line = u ++ v) :
    buf (p + u.length) = v.headD 0 := by
  subst split
  cases v with
  | nil => simpa using l.ended
  | cons b v =>
      have cell : (buf.slice p (u ++ b :: v).length)[u.length]? = some (buf (p + u.length)) :=
        Buffer.getElem?_slice u.length (by simp)
      rw [l.holds, List.getElem?_append_right (Nat.le_refl _), Nat.sub_self] at cell
      exact (Option.some.inj cell).symm

theorem stripKmsgPrefix_eq (l : LineAt buf p line) :
    ∃ k, k ≤ line.length ∧ stripKmsgPrefix buf p = p + k ∧ line.drop k = body line := by
  rcases first_stretch semicolon line with absent | ⟨u, v, plain, rfl⟩
  · refine ⟨0, Nat.zero_le _, ?_, ?_⟩
    · have missing : strchr buf p semicolon = none := by
        rw [strchr, l.stringAt_eq]
        exact Buffer.search_none (l.holds.symm ▸ absent)
      rw [stripKmsgPrefix, missing, Nat.add_zero]
    · have none_left : line.dropWhile (· ≠ semicolon) = [] := by
        rw [List.dropWhile_eq_nil_iff]
        intro b member
        exact decide_eq_true fun same => absent (same ▸ member)
      rw [body, none_left, List.drop_zero]
  · have found : strchr buf p semicolon = some (p + u.length) := by
      rw [strchr, l.stringAt_eq]
      exact Buffer.search_stretch l.holds plain
    have rest : (u ++ semicolon :: v).dropWhile (· ≠ semicolon) = semicolon :: v := by
      have other : ∀ b ∈ u, decide (b ≠ semicolon) = true := by
        intro b member
        exact decide_eq_true fun same => plain (same ▸ member)
      rw [List.dropWhile_append_of_pos other]
      simp
    have next : buf (p + u.length + 1) = v.headD 0 := by
      have cell := l.next_eq (u := u ++ [semicolon]) (v := v) (by simp)
      simpa [Nat.add_assoc] using cell
    have drop_first : (u ++ semicolon :: v).drop (u.length + 1) = v := by
      rw [← List.drop_drop, List.drop_left, List.drop_one, List.tail_cons]
    simp only [stripKmsgPrefix, found, next, body, rest]
    cases v with
    | nil =>
        refine ⟨u.length + 1, by simp, ?_, ?_⟩
        · simp [space, Nat.add_assoc]
        · simp [drop_first]
    | cons b v =>
        by_cases spaced : b = space
        · refine ⟨u.length + 2, by simp, ?_, ?_⟩
          · simp [spaced, Nat.add_assoc]
          · rw [show u.length + 2 = u.length + 1 + 1 from rfl, ← List.drop_drop, drop_first]
            simp [spaced]
        · refine ⟨u.length + 1, by simp, ?_, ?_⟩
          · simp [spaced, Nat.add_assoc]
          · rw [drop_first]
            simp [spaced]

theorem body_eq (l : LineAt buf p line) :
    (isAvcDenial buf p = true ↔ Denied (body line)) ∧
      buf.slice (stripKmsgPrefix buf p) (p + line.length - stripKmsgPrefix buf p) =
        body line := by
  obtain ⟨k, short, moved, dropped⟩ := l.stripKmsgPrefix_eq
  have rest := l.drop short
  rw [dropped] at rest
  have length : p + line.length - (p + k) = (body line).length := by
    rw [← dropped, List.length_drop]
    omega
  constructor
  · simp [isAvcDenial, strstr, moved, rest.stringAt_eq, Denied]
  · rw [moved, length, rest.holds]

end LineAt

section Rounds

variable {rotate : Nat → Rotation} {s : State} {p : Nat}

private theorem rotateIfLarge_isSome {fd : Option Nat} (r : Rotation) (opened : fd.isSome = true) :
    (rotateIfLarge fd r).isSome = true := by
  unfold rotateIfLarge
  split
  · exact opened
  · split_ifs
    · exact opened
    · exact opened
    · split
      · exact opened
      · rfl

private theorem denialsOf_append (first second : List Bytes) :
    denialsOf (first ++ second) = denialsOf first ++ denialsOf second := by
  simp [denialsOf]

private theorem handleLine_eq {line : Bytes} (l : LineAt s.buf p line)
    (opened : s.logfd.isSome = true) :
    let s' := handleLine rotate s p (p + line.length)
    s'.written = s.written ++ denialsOf [line] ∧ s'.buf = s.buf ∧ s'.filled = s.filled ∧
      s'.logfd.isSome = true := by
  obtain ⟨denial, text⟩ := l.body_eq
  by_cases denied : Denied (body line)
  · have still := rotateIfLarge_isSome (rotate s.rotations) opened
    simp only [handleLine, denial.mpr denied, if_true, still, text]
    simp [denialsOf, denied]
  · have passed : ¬ isAvcDenial s.buf p = true := fun found => denied (denial.mp found)
    simp only [handleLine, passed]
    simp [denialsOf, denied, opened]

/-- What the inner loop makes of the bytes `m` between `p` and `limit`: their lines are dealt
with, and the pointer stands at the rest. -/
private structure Splits (limit : Nat) (s : State) (m : Bytes) (s' : State) (p' : Nat) : Prop where
  written : s'.written = s.written ++ denialsOf (cutAt newline m).1
  rest : s'.buf.slice p' (limit - p') = (cutAt newline m).2
  reached : p' ≤ limit
  filled : s'.filled = s.filled
  opened : s'.logfd.isSome = true

private theorem Splits.done {limit : Nat} {m : Bytes} (holds : s.buf.slice p (limit - p) = m)
    (whole : newline ∉ m) (below : p ≤ limit) (opened : s.logfd.isSome = true) :
    Splits limit s m s p := by
  have cut := cutAt_plain whole
  refine ⟨?_, ?_, below, rfl, opened⟩
  · simp [cut, denialsOf]
  · rw [cut, holds]

private theorem cut_first {limit : Nat} {line rest : Bytes}
    (holds : s.buf.slice p (limit - p) = line ++ newline :: rest) (plain : 0 ∉ line)
    (bound : limit < bufSize) :
    let nl := p + line.length
    let buf : Buffer UInt8 := Function.update s.buf nl 0
    LineAt buf p line ∧ buf.slice (nl + 1) (limit - (nl + 1)) = rest ∧ nl < limit := by
  intro nl buf
  have length : limit - p = line.length + (1 + rest.length) := by
    have sizes := congrArg List.length holds
    simp only [Buffer.length_slice, List.length_append, List.length_cons] at sizes
    omega
  have elsewhere : ∀ i, i ≠ nl → buf i = s.buf i := fun i ne => Function.update_of_ne ne _ _
  rw [length, Buffer.slice_add] at holds
  obtain ⟨front, back⟩ := List.append_inj holds (by simp)
  have behind : s.buf.slice (nl + 1) rest.length = rest := by
    rw [Nat.add_comm 1] at back
    exact (List.cons.inj back).2
  refine ⟨⟨?_, plain, Function.update_self .., by omega⟩, ?_, by omega⟩
  · rw [← front]
    simp only [Buffer.length_slice]
    exact Buffer.slice_congr fun i _ high => elsewhere i (by omega)
  · rw [show limit - (nl + 1) = rest.length by omega]
    exact (Buffer.slice_congr fun i low _ => elsewhere i (by omega)).trans behind

-- The induction is on the rounds; every round takes a line and its newline off `m`.
private theorem splitLines_splits {limit rounds : Nat} {m : Bytes}
    (holds : s.buf.slice p (limit - p) = m) (plain : 0 ∉ m) (below : p ≤ limit)
    (bound : limit < bufSize) (enough : limit - p ≤ rounds) (opened : s.logfd.isSome = true) :
    Splits limit s m (splitLines rotate limit rounds s p).1
      (splitLines rotate limit rounds s p).2 := by
  induction rounds generalizing s p m with
  | zero =>
      have empty : m = [] := by
        rw [← holds, Nat.le_zero.mp enough]
        rfl
      exact Splits.done holds (by simp [empty]) below opened
  | succ rounds ih =>
      rcases first_stretch newline m with whole | ⟨line, rest, unbroken, rfl⟩
      · have missing : s.buf.search newline p (limit - p) = none :=
          Buffer.search_none (holds.symm ▸ whole)
        simp only [splitLines, missing]
        exact Splits.done holds whole below opened
      · have found := Buffer.search_stretch holds unbroken
        have plain_line : 0 ∉ line := fun member => plain (List.mem_append_left _ member)
        have plain_rest : 0 ∉ rest := fun member =>
          plain (List.mem_append_right _ (List.mem_cons_of_mem _ member))
        obtain ⟨lineAt, behind, before⟩ := cut_first holds plain_line bound
        obtain ⟨written, buf, filled, still⟩ := handleLine_eq
          (s := { s with buf := Function.update s.buf (p + line.length) 0 }) lineAt opened
        have again := ih (s := handleLine rotate
          { s with buf := Function.update s.buf (p + line.length) 0 } p (p + line.length))
          (p := p + line.length + 1) (buf.symm ▸ behind) plain_rest (by omega) (by omega) still
        simp only [splitLines, found]
        refine ⟨?_, ?_, again.reached, again.filled.trans filled, again.opened⟩
        · rw [again.written, written, cutAt_stretch unbroken, List.append_assoc,
            ← denialsOf_append, List.singleton_append]
        · rw [again.rest, cutAt_stretch unbroken]

end Rounds

section Runs

variable {rotate : Nat → Rotation} {s : State}

/-- After `stream`, the unfinished line is at the front of the buffer and the denials of the
others have been handed over. -/
structure Caught (s : State) (stream : Bytes) : Prop where
  kept : s.buf.slice 0 s.filled = (cutAt newline stream).2
  written : s.written = denials stream
  opened : s.logfd.isSome = true

/-- No line is longer, newline included, than what the buffer holds beside its last NUL. -/
def ShortLines (stream : Bytes) : Prop := ShortStretches newline (bufSize - 2) stream

private theorem Caught.filled_eq {stream : Bytes} (caught : Caught s stream) :
    s.filled = (cutAt newline stream).2.length := by
  rw [← caught.kept, Buffer.length_slice]

private theorem Caught.room_pos {stream : Bytes} (caught : Caught s stream)
    (short : ShortLines stream) : 0 < s.room := by
  have tail := short.2
  have filled := caught.filled_eq
  simp only [State.room, bufSize] at tail ⊢
  omega

private theorem load_slice {stream data : Bytes} (caught : Caught s stream) :
    (s.load data).buf.slice 0 (s.load data).filled = (cutAt newline stream).2 ++ data := by
  simp only [State.load]
  rw [Buffer.slice_store_before _ _ (by omega), Buffer.slice_add, Nat.zero_add,
    Buffer.slice_store, Buffer.slice_store_before _ _ (by omega), caught.kept]

private theorem Caught.got {stream data : Bytes} (caught : Caught s stream)
    (plain : 0 ∉ stream ++ data) (some_data : 1 ≤ data.length) (fits : data.length ≤ s.room) :
    Caught (round rotate s (.got data)) (stream ++ data) := by
  have plain_rest : 0 ∉ (cutAt newline stream).2 ++ data := by
    intro member
    rcases List.mem_append.mp member with kept | new
    · refine plain (List.mem_append_left _ ?_)
      rw [← cutAt_join newline stream]
      exact List.mem_append_right _ kept
    · exact plain (List.mem_append_right _ new)
  have bound : (s.load data).filled < bufSize := by
    simp only [State.room, State.load, bufSize] at fits ⊢
    omega
  let limit := (s.load data).filled
  obtain ⟨written, rest, -, filled, opened⟩ :
      Splits limit (s.load data) ((cutAt newline stream).2 ++ data)
        (splitLines rotate limit limit (s.load data) 0).1
        (splitLines rotate limit limit (s.load data) 0).2 :=
    splitLines_splits (load_slice caught) plain_rest (Nat.zero_le _) bound (Nat.le_refl _)
      caught.opened
  have total : s.written ++ denialsOf (cutAt newline ((cutAt newline stream).2 ++ data)).1 =
      denials (stream ++ data) := by
    rw [caught.written, denials, denials, ← denialsOf_append, cutAt_append newline stream data]
  have tail : (cutAt newline (stream ++ data)).2 =
      (cutAt newline ((cutAt newline stream).2 ++ data)).2 := by
    rw [cutAt_append newline stream data]
  simp only [Recorder.round]
  split_ifs with moved
  · refine ⟨?_, written.trans total, opened⟩
    rw [tail, ← rest]
    exact Buffer.slice_move 0 _ _
  · refine ⟨?_, written.trans total, opened⟩
    rw [tail, ← rest, filled, not_not.mp moved, Nat.sub_zero]

private theorem Caught.round {stream : Bytes} (caught : Caught s stream) (r : Read)
    (plain : 0 ∉ stream ++ delivered [r])
    (fits : ∀ data, r = .got data → 1 ≤ data.length ∧ data.length ≤ s.room) :
    Caught (round rotate s r) (stream ++ delivered [r]) := by
  cases r with
  | interrupted => simpa [delivered, Recorder.round] using caught
  | failed => simpa [delivered, Recorder.round] using caught
  | empty => simpa [delivered, Recorder.round] using caught
  | got data =>
      have bytes : delivered [.got data] = data := by simp [delivered]
      obtain ⟨some_data, room⟩ := fits data rfl
      rw [bytes] at plain ⊢
      exact caught.got plain some_data room

private theorem delivered_cons (r : Read) (rest : List Read) :
    delivered (r :: rest) = delivered [r] ++ delivered rest := by
  simp [delivered]

private theorem Caught.run {stream : Bytes} (caught : Caught s stream) (reads : List Read)
    (lawful : Lawful rotate s reads) (plain : 0 ∉ stream ++ delivered reads) :
    Caught (run rotate s reads) (stream ++ delivered reads) := by
  induction reads generalizing s stream with
  | nil => simpa [delivered, Recorder.run] using caught
  | cons r rest ih =>
      rw [delivered_cons, ← List.append_assoc] at plain ⊢
      have first : Caught (Recorder.round rotate s r) (stream ++ delivered [r]) :=
        caught.round r (fun member => plain (List.mem_append_left _ member)) lawful.1
      exact ih first lawful.2 plain

private theorem Lawful.take {reads : List Read} (lawful : Lawful rotate s reads) (k : Nat) :
    Lawful rotate s (reads.take k) := by
  induction reads generalizing s k with
  | nil => simpa using lawful
  | cons r rest ih =>
      cases k with
      | zero => trivial
      | succ k => exact ⟨lawful.1, ih lawful.2 k⟩

private theorem delivered_take (reads : List Read) (k : Nat) :
    delivered reads = delivered (reads.take k) ++ delivered (reads.drop k) := by
  rw [delivered, delivered, delivered, ← List.flatMap_append, List.take_append_drop]

/-- However a stream without NULs and with short lines is cut into reads, and whatever fails
in between, the denials of its lines are handed over in order, each once; and every `read`
is given room. -/
theorem denials_recorded (rotate : Nat → Rotation) (s : State) (reads : List Read)
    (started : Started s) (lawful : Lawful rotate s reads) (plain : 0 ∉ delivered reads)
    (short : ShortLines (delivered reads)) :
    (run rotate s reads).written = denials (delivered reads) ∧
      ∀ k, 0 < (run rotate s (reads.take k)).room := by
  have nothing : Caught s [] := by
    refine ⟨?_, started.written, started.logfd⟩
    rw [started.filled]
    rfl
  refine ⟨(nothing.run reads lawful plain).written, fun k => ?_⟩
  have split := delivered_take reads k
  rw [split] at plain short
  have so_far := nothing.run (reads.take k) (lawful.take k)
    fun member => plain (List.mem_append_left _ member)
  exact so_far.room_pos short.beginning

/-- A denial cut inside its key, an interrupted read in between, and a line of something
else behind it. -/
def cutReads : List Read :=
  [.got (ascii "5,1,2,-;a"), .interrupted, .got (ascii "vc:  denied x\n6;usb\n7;")]

def freshState : State := ⟨fun _ => 88, 0, some 3, [], 0⟩

/-- The log has not grown. -/
def smallLog (_ : Nat) : Rotation := ⟨some 0, true, ⟨true, true, true, none, true⟩⟩

theorem denials_recorded_cutReads :
    (run smallLog freshState cutReads).written = [ascii "avc:  denied x"] := by
  have started : Started freshState := ⟨rfl, rfl, rfl⟩
  have lawful : Lawful smallLog freshState cutReads := by
    refine ⟨?_, ?_, ?_, trivial⟩
    · rintro _ ⟨⟩
      decide
    · rintro _ ⟨⟩
    · rintro _ ⟨⟩
      decide
  have short : ShortLines (delivered cutReads) := ⟨by decide, by decide⟩
  have all := (denials_recorded smallLog freshState cutReads started lawful (by decide) short).1
  rw [all]
  decide

end Runs

end XdPlus.Avcd.Recorder
