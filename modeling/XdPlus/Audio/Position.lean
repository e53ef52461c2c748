/- Module: XdPlus/Audio/Position
   source: audio/audio_hw.c, out_get_presentation_position between out_write and out_standby
   digest: The position an output stream reports, against a kernel buffer that only plays on. -/

import XdPlus.Audio.Playback

/-!
The position is what the stream has counted less what the kernel still holds. It is followed
through every sequence of calls on one stream; their lock makes a sequence of them.
-/

set_option autoImplicit false
set_option relaxedAutoImplicit false

namespace XdPlus.Audio.Position

open XdPlus.Base Routing Playback

/-- `OUT_PERIOD_SIZE`. -/
def outPeriodSize : Nat := 960

/-- `OUT_PERIOD_COUNT`. -/
def outPeriodCount : Nat := 4

/-- `struct timespec`. -/
structure Timespec where
  sec : Int
  nsec : Int
  deriving DecidableEq, Repr

/-- What `pcm_get_htimestamp` returns when it succeeds: `avail` and the time of it. -/
abbrev Htimestamp := UInt32 × Timespec

/-- `-EINVAL`, `-ENODATA`, or a position and its time. `pointers` says that the caller gave both
places to write to, `htimestamp` what the kernel answers if it is asked, `now` is `now_ns()`. -/
def outGetPresentationPosition (out : Stream) (pointers : Bool) (htimestamp : Option Htimestamp)
    (now : Int) : Except Int (Nat × Timespec) :=
  if !pointers then
    .error (-22)
  else
    match out.pcm, htimestamp with
    | true, some (avail, timestamp) =>
        let kernelBuffer := outPeriodSize * outPeriodCount
        let queued := if avail.toNat < kernelBuffer then kernelBuffer - avail.toNat else 0
        .ok (if queued < out.framesWritten then out.framesWritten - queued else 0, timestamp)
    | _, _ =>
        if out.standby then
          .ok (out.framesWritten, ⟨now.tdiv 1000000000, now.tmod 1000000000⟩)
        else
          .error (-61)

/-- The buffer of an open PCM: the frames it was given since, and how many it has read. It reads
on when it has run dry, so `read` may pass `given`. -/
structure Kernel where
  given : Nat
  read : Nat
  deriving DecidableEq, Repr

/-- The frames it still holds. -/
def Kernel.held (k : Kernel) : Nat := k.given - k.read

/-- The frames it was given that are out. -/
def Kernel.played (k : Kernel) : Nat := min k.given k.read

/-- What a call on the stream can change, and what it is changed by. -/
structure World where
  stream : Stream
  kernel : Option Kernel
  deriving DecidableEq, Repr

/-- A transfer of `frames` that succeeds: no more than these are taken, none of the frames
played comes back. -/
def Kernel.Takes (k : Kernel) (frames : Nat) (k' : Kernel) : Prop :=
  k.given ≤ k'.given ∧ k'.given ≤ k.given + frames ∧ k.played ≤ k'.played

/-- The calls of the stream's code while it is given `bytes`. A transfer that fails leaves the
kernel with what it likes. -/
def answers (bytes : Nat) : Prog.Environment (Call Stream) Answer World
  | w, .loadStream _, out, w' => out = w.stream ∧ w' = w
  | w, .storeStream _ x, _, w' => w' = { w with stream := x }
  | w, .pcmOpen, true, w' => w' = { w with kernel := some ⟨0, 0⟩ }
  | w, .pcmTransfer, true, w' =>
      ∃ k k', w.kernel = some k ∧ k.Takes (bytes / frameSize) k' ∧
        w' = { w with kernel := some k' }
  | w, .pcmTransfer, false, w' => ∃ k, w' = { w with kernel := some k }
  | w, .pcmClose, _, w' => w' = { w with kernel := none }
  | w, _, _, w' => w' = w

/-- A run: the stream and its kernel, and the positions reported so far. -/
structure State where
  world : World
  reported : List Nat
  deriving DecidableEq, Repr

/-- What happens next; `reads` is the kernel's. -/
inductive Event where
  | write (bytes : Nat)
  | standby
  | query (pointers : Bool) (htimestamp : Option Htimestamp) (now : Int)
  | reads
  deriving DecidableEq, Repr

/-- The kernel answers with the room in its buffer, which is all of it and more when it has
run dry. -/
def World.Truthful (w : World) : Option Htimestamp → Prop
  | none => True
  | some (avail, _) =>
      ∃ k, w.kernel = some k ∧ k.held = outPeriodSize * outPeriodCount - avail.toNat

/-- A query that succeeds reports its position. -/
def State.asked (s : State) (answer : Except Int (Nat × Timespec)) : State :=
  match answer with
  | .ok (frames, _) => { s with reported := s.reported ++ [frames] }
  | .error _ => s

def step (σ : StreamId) (s : State) : Event → State → Prop
  | .write bytes, t =>
      ∃ w, (outWrite σ bytes).Runs (answers bytes) s.world () w ∧ t = { s with world := w }
  | .standby, t =>
      ∃ w, (outStandby σ).Runs (answers 0) s.world () w ∧ t = { s with world := w }
  | .query pointers htimestamp now, t =>
      (s.world.stream.pcm = true → s.world.Truthful htimestamp) ∧
        t = s.asked (outGetPresentationPosition s.world.stream pointers htimestamp now)
  | .reads, t =>
      ∃ k r, s.world.kernel = some k ∧ k.read ≤ r ∧
        t = { s with world := { s.world with kernel := some { k with read := r } } }

/-- The stream as `adev_open_output_stream` makes it. -/
def machine (σ : StreamId) : Machine State Event where
  init s := ∃ devices, s = ⟨⟨⟨false, true, false, false, devices, 0⟩, none⟩, []⟩
  step := step σ

/-- The position a query would report. -/
def World.position (w : World) : Nat := w.stream.framesWritten - w.kernel.elim 0 Kernel.held

/-- The stream knows whether its PCM is open, is in standby only when it is not, and has counted
all that the kernel was given. -/
structure World.Consistent (w : World) : Prop where
  opened : w.kernel.isSome = w.stream.pcm
  awake : w.stream.pcm = true → w.stream.standby = false
  counted : ∀ k, w.kernel = some k → k.given ≤ w.stream.framesWritten

theorem World.Consistent.shut {w : World} (consistent : w.Consistent)
    (unset : w.stream.pcm = false) : w.kernel = none := by
  have absent := consistent.opened
  rw [unset] at absent
  simpa using absent

/-- A closed PCM holds nothing back. -/
structure World.Closed (w w' : World) : Prop where
  kernel : w'.kernel = none
  pcm : w'.stream.pcm = false
  standby : w'.stream.standby = true
  frames : w'.stream.framesWritten = w.stream.framesWritten

theorem World.Closed.consistent {w w' : World} (closed : w.Closed w') : w'.Consistent := by
  constructor
  · rw [closed.kernel, closed.pcm]
    rfl
  · intro opened
    rw [closed.pcm] at opened
    cases opened
  · intro k present
    rw [closed.kernel] at present
    cases present

theorem World.position_le (w : World) : w.position ≤ w.stream.framesWritten := Nat.sub_le ..

theorem World.Closed.position {w w' : World} (closed : w.Closed w') :
    w.position ≤ w'.position := by
  have all_out : w'.position = w.stream.framesWritten := by
    simp [World.position, closed.kernel, closed.frames]
  rw [all_out]
  exact w.position_le

/-- The calls that concern neither the stream nor its PCM. -/
def Elsewhere : Call Stream → Prop
  | .loadStream _ | .storeStream .. | .pcmOpen | .pcmTransfer | .pcmClose => False
  | _ => True

section Calls

variable {σ : StreamId} {bytes : Nat} {w : World}

private theorem answers_elsewhere {op : Call Stream} {ans : Answer op} {w' : World}
    (elsewhere : Elsewhere op) (answered : answers bytes w op ans w') : w' = w := by
  cases op <;> first | exact elsewhere.elim | exact answered

private theorem always_adevMixerLocked :
    (adevMixerLocked : Hal Stream Bool).Always Elsewhere (fun _ => True) := by
  simp only [adevMixerLocked, Prog.always_bind, Prog.always_call]
  refine ⟨trivial, fun adev => ?_⟩
  split
  · trivial
  · simp only [Prog.always_bind, Prog.always_call]
    exact ⟨trivial, fun opened => ⟨trivial, fun _ => trivial⟩⟩

private theorem always_adevRouteOutEnable (devices : AudioDevices) :
    (adevRouteOutEnable devices : Hal Stream Int).Always Elsewhere (fun _ => True) := by
  simp only [adevRouteOutEnable, Prog.always_bind]
  refine always_adevMixerLocked.mono fun ready _ => ?_
  split
  · simp only [Prog.always_bind, Prog.always_call]
    refine ⟨trivial, fun adev => ⟨trivial, fun _ => ?_⟩⟩
    split
    · trivial
    · simp [Elsewhere]
  · trivial

private theorem always_adevRouteOutDisable :
    (adevRouteOutDisable : Hal Stream Unit).Always Elsewhere (fun _ => True) := by
  simp only [adevRouteOutDisable, Prog.always_bind, Prog.always_call]
  refine ⟨trivial, fun adev => ?_⟩
  split
  · trivial
  · simp only [Prog.always_bind, Prog.always_call]
    refine ⟨trivial, fun _ => ?_⟩
    split
    · trivial
    · simp only [Prog.always_bind]
      refine always_adevMixerLocked.mono fun ready _ => ?_
      split
      · simp [Elsewhere]
      · trivial

private theorem ensures_elsewhere {α : Type} {p : Hal Stream α} {post : α → World → Prop}
    (always : p.Always Elsewhere (fun _ => True)) (rest : ∀ a, post a w) :
    p.Ensures (answers bytes) (fun _ _ => True) w post := by
  have stays : p.Ensures (answers bytes) (fun _ _ => True) w (fun _ w' => True ∧ w' = w) :=
    always.ensures (fun _ _ => trivial) (fun _ _ _ => answers_elsewhere)
  refine stays.mono fun a w' still => ?_
  obtain ⟨-, rfl⟩ := still
  exact rest a

/-- What `out_close_pcm_locked` does once the PCM is closed. -/
private def afterClose (σ : StreamId) : Hal Stream Unit := do
  let out ← Hal.call (.loadStream σ)
  if out.routed then
    Hal.call .lockDevice
    adevRouteOutDisable
    Hal.call .unlockDevice
    Hal.call (.storeStream σ { out with routed := false })
  let out ← Hal.call (.loadStream σ)
  Hal.call (.storeStream σ { out with standby := true })

private theorem ensures_afterClose (unset : w.stream.pcm = false) (shut : w.kernel = none) :
    (afterClose σ).Ensures (answers bytes) (fun _ _ => True) w (fun _ w' => w.Closed w') := by
  simp only [afterClose, Prog.ensures_bind, Prog.ensures_call]
  refine ⟨trivial, fun out w₁ loaded => ?_⟩
  obtain ⟨rfl, rfl⟩ := loaded
  split
  · simp only [Prog.ensures_bind, Prog.ensures_call]
    refine ⟨trivial, fun _ w₂ locked => ?_⟩
    obtain rfl := locked
    refine ensures_elsewhere always_adevRouteOutDisable fun _ => ⟨trivial, fun _ w₃ unlocked => ?_⟩
    obtain rfl := unlocked
    refine ⟨trivial, fun _ w₄ stored => ⟨trivial, fun out w₅ loaded => ?_⟩⟩
    obtain rfl := stored
    obtain ⟨rfl, rfl⟩ := loaded
    refine ⟨trivial, fun _ w₆ last => ?_⟩
    obtain rfl := last
    exact ⟨shut, unset, rfl, rfl⟩
  · simp only [Prog.ensures_bind, Prog.ensures_call]
    refine ⟨trivial, fun out w₂ loaded => ⟨trivial, fun _ w₃ last => ?_⟩⟩
    obtain ⟨rfl, rfl⟩ := loaded
    obtain rfl := last
    exact ⟨shut, unset, rfl, rfl⟩

theorem ensures_outClosePcmLocked (shut : w.stream.pcm = false → w.kernel = none) :
    (outClosePcmLocked σ).Ensures (answers bytes) (fun _ _ => True) w
      (fun _ w' => w.Closed w') := by
  simp only [outClosePcmLocked, Prog.ensures_bind, Prog.ensures_call]
  refine ⟨trivial, fun out w₁ loaded => ?_⟩
  obtain ⟨rfl, rfl⟩ := loaded
  split
  · rw [Prog.ensures_bind, Prog.ensures_call]
    refine ⟨trivial, fun _ w₂ closed => ?_⟩
    obtain rfl := closed
    rw [Prog.ensures_bind, Prog.ensures_call]
    refine ⟨trivial, fun _ w₃ stored => ?_⟩
    obtain rfl := stored
    refine (ensures_afterClose rfl rfl).mono fun _ w' closed => ?_
    exact ⟨closed.kernel, closed.pcm, closed.standby, closed.frames⟩
  · next no_pcm =>
      have unset : w₁.stream.pcm = false := by simpa using no_pcm
      exact ensures_afterClose unset (shut unset)

/-- An open PCM, or what a failed attempt leaves. -/
def World.Opened (w : World) (ret : Int) (w' : World) : Prop :=
  w'.Consistent ∧ w'.position = w.position ∧ (ret = 0 → w'.stream.pcm = true)

theorem ensures_outOpenPcmLocked (consistent : w.Consistent) (unset : w.stream.pcm = false) :
    (outOpenPcmLocked σ).Ensures (answers bytes) (fun _ _ => True) w w.Opened := by
  have shut : w.kernel = none := consistent.shut unset
  simp only [outOpenPcmLocked, Prog.ensures_bind, Prog.ensures_call]
  refine ⟨trivial, fun out w₁ loaded => ?_⟩
  obtain ⟨rfl, rfl⟩ := loaded
  rw [if_neg (by simp [unset])]
  simp only [Prog.ensures_bind, Prog.ensures_call]
  refine ⟨trivial, fun _ w₂ locked => ?_⟩
  obtain rfl := locked
  refine ensures_elsewhere (always_adevRouteOutEnable _) fun _ =>
    ⟨trivial, fun _ w₃ unlocked => ⟨trivial, fun _ w₄ stored => ⟨trivial, ?_⟩⟩⟩
  obtain rfl := unlocked
  obtain rfl := stored
  intro ready w₅ opened
  cases ready with
  | true =>
      obtain rfl := opened
      simp only [if_true, Prog.ensures_bind, Prog.ensures_call, Prog.ensures_pure]
      refine ⟨trivial, fun _ w₆ stored => ?_⟩
      obtain rfl := stored
      refine ⟨⟨rfl, fun _ => rfl, fun k present => ?_⟩, ?_, fun _ => rfl⟩
      · obtain rfl := Option.some.inj present
        exact Nat.zero_le _
      · simp [World.position, shut, Kernel.held]
  | false =>
      obtain rfl := opened
      simp only [Bool.false_eq_true, if_false, Prog.ensures_bind, Prog.ensures_call]
      refine ⟨trivial, fun _ w₆ stored => ⟨trivial, fun _ w₇ locked => ?_⟩⟩
      obtain rfl := stored
      obtain rfl := locked
      refine ensures_elsewhere always_adevRouteOutDisable fun _ =>
        ⟨trivial, fun _ w₈ unlocked => ⟨trivial, fun _ w₉ stored => ?_⟩⟩
      obtain rfl := unlocked
      obtain rfl := stored
      refine ⟨⟨consistent.opened, consistent.awake, consistent.counted⟩, rfl, fun zero => ?_⟩
      cases zero

/-- A call keeps the stream consistent and the position where it was or further on. -/
def World.Advances (w w' : World) : Prop := w'.Consistent ∧ w.position ≤ w'.position

theorem ensures_outStandby (consistent : w.Consistent) :
    (outStandby σ).Ensures (answers bytes) (fun _ _ => True) w (fun _ w' => w.Advances w') := by
  simp only [outStandby, Prog.ensures_bind, Prog.ensures_call]
  refine ⟨trivial, fun _ w₁ locked => ⟨trivial, fun out w₂ loaded => ?_⟩⟩
  obtain rfl := locked
  obtain ⟨rfl, rfl⟩ := loaded
  split
  · rw [Prog.ensures_bind]
    refine (ensures_outClosePcmLocked consistent.shut).mono fun _ w₃ closed => ?_
    refine ⟨trivial, fun _ w₄ unlocked => ?_⟩
    obtain rfl := unlocked
    exact ⟨closed.consistent, closed.position⟩
  · refine ⟨trivial, fun _ w₃ unlocked => ?_⟩
    obtain rfl := unlocked
    exact ⟨consistent, Nat.le_refl _⟩

theorem World.Consistent.takes (consistent : w.Consistent) {k k' : Kernel}
    (present : w.kernel = some k) (takes : k.Takes (bytes / frameSize) k') :
    w.Advances ⟨{ w.stream with
      framesWritten := w.stream.framesWritten + bytes / frameSize }, some k'⟩ := by
  obtain ⟨more, no_more, played⟩ := takes
  have counted := consistent.counted k present
  refine ⟨⟨?_, consistent.awake, fun k'' present' => ?_⟩, ?_⟩
  · rw [← consistent.opened, present]
    rfl
  · obtain rfl := Option.some.inj present'
    show k'.given ≤ w.stream.framesWritten + bytes / frameSize
    omega
  · simp only [World.position, present, Option.elim_some, Kernel.held]
    simp only [Kernel.played] at played
    omega

/-- The second half of `out_write`, on an open PCM. -/
private def transfer (σ : StreamId) (bytes : Nat) : Hal Stream Unit := do
  if ← Hal.call .pcmTransfer then
    let out ← Hal.call (.loadStream σ)
    Hal.call (.storeStream σ { out with framesWritten := out.framesWritten + bytes / frameSize })
    Hal.call (.unlockStream σ)
  else
    outClosePcmLocked σ
    Hal.call (.unlockStream σ)

private theorem ensures_transfer (consistent : w.Consistent) (opened : w.stream.pcm = true) :
    (transfer σ bytes).Ensures (answers bytes) (fun _ _ => True) w
      (fun _ w' => w.Advances w') := by
  simp only [transfer, Prog.ensures_bind, Prog.ensures_call]
  refine ⟨trivial, fun moved w₁ transferred => ?_⟩
  cases moved with
  | true =>
      obtain ⟨k, k', present, takes, rfl⟩ := transferred
      simp only [if_true, Prog.ensures_bind, Prog.ensures_call]
      refine ⟨trivial, fun out w₂ loaded => ⟨trivial, fun _ w₃ stored => ⟨trivial, ?_⟩⟩⟩
      obtain ⟨rfl, rfl⟩ := loaded
      obtain rfl := stored
      intro _ w₄ unlocked
      obtain rfl := unlocked
      exact consistent.takes present takes
  | false =>
      obtain ⟨k, rfl⟩ := transferred
      simp only [Bool.false_eq_true, if_false, Prog.ensures_bind, Prog.ensures_call]
      refine (ensures_outClosePcmLocked fun unset => ?_).mono fun _ w₂ closed => ?_
      · rw [opened] at unset
        cases unset
      · refine ⟨trivial, fun _ w₃ unlocked => ?_⟩
        obtain rfl := unlocked
        have shut : w.Closed w₃ := ⟨closed.kernel, closed.pcm, closed.standby, closed.frames⟩
        exact ⟨shut.consistent, shut.position⟩

theorem ensures_outWrite (consistent : w.Consistent) :
    (outWrite σ bytes).Ensures (answers bytes) (fun _ _ => True) w
      (fun _ w' => w.Advances w') := by
  simp only [outWrite, Prog.ensures_bind, Prog.ensures_call]
  refine ⟨trivial, fun _ w₁ locked => ⟨trivial, fun out w₂ loaded => ?_⟩⟩
  obtain rfl := locked
  obtain ⟨rfl, rfl⟩ := loaded
  split
  · next opened =>
      rw [Prog.ensures_bind, Prog.ensures_pure, if_neg (by simp)]
      exact ensures_transfer consistent opened
  · next unset =>
      rw [Prog.ensures_bind]
      refine (ensures_outOpenPcmLocked consistent (by simpa using unset)).mono ?_
      intro ret w₃ opened
      obtain ⟨consistent', same, ready⟩ := opened
      split
      · refine ⟨trivial, fun _ w₄ unlocked => ?_⟩
        obtain rfl := unlocked
        exact ⟨consistent', Nat.le_of_eq same.symm⟩
      · next zero =>
          refine (ensures_transfer consistent' (ready (by simpa using zero))).mono ?_
          intro _ w₄ advances
          exact ⟨advances.1, same ▸ advances.2⟩

end Calls

theorem outGetPresentationPosition_ok {w : World} (consistent : w.Consistent) {pointers : Bool}
    {htimestamp : Option Htimestamp} {now : Int} {answer : Nat × Timespec}
    (truthful : w.stream.pcm = true → w.Truthful htimestamp)
    (ok : outGetPresentationPosition w.stream pointers htimestamp now = .ok answer) :
    answer.1 = w.position := by
  unfold outGetPresentationPosition at ok
  split at ok
  · cases ok
  split at ok
  · next avail timestamp opened =>
      obtain ⟨k, present, room⟩ := truthful opened
      obtain rfl := Except.ok.inj ok
      simp only [World.position, present, Option.elim_some]
      rw [room]
      split_ifs <;> omega
  · next not_told =>
      split at ok
      · next asleep =>
          obtain rfl := Except.ok.inj ok
          have unset : w.stream.pcm = false := by
            apply Bool.eq_false_iff.mpr
            intro opened
            rw [consistent.awake opened] at asleep
            cases asleep
          simp [World.position, consistent.shut unset]
      · cases ok

/-- No position reported is ahead of the one a query would report now. -/
structure State.Behind (s : State) : Prop where
  consistent : s.world.Consistent
  sorted : s.reported.Pairwise (· ≤ ·)
  behind : ∀ frames ∈ s.reported, frames ≤ s.world.position

private theorem State.Behind.advances {s : State} (behind : s.Behind) {w : World}
    (advances : s.world.Advances w) : State.Behind { s with world := w } := by
  refine ⟨advances.1, behind.sorted, fun frames reported => ?_⟩
  exact Nat.le_trans (behind.behind frames reported) advances.2

private theorem State.Behind.asked {s : State} (behind : s.Behind)
    {answer : Except Int (Nat × Timespec)}
    (position : ∀ frames, answer = .ok frames → frames.1 = s.world.position) :
    (s.asked answer).Behind := by
  cases answer with
  | error e => exact behind
  | ok frames =>
      have here : frames.1 = s.world.position := position frames rfl
      refine ⟨behind.consistent, ?_, fun earlier reported => ?_⟩
      · show (s.reported ++ [frames.1]).Pairwise (· ≤ ·)
        rw [List.pairwise_append]
        refine ⟨behind.sorted, List.pairwise_singleton .., fun earlier reported last is_last => ?_⟩
        rw [List.mem_singleton.mp is_last, here]
        exact behind.behind earlier reported
      · rcases List.mem_append.mp reported with before | last
        · exact behind.behind earlier before
        · rw [List.mem_singleton.mp last]
          exact Nat.le_of_eq here

private theorem World.Consistent.reads {w : World} (consistent : w.Consistent) {k : Kernel}
    {r : Nat} (present : w.kernel = some k) (on : k.read ≤ r) :
    w.Advances { w with kernel := some { k with read := r } } := by
  refine ⟨⟨?_, consistent.awake, fun k' present' => ?_⟩, ?_⟩
  · rw [← consistent.opened, present]
    rfl
  · obtain rfl := Option.some.inj present'
    exact consistent.counted k present
  · simp only [World.position, present, Option.elim_some, Kernel.held]
    omega

private theorem behind_step {σ : StreamId} {s t : State} {e : Event} (behind : s.Behind)
    (next : step σ s e t) : t.Behind := by
  cases e with
  | write bytes =>
      obtain ⟨w, run, rfl⟩ := next
      exact behind.advances ((ensures_outWrite behind.consistent).of_runs run)
  | standby =>
      obtain ⟨w, run, rfl⟩ := next
      exact behind.advances ((ensures_outStandby behind.consistent).of_runs run)
  | query pointers htimestamp now =>
      obtain ⟨truthful, rfl⟩ := next
      apply behind.asked
      intro frames ok
      exact outGetPresentationPosition_ok behind.consistent truthful ok
  | reads =>
      obtain ⟨k, r, present, on, rfl⟩ := next
      exact behind.advances (behind.consistent.reads present on)

private theorem behind_init {devices : AudioDevices} :
    State.Behind ⟨⟨⟨false, true, false, false, devices, 0⟩, none⟩, []⟩ := by
  refine ⟨⟨rfl, ?_, ?_⟩, List.Pairwise.nil, ?_⟩
  · intro opened
    cases opened
  · intro k present
    cases present
  · intro frames reported
    cases reported

/-- However writes, failures, standby and queries follow each other, the positions reported
never go back, and none is past what was written. -/
theorem position_never_goes_back (σ : StreamId) (s : State) (reach : (machine σ).Reachable s) :
    s.reported.Pairwise (· ≤ ·) ∧
      ∀ frames ∈ s.reported, frames ≤ s.world.stream.framesWritten := by
  have behind : s.Behind := by
    apply reach.invariant
    · rintro s ⟨devices, rfl⟩
      exact behind_init
    · intro s e t _ behind next
      exact behind_step behind next
  refine ⟨behind.sorted, fun frames reported => ?_⟩
  exact Nat.le_trans (behind.behind frames reported) s.world.position_le

/-- A card that has its say: whether the PCM opens and the transfer succeeds. -/
def respond (luck : Process.Luck) (bytes : Nat) (w : World) :
    (op : Call Stream) → Answer op × World
  | .loadStream _ => (w.stream, w)
  | .storeStream _ x => ((), { w with stream := x })
  | .pcmOpen => if luck.pcm then (true, { w with kernel := some ⟨0, 0⟩ }) else (false, w)
  | .pcmTransfer =>
      match w.kernel, luck.transfer with
      | some k, true =>
          (true, { w with kernel := some { k with given := k.given + bytes / frameSize } })
      | _, _ => (false, { w with kernel := some ⟨0, 0⟩ })
  | .pcmClose => ((), { w with kernel := none })
  | .loadDevice => (Device.fresh, w)
  | .newStream _ => (none, w)
  | .mixerOpen => (luck.mixer, w)
  | .lockDevice | .unlockDevice | .lockStream _ | .unlockStream _ | .storeDevice _
  | .freeStream _ | .setSwitch .. | .setAmp .. | .setGain .. | .setAdc _
  | .setPreamp _ => ((), w)

private theorem respond_allowed (luck : Process.Luck) (bytes : Nat) (w : World)
    (op : Call Stream) :
    answers bytes w op (respond luck bytes w op).1 (respond luck bytes w op).2 := by
  cases op
  case pcmOpen =>
    simp only [respond]
    split
    · rfl
    · rfl
  case pcmTransfer =>
    simp only [respond]
    split
    · next k present _ =>
        refine ⟨k, _, present, ⟨?_, Nat.le_refl _, ?_⟩, rfl⟩
        · exact Nat.le_add_right ..
        · generalize bytes / frameSize = frames
          simp only [Kernel.played]
          omega
    · exact ⟨_, rfl⟩
  case loadStream => exact ⟨rfl, rfl⟩
  all_goals rfl

/-- A write on such a card. -/
def State.written (s : State) (luck : Process.Luck) (bytes : Nat) : State :=
  { s with world := ((outWrite 0 bytes).eval (respond luck bytes) s.world).2 }

private theorem reachable_written {s : State} (luck : Process.Luck) (bytes : Nat)
    (reach : (machine 0).Reachable s) : (machine 0).Reachable (s.written luck bytes) :=
  reach.next (l := .write bytes) ⟨_, Prog.runs_eval (respond_allowed luck bytes) _ _, rfl⟩

private theorem reachable_standby {s : State} (reach : (machine 0).Reachable s) :
    (machine 0).Reachable
      { s with world := ((outStandby 0).eval (respond ⟨true, true, true⟩ 0) s.world).2 } :=
  reach.next (l := .standby) ⟨_, Prog.runs_eval (respond_allowed _ 0) _ _, rfl⟩

/-- One period written and 500 frames of it played, asked before and after standby and a PCM
that does not open again. -/
def State.heard : State :=
  ⟨⟨⟨false, true, false, true, 2, 960⟩, none⟩, [500, 960, 960]⟩

theorem position_never_goes_back_heard :
    (machine 0).Reachable State.heard ∧ State.heard.reported.Pairwise (· ≤ ·) := by
  have fresh : (machine 0).Reachable ⟨⟨⟨false, true, false, false, 2, 0⟩, none⟩, []⟩ :=
    .start ⟨2, rfl⟩
  have playing : (machine 0).Reachable
      ⟨⟨⟨true, false, true, false, 2, 960⟩, some ⟨960, 500⟩⟩, []⟩ :=
    (reachable_written ⟨true, true, true⟩ 3840 fresh).next (l := .reads)
      ⟨⟨960, 0⟩, 500, by decide, by decide, by decide⟩
  have asked : (machine 0).Reachable
      ⟨⟨⟨true, false, true, false, 2, 960⟩, some ⟨960, 500⟩⟩, [500]⟩ :=
    playing.next (l := .query true (some (3380, ⟨1, 0⟩)) 0)
      ⟨fun _ => ⟨⟨960, 500⟩, rfl, by decide⟩, by decide⟩
  have standby : (machine 0).Reachable
      ⟨⟨⟨false, true, false, false, 2, 960⟩, none⟩, [500, 960]⟩ :=
    (reachable_standby asked).next (l := .query true none 0) ⟨fun _ => trivial, by decide⟩
  have reach : (machine 0).Reachable State.heard :=
    (reachable_written ⟨true, false, true⟩ 3840 standby).next (l := .query true none 0)
      ⟨fun _ => trivial, by decide⟩
  exact ⟨reach, (position_never_goes_back 0 State.heard reach).1⟩

end XdPlus.Audio.Position
