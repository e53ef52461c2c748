/- Module: XdPlus/Audio/Process
   source: audio/audio_hw.c, what its calls do to the state the threads share
   digest: Threads of the audio server in one process, two kinds of lock, one sound card. -/

import XdPlus.Audio.Routing
import XdPlus.Base.Threads

set_option autoImplicit false
set_option relaxedAutoImplicit false

namespace XdPlus.Audio.Process

open XdPlus.Base Routing

abbrev Tid := Nat

section State

variable {X I L : Type}

/-- The shared state: `X` is the record of a stream, `I` what the threads may call. `calling` is
the call each thread is in, `closer` the thread that closes a stream. Nothing in the code reads
the `ledger`. -/
structure State (X I L : Type) where
  device : Device
  deviceLock : Option Tid
  streams : StreamId → Option X
  streamLock : StreamId → Option Tid
  mixer : Mixer
  calling : Tid → Option I
  closer : StreamId → Option Tid
  ledger : L

/-- When a call is answered, and with what. A lock that is taken answers nobody, a stream that
was freed answers nothing. Mixer writes succeed; opening the mixer or the PCM, moving samples
and finding memory may not. -/
def Answered (s : State X I L) : (op : Call X) → Answer op → Prop
  | .lockDevice, _ => s.deviceLock = none
  | .lockStream σ, _ => (s.streams σ).isSome ∧ s.streamLock σ = none
  | .loadDevice, adev => adev = s.device
  | .loadStream σ, out => s.streams σ = some out
  | .storeStream σ _, _ => (s.streams σ).isSome
  | .newStream _, some σ => s.streams σ = none
  | _, _ => True

/-- What a call of thread `t` does. -/
def State.perform (s : State X I L) (t : Tid) : (op : Call X) → Answer op → State X I L
  | .lockDevice, _ => { s with deviceLock := some t }
  | .unlockDevice, _ => { s with deviceLock := none }
  | .lockStream σ, _ => { s with streamLock := Function.update s.streamLock σ (some t) }
  | .unlockStream σ, _ => { s with streamLock := Function.update s.streamLock σ none }
  | .storeDevice d, _ => { s with device := d }
  | .storeStream σ x, _ => { s with streams := Function.update s.streams σ (some x) }
  | .newStream x, some σ => { s with streams := Function.update s.streams σ (some x) }
  | .freeStream σ, _ =>
      { s with
        streams := Function.update s.streams σ none
        closer := Function.update s.closer σ none }
  | .setSwitch c value, _ =>
      { s with mixer := { s.mixer with switch := Function.update s.mixer.switch c value } }
  | .setAmp c on, _ =>
      { s with mixer := { s.mixer with amp := Function.update s.mixer.amp c on } }
  | .setGain c index, _ =>
      { s with mixer := { s.mixer with gain := Function.update s.mixer.gain c index } }
  | .setAdc on, _ => { s with mixer := { s.mixer with adc := on } }
  | .setPreamp value, _ => { s with mixer := { s.mixer with preamp := value } }
  | _, _ => s

/-- How a ledger is kept. -/
abbrev Note (X I L : Type) := State X I L → Tid → (op : Call X) → Answer op → L

def answers (note : Note X I L) (t : Tid) : Prog.Environment (Call X) Answer (State X I L) :=
  fun s op ans s' =>
    Answered s op ans ∧ s' = { s.perform t op ans with ledger := note s t op ans }

/-- The functions a thread may call, the stream each is called on, and the ones that close it. -/
structure Interface (X I : Type) where
  code : I → Hal X Unit
  stream : I → Option StreamId
  closes : I → Option StreamId

/-- A call on a stream is made while the stream exists and nobody is closing it; it is closed
when no other call on it is under way. -/
def enters (f : Interface X I) (s : State X I L) (t : Tid) (i : I) (s' : State X I L) : Prop :=
  (∀ σ, f.stream i = some σ → (s.streams σ).isSome ∧ s.closer σ = none) ∧
    match f.closes i with
    | some σ =>
        (∀ u j, s.calling u = some j → f.stream j ≠ some σ) ∧
          s' = { s with
            calling := Function.update s.calling t (some i)
            closer := Function.update s.closer σ (some t) }
    | none => s' = { s with calling := Function.update s.calling t (some i) }

def system (f : Interface X I) (note : Note X I L) (init : State X I L → Prop) :
    ThreadSystem (Call X) Answer (State X I L) Tid I where
  init := init
  env := answers note
  code := f.code
  enters := enters f
  leaves s t s' := s' = { s with calling := Function.update s.calling t none }

/-- Nobody has done anything yet. -/
def State.Unused (s : State X I L) : Prop :=
  s.deviceLock = none ∧ (∀ σ, s.streams σ = none) ∧ (∀ σ, s.streamLock σ = none) ∧
    (∀ t, s.calling t = none) ∧ (∀ σ, s.closer σ = none)

/-- A stream may be touched by the thread that closes it, else by the holder of its lock. -/
def owner (s : State X I L) (σ : StreamId) : Option Tid := (s.closer σ).or (s.streamLock σ)

section Shown

variable {B : Type} {board : State X I L → B} {s s' : State X I L} {t u : Tid}

/-- What the holder of the device's lock sees of the device. -/
def shown (board : State X I L → B) (t : Tid) (s : State X I L) : Option B :=
  if s.deviceLock = some t then some (board s) else none

theorem shown_eq_some {b : B} : shown board t s = some b ↔ s.deviceLock = some t ∧ board s = b := by
  unfold shown
  split_ifs with lock
  · simp [lock]
  · simp [lock]

theorem shown_eq_none : shown board t s = none ↔ s.deviceLock ≠ some t := by
  unfold shown
  split_ifs with lock
  · simp [lock]
  · simp [lock]

theorem shown_held (lock : s.deviceLock = some t) : shown board t s = some (board s) :=
  shown_eq_some.mpr ⟨lock, rfl⟩

theorem shown_congr (same : s.deviceLock = some u ∨ s'.deviceLock = some u →
    s'.deviceLock = s.deviceLock ∧ board s' = board s) : shown board u s' = shown board u s := by
  by_cases before : s.deviceLock = some u
  · obtain ⟨lock, device⟩ := same (.inl before)
    rw [shown_held before, shown_held (lock.trans before), device]
  · have after : s'.deviceLock ≠ some u := fun now => before ((same (.inr now)).1 ▸ now)
    rw [shown_eq_none.mpr before, shown_eq_none.mpr after]

theorem shown_other (ne : u ≠ t) (lock : s.deviceLock = some t)
    (same : s'.deviceLock = s.deviceLock) : shown board u s' = shown board u s := by
  refine shown_congr fun either => ?_
  rw [same, or_self, lock] at either
  exact absurd (Option.some.inj either) ne.symm

theorem shown_lock (ne : u ≠ t) (free : s.deviceLock = none) :
    shown board u { s with deviceLock := some t } = shown board u s := by
  have before : s.deviceLock ≠ some u := by simp [free]
  rw [shown_eq_none.mpr before]
  exact shown_eq_none.mpr (by simp [ne.symm])

theorem shown_unlock (ne : u ≠ t) (lock : s.deviceLock = some t) :
    shown board u { s with deviceLock := none } = shown board u s := by
  have before : s.deviceLock ≠ some u := by simp [lock, ne.symm]
  rw [shown_eq_none.mpr before]
  exact shown_eq_none.mpr (by simp)

theorem shown_unlocked (board : State X I L → B) (t : Tid) (s : State X I L) :
    shown board t { s with deviceLock := none } = none :=
  shown_eq_none.mpr (by simp)

end Shown

theorem streamLock_of_unused {f : Interface X I} {s : State X I L} {σ : StreamId}
    (owned : ∀ u, owner s σ = some u → ∃ j, s.calling u = some j ∧ f.stream j = some σ)
    (unclosed : s.closer σ = none)
    (unused : ∀ u j, s.calling u = some j → f.stream j ≠ some σ) : s.streamLock σ = none := by
  cases lock : s.streamLock σ with
  | none => rfl
  | some u =>
      obtain ⟨j, calls, on_it⟩ := owned u (by simp [owner, unclosed, lock])
      exact absurd on_it (unused u j calls)

/-- What happens to be possible. -/
structure Luck where
  mixer : Bool
  pcm : Bool
  transfer : Bool

def Luck.answer (luck : Luck) (s : State X I L) : (op : Call X) → Option (Answer op)
  | .lockDevice => if s.deviceLock = none then some () else none
  | .lockStream σ => if (s.streams σ).isSome ∧ s.streamLock σ = none then some () else none
  | .loadDevice => some s.device
  | .loadStream σ => s.streams σ
  | .storeStream σ _ => if (s.streams σ).isSome then some () else none
  | .newStream _ => some ((List.range 8).find? fun σ => (s.streams σ).isNone)
  | .mixerOpen => some luck.mixer
  | .pcmOpen => some luck.pcm
  | .pcmTransfer => some luck.transfer
  | .unlockDevice | .unlockStream _ | .storeDevice _ | .freeStream _ | .setSwitch ..
  | .setAmp .. | .setGain .. | .setAdc _ | .setPreamp _ | .pcmClose => some ()

def respond (note : Note X I L) (luck : Luck) (t : Tid) (s : State X I L) (op : Call X) :
    Option (Answer op × State X I L) :=
  (luck.answer s op).map fun ans => (ans, { s.perform t op ans with ledger := note s t op ans })

theorem respond_allowed (note : Note X I L) (luck : Luck) (t : Tid) (s : State X I L)
    (op : Call X) (r : Answer op × State X I L) (answered : respond note luck t s op = some r) :
    answers note t s op r.1 r.2 := by
  obtain ⟨ans, chosen, rfl⟩ := Option.map_eq_some_iff.mp answered
  refine ⟨?_, rfl⟩
  cases op
  case lockDevice =>
    simp only [Luck.answer, Option.ite_none_right_eq_some] at chosen
    exact chosen.1
  case lockStream σ =>
    simp only [Luck.answer, Option.ite_none_right_eq_some] at chosen
    exact chosen.1
  case loadDevice => exact (Option.some.inj chosen).symm
  case loadStream σ => exact chosen
  case storeStream σ x =>
    simp only [Luck.answer, Option.ite_none_right_eq_some] at chosen
    exact chosen.1
  case newStream x =>
    cases ans with
    | none => trivial
    | some σ =>
        have free : s.streams σ = none := by
          simpa using List.find?_some (Option.some.inj chosen)
        exact free
  all_goals trivial

/-- One whole call of thread `t`, other than one that closes a stream. -/
def State.ran (f : Interface X I)
    (answer : State X I L → (op : Call X) → Option (Answer op × State X I L))
    (t : Tid) (i : I) (s : State X I L) : Option (State X I L) :=
  if f.closes i = none ∧ ∀ σ ∈ f.stream i, (s.streams σ).isSome ∧ s.closer σ = none then
    ((f.code i).attempt answer
      { s with calling := Function.update s.calling t (some i) }).map fun r =>
        { r.2 with calling := Function.update r.2.calling t none }
  else none

/-- Calls of thread `t`, each with its own luck. -/
def State.plays (f : Interface X I)
    (answer : Luck → State X I L → (op : Call X) → Option (Answer op × State X I L)) (t : Tid) :
    List (Luck × I) → State X I L → Option (State X I L)
  | [], s => some s
  | (luck, i) :: rest, s => (s.ran f (answer luck) t i).bind (State.plays f answer t rest)

private theorem reachable_ran {f : Interface X I} {note : Note X I L} {init : State X I L → Prop}
    {P : State X I L → (op : Call X) → Answer op → Prop}
    {answer : State X I L → (op : Call X) → Option (Answer op × State X I L)} {t : Tid} {i : I}
    {s s' : State X I L}
    (allowed : ∀ s op r, answer s op = some r → answers note t s op r.1 r.2 ∧ P s op r.1)
    (reach : ((system f note init).restrict P).machine.Reachable ⟨s, fun _ => none⟩)
    (done : s.ran f answer t i = some s') :
    ((system f note init).restrict P).machine.Reachable ⟨s', fun _ => none⟩ := by
  unfold State.ran at done
  split_ifs at done with possible
  obtain ⟨⟨⟨⟩, s₂⟩, ran, rfl⟩ := Option.map_eq_some_iff.mp done
  refine ThreadSystem.reachable_invoke (t := t) (i := i) reach rfl ⟨fun σ on_it => ?_, ?_⟩
    (Prog.runs_attempt allowed ran) rfl
  · exact possible.2 σ on_it
  · rw [possible.1]

theorem reachable_plays {f : Interface X I} {note : Note X I L} {init : State X I L → Prop}
    {P : State X I L → (op : Call X) → Answer op → Prop}
    {answer : Luck → State X I L → (op : Call X) → Option (Answer op × State X I L)} {t : Tid}
    {calls : List (Luck × I)} {s s' : State X I L}
    (allowed : ∀ luck s op r, answer luck s op = some r →
      answers note t s op r.1 r.2 ∧ P s op r.1)
    (reach : ((system f note init).restrict P).machine.Reachable ⟨s, fun _ => none⟩)
    (done : s.plays f answer t calls = some s') :
    ((system f note init).restrict P).machine.Reachable ⟨s', fun _ => none⟩ := by
  induction calls generalizing s with
  | nil =>
      obtain rfl := Option.some.inj done
      exact reach
  | cons call rest ih =>
      obtain ⟨s₁, ran, played⟩ := Option.bind_eq_some_iff.mp done
      exact ih (reachable_ran (allowed call.1) reach ran) played

theorem reachable_respond {f : Interface X I} {note : Note X I L} {init : State X I L → Prop}
    {t : Tid} {calls : List (Luck × I)} {s s' : State X I L}
    (reach : (system f note init).machine.Reachable ⟨s, fun _ => none⟩)
    (done : s.plays f (respond note · t) t calls = some s') :
    (system f note init).machine.Reachable ⟨s', fun _ => none⟩ := by
  rw [← ThreadSystem.restrict_true (system f note init)] at reach ⊢
  exact reachable_plays
    (fun luck s op r answered => ⟨respond_allowed note luck t s op r answered, trivial⟩) reach done

end State

end XdPlus.Audio.Process
