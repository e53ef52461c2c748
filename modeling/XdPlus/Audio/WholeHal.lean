/- Module: XdPlus/Audio/WholeHal
   source: audio/audio_hw.c, both directions and the device's own calls
   digest: The whole HAL in one process, over one device and its lock. -/

import Mathlib.Algebra.Group.Nat.Defs
import XdPlus.Audio.Capture
import XdPlus.Audio.Position

set_option autoImplicit false
set_option relaxedAutoImplicit false

namespace XdPlus.Audio.WholeHal

open XdPlus.Base Routing Process

section Device

variable {X : Type}

/-- `0`, or `-ENODEV`. -/
def adevInitCheck : Hal X Int := do
  Hal.call .lockDevice
  let mixer ← adevMixerLocked
  Hal.call .unlockDevice
  return if mixer then 0 else -19

def adevSetMode (mode : Int) : Hal X Unit := do
  Hal.call .lockDevice
  let adev ← Hal.call .loadDevice
  Hal.call (.storeDevice { adev with mode := mode })
  Hal.call .unlockDevice

def adevSetMicMute (state : Bool) : Hal X Unit := do
  Hal.call .lockDevice
  let adev ← Hal.call .loadDevice
  Hal.call (.storeDevice { adev with micMute := state })
  Hal.call .unlockDevice

/-- `-EINVAL` without a pointer, else `0` and what is stored through it. -/
def adevGetMicMute (pointer : Bool) : Hal X (Int × Option Bool) := do
  if !pointer then
    return (-22, none)
  else
    Hal.call .lockDevice
    let adev ← Hal.call .loadDevice
    Hal.call .unlockDevice
    return (0, some adev.micMute)

/-- `XD_CARD`. -/
def xdCard : Nat := 0

def dumpText (adev : Device) : String :=
  "xdplus audio HAL: card " ++ toString xdCard ++
    ", mixer " ++ (if adev.mixer then "open" else "closed") ++
    ", out refs " ++ toString adev.outRouteRefs ++ ", in refs " ++ toString adev.inRouteRefs ++
    ", mic_mute " ++ toString adev.micMute.toNat ++ ", mode " ++ toString adev.mode ++
    ", gain index " ++ toString adev.gainIndex ++ "\n"

/-- What it writes to the descriptor, with the lock held. -/
def adevDump : Hal X String := do
  Hal.call .lockDevice
  let adev ← Hal.call .loadDevice
  let text := dumpText adev
  Hal.call .unlockDevice
  return text

end Device

def outGetRenderPosition (σ : StreamId) (pointer : Bool) :
    Hal Playback.Stream (Int × Option Nat) := do
  if !pointer then
    return (-22, none)
  else
    Hal.call (.lockStream σ)
    let out ← Hal.call (.loadStream σ)
    Hal.call (.unlockStream σ)
    return (0, some (out.framesWritten % 2 ^ 32))

/-- `htimestamp` is what the kernel answers if it is asked, `now` the clock. -/
def outGetPresentationPosition (σ : StreamId) (pointers : Bool)
    (htimestamp : Option Position.Htimestamp) (now : Int) :
    Hal Playback.Stream (Except Int (Nat × Position.Timespec)) := do
  if !pointers then
    return .error (-22)
  else
    Hal.call (.lockStream σ)
    let out ← Hal.call (.loadStream σ)
    Hal.call (.unlockStream σ)
    return Position.outGetPresentationPosition out pointers htimestamp now

/-- What is called on an output stream or on the device. -/
inductive OutputCall where
  | playback (i : Playback.Invocation)
  | renderPosition (σ : StreamId) (pointer : Bool)
  | presentationPosition (σ : StreamId) (pointers : Bool)
      (htimestamp : Option Position.Htimestamp) (now : Int)
  | initCheck
  | setMode (mode : Int)
  | setMicMute (state : Bool)
  | getMicMute (pointer : Bool)
  | dump
  deriving DecidableEq, Repr

def OutputCall.code : OutputCall → Hal Playback.Stream Unit
  | .playback i => i.code
  | .renderPosition σ pointer => do
      let _ ← outGetRenderPosition σ pointer
      return ()
  | .presentationPosition σ pointers htimestamp now => do
      let _ ← outGetPresentationPosition σ pointers htimestamp now
      return ()
  | .initCheck => do
      let _ ← adevInitCheck
      return ()
  | .setMode mode => adevSetMode mode
  | .setMicMute state => adevSetMicMute state
  | .getMicMute pointer => do
      let _ ← adevGetMicMute pointer
      return ()
  | .dump => do
      let _ ← adevDump
      return ()

def OutputCall.stream : OutputCall → Option StreamId
  | .playback i => i.stream
  | .renderPosition σ _ | .presentationPosition σ .. => some σ
  | .initCheck | .setMode _ | .setMicMute _ | .getMicMute _ | .dump => none

def OutputCall.closes : OutputCall → Option StreamId
  | .playback i => i.closes
  | .renderPosition .. | .presentationPosition .. | .initCheck | .setMode _ | .setMicMute _
  | .getMicMute _ | .dump => none

def outputCalls : Interface Playback.Stream OutputCall :=
  ⟨OutputCall.code, OutputCall.stream, OutputCall.closes⟩

/-- The streams of one direction, and the calls on them. -/
structure Streams (X I : Type) where
  streams : StreamId → Option X
  streamLock : StreamId → Option Tid
  calling : Tid → Option I
  closer : StreamId → Option Tid

/-- Both directions share the device and its lock. -/
structure State where
  device : Device
  deviceLock : Option Tid
  mixer : Mixer
  outputs : Streams Playback.Stream OutputCall
  inputs : Streams Capture.Stream Capture.Invocation

/-- What one direction sees of the process. -/
def seen {X I : Type} (s : State) (own : Streams X I) : Process.State X I Unit :=
  ⟨s.device, s.deviceLock, own.streams, own.streamLock, s.mixer, own.calling, own.closer, ()⟩

abbrev State.playback (s : State) : Process.State Playback.Stream OutputCall Unit :=
  seen s s.outputs

abbrev State.capture (s : State) : Process.State Capture.Stream Capture.Invocation Unit :=
  seen s s.inputs

/-- A call made for an output stream or the device, or for an input stream. -/
abbrev HalCall := Call Playback.Stream ⊕ Call Capture.Stream

abbrev HalAnswer : HalCall → Type
  | .inl op => Answer op
  | .inr op => Answer op

/-- A call is answered as its own direction has it. -/
def HalAnswered (s : State) : (op : HalCall) → HalAnswer op → Prop
  | .inl op, ans => Answered s.playback op ans
  | .inr op, ans => Answered s.capture op ans

/-- The streams as one direction leaves them. -/
def streamsOf {X I : Type} (p : Process.State X I Unit) : Streams X I :=
  ⟨p.streams, p.streamLock, p.calling, p.closer⟩

/-- It leaves the streams of the other alone. -/
def State.served (s : State) (t : Tid) : (op : HalCall) → HalAnswer op → State
  | .inl op, ans =>
      let p := s.playback.perform t op ans
      ⟨p.device, p.deviceLock, p.mixer, streamsOf p, s.inputs⟩
  | .inr op, ans =>
      let p := s.capture.perform t op ans
      ⟨p.device, p.deviceLock, p.mixer, s.outputs, streamsOf p⟩

def halAnswers (t : Tid) : Prog.Environment HalCall HalAnswer State :=
  fun s op ans s' => HalAnswered s op ans ∧ s' = s.served t op ans

def halCode : OutputCall ⊕ Capture.Invocation → Prog HalCall HalAnswer Unit
  | .inl i => Prog.renamed .inl (outputCalls.code i)
  | .inr i => Prog.renamed .inr (Capture.interface.code i)

def halEnters (s : State) (t : Tid) : OutputCall ⊕ Capture.Invocation → State → Prop
  | .inl i, s' => enters outputCalls s.playback t i s'.playback ∧ s'.inputs = s.inputs
  | .inr i, s' => enters Capture.interface s.capture t i s'.capture ∧ s'.outputs = s.outputs

def Streams.leave {X I : Type} (own : Streams X I) (t : Tid) : Streams X I :=
  { own with calling := Function.update own.calling t none }

def Streams.Unused {X I : Type} (own : Streams X I) : Prop :=
  (∀ σ, own.streams σ = none) ∧ (∀ σ, own.streamLock σ = none) ∧ (∀ t, own.calling t = none) ∧
    ∀ σ, own.closer σ = none

/-- Any number of threads, each of which calls what it likes of the whole HAL. -/
def system : ThreadSystem HalCall HalAnswer State Tid (OutputCall ⊕ Capture.Invocation) where
  init s := s.device = Device.fresh ∧ s.deviceLock = none ∧ s.outputs.Unused ∧ s.inputs.Unused
  env := halAnswers
  code := halCode
  enters := halEnters
  leaves s t s' := s' = { s with outputs := s.outputs.leave t, inputs := s.inputs.leave t }

/-- A process that has just opened the device. -/
def State.start : State :=
  ⟨Device.fresh, none, Mixer.idle, ⟨fun _ => none, fun _ => none, fun _ => none, fun _ => none⟩,
    ⟨fun _ => none, fun _ => none, fun _ => none, fun _ => none⟩⟩

def Streams.called {X I : Type} (own : Streams X I) (t : Tid) (i : I) : Streams X I :=
  { own with calling := Function.update own.calling t (some i) }

/-- Thread `t` in a call that closes nothing. -/
def State.called (s : State) (t : Tid) : OutputCall ⊕ Capture.Invocation → State
  | .inl i => { s with outputs := s.outputs.called t i }
  | .inr i => { s with inputs := s.inputs.called t i }

end XdPlus.Audio.WholeHal
