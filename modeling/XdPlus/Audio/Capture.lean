/- Module: XdPlus/Audio/Capture
   source: audio/audio_hw.c, the audio_stream_in operations, adev_open_input_stream and
     adev_close_input_stream
   digest: Input streams, as many as there are, and the threads that call them. -/

import Mathlib.Algebra.Group.Int.Defs
import Mathlib.Data.Finset.Card
import XdPlus.Audio.Process

set_option autoImplicit false
set_option relaxedAutoImplicit false

namespace XdPlus.Audio.Capture

open XdPlus.Base Routing Process

/-- `struct xd_stream_in`, in the fields the calls below change; `pcm` says whether the
pointer is set. -/
structure Stream where
  pcm : Bool
  standby : Bool
  routed : Bool
  devices : AudioDevices
  deriving DecidableEq, Repr

def inClosePcmLocked (σ : StreamId) : Hal Stream Unit := do
  let in_ ← Hal.call (.loadStream σ)
  if in_.pcm then
    Hal.call .pcmClose
    Hal.call (.storeStream σ { in_ with pcm := false })
  let in_ ← Hal.call (.loadStream σ)
  if in_.routed then
    Hal.call .lockDevice
    adevRouteInDisable
    Hal.call .unlockDevice
    Hal.call (.storeStream σ { in_ with routed := false })
  let in_ ← Hal.call (.loadStream σ)
  Hal.call (.storeStream σ { in_ with standby := true })

/-- `0`, or `-ENODEV`. What the enable returns is not looked at. -/
def inOpenPcmLocked (σ : StreamId) : Hal Stream Int := do
  let in_ ← Hal.call (.loadStream σ)
  if in_.pcm then
    return 0
  else
    Hal.call .lockDevice
    let _ ← adevRouteInEnable
    Hal.call .unlockDevice
    Hal.call (.storeStream σ { in_ with routed := true })
    if ← Hal.call .pcmOpen then
      Hal.call (.storeStream σ { in_ with routed := true, pcm := true, standby := false })
      return 0
    else
      Hal.call .lockDevice
      adevRouteInDisable
      Hal.call .unlockDevice
      Hal.call (.storeStream σ { in_ with routed := false })
      return -19

def inStandby (σ : StreamId) : Hal Stream Unit := do
  Hal.call (.lockStream σ)
  let in_ ← Hal.call (.loadStream σ)
  if !in_.standby then
    inClosePcmLocked σ
  Hal.call (.unlockStream σ)

/-- The buffer is not modelled: it is silenced on failure, and when the microphone is muted. -/
def inRead (σ : StreamId) : Hal Stream Unit := do
  Hal.call (.lockStream σ)
  let in_ ← Hal.call (.loadStream σ)
  let ret ← if in_.pcm then pure 0 else inOpenPcmLocked σ
  if ret ≠ 0 then
    Hal.call (.unlockStream σ)
  else if ← Hal.call .pcmTransfer then
    Hal.call (.unlockStream σ)
    Hal.call .lockDevice
    let _ ← Hal.call .loadDevice
    Hal.call .unlockDevice
  else
    inClosePcmLocked σ
    Hal.call (.unlockStream σ)

/-- `routing` is the number behind `routing=` in the key-value pairs, if that is there; the path is
not touched. -/
def inSetParameters (σ : StreamId) (routing : Option Int) : Hal Stream Unit := do
  match routing with
  | none => return ()
  | some routing =>
      let devices : AudioDevices := (routing % 2 ^ 32).toNat
      Hal.call (.lockStream σ)
      let in_ ← Hal.call (.loadStream σ)
      Hal.call (.storeStream σ { in_ with devices := devices })
      Hal.call (.unlockStream σ)

/-- With a format, a rate and channels the codec has. -/
def adevOpenInputStream (devices : AudioDevices) : Hal Stream Unit := do
  let _ ← Hal.call (.newStream ⟨false, true, false, devices⟩)
  return ()

def adevCloseInputStream (σ : StreamId) : Hal Stream Unit := do
  Hal.call (.lockStream σ)
  inClosePcmLocked σ
  Hal.call (.unlockStream σ)
  Hal.call (.freeStream σ)

inductive Invocation where
  | openInputStream (devices : AudioDevices)
  | closeInputStream (σ : StreamId)
  | read (σ : StreamId)
  | standby (σ : StreamId)
  | setParameters (σ : StreamId) (routing : Option Int)
  deriving DecidableEq, Repr

def Invocation.stream : Invocation → Option StreamId
  | .openInputStream _ => none
  | .closeInputStream σ | .read σ | .standby σ | .setParameters σ _ => some σ

def Invocation.closes : Invocation → Option StreamId
  | .closeInputStream σ => some σ
  | _ => none

def Invocation.code : Invocation → Hal Stream Unit
  | .openInputStream devices => adevOpenInputStream devices
  | .closeInputStream σ => adevCloseInputStream σ
  | .read σ => inRead σ
  | .standby σ => inStandby σ
  | .setParameters σ routing => inSetParameters σ routing

def interface : Interface Stream Invocation :=
  ⟨Invocation.code, Invocation.stream, Invocation.closes⟩

/-- `takers`: the streams whose enable took a reference and which have not given one back.
`owing`: the streams whose enable failed and which are still marked as routed, or about to be.
`opened`: whether `mixer_open` has ever succeeded. -/
structure Ledger where
  takers : Finset StreamId
  owing : Finset StreamId
  opened : Bool

abbrev State := Process.State Stream Invocation Ledger

/-- The stream a thread is working on. -/
def workingOn (s : State) (t : Tid) : Option StreamId := (s.calling t).bind Invocation.stream

/-- A reference is taken, or given back, for the stream of the thread that counts it. -/
def Ledger.counted (l : Ledger) (σ : Option StreamId) (before after : Int) : Ledger :=
  match σ with
  | none => l
  | some σ =>
      if before < after then { l with takers := insert σ l.takers }
      else if after < before then { l with takers := l.takers.erase σ }
      else l

def note : Note Stream Invocation Ledger
  | s, t, .storeDevice d, _ => s.ledger.counted (workingOn s t) s.device.inRouteRefs d.inRouteRefs
  | s, _, .mixerOpen, true => { s.ledger with opened := true }
  | s, t, .mixerOpen, false =>
      match workingOn s t with
      | none => s.ledger
      | some σ => { s.ledger with owing := insert σ s.ledger.owing }
  | s, _, .storeStream σ x, _ =>
      if x.routed then s.ledger else { s.ledger with owing := s.ledger.owing.erase σ }
  | s, _, _, _ => s.ledger

def State.initial (s : State) : Prop :=
  s.Unused ∧ s.device = Device.fresh ∧ s.ledger = ⟨∅, ∅, false⟩

def system : ThreadSystem (Call Stream) Answer State Tid Invocation :=
  Process.system interface note State.initial

/-- `mixer_open` does not succeed while a stream is routed that it failed for. -/
def NoneOwing (s : State) : (op : Call Stream) → Answer op → Prop
  | .mixerOpen, true => s.ledger.owing = ∅
  | _, _ => True

/-- Answers for calls made one after the other, of which the mixer keeps to `NoneOwing`. -/
def carefully (t : Tid) (luck : Luck) (s : State) (op : Call Stream) :
    Option (Answer op × State) :=
  if luck.mixer = true → s.ledger.owing = ∅ then respond note luck t s op else none

theorem carefully_allowed (t : Tid) (luck : Luck) (s : State) (op : Call Stream)
    (r : Answer op × State) (answered : carefully t luck s op = some r) :
    answers note t s op r.1 r.2 ∧ NoneOwing s op r.1 := by
  unfold carefully at answered
  split_ifs at answered with careful
  refine ⟨respond_allowed note luck t s op r answered, ?_⟩
  cases op
  case mixerOpen =>
    obtain ⟨opened, chosen, rfl⟩ := Option.map_eq_some_iff.mp answered
    obtain rfl : luck.mixer = opened := Option.some.inj chosen
    cases lucky : luck.mixer with
    | false => trivial
    | true => exact careful lucky
  all_goals trivial

/-- `AUDIO_DEVICE_IN_BUILTIN_MIC`. -/
def builtinMic : AudioDevices := 0x80000004

/-- A process that has just opened the device. -/
def State.start : State :=
  ⟨Device.fresh, none, fun _ => none, fun _ => none, Mixer.idle, fun _ => none, fun _ => none,
    ⟨∅, ∅, false⟩⟩

private theorem start_initial : State.initial State.start := by
  refine ⟨⟨rfl, ?_, ?_, ?_, ?_⟩, rfl, rfl⟩ <;> exact fun _ => rfl

theorem reachable_start : system.machine.Reachable ⟨State.start, fun _ => none⟩ :=
  .start ⟨start_initial, fun _ => rfl⟩

theorem reachable_start_restrict :
    (system.restrict NoneOwing).machine.Reachable ⟨State.start, fun _ => none⟩ :=
  .start ⟨start_initial, fun _ => rfl⟩

end XdPlus.Audio.Capture
