/- Module: XdPlus/Audio/Playback
   source: audio/audio_hw.c, the audio_stream_out operations, adev_open_output_stream and
     adev_close_output_stream
   digest: Output streams, and the threads that call them. -/

import Mathlib.Algebra.Group.Int.Defs
import XdPlus.Audio.Process

set_option autoImplicit false
set_option relaxedAutoImplicit false

namespace XdPlus.Audio.Playback

open XdPlus.Base Routing Process

/-- `struct xd_stream_out`, in the fields that change; `pcm` says whether the pointer is set.
`frames_written` is a `uint64_t`, here one that does not wrap. -/
structure Stream where
  pcm : Bool
  standby : Bool
  routed : Bool
  openFailed : Bool
  devices : AudioDevices
  framesWritten : Nat
  deriving DecidableEq, Repr

def outClosePcmLocked (σ : StreamId) : Hal Stream Unit := do
  let out ← Hal.call (.loadStream σ)
  if out.pcm then
    Hal.call .pcmClose
    Hal.call (.storeStream σ { out with pcm := false })
  let out ← Hal.call (.loadStream σ)
  if out.routed then
    Hal.call .lockDevice
    adevRouteOutDisable
    Hal.call .unlockDevice
    Hal.call (.storeStream σ { out with routed := false })
  let out ← Hal.call (.loadStream σ)
  Hal.call (.storeStream σ { out with standby := true })

/-- `0`, or `-ENODEV`. What the enable returns is not looked at. -/
def outOpenPcmLocked (σ : StreamId) : Hal Stream Int := do
  let out ← Hal.call (.loadStream σ)
  if out.pcm then
    return 0
  else
    Hal.call .lockDevice
    let _ ← adevRouteOutEnable out.devices
    Hal.call .unlockDevice
    Hal.call (.storeStream σ { out with routed := true })
    if ← Hal.call .pcmOpen then
      Hal.call (.storeStream σ
        { out with routed := true, pcm := true, standby := false, openFailed := false })
      return 0
    else
      Hal.call (.storeStream σ { out with routed := true, openFailed := true })
      Hal.call .lockDevice
      adevRouteOutDisable
      Hal.call .unlockDevice
      Hal.call (.storeStream σ { out with routed := false, openFailed := true })
      return -19

def outStandby (σ : StreamId) : Hal Stream Unit := do
  Hal.call (.lockStream σ)
  let out ← Hal.call (.loadStream σ)
  if !out.standby then
    outClosePcmLocked σ
  Hal.call (.unlockStream σ)

/-- `routing` is the number behind `routing=` in the key-value pairs, if that is there. -/
def outSetParameters (σ : StreamId) (routing : Option Int) : Hal Stream Unit := do
  match routing with
  | none => return ()
  | some routing =>
      let devices : AudioDevices := (routing % 2 ^ 32).toNat
      Hal.call (.lockStream σ)
      let out ← Hal.call (.loadStream σ)
      Hal.call (.storeStream σ { out with devices := devices })
      let routed := out.routed
      Hal.call (.unlockStream σ)
      if routed then
        Hal.call .lockDevice
        adevRouteOutRetarget devices
        Hal.call .unlockDevice

def kGainIndexByStep : List Int := [15, 12, 11, 10, 9, 8, 7, 6, 5, 4, 3, 2, 1, 0]

/-- A volume comes down to one of the steps, or to exact silence. -/
abbrev Volume := Option (Fin kGainIndexByStep.length)

def gainIndexOf : Volume → Int
  | none => gainEnumMute
  | some step => kGainIndexByStep.get step

def outSetVolume (volume : Volume) : Hal Stream Unit := do
  let index := gainIndexOf volume
  Hal.call .lockDevice
  let adev ← Hal.call .loadDevice
  Hal.call (.storeDevice { adev with gainIndex := index })
  if 0 < adev.outRouteRefs then
    if ← adevMixerLocked then
      Hal.call (.setGain .left index)
      Hal.call (.setGain .right index)
  Hal.call .unlockDevice

/-- `audio_stream_out_frame_size`: stereo S16. -/
def frameSize : Nat := 4

def outWrite (σ : StreamId) (bytes : Nat) : Hal Stream Unit := do
  Hal.call (.lockStream σ)
  let out ← Hal.call (.loadStream σ)
  let ret ← if out.pcm then pure 0 else outOpenPcmLocked σ
  if ret ≠ 0 then
    Hal.call (.unlockStream σ)
  else if ← Hal.call .pcmTransfer then
    let out ← Hal.call (.loadStream σ)
    Hal.call (.storeStream σ { out with framesWritten := out.framesWritten + bytes / frameSize })
    Hal.call (.unlockStream σ)
  else
    outClosePcmLocked σ
    Hal.call (.unlockStream σ)

def adevOpenOutputStream (devices : AudioDevices) : Hal Stream Unit := do
  Hal.call .lockDevice
  let adev ← Hal.call .loadDevice
  if 0 < adev.outStreams then
    Hal.call .unlockDevice
  else
    Hal.call (.storeDevice { adev with outStreams := adev.outStreams + 1 })
    Hal.call .unlockDevice
    match ← Hal.call (.newStream ⟨false, true, false, false, devices, 0⟩) with
    | some _ => return ()
    | none =>
        Hal.call .lockDevice
        let adev ← Hal.call .loadDevice
        Hal.call (.storeDevice { adev with outStreams := adev.outStreams - 1 })
        Hal.call .unlockDevice

def adevCloseOutputStream (σ : StreamId) : Hal Stream Unit := do
  Hal.call (.lockStream σ)
  outClosePcmLocked σ
  Hal.call (.unlockStream σ)
  Hal.call (.freeStream σ)
  Hal.call .lockDevice
  let adev ← Hal.call .loadDevice
  if 0 < adev.outStreams then
    Hal.call (.storeDevice { adev with outStreams := adev.outStreams - 1 })
  Hal.call .unlockDevice

/-- What a thread of the audio server calls. -/
inductive Invocation where
  | openOutputStream (devices : AudioDevices)
  | closeOutputStream (σ : StreamId)
  | write (σ : StreamId) (bytes : Nat)
  | standby (σ : StreamId)
  | setParameters (σ : StreamId) (routing : Option Int)
  | setVolume (σ : StreamId) (volume : Volume)
  deriving DecidableEq, Repr

/-- The stream a call is made on. -/
def Invocation.stream : Invocation → Option StreamId
  | .openOutputStream _ => none
  | .closeOutputStream σ | .write σ _ | .standby σ | .setParameters σ _ | .setVolume σ _ => some σ

def Invocation.code : Invocation → Hal Stream Unit
  | .openOutputStream devices => adevOpenOutputStream devices
  | .closeOutputStream σ => adevCloseOutputStream σ
  | .write σ bytes => outWrite σ bytes
  | .standby σ => outStandby σ
  | .setParameters σ routing => outSetParameters σ routing
  | .setVolume _ volume => outSetVolume volume

/-- Who accounts for the one output stream there may be. Nothing in the code reads it. -/
inductive Slot where
  | free
  | thread (t : Tid)
  | stream (σ : StreamId)
  deriving DecidableEq, Repr

/-- Counting a stream in gives the slot to the thread, counting it out frees it. -/
def Slot.counted (slot : Slot) (t : Tid) (before after : Int) : Slot :=
  if before < after then .thread t else if after < before then .free else slot

abbrev State := Process.State Stream Invocation Slot

def note : Note Stream Invocation Slot
  | s, t, .storeDevice d, _ => s.ledger.counted t s.device.outStreams d.outStreams
  | _, _, .newStream _, some σ => .stream σ
  | _, t, .freeStream _, _ => .thread t
  | s, _, _, _ => s.ledger

def Invocation.closes : Invocation → Option StreamId
  | .closeOutputStream σ => some σ
  | _ => none

def interface : Interface Stream Invocation :=
  ⟨Invocation.code, Invocation.stream, Invocation.closes⟩

/-- The device as `adev_open` leaves it, on an idle card. -/
def State.initial (s : State) : Prop :=
  s.Unused ∧ s.device = Device.fresh ∧ (∀ c, s.mixer.amp c = false) ∧
    s.mixer.switch .o03i05 = 0 ∧ s.mixer.switch .o04i06 = 0 ∧ s.ledger = .free

def system : ThreadSystem (Call Stream) Answer State Tid Invocation :=
  Process.system interface note State.initial

/-- A process that has just opened the device. -/
def State.start : State :=
  ⟨Device.fresh, none, fun _ => none, fun _ => none, Mixer.idle, fun _ => none, fun _ => none,
    .free⟩

theorem reachable_start : system.machine.Reachable ⟨State.start, fun _ => none⟩ := by
  refine .start ⟨⟨⟨rfl, ?_, ?_, ?_, ?_⟩, rfl, ?_, rfl, rfl, rfl⟩, ?_⟩ <;> exact fun _ => rfl

end XdPlus.Audio.Playback
