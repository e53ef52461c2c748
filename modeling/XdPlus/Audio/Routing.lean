/- Module: XdPlus/Audio/Routing
   source: audio/audio_hw.c, the device and its mixer routing
   digest: The audio device, the calls its code makes, and the functions that switch paths. -/

import XdPlus.Base.Program

set_option autoImplicit false
set_option relaxedAutoImplicit false

namespace XdPlus.Audio.Routing

open XdPlus.Base

/-- `Speaker_Amp_Switch`, `Audio_Amp_Switch` and `Headset_Speaker_Amp_Switch`. -/
inductive Amp where
  | speaker
  | audio
  | headsetSpeaker
  deriving DecidableEq, Repr

/-- The interconnect switches: `O03 I05`, `O04 I06`, `O09 I03` and `O10 I04`. -/
inductive Switch where
  | o03i05
  | o04i06
  | o09i03
  | o10i04
  deriving DecidableEq, Repr

/-- `Headset_PGAL_GAIN` and `Headset_PGAR_GAIN`. -/
inductive Gain where
  | left
  | right
  deriving DecidableEq, Repr

/-- The two settings of `Audio_Preamp1_Switch` the code uses. -/
inductive Preamp where
  | ain1
  | open
  deriving DecidableEq, Repr

/-- The controls as they are set. -/
structure Mixer where
  amp : Amp → Bool
  switch : Switch → Int
  gain : Gain → Int
  adc : Bool
  preamp : Preamp

/-- Everything off. -/
def Mixer.idle : Mixer := ⟨fun _ => false, fun _ => 0, fun _ => 0, false, .open⟩

/-- `struct xd_audio_device`; `mixer` says whether the pointer is set. -/
structure Device where
  mixer : Bool
  outRouteRefs : Int
  inRouteRefs : Int
  outAmp : Option Amp
  outStreams : Int
  micMute : Bool
  mode : Int
  gainIndex : Int
  deriving DecidableEq, Repr

/-- `GAIN_ENUM_MUTE`. -/
def gainEnumMute : Int := 15

/-- `GAIN_ENUM_DEFAULT`. -/
def gainEnumDefault : Int := 12

/-- What `adev_open` leaves; the mode is `AUDIO_MODE_NORMAL`. -/
def Device.fresh : Device := ⟨false, 0, 0, none, 0, false, 0, gainEnumDefault⟩

/-- Where a stream was allocated. -/
abbrev StreamId := Nat

/-- What the code asks of pthreads, tinyalsa, the heap and the memory it shares; `X` is the
record of a stream. `newStream` allocates one, fills it in and hands it out; `pcmOpen` succeeds when
the PCM is ready. -/
inductive Call (X : Type) where
  | lockDevice
  | unlockDevice
  | lockStream (σ : StreamId)
  | unlockStream (σ : StreamId)
  | loadDevice
  | storeDevice (d : Device)
  | loadStream (σ : StreamId)
  | storeStream (σ : StreamId) (x : X)
  | newStream (x : X)
  | freeStream (σ : StreamId)
  | mixerOpen
  | setSwitch (c : Switch) (value : Int)
  | setAmp (c : Amp) (on : Bool)
  | setGain (c : Gain) (index : Int)
  | setAdc (on : Bool)
  | setPreamp (value : Preamp)
  | pcmOpen
  | pcmTransfer
  | pcmClose

abbrev Answer {X : Type} : Call X → Type
  | .loadDevice => Device
  | .loadStream _ => X
  | .newStream _ => Option StreamId
  | .mixerOpen => Bool
  | .pcmOpen => Bool
  | .pcmTransfer => Bool
  | .lockDevice | .unlockDevice | .lockStream _ | .unlockStream _ | .storeDevice _
  | .storeStream .. | .freeStream _ | .setSwitch .. | .setAmp .. | .setGain .. | .setAdc _
  | .setPreamp _ | .pcmClose => Unit

/-- Code of the HAL. -/
abbrev Hal (X : Type) := Prog (Call X) Answer

abbrev Hal.call {X : Type} (c : Call X) : Hal X (Answer c) := Prog.call c

section Routing

variable {X : Type}

def adevMixerLocked : Hal X Bool := do
  let adev ← Hal.call .loadDevice
  if adev.mixer then
    return true
  else
    let opened ← Hal.call .mixerOpen
    Hal.call (.storeDevice { adev with mixer := opened })
    return opened

/-- `audio_devices_t`. -/
abbrev AudioDevices := Nat

/-- `AUDIO_DEVICE_OUT_SPEAKER`, `_WIRED_HEADSET` and `_WIRED_HEADPHONE`, all of them inside
the `AUDIO_DEVICE_OUT_ALL` the argument is masked with. -/
def ampCtlForDevices (devices : AudioDevices) : Amp :=
  let headphone : Bool := devices &&& (0x4 ||| 0x8) ≠ 0
  let speaker : Bool := devices &&& 0x2 ≠ 0
  if headphone && speaker then .headsetSpeaker
  else if headphone then .audio
  else .speaker

/-- `0`, or `-ENODEV` without a mixer. -/
def adevRouteOutEnable (devices : AudioDevices) : Hal X Int := do
  let amp := ampCtlForDevices devices
  if ← adevMixerLocked then
    let adev ← Hal.call .loadDevice
    Hal.call (.storeDevice { adev with outRouteRefs := adev.outRouteRefs + 1 })
    if 0 < adev.outRouteRefs then
      return 0
    else
      let adev ← Hal.call .loadDevice
      Hal.call (.storeDevice { adev with outAmp := some amp })
      Hal.call (.setSwitch .o03i05 1)
      Hal.call (.setSwitch .o04i06 1)
      Hal.call (.setAmp amp true)
      Hal.call (.setGain .left adev.gainIndex)
      Hal.call (.setGain .right adev.gainIndex)
      return 0
  else
    return -19

def adevRouteOutRetarget (devices : AudioDevices) : Hal X Unit := do
  let amp := ampCtlForDevices devices
  let adev ← Hal.call .loadDevice
  if adev.outRouteRefs ≤ 0 ∨ adev.outAmp = some amp then
    return ()
  else if ← adevMixerLocked then
    if let some old := adev.outAmp then
      Hal.call (.setAmp old false)
    Hal.call (.setAmp amp true)
    let adev ← Hal.call .loadDevice
    Hal.call (.storeDevice { adev with outAmp := some amp })
  else
    return ()

def adevRouteOutDisable : Hal X Unit := do
  let adev ← Hal.call .loadDevice
  if adev.outRouteRefs ≤ 0 then
    return ()
  else
    Hal.call (.storeDevice { adev with outRouteRefs := adev.outRouteRefs - 1 })
    if 0 < adev.outRouteRefs - 1 then
      return ()
    else if ← adevMixerLocked then
      let adev ← Hal.call .loadDevice
      Hal.call (.setAmp (adev.outAmp.getD .speaker) false)
      Hal.call (.storeDevice { adev with outAmp := none })
      Hal.call (.setSwitch .o03i05 0)
      Hal.call (.setSwitch .o04i06 0)
    else
      return ()

def adevRouteInEnable : Hal X Int := do
  if ← adevMixerLocked then
    let adev ← Hal.call .loadDevice
    Hal.call (.storeDevice { adev with inRouteRefs := adev.inRouteRefs + 1 })
    if 0 < adev.inRouteRefs then
      return 0
    else
      Hal.call (.setSwitch .o09i03 1)
      Hal.call (.setSwitch .o10i04 1)
      Hal.call (.setAdc true)
      Hal.call (.setPreamp .ain1)
      return 0
  else
    return -19

def adevRouteInDisable : Hal X Unit := do
  let adev ← Hal.call .loadDevice
  if adev.inRouteRefs ≤ 0 then
    return ()
  else
    Hal.call (.storeDevice { adev with inRouteRefs := adev.inRouteRefs - 1 })
    if 0 < adev.inRouteRefs - 1 then
      return ()
    else if ← adevMixerLocked then
      Hal.call (.setPreamp .open)
      Hal.call (.setAdc false)
      Hal.call (.setSwitch .o09i03 0)
      Hal.call (.setSwitch .o10i04 0)
    else
      return ()

end Routing

end XdPlus.Audio.Routing
