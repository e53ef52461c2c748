/- Module: XdPlus/Hdmi/Bringup
   source: rootdir/system/bin/xdplus_tweaks, wait_for, sink_supports_mode, hdmi_set_res,
     hdmi_apply_mode, hdmi_up, hdmi_down, the dispatch at its end
   digest: The dispatcher's HDMI commands, as programs that ask the phone. -/

import XdPlus.Base.Program
import XdPlus.Hdmi.SleepWake

set_option autoImplicit false
set_option relaxedAutoImplicit false

namespace XdPlus.Hdmi.Bringup

open XdPlus.Base MainLoop SleepWake

/-- Arguments of `hdmictl`. -/
inductive Args where
  | switch (c : Ctl)
  | res (mode : String)
  deriving DecidableEq, Repr

/-- What the script runs. A pipe into `grep` is one question: `displayOne` and `stackZero` are
asked of `dumpsys SurfaceFlinger`, `hdmiScreen`, `awake` and `keyguardShowing` of `dumpsys` display,
power and window, `sinkReady` and `sinkMask` (`ready=1`, `sink4k2k=`) of `/d/hdmi_pwrpin`,
`mirroring` and `sessionMode` (`session_mode:`) of `/d/mtkfb`. `wakeUp` is `input keyevent 224`,
`resState` reads `/sys/class/switch/res_hdmi/state`, and `unplugCable` is
`echo fakecablein:disable > /d/hdmi`. -/
inductive Call where
  | isExecutable (path : String)
  | isFile (path : String)
  | md5Is (path digest : String)
  | sleep
  | xlog (msg : String)
  | chmod
  | bindMount (src dst : String)
  | killComposer
  | getprop (name : String)
  | setprop (name value : String)
  | dumpSurfaceFlinger
  | displayOne
  | stackZero
  | hdmiScreen
  | awake
  | keyguardShowing
  | wakeUp
  | dismissKeyguard
  | resState
  | sinkReady
  | sinkMask
  | mirroring
  | sessionMode
  | unplugCable
  | hdmictl (ctl : String) (args : Args)
  deriving DecidableEq, Repr

/-- `sinkMask` has no answer where the field is empty or absent. -/
abbrev Answer : Call → Type
  | .isExecutable _ | .isFile _ | .md5Is .. | .bindMount .. => Bool
  | .displayOne | .stackZero | .hdmiScreen | .awake | .keyguardShowing => Bool
  | .sinkReady | .mirroring => Bool
  | .getprop _ | .resState | .sessionMode => String
  | .sinkMask => Option Nat
  | .sleep | .xlog _ | .chmod | .killComposer | .setprop .. | .dumpSurfaceFlinger | .wakeUp
  | .dismissKeyguard | .unplugCable | .hdmictl .. => Unit

abbrev Script := Prog Call Answer

abbrev run (c : Call) : Script (Answer c) := Prog.call c

/-- `[ b ] && p`. -/
def onlyIf (b : Bool) (p : Script Unit) : Script Unit :=
  if b then p else return ()

/-- Five tries a second. -/
def waitTries (cond : Script Bool) : Nat → Script Bool
  | 0 => return false
  | left + 1 => do
      if ← cond then
        return true
      else
        run .sleep
        waitTries cond left

def waitFor (seconds : Nat) (cond : Script Bool) : Script Bool :=
  waitTries cond (seconds * 5)

/-- A wait whose outcome does not matter. -/
def settle (seconds : Nat) (cond : Script Bool) : Script Unit := do
  let _ ← waitFor seconds cond
  return ()

/-- The condition `! c`. -/
def absent (c : Script Bool) : Script Bool := do
  return !(← c)

/-- The bit of an ultra mode in the kernel's mask of 4K modes. -/
def ultraBit : String → Option Nat
  | "19" => some 1
  | "20" => some 2
  | "21" => some 4
  | "22" => some 8
  | "23" => some 16
  | "24" => some 32
  | "25" => some 512
  | _ => none

def sinkSupportsMode (mode : String) : Script Bool := do
  match ultraBit mode with
  | none => return true
  | some bit =>
      match ← run .sinkMask with
      | none => return true
      | some mask => return mask &&& bit != 0

def hdmiSetRes (ctl mode : String) (seconds : Nat) : Script Unit := do
  let had1 ← run .displayOne
  run (.hdmictl ctl (.res mode))
  onlyIf had1 (settle 10 (absent (run .displayOne)))
  settle seconds (run .displayOne)

/-- The number a decimal text stands for. -/
def numeral (text : List Char) : Option Nat :=
  if text = [] ∨ text.any (fun c => !c.isDigit) then none
  else some (text.foldl (fun number c => 10 * number + (c.toNat - '0'.toNat)) 0)

/-- `[ "$_mode" -ge 19 ]`, which fails where there is no number. -/
def isUltra (mode : String) : Bool :=
  match numeral mode.toList with
  | none => false
  | some number => 19 ≤ number

/-- How a pass through the loop ends: `return 0`, `return 1`, or the next pass. -/
inductive Verdict where
  | up
  | refused
  | again
  deriving DecidableEq, Repr

/-- A mode that is not the one wanted, to toggle through. -/
def altMode (mode : String) : String :=
  if mode = "11" then "2" else "11"

/-- `$((ALT + 1))`. -/
def altApplied (mode : String) : String :=
  if mode = "11" then "3" else "12"

/-- The toggle through another mode, where DisplayManager has no HDMI screen. -/
def toggle (ctl mode : String) (pass : Nat) : Script Unit := do
  let alt := altMode mode
  run (.xlog s!"attempt {pass}: display 1 absent after the mode set — toggling via res {alt}")
  run .unplugCable
  run (.hdmictl ctl (.res alt))
  settle 3 (do return (← run .resState) == altApplied mode)
  hdmiSetRes ctl mode 5

/-- What the session mode says. -/
def judge (mode : String) (pass : Nat) : Script Verdict := do
  settle 2 (run .mirroring)
  let smode ← run .sessionMode
  if smode = "4" then
    run (.xlog s!"HDMI mirror up (DECOUPLE_MIRROR, res={mode})")
    return .up
  else if smode = "1" ∧ isUltra mode = true then
    if ← sinkSupportsMode mode then
      run (.xlog s!"HDMI up (DIRECT_LINK, ultra res={mode})")
      return .up
    else
      run (.xlog (s!"attempt {pass}: res {mode} is ultra but the sink's EDID does not claim it" ++
        " — falling back"))
      return .refused
  else if smode = "" then
    run (.xlog s!"HDMI up, session mode unreadable — accepting (res={mode})")
    return .up
  else
    run (.xlog (s!"attempt {pass}: display 1 up but session mode is {smode}, not DECOUPLE_MIRROR" ++
      " — retrying"))
    return .again

def attempt (ctl mode : String) (pass : Nat) : Script Verdict := do
  settle 5 (run .hdmiScreen)
  onlyIf (!(← run .hdmiScreen)) (toggle ctl mode pass)
  if ← run .displayOne then
    if ← run .stackZero then
      judge mode pass
    else
      run (.xlog (s!"attempt {pass}: external display not mirroring stack 0 (keyguard?)" ++
        " — dismissing and retrying"))
      run .dismissKeyguard
      settle 2 (absent (run .keyguardShowing))
      return .again
  else
    run (.xlog s!"attempt {pass}: display 1 not registered — retrying")
    return .again

/-- `for try in ...`. -/
def attempts (ctl mode : String) : List Nat → Script Bool
  | [] => return false
  | pass :: rest => do
      match ← attempt ctl mode pass with
      | .up => return true
      | .refused => return false
      | .again => attempts ctl mode rest

def hdmiApplyMode (ctl mode : String) : Script Bool := do
  hdmiSetRes ctl mode 6
  attempts ctl mode [1, 2, 3]

/-- `for _fb in ...`. -/
def fallbacks (ctl want : String) : List String → Script Bool
  | [] => return false
  | fb :: rest => do
      if fb = want then
        fallbacks ctl want rest
      else
        run (.xlog (s!"mode {want} did not come up — falling back to {fb} for this session" ++
          " (setting kept)"))
        if ← hdmiApplyMode ctl fb then return true else fallbacks ctl want rest

def settingName : String := "persist.sys.xdplus.hdmi_res"

def mirrorState : String := "debug.hwc.mirror_state"

def blob : String := "/data/local/tmp/hwcomposer.patched.so"

def vblob : String := "/system/vendor/lib64/hw/hwcomposer.mt8173.so"

def vblobMd5 : String := "2959481b"

/-- Vsync pacing makes the external picture stutter. -/
def pace : Script Unit := do
  run (.setprop "debug.hwc.trigger_by_vsync" "0")
  run (.xlog "trigger_by_vsync=0 (default mirror pacing)")

/-- The mirror queue gate and the pacing, latched by a dump. -/
def openGate : Script Unit := do
  onlyIf ((← run (.getprop "persist.sys.xdplus.hdmi_force_validate")) != "0")
    (run (.xlog ("note: hdmi_force_validate is set; " ++
      "the external validates when it carries its own content")))
  run (.setprop mirrorState "1")
  onlyIf ((← run (.getprop "persist.sys.xdplus.hdmi_novsync")) != "0") pace
  run .dumpSurfaceFlinger

def wake : Script Unit := do
  run .wakeUp
  settle 1 (run .awake)

def dismiss : Script Unit := do
  run .dismissKeyguard
  settle 2 (absent (run .keyguardShowing))

/-- The keyguard gate. -/
def rouse : Script Unit := do
  onlyIf (!(← run .awake)) wake
  onlyIf (← run .keyguardShowing) dismiss

def switchOn (ctl : String) : Script Unit := do
  run (.hdmictl ctl (.switch .enable))
  run (.hdmictl ctl (.switch (.power true)))
  settle 3 (run .sinkReady)

def switchOff (ctl : String) : Script Unit := do
  run (.hdmictl ctl (.switch (.power false)))
  run (.hdmictl ctl (.switch .disable))

def safeTeardown (ctl want : String) : Script Unit := do
  run (.xlog s!"HDMI bringup FAILED at {want} and at every fallback — safe teardown")
  run .unplugCable
  switchOff ctl
  run (.setprop mirrorState "4")

/-- An unpatched blob in the vendor partition. -/
def patchVendor : Script Bool := do
  if ← run (.isFile blob) then
    onlyIf (← run (.bindMount blob vblob)) (run .killComposer)
    run (.xlog "unpatched vendor blob — bind-mounted + composer restarted, rerun after the bounce")
    return true
  else
    run (.xlog s!"unpatched vendor blob and no {blob} to fall back on — aborting")
    return false

/-- Every mode in turn, then the teardown. -/
def tryModes (ctl want : String) : Script Bool := do
  if ← hdmiApplyMode ctl want then
    return true
  else if ← fallbacks ctl want ["11", "2"] then
    return true
  else
    safeTeardown ctl want
    return false

/-- `true` is `return 0`. -/
def hdmiUp (ctl : String) : Script Bool := do
  let stored ← run (.getprop settingName)
  let want := if stored = "" then "11" else stored
  if ← run (.isExecutable ctl) then
    if ← run (.md5Is vblob vblobMd5) then
      openGate
      rouse
      run .chmod
      run (.xlog s!"kernel bringup (res={want})")
      switchOn ctl
      tryModes ctl want
    else
      patchVendor
  else
    run (.xlog s!"hdmictl missing ({ctl}) — image too old, stage it in /data/local/tmp")
    return false

def hdmiDown (ctl : String) : Script Bool := do
  onlyIf (← run (.isExecutable ctl)) (switchOff ctl)
  run (.setprop mirrorState "4")
  run (.xlog "HDMI torn down")
  return true

def imageCtl : String := "/system/bin/hdmictl"

def dataCtl : String := "/data/local/tmp/hdmictl"

def body (ctl : String) : Tweak → Script Bool
  | .hdmiUp => hdmiUp ctl
  | .hdmiDown => hdmiDown ctl

/-- Only `hdmi_down` may run before the framework is up. -/
def early : Tweak → Script Bool
  | .hdmiUp => do return (← run (.getprop "sys.boot_completed")) == "1"
  | .hdmiDown => return true

/-- The dispatcher, run with one of the two commands, and its exit status. -/
def xdplusTweaks (action : Tweak) : Script Nat := do
  let ctl := if ← run (.isExecutable imageCtl) then imageCtl else dataCtl
  if ← early action then
    let done ← body ctl action
    run (.setprop "sys.xdplus.action" "none")
    return if done then 0 else 1
  else
    run (.xlog "boot not completed — deferring 'hdmi_up'")
    run (.setprop "sys.xdplus.action" "none")
    return 0

end XdPlus.Hdmi.Bringup
