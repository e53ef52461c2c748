/- Module: XdPlus/Hdmi/MainLoop
   source: hdmi/xdplus_hdmid.c, main, run_tweaks
   digest: The main thread of the daemon, from one wait to the next. -/

import XdPlus.Hdmi.Uevents

set_option autoImplicit false
set_option relaxedAutoImplicit false

namespace XdPlus.Hdmi.MainLoop

open Uevents

def hdmiNoDevice : Int := 0

def hdmiActive : Int := 1

/-- The actions of `xdplus_tweaks` the daemon runs. -/
inductive Tweak where
  | hdmiUp
  | hdmiDown
  deriving DecidableEq, Repr

/-- Where the main thread is: before the first read of the attribute, in the outer or the inner
`poll`, before `read_hdmi_state`, and in `run_tweaks` before it has `g_lock` or waiting for the
child. -/
inductive Phase where
  | starting
  | polling
  | draining (bounced : Bool)
  | reading (bounced : Bool)
  | wanting (action : Tweak)
  | running (action : Tweak)
  deriving DecidableEq, Repr

/-- The locals of `main`. -/
structure Main where
  phase : Phase
  lastState : Int
  buf : Memory

/-- A `recv` after one of the two polls. -/
def Main.receive (m : Main) (u : Uevent) : Main :=
  let buf := received m.buf u.bytes
  let n := u.bytes.length
  match m.phase with
  | .polling =>
      if n = 0 then { m with buf := buf }
      else if isHdmiSwitchEvent buf n = false then { m with buf := buf }
      else { m with buf := buf, phase := .draining (hasStateZero buf n) }
  | .draining bounced =>
      if n = 0 then { m with buf := buf, phase := .reading bounced }
      else if isHdmiSwitchEvent buf n = true ∧ hasStateZero buf n = true then
        { m with buf := buf, phase := .draining true }
      else { m with buf := buf }
  | _ => m

/-- A `recv` that fails: the outer loop goes round, the inner one ends. -/
def Main.fail (m : Main) : Main :=
  match m.phase with
  | .polling => m
  | .draining bounced => { m with phase := .reading bounced }
  | _ => m

/-- The inner poll comes back without a uevent. -/
def Main.settle (m : Main) : Main :=
  match m.phase with
  | .draining bounced => { m with phase := .reading bounced }
  | _ => m

/-- `read_hdmi_state` gave `state`. -/
def Main.look (m : Main) (state : Int) : Main :=
  match m.phase with
  | .starting =>
      { m with
        lastState := state
        phase := if state = hdmiActive then .wanting .hdmiUp else .polling }
  | .reading bounced =>
      if state < 0 then { m with phase := .polling }
      else if state = m.lastState then
        if state = hdmiActive ∧ bounced = true then { m with phase := .wanting .hdmiUp }
        else { m with phase := .polling }
      else
        { m with
          lastState := state
          phase :=
            if state = hdmiActive then .wanting .hdmiUp
            else if state = hdmiNoDevice then .wanting .hdmiDown
            else .polling }
  | _ => m

/-- `run_tweaks` has the lock and its child. -/
def Main.start (m : Main) : Main :=
  match m.phase with
  | .wanting action => { m with phase := .running action }
  | _ => m

/-- The child is gone. -/
def Main.finish (m : Main) : Main :=
  match m.phase with
  | .running _ => { m with phase := .polling }
  | _ => m

/-- The main thread can take a message from the socket. -/
def Phase.listens : Phase → Bool
  | .polling | .draining _ => true
  | _ => false

/-- The main thread reads the attribute next. -/
def Phase.looks : Phase → Bool
  | .starting | .reading _ => true
  | _ => false

section Steps

variable {m : Main} {u : Uevent}

private theorem bytes_ne_nil (named : switchName ∈ u.records) : u.bytes.length ≠ 0 := by
  intro none_there
  have empty : encode u.records = [] := List.length_eq_zero_iff.mp none_there
  obtain ⟨before, after, split⟩ := List.append_of_mem named
  simp [encode, split] at empty

theorem receive_polling (phase : m.phase = .polling) :
    (m.receive u).lastState = m.lastState ∧
      (m.receive u).phase = if switchName ∈ u.records then
        .draining (decide (stateZero ∈ u.records)) else .polling := by
  unfold Main.receive
  simp only [phase, isHdmiSwitchEvent_received, hasStateZero_received]
  by_cases named : switchName ∈ u.records
  · simp [bytes_ne_nil named, named]
  · simp only [named, decide_false, if_true, if_false]
    split_ifs <;> exact ⟨rfl, rfl⟩

theorem receive_draining {bounced : Bool} (phase : m.phase = .draining bounced) :
    (m.receive u).lastState = m.lastState ∧ ∃ bounced',
      ((m.receive u).phase = .draining bounced' ∨ (m.receive u).phase = .reading bounced') ∧
        (bounced = true ∨ switchName ∈ u.records ∧ stateZero ∈ u.records → bounced' = true) := by
  unfold Main.receive
  simp only [phase, isHdmiSwitchEvent_received, hasStateZero_received, decide_eq_true_eq]
  by_cases empty : u.bytes.length = 0
  · rw [if_pos empty]
    refine ⟨rfl, bounced, .inr rfl, ?_⟩
    rintro (was | ⟨named, -⟩)
    · exact was
    · exact absurd empty (bytes_ne_nil named)
  · rw [if_neg empty]
    by_cases zero : switchName ∈ u.records ∧ stateZero ∈ u.records
    · rw [if_pos zero]
      exact ⟨rfl, true, .inl rfl, fun _ => rfl⟩
    · rw [if_neg zero]
      exact ⟨rfl, bounced, .inl rfl, fun either => either.resolve_right zero⟩

theorem look_not_running (state : Int) (looks : m.phase.looks = true) (action : Tweak) :
    (m.look state).phase ≠ .running action := by
  cases phase : m.phase with
  | starting =>
      simp only [Main.look, phase]
      split_ifs <;> simp
  | reading bounced =>
      simp only [Main.look, phase]
      split_ifs <;> simp
  | _ => simp [phase, Phase.looks] at looks

end Steps

end XdPlus.Hdmi.MainLoop
