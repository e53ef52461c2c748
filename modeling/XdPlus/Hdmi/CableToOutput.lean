/- Module: XdPlus/Hdmi/CableToOutput
   source: hdmi/xdplus_hdmid.c, main, run_tweaks; rootdir/system/bin/xdplus_tweaks
   digest: The daemon with the dispatcher it runs: what the output is, by where the cable is. -/

import XdPlus.Hdmi.BringupOutcome
import XdPlus.Hdmi.Transitions

/-!
A dispatcher run is one step, taken where the daemon waits for its child; what the switch does
meanwhile are changes before it and after it. The output is never switched off by the timer, and
the mode may be stored anew at any time.
-/

set_option autoImplicit false
set_option relaxedAutoImplicit false

namespace XdPlus.Hdmi.CableToOutput

open XdPlus.Base Uevents MainLoop SleepWake Bringup BringupOutcome

structure System where
  daemon : Transitions.State
  phone : Phone

inductive Action where
  | daemon (a : Transitions.Action)
  | dispatch (status : Nat)
  | store (setting : String)

/-- Switched off, and the mirror queue gate not open. -/
def Off (o : Output) : Prop := o.enabled = false ∧ o.powered = false ∧ o.mirror ≠ "1"

/-- In a mode that was checked after it was set. -/
def Showing (present : String → Bool) (p : Phone) : Prop :=
  Ready p.output ∧ present (tool present) = true ∧
    ∃ mode, p.output.mode = some mode ∧ Judged mode p.seen

def system (present : String → Bool) : Machine System Action where
  init s := Transitions.daemon.init s.daemon ∧ Off s.phone.output
  step s a s' :=
    match a with
    | .daemon a => a ≠ .finish ∧ Transitions.daemon.step s.daemon a s'.daemon ∧
        s'.phone = s.phone
    | .dispatch status => ∃ action, s.daemon.main.phase = .running action ∧
        Transitions.daemon.step s.daemon .finish s'.daemon ∧
        (xdplusTweaks action).Runs (phone present) s.phone status s'.phone
    | .store setting => s' = { s with phone := { s.phone with setting := setting } }

section Steps

variable {present : String → Bool} {s s' : System}

/-- The daemon does not notice whose child it waits for. -/
theorem daemon_reachable (reach : (system present).Reachable s) :
    Transitions.daemon.Reachable s.daemon := by
  induction reach with
  | start init => exact .start init.1
  | @next _ _ a _ step ih =>
      cases a with
      | daemon a => exact ih.next step.2.1
      | dispatch status =>
          obtain ⟨action, -, step, -⟩ := step
          exact ih.next step
      | store setting =>
          obtain rfl := step
          exact ih

private theorem running_step {t t' : Transitions.State} {a : Transitions.Action}
    (step : Transitions.daemon.step t a t') :
    a = .finish ∨
      (∃ action, t'.main.phase = .running action ∧
        Transitions.latest t'.history = some action) ∨
      Transitions.latest t'.history = Transitions.latest t.history ∧
        ∀ action, t'.main.phase = .running action ↔ t.main.phase = .running action := by
  cases a with
  | set on =>
      obtain rfl := step
      exact .inr (.inr ⟨rfl, fun _ => Iff.rfl⟩)
  | enqueue on u =>
      obtain ⟨-, -, rfl⟩ := step
      exact .inr (.inr ⟨rfl, fun _ => Iff.rfl⟩)
  | other u =>
      obtain ⟨-, rfl⟩ := step
      exact .inr (.inr ⟨rfl, fun _ => Iff.rfl⟩)
  | receive =>
      obtain ⟨listens, u, rest, -, rfl⟩ := step
      refine .inr (.inr ⟨rfl, fun action => ?_⟩)
      cases phase : t.main.phase with
      | polling =>
          rw [(receive_polling phase).2]
          split_ifs <;> simp
      | draining bounced =>
          obtain ⟨-, bounced', draining | reading, -⟩ := receive_draining (u := u) phase
          · simp [draining]
          · simp [reading]
      | _ => simp [phase, Phase.listens] at listens
  | settle =>
      obtain ⟨⟨bounced, phase⟩, rfl⟩ := step
      refine .inr (.inr ⟨rfl, fun action => ?_⟩)
      simp [Main.settle, phase]
  | look =>
      obtain ⟨looks, rfl⟩ := step
      refine .inr (.inr ⟨rfl, fun action => ?_⟩)
      constructor
      · exact fun running => absurd running (look_not_running _ looks action)
      · intro running
        simp [running, Phase.looks] at looks
  | start =>
      obtain ⟨action, phase, rfl⟩ := step
      refine .inr (.inl ⟨action, ?_, rfl⟩)
      simp [Main.start, phase]
  | finish => exact .inl rfl

private theorem parked : "4" ≠ "1" := by decide

private theorem outcome_whole {p p' : Phone} {action : Tweak} {status : Nat}
    (outcome : Outcome present p p' action status) (whole : Off p.output ∨ Showing present p) :
    (Off p'.output ∨ Showing present p') ∧ (action = .hdmiDown → Off p'.output) := by
  cases outcome with
  | notBegun same =>
      rw [same]
      exact ⟨whole, fun down => by cases down⟩
  | @up mode _ output judged there =>
      refine ⟨.inr ⟨?_, there, mode, ?_, judged⟩, fun down => by cases down⟩
      · rw [output]
        exact ⟨rfl, rfl, rfl, rfl⟩
      · rw [output]
  | failed output =>
      refine ⟨.inl ?_, fun down => by cases down⟩
      rw [output]
      exact ⟨rfl, rfl, parked⟩
  | down output =>
      have off : Off p'.output := by
        rw [output]
        exact ⟨rfl, rfl, parked⟩
      exact ⟨.inl off, fun _ => off⟩
  | missing absent output =>
      have off : Off p'.output := by
        rcases whole with off | showing
        · rw [output]
          exact ⟨off.1, off.2.1, parked⟩
        · cases absent.symm.trans showing.2.1
      exact ⟨.inl off, fun _ => off⟩

/-- What every state keeps. -/
structure Inv (present : String → Bool) (s : System) : Prop where
  whole : Off s.phone.output ∨ Showing present s.phone
  runs : ∀ action, s.daemon.main.phase = .running action →
    Transitions.latest s.daemon.history = some action
  down : (∀ action, s.daemon.main.phase ≠ .running action) →
    Transitions.latest s.daemon.history ≠ some .hdmiUp → Off s.phone.output

private theorem inv_daemon (inv : Inv present s) {a : Transitions.Action}
    (other : a ≠ .finish) (step : Transitions.daemon.step s.daemon a s'.daemon)
    (phone : s'.phone = s.phone) : Inv present s' := by
  obtain finish | ⟨action, running, last⟩ | ⟨last, same⟩ := running_step step
  · exact absurd finish other
  · refine ⟨phone ▸ inv.whole, fun action' running' => ?_, fun idle => ?_⟩
    · cases running.symm.trans running'
      exact last
    · exact absurd running (idle action)
  · refine ⟨phone ▸ inv.whole, fun action running => ?_, fun idle not_up => ?_⟩
    · rw [last]
      exact inv.runs action ((same action).mp running)
    · rw [last] at not_up
      rw [phone]
      exact inv.down (fun action running => idle action ((same action).mpr running)) not_up

private theorem inv_dispatch (inv : Inv present s) {action : Tweak} {status : Nat}
    (running : s.daemon.main.phase = .running action)
    (step : Transitions.daemon.step s.daemon .finish s'.daemon)
    (ran : (xdplusTweaks action).Runs (phone present) s.phone status s'.phone) :
    Inv present s' := by
  obtain ⟨whole, off⟩ := outcome_whole ((does_xdplusTweaks action s.phone).of_runs ran).2 inv.whole
  obtain ⟨-, finished⟩ := step
  have phase : s'.daemon.main.phase = .polling := by
    rw [finished]
    simp [Main.finish, running]
  have last : Transitions.latest s'.daemon.history = some action := by
    rw [finished]
    exact inv.runs action running
  refine ⟨whole, fun _ running' => ?_, fun _ not_up => off ?_⟩
  · cases phase.symm.trans running'
  · cases action with
    | hdmiUp => exact absurd last not_up
    | hdmiDown => rfl

theorem inv_reachable (reach : (system present).Reachable s) : Inv present s := by
  apply reach.invariant
  · intro s init
    obtain ⟨⟨-, starting, -⟩, off⟩ := init
    refine ⟨.inl off, fun _ running => ?_, fun _ _ => off⟩
    cases starting.symm.trans running
  · intro s a s' _ inv step
    cases a with
    | daemon a => exact inv_daemon inv step.1 step.2.1 step.2.2
    | dispatch status =>
        obtain ⟨action, running, step, ran⟩ := step
        exact inv_dispatch inv running step ran
    | store setting =>
        obtain rfl := step
        exact ⟨inv.whole, inv.runs, inv.down⟩

/-- Between dispatcher runs the output is never half up. When the daemon waits for a uevent and no
change of the switch is on its way, it is off if the cable is out; if the cable is in, the latest
run was a bring-up. -/
theorem output_follows_cable (reach : (system present).Reachable s) :
    (Off s.phone.output ∨ Showing present s.phone) ∧
      (s.daemon.main.phase = .polling → ¬ Transitions.Alert s.daemon →
        (s.daemon.attr = false → Off s.phone.output) ∧
        (s.daemon.attr = true → Transitions.latest s.daemon.history = some .hdmiUp)) := by
  have inv := inv_reachable reach
  have daemon := Transitions.inv_reachable (daemon_reachable reach)
  refine ⟨inv.whole, fun polling calm => ?_⟩
  have read := daemon.reads.resolve_left calm
  have follows := daemon.follows
  simp only [Transitions.Follows, polling, read, Transitions.Matches] at follows
  constructor
  · intro out
    apply inv.down
    · intro action running
      cases polling.symm.trans running
    · rw [out] at follows
      rcases follows with ⟨up, -⟩ | ⟨-, none_yet | down⟩
      · cases up
      · simp [none_yet]
      · simp [down]
  · intro plugged
    rw [plugged] at follows
    rcases follows with ⟨-, up⟩ | ⟨down, -⟩
    · exact up
    · cases down

end Steps

/-! The cable is in at the start, the bring-up falls back to 1080p, then the cable comes off. -/

def System.permits (s : System) : Action → Bool
  | .daemon .finish => false
  | .daemon a => s.daemon.permits a
  | .dispatch status =>
      match s.daemon.main.phase with
      | .running action => ((xdplusTweaks action).eval fullHd s.phone).1 == status
      | _ => false
  | .store _ => true

def System.next (s : System) : Action → System
  | .daemon a => { s with daemon := s.daemon.next a }
  | .dispatch _ =>
      match s.daemon.main.phase with
      | .running action =>
          ⟨s.daemon.next .finish, ((xdplusTweaks action).eval fullHd s.phone).2⟩
      | _ => s
  | .store setting => { s with phone := { s.phone with setting := setting } }

theorem next_step (s : System) (a : Action) (permitted : s.permits a = true) :
    (system fun _ => true).step s a (s.next a) := by
  cases a with
  | daemon a =>
      have other : a ≠ .finish := by
        rintro rfl
        cases permitted
      have allowed : s.daemon.permits a = true := by
        cases a
        case finish => exact absurd rfl other
        all_goals exact permitted
      exact ⟨other, Transitions.next_step s.daemon a allowed, rfl⟩
  | dispatch status =>
      cases phase : s.daemon.main.phase with
      | running action =>
          have finish : s.daemon.permits .finish = true := by
            simp [Transitions.State.permits, phase]
          have exit : ((xdplusTweaks action).eval fullHd s.phone).1 = status := by
            simpa [System.permits, phase] using permitted
          have next : s.next (.dispatch status) =
              ⟨s.daemon.next .finish, ((xdplusTweaks action).eval fullHd s.phone).2⟩ := by
            simp only [System.next, phase]
          rw [next]
          refine ⟨action, phase, Transitions.next_step s.daemon .finish finish, ?_⟩
          rw [← exit]
          exact Prog.runs_eval fullHd_phone _ _
      | _ => simp [System.permits, phase] at permitted
  | store setting => rfl

def unplugging : List Action :=
  [.daemon .look, .daemon .start, .dispatch 0, .daemon (.set false),
    .daemon (.enqueue false (switchUevent false)), .daemon .receive, .daemon .settle,
    .daemon .look, .daemon .start, .dispatch 0]

theorem output_follows_cable_unplugging : ∃ s, (system fun _ => true).Reachable s ∧
    s.phone.output.poked = script .hdmiUp ++ script .hdmiDown ∧ Off s.phone.output := by
  have ran : (Machine.follow System.next System.permits ⟨Transitions.plugged, ultraStored⟩
      unplugging).map (fun s => (s.daemon.main.phase, s.daemon.attr, s.daemon.queue.length,
        s.daemon.halfDone, s.phone.output.poked)) =
          some (.polling, false, 0, [], script .hdmiUp ++ script .hdmiDown) := by decide +kernel
  obtain ⟨s, ends, facts⟩ := Option.map_eq_some_iff.mp ran
  simp only [Prod.mk.injEq, List.length_eq_zero_iff] at facts
  obtain ⟨waits, out, empty, settled, poked⟩ := facts
  have reach : (system fun _ => true).Reachable s :=
    Machine.Reachable.follow (.start ⟨⟨rfl, rfl, rfl⟩, rfl, rfl, by decide⟩) next_step unplugging
      ends
  have calm : ¬ Transitions.Alert s.daemon := by
    simp [Transitions.Alert, settled, empty, waits, Phase.looks]
  exact ⟨s, reach, poked, ((output_follows_cable reach).2 waits calm).1 out⟩

end XdPlus.Hdmi.CableToOutput
