/- Module: XdPlus/Hdmi/Overruns
   source: hdmi/xdplus_hdmid.c, main, the recv that fails
   digest: A socket buffer that overflows: what the daemon misses, and when it does not. -/

import XdPlus.Hdmi.Transitions

/-!
When the socket buffer is full the kernel drops what is sent, and the next `recv` fails with
ENOBUFS, before or between the messages that are still there. There may be many such overflows
in one run.
-/

set_option autoImplicit false
set_option relaxedAutoImplicit false

namespace XdPlus.Hdmi.Overruns

open XdPlus.Base Uevents MainLoop

/-- The daemon and its socket: `overrun` while a failure is still to be reported. The code does
not know `seen`, the attribute as it was when it was read last. -/
structure State where
  loop : Transitions.State
  overrun : Bool
  seen : Bool

/-- The uevent of a change of the switch is dropped, or that of another driver, and the `recv`
that reports it fails. -/
inductive Action where
  | act (a : Transitions.Action)
  | lose (on : Bool)
  | loseOther
  | fail

def daemon : Machine State Action where
  init s := Transitions.daemon.init s.loop ∧ s.overrun = false
  step s a s' :=
    match a with
    | .act .look => Transitions.daemon.step s.loop .look s'.loop ∧
        s'.overrun = s.overrun ∧ s'.seen = s.loop.attr
    | .act a => Transitions.daemon.step s.loop a s'.loop ∧
        s'.overrun = s.overrun ∧ s'.seen = s.seen
    | .lose on => on ∈ s.loop.halfDone ∧
        s' = { s with
          loop := { s.loop with halfDone := s.loop.halfDone.erase on }
          overrun := true }
    | .loseOther => s' = { s with overrun := true }
    | .fail => s.overrun = true ∧ s.loop.main.phase.listens = true ∧
        s' = { s with
          loop := { s.loop with main := s.loop.main.fail }
          overrun := false }

/-- The main thread is about to wait, with nothing to wake it and no change half done. -/
def State.Blocks (s : State) : Prop :=
  s.loop.main.phase = .polling ∧ s.loop.queue = [] ∧ s.overrun = false ∧ s.loop.halfDone = []

/-- It has acted on the attribute as it is. -/
def State.UpToDate (s : State) : Prop := s.loop.main.lastState = stateOf s.loop.attr

/-- A `recv` of the outer loop fails only where the attribute is as it was read last, or where
the switch will still be heard of. -/
def Forgiving (s : State) : Action → Prop
  | .fail => s.loop.main.phase = .polling →
      s.loop.attr = s.seen ∨ s.loop.halfDone ≠ [] ∨ ∃ u ∈ s.loop.queue, switchName ∈ u.records
  | _ => True

private theorem lastState_step {s s' : Transitions.State} {a : Transitions.Action}
    (step : Transitions.daemon.step s a s') (other : a ≠ .look) :
    s'.main.lastState = s.main.lastState ∧
      (s.main.phase = .starting → s'.main.phase = .starting) := by
  cases a with
  | set on =>
      obtain rfl : s' = _ := step
      exact ⟨rfl, id⟩
  | enqueue on u =>
      obtain ⟨-, -, rfl⟩ := step
      exact ⟨rfl, id⟩
  | other u =>
      obtain ⟨-, rfl⟩ := step
      exact ⟨rfl, id⟩
  | receive =>
      obtain ⟨listens, u, rest, -, rfl⟩ := step
      cases phase : s.main.phase with
      | polling => exact ⟨(receive_polling phase).1, fun starting => by cases starting⟩
      | draining bounced => exact ⟨(receive_draining phase).1, fun starting => by cases starting⟩
      | _ => simp [phase, Phase.listens] at listens
  | settle =>
      obtain ⟨⟨bounced, phase⟩, rfl⟩ := step
      simp [Main.settle, phase]
  | look => exact absurd rfl other
  | start =>
      obtain ⟨action, phase, rfl⟩ := step
      simp [Main.start, phase]
  | finish =>
      obtain ⟨⟨action, phase⟩, rfl⟩ := step
      simp [Main.finish, phase]

private theorem fail_spec (m : Main) :
    m.fail.lastState = m.lastState ∧
      (m.fail.phase = m.phase ∨ m.fail.phase.looks = true ∧ m.phase ≠ .starting) := by
  unfold Main.fail
  split
  · exact ⟨rfl, .inl rfl⟩
  · next bounced phase => exact ⟨rfl, .inr ⟨rfl, by simp [phase]⟩⟩
  · exact ⟨rfl, .inl rfl⟩

/-- After the first read `last_state` is what was seen last. -/
def State.Remembers (s : State) : Prop :=
  s.loop.main.phase = .starting ∨ s.loop.main.lastState = stateOf s.seen

private theorem remembers_act {s s' : State} {a : Transitions.Action} (remembers : s.Remembers)
    (step : Transitions.daemon.step s.loop a s'.loop) (other : a ≠ .look)
    (seen : s'.seen = s.seen) : s'.Remembers := by
  obtain ⟨same, starting⟩ := lastState_step step other
  rcases remembers with before | last
  · exact .inl (starting before)
  · exact .inr (by rw [same, last, seen])

private theorem remembers_step {s s' : State} {a : Action} (remembers : s.Remembers)
    (step : daemon.step s a s') : s'.Remembers := by
  cases a with
  | act a =>
      cases a with
      | look =>
          obtain ⟨⟨looks, loop⟩, -, seen⟩ := step
          refine .inr ?_
          rw [loop, seen, readHdmiState_switchText]
          exact Transitions.look_lastState looks s.loop.attr
      | set on => exact remembers_act remembers step.1 (by simp) step.2.2
      | enqueue on u => exact remembers_act remembers step.1 (by simp) step.2.2
      | other u => exact remembers_act remembers step.1 (by simp) step.2.2
      | receive => exact remembers_act remembers step.1 (by simp) step.2.2
      | settle => exact remembers_act remembers step.1 (by simp) step.2.2
      | start => exact remembers_act remembers step.1 (by simp) step.2.2
      | finish => exact remembers_act remembers step.1 (by simp) step.2.2
  | lose on =>
      obtain ⟨-, rfl⟩ := step
      exact remembers
  | loseOther =>
      obtain rfl : s' = _ := step
      exact remembers
  | fail =>
      obtain ⟨-, -, rfl⟩ := step
      obtain ⟨same, phase⟩ := fail_spec s.loop.main
      rcases remembers with before | last
      · rcases phase with same_phase | ⟨-, not_starting⟩
        · exact .inl (same_phase.trans before)
        · exact absurd before not_starting
      · exact .inr (same.trans last)

theorem reachable_remembers {s : State} (reach : daemon.Reachable s) : s.Remembers :=
  reach.invariant (fun _ init => .inl init.1.2.1) fun _ _ _ _ => remembers_step

/-- The daemon is up to date, or will hear of it. -/
def State.Informed (s : State) : Prop :=
  s.overrun = true ∨ Transitions.Alert s.loop ∨ s.UpToDate

private theorem informed_act {s s' : State} {a : Transitions.Action} (informed : s.Informed)
    (step : Transitions.daemon.step s.loop a s'.loop) (overrun : s'.overrun = s.overrun) :
    s'.Informed := by
  rcases informed with pending | reads
  · exact .inl (overrun.trans pending)
  · exact .inr (Transitions.reads_step step reads)

private theorem informed_fail {s : State} (remembers : s.Remembers)
    (listens : s.loop.main.phase.listens = true) (forgiving : Forgiving s .fail) :
    State.Informed { s with
      loop := { s.loop with main := s.loop.main.fail }
      overrun := false } := by
  refine .inr ?_
  cases phase : s.loop.main.phase with
  | polling =>
      have unchanged : s.loop.main.fail = s.loop.main := by simp [Main.fail, phase]
      rw [unchanged]
      rcases forgiving phase with same | half | queued
      · right
        rcases remembers with starting | last
        · cases phase.symm.trans starting
        · show s.loop.main.lastState = stateOf s.loop.attr
          rw [last, same]
      · exact .inl (.inl half)
      · exact .inl (.inr (.inl queued))
  | draining bounced =>
      refine .inl (.inr (.inr (.inl ?_)))
      simp only [Main.fail, phase, Phase.looks]
  | _ => simp [phase, Phase.listens] at listens

private theorem informed_step {s s' : State} {a : Action} (remembers : s.Remembers)
    (informed : s.Informed) (step : daemon.step s a s') (forgiving : Forgiving s a) :
    s'.Informed := by
  cases a with
  | act a => cases a <;> exact informed_act informed step.1 step.2.1
  | lose on =>
      obtain ⟨-, rfl⟩ := step
      exact .inl rfl
  | loseOther =>
      obtain rfl : s' = _ := step
      exact .inl rfl
  | fail =>
      obtain ⟨-, listens, rfl⟩ := step
      exact informed_fail remembers listens forgiving

/-- Where no `recv` of the outer loop fails with a change behind it that will not be heard of,
the daemon never waits with a `last_state` that is not the attribute. -/
theorem overruns_forgiven {s : State} (reach : (daemon.guarded Forgiving).Reachable s)
    (blocks : s.Blocks) : s.UpToDate := by
  have informed : s.Informed := by
    apply reach.invariant
    · intro s init
      refine .inr (.inl (.inr (.inr (.inl ?_))))
      rw [init.1.2.1]
      rfl
    · intro s a t reach informed step
      exact informed_step (reachable_remembers reach.of_guarded) informed step.1 step.2
  obtain ⟨waits, empty, quiet, settled⟩ := blocks
  rcases informed with pending | alert | read
  · rw [quiet] at pending
    cases pending
  · rcases alert with half | ⟨u, queued, -⟩ | looks | ⟨bounced, draining⟩
    · exact absurd settled half
    · rw [empty] at queued
      cases queued
    · simp [waits, Phase.looks] at looks
    · cases waits.symm.trans draining
  · exact read

private theorem reachable_drained {s : State} (reach : daemon.Reachable s)
    (waits : s.loop.main.phase = .polling) (quiet : s.overrun = false)
    (settled : s.loop.halfDone = []) (others : ∀ u ∈ s.loop.queue, switchName ∉ u.records) :
    ∃ t, daemon.Reachable t ∧ t.Blocks ∧ t.loop.attr = s.loop.attr ∧
      t.loop.main.lastState = s.loop.main.lastState := by
  generalize length : s.loop.queue.length = n
  induction n generalizing s with
  | zero =>
      have empty : s.loop.queue = [] := List.length_eq_zero_iff.mp length
      exact ⟨s, reach, ⟨waits, empty, quiet, settled⟩, rfl, rfl⟩
  | succ n ih =>
      obtain ⟨u, rest, queue⟩ := List.exists_cons_of_length_eq_add_one length
      obtain ⟨same, phase⟩ := receive_polling (u := u) waits
      rw [if_neg (others u (by simp [queue]))] at phase
      have received : daemon.Reachable { s with
          loop := { s.loop with queue := rest, main := s.loop.main.receive u } } := by
        refine reach.next (l := .act .receive) ⟨⟨?_, u, rest, queue, rfl⟩, rfl, rfl⟩
        rw [waits]
        rfl
      have fewer : ∀ u ∈ rest, switchName ∉ u.records := fun u later =>
        others u (by simp [queue, later])
      obtain ⟨t, reach', blocks, attr, last⟩ := ih received phase quiet settled fewer
        (by simpa [queue] using length)
      exact ⟨t, reach', blocks, attr, last.trans same⟩

/-- Any other failure of the outer `recv` strands the daemon: it comes to wait with a `last_state`
that is not the attribute. -/
theorem overrun_strands {s s' : State} (reach : daemon.Reachable s)
    (step : daemon.step s .fail s') (unforgiving : ¬ Forgiving s .fail) :
    ∃ t, daemon.Reachable t ∧ t.Blocks ∧ ¬ t.UpToDate := by
  simp only [Forgiving, not_forall, not_or, not_not] at unforgiving
  obtain ⟨waits, changed, settled, unheard⟩ := unforgiving
  have failed := reach.next step
  obtain ⟨-, -, rfl⟩ := step
  have unchanged : s.loop.main.fail = s.loop.main := by simp [Main.fail, waits]
  simp only [unchanged] at failed
  have others : ∀ u ∈ s.loop.queue, switchName ∉ u.records := fun u queued named =>
    unheard ⟨u, queued, named⟩
  obtain ⟨t, reach', blocks, attr, last⟩ := reachable_drained failed waits rfl settled others
  refine ⟨t, reach', blocks, fun current => changed ?_⟩
  have remembered : s.loop.main.lastState = stateOf s.seen := by
    rcases reachable_remembers reach with starting | remembered
    · cases waits.symm.trans starting
    · exact remembered
  have equal : stateOf s.loop.attr = stateOf s.seen := by
    rw [← attr, ← remembered, ← current]
    exact last
  revert equal
  cases s.loop.attr <;> cases s.seen <;> simp [stateOf]

instance (s : State) : (a : Action) → Decidable (Forgiving s a)
  | .fail => inferInstanceAs (Decidable (_ → _ ∨ _ ∨ _))
  | .act _ | .lose _ | .loseOther => .isTrue trivial

def State.permits (s : State) : Action → Bool
  | .act a => s.loop.permits a
  | .lose on => decide (on ∈ s.loop.halfDone)
  | .loseOther => true
  | .fail => s.overrun && s.loop.main.phase.listens

def State.next (s : State) : Action → State
  | .act .look => ⟨s.loop.next .look, s.overrun, s.loop.attr⟩
  | .act a => { s with loop := s.loop.next a }
  | .lose on =>
      { s with
        loop := { s.loop with halfDone := s.loop.halfDone.erase on }
        overrun := true }
  | .loseOther => { s with overrun := true }
  | .fail =>
      { s with
        loop := { s.loop with main := s.loop.main.fail }
        overrun := false }

private theorem daemon_next (s : State) (a : Action) (permitted : s.permits a = true) :
    daemon.step s a (s.next a) := by
  cases a with
  | act a => cases a <;> exact ⟨Transitions.next_step s.loop _ permitted, rfl, rfl⟩
  | lose on => exact ⟨by simpa [State.permits] using permitted, rfl⟩
  | loseOther => exact rfl
  | fail =>
      obtain ⟨overrun, listens⟩ : s.overrun = true ∧ s.loop.main.phase.listens = true := by
        simpa [State.permits] using permitted
      exact ⟨overrun, listens, rfl⟩

/-- The cable is there at the start. -/
def plugged : State := ⟨Transitions.plugged, false, false⟩

private theorem init_plugged : daemon.init plugged := ⟨⟨rfl, rfl, rfl⟩, rfl⟩

/-- What the main thread sees of a state. -/
private def State.view (s : State) : Phase × Nat × Bool × List Bool × Int × Bool :=
  (s.loop.main.phase, s.loop.queue.length, s.overrun, s.loop.halfDone, s.loop.main.lastState,
    s.loop.attr)

private theorem blocks_of_view {s : State} {last : Int} {on : Bool}
    (view : s.view = (.polling, 0, false, [], last, on)) :
    s.Blocks ∧ s.loop.main.lastState = last ∧ s.loop.attr = on := by
  simp only [State.view, Prod.mk.injEq, List.length_eq_zero_iff] at view
  obtain ⟨waits, empty, quiet, settled, last, on⟩ := view
  exact ⟨⟨waits, empty, quiet, settled⟩, last, on⟩

/-- What the battery sends. -/
def batteryUevent : Uevent := ⟨["SUBSYSTEM=power_supply".toList], by decide, by decide⟩

/-- The cable comes off while the dispatcher runs and the buffer is full; the outer `recv` is told,
and then there is one message of another driver. -/
def unplugged : List Action :=
  [.act .look, .act .start, .act (.other batteryUevent), .act (.set false), .lose false,
    .act .finish, .fail, .act .receive]

/-- The daemon waits with `last_state` 1 and no cable. -/
theorem overrun_unplugged : ∃ s, daemon.Reachable s ∧ s.Blocks ∧ ¬ s.UpToDate := by
  have ran : (Machine.follow State.next State.permits plugged unplugged).map State.view =
      some (.polling, 0, false, [], 1, false) := by decide +kernel
  obtain ⟨s, ends, view⟩ := Option.map_eq_some_iff.mp ran
  obtain ⟨blocks, last, off⟩ := blocks_of_view view
  refine ⟨s, Machine.Reachable.follow (.start init_plugged) daemon_next unplugged ends, blocks, ?_⟩
  rw [State.UpToDate, last, off]
  decide

/-- The outer `recv` is told of an overflow before the cable comes off, while it comes off, and
with its uevent in the queue; the cable comes on again, and the inner `recv` is told of that
uevent's loss. -/
def bounced : List Action :=
  [.act .look, .act .start, .act .finish, .loseOther, .fail, .act (.set false), .loseOther, .fail,
    .act (.enqueue false (switchUevent false)), .loseOther, .fail, .act .receive,
    .act (.set true), .lose true, .fail, .act .look, .act .start, .act .finish]

theorem overruns_forgiven_bounced : ∃ s, (daemon.guarded Forgiving).Reachable s ∧ s.Blocks ∧
    s.loop.attr = true ∧ s.UpToDate := by
  have ran : (Machine.follow State.next (fun s a => s.permits a && decide (Forgiving s a)) plugged
      bounced).map State.view = some (.polling, 0, false, [], 1, true) := by decide +kernel
  obtain ⟨s, ends, view⟩ := Option.map_eq_some_iff.mp ran
  obtain ⟨blocks, -, on⟩ := blocks_of_view view
  have reach : (daemon.guarded Forgiving).Reachable s := by
    refine Machine.Reachable.follow (.start init_plugged) (fun s a permitted => ?_) bounced ends
    obtain ⟨permitted, forgiving⟩ : s.permits a = true ∧ Forgiving s a := by simpa using permitted
    exact ⟨daemon_next s a permitted, forgiving⟩
  exact ⟨s, reach, blocks, on, overruns_forgiven reach blocks⟩

end XdPlus.Hdmi.Overruns
