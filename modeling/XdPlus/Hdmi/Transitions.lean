/- Module: XdPlus/Hdmi/Transitions
   source: hdmi/xdplus_hdmid.c, main
   digest: However uevents and reads of the attribute fall, the daemon ends up where the cable
     is. -/

import XdPlus.Base.Machine
import XdPlus.Hdmi.MainLoop

/-!
The switch first sets its attribute and then sends its uevent; `halfDone` are the changes in
between. What the dispatcher and the timer do to the switch are changes like any other. The
history is written as things happen, the newest first, and nothing reads it.
-/

set_option autoImplicit false
set_option relaxedAutoImplicit false

namespace XdPlus.Hdmi.Transitions

open XdPlus.Base Uevents MainLoop

inductive Happening where
  | enqueued (on : Bool)
  | began (action : Tweak)
  deriving DecidableEq, Repr

structure State where
  attr : Bool
  halfDone : List Bool
  queue : List Uevent
  main : Main
  history : List Happening

/-- The switch changes and sends its uevent, another driver sends one, or the main thread goes
on. -/
inductive Action where
  | set (on : Bool)
  | enqueue (on : Bool) (u : Uevent)
  | other (u : Uevent)
  | receive
  | settle
  | look
  | start
  | finish

/-- The dispatcher run that began last. -/
def latest : List Happening → Option Tweak
  | [] => none
  | .began action :: _ => some action
  | .enqueued _ :: before => latest before

/-- What was sent after that. -/
def sinceLatest : List Happening → List Bool
  | [] => []
  | .began _ :: _ => []
  | .enqueued on :: before => on :: sinceLatest before

/-- No `recv`, `fork` or read of the attribute fails. -/
def daemon : Machine State Action where
  init s := s.queue = [] ∧ s.main.phase = .starting ∧ s.history = []
  step s a s' :=
    match a with
    | .set on => s' = { s with attr := on, halfDone := on :: s.halfDone }
    | .enqueue on u => on ∈ s.halfDone ∧ u.Reports on ∧
        s' = { s with
          halfDone := s.halfDone.erase on
          queue := s.queue ++ [u]
          history := .enqueued on :: s.history }
    | .other u => switchName ∉ u.records ∧ s' = { s with queue := s.queue ++ [u] }
    | .receive => s.main.phase.listens = true ∧ ∃ u rest, s.queue = u :: rest ∧
        s' = { s with queue := rest, main := s.main.receive u }
    | .settle => (∃ bounced, s.main.phase = .draining bounced) ∧
        s' = { s with main := s.main.settle }
    | .look => s.main.phase.looks = true ∧
        s' = { s with main := s.main.look (readHdmiState (some (switchText s.attr))) }
    | .start => ∃ action, s.main.phase = .wanting action ∧
        s' = { s with main := s.main.start, history := .began action :: s.history }
    | .finish => (∃ action, s.main.phase = .running action) ∧
        s' = { s with main := s.main.finish }

/-- A uevent of the switch that says it is off. -/
def Off (u : Uevent) : Prop := switchName ∈ u.records ∧ stateZero ∈ u.records

/-- The attribute will be read again. -/
def Alert (s : State) : Prop :=
  s.halfDone ≠ [] ∨ (∃ u ∈ s.queue, switchName ∈ u.records) ∨ s.main.phase.looks = true ∨
    ∃ bounced, s.main.phase = .draining bounced

/-- A plug-out since the last dispatcher run is still to be dealt with. -/
def Noticed (s : State) : Prop :=
  (∃ u ∈ s.queue, Off u) ∨ s.main.phase = .draining true ∨ s.main.phase = .reading true ∨
    (∃ action, s.main.phase = .wanting action) ∨
      s.main.phase ≠ .starting ∧ s.main.lastState = hdmiNoDevice

/-- The last action goes with `last_state`. -/
def Matches (lastState : Int) (done : Option Tweak) : Prop :=
  lastState = hdmiActive ∧ done = some .hdmiUp ∨
    lastState = hdmiNoDevice ∧ (done = none ∨ done = some .hdmiDown)

/-- So does the one to come. -/
def Follows (s : State) : Prop :=
  match s.main.phase with
  | .starting => latest s.history = none
  | .wanting action => Matches s.main.lastState (some action)
  | _ => Matches s.main.lastState (latest s.history)

structure Inv (s : State) : Prop where
  reads : Alert s ∨ s.main.lastState = stateOf s.attr
  zeros : false ∈ sinceLatest s.history → Noticed s
  follows : Follows s

section Steps

variable {s : State} {m : Main}

private theorem look_spec (looks : m.phase.looks = true) (on : Bool) :
    (m.look (stateOf on)).lastState = stateOf on ∧
      ((∃ action, (m.look (stateOf on)).phase = .wanting action ∧
          Matches (stateOf on) (some action)) ∨
        (m.look (stateOf on)).phase = .polling ∧
          (m.phase = .starting ∧ on = false ∨ ∃ bounced, m.phase = .reading bounced ∧
            m.lastState = stateOf on ∧ (on = true → bounced = false))) := by
  cases phase : m.phase with
  | starting =>
      cases on with
      | false => simp [Main.look, phase, stateOf, hdmiActive]
      | true => simp [Main.look, phase, stateOf, hdmiActive, Matches]
  | reading bounced =>
      have not_negative : ¬ stateOf on < 0 := by cases on <;> decide
      simp only [Main.look, phase, not_negative, if_false]
      by_cases same : stateOf on = m.lastState
      · rw [if_pos same]
        by_cases rebuild : stateOf on = hdmiActive ∧ bounced = true
        · rw [if_pos rebuild]
          exact ⟨same.symm, .inl ⟨.hdmiUp, rfl, .inl ⟨rebuild.1, rfl⟩⟩⟩
        · rw [if_neg rebuild]
          refine ⟨same.symm, .inr ⟨rfl, .inr ⟨bounced, rfl, same.symm, ?_⟩⟩⟩
          rintro rfl
          simpa [stateOf, hdmiActive] using rebuild
      · rw [if_neg same]
        refine ⟨rfl, .inl ?_⟩
        cases on with
        | false =>
            refine ⟨.hdmiDown, ?_, .inr ⟨rfl, .inr rfl⟩⟩
            simp [stateOf, hdmiActive, hdmiNoDevice]
        | true => exact ⟨.hdmiUp, by simp [stateOf, hdmiActive], .inl ⟨rfl, rfl⟩⟩
  | _ => simp [phase, Phase.looks] at looks

theorem look_lastState (looks : m.phase.looks = true) (on : Bool) :
    (m.look (stateOf on)).lastState = stateOf on := (look_spec looks on).1

theorem reads_step {a : Action} {s' : State} (step : daemon.step s a s')
    (reads : Alert s ∨ s.main.lastState = stateOf s.attr) :
    Alert s' ∨ s'.main.lastState = stateOf s'.attr := by
  cases a with
  | set on =>
      obtain rfl : s' = _ := step
      exact .inl (.inl (List.cons_ne_nil _ _))
  | enqueue on u =>
      obtain ⟨-, reports, rfl⟩ := step
      have last : u ∈ s.queue ++ [u] := List.mem_append_right _ (List.mem_singleton.mpr rfl)
      exact .inl (.inr (.inl ⟨u, last, reports.1⟩))
  | other u =>
      obtain ⟨-, rfl⟩ := step
      refine reads.imp_left ?_
      rintro (half | ⟨u', queued, named⟩ | busy)
      · exact .inl half
      · exact .inr (.inl ⟨u', List.mem_append_left _ queued, named⟩)
      · exact .inr (.inr busy)
  | receive =>
      obtain ⟨listens, u, rest, queue, rfl⟩ := step
      cases phase : s.main.phase with
      | polling =>
          obtain ⟨same_last, new_phase⟩ := receive_polling (u := u) phase
          rcases reads with (half | ⟨u', queued, named⟩ | looks | ⟨bounced, draining⟩) | read
          · exact .inl (.inl half)
          · rw [queue] at queued
            rcases List.mem_cons.mp queued with rfl | later
            · rw [if_pos named] at new_phase
              exact .inl (.inr (.inr (.inr ⟨_, new_phase⟩)))
            · exact .inl (.inr (.inl ⟨u', later, named⟩))
          · simp [phase, Phase.looks] at looks
          · cases phase.symm.trans draining
          · exact .inr (same_last.trans read)
      | draining bounced =>
          obtain ⟨-, bounced', new_phase, -⟩ := receive_draining (u := u) phase
          rcases new_phase with draining | reading
          · exact .inl (.inr (.inr (.inr ⟨bounced', draining⟩)))
          · refine .inl (.inr (.inr (.inl ?_)))
            simp only [reading, Phase.looks]
      | _ => simp [phase, Phase.listens] at listens
  | settle =>
      obtain ⟨⟨bounced, phase⟩, rfl⟩ := step
      refine .inl (.inr (.inr (.inl ?_)))
      simp only [Main.settle, phase, Phase.looks]
  | look =>
      obtain ⟨looks, rfl⟩ := step
      rw [readHdmiState_switchText]
      exact .inr (look_lastState looks s.attr)
  | start =>
      obtain ⟨action, phase, rfl⟩ := step
      have started : s.main.start = { s.main with phase := .running action } := by
        simp [Main.start, phase]
      rw [started]
      refine reads.imp_left ?_
      rintro (half | queued | looks | ⟨bounced, draining⟩)
      · exact .inl half
      · exact .inr (.inl queued)
      · simp [phase, Phase.looks] at looks
      · cases phase.symm.trans draining
  | finish =>
      obtain ⟨⟨action, phase⟩, rfl⟩ := step
      have finished : s.main.finish = { s.main with phase := .polling } := by
        simp [Main.finish, phase]
      rw [finished]
      refine reads.imp_left ?_
      rintro (half | queued | looks | ⟨bounced, draining⟩)
      · exact .inl half
      · exact .inr (.inl queued)
      · simp [phase, Phase.looks] at looks
      · cases phase.symm.trans draining

/-- What concerns the dispatcher runs. -/
private def Deals (s : State) : Prop := (false ∈ sinceLatest s.history → Noticed s) ∧ Follows s

private theorem inv_init (init : daemon.init s) : Inv s := by
  obtain ⟨-, starting, fresh⟩ := init
  refine ⟨.inl (.inr (.inr (.inl ?_))), ?_, ?_⟩
  · rw [starting]
    rfl
  · rw [fresh]
    intro member
    cases member
  · simp only [Follows, starting, fresh, latest]

private theorem deals_enqueue (inv : Inv s) {on : Bool} {u : Uevent} (reports : u.Reports on) :
    Deals { s with
      halfDone := s.halfDone.erase on
      queue := s.queue ++ [u]
      history := .enqueued on :: s.history } := by
  have last : u ∈ s.queue ++ [u] := List.mem_append_right _ (List.mem_singleton.mpr rfl)
  refine ⟨fun member => ?_, inv.follows⟩
  rcases List.mem_cons.mp member with off | before
  · exact .inl ⟨u, last, reports.1, reports.2.mpr off.symm⟩
  · refine (inv.zeros before).imp_left ?_
    rintro ⟨u', queued, off⟩
    exact ⟨u', List.mem_append_left _ queued, off⟩

private theorem deals_other (inv : Inv s) (u : Uevent) :
    Deals { s with queue := s.queue ++ [u] } := by
  refine ⟨fun member => (inv.zeros member).imp_left ?_, inv.follows⟩
  rintro ⟨u', queued, off⟩
  exact ⟨u', List.mem_append_left _ queued, off⟩

private theorem deals_receive {u : Uevent} {rest : List Uevent} (inv : Inv s)
    (listens : s.main.phase.listens = true) (queue : s.queue = u :: rest) :
    Deals { s with queue := rest, main := s.main.receive u } := by
  cases phase : s.main.phase with
  | polling =>
      obtain ⟨same_last, new_phase⟩ := receive_polling (u := u) phase
      refine ⟨fun member => ?_, ?_⟩
      · rcases inv.zeros member with ⟨u', queued, named, zero⟩ | draining | reading |
          ⟨action, wanting⟩ | ⟨-, down⟩
        · rw [queue] at queued
          rcases List.mem_cons.mp queued with rfl | later
          · rw [if_pos named] at new_phase
            refine .inr (.inl (new_phase.trans ?_))
            simp [zero]
          · exact .inl ⟨u', later, named, zero⟩
        · cases phase.symm.trans draining
        · cases phase.symm.trans reading
        · cases phase.symm.trans wanting
        · refine .inr (.inr (.inr (.inr ⟨?_, same_last.trans down⟩)))
          simp only [new_phase]
          split_ifs <;> simp
      · have follows := inv.follows
        simp only [Follows, phase] at follows
        simp only [Follows, new_phase, same_last]
        split_ifs <;> exact follows
  | draining bounced =>
      obtain ⟨same_last, bounced', new_phase, kept⟩ := receive_draining (u := u) phase
      refine ⟨fun member => ?_, ?_⟩
      · have bouncing (is_true : bounced' = true) :
            Noticed { s with queue := rest, main := s.main.receive u } := by
          rw [is_true] at new_phase
          exact new_phase.elim (fun draining => .inr (.inl draining))
            fun reading => .inr (.inr (.inl reading))
        rcases inv.zeros member with ⟨u', queued, named, zero⟩ | draining | reading |
          ⟨action, wanting⟩ | ⟨-, down⟩
        · rw [queue] at queued
          rcases List.mem_cons.mp queued with rfl | later
          · exact bouncing (kept (.inr ⟨named, zero⟩))
          · exact .inl ⟨u', later, named, zero⟩
        · obtain rfl : bounced = true := by simpa [phase] using draining
          exact bouncing (kept (.inl rfl))
        · cases phase.symm.trans reading
        · cases phase.symm.trans wanting
        · refine .inr (.inr (.inr (.inr ⟨?_, same_last.trans down⟩)))
          rcases new_phase with draining | reading
          · simp [draining]
          · simp [reading]
      · have follows := inv.follows
        simp only [Follows, phase] at follows
        rcases new_phase with draining | reading
        · simpa only [Follows, draining, same_last] using follows
        · simpa only [Follows, reading, same_last] using follows
  | _ => simp [phase, Phase.listens] at listens

private theorem deals_settle {bounced : Bool} (inv : Inv s)
    (phase : s.main.phase = .draining bounced) : Deals { s with main := s.main.settle } := by
  have settled : s.main.settle = { s.main with phase := .reading bounced } := by
    simp [Main.settle, phase]
  rw [settled]
  refine ⟨fun member => ?_, ?_⟩
  · rcases inv.zeros member with queued | draining | reading | ⟨action, wanting⟩ | ⟨-, down⟩
    · exact .inl queued
    · obtain rfl : bounced = true := by simpa [phase] using draining
      exact .inr (.inr (.inl rfl))
    · cases phase.symm.trans reading
    · cases phase.symm.trans wanting
    · exact .inr (.inr (.inr (.inr ⟨by simp, down⟩)))
  · have follows := inv.follows
    simpa only [Follows, phase] using follows

private theorem deals_look (inv : Inv s) (looks : s.main.phase.looks = true) :
    Deals { s with main := s.main.look (stateOf s.attr) } := by
  obtain ⟨now, wanting | ⟨polling, why⟩⟩ := look_spec looks s.attr
  · obtain ⟨action, wanting, goes⟩ := wanting
    refine ⟨fun _ => .inr (.inr (.inr (.inl ⟨action, wanting⟩))), ?_⟩
    simpa only [Follows, wanting, now] using goes
  · refine ⟨fun member => ?_, ?_⟩
    · cases on : s.attr with
      | false =>
          refine .inr (.inr (.inr (.inr ⟨?_, ?_⟩)))
          · simp only [on] at polling
            simp [polling]
          · rw [on] at now
            exact now
      | true =>
          rcases why with ⟨-, off⟩ | ⟨bounced, reading, same, calm⟩
          · cases on.symm.trans off
          · rcases inv.zeros member with queued | draining | bouncing | ⟨action, wanting⟩ |
              ⟨-, down⟩
            · exact .inl queued
            · cases reading.symm.trans draining
            · rw [reading, calm on] at bouncing
              cases bouncing
            · cases reading.symm.trans wanting
            · rw [same, on] at down
              cases down
    · have follows := inv.follows
      simp only [Follows, polling, now]
      rcases why with ⟨starting, off⟩ | ⟨bounced, reading, same, -⟩
      · simp only [Follows, starting] at follows
        rw [off, follows]
        exact .inr ⟨rfl, .inl rfl⟩
      · simp only [Follows, reading, same] at follows
        exact follows

private theorem deals_start {action : Tweak} (inv : Inv s)
    (phase : s.main.phase = .wanting action) :
    Deals { s with main := s.main.start, history := .began action :: s.history } := by
  have started : s.main.start = { s.main with phase := .running action } := by
    simp [Main.start, phase]
  rw [started]
  refine ⟨fun member => absurd member List.not_mem_nil, ?_⟩
  have follows := inv.follows
  simpa only [Follows, phase, latest] using follows

private theorem deals_finish {action : Tweak} (inv : Inv s)
    (phase : s.main.phase = .running action) : Deals { s with main := s.main.finish } := by
  have finished : s.main.finish = { s.main with phase := .polling } := by
    simp [Main.finish, phase]
  rw [finished]
  refine ⟨fun member => ?_, ?_⟩
  · rcases inv.zeros member with queued | draining | reading | ⟨other, wanting⟩ | ⟨-, down⟩
    · exact .inl queued
    · cases phase.symm.trans draining
    · cases phase.symm.trans reading
    · cases phase.symm.trans wanting
    · exact .inr (.inr (.inr (.inr ⟨by simp, down⟩)))
  · have follows := inv.follows
    simpa only [Follows, phase] using follows

private theorem inv_step {a : Action} {s' : State} (inv : Inv s) (step : daemon.step s a s') :
    Inv s' := by
  have reads := reads_step step inv.reads
  have deals : Deals s' := by
    cases a with
    | set on =>
        obtain rfl : s' = _ := step
        exact ⟨inv.zeros, inv.follows⟩
    | enqueue on u =>
        obtain ⟨-, reports, rfl⟩ := step
        exact deals_enqueue inv reports
    | other u =>
        obtain ⟨-, rfl⟩ := step
        exact deals_other inv u
    | receive =>
        obtain ⟨listens, u, rest, queue, rfl⟩ := step
        exact deals_receive inv listens queue
    | settle =>
        obtain ⟨⟨bounced, phase⟩, rfl⟩ := step
        exact deals_settle inv phase
    | look =>
        obtain ⟨looks, rfl⟩ := step
        rw [readHdmiState_switchText]
        exact deals_look inv looks
    | start =>
        obtain ⟨action, phase, rfl⟩ := step
        exact deals_start inv phase
    | finish =>
        obtain ⟨⟨action, phase⟩, rfl⟩ := step
        exact deals_finish inv phase
  exact ⟨reads, deals.1, deals.2⟩

theorem inv_reachable (reach : daemon.Reachable s) : Inv s :=
  reach.invariant (fun _ => inv_init) fun _ _ _ _ => inv_step

end Steps

/-- In every run: when the daemon is about to wait for a uevent, none is there and no change of
the switch is half done, `last_state` is the attribute. If that is 1, the latest dispatcher run
is `hdmi_up` and began after every plug-out that was sent; if it is 0 and a dispatcher has run,
the latest is `hdmi_down`. -/
theorem no_transition_lost {s : State} (reach : daemon.Reachable s)
    (waits : s.main.phase = .polling) (empty : s.queue = []) (settled : s.halfDone = []) :
    s.main.lastState = stateOf s.attr ∧
      (s.main.lastState = hdmiActive →
        latest s.history = some .hdmiUp ∧ false ∉ sinceLatest s.history) ∧
      (s.main.lastState = hdmiNoDevice →
        latest s.history = none ∨ latest s.history = some .hdmiDown) := by
  have inv : Inv s := reach.invariant (fun _ => inv_init) fun _ _ _ _ => inv_step
  have follows := inv.follows
  simp only [Follows, waits] at follows
  refine ⟨?_, fun up => ⟨?_, fun member => ?_⟩, fun down => ?_⟩
  · rcases inv.reads with (half | ⟨u, queued, -⟩ | looks | ⟨bounced, draining⟩) | read
    · exact absurd settled half
    · rw [empty] at queued
      cases queued
    · simp [waits, Phase.looks] at looks
    · cases waits.symm.trans draining
    · exact read
  · rcases follows with ⟨-, done⟩ | ⟨down, -⟩
    · exact done
    · cases up.symm.trans down
  · rcases inv.zeros member with ⟨u, queued, -⟩ | draining | reading | ⟨action, wanting⟩ |
      ⟨-, down⟩
    · rw [empty] at queued
      cases queued
    · cases waits.symm.trans draining
    · cases waits.symm.trans reading
    · cases waits.symm.trans wanting
    · cases up.symm.trans down
  · rcases follows with ⟨up, -⟩ | ⟨-, done⟩
    · cases up.symm.trans down
    · exact done

instance (u : Uevent) (on : Bool) : Decidable (u.Reports on) :=
  inferInstanceAs (Decidable (_ ∧ _))

def State.permits (s : State) : Action → Bool
  | .set _ => true
  | .enqueue on u => decide (on ∈ s.halfDone) && decide (u.Reports on)
  | .other u => decide (switchName ∉ u.records)
  | .receive => s.main.phase.listens && !s.queue.isEmpty
  | .settle => (s.main.phase matches .draining _)
  | .look => s.main.phase.looks
  | .start => (s.main.phase matches .wanting _)
  | .finish => (s.main.phase matches .running _)

def State.next (s : State) : Action → State
  | .set on => { s with attr := on, halfDone := on :: s.halfDone }
  | .enqueue on u =>
      { s with
        halfDone := s.halfDone.erase on
        queue := s.queue ++ [u]
        history := .enqueued on :: s.history }
  | .other u => { s with queue := s.queue ++ [u] }
  | .receive =>
      match s.queue with
      | [] => s
      | u :: rest => { s with queue := rest, main := s.main.receive u }
  | .settle => { s with main := s.main.settle }
  | .look => { s with main := s.main.look (readHdmiState (some (switchText s.attr))) }
  | .start =>
      match s.main.phase with
      | .wanting action =>
          { s with main := s.main.start, history := .began action :: s.history }
      | _ => s
  | .finish => { s with main := s.main.finish }

theorem next_step (s : State) (a : Action) (permitted : s.permits a = true) :
    daemon.step s a (s.next a) := by
  cases a with
  | set on => exact rfl
  | enqueue on u =>
      obtain ⟨half, reports⟩ : on ∈ s.halfDone ∧ u.Reports on := by
        simpa [State.permits] using permitted
      exact ⟨half, reports, rfl⟩
  | other u => exact ⟨by simpa [State.permits] using permitted, rfl⟩
  | receive =>
      obtain ⟨listens, some_there⟩ : s.main.phase.listens = true ∧ s.queue ≠ [] := by
        simpa [State.permits] using permitted
      obtain ⟨u, rest, queue⟩ := List.exists_cons_of_ne_nil some_there
      exact ⟨listens, u, rest, queue, by simp [State.next, queue]⟩
  | settle =>
      cases phase : s.main.phase with
      | draining bounced => exact ⟨⟨bounced, phase⟩, rfl⟩
      | _ => simp [State.permits, phase] at permitted
  | look => exact ⟨permitted, rfl⟩
  | start =>
      cases phase : s.main.phase with
      | wanting action => exact ⟨action, phase, by simp [State.next, phase]⟩
      | _ => simp [State.permits, phase] at permitted
  | finish =>
      cases phase : s.main.phase with
      | running action => exact ⟨⟨action, phase⟩, rfl⟩
      | _ => simp [State.permits, phase] at permitted

/-- The cable is there at the start, then comes off and on again in one burst. -/
def bounce : List Action :=
  [.look, .start, .finish, .set false, .enqueue false (switchUevent false), .set true,
    .receive, .enqueue true (switchUevent true), .receive, .settle, .look, .start, .finish]

def plugged : State := ⟨true, [], [], ⟨.starting, 0, fun _ => nul⟩, []⟩

/-- The mirror is built again. -/
theorem no_transition_lost_bounce : ∃ s, daemon.Reachable s ∧ s.main.phase = .polling ∧
    s.queue = [] ∧ s.halfDone = [] ∧ s.history = [.began .hdmiUp, .enqueued true,
      .enqueued false, .began .hdmiUp] ∧ s.main.lastState = stateOf s.attr := by
  have ran : (Machine.follow State.next State.permits plugged bounce).map
      (fun s => (s.main.phase, s.queue.length, s.halfDone, s.history)) =
        some (.polling, 0, [], [.began .hdmiUp, .enqueued true, .enqueued false,
          .began .hdmiUp]) := by decide +kernel
  obtain ⟨s, ends, facts⟩ := Option.map_eq_some_iff.mp ran
  simp only [Prod.mk.injEq, List.length_eq_zero_iff] at facts
  obtain ⟨waits, empty, settled, history⟩ := facts
  have reach : daemon.Reachable s :=
    Machine.Reachable.follow (.start ⟨rfl, rfl, rfl⟩) next_step bounce ends
  exact ⟨s, reach, waits, empty, settled, history,
    (no_transition_lost reach waits empty settled).1⟩

end XdPlus.Hdmi.Transitions
