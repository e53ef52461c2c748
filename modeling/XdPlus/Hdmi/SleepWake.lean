/- Module: XdPlus/Hdmi/SleepWake
   source: hdmi/xdplus_hdmid.c, sleep_timer, run_tweaks, main;
     rootdir/system/bin/xdplus_tweaks, hdmi_up, hdmi_down
   digest: The timer thread beside the main loop, with the cable in all the time. -/

import XdPlus.Base.Machine
import XdPlus.Hdmi.MainLoop

/-!
The kernel is as the daemon takes it to be: with the cable in, `hdmictl enable` raises the switch
attribute and `hdmictl disable` drops it, each with a uevent if that is a change. The attribute
then says whether the output is enabled.
-/

set_option autoImplicit false
set_option relaxedAutoImplicit false

namespace XdPlus.Hdmi.SleepWake

open XdPlus.Base Uevents MainLoop

inductive Thread where
  | main
  | timer
  deriving DecidableEq, Repr

/-- The commands of `hdmictl` that are used here. -/
inductive Ctl where
  | power (on : Bool)
  | enable
  | disable
  deriving DecidableEq, Repr

/-- What the dispatcher does to the output; a bring-up that succeeds. -/
def script : Tweak → List Ctl
  | .hdmiUp => [.enable, .power true]
  | .hdmiDown => [.power false, .disable]

/-- Where the timer thread is: looking for the property or waiting for any, at the top of the
loop, with the screen off up to what is done under `g_lock`, with the screen on, and in the wait
at the end of the loop. -/
inductive TimerPhase where
  | seeking
  | awaiting
  | top
  | asleep
  | dozing
  | sleepLock
  | sleepPower
  | sleepState
  | sleepDisable
  | sleepTorn
  | sleepUnlock
  | wakeLock
  | wakeTorn
  | wakePower
  | wakeEnable
  | wakeUnlock
  | waiting
  deriving DecidableEq, Repr

/-- The locals of `sleep_timer`. -/
structure Timer where
  phase : TimerPhase
  serial : Nat

/-- `power` is the property, `serial` counts its changes and `area` those of all properties;
`torn` is `g_timer_torn`, `left` what the running dispatcher has yet to do. -/
structure State where
  attr : Bool
  queue : List Uevent
  power : Option Bool
  serial : Nat
  area : Nat
  lock : Option Thread
  torn : Bool
  main : Main
  left : List Ctl
  timer : Timer

/-- `report` are the uevents of the switch. -/
def Ctl.run (report : Bool → Uevent) (s : State) : Ctl → State
  | .power _ => s
  | .enable =>
      if s.attr then s else { s with attr := true, queue := s.queue ++ [report true] }
  | .disable =>
      if s.attr then { s with attr := false, queue := s.queue ++ [report false] } else s

def State.goto (s : State) (phase : TimerPhase) : State :=
  { s with timer := { s.timer with phase := phase } }

/-- The timer thread goes on, unless it is blocked. `choice` is whether the sleep property has
minutes in it, and whether the timed wait timed out. -/
def timerNext (report : Bool → Uevent) (s : State) (choice : Bool) : Option State :=
  match s.timer.phase with
  | .seeking =>
      if s.power.isSome then some { s with timer := ⟨.top, 0⟩ } else some (s.goto .awaiting)
  | .awaiting =>
      if s.area ≠ s.timer.serial then some { s with timer := ⟨.seeking, s.area⟩ } else none
  | .top =>
      match s.power with
      | some false => some (s.goto .asleep)
      | some true => some (s.goto .wakeLock)
      | none => some (s.goto .waiting)
  | .asleep => some (s.goto (if choice then .dozing else .waiting))
  | .dozing =>
      if choice then some (s.goto .sleepLock)
      else if s.serial ≠ s.timer.serial then some { s with timer := ⟨.top, s.serial⟩ } else none
  | .sleepLock =>
      if s.lock = none then some { s.goto .sleepPower with lock := some .timer } else none
  | .sleepPower =>
      some (s.goto (if s.power = some false then .sleepState else .sleepUnlock))
  | .sleepState =>
      some (s.goto (if readHdmiState (some (switchText s.attr)) = hdmiActive then .sleepDisable
        else .sleepUnlock))
  | .sleepDisable => some ((Ctl.run report s .disable).goto .sleepTorn)
  | .sleepTorn => some { s.goto .sleepUnlock with torn := true }
  | .sleepUnlock => some { s.goto .waiting with lock := none }
  | .wakeLock =>
      if s.lock = none then some { s.goto .wakeTorn with lock := some .timer } else none
  | .wakeTorn =>
      if s.torn then some { s.goto .wakePower with torn := false } else some (s.goto .wakeUnlock)
  | .wakePower => some ((Ctl.run report s (.power true)).goto .wakeEnable)
  | .wakeEnable => some ((Ctl.run report s .enable).goto .wakeUnlock)
  | .wakeUnlock => some { s.goto .waiting with lock := none }
  | .waiting =>
      if s.serial ≠ s.timer.serial then some { s with timer := ⟨.top, s.serial⟩ } else none

/-- The main thread goes on, unless it is blocked. `choice` is whether the inner poll comes
back with a uevent. -/
def mainNext (report : Bool → Uevent) (s : State) (choice : Bool) : Option State :=
  match s.main.phase with
  | .starting | .reading _ =>
      some { s with main := s.main.look (readHdmiState (some (switchText s.attr))) }
  | .polling =>
      match s.queue with
      | [] => none
      | u :: rest => some { s with queue := rest, main := s.main.receive u }
  | .draining _ =>
      if choice then
        match s.queue with
        | [] => none
        | u :: rest => some { s with queue := rest, main := s.main.receive u }
      else
        some { s with main := s.main.settle }
  | .wanting action =>
      if s.lock = none then
        some { s with lock := some .main, main := s.main.start, left := script action }
      else
        none
  | .running _ =>
      match s.left with
      | c :: rest => some { Ctl.run report s c with left := rest }
      | [] => some { s with lock := none, main := s.main.finish }

/-- The screen goes to sleep or wakes up, any other property is set, or a thread goes on. -/
inductive Action where
  | power (on : Bool)
  | property
  | main (choice : Bool)
  | timer (choice : Bool)
  deriving DecidableEq, Repr

def State.next (report : Bool → Uevent) (s : State) : Action → Option State
  | .power on => some { s with power := some on, serial := s.serial + 1, area := s.area + 1 }
  | .property => some { s with area := s.area + 1 }
  | .main choice => mainNext report s choice
  | .timer choice => timerNext report s choice

/-- The daemon comes up with the cable in and the output enabled. -/
def daemon (report : Bool → Uevent) : Machine State Action where
  init s := s.attr = true ∧ s.queue = [] ∧ s.lock = none ∧ s.torn = false ∧
    s.main.phase = .starting ∧ s.timer = ⟨.seeking, 0⟩
  step s a s' := s.next report a = some s'

/-- Both threads wait, and neither has been given a reason not to. -/
def Blocked (s : State) : Prop :=
  s.main.phase = .polling ∧ s.queue = [] ∧
    (s.timer.phase = .awaiting ∧ s.area = s.timer.serial ∨
      (s.timer.phase = .dozing ∨ s.timer.phase = .waiting) ∧ s.serial = s.timer.serial)

/-- `run_tweaks("hdmi_down")` takes the lock only while the attribute is what the loop read. -/
def UpToDate (s : State) : Action → Prop
  | .main _ => s.main.phase = .wanting .hdmiDown → s.attr = false
  | _ => True

/-- The timer thread is inside `g_lock`. -/
def TimerPhase.locked : TimerPhase → Bool
  | .sleepPower | .sleepState | .sleepDisable | .sleepTorn | .sleepUnlock | .wakeTorn
  | .wakePower | .wakeEnable | .wakeUnlock => true
  | _ => false

/-- Whose business it is that the output is off. -/
def Owed (s : State) : Prop :=
  s.torn = true ∨ s.timer.phase = .sleepTorn ∨ s.timer.phase = .wakePower ∨
    s.timer.phase = .wakeEnable

/-- What the timer thread can rely on: the value of the power property it read is the value
now, if the serial it waits with is that of now. -/
def Knows (s : State) : Prop :=
  match s.timer.phase with
  | .seeking | .awaiting => s.torn = false
  | .asleep | .dozing | .sleepLock | .sleepPower | .sleepState | .sleepDisable | .sleepTorn
  | .sleepUnlock => s.timer.serial ≤ s.serial ∧
      (s.serial = s.timer.serial → s.power = some false)
  | .wakePower | .wakeEnable | .wakeUnlock => s.timer.serial ≤ s.serial ∧ s.torn = false
  | .waiting => s.timer.serial ≤ s.serial ∧
      (s.serial = s.timer.serial → s.power = some true → s.torn = false)
  | .top | .wakeLock | .wakeTorn => s.timer.serial ≤ s.serial

structure Inv (s : State) : Prop where
  off : s.attr = false → Owed s
  inside : s.timer.phase.locked = true → s.lock = some .timer
  runs : ∀ action, s.main.phase = .running action →
    s.lock = some .main ∧ ∀ c ∈ s.left, c ∈ script action
  down : s.main.phase = .running .hdmiDown → s.attr = false
  knows : Knows s

section Steps

variable {report : Bool → Uevent} {s s' : State}

private theorem Inv.timer (inv : Inv s) (main : s'.main = s.main) (left : s'.left = s.left)
    (apart : s'.lock = s.lock ∧ s'.attr = s.attr ∨ s.lock ≠ some .main)
    (off : s'.attr = false → Owed s')
    (inside : s'.timer.phase.locked = true → s'.lock = some .timer) (knows : Knows s') :
    Inv s' := by
  refine ⟨off, inside, fun action running => ?_, fun running => ?_, knows⟩
  · rw [main] at running
    obtain ⟨held, rest⟩ := inv.runs action running
    rcases apart with ⟨lock, -⟩ | elsewhere
    · rw [lock, left]
      exact ⟨held, rest⟩
    · exact absurd held elsewhere
  · rw [main] at running
    rcases apart with ⟨-, attr⟩ | elsewhere
    · rw [attr]
      exact inv.down running
    · exact absurd (inv.runs _ running).1 elsewhere

private theorem Inv.torn (inv : Inv s) (phase : s.timer.phase ≠ .sleepTorn ∧
    s.timer.phase ≠ .wakePower ∧ s.timer.phase ≠ .wakeEnable) (off : s.attr = false) :
    s.torn = true := by
  rcases inv.off off with torn | here | here | here
  · exact torn
  · exact absurd here phase.1
  · exact absurd here phase.2.1
  · exact absurd here phase.2.2

private theorem Inv.pass (inv : Inv s) (timer : Timer)
    (phase : s.timer.phase ≠ .sleepTorn ∧ s.timer.phase ≠ .wakePower ∧
      s.timer.phase ≠ .wakeEnable)
    (inside : timer.phase.locked = true → s.timer.phase.locked = true)
    (knows : Knows { s with timer := timer }) : Inv { s with timer := timer } :=
  inv.timer rfl rfl (.inl ⟨rfl, rfl⟩) (fun off => .inl (inv.torn phase off))
    (fun locked => inv.inside (inside locked)) knows

private theorem run_attr (report : Bool → Uevent) (s : State) (c : Ctl) :
    (Ctl.run report s c).attr =
      match c with
      | .power _ => s.attr
      | .enable => true
      | .disable => false := by
  cases c with
  | power on => rfl
  | _ =>
      unfold Ctl.run
      split_ifs with on <;> simp [on]

private theorem run_rest (report : Bool → Uevent) (s : State) (c : Ctl) :
    (Ctl.run report s c).main = s.main ∧
    (Ctl.run report s c).left = s.left ∧ (Ctl.run report s c).lock = s.lock ∧
    (Ctl.run report s c).torn = s.torn ∧ (Ctl.run report s c).timer = s.timer ∧
    (Ctl.run report s c).power = s.power ∧ (Ctl.run report s c).serial = s.serial := by
  cases c with
  | power on => exact ⟨rfl, rfl, rfl, rfl, rfl, rfl, rfl⟩
  | _ =>
      unfold Ctl.run
      split_ifs <;> exact ⟨rfl, rfl, rfl, rfl, rfl, rfl, rfl⟩

private theorem inv_timer {choice : Bool} (inv : Inv s)
    (step : timerNext report s choice = some s') : Inv s' := by
  have knows := inv.knows
  have held := inv.inside
  cases phase : s.timer.phase with
  | seeking =>
      simp only [Knows, phase] at knows
      simp only [timerNext, phase] at step
      split_ifs at step <;> cases step
      · exact inv.pass ⟨.top, 0⟩ (by simp [phase]) (by simp [TimerPhase.locked]) (Nat.zero_le _)
      · exact inv.pass ⟨.awaiting, _⟩ (by simp [phase]) (by simp [TimerPhase.locked]) knows
  | awaiting =>
      simp only [Knows, phase] at knows
      simp only [timerNext, phase] at step
      split_ifs at step
      cases step
      exact inv.pass ⟨.seeking, _⟩ (by simp [phase]) (by simp [TimerPhase.locked]) knows
  | top =>
      simp only [Knows, phase] at knows
      simp only [timerNext, phase] at step
      cases power : s.power with
      | none =>
          simp only [power] at step
          cases step
          refine inv.pass ⟨.waiting, _⟩ (by simp [phase]) (by simp [TimerPhase.locked]) ?_
          exact ⟨knows, fun _ on => by cases power.symm.trans on⟩
      | some on =>
          cases on with
          | false =>
              simp only [power] at step
              cases step
              exact inv.pass ⟨.asleep, _⟩ (by simp [phase]) (by simp [TimerPhase.locked])
                ⟨knows, fun _ => power⟩
          | true =>
              simp only [power] at step
              cases step
              exact inv.pass ⟨.wakeLock, _⟩ (by simp [phase]) (by simp [TimerPhase.locked]) knows
  | asleep =>
      simp only [Knows, phase] at knows
      simp only [timerNext, phase] at step
      cases step
      cases choice with
      | true => exact inv.pass ⟨.dozing, _⟩ (by simp [phase]) (by simp [TimerPhase.locked]) knows
      | false =>
          refine inv.pass ⟨.waiting, _⟩ (by simp [phase]) (by simp [TimerPhase.locked]) ?_
          exact ⟨knows.1, fun now on => by cases (knows.2 now).symm.trans on⟩
  | dozing =>
      simp only [Knows, phase] at knows
      simp only [timerNext, phase] at step
      split_ifs at step <;> cases step
      · exact inv.pass ⟨.sleepLock, _⟩ (by simp [phase]) (by simp [TimerPhase.locked]) knows
      · exact inv.pass ⟨.top, _⟩ (by simp [phase]) (by simp [TimerPhase.locked]) (Nat.le_refl _)
  | sleepLock =>
      have torn := inv.torn (by simp [phase])
      simp only [Knows, phase] at knows
      simp only [timerNext, phase] at step
      split_ifs at step with free
      cases step
      exact inv.timer rfl rfl (.inr (by simp [free])) (fun off => .inl (torn off)) (fun _ => rfl)
        knows
  | sleepPower =>
      have locked : s.timer.phase.locked = true := by rw [phase]; rfl
      simp only [Knows, phase] at knows
      simp only [timerNext, phase] at step
      cases step
      split_ifs
      · exact inv.pass ⟨.sleepState, _⟩ (by simp [phase]) (fun _ => locked) knows
      · exact inv.pass ⟨.sleepUnlock, _⟩ (by simp [phase]) (fun _ => locked) knows
  | sleepState =>
      have locked : s.timer.phase.locked = true := by rw [phase]; rfl
      simp only [Knows, phase] at knows
      simp only [timerNext, phase] at step
      cases step
      split_ifs
      · exact inv.pass ⟨.sleepDisable, _⟩ (by simp [phase]) (fun _ => locked) knows
      · exact inv.pass ⟨.sleepUnlock, _⟩ (by simp [phase]) (fun _ => locked) knows
  | sleepDisable =>
      obtain ⟨main, left, lock, -, timer, power, serial⟩ := run_rest report s .disable
      have mine := held (by rw [phase]; rfl)
      simp only [Knows, phase] at knows
      simp only [timerNext, phase] at step
      cases step
      refine inv.timer main left (.inr (by simp [mine])) (fun _ => .inr (.inl rfl))
        (fun _ => lock.trans mine) ?_
      simpa only [Knows, State.goto, timer, power, serial] using knows
  | sleepTorn =>
      have mine := held (by rw [phase]; rfl)
      simp only [Knows, phase] at knows
      simp only [timerNext, phase] at step
      cases step
      exact inv.timer rfl rfl (.inl ⟨rfl, rfl⟩) (fun _ => .inl rfl) (fun _ => mine) knows
  | sleepUnlock =>
      have mine := held (by rw [phase]; rfl)
      have torn := inv.torn (by simp [phase])
      simp only [Knows, phase] at knows
      simp only [timerNext, phase] at step
      cases step
      refine inv.timer rfl rfl (.inr (by simp [mine])) (fun off => .inl (torn off))
        (by simp [State.goto, TimerPhase.locked]) ?_
      exact ⟨knows.1, fun now on => by cases (knows.2 now).symm.trans on⟩
  | wakeLock =>
      have torn := inv.torn (by simp [phase])
      simp only [Knows, phase] at knows
      simp only [timerNext, phase] at step
      split_ifs at step with free
      cases step
      exact inv.timer rfl rfl (.inr (by simp [free])) (fun off => .inl (torn off)) (fun _ => rfl)
        knows
  | wakeTorn =>
      have mine := held (by rw [phase]; rfl)
      simp only [Knows, phase] at knows
      simp only [timerNext, phase] at step
      split_ifs at step with torn <;> cases step
      · exact inv.timer rfl rfl (.inl ⟨rfl, rfl⟩) (fun _ => .inr (.inr (.inl rfl)))
          (fun _ => mine) ⟨knows, rfl⟩
      · exact inv.pass ⟨.wakeUnlock, _⟩ (by simp [phase]) (fun _ => by rw [phase]; rfl)
          ⟨knows, Bool.eq_false_iff.mpr torn⟩
  | wakePower =>
      have mine := held (by rw [phase]; rfl)
      simp only [Knows, phase] at knows
      simp only [timerNext, phase] at step
      cases step
      exact inv.timer rfl rfl (.inl ⟨rfl, rfl⟩) (fun _ => .inr (.inr (.inr rfl)))
        (fun _ => mine) knows
  | wakeEnable =>
      obtain ⟨main, left, lock, torn, timer, -, serial⟩ := run_rest report s .enable
      have on := run_attr report s .enable
      have mine := held (by rw [phase]; rfl)
      simp only [Knows, phase] at knows
      simp only [timerNext, phase] at step
      cases step
      refine inv.timer main left (.inr (by simp [mine])) (fun off => ?_)
        (fun _ => lock.trans mine) ?_
      · cases on.symm.trans off
      · simpa only [Knows, State.goto, timer, serial, torn] using knows
  | wakeUnlock =>
      have mine := held (by rw [phase]; rfl)
      have torn := inv.torn (by simp [phase])
      simp only [Knows, phase] at knows
      simp only [timerNext, phase] at step
      cases step
      exact inv.timer rfl rfl (.inr (by simp [mine])) (fun off => .inl (torn off))
        (by simp [State.goto, TimerPhase.locked]) ⟨knows.1, fun _ _ => knows.2⟩
  | waiting =>
      simp only [Knows, phase] at knows
      simp only [timerNext, phase] at step
      split_ifs at step
      cases step
      exact inv.pass ⟨.top, _⟩ (by simp [phase]) (by simp [TimerPhase.locked]) (Nat.le_refl _)

private theorem Inv.listen (inv : Inv s) (queue : List Uevent) (main : Main)
    (elsewhere : ∀ action, main.phase ≠ .running action) :
    Inv { s with queue := queue, main := main } where
  off := inv.off
  inside := inv.inside
  runs action running := absurd running (elsewhere action)
  down running := absurd running (elsewhere .hdmiDown)
  knows := inv.knows

private theorem receive_elsewhere {m : Main} (u : Uevent)
    (listens : m.phase.listens = true) (action : Tweak) :
    (m.receive u).phase ≠ .running action := by
  cases phase : m.phase with
  | polling =>
      rw [(receive_polling phase).2]
      split_ifs <;> simp
  | draining bounced =>
      obtain ⟨-, bounced', draining | reading, -⟩ := receive_draining (u := u) phase
      · simp [draining]
      · simp [reading]
  | _ => simp [phase, Phase.listens] at listens

private theorem inv_command {action : Tweak} {c : Ctl} {rest : List Ctl} (inv : Inv s)
    (phase : s.main.phase = .running action) (left : s.left = c :: rest) :
    Inv { Ctl.run report s c with left := rest } := by
  obtain ⟨main, -, lock, torn, timer, power, serial⟩ := run_rest report s c
  have attr := run_attr report s c
  obtain ⟨held, among⟩ := inv.runs action phase
  rw [left] at among
  have first := among c (List.mem_cons_self ..)
  have still_off (off : (Ctl.run report s c).attr = false) : s.attr = false := by
    cases action with
    | hdmiUp =>
        rcases List.mem_cons.mp first with rfl | power
        · cases attr.symm.trans off
        · obtain rfl := List.mem_singleton.mp power
          exact off
    | hdmiDown => exact inv.down phase
  refine ⟨fun off => ?_, fun locked => ?_, fun other running => ?_, fun running => ?_, ?_⟩
  · have owed := inv.off (still_off off)
    simpa only [Owed, torn, timer] using owed
  · simp only [timer] at locked
    exact lock.trans (inv.inside locked)
  · simp only [main] at running
    obtain rfl : action = other := by simpa [phase] using running
    exact ⟨lock.trans held, fun d member => among d (List.mem_cons_of_mem _ member)⟩
  · simp only [main] at running
    obtain rfl : action = .hdmiDown := by simpa [phase] using running
    have off := inv.down phase
    rcases List.mem_cons.mp first with rfl | disable
    · exact off
    · obtain rfl := List.mem_singleton.mp disable
      exact attr
  · have knows := inv.knows
    simpa only [Knows, timer, torn, power, serial] using knows

private theorem inv_main {choice : Bool} (inv : Inv s)
    (fresh : s.main.phase = .wanting .hdmiDown → s.attr = false)
    (step : mainNext report s choice = some s') : Inv s' := by
  have apart (held : s.lock ≠ some .timer) : s.timer.phase.locked = false := by
    cases locked : s.timer.phase.locked with
    | false => rfl
    | true => exact absurd (inv.inside locked) held
  cases phase : s.main.phase with
  | starting =>
      simp only [mainNext, phase] at step
      cases step
      exact inv.listen _ _ (look_not_running _ (by rw [phase]; rfl))
  | reading bounced =>
      simp only [mainNext, phase] at step
      cases step
      exact inv.listen _ _ (look_not_running _ (by rw [phase]; rfl))
  | polling =>
      simp only [mainNext, phase] at step
      cases queue : s.queue with
      | nil => simp [queue] at step
      | cons u rest =>
          simp only [queue] at step
          cases step
          exact inv.listen _ _ (receive_elsewhere u (by rw [phase]; rfl))
  | draining bounced =>
      simp only [mainNext, phase] at step
      cases choice with
      | false =>
          simp only [Bool.false_eq_true, if_false] at step
          cases step
          refine inv.listen _ _ fun action => ?_
          simp [Main.settle, phase]
      | true =>
          simp only [if_true] at step
          cases queue : s.queue with
          | nil => simp [queue] at step
          | cons u rest =>
              simp only [queue] at step
              cases step
              exact inv.listen _ _ (receive_elsewhere u (by rw [phase]; rfl))
  | wanting action =>
      simp only [mainNext, phase] at step
      split_ifs at step with free
      cases step
      have started : s.main.start.phase = .running action := by simp [Main.start, phase]
      refine ⟨inv.off, fun locked => ?_, fun other running => ?_, fun running => ?_, inv.knows⟩
      · rw [apart (by simp [free])] at locked
        cases locked
      · obtain rfl : action = other := by simpa [started] using running
        exact ⟨rfl, fun _ member => member⟩
      · obtain rfl : action = .hdmiDown := by simpa [started] using running
        exact fresh phase
  | running action =>
      simp only [mainNext, phase] at step
      cases left : s.left with
      | cons c rest =>
          simp only [left] at step
          cases step
          exact inv_command inv phase left
      | nil =>
          simp only [left] at step
          cases step
          have held := (inv.runs action phase).1
          have finished : s.main.finish.phase = .polling := by simp [Main.finish, phase]
          refine ⟨inv.off, fun locked => ?_, fun other running => ?_, fun running => ?_,
            inv.knows⟩
          · rw [apart (by simp [held])] at locked
            cases locked
          · cases finished.symm.trans running
          · cases finished.symm.trans running

private theorem inv_power (inv : Inv s) (on : Bool) :
    Inv { s with power := some on, serial := s.serial + 1, area := s.area + 1 } := by
  refine ⟨inv.off, inv.inside, inv.runs, inv.down, ?_⟩
  have knows := inv.knows
  unfold Knows at knows ⊢
  simp only
  split at knows
  all_goals first
    | exact knows
    | exact Nat.le_succ_of_le knows
    | exact ⟨Nat.le_succ_of_le knows.1, knows.2⟩
    | exact ⟨Nat.le_succ_of_le knows.1, fun now => absurd now (by have := knows.1; omega)⟩

private theorem inv_step {a : Action} (inv : Inv s) (fresh : UpToDate s a)
    (step : (daemon report).step s a s') : Inv s' := by
  cases a with
  | power on =>
      cases step
      exact inv_power inv on
  | property =>
      cases step
      exact ⟨inv.off, inv.inside, inv.runs, inv.down, inv.knows⟩
  | main choice => exact inv_main inv fresh step
  | timer choice => exact inv_timer inv step

private theorem inv_init (init : (daemon report).init s) : Inv s := by
  obtain ⟨on, -, -, torn, starting, seeking⟩ := init
  refine ⟨fun off => ?_, fun locked => ?_, fun action running => ?_, fun running => ?_, ?_⟩
  · cases on.symm.trans off
  · rw [seeking] at locked
    cases locked
  · cases starting.symm.trans running
  · cases starting.symm.trans running
  · simp only [Knows, seeking, torn]

end Steps

/-- In every run in which no `hdmi_down` starts on an output that is enabled: where both threads
wait, no uevent is left and the screen is on, the output is enabled. -/
theorem wake_restores_output {report : Bool → Uevent} {s : State}
    (reach : ((daemon report).guarded UpToDate).Reachable s) (blocked : Blocked s)
    (awake : s.power = some true) : s.attr = true := by
  have inv : Inv s := reach.invariant
    (fun s (init : (daemon report).init s) => inv_init init)
    fun _ _ _ _ inv step => inv_step inv step.2 step.1
  have knows := inv.knows
  obtain ⟨-, -, timer⟩ := blocked
  have settled : s.torn = false ∧ s.timer.phase ≠ .sleepTorn ∧ s.timer.phase ≠ .wakePower ∧
      s.timer.phase ≠ .wakeEnable := by
    rcases timer with ⟨awaiting, -⟩ | ⟨dozing | waiting, now⟩
    · simp only [Knows, awaiting] at knows
      exact ⟨knows, by simp [awaiting]⟩
    · simp only [Knows, dozing] at knows
      cases (knows.2 now).symm.trans awake
    · simp only [Knows, waiting] at knows
      exact ⟨knows.2 now awake, by simp [waiting]⟩
  cases on : s.attr with
  | true => rfl
  | false => cases settled.1.symm.trans (inv.torn settled.2 on)

instance (s : State) (a : Action) : Decidable (UpToDate s a) :=
  match a with
  | .main _ => inferInstanceAs (Decidable (_ → _))
  | .power _ | .property | .timer _ => .isTrue trivial

def goOn (s : State) (a : Action) : State := (s.next switchUevent a).getD s

def able (s : State) (a : Action) : Bool := (s.next switchUevent a).isSome

private theorem goOn_step (s : State) (a : Action) (can : able s a = true) :
    (daemon switchUevent).step s a (goOn s a) := by
  obtain ⟨t, step⟩ := Option.isSome_iff_exists.mp can
  simp [daemon, goOn, step]

/-- The screen is on, the output enabled and the mirror not built yet. -/
def evening : State :=
  ⟨true, [], some true, 0, 0, none, false, ⟨.starting, 0, fun _ => nul⟩, [], ⟨.seeking, 0⟩⟩

private theorem evening_init : (daemon switchUevent).init evening :=
  ⟨rfl, rfl, rfl, rfl, rfl, rfl⟩

/-- What `Blocked` looks at, and the power property. -/
def view (s : State) : (Phase × Nat × TimerPhase) × Bool × Option Bool :=
  ((s.main.phase, s.queue.length, s.timer.phase), decide (s.serial = s.timer.serial), s.power)

private theorem blocked_of_view {s : State}
    (seen : view s = ((.polling, 0, .waiting), true, some true)) :
    Blocked s ∧ s.power = some true := by
  simp only [view, Prod.mk.injEq, List.length_eq_zero_iff, decide_eq_true_eq] at seen
  obtain ⟨⟨polling, empty, waiting⟩, now, awake⟩ := seen
  exact ⟨⟨polling, empty, .inr ⟨.inr waiting, now⟩⟩, awake⟩

/-- The mirror is built, the timer thread waits, the screen goes off and the sleep timeout takes
the output down. -/
def fallAsleep : List Action :=
  List.replicate 5 (.main true) ++ List.replicate 5 (.timer true) ++ [.power false] ++
    List.replicate 10 (.timer true)

/-- The main loop has torn the mirror down before the screen is on again. -/
def quietNight : List Action :=
  fallAsleep ++ [.main true, .main false] ++ List.replicate 5 (.main true) ++ [.power true] ++
    List.replicate 7 (.timer true) ++ [.main true, .main false] ++ List.replicate 5 (.main true)

theorem wake_restores_output_quietNight : ∃ s,
    ((daemon switchUevent).guarded UpToDate).Reachable s ∧
    Blocked s ∧ s.power = some true ∧ s.attr = true := by
  have ran : (Machine.follow goOn (fun s a => able s a && decide (UpToDate s a)) evening
      quietNight).map view = some ((.polling, 0, .waiting), true, some true) := by decide +kernel
  obtain ⟨s, ends, seen⟩ := Option.map_eq_some_iff.mp ran
  obtain ⟨blocked, awake⟩ := blocked_of_view seen
  have reach : ((daemon switchUevent).guarded UpToDate).Reachable s := by
    refine Machine.Reachable.follow (.start evening_init) (fun s a permitted => ?_) quietNight ends
    obtain ⟨can, fresh⟩ := Bool.and_eq_true_iff.mp permitted
    exact ⟨goOn_step s a can, of_decide_eq_true fresh⟩
  exact ⟨s, reach, blocked, awake, wake_restores_output reach blocked awake⟩

/-- The screen is on again after the main loop has read the attribute and before it has the
lock. -/
def lateTearDown : List Action :=
  fallAsleep ++ [.main true, .main false, .main true, .power true] ++
    List.replicate 7 (.timer true) ++ List.replicate 4 (.main true) ++
    [.main true, .main true, .main false, .main true]

/-- The `hdmi_down` of the evening before takes the output down again, and both threads wait. -/
theorem late_teardown_stays_dark : ∃ s, (daemon switchUevent).Reachable s ∧
    Blocked s ∧ s.power = some true ∧ s.attr = false := by
  have ran : (Machine.follow goOn able evening lateTearDown).map (fun s => (view s, s.attr)) =
      some (((.polling, 0, .waiting), true, some true), false) := by decide +kernel
  obtain ⟨s, ends, seen⟩ := Option.map_eq_some_iff.mp ran
  obtain ⟨viewed, dark⟩ := Prod.mk.inj seen
  obtain ⟨blocked, awake⟩ := blocked_of_view viewed
  exact ⟨s, Machine.Reachable.follow (.start evening_init) goOn_step lateTearDown ends, blocked,
    awake, dark⟩

end XdPlus.Hdmi.SleepWake
