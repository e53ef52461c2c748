/- Module: XdPlus/Vulkan/BigWorker
   source: vulkan/vkshim.c, struct big_worker, big_worker_main, big_worker_destroy,
     big_worker_get, run_own_thread, run_big_stack
   digest: A thread and the worker it hands its compiles to. -/

import Mathlib.Logic.Function.Basic
import XdPlus.Base.Machine

/-!
Stretches under `w->m` are one step each. A thread in `pthread_cond_wait` may wake at any
time, signalled or not, and then looks at its condition again, so the signals themselves do
not appear: a run with signals is one of these runs.
-/

set_option autoImplicit false
set_option relaxedAutoImplicit false

namespace XdPlus.Vulkan.BigWorker

open XdPlus.Base

/-- The function, the argument and the address of the result of one `run_big_stack`. -/
structure Job (F A S : Type) where
  fn : F
  args : A
  slot : S

/-- `struct big_worker`; the fields are null until the first job. -/
structure Worker (F A : Type) where
  fn : Option F
  args : Option A
  haveWork : Bool
  done : Bool
  quit : Bool
  started : Bool

/-- What `calloc` returns. -/
def Worker.zero {F A : Type} : Worker F A := ⟨none, none, false, false, false, false⟩

/-- Where the calling thread is. -/
inductive Caller (F A S : Type) where
  | idle
  | entered (j : Job F A S)
  | spawned (j : Job F A S)
  | ready (j : Job F A S)
  | waiting (j : Job F A S)
  | own (j : Job F A S)
  | finishing (j : Job F A S)
  | joining

/-- Where the worker thread is: in its loop it is about to look at `have_work` and `quit`. -/
inductive Main (F A : Type) where
  | absent
  | looping
  | running (fn : Option F) (args : Option A)
  | ran
  | exited

inductive Event (F A S R : Type) where
  | called (j : Job F A S)
  | ran (fn : Option F) (args : Option A) (r : R)
  | returned (j : Job F A S) (r : R)
  | quit

/-- `tls` is the calling thread's value of `big_worker_key`; `slots` is the memory the results
are stored to; the log is ghost. -/
structure State (F A S R : Type) where
  tls : Option (Worker F A)
  caller : Caller F A S
  main : Main F A
  slots : S → R
  log : List (Event F A S R)

section Steps

variable {F A S R : Type} [DecidableEq S]

def State.note (s : State F A S R) (e : Event F A S R) : State F A S R :=
  { s with log := s.log ++ [e] }

def State.goes (s : State F A S R) (caller : Caller F A S) : State F A S R :=
  { s with caller := caller }

/-- `w->fn = fn; w->args = args; w->have_work = 1; w->done = 0;`. -/
def Worker.post (w : Worker F A) (j : Job F A S) : Worker F A :=
  { w with fn := some j.fn, args := some j.args, haveWork := true, done := false }

/-- `fn(args)` stores `r` where `args` says. -/
def State.store (s : State F A S R) (slotOf : A → S) (args : Option A) (r : R) : State F A S R :=
  match args with
  | none => s
  | some a => { s with slots := Function.update s.slots (slotOf a) r }

/-- The steps of both threads: of `run_big_stack` with `big_worker_get`, of `run_own_thread` on the
new thread or the caller's, of `big_worker_main`, which keeps the lock from `workerDone` to its next
wait (letting the caller in before only adds runs), and of `big_worker_destroy`, before which the
key is null again. The callers of `run_big_stack` pass the address that `args` has
the result stored to. Reading the gate has either outcome. -/
inductive Step (slotOf : A → S) : State F A S R → State F A S R → Prop
  | call {s : State F A S R} {j : Job F A S} : s.caller = .idle → j.slot = slotOf j.args →
      Step slotOf s ((s.goes (.entered j)).note (.called j))
  | gateOff {s : State F A S R} {j : Job F A S} : s.caller = .entered j →
      Step slotOf s (s.goes (.own j))
  | callocFails {s : State F A S R} {j : Job F A S} : s.caller = .entered j → s.tls = none →
      Step slotOf s (s.goes (.own j))
  | createFails {s : State F A S R} {j : Job F A S} : s.caller = .entered j → s.tls = none →
      Step slotOf s { s.goes (.own j) with tls := some .zero }
  | creates {s : State F A S R} {j : Job F A S} : s.caller = .entered j → s.tls = none →
      Step slotOf s { s.goes (.spawned j) with tls := some .zero, main := .looping }
  | starts {s : State F A S R} {j : Job F A S} {w : Worker F A} :
      s.caller = .spawned j → s.tls = some w →
      Step slotOf s { s.goes (.ready j) with tls := some { w with started := true } }
  | unstarted {s : State F A S R} {j : Job F A S} {w : Worker F A} :
      s.caller = .entered j → s.tls = some w → w.started = false →
      Step slotOf s (s.goes (.own j))
  | found {s : State F A S R} {j : Job F A S} {w : Worker F A} :
      s.caller = .entered j → s.tls = some w → w.started = true →
      Step slotOf s (s.goes (.ready j))
  | posts {s : State F A S R} {j : Job F A S} {w : Worker F A} :
      s.caller = .ready j → s.tls = some w →
      Step slotOf s { s.goes (.waiting j) with tls := some (w.post j) }
  | callerWakes {s : State F A S R} {j : Job F A S} {w : Worker F A} :
      s.caller = .waiting j → s.tls = some w →
      Step slotOf s (if w.done then s.goes (.finishing j) else s)
  | returns {s : State F A S R} {j : Job F A S} : s.caller = .finishing j →
      Step slotOf s ((s.goes .idle).note (.returned j (s.slots j.slot)))
  | runsOwn {s : State F A S R} {j : Job F A S} {r : R} : s.caller = .own j →
      Step slotOf s (((s.store slotOf (some j.args) r).goes (.finishing j)).note
        (.ran (some j.fn) (some j.args) r))
  | workerWaits {s : State F A S R} {w : Worker F A} : s.main = .looping → s.tls = some w →
      w.haveWork = false → w.quit = false → Step slotOf s s
  | workerQuits {s : State F A S R} {w : Worker F A} : s.main = .looping → s.tls = some w →
      w.quit = true → Step slotOf s ({ s with main := .exited }.note .quit)
  | workerTakes {s : State F A S R} {w : Worker F A} : s.main = .looping → s.tls = some w →
      w.haveWork = true → w.quit = false →
      Step slotOf s { s with
        tls := some { w with haveWork := false }
        main := .running w.fn w.args }
  | workerRuns {s : State F A S R} {fn : Option F} {args : Option A} {r : R} :
      s.main = .running fn args →
      Step slotOf s ({ s.store slotOf args r with main := .ran }.note (.ran fn args r))
  | workerDone {s : State F A S R} {w : Worker F A} : s.main = .ran → s.tls = some w →
      Step slotOf s { s with tls := some { w with done := true }, main := .looping }
  | destroysUnstarted {s : State F A S R} {w : Worker F A} :
      s.caller = .idle → s.tls = some w → w.started = false → Step slotOf s { s with tls := none }
  | destroys {s : State F A S R} {w : Worker F A} :
      s.caller = .idle → s.tls = some w → w.started = true →
      Step slotOf s { s.goes .joining with tls := some { w with quit := true } }
  | joins {s : State F A S R} : s.caller = .joining → s.main = .exited →
      Step slotOf s { s.goes .idle with tls := none, main := .absent }

/-- A thread that has not compiled anything yet. -/
def machine (F A S R : Type) [DecidableEq S] (slotOf : A → S) : Machine (State F A S R) Unit where
  init s := s.tls = none ∧ s.caller = .idle ∧ s.main = .absent ∧ s.log = []
  step s _ s' := Step slotOf s s'

end Steps

/-- Whether a call is outstanding, and what its function has stored. -/
inductive Standing (F A S R : Type) where
  | clear
  | outstanding (j : Job F A S)
  | served (j : Job F A S) (r : R)

/-- Calls one after the other: after each its own function runs on its own argument, once, and
the call returns what was stored. Nothing else runs, and a worker sees `quit` between calls
only. -/
inductive Serves {F A S R : Type} : List (Event F A S R) → Standing F A S R → Prop
  | start : Serves [] .clear
  | called {log : List (Event F A S R)} (j : Job F A S) : Serves log .clear →
      Serves (log ++ [.called j]) (.outstanding j)
  | ran {log : List (Event F A S R)} {j : Job F A S} (r : R) : Serves log (.outstanding j) →
      Serves (log ++ [.ran (some j.fn) (some j.args) r]) (.served j r)
  | returned {log : List (Event F A S R)} {j : Job F A S} {r : R} : Serves log (.served j r) →
      Serves (log ++ [.returned j r]) .clear
  | quit {log : List (Event F A S R)} : Serves log .clear → Serves (log ++ [.quit]) .clear

section Invariant

variable {F A S R : Type} {slotOf : A → S} {s s' : State F A S R}

/-- The worker has nothing to do and has not been told to stop. -/
private structure Resting (s : State F A S R) : Prop where
  main : s.main = .absent ∨ s.main = .looping
  flags : ∀ w, s.tls = some w → w.haveWork = false ∧ w.quit = false

/-- How far the worker is with the job its caller waits for. -/
private inductive Working (s : State F A S R) (j : Job F A S) (w : Worker F A) :
    Standing F A S R → Prop
  | posted : w.haveWork = true → w.done = false → w.fn = some j.fn → w.args = some j.args →
      (s.main = .absent ∨ s.main = .looping) → Working s j w (.outstanding j)
  | taken : w.haveWork = false → w.done = false → s.main = .running (some j.fn) (some j.args) →
      Working s j w (.outstanding j)
  | ran {r : R} : w.haveWork = false → w.done = false → s.main = .ran → s.slots j.slot = r →
      Working s j w (.served j r)
  | done {r : R} : w.haveWork = false → w.done = true → s.main = .looping →
      s.slots j.slot = r → Working s j w (.served j r)

/-- What the calling thread's place says about the standing of the log and the worker. -/
private def Fits (slotOf : A → S) (s : State F A S R) (st : Standing F A S R) : Prop :=
  match s.caller with
  | .idle => st = .clear ∧ Resting s
  | .entered j | .spawned j | .ready j | .own j =>
      st = .outstanding j ∧ j.slot = slotOf j.args ∧ Resting s
  | .waiting j => j.slot = slotOf j.args ∧
      ∃ w, s.tls = some w ∧ w.quit = false ∧ Working s j w st
  | .finishing j => ∃ r, st = .served j r ∧ s.slots j.slot = r ∧ Resting s
  | .joining => st = .clear ∧ (s.main = .absent ∨ s.main = .looping ∨ s.main = .exited) ∧
      ∀ w, s.tls = some w → w.haveWork = false

private def Sound (slotOf : A → S) (s : State F A S R) : Prop :=
  ∃ st, Serves s.log st ∧ Fits slotOf s st

private theorem Fits.place {st : Standing F A S R} (fits : Fits slotOf s st) :
    Resting s ∨ (∃ j, s.caller = .waiting j) ∨ s.caller = .joining := by
  unfold Fits at fits
  cases at_caller : s.caller with
  | waiting j => exact .inr (.inl ⟨j, rfl⟩)
  | joining => exact .inr (.inr rfl)
  | idle =>
      rw [at_caller] at fits
      exact .inl fits.2
  | finishing j =>
      rw [at_caller] at fits
      obtain ⟨r, -, -, rest⟩ := fits
      exact .inl rest
  | _ =>
      rw [at_caller] at fits
      exact .inl fits.2.2

private theorem Fits.waits {st : Standing F A S R} {j : Job F A S} (fits : Fits slotOf s st)
    (waiting : s.caller = .waiting j) :
    j.slot = slotOf j.args ∧ ∃ w, s.tls = some w ∧ w.quit = false ∧ Working s j w st := by
  simpa only [Fits, waiting] using fits

private theorem Fits.busy {st : Standing F A S R} (fits : Fits slotOf s st)
    (elsewhere : s.main ≠ .absent ∧ s.main ≠ .looping ∧ s.main ≠ .exited) :
    ∃ j, s.caller = .waiting j := by
  rcases fits.place with rest | waiting | joining
  · rcases rest.main with absent | looping
    · exact absurd absent elsewhere.1
    · exact absurd looping elsewhere.2.1
  · exact waiting
  · simp only [Fits, joining] at fits
    rcases fits.2.1 with absent | looping | exited
    · exact absurd absent elsewhere.1
    · exact absurd looping elsewhere.2.1
    · exact absurd exited elsewhere.2.2

private theorem Fits.posted {st : Standing F A S R} {w : Worker F A} (fits : Fits slotOf s st)
    (here : s.tls = some w) (work : w.haveWork = true) : ∃ j, s.caller = .waiting j := by
  rcases fits.place with rest | waiting | joining
  · cases (rest.flags w here).1.symm.trans work
  · exact waiting
  · simp only [Fits, joining] at fits
    cases (fits.2.2 w here).symm.trans work

private theorem Fits.told {st : Standing F A S R} {w : Worker F A} (fits : Fits slotOf s st)
    (here : s.tls = some w) (quit : w.quit = true) : s.caller = .joining := by
  rcases fits.place with rest | ⟨j, waiting⟩ | joining
  · cases (rest.flags w here).2.symm.trans quit
  · obtain ⟨-, w', here', unquit, -⟩ := fits.waits waiting
    obtain rfl : w = w' := Option.some.inj (here.symm.trans here')
    cases unquit.symm.trans quit
  · exact joining

variable [DecidableEq S]

private theorem sound_step (sound : Sound slotOf s) (step : Step slotOf s s') :
    Sound slotOf s' := by
  obtain ⟨st, serves, fits⟩ := sound
  cases step with
  | @call j idle slot =>
      simp only [Fits, idle] at fits
      obtain ⟨rfl, rest⟩ := fits
      exact ⟨.outstanding j, serves.called j, rfl, slot, rest.main, rest.flags⟩
  | gateOff entered =>
      simp only [Fits, entered] at fits
      exact ⟨st, serves, fits.1, fits.2.1, fits.2.2.main, fits.2.2.flags⟩
  | callocFails entered none_yet =>
      simp only [Fits, entered] at fits
      exact ⟨st, serves, fits.1, fits.2.1, fits.2.2.main, fits.2.2.flags⟩
  | createFails entered none_yet =>
      simp only [Fits, entered] at fits
      refine ⟨st, serves, fits.1, fits.2.1, fits.2.2.main, ?_⟩
      rintro _ ⟨⟩
      exact ⟨rfl, rfl⟩
  | creates entered none_yet =>
      simp only [Fits, entered] at fits
      refine ⟨st, serves, fits.1, fits.2.1, .inr rfl, ?_⟩
      rintro _ ⟨⟩
      exact ⟨rfl, rfl⟩
  | @starts j w spawned here =>
      simp only [Fits, spawned] at fits
      refine ⟨st, serves, fits.1, fits.2.1, fits.2.2.main, ?_⟩
      rintro _ ⟨⟩
      exact fits.2.2.flags w here
  | unstarted entered here started =>
      simp only [Fits, entered] at fits
      exact ⟨st, serves, fits.1, fits.2.1, fits.2.2.main, fits.2.2.flags⟩
  | found entered here started =>
      simp only [Fits, entered] at fits
      exact ⟨st, serves, fits.1, fits.2.1, fits.2.2.main, fits.2.2.flags⟩
  | @posts j w ready here =>
      simp only [Fits, ready] at fits
      obtain ⟨rfl, slot, rest⟩ := fits
      exact ⟨.outstanding j, serves, slot, _, rfl, (rest.flags w here).2,
        .posted rfl rfl rfl rfl rest.main⟩
  | @callerWakes j w waiting here =>
      split_ifs with done
      · obtain ⟨slot, w', here', unquit, working⟩ := fits.waits waiting
        obtain rfl : w = w' := Option.some.inj (here.symm.trans here')
        cases working with
        | posted _ undone => rw [done] at undone; cases undone
        | taken _ undone => rw [done] at undone; cases undone
        | ran _ undone => rw [done] at undone; cases undone
        | done idle _ looping stored =>
            refine ⟨_, serves, _, rfl, stored, .inr looping, ?_⟩
            intro w' here'
            obtain rfl : w = w' := Option.some.inj (here.symm.trans here')
            exact ⟨idle, unquit⟩
      · exact ⟨st, serves, fits⟩
  | @returns j finishing =>
      simp only [Fits, finishing] at fits
      obtain ⟨r, rfl, rfl, rest⟩ := fits
      exact ⟨.clear, serves.returned, rfl, rest.main, rest.flags⟩
  | @runsOwn j r own =>
      simp only [Fits, own] at fits
      obtain ⟨rfl, slot, rest⟩ := fits
      refine ⟨.served j r, serves.ran r, r, rfl, ?_, rest.main, rest.flags⟩
      simp only [State.note, State.goes, State.store, slot, Function.update_self]
  | workerWaits looping here idle staying => exact ⟨st, serves, fits⟩
  | workerQuits looping here quit =>
      have joining := fits.told here quit
      simp only [Fits, joining] at fits
      obtain ⟨rfl, -, idle⟩ := fits
      refine ⟨.clear, serves.quit, ?_⟩
      simp only [Fits, State.note, joining]
      exact ⟨trivial, .inr (.inr trivial), idle⟩
  | @workerTakes w looping here work staying =>
      obtain ⟨j, waiting⟩ := fits.posted here work
      obtain ⟨slot, w', here', unquit, working⟩ := fits.waits waiting
      obtain rfl : w = w' := Option.some.inj (here.symm.trans here')
      refine ⟨st, serves, ?_⟩
      simp only [Fits, waiting]
      refine ⟨slot, _, rfl, unquit, ?_⟩
      cases working with
      | posted _ undone fn args _ => exact .taken rfl undone (by rw [fn, args])
      | taken idle => cases idle.symm.trans work
      | ran idle => cases idle.symm.trans work
      | done idle => cases idle.symm.trans work
  | @workerRuns fn args r running =>
      obtain ⟨j, waiting⟩ := fits.busy (by simp [running])
      obtain ⟨slot, w, here, unquit, working⟩ := fits.waits waiting
      cases working with
      | posted _ _ _ _ elsewhere => simp [running] at elsewhere
      | taken idle undone taken =>
          rw [running] at taken
          obtain ⟨rfl, rfl⟩ : fn = some j.fn ∧ args = some j.args := by
            cases taken
            exact ⟨rfl, rfl⟩
          refine ⟨.served j r, serves.ran r, ?_⟩
          simp only [Fits, State.note, State.store, waiting]
          refine ⟨slot, w, here, unquit, .ran idle undone rfl ?_⟩
          rw [slot]
          exact Function.update_self ..
      | ran _ _ elsewhere => cases running.symm.trans elsewhere
      | done _ _ elsewhere => cases running.symm.trans elsewhere
  | @workerDone w ran here =>
      obtain ⟨j, waiting⟩ := fits.busy (by simp [ran])
      obtain ⟨slot, w', here', unquit, working⟩ := fits.waits waiting
      obtain rfl : w = w' := Option.some.inj (here.symm.trans here')
      refine ⟨st, serves, ?_⟩
      simp only [Fits, waiting]
      refine ⟨slot, _, rfl, unquit, ?_⟩
      cases working with
      | posted _ _ _ _ elsewhere => simp [ran] at elsewhere
      | taken _ _ elsewhere => cases ran.symm.trans elsewhere
      | ran idle _ _ stored => exact .done idle rfl rfl stored
      | done _ _ elsewhere => cases ran.symm.trans elsewhere
  | destroysUnstarted idle here unstarted =>
      simp only [Fits, idle] at fits
      refine ⟨st, serves, ?_⟩
      simp only [Fits, idle]
      refine ⟨fits.1, fits.2.main, ?_⟩
      rintro _ ⟨⟩
  | @destroys w idle here started =>
      simp only [Fits, idle] at fits
      refine ⟨st, serves, fits.1, ?_, ?_⟩
      · rcases fits.2.main with absent | looping
        · exact .inl absent
        · exact .inr (.inl looping)
      · rintro _ ⟨⟩
        exact (fits.2.flags w here).1
  | joins joining exited =>
      simp only [Fits, joining] at fits
      refine ⟨st, serves, fits.1, .inl rfl, ?_⟩
      rintro _ ⟨⟩

/-- In every run every call is served by its own function on its own argument, exactly once,
and returns what that stored; and the worker sees `quit` with no call outstanding. -/
theorem jobs_served (slotOf : A → S) (s : State F A S R)
    (reach : (machine F A S R slotOf).Reachable s) : ∃ st, Serves s.log st := by
  have sound : Sound slotOf s := by
    refine reach.invariant ?_ ?_
    · rintro s ⟨none_yet, idle, absent, empty⟩
      refine ⟨.clear, by rw [empty]; exact .start, ?_⟩
      simp only [Fits, idle]
      refine ⟨trivial, .inl absent, ?_⟩
      intro w here
      rw [none_yet] at here
      cases here
    · intro s _ s' _ sound step
      exact sound_step sound step
  obtain ⟨st, serves, -⟩ := sound
  exact ⟨st, serves⟩

/-- A job whose result goes to address 3, on a machine of numbers. -/
def oneJob : Job Nat Nat Nat := ⟨1, 2, 3⟩

def nextJob : Job Nat Nat Nat := ⟨4, 5, 6⟩

/-- The struct serves two jobs, the caller waking once for nothing, and is destroyed. -/
theorem jobs_served_twoJobs : ∃ s, (machine Nat Nat Nat Nat (· + 1)).Reachable s ∧
    s.log = [.called oneJob, .ran (some 1) (some 2) 7, .returned oneJob 7, .called nextJob,
      .ran (some 4) (some 5) 8, .returned nextJob 8, .quit] ∧
    s.tls = none ∧ ∃ st, Serves s.log st := by
  have fresh : (machine Nat Nat Nat Nat (· + 1)).Reachable
      ⟨none, .idle, .absent, fun _ => 0, []⟩ := .start ⟨rfl, rfl, rfl, rfl⟩
  have called := fresh.next (l := ()) (Step.call (j := oneJob) rfl rfl)
  have created := called.next (l := ()) (Step.creates rfl rfl)
  have started := created.next (l := ()) (Step.starts rfl rfl)
  have posted := started.next (l := ()) (Step.posts rfl rfl)
  have taken := posted.next (l := ()) (Step.workerTakes rfl rfl rfl rfl)
  have ran := taken.next (l := ()) (Step.workerRuns (r := 7) rfl)
  have done := ran.next (l := ()) (Step.workerDone rfl rfl)
  have woken := done.next (l := ()) (Step.callerWakes (j := oneJob) rfl rfl)
  have served := woken.next (l := ()) (Step.returns (j := oneJob) rfl)
  have again := served.next (l := ()) (Step.call (j := nextJob) rfl rfl)
  have found := again.next (l := ()) (Step.found rfl rfl rfl)
  have reused := found.next (l := ()) (Step.posts rfl rfl)
  have early := reused.next (l := ()) (Step.callerWakes (j := nextJob) rfl rfl)
  have taken' := early.next (l := ()) (Step.workerTakes rfl rfl rfl rfl)
  have ran' := taken'.next (l := ()) (Step.workerRuns (r := 8) rfl)
  have done' := ran'.next (l := ()) (Step.workerDone rfl rfl)
  have woken' := done'.next (l := ()) (Step.callerWakes (j := nextJob) rfl rfl)
  have served' := woken'.next (l := ()) (Step.returns (j := nextJob) rfl)
  have destroyed := served'.next (l := ()) (Step.destroys rfl rfl rfl)
  have quits := destroyed.next (l := ()) (Step.workerQuits rfl rfl rfl)
  have reach := quits.next (l := ()) (Step.joins rfl rfl)
  exact ⟨_, reach, rfl, rfl, jobs_served _ _ reach⟩

end Invariant

end XdPlus.Vulkan.BigWorker
