/- Module: XdPlus/Vulkan/BigWorkerHandoff
   source: vulkan/vkshim.c, struct big_worker, big_worker_main, big_worker_destroy,
     big_worker_get, run_own_thread, run_big_stack
   digest: The mutex and the condition variables of a worker; no wakeup is lost. -/

import XdPlus.Base.Progress
import XdPlus.Vulkan.BigWorker

/-!
Every call of a `pthread` function is a step of its own. `pthread_cond_wait` is three: it
queues the thread and lets the lock go at once, something takes the thread out of the queue,
and the thread locks again. A signal takes out who is queued, and is lost if nobody is.
-/

set_option autoImplicit false
set_option relaxedAutoImplicit false

namespace XdPlus.Vulkan.BigWorkerHandoff

open XdPlus.Base
open BigWorker (Job Worker Event)

/-- Who can own `w->m`. -/
inductive Party
  | caller | worker
  deriving DecidableEq

/-- Where the calling thread is, about to make the step that the name says. -/
inductive Caller (F A S : Type) where
  | idle
  | entered (j : Job F A S)
  | spawned (j : Job F A S)
  | ready (j : Job F A S)
  | posting (j : Job F A S)
  | signalling (j : Job F A S)
  | checking (j : Job F A S)
  | asleep (j : Job F A S)
  | woken (j : Job F A S)
  | served (j : Job F A S)
  | own (j : Job F A S)
  | finishing (j : Job F A S)
  | exiting
  | telling
  | alarming
  | told
  | joining

/-- Where the worker thread is. -/
inductive Main (F A : Type) where
  | absent
  | starting
  | checking
  | asleep
  | woken
  | taken (fn : Option F) (args : Option A)
  | running (fn : Option F) (args : Option A)
  | ran
  | reporting
  | signalling
  | leaving
  | exited

/-- The process as one worker and its caller see it. -/
structure State (F A S R : Type) where
  tls : Option (Worker F A)
  mutex : Option Party
  caller : Caller F A S
  main : Main F A
  slots : S → R
  log : List (Event F A S R)

section Steps

variable {F A S R : Type} [DecidableEq S]

def State.note (s : State F A S R) (e : Event F A S R) : State F A S R :=
  { s with log := s.log ++ [e] }

def State.goes (s : State F A S R) (caller : Caller F A S) : State F A S R :=
  { s with caller := caller }

def State.works (s : State F A S R) (main : Main F A) : State F A S R :=
  { s with main := main }

/-- `pthread_mutex_lock` when it returns, and `pthread_mutex_unlock`. -/
def State.owned (s : State F A S R) (mutex : Option Party) : State F A S R :=
  { s with mutex := mutex }

/-- `pthread_cond_signal(&w->work_cv)`. -/
def State.signalWork (s : State F A S R) : State F A S R :=
  match s.main with
  | .asleep => { s with main := .woken }
  | _ => s

/-- `pthread_cond_signal(&w->done_cv)`. -/
def State.signalDone (s : State F A S R) : State F A S R :=
  match s.caller with
  | .asleep j => { s with caller := .woken j }
  | _ => s

/-- `fn(args)` stores `r` where `args` says. -/
def State.store (s : State F A S R) (slotOf : A → S) (args : Option A) (r : R) : State F A S R :=
  match args with
  | none => s
  | some a => { s with slots := Function.update s.slots (slotOf a) r }

/-- The steps of the two threads: of `run_big_stack` with `big_worker_get`, of `run_own_thread` on
the new thread or the caller's, of `big_worker_destroy`, and of `big_worker_main`. A function that
is run returns. -/
inductive Step (slotOf : A → S) : State F A S R → State F A S R → Prop
  | gateOff {s : State F A S R} {j : Job F A S} : s.caller = .entered j →
      Step slotOf s (s.goes (.own j))
  | callocFails {s : State F A S R} {j : Job F A S} : s.caller = .entered j → s.tls = none →
      Step slotOf s (s.goes (.own j))
  | createFails {s : State F A S R} {j : Job F A S} : s.caller = .entered j → s.tls = none →
      Step slotOf s { s.goes (.own j) with tls := some .zero, mutex := none }
  | creates {s : State F A S R} {j : Job F A S} : s.caller = .entered j → s.tls = none →
      Step slotOf s
        { s.goes (.spawned j) with tls := some .zero, mutex := none, main := .starting }
  | starts {s : State F A S R} {j : Job F A S} {w : Worker F A} :
      s.caller = .spawned j → s.tls = some w →
      Step slotOf s { s.goes (.ready j) with tls := some { w with started := true } }
  | unstarted {s : State F A S R} {j : Job F A S} {w : Worker F A} :
      s.caller = .entered j → s.tls = some w → w.started = false →
      Step slotOf s (s.goes (.own j))
  | found {s : State F A S R} {j : Job F A S} {w : Worker F A} :
      s.caller = .entered j → s.tls = some w → w.started = true →
      Step slotOf s (s.goes (.ready j))
  | locks {s : State F A S R} {j : Job F A S} : s.caller = .ready j → s.mutex = none →
      Step slotOf s ((s.goes (.posting j)).owned (some .caller))
  | posts {s : State F A S R} {j : Job F A S} {w : Worker F A} :
      s.caller = .posting j → s.tls = some w →
      Step slotOf s { s.goes (.signalling j) with tls := some (w.post j) }
  | signals {s : State F A S R} {j : Job F A S} : s.caller = .signalling j →
      Step slotOf s (s.signalWork.goes (.checking j))
  | sees {s : State F A S R} {j : Job F A S} {w : Worker F A} : s.caller = .checking j →
      s.tls = some w → w.done = true → Step slotOf s (s.goes (.served j))
  | waits {s : State F A S R} {j : Job F A S} {w : Worker F A} : s.caller = .checking j →
      s.tls = some w → w.done = false → Step slotOf s ((s.goes (.asleep j)).owned none)
  | relocks {s : State F A S R} {j : Job F A S} : s.caller = .woken j → s.mutex = none →
      Step slotOf s ((s.goes (.checking j)).owned (some .caller))
  | unlocks {s : State F A S R} {j : Job F A S} : s.caller = .served j →
      Step slotOf s ((s.goes (.finishing j)).owned none)
  | returns {s : State F A S R} {j : Job F A S} : s.caller = .finishing j →
      Step slotOf s ((s.goes .idle).note (.returned j (s.slots j.slot)))
  | runsOwn {s : State F A S R} {j : Job F A S} {r : R} : s.caller = .own j →
      Step slotOf s (((s.store slotOf (some j.args) r).goes (.finishing j)).note
        (.ran (some j.fn) (some j.args) r))
  | locksToTell {s : State F A S R} : s.caller = .exiting → s.mutex = none →
      Step slotOf s ((s.goes .telling).owned (some .caller))
  | tells {s : State F A S R} {w : Worker F A} : s.caller = .telling → s.tls = some w →
      Step slotOf s { s.goes .alarming with tls := some { w with quit := true } }
  | alarms {s : State F A S R} : s.caller = .alarming →
      Step slotOf s (s.signalWork.goes .told)
  | unlocksTold {s : State F A S R} : s.caller = .told →
      Step slotOf s ((s.goes .joining).owned none)
  | joins {s : State F A S R} : s.caller = .joining → s.main = .exited →
      Step slotOf s { s.goes .idle with tls := none, main := .absent }
  | workerStarts {s : State F A S R} : s.main = .starting → s.mutex = none →
      Step slotOf s ((s.works .checking).owned (some .worker))
  | workerWaits {s : State F A S R} {w : Worker F A} : s.main = .checking → s.tls = some w →
      w.haveWork = false → w.quit = false → Step slotOf s ((s.works .asleep).owned none)
  | workerRelocks {s : State F A S R} : s.main = .woken → s.mutex = none →
      Step slotOf s ((s.works .checking).owned (some .worker))
  | workerQuits {s : State F A S R} {w : Worker F A} : s.main = .checking → s.tls = some w →
      w.quit = true → Step slotOf s ((s.works .leaving).note .quit)
  | workerTakes {s : State F A S R} {w : Worker F A} : s.main = .checking → s.tls = some w →
      w.haveWork = true → w.quit = false →
      Step slotOf s
        { s.works (.taken w.fn w.args) with tls := some { w with haveWork := false } }
  | workerUnlocks {s : State F A S R} {fn : Option F} {args : Option A} :
      s.main = .taken fn args → Step slotOf s ((s.works (.running fn args)).owned none)
  | workerRuns {s : State F A S R} {fn : Option F} {args : Option A} {r : R} :
      s.main = .running fn args →
      Step slotOf s (((s.store slotOf args r).works .ran).note (.ran fn args r))
  | workerLocks {s : State F A S R} : s.main = .ran → s.mutex = none →
      Step slotOf s ((s.works .reporting).owned (some .worker))
  | workerReports {s : State F A S R} {w : Worker F A} : s.main = .reporting → s.tls = some w →
      Step slotOf s { s.works .signalling with tls := some { w with done := true } }
  | workerSignals {s : State F A S R} : s.main = .signalling →
      Step slotOf s (s.signalDone.works .checking)
  | workerLeaves {s : State F A S R} : s.main = .leaving →
      Step slotOf s ((s.works .exited).owned none)

/-- What the thread is asked to do: a call, or its own end, when the key is null again before
`big_worker_destroy` is called. -/
inductive Asked (slotOf : A → S) : State F A S R → State F A S R → Prop
  | call {s : State F A S R} {j : Job F A S} : s.caller = .idle → j.slot = slotOf j.args →
      Asked slotOf s ((s.goes (.entered j)).note (.called j))
  | exits {s : State F A S R} {w : Worker F A} :
      s.caller = .idle → s.tls = some w → w.started = true → Asked slotOf s (s.goes .exiting)
  | exitsUnstarted {s : State F A S R} {w : Worker F A} :
      s.caller = .idle → s.tls = some w → w.started = false → Asked slotOf s { s with tls := none }

/-- A wait may end without a signal. -/
inductive Spurious : State F A S R → State F A S R → Prop
  | caller {s : State F A S R} {j : Job F A S} : s.caller = .asleep j →
      Spurious s (s.goes (.woken j))
  | worker {s : State F A S R} : s.main = .asleep → Spurious s (s.works .woken)

/-- Why a step is made. -/
inductive Cause
  | thread | app | spurious

/-- A thread that has not compiled anything yet. -/
def machine (F A S R : Type) [DecidableEq S] (slotOf : A → S) : Machine (State F A S R) Cause where
  init s := s.tls = none ∧ s.mutex = none ∧ s.caller = .idle ∧ s.main = .absent ∧ s.log = []
  step s cause s' :=
    match cause with
    | .thread => Step slotOf s s'
    | .app => Asked slotOf s s'
    | .spurious => Spurious s s'

/-- Nothing was asked for that is not done, and a worker sleeps until it is needed. -/
def Settled (s : State F A S R) : Prop :=
  s.caller = .idle ∧ s.mutex = none ∧ (s.main = .absent ∨ s.main = .asleep)

end Steps

section Coarse

variable {F A S R : Type}

def Caller.coarse : Caller F A S → BigWorker.Caller F A S
  | idle | exiting | telling => .idle
  | entered j => .entered j
  | spawned j => .spawned j
  | ready j | posting j => .ready j
  | signalling j | checking j | asleep j | woken j => .waiting j
  | served j | finishing j => .finishing j
  | own j => .own j
  | alarming | told | joining => .joining

def Main.coarse : Main F A → BigWorker.Main F A
  | absent => .absent
  | starting | checking | asleep | woken | signalling => .looping
  | taken fn args | running fn args => .running fn args
  | ran | reporting => .ran
  | leaving | exited => .exited

/-- What the model without the lock keeps of a state. -/
def State.coarse (s : State F A S R) : BigWorker.State F A S R :=
  ⟨s.tls, s.caller.coarse, s.main.coarse, s.slots, s.log⟩

variable {slotOf : A → S} {s s' : State F A S R}

private theorem coarse_signalWork : s.signalWork.coarse = s.coarse := by
  unfold State.signalWork
  split
  · simp only [State.coarse, Main.coarse, *]
  · rfl

private theorem coarse_signalDone : s.signalDone.coarse = s.coarse := by
  unfold State.signalDone
  split
  · simp only [State.coarse, Caller.coarse, *]
  · rfl

private theorem coarse_goes {caller : Caller F A S} (same : caller.coarse = s.caller.coarse) :
    (s.goes caller).coarse = s.coarse := by
  simp only [State.coarse, State.goes, same]

private theorem coarse_works {main : Main F A} (same : main.coarse = s.main.coarse) :
    (s.works main).coarse = s.coarse := by
  simp only [State.coarse, State.works, same]

end Coarse

section Invariant

variable {F A S R : Type} {slotOf : A → S} {s s' : State F A S R}

/-- Where the calling thread owns the lock. -/
def Caller.owns : Caller F A S → Prop
  | posting _ | signalling _ | checking _ | served _ | telling | alarming | told => True
  | _ => False

/-- Where the worker owns it. -/
def Main.owns : Main F A → Prop
  | checking | taken .. | reporting | signalling | leaving => True
  | _ => False

/-- Somewhere between two jobs. -/
private def Main.between : Main F A → Prop
  | starting | checking | asleep | woken => True
  | _ => False

/-- In the middle of a job. -/
private def Main.busy : Main F A → Prop
  | taken .. | running .. | ran | reporting => True
  | _ => False

private structure Rests (main : Main F A) (w : Worker F A) : Prop where
  between : main.between
  idle : w.haveWork = false
  staying : w.quit = false

/-- How far the worker is with a job. It sleeps over one only until the signal that the caller
is about to give, and so does the caller over the result. -/
private inductive Works (caller : Caller F A S) (main : Main F A) (w : Worker F A) : Prop
  | posted : w.haveWork = true → w.done = false → main.between →
      (main = .asleep → ∃ j, caller = .signalling j) → Works caller main w
  | taken : w.haveWork = false → w.done = false → main.busy → Works caller main w
  | reported : w.haveWork = false → w.done = true → main = .signalling → Works caller main w
  | signalled : w.haveWork = false → w.done = true → main.between →
      (∀ j, caller ≠ .asleep j) → Works caller main w

/-- It quits, or is still on its way to see that it should. -/
private def Main.ending : Main F A → Prop
  | starting | checking | woken | leaving | exited => True
  | _ => False

private def Place (caller : Caller F A S) (main : Main F A) (tls : Option (Worker F A)) : Prop :=
  match caller with
  | .idle | .entered _ | .own _ | .finishing _ =>
      main = .absent ∧ (∀ w, tls = some w → w.started = false) ∨
        ∃ w, tls = some w ∧ w.started = true ∧ Rests main w
  | .spawned _ => ∃ w, tls = some w ∧ Rests main w
  | .ready _ | .posting _ | .served _ | .exiting | .telling =>
      ∃ w, tls = some w ∧ w.started = true ∧ Rests main w
  | .signalling _ | .checking _ | .asleep _ | .woken _ =>
      ∃ w, tls = some w ∧ w.started = true ∧ w.quit = false ∧ Works caller main w
  | .alarming => ∃ w, tls = some w ∧ w.haveWork = false ∧ w.quit = true ∧ main.between
  | .told | .joining => ∃ w, tls = some w ∧ w.haveWork = false ∧ w.quit = true ∧ main.ending

private structure Owned (mutex : Option Party) (caller : Caller F A S) (main : Main F A) :
    Prop where
  caller : mutex = some .caller ↔ caller.owns
  worker : mutex = some .worker ↔ main.owns

private structure Sound (s : State F A S R) : Prop where
  owned : Owned s.mutex s.caller s.main
  place : Place s.caller s.main s.tls

section Lock

variable {mutex : Option Party} {caller caller' : Caller F A S} {main main' : Main F A}

private theorem Owned.apart (owned : Owned mutex caller main) (mine : caller.owns) :
    ¬ main.owns := by
  intro its
  cases (owned.caller.mpr mine).symm.trans (owned.worker.mpr its)

private theorem owned_none (caller_out : ¬ caller.owns) (worker_out : ¬ main.owns) :
    Owned none caller main :=
  ⟨iff_of_false nofun caller_out, iff_of_false nofun worker_out⟩

private theorem Owned.goes (owned : Owned mutex caller main)
    (mine : caller.owns ↔ caller'.owns) (its : main.owns ↔ main'.owns) :
    Owned mutex caller' main' :=
  ⟨owned.caller.trans mine, owned.worker.trans its⟩

private theorem Owned.callerLocks (owned : Owned none caller main) (inside : caller'.owns) :
    Owned (some .caller) caller' main :=
  ⟨iff_of_true rfl inside, iff_of_false nofun fun its => (nomatch owned.worker.mpr its)⟩

private theorem Owned.workerLocks (owned : Owned none caller main) (inside : main'.owns) :
    Owned (some .worker) caller main' :=
  ⟨iff_of_false nofun fun mine => (nomatch owned.caller.mpr mine), iff_of_true rfl inside⟩

private theorem Owned.callerUnlocks (owned : Owned mutex caller main) (inside : caller.owns)
    (out : ¬ caller'.owns) : Owned none caller' main :=
  owned_none out (owned.apart inside)

private theorem Owned.workerUnlocks (owned : Owned mutex caller main) (inside : main.owns)
    (out : ¬ main'.owns) : Owned none caller main' :=
  owned_none (fun mine => owned.apart mine inside) out

end Lock

section Places

variable {caller caller' : Caller F A S} {main main' : Main F A} {w : Worker F A}
  {tls : Option (Worker F A)}

private theorem Works.callerGoes (works : Works caller main w) (up : ∀ j, caller' ≠ .asleep j)
    (awake : ∀ j, caller = .signalling j → main ≠ .asleep) : Works caller' main w := by
  cases works with
  | posted work undone between sleeps =>
      refine .posted work undone between fun asleep => ?_
      obtain ⟨j, signalling⟩ := sleeps asleep
      exact absurd asleep (awake j signalling)
  | taken idle undone busy => exact .taken idle undone busy
  | reported idle done signalling => exact .reported idle done signalling
  | signalled idle done between _ => exact .signalled idle done between up

private theorem Works.within (works : Works caller main w) :
    main.between ∨ main.busy ∨ main = .signalling := by
  cases works with
  | posted _ _ between _ | signalled _ _ between _ => exact .inl between
  | taken _ _ busy => exact .inr (.inl busy)
  | reported _ _ signalling => exact .inr (.inr signalling)

private theorem Main.ending_of_between (between : main.between) (awake : main ≠ .asleep) :
    main.ending := by
  cases main with
  | starting | checking | woken => trivial
  | asleep => exact absurd rfl awake
  | _ => exact between.elim

private theorem Main.apart_of_busy (busy : main.busy) :
    main ≠ .absent ∧ ¬ main.between ∧ ¬ main.ending := by
  cases main with
  | taken | running | ran | reporting => exact ⟨nofun, id, id⟩
  | _ => exact busy.elim

private theorem Works.workerGoes (works : Works caller main w) (before : main.between)
    (after : main'.between) (sleeps : main' = .asleep → w.haveWork = false) :
    Works caller main' w := by
  cases works with
  | posted work undone _ _ =>
      refine .posted work undone after fun asleep => ?_
      cases work.symm.trans (sleeps asleep)
  | taken _ _ busy => exact absurd before (Main.apart_of_busy busy).2.1
  | reported _ _ signalling =>
      rw [signalling] at before
      exact before.elim
  | signalled idle done _ up => exact .signalled idle done after up

private theorem Works.goesOn (works : Works caller main w) (before : main.busy)
    (after : main'.busy) : Works caller main' w := by
  cases works with
  | taken idle undone _ => exact .taken idle undone after
  | reported _ _ signalling =>
      rw [signalling] at before
      exact before.elim
  | posted _ _ between _ | signalled _ _ between _ =>
      exact absurd between (Main.apart_of_busy before).2.1

private theorem Works.sleeps {j : Job F A S} (works : Works (.checking j) main w)
    (undone : w.done = false) : Works (.asleep j) main w := by
  cases works with
  | posted work undone between sleeps =>
      refine .posted work undone between fun asleep => ?_
      obtain ⟨j, ⟨⟩⟩ := sleeps asleep
  | taken idle undone busy => exact .taken idle undone busy
  | reported _ done | signalled _ done => cases done.symm.trans undone

private theorem Works.rests (works : Works caller main w) (done : w.done = true)
    (staying : w.quit = false) (elsewhere : main ≠ .signalling) : Rests main w := by
  cases works with
  | posted _ undone | taken _ undone => cases done.symm.trans undone
  | reported _ _ signalling => exact absurd signalling elsewhere
  | signalled idle _ between _ => exact ⟨between, idle, staying⟩

private theorem Works.takes {fn : Option F} {args : Option A} (works : Works caller main w)
    (work : w.haveWork = true) :
    Works caller (.taken fn args) { w with haveWork := false } := by
  cases works with
  | posted _ undone => exact .taken rfl undone trivial
  | taken idle | reported idle | signalled idle => cases work.symm.trans idle

private theorem Works.reports (works : Works caller .reporting w) :
    Works caller .signalling { w with done := true } := by
  cases works with
  | posted _ _ between | signalled _ _ between => exact between.elim
  | taken idle => exact .reported idle rfl rfl
  | reported _ _ elsewhere => cases elsewhere

private theorem Works.signals (works : Works caller .signalling w)
    (up : ∀ j, caller' ≠ .asleep j) : Works caller' .checking w := by
  cases works with
  | posted _ _ between | signalled _ _ between => exact between.elim
  | taken _ _ busy => exact busy.elim
  | reported idle done _ => exact .signalled idle done trivial up

private theorem Place.workerGoes (place : Place caller main tls) (there : main ≠ .absent)
    (rests : ∀ w, tls = some w → Rests main w → main'.between)
    (works : ∀ w, tls = some w → w.quit = false → Works caller main w → Works caller main' w)
    (alarming : ∀ w, tls = some w → w.quit = true → caller = .alarming → main.between →
      main'.between)
    (ending : ∀ w, tls = some w → w.quit = true → main.ending → main'.ending) :
    Place caller main' tls := by
  cases caller with
  | idle | entered | own | finishing =>
      rcases place with ⟨absent, -⟩ | ⟨w, here, started, rest⟩
      · exact absurd absent there
      · exact .inr ⟨w, here, started, rests w here rest, rest.idle, rest.staying⟩
  | spawned =>
      obtain ⟨w, here, rest⟩ := place
      exact ⟨w, here, rests w here rest, rest.idle, rest.staying⟩
  | ready | posting | served | exiting | telling =>
      obtain ⟨w, here, started, rest⟩ := place
      exact ⟨w, here, started, rests w here rest, rest.idle, rest.staying⟩
  | signalling | checking | asleep | woken =>
      obtain ⟨w, here, started, staying, working⟩ := place
      exact ⟨w, here, started, staying, works w here staying working⟩
  | alarming =>
      obtain ⟨w, here, idle, quit, between⟩ := place
      exact ⟨w, here, idle, quit, alarming w here quit rfl between⟩
  | told | joining =>
      obtain ⟨w, here, idle, quit, ends⟩ := place
      exact ⟨w, here, idle, quit, ending w here quit ends⟩

private theorem Place.wakes (place : Place caller main tls) (before : main.between)
    (after : main'.between) (awake : main' ≠ .asleep) : Place caller main' tls := by
  refine place.workerGoes ?_ (fun _ _ _ => after)
    (fun _ _ _ works => works.workerGoes before after fun asleep => absurd asleep awake)
    (fun _ _ _ _ _ => after) fun _ _ _ _ => Main.ending_of_between after awake
  rintro rfl
  exact before

private theorem Place.goesOn (place : Place caller main tls) (before : main.busy)
    (after : main'.busy) : Place caller main' tls := by
  obtain ⟨there, outside, staying⟩ := Main.apart_of_busy before
  exact place.workerGoes there (fun _ _ rest => absurd rest.between outside)
    (fun _ _ _ works => works.goesOn before after) (fun _ _ _ _ between => absurd between outside)
    fun _ _ _ ending => absurd ending staying

/-- Who waits for the worker. -/
private def Caller.waits : Caller F A S → Prop
  | signalling _ | checking _ | asleep _ | woken _ => True
  | _ => False

private theorem place_waits (waits : caller.waits) : Place caller main tls ↔
    ∃ w, tls = some w ∧ w.started = true ∧ w.quit = false ∧ Works caller main w := by
  cases caller <;> first | exact waits.elim | exact Iff.rfl

private theorem Place.posted (place : Place caller main (some w)) (there : main ≠ .absent)
    (work : w.haveWork = true) : caller.waits := by
  cases caller with
  | signalling | checking | asleep | woken => trivial
  | idle | entered | own | finishing =>
      rcases place with ⟨absent, -⟩ | ⟨_, ⟨⟩, -, rest⟩
      · exact absurd absent there
      · cases work.symm.trans rest.idle
  | spawned =>
      obtain ⟨_, ⟨⟩, rest⟩ := place
      cases work.symm.trans rest.idle
  | ready | posting | served | exiting | telling =>
      obtain ⟨_, ⟨⟩, -, rest⟩ := place
      cases work.symm.trans rest.idle
  | alarming | told | joining =>
      obtain ⟨_, ⟨⟩, idle, -⟩ := place
      cases work.symm.trans idle

private theorem Place.busy (place : Place caller main tls) (there : main ≠ .absent)
    (outside : ¬ main.between) (staying : ¬ main.ending) : caller.waits := by
  cases caller with
  | signalling | checking | asleep | woken => trivial
  | idle | entered | own | finishing =>
      rcases place with ⟨absent, -⟩ | ⟨_, -, -, rest⟩
      · exact absurd absent there
      · exact absurd rest.between outside
  | spawned =>
      obtain ⟨_, -, rest⟩ := place
      exact absurd rest.between outside
  | ready | posting | served | exiting | telling =>
      obtain ⟨_, -, -, rest⟩ := place
      exact absurd rest.between outside
  | alarming =>
      obtain ⟨_, -, -, -, between⟩ := place
      exact absurd between outside
  | told | joining =>
      obtain ⟨_, -, -, -, ending⟩ := place
      exact absurd ending staying

private theorem Place.here (place : Place caller main tls) (there : main ≠ .absent) :
    ∃ w, tls = some w := by
  cases caller with
  | idle | entered | own | finishing =>
      rcases place with ⟨absent, -⟩ | ⟨w, here, -⟩
      · exact absurd absent there
      · exact ⟨w, here⟩
  | _ =>
      obtain ⟨w, here, -⟩ := place
      exact ⟨w, here⟩

end Places

private theorem signalWork_eq : s.main ≠ .asleep ∧ s.signalWork = s ∨
    s.main = .asleep ∧ s.signalWork = s.works .woken := by
  unfold State.signalWork
  split
  · next asleep => exact .inr ⟨asleep, rfl⟩
  · next awake => exact .inl ⟨awake, rfl⟩

private theorem signalDone_eq : (∀ j, s.caller ≠ .asleep j) ∧ s.signalDone = s ∨
    ∃ j, s.caller = .asleep j ∧ s.signalDone = s.goes (.woken j) := by
  unfold State.signalDone
  split
  · next j asleep => exact .inr ⟨j, asleep, rfl⟩
  · next awake => exact .inl ⟨awake, rfl⟩

private theorem sound_asked (sound : Sound s) (asked : Asked slotOf s s') : Sound s' := by
  obtain ⟨owned, place⟩ := sound
  cases asked with
  | call idle _ =>
      rw [idle] at owned place
      exact ⟨owned.goes Iff.rfl Iff.rfl, place⟩
  | exits idle here started =>
      rw [idle] at owned place
      rcases place with ⟨-, unstarted⟩ | there
      · cases started.symm.trans (unstarted _ here)
      · exact ⟨owned.goes Iff.rfl Iff.rfl, there⟩
  | exitsUnstarted idle here unstarted =>
      rw [idle, here] at place
      rcases place with ⟨absent, -⟩ | ⟨_, ⟨⟩, started, -⟩
      · refine ⟨owned, ?_⟩
        simp only [Place, idle]
        exact .inl ⟨absent, nofun⟩
      · cases unstarted.symm.trans started

private theorem sound_spurious (sound : Sound s) (wakes : Spurious s s') : Sound s' := by
  obtain ⟨owned, place⟩ := sound
  cases wakes with
  | caller asleep =>
      rw [asleep] at owned place
      obtain ⟨w, here, started, staying, works⟩ := place
      exact ⟨owned.goes Iff.rfl Iff.rfl, w, here, started, staying, works.callerGoes nofun nofun⟩
  | worker asleep =>
      rw [asleep] at owned place
      exact ⟨owned.goes Iff.rfl Iff.rfl, place.wakes trivial trivial nofun⟩

/-- The steps to the end of a call. To signal counts for those of who is woken, to post for
those of the worker. -/
private def Caller.left : Caller F A S → Nat
  | idle => 0
  | finishing _ | joining => 1
  | served _ | asleep _ | own _ | told => 2
  | checking _ => 3
  | woken _ => 4
  | alarming => 5
  | signalling _ | telling => 6
  | exiting => 7
  | posting _ => 15
  | ready _ => 16
  | spawned _ => 17
  | entered _ => 21

private def Main.left : Main F A → Nat
  | absent | exited => 0
  | asleep | leaving => 1
  | checking => 2
  | woken | starting => 3
  | signalling => 5
  | reporting => 6
  | ran => 7
  | running .. => 8
  | taken .. => 9

private def posted : Option (Worker F A) → Nat
  | some w => bif w.haveWork then 8 else 0
  | none => 0

private theorem posted_le (tls : Option (Worker F A)) : posted tls ≤ 8 := by
  cases tls with
  | none => exact Nat.zero_le _
  | some w => cases work : w.haveWork <;> simp [posted, work]

private def State.left (s : State F A S R) : Nat := s.caller.left + s.main.left + posted s.tls

private theorem left_signalWork (s : State F A S R) : s.signalWork.caller = s.caller ∧
    s.signalWork.tls = s.tls ∧ s.signalWork.main.left ≤ s.main.left + 2 := by
  rcases signalWork_eq (s := s) with ⟨-, same⟩ | ⟨asleep, woken⟩
  · rw [same]
    exact ⟨rfl, rfl, Nat.le_add_right ..⟩
  · rw [woken, asleep]
    exact ⟨rfl, rfl, Nat.le_refl _⟩

private theorem left_signalDone (s : State F A S R) : s.signalDone.main = s.main ∧
    s.signalDone.tls = s.tls ∧ s.signalDone.caller.left ≤ s.caller.left + 2 := by
  rcases signalDone_eq (s := s) with ⟨-, same⟩ | ⟨j, asleep, woken⟩
  · rw [same]
    exact ⟨rfl, rfl, Nat.le_add_right ..⟩
  · rw [woken, asleep]
    exact ⟨rfl, rfl, Nat.le_refl _⟩

variable [DecidableEq S]

private theorem store_eq (s : State F A S R) (slotOf : A → S) (args : Option A) (r : R) :
    ∃ slots, s.store slotOf args r = { s with slots := slots } := by
  cases args with
  | none => exact ⟨s.slots, rfl⟩
  | some a => exact ⟨_, rfl⟩

private theorem sound_step (sound : Sound s) (step : Step slotOf s s') : Sound s' := by
  obtain ⟨owned, place⟩ := sound
  cases step with
  | gateOff entered =>
      rw [entered] at owned place
      exact ⟨owned.goes Iff.rfl Iff.rfl, place⟩
  | callocFails entered none_yet =>
      rw [entered] at owned place
      exact ⟨owned.goes Iff.rfl Iff.rfl, place⟩
  | createFails entered none_yet =>
      rw [entered, none_yet] at place
      rcases place with ⟨absent, -⟩ | ⟨w, ⟨⟩, -⟩
      refine ⟨owned_none id (by rw [State.goes, absent]; exact id), .inl ⟨absent, ?_⟩⟩
      rintro _ ⟨⟩
      rfl
  | creates entered none_yet =>
      exact ⟨owned_none id id, .zero, rfl, trivial, rfl, rfl⟩
  | starts spawned here =>
      rw [spawned] at owned place
      obtain ⟨w', here', rest⟩ := place
      obtain rfl := Option.some.inj (here.symm.trans here')
      exact ⟨owned.goes Iff.rfl Iff.rfl, _, rfl, rfl, rest.between, rest.idle, rest.staying⟩
  | unstarted entered here unstarted =>
      rw [entered] at owned place
      exact ⟨owned.goes Iff.rfl Iff.rfl, place⟩
  | found entered here started =>
      rw [entered] at owned place
      rcases place with ⟨-, unstarted⟩ | there
      · cases started.symm.trans (unstarted _ here)
      · exact ⟨owned.goes Iff.rfl Iff.rfl, there⟩
  | locks ready free =>
      rw [ready] at owned place
      rw [free] at owned
      exact ⟨owned.callerLocks trivial, place⟩
  | @posts j w posting here =>
      rw [posting] at owned place
      obtain ⟨w', here', started, rest⟩ := place
      obtain rfl := Option.some.inj (here.symm.trans here')
      exact ⟨owned.goes Iff.rfl Iff.rfl, _, rfl, started, rest.staying,
        .posted rfl rfl rest.between fun _ => ⟨j, rfl⟩⟩
  | @signals j signalling =>
      rw [signalling] at owned place
      obtain ⟨w, here, started, staying, works⟩ := place
      rcases signalWork_eq (s := s) with ⟨awake, same⟩ | ⟨asleep, woken⟩
      · rw [same]
        exact ⟨owned.goes Iff.rfl Iff.rfl, w, here, started, staying,
          works.callerGoes nofun fun _ _ => awake⟩
      · rw [woken]
        rw [asleep] at owned works
        have up : Works (.signalling j) .woken w := works.workerGoes trivial trivial nofun
        exact ⟨owned.goes Iff.rfl Iff.rfl, w, here, started, staying,
          up.callerGoes nofun nofun⟩
  | sees checking here done =>
      rw [checking] at owned place
      obtain ⟨w', here', started, staying, works⟩ := place
      obtain rfl := Option.some.inj (here.symm.trans here')
      have elsewhere : s.main ≠ .signalling := fun signalling =>
        owned.apart trivial (signalling ▸ trivial)
      exact ⟨owned.goes Iff.rfl Iff.rfl, _, here, started, works.rests done staying elsewhere⟩
  | waits checking here undone =>
      rw [checking] at owned place
      obtain ⟨w', here', started, staying, works⟩ := place
      obtain rfl := Option.some.inj (here.symm.trans here')
      exact ⟨owned.callerUnlocks trivial id, _, here, started, staying, works.sleeps undone⟩
  | relocks woken free =>
      rw [woken] at owned place
      rw [free] at owned
      obtain ⟨w, here, started, staying, works⟩ := place
      exact ⟨owned.callerLocks trivial, w, here, started, staying, works.callerGoes nofun nofun⟩
  | unlocks served =>
      rw [served] at owned place
      exact ⟨owned.callerUnlocks trivial id, .inr place⟩
  | returns finishing =>
      rw [finishing] at owned place
      exact ⟨owned.goes Iff.rfl Iff.rfl, place⟩
  | runsOwn own =>
      rw [own] at owned place
      exact ⟨owned.goes Iff.rfl Iff.rfl, place⟩
  | locksToTell exiting free =>
      rw [exiting] at owned place
      rw [free] at owned
      exact ⟨owned.callerLocks trivial, place⟩
  | tells telling here =>
      rw [telling] at owned place
      obtain ⟨w', here', -, rest⟩ := place
      obtain rfl := Option.some.inj (here.symm.trans here')
      exact ⟨owned.goes Iff.rfl Iff.rfl, _, rfl, rest.idle, rfl, rest.between⟩
  | alarms alarming =>
      rw [alarming] at owned place
      obtain ⟨w, here, idle, quit, between⟩ := place
      rcases signalWork_eq (s := s) with ⟨awake, same⟩ | ⟨asleep, woken⟩
      · rw [same]
        refine ⟨owned.goes Iff.rfl Iff.rfl, w, here, idle, quit, ?_⟩
        exact Main.ending_of_between between awake
      · rw [woken]
        rw [asleep] at owned
        exact ⟨owned.goes Iff.rfl Iff.rfl, w, here, idle, quit, trivial⟩
  | unlocksTold told =>
      rw [told] at owned place
      exact ⟨owned.callerUnlocks trivial id, place⟩
  | joins joining exited =>
      rw [joining, exited] at owned
      refine ⟨owned.goes Iff.rfl Iff.rfl, .inl ⟨rfl, ?_⟩⟩
      rintro _ ⟨⟩
  | workerStarts starting free =>
      rw [starting] at owned place
      rw [free] at owned
      exact ⟨owned.workerLocks trivial, place.wakes trivial trivial nofun⟩
  | workerRelocks woken free =>
      rw [woken] at owned place
      rw [free] at owned
      exact ⟨owned.workerLocks trivial, place.wakes trivial trivial nofun⟩
  | @workerWaits w checking here idle staying =>
      rw [checking] at owned place
      have sole {w'} (here' : s.tls = some w') : w' = w :=
        Option.some.inj (here'.symm.trans here)
      refine ⟨owned.workerUnlocks trivial id, place.workerGoes nofun (fun _ _ _ => trivial)
        (fun w' here' _ works => works.workerGoes trivial trivial fun _ => sole here' ▸ idle)
        (fun _ _ _ _ _ => trivial) fun w' here' quit _ => ?_⟩
      cases (sole here' ▸ quit).symm.trans staying
  | @workerQuits w checking here quit =>
      rw [checking] at owned place
      have sole {w'} (here' : s.tls = some w') : w' = w :=
        Option.some.inj (here'.symm.trans here)
      refine ⟨owned.goes Iff.rfl Iff.rfl, place.workerGoes nofun (fun w' here' rest => ?_)
        (fun w' here' staying _ => ?_) (fun _ _ _ alarming _ => ?_) fun _ _ _ _ => trivial⟩
      · cases (sole here' ▸ rest.staying).symm.trans quit
      · cases (sole here' ▸ staying).symm.trans quit
      · rw [alarming] at owned
        exact (owned.apart trivial trivial).elim
  | @workerTakes w checking here work staying =>
      rw [checking] at owned
      rw [checking, here] at place
      have waits := place.posted nofun work
      obtain ⟨_, ⟨⟩, started, -, works⟩ := (place_waits waits).mp place
      exact ⟨owned.goes Iff.rfl Iff.rfl,
        (place_waits waits).mpr ⟨_, rfl, started, staying, works.takes work⟩⟩
  | workerUnlocks taken =>
      rw [taken] at owned place
      exact ⟨owned.workerUnlocks trivial id, place.goesOn trivial trivial⟩
  | @workerRuns fn args r running =>
      rw [running] at owned place
      obtain ⟨slots, stored⟩ := store_eq s slotOf args r
      rw [stored]
      exact ⟨owned.goes Iff.rfl Iff.rfl, place.goesOn trivial trivial⟩
  | workerLocks ran free =>
      rw [ran] at owned place
      rw [free] at owned
      exact ⟨owned.workerLocks trivial, place.goesOn trivial trivial⟩
  | workerReports reporting here =>
      rw [reporting] at owned
      rw [reporting, here] at place
      have waits := place.busy nofun id id
      obtain ⟨_, ⟨⟩, started, staying, works⟩ := (place_waits waits).mp place
      exact ⟨owned.goes Iff.rfl Iff.rfl,
        (place_waits waits).mpr ⟨_, rfl, started, staying, works.reports⟩⟩
  | workerSignals signalling =>
      rw [signalling] at owned place
      have waits := place.busy nofun id id
      obtain ⟨w, here, started, staying, works⟩ := (place_waits waits).mp place
      rcases signalDone_eq (s := s) with ⟨awake, same⟩ | ⟨j, asleep, woken⟩
      · rw [same]
        exact ⟨owned.goes Iff.rfl Iff.rfl,
          (place_waits waits).mpr ⟨w, here, started, staying, works.signals awake⟩⟩
      · rw [woken]
        rw [asleep] at owned
        exact ⟨owned.goes Iff.rfl Iff.rfl, w, here, started, staying, works.signals nofun⟩
  | workerLeaves leaving =>
      rw [leaving] at owned place
      refine ⟨owned.workerUnlocks trivial id, place.workerGoes nofun
        (fun _ _ rest => rest.between.elim) (fun _ _ _ works => ?_)
        (fun _ _ _ _ between => between.elim) fun _ _ _ _ => trivial⟩
      rcases works.within with between | busy | ⟨⟨⟩⟩
      · exact between.elim
      · exact busy.elim

private theorem sound_of_reachable (reach : (machine F A S R slotOf).Reachable s) : Sound s := by
  refine reach.invariant ?_ ?_
  · rintro s ⟨none_yet, free, idle, absent, -⟩
    refine ⟨?_, ?_⟩
    · rw [free, idle, absent]
      exact owned_none id id
    · rw [none_yet, idle]
      exact .inl ⟨absent, nofun⟩
  · intro s cause s' _ sound step
    cases cause with
    | thread => exact sound_step sound step
    | app => exact sound_asked sound step
    | spurious => exact sound_spurious sound step

/-- Each step is one that takes a stretch under the lock at once, or nothing. -/
private theorem coarse_step (sound : Sound s) (step : Step slotOf s s') :
    s'.coarse = s.coarse ∨ BigWorker.Step slotOf s.coarse s'.coarse := by
  have place := sound.place
  cases step with
  | gateOff entered => exact .inr (.gateOff (congrArg Caller.coarse entered))
  | callocFails entered none_yet =>
      exact .inr (.callocFails (congrArg Caller.coarse entered) none_yet)
  | createFails entered none_yet =>
      exact .inr (.createFails (congrArg Caller.coarse entered) none_yet)
  | creates entered none_yet => exact .inr (.creates (congrArg Caller.coarse entered) none_yet)
  | starts spawned here => exact .inr (.starts (congrArg Caller.coarse spawned) here)
  | unstarted entered here unstarted =>
      exact .inr (.unstarted (congrArg Caller.coarse entered) here unstarted)
  | found entered here started =>
      exact .inr (.found (congrArg Caller.coarse entered) here started)
  | posts posting here => exact .inr (.posts (congrArg Caller.coarse posting) here)
  | @sees j w checking here done =>
      have wakes := @BigWorker.Step.callerWakes F A S R _ slotOf s.coarse j w
        (congrArg Caller.coarse checking) here
      rw [if_pos done] at wakes
      exact .inr wakes
  | returns finishing => exact .inr (.returns (congrArg Caller.coarse finishing))
  | runsOwn own => exact .inr (.runsOwn (congrArg Caller.coarse own))
  | tells telling here =>
      rw [telling] at place
      obtain ⟨w', here', started, -⟩ := place
      obtain rfl := Option.some.inj (here.symm.trans here')
      exact .inr (.destroys (congrArg Caller.coarse telling) here started)
  | joins joining exited =>
      exact .inr (.joins (congrArg Caller.coarse joining) (congrArg Main.coarse exited))
  | workerQuits checking here quit =>
      exact .inr (.workerQuits (congrArg Main.coarse checking) here quit)
  | workerTakes checking here work staying =>
      exact .inr (.workerTakes (congrArg Main.coarse checking) here work staying)
  | @workerRuns fn args r running =>
      have runs := @BigWorker.Step.workerRuns F A S R _ slotOf s.coarse fn args r
        (congrArg Main.coarse running)
      cases args <;> exact .inr runs
  | workerReports reporting here =>
      exact .inr (.workerDone (congrArg Main.coarse reporting) here)
  | locks here _ | waits here _ _ | relocks here _ | unlocks here | locksToTell here _
  | unlocksTold here => exact .inl (coarse_goes (congrArg Caller.coarse here).symm)
  | signals here | alarms here =>
      have seen : s.signalWork.coarse.caller = _ :=
        (congrArg BigWorker.State.caller coarse_signalWork).trans (congrArg Caller.coarse here)
      exact .inl ((coarse_goes seen.symm).trans coarse_signalWork)
  | workerStarts here _ | workerWaits here _ _ _ | workerRelocks here _ | workerUnlocks here
  | workerLocks here _ | workerLeaves here =>
      exact .inl (coarse_works (congrArg Main.coarse here).symm)
  | workerSignals here =>
      have seen : s.signalDone.coarse.main = _ :=
        (congrArg BigWorker.State.main coarse_signalDone).trans (congrArg Main.coarse here)
      exact .inl ((coarse_works seen.symm).trans coarse_signalDone)

private theorem coarse_reachable (reach : (machine F A S R slotOf).Reachable s) :
    (BigWorker.machine F A S R slotOf).Reachable s.coarse := by
  refine reach.simulated ?_ ?_
  · rintro s ⟨none_yet, -, idle, absent, empty⟩
    exact ⟨none_yet, congrArg Caller.coarse idle, congrArg Main.coarse absent, empty⟩
  · intro s cause s' reach step
    cases cause with
    | thread => exact (coarse_step (sound_of_reachable reach) step).imp_right fun step => ⟨(), step⟩
    | app =>
        cases step with
        | call idle slot => exact .inr ⟨(), .call (congrArg Caller.coarse idle) slot⟩
        | exits idle _ _ => exact .inl (coarse_goes (congrArg Caller.coarse idle).symm)
        | exitsUnstarted idle here unstarted =>
            exact .inr ⟨(), .destroysUnstarted (congrArg Caller.coarse idle) here unstarted⟩
    | spurious =>
        cases step with
        | caller asleep => exact .inl (coarse_goes (congrArg Caller.coarse asleep).symm)
        | worker asleep => exact .inl (coarse_works (congrArg Main.coarse asleep).symm)

private theorem left_step (step : Step slotOf s s') : s'.left < s.left := by
  cases step with
  | gateOff here | callocFails here _ | unstarted here _ _ | found here _ _ | locks here _
  | sees here _ _ | waits here _ _ | relocks here _ | unlocks here | returns here | runsOwn here
  | locksToTell here _ | unlocksTold here =>
      simp only [State.left, State.goes, State.owned, State.note, State.store, here, Caller.left]
      omega
  | createFails here none_yet | creates here none_yet =>
      simp only [State.left, State.goes, here, none_yet, Caller.left, Main.left, posted,
        Worker.zero, cond_false]
      omega
  | starts here tls | tells here tls =>
      simp only [State.left, State.goes, here, tls, Caller.left, posted]
      omega
  | @posts j w here tls =>
      have work := posted_le (some (w.post j))
      simp only [State.left, State.goes, here, tls, Caller.left]
      omega
  | signals here | alarms here =>
      obtain ⟨-, same, woken⟩ := left_signalWork s
      simp only [State.left, State.goes, here, same, Caller.left]
      omega
  | joins here exited =>
      simp only [State.left, State.goes, here, exited, Caller.left, Main.left, posted]
      omega
  | workerStarts here _ | workerWaits here _ _ _ | workerRelocks here _ | workerQuits here _ _
  | workerUnlocks here | workerLocks here _ | workerLeaves here =>
      simp only [State.left, State.works, State.owned, State.note, here, Main.left]
      omega
  | workerTakes here tls work _ =>
      simp only [State.left, State.works, here, tls, work, Main.left, posted, cond_true,
        cond_false]
      omega
  | @workerRuns fn args r here =>
      obtain ⟨slots, stored⟩ := store_eq s slotOf args r
      simp only [State.left, State.works, State.note, stored, here, Main.left]
      omega
  | workerReports here tls =>
      simp only [State.left, State.works, here, tls, Main.left, posted]
      omega
  | workerSignals here =>
      obtain ⟨-, same, woken⟩ := left_signalDone s
      simp only [State.left, State.works, here, same, Main.left]
      omega

private theorem owner_goes (sound : Sound s) (locked : s.mutex ≠ none) :
    ∃ s', Step slotOf s s' := by
  obtain ⟨owned, place⟩ := sound
  cases at_mutex : s.mutex with
  | none => exact absurd at_mutex locked
  | some owner =>
      cases owner with
      | caller =>
          have owns := owned.caller.mp at_mutex
          cases at_caller : s.caller with
          | posting j =>
              rw [at_caller] at place
              obtain ⟨w, here, -⟩ := place
              exact ⟨_, .posts at_caller here⟩
          | telling =>
              rw [at_caller] at place
              obtain ⟨w, here, -⟩ := place
              exact ⟨_, .tells at_caller here⟩
          | signalling j => exact ⟨_, .signals at_caller⟩
          | checking j =>
              rw [at_caller] at place
              obtain ⟨w, here, -⟩ := place
              cases done : w.done with
              | true => exact ⟨_, .sees at_caller here done⟩
              | false => exact ⟨_, .waits at_caller here done⟩
          | served j => exact ⟨_, .unlocks at_caller⟩
          | alarming => exact ⟨_, .alarms at_caller⟩
          | told => exact ⟨_, .unlocksTold at_caller⟩
          | _ =>
              rw [at_caller] at owns
              exact owns.elim
      | worker =>
          have owns := owned.worker.mp at_mutex
          cases at_main : s.main with
          | checking =>
              obtain ⟨w, here⟩ := place.here (by rw [at_main]; exact nofun)
              cases quit : w.quit with
              | true => exact ⟨_, .workerQuits at_main here quit⟩
              | false =>
                  cases work : w.haveWork with
                  | true => exact ⟨_, .workerTakes at_main here work quit⟩
                  | false => exact ⟨_, .workerWaits at_main here work quit⟩
          | taken fn args => exact ⟨_, .workerUnlocks at_main⟩
          | reporting =>
              obtain ⟨w, here⟩ := place.here (by rw [at_main]; exact nofun)
              exact ⟨_, .workerReports at_main here⟩
          | signalling => exact ⟨_, .workerSignals at_main⟩
          | leaving => exact ⟨_, .workerLeaves at_main⟩
          | _ =>
              rw [at_main] at owns
              exact owns.elim

private theorem between_goes (owned : Owned none s.caller s.main) (free : s.mutex = none)
    (between : s.main.between) (awake : s.main ≠ .asleep) : ∃ s', Step slotOf s s' := by
  cases at_main : s.main with
  | starting => exact ⟨_, .workerStarts at_main free⟩
  | woken => exact ⟨_, .workerRelocks at_main free⟩
  | asleep => exact absurd at_main awake
  | checking => exact nomatch owned.worker.mpr (by rw [at_main]; trivial)
  | _ =>
      rw [at_main] at between
      exact between.elim

private theorem waited_goes {j : Job F A S} {w : Worker F A}
    (owned : Owned none s.caller s.main) (free : s.mutex = none) (asleep : s.caller = .asleep j)
    (works : Works s.caller s.main w) : ∃ s', Step slotOf s s' := by
  cases works with
  | posted _ _ between sleeps =>
      refine between_goes owned free between fun asleep' => ?_
      obtain ⟨_, signalling⟩ := sleeps asleep'
      cases asleep.symm.trans signalling
  | taken _ _ busy =>
      cases at_main : s.main with
      | running fn args => exact ⟨_, .workerRuns (r := s.slots j.slot) at_main⟩
      | ran => exact ⟨_, .workerLocks at_main free⟩
      | taken | reporting => exact nomatch owned.worker.mpr (by rw [at_main]; trivial)
      | _ =>
          rw [at_main] at busy
          exact busy.elim
  | reported _ _ signalling => exact nomatch owned.worker.mpr (by rw [signalling]; trivial)
  | signalled _ _ _ up => exact absurd asleep (up j)

private theorem somebody_goes (sound : Sound s) (unsettled : ¬ Settled s) :
    ∃ s', Step slotOf s s' := by
  by_cases free : s.mutex = none
  case neg => exact owner_goes sound free
  obtain ⟨owned, place⟩ := sound
  rw [free] at owned
  cases at_caller : s.caller with
  | idle =>
      rw [at_caller] at place
      rcases place with ⟨absent, -⟩ | ⟨w, -, -, rest⟩
      · exact absurd ⟨at_caller, free, .inl absent⟩ unsettled
      · exact between_goes owned free rest.between fun asleep =>
          unsettled ⟨at_caller, free, .inr asleep⟩
  | entered j => exact ⟨_, .gateOff at_caller⟩
  | spawned j =>
      rw [at_caller] at place
      obtain ⟨w, here, -⟩ := place
      exact ⟨_, .starts at_caller here⟩
  | ready j => exact ⟨_, .locks at_caller free⟩
  | asleep j =>
      obtain ⟨w, -, -, -, works⟩ := (place_waits (by rw [at_caller]; trivial)).mp place
      exact waited_goes owned free at_caller works
  | woken j => exact ⟨_, .relocks at_caller free⟩
  | own j => exact ⟨_, .runsOwn (r := s.slots j.slot) at_caller⟩
  | finishing j => exact ⟨_, .returns at_caller⟩
  | exiting => exact ⟨_, .locksToTell at_caller free⟩
  | joining =>
      rw [at_caller] at place
      obtain ⟨w, -, -, -, ending⟩ := place
      cases at_main : s.main with
      | exited => exact ⟨_, .joins at_caller at_main⟩
      | starting | woken =>
          exact between_goes owned free (by rw [at_main]; trivial) (by rw [at_main]; exact nofun)
      | checking | leaving => exact nomatch owned.worker.mpr (by rw [at_main]; trivial)
      | _ =>
          rw [at_main] at ending
          exact ending.elim
  | posting | signalling | checking | served | telling | alarming | told =>
      exact nomatch owned.caller.mpr (by rw [at_caller]; trivial)

/-- A worker and its caller are at any moment where the model without the lock has them.
However they are scheduled from there on, the call that is under way returns, the thread that
ends joins its worker, and a worker with nothing to do goes to sleep: as long as nothing more
is asked and no wait ends without a signal, they do not stop before and cannot go on for ever. -/
theorem handoff_ends (reach : (machine F A S R slotOf).Reachable s) :
    (BigWorker.machine F A S R slotOf).Reachable s.coarse ∧
      Inevitable (Step slotOf) Settled s :=
  ⟨coarse_reachable reach, inevitable_of_measure State.left
    (fun _ _ sound step => sound_step sound step) (fun _ _ _ step => left_step step)
    (fun _ sound unsettled => somebody_goes sound unsettled) (sound_of_reachable reach)⟩

private theorem stepped (reach : (machine F A S R slotOf).Reachable s) (step : Step slotOf s s') :
    (machine F A S R slotOf).Reachable s' := reach.next (l := .thread) step

private theorem asked (reach : (machine F A S R slotOf).Reachable s) (asked : Asked slotOf s s') :
    (machine F A S R slotOf).Reachable s' := reach.next (l := .app) asked

private theorem woken_early (reach : (machine F A S R slotOf).Reachable s)
    (wakes : Spurious s s') : (machine F A S R slotOf).Reachable s' :=
  reach.next (l := .spurious) wakes

/-- The worker has taken the second job of its caller, whose wait has ended without a signal. -/
theorem handoff_ends_twoJobs : ∃ s, (machine Nat Nat Nat Nat (· + 1)).Reachable s ∧
    s.caller = .woken BigWorker.nextJob ∧ s.main = .taken (some 4) (some 5) ∧
    s.log.getLast? = some (.called BigWorker.nextJob) ∧
    (BigWorker.machine Nat Nat Nat Nat (· + 1)).Reachable s.coarse ∧
      Inevitable (Step (· + 1)) Settled s := by
  have fresh : (machine Nat Nat Nat Nat (· + 1)).Reachable
      ⟨none, none, .idle, .absent, fun _ => 0, []⟩ := .start ⟨rfl, rfl, rfl, rfl, rfl⟩
  have called := asked fresh (.call (j := BigWorker.oneJob) rfl rfl)
  have created := stepped called (.creates rfl rfl)
  have first := stepped created (.workerStarts rfl rfl)
  have slept := stepped first (.workerWaits rfl rfl rfl rfl)
  have started := stepped slept (.starts rfl rfl)
  have locked := stepped started (.locks rfl rfl)
  have posted := stepped locked (.posts rfl rfl)
  have signalled := stepped posted (.signals rfl)
  have waited := stepped signalled (.waits rfl rfl rfl)
  have woken := stepped waited (.workerRelocks rfl rfl)
  have taken := stepped woken (.workerTakes rfl rfl rfl rfl)
  have unlocked := stepped taken (.workerUnlocks rfl)
  have ran := stepped unlocked (.workerRuns (r := 7) rfl)
  have reporting := stepped ran (.workerLocks rfl rfl)
  have reported := stepped reporting (.workerReports rfl rfl)
  have answered := stepped reported (.workerSignals rfl)
  have rested := stepped answered (.workerWaits rfl rfl rfl rfl)
  have relocked := stepped rested (.relocks rfl rfl)
  have seen := stepped relocked (.sees rfl rfl rfl)
  have left := stepped seen (.unlocks rfl)
  have returned := stepped left (.returns rfl)
  have again := asked returned (.call (j := BigWorker.nextJob) rfl rfl)
  have found := stepped again (.found rfl rfl rfl)
  have locked' := stepped found (.locks rfl rfl)
  have posted' := stepped locked' (.posts rfl rfl)
  have signalled' := stepped posted' (.signals rfl)
  have waited' := stepped signalled' (.waits rfl rfl rfl)
  have woken' := stepped waited' (.workerRelocks rfl rfl)
  have taken' := stepped woken' (.workerTakes rfl rfl rfl rfl)
  have spurious := woken_early taken' (.caller rfl)
  exact ⟨_, spurious, rfl, rfl, rfl, handoff_ends spurious⟩

end Invariant

end XdPlus.Vulkan.BigWorkerHandoff
