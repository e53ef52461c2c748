/- Module: XdPlus/Sensors/Deliveries
   source: sensors/multihal.cpp, writerTask, sensors_poll_context_t::poll
   digest: Every event a sub-HAL reports is delivered once and in order, and nobody sleeps on it. -/

import Mathlib.Algebra.Order.BigOperators.Group.Finset
import XdPlus.Base.Progress
import XdPlus.Sensors.Polling

set_option autoImplicit false
set_option relaxedAutoImplicit false

namespace XdPlus.Sensors.Deliveries

open XdPlus.Base EventQueue Handles Polling

variable {P : Type}

/-- What was reported and not marked yet. -/
def inFlight {E : Type} : Writer E → List E
  | .polled _ events => events
  | _ => []

/-- What a writer task can rely on, whatever the reader does. -/
def Fits {E : Type} (q : SensorEventQueue E) : Writer E → Prop
  | .locking => True
  | .waiting signalled => signalled = false → q.size = q.capacity
  | .polling first length => q.Writable first length ∧ 0 < length
  | .polled first events =>
      q.Writable first events.length ∧ q.data.slice first events.length = events

/-- Nothing that was reported is lost, out of order or there twice. -/
structure Task {E : Type} (q : SensorEventQueue E) (w : Writer E) (reported taken : List E) :
    Prop where
  valid : q.Valid
  fits : Fits q w
  conserved : reported = taken ++ q.contents ++ inFlight w

section Tasks

variable {E : Type} {q : SensorEventQueue E} {w : Writer E} {reported taken : List E}

theorem Task.free (task : Task q w reported taken) (w' : Writer E) (nothing : inFlight w = [])
    (bare : inFlight w' = []) (fits : Fits q w') : Task q w' reported taken := by
  refine ⟨task.valid, fits, ?_⟩
  rw [task.conserved, nothing, bare]

theorem Task.fill {first length j : Nat} (e : E)
    (task : Task q (.polling first length) reported taken) (inside : j < length) :
    Task (q.write (first + j) e) (.polling first length) reported taken := by
  obtain ⟨valid, ⟨writable, positive⟩, conserved⟩ := task
  refine ⟨⟨valid.start, valid.size⟩, ⟨writable.write, positive⟩, ?_⟩
  rw [conserved, writable.contents_write valid inside]

theorem Task.pollReturns {first length n : Nat}
    (task : Task q (.polling first length) reported taken) (fewer : n ≤ length) :
    Task q (.polled first (q.data.slice first n)) (reported ++ q.data.slice first n) taken := by
  obtain ⟨valid, ⟨writable, -⟩, conserved⟩ := task
  refine ⟨valid, ⟨?_, by rw [Buffer.length_slice]⟩, ?_⟩
  · rw [Buffer.length_slice]
    exact writable.shorten fewer
  · rw [conserved]
    simp [inFlight]

theorem Task.mark {first : Nat} {events : List E}
    (task : Task q (.polled first events) reported taken) :
    Task (q.markAsWritten events.length) .locking reported taken := by
  obtain ⟨valid, ⟨writable, there⟩, conserved⟩ := task
  refine ⟨valid.markAsWritten writable.free, trivial, ?_⟩
  rw [conserved, writable.contents_markAsWritten valid, there]
  simp [inFlight]

private theorem fits_dequeue (valid : q.Valid) (fits : Fits q w) :
    Fits q.dequeue.1 (if q.dequeue.2 then w.signal else w) := by
  cases w with
  | locking => split_ifs <;> trivial
  | waiting signalled =>
      split_ifs with wakes
      · intro unsignalled
        cases unsignalled
      · intro unsignalled
        have positive : 0 < q.capacity := by have := valid.start; omega
        exact absurd (SensorEventQueue.dequeue_wakes (fits unsignalled) positive) wakes
  | polling first length =>
      have kept : Fits q.dequeue.1 (.polling first length) := ⟨fits.1.dequeue, fits.2⟩
      split_ifs <;> exact kept
  | polled first events =>
      have kept : Fits q.dequeue.1 (.polled first events) :=
        ⟨fits.1.dequeue, by rw [SensorEventQueue.data_dequeue]; exact fits.2⟩
      split_ifs <;> exact kept

theorem Task.dequeue {e : E} (task : Task q w reported taken) (found : q.peek = some e) :
    Task q.dequeue.1 (if q.dequeue.2 then w.signal else w) reported (taken ++ [e]) := by
  obtain ⟨valid, fits, conserved⟩ := task
  have same : inFlight (if q.dequeue.2 then w.signal else w) = inFlight w := by
    cases w <;> split_ifs <;> rfl
  refine ⟨valid.dequeue, fits_dequeue valid fits, ?_⟩
  rw [conserved, same, SensorEventQueue.contents_of_peek found]
  simp

end Tasks

/-- What was dequeued from one queue. -/
def takenFrom (taken : List (Nat × Event P)) (i : Nat) : List (Event P) :=
  (taken.filter fun x => x.1 == i).map Prod.snd

/-- What the framework is to get of an event. -/
def deliver (h : HandleMaps) (x : Nat × Event P) : Option (Event P) :=
  let copied := copyEventRemapHandle h x.2 x.1
  if copied.sensor = -1 then none else some copied

def beingRead {E : Type} : Poller E → List E
  | .scanning _ _ out => out
  | _ => []

/-- `empties` counts the queues before the next one, all of them empty. -/
structure Inv (h : HandleMaps) (count : Nat) (s : State P) : Prop where
  tasks : ∀ i, Task (s.queues i) (s.writers i) (s.reported i) (takenFrom s.taken i)
  given : s.received ++ beingRead s.poller = s.taken.filterMap (deliver h)
  next : s.nextReadIndex < count ∨ count = 0
  sweep : ∀ {maxReads empties out}, s.poller = .scanning maxReads empties out →
    empties ≤ count ∧ out.length ≤ maxReads ∧ 0 < maxReads ∧
      ∀ j < empties, (s.queues ((s.nextReadIndex + (count - empties) + j) % count)).size = 0
  asleep : ∀ {maxReads signalled}, s.poller = .sleeping maxReads signalled →
    s.waitingForData = true ∧ 0 < maxReads ∧
      (signalled = false → ∀ i < count, (s.queues i).size = 0)

section Steps

variable {h : HandleMaps} {count : Nat} {s s' : State P}

@[simp] theorem takenFrom_append (taken : List (Nat × Event P)) (i j : Nat) (e : Event P) :
    takenFrom (taken ++ [(i, e)]) j = takenFrom taken j ++ if i = j then [e] else [] := by
  unfold takenFrom
  rw [List.filter_append, List.map_append]
  by_cases same : i = j
  · simp [same]
  · simp [same]

private theorem tasks_update {queues : Nat → SensorEventQueue (Event P)}
    {writers : Nat → Writer (Event P)} {reported : Nat → List (Event P)}
    {taken taken' : Nat → List (Event P)} {i : Nat} {q : SensorEventQueue (Event P)}
    {w : Writer (Event P)} {r : List (Event P)}
    (tasks : ∀ j, Task (queues j) (writers j) (reported j) (taken j))
    (others : ∀ j, j ≠ i → taken' j = taken j) (own : Task q w r (taken' i)) (j : Nat) :
    Task (Function.update queues i q j) (Function.update writers i w j)
      (Function.update reported i r j) (taken' j) := by
  by_cases same : j = i
  · rw [same, Function.update_self, Function.update_self, Function.update_self]
    exact own
  · rw [Function.update_of_ne same, Function.update_of_ne same, Function.update_of_ne same,
      others j same]
    exact tasks j

private theorem Inv.writer (inv : Inv h count s) {i : Nat} {w : Writer (Event P)}
    {q : SensorEventQueue (Event P)} {r : List (Event P)} (size : q.size = (s.queues i).size)
    (own : Task q w r (takenFrom s.taken i)) :
    Inv h count { s with
      queues := Function.update s.queues i q
      writers := Function.update s.writers i w
      reported := Function.update s.reported i r } := by
  have sizes : ∀ j, (Function.update s.queues i q j).size = (s.queues j).size := by
    intro j
    by_cases same : j = i
    · rw [same, Function.update_self, size]
    · rw [Function.update_of_ne same]
  refine ⟨tasks_update inv.tasks (fun _ _ => rfl) own, inv.given, inv.next, ?_, ?_⟩
  · intro maxReads empties out scanning
    obtain ⟨most, short, positive, empty⟩ := inv.sweep scanning
    exact ⟨most, short, positive, fun j low => (sizes _).trans (empty j low)⟩
  · intro maxReads signalled sleeping
    obtain ⟨waiting, positive, empty⟩ := inv.asleep sleeping
    exact ⟨waiting, positive, fun unsignalled j low => (sizes j).trans (empty unsignalled j low)⟩

private theorem Inv.goes (inv : Inv h count s) {i : Nat} {w : Writer (Event P)}
    (own : Task (s.queues i) w (s.reported i) (takenFrom s.taken i)) :
    Inv h count { s with writers := Function.update s.writers i w } := by
  have moved := inv.writer rfl own
  rwa [Function.update_eq_self, Function.update_eq_self] at moved

private theorem Inv.claim (inv : Inv h count s) {i : Nat} (nothing : inFlight (s.writers i) = []) :
    Inv h count (s.claim i) := by
  have task := inv.tasks i
  have asked : 0 < (sensorEventQueueCapacity : Int) := by decide
  simp only [State.claim]
  split_ifs with full
  · exact inv.goes (task.free _ nothing rfl fun _ => full)
  · obtain ⟨is_full, -⟩ | ⟨first, length, region, positive, writable, -⟩ :=
      SensorEventQueue.getWritableRegion_exact task.valid asked
    · exact absurd is_full full
    · rw [region]
      exact inv.goes (task.free _ nothing rfl ⟨writable, positive⟩)

private theorem Inv.fill (inv : Inv h count s) {i first length j : Nat} (e : Event P)
    (polling : s.writers i = .polling first length) (inside : j < length) :
    Inv h count (s.fill i (first + j) e) := by
  have task := inv.tasks i
  rw [polling] at task
  have moved := inv.writer (q := (s.queues i).write (first + j) e) rfl (task.fill e inside)
  have same : Function.update s.writers i (.polling first length) = s.writers :=
    Function.update_eq_self_iff.mpr polling.symm
  rwa [same, Function.update_eq_self] at moved

private theorem Inv.pollReturns (inv : Inv h count s) {i first length : Nat} {eventsPolled : Int}
    (polling : s.writers i = .polling first length) (fewer : eventsPolled ≤ length) :
    Inv h count (s.pollReturns i first eventsPolled) := by
  have task := inv.tasks i
  rw [polling] at task
  simp only [State.pollReturns]
  split_ifs with nothing
  · exact inv.goes ((inv.tasks i).free _ (by rw [polling]; rfl) rfl trivial)
  · have moved := inv.writer rfl (task.pollReturns (n := eventsPolled.toNat) (by omega))
    rwa [Function.update_eq_self] at moved

private theorem Inv.mark (inv : Inv h count s) {i first : Nat} {events : List (Event P)}
    (polled : s.writers i = .polled first events) (unlocked : s.poller.holdsLock = false) :
    Inv h count (s.mark i events) := by
  have task := inv.tasks i
  rw [polled] at task
  refine ⟨?_, ?_, inv.next, ?_, ?_⟩
  · have tasks := tasks_update inv.tasks (fun _ _ => rfl) task.mark
    rwa [Function.update_eq_self] at tasks
  · show s.received ++ beingRead (if s.waitingForData then s.poller.signal else s.poller) = _
    have kept : beingRead (if s.waitingForData then s.poller.signal else s.poller) =
        beingRead s.poller := by
      cases s.poller <;> split_ifs <;> rfl
    rw [kept, inv.given]
    rfl
  · intro maxReads empties out scanning
    have still : (if s.waitingForData then s.poller.signal else s.poller).holdsLock = false := by
      cases poller : s.poller with
      | scanning _ _ _ => rw [poller] at unlocked; cases unlocked
      | idle => split_ifs <;> rfl
      | sleeping _ _ => split_ifs <;> rfl
    have held := congrArg Poller.holdsLock scanning
    exact Bool.noConfusion (still.symm.trans held)
  · intro maxReads signalled sleeping
    simp only [State.mark] at sleeping
    cases poller : s.poller with
    | scanning _ _ _ => rw [poller] at unlocked; cases unlocked
    | idle => simp [poller, Poller.signal] at sleeping
    | sleeping asked was =>
        obtain ⟨waiting, positive, -⟩ := inv.asleep poller
        rw [poller, if_pos waiting] at sleeping
        obtain ⟨rfl, rfl⟩ := Poller.sleeping.inj sleeping
        exact ⟨waiting, positive, fun unsignalled => by cases unsignalled⟩

private theorem Inv.polls (inv : Inv h count s) {maxReads : Nat} (positive : 0 < maxReads)
    (nothing : beingRead s.poller = []) (waitingForData : Bool) :
    Inv h count { s with poller := .scanning maxReads 0 [], waitingForData := waitingForData } := by
  refine ⟨inv.tasks, ?_, inv.next, ?_, ?_⟩
  · rw [← inv.given, nothing]
    rfl
  · intro asked empties out scanning
    obtain ⟨rfl, rfl, rfl⟩ := Poller.scanning.inj scanning
    exact ⟨Nat.zero_le _, Nat.zero_le _, positive, fun j low => absurd low (Nat.not_lt_zero _)⟩
  · intro _ _ sleeping
    cases sleeping

private theorem Inv.scan (inv : Inv h count s) {maxReads empties : Nat} {out : List (Event P)}
    (scanning : s.poller = .scanning maxReads empties out) (more : empties < count)
    (room : out.length < maxReads) : Inv h count (s.scan h count maxReads empties out) := by
  obtain ⟨-, -, positive, empty⟩ := inv.sweep scanning
  have next : (s.nextReadIndex + 1) % count < count := Nat.mod_lt _ (by omega)
  have given := inv.given
  rw [scanning] at given
  simp only [State.scan]
  cases found : (s.queues s.nextReadIndex).peek with
  | none =>
      refine ⟨inv.tasks, given, .inl next, ?_, ?_⟩
      · intro _ _ _ scanning'
        obtain ⟨rfl, rfl, rfl⟩ := Poller.scanning.inj scanning'
        refine ⟨more, room.le, positive, fun j low => ?_⟩
        have turn : ((s.nextReadIndex + 1) % count + (count - (empties + 1)) + j) % count =
            (s.nextReadIndex + (count - empties) + j) % count := by
          rw [Nat.add_assoc, Nat.mod_add_mod,
            show s.nextReadIndex + 1 + (count - (empties + 1) + j) =
              s.nextReadIndex + (count - empties) + j by omega]
        show (s.queues (((s.nextReadIndex + 1) % count + (count - (empties + 1)) + j) % count)).size
          = 0
        rw [turn]
        rcases Nat.lt_succ_iff_lt_or_eq.mp low with before | rfl
        · exact empty j before
        · have low' : s.nextReadIndex < count := by have := inv.next; omega
          rw [Nat.add_assoc, Nat.sub_add_cancel more.le, Nat.add_mod_right, Nat.mod_eq_of_lt low']
          exact SensorEventQueue.peek_none.mp found
      · intro _ _ sleeping
        cases sleeping
  | some event =>
      refine ⟨?_, ?_, .inl next, ?_, ?_⟩
      · have own := (inv.tasks s.nextReadIndex).dequeue found
        have woken : (if (s.queues s.nextReadIndex).dequeue.2 then
              Function.update s.writers s.nextReadIndex (s.writers s.nextReadIndex).signal
            else s.writers) = Function.update s.writers s.nextReadIndex
              (if (s.queues s.nextReadIndex).dequeue.2 then (s.writers s.nextReadIndex).signal
                else s.writers s.nextReadIndex) := by
          split_ifs
          · rfl
          · exact (Function.update_eq_self ..).symm
        have others : ∀ j, j ≠ s.nextReadIndex →
            takenFrom (s.taken ++ [(s.nextReadIndex, event)]) j = takenFrom s.taken j := by
          intro j other
          rw [takenFrom_append, if_neg (Ne.symm other), List.append_nil]
        have tasks := tasks_update (i := s.nextReadIndex) inv.tasks others
          (by rw [takenFrom_append, if_pos rfl]; exact own)
        rw [Function.update_eq_self, ← woken] at tasks
        exact tasks
      · show s.received ++ (if _ = _ then out else out ++ [_]) = _
        have given : s.received ++ out = s.taken.filterMap (deliver h) := given
        rw [List.filterMap_append, ← given]
        by_cases unknown : (copyEventRemapHandle h event s.nextReadIndex).sensor = -1
        · simp [deliver, unknown]
        · simp [deliver, unknown]
      · intro _ _ _ scanning'
        obtain ⟨rfl, rfl, rfl⟩ := Poller.scanning.inj scanning'
        refine ⟨Nat.zero_le _, ?_, positive, fun j low => absurd low (Nat.not_lt_zero _)⟩
        split_ifs
        · exact room.le
        · rw [List.length_append]
          exact room
      · intro _ _ sleeping
        cases sleeping

private theorem Inv.around (inv : Inv h count s) {maxReads : Nat} {out : List (Event P)}
    (scanning : s.poller = .scanning maxReads count out) {i : Nat} (low : i < count) :
    (s.queues i).size = 0 := by
  obtain ⟨-, -, -, empty⟩ := inv.sweep scanning
  have next := inv.next
  obtain ⟨j, low', rfl⟩ : ∃ j < count, (s.nextReadIndex + j) % count = i := by
    rcases Nat.lt_or_ge i s.nextReadIndex with before | behind
    · refine ⟨count - s.nextReadIndex + i, by omega, ?_⟩
      rw [← Nat.add_assoc, Nat.add_sub_cancel' (by omega), Nat.add_mod_left, Nat.mod_eq_of_lt low]
    · refine ⟨i - s.nextReadIndex, by omega, ?_⟩
      rw [Nat.add_sub_cancel' behind, Nat.mod_eq_of_lt low]
  have here := empty j low'
  rwa [Nat.sub_self, Nat.add_zero] at here

private theorem Inv.scanned (inv : Inv h count s) {maxReads empties : Nat} {out : List (Event P)}
    (scanning : s.poller = .scanning maxReads empties out)
    (done : ¬ (empties < count ∧ out.length < maxReads)) :
    Inv h count (s.scanned maxReads out) := by
  obtain ⟨most, -, positive, -⟩ := inv.sweep scanning
  have given := inv.given
  rw [scanning] at given
  simp only [State.scanned]
  split_ifs with nothing
  · refine ⟨inv.tasks, ?_, inv.next, ?_, ?_⟩
    · rw [← given, nothing]
      rfl
    · intro _ _ _ scanning'
      cases scanning'
    · intro _ _ sleeping
      obtain ⟨rfl, rfl⟩ := Poller.sleeping.inj sleeping
      refine ⟨rfl, positive, fun _ i low => ?_⟩
      obtain rfl : empties = count := by
        rw [nothing] at done
        simp only [List.length_nil] at done
        omega
      exact inv.around scanning low
  · refine ⟨inv.tasks, ?_, inv.next, ?_, ?_⟩
    · rw [← given]
      exact List.append_nil _
    · intro _ _ _ scanning'
      cases scanning'
    · intro _ _ sleeping
      cases sleeping

theorem inv_init (initial : (machine h count).init s) : Inv h count s := by
  obtain ⟨queues, writers, idle, first, -, reported, taken, received⟩ := initial
  refine ⟨fun i => ?_, ?_, by omega, ?_, ?_⟩
  · obtain ⟨data, empty⟩ := queues i
    rw [empty, writers, reported, taken]
    exact ⟨SensorEventQueue.valid_new (by decide), trivial, by simp [takenFrom, inFlight]⟩
  · rw [idle, taken, received]
    rfl
  · intro _ _ _ scanning
    cases idle.symm.trans scanning
  · intro _ _ sleeping
    cases idle.symm.trans sleeping

theorem inv_step {party : Party} (inv : Inv h count s) (step : Step h count s party s') :
    Inv h count s' := by
  cases step with
  | claims _ locking _ => exact inv.claim (by rw [locking]; rfl)
  | writerWakes _ waiting _ => exact inv.claim (by rw [waiting]; rfl)
  | fills e _ polling inside => exact inv.fill e polling inside
  | pollReturns _ _ polling fewer => exact inv.pollReturns polling fewer
  | marks _ polled unlocked => exact inv.mark polled unlocked
  | polls maxReads idle positive => exact inv.polls positive (by rw [idle]; rfl) s.waitingForData
  | scans scanning more room => exact inv.scan scanning more room
  | scanned scanning done => exact inv.scanned scanning done
  | pollerWakes sleeping =>
      exact inv.polls (inv.asleep sleeping).2.1 (by rw [sleeping]; rfl) false

theorem inv_reachable (reach : (machine h count).Reachable s) : Inv h count s :=
  reach.invariant (fun _ initial => inv_init initial) fun _ _ _ _ inv step => inv_step inv step

/-- A light sensor, and two more behind another sub-HAL, one of them under the same number. -/
def twoHubs : List Module :=
  [⟨[⟨3, sensorTypeLight, 0⟩], some sensorsDeviceApiVersion10⟩,
    ⟨[⟨3, sensorTypeProximity, 0⟩, ⟨8, sensorTypeTiltDetector, 0⟩],
      some sensorsDeviceApiVersion10⟩]

def twoHubMaps : HandleMaps :=
  (((HandleMaps.empty.assignGlobalHandle ⟨0, 3⟩).2.assignGlobalHandle ⟨1, 3⟩).2.assignGlobalHandle
    ⟨1, 8⟩).2

/-- The cells hold light events already, each with its number. -/
def opened : State Nat where
  queues _ := .new sensorEventQueueCapacity fun cell => ⟨3, sensorTypeLight, 0, cell⟩
  writers _ := .locking
  poller := .idle
  nextReadIndex := 0
  waitingForData := false
  reported _ := []
  taken := []
  received := []

/-- A meta-data event, one of a sensor nobody knows, and one of the tilt detector. -/
def threeEvents : List (Move Nat) :=
  [.claim 1, .fill 1 0 ⟨0, sensorTypeMetaData, 3, 100⟩,
    .fill 1 1 ⟨9, sensorTypeTiltDetector, 0, 101⟩, .fill 1 2 ⟨8, sensorTypeTiltDetector, 0, 102⟩,
    .pollReturns 1 3, .mark 1]

/-- Five events of which `poll` has read all. -/
def emptied : List (Move Nat) :=
  [.claim 0, .pollReturns 0 2, .mark 0] ++ threeEvents ++ [.poll 100] ++ List.replicate 8 .scan

/-- The first queue's writable part comes around to the front; the next region is claimed while
events stand on both sides of it, and an event is read then. -/
def wrapped : List (Move Nat) :=
  [.claim 0, .pollReturns 0 35, .mark 0] ++ threeEvents ++ [.poll 12] ++ List.replicate 19 .scan ++
    [.scanned, .claim 0, .pollReturns 0 1, .mark 0, .claim 0, .pollReturns 0 5, .mark 0, .claim 0,
      .poll 1, .scan, .scan]

private theorem reachable_moves {A : Type} (moves : List (Move Nat)) (look : State Nat → A) (a : A)
    (ran : (moves.foldlM (State.move twoHubMaps 2) opened).map look = some a) :
    ∃ s : State Nat, (machine twoHubMaps 2).Reachable s ∧ look s = a := by
  obtain ⟨s, ends, looks⟩ := Option.map_eq_some_iff.mp ran
  have start : (machine twoHubMaps 2).Reachable opened :=
    .start ⟨fun _ => ⟨_, rfl⟩, fun _ => rfl, rfl, rfl, rfl, fun _ => rfl, rfl, rfl⟩
  have moves : ∀ s (m : Move Nat) t, True → s.move twoHubMaps 2 m = some t →
      (∃ party, Step twoHubMaps 2 s party t) ∧ True := fun _ _ _ _ moved =>
    ⟨step_of_move moved, trivial⟩
  exact ⟨s, (start.moved (I := fun _ => True) moves trivial _ ends).1, looks⟩

/-- An event is where it was put: with the framework, in its queue or with its writer task, each
once and in the order its sub-HAL reported it. -/
theorem reported_eq (reach : (machine h count).Reachable s) :
    s.received ++ beingRead s.poller = s.taken.filterMap (deliver h) ∧
      ∀ i, s.reported i = takenFrom s.taken i ++ (s.queues i).contents ++ inFlight (s.writers i) :=
  ⟨(inv_reachable reach).given, fun i => ((inv_reachable reach).tasks i).conserved⟩

theorem reported_eq_wrapped : ∃ s : State Nat, (machine twoHubMaps 2).Reachable s ∧
    ((s.reported 0).length = 41 ∧ (takenFrom s.taken 0).length = 11 ∧
      (s.queues 0).contents.length = 30 ∧ takenFrom s.taken 1 = s.reported 1 ∧
      s.received.length = 12 ∧ (beingRead s.poller).length = 1) ∧
    s.received ++ beingRead s.poller = s.taken.filterMap (deliver twoHubMaps) ∧
      ∀ i, s.reported i = takenFrom s.taken i ++ (s.queues i).contents ++
        inFlight (s.writers i) := by
  obtain ⟨s, reach, seen⟩ := reachable_moves wrapped
    (fun s => decide ((s.reported 0).length = 41 ∧ (takenFrom s.taken 0).length = 11 ∧
      (s.queues 0).contents.length = 30 ∧ takenFrom s.taken 1 = s.reported 1 ∧
      s.received.length = 12 ∧ (beingRead s.poller).length = 1)) true (by decide +kernel)
  exact ⟨s, reach, of_decide_eq_true seen, reported_eq reach⟩

/-- A sub-HAL is handed cells that are there and that `poll` does not read, whatever `poll` has
read since. -/
theorem region_apart (reach : (machine h count).Reachable s) {i first length : Nat}
    (polling : s.writers i = .polling first length) :
    0 < length ∧ first + length ≤ (s.queues i).capacity ∧
      (∀ j < length, ∀ k < (s.queues i).size,
        first + j ≠ ((s.queues i).start + k) % (s.queues i).capacity) ∧
      ∀ j < length, ∀ e, ((s.fill i (first + j) e).queues i).contents = (s.queues i).contents := by
  obtain ⟨valid, fits, -⟩ := (inv_reachable reach).tasks i
  rw [polling] at fits
  obtain ⟨writable, positive⟩ := fits
  refine ⟨positive, writable.inside, fun j inside k readable => writable.apart inside readable, ?_⟩
  intro j inside e
  show (Function.update s.queues i _ i).contents = _
  rw [Function.update_self, writable.contents_write valid inside]

theorem region_apart_wrapped : ∃ s : State Nat, (machine twoHubMaps 2).Reachable s ∧
    s.writers 0 = .polling 5 5 ∧ (s.queues 0).start = 11 ∧ (s.queues 0).size = 30 ∧
    (0 < 5 ∧ 5 + 5 ≤ (s.queues 0).capacity ∧
      (∀ j < 5, ∀ k < (s.queues 0).size,
        5 + j ≠ ((s.queues 0).start + k) % (s.queues 0).capacity) ∧
      ∀ j < 5, ∀ e, ((s.fill 0 (5 + j) e).queues 0).contents = (s.queues 0).contents) := by
  obtain ⟨s, reach, seen⟩ := reachable_moves wrapped
    (fun s => (s.writers 0, (s.queues 0).start, (s.queues 0).size)) (.polling 5 5, 11, 30)
    (by decide +kernel)
  simp only [Prod.mk.injEq] at seen
  exact ⟨s, reach, seen.1, seen.2.1, seen.2.2, region_apart reach seen.1⟩

/-- Nobody sleeps on what the other side has to wake it for. -/
theorem nobody_sleeps_on (reach : (machine h count).Reachable s) :
    (∀ {maxReads}, s.poller = .sleeping maxReads false →
      s.waitingForData = true ∧ ∀ i < count, (s.queues i).contents = []) ∧
    (∀ {i}, s.writers i = .waiting false → (s.queues i).size = (s.queues i).capacity) ∧
    ∀ {maxReads i}, i < count → s.poller = .sleeping maxReads false →
      s.writers i ≠ .waiting false := by
  have inv := inv_reachable reach
  have asleep : ∀ {maxReads}, s.poller = .sleeping maxReads false →
      s.waitingForData = true ∧ ∀ i < count, (s.queues i).size = 0 := fun sleeping =>
    ⟨(inv.asleep sleeping).1, (inv.asleep sleeping).2.2 rfl⟩
  have full : ∀ {i}, s.writers i = .waiting false → (s.queues i).size = (s.queues i).capacity := by
    intro i waiting
    have fits := (inv.tasks i).fits
    rw [waiting] at fits
    exact fits rfl
  refine ⟨fun sleeping => ⟨(asleep sleeping).1, fun i low => ?_⟩, full, ?_⟩
  · exact SensorEventQueue.contents_eq_nil.mpr ((asleep sleeping).2 i low)
  · intro maxReads i low sleeping waiting
    have empty := (asleep sleeping).2 i low
    have positive := (inv.tasks i).valid.start
    have same := full waiting
    omega

theorem nobody_sleeps_on_twoHubs :
    (∃ s : State Nat, (machine twoHubMaps 2).Reachable s ∧ s.waitingForData = true ∧
      ∀ i < 2, (s.queues i).contents = []) ∧
    ∃ s : State Nat, (machine twoHubMaps 2).Reachable s ∧ s.writers 1 = .waiting false ∧
      (s.queues 1).size = (s.queues 1).capacity := by
  obtain ⟨s, reach, asleep⟩ := reachable_moves [.poll 1, .scan, .scan, .scanned] State.poller
    (.sleeping 1 false) (by decide +kernel)
  obtain ⟨t, reach', full⟩ := reachable_moves
    [.claim 1, .pollReturns 1 36, .mark 1, .claim 1] (fun s => s.writers 1) (.waiting false)
    (by decide +kernel)
  exact ⟨⟨s, reach, (nobody_sleeps_on reach).1 asleep⟩, t, reach', full,
    (nobody_sleeps_on reach').2.1 full⟩

/-- `poll` returns at least one event and at most as many as fit, and fewer only when there is
nothing left to read. -/
theorem poll_returns (reach : (machine h count).Reachable s) {party : Party}
    (step : Step h count s party s') {maxReads empties : Nat} {out : List (Event P)}
    (scanning : s.poller = .scanning maxReads empties out) (returned : s'.poller = .idle) :
    s'.received = s.received ++ out ∧ 0 < out.length ∧ out.length ≤ maxReads ∧
      (out.length < maxReads → ∀ i < count, (s'.queues i).contents = []) := by
  have inv := inv_reachable reach
  have locked : s.poller.holdsLock = true := by rw [scanning]; rfl
  cases step with
  | claims _ _ unlocked => cases locked.symm.trans unlocked
  | writerWakes _ _ unlocked => cases locked.symm.trans unlocked
  | fills => cases scanning.symm.trans returned
  | pollReturns =>
      simp only [State.pollReturns] at returned
      split_ifs at returned
      · cases scanning.symm.trans returned
      · cases scanning.symm.trans returned
  | marks _ _ unlocked => cases locked.symm.trans unlocked
  | polls _ idle => cases scanning.symm.trans idle
  | scans scanning' =>
      simp only [State.scan] at returned
      cases found : (s.queues s.nextReadIndex).peek with
      | none => rw [found] at returned; cases returned
      | some event => rw [found] at returned; cases returned
  | scanned scanning' done =>
      obtain ⟨rfl, rfl, rfl⟩ := Poller.scanning.inj (scanning.symm.trans scanning')
      obtain ⟨most, short, -, -⟩ := inv.sweep scanning
      unfold State.scanned at returned ⊢
      by_cases nothing : out = []
      · rw [if_pos nothing] at returned
        cases returned
      · rw [if_neg nothing]
        refine ⟨rfl, List.length_pos_of_ne_nil nothing, short, fun fewer i low => ?_⟩
        obtain rfl : empties = count := by omega
        exact SensorEventQueue.contents_eq_nil.mpr (inv.around scanning low)
  | pollerWakes sleeping => cases scanning.symm.trans sleeping

theorem poll_returns_emptied : ∃ (s : State Nat) (out : List (Event Nat)),
    (machine twoHubMaps 2).Reachable s ∧ out.length = 4 ∧
    Step twoHubMaps 2 s .framework (s.scanned 100 out) ∧
    ((s.scanned 100 out).received = s.received ++ out ∧ 0 < out.length ∧ out.length ≤ 100 ∧
      (out.length < 100 → ∀ i < 2, ((s.scanned 100 out).queues i).contents = [])) := by
  obtain ⟨s, reach, scanning⟩ := reachable_moves emptied State.poller
    (.scanning 100 2 [⟨1, sensorTypeLight, 0, 0⟩, ⟨0, sensorTypeMetaData, 2, 100⟩,
      ⟨1, sensorTypeLight, 0, 1⟩, ⟨3, sensorTypeTiltDetector, 0, 102⟩]) (by decide +kernel)
  have step : Step twoHubMaps 2 s .framework (s.scanned 100 _) := .scanned scanning (by decide)
  exact ⟨s, _, reach, rfl, step, poll_returns reach step scanning rfl⟩

/-- How many events wait in the queues. -/
def backlog (count : Nat) (s : State P) : Nat :=
  ∑ i ∈ Finset.range count, (s.queues i).size

/-- How far `poll` is from its next event, at most. -/
def ahead {E : Type} (count : Nat) : Poller E → Nat
  | .idle => count + 1
  | .sleeping _ _ => count + 2
  | .scanning _ empties out => (if out = [] then 0 else count + 2) + (count - empties)

private theorem backlog_dequeue {queues : Nat → SensorEventQueue (Event P)} {i : Nat}
    {e : Event P} (low : i < count) (found : (queues i).peek = some e) :
    ∑ j ∈ Finset.range count, (Function.update queues i (queues i).dequeue.1 j).size + 1 =
      ∑ j ∈ Finset.range count, (queues j).size := by
  have member : i ∈ Finset.range count := Finset.mem_range.mpr low
  rw [← Finset.add_sum_erase _ _ member, ← Finset.add_sum_erase _ _ member, Function.update_self,
    SensorEventQueue.size_of_peek found]
  have others : ∑ j ∈ (Finset.range count).erase i,
      (Function.update queues i (queues i).dequeue.1 j).size =
        ∑ j ∈ (Finset.range count).erase i, (queues j).size := by
    apply Finset.sum_congr rfl
    intro j apart
    rw [Function.update_of_ne (Finset.ne_of_mem_erase apart)]
  omega

private theorem framework_step (step : Step h count s .framework s') (i : Nat) :
    s'.reported i = s.reported i ∧ inFlight (s'.writers i) = inFlight (s.writers i) := by
  cases step with
  | polls => exact ⟨rfl, rfl⟩
  | pollerWakes => exact ⟨rfl, rfl⟩
  | scanned =>
      unfold State.scanned
      split_ifs
      · exact ⟨rfl, rfl⟩
      · exact ⟨rfl, rfl⟩
  | scans =>
      simp only [State.scan]
      cases (s.queues s.nextReadIndex).peek with
      | none => exact ⟨rfl, rfl⟩
      | some event =>
          refine ⟨rfl, ?_⟩
          show inFlight ((if _ then Function.update s.writers s.nextReadIndex _ else s.writers) i)
            = _
          split_ifs
          · by_cases same : i = s.nextReadIndex
            · rw [same, Function.update_self]
              cases s.writers s.nextReadIndex <;> rfl
            · rw [Function.update_of_ne same]
          · rfl

private theorem framework_progress (inv : Inv h count s)
    (unfinished : ¬ (backlog count s = 0 ∧ beingRead s.poller = [])) :
    ∃ t, Step h count s .framework t ∧
      backlog count t * (2 * count + 3) + ahead count t.poller <
        backlog count s * (2 * count + 3) + ahead count s.poller := by
  cases poller : s.poller with
  | idle =>
      refine ⟨_, .polls 1 poller Nat.one_pos, ?_⟩
      simp [backlog, ahead]
  | sleeping maxReads signalled =>
      refine ⟨_, .pollerWakes poller, ?_⟩
      simp [backlog, ahead]
  | scanning maxReads empties out =>
      by_cases more : empties < count ∧ out.length < maxReads
      · refine ⟨_, .scans poller more.1 more.2, ?_⟩
        have low : s.nextReadIndex < count := by have := inv.next; omega
        simp only [State.scan]
        cases found : (s.queues s.nextReadIndex).peek with
        | none =>
            have closer : count - (empties + 1) < count - empties := by omega
            simp only [backlog, ahead]
            omega
        | some event =>
            have shorter := backlog_dequeue low found
            simp only [backlog, ahead] at shorter ⊢
            rw [← shorter, Nat.add_mul]
            split_ifs <;> omega
      · refine ⟨_, .scanned poller more, ?_⟩
        simp only [State.scanned]
        split_ifs with nothing
        · exfalso
          obtain ⟨most, -, positive, -⟩ := inv.sweep poller
          obtain rfl : empties = count := by
            rw [nothing] at more
            simp only [List.length_nil] at more
            omega
          apply unfinished
          rw [poller]
          refine ⟨Finset.sum_eq_zero fun i member => ?_, nothing⟩
          exact inv.around poller (Finset.mem_range.mp member)
        · simp only [backlog, ahead, if_neg nothing]
          omega

/-- Whatever the sub-HALs do not do, a framework that goes on polling gets every event that was
marked as written. -/
theorem drained (reach : (machine h count).Reachable s) :
    ∃ t, Relation.ReflTransGen (fun a b => Step h count a .framework b) s t ∧
      (∀ i < count, (t.queues i).contents = []) ∧ t.received = t.taken.filterMap (deliver h) ∧
      ∀ i < count, s.reported i = takenFrom t.taken i ++ inFlight (s.writers i) := by
  let inv' : State P → Prop := fun t => Inv h count t ∧
    ∀ i, t.reported i = s.reported i ∧ inFlight (t.writers i) = inFlight (s.writers i)
  obtain ⟨t, run, ⟨inv, same⟩, empty, nothing⟩ := reaches_of_measure
    (fun a b => Step h count a .framework b) inv'
    (fun t => backlog count t = 0 ∧ beingRead t.poller = [])
    (fun t => backlog count t * (2 * count + 3) + ahead count t.poller)
    (by
      intro t kept unfinished
      obtain ⟨inv, same⟩ := kept
      obtain ⟨u, step, lower⟩ := framework_progress inv unfinished
      refine ⟨u, step, ⟨inv_step inv step, fun i => ?_⟩, lower⟩
      obtain ⟨reported, flight⟩ := framework_step step i
      exact ⟨reported.trans (same i).1, flight.trans (same i).2⟩)
    s ⟨inv_reachable reach, fun i => ⟨rfl, rfl⟩⟩
  have sizes : ∀ i < count, (t.queues i).contents = [] := by
    intro i low
    rw [SensorEventQueue.contents_eq_nil]
    exact Finset.sum_eq_zero_iff.mp empty i (Finset.mem_range.mpr low)
  refine ⟨t, run, sizes, ?_, fun i low => ?_⟩
  · rw [← inv.given, nothing, List.append_nil]
  · rw [← (same i).1, ← (same i).2, (inv.tasks i).conserved, sizes i low, List.append_nil]

theorem drained_wrapped : ∃ s : State Nat, (machine twoHubMaps 2).Reachable s ∧
    (s.queues 0).contents.length = 30 ∧
    ∃ t, Relation.ReflTransGen (fun a b => Step twoHubMaps 2 a .framework b) s t ∧
      (∀ i < 2, (t.queues i).contents = []) ∧
      t.received = t.taken.filterMap (deliver twoHubMaps) ∧
      ∀ i < 2, s.reported i = takenFrom t.taken i ++ inFlight (s.writers i) := by
  obtain ⟨s, reach, waits⟩ := reachable_moves wrapped
    (fun s => (s.queues 0).contents.length) 30 (by decide +kernel)
  exact ⟨s, reach, waits, drained reach⟩

/-- The sensor the multi-HAL translates in an event that arrives is one the framework was told of;
a meta-data event about one it was not told of says -1. -/
theorem received_known {modules : List Module} {list : List Sensor}
    (made : lazyInitSensorsList modules = some (list, h)) (reach : (machine h count).Reachable s)
    {e : Event P} (got : e ∈ s.received) :
    if e.type = sensorTypeMetaData then
      e.metaSensor = -1 ∨ ∃ sensor ∈ list, sensor.handle = e.metaSensor
    else ∃ sensor ∈ list, sensor.handle = e.sensor := by
  have given := (inv_reachable reach).given
  have member : e ∈ s.taken.filterMap (deliver h) := by
    rw [← given]
    exact List.mem_append_left _ got
  obtain ⟨⟨i, src⟩, -, delivered⟩ := List.mem_filterMap.mp member
  simp only [deliver] at delivered
  split_ifs at delivered with unknown
  obtain rfl := Option.some.inj delivered
  unfold copyEventRemapHandle at unknown ⊢
  by_cases metaData : src.type = sensorTypeMetaData
  · simp only [if_pos metaData] at unknown ⊢
    by_cases about : h.getGlobalHandle ⟨i, src.metaSensor⟩ = -1
    · exact .inl about
    · exact .inr (exists_of_getGlobalHandle made about)
  · simp only [if_neg metaData] at unknown ⊢
    exact exists_of_getGlobalHandle made unknown

theorem received_known_emptied : ∃ list, ∃ s : State Nat,
    lazyInitSensorsList twoHubs = some (list, twoHubMaps) ∧
    (machine twoHubMaps 2).Reachable s ∧
    s.received = [⟨1, sensorTypeLight, 0, 0⟩, ⟨0, sensorTypeMetaData, 2, 100⟩,
      ⟨1, sensorTypeLight, 0, 1⟩, ⟨3, sensorTypeTiltDetector, 0, 102⟩] ∧
    ∀ e ∈ s.received, if e.type = sensorTypeMetaData then
        e.metaSensor = -1 ∨ ∃ sensor ∈ list, sensor.handle = e.metaSensor
      else ∃ sensor ∈ list, sensor.handle = e.sensor := by
  obtain ⟨s, reach, received⟩ := reachable_moves (emptied ++ [.scanned])
    State.received
    ([⟨1, sensorTypeLight, 0, 0⟩, ⟨0, sensorTypeMetaData, 2, 100⟩,
      ⟨1, sensorTypeLight, 0, 1⟩, ⟨3, sensorTypeTiltDetector, 0, 102⟩]) (by decide +kernel)
  have made : lazyInitSensorsList twoHubs = some (_, twoHubMaps) := rfl
  exact ⟨_, s, made, reach, received, fun e got => received_known made reach got⟩

end Steps

end XdPlus.Sensors.Deliveries
