/- Module: XdPlus/Sensors/Polling
   source: sensors/multihal.cpp, writerTask, sensors_poll_context_t::poll, addSubHwDevice
   digest: A writer task for each sub-HAL, and the framework's poll, over shared queues. -/

import XdPlus.Base.Machine
import XdPlus.Sensors.EventQueue
import XdPlus.Sensors.Handles

/-!
`queue_mutex` is held by `poll` over many steps and by a writer task for one step at a time.
A sub-HAL fills its region cell by cell, whoever holds the lock. A thread in
`pthread_cond_wait` may wake at any time; whether it was signalled is remembered.
-/

set_option autoImplicit false
set_option relaxedAutoImplicit false

namespace XdPlus.Sensors.Polling

open XdPlus.Base EventQueue Handles

/-- `SENSOR_EVENT_QUEUE_CAPACITY`. -/
def sensorEventQueueCapacity : Nat := 36

/-- Where a writer task is. -/
inductive Writer (E : Type) where
  | locking
  | waiting (signalled : Bool)
  | polling (first length : Nat)
  | polled (first : Nat) (events : List E)
  deriving DecidableEq

/-- Where the framework is: in `poll` it has read `out`, and `empties` queues in a row had
nothing. -/
inductive Poller (E : Type) where
  | idle
  | scanning (maxReads empties : Nat) (out : List E)
  | sleeping (maxReads : Nat) (signalled : Bool)
  deriving DecidableEq

/-- The queues of the sub-HALs and their tasks, by index. The rest is ghost: what each sub-HAL has
reported, what was dequeued and from where, and what the framework was given. -/
structure State (P : Type) where
  queues : Nat → SensorEventQueue (Event P)
  writers : Nat → Writer (Event P)
  poller : Poller (Event P)
  nextReadIndex : Nat
  waitingForData : Bool
  reported : Nat → List (Event P)
  taken : List (Nat × Event P)
  received : List (Event P)

variable {P : Type}

def Writer.signal {E : Type} : Writer E → Writer E
  | waiting _ => waiting true
  | w => w

def Poller.signal {E : Type} : Poller E → Poller E
  | sleeping maxReads _ => sleeping maxReads true
  | p => p

def Poller.holdsLock {E : Type} : Poller E → Bool
  | scanning .. => true
  | _ => false

/-- `waitForSpace` and `getWritableRegion`. -/
def State.claim (s : State P) (i : Nat) : State P :=
  let q := s.queues i
  if q.size = q.capacity then
    { s with writers := Function.update s.writers i (.waiting false) }
  else
    match q.getWritableRegion sensorEventQueueCapacity with
    | (none, _) => { s with writers := Function.update s.writers i (.polling 0 0) }
    | (some first, length) =>
        { s with writers := Function.update s.writers i (.polling first length) }

/-- The sub-HAL puts an event into its buffer. -/
def State.fill (s : State P) (i cell : Nat) (e : Event P) : State P :=
  { s with queues := Function.update s.queues i ((s.queues i).write cell e) }

/-- `device->poll` returns; nothing or an error starts the loop again. -/
def State.pollReturns (s : State P) (i first : Nat) (eventsPolled : Int) : State P :=
  if eventsPolled ≤ 0 then
    { s with writers := Function.update s.writers i .locking }
  else
    let events := (s.queues i).data.slice first eventsPolled.toNat
    { s with
      writers := Function.update s.writers i (.polled first events)
      reported := Function.update s.reported i (s.reported i ++ events) }

/-- `markAsWritten`, and the broadcast to a `poll` that waits. -/
def State.mark (s : State P) (i : Nat) (events : List (Event P)) : State P :=
  { s with
    queues := Function.update s.queues i ((s.queues i).markAsWritten events.length)
    writers := Function.update s.writers i .locking
    poller := if s.waitingForData then s.poller.signal else s.poller }

/-- One queue of the scan. An event whose sensor nobody knows is dropped. -/
def State.scan (h : HandleMaps) (count : Nat) (s : State P) (maxReads empties : Nat)
    (out : List (Event P)) : State P :=
  let i := s.nextReadIndex
  let next := (i + 1) % count
  match (s.queues i).peek with
  | none => { s with poller := .scanning maxReads (empties + 1) out, nextReadIndex := next }
  | some event =>
      let copied := copyEventRemapHandle h event i
      let out := if copied.sensor = -1 then out else out ++ [copied]
      { s with
        queues := Function.update s.queues i (s.queues i).dequeue.1
        writers :=
          if (s.queues i).dequeue.2 then Function.update s.writers i (s.writers i).signal
          else s.writers
        poller := .scanning maxReads 0 out
        nextReadIndex := next
        taken := s.taken ++ [(i, event)] }

/-- Behind the inner loop: wait for data, or return what was read. -/
def State.scanned (s : State P) (maxReads : Nat) (out : List (Event P)) : State P :=
  if out = [] then
    { s with poller := .sleeping maxReads false, waitingForData := true }
  else
    { s with poller := .idle, received := s.received ++ out }

/-- Whose thread it is. -/
inductive Party where
  | subHal (i : Nat)
  | framework
  deriving DecidableEq

/-- The steps of `count` runs of `writerTask` and one of `poll`. A sub-HAL writes to its buffer
only, and reports at most as many events as fit; the framework asks for at least one. -/
inductive Step (h : HandleMaps) (count : Nat) : State P → Party → State P → Prop
  | claims {s : State P} {i : Nat} : i < count → s.writers i = .locking →
      s.poller.holdsLock = false → Step h count s (.subHal i) (s.claim i)
  | writerWakes {s : State P} {i : Nat} {signalled : Bool} : i < count →
      s.writers i = .waiting signalled → s.poller.holdsLock = false →
      Step h count s (.subHal i) (s.claim i)
  | fills {s : State P} {i first length j : Nat} (e : Event P) : i < count →
      s.writers i = .polling first length → j < length →
      Step h count s (.subHal i) (s.fill i (first + j) e)
  | pollReturns {s : State P} {i first length : Nat} (eventsPolled : Int) : i < count →
      s.writers i = .polling first length → eventsPolled ≤ length →
      Step h count s (.subHal i) (s.pollReturns i first eventsPolled)
  | marks {s : State P} {i first : Nat} {events : List (Event P)} : i < count →
      s.writers i = .polled first events → s.poller.holdsLock = false →
      Step h count s (.subHal i) (s.mark i events)
  | polls {s : State P} (maxReads : Nat) : s.poller = .idle → 0 < maxReads →
      Step h count s .framework { s with poller := .scanning maxReads 0 [] }
  | scans {s : State P} {maxReads empties : Nat} {out : List (Event P)} :
      s.poller = .scanning maxReads empties out → empties < count → out.length < maxReads →
      Step h count s .framework (s.scan h count maxReads empties out)
  | scanned {s : State P} {maxReads empties : Nat} {out : List (Event P)} :
      s.poller = .scanning maxReads empties out → ¬ (empties < count ∧ out.length < maxReads) →
      Step h count s .framework (s.scanned maxReads out)
  | pollerWakes {s : State P} {maxReads : Nat} {signalled : Bool} :
      s.poller = .sleeping maxReads signalled →
      Step h count s .framework
        { s with poller := .scanning maxReads 0 [], waitingForData := false }

/-- What one of the parties does next. -/
inductive Move (P : Type) where
  | claim (i : Nat)
  | fill (i j : Nat) (e : Event P)
  | pollReturns (i : Nat) (eventsPolled : Int)
  | mark (i : Nat)
  | poll (maxReads : Nat)
  | scan
  | scanned

/-- The next state, if the one who moves is there. -/
def State.move (h : HandleMaps) (count : Nat) (s : State P) : Move P → Option (State P)
  | .claim i =>
      if i < count ∧ s.poller.holdsLock = false then
        match s.writers i with
        | .locking => some (s.claim i)
        | .waiting _ => some (s.claim i)
        | _ => none
      else none
  | .fill i j e =>
      match s.writers i with
      | .polling first length =>
          if i < count ∧ j < length then some (s.fill i (first + j) e) else none
      | _ => none
  | .pollReturns i eventsPolled =>
      match s.writers i with
      | .polling first length =>
          if i < count ∧ eventsPolled ≤ length then some (s.pollReturns i first eventsPolled)
          else none
      | _ => none
  | .mark i =>
      match s.writers i with
      | .polled _ events =>
          if i < count ∧ s.poller.holdsLock = false then some (s.mark i events) else none
      | _ => none
  | .poll maxReads =>
      match s.poller with
      | .idle => if 0 < maxReads then some { s with poller := .scanning maxReads 0 [] } else none
      | _ => none
  | .scan =>
      match s.poller with
      | .scanning maxReads empties out =>
          if empties < count ∧ out.length < maxReads then some (s.scan h count maxReads empties out)
          else none
      | _ => none
  | .scanned =>
      match s.poller with
      | .scanning maxReads empties out =>
          if empties < count ∧ out.length < maxReads then none
          else some (s.scanned maxReads out)
      | _ => none

theorem step_of_move {h : HandleMaps} {count : Nat} {s s' : State P} {m : Move P}
    (moved : s.move h count m = some s') :
    ∃ party, Step h count s party s' := by
  cases m with
  | claim i =>
      simp only [State.move] at moved
      split_ifs at moved with free
      cases writer : s.writers i with
      | locking =>
          rw [writer] at moved
          obtain rfl := Option.some.inj moved
          exact ⟨_, .claims free.1 writer free.2⟩
      | waiting signalled =>
          rw [writer] at moved
          obtain rfl := Option.some.inj moved
          exact ⟨_, .writerWakes free.1 writer free.2⟩
      | polling first length => rw [writer] at moved; cases moved
      | polled first events => rw [writer] at moved; cases moved
  | fill i j e =>
      cases writer : s.writers i with
      | polling first length =>
          simp only [State.move, writer] at moved
          split_ifs at moved with inside
          obtain rfl := Option.some.inj moved
          exact ⟨_, .fills e inside.1 writer inside.2⟩
      | _ => simp [State.move, writer] at moved
  | pollReturns i eventsPolled =>
      cases writer : s.writers i with
      | polling first length =>
          simp only [State.move, writer] at moved
          split_ifs at moved with fewer
          obtain rfl := Option.some.inj moved
          exact ⟨_, .pollReturns eventsPolled fewer.1 writer fewer.2⟩
      | _ => simp [State.move, writer] at moved
  | mark i =>
      cases writer : s.writers i with
      | polled first events =>
          simp only [State.move, writer] at moved
          split_ifs at moved with free
          obtain rfl := Option.some.inj moved
          exact ⟨_, .marks free.1 writer free.2⟩
      | _ => simp [State.move, writer] at moved
  | poll maxReads =>
      cases poller : s.poller with
      | idle =>
          simp only [State.move, poller] at moved
          split_ifs at moved with positive
          obtain rfl := Option.some.inj moved
          exact ⟨_, .polls maxReads poller positive⟩
      | _ => simp [State.move, poller] at moved
  | scan =>
      cases poller : s.poller with
      | scanning maxReads empties out =>
          simp only [State.move, poller] at moved
          split_ifs at moved with more
          obtain rfl := Option.some.inj moved
          exact ⟨_, .scans poller more.1 more.2⟩
      | _ => simp [State.move, poller] at moved
  | scanned =>
      cases poller : s.poller with
      | scanning maxReads empties out =>
          simp only [State.move, poller] at moved
          split_ifs at moved with more
          obtain rfl := Option.some.inj moved
          exact ⟨_, .scanned poller more⟩
      | _ => simp [State.move, poller] at moved

/-- `open_sensors` has just returned. -/
def machine (h : HandleMaps) (count : Nat) : Machine (State P) Party where
  init s := (∀ i, ∃ data, s.queues i = .new sensorEventQueueCapacity data) ∧
    (∀ i, s.writers i = .locking) ∧ s.poller = .idle ∧ s.nextReadIndex = 0 ∧
    s.waitingForData = false ∧ (∀ i, s.reported i = []) ∧ s.taken = [] ∧ s.received = []
  step := Step h count

end XdPlus.Sensors.Polling
