/- Module: XdPlus/Sensors/EventQueue
   source: sensors/SensorEventQueue.cpp, sensors/SensorEventQueue.h
   digest: The circular queue a sub-HAL polls into, and the first-in first-out queue it is. -/

import XdPlus.Base.CircularBuffer

/-!
A writer asks for a region under the lock, has it filled without the lock and says under the
lock how much was written. In between the reader may dequeue: the region stays where it is.
-/

set_option autoImplicit false
set_option relaxedAutoImplicit false

namespace XdPlus.Sensors.EventQueue

open XdPlus.Base

/-- `class SensorEventQueue`, without its condition. -/
structure SensorEventQueue (E : Type) where
  capacity : Nat
  start : Nat
  size : Nat
  data : Buffer E

variable {E : Type}

/-- Whatever `new sensors_event_t[]` left in the cells. -/
def SensorEventQueue.new (capacity : Nat) (data : Buffer E) : SensorEventQueue E :=
  ⟨capacity, 0, 0, data⟩

namespace SensorEventQueue

/-- The index of the first cell, or a null pointer, and how many may be written. -/
def getWritableRegion (q : SensorEventQueue E) (requestedLength : Int) : Option Nat × Nat :=
  if q.size = q.capacity ∨ requestedLength ≤ 0 then
    (none, 0)
  else
    let firstWritable := (q.start + q.size) % q.capacity
    let lastWritable := firstWritable + requestedLength.toNat - 1
    let lastWritable := if lastWritable > q.capacity - 1 then q.capacity - 1 else lastWritable
    let lastWritable :=
      if firstWritable < q.start ∧ lastWritable ≥ q.start then q.start - 1 else lastWritable
    (some firstWritable, lastWritable - firstWritable + 1)

def markAsWritten (q : SensorEventQueue E) (count : Nat) : SensorEventQueue E :=
  { q with size := q.size + count }

def peek (q : SensorEventQueue E) : Option E :=
  if q.size = 0 then none else some (q.data q.start)

/-- The queue afterwards, and whether whoever waits for space is woken. -/
def dequeue (q : SensorEventQueue E) : SensorEventQueue E × Bool :=
  if q.size = 0 then (q, false)
  else
    ({ q with size := q.size - 1, start := (q.start + 1) % q.capacity }, q.size == q.capacity)

/-- What a `poll` outside the lock puts into cell `i`. -/
def write (q : SensorEventQueue E) (i : Nat) (e : E) : SensorEventQueue E :=
  { q with data := Function.update q.data i e }

/-- What there is to read, the oldest first. -/
def contents (q : SensorEventQueue E) : List E := q.data.circle q.capacity q.start q.size

structure Valid (q : SensorEventQueue E) : Prop where
  start : q.start < q.capacity
  size : q.size ≤ q.capacity

/-- `length` cells from `first` on follow the readable ones in one piece. -/
structure Writable (q : SensorEventQueue E) (first length : Nat) : Prop where
  behind : first = (q.start + q.size) % q.capacity
  inside : first + length ≤ q.capacity
  free : q.size + length ≤ q.capacity

variable {q : SensorEventQueue E} {first length : Nat}

@[simp] theorem length_contents : q.contents.length = q.size := Buffer.length_circle

theorem contents_eq_nil : q.contents = [] ↔ q.size = 0 := by
  rw [← List.length_eq_zero_iff, length_contents]

theorem valid_new {capacity : Nat} {data : Buffer E} (positive : 0 < capacity) :
    (new capacity data).Valid := ⟨positive, Nat.zero_le _⟩

@[simp] theorem contents_new {capacity : Nat} {data : Buffer E} :
    (new capacity data).contents = [] := rfl

theorem contents_of_peek {e : E} (found : q.peek = some e) :
    q.contents = e :: q.dequeue.1.contents := by
  unfold peek at found
  split_ifs at found with empty
  obtain rfl := Option.some.inj found
  obtain ⟨n, size⟩ := Nat.exists_eq_succ_of_ne_zero empty
  simp only [contents, dequeue, size, Nat.succ_ne_zero, if_false]
  rfl

theorem size_of_peek {e : E} (found : q.peek = some e) : q.size = q.dequeue.1.size + 1 := by
  have cons := congrArg List.length (contents_of_peek found)
  simpa using cons

theorem peek_none : q.peek = none ↔ q.size = 0 := by
  unfold peek
  split_ifs with empty
  · simp [empty]
  · simp [empty]

theorem Valid.dequeue (valid : q.Valid) : q.dequeue.1.Valid := by
  unfold SensorEventQueue.dequeue
  split_ifs with empty
  · exact valid
  · have size := valid.size
    constructor
    · exact Nat.mod_lt _ (by have := valid.start; omega)
    · show q.size - 1 ≤ q.capacity
      omega

@[simp] theorem capacity_dequeue : q.dequeue.1.capacity = q.capacity := by
  unfold SensorEventQueue.dequeue
  split_ifs <;> rfl

@[simp] theorem data_dequeue : q.dequeue.1.data = q.data := by
  unfold SensorEventQueue.dequeue
  split_ifs <;> rfl

theorem dequeue_wakes (full : q.size = q.capacity) (positive : 0 < q.capacity) :
    q.dequeue.2 = true := by
  unfold SensorEventQueue.dequeue
  rw [if_neg (by omega)]
  exact beq_iff_eq.mpr full

theorem Writable.dequeue (writable : q.Writable first length) :
    q.dequeue.1.Writable first length := by
  unfold SensorEventQueue.dequeue
  split_ifs with empty
  · exact writable
  · obtain ⟨is_first, inside, free⟩ := writable
    refine ⟨?_, inside, ?_⟩
    · show first = ((q.start + 1) % q.capacity + (q.size - 1)) % q.capacity
      rw [is_first, Nat.mod_add_mod, show q.start + 1 + (q.size - 1) = q.start + q.size by omega]
    · show q.size - 1 + length ≤ q.capacity
      omega

theorem Writable.write {i : Nat} {e : E} (writable : q.Writable first length) :
    (q.write i e).Writable first length := ⟨writable.behind, writable.inside, writable.free⟩

theorem Writable.shorten {count : Nat} (writable : q.Writable first length)
    (fewer : count ≤ length) : q.Writable first count := by
  obtain ⟨is_first, inside, free⟩ := writable
  exact ⟨is_first, by omega, by omega⟩

theorem Writable.apart {j k : Nat} (writable : q.Writable first length) (inside : j < length)
    (readable : k < q.size) : first + j ≠ (q.start + k) % q.capacity := by
  obtain ⟨is_first, room, free⟩ := writable
  have here : first + j = (q.start + (q.size + j)) % q.capacity := by
    rw [← Nat.add_assoc, ← Nat.mod_add_mod, ← is_first, Nat.mod_eq_of_lt (by omega)]
  rw [here]
  exact (Buffer.mod_ne_of_lt (by omega) (by omega)).symm

theorem Writable.contents_write {j : Nat} {e : E} (valid : q.Valid)
    (writable : q.Writable first length) (inside : j < length) :
    (q.write (first + j) e).contents = q.contents := by
  apply Buffer.circle_congr valid.start
  intro k readable
  exact Function.update_of_ne (writable.apart inside readable).symm _ _

theorem Writable.contents_markAsWritten {count : Nat} (valid : q.Valid)
    (writable : q.Writable first count) :
    (q.markAsWritten count).contents = q.contents ++ q.data.slice first count := by
  have more : q.data.circle q.capacity q.start (q.size + count) = _ :=
    Buffer.circle_add valid.start count
  rw [← writable.behind, Buffer.circle_slice writable.inside] at more
  exact more

theorem Valid.markAsWritten {count : Nat} (valid : q.Valid) (free : q.size + count ≤ q.capacity) :
    (q.markAsWritten count).Valid := ⟨valid.start, free⟩

/-- A region is refused only by a full queue, and otherwise is as long as what was asked for, the
end of the cells and the readable events allow. -/
theorem getWritableRegion_exact (valid : q.Valid) {requestedLength : Int}
    (asks : 0 < requestedLength) :
    (q.size = q.capacity ∧ q.getWritableRegion requestedLength = (none, 0)) ∨
      ∃ first length, q.getWritableRegion requestedLength = (some first, length) ∧ 0 < length ∧
        q.Writable first length ∧
        length = min requestedLength.toNat (min (q.capacity - first) (q.capacity - q.size)) := by
  by_cases full : q.size = q.capacity
  · left
    exact ⟨full, by simp [getWritableRegion, full]⟩
  · right
    obtain ⟨start, size⟩ := valid
    have wrapped : (q.start + q.size) % q.capacity = q.start + q.size ∨
        (q.start + q.size) % q.capacity + q.capacity = q.start + q.size := by
      rcases Nat.lt_or_ge (q.start + q.size) q.capacity with straight | around
      · exact .inl (Nat.mod_eq_of_lt straight)
      · right
        rw [Nat.mod_eq_sub_mod around, Nat.mod_eq_of_lt (by omega)]
        omega
    have below : (q.start + q.size) % q.capacity < q.capacity := Nat.mod_lt _ (by omega)
    have refused : ¬ (q.size = q.capacity ∨ requestedLength ≤ 0) := by omega
    unfold getWritableRegion
    rw [if_neg refused]
    generalize firstIs : (q.start + q.size) % q.capacity = firstWritable at wrapped below
    refine ⟨firstWritable, _, rfl, Nat.succ_pos _, ⟨firstIs.symm, ?_, ?_⟩, ?_⟩
    · split_ifs <;> omega
    · split_ifs <;> omega
    · split_ifs <;> omega

end SensorEventQueue

end XdPlus.Sensors.EventQueue
