/- Module: XdPlus/Vulkan/PipelineScratch
   source: vulkan/vkshim.c, compile_batch, drain_pending, drop_disk_cache
   digest: The scratch caches of a run, each with what became of it. -/

import XdPlus.Vulkan.PipelineBatchSafety

/-!
Handles are reused, so a scratch cache is the number of its creation. The book is written as
the calls are made and nothing reads it; `names` is the scratch cache a handle was last
created for.
-/

set_option autoImplicit false
set_option relaxedAutoImplicit false

namespace XdPlus.Vulkan.PipelineScratch

open XdPlus.Base Common Driver PipelineCache PipelineBatches PipelineLedger

/-- A cache `compile_batch` created. It is `refused` if there was no slot or no room in the queue at
the end of its batch, `masterless` if there was no master when it was destroyed; `destroyed` counts
the calls that destroy it, `late` says that one came without its device. -/
structure Scratch where
  handle : VkPipelineCache
  dev : VkDevice
  incarnation : Nat
  merged : Bool
  refused : Bool
  masterless : Bool
  destroyed : Nat
  late : Bool
  deriving DecidableEq, Repr

structure Book where
  born : Nat
  scratches : Nat → Scratch
  names : VkPipelineCache → Option Nat
  /-- The driver gave no master when it was asked for an empty one. -/
  masterFailed : Bool

def Book.empty : Book :=
  ⟨0, fun _ => ⟨0, 0, 0, false, false, false, 0, false⟩, fun _ => none, false⟩

/-- The master of a device, null if there is none. -/
def masterOf (d : DevCaches) (dev : VkDevice) : VkPipelineCache :=
  (slotOf d dev).elim 0 DevCache.pc

def Book.bear (bk : Book) (w : World) (dev : VkDevice) (pc : VkPipelineCache) : Book :=
  { bk with
    born := bk.born + 1
    scratches := Function.update bk.scratches bk.born
      ⟨pc, dev, (w.devices dev).getD 0, false, false, false, 0, false⟩
    names := Function.update bk.names pc (some bk.born) }

/-- The handle is now something else's. -/
def Book.forget (bk : Book) (pc : VkPipelineCache) : Book :=
  { bk with names := Function.update bk.names pc none }

/-- Only what has not been destroyed yet can be merged. -/
def Book.merge (bk : Book) (srcs : List VkPipelineCache) : Book :=
  { bk with scratches := fun i =>
      let x := bk.scratches i
      if x.handle ∈ srcs ∧ bk.names x.handle = some i ∧ x.destroyed = 0 then
        { x with merged := true }
      else x }

def Book.destroy (bk : Book) (d : DevCaches) (w : World) (dev : VkDevice)
    (pc : VkPipelineCache) : Book :=
  match bk.names pc with
  | none => bk
  | some i =>
      let x := bk.scratches i
      { bk with scratches := Function.update bk.scratches i { x with
          destroyed := x.destroyed + 1
          masterless := x.masterless || masterOf d dev == 0
          late := x.late || !(dev == x.dev && w.devices dev == some x.incarnation) } }

def Book.refuse (bk : Book) (pc : VkPipelineCache) : Book :=
  match bk.names pc with
  | none => bk
  | some i =>
      { bk with scratches :=
          Function.update bk.scratches i { bk.scratches i with refused := true } }

/-- What is written for a call of thread `t`, which is in the state `s` between its stretches. -/
def note (s : State) (t : Nat) (bk : Book) (w : World) : (op : Call) → Answer op → Book
  | .createPipelineCache owner dev initial, made =>
      match s.threads t, made with
      | .begun _, some pc => bk.bear w dev pc
      | .begun _, none => bk
      | _, some pc => bk.forget pc
      | _, none => { bk with masterFailed := bk.masterFailed || (owner == .shim && initial == []) }
  | .mergePipelineCaches dev dst srcs, _ =>
      if dst = masterOf s.cache.devCaches dev then bk.merge srcs else bk
  | .destroyPipelineCache dev pc, _ => bk.destroy s.cache.devCaches w dev pc
  | _, _ => bk

/-- There is no slot for the device, or its queue is full. -/
def refuses (d : DevCaches) (dev : VkDevice) : Bool :=
  (slotOf d dev).elim true fun c => pendingMax ≤ c.pending.length

/-- What is written at the head of the last section of a batch. -/
def Book.ending (bk : Book) (s : State) (t : Nat) : Book :=
  match s.threads t with
  | .compiled b =>
      if b.scratch ≠ 0 ∧ refuses s.cache.devCaches b.dev then bk.refuse b.scratch else bk
  | _ => bk

/-- The process and the book. -/
def booked (p : Process) : Machine (State × Book) Action where
  init x := x = (State.zero, Book.empty)
  step x a x' := Lawful x.1 a ∧
    match a with
    | .call t e => x.1.threads t = .idle ∧ x' = (x.1.enter t e, x.2)
    | .advance t =>
        ∃ cache phase handed world book,
          (advance p x.1.cache (x.1.threads t)).Runs (Prog.Environment.noted answers (note x.1 t))
              (x.1.world, x.2.ending x.1 t) (cache, phase, handed) (world, book) ∧
            x' = (x.1.moved t cache phase handed world, book)
    | .resolve fns =>
        x' = ({ x.1 with cache := { x.1.cache with
          fns := resolveCacheFns (CacheFns.among fns p.exported) x.1.cache.fns } }, x.2)

theorem lawful_step {p : Process} {x x' : State × Book} {a : Action}
    (step : (booked p).step x a x') : (lawful p).step x.1 a x'.1 := by
  obtain ⟨law, move⟩ := step
  refine ⟨?_, law⟩
  cases a with
  | call t e =>
      obtain ⟨idle, rfl⟩ := move
      exact ⟨idle, rfl⟩
  | advance t =>
      obtain ⟨cache, phase, handed, world, book, run, rfl⟩ := move
      exact ⟨cache, phase, handed, world, run.unnoted, rfl⟩
  | resolve fns =>
      obtain rfl : x' = _ := move
      exact rfl

theorem lawful_reachable {p : Process} {x : State × Book} (reach : (booked p).Reachable x) :
    (lawful p).Reachable x.1 := by
  induction reach with
  | start h =>
      subst h
      exact .start rfl
  | next _ step ih => exact ih.next (lawful_step step)

theorem booked_reachable {p : Process} {s : State} (reach : (lawful p).Reachable s) :
    ∃ bk, (booked p).Reachable (s, bk) := by
  induction reach with
  | start h =>
      obtain rfl : _ = State.zero := h
      exact ⟨Book.empty, .start rfl⟩
  | @next s s' a _ step ih =>
      obtain ⟨bk, reach⟩ := ih
      obtain ⟨move, law⟩ := step
      cases a with
      | call t e =>
          obtain ⟨idle, rfl⟩ := move
          exact ⟨bk, reach.next (l := .call t e) ⟨law, idle, rfl⟩⟩
      | advance t =>
          obtain ⟨cache, phase, handed, world, run, rfl⟩ := move
          obtain ⟨bk', run'⟩ : ∃ bk', (advance p s.cache (s.threads t)).Runs
              (Prog.Environment.noted answers (note s t)) (s.world, bk.ending s t)
              (cache, phase, handed) (world, bk') := run.noted _
          exact ⟨bk', reach.next (l := .advance t)
            ⟨law, cache, phase, handed, world, bk', run', rfl⟩⟩
      | resolve fns =>
          obtain rfl : s' = _ := move
          exact ⟨bk, reach.next (l := .resolve fns) ⟨law, rfl⟩⟩

/-- Where a scratch cache can be. -/
inductive Place where
  | batch (t : Nat)
  | queue (dev : VkDevice) (position : Nat)
  | destroyed
  deriving DecidableEq, Repr

/-- Who has what is at a place. -/
def Place.holder : Place → Option PipelineOwnership.Holder
  | .batch t => some (.thread t)
  | .queue dev _ => some (.slot dev)
  | .destroyed => none

theorem Place.eq_destroyed {place : Place} (nobody : place.holder = none) :
    place = .destroyed := by
  cases place with
  | destroyed => rfl
  | _ => cases nobody

/-- The scratch cache of a thread's batch. -/
def scratchOf : Phase → VkPipelineCache
  | .arrived b | .begun b | .ready b | .compiling b | .compiled b | .ended b => b.scratch
  | _ => 0

/-- The scratch cache `i` is at the place. -/
def At (s : State) (bk : Book) (i : Nat) : Place → Prop
  | .batch t => scratchOf (s.threads t) ≠ 0 ∧ bk.names (scratchOf (s.threads t)) = some i
  | .queue dev position => ∃ c pc, slotOf s.cache.devCaches dev = some c ∧
      c.pending[position]? = some pc ∧ bk.names pc = some i
  | .destroyed => 0 < (bk.scratches i).destroyed

def respondNoted (props : PropertyStore) (s : State) (t : Nat) (x : World × Book) (op : Call) :
    Answer op × World × Book :=
  let r := respond props x.1 op
  (r.1, r.2, note s t x.2 x.1 op r.1)

/-- The state and the book after one action. -/
def nextBooked (p : Process) (props : PropertyStore) (x : State × Book) : Action → State × Book
  | .advance t =>
      let r := (advance p x.1.cache (x.1.threads t)).eval (respondNoted props x.1 t)
        (x.1.world, x.2.ending x.1 t)
      (x.1.moved t r.1.1 r.1.2.1 r.1.2.2 r.2.1, r.2.2)
  | a => (x.1.next p props a, x.2)

theorem nextBooked_step {p : Process} {props : PropertyStore} {x : State × Book} {a : Action}
    (permitted : x.1.permits a = true) : (booked p).step x a (nextBooked p props x a) := by
  have lawful : (lawful p).step x.1 a (x.1.next p props a) := next_step permitted
  refine ⟨lawful.2, ?_⟩
  cases a with
  | call t e => exact ⟨lawful.1.1, rfl⟩
  | advance t =>
      refine ⟨_, _, _, _, _, Prog.runs_eval (fun y op => ?_) _ _, rfl⟩
      exact ⟨respond_allowed props y.1 op, rfl⟩
  | resolve fns => rfl

end XdPlus.Vulkan.PipelineScratch
