/- Module: XdPlus/Vulkan/PipelineBatches
   source: vulkan/vkshim.c, compile_batch, shim_CreatePipelineCache ..
     shim_DestroyPipelineCache, shim_DestroyDevice, shim_CreateDevice
   digest: Threads in the pipeline and device hooks, interleaved at cache_mu. -/

import XdPlus.Base.Machine
import XdPlus.Vulkan.PipelineCache

/-!
A thread in a hook is in one of its phases. `advance` is the next stretch of the hook that
nothing can interrupt: a section under `cache_mu`, or one driver call outside it. The
driver may hand a handle out again once what it named is gone.
-/

set_option autoImplicit false
set_option relaxedAutoImplicit false

namespace XdPlus.Vulkan.PipelineBatches

open XdPlus.Base Common Driver PipelineCache

/-- A pipeline cache as the driver knows it. -/
structure Birth where
  dev : VkDevice
  incarnation : Nat
  owner : Owner
  deriving DecidableEq, Repr

/-- The devices that exist, each with the number of its incarnation, and the caches. -/
structure World where
  devices : VkDevice → Option Nat
  caches : VkPipelineCache → Option Birth
  incarnations : Nat

def World.empty : World := ⟨fun _ => none, fun _ => none, 0⟩

/-- The device goes, and the caches on it with it. -/
def World.removeDevice (w : World) (dev : VkDevice) : World :=
  { w with
    devices := Function.update w.devices dev none
    caches := fun pc => (w.caches pc).filter fun b => b.dev ≠ dev }

def World.addDevice (w : World) (dev : VkDevice) : World :=
  { w with
    devices := Function.update w.devices dev (some w.incarnations)
    incarnations := w.incarnations + 1 }

def World.addCache (w : World) (pc : VkPipelineCache) (dev : VkDevice) (owner : Owner) : World :=
  { w with
    caches := Function.update w.caches pc ((w.devices dev).map fun n => ⟨dev, n, owner⟩) }

def World.removeCache (w : World) (pc : VkPipelineCache) : World :=
  { w with caches := Function.update w.caches pc none }

section World

variable {w : World} {dev other : VkDevice} {pc h : VkPipelineCache}

theorem World.devices_addDevice (ne : other ≠ dev) :
    (w.addDevice dev).devices other = w.devices other := Function.update_of_ne ne _ _

theorem World.devices_removeDevice (ne : other ≠ dev) :
    (w.removeDevice dev).devices other = w.devices other := Function.update_of_ne ne _ _

theorem World.caches_removeDevice {b : Birth} :
    (w.removeDevice dev).caches pc = some b ↔ w.caches pc = some b ∧ b.dev ≠ dev := by
  simp [World.removeDevice, Option.filter_eq_some_iff]

theorem World.caches_addCache (owner : Owner) (ne : h ≠ pc) :
    (w.addCache pc dev owner).caches h = w.caches h := Function.update_of_ne ne _ _

theorem World.caches_removeCache (ne : h ≠ pc) :
    (w.removeCache pc).caches h = w.caches h := Function.update_of_ne ne _ _

end World

/-- New handles are not null and name nothing that is there. -/
def answers : Prog.Environment Call Answer World := fun w op ans w' =>
  match op, ans with
  | .createDevice, some dev => dev ≠ 0 ∧ w.devices dev = none ∧ w' = w.addDevice dev
  | .destroyDevice dev, _ => w' = w.removeDevice dev
  | .createPipelineCache owner dev _, some pc =>
      pc ≠ 0 ∧ w.caches pc = none ∧ w' = w.addCache pc dev owner
  | .destroyPipelineCache _ pc, _ => w' = w.removeCache pc
  | _, _ => w' = w

/-- Where in a hook a thread is: in `compile_batch`, in a hook on the application's caches, of
which `created` waits for the lock, or in one on devices, where the driver's own call comes first
in the one and last in the other. -/
inductive Phase where
  | idle
  | arrived (b : Batch)
  | begun (b : Batch)
  | ready (b : Batch)
  | compiling (b : Batch)
  | compiled (b : Batch)
  | ended (b : Batch)
  | creating (dev : VkDevice) (initial : Bytes)
  | created (dev : VkDevice) (out : VkPipelineCache)
  | merging (dev : VkDevice) (dst : VkPipelineCache) (srcs : List VkPipelineCache)
  | reading (dev : VkDevice) (pc : VkPipelineCache) (room : Option Nat)
  | destroying (dev : VkDevice) (pc : VkPipelineCache)
  | makingDevice
  | madeDevice (dev : VkDevice)
  | droppingDevice (dev : VkDevice)
  | droppedDevice (dev : VkDevice)
  deriving DecidableEq, Repr

/-- What a hook gives its caller. -/
inductive Handed where
  | nothing
  | cache (dev : VkDevice) (pc : VkPipelineCache)
  | device (dev : VkDevice)
  deriving DecidableEq, Repr

def advance (p : Process) (s : CacheState) : Phase → Shim (CacheState × Phase × Handed)
  | .idle => return (s, .idle, .nothing)
  | .arrived b => do
      let (s, b) ← batchBegin p s b
      return (s, .begun b, .nothing)
  | .begun b => do
      let b ← batchScratch s.fns b
      return (s, .ready b, .nothing)
  | .ready b => do
      let b ← batchCompile b
      return (s, .compiling b, .nothing)
  | .compiling b => do
      let b ← batchCompiled b
      return (s, .compiled b, .nothing)
  | .compiled b => do
      let (s, b) ← batchEnd p s b
      return (s, .ended b, .nothing)
  | .ended b => do
      batchRelease s.fns b
      return (s, .idle, .nothing)
  | .creating dev initial => do
      let (out, prime, gate) ← createAppCache s.cachePrime dev initial
      let s := { s with cachePrime := gate }
      match out with
      | none => return (s, .idle, .nothing)
      | some out =>
          if prime then return (s, .created dev out, .nothing)
          else return (s, .idle, .cache dev out)
  | .created dev out => do
      let s ← primeAppCache p s dev out
      return (s, .idle, .cache dev out)
  | .merging dev dst srcs => do
      let _ ← Shim.call (.mergePipelineCaches dev dst srcs)
      return (s, .idle, .nothing)
  | .reading dev pc none => do
      let _ ← Shim.call (.getPipelineCacheSize dev pc)
      return (s, .idle, .nothing)
  | .reading dev pc (some room) => do
      let _ ← Shim.call (.getPipelineCacheData dev pc room)
      return (s, .idle, .nothing)
  | .destroying dev pc => do
      let s ← shimDestroyPipelineCache s dev pc
      return (s, .idle, .nothing)
  | .makingDevice => do
      match ← Shim.call .createDevice with
      | none => return (s, .idle, .nothing)
      | some dev => return (s, .madeDevice dev, .nothing)
  | .madeDevice dev => do
      let s ← dropDiskCache p s (cacheLookup s.devCaches dev) false
      return (s, .idle, .device dev)
  | .droppingDevice dev => do
      let s ← dropDiskCache p s (cacheLookup s.devCaches dev) true
      return (s, .droppedDevice dev, .nothing)
  | .droppedDevice dev => do
      Shim.call (.destroyDevice dev)
      return (s, .idle, .nothing)

/-- The hooks, as the application calls them. -/
inductive Entry where
  | createPipelines (dev : VkDevice) (cache : VkPipelineCache) (n : Nat)
  | createPipelineCache (dev : VkDevice) (initial : Bytes)
  | mergePipelineCaches (dev : VkDevice) (dst : VkPipelineCache) (srcs : List VkPipelineCache)
  | getPipelineCacheData (dev : VkDevice) (pc : VkPipelineCache) (room : Option Nat)
  | destroyPipelineCache (dev : VkDevice) (pc : VkPipelineCache)
  | createDevice
  | destroyDevice (dev : VkDevice)
  deriving DecidableEq, Repr

def Entry.phase : Entry → Phase
  | .createPipelines dev cache n => .arrived (Batch.start dev cache n)
  | .createPipelineCache dev initial => .creating dev initial
  | .mergePipelineCaches dev dst srcs => .merging dev dst srcs
  | .getPipelineCacheData dev pc room => .reading dev pc room
  | .destroyPipelineCache dev pc => .destroying dev pc
  | .createDevice => .makingDevice
  | .destroyDevice dev => .droppingDevice dev

/-- `devices` and `appCaches` are what the application has been given and has not begun to
give back. -/
structure State where
  cache : CacheState
  world : World
  threads : Nat → Phase
  devices : VkDevice → Bool
  appCaches : VkPipelineCache → Option VkDevice

inductive Action where
  | call (t : Nat) (e : Entry)
  | advance (t : Nat)
  /-- `vkGetDeviceProcAddr` of a pipeline-cache function. -/
  | resolve (fns : CacheFns)
  deriving DecidableEq, Repr

/-- A call gives up what it destroys. -/
def State.enter (s : State) (t : Nat) (e : Entry) : State :=
  let s := { s with threads := Function.update s.threads t e.phase }
  match e with
  | .destroyPipelineCache _ pc => { s with appCaches := Function.update s.appCaches pc none }
  | .destroyDevice dev =>
      { s with
        devices := Function.update s.devices dev false
        appCaches := fun pc => (s.appCaches pc).filter fun d => d ≠ dev }
  | _ => s

/-- A return brings what was created. -/
def State.receive (s : State) : Handed → State
  | .nothing => s
  | .cache dev pc => { s with appCaches := Function.update s.appCaches pc (some dev) }
  | .device dev => { s with devices := Function.update s.devices dev true }

def State.moved (s : State) (t : Nat) (cache : CacheState) (phase : Phase) (handed : Handed)
    (world : World) : State :=
  { s with
    cache := cache
    world := world
    threads := Function.update s.threads t phase }.receive handed

def State.zero : State where
  cache := CacheState.zero
  world := World.empty
  threads _ := .idle
  devices _ := false
  appCaches _ := none

/-- The functions of `fns` that the blob exports. -/
def CacheFns.among (fns exported : CacheFns) : CacheFns :=
  ⟨fns.cpc && exported.cpc, fns.mpc && exported.mpc, fns.gpcd && exported.gpcd,
    fns.dpc && exported.dpc⟩

def system (p : Process) : Machine State Action where
  init s := s = State.zero
  step s a s' :=
    match a with
    | .call t e => s.threads t = .idle ∧ s' = s.enter t e
    | .advance t =>
        ∃ cache phase handed world,
          (advance p s.cache (s.threads t)).Runs answers s.world (cache, phase, handed) world ∧
            s' = s.moved t cache phase handed world
    | .resolve fns =>
        s' = { s with cache := { s.cache with
          fns := resolveCacheFns (CacheFns.among fns p.exported) s.cache.fns } }

/-- A call `op` that thread `t` may make next, in the world `w`. -/
def State.Makes (p : Process) (s : State) (t : Nat) (w : World) (op : Call) : Prop :=
  (advance p s.cache (s.threads t)).Calls answers s.world w op

/-- The device of a call in flight. -/
def Phase.uses : Phase → Option VkDevice
  | .arrived b | .begun b | .ready b | .compiling b | .compiled b | .ended b => some b.dev
  | .creating dev _ | .created dev _ | .merging dev _ _ | .reading dev _ _
  | .destroying dev _ => some dev
  | .idle | .makingDevice | .madeDevice _ | .droppingDevice _ | .droppedDevice _ => none

/-- The app caches a call in flight was given to work with. -/
def Phase.lent : Phase → List VkPipelineCache
  | .arrived b | .begun b | .ready b | .compiling b | .compiled b | .ended b => [b.appCache]
  | .merging _ dst srcs => dst :: srcs
  | .reading _ pc _ => [pc]
  | _ => []

/-- Handles are passed to calls on their own device while they are held; a cache is
destroyed when no call works with it, a device when no call on it is in flight. -/
def Lawful (s : State) : Action → Prop
  | .call _ (.createPipelines dev cache _) =>
      s.devices dev = true ∧ (cache = 0 ∨ s.appCaches cache = some dev)
  | .call _ (.createPipelineCache dev _) => s.devices dev = true
  | .call _ (.mergePipelineCaches dev dst srcs) =>
      s.devices dev = true ∧ ∀ pc ∈ dst :: srcs, s.appCaches pc = some dev
  | .call _ (.getPipelineCacheData dev pc _) =>
      s.devices dev = true ∧ s.appCaches pc = some dev
  | .call _ (.destroyPipelineCache dev pc) =>
      s.devices dev = true ∧
        (pc = 0 ∨ s.appCaches pc = some dev ∧ ∀ t, pc ∉ (s.threads t).lent)
  | .call _ .createDevice => True
  | .call _ (.destroyDevice dev) =>
      s.devices dev = true ∧ ∀ t, (s.threads t).uses ≠ some dev
  | .advance _ => True
  | .resolve _ => True

/-- The process under an application that keeps to the rules. -/
def lawful (p : Process) : Machine State Action := (system p).guarded Lawful

/-- A batch between its begin section and its end section. -/
def Phase.inFlight : Phase → Option Batch
  | .begun b | .ready b | .compiling b | .compiled b => some b
  | _ => none

/-- The first handle nothing has, as long as there are few. -/
def freeHandle {α : Type} (taken : Nat → Option α) : Option Nat :=
  (List.range' 1 63).find? fun h => (taken h).isNone

def respond (props : PropertyStore) (w : World) : (op : Call) → Answer op × World
  | .createDevice =>
      match freeHandle w.devices with
      | some dev => (some dev, w.addDevice dev)
      | none => (none, w)
  | .destroyDevice dev => ((), w.removeDevice dev)
  | .createPipelineCache owner dev _ =>
      match freeHandle w.caches with
      | some pc => (some pc, w.addCache pc dev owner)
      | none => (none, w)
  | .destroyPipelineCache _ pc => ((), w.removeCache pc)
  | .systemPropertyGet name => (props name, w)
  | .createImage .. => (none, w)
  | .getImageMemoryRequirements .. => (default, w)
  | .allocateMemory .. => (none, w)
  | .allocateCommandBuffers .. => (none, w)
  | .beginCommandBuffer .. => (.success, w)
  | .resetCommandBuffer .. => (.success, w)
  | .resetCommandPool .. => (.success, w)
  | .mergePipelineCaches .. => (.success, w)
  | .getPipelineCacheSize .. => ((.success, 0), w)
  | .getPipelineCacheData .. => ((.success, []), w)
  | .createPipelines .. => (.success, w)
  | .malloc _ => (true, w)
  | .nowNs => (0, w)
  | .getuid => (0, w)
  | .openRead _ => (none, w)
  | .openWrite _ => (none, w)
  | .fstatSize _ => (none, w)
  | .read .. => (none, w)
  | .write .. => (none, w)
  | .close _ => (true, w)
  | .rename .. => (true, w)
  | .unlink _ => (true, w)
  | .bindImageMemory .. => ((), w)
  | .destroyImage .. => ((), w)
  | .freeMemory .. => ((), w)
  | .record .. => ((), w)
  | .freeCommandBuffers .. => ((), w)
  | .destroyCommandPool .. => ((), w)
  | .systemPropertySet .. => ((), w)

theorem freeHandle_spec {α : Type} {taken : Nat → Option α} {h : Nat}
    (found : freeHandle taken = some h) : h ≠ 0 ∧ taken h = none := by
  have member := List.mem_of_find?_eq_some found
  have free := List.find?_some found
  refine ⟨?_, by simpa using free⟩
  rw [List.mem_range'] at member
  omega

theorem respond_allowed (props : PropertyStore) (w : World) (op : Call) :
    answers w op (respond props w op).1 (respond props w op).2 := by
  cases op
  case createDevice =>
    cases found : freeHandle w.devices with
    | none => simp [respond, found, answers]
    | some dev =>
        obtain ⟨handle, fresh⟩ := freeHandle_spec found
        simp [respond, found, answers, handle, fresh]
  case createPipelineCache owner dev initial =>
    cases found : freeHandle w.caches with
    | none => simp [respond, found, answers]
    | some pc =>
        obtain ⟨handle, fresh⟩ := freeHandle_spec found
        simp [respond, found, answers, handle, fresh]
  all_goals rfl

/-- The state after one action, with those answers. -/
def State.next (p : Process) (props : PropertyStore) (s : State) : Action → State
  | .call t e => s.enter t e
  | .advance t =>
      let r := (PipelineBatches.advance p s.cache (s.threads t)).eval (respond props) s.world
      s.moved t r.1.1 r.1.2.1 r.1.2.2 r.2
  | .resolve fns =>
      { s with cache := { s.cache with
        fns := resolveCacheFns (CacheFns.among fns p.exported) s.cache.fns } }

/-- Calls that create something, in their place. -/
def State.permits (s : State) : Action → Bool
  | .call t e => s.threads t == .idle &&
      match e with
      | .createPipelines dev cache _ =>
          s.devices dev && (cache == 0 || s.appCaches cache == some dev)
      | .createPipelineCache dev _ => s.devices dev
      | .createDevice => true
      | _ => false
  | _ => true

/-- The state after some actions, if each is permitted in its place. -/
def State.after (p : Process) (props : PropertyStore) (permitted : State → Action → Bool) :
    State → List Action → Option State
  | s, [] => some s
  | s, a :: rest =>
      if permitted s a then (s.next p props a).after p props permitted rest else none

theorem after_invariant {p : Process} {props : PropertyStore} {permitted : State → Action → Bool}
    {I : State → Prop} {s s' : State} (start : I s)
    (keep : ∀ s a, I s → permitted s a = true → I (s.next p props a)) (actions : List Action)
    (ends : s.after p props permitted actions = some s') : I s' := by
  induction actions generalizing s with
  | nil =>
      obtain rfl := Option.some.inj ends
      exact start
  | cons a rest ih =>
      unfold State.after at ends
      split_ifs at ends with allowed
      exact ih (keep s a start allowed) ends

theorem next_step {p : Process} {props : PropertyStore} {s : State} {a : Action}
    (permitted : s.permits a = true) : (lawful p).step s a (s.next p props a) := by
  cases a with
  | call t e =>
      obtain ⟨idle, legal⟩ : s.threads t = .idle ∧ _ := by
        simpa [State.permits] using permitted
      refine ⟨⟨idle, rfl⟩, ?_⟩
      cases e with
      | createPipelines dev cache n => simpa [Lawful] using legal
      | createPipelineCache dev initial => simpa [Lawful] using legal
      | createDevice => trivial
      | _ => cases legal
  | advance t =>
      exact ⟨⟨_, _, _, _, Prog.runs_eval (respond_allowed props) _ _, rfl⟩, trivial⟩
  | resolve fns => exact ⟨rfl, trivial⟩

theorem after_reachable {p : Process} {props : PropertyStore} {s : State} (actions : List Action)
    (ends : State.zero.after p props State.permits actions = some s) : (lawful p).Reachable s :=
  after_invariant (.start rfl) (fun _ _ reach permitted => reach.next (next_step permitted))
    actions ends

/-- A process whose blob exports all four functions. -/
def fullProcess : Process := ⟨"app", ⟨true, true, true, true⟩, 64⟩

end XdPlus.Vulkan.PipelineBatches
