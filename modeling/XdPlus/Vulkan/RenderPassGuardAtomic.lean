/- Module: XdPlus/Vulkan/RenderPassGuardAtomic
   source: vulkan/vkshim.c, supp_set, supp_active, supp_clear and the hooks around them
   digest: The hooks taken apart into the table's atomic accesses, in any interleaving. -/

import XdPlus.Base.Machine
import XdPlus.Vulkan.RenderPassGuard

/-!
One step is one atomic access. A buffer is used by one thread at a time, so the
call in progress belongs to the buffer and not to a thread: `pc cb` is the access
the call on `cb` performs next. Threads add nothing but restrictions on which
buffers move when, and the system below lets every buffer move at any time.
-/

set_option autoImplicit false
set_option relaxedAutoImplicit false

namespace XdPlus.Vulkan.RenderPassGuardAtomic

open XdPlus.Base Common RenderPassGuard

/-- The calls that ask `supp_active` first. -/
inductive Query where
  | command (c : PassCommand)
  | endRenderPass
  deriving DecidableEq, Repr

/-- The atomic access a call is about to perform. -/
inductive Pc where
  | idle
  | setScan (i : Fin suppMax)
  | setHint
  | setCount
  | activeCount (q : Query)
  | activeHint (q : Query)
  | activeScan (q : Query) (i : Fin suppMax)
  | clearScan (i : Fin suppMax)
  | clearHint
  | clearCount
  deriving DecidableEq, Repr

/-- The table, the call in progress on each buffer, and the buffers inside a pass
from the call of its Begin to the return of its End. -/
structure State where
  table : SuppTable
  pc : VkCommandBuffer → Pc
  null : Finset VkCommandBuffer
  real : Finset VkCommandBuffer

def State.zero : State := ⟨SuppTable.zero, fun _ => .idle, ∅, ∅⟩

/-- A verdict of `supp_active` on a command, taken or passed on accordingly. -/
structure Decision where
  cb : VkCommandBuffer
  query : Query
  withheld : Bool
  deriving DecidableEq, Repr

inductive Action where
  | beginRenderPass (cb : VkCommandBuffer) (rp : RenderPassBeginInfo)
  | call (cb : VkCommandBuffer) (q : Query)
  | advance (cb : VkCommandBuffer)
  deriving DecidableEq, Repr

def State.goto (s : State) (cb : VkCommandBuffer) (p : Pc) : State :=
  { s with pc := Function.update s.pc cb p }

/-- The pass is over once its End has returned. -/
def State.close (s : State) (cb : VkCommandBuffer) : State :=
  { s with
    pc := Function.update s.pc cb .idle
    null := s.null.erase cb
    real := s.real.erase cb }

/-- `supp_active` returned: the hook withholds the command or passes it on. -/
def State.decide (s : State) (cb : VkCommandBuffer) (q : Query) (active : Bool) :
    State × Option Decision :=
  match q, active with
  | .command _, _ => (s.goto cb .idle, some ⟨cb, q, active⟩)
  | .endRenderPass, true => (s.goto cb (.clearScan 0), some ⟨cb, q, true⟩)
  | .endRenderPass, false => (s.close cb, some ⟨cb, q, false⟩)

/-- The next round of a `for (i = 0; i < SUPP_MAX; i++)` loop, if there is one. -/
def nextIndex (i : Fin suppMax) : Option (Fin suppMax) :=
  if h : i.val + 1 < suppMax then some ⟨i.val + 1, h⟩ else none

/-- One atomic access of the call in progress on `cb`. -/
def State.advance (s : State) (cb : VkCommandBuffer) : Option (State × Option Decision) :=
  match s.pc cb with
  | .idle => none
  | .setScan i =>
      if s.table.cb i = 0 then
        some ({ s with table := { s.table with cb := Function.update s.table.cb i cb } }.goto
          cb .setHint, none)
      else match nextIndex i with
        | some j => some (s.goto cb (.setScan j), none)
        | none => some (s.goto cb .idle, none)
  | .setHint => some ({ s with table := { s.table with last := cb } }.goto cb .setCount, none)
  | .setCount =>
      some ({ s with table := { s.table with n := s.table.n + 1 } }.goto cb .idle, none)
  | .activeCount q =>
      if s.table.n = 0 then some (s.decide cb q false)
      else if cb = 0 then some (s.decide cb q false)
      else some (s.goto cb (.activeHint q), none)
  | .activeHint q =>
      if s.table.last = cb then some (s.decide cb q true)
      else some (s.goto cb (.activeScan q 0), none)
  | .activeScan q i =>
      if s.table.cb i = cb then some (s.decide cb q true)
      else match nextIndex i with
        | some j => some (s.goto cb (.activeScan q j), none)
        | none => some (s.decide cb q false)
  | .clearScan i =>
      if s.table.cb i = cb then
        some ({ s with table := { s.table with cb := Function.update s.table.cb i 0 } }.goto
          cb .clearHint, none)
      else match nextIndex i with
        | some j => some (s.goto cb (.clearScan j), none)
        | none => some (s.close cb, none)
  | .clearHint =>
      some ({ s with table := { s.table with
        last := if s.table.last = cb then 0 else s.table.last } }.goto cb .clearCount, none)
  | .clearCount =>
      some ({ s with table := { s.table with n := s.table.n - 1 } }.close cb, none)

/-- Calls on a buffer start when the previous one has returned and passes are well
bracketed. The guard is on; a Begin with a framebuffer is passed on at once. -/
def State.next (s : State) : Action → Option (State × Option Decision)
  | .beginRenderPass cb rp =>
      if cb = 0 ∨ s.pc cb ≠ .idle ∨ cb ∈ s.null ∨ cb ∈ s.real then none
      else if rp.isNull then
        some ({ s with null := insert cb s.null }.goto cb (.setScan 0), none)
      else some ({ s with real := insert cb s.real }, none)
  | .call cb q =>
      if s.pc cb = .idle ∧ (cb ∈ s.null ∨ cb ∈ s.real) then
        some (s.goto cb (.activeCount q), none)
      else none
  | .advance cb => s.advance cb

/-- All interleavings, with the verdicts as labels. -/
def system : Machine State (Action × Option Decision) where
  init s := s = State.zero
  step s l t := s.next l.1 = some (t, l.2)

/-- At most `SUPP_MAX` buffers inside a null pass. -/
def Bounded (s : State) : Prop := s.null.card ≤ suppMax

instance (s : State) : Decidable (Bounded s) := inferInstanceAs (Decidable (_ ≤ _))

/-- A schedule, stopped as soon as a step is not possible or exceeds the bound. -/
def State.follow (s : State) : List Action → Option State
  | [] => some s
  | a :: rest =>
      match s.next a with
      | some (t, _) => if Bounded t then t.follow rest else none
      | none => none

/-- The buffer has its slot. -/
def Pc.slotted : Pc → Bool
  | .setScan _ | .clearHint | .clearCount => false
  | _ => true

/-- The buffer is in `supp_n`. -/
def Pc.counted : Pc → Bool
  | .setScan _ | .setHint | .setCount => false
  | _ => true

/-- The hint may name the buffer. -/
def Pc.hinted : Pc → Bool
  | .setScan _ | .setHint | .clearCount => false
  | _ => true

/-- The buffer looks for a slot and has reached `q`. -/
def Pc.seeks (q : Nat) : Pc → Bool
  | .setScan i => q ≤ i.val
  | _ => false

/-- The slots a search for the own entry has already passed. -/
def Pc.passed : Pc → Nat
  | .activeScan _ i => i.val
  | .clearScan i => i.val
  | _ => 0

end XdPlus.Vulkan.RenderPassGuardAtomic
