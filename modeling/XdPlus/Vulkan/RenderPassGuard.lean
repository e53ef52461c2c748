/- Module: XdPlus/Vulkan/RenderPassGuard
   source: vulkan/vkshim.c, supp_set .. shim_CmdClearAttachments
   digest: The suppression table as a bounded multiset of buffers, and the hooks on it. -/

import Mathlib.Data.Multiset.AddSub
import XdPlus.Base.SlotTable
import XdPlus.Vulkan.Common

/-!
The hooks are modelled here as the calls they are when nothing else runs between
their atomic accesses. `RenderPassGuardAtomic` takes the accesses apart.

`held` forgets which slot an entry sits in. Seen through it `supp_set` adds one
entry while there is room, `supp_clear` removes one, and `supp_active` asks for
membership; neither the counter nor the hint shows.
-/

set_option autoImplicit false
set_option relaxedAutoImplicit false

namespace XdPlus.Vulkan.RenderPassGuard

open XdPlus.Base Common

/-- `SUPP_MAX`. -/
abbrev suppMax : Nat := 16

/-- `supp_cb`, `supp_last` and `supp_n`. -/
structure SuppTable where
  cb : Fin suppMax → VkCommandBuffer
  last : VkCommandBuffer
  n : Int

/-- Static storage before the first call. -/
def SuppTable.zero : SuppTable := ⟨fun _ => 0, 0, 0⟩

def suppSet (s : SuppTable) (cb : VkCommandBuffer) : SuppTable :=
  match firstIndex (fun i => s.cb i == 0) with
  | some i => { cb := Function.update s.cb i cb, last := cb, n := s.n + 1 }
  | none => s

def suppActive (s : SuppTable) (cb : VkCommandBuffer) : Bool :=
  if s.n = 0 then false
  else if cb = 0 then false
  else if s.last = cb then true
  else (firstIndex (fun i => s.cb i == cb)).isSome

def suppClear (s : SuppTable) (cb : VkCommandBuffer) : SuppTable :=
  match firstIndex (fun i => s.cb i == cb) with
  | some i =>
      { cb := Function.update s.cb i 0
        last := if s.last = cb then 0 else s.last
        n := s.n - 1 }
  | none => s

/-- `VkRenderPassBeginInfo`, the two handles the guard and its log line read. -/
structure RenderPassBeginInfo where
  renderPass : Nat
  framebuffer : Nat
  deriving DecidableEq, Repr

def RenderPassBeginInfo.isNull (rp : RenderPassBeginInfo) : Bool := rp.framebuffer == 0

/-- The commands the guard hooks inside a pass, with their arguments. -/
inductive PassCommand where
  | nextSubpass (contents : Nat)
  | draw (vc ic fv fi : Nat)
  | drawIndexed (ic inst fi : Nat) (vo : Int) (firstInst : Nat)
  | drawIndirect (buf off count stride : Nat)
  | drawIndexedIndirect (buf off count stride : Nat)
  | clearAttachments (ac : Nat) (at_ : Nat) (rc : Nat) (rects : Nat)
  deriving DecidableEq, Repr

/-- Render-pass commands as the driver receives them, each on its buffer. -/
inductive DriverCommand where
  | beginRenderPass (cb : VkCommandBuffer) (rp : Option RenderPassBeginInfo) (contents : Nat)
  | pass (cb : VkCommandBuffer) (c : PassCommand)
  | endRenderPass (cb : VkCommandBuffer)
  deriving DecidableEq, Repr

/-- `guard` is `prop_on("debug.xdplus.vkrpguard", &rp_guard)`, read once per process. -/
def shimCmdBeginRenderPass (guard : Bool) (s : SuppTable) (cb : VkCommandBuffer)
    (rp : Option RenderPassBeginInfo) (contents : Nat) : SuppTable × List DriverCommand :=
  if rp.any RenderPassBeginInfo.isNull && guard then (suppSet s cb, [])
  else (s, [.beginRenderPass cb rp contents])

def shimCmdEndRenderPass (s : SuppTable) (cb : VkCommandBuffer) :
    SuppTable × List DriverCommand :=
  if suppActive s cb then (suppClear s cb, []) else (s, [.endRenderPass cb])

/-- The six hooks below differ only in the command they pass on. -/
def forwardUnlessSuppressed (s : SuppTable) (cb : VkCommandBuffer) (c : PassCommand) :
    List DriverCommand :=
  if suppActive s cb then [] else [.pass cb c]

def shimCmdNextSubpass (s : SuppTable) (cb : VkCommandBuffer) (contents : Nat) :
    List DriverCommand :=
  forwardUnlessSuppressed s cb (.nextSubpass contents)

def shimCmdDraw (s : SuppTable) (cb : VkCommandBuffer) (vc ic fv fi : Nat) :
    List DriverCommand :=
  forwardUnlessSuppressed s cb (.draw vc ic fv fi)

def shimCmdDrawIndexed (s : SuppTable) (cb : VkCommandBuffer) (ic inst fi : Nat) (vo : Int)
    (firstInst : Nat) : List DriverCommand :=
  forwardUnlessSuppressed s cb (.drawIndexed ic inst fi vo firstInst)

def shimCmdDrawIndirect (s : SuppTable) (cb : VkCommandBuffer) (buf off count stride : Nat) :
    List DriverCommand :=
  forwardUnlessSuppressed s cb (.drawIndirect buf off count stride)

def shimCmdDrawIndexedIndirect (s : SuppTable) (cb : VkCommandBuffer)
    (buf off count stride : Nat) : List DriverCommand :=
  forwardUnlessSuppressed s cb (.drawIndexedIndirect buf off count stride)

def shimCmdClearAttachments (s : SuppTable) (cb : VkCommandBuffer) (ac at_ rc rects : Nat) :
    List DriverCommand :=
  forwardUnlessSuppressed s cb (.clearAttachments ac at_ rc rects)

/-- The hook the loader's dispatch table routes a pass command to. -/
def shimPassCommand (s : SuppTable) (cb : VkCommandBuffer) : PassCommand → List DriverCommand
  | .nextSubpass contents => shimCmdNextSubpass s cb contents
  | .draw vc ic fv fi => shimCmdDraw s cb vc ic fv fi
  | .drawIndexed ic inst fi vo firstInst => shimCmdDrawIndexed s cb ic inst fi vo firstInst
  | .drawIndirect buf off count stride => shimCmdDrawIndirect s cb buf off count stride
  | .drawIndexedIndirect buf off count stride =>
      shimCmdDrawIndexedIndirect s cb buf off count stride
  | .clearAttachments ac at_ rc rects => shimCmdClearAttachments s cb ac at_ rc rects

theorem shimPassCommand_eq (s : SuppTable) (cb : VkCommandBuffer) (c : PassCommand) :
    shimPassCommand s cb c = if suppActive s cb then [] else [.pass cb c] := by
  cases c <;> rfl

/-- The buffers with an entry, one copy for each slot they fill. -/
def held (s : SuppTable) : Multiset VkCommandBuffer :=
  (contents s.cb).filter (· ≠ 0)

/-- The counter counts the filled slots and the hint names one of them. -/
structure Consistent (s : SuppTable) : Prop where
  count : s.n = (held s).card
  hint : s.last ≠ 0 → s.last ∈ held s

theorem held_zero : held SuppTable.zero = 0 := by
  simp [held, SuppTable.zero, contents]

theorem consistent_zero : Consistent SuppTable.zero := by
  constructor
  · simp [held_zero]
    rfl
  · simp [SuppTable.zero]

private theorem mem_held {s : SuppTable} {cb : VkCommandBuffer} (hcb : cb ≠ 0) :
    cb ∈ held s ↔ ∃ i, s.cb i = cb := by
  simp [held, mem_contents, hcb]

private theorem held_fill {s : SuppTable} {i : Fin suppMax} {cb : VkCommandBuffer}
    (free : s.cb i = 0) (hcb : cb ≠ 0) :
    (contents (Function.update s.cb i cb)).filter (· ≠ 0) = cb ::ₘ held s := by
  have trade := congrArg (Multiset.filter (· ≠ 0)) (contents_update s.cb i cb)
  rw [free] at trade
  simpa [held, hcb] using trade

private theorem held_vacate {s : SuppTable} {i : Fin suppMax} {cb : VkCommandBuffer}
    (own : s.cb i = cb) (hcb : cb ≠ 0) :
    cb ::ₘ (contents (Function.update s.cb i 0)).filter (· ≠ 0) = held s := by
  have trade := congrArg (Multiset.filter (· ≠ 0)) (contents_update s.cb i 0)
  rw [own] at trade
  simpa [held, hcb] using trade

private theorem free_slot_iff (s : SuppTable) :
    (∃ i, s.cb i = 0) ↔ (held s).card < suppMax := by
  have total := congrArg Multiset.card
    (Multiset.filter_add_not (fun c => c ≠ 0) (contents s.cb))
  have zeros : 0 < ((contents s.cb).filter (fun c => ¬ c ≠ 0)).card ↔ ∃ i, s.cb i = 0 := by
    rw [Multiset.card_pos_iff_exists_mem]
    simp [mem_contents]
  rw [Multiset.card_add, card_contents] at total
  rw [← zeros]
  unfold held
  omega

theorem held_suppSet (s : SuppTable) {cb : VkCommandBuffer} (hcb : cb ≠ 0) :
    held (suppSet s cb) = if (held s).card < suppMax then cb ::ₘ held s else held s := by
  unfold suppSet
  cases found : firstIndex (fun i => s.cb i == 0) with
  | some i =>
      have free : s.cb i = 0 := by simpa using firstIndex_holds found
      rw [if_pos ((free_slot_iff s).mp ⟨i, free⟩)]
      exact held_fill free hcb
  | none =>
      have full : ¬ ∃ i, s.cb i = 0 := by simpa using firstIndex_eq_none.mp found
      rw [if_neg (fun room => full ((free_slot_iff s).mpr room))]

theorem held_suppClear (s : SuppTable) {cb : VkCommandBuffer} (hcb : cb ≠ 0) :
    held (suppClear s cb) = (held s).erase cb := by
  unfold suppClear
  cases found : firstIndex (fun i => s.cb i == cb) with
  | some i =>
      have own : s.cb i = cb := by simpa using firstIndex_holds found
      rw [← held_vacate own hcb, Multiset.erase_cons_head]
      rfl
  | none =>
      have absent : cb ∉ held s := by
        rw [mem_held hcb]
        simpa using firstIndex_eq_none.mp found
      rw [Multiset.erase_of_notMem absent]

theorem suppActive_iff {s : SuppTable} (ok : Consistent s) {cb : VkCommandBuffer}
    (hcb : cb ≠ 0) : suppActive s cb = true ↔ cb ∈ held s := by
  unfold suppActive
  split_ifs with empty hint
  · have none_held : held s = 0 := by
      rw [← Multiset.card_eq_zero]
      have := ok.count
      omega
    simp [none_held]
  · subst hint
    simp [ok.hint hcb]
  · rw [mem_held hcb]
    constructor
    · intro found
      obtain ⟨i, hi⟩ := Option.isSome_iff_exists.mp found
      exact ⟨i, by simpa using firstIndex_holds hi⟩
    · rintro ⟨i, hi⟩
      obtain ⟨j, hj⟩ := firstIndex_isSome (p := fun i => s.cb i == cb) (i := i) (by simp [hi])
      simp [hj]

theorem consistent_suppSet {s : SuppTable} (ok : Consistent s) {cb : VkCommandBuffer}
    (hcb : cb ≠ 0) : Consistent (suppSet s cb) := by
  have after := held_suppSet s hcb
  unfold suppSet at after ⊢
  cases found : firstIndex (fun i => s.cb i == 0) with
  | none => exact ok
  | some i =>
      have free : s.cb i = 0 := by simpa using firstIndex_holds found
      rw [found, if_pos ((free_slot_iff s).mp ⟨i, free⟩)] at after
      constructor
      · rw [after]
        simp [ok.count]
      · intro _
        rw [after]
        exact Multiset.mem_cons_self _ _

theorem consistent_suppClear {s : SuppTable} (ok : Consistent s) {cb : VkCommandBuffer}
    (hcb : cb ≠ 0) : Consistent (suppClear s cb) := by
  have after := held_suppClear s hcb
  unfold suppClear at after ⊢
  cases found : firstIndex (fun i => s.cb i == cb) with
  | none => exact ok
  | some i =>
      have own : cb ∈ held s := (mem_held hcb).mpr ⟨i, by simpa using firstIndex_holds found⟩
      rw [found] at after
      constructor
      · rw [after, Multiset.card_erase_of_mem own]
        have positive := Multiset.card_pos_iff_exists_mem.mpr ⟨cb, own⟩
        have := ok.count
        simp only [Nat.pred_eq_sub_one]
        omega
      · intro hint
        rw [after]
        by_cases same : s.last = cb
        · simp [same] at hint
        · simp only [same, if_false] at hint ⊢
          exact (Multiset.mem_erase_of_ne same).mpr (ok.hint hint)

end XdPlus.Vulkan.RenderPassGuard
