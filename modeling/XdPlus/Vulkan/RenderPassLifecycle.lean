/- Module: XdPlus/Vulkan/RenderPassLifecycle
   source: vulkan/vkshim.c, suppressed-pass hooks and command-buffer lifetime hooks
   digest: One buffer handle over all its recordings; an abandoned null pass outlives its
     recording. -/

import XdPlus.Vulkan.RenderPassGuard

set_option autoImplicit false
set_option relaxedAutoImplicit false

namespace XdPlus.Vulkan.RenderPassLifecycle

open Common RenderPassGuard

/-- What an application may do with one command-buffer handle. Allocation after
a free is the driver handing the same handle out again. -/
inductive Op where
  | allocateCommandBuffers
  | beginCommandBuffer
  | beginRenderPass (rp : RenderPassBeginInfo) (contents : Nat)
  | command (c : PassCommand)
  | endRenderPass
  | endCommandBuffer
  | resetCommandBuffer
  | resetCommandPool
  | freeCommandBuffers
  | destroyCommandPool
  deriving DecidableEq, Repr

/-- The states of a Vulkan command buffer; `recording` carries the open pass, if
any, as "was its framebuffer null". -/
inductive Phase where
  | unallocated
  | initial
  | recording (pass : Option Bool)
  | executable
  deriving DecidableEq, Repr

/-- Vulkan's rules for the order of the calls. Reset and free are allowed while
recording, inside a pass too; `vkEndCommandBuffer` is not allowed inside one. -/
def Phase.next : Phase → Op → Option Phase
  | .unallocated, .allocateCommandBuffers => some .initial
  | .initial, .beginCommandBuffer => some (.recording none)
  | .executable, .beginCommandBuffer => some (.recording none)
  | .recording none, .beginRenderPass rp _ => some (.recording (some rp.isNull))
  | .recording (some null), .command _ => some (.recording (some null))
  | .recording (some _), .endRenderPass => some (.recording none)
  | .recording none, .endCommandBuffer => some .executable
  | .unallocated, _ => none
  | _, .resetCommandBuffer => some .initial
  | _, .resetCommandPool => some .initial
  | _, .freeCommandBuffers => some .unallocated
  | _, .destroyCommandPool => some .unallocated
  | _, _ => none

def Phase.run (p : Phase) (ops : List Op) : Option Phase :=
  ops.foldlM Phase.next p

/-- The hooks' effect on the suppression table and the render-pass commands they
pass on. `shim_BeginCommandBuffer`, `shim_ResetCommandBuffer`,
`shim_ResetCommandPool`, `shim_FreeCommandBuffers`, `shim_DestroyCommandPool` and
`shim_AllocateCommandBuffers` touch `cb_table` only, and `vkEndCommandBuffer` is
not hooked. -/
def hook (s : SuppTable) (cb : VkCommandBuffer) : Op → SuppTable × List DriverCommand
  | .beginRenderPass rp contents => shimCmdBeginRenderPass true s cb (some rp) contents
  | .command c => (s, shimPassCommand s cb c)
  | .endRenderPass => shimCmdEndRenderPass s cb
  | .allocateCommandBuffers => (s, [])
  | .beginCommandBuffer => (s, [])
  | .endCommandBuffer => (s, [])
  | .resetCommandBuffer => (s, [])
  | .resetCommandPool => (s, [])
  | .freeCommandBuffers => (s, [])
  | .destroyCommandPool => (s, [])

/-- What reaches the driver, call by call. -/
def forwarded (cb : VkCommandBuffer) : SuppTable → List Op → List (List DriverCommand)
  | _, [] => []
  | s, op :: ops => (hook s cb op).2 :: forwarded cb (hook s cb op).1 ops

/-- What each call should send: everything of a pass with a framebuffer, nothing
of a pass without one, whatever happened in earlier recordings. -/
def intendedCall (cb : VkCommandBuffer) : Phase → Op → List DriverCommand
  | _, .beginRenderPass rp contents =>
      if rp.isNull then [] else [.beginRenderPass cb (some rp) contents]
  | .recording (some null), .command c => if null then [] else [.pass cb c]
  | .recording (some null), .endRenderPass => if null then [] else [.endRenderPass cb]
  | _, _ => []

def intended (cb : VkCommandBuffer) : Phase → List Op → List (List DriverCommand)
  | _, [] => []
  | p, op :: ops => intendedCall cb p op :: intended cb ((p.next op).getD p) ops

/-- Every recording of the handle is judged on its own. -/
def LifecycleLaw (cb : VkCommandBuffer) (ops : List Op) : Prop :=
  forwarded cb SuppTable.zero ops = intended cb .unallocated ops

instance (cb : VkCommandBuffer) (ops : List Op) : Decidable (LifecycleLaw cb ops) :=
  inferInstanceAs (Decidable (_ = _))

/-- A recording is dropped with its null pass still open. -/
def abandons : Phase → Op → Bool
  | .recording (some true), .resetCommandBuffer => true
  | .recording (some true), .resetCommandPool => true
  | .recording (some true), .freeCommandBuffers => true
  | .recording (some true), .destroyCommandPool => true
  | _, _ => false

/-- A command inside, or the end of, a pass with a framebuffer. -/
def usesRealPass : Phase → Op → Bool
  | .recording (some false), .command _ => true
  | .recording (some false), .endRenderPass => true
  | _, _ => false

/-- No pass with a framebuffer is used once a null pass was abandoned. -/
def CleanFrom : Phase → Bool → List Op → Prop
  | _, _, [] => True
  | p, abandoned, op :: ops =>
      ¬ (abandoned = true ∧ usesRealPass p op = true) ∧
        CleanFrom ((p.next op).getD p) (abandoned || abandons p op) ops

def Clean (ops : List Op) : Prop := CleanFrom .unallocated false ops

/-- The table while only this handle is in use: `k` entries, all its own. -/
structure Owned (cb : VkCommandBuffer) (s : SuppTable) (k : Nat) : Prop where
  consistent : Consistent s
  held_eq : held s = Multiset.replicate k cb

/-- The entries a phase accounts for: one for an open null pass, and some more
exactly when a null pass was abandoned earlier. -/
def Accounts : Phase → Bool → Nat → Prop
  | .recording (some true), abandoned, k => 0 < k ∧ (abandoned = true ↔ 1 < k)
  | _, abandoned, k => abandoned = true ↔ 0 < k

section OneHandle

variable {cb : VkCommandBuffer} (hcb : cb ≠ 0)

include hcb in
private theorem owned_active {s : SuppTable} {k : Nat} (own : Owned cb s k) :
    suppActive s cb = decide (0 < k) := by
  rw [Bool.eq_iff_iff, suppActive_iff own.consistent hcb, own.held_eq,
    Multiset.mem_replicate]
  simp [Nat.pos_iff_ne_zero]

include hcb in
private theorem owned_set {s : SuppTable} {k : Nat} (own : Owned cb s k) :
    Owned cb (suppSet s cb) (if k < suppMax then k + 1 else k) := by
  refine ⟨consistent_suppSet own.consistent hcb, ?_⟩
  rw [held_suppSet s hcb, own.held_eq, Multiset.card_replicate]
  split_ifs
  · exact (Multiset.replicate_succ cb k).symm
  · rfl

include hcb in
private theorem owned_clear {s : SuppTable} {k : Nat} (own : Owned cb s (k + 1)) :
    Owned cb (suppClear s cb) k := by
  refine ⟨consistent_suppClear own.consistent hcb, ?_⟩
  rw [held_suppClear s hcb, own.held_eq, Multiset.replicate_succ, Multiset.erase_cons_head]

include hcb in
private theorem hook_intended {s : SuppTable} {p p' : Phase} {abandoned : Bool} {k : Nat}
    {op : Op} (own : Owned cb s k) (acc : Accounts p abandoned k)
    (valid : p.next op = some p') (clean : ¬ (abandoned = true ∧ usesRealPass p op = true)) :
    (hook s cb op).2 = intendedCall cb p op ∧
      ∃ k', Owned cb (hook s cb op).1 k' ∧ Accounts p' (abandoned || abandons p op) k' := by
  have active := owned_active hcb own
  cases op with
  | beginRenderPass rp contents =>
      obtain rfl : p = .recording none := by
        rcases p with _ | _ | (_ | _) | _ <;> simp [Phase.next] at valid ⊢
      obtain rfl : Phase.recording (some rp.isNull) = p' := by simpa [Phase.next] using valid
      cases null : rp.isNull with
      | false =>
          refine ⟨by simp [hook, shimCmdBeginRenderPass, intendedCall, null], k, ?_, ?_⟩
          · simpa [hook, shimCmdBeginRenderPass, null] using own
          · simpa [Accounts, abandons] using acc
      | true =>
          refine ⟨by simp [hook, shimCmdBeginRenderPass, intendedCall, null],
            if k < suppMax then k + 1 else k, ?_, ?_⟩
          · simpa [hook, shimCmdBeginRenderPass, null] using owned_set hcb own
          · simp only [Accounts, abandons, Bool.or_false] at acc ⊢
            rw [acc]
            split_ifs with room
            · exact ⟨by omega, by omega⟩
            · have size : suppMax = 16 := rfl
              exact ⟨by omega, by omega⟩
  | command c =>
      rcases p with _ | _ | (_ | null) | _ <;> simp only [Phase.next, reduceCtorEq] at valid
      obtain rfl := Option.some.inj valid
      have sends : (hook s cb (.command c)).2 =
          intendedCall cb (.recording (some null)) (.command c) := by
        cases null
        · have idle : ¬ 0 < k := fun stale => clean ⟨acc.mpr stale, rfl⟩
          simp [hook, shimPassCommand_eq, intendedCall, active, idle]
        · simp [hook, shimPassCommand_eq, intendedCall, active, acc.1]
      exact ⟨sends, k, own, by simpa [abandons] using acc⟩
  | endRenderPass =>
      rcases p with _ | _ | (_ | null) | _ <;> simp only [Phase.next, reduceCtorEq] at valid
      obtain rfl := Option.some.inj valid
      cases null with
      | false =>
          have idle : ¬ 0 < k := fun stale => clean ⟨acc.mpr stale, rfl⟩
          refine ⟨by simp [hook, shimCmdEndRenderPass, intendedCall, active, idle], k, ?_, ?_⟩
          · simpa [hook, shimCmdEndRenderPass, active, idle] using own
          · simpa [Accounts, abandons] using acc
      | true =>
          obtain ⟨k, rfl⟩ : ∃ j, k = j + 1 := ⟨k - 1, by have := acc.1; omega⟩
          refine ⟨by simp [hook, shimCmdEndRenderPass, intendedCall, active], k, ?_, ?_⟩
          · simpa [hook, shimCmdEndRenderPass, active] using owned_clear hcb own
          · simp only [Accounts, abandons, Bool.or_false] at acc ⊢
            rw [acc.2]
            omega
  | _ =>
      refine ⟨by rcases p with _ | _ | (_ | _) | _ <;> rfl, k, own, ?_⟩
      rcases p with _ | _ | (_ | (_ | _)) | _ <;>
        simp only [Phase.next, reduceCtorEq, Option.some.injEq] at valid <;>
        subst valid <;> simp [Accounts, abandons] at acc ⊢ <;> first | exact acc | exact acc.1

include hcb in
/-- One call outside the condition: the stale entry swallows it. -/
private theorem hook_swallows {s : SuppTable} {p : Phase} {k : Nat} {op : Op}
    (own : Owned cb s k) (acc : Accounts p true k) (uses : usesRealPass p op = true) :
    (hook s cb op).2 ≠ intendedCall cb p op := by
  have active := owned_active hcb own
  rcases p with _ | _ | (_ | (_ | _)) | _ <;> cases op <;> simp [usesRealPass] at uses
  all_goals
    have stale : 0 < k := acc.mp rfl
    simp [hook, shimPassCommand_eq, shimCmdEndRenderPass, intendedCall, active, stale]

include hcb in
private theorem forwarded_iff_clean (ops : List Op) {s : SuppTable} {p q : Phase}
    {abandoned : Bool} {k : Nat} (own : Owned cb s k) (acc : Accounts p abandoned k)
    (valid : p.run ops = some q) :
    forwarded cb s ops = intended cb p ops ↔ CleanFrom p abandoned ops := by
  induction ops generalizing s p abandoned k with
  | nil => simp [forwarded, intended, CleanFrom]
  | cons op ops ih =>
      obtain ⟨p', step, rest⟩ : ∃ p', p.next op = some p' ∧ p'.run ops = some q := by
        simpa [Phase.run, Option.bind_eq_some_iff] using valid
      simp only [forwarded, intended, CleanFrom, step, Option.getD_some, List.cons.injEq]
      by_cases bad : abandoned = true ∧ usesRealPass p op = true
      · obtain ⟨rfl, uses⟩ := bad
        simp [hook_swallows hcb own acc uses, uses]
      · obtain ⟨sends, k', own', acc'⟩ := hook_intended hcb own acc step bad
        rw [ih own' acc' rest]
        simp [sends, bad]

end OneHandle

/-- Over the whole life of a handle the guard judges every recording on its own
exactly when no pass with a framebuffer is used after a recording was reset,
freed or destroyed inside a null pass. -/
theorem lifecycle_law_iff (cb : VkCommandBuffer) (hcb : cb ≠ 0) (ops : List Op) (q : Phase)
    (valid : Phase.run .unallocated ops = some q) :
    LifecycleLaw cb ops ↔ Clean ops := by
  apply forwarded_iff_clean hcb ops (k := 0) ⟨consistent_zero, by simp [held_zero]⟩ _ valid
  simp [Accounts]

/-- A null pass, a reset inside it, and a pass with a framebuffer in the next
recording of the same buffer. -/
def abandonedThenReal : List Op :=
  [.allocateCommandBuffers, .beginCommandBuffer, .beginRenderPass ⟨1, 0⟩ 0,
    .resetCommandBuffer, .beginCommandBuffer, .beginRenderPass ⟨1, 9⟩ 0,
    .command (.draw 3 1 0 0), .endRenderPass, .endCommandBuffer]

/-- Two recordings that end their null pass, with a real pass after each. -/
def nullThenReal : List Op :=
  [.allocateCommandBuffers, .beginCommandBuffer, .beginRenderPass ⟨1, 0⟩ 0,
    .command (.draw 3 1 0 0), .endRenderPass, .beginRenderPass ⟨1, 9⟩ 0,
    .command (.draw 3 1 0 0), .endRenderPass, .endCommandBuffer, .freeCommandBuffers,
    .allocateCommandBuffers, .beginCommandBuffer, .beginRenderPass ⟨1, 9⟩ 0,
    .command (.draw 6 1 0 0), .resetCommandPool]

theorem lifecycle_law_nullThenReal : LifecycleLaw 7 nullThenReal := by
  apply (lifecycle_law_iff 7 (by decide) nullThenReal .initial (by decide)).mpr
  simp [Clean, nullThenReal, CleanFrom, usesRealPass, abandons, Phase.next,
    RenderPassBeginInfo.isNull]

theorem lifecycle_law_fails :
    Phase.run .unallocated abandonedThenReal = some .executable ∧
      ¬ LifecycleLaw 7 abandonedThenReal := by
  decide

end XdPlus.Vulkan.RenderPassLifecycle
