/- Module: XdPlus/Vulkan/RenderPassOverflow
   source: vulkan/vkshim.c, supp_set, supp_active, shim_CmdBeginRenderPass, shim_CmdEndRenderPass
   digest: Any number of buffers over all their recordings; which passes the table treats as a
     whole, abandoned entries counted. -/

import XdPlus.Vulkan.RenderPassLifecycle

set_option autoImplicit false
set_option relaxedAutoImplicit false

namespace XdPlus.Vulkan.RenderPassOverflow

open Common RenderPassGuard RenderPassLifecycle

/-- A call on some command buffer; of a call on a pool, this buffer's share. -/
structure Call where
  cb : VkCommandBuffer
  op : Op
  deriving DecidableEq, Repr

/-- Where every handle stands. -/
abbrev Phases := VkCommandBuffer → Phase

def Phases.unallocated : Phases := fun _ => .unallocated

/-- Vulkan's order of the calls on each handle; handles interleave freely. -/
def Phases.next (p : Phases) (c : Call) : Option Phases :=
  if c.cb = 0 then none else ((p c.cb).next c.op).map (Function.update p c.cb)

def Phases.run (p : Phases) (calls : List Call) : Option Phases :=
  calls.foldlM Phases.next p

/-- The hooks as in `RenderPassLifecycle.hook`, with the guard on or off. -/
def hook (guard : Bool) (s : SuppTable) (c : Call) : SuppTable × List DriverCommand :=
  match c.op with
  | .beginRenderPass rp contents => shimCmdBeginRenderPass guard s c.cb (some rp) contents
  | op => RenderPassLifecycle.hook s c.cb op

/-- For each buffer, whether the Begin of its latest pass was delivered. -/
def sentAfter (guard : Bool) (s : SuppTable) (sent : VkCommandBuffer → Bool) (c : Call) :
    VkCommandBuffer → Bool :=
  match c.op with
  | .beginRenderPass _ _ => Function.update sent c.cb (!(hook guard s c).2.isEmpty)
  | _ => sent

/-- A Begin is delivered as it is or not at all, and a command, or the end, of a
pass goes the way of its Begin. -/
def FollowsBegin (guard : Bool) (s : SuppTable) (sent : VkCommandBuffer → Bool) (c : Call) :
    Prop :=
  match c.op with
  | .beginRenderPass rp contents =>
      (hook guard s c).2 = [] ∨ (hook guard s c).2 = [.beginRenderPass c.cb (some rp) contents]
  | .command cmd => (hook guard s c).2 = if sent c.cb then [.pass c.cb cmd] else []
  | .endRenderPass => (hook guard s c).2 = if sent c.cb then [.endRenderPass c.cb] else []
  | _ => True

instance (guard : Bool) (s : SuppTable) (sent : VkCommandBuffer → Bool) (c : Call) :
    Decidable (FollowsBegin guard s sent c) := by
  unfold FollowsBegin
  split <;> infer_instance

def WholeFrom (guard : Bool) : SuppTable → (VkCommandBuffer → Bool) → List Call → Prop
  | _, _, [] => True
  | s, sent, c :: calls =>
      FollowsBegin guard s sent c ∧
        WholeFrom guard (hook guard s c).1 (sentAfter guard s sent c) calls

instance WholeFrom.decide (guard : Bool) : (s : SuppTable) → (sent : VkCommandBuffer → Bool) →
    (calls : List Call) → Decidable (WholeFrom guard s sent calls)
  | _, _, [] => .isTrue trivial
  | s, sent, c :: calls =>
      have := WholeFrom.decide guard (hook guard s c).1 (sentAfter guard s sent c) calls
      inferInstanceAs (Decidable (_ ∧ _))

/-- Every pass of the sequence reaches the driver as a whole or not at all. -/
def Whole (guard : Bool) (calls : List Call) : Prop :=
  WholeFrom guard SuppTable.zero (fun _ => false) calls

instance (guard : Bool) (calls : List Call) : Decidable (Whole guard calls) :=
  WholeFrom.decide guard _ _ calls

/-- The entries the calls have left, and the buffers whose latest pass began with
an entry where it should have none, or with none where it should have one. -/
structure Ledger where
  entries : Multiset VkCommandBuffer
  amiss : VkCommandBuffer → Bool

def Ledger.empty : Ledger := ⟨0, fun _ => false⟩

/-- A null Begin leaves an entry while there are fewer than `SUPP_MAX`, an End
takes one of its buffer's away, and nothing else touches them: a recording that
is reset, freed or begun anew leaves the entry of its open null pass behind. -/
def Ledger.next (l : Ledger) (c : Call) : Ledger :=
  match c.op with
  | .beginRenderPass rp _ =>
      if rp.isNull then
        if l.entries.card < suppMax then
          ⟨c.cb ::ₘ l.entries, Function.update l.amiss c.cb false⟩
        else { l with amiss := Function.update l.amiss c.cb (decide (c.cb ∉ l.entries)) }
      else { l with amiss := Function.update l.amiss c.cb (decide (c.cb ∈ l.entries)) }
  | .endRenderPass => { l with entries := l.entries.erase c.cb }
  | _ => l

/-- A command inside, or the end, of a pass. -/
def usesPass : Op → Bool
  | .command _ => true
  | .endRenderPass => true
  | _ => false

def CleanFrom : Ledger → List Call → Prop
  | _, [] => True
  | l, c :: calls => ¬ (usesPass c.op = true ∧ l.amiss c.cb = true) ∧ CleanFrom (l.next c) calls

instance CleanFrom.decide : (l : Ledger) → (calls : List Call) → Decidable (CleanFrom l calls)
  | _, [] => .isTrue trivial
  | l, c :: calls =>
      have := CleanFrom.decide (l.next c) calls
      inferInstanceAs (Decidable (_ ∧ _))

/-- No pass is used that was begun with a null framebuffer while the table was
full and had no entry of its buffer, or with a framebuffer while it had one. -/
def Clean (calls : List Call) : Prop := CleanFrom Ledger.empty calls

instance (calls : List Call) : Decidable (Clean calls) := CleanFrom.decide _ calls

/-- With the guard on the table holds what the ledger says, and a buffer inside a
pass has an entry exactly when its Begin was withheld, unless its pass is amiss. -/
structure Tracks (s : SuppTable) (p : Phases) (sent : VkCommandBuffer → Bool) (l : Ledger) :
    Prop where
  consistent : Consistent s
  held_eq : held s = l.entries
  inside : ∀ cb null, p cb = .recording (some null) → (cb ∈ l.entries ↔ l.amiss cb = sent cb)

section Guarded

variable {s : SuppTable} {p p' : Phases} {sent : VkCommandBuffer → Bool} {l : Ledger} {c : Call}

private theorem next_cases (valid : p.next c = some p') :
    c.cb ≠ 0 ∧ ∃ q, (p c.cb).next c.op = some q ∧ p' = Function.update p c.cb q := by
  unfold Phases.next at valid
  split_ifs at valid with null
  obtain ⟨q, step, rfl⟩ := Option.map_eq_some_iff.mp valid
  exact ⟨null, q, step, rfl⟩

private theorem inPass_of_uses {q : Phase} (uses : usesPass c.op = true)
    (step : (p c.cb).next c.op = some q) : ∃ null, p c.cb = .recording (some null) := by
  obtain ⟨cb, op⟩ := c
  cases op <;> simp only [usesPass, Bool.false_eq_true] at uses <;>
    rcases here : p cb with _ | _ | (_ | null) | _ <;>
    simp [here, Phase.next] at step ⊢

private theorem follows_of_unused {guard : Bool} (unused : usesPass c.op = false) :
    FollowsBegin guard s sent c := by
  obtain ⟨cb, op⟩ := c
  cases op with
  | beginRenderPass rp contents =>
      simp only [FollowsBegin, hook, shimCmdBeginRenderPass]
      split_ifs <;> simp
  | command => simp [usesPass] at unused
  | endRenderPass => simp [usesPass] at unused
  | _ => trivial

/-- A call that uses a pass goes the way of its Begin exactly when the pass is
not amiss. -/
private theorem Tracks.follows_iff (t : Tracks s p sent l) (valid : p.next c = some p')
    (uses : usesPass c.op = true) : FollowsBegin true s sent c ↔ l.amiss c.cb = false := by
  obtain ⟨nonzero, q, step, -⟩ := next_cases valid
  obtain ⟨null, here⟩ := inPass_of_uses uses step
  have active : suppActive s c.cb = true ↔ l.amiss c.cb = sent c.cb := by
    rw [suppActive_iff t.consistent nonzero, t.held_eq, t.inside c.cb null here]
  obtain ⟨cb, op⟩ := c
  cases amiss : l.amiss cb <;> cases begun : sent cb <;> simp only [amiss, begun] at active <;>
    cases op <;>
    simp_all [usesPass, FollowsBegin, hook, RenderPassLifecycle.hook, shimPassCommand_eq,
      shimCmdEndRenderPass]

private theorem Tracks.carries {s' : SuppTable} {sent' : VkCommandBuffer → Bool} {l' : Ledger}
    {q : Phase} (t : Tracks s p sent l) (consistent : Consistent s')
    (held_eq : held s' = l'.entries)
    (elsewhere : ∀ cb, cb ≠ c.cb → (cb ∈ l'.entries ↔ cb ∈ l.entries) ∧
      l'.amiss cb = l.amiss cb ∧ sent' cb = sent cb)
    (own : ∀ null, q = .recording (some null) →
      (c.cb ∈ l'.entries ↔ l'.amiss c.cb = sent' c.cb)) :
    Tracks s' (Function.update p c.cb q) sent' l' := by
  refine ⟨consistent, held_eq, fun cb null here => ?_⟩
  by_cases same : cb = c.cb
  · subst same
    exact own null (by simpa using here)
  · obtain ⟨entry, amiss, begun⟩ := elsewhere cb same
    rw [entry, amiss, begun]
    exact t.inside cb null (by simpa [same] using here)

private theorem Tracks.begins {rp : RenderPassBeginInfo} {contents : Nat} {q : Phase}
    (t : Tracks s p sent l) (nonzero : c.cb ≠ 0) (begins : c.op = .beginRenderPass rp contents) :
    Tracks (hook true s c).1 (Function.update p c.cb q) (sentAfter true s sent c) (l.next c) := by
  obtain ⟨cb, op⟩ := c
  obtain rfl : op = .beginRenderPass rp contents := begins
  simp only at nonzero
  cases null : rp.isNull with
  | false =>
      refine t.carries ?_ ?_ (fun b ne => ?_) (fun _ _ => ?_)
      · simpa [hook, shimCmdBeginRenderPass, null] using t.consistent
      · simpa [hook, shimCmdBeginRenderPass, Ledger.next, null] using t.held_eq
      · simp only at ne
        simp [Ledger.next, sentAfter, null, ne]
      · simp [Ledger.next, sentAfter, hook, shimCmdBeginRenderPass, null]
  | true =>
      have after := held_suppSet s nonzero
      rw [t.held_eq] at after
      refine t.carries ?_ ?_ (fun b ne => ?_) (fun _ _ => ?_)
      · simpa [hook, shimCmdBeginRenderPass, null] using consistent_suppSet t.consistent nonzero
      · simp only [hook, shimCmdBeginRenderPass, Option.any_some, Ledger.next, null,
          Bool.and_self, if_true, after]
        split_ifs <;> rfl
      · simp only at ne
        simp only [Ledger.next, null, if_true]
        split_ifs <;> simp [sentAfter, ne]
      · simp only [Ledger.next, null, if_true]
        split_ifs <;> simp [sentAfter, hook, shimCmdBeginRenderPass, null]

private theorem Tracks.ends (t : Tracks s p sent l) (nonzero : c.cb ≠ 0)
    (ends : c.op = .endRenderPass) :
    Tracks (hook true s c).1 (Function.update p c.cb (.recording none))
      (sentAfter true s sent c) (l.next c) := by
  obtain ⟨cb, op⟩ := c
  obtain rfl : op = .endRenderPass := ends
  simp only at nonzero
  refine t.carries ?_ ?_ (fun b ne => ?_) (fun _ inPass => by simp at inPass)
  · by_cases active : suppActive s cb = true
    · simpa [hook, RenderPassLifecycle.hook, shimCmdEndRenderPass, active]
        using consistent_suppClear t.consistent nonzero
    · simpa [hook, RenderPassLifecycle.hook, shimCmdEndRenderPass, active] using t.consistent
  · by_cases active : suppActive s cb = true
    · simp [hook, RenderPassLifecycle.hook, shimCmdEndRenderPass, active, Ledger.next,
        held_suppClear s nonzero, t.held_eq]
    · have absent : cb ∉ l.entries := by
        rwa [suppActive_iff t.consistent nonzero, t.held_eq] at active
      simp [hook, RenderPassLifecycle.hook, shimCmdEndRenderPass, active, Ledger.next,
        t.held_eq, Multiset.erase_of_notMem absent]
  · simp only at ne
    simp [Ledger.next, sentAfter, Multiset.mem_erase_of_ne ne]

private theorem Tracks.step (t : Tracks s p sent l) (valid : p.next c = some p') :
    Tracks (hook true s c).1 p' (sentAfter true s sent c) (l.next c) := by
  obtain ⟨nonzero, q, step, rfl⟩ := next_cases valid
  obtain ⟨cb, op⟩ := c
  cases op with
  | beginRenderPass rp contents => exact t.begins nonzero rfl
  | endRenderPass =>
      obtain ⟨null, here⟩ := inPass_of_uses rfl step
      obtain rfl : Phase.recording none = q := by simpa [here, Phase.next] using step
      exact t.ends nonzero rfl
  | command cmd =>
      obtain ⟨null, here⟩ := inPass_of_uses rfl step
      refine t.carries t.consistent t.held_eq (fun _ _ => ⟨Iff.rfl, rfl, rfl⟩) (fun _ _ => ?_)
      exact t.inside cb null here
  | _ =>
      refine t.carries t.consistent t.held_eq (fun _ _ => ⟨Iff.rfl, rfl, rfl⟩)
        (fun null inPass => ?_)
      subst inPass
      rcases here : p cb with _ | _ | (_ | _) | _ <;> simp [here, Phase.next] at step

end Guarded

private theorem run_cons {p q : Phases} {c : Call} {calls : List Call}
    (valid : p.run (c :: calls) = some q) :
    ∃ p', p.next c = some p' ∧ p'.run calls = some q := by
  simpa [Phases.run, Option.bind_eq_some_iff] using valid

private theorem guarded_whole_iff (calls : List Call) {s : SuppTable} {p q : Phases}
    {sent : VkCommandBuffer → Bool} {l : Ledger} (t : Tracks s p sent l)
    (valid : p.run calls = some q) : WholeFrom true s sent calls ↔ CleanFrom l calls := by
  induction calls generalizing s p sent l with
  | nil => simp [WholeFrom, CleanFrom]
  | cons c calls ih =>
      obtain ⟨p', step, rest⟩ := run_cons valid
      have follows : FollowsBegin true s sent c ↔
          ¬ (usesPass c.op = true ∧ l.amiss c.cb = true) := by
        cases uses : usesPass c.op with
        | true => simpa using t.follows_iff step uses
        | false => simpa using follows_of_unused uses
      rw [WholeFrom, CleanFrom, follows, ih (t.step step) rest]

private theorem delivered_step {p p' : Phases} {sent : VkCommandBuffer → Bool} {c : Call}
    (delivered : ∀ cb null, p cb = .recording (some null) → sent cb = true)
    (valid : p.next c = some p') (cb : VkCommandBuffer) (null : Bool)
    (inPass : p' cb = .recording (some null)) :
    sentAfter false SuppTable.zero sent c cb = true := by
  obtain ⟨-, q, own, rfl⟩ := next_cases valid
  obtain ⟨other, op⟩ := c
  by_cases same : cb = other
  · subst same
    obtain rfl : q = .recording (some null) := by simpa using inPass
    cases op with
    | beginRenderPass rp contents => simp [sentAfter, hook, shimCmdBeginRenderPass]
    | command cmd =>
        obtain ⟨was, here⟩ := inPass_of_uses rfl own
        exact delivered cb was here
    | _ => rcases here : p cb with _ | _ | (_ | _) | _ <;> simp [here, Phase.next] at own
  · have before := delivered cb null (by simpa [same] using inPass)
    cases op <;> simp [sentAfter, same, before]

private theorem unguarded_whole (calls : List Call) {p q : Phases}
    {sent : VkCommandBuffer → Bool}
    (delivered : ∀ cb null, p cb = .recording (some null) → sent cb = true)
    (valid : p.run calls = some q) : WholeFrom false SuppTable.zero sent calls := by
  induction calls generalizing p sent with
  | nil => trivial
  | cons c calls ih =>
      obtain ⟨p', step, rest⟩ := run_cons valid
      obtain ⟨-, q', own, -⟩ := next_cases step
      have untouched : (hook false SuppTable.zero c).1 = SuppTable.zero := by
        obtain ⟨cb, op⟩ := c
        cases op <;>
          simp [hook, RenderPassLifecycle.hook, shimCmdBeginRenderPass, shimCmdEndRenderPass,
            suppActive, SuppTable.zero]
      rw [WholeFrom, untouched]
      refine ⟨?_, ih (delivered_step delivered step) rest⟩
      obtain ⟨cb, op⟩ := c
      cases op with
      | command cmd =>
          obtain ⟨null, here⟩ := inPass_of_uses rfl own
          simp [FollowsBegin, hook, RenderPassLifecycle.hook, shimPassCommand_eq, suppActive,
            SuppTable.zero, delivered cb null here]
      | endRenderPass =>
          obtain ⟨null, here⟩ := inPass_of_uses rfl own
          simp [FollowsBegin, hook, RenderPassLifecycle.hook, shimCmdEndRenderPass, suppActive,
            SuppTable.zero, delivered cb null here]
      | _ => exact follows_of_unused rfl

/-- Every pass is treated as a whole exactly when the guard is off or every pass
that is used began with the entry it should have. -/
theorem whole_iff_clean (guard : Bool) (calls : List Call) (p : Phases)
    (valid : Phases.unallocated.run calls = some p) :
    Whole guard calls ↔ guard = false ∨ Clean calls := by
  cases guard with
  | false => simpa [Whole] using
      unguarded_whole calls (fun _ _ inPass => by simp [Phases.unallocated] at inPass) valid
  | true =>
      have tracks : Tracks SuppTable.zero Phases.unallocated (fun _ => false) Ledger.empty := by
        refine ⟨consistent_zero, by simp [held_zero, Ledger.empty], fun _ _ inPass => ?_⟩
        simp [Phases.unallocated] at inPass
      simpa [Whole, Clean] using guarded_whole_iff calls tracks valid

/-- A new recording on a fresh buffer, up to the Begin of a null pass. -/
def opens (cb : VkCommandBuffer) : List Call :=
  [⟨cb, .allocateCommandBuffers⟩, ⟨cb, .beginCommandBuffer⟩,
    ⟨cb, .beginRenderPass ⟨1, 0⟩ 0⟩]

/-- A draw and the end of the open pass. -/
def finishes (cb : VkCommandBuffer) : List Call :=
  [⟨cb, .command (.draw 3 1 0 0)⟩, ⟨cb, .endRenderPass⟩]

/-- Buffers `1 .. n` in a null pass at the same time. -/
def simultaneous (n : Nat) : List Call :=
  (List.range n).flatMap (fun i => opens (i + 1)) ++
    (List.range n).flatMap fun i => finishes (i + 1)

/-- Buffers `1 .. n` one after the other, each reset inside its null pass; then
one more that ends its own. -/
def abandoned (n : Nat) : List Call :=
  (List.range n).flatMap (fun i => opens (i + 1) ++ [⟨i + 1, .resetCommandBuffer⟩]) ++
    opens (n + 1) ++ finishes (n + 1)

/-- A full table, of which one entry is stale: its buffer begins again and ends a
null pass, which makes room for another buffer's. -/
def reused : List Call :=
  (List.range 16).flatMap (fun i => opens (i + 1)) ++
    [⟨1, .resetCommandBuffer⟩, ⟨1, .beginCommandBuffer⟩, ⟨1, .beginRenderPass ⟨1, 0⟩ 0⟩] ++
    finishes 1 ++ [⟨1, .beginRenderPass ⟨1, 9⟩ 0⟩] ++ finishes 1 ++ opens 17 ++ finishes 17 ++
    [⟨2, .command (.draw 3 1 0 0)⟩, ⟨2, .endRenderPass⟩]

theorem whole_reused : Whole true reused := by
  have valid : (Phases.unallocated.run reused).isSome := by decide +kernel
  obtain ⟨p, ends⟩ := Option.isSome_iff_exists.mp valid
  exact (whole_iff_clean true reused p ends).mpr (.inr (by decide +kernel))

theorem whole_fails_seventeen :
    ((Phases.unallocated.run (simultaneous 17)).isSome = true ∧ ¬ Whole true (simultaneous 17)) ∧
      (Phases.unallocated.run (abandoned 16)).isSome = true ∧ ¬ Whole true (abandoned 16) := by
  decide +kernel

end XdPlus.Vulkan.RenderPassOverflow
