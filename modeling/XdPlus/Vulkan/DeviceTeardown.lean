/- Module: XdPlus/Vulkan/DeviceTeardown
   source: vulkan/vkshim.c, shim_DestroyDevice, and the hooks whose tables it clears
   digest: What the end of one device does to the others. -/

import XdPlus.Vulkan.CommandBufferLifecycle
import XdPlus.Vulkan.PipelineBatchSafety

set_option autoImplicit false
set_option relaxedAutoImplicit false

namespace XdPlus.Vulkan.DeviceTeardown

open XdPlus.Base Common Driver PipelineCache CommandBufferTable ImageTable ScratchLedger
open PipelineLedger (slotOf Keyed OnlySlot Quiet OnCaches always_dropDiskCache onlySlot_zero)
open CommandBufferLedger (Buffers Allocation ensures_forgetSlots)
open PipelineBatches (lawful)

/-- The tables it goes through. -/
structure Statics where
  cache : CacheState
  table : CbTable
  imgs : ImgTable

/-- The body of the loop over `cb_table`. -/
def dropSlot (dev : VkDevice) (slot : CbScratch) : Shim CbScratch := do
  freePairs dev slot.pairs
  return { slot with dev := 0, cb := 0, pool := 0, pairs := [], cap := 0 }

/-- The section under `scratch_mu`. -/
def dropScratch (t : CbTable) (dev : VkDevice) : Shim CbTable :=
  atSlots (fun slot => slot.cb != 0) (dropSlot dev) (List.finRange cbTableMax) t

/-- The section under `img_mu`. -/
def forgetImages (t : ImgTable) : ImgTable := fun i => { t i with used := false }

def shimDestroyDevice (p : Process) (s : Statics) (dev : VkDevice) : Shim Statics := do
  let cache ← dropDiskCache p s.cache (cacheLookup s.cache.devCaches dev) true
  let table ← dropScratch s.table dev
  Shim.call (.destroyDevice dev)
  return ⟨cache, table, forgetImages s.imgs⟩

structure State where
  pipeline : PipelineBatches.State
  commands : CommandBufferLifecycle.State
  imgs : ImgTable

def State.statics (s : State) : Statics := ⟨s.pipeline.cache, s.commands.table, s.imgs⟩

def State.world (s : State) : PipelineBatches.World × World :=
  (s.pipeline.world, s.commands.world)

/-- One driver, with its pipeline caches and its images. -/
abbrev driver (reliable : Bool) :
    Prog.Environment Call Answer (PipelineBatches.World × World) :=
  Prog.Environment.prod PipelineBatches.answers (answers reliable 0)

inductive Action where
  | pipeline (a : PipelineBatches.Action)
  | commands (a : CommandBufferLifecycle.Action)
  | createImage (dev : VkDevice) (ci : VkImageCreateInfo)
  | destroyImage (dev : VkDevice) (img : VkImage)
  /-- By a thread that is in no pipeline hook. -/
  | destroyDevice (t : Nat) (dev : VkDevice)

/-- Devices that exist are used, a device nobody uses is destroyed, and a blit finds the
images there are. -/
def State.Permitted (s : State) : Action → Prop
  | .pipeline a => ∀ t dev, a ≠ .call t (.destroyDevice dev)
  | .commands (.createPool dev _) => s.pipeline.devices dev = true
  | .commands (.blit c) => c.imgs = s.imgs
  | .commands _ => True
  | .createImage dev _ => s.pipeline.devices dev = true
  | .destroyImage dev img => s.pipeline.devices dev = true ∧
      (img = 0 ∨ s.commands.world.live (.image img) = some ⟨dev, 0⟩)
  | .destroyDevice t dev => s.pipeline.threads t = .idle ∧ s.pipeline.devices dev = true ∧
      ∀ t', (s.pipeline.threads t').uses ≠ some dev

/-- The buffers of the other devices, which have no slot any more. -/
def stranded (buffers : Buffers) (dev : VkDevice) : Buffers := fun cb =>
  ((buffers cb).filter fun a => a.dev ≠ dev).map fun a => { a with slotted := false }

def State.without (s : State) (t : Nat) (dev : VkDevice) (r : Statics)
    (w : PipelineBatches.World × World) : State where
  pipeline :=
    { s.pipeline.enter t (.destroyDevice dev) with
      cache := r.cache
      world := w.1
      threads := s.pipeline.threads }
  commands :=
    { table := r.table
      world := w.2
      buffers := stranded s.commands.buffers dev
      pools := fun pool => (s.commands.pools pool).filter fun d => d ≠ dev }
  imgs := r.imgs

/-- Pipeline hooks interleave; the others are taken one at a time. -/
def system (p : Process) (reliable : Bool) : Machine State Action where
  init s := s.pipeline = PipelineBatches.State.zero ∧
    (CommandBufferLifecycle.system reliable).init s.commands ∧ s.imgs = ImgTable.zero
  step s a s' := s.Permitted a ∧
    match a with
    | .pipeline a => ∃ q, (lawful p).step s.pipeline a q ∧ s' = { s with pipeline := q }
    | .commands a => ∃ q, (CommandBufferLifecycle.system reliable).step s.commands a q ∧
        s' = { s with commands := q }
    | .createImage dev ci => ∃ out imgs w,
        (shimCreateImage s.imgs dev ci).Runs (answers reliable 0) s.commands.world (out, imgs) w ∧
          s' = { s with commands := { s.commands with world := w }, imgs := imgs }
    | .destroyImage dev img => ∃ imgs w,
        (shimDestroyImage s.imgs dev img).Runs (answers reliable 0) s.commands.world imgs w ∧
          s' = { s with commands := { s.commands with world := w }, imgs := imgs }
    | .destroyDevice t dev => ∃ r w,
        (shimDestroyDevice p s.statics dev).Runs (driver reliable) s.world r w ∧
          s' = s.without t dev r w

section Hook

variable {p : Process} {reliable : Bool} {dev : VkDevice}

/-- The calls of `free_scratch_pair`. -/
def Releases : Call → Prop
  | .destroyImage .. | .freeMemory .. => True
  | _ => False

private theorem always_freePairs (ps : List ScratchPair) :
    (freePairs dev ps).Always Releases (fun _ => True) := by
  have released : ∀ h op, Releases op → (releaseIf h op).Always Releases (fun _ => True) := by
    intro h op release
    unfold releaseIf
    split_ifs
    · exact ⟨release, fun _ => trivial⟩
    · trivial
  induction ps with
  | nil => trivial
  | cons pair rest ih =>
      simp only [freePairs, freeScratchPair, Prog.always_bind]
      refine (released _ (.destroyImage dev pair.srcImg) trivial).mono fun _ _ => ?_
      refine (released _ (.freeMemory dev pair.srcMem) trivial).mono fun _ _ => ?_
      refine (released _ (.destroyImage dev pair.dstImg) trivial).mono fun _ _ => ?_
      exact (released _ (.freeMemory dev pair.dstMem) trivial).mono fun _ _ => ih

private theorem always_dropScratch (t : CbTable) :
    (dropScratch t dev).Always Releases (fun _ => True) := by
  unfold dropScratch
  generalize List.finRange cbTableMax = is
  induction is generalizing t with
  | nil => trivial
  | cons i rest ih =>
      unfold atSlots dropSlot
      split_ifs
      · simp only [Prog.always_bind]
        exact (always_freePairs _).mono fun _ _ => ih _
      · exact ih t

private theorem always_shimDestroyDevice (s : Statics) : (shimDestroyDevice p s dev).Always
    (fun op => OnCaches op ∨ Releases op ∨ op = .destroyDevice dev) (fun _ => True) := by
  simp only [shimDestroyDevice, Prog.always_bind]
  refine ((always_dropDiskCache _ _).weaken fun _ on => .inl on).mono fun _ _ => ?_
  refine ((always_dropScratch _).weaken fun _ on => .inr (.inl on)).mono fun _ _ => ?_
  exact ⟨.inr (.inr rfl), fun _ => trivial⟩

theorem exists_runs_shimDestroyDevice (reliable : Bool) (s : Statics)
    (w : PipelineBatches.World × World) :
    ∃ r w', (shimDestroyDevice p s dev).Runs (driver reliable) w r w' := by
  refine (always_shimDestroyDevice s).exists_runs (I := fun _ => True) ?_ trivial
  rintro w op asked -
  have first := PipelineBatches.respond_allowed (fun _ => "") w.1 op
  suffices second : ∃ v, answers reliable 0 w.2 op (PipelineBatches.respond _ w.1 op).1 v by
    obtain ⟨v, second⟩ := second
    exact ⟨_, (_, v), ⟨first, second⟩, trivial⟩
  rcases asked with on | release | rfl
  · cases op
    case malloc => exact ⟨w.2, fun _ => rfl, rfl⟩
    all_goals first | exact on.elim | exact ⟨w.2, rfl⟩
  · cases op <;> first | exact release.elim | exact ⟨_, rfl⟩
  · exact ⟨_, rfl⟩

private theorem dropSlot_eq (nonzero : dev ≠ 0) (slot : CbScratch) :
    dropSlot dev slot = forgetSlot dev slot := by
  simp only [forgetSlot, freeCbScratchImages, nonzero, ne_eq, not_false_eq_true, if_true,
    Prog.bind_assoc]
  rfl

private theorem onCaches_still {w w' : World} {op : Call} {ans : Answer op} (on : OnCaches op)
    (answered : answers reliable 0 w op ans w') : w' = w := by
  cases op
  case malloc => exact answered.2
  all_goals first | exact on.elim | exact answered

/-- Every slot is empty afterwards. Whether the scratch objects went through their own
device is checked only where each slot is for `dev`. -/
theorem ensures_shimDestroyDevice (reliable strict : Bool) {s : Statics} {w : World}
    {buffers : Buffers} (inv : CommandBufferLedger.Inv s.table w buffers) (nonzero : dev ≠ 0)
    (device : ∀ i, (s.table i).cb ≠ 0 → dev = (s.table i).dev ∨ strict = false) :
    (shimDestroyDevice p s dev).Ensures (answers reliable 0) (Proper strict fun _ => True) w
      (fun r w' => ∃ w₁ left, CommandBufferLedger.Inv r.table w₁ left ∧
        (∀ i, (r.table i).cb = 0) ∧ w' = w₁.removeDevice dev ∧ r.imgs = forgetImages s.imgs) := by
  simp only [shimDestroyDevice, Prog.ensures_bind]
  have dropped : (dropDiskCache p s.cache (cacheLookup s.cache.devCaches dev) true).Ensures
      (answers reliable 0) (Proper strict fun _ => True) w _ :=
    (always_dropDiskCache _ _).ensures
      (fun op on _ => by cases op <;> trivial)
      (fun _ _ _ on answered => onCaches_still on answered)
  refine dropped.mono ?_
  rintro cache _ ⟨-, rfl⟩
  have occupied : ∀ i, ((s.table i).cb != 0) = true → (s.table i).cb ≠ 0 := by simp
  have bodies : dropSlot dev = forgetSlot dev := funext (dropSlot_eq nonzero)
  unfold dropScratch
  rw [bodies]
  refine (ensures_forgetSlots inv _ rfl occupied (fun i picked => device i (occupied i picked))
    (fun _ _ => trivial)).mono ?_
  rintro table w₁ ⟨left, after, -, cleared⟩
  refine ⟨fun _ => trivial, fun _ w' answered => ⟨w₁, left, after, fun i => ?_, answered, rfl⟩⟩
  simpa using cleared i (.inl (List.mem_finRange i))

theorem runs_shimDestroyDevice {s : Statics} {r : Statics} {w w' : PipelineBatches.World}
    (run : (shimDestroyDevice p s dev).Runs PipelineBatches.answers w r w') :
    ∃ w₁, (dropDiskCache p s.cache (cacheLookup s.cache.devCaches dev) true).Runs
      PipelineBatches.answers w r.cache w₁ ∧ w' = w₁.removeDevice dev := by
  obtain ⟨cache, w₁, dropped, rest⟩ := Prog.runs_bind.mp run
  obtain ⟨table, w₂, scratch, rest⟩ := Prog.runs_bind.mp rest
  obtain ⟨_, w₃, gone, rfl, rfl⟩ := Prog.runs_bind.mp rest
  have still : (dropScratch s.table dev).Ensures PipelineBatches.answers (fun _ _ => True) w₁
      (fun _ w' => True ∧ w' = w₁) := by
    refine (always_dropScratch _).ensures (fun _ _ => trivial) fun op ans w' release answered => ?_
    cases op <;> first | exact release.elim | exact answered
  obtain ⟨-, rfl⟩ := still.of_runs scratch
  exact ⟨w₂, dropped, Prog.runs_call.mp gone⟩

end Hook

/-- Both halves are in order. -/
structure Joint (p : Process) (s : State) : Prop where
  pipeline : (lawful p).Reachable s.pipeline
  commands : CommandBufferLifecycle.Ordered s.commands

section Runs

variable {p : Process} {reliable : Bool} {s s' : State} {dev : VkDevice}

theorem Joint.handle (joint : Joint p s) (held : s.pipeline.devices dev = true) : dev ≠ 0 := by
  have inv := PipelineBatchSafety.inv_reachable joint.pipeline
  obtain ⟨n, live⟩ := inv.usage.live held
  exact inv.sound.device live

private theorem pipeline_without {t : Nat} {r : Statics} {w : PipelineBatches.World × World}
    (joint : Joint p s) (permitted : s.Permitted (.destroyDevice t dev))
    (run : (shimDestroyDevice p s.statics dev).Runs (driver reliable) s.world r w) :
    (lawful p).Reachable (s.without t dev r w).pipeline := by
  obtain ⟨idle, held, unused⟩ := permitted
  obtain ⟨w₁, dropped, gone⟩ := runs_shimDestroyDevice run.prod.1
  have enters : (lawful p).step s.pipeline (.call t (.destroyDevice dev))
      (s.pipeline.enter t (.destroyDevice dev)) := ⟨⟨idle, rfl⟩, held, unused⟩
  generalize before : s.pipeline.enter t (.destroyDevice dev) = q at enters
  have phase : q.threads t = .droppingDevice dev := before ▸ Function.update_self ..
  have drops : (lawful p).step q (.advance t)
      (q.moved t r.cache (.droppedDevice dev) .nothing w₁) := by
    refine ⟨⟨r.cache, .droppedDevice dev, .nothing, w₁, ?_, rfl⟩, trivial⟩
    rw [phase, ← before]
    exact Prog.runs_bind.mpr ⟨r.cache, w₁, dropped, rfl, rfl⟩
  generalize middle : q.moved t r.cache (.droppedDevice dev) .nothing w₁ = q' at drops
  have phase' : q'.threads t = .droppedDevice dev := middle ▸ Function.update_self ..
  have leaves : (lawful p).step q' (.advance t) (q'.moved t r.cache .idle .nothing w.1) := by
    refine ⟨⟨r.cache, .idle, .nothing, w.1, ?_, rfl⟩, trivial⟩
    rw [phase', ← middle]
    exact Prog.runs_bind.mpr ⟨(), w.1, Prog.runs_call.mpr gone, rfl, rfl⟩
  have ends : q'.moved t r.cache .idle .nothing w.1 = (s.without t dev r w).pipeline := by
    have threads : Function.update (Function.update (Function.update s.pipeline.threads t
        (.droppingDevice dev)) t (.droppedDevice dev)) t .idle = s.pipeline.threads := by
      rw [Function.update_idem, Function.update_idem, ← idle, Function.update_eq_self]
    rw [← middle, ← before]
    simp only [PipelineBatches.State.moved, PipelineBatches.State.receive,
      PipelineBatches.State.enter, PipelineBatches.Entry.phase, State.without, threads]
  exact ends ▸ ((joint.pipeline.next enters).next drops).next leaves

private theorem removeDevice_live {w : World} {r : Resource} {b : Birth}
    (live : (w.removeDevice dev).live r = some b) : w.live r = some b ∧ b.dev ≠ dev := by
  simpa [World.removeDevice, Option.filter_eq_some_iff] using live

private theorem stranded_eq_some {buffers : Buffers} {cb : VkCommandBuffer} {a : Allocation}
    (live : stranded buffers dev cb = some a) :
    ∃ b, buffers cb = some b ∧ b.dev ≠ dev ∧ a = { b with slotted := false } := by
  obtain ⟨b, kept, rfl⟩ := Option.map_eq_some_iff.mp live
  obtain ⟨was, other⟩ := Option.filter_eq_some_iff.mp kept
  exact ⟨b, was, by simpa using other, rfl⟩

private theorem commands_without {t : Nat} {r : Statics} {w : PipelineBatches.World × World}
    (joint : Joint p s) (held : s.pipeline.devices dev = true)
    (run : (shimDestroyDevice p s.statics dev).Runs (driver reliable) s.world r w) :
    CommandBufferLifecycle.Ordered (s.without t dev r w).commands := by
  have ord := joint.commands
  obtain ⟨w₁, left, inv, vacant, gone, -⟩ :=
    (ensures_shimDestroyDevice reliable false ord.ledger (joint.handle held)
      (fun _ _ => .inr rfl)).of_runs run.prod.2
  have nothing : ∀ r b, w₁.live r = some b → b.cb = 0 := by
    intro r b live
    by_contra nonzero
    obtain ⟨i, here, -⟩ := inv.owned r b live nonzero
    exact nonzero (here.symm.trans (vacant i))
  have swept : CommandBufferLedger.Inv r.table w.2 left := by
    rw [gone]
    refine inv.of_scratch ?_ fun r b nonzero => ?_
    · intro r zero
      simp [World.removeDevice, inv.null r zero]
    · constructor
      · exact fun live => (removeDevice_live live).1
      · exact fun live => absurd (nothing r b live) nonzero
  refine ⟨swept.of_vacant vacant ?_ ?_, ?_, ?_⟩
  · simp [State.without, stranded, ord.ledger.no_zero]
  · intro cb a live
    obtain ⟨b, -, -, rfl⟩ := stranded_eq_some live
    rfl
  · intro cb a live
    obtain ⟨b, was, other, rfl⟩ := stranded_eq_some live
    simp [State.without, ord.pooled cb b was, other]
  · intro pool d live
    have was : s.commands.pools pool = some d ∧ d ≠ dev := by
      simpa [State.without, Option.filter_eq_some_iff] using live
    exact ord.pools_nonzero pool d was.1

private theorem Joint.image (joint : Joint p s) (img : VkImage) {imgs : ImgTable}
    {now : Option Birth} (foreign : ∀ b, s.commands.world.live (.image img) = some b → b.cb = 0)
    (handle : img = 0 → now = none) (foreign_now : ∀ b, now = some b → b.cb = 0) {w : World}
    (live : w.live = Function.update s.commands.world.live (.image img) now) :
    Joint p { s with commands := { s.commands with world := w }, imgs := imgs } := by
  have ord := joint.commands
  refine ⟨joint.pipeline, ⟨ord.ledger.of_scratch ?_ ?_, ord.pooled, ord.pools_nonzero⟩⟩
  · intro r zero
    rw [live]
    rcases eq_or_ne r (.image img) with rfl | ne
    · rw [Function.update_self, handle zero]
    · rw [Function.update_of_ne ne, ord.ledger.null r zero]
  · intro r b nonzero
    rw [live]
    rcases eq_or_ne r (.image img) with rfl | ne
    · rw [Function.update_self]
      constructor
      · exact fun is_now => absurd (foreign_now b is_now) nonzero
      · exact fun was => absurd (foreign b was) nonzero
    · rw [Function.update_of_ne ne]

theorem joint_step {a : Action} (joint : Joint p s) (step : (system p reliable).step s a s') :
    Joint p s' := by
  obtain ⟨permitted, move⟩ := step
  cases a with
  | pipeline a =>
      obtain ⟨q, stepped, rfl⟩ := move
      exact ⟨joint.pipeline.next stepped, joint.commands⟩
  | commands a =>
      obtain ⟨q, stepped, rfl⟩ := move
      exact ⟨joint.pipeline, CommandBufferLifecycle.ordered_step joint.commands stepped⟩
  | createImage dev ci =>
      obtain ⟨out, imgs, w, run, rfl⟩ := move
      obtain ⟨ans, w₁, answered, rest⟩ := Prog.runs_bind.mp run
      have created := Prog.runs_call.mp answered
      cases ans with
      | none =>
          obtain ⟨-, rfl⟩ : _ ∧ w = w₁ := rest
          obtain ⟨-, rfl⟩ := created
          exact ⟨joint.pipeline, joint.commands⟩
      | some img =>
          obtain ⟨-, rfl⟩ : _ ∧ w = w₁ := rest
          obtain ⟨nonzero, fresh, rfl⟩ := created
          refine joint.image img ?_ (fun zero => absurd zero nonzero) ?_ rfl
          · intro b live
            cases fresh.symm.trans live
          · rintro b ⟨⟩
            rfl
  | destroyImage dev img =>
      obtain ⟨imgs, w, run, rfl⟩ := move
      obtain ⟨_, w₁, answered, -, rfl⟩ := Prog.runs_bind.mp run
      obtain rfl : w = s.commands.world.destroy (.image img) := Prog.runs_call.mp answered
      refine joint.image img ?_ (fun _ => rfl) nofun rfl
      intro b live
      rcases permitted.2 with rfl | mine
      · cases (joint.commands.ledger.null (.image 0) rfl).symm.trans live
      · cases mine.symm.trans live
        rfl
  | destroyDevice t dev =>
      obtain ⟨r, w, run, rfl⟩ := move
      exact ⟨pipeline_without joint permitted run, commands_without joint permitted.2.1 run⟩

theorem joint_reachable (reach : (system p reliable).Reachable s) : Joint p s := by
  refine reach.invariant ?_ fun s a s' _ joint step => joint_step joint step
  rintro s ⟨pipeline, commands, -⟩
  exact ⟨.start pipeline, CommandBufferLifecycle.ordered_init commands⟩

/-- The scratch objects of a buffer. -/
def Owns (t : CbTable) (cb : VkCommandBuffer) (r : Resource) : Prop :=
  ∃ i, (t i).cb = cb ∧ r ∈ resources (t i).pairs

/-- What `shim_DestroyDevice` is to leave as it was. -/
structure Spares (s : State) (dev : VkDevice) (r : Statics) : Prop where
  maps : ∀ {cb a}, s.commands.buffers cb = some a → a.dev ≠ dev →
    cbToDevice s.commands.table cb = a.dev → cbToDevice r.table cb = a.dev
  owns : ∀ {cb a}, s.commands.buffers cb = some a → a.dev ≠ dev →
    ∀ x, Owns r.table cb x ↔ Owns s.commands.table cb x
  images : ∀ {img other info}, s.commands.world.live (.image img) = some ⟨other, 0⟩ →
    other ≠ dev → findImg s.imgs img = some info → findImg r.imgs img = some info
  slots : ∀ {other}, other ≠ dev →
    slotOf r.cache.devCaches other = slotOf s.pipeline.cache.devCaches other

/-- What is released was created on the device it is released through. -/
def ThroughCreator (w : World) : Call → Prop
  | .destroyImage dev img => ∃ cb, w.live (.image img) = some ⟨dev, cb⟩
  | .freeMemory dev mem => ∃ cb, w.live (.memory mem) = some ⟨dev, cb⟩
  | _ => True

/-- Destroying `dev` spares the other devices, however the driver answers. -/
def SparesOthers (p : Process) (reliable : Bool) (s : State) (dev : VkDevice) : Prop :=
  (∀ r w, (shimDestroyDevice p s.statics dev).Runs (driver reliable) s.world r w →
    Spares s dev r) ∧
  ∀ w op, (shimDestroyDevice p s.statics dev).Calls (driver reliable) s.world w op →
    ThroughCreator w.2 op

/-- No other device has a buffer in `cb_table` or an image in `img_table`. -/
def Alone (s : State) (dev : VkDevice) : Prop :=
  (∀ i, (s.commands.table i).cb ≠ 0 → (s.commands.table i).dev = dev) ∧
  ∀ img other, s.commands.world.live (.image img) = some ⟨other, 0⟩ → other ≠ dev →
    findImg s.imgs img = none

private theorem findImg_forgetImages (imgs : ImgTable) (img : VkImage) :
    findImg (forgetImages imgs) img = none := by
  have unused : (firstIndex fun i => (forgetImages imgs i).used &&
      (forgetImages imgs i).img == img) = none := firstIndex_eq_none.mpr fun _ => rfl
  simp [findImg, unused]

private theorem cbToDevice_vacant {t : CbTable} (vacant : ∀ i, (t i).cb = 0)
    {cb : VkCommandBuffer} (nonzero : cb ≠ 0) : cbToDevice t cb = 0 := by
  by_contra mapped
  obtain ⟨i, held, -⟩ := cbToDevice_held mapped
  exact nonzero (held.symm.trans (vacant i))

private theorem slots_kept (joint : Joint p s) {r : Statics}
    {w w' : PipelineBatches.World}
    (run : (shimDestroyDevice p s.statics dev).Runs PipelineBatches.answers w r w')
    {other : VkDevice} (ne : other ≠ dev) :
    slotOf r.cache.devCaches other = slotOf s.pipeline.cache.devCaches other := by
  have keyed := (PipelineBatchSafety.inv_reachable joint.pipeline).keyed
  obtain ⟨w₁, dropped, -⟩ := runs_shimDestroyDevice run
  rw [(always_dropDiskCache _ _).of_runs dropped]
  cases lookup : cacheLookup s.statics.cache.devCaches dev with
  | none => rfl
  | some i => exact (onlySlot_zero keyed lookup).1.others other ne

private theorem spares_of_alone (joint : Joint p s) (held : s.pipeline.devices dev = true)
    (alone : Alone s dev) : SparesOthers p reliable s dev := by
  have ledger := joint.commands.ledger
  obtain ⟨buffers, images⟩ := alone
  have checked := ensures_shimDestroyDevice (p := p) (s := s.statics) reliable true ledger
    (joint.handle held) (fun i taken => .inl (buffers i taken).symm)
  have unheld : ∀ {cb a}, s.commands.buffers cb = some a → a.dev ≠ dev → cb ≠ 0 ∧
      ∀ i, (s.commands.table i).cb ≠ cb := by
    intro cb a live other
    have nonzero : cb ≠ 0 := by
      rintro rfl
      cases ledger.no_zero.symm.trans live
    refine ⟨nonzero, ?_⟩
    rintro i rfl
    obtain ⟨-, -, slotted, here⟩ := ledger.bound i nonzero
    cases here.symm.trans live
    exact other (buffers i nonzero)
  refine ⟨fun r w run => ?_, fun w op calls => ?_⟩
  · obtain ⟨w₁, left, -, vacant, -⟩ := checked.of_runs run.prod.2
    refine ⟨?_, ?_, ?_, slots_kept joint run.prod.1⟩
    · intro cb a live other mapped
      have device : a.dev ≠ 0 :=
        (joint.commands.pools_nonzero _ _ (joint.commands.pooled cb a live)).2
      obtain ⟨i, here, -⟩ := cbToDevice_held (mapped ▸ device)
      exact absurd here ((unheld live other).2 i)
    · intro cb a live other x
      obtain ⟨nonzero, missing⟩ := unheld live other
      constructor
      · rintro ⟨i, here, -⟩
        exact absurd (here.symm.trans (vacant i)) nonzero
      · rintro ⟨i, here, -⟩
        exact absurd here (missing i)
    · intro img other info live ne found
      cases (images img other live ne).symm.trans found
  · have proper := checked.of_calls calls.prod.2 rfl
    cases op <;> first | trivial | exact proper.imp fun _ right => right.1

private theorem alone_of_spares (joint : Joint p s) (held : s.pipeline.devices dev = true)
    (spares : SparesOthers p reliable s dev) : Alone s dev := by
  have ledger := joint.commands.ledger
  obtain ⟨r, w, run⟩ := exists_runs_shimDestroyDevice reliable s.statics s.world
  have spared := spares.1 r w run
  obtain ⟨w₁, left, -, vacant, -, imgs⟩ := (ensures_shimDestroyDevice reliable false
    (s := s.statics) ledger (joint.handle held) (fun _ _ => .inr rfl)).of_runs run.prod.2
  constructor
  · intro i taken
    by_contra other
    obtain ⟨device, -, slotted, live⟩ := ledger.bound i taken
    have mapped := spared.maps live other (ledger.cbToDevice_eq taken)
    exact device (mapped.symm.trans (cbToDevice_vacant vacant taken))
  · intro img other live ne
    cases found : findImg s.imgs img with
    | none => rfl
    | some info =>
        have still := spared.images live ne found
        rw [imgs, findImg_forgetImages] at still
        cases still

/-- In every state that calls can lead to, destroying a device spares the others if and
only if no other device has a buffer in `cb_table` or an image in `img_table`. -/
theorem destroyDevice_spares_iff (reach : (system p reliable).Reachable s)
    (held : s.pipeline.devices dev = true) :
    SparesOthers p reliable s dev ↔ Alone s dev := by
  have joint := joint_reachable reach
  exact ⟨alone_of_spares joint held, spares_of_alone joint held⟩

end Runs

/-! Two devices, the second with a pipeline cache, the first with a command buffer. -/

def twoDevices : List PipelineBatches.Action :=
  [.call 0 .createDevice, .advance 0, .advance 0, .call 0 .createDevice, .advance 0, .advance 0,
    .call 0 (.createPipelines 2 0 1), .advance 0, .advance 0, .advance 0, .advance 0, .advance 0,
    .advance 0]

private theorem reachable_pipeline {p : Process} {reliable : Bool} {props : PropertyStore}
    {commands : CommandBufferLifecycle.State} {imgs : ImgTable} {q : PipelineBatches.State}
    (start : (system p reliable).Reachable ⟨PipelineBatches.State.zero, commands, imgs⟩)
    (actions : List PipelineBatches.Action)
    (ends : PipelineBatches.State.zero.after p props PipelineBatches.State.permits actions =
      some q) : (system p reliable).Reachable ⟨q, commands, imgs⟩ := by
  refine PipelineBatches.after_invariant
    (I := fun q => (system p reliable).Reachable ⟨q, commands, imgs⟩) start ?_ actions ends
  intro q a reach permitted
  refine reach.next (l := .pipeline a) ⟨?_, _, PipelineBatches.next_step permitted, rfl⟩
  rintro t dev rfl
  simp [PipelineBatches.State.permits] at permitted

private theorem reachable_twoDevices : ∃ q,
    (system PipelineBatches.fullProcess true).Reachable
      ⟨q, CommandBufferLifecycle.allocatedState, ImgTable.zero⟩ ∧
    q.devices 1 = true ∧ q.devices 2 = true ∧ (slotOf q.cache.devCaches 2).isSome = true := by
  have ran : (PipelineBatches.State.zero.after PipelineBatches.fullProcess (fun _ => "")
      PipelineBatches.State.permits twoDevices).map (fun q =>
        (q.devices 1, q.devices 2, (slotOf q.cache.devCaches 2).isSome)) =
      some (true, true, true) := by decide +kernel
  obtain ⟨q, ends, facts⟩ := Option.map_eq_some_iff.mp ran
  obtain ⟨first, rest⟩ := Prod.mk.inj facts
  obtain ⟨second, cached⟩ := Prod.mk.inj rest
  have devices : (system PipelineBatches.fullProcess true).Reachable
      ⟨q, CommandBufferLifecycle.emptyState, ImgTable.zero⟩ :=
    reachable_pipeline (.start ⟨rfl, CommandBufferLifecycle.init_emptyState true, rfl⟩)
      twoDevices ends
  have pools : (system PipelineBatches.fullProcess true).step
      ⟨q, CommandBufferLifecycle.emptyState, ImgTable.zero⟩ (.commands (.createPool 1 2))
      ⟨q, CommandBufferLifecycle.pooledState, ImgTable.zero⟩ :=
    ⟨first, _, CommandBufferLifecycle.step_pooledState true, rfl⟩
  have allocates : (system PipelineBatches.fullProcess true).step
      ⟨q, CommandBufferLifecycle.pooledState, ImgTable.zero⟩ (.commands (.allocate 1 2 1))
      ⟨q, CommandBufferLifecycle.allocatedState, ImgTable.zero⟩ :=
    ⟨trivial, _, CommandBufferLifecycle.step_allocatedState true, rfl⟩
  exact ⟨q, (devices.next pools).next allocates, first, second, cached⟩

private theorem allocatedState_slots : ∀ i,
    (CommandBufferLifecycle.allocatedState.table i).cb ≠ 0 →
      (CommandBufferLifecycle.allocatedState.table i).cb = 5 ∧
        (CommandBufferLifecycle.allocatedState.table i).dev = 1 := by
  decide +kernel

/-- The first device takes only its own with it. -/
theorem destroyDevice_spares_second : ∃ s, (system PipelineBatches.fullProcess true).Reachable s ∧
    s.pipeline.devices 1 = true ∧ s.pipeline.devices 2 = true ∧
    (slotOf s.pipeline.cache.devCaches 2).isSome = true ∧ cbToDevice s.commands.table 5 = 1 ∧
    SparesOthers PipelineBatches.fullProcess true s 1 := by
  obtain ⟨q, reach, first, second, cached⟩ := reachable_twoDevices
  have mapped : cbToDevice CommandBufferLifecycle.allocatedState.table 5 = 1 := by decide +kernel
  refine ⟨_, reach, first, second, cached, mapped, ?_⟩
  refine (destroyDevice_spares_iff reach first).mpr ⟨fun i taken => ?_, fun img other live => ?_⟩
  · exact (allocatedState_slots i taken).2
  · cases live

/-- The second takes the command buffer of the first with it. -/
theorem destroyDevice_strands_buffer : ¬ ∀ s dev other,
    (system PipelineBatches.fullProcess true).Reachable s → s.pipeline.devices dev = true →
    other ≠ dev → s.pipeline.devices other = true →
    SparesOthers PipelineBatches.fullProcess true s dev := by
  intro spares
  obtain ⟨q, reach, first, second, -⟩ := reachable_twoDevices
  have alone := alone_of_spares (joint_reachable reach) second
    (spares _ 2 1 reach second (by decide) first)
  obtain ⟨i, taken⟩ : ∃ i, (CommandBufferLifecycle.allocatedState.table i).cb ≠ 0 := by
    decide +kernel
  have here := alone.1 i taken
  rw [(allocatedState_slots i taken).2] at here
  cases here

end XdPlus.Vulkan.DeviceTeardown
