/- Module: XdPlus/Vulkan/CommandBufferLifecycle
   source: vulkan/vkshim.c, the command-buffer lifetime hooks and shim_CmdBlitImage
   digest: Any sequence of allocations, recordings, resets, frees and mip blits. -/

import XdPlus.Vulkan.CommandBufferLedger

set_option autoImplicit false
set_option relaxedAutoImplicit false

namespace XdPlus.Vulkan.CommandBufferLifecycle

open XdPlus.Base Common Driver CommandBufferTable MipBlit ImageTable ScratchLedger
open CommandBufferLedger

/-- The shim's table, the driver's objects, and the buffers and pools that exist. -/
structure State where
  table : CbTable
  world : World
  buffers : Buffers
  pools : VkCommandPool → Option VkDevice

/-- One call of `vkCmdBlitImage`, with the statics it finds. -/
structure BlitCall where
  host : Host
  imgs : ImgTable
  gate : Gate
  cb : VkCommandBuffer
  src : VkImage
  srcLayout : VkImageLayout
  dst : VkImage
  dstLayout : VkImageLayout
  regions : List VkImageBlit
  filter : VkFilter

inductive Action where
  | createPool (dev : VkDevice) (pool : VkCommandPool)
  | allocate (dev : VkDevice) (pool : VkCommandPool) (commandBufferCount : Nat)
  | begin (cb : VkCommandBuffer)
  | reset (cb : VkCommandBuffer)
  | free (dev : VkDevice) (pool : VkCommandPool) (cbs : List VkCommandBuffer)
  | resetPool (dev : VkDevice) (pool : VkCommandPool)
  | destroyPool (dev : VkDevice) (pool : VkCommandPool)
  | blit (call : BlitCall)

/-- The hook an action goes through: the table it leaves and the buffers it returns. -/
def State.program (s : State) : Action → Shim (CbTable × List VkCommandBuffer)
  | .createPool _ _ => return (s.table, [])
  | .allocate dev pool n => do
      let r ← shimAllocateCommandBuffers s.table dev pool n
      return (r.2, r.1.getD [])
  | .begin cb => do
      let r ← shimBeginCommandBuffer s.table cb
      return (r.2, [])
  | .reset cb => do
      let r ← shimResetCommandBuffer s.table cb
      return (r.2, [])
  | .free dev pool cbs => do
      let t ← shimFreeCommandBuffers s.table dev pool cbs
      return (t, [])
  | .resetPool dev pool => do
      let r ← shimResetCommandPool s.table dev pool
      return (r.2, [])
  | .destroyPool dev pool => do
      let t ← shimDestroyCommandPool s.table dev pool
      return (t, [])
  | .blit c => do
      let r ← shimCmdBlitImage c.host s.table c.imgs c.gate c.cb c.src c.srcLayout c.dst
        c.dstLayout c.regions c.filter
      return (r.1, [])

/-- The buffer a scratch image would be created for. -/
def Action.cb : Action → VkCommandBuffer
  | .blit c => c.cb
  | _ => 0

/-- The buffers as `vkAllocateCommandBuffers` returned them, each with a slot or without. -/
def enrol (dev : VkDevice) (pool : VkCommandPool) :
    CbTable → Buffers → List VkCommandBuffer → Buffers
  | _, buffers, [] => buffers
  | t, buffers, cb :: rest =>
      enrol dev pool (rememberPool t dev cb pool)
        (Function.update buffers cb (some ⟨dev, pool, (slotFor t cb).isSome⟩)) rest

/-- The buffers left when those named are gone. -/
def freed : Buffers → List VkCommandBuffer → Buffers
  | buffers, [] => buffers
  | buffers, cb :: rest => freed (Function.update buffers cb none) rest

/-- What Vulkan asks of the application. -/
def State.Permitted (s : State) : Action → Prop
  | .createPool dev pool => dev ≠ 0 ∧ pool ≠ 0 ∧ s.pools pool = none
  | .allocate dev pool _ => s.pools pool = some dev
  | .begin cb => s.buffers cb ≠ none
  | .reset cb => s.buffers cb ≠ none
  | .free dev pool cbs =>
      s.pools pool = some dev ∧
        ∀ cb ∈ cbs, cb = 0 ∨ ∃ slotted, s.buffers cb = some ⟨dev, pool, slotted⟩
  | .resetPool dev pool => s.pools pool = some dev
  | .destroyPool dev pool => s.pools pool = some dev
  | .blit c => s.buffers c.cb ≠ none

/-- What it promises of new buffers: handles of their own, not those of live ones. -/
def State.NewBuffers (s : State) (made : List VkCommandBuffer) : Prop :=
  made.Nodup ∧ ∀ cb ∈ made, cb ≠ 0 ∧ s.buffers cb = none

/-- The state an action leaves. -/
def State.after (s : State) (t : CbTable) (made : List VkCommandBuffer) (w : World) :
    Action → State
  | .createPool dev pool => ⟨t, w, s.buffers, Function.update s.pools pool (some dev)⟩
  | .allocate dev pool _ => ⟨t, w, enrol dev pool s.table s.buffers made, s.pools⟩
  | .free _ _ cbs => ⟨t, w, freed s.buffers cbs, s.pools⟩
  | .destroyPool _ pool =>
      ⟨t, w, withoutPool s.buffers pool, Function.update s.pools pool none⟩
  | _ => ⟨t, w, s.buffers, s.pools⟩

/-- The buffers whose recording an action ends. -/
def State.Ends (s : State) (cb : VkCommandBuffer) : Action → Prop
  | .begin c => cb = c
  | .reset c => cb = c
  | .free _ _ cbs => cb ∈ cbs
  | .resetPool _ pool => ∃ a, s.buffers cb = some a ∧ a.pool = pool
  | .destroyPool _ pool => ∃ a, s.buffers cb = some a ∧ a.pool = pool
  | _ => False

/-- Every sequence of calls. Scratch allocations fail only with an unreliable driver. -/
def system (reliable : Bool) : Machine State Action where
  init s :=
    s.table = CbTable.zero ∧ s.world.Null ∧ (∀ r b, s.world.live r = some b → b.cb = 0) ∧
      (∀ cb, s.buffers cb = none) ∧ ∀ pool, s.pools pool = none
  step s a s' := s.Permitted a ∧ ∃ t made w,
    (s.program a).Runs (answers reliable a.cb) s.world (t, made) w ∧
      s.NewBuffers made ∧ s' = s.after t made w a

/-- The ledger is in order and every live buffer's pool exists. -/
structure Ordered (s : State) : Prop where
  ledger : Inv s.table s.world s.buffers
  pooled : ∀ cb a, s.buffers cb = some a → s.pools a.pool = some a.dev
  pools_nonzero : ∀ pool dev, s.pools pool = some dev → pool ≠ 0 ∧ dev ≠ 0

theorem ordered_init {reliable : Bool} {s : State} (start : (system reliable).init s) :
    Ordered s := by
  obtain ⟨table, null, foreign, no_buffers, no_pools⟩ := start
  have slot : ∀ i, s.table i = CbScratch.zero := fun i => by rw [table]; rfl
  refine ⟨⟨null, no_buffers 0, ?_, ?_, ?_, ?_, ?_, ?_, ?_⟩, ?_, ?_⟩
  · intro i j _ nonzero
    rw [slot i] at nonzero
    exact absurd rfl nonzero
  · intro i _
    rw [slot i]
    exact ⟨rfl, rfl, rfl⟩
  · intro i nonzero
    rw [slot i] at nonzero
    exact absurd rfl nonzero
  · intro cb a live
    rw [no_buffers cb] at live
    cases live
  · intro i r member
    simp [slot i, CbScratch.zero, resources] at member
  · intro i
    rw [slot i]
    exact List.nodup_nil
  · intro r b live nonzero
    exact absurd (foreign r b live) nonzero
  · intro cb a live
    rw [no_buffers cb] at live
    cases live
  · intro pool dev live
    rw [no_pools pool] at live
    cases live

section Lists

variable {t : CbTable} {w : World} {buffers : Buffers} {dev : VkDevice} {pool : VkCommandPool}

private theorem inv_rememberPools (inv : Inv t w buffers) (cbs : List VkCommandBuffer)
    (nodup : cbs.Nodup) (fresh : ∀ cb ∈ cbs, cb ≠ 0 ∧ buffers cb = none)
    (nonzero : dev ≠ 0 ∧ pool ≠ 0) :
    Inv (rememberPools dev pool t cbs) w (enrol dev pool t buffers cbs) := by
  induction cbs generalizing t buffers with
  | nil => exact inv
  | cons cb rest ih =>
      obtain ⟨new, nodup_rest⟩ := List.nodup_cons.mp nodup
      obtain ⟨cb_nonzero, absent⟩ := fresh cb (List.mem_cons_self ..)
      refine ih (inv.rememberPool absent ⟨cb_nonzero, nonzero⟩) nodup_rest fun c member => ?_
      have ne : c ≠ cb := fun same => new (same ▸ member)
      rw [Function.update_of_ne ne]
      exact fresh c (List.mem_cons_of_mem _ member)

private theorem enrol_eq_some {cbs : List VkCommandBuffer} {cb : VkCommandBuffer}
    {a : Allocation} (live : enrol dev pool t buffers cbs cb = some a) :
    buffers cb = some a ∨ a.dev = dev ∧ a.pool = pool := by
  induction cbs generalizing t buffers with
  | nil => exact .inl live
  | cons c rest ih =>
      rcases ih live with old | new
      · rcases eq_or_ne cb c with rfl | ne
        · rw [Function.update_self] at old
          cases old
          exact .inr ⟨rfl, rfl⟩
        · rw [Function.update_of_ne ne] at old
          exact .inl old
      · exact .inr new

private theorem freed_eq_some {cbs : List VkCommandBuffer} {cb : VkCommandBuffer}
    {a : Allocation}
    (live : freed buffers cbs cb = some a) :
    buffers cb = some a ∧ cb ∉ cbs := by
  induction cbs generalizing buffers with
  | nil => exact ⟨live, List.not_mem_nil⟩
  | cons c rest ih =>
      obtain ⟨old, later⟩ := ih live
      rcases eq_or_ne cb c with rfl | ne
      · simp at old
      · rw [Function.update_of_ne ne] at old
        exact ⟨old, by simp [ne, later]⟩

private theorem ensures_clearCbs {reliable : Bool} {finished : VkCommandBuffer → Prop}
    {owner : VkCommandBuffer} (inv : Inv t w buffers) (cbs : List VkCommandBuffer)
    (device : ∀ cb ∈ cbs, ∀ a, buffers cb = some a → a.dev = dev)
    (ended : ∀ cb ∈ cbs, finished cb) :
    (clearCbs dev t cbs).Ensures (answers reliable owner) (Proper reliable finished) w
      (fun t' w' => Inv t' w' (freed buffers cbs)) := by
  induction cbs generalizing t w buffers with
  | nil => exact inv
  | cons cb rest ih =>
      simp only [clearCbs, Prog.ensures_bind]
      refine (ensures_clearCb inv cb (device cb (List.mem_cons_self ..))
        (ended cb (List.mem_cons_self ..))).mono fun t' w' after => ?_
      refine ih after (fun c member a live => ?_)
        (fun c member => ended c (List.mem_cons_of_mem _ member))
      rcases eq_or_ne c cb with rfl | ne
      · simp at live
      · rw [Function.update_of_ne ne] at live
        exact device c (List.mem_cons_of_mem _ member) a live

end Lists

/-- Nothing that a blit into `cb` created is left. -/
def Released (w : World) (cb : VkCommandBuffer) : Prop :=
  ∀ r b, w.live r = some b → b.cb ≠ cb

private theorem released_of_bare {t : CbTable} {w : World} {buffers : Buffers}
    (inv : Inv t w buffers) {cb : VkCommandBuffer} (nonzero : cb ≠ 0)
    (bare : ∀ i, (t i).cb = cb → (t i).pairs = []) : Released w cb := by
  rintro r b live rfl
  obtain ⟨i, held, member⟩ := inv.owned r b live nonzero
  simp [bare i held, resources] at member

private theorem released_of_absent {t : CbTable} {w : World} {buffers : Buffers}
    (inv : Inv t w buffers) {cb : VkCommandBuffer} (nonzero : cb ≠ 0)
    (absent : buffers cb = none) : Released w cb :=
  released_of_bare inv nonzero fun i held => absurd held (inv.not_held nonzero absent i)

section Actions

variable {s : State} {reliable : Bool}

private theorem Ordered.same_buffers (ord : Ordered s) {t : CbTable} {w : World}
    (inv : Inv t w s.buffers) : Ordered ⟨t, w, s.buffers, s.pools⟩ :=
  ⟨inv, ord.pooled, ord.pools_nonzero⟩

private theorem ensures_rerecord (finished : VkCommandBuffer → Prop) (ord : Ordered s)
    {cb : VkCommandBuffer} (live : s.buffers cb ≠ none) (ended : finished cb) :
    (recycleCb s.table 0 cb).Ensures (answers reliable 0) (Proper reliable finished)
      s.world (fun t w => Ordered ⟨t, w, s.buffers, s.pools⟩ ∧ Released w cb) := by
  have nonzero : cb ≠ 0 := by
    rintro rfl
    exact live ord.ledger.no_zero
  refine (ensures_recycleCb ord.ledger cb ended).mono ?_
  rintro t w ⟨inv, -, bare⟩
  exact ⟨ord.same_buffers inv, released_of_bare inv nonzero (bare nonzero)⟩

/-- One action leaves the ledger in order, and nothing of the recordings it ends. -/
def Meets (reliable : Bool) (s : State) (a : Action) : Prop :=
  (s.program a).Ensures (answers reliable a.cb) (Proper reliable (fun c => s.Ends c a)) s.world
    (fun r w => s.NewBuffers r.2 →
      Ordered (s.after r.1 r.2 w a) ∧ ∀ c, c ≠ 0 → s.Ends c a → Released w c)

private theorem meets_createPool (ord : Ordered s) {dev : VkDevice} {pool : VkCommandPool}
    (dev_nonzero : dev ≠ 0) (pool_nonzero : pool ≠ 0) (absent : s.pools pool = none) :
    Meets reliable s (.createPool dev pool) := by
  refine fun _ => ⟨⟨ord.ledger, ?_, ?_⟩, fun _ _ ends => ends.elim⟩
  · intro cb a live
    have pooled := ord.pooled cb a live
    have ne : a.pool ≠ pool := by
      intro same
      rw [same, absent] at pooled
      cases pooled
    simpa [State.after, Function.update_of_ne ne] using pooled
  · intro p d live
    rcases eq_or_ne p pool with rfl | ne
    · simp only [State.after, Function.update_self, Option.some.injEq] at live
      exact ⟨pool_nonzero, live ▸ dev_nonzero⟩
    · simp only [State.after, Function.update_of_ne ne] at live
      exact ord.pools_nonzero p d live

private theorem meets_allocate (ord : Ordered s) {dev : VkDevice} {pool : VkCommandPool}
    (known : s.pools pool = some dev) (n : Nat) : Meets reliable s (.allocate dev pool n) := by
  obtain ⟨pool_nonzero, dev_nonzero⟩ := ord.pools_nonzero pool dev known
  simp only [Meets, State.program, shimAllocateCommandBuffers, Prog.ensures_bind,
    Prog.ensures_call]
  refine ⟨fun _ => trivial, fun made w answered => ?_⟩
  obtain rfl : w = s.world := answered
  cases made with
  | none => exact fun _ => ⟨ord.same_buffers ord.ledger, fun _ _ ends => ends.elim⟩
  | some cbs =>
      rintro ⟨nodup, fresh⟩
      refine ⟨⟨inv_rememberPools ord.ledger cbs nodup fresh ⟨dev_nonzero, pool_nonzero⟩, ?_,
        ord.pools_nonzero⟩, fun _ _ ends => ends.elim⟩
      intro cb a live
      rcases enrol_eq_some live with old | ⟨rfl, rfl⟩
      · exact ord.pooled cb a old
      · exact known

private theorem meets_begin (ord : Ordered s) {cb : VkCommandBuffer}
    (live : s.buffers cb ≠ none) : Meets reliable s (.begin cb) := by
  simp only [Meets, State.program, shimBeginCommandBuffer, Prog.ensures_bind]
  refine (ensures_rerecord (fun c => s.Ends c (.begin cb)) ord live rfl).mono fun t w done => ?_
  refine ⟨fun _ => trivial, fun _ w' answered => ?_⟩
  obtain rfl : w' = w := answered
  exact fun _ => ⟨done.1, fun c _ ends => ends ▸ done.2⟩

private theorem meets_reset (ord : Ordered s) {cb : VkCommandBuffer}
    (live : s.buffers cb ≠ none) : Meets reliable s (.reset cb) := by
  simp only [Meets, State.program, shimResetCommandBuffer, Prog.ensures_bind]
  refine (ensures_rerecord (fun c => s.Ends c (.reset cb)) ord live rfl).mono fun t w done => ?_
  refine ⟨fun _ => trivial, fun _ w' answered => ?_⟩
  obtain rfl : w' = w := answered
  exact fun _ => ⟨done.1, fun c _ ends => ends ▸ done.2⟩

private theorem meets_free (ord : Ordered s) {dev : VkDevice} {pool : VkCommandPool}
    {cbs : List VkCommandBuffer}
    (own : ∀ cb ∈ cbs, cb = 0 ∨ ∃ slotted, s.buffers cb = some ⟨dev, pool, slotted⟩) :
    Meets reliable s (.free dev pool cbs) := by
  simp only [Meets, State.program, shimFreeCommandBuffers, Prog.ensures_bind]
  refine (ensures_clearCbs ord.ledger cbs ?_ fun c member => member).mono fun t w inv => ?_
  · intro c member a live
    rcases own c member with rfl | ⟨slotted, here⟩
    · rw [ord.ledger.no_zero] at live
      cases live
    · rw [here] at live
      cases live
      rfl
  · refine ⟨fun _ => trivial, fun _ w' answered => ?_⟩
    obtain rfl : w' = w := answered
    refine fun _ => ⟨⟨inv, fun cb a live => ord.pooled cb a (freed_eq_some live).1,
      ord.pools_nonzero⟩, fun c nonzero member => released_of_absent inv nonzero ?_⟩
    cases gone : freed s.buffers cbs c with
    | none => rfl
    | some a => exact absurd member (freed_eq_some gone).2

private theorem Ordered.pool_device (ord : Ordered s) {dev : VkDevice} {pool : VkCommandPool}
    (known : s.pools pool = some dev) (c : VkCommandBuffer) (a : Allocation)
    (live : s.buffers c = some a) (same : a.pool = pool) : a.dev = dev := by
  have pooled := ord.pooled c a live
  rw [same, known] at pooled
  exact (Option.some.inj pooled).symm

private theorem meets_resetPool (ord : Ordered s) {dev : VkDevice} {pool : VkCommandPool}
    (known : s.pools pool = some dev) : Meets reliable s (.resetPool dev pool) := by
  simp only [Meets, State.program, shimResetCommandPool, Prog.ensures_bind]
  refine (ensures_recyclePool ord.ledger (ord.pool_device known)
    fun c a live same => ⟨a, live, same⟩).mono ?_
  rintro t w ⟨inv, same, bare⟩
  refine ⟨fun _ => trivial, fun _ w' answered => ?_⟩
  obtain rfl : w' = w := answered
  refine fun _ => ⟨ord.same_buffers inv, ?_⟩
  rintro c nonzero ⟨a, live, in_pool⟩
  refine released_of_bare inv nonzero fun i held => bare i ?_
  obtain ⟨-, -, slotted, here⟩ := inv.bound i (held ▸ nonzero)
  rw [held, live] at here
  cases here
  exact in_pool

private theorem meets_destroyPool (ord : Ordered s) {dev : VkDevice} {pool : VkCommandPool}
    (known : s.pools pool = some dev) : Meets reliable s (.destroyPool dev pool) := by
  simp only [Meets, State.program, shimDestroyCommandPool, Prog.ensures_bind]
  refine (ensures_clearPool ord.ledger (ord.pools_nonzero pool dev known).1
    (ord.pool_device known) fun c a live same => ⟨a, live, same⟩).mono ?_
  intro t w inv
  refine ⟨fun _ => trivial, fun _ w' answered => ?_⟩
  obtain rfl : w' = w := answered
  refine fun _ => ⟨⟨inv, ?_, ?_⟩, ?_⟩
  · intro cb a live
    obtain ⟨here, in_other⟩ := withoutPool_eq_some live
    exact (Function.update_of_ne in_other _ _).trans (ord.pooled cb a here)
  · intro p d live
    rcases eq_or_ne p pool with rfl | ne
    · simp [State.after] at live
    · simp only [State.after, Function.update_of_ne ne] at live
      exact ord.pools_nonzero p d live
  · rintro c nonzero ⟨a, live, in_pool⟩
    refine released_of_absent inv nonzero ?_
    simp [withoutPool, live, in_pool]

private theorem meets_blit (ord : Ordered s) (c : BlitCall) : Meets reliable s (.blit c) := by
  simp only [Meets, State.program, Prog.ensures_bind]
  refine (ensures_shimCmdBlitImage ord.ledger _ _ _ _ _ _ _ _ _ _).mono ?_
  rintro r w ⟨inv, -⟩
  exact fun _ => ⟨ord.same_buffers inv, fun _ _ ends => ends.elim⟩

theorem ensures_program (ord : Ordered s) {a : Action} (permitted : s.Permitted a) :
    Meets reliable s a := by
  cases a with
  | createPool dev pool => exact meets_createPool ord permitted.1 permitted.2.1 permitted.2.2
  | allocate dev pool n => exact meets_allocate ord permitted n
  | begin cb => exact meets_begin ord permitted
  | reset cb => exact meets_reset ord permitted
  | free dev pool cbs => exact meets_free ord permitted.2
  | resetPool dev pool => exact meets_resetPool ord permitted
  | destroyPool dev pool => exact meets_destroyPool ord permitted
  | blit c => exact meets_blit ord c

theorem ordered_step {s' : State} {a : Action} (ord : Ordered s)
    (step : (system reliable).step s a s') : Ordered s' := by
  obtain ⟨permitted, t, made, w, run, new, rfl⟩ := step
  exact ((ensures_program ord permitted).of_runs run new).1

theorem ordered_reachable (reach : (system reliable).Reachable s) : Ordered s :=
  reach.invariant (fun _ start => ordered_init start)
    (fun _ _ _ _ ord step => ordered_step ord step)

end Actions

theorem step_blit (reliable : Bool) {s : State} (ord : Ordered s) {c : BlitCall}
    {i : Fin cbTableMax} {region : VkImageBlit} {memProps : VkPhysicalDeviceMemoryProperties}
    {srcInfo dstInfo : ImgInfo} {p : ScratchPair} (held : (s.table i).cb = c.cb)
    (nonzero : c.cb ≠ 0) (single : c.regions = [region]) (mip : namesMip region = true)
    (emulate : (propOn c.host.props "debug.xdplus.vkblitmip" c.gate).1 = true)
    (fns : c.host.scratchFns = true) (types : c.host.memProps = some memProps)
    (src : findImg c.imgs c.src = some srcInfo) (dst : findImg c.imgs c.dst = some dstInfo)
    (colour : formatIsDepthStencil srcInfo.format = false)
    (fresh : Fresh s.world (pairResources p)) :
    ∃ s', (system reliable).step s (.blit c) s' ∧ s'.buffers = s.buffers ∧
      s'.world.live = (s.world.add (pairResources p) ⟨(s.table i).dev, c.cb⟩).live := by
  have inv := ord.ledger
  have held_nonzero : (s.table i).cb ≠ 0 := held ▸ nonzero
  have device := inv.cbToDevice_eq held_nonzero
  have known : (s.table i).dev ≠ 0 := (inv.bound i held_nonzero).1
  have found := inv.slotFor_eq held_nonzero
  have claimed := inv.slotClaimDevice_eq held_nonzero (s.table i).dev
  rw [held] at device found claimed
  have permitted : s.buffers c.cb ≠ none := by
    obtain ⟨-, -, slotted, live⟩ := inv.bound i held_nonzero
    rw [held] at live
    simp [live]
  obtain ⟨cap, served⟩ := runs_getScratchPair reliable (s.table i).dev found held nonzero
    srcInfo.format (levelExt srcInfo.extent region.srcSubresource.mipLevel)
    (levelExt dstInfo.extent region.dstSubresource.mipLevel) memProps fresh
  have run : (shimCmdBlitImage c.host s.table c.imgs c.gate c.cb c.src c.srcLayout c.dst
      c.dstLayout c.regions c.filter).Runs (answers reliable c.cb) s.world
      (Function.update s.table i
        { s.table i with pairs := (s.table i).pairs ++ [p], cap := cap },
        (propOn c.host.props "debug.xdplus.vkblitmip" c.gate).2)
      (s.world.add (pairResources p) ⟨(s.table i).dev, c.cb⟩) := by
    have some_mip : (!([region].any namesMip)) = false := by simp [mip]
    simp only [shimCmdBlitImage, some_mip, emulate, device, known, claimed, fns, types, src, dst,
      colour, single, Bool.not_true, Bool.false_eq_true, if_false]
    refine Prog.runs_bind.mpr ⟨_, _, ?_, rfl, rfl⟩
    refine Prog.runs_bind.mpr ⟨_, _, ?_, rfl, rfl⟩
    refine Prog.runs_bind.mpr ⟨_, _, served, ?_⟩
    exact Prog.runs_bind.mpr ⟨_, _, runs_recordCommands _, rfl, rfl⟩
  exact ⟨_, ⟨permitted, _, [], _, Prog.runs_bind.mpr ⟨_, _, run, rfl, rfl⟩,
    ⟨List.nodup_nil, by simp⟩, rfl⟩, rfl, rfl⟩

/-- The call destroys a live scratch object of a buffer whose recording is over, through
the device the object was created on. -/
def EndsProperly (s : State) (a : Action) (w : World) : Call → Prop
  | .destroyImage dev img => ∃ cb, w.live (.image img) = some ⟨dev, cb⟩ ∧ s.Ends cb a
  | .freeMemory dev mem => ∃ cb, w.live (.memory mem) = some ⟨dev, cb⟩ ∧ s.Ends cb a
  | _ => True

/-- In every state that calls can lead to while scratch allocations succeed, a buffer has
at most one slot and an empty slot owns nothing; a live buffer that got a slot still maps
to its device and pool; every live scratch object is in exactly one slot, once, the slot of
the buffer whose blit created it; and whatever call comes next destroys only live objects,
with their own device, of buffers whose recording it ends, and leaves none of those. -/
theorem scratch_owned_once {s : State} (reach : (system true).Reachable s) :
    (∀ i j, (s.table i).cb = (s.table j).cb → (s.table i).cb ≠ 0 → i = j) ∧
    (∀ i, (s.table i).cb = 0 → (s.table i).pairs = []) ∧
    (∀ cb a, s.buffers cb = some a → a.slotted = true →
      cbToDevice s.table cb = a.dev ∧ ∃ i, (s.table i).cb = cb ∧ (s.table i).pool = a.pool) ∧
    (∀ r b, s.world.live r = some b → b.cb ≠ 0 →
      ∃ i, (s.table i).cb = b.cb ∧ (s.table i).dev = b.dev ∧
        (resources (s.table i).pairs).count r = 1 ∧
        ∀ j, r ∈ resources (s.table j).pairs → j = i) ∧
    (∀ a, s.Permitted a →
      (∀ w c, (s.program a).Calls (answers true a.cb) s.world w c → EndsProperly s a w c) ∧
      ∀ s', (system true).step s a s' →
        ∀ cb, cb ≠ 0 → s.Ends cb a → Released s'.world cb) := by
  have ord := ordered_reachable reach
  have inv := ord.ledger
  refine ⟨inv.one_slot, fun i zero => (inv.empty i zero).2.2, ?_, ?_, fun a permitted => ⟨?_, ?_⟩⟩
  · intro cb a live slotted
    obtain ⟨i, rfl⟩ := inv.kept cb a live slotted
    have nonzero : (s.table i).cb ≠ 0 := by
      intro zero
      rw [zero, inv.no_zero] at live
      cases live
    obtain ⟨-, -, mark, here⟩ := inv.bound i nonzero
    rw [here] at live
    cases live
    exact ⟨inv.cbToDevice_eq nonzero, i, rfl, rfl⟩
  · intro r b live nonzero
    obtain ⟨i, held, member⟩ := inv.owned r b live nonzero
    have birth := inv.owns i r member
    rw [live, Option.some.injEq] at birth
    refine ⟨i, held, by rw [birth], List.count_eq_one_of_mem (inv.distinct i) member, ?_⟩
    intro j there
    have other := inv.owns j r there
    rw [live, Option.some.injEq] at other
    have same : (s.table j).cb = (s.table i).cb := by rw [held, other]
    exact inv.one_slot j i same (same ▸ held ▸ nonzero)
  · intro w c calls
    have proper := (ensures_program ord permitted).of_calls calls rfl
    cases c <;> exact proper
  · rintro s' ⟨-, t, made, w, run, new, rfl⟩ cb nonzero ends
    have released := ((ensures_program ord permitted).of_runs run new).2 cb nonzero ends
    cases a <;> exact released

/-! A pool, one buffer from it, and a blit into level 1 of an image. -/

def emptyState : State := ⟨CbTable.zero, ⟨fun _ => none⟩, fun _ => none, fun _ => none⟩

def pooledState : State :=
  { emptyState with pools := Function.update emptyState.pools 2 (some 1) }

def allocatedState : State :=
  pooledState.after (rememberPools 1 2 pooledState.table [5]) [5] pooledState.world
    (.allocate 1 2 1)

def mipRegion : VkImageBlit where
  srcSubresource := ⟨1, 0, 0, 1⟩
  srcOffset0 := ⟨0, 0, 0⟩
  srcOffset1 := ⟨4, 4, 1⟩
  dstSubresource := ⟨1, 1, 0, 1⟩
  dstOffset0 := ⟨0, 0, 0⟩
  dstOffset1 := ⟨2, 2, 1⟩

def mipBlitCall : BlitCall where
  host := ⟨fun _ => "", true, some [1]⟩
  imgs := rememberImg ImgTable.zero 10 37 ⟨4, 4, 1⟩ 1
  gate := none
  cb := 5
  src := 10
  srcLayout := .general
  dst := 10
  dstLayout := .general
  regions := [mipRegion]
  filter := .linear

theorem init_emptyState (reliable : Bool) : (system reliable).init emptyState :=
  ⟨rfl, fun _ _ => rfl, fun _ _ live => (nomatch live), fun _ => rfl, fun _ => rfl⟩

theorem step_pooledState (reliable : Bool) :
    (system reliable).step emptyState (.createPool 1 2) pooledState :=
  ⟨⟨by decide, by decide, rfl⟩, _, _, _, ⟨rfl, rfl⟩, ⟨List.nodup_nil, by simp⟩, rfl⟩

theorem step_allocatedState (reliable : Bool) :
    (system reliable).step pooledState (.allocate 1 2 1) allocatedState := by
  have hook : (pooledState.program (.allocate 1 2 1)).Runs (answers reliable 0)
      pooledState.world (rememberPools 1 2 pooledState.table [5], [5]) pooledState.world := by
    generalize pooledState = s
    refine Prog.runs_bind.mpr ⟨(some [5], rememberPools 1 2 s.table [5]), _, ?_, rfl, rfl⟩
    exact Prog.runs_bind.mpr ⟨some [5], _, Prog.runs_call.mpr rfl, rfl, rfl⟩
  have new : pooledState.NewBuffers [5] := ⟨by simp, by simp [pooledState, emptyState]⟩
  exact ⟨rfl, _, _, _, hook, new, rfl⟩

theorem scratch_owned_mipBlitCall : ∃ s, (system true).Reachable s ∧
    s.world.live (.image 100) = some ⟨1, 5⟩ ∧ cbToDevice s.table 5 = 1 ∧
    ∃ i, (s.table i).cb = 5 ∧ (resources (s.table i).pairs).count (.image 100) = 1 := by
  have reach : (system true).Reachable allocatedState :=
    ((Machine.Reachable.start (init_emptyState true)).next (step_pooledState true)).next
      (step_allocatedState true)
  obtain ⟨i, held, dev⟩ :
      ∃ i, (allocatedState.table i).cb = 5 ∧ (allocatedState.table i).dev = 1 := by
    decide +kernel
  have known : findImg mipBlitCall.imgs 10 = some ⟨10, 37, ⟨4, 4, 1⟩, 1, 1, true⟩ := by
    decide +kernel
  have fresh : Fresh allocatedState.world (pairResources ⟨100, 101, 102, 103⟩) :=
    ⟨fun _ _ => rfl, by decide, by decide⟩
  obtain ⟨s, step, buffers, live⟩ := step_blit true (c := mipBlitCall)
    (ordered_reachable reach) held (by decide) rfl rfl (by decide +kernel) rfl rfl known known
    (by decide) fresh
  have born : s.world.live (.image 100) = some ⟨1, 5⟩ := by
    rw [live, dev]
    rfl
  have after := reach.next step
  obtain ⟨-, -, mapped, owned, -⟩ := scratch_owned_once after
  obtain ⟨j, held_j, -, once, -⟩ := owned _ _ born (by decide)
  have slotted : s.buffers 5 = some ⟨1, 2, true⟩ := by
    rw [buffers]
    decide +kernel
  exact ⟨s, after, born, (mapped 5 _ slotted rfl).1, j, held_j, once⟩

end XdPlus.Vulkan.CommandBufferLifecycle
