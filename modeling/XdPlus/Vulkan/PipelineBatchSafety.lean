/- Module: XdPlus/Vulkan/PipelineBatchSafety
   source: vulkan/vkshim.c, compile_batch, the pipeline-cache hooks, shim_DestroyDevice,
     shim_CreateDevice
   digest: However the hooks interleave, no cache is shared, raced or used after its end. -/

import XdPlus.Vulkan.PipelineOwnership

set_option autoImplicit false
set_option relaxedAutoImplicit false

namespace XdPlus.Vulkan.PipelineBatchSafety

open XdPlus.Base Common Driver PipelineCache PipelineBatches PipelineLedger PipelineOwnership

/-- A master some other thread is at work with. -/
def Busy (s : State) (t : Nat) (pc : VkPipelineCache) : Prop :=
  ∃ t' b, t' ≠ t ∧ Masters (s.threads t') b ∧ b.cacheSlot = pc

/-- The caches of the application in a call. -/
def given : Phase → List VkPipelineCache
  | .created _ out => [out]
  | .destroying _ pc => [pc]
  | phase => phase.lent

/-- What thread `t` may say to the driver. -/
abbrev Allowed (s : State) (t : Nat) : World → Call → Prop :=
  Proper (Busy s t) (· ∈ given (s.threads t))

section Invariant

variable {s : State} {t : Nat} {dev : VkDevice} {pc : VkPipelineCache} {n : Nat}

theorem Inv.busy_slot (inv : Inv s) (busy : Busy s t pc) : ∃ dev c,
    slotOf s.cache.devCaches dev = some c ∧ c.masterInUse = true ∧
      Holds s (.slot dev) pc (dev, .shim) ∧ ∃ t' b, t' ≠ t ∧ Masters (s.threads t') b ∧
        b.dev = dev := by
  obtain ⟨t', b, ne, masters, rfl⟩ := busy
  obtain ⟨nonzero, c, found, used, is_pc⟩ := inv.batches.master masters
  refine ⟨b.dev, c, found, used, ⟨?_, rfl⟩, t', b, ne, masters, rfl⟩
  rw [slotHandles_some found, mem_handles]
  exact .inl ⟨is_pc.symm, is_pc ▸ nonzero⟩

theorem Inv.not_busy (inv : Inv s) {x : Holder} {what : VkDevice × Owner}
    (has : Holds s x pc what) (elsewhere : ∀ dev, x ≠ .slot dev) : ¬ Busy s t pc := by
  intro busy
  obtain ⟨dev, c, -, -, held, -⟩ := Inv.busy_slot inv busy
  exact elsewhere dev (inv.owned.alone has held)

theorem Inv.ready (inv : Inv s) (device : s.world.devices dev = some n) :
    Ready (Busy s t) s.cache.devCaches s.world dev where
  keyed := inv.keyed
  handle := inv.sound.device device
  device := ⟨n, device⟩
  nodup := inv.nodup dev
  live h member := inv.owned.right (x := .slot dev) ⟨member, rfl⟩
  busy_live h busy gone := by
    obtain ⟨dev, c, -, -, held, -⟩ := Inv.busy_slot inv busy
    have live := inv.owned.right held
    rw [kind, gone] at live
    cases live
  idle c found unused h member busy := by
    obtain ⟨dev', c', found', used, held, -⟩ := Inv.busy_slot inv busy
    have mine : Holds s (.slot dev) h (dev, .shim) := ⟨by rwa [slotHandles_some found], rfl⟩
    cases inv.owned.alone mine held
    obtain rfl : c = c' := Option.some.inj (found.symm.trans found')
    rw [unused] at used
    cases used

theorem Inv.free (inv : Inv s)
    (alone : ∀ t' b, t' ≠ t → Masters (s.threads t') b → b.dev ≠ dev) :
    ∀ pc ∈ slotHandles s.cache.devCaches dev, ¬ Busy s t pc := by
  intro h member busy
  obtain ⟨dev', c', -, -, held, t', b, ne, masters, is_dev⟩ := Inv.busy_slot inv busy
  have mine : Holds s (.slot dev) h (dev, .shim) := ⟨member, rfl⟩
  cases inv.owned.alone mine held
  exact alone t' b ne masters is_dev

theorem masters_uses {phase : Phase} {b : Batch} (masters : Masters phase b) :
    phase.uses = some b.dev := by
  obtain ⟨flight, -⟩ := masters
  cases phase <;> simp_all [Phase.inFlight, Phase.uses]

end Invariant

section Steps

variable {s : State} {t : Nat} {dev : VkDevice} {scratch : VkPipelineCache} {k' : CacheState}
  {phase' : Phase} {w' : World}

theorem Inv.turn (inv : Inv s)
    (turn : Turn dev scratch s.cache.devCaches k'.devCaches s.world w') (sound : Sound w')
    (goes_on : phase' = .idle ∨ phase'.uses = (s.threads t).uses ∧
      claims phase' = claims (s.threads t) ∧ phase'.lent = (s.threads t).lent)
    (slot : (s.threads t).uses = some dev ∨ slotOf k'.devCaches dev = none)
    (dropped : ∀ dev', s.threads t = .droppingDevice dev' → dev' = dev ∧
      slotOf k'.devCaches dev = none)
    (given : scratch = 0 ∨ own (s.threads t) = some (scratch, dev, .shim))
    (stays : ∀ pc what, own phase' = some (pc, what) →
      own (s.threads t) = some (pc, what) ∧ pc ∉ slotHandles k'.devCaches dev)
    (shaped : Shaped phase')
    (keeps : KeepsMaster dev s.cache.devCaches k'.devCaches ∨
      ∀ t' b, t' ≠ t → Masters (s.threads t') b → b.dev ≠ dev)
    (mine : ∀ b, Masters phase' b → (b.cacheSlot ≠ 0 ∧
        ∃ c, slotOf k'.devCaches b.dev = some c ∧ c.masterInUse = true ∧ c.pc = b.cacheSlot) ∧
      ∀ t' b', t' ≠ t → Masters (s.threads t') b' → b.dev ≠ b'.dev) :
    Inv (s.moved t k' phase' .nothing w') where
  keyed := turn.table.keyed
  sound := sound
  owned := by
    refine owned_turn (t := t) inv.owned turn (fun t' ne => ?_) rfl given ?_ sound
    · exact congrArg own (Function.update_of_ne ne _ _)
    · intro pc what has
      exact stays pc what (by simpa [moved_threads] using has)
  nodup other := by
    rcases eq_or_ne other dev with rfl | ne
    · exact turn.nodup
    · have same := turn.table.others other ne
      simpa only [slotHandles, State.moved, State.receive, same] using inv.nodup other
  usage := by
    refine inv.usage.advance goes_on turn.devices (fun other c found => ?_) (fun dev' is => ?_)
    · rcases eq_or_ne other dev with rfl | ne
      · rcases slot with used | none_left
        · exact .inr used
        · cases none_left.symm.trans found
      · exact .inl ⟨c, turn.table.others other ne ▸ found⟩
    · obtain ⟨rfl, gone⟩ := dropped dev' is
      exact gone
  batches := by
    refine inv.batches.advance shaped (fun t' b ne masters c found used some_pc => ?_) mine
    by_cases same : b.dev = dev
    · rcases keeps with kept | alone
      · rw [same] at found ⊢
        exact kept c found used some_pc
      · exact absurd same (alone t' b ne masters)
    · exact ⟨c, (turn.table.others b.dev same).trans found, used, rfl⟩

theorem Inv.still {handed : Handed} (inv : Inv s)
    (table : k'.devCaches = s.cache.devCaches) (sound : Sound w')
    (owned : CachesOwned (s.moved t k' phase' handed w'))
    (usage : Usage (s.moved t k' phase' handed w')) (shaped : Shaped phase')
    (mine : ∀ b, Masters phase' b → ∃ b', Masters (s.threads t) b' ∧ b'.dev = b.dev ∧
      b'.cacheSlot = b.cacheSlot) : Inv (s.moved t k' phase' handed w') where
  keyed := by
    rw [moved_cache, table]
    exact inv.keyed
  sound := by cases handed <;> exact sound
  owned := owned
  nodup other := by
    rw [moved_cache, table]
    exact inv.nodup other
  usage := usage
  batches := by
    refine inv.batches.advance shaped (fun t' b _ _ c found used _ => ?_) (fun b masters => ?_)
    · exact ⟨c, table ▸ found, used, rfl⟩
    · obtain ⟨b', before, same_dev, same_slot⟩ := mine b masters
      obtain ⟨nonzero, c, found, used, is_pc⟩ := inv.batches.master before
      refine ⟨⟨same_slot ▸ nonzero, c, ?_, used, is_pc.trans same_slot⟩, ?_⟩
      · rw [table, ← same_dev]
        exact found
      · intro t' b'' ne other same
        exact ne (inv.batches.master_once other before (same ▸ same_dev).symm)

theorem Inv.usage_advance (inv : Inv s) (table : k'.devCaches = s.cache.devCaches)
    (devices : w'.devices = s.world.devices)
    (goes_on : phase' = .idle ∨ phase'.uses = (s.threads t).uses ∧
      claims phase' = claims (s.threads t) ∧ phase'.lent = (s.threads t).lent)
    (not_dropping : ∀ dev, s.threads t ≠ .droppingDevice dev) :
    Usage (s.moved t k' phase' .nothing w') :=
  inv.usage.advance goes_on devices (fun _ c found => .inl ⟨c, table ▸ found⟩)
    (fun dev is => absurd is (not_dropping dev))

theorem Inv.quiet (inv : Inv s) (table : k'.devCaches = s.cache.devCaches)
    (goes_on : phase' = .idle ∨ phase'.uses = (s.threads t).uses ∧
      claims phase' = claims (s.threads t) ∧ phase'.lent = (s.threads t).lent)
    (not_dropping : ∀ dev, s.threads t ≠ .droppingDevice dev)
    (same_own : own phase' = own (s.threads t)) (shaped : Shaped phase')
    (mine : ∀ b, Masters phase' b → ∃ b', Masters (s.threads t) b' ∧ b'.dev = b.dev ∧
      b'.cacheSlot = b.cacheSlot) : Inv (s.moved t k' phase' .nothing s.world) := by
  refine Inv.still inv table inv.sound (owned_same inv.owned ?_ ?_ rfl rfl)
    (Inv.usage_advance inv table rfl goes_on not_dropping) shaped mine
  · intro dev
    rw [moved_cache, table]
  · intro t'
    rw [moved_threads]
    rcases eq_or_ne t' t with rfl | ne
    · rw [Function.update_self, same_own]
    · rw [Function.update_of_ne ne]

end Steps

section Batch

variable {p : Process} {s : State} {t : Nat} {b : Batch}

/-- What each stretch has to live up to. -/
abbrev Safe (p : Process) (s : State) (t : Nat) : Prop :=
  (advance p s.cache (s.threads t)).Ensures answers (Allowed s t) s.world
    (fun r w' => Inv (s.moved t r.1 r.2.1 r.2.2 w'))

private theorem keep_sound (w : World) (op : Call) (ans : Answer op) (w' : World)
    (answered : answers w op ans w') (sound : Sound w) : Sound w' := sound.answers answered

theorem Inv.device_used (inv : Inv s) {dev : VkDevice} (used : (s.threads t).uses = some dev) :
    ∃ n, s.world.devices dev = some n := inv.usage.live (inv.usage.uses used)

private theorem safe_arrived (inv : Inv s) (phase : s.threads t = .arrived b) : Safe p s t := by
  have used : (s.threads t).uses = some b.dev := by rw [phase]; rfl
  obtain ⟨n, device⟩ := Inv.device_used inv used
  have shape := inv.batches.shaped t
  rw [phase] at shape
  obtain ⟨not_own, no_scratch, slot_app⟩ := shape
  rw [Safe, phase]
  simp only [advance, Prog.ensures_bind]
  refine ((ensures_batchBegin (Inv.ready inv device)).and_invariant keep_sound inv.sound).mono ?_
  rintro ⟨k', b'⟩ w' ⟨begun, sound⟩
  have same_batch : b'.dev = b.dev ∧ b'.appCache = b.appCache ∧ b'.scratch = 0 := by
    rcases begun.batch with ⟨own, slot, rfl, -⟩ | ⟨-, rfl⟩ <;> exact ⟨rfl, rfl, no_scratch⟩
  obtain ⟨same_dev, same_app, no_scratch'⟩ := same_batch
  refine Inv.turn inv begun.turn sound (.inr ?_) (.inl used) ?_ (.inl rfl) ?_ ?_
    (.inl begun.keeps) ?_
  · rw [phase]
    exact ⟨congrArg some same_dev, rfl, congrArg (fun pc => [pc]) same_app⟩
  · intro dev' dropping
    rw [phase] at dropping
    cases dropping
  · intro pc what has
    simp [own, no_scratch'] at has
  · refine ⟨no_scratch', fun is_own => ?_, fun is_not => ?_⟩
    · rcases begun.batch with ⟨own, slot, -, null⟩ | ⟨-, rfl⟩
      · exact same_app.trans null
      · rw [not_own] at is_own
        cases is_own
    · rcases begun.slot with ⟨-, same⟩ | ⟨is_own, -⟩
      · rw [same, same_app]
        exact slot_app
      · rw [is_not] at is_own
        cases is_own
  · rintro b'' ⟨flight, is_own⟩
    obtain rfl : b' = b'' := by simpa [Phase.inFlight] using flight
    rcases begun.slot with ⟨same, -⟩ | ⟨-, nonzero, unused, c, found, used', is_pc⟩
    · rw [same, not_own] at is_own
      cases is_own
    · rw [same_dev]
      refine ⟨⟨nonzero, c, found, used', is_pc⟩, fun t' b₂ _ masters same => ?_⟩
      obtain ⟨-, c₂, found₂, used₂, -⟩ := inv.batches.master masters
      rw [unused c₂ (same ▸ found₂)] at used₂
      cases used₂

private theorem safe_begun (inv : Inv s) (phase : s.threads t = .begun b) : Safe p s t := by
  have used : (s.threads t).uses = some b.dev := by rw [phase]; rfl
  obtain ⟨n, device⟩ := Inv.device_used inv used
  have shape := inv.batches.shaped t
  rw [phase] at shape
  obtain ⟨no_scratch, own_null, slot_app⟩ := shape
  have not_dropping : ∀ dev, s.threads t ≠ .droppingDevice dev := by simp [phase]
  have shaped : Shaped (.ready b) := by
    refine ⟨fun is_own => ⟨own_null is_own, no_scratch⟩, fun app => ⟨?_, no_scratch⟩,
      fun is_not null => ?_⟩
    · refine slot_app (Bool.eq_false_iff.mpr fun is_own => app (own_null is_own))
    · rw [slot_app is_not, null, no_scratch]
  have unchanged : Inv (s.moved t s.cache (.ready b) .nothing s.world) := by
    refine Inv.quiet inv rfl (.inr ?_) not_dropping ?_ shaped ?_
    · rw [phase]
      exact ⟨rfl, rfl, rfl⟩
    · rw [phase]
      rfl
    · rintro b' ⟨flight, is_own⟩
      rw [phase]
      exact ⟨b', ⟨flight, is_own⟩, rfl, rfl⟩
  rw [Safe, phase]
  simp only [advance, batchScratch, Prog.ensures_bind]
  split_ifs with wanted
  · obtain ⟨not_own, null, -⟩ := wanted
    simp only [Prog.ensures_bind, Prog.ensures_call]
    refine ⟨by rintro _ _ ⟨⟩, fun made w' answered => ?_⟩
    cases made with
    | none =>
        obtain rfl : w' = _ := answered
        exact unchanged
    | some pc =>
        obtain ⟨nonzero, fresh, rfl⟩ := answered
        refine Inv.still inv rfl (inv.sound.addCache nonzero _ _) ?_ ?_ ?_ ?_
        · refine owned_gain (t := t) inv.owned rfl device fresh rfl (fun t' ne => ?_) rfl ?_
          · exact congrArg own (Function.update_of_ne ne _ _)
          · simp [State.moved, State.receive, own, nonzero]
        · refine Inv.usage_advance inv rfl rfl (.inr ?_) not_dropping
          rw [phase]
          exact ⟨rfl, rfl, rfl⟩
        · refine ⟨fun is_own => ?_, fun app => absurd null app, fun _ _ => rfl⟩
          cases not_own.symm.trans is_own
        · rintro b' ⟨flight, is_own⟩
          obtain rfl := Option.some.inj flight
          cases not_own.symm.trans is_own
  · exact unchanged

private theorem Inv.batch_on {b' : Batch} {phase' : Phase} (inv : Inv s)
    (flight : (s.threads t).inFlight = some b) (flight' : phase'.inFlight = some b')
    (same : b' = { b with t0 := b'.t0, dt := b'.dt })
    (goes_on : phase'.uses = (s.threads t).uses ∧ claims phase' = claims (s.threads t) ∧
      phase'.lent = (s.threads t).lent)
    (not_dropping : ∀ dev, s.threads t ≠ .droppingDevice dev)
    (same_own : own phase' = own (s.threads t)) (shaped : Shaped phase') :
    Inv (s.moved t s.cache phase' .nothing s.world) := by
  refine Inv.quiet inv rfl (.inr goes_on) not_dropping same_own shaped ?_
  rintro b₂ ⟨is_b, is_own⟩
  obtain rfl : b' = b₂ := Option.some.inj (flight'.symm.trans is_b)
  rw [same] at is_own ⊢
  exact ⟨b, ⟨flight, is_own⟩, rfl, rfl⟩

private theorem Inv.slot_holder (inv : Inv s)
    (phase : s.threads t = .ready b ∨ s.threads t = .compiling b) (nonzero : b.cacheSlot ≠ 0) :
    (Masters (s.threads t) b ∧ Holds s (.slot b.dev) b.cacheSlot (b.dev, .shim)) ∨
      Holds s (.thread t) b.cacheSlot (b.dev, .shim) ∨
      b.cacheSlot = b.appCache ∧ b.appCache ≠ 0 ∧ Holds s .app b.cacheSlot (b.dev, .app) := by
  have shape : Shaped (.ready b) := by
    have shape := inv.batches.shaped t
    rcases phase with phase | phase <;> rwa [phase] at shape
  obtain ⟨-, app_slot, scratch_slot⟩ := shape
  by_cases app : b.appCache = 0
  · cases is_own : b.ownMaster with
    | true =>
        have masters : Masters (s.threads t) b := by
          rcases phase with phase | phase <;> exact ⟨by rw [phase]; rfl, is_own⟩
        obtain ⟨-, c, found, -, is_pc⟩ := inv.batches.master masters
        refine .inl ⟨masters, ?_, rfl⟩
        rw [slotHandles_some found, mem_handles]
        exact .inl ⟨is_pc.symm, is_pc ▸ nonzero⟩
    | false =>
        have slot := scratch_slot is_own app
        rw [slot] at nonzero ⊢
        refine .inr (.inl ?_)
        rcases phase with phase | phase <;> simp [Holds, phase, own, nonzero]
  · have slot := (app_slot app).1
    have used : (s.threads t).uses = some b.dev := by
      rcases phase with phase | phase <;> rw [phase] <;> rfl
    have lent : b.appCache ∈ (s.threads t).lent := by
      rcases phase with phase | phase <;> rw [phase] <;> exact List.mem_singleton.mpr rfl
    refine .inr (.inr ⟨slot, app, ?_⟩)
    rw [slot]
    exact ⟨inv.usage.lent used lent app, rfl⟩

private theorem Inv.slot_allowed (inv : Inv s) (phase : s.threads t = .ready b)
    (nonzero : b.cacheSlot ≠ 0) : ¬ Busy s t b.cacheSlot ∧
      (b.cacheSlot ∈ given (s.threads t) ∨ kind s.world b.cacheSlot = some (b.dev, .shim)) := by
  rcases Inv.slot_holder inv (.inl phase) nonzero with
    ⟨masters, held⟩ | mine | ⟨slot, -, theirs⟩
  · refine ⟨Inv.free inv (fun t' b' ne other same => ?_) _ held.1, .inr (inv.owned.right held)⟩
    exact ne (inv.batches.master_once other masters same)
  · exact ⟨Inv.not_busy inv mine (by simp), .inr (inv.owned.right mine)⟩
  · refine ⟨Inv.not_busy inv theirs (by simp), .inl ?_⟩
    rw [phase, slot]
    exact List.mem_singleton.mpr rfl

private theorem safe_ready (inv : Inv s) (phase : s.threads t = .ready b) : Safe p s t := by
  have shape := inv.batches.shaped t
  have allowed := Inv.slot_allowed inv phase
  rw [phase] at shape allowed
  rw [Safe, phase]
  simp only [advance, batchCompile, Prog.ensures_bind, Prog.ensures_call]
  refine ⟨Quiet.proper trivial, fun now w₁ quiet => ?_⟩
  obtain rfl : w₁ = s.world := quiet
  refine ⟨?_, fun r w₂ compiles => ?_⟩
  · rintro _ _ ⟨⟩ pc member nonzero
    obtain rfl : pc = b.cacheSlot := by simpa using member
    rw [phase]
    exact allowed nonzero
  · obtain rfl : w₂ = s.world := compiles
    have same_batch : { b with t0 := now } = { b with t0 := now, dt := b.dt } := rfl
    exact Inv.batch_on inv (by rw [phase]; rfl) rfl same_batch
      (by rw [phase]; exact ⟨rfl, rfl, rfl⟩) (by simp [phase]) (by rw [phase]; rfl) shape

private theorem safe_compiling (inv : Inv s) (phase : s.threads t = .compiling b) :
    Safe p s t := by
  have shape := inv.batches.shaped t
  rw [phase] at shape
  rw [Safe, phase]
  simp only [advance, batchCompiled, Prog.ensures_bind, Prog.ensures_call]
  refine ⟨Quiet.proper trivial, fun now w₁ quiet => ?_⟩
  obtain rfl : w₁ = s.world := quiet
  exact Inv.batch_on inv (by rw [phase]; rfl) rfl rfl (by rw [phase]; exact ⟨rfl, rfl, rfl⟩)
    (by simp [phase]) (by rw [phase]; rfl) shape

private theorem Inv.batchEnds (inv : Inv s) (phase : s.threads t = .compiled b) :
    BatchEnds (Busy s t) (· ∈ given (s.threads t)) s.cache.devCaches s.world b := by
  have used : (s.threads t).uses = some b.dev := by rw [phase]; rfl
  obtain ⟨n, device⟩ := Inv.device_used inv used
  refine ⟨Inv.ready inv device, fun is_own => ?_, fun some_scratch => ?_, fun app => ?_⟩
  · have masters : Masters (s.threads t) b := by rw [phase]; exact ⟨rfl, is_own⟩
    refine Inv.free inv fun t' b' ne other same => ?_
    exact ne (inv.batches.master_once other masters same)
  · have mine : Holds s (.thread t) b.scratch (b.dev, .shim) := by
      simp [Holds, phase, own, some_scratch]
    refine ⟨inv.owned.right mine, Inv.not_busy inv mine (by simp), fun member => ?_⟩
    have slot : Holds s (.slot b.dev) b.scratch (b.dev, .shim) := ⟨member, rfl⟩
    cases inv.owned.alone mine slot
  · have lent : b.appCache ∈ (s.threads t).lent := by
      rw [phase]
      exact List.mem_singleton.mpr rfl
    have theirs : Holds s .app b.appCache (b.dev, .app) := ⟨inv.usage.lent used lent app, rfl⟩
    refine ⟨?_, Inv.not_busy inv theirs (by simp)⟩
    rw [phase]
    exact List.mem_singleton.mpr rfl

private theorem safe_compiled (inv : Inv s) (phase : s.threads t = .compiled b) :
    Safe p s t := by
  have used : (s.threads t).uses = some b.dev := by rw [phase]; rfl
  have ends := Inv.batchEnds inv phase
  have shape := inv.batches.shaped t
  rw [phase] at shape
  obtain ⟨own_bare, app_bare, -⟩ := shape
  have step := (ensures_batchEnd (p := p) ends (fun is_own => (own_bare is_own).2)
    (fun app => (app_bare app).2)).and_invariant keep_sound inv.sound
  rw [Safe, phase]
  simp only [advance, Prog.ensures_bind]
  refine step.mono ?_
  rintro ⟨k', b'⟩ w' ⟨ended, sound⟩
  obtain ⟨left, rfl, kept⟩ := ended.batch
  refine Inv.turn inv ended.turn sound (.inr ?_) (.inl used) ?_ ?_ ?_ trivial ?_ ?_
  · rw [phase]
    exact ⟨rfl, rfl, rfl⟩
  · intro dev' dropping
    rw [phase] at dropping
    cases dropping
  · by_cases none_left : b.scratch = 0
    · exact .inl none_left
    · refine .inr ?_
      rw [phase]
      simp [own, none_left]
  · intro pc what has
    by_cases none_left : left = 0
    · simp [own, none_left] at has
    · obtain ⟨same, apart⟩ := kept.resolve_left none_left
      obtain ⟨rfl, rfl⟩ : left = pc ∧ (b.dev, Owner.shim) = what := by
        simpa [own, none_left] using has
      rw [phase]
      exact ⟨by simp [own, ← same, none_left], same ▸ apart⟩
  · cases is_own : b.ownMaster with
    | false => exact .inl (ended.keeps is_own)
    | true =>
        have masters : Masters (s.threads t) b := by rw [phase]; exact ⟨rfl, is_own⟩
        exact .inr fun t' b' ne other same => ne (inv.batches.master_once other masters same)
  · rintro b'' ⟨⟨⟩, -⟩

private theorem safe_ended (inv : Inv s) (phase : s.threads t = .ended b) : Safe p s t := by
  have not_dropping : ∀ dev, s.threads t ≠ .droppingDevice dev := by simp [phase]
  have no_master : ∀ b', Masters .idle b' → ∃ b'', Masters (s.threads t) b'' ∧
      b''.dev = b'.dev ∧ b''.cacheSlot = b'.cacheSlot := by
    rintro b' ⟨⟨⟩, -⟩
  rw [Safe, phase]
  simp only [advance, batchRelease, Prog.ensures_bind]
  by_cases none_left : b.scratch = 0
  · rw [if_neg (by simp [none_left])]
    refine Inv.quiet inv rfl (.inl rfl) not_dropping ?_ trivial no_master
    rw [phase]
    simp [own, none_left]
  · have mine : Holds s (.thread t) b.scratch (b.dev, .shim) := by
      simp [Holds, phase, own, none_left]
    split_ifs with able
    · refine ⟨?_, fun _ w' destroyed => ?_⟩
      · rintro _ _ ⟨⟩ pc member -
        obtain rfl : pc = b.scratch := by simpa using member
        exact ⟨Inv.not_busy inv mine (by simp), .inr (inv.owned.right mine)⟩
      · obtain rfl : w' = _ := destroyed
        refine Inv.still inv rfl (inv.sound.removeCache _) ?_
          (Inv.usage_advance inv rfl rfl (.inl rfl) not_dropping) trivial no_master
        refine owned_lose (t := t) inv.owned rfl mine rfl (fun t' ne => ?_) rfl ?_
        · exact congrArg own (Function.update_of_ne ne _ _)
        · simp [State.moved, State.receive, own]
    · -- without vkDestroyPipelineCache the cache is left to the driver
      refine Inv.still inv rfl inv.sound ?_
        (Inv.usage_advance inv rfl rfl (.inl rfl) not_dropping) trivial no_master
      refine owned_exchange (t := t) inv.owned rfl rfl (fun t' ne => ?_) ?_ ?_ ?_
      · exact congrArg own (Function.update_of_ne ne _ _)
      · intro pc what has
        simp [State.moved, State.receive, own] at has
      · exact fun pc dev has => .inl has
      · intro pc what has
        simp [State.moved, State.receive, own] at has

end Batch

section AppCaches

variable {p : Process} {s : State} {t : Nat} {dev : VkDevice} {pc out : VkPipelineCache}

private theorem idle_masters {phase : Phase} (b : Batch) (masters : Masters .idle b) :
    ∃ b', Masters phase b' ∧ b'.dev = b.dev ∧ b'.cacheSlot = b.cacheSlot := by
  obtain ⟨⟨⟩, -⟩ := masters

private theorem Inv.handOver (inv : Inv s) (phase : s.threads t = .created dev out) :
    Inv (s.moved t s.cache .idle (.cache dev out) s.world) := by
  have used : (s.threads t).uses = some dev := by rw [phase]; rfl
  have mine : own (s.threads t) = some (out, dev, .app) := by rw [phase]; rfl
  have unknown : s.appCaches out = none := by
    cases known : s.appCaches out with
    | none => rfl
    | some d =>
        have theirs : Holds s .app out (d, .app) := ⟨known, rfl⟩
        have ours : Holds s (.thread t) out (dev, .app) := mine
        cases inv.owned.alone theirs ours
  refine Inv.still inv rfl inv.sound ?_ ?_ trivial idle_masters
  · refine owned_exchange (t := t) inv.owned rfl rfl (fun t' ne => ?_) ?_ ?_ ?_
    · exact congrArg own (Function.update_of_ne ne _ _)
    · intro h what has
      simp [State.moved, State.receive, own] at has
    · intro h d has
      rcases eq_or_ne h out with rfl | ne
      · obtain rfl : dev = d := by simpa [State.moved, State.receive] using has
        exact .inr mine
      · exact .inl (by simpa [State.moved, State.receive, Function.update_of_ne ne] using has)
    · intro h what has
      simp [State.moved, State.receive, own] at has
  · have usage : Usage (s.moved t s.cache .idle .nothing s.world) :=
      Inv.usage_advance inv rfl rfl (.inl rfl) (by simp [phase])
    exact usage.receive_cache (inv.usage.uses used) unknown

private theorem Inv.handOver_moved {k' : CacheState} {w' : World}
    (inv : Inv (s.moved t k' (.created dev out) .nothing w')) :
    Inv (s.moved t k' .idle (.cache dev out) w') := by
  have phase : (s.moved t k' (.created dev out) .nothing w').threads t = .created dev out :=
    Function.update_self ..
  have after := Inv.handOver inv phase
  simpa [State.moved, State.receive] using after

private theorem safe_creating {initial : Bytes} (inv : Inv s)
    (phase : s.threads t = .creating dev initial) : Safe p s t := by
  have used : (s.threads t).uses = some dev := by rw [phase]; rfl
  obtain ⟨n, device⟩ := Inv.device_used inv used
  have not_dropping : ∀ dev, s.threads t ≠ .droppingDevice dev := by simp [phase]
  rw [Safe, phase]
  simp only [advance, createAppCache, Prog.ensures_bind, Prog.ensures_call]
  refine ⟨by rintro _ _ ⟨⟩, fun made w' answered => ?_⟩
  cases made with
  | none =>
      obtain rfl : w' = s.world := answered
      refine Inv.quiet inv rfl (.inl rfl) not_dropping ?_ trivial idle_masters
      rw [phase]
      rfl
  | some out =>
      obtain ⟨nonzero, fresh, rfl⟩ := answered
      have kept : ∀ gate, Inv (s.moved t { s.cache with cachePrime := gate } (.created dev out)
          .nothing (s.world.addCache out dev .app)) := by
        intro gate
        refine Inv.still inv rfl (inv.sound.addCache nonzero _ _) ?_ ?_ trivial ?_
        · refine owned_gain (t := t) inv.owned rfl device fresh rfl (fun t' ne => ?_) rfl ?_
          · exact congrArg own (Function.update_of_ne ne _ _)
          · simp [State.moved, State.receive, own]
        · refine Inv.usage_advance inv rfl rfl (.inr ?_) not_dropping
          rw [phase]
          exact ⟨rfl, rfl, rfl⟩
        · rintro b ⟨⟨⟩, -⟩
      simp only [Prog.ensures_bind]
      refine (ensures_quiet (always_readPropOn _ _)).mono ?_
      rintro ⟨prime, gate⟩ _ ⟨-, rfl⟩
      cases prime with
      | true => exact kept gate
      | false => exact Inv.handOver_moved (kept gate)

private theorem safe_created (inv : Inv s) (phase : s.threads t = .created dev out) :
    Safe p s t := by
  have used : (s.threads t).uses = some dev := by rw [phase]; rfl
  obtain ⟨n, device⟩ := Inv.device_used inv used
  have mine : Holds s (.thread t) out (dev, .app) := by simp [Holds, phase, own]
  have out_given : out ∈ given (s.threads t) := by
    rw [phase]
    exact List.mem_singleton.mpr rfl
  rw [Safe, phase]
  simp only [advance, Prog.ensures_bind]
  refine ((ensures_primeAppCache (Inv.ready inv device) out_given
    (Inv.not_busy inv mine (by simp))).and_invariant keep_sound inv.sound).mono ?_
  rintro k' w' ⟨⟨turn, keeps, -⟩, sound⟩
  refine Inv.handOver_moved (Inv.turn inv turn sound (.inr ?_) (.inl used) ?_ (.inl rfl) ?_
    trivial (.inl keeps) ?_)
  · rw [phase]
    exact ⟨rfl, rfl, rfl⟩
  · intro dev' dropping
    rw [phase] at dropping
    cases dropping
  · intro pc what has
    refine ⟨by rw [phase]; exact has, fun member => ?_⟩
    obtain ⟨rfl, rfl⟩ : out = pc ∧ (dev, Owner.app) = what := by simpa [own] using has
    have kind_slot := turn.right _ member
    have there : s.world.caches out ≠ none := by
      intro gone
      have live := inv.owned.right mine
      rw [kind, gone] at live
      cases live
    rcases turn.kept out there with same | before
    · have still : kind w' out = kind s.world out := by simp only [kind, same]
      rw [still, inv.owned.right mine] at kind_slot
      cases kind_slot
    · have slot : Holds s (.slot dev) out (dev, .shim) := ⟨before, rfl⟩
      cases inv.owned.alone mine slot
  · rintro b ⟨⟨⟩, -⟩

private theorem Inv.lent_allowed (inv : Inv s) (used : (s.threads t).uses = some dev)
    (lent : pc ∈ (s.threads t).lent) (is_given : pc ∈ given (s.threads t)) (nonzero : pc ≠ 0) :
    ¬ Busy s t pc ∧ (pc ∈ given (s.threads t) ∨ kind s.world pc = some (dev, .shim)) := by
  have theirs : Holds s .app pc (dev, .app) := ⟨inv.usage.lent used lent nonzero, rfl⟩
  exact ⟨Inv.not_busy inv theirs (by simp), .inl is_given⟩

private theorem Inv.returned (inv : Inv s) {k' : CacheState}
    (table : k'.devCaches = s.cache.devCaches) (none_own : own (s.threads t) = none)
    (not_dropping : ∀ dev, s.threads t ≠ .droppingDevice dev) :
    Inv (s.moved t k' .idle .nothing s.world) := by
  refine Inv.quiet inv table (.inl rfl) not_dropping ?_ trivial idle_masters
  rw [none_own]
  rfl

private theorem safe_merging {dst : VkPipelineCache} {srcs : List VkPipelineCache} (inv : Inv s)
    (phase : s.threads t = .merging dev dst srcs) : Safe p s t := by
  have used : (s.threads t).uses = some dev := by rw [phase]; rfl
  have allowed : ∀ pc ∈ dst :: srcs, pc ≠ 0 → ¬ Busy s t pc ∧
      (pc ∈ given (s.threads t) ∨ kind s.world pc = some (dev, .shim)) := by
    intro pc member
    exact Inv.lent_allowed inv used (by rw [phase]; exact member) (by rw [phase]; exact member)
  rw [Safe, phase]
  refine ⟨?_, fun _ w' merged => ?_⟩
  · rintro _ _ ⟨⟩
    exact allowed
  · obtain rfl : w' = s.world := merged
    exact Inv.returned inv rfl (by rw [phase]; rfl) (by simp [phase])

private theorem safe_reading {room : Option Nat} (inv : Inv s)
    (phase : s.threads t = .reading dev pc room) : Safe p s t := by
  have used : (s.threads t).uses = some dev := by rw [phase]; rfl
  have allowed : ∀ h ∈ [pc], h ≠ 0 → ¬ Busy s t h ∧
      (h ∈ given (s.threads t) ∨ kind s.world h = some (dev, .shim)) := by
    intro h member
    exact Inv.lent_allowed inv used (by rw [phase]; exact member) (by rw [phase]; exact member)
  rw [Safe, phase]
  cases room with
  | none =>
      refine ⟨?_, fun _ w' read => ?_⟩
      · rintro _ _ ⟨⟩
        exact allowed
      · obtain rfl : w' = s.world := read
        exact Inv.returned inv rfl (by rw [phase]; rfl) (by simp [phase])
  | some room =>
      refine ⟨?_, fun _ w' read => ?_⟩
      · rintro _ _ ⟨⟩
        exact allowed
      · obtain rfl : w' = s.world := read
        exact Inv.returned inv rfl (by rw [phase]; rfl) (by simp [phase])

private theorem safe_destroying (inv : Inv s) (phase : s.threads t = .destroying dev pc) :
    Safe p s t := by
  have not_dropping : ∀ dev, s.threads t ≠ .droppingDevice dev := by simp [phase]
  have mine : pc ≠ 0 → Holds s (.thread t) pc (dev, .app) := by
    intro nonzero
    simp [Holds, phase, own, nonzero]
  rw [Safe, phase]
  refine ⟨?_, fun _ w' destroyed => ?_⟩
  · rintro _ _ ⟨⟩ h member nonzero
    obtain rfl : h = pc := by simpa using member
    refine ⟨Inv.not_busy inv (mine nonzero) (by simp), .inl ?_⟩
    rw [phase]
    exact List.mem_singleton.mpr rfl
  · obtain rfl : w' = s.world.removeCache pc := destroyed
    by_cases null : pc = 0
    · have same : s.world.removeCache pc = s.world := by
        have none_there : s.world.caches pc = none := by
          cases there : s.world.caches pc with
          | none => rfl
          | some b => exact absurd null (inv.sound.cache there).1
        simp only [World.removeCache, ← none_there, Function.update_eq_self]
      rw [same]
      exact Inv.returned inv rfl (by rw [phase]; simp [own, null]) not_dropping
    · refine Inv.still inv rfl (inv.sound.removeCache _) ?_
        (Inv.usage_advance inv rfl rfl (.inl rfl) not_dropping) trivial idle_masters
      refine owned_lose (t := t) inv.owned rfl (mine null) rfl (fun t' ne => ?_) rfl ?_
      · exact congrArg own (Function.update_of_ne ne _ _)
      · simp [State.moved, State.receive, own]

end AppCaches

section Devices

variable {p : Process} {s : State} {t : Nat} {dev : VkDevice}

theorem Inv.no_slot (inv : Inv s) (claim : claims (s.threads t) = some dev)
    (not_dropping : s.threads t ≠ .droppingDevice dev) :
    cacheLookup s.cache.devCaches dev = none := by
  cases lookup : cacheLookup s.cache.devCaches dev with
  | none => rfl
  | some i =>
      rcases inv.usage.present (slotOf_some lookup) with held | ⟨t', dropping⟩
      · rw [(inv.usage.claimed claim).1] at held
        cases held
      · have also : claims (s.threads t') = some dev := by rw [dropping]; rfl
        obtain rfl := inv.usage.claimed_once claim also
        exact absurd dropping not_dropping

private theorem safe_makingDevice (inv : Inv s) (phase : s.threads t = .makingDevice) :
    Safe p s t := by
  rw [Safe, phase]
  refine ⟨by rintro _ _ ⟨⟩, fun made w' answered => ?_⟩
  cases made with
  | none =>
      obtain rfl : w' = s.world := answered
      exact Inv.returned inv rfl (by rw [phase]; rfl) (by simp [phase])
  | some dev =>
      obtain ⟨handle, fresh, rfl⟩ := answered
      have unclaimed : ∀ {t'}, claims (s.threads t') ≠ some dev := by
        intro t' claim
        obtain ⟨-, n, there⟩ := inv.usage.claimed claim
        cases fresh.symm.trans there
      have unheld : s.devices dev = false := by
        cases held : s.devices dev with
        | false => rfl
        | true =>
            obtain ⟨n, there⟩ := inv.usage.live held
            cases fresh.symm.trans there
      have still : ∀ {other n}, s.world.devices other = some n →
          (s.world.addDevice dev).devices other = some n := by
        intro other n there
        have ne : other ≠ dev := by
          rintro rfl
          cases fresh.symm.trans there
        rw [World.devices_addDevice ne, there]
      refine Inv.still inv rfl (inv.sound.addDevice handle fresh) ?_ ?_ trivial ?_
      · refine owned_same inv.owned (fun _ => rfl) (fun t' => ?_) rfl rfl
        rcases eq_or_ne t' t with rfl | ne
        · simp [State.moved, State.receive, phase, own]
        · exact congrArg own (Function.update_of_ne ne _ _)
      · have me : (s.moved t s.cache (.madeDevice dev) .nothing
            (s.world.addDevice dev)).threads t = .madeDevice dev := Function.update_self ..
        refine inv.usage.change (t := t) (fun ne => Function.update_of_ne ne _ _) ?_ ?_ ?_ ?_ ?_ ?_
          inv.usage.app
        · intro other held
          obtain ⟨n, there⟩ := inv.usage.live held
          exact ⟨n, still there⟩
        · intro other used
          rw [me] at used
          cases used
        · exact fun _ used => ⟨inv.usage.uses used, fun _ _ _ known => known⟩
        · intro other claim
          rw [me] at claim
          obtain rfl : dev = other := Option.some.inj claim
          exact ⟨⟨unheld, s.world.incarnations, Function.update_self ..⟩, fun _ _ => unclaimed⟩
        · intro t' other _ claim
          obtain ⟨free, n, there⟩ := inv.usage.claimed claim
          exact ⟨free, n, still there⟩
        · exact fun found => (inv.usage.present_other found (by simp [phase])).imp_right .inr
      · rintro b ⟨⟨⟩, -⟩

private theorem safe_madeDevice (inv : Inv s) (phase : s.threads t = .madeDevice dev) :
    Safe p s t := by
  have claim : claims (s.threads t) = some dev := by rw [phase]; rfl
  obtain ⟨-, live⟩ := inv.usage.claimed claim
  have unslotted := Inv.no_slot inv claim (by simp [phase])
  have ended : Usage (s.moved t s.cache .idle .nothing s.world) :=
    Inv.usage_advance inv rfl rfl (.inl rfl) (by simp [phase])
  rw [Safe, phase]
  simp only [advance, unslotted, dropDiskCache]
  refine Inv.still inv rfl inv.sound ?_ ?_ trivial idle_masters
  · refine owned_same inv.owned (fun _ => rfl) (fun t' => ?_) rfl rfl
    rcases eq_or_ne t' t with rfl | ne
    · simp [State.moved, State.receive, phase, own]
    · exact congrArg own (Function.update_of_ne ne _ _)
  · have others : ∀ {t' other}, claims (Function.update s.threads t .idle t') = some other →
        other ≠ dev := by
      rintro t' other other_claim rfl
      rcases eq_or_ne t' t with rfl | ne
      · rw [Function.update_self] at other_claim
        cases other_claim
      · rw [Function.update_of_ne ne] at other_claim
        exact ne (inv.usage.claimed_once other_claim claim)
    have held_on : ∀ {other}, s.devices other = true →
        Function.update s.devices dev true other = true := by
      intro other held
      rcases eq_or_ne other dev with rfl | ne
      · exact Function.update_self ..
      · rwa [Function.update_of_ne ne]
    refine ⟨?_, fun used => held_on (ended.uses used), ?_, ended.claimed_once, ?_,
      fun has => held_on (ended.app has), ended.lent⟩
    · intro other held
      rcases eq_or_ne other dev with rfl | ne
      · exact live
      · exact ended.live
          (by simpa [State.moved, State.receive, Function.update_of_ne ne] using held)
    · intro t' other other_claim
      obtain ⟨free, there⟩ := ended.claimed other_claim
      refine ⟨?_, there⟩
      exact (Function.update_of_ne (others other_claim) _ _).trans free
    · intro other c found
      exact (ended.present found).imp held_on id

private theorem safe_droppingDevice (inv : Inv s) (phase : s.threads t = .droppingDevice dev) :
    Safe p s t := by
  have claim : claims (s.threads t) = some dev := by rw [phase]; rfl
  obtain ⟨free, n, device⟩ := inv.usage.claimed claim
  have alone : ∀ t' b, t' ≠ t → Masters (s.threads t') b → b.dev ≠ dev := by
    rintro t' b - masters rfl
    rw [inv.usage.uses (masters_uses masters)] at free
    cases free
  rw [Safe, phase]
  simp only [advance, Prog.ensures_bind]
  refine ((ensures_dropDiskCache (Inv.ready inv device) (Inv.free inv alone)).and_invariant
    keep_sound inv.sound).mono ?_
  rintro k' w' ⟨⟨turn, gone, -⟩, sound⟩
  refine Inv.turn inv turn sound (.inr ?_) (.inr gone) ?_ (.inl rfl) ?_ trivial (.inr alone) ?_
  · rw [phase]
    exact ⟨rfl, rfl, rfl⟩
  · intro dev' dropping
    rw [phase] at dropping
    cases dropping
    exact ⟨rfl, gone⟩
  · rintro pc what ⟨⟩
  · rintro b ⟨⟨⟩, -⟩

theorem own_uses {phase : Phase} {pc : VkPipelineCache} {what : VkDevice × Owner}
    (has : own phase = some (pc, what)) : phase.uses = some what.1 := by
  cases phase <;> simp only [own, Phase.uses] at has ⊢
  all_goals first
    | (split_ifs at has; cases has; rfl)
    | (cases has; rfl)
    | cases has

private theorem safe_droppedDevice (inv : Inv s) (phase : s.threads t = .droppedDevice dev) :
    Safe p s t := by
  have claim : claims (s.threads t) = some dev := by rw [phase]; rfl
  have free := (inv.usage.claimed claim).1
  have unslotted := Inv.no_slot inv claim (by simp [phase])
  have ended : Usage (s.moved t s.cache .idle .nothing s.world) :=
    Inv.usage_advance inv rfl rfl (.inl rfl) (by simp [phase])
  have elsewhere : ∀ {other}, s.devices other = true → other ≠ dev := by
    rintro other held rfl
    cases free.symm.trans held
  rw [Safe, phase]
  refine ⟨by rintro _ _ ⟨⟩, fun _ w' destroyed => ?_⟩
  obtain rfl : w' = s.world.removeDevice dev := destroyed
  refine Inv.still inv rfl (inv.sound.removeDevice dev) ?_ ?_ trivial idle_masters
  · refine owned_removeDevice inv.owned ?_ rfl ?_
    · intro x pc what has
      cases x with
      | slot other => exact has
      | thread t' =>
          rcases eq_or_ne t' t with rfl | ne
          · simp [Holds, State.moved, State.receive, own] at has
          · simpa [Holds, State.moved, State.receive, Function.update_of_ne ne] using has
      | app => exact has
    · intro x pc what has
      cases x with
      | slot other =>
          obtain ⟨member, rfl⟩ := has
          rintro rfl
          simp [slotHandles, slotOf, unslotted] at member
      | thread t' => exact elsewhere (inv.usage.uses (own_uses has))
      | app => exact elsewhere (inv.usage.app has.1)
  · refine ⟨?_, ended.uses, ?_, ended.claimed_once, ended.present, ended.app, ended.lent⟩
    · intro other held
      obtain ⟨n, there⟩ := ended.live held
      exact ⟨n, (World.devices_removeDevice (elsewhere held)).trans there⟩
    · intro t' other other_claim
      obtain ⟨other_free, n, there⟩ := ended.claimed other_claim
      have ne : other ≠ dev := by
        rintro rfl
        rcases eq_or_ne t' t with rfl | not_me
        · simp [State.moved, State.receive, claims] at other_claim
        · have old : claims (s.threads t') = some other := by
            simpa [State.moved, State.receive, Function.update_of_ne not_me] using other_claim
          exact not_me (inv.usage.claimed_once old claim)
      exact ⟨other_free, n, (World.devices_removeDevice ne).trans there⟩

/-- Whatever a thread does next is allowed, and keeps the books. -/
theorem safe_advance (inv : Inv s) : Safe p s t := by
  cases phase : s.threads t with
  | idle =>
      rw [Safe, phase]
      exact Inv.returned inv rfl (by rw [phase]; rfl) (by simp [phase])
  | arrived b => exact safe_arrived inv phase
  | begun b => exact safe_begun inv phase
  | ready b => exact safe_ready inv phase
  | compiling b => exact safe_compiling inv phase
  | compiled b => exact safe_compiled inv phase
  | ended b => exact safe_ended inv phase
  | creating dev initial => exact safe_creating inv phase
  | created dev out => exact safe_created inv phase
  | merging dev dst srcs => exact safe_merging inv phase
  | reading dev pc room => exact safe_reading inv phase
  | destroying dev pc => exact safe_destroying inv phase
  | makingDevice => exact safe_makingDevice inv phase
  | madeDevice dev => exact safe_madeDevice inv phase
  | droppingDevice dev => exact safe_droppingDevice inv phase
  | droppedDevice dev => exact safe_droppedDevice inv phase

end Devices

section Entries

variable {p : Process} {s : State} {t : Nat} {dev : VkDevice} {pc : VkPipelineCache}

private theorem Inv.entered {phase' : Phase} (inv : Inv s) (idle : s.threads t = .idle)
    (held : ∀ dev, phase'.uses = some dev → s.devices dev = true ∧
      ∀ pc ∈ phase'.lent, pc ≠ 0 → s.appCaches pc = some dev)
    (unclaimed : claims phase' = none) (bare : own phase' = none) (shaped : Shaped phase')
    (no_masters : ∀ b, ¬ Masters phase' b) :
    Inv (s.moved t s.cache phase' .nothing s.world) := by
  refine Inv.still inv rfl inv.sound ?_ ?_ shaped fun b masters => absurd masters (no_masters b)
  · refine owned_same inv.owned (fun _ => rfl) (fun t' => ?_) rfl rfl
    rcases eq_or_ne t' t with rfl | ne
    · rw [moved_threads, Function.update_self, bare, idle]
      rfl
    · exact congrArg own (Function.update_of_ne ne _ _)
  · have me : (s.moved t s.cache phase' .nothing s.world).threads t = phase' :=
      Function.update_self ..
    refine inv.usage.change (t := t) (fun ne => Function.update_of_ne ne _ _) inv.usage.live ?_
      ?_ ?_ ?_ ?_ inv.usage.app
    · intro dev used
      rw [me] at used ⊢
      exact held dev used
    · exact fun _ used => ⟨inv.usage.uses used, fun _ _ _ known => known⟩
    · intro dev claim
      rw [me, unclaimed] at claim
      cases claim
    · exact fun _ claim => inv.usage.claimed claim
    · exact fun found => (inv.usage.present_other found (by simp [idle])).imp_right .inr

private theorem Inv.entered_destroy (inv : Inv s) (idle : s.threads t = .idle)
    (held : s.devices dev = true)
    (mine : pc = 0 ∨ s.appCaches pc = some dev ∧ ∀ t, pc ∉ (s.threads t).lent) :
    Inv (s.enter t (.destroyPipelineCache dev pc)) := by
  have others : ∀ {t'}, t' ≠ t → (s.enter t (.destroyPipelineCache dev pc)).threads t' =
      s.threads t' := fun ne => Function.update_of_ne ne _ _
  have me : (s.enter t (.destroyPipelineCache dev pc)).threads t = .destroying dev pc :=
    Function.update_self ..
  have forgotten : ∀ {h d}, (s.enter t (.destroyPipelineCache dev pc)).appCaches h = some d →
      h ≠ pc ∧ s.appCaches h = some d := by
    intro h d has
    have ne : h ≠ pc := by
      rintro rfl
      simp [State.enter] at has
    exact ⟨ne, by simpa [State.enter, Function.update_of_ne ne] using has⟩
  have batches : Batches (s.moved t s.cache (.destroying dev pc) .nothing s.world) :=
    inv.batches.advance trivial (fun _ _ _ _ c found used _ => ⟨c, found, used, rfl⟩)
      (by rintro b ⟨⟨⟩, -⟩)
  refine ⟨inv.keyed, inv.sound, ?_, inv.nodup, ?_, ?_⟩
  · refine owned_exchange (t := t) inv.owned rfl rfl (fun t' ne => ?_) ?_ ?_ ?_
    · rw [others ne]
    · intro h what has
      rw [me] at has
      by_cases null : pc = 0
      · simp [own, null] at has
      · obtain ⟨rfl, rfl⟩ : pc = h ∧ (dev, Owner.app) = what := by simpa [own, null] using has
        exact .inr ⟨(mine.resolve_left null).1, rfl⟩
    · exact fun h d has => .inl (forgotten has).2
    · intro h what has
      rw [me] at has
      by_cases null : pc = 0
      · simp [own, null] at has
      · obtain ⟨rfl, -⟩ : pc = h ∧ (dev, Owner.app) = what := by simpa [own, null] using has
        exact Function.update_self ..
  · refine inv.usage.change (t := t) others inv.usage.live ?_ ?_ ?_ ?_ ?_
      fun has => inv.usage.app (forgotten has).2
    · intro d used
      rw [me] at used ⊢
      obtain rfl : dev = d := Option.some.inj used
      exact ⟨held, by rintro _ ⟨⟩⟩
    · intro t' d _ used
      refine ⟨inv.usage.uses used, fun h member nonzero known => ?_⟩
      have not_pc : h ≠ pc := by
        rintro rfl
        exact (mine.resolve_left nonzero).2 t' member
      exact (Function.update_of_ne not_pc _ _).trans known
    · intro d claim
      rw [me] at claim
      cases claim
    · exact fun _ claim => inv.usage.claimed claim
    · exact fun found => (inv.usage.present_other found (by simp [idle])).imp_right .inr
  · exact ⟨batches.shaped, batches.master, batches.master_once⟩

private theorem Inv.entered_destroyDevice (inv : Inv s) (idle : s.threads t = .idle)
    (held : s.devices dev = true) (quiet : ∀ t, (s.threads t).uses ≠ some dev) :
    Inv (s.enter t (.destroyDevice dev)) := by
  have others : ∀ {t'}, t' ≠ t → (s.enter t (.destroyDevice dev)).threads t' = s.threads t' :=
    fun ne => Function.update_of_ne ne _ _
  have me : (s.enter t (.destroyDevice dev)).threads t = .droppingDevice dev :=
    Function.update_self ..
  have kept : ∀ {d}, d ≠ dev → (s.enter t (.destroyDevice dev)).devices d = s.devices d :=
    fun ne => Function.update_of_ne ne _ _
  have gone : (s.enter t (.destroyDevice dev)).devices dev = false := Function.update_self ..
  have unclaimed : ∀ {t'}, claims (s.threads t') ≠ some dev := by
    intro t' claim
    cases held.symm.trans (inv.usage.claimed claim).1
  have known : ∀ {h d}, (s.enter t (.destroyDevice dev)).appCaches h = some d ↔
      s.appCaches h = some d ∧ d ≠ dev := by
    intro h d
    simp [State.enter, Option.filter_eq_some_iff]
  have batches : Batches (s.moved t s.cache (.droppingDevice dev) .nothing s.world) :=
    inv.batches.advance trivial (fun _ _ _ _ c found used _ => ⟨c, found, used, rfl⟩)
      (by rintro b ⟨⟨⟩, -⟩)
  refine ⟨inv.keyed, inv.sound, ?_, inv.nodup, ?_, ?_⟩
  · refine owned_exchange (t := t) inv.owned rfl rfl (fun t' ne => ?_) ?_ ?_ ?_
    · rw [others ne]
    · intro h what has
      rw [me] at has
      cases has
    · exact fun h d has => .inl (known.mp has).1
    · intro h what has
      rw [me] at has
      cases has
  · refine inv.usage.change (t := t) others ?_ ?_ ?_ ?_ ?_ ?_ ?_
    · intro d is_held
      rcases eq_or_ne d dev with rfl | ne
      · cases gone.symm.trans is_held
      · exact inv.usage.live (kept ne ▸ is_held)
    · intro d used
      rw [me] at used
      cases used
    · intro t' d _ used
      have not_dev : d ≠ dev := by
        rintro rfl
        exact quiet t' used
      rw [kept not_dev]
      exact ⟨inv.usage.uses used, fun h _ _ has => known.mpr ⟨has, not_dev⟩⟩
    · intro d claim
      rw [me] at claim
      obtain rfl : dev = d := Option.some.inj claim
      exact ⟨⟨gone, inv.usage.live held⟩, fun t' _ => unclaimed⟩
    · intro t' d _ claim
      have ne : d ≠ dev := by
        rintro rfl
        exact unclaimed claim
      rw [kept ne]
      exact inv.usage.claimed claim
    · intro d c found
      rcases eq_or_ne d dev with rfl | ne
      · exact .inr (.inl me)
      · rw [kept ne]
        exact (inv.usage.present_other found (by simp [idle])).imp_right .inr
    · intro h d has
      obtain ⟨was, ne⟩ := known.mp has
      rw [kept ne]
      exact inv.usage.app was
  · exact ⟨batches.shaped, batches.master, batches.master_once⟩

theorem Inv.enter (inv : Inv s) (e : Entry) (idle : s.threads t = .idle)
    (law : Lawful s (.call t e)) : Inv (s.enter t e) := by
  cases e with
  | createPipelines dev cache n =>
      obtain ⟨held, known⟩ := law
      refine Inv.entered inv idle ?_ rfl rfl ⟨rfl, rfl, rfl⟩ (by rintro b ⟨⟨⟩, -⟩)
      rintro d ⟨⟩
      refine ⟨held, fun pc member nonzero => ?_⟩
      obtain rfl : pc = cache := List.mem_singleton.mp member
      exact known.resolve_left nonzero
  | createPipelineCache dev initial =>
      refine Inv.entered inv idle ?_ rfl rfl trivial (by rintro b ⟨⟨⟩, -⟩)
      rintro d ⟨⟩
      exact ⟨law, by rintro pc ⟨⟩⟩
  | mergePipelineCaches dev dst srcs =>
      obtain ⟨held, known⟩ := law
      refine Inv.entered inv idle ?_ rfl rfl trivial (by rintro b ⟨⟨⟩, -⟩)
      rintro d ⟨⟩
      exact ⟨held, fun pc member _ => known pc member⟩
  | getPipelineCacheData dev pc room =>
      obtain ⟨held, known⟩ := law
      refine Inv.entered inv idle ?_ rfl rfl trivial (by rintro b ⟨⟨⟩, -⟩)
      rintro d ⟨⟩
      refine ⟨held, fun h member _ => ?_⟩
      obtain rfl : h = pc := List.mem_singleton.mp member
      exact known
  | destroyPipelineCache dev pc => exact Inv.entered_destroy inv idle law.1 law.2
  | createDevice =>
      refine Inv.entered inv idle ?_ rfl rfl trivial (by rintro b ⟨⟨⟩, -⟩)
      rintro d ⟨⟩
  | destroyDevice dev => exact Inv.entered_destroyDevice inv idle law.1 law.2

end Entries

section Runs

variable {p : Process} {s : State}

theorem inv_zero : Inv State.zero where
  keyed i j handle _ := absurd rfl handle
  sound := Sound.empty
  owned := by
    have nobody : ∀ x pc what, ¬ Holds State.zero x pc what := by
      intro x pc what has
      cases x with
      | slot dev =>
          have none_there : slotHandles State.zero.cache.devCaches dev = [] := by
            unfold slotHandles slotOf cacheLookup
            split_ifs with null
            · rfl
            · have nowhere : firstIndex (fun i =>
                  decide ((State.zero.cache.devCaches i).dev = dev)) = none := by
                rw [firstIndex_eq_none]
                exact fun _ => decide_eq_false (Ne.symm null)
              rw [nowhere]
              rfl
          rw [Holds, none_there] at has
          cases has.1
      | thread t => cases has
      | app => cases has.1
    exact ⟨fun has => absurd has (nobody _ _ _), fun has => absurd has (nobody _ _ _)⟩
  nodup dev := by
    cases found : slotOf State.zero.cache.devCaches dev with
    | none => simp [slotHandles_none found]
    | some c =>
        obtain ⟨i, -, rfl⟩ := Option.map_eq_some_iff.mp found
        rw [slotHandles_some found]
        exact List.nodup_nil
  usage := by
    refine ⟨?_, ?_, ?_, ?_, ?_, ?_, ?_⟩
    · intro dev held
      cases held
    · intro t dev used
      cases used
    · intro t dev claim
      cases claim
    · intro t t' dev claim
      cases claim
    · intro dev c found
      obtain ⟨i, -, rfl⟩ := Option.map_eq_some_iff.mp found
      obtain ⟨is_zero, handle⟩ := slotOf_dev found
      exact absurd is_zero.symm handle
    · intro pc dev given
      cases given
    · intro t dev pc used
      cases used
  batches := by
    refine ⟨fun _ => trivial, ?_, ?_⟩
    · intro t b masters
      cases masters.1
    · intro t t' b b' masters
      cases masters.1

theorem inv_step {a : Action} {s' : State} (inv : Inv s) (step : (lawful p).step s a s') :
    Inv s' := by
  obtain ⟨move, law⟩ := step
  cases a with
  | call t e =>
      obtain ⟨idle, rfl⟩ := move
      exact Inv.enter inv e idle law
  | advance t =>
      obtain ⟨cache, phase, handed, world, run, rfl⟩ := move
      exact (safe_advance inv).of_runs run
  | resolve fns =>
      obtain rfl : s' = _ := move
      exact ⟨inv.keyed, inv.sound, owned_same inv.owned (fun _ => rfl) (fun _ => rfl) rfl rfl,
        inv.nodup, ⟨inv.usage.live, inv.usage.uses, inv.usage.claimed, inv.usage.claimed_once,
          inv.usage.present, inv.usage.app, inv.usage.lent⟩,
        ⟨inv.batches.shaped, inv.batches.master, inv.batches.master_once⟩⟩

theorem inv_reachable (reach : (lawful p).Reachable s) : Inv s := by
  refine reach.invariant ?_ fun s a s' _ inv step => inv_step inv step
  rintro s rfl
  exact inv_zero

private theorem Inv.apart (inv : Inv s) {t t' : Nat} {b b' : Batch} (ne : t ≠ t')
    (first : s.threads t = .compiling b) (second : s.threads t' = .compiling b')
    (no_app : b.appCache = 0) (nonzero : b.cacheSlot ≠ 0) : b'.cacheSlot ≠ b.cacheSlot := by
  intro same
  have nonzero' : b'.cacheSlot ≠ 0 := same ▸ nonzero
  have holder' := Inv.slot_holder inv (.inr second) nonzero'
  rw [same] at holder'
  rcases Inv.slot_holder inv (.inr first) nonzero with ⟨masters, held⟩ | mine | ⟨-, app, -⟩
  · rcases holder' with ⟨masters', held'⟩ | mine' | ⟨-, -, theirs'⟩
    · have one_dev := Holder.slot.inj (inv.owned.alone held held')
      exact ne (inv.batches.master_once masters masters' one_dev)
    · cases inv.owned.alone held mine'
    · cases inv.owned.alone held theirs'
  · rcases holder' with ⟨-, held'⟩ | mine' | ⟨-, -, theirs'⟩
    · cases inv.owned.alone mine held'
    · exact ne (Holder.thread.inj (inv.owned.alone mine mine'))
    · cases inv.owned.alone mine theirs'
  · exact app no_app

private theorem compiling_makes {t : Nat} {b : Batch} {w : World} {op : Call}
    (phase : s.threads t = .compiling b) (makes : s.Makes p t w op) : named op = none := by
  rw [State.Makes, phase] at makes
  rcases makes with ⟨-, rfl⟩ | ⟨-, -, -, ⟨⟩⟩
  rfl

/-- However the hooks of an application that keeps to the rules interleave: two batches
never compile into one cache of the shim; while a batch compiles into a master no call names
it; every cache a call names was passed in by the application or is the shim's own, created
on the incarnation of the device that is alive, and still there; and no cache the shim
remembers is remembered twice. -/
theorem pipeline_caches_safe (reach : (lawful p).Reachable s) :
    (∀ t t' b b', t ≠ t' → s.threads t = .compiling b → s.threads t' = .compiling b' →
      b.appCache = 0 → b.cacheSlot ≠ 0 → b'.cacheSlot ≠ b.cacheSlot) ∧
    (∀ t w op dev pcs pc, s.Makes p t w op → named op = some (dev, pcs) → pc ∈ pcs → pc ≠ 0 →
      (∀ t' b, s.threads t' = .compiling b → b.ownMaster = true → pc ≠ b.cacheSlot) ∧
      (pc ∈ given (s.threads t) ∨
        ∃ n, w.devices dev = some n ∧ w.caches pc = some ⟨dev, n, .shim⟩)) ∧
    CachesOwned s := by
  have inv := inv_reachable reach
  refine ⟨fun t t' b b' ne => Inv.apart inv ne, ?_, inv.owned⟩
  intro t w op dev pcs pc makes names member nonzero
  obtain ⟨not_busy, allowed⟩ := (safe_advance inv).of_calls makes dev pcs names pc member nonzero
  have sound : Sound w := makes.invariant keep_sound inv.sound
  refine ⟨?_, allowed.imp_right fun is_shim => ?_⟩
  · intro t' b compiling is_own same
    by_cases me : t' = t
    · subst me
      cases (compiling_makes compiling makes).symm.trans names
    · exact not_busy ⟨t', b, me, ⟨by rw [compiling]; rfl, is_own⟩, same.symm⟩
  · obtain ⟨b, born, kind_eq⟩ := Option.map_eq_some_iff.mp is_shim
    obtain ⟨rfl, owner⟩ := Prod.mk.inj kind_eq
    obtain ⟨-, current⟩ := sound.cache born
    exact ⟨b.incarnation, current, by rw [born, ← owner]⟩

end Runs

/-- A device, and two batches on it that compile at once. -/
def twoBatches : List Action :=
  [.call 0 .createDevice, .advance 0, .advance 0,
    .call 0 (.createPipelines 1 0 1), .advance 0, .advance 0, .advance 0,
    .call 1 (.createPipelines 1 0 1), .advance 1, .advance 1, .advance 1]

/-- The first has the master, the second a cache of its own. -/
theorem pipeline_caches_twoBatches : ∃ s b b', (lawful fullProcess).Reachable s ∧
    s.threads 0 = .compiling b ∧ s.threads 1 = .compiling b' ∧ b.ownMaster = true ∧
      b'.scratch ≠ 0 ∧ b'.cacheSlot ≠ b.cacheSlot := by
  have ran : (State.zero.after fullProcess (fun _ => "") State.permits twoBatches).map
      (fun s => (s.threads 0, s.threads 1)) =
        some (.compiling ⟨1, 0, 1, true, false, 0, 1, 0, 0⟩,
          .compiling ⟨1, 0, 1, false, false, 2, 2, 0, 0⟩) := by decide +kernel
  obtain ⟨s, ends, phases⟩ := Option.map_eq_some_iff.mp ran
  obtain ⟨first, second⟩ := Prod.mk.inj phases
  have reach : (lawful fullProcess).Reachable s := after_reachable twoBatches ends
  refine ⟨s, _, _, reach, first, second, rfl, by decide, ?_⟩
  exact (pipeline_caches_safe reach).1 0 1 _ _ (by decide) first second rfl (by decide)

end XdPlus.Vulkan.PipelineBatchSafety
