/- Module: XdPlus/Vulkan/PipelineOwnership
   source: vulkan/vkshim.c, compile_batch, the pipeline-cache hooks, shim_DestroyDevice,
     shim_CreateDevice
   digest: Who has which pipeline cache, and which device, while the hooks interleave. -/

import XdPlus.Vulkan.PipelineLedger

set_option autoImplicit false
set_option relaxedAutoImplicit false

namespace XdPlus.Vulkan.PipelineOwnership

open XdPlus.Base Common Driver PipelineCache PipelineBatches PipelineLedger

/-- Caches belong to the incarnation of their device that is alive. -/
structure Sound (w : World) : Prop where
  device : ∀ {dev n}, w.devices dev = some n → dev ≠ 0
  cache : ∀ {pc b}, w.caches pc = some b → pc ≠ 0 ∧ w.devices b.dev = some b.incarnation

theorem Sound.empty : Sound World.empty := ⟨by rintro _ _ ⟨⟩, by rintro _ _ ⟨⟩⟩

theorem Sound.addDevice {w : World} (sound : Sound w) {dev : VkDevice} (handle : dev ≠ 0)
    (fresh : w.devices dev = none) : Sound (w.addDevice dev) := by
  constructor
  · intro other n live
    rcases eq_or_ne other dev with rfl | ne
    · exact handle
    · rw [World.devices_addDevice ne] at live
      exact sound.device live
  · intro pc b live
    obtain ⟨nonzero, current⟩ := sound.cache live
    have ne : b.dev ≠ dev := by
      intro same
      rw [same, fresh] at current
      cases current
    exact ⟨nonzero, (World.devices_addDevice ne).trans current⟩

theorem Sound.removeDevice {w : World} (sound : Sound w) (dev : VkDevice) :
    Sound (w.removeDevice dev) := by
  constructor
  · intro other n live
    rcases eq_or_ne other dev with rfl | ne
    · simp [World.removeDevice] at live
    · rw [World.devices_removeDevice ne] at live
      exact sound.device live
  · intro pc b live
    obtain ⟨was, ne⟩ := World.caches_removeDevice.mp live
    obtain ⟨nonzero, current⟩ := sound.cache was
    exact ⟨nonzero, (World.devices_removeDevice ne).trans current⟩

theorem Sound.addCache {w : World} (sound : Sound w) {pc : VkPipelineCache} (nonzero : pc ≠ 0)
    (dev : VkDevice) (owner : Owner) : Sound (w.addCache pc dev owner) := by
  refine ⟨fun live => sound.device live, fun {h b} live => ?_⟩
  rcases eq_or_ne h pc with rfl | ne
  · simp only [World.addCache, Function.update_self, Option.map_eq_some_iff] at live
    obtain ⟨n, current, rfl⟩ := live
    exact ⟨nonzero, current⟩
  · rw [World.caches_addCache owner ne] at live
    exact sound.cache live

theorem Sound.removeCache {w : World} (sound : Sound w) (pc : VkPipelineCache) :
    Sound (w.removeCache pc) := by
  refine ⟨fun live => sound.device live, fun {h b} live => ?_⟩
  rcases eq_or_ne h pc with rfl | ne
  · simp [World.removeCache] at live
  · rw [World.caches_removeCache ne] at live
    exact sound.cache live

theorem Sound.answers {w w' : World} {op : Call} {ans : Answer op} (sound : Sound w)
    (answered : PipelineBatches.answers w op ans w') : Sound w' := by
  cases op
  case createDevice =>
    cases ans with
    | none =>
        obtain rfl : w' = w := answered
        exact sound
    | some dev =>
        obtain ⟨handle, fresh, rfl⟩ := answered
        exact sound.addDevice handle fresh
  case destroyDevice dev =>
    obtain rfl : w' = _ := answered
    exact sound.removeDevice dev
  case createPipelineCache owner dev initial =>
    cases ans with
    | none =>
        obtain rfl : w' = w := answered
        exact sound
    | some pc =>
        obtain ⟨nonzero, -, rfl⟩ := answered
        exact sound.addCache nonzero dev owner
  case destroyPipelineCache dev pc =>
    obtain rfl : w' = _ := answered
    exact sound.removeCache pc
  all_goals
    obtain rfl : w' = w := answered
    exact sound

theorem Sound.null {w : World} (sound : Sound w) {kind' : VkDevice × Owner} :
    kind w 0 ≠ some kind' := by
  intro live
  obtain ⟨b, born, -⟩ := Option.map_eq_some_iff.mp live
  exact (sound.cache born).1 rfl

/-- The slots, the threads and the application. -/
inductive Holder where
  | slot (dev : VkDevice)
  | thread (t : Nat)
  | app
  deriving DecidableEq

/-- The cache only this thread knows: a scratch cache, or one of the application's that it
has not been given yet or is giving back. -/
def own : Phase → Option (VkPipelineCache × VkDevice × Owner)
  | .arrived b | .begun b | .ready b | .compiling b | .compiled b | .ended b =>
      if b.scratch = 0 then none else some (b.scratch, b.dev, .shim)
  | .created dev out => some (out, dev, .app)
  | .destroying dev pc => if pc = 0 then none else some (pc, dev, .app)
  | _ => none

def Holds (s : State) : Holder → VkPipelineCache → VkDevice × Owner → Prop
  | .slot dev, pc, what => pc ∈ slotHandles s.cache.devCaches dev ∧ what = (dev, .shim)
  | .thread t, pc, what => own (s.threads t) = some (pc, what)
  | .app, pc, what => s.appCaches pc = some what.1 ∧ what.2 = .app

/-- Every cache is in one place, and is what that place takes it for. -/
abbrev CachesOwned (s : State) : Prop := Owned (Holds s) (kind s.world)

section Handovers

variable {s s' : State} {t : Nat} {dev : VkDevice} {scratch pc : VkPipelineCache}

private theorem kind_congr {w w' : World} {pc : VkPipelineCache}
    (same : w'.caches pc = w.caches pc) : kind w' pc = kind w pc := by
  simp only [kind, same]

/-- A section on one device: its slot and the thread at work may exchange caches. -/
theorem owned_turn (owned : CachesOwned s)
    (turn : Turn dev scratch s.cache.devCaches s'.cache.devCaches s.world s'.world)
    (others : ∀ t', t' ≠ t → own (s'.threads t') = own (s.threads t'))
    (apps : s'.appCaches = s.appCaches)
    (given : scratch = 0 ∨ own (s.threads t) = some (scratch, dev, .shim))
    (stays : ∀ pc what, own (s'.threads t) = some (pc, what) →
      own (s.threads t) = some (pc, what) ∧ pc ∉ slotHandles s'.cache.devCaches dev)
    (sound : Sound s'.world) : CachesOwned s' := by
  have there : ∀ {x pc what}, Holds s x pc what → s.world.caches pc ≠ none := by
    intro x pc what has gone
    have live := owned.right has
    rw [kind, gone] at live
    cases live
  refine owned.handover (S := { .slot dev, .thread t }) ⟨?_, ?_, ?_, ?_, ?_⟩
  · intro x pc what outside has
    cases x with
    | slot other =>
        have ne : other ≠ dev := by
          rintro rfl
          exact outside (.inl rfl)
        have same := turn.table.others other ne
        simpa only [Holds, slotHandles, same] using has
    | thread t' =>
        have ne : t' ≠ t := by
          rintro rfl
          exact outside (.inr rfl)
        simpa only [Holds, others t' ne] using has
    | app => simpa only [Holds, apps] using has
  · rintro x pc what (rfl | rfl) has
    · rcases turn.source pc has.1 with free | before | rfl
      · exact .inl (by simp [kind, free])
      · exact .inr ⟨.slot dev, .inl rfl, _, before, rfl⟩
      · rcases given with rfl | mine
        · exact absurd (turn.right _ has.1) sound.null
        · exact .inr ⟨.thread t, .inr rfl, _, mine⟩
    · exact .inr ⟨.thread t, .inr rfl, _, (stays pc what has).1⟩
  · intro x pc what _ has
    rcases turn.kept pc (there has) with same | mine
    · exact .inl ((kind_congr same).trans (owned.right has))
    · exact .inr ⟨.slot dev, .inl rfl, _, mine, rfl⟩
  · rintro x pc what (rfl | rfl) has
    · obtain ⟨member, rfl⟩ := has
      exact turn.right pc member
    · obtain ⟨was, -⟩ := stays pc what has
      have had : Holds s (.thread t) pc what := was
      rcases turn.kept pc (there had) with same | mine
      · exact (kind_congr same).trans (owned.right had)
      · have slot : Holds s (.slot dev) pc (dev, .shim) := ⟨mine, rfl⟩
        cases owned.alone had slot
  · rintro x y pc what what' (rfl | rfl) (rfl | rfl) has other
    · rfl
    · exact absurd has.1 (stays pc what' other).2
    · exact absurd other.1 (stays pc what has).2
    · rfl

theorem owned_same (owned : CachesOwned s) (slots : ∀ dev,
      slotHandles s'.cache.devCaches dev = slotHandles s.cache.devCaches dev)
    (threads : ∀ t, own (s'.threads t) = own (s.threads t))
    (apps : s'.appCaches = s.appCaches) (caches : s'.world.caches = s.world.caches) :
    CachesOwned s' := by
  have same : Holds s' = Holds s := by
    funext x pc what
    cases x with
    | slot dev => simp only [Holds, slots]
    | thread t => simp only [Holds, threads]
    | app => simp only [Holds, apps]
  have kinds : kind s'.world = kind s.world := by
    funext pc
    simp only [kind, caches]
  rw [CachesOwned, same, kinds]
  exact owned

theorem owned_gain {owner : Owner} {n : Nat} (owned : CachesOwned s)
    (table : s'.cache.devCaches = s.cache.devCaches)
    (device : s.world.devices dev = some n) (fresh : s.world.caches pc = none)
    (world : s'.world = s.world.addCache pc dev owner)
    (others : ∀ t', t' ≠ t → own (s'.threads t') = own (s.threads t'))
    (apps : s'.appCaches = s.appCaches) (gets : own (s'.threads t) = some (pc, dev, owner)) :
    CachesOwned s' := by
  refine owned.handover (S := { .thread t }) ⟨?_, ?_, ?_, ?_, ?_⟩
  · intro x h what outside has
    cases x with
    | slot other => simpa only [Holds, table] using has
    | thread t' =>
        have ne : t' ≠ t := by
          rintro rfl
          exact outside rfl
        simpa only [Holds, others t' ne] using has
    | app => simpa only [Holds, apps] using has
  · rintro x h what rfl has
    obtain ⟨rfl, -⟩ : pc = h ∧ (dev, owner) = what := by
      have both := Option.some.inj (gets.symm.trans has)
      exact ⟨congrArg Prod.fst both, congrArg Prod.snd both⟩
    exact .inl (by simp [kind, fresh])
  · intro x h what _ has
    have ne : h ≠ pc := by
      rintro rfl
      have live := owned.right has
      rw [kind, fresh] at live
      cases live
    rw [world]
    exact .inl ((kind_congr (World.caches_addCache owner ne)).trans (owned.right has))
  · rintro x h what rfl has
    obtain ⟨rfl, rfl⟩ : pc = h ∧ (dev, owner) = what := by
      have both := Option.some.inj (gets.symm.trans has)
      exact ⟨congrArg Prod.fst both, congrArg Prod.snd both⟩
    rw [world]
    exact kind_addCache_self device pc owner
  · rintro x y h what what' rfl rfl - -
    rfl

theorem owned_lose {what : VkDevice × Owner} (owned : CachesOwned s)
    (table : s'.cache.devCaches = s.cache.devCaches)
    (had : own (s.threads t) = some (pc, what)) (world : s'.world = s.world.removeCache pc)
    (others : ∀ t', t' ≠ t → own (s'.threads t') = own (s.threads t'))
    (apps : s'.appCaches = s.appCaches) (left : own (s'.threads t) = none) :
    CachesOwned s' := by
  refine owned.handover (S := { .thread t }) ⟨?_, ?_, ?_, ?_, ?_⟩
  · intro x h what outside has
    cases x with
    | slot other => simpa only [Holds, table] using has
    | thread t' =>
        have ne : t' ≠ t := by
          rintro rfl
          exact outside rfl
        simpa only [Holds, others t' ne] using has
    | app => simpa only [Holds, apps] using has
  · rintro x h what rfl has
    cases left.symm.trans has
  · intro x h what' _ has
    by_cases same : h = pc
    · subst same
      exact .inr ⟨.thread t, rfl, what, had⟩
    · rw [world]
      exact .inl ((kind_congr (World.caches_removeCache same)).trans (owned.right has))
  · rintro x h what rfl has
    cases left.symm.trans has
  · rintro x y h what what' rfl rfl - -
    rfl

theorem owned_exchange (owned : CachesOwned s)
    (table : s'.cache.devCaches = s.cache.devCaches) (caches : s'.world.caches = s.world.caches)
    (others : ∀ t', t' ≠ t → own (s'.threads t') = own (s.threads t'))
    (to_thread : ∀ pc what, own (s'.threads t) = some (pc, what) →
      own (s.threads t) = some (pc, what) ∨ s.appCaches pc = some what.1 ∧ what.2 = .app)
    (to_app : ∀ pc dev, s'.appCaches pc = some dev →
      s.appCaches pc = some dev ∨ own (s.threads t) = some (pc, dev, .app))
    (apart : ∀ pc what, own (s'.threads t) = some (pc, what) → s'.appCaches pc = none) :
    CachesOwned s' := by
  have kinds : kind s'.world = kind s.world := by
    funext pc
    exact kind_congr (congrFun caches pc)
  have came : ∀ x ∈ ({ .thread t, .app } : Set Holder), ∀ {pc what}, Holds s' x pc what →
      ∃ y ∈ ({ .thread t, .app } : Set Holder), Holds s y pc what := by
    rintro x (rfl | rfl) pc what has
    · rcases to_thread pc what has with mine | theirs
      · exact ⟨.thread t, .inl rfl, mine⟩
      · exact ⟨.app, .inr rfl, theirs⟩
    · obtain ⟨held, app⟩ := has
      rcases to_app pc what.1 held with theirs | mine
      · exact ⟨.app, .inr rfl, theirs, app⟩
      · refine ⟨.thread t, .inl rfl, mine.trans ?_⟩
        rw [← app]
  refine owned.handover (S := { .thread t, .app }) ⟨?_, ?_, ?_, ?_, ?_⟩
  · intro x pc what outside has
    cases x with
    | slot other => simpa only [Holds, table] using has
    | thread t' =>
        have ne : t' ≠ t := by
          rintro rfl
          exact outside (.inl rfl)
        simpa only [Holds, others t' ne] using has
    | app => exact absurd (.inr rfl) outside
  · intro x pc what inside has
    obtain ⟨y, member, had⟩ := came x inside has
    exact .inr ⟨y, member, what, had⟩
  · intro x pc what _ has
    exact .inl (kinds ▸ owned.right has)
  · intro x pc what inside has
    obtain ⟨y, -, had⟩ := came x inside has
    exact kinds ▸ owned.right had
  · rintro x y pc what what' (rfl | rfl) (rfl | rfl) has other
    · rfl
    · cases (apart pc what has).symm.trans other.1
    · cases (apart pc what' other).symm.trans has.1
    · rfl

theorem owned_removeDevice (owned : CachesOwned s) (holds : ∀ x pc what, Holds s' x pc what →
      Holds s x pc what) (world : s'.world = s.world.removeDevice dev)
    (bare : ∀ x pc what, Holds s x pc what → what.1 ≠ dev) : CachesOwned s' := by
  refine owned.handover (S := ∅) ⟨?_, ?_, ?_, ?_, ?_⟩
  · exact fun _ has => holds _ _ _ has
  · exact fun inside => inside.elim
  · intro x pc what _ has
    left
    obtain ⟨b, born, rfl⟩ := Option.map_eq_some_iff.mp (owned.right has)
    have still : s'.world.caches pc = some b := by
      rw [world]
      exact World.caches_removeDevice.mpr ⟨born, bare x pc _ has⟩
    simp [kind, still]
  · exact fun inside => inside.elim
  · exact fun inside => inside.elim

end Handovers

/-- The device a thread is making or destroying. -/
def claims : Phase → Option VkDevice
  | .madeDevice dev | .droppingDevice dev | .droppedDevice dev => some dev
  | _ => none

/-- Calls are on devices the application holds; one that is being made or destroyed is held
by nobody else. A slot is for a device that is held, or not yet dropped. -/
structure Usage (s : State) : Prop where
  live : ∀ {dev}, s.devices dev = true → ∃ n, s.world.devices dev = some n
  uses : ∀ {t dev}, (s.threads t).uses = some dev → s.devices dev = true
  claimed : ∀ {t dev}, claims (s.threads t) = some dev →
    s.devices dev = false ∧ ∃ n, s.world.devices dev = some n
  claimed_once : ∀ {t t' dev}, claims (s.threads t) = some dev →
    claims (s.threads t') = some dev → t = t'
  present : ∀ {dev c}, slotOf s.cache.devCaches dev = some c →
    s.devices dev = true ∨ ∃ t, s.threads t = .droppingDevice dev
  app : ∀ {pc dev}, s.appCaches pc = some dev → s.devices dev = true
  lent : ∀ {t dev pc}, (s.threads t).uses = some dev → pc ∈ (s.threads t).lent → pc ≠ 0 →
    s.appCaches pc = some dev

section Usage

variable {s : State} {t : Nat} {k' : CacheState} {phase' : Phase} {w' : World} {dev : VkDevice}
  {pc : VkPipelineCache}

theorem Usage.change {s' : State} (usage : Usage s)
    (others : ∀ {t'}, t' ≠ t → s'.threads t' = s.threads t')
    (live : ∀ {dev}, s'.devices dev = true → ∃ n, s'.world.devices dev = some n)
    (uses : ∀ {dev}, (s'.threads t).uses = some dev → s'.devices dev = true ∧
      ∀ pc ∈ (s'.threads t).lent, pc ≠ 0 → s'.appCaches pc = some dev)
    (uses_kept : ∀ {t' dev}, t' ≠ t → (s.threads t').uses = some dev → s'.devices dev = true ∧
      ∀ pc ∈ (s.threads t').lent, pc ≠ 0 → s.appCaches pc = some dev →
        s'.appCaches pc = some dev)
    (claimed : ∀ {dev}, claims (s'.threads t) = some dev →
      (s'.devices dev = false ∧ ∃ n, s'.world.devices dev = some n) ∧
        ∀ t', t' ≠ t → claims (s.threads t') ≠ some dev)
    (claimed_kept : ∀ {t' dev}, t' ≠ t → claims (s.threads t') = some dev →
      s'.devices dev = false ∧ ∃ n, s'.world.devices dev = some n)
    (present : ∀ {dev c}, slotOf s'.cache.devCaches dev = some c → s'.devices dev = true ∨
      s'.threads t = .droppingDevice dev ∨ ∃ t', t' ≠ t ∧ s.threads t' = .droppingDevice dev)
    (app : ∀ {pc dev}, s'.appCaches pc = some dev → s'.devices dev = true) : Usage s' := by
  refine ⟨live, ?_, ?_, ?_, ?_, app, ?_⟩
  · intro t' dev used
    rcases eq_or_ne t' t with rfl | ne
    · exact (uses used).1
    · exact (uses_kept ne (others ne ▸ used)).1
  · intro t' dev claim
    rcases eq_or_ne t' t with rfl | ne
    · exact (claimed claim).1
    · exact claimed_kept ne (others ne ▸ claim)
  · intro t₁ t₂ dev first second
    rcases eq_or_ne t₁ t with rfl | ne₁
    · by_contra ne₂
      exact (claimed first).2 t₂ (Ne.symm ne₂) (others (Ne.symm ne₂) ▸ second)
    · rcases eq_or_ne t₂ t with rfl | ne₂
      · exact absurd (others ne₁ ▸ first) ((claimed second).2 t₁ ne₁)
      · exact usage.claimed_once (others ne₁ ▸ first) (others ne₂ ▸ second)
  · intro dev c found
    rcases present found with held | mine | ⟨t', ne, dropping⟩
    · exact .inl held
    · exact .inr ⟨t, mine⟩
    · exact .inr ⟨t', (others ne).trans dropping⟩
  · intro t' dev pc used member nonzero
    rcases eq_or_ne t' t with rfl | ne
    · exact (uses used).2 pc member nonzero
    · rw [others ne] at used member
      exact (uses_kept ne used).2 pc member nonzero (usage.lent used member nonzero)

theorem Usage.present_other {c : DevCache} (usage : Usage s)
    (found : slotOf s.cache.devCaches dev = some c) (not_me : s.threads t ≠ .droppingDevice dev) :
    s.devices dev = true ∨ ∃ t', t' ≠ t ∧ s.threads t' = .droppingDevice dev := by
  rcases usage.present found with held | ⟨t', dropping⟩
  · exact .inl held
  · refine .inr ⟨t', ?_, dropping⟩
    rintro rfl
    exact not_me dropping

theorem Usage.advance (usage : Usage s)
    (goes_on : phase' = .idle ∨ phase'.uses = (s.threads t).uses ∧
      claims phase' = claims (s.threads t) ∧ phase'.lent = (s.threads t).lent)
    (devices : w'.devices = s.world.devices)
    (slots : ∀ dev c, slotOf k'.devCaches dev = some c →
      (∃ c, slotOf s.cache.devCaches dev = some c) ∨ (s.threads t).uses = some dev)
    (dropped : ∀ dev, s.threads t = .droppingDevice dev → slotOf k'.devCaches dev = none) :
    Usage (s.moved t k' phase' .nothing w') := by
  have me : (s.moved t k' phase' .nothing w').threads t = phase' := Function.update_self ..
  refine usage.change (t := t) (fun ne => Function.update_of_ne ne _ _)
    (fun held => devices ▸ usage.live held) ?_ ?_ ?_ ?_ ?_ usage.app
  · intro dev used
    rw [me] at used ⊢
    rcases goes_on with rfl | ⟨uses, -, lent⟩
    · cases used
    · rw [uses] at used
      rw [lent]
      exact ⟨usage.uses used, fun pc member nonzero => usage.lent used member nonzero⟩
  · exact fun _ used => ⟨usage.uses used, fun _ _ _ known => known⟩
  · intro dev claim
    rw [me] at claim
    rcases goes_on with rfl | ⟨-, same, -⟩
    · cases claim
    · rw [same] at claim
      refine ⟨devices ▸ usage.claimed claim, fun t' ne other => ?_⟩
      exact ne (usage.claimed_once other claim)
  · exact fun _ claim => devices ▸ usage.claimed claim
  · intro dev c found
    rcases slots dev c found with ⟨c', was⟩ | used
    · have not_me : s.threads t ≠ .droppingDevice dev := by
        intro dropping
        cases (dropped dev dropping).symm.trans found
      exact (usage.present_other was not_me).imp_right .inr
    · exact .inl (usage.uses used)

theorem Usage.receive_cache (usage : Usage s) (held : s.devices dev = true)
    (unknown : s.appCaches pc = none) : Usage (s.receive (.cache dev pc)) := by
  refine ⟨usage.live, usage.uses, usage.claimed, usage.claimed_once, usage.present, ?_, ?_⟩
  · intro h other has
    rcases eq_or_ne h pc with rfl | ne
    · obtain rfl : dev = other := by simpa [State.receive] using has
      exact held
    · exact usage.app (by simpa [State.receive, Function.update_of_ne ne] using has)
  · intro t' other h used member nonzero
    have was := usage.lent used member nonzero
    have ne : h ≠ pc := by
      rintro rfl
      cases unknown.symm.trans was
    simpa [State.receive, Function.update_of_ne ne] using was

end Usage

/-- Which cache a batch compiles into, as far as it is decided. -/
def Shaped : Phase → Prop
  | .arrived b => b.ownMaster = false ∧ b.scratch = 0 ∧ b.cacheSlot = b.appCache
  | .begun b => b.scratch = 0 ∧ (b.ownMaster = true → b.appCache = 0) ∧
      (b.ownMaster = false → b.cacheSlot = b.appCache)
  | .ready b | .compiling b | .compiled b =>
      (b.ownMaster = true → b.appCache = 0 ∧ b.scratch = 0) ∧
      (b.appCache ≠ 0 → b.cacheSlot = b.appCache ∧ b.scratch = 0) ∧
      (b.ownMaster = false → b.appCache = 0 → b.cacheSlot = b.scratch)
  | _ => True

/-- A batch that has the master of its device. -/
def Masters (phase : Phase) (b : Batch) : Prop := phase.inFlight = some b ∧ b.ownMaster = true

/-- A master has one batch, and is marked as in use. -/
structure Batches (s : State) : Prop where
  shaped : ∀ t, Shaped (s.threads t)
  master : ∀ {t b}, Masters (s.threads t) b → b.cacheSlot ≠ 0 ∧
    ∃ c, slotOf s.cache.devCaches b.dev = some c ∧ c.masterInUse = true ∧ c.pc = b.cacheSlot
  master_once : ∀ {t t' b b'}, Masters (s.threads t) b → Masters (s.threads t') b' →
    b.dev = b'.dev → t = t'

section Batches

variable {s : State} {t : Nat} {k' : CacheState} {phase' : Phase} {handed : Handed} {w' : World}
  {dev : VkDevice}

theorem moved_threads : (s.moved t k' phase' handed w').threads =
    Function.update s.threads t phase' := by
  cases handed <;> rfl

theorem moved_cache : (s.moved t k' phase' handed w').cache = k' := by
  cases handed <;> rfl

theorem Batches.advance (batches : Batches s) (shaped : Shaped phase')
    (keeps : ∀ t' b, t' ≠ t → Masters (s.threads t') b → ∀ c,
      slotOf s.cache.devCaches b.dev = some c → c.masterInUse = true → c.pc ≠ 0 →
      ∃ c', slotOf k'.devCaches b.dev = some c' ∧ c'.masterInUse = true ∧ c'.pc = c.pc)
    (mine : ∀ b, Masters phase' b → (b.cacheSlot ≠ 0 ∧
        ∃ c, slotOf k'.devCaches b.dev = some c ∧ c.masterInUse = true ∧ c.pc = b.cacheSlot) ∧
      ∀ t' b', t' ≠ t → Masters (s.threads t') b' → b.dev ≠ b'.dev) :
    Batches (s.moved t k' phase' handed w') := by
  have cases_of : ∀ {t' b}, Masters (Function.update s.threads t phase' t') b →
      (t' = t ∧ Masters phase' b) ∨ (t' ≠ t ∧ Masters (s.threads t') b) := by
    intro t' b masters
    rcases eq_or_ne t' t with rfl | ne
    · exact .inl ⟨rfl, by rwa [Function.update_self] at masters⟩
    · exact .inr ⟨ne, by rwa [Function.update_of_ne ne] at masters⟩
  refine ⟨?_, ?_, ?_⟩ <;> rw [moved_threads]
  · intro t'
    rcases eq_or_ne t' t with rfl | ne
    · rwa [Function.update_self]
    · rw [Function.update_of_ne ne]
      exact batches.shaped t'
  · intro t' b masters
    rw [moved_cache]
    rcases cases_of masters with ⟨rfl, new⟩ | ⟨ne, old⟩
    · exact (mine b new).1
    · obtain ⟨nonzero, c, found, used, is_pc⟩ := batches.master old
      obtain ⟨c', found', used', same⟩ := keeps t' b ne old c found used (is_pc ▸ nonzero)
      exact ⟨nonzero, c', found', used', same.trans is_pc⟩
  · intro t₁ t₂ b₁ b₂ first second same
    rcases cases_of first with ⟨rfl, new₁⟩ | ⟨ne₁, old₁⟩
    · rcases cases_of second with ⟨rfl, new₂⟩ | ⟨ne₂, old₂⟩
      · rfl
      · exact absurd same ((mine b₁ new₁).2 t₂ b₂ ne₂ old₂)
    · rcases cases_of second with ⟨rfl, new₂⟩ | ⟨ne₂, old₂⟩
      · exact absurd same.symm ((mine b₂ new₂).2 t₁ b₁ ne₁ old₁)
      · exact batches.master_once old₁ old₂ same

end Batches

structure Inv (s : State) : Prop where
  keyed : Keyed s.cache.devCaches
  sound : Sound s.world
  owned : CachesOwned s
  nodup : ∀ dev, (slotHandles s.cache.devCaches dev).Nodup
  usage : Usage s
  batches : Batches s

end XdPlus.Vulkan.PipelineOwnership
