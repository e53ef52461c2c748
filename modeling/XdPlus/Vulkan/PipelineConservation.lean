/- Module: XdPlus/Vulkan/PipelineConservation
   source: vulkan/vkshim.c, compile_batch, drain_pending, drop_disk_cache, ensure_disk_cache
   digest: No scratch cache is lost, shared, destroyed twice or thrown away for nothing. -/

import XdPlus.Vulkan.PipelineBook

set_option autoImplicit false
set_option relaxedAutoImplicit false

namespace XdPlus.Vulkan.PipelineConservation

open XdPlus.Base Common Driver PipelineCache PipelineBatches PipelineLedger PipelineOwnership
open PipelineBatchSafety PipelineScratch PipelineBook

section Kept

variable {p : Process} {s : State} {t : Nat} {bk bk' : Book} {dev : VkDevice} {k' : CacheState}
  {phase' : Phase} {handed : Handed} {w' : World}

structure Kept (s : State) (bk : Book) : Prop where
  booked : Booked s.world bk
  reasoned : Reasoned bk
  held : ∀ pc b, s.world.caches pc = some b → b.owner = .shim →
    (∃ t, scratchOf (s.threads t) = pc) ∨ ∃ dev, pc ∈ slotHandles s.cache.devCaches dev
  masters : ∀ dev c, slotOf s.cache.devCaches dev = some c → c.pc ≠ 0 → bk.names c.pc = none
  queue : bk.masterFailed = false → ∀ dev c, slotOf s.cache.devCaches dev = some c →
    c.pc ≠ 0 ∧ (c.pending ≠ [] → c.masterInUse = true)
  ended : ∀ t b i, s.threads t = .ended b → b.scratch ≠ 0 → bk.names b.scratch = some i →
    (bk.scratches i).merged = true ∨ (bk.scratches i).refused = true
  room : Room s.cache.devCaches
  fns : s.cache.fns = allFns ∨ ((∀ i, (s.cache.devCaches i).dev = 0) ∧
    ∀ t b, (s.threads t).inFlight ≠ some b ∧ s.threads t ≠ .ended b)

theorem Kept.flagged (kept : Kept s bk) (flagged : Flagged bk bk') : Kept s bk' := by
  refine ⟨kept.booked.flagged flagged, kept.reasoned.flagged flagged, kept.held, ?_, ?_, ?_,
    kept.room, kept.fns⟩
  · rw [flagged.names]
    exact kept.masters
  · rw [flagged.masterFailed]
    exact kept.queue
  · intro t b i phase some_scratch named
    rw [flagged.names] at named
    exact (kept.ended t b i phase some_scratch named).imp (flagged.merged i) (flagged.refused i)

private theorem moved_world : (s.moved t k' phase' handed w').world = w' := by
  cases handed <;> rfl

private theorem slot_live (inv : Inv s) {c : DevCache} {pc : VkPipelineCache}
    (found : slotOf s.cache.devCaches dev = some c) (member : pc ∈ handles c) :
    ∃ b, s.world.caches pc = some b ∧ b.dev = dev ∧ b.owner = .shim := by
  have right := inv.owned.right (x := .slot dev) (h := pc) (d := (dev, .shim))
    ⟨by rwa [slotHandles_some found], rfl⟩
  obtain ⟨b, there, is_kind⟩ := Option.map_eq_some_iff.mp right
  exact ⟨b, there, congrArg Prod.fst is_kind, congrArg Prod.snd is_kind⟩

private theorem scratch_own {phase : Phase} (some_scratch : scratchOf phase ≠ 0) :
    ∃ dev, own phase = some (scratchOf phase, dev, .shim) := by
  cases phase <;> simp_all [scratchOf, own]

private theorem scratch_live (inv : Inv s) (some_scratch : scratchOf (s.threads t) ≠ 0) :
    ∃ b, s.world.caches (scratchOf (s.threads t)) = some b ∧ b.owner = .shim := by
  obtain ⟨dev, owns⟩ := scratch_own some_scratch
  have right := inv.owned.right (x := .thread t) owns
  obtain ⟨b, there, is_kind⟩ := Option.map_eq_some_iff.mp right
  exact ⟨b, there, congrArg Prod.snd is_kind⟩

private theorem Kept.move (kept : Kept s bk) (inv : Inv s) (booked : Booked w' bk')
    (reasoned : Reasoned bk') (dev : VkDevice)
    (others : ∀ other, other ≠ dev → slotOf k'.devCaches other = slotOf s.cache.devCaches other)
    (made : ∀ pc b, w'.caches pc = some b → b.owner = .shim → s.world.caches pc = some b ∨
      pc ∈ slotHandles k'.devCaches dev ∨ scratchOf phase' = pc)
    (slot : ∀ pc ∈ slotHandles s.cache.devCaches dev,
      pc ∈ slotHandles k'.devCaches dev ∨ w'.caches pc = none)
    (mine : scratchOf (s.threads t) ≠ 0 → scratchOf phase' = scratchOf (s.threads t) ∨
      scratchOf (s.threads t) ∈ slotHandles k'.devCaches dev ∨
        w'.caches (scratchOf (s.threads t)) = none)
    (names : ∀ pc, s.world.caches pc ≠ none → bk'.names pc = bk.names pc ∨ bk'.names pc = none)
    (keeps : ∀ i < bk.born, ((bk.scratches i).merged = true → (bk'.scratches i).merged = true) ∧
      ((bk.scratches i).refused = true → (bk'.scratches i).refused = true))
    (master : ∀ c, slotOf k'.devCaches dev = some c → c.pc ≠ 0 → bk'.names c.pc = none)
    (queue : bk'.masterFailed = false → bk.masterFailed = false ∧
      ∀ c, slotOf k'.devCaches dev = some c →
        c.pc ≠ 0 ∧ (c.pending ≠ [] → c.masterInUse = true))
    (ended : ∀ b i, phase' = .ended b → b.scratch ≠ 0 → bk'.names b.scratch = some i →
      (bk'.scratches i).merged = true ∨ (bk'.scratches i).refused = true)
    (room : Room k'.devCaches)
    (fns : k'.fns = allFns ∨ ((∀ i, (k'.devCaches i).dev = 0) ∧
      (∀ b, phase'.inFlight ≠ some b ∧ phase' ≠ .ended b) ∧ s.cache.fns ≠ allFns)) :
    Kept (s.moved t k' phase' handed w') bk' := by
  have thread {t' : Nat} (ne : t' ≠ t) :
      (s.moved t k' phase' handed w').threads t' = s.threads t' := by
    rw [moved_threads, Function.update_of_ne ne]
  have me : (s.moved t k' phase' handed w').threads t = phase' := by
    rw [moved_threads, Function.update_self]
  refine ⟨?_, reasoned, ?_, ?_, ?_, ?_, ?_, ?_⟩
  · rw [moved_world]
    exact booked
  · intro pc b there shim
    rw [moved_world] at there
    rw [moved_cache]
    rcases made pc b there shim with before | in_slot | in_batch
    · rcases kept.held pc b before shim with ⟨t', is_scratch⟩ | ⟨other, member⟩
      · rcases eq_or_ne t' t with rfl | ne
        · have some_scratch : scratchOf (s.threads t') ≠ 0 := by
            rw [is_scratch]
            exact (inv.sound.cache before).1
          rcases mine some_scratch with same | queued | gone
          · exact .inl ⟨t', by rw [me, same, is_scratch]⟩
          · exact .inr ⟨dev, is_scratch ▸ queued⟩
          · rw [is_scratch] at gone
            cases gone.symm.trans there
        · exact .inl ⟨t', by rw [thread ne, is_scratch]⟩
      · rcases eq_or_ne other dev with rfl | ne
        · rcases slot pc member with stays | gone
          · exact .inr ⟨other, stays⟩
          · cases gone.symm.trans there
        · exact .inr ⟨other, by rwa [slotHandles, others other ne]⟩
    · exact .inr ⟨dev, in_slot⟩
    · exact .inl ⟨t, by rw [me, in_batch]⟩
  · intro other c found some_pc
    rw [moved_cache] at found
    rcases eq_or_ne other dev with rfl | ne
    · exact master c found some_pc
    · rw [others other ne] at found
      have member : c.pc ∈ handles c := by simp [some_pc]
      obtain ⟨b, there, -⟩ := slot_live inv found member
      rcases names c.pc (by simp [there]) with same | none_now
      · exact same.trans (kept.masters other c found some_pc)
      · exact none_now
  · intro never other c found
    obtain ⟨never_before, here⟩ := queue never
    rw [moved_cache] at found
    rcases eq_or_ne other dev with rfl | ne
    · exact here c found
    · exact kept.queue never_before other c (others other ne ▸ found)
  · intro t' b i phase some_scratch named
    rcases eq_or_ne t' t with rfl | ne
    · rw [me] at phase
      exact ended b i phase some_scratch named
    · rw [thread ne] at phase
      have is_scratch : scratchOf (s.threads t') = b.scratch := by rw [phase]; rfl
      obtain ⟨birth, there, -⟩ := scratch_live inv (t := t') (is_scratch ▸ some_scratch)
      rw [is_scratch] at there
      have was : bk.names b.scratch = some i := by
        rcases names b.scratch (by simp [there]) with same | none_now
        · exact same.symm.trans named
        · cases none_now.symm.trans named
      obtain ⟨merged, refused⟩ := keeps i (kept.booked.named was).1
      exact (kept.ended t' b i phase some_scratch was).imp merged refused
  · rw [moved_cache]
    exact room
  · rw [moved_cache]
    rcases fns with all | ⟨empty, unbegun, not_all⟩
    · exact .inl all
    · refine .inr ⟨empty, fun t' b => ?_⟩
      rcases eq_or_ne t' t with rfl | ne
      · rw [me]
        exact unbegun b
      · rw [thread ne]
        exact (kept.fns.resolve_left not_all).2 t' b

private theorem Kept.still (kept : Kept s bk) (inv : Inv s)
    (table : k'.devCaches = s.cache.devCaches) (same_fns : k'.fns = s.cache.fns)
    (booked : Booked w' bk') (reasoned : Reasoned bk')
    (caches : ∀ pc b, w'.caches pc = some b → b.owner = .shim → s.world.caches pc = some b)
    (mine : scratchOf (s.threads t) ≠ 0 → scratchOf phase' = scratchOf (s.threads t) ∨
      w'.caches (scratchOf (s.threads t)) = none)
    (names : ∀ pc, s.world.caches pc ≠ none → bk'.names pc = bk.names pc ∨ bk'.names pc = none)
    (keeps : Keeps bk bk') (never : bk'.masterFailed = false → bk.masterFailed = false)
    (unended : ∀ b, phase' ≠ .ended b)
    (flight : ∀ b, phase'.inFlight = some b → ∃ b', (s.threads t).inFlight = some b') :
    Kept (s.moved t k' phase' handed w') bk' := by
  refine kept.move inv booked reasoned 0 (fun other _ => by rw [table])
    (fun pc b there shim => .inl (caches pc b there shim)) (fun pc member => .inl (table ▸ member))
    (fun some_scratch => (mine some_scratch).imp_right .inr) names (fun i _ => keeps i) ?_ ?_
    (fun b i is_ended => absurd is_ended (unended b)) (table ▸ kept.room) ?_
  · intro c found some_pc
    exact absurd rfl (slotOf_dev found).2
  · intro still_never
    exact ⟨never still_never, fun c found => absurd rfl (slotOf_dev found).2⟩
  · rw [same_fns, table]
    by_cases all : s.cache.fns = allFns
    · exact .inl all
    · obtain ⟨empty, unbegun⟩ := kept.fns.resolve_left all
      refine .inr ⟨empty, fun b => ⟨fun is_flight => ?_, unended b⟩, all⟩
      obtain ⟨b', was⟩ := flight b is_flight
      exact (unbegun t b').1 was

/-- What a stretch has to do about the book. -/
abbrev Marks (p : Process) (s : State) (t : Nat) (bk : Book) : Prop :=
  (advance p s.cache (s.threads t)).Ensures (noting s t) (Fair s) (s.world, bk) (fun r x' =>
    Booked x'.1 x'.2 → Reasoned x'.2 → Kept (s.moved t r.1 r.2.1 r.2.2 x'.1) x'.2)

private theorem Kept.onward (kept : Kept s bk) (inv : Inv s)
    (table : k'.devCaches = s.cache.devCaches) (same_fns : k'.fns = s.cache.fns)
    (mine : scratchOf phase' = scratchOf (s.threads t)) (unended : ∀ b, phase' ≠ .ended b)
    (flight : ∀ b, phase'.inFlight = some b → ∃ b', (s.threads t).inFlight = some b') :
    Kept (s.moved t k' phase' handed s.world) bk :=
  kept.still inv table same_fns kept.booked kept.reasoned (fun _ _ there _ => there)
    (fun _ => .inl mine) (fun _ _ => .inl rfl) (fun _ => ⟨id, id⟩) id unended flight

variable {b : Batch}

private theorem marks_idle (inv : Inv s) (kept : Kept s bk) (phase : s.threads t = .idle) :
    Marks p s t bk := by
  rw [Marks, phase]
  exact fun _ _ => kept.onward inv rfl rfl (by rw [phase]) (by simp) (by rintro b ⟨⟩)

private theorem marks_ready (inv : Inv s) (kept : Kept s bk) (phase : s.threads t = .ready b) :
    Marks p s t bk := by
  rw [Marks, phase]
  simp only [advance, batchCompile, Prog.ensures_bind]
  refine ⟨trivial, fun now x₁ first => ⟨trivial, fun r x₂ second => ?_⟩⟩
  obtain rfl : x₁ = (s.world, bk) := Prod.ext first.1 first.2
  obtain rfl : x₂ = (s.world, bk) := Prod.ext second.1 second.2
  exact fun _ _ => kept.onward inv rfl rfl (by rw [phase]; rfl) (by simp)
    fun _ _ => ⟨b, by rw [phase]; rfl⟩

private theorem marks_compiling (inv : Inv s) (kept : Kept s bk)
    (phase : s.threads t = .compiling b) : Marks p s t bk := by
  rw [Marks, phase]
  simp only [advance, batchCompiled, Prog.ensures_bind]
  refine ⟨trivial, fun now x₁ first => ?_⟩
  obtain rfl : x₁ = (s.world, bk) := Prod.ext first.1 first.2
  exact fun _ _ => kept.onward inv rfl rfl (by rw [phase]; rfl) (by simp)
    fun _ _ => ⟨b, by rw [phase]; rfl⟩

private theorem marks_reading {pc : VkPipelineCache} {room : Option Nat} (inv : Inv s)
    (kept : Kept s bk) (phase : s.threads t = .reading dev pc room) : Marks p s t bk := by
  rw [Marks, phase]
  cases room
  all_goals
    refine ⟨trivial, fun r x₁ first => ?_⟩
    obtain rfl : x₁ = (s.world, bk) := Prod.ext first.1 first.2
    exact fun _ _ => kept.onward inv rfl rfl (by rw [phase]; rfl) (by simp) (by rintro b ⟨⟩)

private theorem marks_merging {dst : VkPipelineCache} {srcs : List VkPipelineCache} (inv : Inv s)
    (kept : Kept s bk) (phase : s.threads t = .merging dev dst srcs) : Marks p s t bk := by
  rw [Marks, phase]
  refine ⟨trivial, fun r x₁ merged => ?_⟩
  obtain ⟨w₁, bk₁⟩ := x₁
  obtain ⟨rfl, noted⟩ : w₁ = s.world ∧
    bk₁ = note s t bk s.world (.mergePipelineCaches dev dst srcs) r := merged
  have flagged : Flagged bk bk₁ := by
    rw [noted, note]
    split_ifs
    · exact flagged_merge bk srcs
    · exact flagged_refl bk
  intro booked reasoned
  exact kept.still inv rfl rfl booked reasoned (fun _ _ there _ => there)
    (fun _ => .inl (by rw [phase]; rfl)) (fun _ _ => .inl (by rw [flagged.names])) flagged.keeps
    (fun never => flagged.masterFailed ▸ never) (by simp) (by rintro b ⟨⟩)

private theorem marks_makingDevice (inv : Inv s) (kept : Kept s bk)
    (phase : s.threads t = .makingDevice) : Marks p s t bk := by
  rw [Marks, phase]
  refine ⟨trivial, fun made x₁ answered => ?_⟩
  obtain ⟨w₁, bk₁⟩ := x₁
  cases made with
  | none =>
      obtain ⟨rfl, rfl⟩ : w₁ = s.world ∧ bk₁ = bk := answered
      exact fun _ _ => kept.onward inv rfl rfl (by rw [phase]; rfl) (by simp) (by rintro b ⟨⟩)
  | some dev =>
      obtain ⟨⟨-, -, rfl⟩, rfl⟩ : (dev ≠ 0 ∧ s.world.devices dev = none ∧
        w₁ = s.world.addDevice dev) ∧ bk₁ = bk := answered
      intro booked reasoned
      exact kept.still inv rfl rfl booked reasoned (fun _ _ there _ => there)
        (fun some_scratch => absurd (by rw [phase]; rfl) some_scratch) (fun _ _ => .inl rfl)
        (fun _ => ⟨id, id⟩) id (by simp) (by rintro b ⟨⟩)

private theorem marks_madeDevice (inv : Inv s) (kept : Kept s bk)
    (phase : s.threads t = .madeDevice dev) : Marks p s t bk := by
  have claim : claims (s.threads t) = some dev := by rw [phase]; rfl
  have no_slot := Inv.no_slot inv claim (by simp [phase])
  rw [Marks, phase]
  simp only [advance, no_slot, dropDiskCache, Prog.ensures_bind]
  exact fun _ _ => kept.onward inv rfl rfl (by rw [phase]; rfl) (by simp) (by rintro b ⟨⟩)

private theorem Kept.prepared {x' : World × Book} (kept : Kept s bk) (inv : Inv s)
    (prepared : Prepared dev s.cache k' (s.world, bk) x') (booked : Booked x'.1 x'.2)
    (reasoned : Reasoned x'.2) (no_scratch : scratchOf (s.threads t) = 0)
    (unended : ∀ b, phase' ≠ .ended b) :
    Kept (s.moved t k' phase' handed x'.1) x'.2 := by
  have shape : (x' = (s.world, bk)) ∨ x' = (s.world, { bk with masterFailed := true }) ∨
      ∃ c', slotOf k'.devCaches dev = some c' ∧ c'.pc ≠ 0 ∧ s.world.caches c'.pc = none ∧
        x' = (s.world.addCache c'.pc dev .shim, bk.forget c'.pc) := by
    cases found : slotOf k'.devCaches dev with
    | none => exact .inl (prepared.none_there found).2
    | some c' =>
        rcases (prepared.slot c' found).2.2 with ⟨-, -, same⟩ | ⟨-, -, failed⟩ |
          ⟨some_pc, -, fresh, made⟩
        · exact .inl same
        · exact .inr (.inl failed)
        · exact .inr (.inr ⟨c', rfl, some_pc, fresh, made⟩)
  refine kept.move inv booked reasoned dev prepared.table.others ?_ ?_
    (fun some_scratch => absurd no_scratch some_scratch) ?_ ?_ ?_ ?_
    (fun b i is_ended => absurd is_ended (unended b)) (prepared.room kept.room)
    (.inl (prepared.fns (kept.fns.imp_right And.left)))
  · intro pc b there shim
    rcases shape with rfl | rfl | ⟨c', found, some_pc, fresh, rfl⟩
    · exact .inl there
    · exact .inl there
    · rcases eq_or_ne pc c'.pc with rfl | ne
      · exact .inr (.inl (by rw [slotHandles_some found]; simp [some_pc]))
      · exact .inl ((World.caches_addCache .shim ne).symm.trans there)
  · intro pc member
    refine .inl ?_
    cases found : slotOf k'.devCaches dev with
    | none =>
        rw [slotHandles_none (prepared.none_there found).1] at member
        cases member
    | some c' =>
        obtain ⟨pending, -, has⟩ := prepared.slot c' found
        cases before : slotOf s.cache.devCaches dev with
        | none =>
            rw [slotHandles_none before] at member
            cases member
        | some c =>
            rw [slotHandles_some before, mem_handles] at member
            rw [before, Option.getD_some] at pending
            have master : masterOf s.cache.devCaches dev = c.pc := by
              rw [masterOf, before]
              rfl
            rw [slotHandles_some found, mem_handles, pending]
            refine member.imp_left fun is_master => ?_
            rcases has with ⟨some_pc, ⟨c₀, same, same_pc⟩, -⟩ | ⟨-, none_there, -⟩ |
              ⟨-, none_there, -⟩
            · obtain rfl := Option.some.inj (before.symm.trans same)
              exact ⟨is_master.1.trans same_pc, some_pc⟩
            · exact absurd (master.symm.trans none_there) is_master.2
            · exact absurd (master.symm.trans none_there) is_master.2
  · intro pc _
    rcases shape with rfl | rfl | ⟨c', -, -, -, rfl⟩
    · exact .inl rfl
    · exact .inl rfl
    · rcases eq_or_ne pc c'.pc with rfl | ne
      · exact .inr (Function.update_self ..)
      · exact .inl (Function.update_of_ne ne ..)
  · rcases shape with rfl | rfl | ⟨c', -, -, -, rfl⟩ <;> exact fun _ _ => ⟨id, id⟩
  · intro c' found some_pc
    rcases (prepared.slot c' found).2.2 with ⟨-, ⟨c, before, same_pc⟩, rfl⟩ | ⟨null, -⟩ |
      ⟨-, -, -, rfl⟩
    · rw [← same_pc]
      exact kept.masters dev c before (same_pc ▸ some_pc)
    · exact absurd null some_pc
    · exact Function.update_self ..
  · intro never
    have never_before : bk.masterFailed = false := by
      rcases shape with rfl | rfl | ⟨c', -, -, -, rfl⟩
      · exact never
      · cases never
      · exact never
    refine ⟨never_before, fun c' found => ?_⟩
    obtain ⟨pending, used, has⟩ := prepared.slot c' found
    rcases has with ⟨some_pc, ⟨c, before, -⟩, -⟩ | ⟨-, -, rfl⟩ | ⟨some_pc, none_there, -⟩
    · refine ⟨some_pc, fun waiting => used c before ?_⟩
      rw [before, Option.getD_some] at pending
      exact (kept.queue never_before dev c before).2 (pending ▸ waiting)
    · cases never
    · refine ⟨some_pc, fun waiting => ?_⟩
      cases before : slotOf s.cache.devCaches dev with
      | none =>
          rw [before] at pending
          exact absurd pending waiting
      | some c =>
          have master : masterOf s.cache.devCaches dev = c.pc := by
            rw [masterOf, before]
            rfl
          exact absurd (master.symm.trans none_there)
            (kept.queue never_before dev c before).1

private theorem Kept.left {x' : World × Book} (kept : Kept s bk) (inv : Inv s)
    (left : Left dev s.cache.devCaches k'.devCaches (s.world, bk) x')
    (booked : Booked x'.1 x'.2) (reasoned : Reasoned x'.2)
    (mine : scratchOf (s.threads t) ≠ 0 → scratchOf phase' = scratchOf (s.threads t) ∨
      scratchOf (s.threads t) ∈ slotHandles k'.devCaches dev)
    (ended : ∀ b i, phase' = .ended b → b.scratch ≠ 0 → x'.2.names b.scratch = some i →
      (x'.2.scratches i).merged = true ∨ (x'.2.scratches i).refused = true)
    (fns : k'.fns = allFns ∨ ((∀ i, (k'.devCaches i).dev = 0) ∧
      (∀ b, phase'.inFlight ≠ some b ∧ phase' ≠ .ended b) ∧ s.cache.fns ≠ allFns)) :
    Kept (s.moved t k' phase' handed x'.1) x'.2 := by
  refine kept.move inv booked reasoned dev left.table.others ?_ left.gone
    (fun some_scratch => (mine some_scratch).imp_right .inl)
    (fun pc _ => .inl (congrFun left.names pc)) (fun i _ => left.keeps i) ?_ ?_ ended
    (left.room kept.room) fns
  · intro pc b there _
    rcases left.fewer pc with same | gone
    · exact .inl (same.symm.trans there)
    · cases gone.symm.trans there
  · intro c' found some_pc
    obtain ⟨c, before, same_pc, -⟩ := left.slot c' found
    rw [left.names, same_pc]
    exact kept.masters dev c before (same_pc ▸ some_pc)
  · intro never
    have never_before : bk.masterFailed = false := left.masterFailed.symm.trans never
    refine ⟨never_before, fun c' found => ?_⟩
    obtain ⟨c, before, same_pc, how⟩ := left.slot c' found
    obtain ⟨some_pc, waits⟩ := kept.queue never_before dev c before
    refine ⟨same_pc ▸ some_pc, fun waiting => ?_⟩
    rcases how with empty | ⟨used, same | in_use | null⟩
    · exact absurd empty waiting
    · rw [used]
      exact waits (same ▸ waiting)
    · rw [used]
      exact in_use
    · exact absurd null some_pc

private theorem Kept.titled (kept : Kept s bk) : Titled bk :=
  fun _ _ named => (kept.booked.named named).2.1

private theorem Kept.fresh (kept : Kept s bk) (inv : Inv s) (dev : VkDevice) (c : DevCache)
    (found : slotOf s.cache.devCaches dev = some c) : Fresh bk c.pending := by
  intro pc queued i named
  obtain ⟨b, there, -⟩ := slot_live inv found (mem_handles.mpr (.inr queued))
  exact (kept.booked.current named there).2.2.1

private theorem Kept.resolved (kept : Kept s bk) (flight : (s.threads t).inFlight = some b ∨
    s.threads t = .ended b) : s.cache.fns = allFns :=
  kept.fns.resolve_right fun unresolved =>
    flight.elim (unresolved.2 t b).1 (unresolved.2 t b).2

private theorem marks_arrived (exported : p.exported = allFns) (inv : Inv s) (kept : Kept s bk)
    (phase : s.threads t = .arrived b) : Marks p s t bk := by
  have used : (s.threads t).uses = some b.dev := by rw [phase]; rfl
  obtain ⟨n, device⟩ := Inv.device_used inv used
  have shape := inv.batches.shaped t
  rw [phase] at shape
  obtain ⟨-, no_scratch, -⟩ := shape
  have not_begun : ∀ b, s.threads t ≠ .begun b := by simp [phase]
  rw [Marks, phase]
  simp only [advance, Prog.ensures_bind]
  refine (noted_batchBegin exported inv.keyed (inv.sound.device device) not_begun).mono ?_
  rintro ⟨k', b'⟩ x' ⟨prepared, -⟩ booked reasoned
  refine kept.prepared inv prepared booked reasoned ?_ (by simp)
  rw [phase]
  exact no_scratch

private theorem marks_created {out : VkPipelineCache} (exported : p.exported = allFns)
    (inv : Inv s) (kept : Kept s bk) (phase : s.threads t = .created dev out) :
    Marks p s t bk := by
  have used : (s.threads t).uses = some dev := by rw [phase]; rfl
  obtain ⟨n, device⟩ := Inv.device_used inv used
  have mine : Holds s (.thread t) out (dev, .app) := by simp [Holds, phase, own]
  have not_begun : ∀ b, s.threads t ≠ .begun b := by simp [phase]
  have other : out ≠ masterOf s.cache.devCaches dev := by
    intro is_master
    have nonzero : out ≠ 0 := by
      rintro rfl
      exact inv.sound.null (inv.owned.right mine)
    cases found : slotOf s.cache.devCaches dev with
    | none =>
        rw [masterOf, found] at is_master
        exact nonzero is_master
    | some c =>
        rw [masterOf, found, Option.elim_some] at is_master
        have member : out ∈ handles c := mem_handles.mpr (.inl ⟨is_master, is_master ▸ nonzero⟩)
        have held : Holds s (.slot dev) out (dev, .shim) :=
          ⟨by rwa [slotHandles_some found], rfl⟩
        cases inv.owned.alone mine held
  rw [Marks, phase]
  simp only [advance, Prog.ensures_bind]
  refine (noted_primeAppCache exported inv.keyed (inv.sound.device device) not_begun other).mono ?_
  intro k' x' prepared booked reasoned
  refine kept.prepared inv prepared booked reasoned ?_ (by simp)
  rw [phase]
  rfl

private theorem marks_compiled (inv : Inv s) (kept : Kept s bk)
    (phase : s.threads t = .compiled b)
    (refused : refuses s.cache.devCaches b.dev = true → ∀ j, bk.names b.scratch = some j →
      (bk.scratches j).refused = true) : Marks p s t bk := by
  have shape := inv.batches.shaped t
  rw [phase] at shape
  obtain ⟨own_bare, app_bare, -⟩ := shape
  have resolved := kept.resolved (t := t) (b := b) (.inl (by rw [phase]; rfl))
  have is_scratch : scratchOf (s.threads t) = b.scratch := by rw [phase]; rfl
  have mine : Fresh bk [b.scratch] := by
    intro pc member i named
    obtain rfl := List.mem_singleton.mp member
    have some_scratch := (kept.booked.named named).2.2
    obtain ⟨birth, there, -⟩ := scratch_live inv (t := t) (is_scratch ▸ some_scratch)
    exact (kept.booked.current named (is_scratch ▸ there)).2.2.1
  rw [Marks, phase]
  simp only [advance, Prog.ensures_bind]
  refine (noted_batchEnd inv.keyed resolved kept.titled (kept.fresh inv b.dev) mine
    (fun is_own => (own_bare is_own).2) (fun app => (app_bare app).2) refused).mono ?_
  rintro ⟨k', b'⟩ x' ⟨left, same_fns, parted⟩ booked reasoned
  refine kept.left inv left booked reasoned (fun some_scratch => ?_) ?_
    (.inl (same_fns.trans resolved))
  · rw [is_scratch]
    rcases parted with ⟨rfl, -⟩ | ⟨-, queued⟩
    · exact .inl rfl
    · exact .inr queued
  · rintro _ i ⟨⟩ some_scratch named
    rcases parted with ⟨rfl, excused⟩ | ⟨rfl, -⟩
    · exact excused some_scratch i named
    · exact absurd rfl some_scratch

private theorem marks_ended (inv : Inv s) (kept : Kept s bk) (phase : s.threads t = .ended b) :
    Marks p s t bk := by
  have is_scratch : scratchOf (s.threads t) = b.scratch := by rw [phase]; rfl
  rw [Marks, phase]
  simp only [advance, batchRelease, kept.resolved (.inr phase), Prog.ensures_bind]
  by_cases none_left : b.scratch = 0
  · rw [if_neg (by simp [none_left])]
    intro _ _
    refine kept.onward inv rfl rfl ?_ (by simp) (by rintro b ⟨⟩)
    rw [is_scratch, none_left]
    rfl
  · rw [if_pos ⟨none_left, rfl⟩]
    refine noted_destroy (fun i named => ?_) fun x' swept booked reasoned => ?_
    · exact (kept.ended t b i phase none_left named).imp_right .inl
    · refine kept.still inv rfl rfl booked reasoned (fun pc birth there _ => ?_) (fun _ => ?_)
        (fun pc _ => .inl (congrFun swept.names pc)) swept.keeps
        (fun never => swept.masterFailed.symm.trans never) (by simp) (by rintro b ⟨⟩)
      · exact (swept.fewer pc).elim (fun same => same.symm.trans there)
          fun gone => by cases gone.symm.trans there
      · rw [is_scratch]
        exact .inr (swept.gone b.scratch (List.mem_singleton.mpr rfl))

private theorem marks_droppingDevice (inv : Inv s) (kept : Kept s bk)
    (phase : s.threads t = .droppingDevice dev) : Marks p s t bk := by
  have no_scratch : scratchOf (s.threads t) = 0 := by rw [phase]; rfl
  have claim : claims (s.threads t) = some dev := by rw [phase]; rfl
  obtain ⟨-, n, device⟩ := inv.usage.claimed claim
  by_cases resolved : s.cache.fns = allFns
  · rw [Marks, phase]
    simp only [advance, Prog.ensures_bind]
    refine (noted_dropDiskCache inv.keyed resolved kept.titled (kept.fresh inv dev)
      (kept.masters dev)).mono ?_
    rintro k' x' ⟨left, same_fns⟩ booked reasoned
    exact kept.left inv left booked reasoned (fun some_scratch => absurd no_scratch some_scratch)
      (by simp) (.inl (same_fns.trans resolved))
  · -- there is no slot before the functions are known
    have unslotted : cacheLookup s.cache.devCaches dev = none := by
      obtain ⟨empty, -⟩ := kept.fns.resolve_left resolved
      cases lookup : cacheLookup s.cache.devCaches dev with
      | none => rfl
      | some i =>
          exact absurd ((cacheLookup_dev lookup).1.symm.trans (empty i)) (inv.sound.device device)
    rw [Marks, phase]
    simp only [advance, unslotted, dropDiskCache, Prog.ensures_bind]
    exact fun _ _ => kept.onward inv rfl rfl (by rw [phase]; rfl) (by simp) (by rintro b ⟨⟩)

private theorem Kept.unnamed_own {pc : VkPipelineCache} {x : Holder} (kept : Kept s bk)
    (inv : Inv s) (held : Holds s x pc (dev, .app)) : bk.names pc = none := by
  obtain ⟨b, there, is_kind⟩ := Option.map_eq_some_iff.mp (inv.owned.right held)
  have other : b.owner ≠ .shim := by
    rw [show b.owner = .app from congrArg Prod.snd is_kind]
    simp
  exact kept.booked.unnamed there other

private theorem Kept.unnamed_null (kept : Kept s bk) : bk.names 0 = none := by
  cases named : bk.names 0 with
  | none => rfl
  | some i => exact absurd rfl (kept.booked.named named).2.2

private theorem Kept.apart (kept : Kept s bk) (inv : Inv s) (pc : VkPipelineCache)
    (is_given : pc ∈ given (s.threads t)) : bk.names pc = none := by
  have lent (among : pc ∈ (s.threads t).lent) (used : ∃ dev, (s.threads t).uses = some dev) :
      bk.names pc = none := by
    obtain ⟨dev, used⟩ := used
    by_cases null : pc = 0
    · exact null ▸ kept.unnamed_null
    · exact kept.unnamed_own (x := .app) inv ⟨inv.usage.lent used among null, rfl⟩
  cases phase : s.threads t with
  | created dev out =>
      rw [phase] at is_given
      obtain rfl := List.mem_singleton.mp is_given
      exact kept.unnamed_own (x := .thread t) inv (by rw [Holds, phase]; rfl)
  | destroying dev pc' =>
      rw [phase] at is_given
      obtain rfl := List.mem_singleton.mp is_given
      by_cases null : pc = 0
      · exact null ▸ kept.unnamed_null
      · have held : Holds s (.thread t) pc (dev, .app) := by simp [Holds, phase, own, null]
        exact kept.unnamed_own inv held
  | _ =>
      rw [phase] at is_given lent
      first
        | exact lent is_given ⟨_, rfl⟩
        | cases is_given

private theorem marks_creating {initial : Bytes} (inv : Inv s) (kept : Kept s bk)
    (phase : s.threads t = .creating dev initial) : Marks p s t bk := by
  have no_scratch : scratchOf (s.threads t) = 0 := by rw [phase]; rfl
  have not_begun : ∀ b, s.threads t ≠ .begun b := by simp [phase]
  rw [Marks, phase]
  simp only [advance, createAppCache, Prog.ensures_bind, Prog.ensures_call]
  refine ⟨trivial, fun made x₁ answered => ?_⟩
  obtain ⟨driver, noted⟩ := answered
  obtain ⟨w₁, bk₁⟩ := x₁
  simp only at driver noted
  subst noted
  cases made with
  | none =>
      obtain rfl : w₁ = s.world := driver
      rw [note_failed not_begun]
      intro booked reasoned
      exact kept.still inv rfl rfl booked reasoned (fun _ _ there _ => there)
        (fun some_scratch => absurd no_scratch some_scratch) (fun _ _ => .inl rfl)
        (fun _ => ⟨id, id⟩) (fun never => (Bool.or_eq_false_iff.mp never).1) (by simp)
        (by rintro b ⟨⟩)
  | some out =>
      obtain ⟨nonzero, fresh, rfl⟩ := driver
      rw [note_made not_begun]
      have after {phase' : Phase} {handed : Handed} {gate : Gate}
          (unended : ∀ b, phase' ≠ .ended b) (unbegun : ∀ b, phase'.inFlight ≠ some b)
          (booked : Booked (s.world.addCache out dev .app) (bk.forget out))
          (reasoned : Reasoned (bk.forget out)) :
          Kept (s.moved t { s.cache with cachePrime := gate } phase' handed
            (s.world.addCache out dev .app)) (bk.forget out) := by
        refine kept.still inv rfl rfl booked reasoned (fun pc b there shim => ?_)
          (fun some_scratch => absurd no_scratch some_scratch) (fun pc known => ?_)
          (fun _ => ⟨id, id⟩) id unended (fun b flight => absurd flight (unbegun b))
        · have ne : pc ≠ out := by
            rintro rfl
            simp only [World.addCache, Function.update_self] at there
            obtain ⟨n, -, rfl⟩ := Option.map_eq_some_iff.mp there
            cases shim
          exact (World.caches_addCache .app ne).symm.trans there
        · have ne : pc ≠ out := by
            rintro rfl
            exact known fresh
          exact .inl (Function.update_of_ne ne ..)
      simp only [Prog.ensures_bind]
      refine (noted_quiet (always_readPropOn _ _)).mono ?_
      rintro ⟨prime, gate⟩ _ ⟨-, rfl⟩
      cases prime with
      | true => exact after (by simp) (by simp [Phase.inFlight])
      | false => exact after (by simp) (by simp [Phase.inFlight])

private theorem marks_destroying {pc : VkPipelineCache} (inv : Inv s) (kept : Kept s bk)
    (phase : s.threads t = .destroying dev pc) : Marks p s t bk := by
  have no_scratch : scratchOf (s.threads t) = 0 := by rw [phase]; rfl
  have unnamed : bk.names pc = none := by
    refine kept.apart (t := t) inv pc ?_
    rw [phase]
    exact List.mem_singleton.mpr rfl
  rw [Marks, phase]
  simp only [advance, shimDestroyPipelineCache, Prog.ensures_bind]
  refine noted_destroy (fun i named => ?_) fun x' swept booked reasoned => ?_
  · cases unnamed.symm.trans named
  · refine kept.still inv rfl rfl booked reasoned (fun h birth there _ => ?_)
      (fun some_scratch => absurd no_scratch some_scratch)
      (fun h _ => .inl (congrFun swept.names h)) swept.keeps
      (fun never => swept.masterFailed.symm.trans never) (by simp) (by rintro b ⟨⟩)
    exact (swept.fewer h).elim (fun same => same.symm.trans there)
      fun gone => by cases gone.symm.trans there

private theorem marks_advance (exported : p.exported = allFns) (inv : Inv s) (kept : Kept s bk)
    (not_begun : ∀ b, s.threads t ≠ .begun b)
    (not_dropped : ∀ dev, s.threads t ≠ .droppedDevice dev)
    (refused : ∀ b, s.threads t = .compiled b → refuses s.cache.devCaches b.dev = true →
      ∀ j, bk.names b.scratch = some j → (bk.scratches j).refused = true) : Marks p s t bk := by
  cases phase : s.threads t with
  | idle => exact marks_idle inv kept phase
  | arrived b => exact marks_arrived exported inv kept phase
  | begun b => exact absurd phase (not_begun b)
  | ready b => exact marks_ready inv kept phase
  | compiling b => exact marks_compiling inv kept phase
  | compiled b => exact marks_compiled inv kept phase (refused b phase)
  | ended b => exact marks_ended inv kept phase
  | creating dev initial => exact marks_creating inv kept phase
  | created dev out => exact marks_created exported inv kept phase
  | merging dev dst srcs => exact marks_merging inv kept phase
  | reading dev pc room => exact marks_reading inv kept phase
  | destroying dev pc => exact marks_destroying inv kept phase
  | makingDevice => exact marks_makingDevice inv kept phase
  | madeDevice dev => exact marks_madeDevice inv kept phase
  | droppingDevice dev => exact marks_droppingDevice inv kept phase
  | droppedDevice dev => exact absurd phase (not_dropped dev)

private theorem Kept.stretch {r : CacheState × Phase × Handed} {x' : World × Book}
    (exported : p.exported = allFns) (inv : Inv s) (kept : Kept s bk)
    (not_begun : ∀ b, s.threads t ≠ .begun b)
    (not_dropped : ∀ dev, s.threads t ≠ .droppedDevice dev)
    (refused : ∀ b, s.threads t = .compiled b → refuses s.cache.devCaches b.dev = true →
      ∀ j, bk.names b.scratch = some j → (bk.scratches j).refused = true)
    (run : (advance p s.cache (s.threads t)).Runs (noting s t) (s.world, bk) r x') :
    Kept (s.moved t r.1 r.2.1 r.2.2 x'.1) x'.2 := by
  have marks := marks_advance exported inv kept not_begun not_dropped refused
  have start : Consistent (· ∈ given (s.threads t)) (s.world, bk) :=
    ⟨inv.sound, kept.booked, kept.reasoned, kept.apart inv⟩
  have both := (((safe_advance inv).noted bk).and marks).keep
    (fun _ _ _ _ guard answered => Consistent.keep not_begun guard answered) start
  obtain ⟨⟨-, keeps⟩, after⟩ := both.of_runs run
  exact keeps after.booked after.reasoned

private theorem booked_bear {n : Nat} {pc : VkPipelineCache} {w : World} (booked : Booked w bk)
    (device : w.devices dev = some n) (nonzero : pc ≠ 0) (fresh : w.caches pc = none) :
    Booked (w.addCache pc dev .shim) (bk.bear w dev pc) := by
  have new : (bk.bear w dev pc).scratches bk.born =
      ⟨pc, dev, n, false, false, false, 0, false⟩ := by
    simp [Book.bear, device]
  have old {i : Nat} (lt : i < bk.born) : (bk.bear w dev pc).scratches i = bk.scratches i :=
    Function.update_of_ne lt.ne ..
  have names_new : (bk.bear w dev pc).names pc = some bk.born := Function.update_self ..
  have names_old {h : VkPipelineCache} (ne : h ≠ pc) : (bk.bear w dev pc).names h = bk.names h :=
    Function.update_of_ne ne ..
  refine ⟨fun {h i} named => ?_, fun {i} lt zero => ?_, fun {i} lt some_time named => ?_,
    fun {i} lt => ?_⟩
  · rcases eq_or_ne h pc with rfl | ne
    · obtain rfl := Option.some.inj (names_new.symm.trans named)
      rw [new]
      exact ⟨Nat.lt_succ_self _, rfl, nonzero⟩
    · rw [names_old ne] at named
      obtain ⟨lt, handle, some_handle⟩ := booked.named named
      rw [old lt]
      exact ⟨Nat.lt_succ_of_lt lt, handle, some_handle⟩
  · rcases Nat.lt_succ_iff_lt_or_eq.mp lt with before | rfl
    · rw [old before] at zero ⊢
      obtain ⟨named, there⟩ := booked.live before zero
      have ne : (bk.scratches i).handle ≠ pc := by
        intro same
        rw [same, fresh] at there
        cases there
      exact ⟨(names_old ne).trans named, (World.caches_addCache .shim ne).trans there⟩
    · rw [new]
      exact ⟨names_new, by simp [World.addCache, device]⟩
  · rcases Nat.lt_succ_iff_lt_or_eq.mp lt with before | rfl
    · rw [old before] at some_time named ⊢
      have ne : (bk.scratches i).handle ≠ pc := by
        intro same
        rw [same, names_new] at named
        exact before.ne (Option.some.inj named).symm
      rw [names_old ne] at named
      exact (World.caches_addCache .shim ne).trans (booked.dead before some_time named)
    · rw [new] at some_time
      exact absurd rfl some_time
  · rcases Nat.lt_succ_iff_lt_or_eq.mp lt with before | rfl
    · rw [old before]
      exact booked.once before
    · rw [new]
      exact ⟨Nat.zero_le _, rfl⟩

private theorem Kept.begun {r : CacheState × Phase × Handed} {x' : World × Book} (inv : Inv s)
    (kept : Kept s bk) (phase : s.threads t = .begun b)
    (run : (advance p s.cache (s.threads t)).Runs (noting s t) (s.world, bk) r x') :
    Kept (s.moved t r.1 r.2.1 r.2.2 x'.1) x'.2 := by
  have used : (s.threads t).uses = some b.dev := by rw [phase]; rfl
  obtain ⟨n, device⟩ := Inv.device_used inv used
  have shape := inv.batches.shaped t
  rw [phase] at shape
  have no_scratch : scratchOf (s.threads t) = 0 := by rw [phase]; exact shape.1
  have resolved := kept.resolved (t := t) (b := b) (.inl (by rw [phase]; rfl))
  have unchanged : Kept (s.moved t s.cache (.ready b) .nothing s.world) bk :=
    kept.onward inv rfl rfl (by rw [phase]; rfl) (by simp) fun _ _ => ⟨b, by rw [phase]; rfl⟩
  have marks : (advance p s.cache (.begun b)).Ensures (noting s t) (fun _ _ => True)
      (s.world, bk) (fun r x' => Kept (s.moved t r.1 r.2.1 r.2.2 x'.1) x'.2) := by
    simp only [advance, batchScratch, Prog.ensures_bind]
    split_ifs with wanted
    · simp only [Prog.ensures_bind, Prog.ensures_call]
      refine ⟨trivial, fun made x₁ answered => ?_⟩
      obtain ⟨driver, noted⟩ := answered
      obtain ⟨w₁, bk₁⟩ := x₁
      simp only [note, phase] at driver noted
      subst noted
      cases made with
      | none =>
          obtain rfl : w₁ = s.world := driver
          exact unchanged
      | some pc =>
          obtain ⟨nonzero, fresh, rfl⟩ := driver
          have unknown {h : VkPipelineCache} (known : s.world.caches h ≠ none) : h ≠ pc := by
            rintro rfl
            exact known fresh
          have old {i : Nat} (ne : i ≠ bk.born) :
              (bk.bear s.world b.dev pc).scratches i = bk.scratches i :=
            Function.update_of_ne ne ..
          refine kept.move inv (booked_bear kept.booked device nonzero fresh)
            (fun i destroyed => ?_) 0 (fun _ _ => rfl) (fun h birth there _ => ?_)
            (fun h member => .inl member)
            (fun some_scratch => absurd no_scratch some_scratch)
            (fun h known => .inl (Function.update_of_ne (unknown known) ..))
            (fun i lt => by rw [old lt.ne]; exact ⟨id, id⟩)
            (fun c found => absurd rfl (slotOf_dev found).2)
            (fun never => ⟨never, fun c found => absurd rfl (slotOf_dev found).2⟩)
            (by simp) kept.room (.inl resolved)
          · rcases eq_or_ne i bk.born with rfl | ne
            · simp [Book.bear] at destroyed
            · rw [old ne] at destroyed ⊢
              exact kept.reasoned i destroyed
          · rcases eq_or_ne h pc with rfl | ne
            · exact .inr (.inr rfl)
            · exact .inl ((World.caches_addCache .shim ne).symm.trans there)
    · exact unchanged
  rw [phase] at run
  exact marks.of_runs run

private theorem Kept.dropped {r : CacheState × Phase × Handed} {x' : World × Book} (inv : Inv s)
    (kept : Kept s bk) (phase : s.threads t = .droppedDevice dev)
    (run : (advance p s.cache (s.threads t)).Runs (noting s t) (s.world, bk) r x') :
    Kept (s.moved t r.1 r.2.1 r.2.2 x'.1) x'.2 := by
  have claim : claims (s.threads t) = some dev := by rw [phase]; rfl
  have free := (inv.usage.claimed claim).1
  have unslotted := Inv.no_slot inv claim (by simp [phase])
  have elsewhere {pc : VkPipelineCache} {birth : Birth} (there : s.world.caches pc = some birth)
      (shim : birth.owner = .shim) : birth.dev ≠ dev := by
    rintro rfl
    have is_kind : kind s.world pc = some (birth.dev, .shim) := by
      rw [kind, there, Option.map_some, shim]
    rcases kept.held pc birth there shim with ⟨t', is_scratch⟩ | ⟨other, member⟩
    · have some_scratch : scratchOf (s.threads t') ≠ 0 := is_scratch ▸ (inv.sound.cache there).1
      obtain ⟨on, owns⟩ := scratch_own some_scratch
      have right := inv.owned.right (x := .thread t') owns
      rw [is_scratch, is_kind] at right
      obtain rfl : birth.dev = on := congrArg Prod.fst (Option.some.inj right)
      cases (inv.usage.uses (own_uses owns)).symm.trans free
    · have right := inv.owned.right (x := .slot other) ⟨member, rfl⟩
      obtain rfl : birth.dev = other :=
        congrArg Prod.fst (Option.some.inj (is_kind.symm.trans right))
      simp [slotHandles, slotOf, unslotted] at member
  rw [phase] at run
  obtain ⟨_, ⟨w₁, bk₁⟩, ⟨driver, noted⟩, rfl, rfl⟩ := run
  obtain rfl : w₁ = s.world.removeDevice dev := driver
  obtain rfl : bk₁ = bk := noted
  refine kept.still inv rfl rfl ?_ kept.reasoned
    (fun pc birth there _ => (World.caches_removeDevice.mp there).1)
    (fun some_scratch => absurd (by rw [phase]; rfl) some_scratch) (fun _ _ => .inl rfl)
    (fun _ => ⟨id, id⟩) id (by simp) (by rintro b ⟨⟩)
  refine ⟨kept.booked.named, fun {i} lt zero => ?_, fun {i} lt some_time named => ?_,
    kept.booked.once⟩
  · obtain ⟨named, there⟩ := kept.booked.live lt zero
    exact ⟨named, World.caches_removeDevice.mpr ⟨there, elsewhere there rfl⟩⟩
  · cases still : (s.world.removeDevice dev).caches (bk₁.scratches i).handle with
    | none => rfl
    | some birth =>
        cases (kept.booked.dead lt some_time named).symm.trans
          (World.caches_removeDevice.mp still).1

private theorem kept_zero : Kept State.zero Book.empty where
  booked := by
    refine ⟨?_, ?_, ?_, ?_⟩
    · rintro pc i ⟨⟩
    · intro i lt
      exact absurd lt (Nat.not_lt_zero i)
    · intro i lt
      exact absurd lt (Nat.not_lt_zero i)
    · intro i lt
      exact absurd lt (Nat.not_lt_zero i)
  reasoned i destroyed := absurd destroyed (lt_irrefl 0)
  held := by rintro pc b ⟨⟩
  masters dev c found := by
    obtain ⟨i, lookup, -⟩ := Option.map_eq_some_iff.mp found
    exact absurd (cacheLookup_dev lookup).1.symm (slotOf_dev found).2
  queue _ dev c found := by
    obtain ⟨i, lookup, -⟩ := Option.map_eq_some_iff.mp found
    exact absurd (cacheLookup_dev lookup).1.symm (slotOf_dev found).2
  ended := by rintro t b i ⟨⟩
  room i := Nat.zero_le _
  fns := .inr ⟨fun _ => rfl, fun _ _ => ⟨by rintro ⟨⟩, by rintro ⟨⟩⟩⟩

private theorem Kept.enter (kept : Kept s bk) (idle : s.threads t = .idle) (e : Entry) :
    Kept (s.enter t e) bk := by
  have cache : (s.enter t e).cache = s.cache := by cases e <;> rfl
  have world : (s.enter t e).world = s.world := by cases e <;> rfl
  have threads : (s.enter t e).threads = Function.update s.threads t e.phase := by
    cases e <;> rfl
  have scratch (t' : Nat) : scratchOf ((s.enter t e).threads t') = scratchOf (s.threads t') := by
    rw [threads]
    rcases eq_or_ne t' t with rfl | ne
    · rw [Function.update_self, idle]
      cases e <;> rfl
    · rw [Function.update_of_ne ne]
  have entered (b : Batch) : e.phase.inFlight ≠ some b ∧ e.phase ≠ .ended b := by
    cases e <;> simp [Entry.phase, Phase.inFlight]
  refine ⟨world ▸ kept.booked, kept.reasoned, ?_, cache ▸ kept.masters, cache ▸ kept.queue, ?_,
    cache ▸ kept.room, ?_⟩
  · simp only [world, scratch, cache]
    exact kept.held
  · intro t' b i is_ended
    rw [threads] at is_ended
    rcases eq_or_ne t' t with rfl | ne
    · rw [Function.update_self] at is_ended
      exact absurd is_ended (entered b).2
    · rw [Function.update_of_ne ne] at is_ended
      exact kept.ended t' b i is_ended
  · rw [cache, threads]
    refine kept.fns.imp_right fun unresolved => ⟨unresolved.1, fun t' b => ?_⟩
    rcases eq_or_ne t' t with rfl | ne
    · rw [Function.update_self]
      exact entered b
    · rw [Function.update_of_ne ne]
      exact unresolved.2 t' b

private theorem ending_refused (booked : Booked s.world bk) (phase : s.threads t = .compiled b)
    (refuse : refuses s.cache.devCaches b.dev = true) {j : Nat}
    (named : (bk.ending s t).names b.scratch = some j) :
    ((bk.ending s t).scratches j).refused = true := by
  rw [(flagged_ending bk s t).names] at named
  have some_scratch := (booked.named named).2.2
  simp [Book.ending, phase, some_scratch, refuse, Book.refuse, named]

theorem kept_step {x x' : State × Book} {a : Action} (exported : p.exported = allFns)
    (inv : Inv x.1) (kept : Kept x.1 x.2) (step : (booked p).step x a x') : Kept x'.1 x'.2 := by
  obtain ⟨s, bk⟩ := x
  obtain ⟨-, move⟩ := step
  cases a with
  | call t e =>
      obtain ⟨idle, rfl⟩ := move
      exact kept.enter idle e
  | advance t =>
      obtain ⟨cache, phase, handed, world, book, run, rfl⟩ := move
      have kept' := kept.flagged (flagged_ending bk s t)
      cases now : s.threads t with
      | begun b => exact kept'.begun inv now run
      | droppedDevice dev => exact kept'.dropped inv now run
      | _ =>
          refine kept'.stretch exported inv (by simp [now]) (by simp [now]) ?_ run
          intro b compiled refuse j named
          exact ending_refused kept.booked compiled refuse named
  | resolve fns =>
      obtain rfl : x' = _ := move
      refine ⟨kept.booked, kept.reasoned, kept.held, kept.masters, kept.queue, kept.ended,
        kept.room, kept.fns.imp_left fun all => ?_⟩
      have known : s.cache.fns = allFns := all
      simp [resolveCacheFns, known, allFns]

theorem kept_reachable {x : State × Book} (exported : p.exported = allFns)
    (reach : (booked p).Reachable x) : Kept x.1 x.2 := by
  induction reach with
  | start h =>
      subst h
      exact kept_zero
  | next before step ih =>
      exact kept_step exported (inv_reachable (lawful_reachable before)) ih step

end Kept

section Places

variable {s : State} {bk : Book} {i : Nat} {place : Place}

private theorem At.held {x : Holder} (inv : Inv s) (kept : Kept s bk) (here : At s bk i place)
    (holder : place.holder = some x) : (bk.scratches i).destroyed = 0 ∧
      Holds s x (bk.scratches i).handle ((bk.scratches i).dev, .shim) := by
  have current {pc : VkPipelineCache} {dev : VkDevice} (named : bk.names pc = some i)
      (held : Holds s x pc (dev, .shim)) : (bk.scratches i).destroyed = 0 ∧
        Holds s x (bk.scratches i).handle ((bk.scratches i).dev, .shim) := by
    obtain ⟨birth, there, is_kind⟩ := Option.map_eq_some_iff.mp (inv.owned.right held)
    obtain ⟨-, rfl, zero, rfl⟩ := kept.booked.current named there
    obtain rfl : (bk.scratches i).dev = dev := congrArg Prod.fst is_kind
    exact ⟨zero, held⟩
  cases place with
  | batch t =>
      obtain rfl := Option.some.inj holder
      obtain ⟨some_scratch, named⟩ := here
      obtain ⟨dev, owns⟩ := scratch_own some_scratch
      exact current named owns
  | queue dev position =>
      obtain rfl := Option.some.inj holder
      obtain ⟨c, pc, found, at_position, named⟩ := here
      refine current named ⟨?_, rfl⟩
      rw [slotHandles_some found, mem_handles]
      exact .inr (List.mem_of_getElem? at_position)
  | destroyed => cases holder

private theorem at_somewhere (kept : Kept s bk) (lt : i < bk.born) : ∃ place, At s bk i place := by
  by_cases zero : (bk.scratches i).destroyed = 0
  · obtain ⟨named, there⟩ := kept.booked.live lt zero
    rcases kept.held _ _ there rfl with ⟨t, is_scratch⟩ | ⟨dev, member⟩
    · refine ⟨.batch t, ?_, ?_⟩
      · rw [is_scratch]
        exact (kept.booked.named named).2.2
      · rw [is_scratch]
        exact named
    · cases found : slotOf s.cache.devCaches dev with
      | none =>
          rw [slotHandles_none found] at member
          cases member
      | some c =>
          rw [slotHandles_some found, mem_handles] at member
          rcases member with ⟨is_master, some_pc⟩ | queued
          · cases (kept.masters dev c found some_pc).symm.trans (is_master ▸ named)
          · obtain ⟨position, at_position⟩ := List.mem_iff_getElem?.mp queued
            exact ⟨.queue dev position, c, _, found, at_position, named⟩
  · exact ⟨.destroyed, Nat.pos_of_ne_zero zero⟩

private theorem queue_once {dev : VkDevice} {position position' : Nat} (inv : Inv s)
    (kept : Kept s bk) (here : At s bk i (.queue dev position))
    (there : At s bk i (.queue dev position')) : position = position' := by
  obtain ⟨c, pc, found, at_position, named⟩ := here
  obtain ⟨c', pc', found', at_position', named'⟩ := there
  obtain rfl := Option.some.inj (found.symm.trans found')
  obtain rfl : pc = pc' :=
    (kept.booked.named named).2.1.symm.trans (kept.booked.named named').2.1
  have nodup : c.pending.Nodup := by
    have all := inv.nodup dev
    rw [slotHandles_some found] at all
    exact (List.nodup_append.mp all).2.1
  have inside := (List.getElem?_eq_some_iff.mp at_position).1
  exact (List.getElem?_inj inside nodup).mp (at_position.trans at_position'.symm)

private theorem at_once {place' : Place} (inv : Inv s) (kept : Kept s bk)
    (here : At s bk i place) (there : At s bk i place') : place = place' := by
  cases holder : place.holder with
  | none =>
      obtain rfl := Place.eq_destroyed holder
      cases holder' : place'.holder with
      | none => exact (Place.eq_destroyed holder').symm
      | some y => exact absurd (At.held inv kept there holder').1 (Nat.ne_of_gt here)
  | some x =>
      obtain ⟨zero, held⟩ := At.held inv kept here holder
      cases holder' : place'.holder with
      | none =>
          obtain rfl := Place.eq_destroyed holder'
          exact absurd zero (Nat.ne_of_gt there)
      | some y =>
          obtain rfl := inv.owned.alone held (At.held inv kept there holder').2
          have same_holder := holder.trans holder'.symm
          cases place with
          | destroyed => cases holder
          | batch t =>
              cases place' with
              | batch t' =>
                  cases same_holder
                  rfl
              | _ => cases same_holder
          | queue dev position =>
              cases place' with
              | queue dev' position' =>
                  cases same_holder
                  rw [queue_once inv kept here there]
              | _ => cases same_holder

end Places

/-- Scratch caches are conserved, in every run of an application that keeps to the rules, on a
driver that exports the four functions and may refuse to create a cache at any time. Each is
at every moment in one place: with its batch, at one position of the queue of its own device,
or destroyed; destroyed once, while its device is there; and by then merged into the master,
unless there was no slot or no room in the queue when its batch ended, or no master. A queue
has at most eight; and while no master could not be created, what waits in one waits for a
master in use. -/
theorem scratch_caches_conserved {p : Process} {s : State} {bk : Book}
    (exported : p.exported = ⟨true, true, true, true⟩) (reach : (booked p).Reachable (s, bk)) :
    (∀ i < bk.born, (∃! place, At s bk i place) ∧
      (∀ dev position, At s bk i (.queue dev position) → dev = (bk.scratches i).dev) ∧
      (bk.scratches i).destroyed ≤ 1 ∧ (bk.scratches i).late = false ∧
      ((bk.scratches i).destroyed = 0 →
        s.world.devices (bk.scratches i).dev = some (bk.scratches i).incarnation) ∧
      (0 < (bk.scratches i).destroyed → (bk.scratches i).merged = true ∨
        (bk.scratches i).refused = true ∨ (bk.scratches i).masterless = true)) ∧
    (∀ slot, (s.cache.devCaches slot).pending.length ≤ 8) ∧
    (bk.masterFailed = false → ∀ dev c, slotOf s.cache.devCaches dev = some c →
      c.pending ≠ [] → c.masterInUse = true) := by
  have inv : Inv s := inv_reachable (lawful_reachable reach)
  have kept : Kept s bk := kept_reachable exported reach
  refine ⟨fun i lt => ⟨?_, ?_, (kept.booked.once lt).1, (kept.booked.once lt).2, ?_,
    kept.reasoned i⟩, kept.room, fun never dev c found => (kept.queue never dev c found).2⟩
  · obtain ⟨place, here⟩ := at_somewhere kept lt
    exact ⟨place, here, fun other there => at_once inv kept there here⟩
  · intro dev position queued
    have held := (At.held inv kept queued (x := .slot dev) rfl).2.2
    exact (congrArg Prod.fst held).symm
  · intro zero
    exact (inv.sound.cache (kept.booked.live lt zero).2).2

/-- Batches on one device. The first has the master, so that the second ends up in the
queue, and is drained from it when the first ends; a fourth batch takes the master before the
third ends. -/
def fourBatches : List Action :=
  [.call 0 .createDevice, .advance 0, .advance 0,
    .call 0 (.createPipelines 1 0 1), .advance 0, .advance 0, .advance 0, .advance 0,
    .call 1 (.createPipelines 1 0 1), .advance 1, .advance 1, .advance 1, .advance 1,
    .call 2 (.createPipelines 1 0 1), .advance 2, .advance 2, .advance 2, .advance 2,
    .advance 1, .advance 1, .advance 0, .advance 0,
    .call 0 (.createPipelines 1 0 1), .advance 0, .advance 0,
    .advance 2, .advance 2]

/-- One scratch cache went through the queue and was merged, the other waits in it. -/
theorem scratch_caches_fourBatches : ∃ s bk, (booked fullProcess).Reachable (s, bk) ∧
    bk.born = 2 ∧ (bk.scratches 0).destroyed = 1 ∧ (bk.scratches 0).merged = true ∧
      At s bk 1 (.queue 1 0) ∧ ∃! place, At s bk 1 place := by
  have ran : (Machine.follow (nextBooked fullProcess fun _ => "") (fun x => x.1.permits)
      (State.zero, Book.empty) fourBatches).map (fun x => (x.2.born, x.2.scratches 0, x.2.names 3,
        (slotOf x.1.cache.devCaches 1).map DevCache.pending)) =
        some (2, ⟨2, 1, 0, true, false, false, 1, false⟩, some 1, some [3]) := by decide +kernel
  obtain ⟨⟨s, bk⟩, ends, facts⟩ := Option.map_eq_some_iff.mp ran
  obtain ⟨born, first, named, queue⟩ := by simpa only [Prod.mk.injEq] using facts
  obtain ⟨c, found, pending⟩ := Option.map_eq_some_iff.mp queue
  have reach : (booked fullProcess).Reachable (s, bk) :=
    Machine.Reachable.follow (.start rfl) (fun _ _ => nextBooked_step) fourBatches ends
  refine ⟨s, bk, reach, born, by rw [first], by rw [first], ⟨c, 3, found, ?_, named⟩, ?_⟩
  · rw [pending]
    rfl
  · exact ((scratch_caches_conserved rfl reach).1 1 (by rw [born]; decide)).1

end XdPlus.Vulkan.PipelineConservation
