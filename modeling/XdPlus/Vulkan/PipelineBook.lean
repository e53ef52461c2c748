/- Module: XdPlus/Vulkan/PipelineBook
   source: vulkan/vkshim.c, compile_batch, drain_pending, drop_disk_cache, ensure_disk_cache
   digest: What each section writes into the book of scratch caches. -/

import XdPlus.Vulkan.PipelineScratch

set_option autoImplicit false
set_option relaxedAutoImplicit false

namespace XdPlus.Vulkan.PipelineBook

open XdPlus.Base Common Driver PipelineCache PipelineBatches PipelineLedger PipelineOwnership
open PipelineBatchSafety PipelineScratch

/-- All four functions. -/
def allFns : CacheFns := ⟨true, true, true, true⟩

/-- The driver, with the book kept for thread `t`. -/
abbrev noting (s : State) (t : Nat) : Prog.Environment Call Answer (World × Book) :=
  Prog.Environment.noted answers (note s t)

/-- A scratch cache may go. -/
def Excused (s : State) (bk : Book) (dev : VkDevice) (i : Nat) : Prop :=
  (bk.scratches i).merged = true ∨ (bk.scratches i).refused = true ∨
    masterOf s.cache.devCaches dev = 0

/-- A call destroys no device, and no scratch cache without an excuse. -/
def Fair (s : State) (x : World × Book) : Call → Prop
  | .destroyPipelineCache dev pc => ∀ i, x.2.names pc = some i → Excused s x.2 dev i
  | .destroyDevice _ => False
  | _ => True

section Books

variable {s : State} {t : Nat} {w w' : World} {bk bk' : Book} {op : Call} {ans : Answer op}
  {dev : VkDevice} {pc : VkPipelineCache} {i : Nat}

/-- Nothing but flags was added. -/
structure Flagged (bk bk' : Book) : Prop where
  born : bk'.born = bk.born
  names : bk'.names = bk.names
  masterFailed : bk'.masterFailed = bk.masterFailed
  same : ∀ i, (bk'.scratches i).handle = (bk.scratches i).handle ∧
    (bk'.scratches i).dev = (bk.scratches i).dev ∧
    (bk'.scratches i).incarnation = (bk.scratches i).incarnation ∧
    (bk'.scratches i).destroyed = (bk.scratches i).destroyed ∧
    (bk'.scratches i).late = (bk.scratches i).late
  merged : ∀ i, (bk.scratches i).merged = true → (bk'.scratches i).merged = true
  refused : ∀ i, (bk.scratches i).refused = true → (bk'.scratches i).refused = true
  masterless : ∀ i, (bk.scratches i).masterless = true → (bk'.scratches i).masterless = true

theorem flagged_refl (bk : Book) : Flagged bk bk :=
  ⟨rfl, rfl, rfl, fun _ => ⟨rfl, rfl, rfl, rfl, rfl⟩, fun _ h => h, fun _ h => h, fun _ h => h⟩

theorem flagged_merge (bk : Book) (srcs : List VkPipelineCache) :
    Flagged bk (bk.merge srcs) := by
  refine ⟨rfl, rfl, rfl, fun i => ?_, fun i h => ?_, fun i h => ?_, fun i h => ?_⟩
  all_goals simp only [Book.merge]
  all_goals split_ifs
  all_goals first | exact h | exact ⟨rfl, rfl, rfl, rfl, rfl⟩ | rfl

private theorem flagged_refuse (bk : Book) (pc : VkPipelineCache) : Flagged bk (bk.refuse pc) := by
  unfold Book.refuse
  cases named : bk.names pc with
  | none => exact flagged_refl bk
  | some j =>
      refine ⟨rfl, rfl, rfl, fun i => ?_, fun i h => ?_, fun i h => ?_, fun i h => ?_⟩
      all_goals rcases eq_or_ne i j with rfl | ne
      · simp
      · simp [Function.update_of_ne ne]
      · simpa using h
      · simpa [Function.update_of_ne ne] using h
      · simp
      · simpa [Function.update_of_ne ne] using h
      · simpa using h
      · simpa [Function.update_of_ne ne] using h

theorem flagged_ending (bk : Book) (s : State) (t : Nat) : Flagged bk (bk.ending s t) := by
  unfold Book.ending
  split
  · split_ifs
    · exact flagged_refuse ..
    · exact flagged_refl bk
  · exact flagged_refl bk

/-- What the book says about the driver. -/
structure Booked (w : World) (bk : Book) : Prop where
  named : ∀ {pc i}, bk.names pc = some i → i < bk.born ∧ (bk.scratches i).handle = pc ∧ pc ≠ 0
  live : ∀ {i}, i < bk.born → (bk.scratches i).destroyed = 0 →
    bk.names (bk.scratches i).handle = some i ∧ w.caches (bk.scratches i).handle =
      some ⟨(bk.scratches i).dev, (bk.scratches i).incarnation, .shim⟩
  dead : ∀ {i}, i < bk.born → (bk.scratches i).destroyed ≠ 0 →
    bk.names (bk.scratches i).handle = some i → w.caches (bk.scratches i).handle = none
  once : ∀ {i}, i < bk.born → (bk.scratches i).destroyed ≤ 1 ∧ (bk.scratches i).late = false

/-- What was destroyed had an excuse. -/
def Reasoned (bk : Book) : Prop := ∀ i, 0 < (bk.scratches i).destroyed →
  (bk.scratches i).merged = true ∨ (bk.scratches i).refused = true ∨
    (bk.scratches i).masterless = true

theorem Booked.flagged (booked : Booked w bk) (flagged : Flagged bk bk') : Booked w bk' := by
  refine ⟨fun {pc i} named => ?_, fun {i} lt zero => ?_, fun {i} lt some_time named => ?_,
    fun {i} lt => ?_⟩
  all_goals obtain ⟨handle, dev, incarnation, destroyed, late⟩ := flagged.same i
  · rw [flagged.names] at named
    rw [flagged.born, handle]
    exact booked.named named
  · rw [flagged.born] at lt
    rw [destroyed] at zero
    rw [flagged.names, handle, dev, incarnation]
    exact booked.live lt zero
  · rw [flagged.born] at lt
    rw [destroyed] at some_time
    rw [flagged.names, handle] at named
    rw [handle]
    exact booked.dead lt some_time named
  · rw [flagged.born] at lt
    rw [destroyed, late]
    exact booked.once lt

theorem Reasoned.flagged (reasoned : Reasoned bk) (flagged : Flagged bk bk') : Reasoned bk' := by
  intro i destroyed
  rw [(flagged.same i).2.2.2.1] at destroyed
  rcases reasoned i destroyed with merged | refused | masterless
  · exact .inl (flagged.merged i merged)
  · exact .inr (.inl (flagged.refused i refused))
  · exact .inr (.inr (flagged.masterless i masterless))

theorem Booked.unnamed {b : Birth} (booked : Booked w bk) (there : w.caches pc = some b)
    (other : b.owner ≠ .shim) : bk.names pc = none := by
  cases named : bk.names pc with
  | none => rfl
  | some i =>
      obtain ⟨lt, rfl, -⟩ := booked.named named
      by_cases zero : (bk.scratches i).destroyed = 0
      · obtain rfl := Option.some.inj ((booked.live lt zero).2.symm.trans there)
        exact absurd rfl other
      · exact absurd ((booked.dead lt zero named).symm.trans there) (by simp)

theorem Booked.current {b : Birth} (booked : Booked w bk) (named : bk.names pc = some i)
    (there : w.caches pc = some b) :
    i < bk.born ∧ (bk.scratches i).handle = pc ∧ (bk.scratches i).destroyed = 0 ∧
      b = ⟨(bk.scratches i).dev, (bk.scratches i).incarnation, .shim⟩ := by
  obtain ⟨lt, rfl, -⟩ := booked.named named
  have zero : (bk.scratches i).destroyed = 0 := by
    by_contra some_time
    exact absurd ((booked.dead lt some_time named).symm.trans there) (by simp)
  exact ⟨lt, rfl, zero, Option.some.inj (there.symm.trans (booked.live lt zero).2)⟩

/-- What is kept call by call, `given` being the caches of the application in this one. -/
structure Consistent (given : VkPipelineCache → Prop) (x : World × Book) : Prop where
  sound : Sound x.1
  booked : Booked x.1 x.2
  reasoned : Reasoned x.2
  apart : ∀ pc, given pc → x.2.names pc = none

private theorem Booked.removeCache (booked : Booked w bk) (unnamed : bk.names pc = none) :
    Booked (w.removeCache pc) bk := by
  refine ⟨booked.named, fun {i} lt zero => ?_, fun {i} lt some_time named => ?_, booked.once⟩
  · obtain ⟨named, there⟩ := booked.live lt zero
    have ne : (bk.scratches i).handle ≠ pc := by
      intro same
      rw [same, unnamed] at named
      cases named
    exact ⟨named, (World.caches_removeCache ne).trans there⟩
  · by_cases same : (bk.scratches i).handle = pc
    · simp [World.removeCache, same]
    · exact (World.caches_removeCache same).trans (booked.dead lt some_time named)

private theorem Booked.addCache (booked : Booked w bk) (fresh : w.caches pc = none)
    (owner : Owner) : Booked (w.addCache pc dev owner) (bk.forget pc) := by
  have other {i : Nat} (named : (bk.forget pc).names (bk.scratches i).handle = some i) :
      (bk.scratches i).handle ≠ pc ∧ bk.names (bk.scratches i).handle = some i := by
    have ne : (bk.scratches i).handle ≠ pc := by
      intro same
      simp [Book.forget, same] at named
    exact ⟨ne, by simpa [Book.forget, Function.update_of_ne ne] using named⟩
  refine ⟨fun {h i} named => ?_, fun {i} lt zero => ?_, fun {i} lt some_time named => ?_,
    booked.once⟩
  · have ne : h ≠ pc := by
      rintro rfl
      simp [Book.forget] at named
    exact booked.named (by simpa [Book.forget, Function.update_of_ne ne] using named)
  · obtain ⟨named, there⟩ := booked.live lt zero
    have ne : (bk.scratches i).handle ≠ pc := by
      intro same
      rw [same, fresh] at there
      cases there
    refine ⟨?_, (World.caches_addCache owner ne).trans there⟩
    simpa [Book.forget, Function.update_of_ne ne] using named
  · obtain ⟨ne, was⟩ := other named
    exact (World.caches_addCache owner ne).trans (booked.dead lt some_time was)

private theorem booked_destroy {b : Birth} (sound : Sound w) (booked : Booked w bk)
    (reasoned : Reasoned bk) (there : w.caches pc = some b) (on : b.dev = dev)
    (named : bk.names pc = some i) (excused : Excused s bk dev i) :
    Booked (w.removeCache pc) (bk.destroy s.cache.devCaches w dev pc) ∧
      Reasoned (bk.destroy s.cache.devCaches w dev pc) := by
  obtain ⟨lt, handle, zero, rfl⟩ := booked.current named there
  obtain ⟨-, late⟩ := booked.once lt
  obtain rfl : (bk.scratches i).dev = dev := on
  have alive : w.devices (bk.scratches i).dev = some (bk.scratches i).incarnation :=
    (sound.cache there).2
  have after (j : Nat) : (bk.destroy s.cache.devCaches w (bk.scratches i).dev pc).scratches j =
      if j = i then { bk.scratches i with
        destroyed := 1
        masterless := (bk.scratches i).masterless ||
          masterOf s.cache.devCaches (bk.scratches i).dev == 0 }
      else bk.scratches j := by
    simp only [Book.destroy, named]
    rcases eq_or_ne j i with rfl | ne
    · simp [zero, alive]
    · simp [ne]
  have names : (bk.destroy s.cache.devCaches w (bk.scratches i).dev pc).names = bk.names := by
    simp only [Book.destroy, named]
  have born : (bk.destroy s.cache.devCaches w (bk.scratches i).dev pc).born = bk.born := by
    simp only [Book.destroy, named]
  constructor
  · refine ⟨fun {h j} is => ?_, fun {j} lt' zero' => ?_, fun {j} lt' some_time is => ?_,
      fun {j} lt' => ?_⟩
    all_goals simp only [after, names, born] at *
    · split_ifs with same
      · exact same ▸ booked.named is
      · exact booked.named is
    · split_ifs at zero' with same
      rw [if_neg same]
      obtain ⟨is, here⟩ := booked.live lt' zero'
      have ne : (bk.scratches j).handle ≠ pc := by
        intro same_handle
        rw [same_handle, named] at is
        exact same (Option.some.inj is).symm
      exact ⟨is, (World.caches_removeCache ne).trans here⟩
    · split_ifs at some_time is ⊢ with same
      · simp [World.removeCache, handle]
      · by_cases same_handle : (bk.scratches j).handle = pc
        · simp [World.removeCache, same_handle]
        · exact (World.caches_removeCache same_handle).trans (booked.dead lt' some_time is)
    · split_ifs
      · exact ⟨le_rfl, late⟩
      · exact booked.once lt'
  · intro j destroyed
    rw [after] at destroyed ⊢
    split_ifs at destroyed ⊢ with same
    · rcases excused with merged | refused | none_there
      · exact .inl merged
      · exact .inr (.inl refused)
      · exact .inr (.inr (by simp [none_there]))
    · exact reasoned j destroyed

theorem note_made (not_begun : ∀ b, s.threads t ≠ .begun b) (owner : Owner)
    (initial : Bytes) :
    note s t bk w (.createPipelineCache owner dev initial) (some pc) = bk.forget pc := by
  unfold note
  cases phase : s.threads t
  case begun b => exact absurd phase (not_begun b)
  all_goals rfl

theorem note_failed (not_begun : ∀ b, s.threads t ≠ .begun b) (owner : Owner)
    (initial : Bytes) :
    note s t bk w (.createPipelineCache owner dev initial) none =
      { bk with masterFailed := bk.masterFailed || (owner == .shim && initial == []) } := by
  unfold note
  cases phase : s.threads t
  case begun b => exact absurd phase (not_begun b)
  all_goals rfl

theorem Consistent.keep {busy given : VkPipelineCache → Prop} {x x' : World × Book}
    (not_begun : ∀ b, s.threads t ≠ .begun b)
    (guard : Proper busy given x.1 op ∧ Fair s x op) (answered : noting s t x op ans x')
    (consistent : Consistent given x) : Consistent given x' := by
  obtain ⟨w, bk⟩ := x
  obtain ⟨w', bk'⟩ := x'
  obtain ⟨driver, noted⟩ := answered
  simp only at driver noted
  subst noted
  have sound : Sound w' := consistent.sound.answers driver
  obtain ⟨sound_before, booked, reasoned, apart⟩ := consistent
  cases op
  case createPipelineCache owner dev initial =>
    cases ans with
    | none =>
        obtain rfl : w' = w := driver
        rw [note_failed not_begun]
        exact ⟨sound, ⟨booked.named, booked.live, booked.dead, booked.once⟩, reasoned, apart⟩
    | some pc =>
        obtain ⟨nonzero, fresh, rfl⟩ := driver
        rw [note_made not_begun]
        refine ⟨sound, booked.addCache fresh owner, reasoned, fun h is_given => ?_⟩
        rcases eq_or_ne h pc with rfl | ne
        · exact Function.update_self ..
        · exact (Function.update_of_ne ne ..).trans (apart h is_given)
  case mergePipelineCaches dev dst srcs =>
    obtain rfl : w' = w := driver
    have flagged : Flagged bk (note s t bk w' (.mergePipelineCaches dev dst srcs) ans) := by
      simp only [note]
      split_ifs
      · exact flagged_merge bk srcs
      · exact flagged_refl bk
    exact ⟨sound, booked.flagged flagged, reasoned.flagged flagged,
      fun h is_given => flagged.names ▸ apart h is_given⟩
  case destroyPipelineCache dev pc =>
    obtain rfl : w' = w.removeCache pc := driver
    cases named : bk.names pc with
    | none =>
        have same : note s t bk w (.destroyPipelineCache dev pc) ans = bk := by
          simp only [note, Book.destroy, named]
        rw [same]
        exact ⟨sound, booked.removeCache named, reasoned, apart⟩
    | some i =>
        have nonzero := (booked.named named).2.2
        have shim : kind w pc = some (dev, .shim) := by
          refine (guard.1 dev [pc] rfl pc (List.mem_singleton.mpr rfl) nonzero).2.resolve_left ?_
          intro is_given
          exact absurd ((apart pc is_given).symm.trans named) (by simp)
        obtain ⟨b, there, is_kind⟩ := Option.map_eq_some_iff.mp shim
        obtain ⟨booked', reasoned'⟩ := booked_destroy sound_before booked reasoned there
          (congrArg Prod.fst is_kind) named (guard.2 i named)
        refine ⟨sound, booked', reasoned', fun h is_given => ?_⟩
        simp only [note, Book.destroy, named]
        exact apart h is_given
  case destroyDevice dev => exact guard.2.elim
  case createDevice =>
    cases ans with
    | none =>
        obtain rfl : w' = w := driver
        exact ⟨sound, booked, reasoned, apart⟩
    | some dev =>
        obtain ⟨-, -, rfl⟩ := driver
        exact ⟨sound, ⟨booked.named, booked.live, booked.dead, booked.once⟩, reasoned, apart⟩
  all_goals
    obtain rfl : w' = w := driver
    exact ⟨sound, booked, reasoned, apart⟩

end Books

section Sections

variable {p : Process} {s : State} {t : Nat} {x : World × Book} {dev : VkDevice} {c : DevCache}

private theorem noted_looks {α : Type} {prog : Shim α} {post : α → Prop} (dev : VkDevice)
    (pc : VkPipelineCache) (looks : prog.Always (Looks dev pc) post) :
    prog.Ensures (noting s t) (Fair s) x (fun a x' => post a ∧ x' = x) := by
  refine looks.ensures (fun op ok => ?_) (fun op ans x' ok answered => ?_)
  · rcases ok with quiet | rfl | ⟨size, rfl⟩
    · cases op <;> first | exact quiet.elim | trivial
    · trivial
    · trivial
  · refine Prod.ext (ok.still answered.1) (answered.2.trans ?_)
    rcases ok with quiet | rfl | ⟨size, rfl⟩
    · cases op <;> first | exact quiet.elim | rfl
    · rfl
    · rfl

theorem noted_quiet {α : Type} {prog : Shim α} {post : α → Prop}
    (quiet : prog.Always Quiet post) :
    prog.Ensures (noting s t) (Fair s) x (fun a x' => post a ∧ x' = x) :=
  noted_looks 0 0 (quiet.weaken fun _ => .inl)

/-- The flags that excuse a scratch cache stay. -/
def Keeps (bk bk' : Book) : Prop := ∀ i,
  ((bk.scratches i).merged = true → (bk'.scratches i).merged = true) ∧
    ((bk.scratches i).refused = true → (bk'.scratches i).refused = true)

private theorem Keeps.excused {bk bk' : Book} {i : Nat} (keeps : Keeps bk bk')
    (excused : Excused s bk dev i) : Excused s bk' dev i :=
  excused.imp (keeps i).1 (Or.imp (keeps i).2 id)

theorem Flagged.keeps {bk bk' : Book} (flagged : Flagged bk bk') : Keeps bk bk' :=
  fun i => ⟨flagged.merged i, flagged.refused i⟩

/-- Caches went, these among them; otherwise only flags were added. -/
structure Swept (pcs : List VkPipelineCache) (x x' : World × Book) : Prop where
  gone : ∀ pc ∈ pcs, x'.1.caches pc = none
  fewer : ∀ pc, x'.1.caches pc = x.1.caches pc ∨ x'.1.caches pc = none
  names : x'.2.names = x.2.names
  masterFailed : x'.2.masterFailed = x.2.masterFailed
  keeps : Keeps x.2 x'.2

private theorem swept_nil (x : World × Book) : Swept [] x x :=
  ⟨by simp, fun _ => .inl rfl, rfl, rfl, fun _ => ⟨id, id⟩⟩

private theorem Swept.trans {pcs more : List VkPipelineCache} {x₁ x' : World × Book}
    (first : Swept pcs x x₁) (second : Swept more x₁ x') : Swept (pcs ++ more) x x' := by
  refine ⟨fun pc member => ?_, fun pc => ?_, second.names.trans first.names,
    second.masterFailed.trans first.masterFailed, fun i => ?_⟩
  · rcases List.mem_append.mp member with here | there
    · exact (second.fewer pc).elim (fun same => same.trans (first.gone pc here)) id
    · exact second.gone pc there
  · rcases second.fewer pc with same | gone
    · exact (first.fewer pc).imp same.trans same.trans
    · exact .inr gone
  · exact ⟨(second.keeps i).1 ∘ (first.keeps i).1, (second.keeps i).2 ∘ (first.keeps i).2⟩

private theorem swept_destroy (s : State) (w : World) (bk : Book) (pc : VkPipelineCache) :
    Swept [pc] (w, bk) (w.removeCache pc, bk.destroy s.cache.devCaches w dev pc) := by
  have shape : (bk.destroy s.cache.devCaches w dev pc).names = bk.names ∧
      (bk.destroy s.cache.devCaches w dev pc).masterFailed = bk.masterFailed ∧
      Keeps bk (bk.destroy s.cache.devCaches w dev pc) := by
    unfold Book.destroy
    cases bk.names pc with
    | none => exact ⟨rfl, rfl, fun _ => ⟨id, id⟩⟩
    | some j =>
        refine ⟨rfl, rfl, fun i => ?_⟩
        rcases eq_or_ne i j with rfl | ne
        · simp
        · simp [Function.update_of_ne ne]
  refine ⟨fun h member => ?_, fun h => ?_, shape.1, shape.2.1, shape.2.2⟩
  · obtain rfl := List.mem_singleton.mp member
    exact Function.update_self ..
  · rcases eq_or_ne h pc with rfl | ne
    · exact .inr (Function.update_self ..)
    · exact .inl (World.caches_removeCache ne)

theorem noted_destroy {pc : VkPipelineCache} {post : Unit → World × Book → Prop}
    (excused : ∀ i, x.2.names pc = some i → Excused s x.2 dev i)
    (next : ∀ x', Swept [pc] x x' → post () x') :
    Prog.Ensures (noting s t) (Fair s) (Shim.call (.destroyPipelineCache dev pc)) x post := by
  refine ⟨excused, fun _ x' answered => next x' ?_⟩
  obtain ⟨w, bk⟩ := x
  obtain ⟨w', bk'⟩ := x'
  obtain ⟨rfl, rfl⟩ : w' = w.removeCache pc ∧ bk' = bk.destroy s.cache.devCaches w dev pc :=
    answered
  exact swept_destroy s w bk pc

private theorem noted_destroyAll (pcs : List VkPipelineCache)
    (excused : ∀ pc ∈ pcs, ∀ i, x.2.names pc = some i → Excused s x.2 dev i) :
    (destroyAll dev pcs).Ensures (noting s t) (Fair s) x (fun _ x' => Swept pcs x x') := by
  induction pcs generalizing x with
  | nil => exact swept_nil x
  | cons pc rest ih =>
      simp only [destroyAll, Prog.ensures_bind]
      refine noted_destroy (excused pc (List.mem_cons_self ..)) fun x₁ swept => ?_
      refine (ih fun h member i named => ?_).mono fun _ x' more => swept.trans more
      rw [swept.names] at named
      exact swept.keeps.excused (excused h (List.mem_cons_of_mem _ member) i named)

/-- The handles of scratch caches are their own. -/
def Titled (bk : Book) : Prop := ∀ pc i, bk.names pc = some i → (bk.scratches i).handle = pc

private theorem merge_merged {bk : Book} (titled : Titled bk) {srcs : List VkPipelineCache}
    {pc : VkPipelineCache} {i : Nat} (named : bk.names pc = some i) (among : pc ∈ srcs)
    (there : (bk.scratches i).destroyed = 0) : ((bk.merge srcs).scratches i).merged = true := by
  have handle := titled pc i named
  simp [Book.merge, handle, among, named, there]

/-- None of these has been destroyed. -/
def Fresh (bk : Book) (pcs : List VkPipelineCache) : Prop := ∀ pc ∈ pcs, ∀ i,
  bk.names pc = some i → (bk.scratches i).destroyed = 0

private theorem Fresh.flagged {bk bk' : Book} {pcs : List VkPipelineCache} (fresh : Fresh bk pcs)
    (flagged : Flagged bk bk') : Fresh bk' pcs := by
  intro pc member i named
  rw [(flagged.same i).2.2.2.1]
  exact fresh pc member i (flagged.names ▸ named)

private theorem noted_merge {dst : VkPipelineCache} {srcs : List VkPipelineCache}
    {post : VkResult → World × Book → Prop} (titled : Titled x.2)
    (master : masterOf s.cache.devCaches dev = dst)
    (next : ∀ r bk', Flagged x.2 bk' →
      (∀ pc ∈ srcs, ∀ i, x.2.names pc = some i → (x.2.scratches i).destroyed = 0 →
        (bk'.scratches i).merged = true) → post r (x.1, bk')) :
    Prog.Ensures (noting s t) (Fair s) (Shim.call (.mergePipelineCaches dev dst srcs)) x post := by
  refine ⟨trivial, fun r x' answered => ?_⟩
  obtain ⟨w', bk'⟩ := x'
  obtain ⟨rfl, rfl⟩ : w' = x.1 ∧
    bk' = note s t x.2 x.1 (.mergePipelineCaches dev dst srcs) r := answered
  have merged : note s t x.2 x.1 (.mergePipelineCaches dev dst srcs) r = x.2.merge srcs :=
    if_pos master.symm
  rw [merged]
  exact next r _ (flagged_merge _ _) fun pc among i named => merge_merged titled named among

private theorem noted_drainPending (titled : Titled x.2) (fresh : Fresh x.2 c.pending)
    (master : masterOf s.cache.devCaches c.dev = c.pc) :
    (drainPending allFns c).Ensures (noting s t) (Fair s) x
      (fun c' x' => Drained c c' ∧ Swept c.pending x x') := by
  unfold drainPending
  by_cases empty : c.pending = []
  · rw [if_pos empty, empty]
    exact ⟨⟨rfl, rfl, rfl, empty⟩, swept_nil x⟩
  · rw [if_neg empty]
    have rest (bk : Book) (flagged : Flagged x.2 bk)
        (excused : ∀ pc ∈ c.pending, ∀ i, bk.names pc = some i → Excused s bk c.dev i) :
        (destroyAll c.dev c.pending).Ensures (noting s t) (Fair s) (x.1, bk)
          (fun _ x' => Drained c { c with pending := [] } ∧ Swept c.pending x x') := by
      refine (noted_destroyAll c.pending excused).mono fun _ x' swept => ?_
      refine ⟨⟨rfl, rfl, rfl, rfl⟩, swept.gone, swept.fewer, swept.names.trans flagged.names,
        swept.masterFailed.trans flagged.masterFailed, fun i => ?_⟩
      exact ⟨(swept.keeps i).1 ∘ flagged.merged i, (swept.keeps i).2 ∘ flagged.refused i⟩
    simp only [mergeInto, allFns, if_true, true_and, Prog.ensures_bind]
    by_cases some_pc : c.pc ≠ 0
    · rw [if_pos some_pc]
      simp only [Prog.ensures_bind]
      refine noted_merge titled master fun _ bk flagged merged => ?_
      refine rest bk flagged fun pc member i named => .inl ?_
      have was : x.2.names pc = some i := flagged.names ▸ named
      exact merged pc member i was (fresh pc member i was)
    · rw [if_neg some_pc]
      refine rest x.2 (flagged_refl _) fun pc _ i _ => .inr (.inr ?_)
      exact master.trans (not_not.mp some_pc)

private theorem noted_drainAndSave (titled : Titled x.2) (fresh : Fresh x.2 c.pending)
    (master : masterOf s.cache.devCaches c.dev = c.pc) :
    (drainAndSave p allFns c).Ensures (noting s t) (Fair s) x
      (fun c' x' => Drained c c' ∧ Swept c.pending x x') := by
  simp only [drainAndSave, Prog.ensures_bind]
  refine (noted_drainPending titled fresh master).mono ?_
  rintro c₁ x₁ ⟨drained, swept⟩
  refine (noted_looks _ _ (always_saveDiskCache c₁ false)).mono ?_
  rintro c₂ x₂ ⟨same, rfl⟩
  exact ⟨⟨same.dev.trans drained.dev, same.pc.trans drained.pc,
    same.masterInUse.trans drained.masterInUse, same.pending.trans drained.pending⟩, swept⟩

/-- No queue holds more than there is room for. -/
def Room (d : DevCaches) : Prop := ∀ i, (d i).pending.length ≤ pendingMax

private theorem Room.update {d : DevCaches} {i : Fin devCacheMax} (room : Room d)
    (short : c.pending.length ≤ pendingMax) : Room (Function.update d i c) := by
  intro j
  rcases eq_or_ne j i with rfl | ne
  · rwa [Function.update_self]
  · rw [Function.update_of_ne ne]
    exact room j

/-- What a section leaves that makes no caches. A queue that grew did so because the master is
in use or missing. -/
structure Left (dev : VkDevice) (d d' : DevCaches) (x x' : World × Book) : Prop where
  table : OnlySlot dev d d'
  fewer : ∀ pc, x'.1.caches pc = x.1.caches pc ∨ x'.1.caches pc = none
  gone : ∀ pc ∈ slotHandles d dev, pc ∈ slotHandles d' dev ∨ x'.1.caches pc = none
  names : x'.2.names = x.2.names
  masterFailed : x'.2.masterFailed = x.2.masterFailed
  keeps : Keeps x.2 x'.2
  slot : ∀ c', slotOf d' dev = some c' → ∃ c, slotOf d dev = some c ∧ c'.pc = c.pc ∧
    (c'.pending = [] ∨ c'.masterInUse = c.masterInUse ∧
      (c'.pending = c.pending ∨ c.masterInUse = true ∨ c.pc = 0))
  room : Room d → Room d'

variable {d : DevCaches} {i : Fin devCacheMax}

private theorem left_flagged (dev : VkDevice) {w : World} {bk bk' : Book} (keyed : Keyed d)
    (flagged : Flagged bk bk') : Left dev d d (w, bk) (w, bk') :=
  ⟨.refl keyed, fun _ => .inl rfl, fun _ member => .inl member, flagged.names,
    flagged.masterFailed, flagged.keeps, fun c' found => ⟨c', found, rfl, .inr ⟨rfl, .inl rfl⟩⟩, id⟩

private theorem masterOf_slot (lookup : cacheLookup d dev = some i) :
    masterOf d (d i).dev = (d i).pc := by
  rw [(cacheLookup_dev lookup).1, masterOf, slotOf_some lookup]
  rfl

private theorem left_drained {c' : DevCache} {x₁ x' : World × Book} (keyed : Keyed d)
    (lookup : cacheLookup d dev = some i) (same_dev : c.dev = (d i).dev)
    (same_pc : c.pc = (d i).pc) (same_pending : c.pending = (d i).pending)
    (flagged : Flagged x.2 x₁.2) (world : x₁.1 = x.1) (drained : Drained c c')
    (swept : Swept c.pending x₁ x') : Left dev d (Function.update d i c') x x' := by
  have here := (cacheLookup_dev lookup).1
  obtain ⟨only, found, -⟩ := onlySlot_set keyed lookup (drained.dev.trans (same_dev.trans here))
  refine ⟨only, world ▸ swept.fewer, fun pc member => ?_, swept.names.trans flagged.names,
    swept.masterFailed.trans flagged.masterFailed, fun j => ?_, fun c'' is => ?_, fun room => ?_⟩
  · rw [slotHandles_some (slotOf_some lookup), mem_handles] at member
    rw [slotHandles_some found, mem_handles]
    rcases member with ⟨rfl, some_pc⟩ | queued
    · refine .inl (.inl ?_)
      rw [drained.pc, same_pc]
      exact ⟨rfl, some_pc⟩
    · exact .inr (swept.gone pc (same_pending ▸ queued))
  · exact ⟨(swept.keeps j).1 ∘ flagged.merged j, (swept.keeps j).2 ∘ flagged.refused j⟩
  · obtain rfl := Option.some.inj (found.symm.trans is)
    exact ⟨d i, slotOf_some lookup, drained.pc.trans same_pc, .inl drained.pending⟩
  · exact room.update (by simp [drained.pending])

variable {k : CacheState} {b : Batch}

private theorem noted_endMaster (keyed : Keyed k.devCaches)
    (same : k.devCaches = s.cache.devCaches) (fns : k.fns = allFns) (titled : Titled x.2)
    (fresh : ∀ c, slotOf k.devCaches b.dev = some c → Fresh x.2 c.pending) :
    (endMaster p k b).Ensures (noting s t) (Fair s) x
      (fun k' x' => Left b.dev k.devCaches k'.devCaches x x' ∧ k'.fns = k.fns) := by
  unfold endMaster
  cases lookup : cacheLookup k.devCaches b.dev with
  | none => exact ⟨left_flagged _ keyed (flagged_refl _), rfl⟩
  | some i =>
      simp only [Prog.ensures_bind, fns]
      have master : masterOf s.cache.devCaches (k.devCaches i).dev = (k.devCaches i).pc :=
        same ▸ masterOf_slot lookup
      refine (noted_drainAndSave (c := { k.devCaches i with masterInUse := false }) titled
        (fresh (k.devCaches i) (slotOf_some lookup)) master).mono ?_
      rintro c x' ⟨drained, swept⟩
      exact ⟨left_drained (c := { k.devCaches i with masterInUse := false }) keyed lookup rfl rfl
        rfl (flagged_refl _) rfl drained swept, fns⟩

private theorem Titled.flagged {bk bk' : Book} (titled : Titled bk) (flagged : Flagged bk bk') :
    Titled bk' := by
  intro pc i named
  rw [(flagged.same i).1]
  exact titled pc i (flagged.names ▸ named)

private theorem noted_mergeAndDrain {src : VkPipelineCache} {α : Type} (f : DevCache → α)
    {post : α → World × Book → Prop} (keyed : Keyed k.devCaches)
    (same : k.devCaches = s.cache.devCaches) (titled : Titled x.2)
    (fresh : ∀ c, slotOf k.devCaches b.dev = some c → Fresh x.2 c.pending)
    (lookup : cacheLookup k.devCaches b.dev = some i)
    (next : ∀ c x', c.dev = (k.devCaches i).dev →
      Left b.dev k.devCaches (Function.update k.devCaches i c) x x' →
      (∀ j, x.2.names src = some j → (x.2.scratches j).destroyed = 0 →
        (x'.2.scratches j).merged = true) → post (f c) x') :
    Prog.Ensures (noting s t) (Fair s) (do
      let _ ← Shim.call (.mergePipelineCaches b.dev (k.devCaches i).pc [src])
      let c ← drainAndSave p allFns (k.devCaches i)
      return f c : Shim α) x post := by
  have master := masterOf_slot lookup
  rw [same] at master
  have here := (cacheLookup_dev lookup).1
  simp only [Prog.ensures_bind]
  refine noted_merge titled (here ▸ same ▸ master) fun _ bk flagged merged => ?_
  have still_fresh := (fresh _ (slotOf_some lookup)).flagged flagged
  refine (noted_drainAndSave (titled.flagged flagged) still_fresh (same ▸ master)).mono ?_
  rintro c x' ⟨drained, swept⟩
  refine next c x' drained.dev ?_ fun j named there => ?_
  · refine left_drained keyed lookup rfl rfl rfl flagged ?_ drained swept
    rfl
  · exact (swept.keeps j).1 (merged src (List.mem_singleton.mpr rfl) j named there)

private theorem noted_endApp (keyed : Keyed k.devCaches)
    (same : k.devCaches = s.cache.devCaches) (fns : k.fns = allFns) (titled : Titled x.2)
    (fresh : ∀ c, slotOf k.devCaches b.dev = some c → Fresh x.2 c.pending) :
    (endApp p k b).Ensures (noting s t) (Fair s) x
      (fun k' x' => Left b.dev k.devCaches k'.devCaches x x' ∧ k'.fns = k.fns) := by
  have unchanged := left_flagged (w := x.1) b.dev keyed (flagged_refl x.2)
  unfold endApp
  simp only
  by_cases last : (appCacheLeave k.appInflight b).1 = true
  · rw [if_pos last]
    simp only [Prog.ensures_bind]
    refine (noted_quiet (always_readPropExplicitOn _ _)).mono ?_
    rintro ⟨harvest, gate⟩ _ ⟨-, rfl⟩
    cases lookup : cacheLookup k.devCaches b.dev with
    | none => exact ⟨unchanged, rfl⟩
    | some i =>
        simp only
        split_ifs
        · rw [fns]
          refine noted_mergeAndDrain _ keyed same titled fresh lookup fun c x' _ left _ => ?_
          exact ⟨left, rfl⟩
        · exact ⟨unchanged, rfl⟩
  · rw [if_neg last]
    exact ⟨unchanged, rfl⟩

/-- The scratch cache of a batch that ended is in the queue, or still its own to destroy. -/
def Parted (b b' : Batch) (d' : DevCaches) (x' : World × Book) : Prop :=
  (b' = b ∧ (b.scratch ≠ 0 → ∀ j, x'.2.names b.scratch = some j →
      (x'.2.scratches j).merged = true ∨ (x'.2.scratches j).refused = true)) ∨
    (b' = { b with scratch := 0 } ∧ b.scratch ∈ slotHandles d' b.dev)

private theorem noted_endScratch (keyed : Keyed k.devCaches)
    (same : k.devCaches = s.cache.devCaches) (fns : k.fns = allFns) (titled : Titled x.2)
    (fresh : ∀ c, slotOf k.devCaches b.dev = some c → Fresh x.2 c.pending)
    (mine : Fresh x.2 [b.scratch])
    (refused : refuses k.devCaches b.dev = true → ∀ j, x.2.names b.scratch = some j →
      (x.2.scratches j).refused = true) :
    (endScratch p k b).Ensures (noting s t) (Fair s) x (fun r x' =>
      Left b.dev k.devCaches r.1.devCaches x x' ∧ r.1.fns = k.fns ∧
        Parted b r.2 r.1.devCaches x') := by
  have unchanged := left_flagged (w := x.1) b.dev keyed (flagged_refl x.2)
  unfold endScratch
  cases lookup : cacheLookup k.devCaches b.dev with
  | none =>
      have none_there : refuses k.devCaches b.dev = true := by simp [refuses, slotOf, lookup]
      exact ⟨unchanged, rfl, .inl ⟨rfl, fun _ j named => .inr (refused none_there j named)⟩⟩
  | some i =>
      have found := slotOf_some lookup
      have here := (cacheLookup_dev lookup).1
      simp only
      split_ifs with mergeable room
      · rw [fns]
        refine noted_mergeAndDrain _ keyed same titled fresh lookup fun c x' _ left merged => ?_
        refine ⟨left, fns, .inl ⟨rfl, fun _ j named => .inl ?_⟩⟩
        have was : x.2.names b.scratch = some j := left.names ▸ named
        exact merged j was (mine _ (List.mem_singleton.mpr rfl) j was)
      · obtain ⟨only, found', -⟩ := onlySlot_set (c := { k.devCaches i with
          pending := (k.devCaches i).pending ++ [b.scratch] }) keyed lookup here
        have blocked : (k.devCaches i).masterInUse = true ∨ (k.devCaches i).pc = 0 := by
          by_contra free
          rw [not_or, Bool.not_eq_true] at free
          exact mergeable ⟨free.1, by rw [fns]; rfl, free.2⟩
        have queued : slotHandles (k.setSlot i { k.devCaches i with
            pending := (k.devCaches i).pending ++ [b.scratch] }).devCaches b.dev =
              handles (k.devCaches i) ++ [b.scratch] := by
          refine (slotHandles_some found').trans ?_
          simp [handles]
        refine ⟨⟨only, fun _ => .inl rfl, fun pc member => .inl ?_, rfl, rfl, fun _ => ⟨id, id⟩,
          fun c' is => ?_, fun all_short => ?_⟩, rfl, .inr ⟨rfl, ?_⟩⟩
        · rw [slotHandles_some found] at member
          rw [queued]
          exact List.mem_append_left _ member
        · obtain rfl := Option.some.inj (found'.symm.trans is)
          exact ⟨k.devCaches i, found, rfl, .inr ⟨rfl, .inr blocked⟩⟩
        · refine all_short.update ?_
          simp only [List.length_append, List.length_singleton]
          exact room
        · rw [queued]
          exact List.mem_append_right _ (List.mem_singleton.mpr rfl)
      · have full : refuses k.devCaches b.dev = true := by
          simp only [refuses, found, Option.elim_some, decide_eq_true_eq]
          exact not_lt.mp room
        obtain ⟨only, found', -⟩ := onlySlot_set (c := { k.devCaches i with
          warnedPendingFull := true }) keyed lookup here
        refine ⟨⟨only, fun _ => .inl rfl, fun pc member => .inl ?_, rfl, rfl, fun _ => ⟨id, id⟩,
          fun c' is => ?_, fun all_short => all_short.update (all_short i)⟩, rfl,
          .inl ⟨rfl, fun _ j named => .inr (refused full j named)⟩⟩
        · rw [slotHandles_some found] at member
          exact (slotHandles_some found').symm ▸ member
        · obtain rfl := Option.some.inj (found'.symm.trans is)
          exact ⟨k.devCaches i, found, rfl, .inr ⟨rfl, .inl rfl⟩⟩

theorem noted_batchEnd (keyed : Keyed s.cache.devCaches) (fns : s.cache.fns = allFns)
    (titled : Titled x.2)
    (fresh : ∀ c, slotOf s.cache.devCaches b.dev = some c → Fresh x.2 c.pending)
    (mine : Fresh x.2 [b.scratch]) (own : b.ownMaster = true → b.scratch = 0)
    (app : b.appCache ≠ 0 → b.scratch = 0)
    (refused : refuses s.cache.devCaches b.dev = true → ∀ j, x.2.names b.scratch = some j →
      (x.2.scratches j).refused = true) :
    (batchEnd p s.cache b).Ensures (noting s t) (Fair s) x (fun r x' =>
      Left b.dev s.cache.devCaches r.1.devCaches x x' ∧ r.1.fns = s.cache.fns ∧
        Parted b r.2 r.1.devCaches x') := by
  have counted : (countBatch p s.cache b).Always Quiet (fun k' =>
      k'.devCaches = s.cache.devCaches ∧ k'.fns = s.cache.fns) := by
    unfold countBatch
    simp only
    split_ifs
    · exact ⟨trivial, fun _ => ⟨rfl, rfl⟩⟩
    · exact ⟨rfl, rfl⟩
  simp only [batchEnd, Prog.ensures_bind]
  refine (noted_quiet counted).mono ?_
  rintro k₁ x₁ ⟨⟨same, same_fns⟩, rfl⟩
  rw [← same] at keyed fresh refused ⊢
  rw [← same_fns] at fns ⊢
  split_ifs with is_own is_app has_scratch
  · simp only [Prog.ensures_bind]
    refine (noted_endMaster keyed same fns titled fresh).mono fun k' x' left => ?_
    exact ⟨left.1, left.2, .inl ⟨rfl, fun some_left => absurd (own is_own) some_left⟩⟩
  · simp only [Prog.ensures_bind]
    refine (noted_endApp keyed same fns titled fresh).mono fun k' x' left => ?_
    exact ⟨left.1, left.2, .inl ⟨rfl, fun some_left => absurd (app is_app) some_left⟩⟩
  · exact noted_endScratch keyed same fns titled fresh mine refused
  · exact ⟨left_flagged _ keyed (flagged_refl _), rfl,
      .inl ⟨rfl, fun some_left => absurd some_left has_scratch⟩⟩

theorem noted_dropDiskCache (keyed : Keyed s.cache.devCaches)
    (fns : s.cache.fns = allFns) (titled : Titled x.2)
    (fresh : ∀ c, slotOf s.cache.devCaches dev = some c → Fresh x.2 c.pending)
    (unnamed : ∀ c, slotOf s.cache.devCaches dev = some c → c.pc ≠ 0 → x.2.names c.pc = none) :
    (dropDiskCache p s.cache (cacheLookup s.cache.devCaches dev) true).Ensures (noting s t)
      (Fair s) x (fun k' x' => Left dev s.cache.devCaches k'.devCaches x x' ∧
        k'.fns = s.cache.fns) := by
  unfold dropDiskCache
  cases lookup : cacheLookup s.cache.devCaches dev with
  | none => exact ⟨left_flagged _ keyed (flagged_refl _), rfl⟩
  | some i =>
      have found := slotOf_some lookup
      obtain ⟨only, gone⟩ := onlySlot_zero keyed lookup
      have left {x' : World × Book} {pcs : List VkPipelineCache} (swept : Swept pcs x x')
          (all : ∀ pc ∈ handles (s.cache.devCaches i), pc ∈ pcs) :
          Left dev s.cache.devCaches (s.cache.setSlot i DevCache.zero).devCaches x x' := by
        refine ⟨only, swept.fewer, fun pc member => .inr ?_, swept.names, swept.masterFailed,
          swept.keeps, fun c' is => ?_, fun room => room.update (by simp [DevCache.zero])⟩
        · rw [slotHandles_some found] at member
          exact swept.gone pc (all pc member)
        · cases gone.symm.trans is
      simp only [if_true, Prog.ensures_bind, fns]
      refine (noted_drainPending titled (fresh _ found) (masterOf_slot lookup)).mono ?_
      rintro c x₁ ⟨drained, swept⟩
      by_cases some_pc : c.pc ≠ 0
      · rw [if_pos some_pc]
        simp only [Prog.ensures_bind]
        refine (noted_looks _ _ (always_saveDiskCache c true)).mono ?_
        rintro c₂ x₂ ⟨same, rfl⟩
        simp only [allFns, if_true, Prog.ensures_bind]
        have some_old : (s.cache.devCaches i).pc ≠ 0 := drained.pc ▸ some_pc
        refine noted_destroy (fun j named => ?_) fun x' last => ?_
        · rw [same.pc, drained.pc, swept.names, unnamed _ found some_old] at named
          cases named
        · refine ⟨left (swept.trans last) fun pc member => ?_, fns⟩
          rw [mem_handles] at member
          rw [List.mem_append, List.mem_singleton, same.pc, drained.pc]
          exact member.elim (fun master => .inr master.1) .inl
      · rw [if_neg some_pc]
        refine ⟨left swept fun pc member => ?_, fns⟩
        rw [mem_handles] at member
        exact member.resolve_left fun master => some_pc (drained.pc ▸ master.2)

/-- What `ensure_disk_cache` leaves: the slot of `dev` as it was but for its cache and for who
uses it. -/
structure Prepared (dev : VkDevice) (k k' : CacheState) (x x' : World × Book) : Prop where
  table : OnlySlot dev k.devCaches k'.devCaches
  fns : (k.fns = allFns ∨ ∀ i, (k.devCaches i).dev = 0) → k'.fns = allFns
  room : Room k.devCaches → Room k'.devCaches
  none_there : slotOf k'.devCaches dev = none → slotOf k.devCaches dev = none ∧ x' = x
  slot : ∀ c', slotOf k'.devCaches dev = some c' →
    c'.pending = ((slotOf k.devCaches dev).getD { DevCache.zero with dev := dev }).pending ∧
    (∀ c, slotOf k.devCaches dev = some c → c.masterInUse = true → c'.masterInUse = true) ∧
    ((c'.pc ≠ 0 ∧ (∃ c, slotOf k.devCaches dev = some c ∧ c.pc = c'.pc) ∧ x' = x) ∨
      (c'.pc = 0 ∧ masterOf k.devCaches dev = 0 ∧
        x' = (x.1, { x.2 with masterFailed := true })) ∨
      (c'.pc ≠ 0 ∧ masterOf k.devCaches dev = 0 ∧ x.1.caches c'.pc = none ∧
        x' = (x.1.addCache c'.pc dev .shim, x.2.forget c'.pc)))

private theorem noted_createPrimed (not_begun : ∀ b, s.threads t ≠ .begun b) (initial : Bytes) :
    (createPrimed dev initial).Ensures (noting s t) (Fair s) x (fun made x' =>
      match made with
      | none => x' = (x.1, { x.2 with masterFailed := true })
      | some pc => pc ≠ 0 ∧ x.1.caches pc = none ∧
          x' = (x.1.addCache pc dev .shim, x.2.forget pc)) := by
  have create {data : Bytes} {made : Option VkPipelineCache} {x' : World × Book}
      (answered : noting s t x (.createPipelineCache .shim dev data) made x') :
      match made with
      | none => x' = (x.1, { x.2 with masterFailed := x.2.masterFailed || data == [] })
      | some pc => pc ≠ 0 ∧ x.1.caches pc = none ∧
          x' = (x.1.addCache pc dev .shim, x.2.forget pc) := by
    obtain ⟨driver, noted⟩ := answered
    cases made with
    | none =>
        rw [note_failed not_begun] at noted
        exact Prod.ext driver (by simpa using noted)
    | some pc =>
        obtain ⟨nonzero, fresh, world⟩ := driver
        rw [note_made not_begun] at noted
        exact ⟨nonzero, fresh, Prod.ext world noted⟩
  simp only [createPrimed, Prog.ensures_bind]
  refine ⟨trivial, fun made x₁ answered => ?_⟩
  have first := create answered
  cases made with
  | some pc => exact first
  | none =>
      simp only at first
      split_ifs with empty
      · have failed : x₁ = (x.1, { x.2 with masterFailed := true }) := by
          simpa [empty] using first
        exact failed
      · obtain rfl : x₁ = x := by
          rw [beq_false_of_ne empty, Bool.or_false] at first
          exact first
        refine ⟨trivial, fun made x₂ answered => ?_⟩
        have second := create answered
        cases made with
        | some pc => exact second
        | none =>
            have failed : x₂ = (x₁.1, { x₁.2 with masterFailed := true }) := by
              simpa using second
            exact failed

private theorem noted_createDiskCache (not_begun : ∀ b, s.threads t ≠ .begun b) :
    (createDiskCache p dev c).Ensures (noting s t) (Fair s) x (fun r x' =>
      r.2.dev = c.dev ∧ r.2.pending = c.pending ∧ r.2.masterInUse = c.masterInUse ∧
        ((r.1 = 0 ∧ r.2.pc = c.pc ∧ x' = (x.1, { x.2 with masterFailed := true })) ∨
          (r.2.pc = r.1 ∧ r.1 ≠ 0 ∧ x.1.caches r.1 = none ∧
            x' = (x.1.addCache r.1 dev .shim, x.2.forget r.1)))) := by
  have load (c₁ : DevCache) (same : SameCore c c₁) :
      (loadDiskCache dev c₁).Ensures (noting s t) (Fair s) x (fun r x' =>
        r.2.dev = c.dev ∧ r.2.pending = c.pending ∧ r.2.masterInUse = c.masterInUse ∧
          ((r.1 = 0 ∧ r.2.pc = c.pc ∧ x' = (x.1, { x.2 with masterFailed := true })) ∨
            (r.2.pc = r.1 ∧ r.1 ≠ 0 ∧ x.1.caches r.1 = none ∧
              x' = (x.1.addCache r.1 dev .shim, x.2.forget r.1)))) := by
    simp only [loadDiskCache, Prog.ensures_bind]
    refine (noted_quiet (always_loadInitial _)).mono ?_
    rintro initial _ ⟨-, rfl⟩
    refine (noted_createPrimed not_begun initial).mono ?_
    intro made x₁ made_or_not
    cases made with
    | none => exact ⟨same.dev, same.pending, same.masterInUse, .inl ⟨rfl, same.pc, made_or_not⟩⟩
    | some pc =>
        obtain ⟨nonzero, fresh, rfl⟩ := made_or_not
        refine ⟨trivial, fun now x₂ answered => ?_⟩
        obtain rfl : x₂ = _ := Prod.ext answered.1 answered.2
        exact ⟨same.dev, same.pending, same.masterInUse, .inr ⟨rfl, nonzero, fresh, rfl⟩⟩
  have path : (cachePathForSelf p).Always Quiet (fun _ => True) := by
    simp only [cachePathForSelf, Prog.always_bind, Prog.always_call]
    refine ⟨trivial, fun uid => ?_⟩
    split_ifs <;> trivial
  simp only [createDiskCache, Prog.ensures_bind]
  refine (noted_quiet path).mono ?_
  rintro found _ ⟨-, rfl⟩
  cases found with
  | none => exact load c (.refl c)
  | some path =>
      simp only [Prog.ensures_bind]
      refine (noted_quiet (always_dropCacheIfStale path)).mono ?_
      rintro _ _ ⟨-, rfl⟩
      exact load _ ⟨rfl, rfl, rfl, rfl⟩

private theorem Room.claim {d' : DevCaches} (room : Room d)
    (claimed : cacheClaim d dev = some (i, d')) : Room d' := by
  unfold cacheClaim at claimed
  cases lookup : cacheLookup d dev with
  | some j =>
      obtain ⟨-, rfl⟩ : j = i ∧ d = d' := by simpa [lookup] using claimed
      exact room
  | none =>
      cases free : firstIndex fun i => decide ((d i).dev = 0) with
      | none => simp [lookup, free] at claimed
      | some j =>
          obtain ⟨-, rfl⟩ : j = i ∧ Function.update d j { DevCache.zero with dev := dev } = d' := by
            simpa [lookup, free] using claimed
          exact room.update (by simp [DevCache.zero])

private theorem masterOf_getD (d : DevCaches) (dev : VkDevice) :
    masterOf d dev = ((slotOf d dev).getD { DevCache.zero with dev := dev }).pc := by
  unfold masterOf
  cases slotOf d dev <;> rfl

private theorem noted_ensureDiskCache {k : CacheState} (exported : p.exported = allFns)
    (keyed : Keyed k.devCaches) (handle : dev ≠ 0) (not_begun : ∀ b, s.threads t ≠ .begun b) :
    (ensureDiskCache p k dev).Ensures (noting s t) (Fair s) x (fun r x' =>
      Prepared dev k r.2 x x' ∧ (∀ c', slotOf r.2.devCaches dev = some c' → c'.pc = r.1)) := by
  unfold ensureDiskCache
  cases claimed : cacheClaim k.devCaches dev with
  | none =>
      have taken : ∀ i, (k.devCaches i).dev ≠ 0 := by
        intro i empty
        unfold cacheClaim at claimed
        cases lookup : cacheLookup k.devCaches dev with
        | some j => simp [lookup] at claimed
        | none =>
            cases free : firstIndex fun i => decide ((k.devCaches i).dev = 0) with
            | some j => simp [lookup, free] at claimed
            | none => simpa [empty] using firstIndex_eq_none.mp free i
      have missing : slotOf k.devCaches dev = none := by
        unfold cacheClaim at claimed
        cases lookup : cacheLookup k.devCaches dev with
        | none => simp [slotOf, lookup]
        | some i => simp [lookup] at claimed
      refine ⟨⟨.refl keyed, fun known => ?_, id, fun _ => ⟨missing, rfl⟩, fun c' found => ?_⟩,
        fun c' found => ?_⟩
      · exact known.resolve_right fun empty => taken ⟨0, by decide⟩ (empty _)
      · cases missing.symm.trans found
      · cases missing.symm.trans found
  | some slot =>
      obtain ⟨i, d'⟩ := slot
      obtain ⟨only, lookup, was⟩ := cacheClaim_spec keyed handle claimed
      have old (c : DevCache) (found : slotOf k.devCaches dev = some c) : d' i = c := by
        rw [was, found, Option.getD_some]
      by_cases has : (d' i).pc ≠ 0
      · simp only [has, ne_eq, not_false_eq_true, if_true]
        obtain ⟨c₀, found⟩ : ∃ c₀, slotOf k.devCaches dev = some c₀ := by
          cases found : slotOf k.devCaches dev with
          | some c₀ => exact ⟨c₀, rfl⟩
          | none =>
              rw [was, found] at has
              exact absurd rfl has
        have here := slotOf_some lookup
        refine ⟨⟨only, fun known => ?_, fun room => room.claim claimed, fun none_there => ?_,
          fun c' is => ?_⟩, fun c' is => ?_⟩
        · refine known.resolve_right fun empty => ?_
          obtain ⟨j, at_j, -⟩ := Option.map_eq_some_iff.mp found
          exact handle ((cacheLookup_dev at_j).1.symm.trans (empty j))
        · cases here.symm.trans none_there
        · obtain rfl := Option.some.inj (here.symm.trans is)
          refine ⟨by rw [was], fun c is_c used => ?_, .inl ⟨has, ⟨c₀, found, ?_⟩, rfl⟩⟩
          · rw [old c is_c]
            exact used
          · rw [old c₀ found]
        · obtain rfl := Option.some.inj (here.symm.trans is)
          rfl
      · have bare : (d' i).pc = 0 := not_not.mp has
        have resolved : resolveCacheFns p.exported k.fns = allFns := by
          simp [resolveCacheFns, exported, allFns]
        simp only [bare, ne_eq, not_true_eq_false, if_false, resolved]
        rw [if_neg (by simp [allFns])]
        simp only [Prog.ensures_bind]
        refine (noted_createDiskCache not_begun).mono ?_
        rintro ⟨pc, c⟩ x' ⟨same_dev, pending, used, made⟩
        have dev_eq : c.dev = dev := same_dev.trans (cacheLookup_dev lookup).1
        obtain ⟨only', here, -⟩ := onlySlot_set only.keyed lookup dev_eq
        have no_master : masterOf k.devCaches dev = 0 := by rw [masterOf_getD, ← was, bare]
        refine ⟨⟨only.trans only', fun _ => rfl, fun room => ?_, fun none_there => ?_,
          fun c' is => ?_⟩, fun c' is => ?_⟩
        · have claimed_room := room.claim claimed
          exact claimed_room.update (by rw [pending]; exact claimed_room i)
        · cases here.symm.trans none_there
        · obtain rfl := Option.some.inj (here.symm.trans is)
          refine ⟨by rw [pending, was], fun c₀ is_c used₀ => ?_, .inr ?_⟩
          · rw [used, old c₀ is_c]
            exact used₀
          · rcases made with ⟨-, same_pc, rfl⟩ | ⟨has_pc, nonzero, fresh, rfl⟩
            · exact .inl ⟨same_pc.trans bare, no_master, rfl⟩
            · rw [has_pc]
              exact .inr ⟨nonzero, no_master, fresh, rfl⟩
        · obtain rfl := Option.some.inj (here.symm.trans is)
          rcases made with ⟨null, same_pc, -⟩ | ⟨has_pc, -⟩
          · exact same_pc.trans (bare.trans null.symm)
          · exact has_pc

theorem noted_batchBegin (exported : p.exported = allFns) (keyed : Keyed k.devCaches)
    (handle : b.dev ≠ 0) (not_begun : ∀ b, s.threads t ≠ .begun b) :
    (batchBegin p k b).Ensures (noting s t) (Fair s) x (fun r x' =>
      Prepared b.dev k r.1 x x' ∧ r.2.scratch = b.scratch) := by
  simp only [batchBegin, Prog.ensures_bind]
  refine (noted_ensureDiskCache exported keyed handle not_begun).mono ?_
  rintro ⟨pc, k₁⟩ x₁ ⟨prepared, -⟩
  obtain ⟨table, fns, room, none_there, slot⟩ := prepared
  split_ifs
  · exact ⟨⟨table, fns, room, none_there, slot⟩, rfl⟩
  · cases lookup : cacheLookup k₁.devCaches b.dev with
    | none => exact ⟨⟨table, fns, room, none_there, slot⟩, rfl⟩
    | some i =>
        simp only
        split_ifs with free
        · have found := slotOf_some lookup
          obtain ⟨only, found', -⟩ := onlySlot_set (c := { k₁.devCaches i with
            masterInUse := true }) table.keyed lookup (cacheLookup_dev lookup).1
          refine ⟨⟨table.trans only, fns, fun short => (room short).update (room short i),
            fun missing => ?_, fun c' is => ?_⟩, rfl⟩
          · cases found'.symm.trans missing
          · obtain rfl := Option.some.inj (found'.symm.trans is)
            obtain ⟨pending, -, has⟩ := slot _ found
            exact ⟨pending, fun _ _ _ => rfl, has⟩
        · exact ⟨⟨table, fns, room, none_there, slot⟩, rfl⟩

theorem noted_primeAppCache {out : VkPipelineCache} (exported : p.exported = allFns)
    (keyed : Keyed k.devCaches) (handle : dev ≠ 0) (not_begun : ∀ b, s.threads t ≠ .begun b)
    (other : out ≠ masterOf s.cache.devCaches dev) :
    (primeAppCache p k dev out).Ensures (noting s t) (Fair s) x (fun k' x' =>
      Prepared dev k k' x x') := by
  simp only [primeAppCache, Prog.ensures_bind]
  refine (noted_ensureDiskCache exported keyed handle not_begun).mono ?_
  rintro ⟨pc, k₁⟩ x₁ ⟨prepared, -⟩
  cases cacheLookup k₁.devCaches dev with
  | none => exact prepared
  | some i =>
      simp only
      split_ifs
      · simp only [Prog.ensures_bind]
        refine ⟨trivial, fun _ x₂ first => ?_⟩
        obtain rfl : x₂ = x₁ := Prod.ext first.1 first.2
        refine ⟨trivial, fun r x₃ merged => ?_⟩
        obtain rfl : x₃ = x₂ := by
          refine Prod.ext merged.1 (merged.2.trans ?_)
          exact if_neg other
        refine ⟨trivial, fun _ x₄ last => ?_⟩
        obtain rfl : x₄ = x₃ := Prod.ext last.1 last.2
        exact prepared
      · exact prepared

end Sections

end XdPlus.Vulkan.PipelineBook
