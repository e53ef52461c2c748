/- Module: XdPlus/Vulkan/PipelineHarvest
   source: vulkan/vkshim.c, app_inflight, app_cache_ref, app_cache_unref, compile_batch
   digest: When a harvest of an application's cache is safe from the batches that use it. -/

import XdPlus.Base.RefCount
import XdPlus.Vulkan.PipelineBatchSafety

/-!
`app_inflight` counts the batches it has seen. A batch that begins while all entries hold
other caches is not seen, and nothing says so to a batch with the same cache that begins
later, finds room, and ends first.
-/

set_option autoImplicit false
set_option relaxedAutoImplicit false

namespace XdPlus.Vulkan.PipelineHarvest

open XdPlus.Base Common Driver PipelineCache PipelineBatches PipelineLedger PipelineOwnership
open PipelineBatchSafety

section Table

variable {p : Process} {k : CacheState} {b : Batch}

/-- The app cache that a batch in flight works with, and whether it is counted. -/
def appUse (phase : Phase) : Option (VkPipelineCache × Bool) :=
  phase.inFlight.bind fun b => if b.appCache = 0 then none else some (b.appCache, b.appTracked)

/-- How a thread that goes from `phase` to `phase'` changes the table. -/
def TableStep (table : AppInflight) (phase : Phase) (table' : AppInflight) (phase' : Phase) :
    Prop :=
  match phase with
  | .arrived b =>
      if b.appCache = 0 then table' = table ∧ appUse phase' = none
      else table' = (appCacheRef table b.appCache).2 ∧
        appUse phase' = some (b.appCache, (appCacheRef table b.appCache).1)
  | .compiled b => appUse phase' = none ∧ table' =
      if b.ownMaster = false ∧ b.appCache ≠ 0 then (appCacheLeave table b).2 else table
  | .destroying _ pc => appUse phase' = none ∧ table' = appCacheForget table pc
  | _ => table' = table ∧ appUse phase' = appUse phase

private abbrev anything : Call → Prop := fun _ => True

private theorem always_ensureDiskCache (dev : VkDevice) :
    (ensureDiskCache p k dev).Always anything (fun r => r.2.appInflight = k.appInflight) := by
  unfold ensureDiskCache
  cases cacheClaim k.devCaches dev with
  | none => exact rfl
  | some slot =>
      obtain ⟨i, d'⟩ := slot
      simp only
      split_ifs
      · exact rfl
      · exact rfl
      · simp only [Prog.always_bind]
        exact (Prog.always_trivial _).mono fun _ _ => rfl

private theorem always_batchBegin : (batchBegin p k b).Always anything (fun r =>
    TableStep k.appInflight (.arrived b) r.1.appInflight (.begun r.2)) := by
  simp only [batchBegin, Prog.always_bind]
  refine (always_ensureDiskCache _).mono ?_
  rintro ⟨pc, k₁⟩ same
  have same_table : k₁.appInflight = k.appInflight := same
  by_cases null : b.appCache = 0
  · have unused : ∀ b', b'.appCache = b.appCache → appUse (.begun b') = none := by
      intro b' same_app
      simp [appUse, Phase.inFlight, same_app, null]
    simp only [TableStep, null, ne_eq, not_true_eq_false, if_false, if_true]
    cases cacheLookup k₁.devCaches b.dev with
    | none => exact ⟨same_table, unused b rfl⟩
    | some i =>
        simp only
        split_ifs
        · exact ⟨same_table, unused _ null.symm⟩
        · exact ⟨same_table, unused b rfl⟩
  · simp only [TableStep, null, ne_eq, not_false_eq_true, if_true, if_false]
    rw [← same_table]
    exact ⟨rfl, by simp [appUse, Phase.inFlight, null]⟩

private theorem always_rest {α β : Type} (prog : Shim α) {f : α → β} {post : β → Prop}
    (rest : ∀ a, post (f a)) : (prog >>= fun a => pure (f a)).Always anything post := by
  rw [Prog.always_bind]
  exact (Prog.always_trivial _).mono fun a _ => rest a

private theorem always_countBatch : (countBatch p k b).Always (fun op => ∀ dev dst srcs,
    op ≠ .mergePipelineCaches dev dst srcs) (fun k' => k'.appInflight = k.appInflight) := by
  unfold countBatch
  simp only
  split_ifs
  · refine ⟨fun _ _ _ => nofun, fun _ => rfl⟩
  · exact rfl

private theorem always_endMaster :
    (endMaster p k b).Always anything (fun k' => k'.appInflight = k.appInflight) := by
  unfold endMaster
  cases cacheLookup k.devCaches b.dev with
  | none => exact rfl
  | some i => exact always_rest _ fun _ => rfl

private theorem always_endApp : (endApp p k b).Always anything
    (fun k' => k'.appInflight = (appCacheLeave k.appInflight b).2) := by
  unfold endApp
  obtain ⟨last, table⟩ := appCacheLeave k.appInflight b
  simp only
  split_ifs
  · rw [Prog.always_bind]
    refine (Prog.always_trivial _).mono fun r _ => ?_
    obtain ⟨harvest, gate⟩ := r
    simp only
    cases cacheLookup k.devCaches b.dev with
    | none => exact rfl
    | some i =>
        simp only
        split_ifs
        · rw [Prog.always_bind]
          exact (Prog.always_trivial _).mono fun _ _ => always_rest _ fun _ => rfl
        · exact rfl
  · exact rfl

private theorem always_endScratch :
    (endScratch p k b).Always anything (fun r => r.1.appInflight = k.appInflight) := by
  unfold endScratch
  cases cacheLookup k.devCaches b.dev with
  | none => exact rfl
  | some i =>
      simp only
      split_ifs
      · rw [Prog.always_bind]
        exact (Prog.always_trivial _).mono fun _ _ => always_rest _ fun _ => rfl
      · exact rfl
      · exact rfl

private theorem always_batchEnd : (batchEnd p k b).Always anything (fun r => r.1.appInflight =
    if b.ownMaster = false ∧ b.appCache ≠ 0 then (appCacheLeave k.appInflight b).2
    else k.appInflight) := by
  unfold batchEnd
  rw [Prog.always_bind]
  refine (always_countBatch.weaken fun _ _ => trivial).mono fun k' same => ?_
  rw [← same]
  cases own : b.ownMaster with
  | true =>
      simp only [if_true, Bool.true_eq_false, false_and, if_false, Prog.always_bind]
      exact always_endMaster.mono fun _ kept => kept
  | false =>
      by_cases app : b.appCache = 0
      · simp only [app, Bool.false_eq_true, ne_eq, not_true_eq_false, and_false, if_false]
        split_ifs
        · exact rfl
        · exact always_endScratch
      · simp only [app, Bool.false_eq_true, ne_eq, not_false_eq_true, and_self, if_true, if_false,
          Prog.always_bind]
        exact always_endApp.mono fun _ kept => kept

/-- A batch with an app cache merges nothing unless it was the last to use that cache. -/
theorem ending_merges (own : b.ownMaster = false) (app : b.appCache ≠ 0) :
    (advance p k (.compiled b)).Always (fun op => ∀ dev dst srcs,
      op = .mergePipelineCaches dev dst srcs → (appCacheLeave k.appInflight b).1 = true)
      (fun _ => True) := by
  simp only [advance, batchEnd, Prog.always_bind]
  have no_merge := always_countBatch (p := p) (k := k) (b := b)
  refine (no_merge.weaken fun op none dev dst srcs is => (none dev dst srcs is).elim).mono
    fun k' same => ?_
  simp only [own, app, Bool.false_eq_true, ne_eq, not_false_eq_true, if_true, if_false,
    Prog.always_bind]
  cases last : (appCacheLeave k.appInflight b).1 with
  | true => exact ((Prog.always_trivial _).mono fun _ _ => trivial).weaken fun _ _ _ _ _ _ => rfl
  | false =>
      unfold endApp
      rw [same]
      simp only [last, Bool.false_eq_true, if_false]
      trivial

private theorem always_primeAppCache (dev : VkDevice) (out : VkPipelineCache) :
    (primeAppCache p k dev out).Always anything (fun k' => k'.appInflight = k.appInflight) := by
  unfold primeAppCache
  rw [Prog.always_bind]
  refine (always_ensureDiskCache dev).mono ?_
  rintro ⟨mine, k₁⟩ same
  have same_table : k₁.appInflight = k.appInflight := same
  simp only
  cases cacheLookup k₁.devCaches dev with
  | none => exact same_table
  | some i =>
      simp only
      split_ifs
      · exact ⟨trivial, fun _ => ⟨trivial, fun _ => ⟨trivial, fun _ => same_table⟩⟩⟩
      · exact same_table

private theorem dropDiskCache_table (slot : Option (Fin devCacheMax)) (alive : Bool) :
    (dropDiskCache p k slot alive).Always anything (fun k' => k'.appInflight = k.appInflight) := by
  refine ((always_dropDiskCache slot alive).weaken fun _ _ => trivial).mono ?_
  rintro _ rfl
  cases slot <;> rfl

/-- The only stretches that write the table are the two sections of `compile_batch` and
`shim_DestroyPipelineCache`. -/
theorem advance_table (phase : Phase) : (advance p k phase).Always anything (fun r =>
    TableStep k.appInflight phase r.1.appInflight r.2.1) := by
  cases phase with
  | idle => exact ⟨rfl, rfl⟩
  | arrived b =>
      simp only [advance, Prog.always_bind]
      exact always_batchBegin.mono fun r spec => spec
  | begun b =>
      simp only [advance, batchScratch, Prog.always_bind]
      split_ifs
      · rw [Prog.always_bind]
        refine ⟨trivial, fun ans => ?_⟩
        cases ans with
        | none => exact ⟨rfl, rfl⟩
        | some scratch => exact ⟨rfl, rfl⟩
      · exact ⟨rfl, rfl⟩
  | ready b => exact ⟨trivial, fun _ => ⟨trivial, fun _ => ⟨rfl, rfl⟩⟩⟩
  | compiling b => exact ⟨trivial, fun _ => ⟨rfl, rfl⟩⟩
  | compiled b =>
      simp only [advance, Prog.always_bind]
      exact always_batchEnd.mono fun r spec => ⟨rfl, spec⟩
  | ended b => exact always_rest _ fun _ => ⟨rfl, rfl⟩
  | creating dev initial =>
      simp only [advance, Prog.always_bind]
      refine (Prog.always_trivial _).mono fun r _ => ?_
      obtain ⟨out, prime, gate⟩ := r
      cases out with
      | none => exact ⟨rfl, rfl⟩
      | some out => cases prime <;> exact ⟨rfl, rfl⟩
  | created dev out =>
      simp only [advance, Prog.always_bind]
      exact (always_primeAppCache dev out).mono fun _ same => ⟨same, rfl⟩
  | merging dev dst srcs => exact always_rest _ fun _ => ⟨rfl, rfl⟩
  | reading dev pc room => cases room <;> exact always_rest _ fun _ => ⟨rfl, rfl⟩
  | destroying dev pc => exact ⟨trivial, fun _ => ⟨rfl, rfl⟩⟩
  | makingDevice =>
      refine ⟨trivial, fun ans => ?_⟩
      cases ans <;> exact ⟨rfl, rfl⟩
  | madeDevice dev =>
      simp only [advance, Prog.always_bind]
      exact (dropDiskCache_table _ _).mono fun _ same => ⟨same, rfl⟩
  | droppingDevice dev =>
      simp only [advance, Prog.always_bind]
      exact (dropDiskCache_table _ _).mono fun _ same => ⟨same, rfl⟩
  | droppedDevice dev => exact always_rest _ fun _ => ⟨rfl, rfl⟩

end Table

section Tally

variable {table : AppInflight} {use : Nat → Option (VkPipelineCache × Bool)} {t : Nat}
  {pc : VkPipelineCache}

/-- Each entry counts the counted users of its cache, and a cache has users of one kind
only. -/
structure Tally (table : AppInflight) (use : Nat → Option (VkPipelineCache × Bool)) : Prop where
  counted : Counted 0 (fun i => (table i).pc) (fun i => (table i).n)
    (fun t pc => use t = some (pc, true))
  unmixed : ∀ {t t' pc x x'}, use t = some (pc, x) → use t' = some (pc, x') → x = x'

private theorem Tally.listed {i : Fin appCacheMax} {x : Bool} (tally : Tally table use)
    (handle : pc ≠ 0) (here : (table i).pc = pc) (user : use t = some (pc, x)) : x = true := by
  obtain ⟨S, ⟨u, member⟩, -, members⟩ := tally.counted.exact (i := i) (here ▸ handle)
  have counted : use u = some (pc, true) := here ▸ (members u).mp member
  exact tally.unmixed user counted

private theorem Tally.unlisted {x : Bool} (tally : Tally table use)
    (missing : ∀ i, (table i).pc ≠ pc) (user : use t = some (pc, x)) : x = false := by
  cases x with
  | false => rfl
  | true => exact absurd user (tally.counted.unlisted missing)

private theorem unmixed_update {x : Bool} (tally : Tally table use)
    (others : ∀ t' x', t' ≠ t → use t' = some (pc, x') → x' = x) {t₁ t₂ : Nat}
    {pc' : VkPipelineCache} {x₁ x₂ : Bool}
    (first : Function.update use t (some (pc, x)) t₁ = some (pc', x₁))
    (second : Function.update use t (some (pc, x)) t₂ = some (pc', x₂)) : x₁ = x₂ := by
  rcases eq_or_ne t₁ t with rfl | ne₁
  · rw [Function.update_self] at first
    cases first
    rcases eq_or_ne t₂ t₁ with rfl | ne₂
    · rw [Function.update_self] at second
      cases second
      rfl
    · rw [Function.update_of_ne ne₂] at second
      exact (others t₂ x₂ ne₂ second).symm
  · rw [Function.update_of_ne ne₁] at first
    rcases eq_or_ne t₂ t with rfl | ne₂
    · rw [Function.update_self] at second
      cases second
      exact others t₁ x₁ ne₁ first
    · rw [Function.update_of_ne ne₂] at second
      exact tally.unmixed first second

private theorem joined (idle : use t = none) (v : Nat) (l : VkPipelineCache) :
    Function.update use t (some (pc, true)) v = some (l, true) ↔
      use v = some (l, true) ∨ v = t ∧ l = pc := by
  rcases eq_or_ne v t with rfl | ne
  · simp [idle, eq_comm]
  · simp [ne]

/-- A batch begins. It takes a free entry only if no batch has its cache. -/
theorem Tally.ref (tally : Tally table use) (idle : use t = none) (handle : pc ≠ 0)
    (fresh : (∀ i, (table i).pc ≠ pc) → (∃ i, (table i).pc = 0) → ∀ t' x, use t' ≠ some (pc, x)) :
    Tally (appCacheRef table pc).2
      (Function.update use t (some (pc, (appCacheRef table pc).1))) := by
  have new : use t ≠ some (pc, true) := by simp [idle]
  unfold appCacheRef
  cases found : firstIndex fun i => (table i).pc = pc with
  | some i =>
      have here : (table i).pc = pc := by simpa using firstIndex_holds found
      refine ⟨?_, unmixed_update tally fun t' x' _ user => tally.listed handle here user⟩
      refine tally.counted.join handle here new (fun j => ?_) (by simp) (fun j ne => ?_)
        (joined idle)
      · rcases eq_or_ne j i with rfl | ne
        · simp [here]
        · simp [Function.update_of_ne ne]
      · simp [Function.update_of_ne ne]
  | none =>
      have missing : ∀ i, (table i).pc ≠ pc := by simpa using firstIndex_eq_none.mp found
      cases room : firstIndex fun i => (table i).pc = 0 with
      | some i =>
          have free : (table i).pc = 0 := by simpa using firstIndex_holds room
          have nobody := fresh missing ⟨i, free⟩
          refine ⟨?_, unmixed_update tally fun t' x' _ user => absurd user (nobody t' x')⟩
          exact tally.counted.claim handle free missing (by simp) (by simp)
            (fun j ne => by simp [Function.update_of_ne ne]) (joined idle)
      | none =>
          refine ⟨?_, unmixed_update tally fun t' x' _ user => tally.unlisted missing user⟩
          refine tally.counted.congr (fun _ => rfl) (fun _ _ => rfl) fun v l => ?_
          rcases eq_or_ne v t with rfl | ne
          · simp [idle]
          · simp [Function.update_of_ne ne]

private theorem Tally.unmixed_leave (tally : Tally table use) {t₁ t₂ : Nat}
    {pc' : VkPipelineCache} {x₁ x₂ : Bool}
    (first : Function.update use t none t₁ = some (pc', x₁))
    (second : Function.update use t none t₂ = some (pc', x₂)) : x₁ = x₂ := by
  have before : ∀ {t' x'}, Function.update use t none t' = some (pc', x') →
      use t' = some (pc', x') := by
    intro t' x' user
    rcases eq_or_ne t' t with rfl | ne
    · simp at user
    · rwa [Function.update_of_ne ne] at user
  exact tally.unmixed (before first) (before second)

theorem Tally.unref (tally : Tally table use) (mine : use t = some (pc, true)) :
    Tally (appCacheUnref table pc).2 (Function.update use t none) ∧
      ((appCacheUnref table pc).1 = true → ∀ t' x, use t' = some (pc, x) → t' = t) := by
  have left : ∀ v l, Function.update use t none v = some (l, true) ↔
      use v = some (l, true) ∧ ¬ (v = t ∧ l = pc) := by
    intro v l
    rcases eq_or_ne v t with rfl | ne
    · simp [mine, eq_comm]
    · simp [ne]
  obtain ⟨handle, j, listed⟩ := tally.counted.listed mine
  unfold appCacheUnref
  cases found : firstIndex fun i => (table i).pc = pc with
  | none =>
      have missing := firstIndex_eq_none.mp found j
      simp [listed] at missing
  | some i =>
      have here : (table i).pc = pc := by simpa using firstIndex_holds found
      simp only
      split_ifs with one
      · refine ⟨⟨tally.counted.vacate here mine one (by simp)
          (fun j ne => by simp [Function.update_of_ne ne]) left, tally.unmixed_leave⟩, ?_⟩
        intro _ t' x user
        obtain rfl := tally.listed handle here user
        exact tally.counted.alone here one mine user
      · refine ⟨⟨tally.counted.leave here mine one (fun j => ?_) (by simp) (fun j ne => ?_) left,
          tally.unmixed_leave⟩, nofun⟩
        · rcases eq_or_ne j i with rfl | ne
          · simp [here]
          · simp [Function.update_of_ne ne]
        · simp [Function.update_of_ne ne]

theorem Tally.uncounted (tally : Tally table use) (mine : ∀ pc, use t ≠ some (pc, true)) :
    Tally table (Function.update use t none) := by
  refine ⟨tally.counted.congr (fun _ => rfl) (fun _ _ => rfl) fun v l => ?_, tally.unmixed_leave⟩
  rcases eq_or_ne v t with rfl | ne
  · simp [mine]
  · simp [Function.update_of_ne ne]

theorem Tally.forget (tally : Tally table use) (unused : ∀ t x, use t ≠ some (pc, x)) :
    Tally (appCacheForget table pc) use := by
  unfold appCacheForget
  cases found : firstIndex fun i => (table i).pc = pc with
  | none => exact tally
  | some i =>
      have here : (table i).pc = pc := by simpa using firstIndex_holds found
      have null : pc = 0 := by
        by_contra handle
        obtain ⟨S, ⟨u, member⟩, -, members⟩ := tally.counted.exact (i := i) (here ▸ handle)
        exact unused u true (here ▸ (members u).mp member)
      refine ⟨tally.counted.congr (fun j => ?_) (fun j filled => ?_) fun _ _ => Iff.rfl,
        tally.unmixed⟩
      · rcases eq_or_ne j i with rfl | ne
        · simp [here, null]
        · simp [Function.update_of_ne ne]
      · have ne : j ≠ i := by
          rintro rfl
          exact filled (here.trans null)
        simp [Function.update_of_ne ne]

end Tally

/-- No batch takes a free entry for a cache that a batch in flight already has. -/
def Admits (s : State) : Action → Prop
  | .advance t => ∀ b, s.threads t = .arrived b → b.appCache ≠ 0 →
      (∀ i, (s.cache.appInflight i).pc ≠ b.appCache) → (∃ i, (s.cache.appInflight i).pc = 0) →
      ∀ t' b', (s.threads t').inFlight = some b' → b'.appCache ≠ b.appCache
  | _ => True

/-- The lawful runs in which every step is admitted. -/
def counting (p : Process) : Machine State Action := (lawful p).guarded Admits

section Runs

variable {p : Process} {s s' : State} {t : Nat}

abbrev uses (s : State) (t : Nat) : Option (VkPipelineCache × Bool) := appUse (s.threads t)

private theorem appUse_eq {phase : Phase} {pc : VkPipelineCache} {x : Bool} :
    appUse phase = some (pc, x) ↔
      ∃ b, phase.inFlight = some b ∧ b.appCache = pc ∧ pc ≠ 0 ∧ b.appTracked = x := by
  cases flight : phase.inFlight with
  | none => simp [appUse, flight]
  | some b =>
      by_cases null : b.appCache = 0
      · have other : ∀ pc, b.appCache = pc → ¬ pc = 0 → ¬ b.appTracked = x :=
          fun pc same handle => absurd (same.symm.trans null) handle
        simpa [appUse, flight, null] using other pc
      · simp only [appUse, flight, Option.bind_some, null, if_false, Option.some.injEq,
          Prod.mk.injEq, exists_eq_left']
        constructor
        · rintro ⟨rfl, tracked⟩
          exact ⟨rfl, null, tracked⟩
        · rintro ⟨rfl, -, tracked⟩
          exact ⟨rfl, tracked⟩

private theorem inFlight_lent {phase : Phase} {b : Batch} (flight : phase.inFlight = some b) :
    phase.uses = some b.dev ∧ b.appCache ∈ phase.lent := by
  cases phase <;> simp_all [Phase.inFlight, Phase.uses, Phase.lent]

private theorem destroying_unused (inv : Inv s) {dev : VkDevice} {pc : VkPipelineCache}
    (phase : s.threads t = .destroying dev pc) (t' : Nat) (x : Bool) :
    uses s t' ≠ some (pc, x) := by
  intro user
  obtain ⟨b, flight, rfl, handle, -⟩ := appUse_eq.mp user
  obtain ⟨used, member⟩ := inFlight_lent flight
  have theirs : Holds s .app b.appCache (b.dev, .app) := ⟨inv.usage.lent used member handle, rfl⟩
  have mine : Holds s (.thread t) b.appCache (dev, .app) := by
    simp [Holds, phase, own, handle]
  cases inv.owned.alone theirs mine

private theorem tally_advance (inv : Inv s) (tally : Tally s.cache.appInflight (uses s))
    (admits : Admits s (.advance t)) {table : AppInflight} {phase' : Phase}
    (moved : TableStep s.cache.appInflight (s.threads t) table phase') :
    Tally table (Function.update (uses s) t (appUse phase')) := by
  have kept : table = s.cache.appInflight → appUse phase' = appUse (s.threads t) →
      Tally table (Function.update (uses s) t (appUse phase')) := by
    rintro rfl same
    rw [same, Function.update_eq_self]
    exact tally
  cases phase : s.threads t with
  | arrived b =>
      have idle : uses s t = none := by simp [uses, phase, appUse, Phase.inFlight]
      rw [phase] at moved
      simp only [TableStep] at moved
      split_ifs at moved with null
      · obtain ⟨same, unused⟩ := moved
        exact kept same (unused.trans idle.symm)
      · obtain ⟨rfl, now⟩ := moved
        rw [now]
        refine tally.ref idle null fun missing room t' x user => ?_
        obtain ⟨b', flight, same, -⟩ := appUse_eq.mp user
        exact admits b phase null missing room t' b' flight same
  | compiled b =>
      rw [phase] at moved
      obtain ⟨gone, rfl⟩ := moved
      rw [gone]
      have shaped := inv.batches.shaped t
      rw [phase] at shaped
      have mine : ∀ pc, uses s t = some (pc, true) →
          b.appCache = pc ∧ pc ≠ 0 ∧ b.appTracked = true := by
        intro pc user
        obtain ⟨b', flight, same, handle, tracked⟩ := appUse_eq.mp user
        rw [phase] at flight
        obtain rfl : b = b' := Option.some.inj flight
        exact ⟨same, handle, tracked⟩
      split_ifs with app
      · obtain ⟨-, handle⟩ := app
        unfold appCacheLeave
        split_ifs with tracked
        · refine (tally.unref (t := t) ?_).1
          exact appUse_eq.mpr ⟨b, by rw [phase]; rfl, rfl, handle, tracked⟩
        · exact tally.uncounted fun pc user => tracked (mine pc user).2.2
      · refine tally.uncounted fun pc user => app ?_
        obtain ⟨rfl, handle, -⟩ := mine pc user
        refine ⟨?_, handle⟩
        cases owns : b.ownMaster with
        | false => rfl
        | true => exact absurd (shaped.1 owns).1 handle
  | destroying dev pc =>
      have unused := destroying_unused inv phase
      rw [phase] at moved
      obtain ⟨gone, rfl⟩ := moved
      have idle : appUse phase' = uses s t := by
        rw [gone, uses, phase]
        rfl
      rw [idle, Function.update_eq_self]
      exact tally.forget unused
  | _ =>
      rw [phase] at moved
      exact kept moved.1 (moved.2.trans (by rw [phase]))

private theorem appUse_enter (e : Entry) : appUse e.phase = none := by
  cases e <;> rfl

theorem tally_step {a : Action} (inv : Inv s) (tally : Tally s.cache.appInflight (uses s))
    (step : (counting p).step s a s') : Tally s'.cache.appInflight (uses s') := by
  obtain ⟨⟨move, -⟩, admits⟩ := step
  cases a with
  | call t e =>
      obtain ⟨idle, rfl⟩ := move
      have same : (s.enter t e).cache = s.cache ∧
          (s.enter t e).threads = Function.update s.threads t e.phase := by
        cases e <;> exact ⟨rfl, rfl⟩
      have unmoved : uses (s.enter t e) = uses s := by
        funext t'
        rw [uses, same.2]
        rcases eq_or_ne t' t with rfl | ne
        · rw [Function.update_self, appUse_enter, uses, idle]
          rfl
        · rw [Function.update_of_ne ne]
      rw [same.1, unmoved]
      exact tally
  | advance t =>
      obtain ⟨cache, phase', handed, world, run, rfl⟩ := move
      have after := tally_advance inv tally admits ((advance_table _).of_runs run)
      have threads : uses (s.moved t cache phase' handed world) =
          Function.update (uses s) t (appUse phase') := by
        funext t'
        rw [uses, moved_threads]
        rcases eq_or_ne t' t with rfl | ne
        · rw [Function.update_self, Function.update_self]
        · rw [Function.update_of_ne ne, Function.update_of_ne ne]
      rw [moved_cache, threads]
      exact after
  | resolve fns =>
      obtain rfl : s' = _ := move
      exact tally

theorem tally_reachable (reach : (counting p).Reachable s) :
    Tally s.cache.appInflight (uses s) := by
  refine reach.invariant ?_ fun s a s' prior tally step =>
    tally_step (inv_reachable prior.of_guarded) tally step
  rintro s rfl
  exact ⟨⟨fun filled => absurd rfl filled, fun filled => absurd rfl filled, nofun⟩, nofun⟩

/-- An app cache that the end of its batch merges is in no other batch. -/
def HarvestSafe (p : Process) (s : State) : Prop :=
  ∀ {t b w dev dst}, s.threads t = .compiled b → b.appCache ≠ 0 →
    s.Makes p t w (.mergePipelineCaches dev dst [b.appCache]) →
    ∀ {t' b'}, t' ≠ t → (s.threads t').inFlight = some b' → b'.appCache ≠ b.appCache

/-- Harvesting is safe in every run in which no batch takes a free entry for a cache that a
batch in flight already has. -/
theorem harvest_safe (reach : (counting p).Reachable s) : HarvestSafe p s := by
  intro t b w dev dst ending app merges t' b' other flight same
  have tally := tally_reachable reach
  have shaped := (inv_reachable reach.of_guarded).batches.shaped t
  rw [ending] at shaped
  have owns : b.ownMaster = false := by
    cases owns : b.ownMaster with
    | false => rfl
    | true => exact absurd (shaped.1 owns).1 app
  rw [State.Makes, ending] at merges
  have last := (ending_merges owns app).of_calls merges dev dst _ rfl
  unfold appCacheLeave at last
  split_ifs at last with tracked
  have mine : uses s t = some (b.appCache, true) :=
    appUse_eq.mpr ⟨b, by rw [ending]; rfl, rfl, app, tracked⟩
  have theirs : uses s t' = some (b.appCache, b'.appTracked) :=
    appUse_eq.mpr ⟨b', flight, same, app, rfl⟩
  exact other ((tally.unref mine).2 last t' _ theirs)

end Runs

/-- A batch on device 1, up to the end of its first section. -/
def begins (t : Nat) (cache : VkPipelineCache) : List Action :=
  [.call t (.createPipelines 1 cache 1), .advance t]

def advances (t n : Nat) : List Action := List.replicate n (.advance t)

/-- Device 1 with `n` caches of the application. The shim's own is the second one made. -/
def prepared (n : Nat) : List Action :=
  [.call 0 .createDevice, .advance 0, .advance 0] ++
    (List.replicate n (.call 0 (.createPipelineCache 1 []) :: advances 0 2)).flatten

/-- Calls in their place that `Admits` allows, among the first `n` threads. -/
def admitted (n : Nat) (s : State) (a : Action) : Bool :=
  s.permits a &&
    match a with
    | .call t _ => decide (t < n)
    | .advance t => decide (t < n) &&
        match s.threads t with
        | .arrived b =>
            ((List.finRange appCacheMax).any fun i => (s.cache.appInflight i).pc == b.appCache) ||
              (List.range n).all fun t' => (appUse (s.threads t')).all fun use =>
                use.1 != b.appCache
        | _ => true
    | .resolve _ => true

private theorem admitted_step {p : Process} {props : PropertyStore} {n : Nat} {s : State}
    {a : Action} (idle : ∀ t, n ≤ t → s.threads t = .idle) (allowed : admitted n s a = true) :
    (counting p).step s a (s.next p props a) ∧
      ∀ t, n ≤ t → (s.next p props a).threads t = .idle := by
  obtain ⟨permitted, rest⟩ := Bool.and_eq_true_iff.mp allowed
  have untouched : ∀ {t phase}, t < n → ∀ t', n ≤ t' →
      Function.update s.threads t phase t' = .idle := by
    intro t phase small t' large
    rw [Function.update_of_ne (by omega)]
    exact idle t' large
  cases a with
  | call t e =>
      refine ⟨⟨next_step permitted, trivial⟩, fun t' large => ?_⟩
      cases e <;> exact untouched (of_decide_eq_true rest) t' large
  | advance t =>
      obtain ⟨small, others⟩ := Bool.and_eq_true_iff.mp rest
      refine ⟨⟨next_step permitted, ?_⟩, fun t' large => ?_⟩
      · intro b arrived app absent _ t' b' flight same
        have unlisted : ((List.finRange appCacheMax).any fun i =>
            (s.cache.appInflight i).pc == b.appCache) = false := by
          simpa using absent
        simp only [arrived, unlisted, Bool.false_or, List.all_eq_true, List.mem_range] at others
        have user : appUse (s.threads t') = some (b.appCache, b'.appTracked) :=
          appUse_eq.mpr ⟨b', flight, same, app, rfl⟩
        have busy : t' < n := by
          by_contra large
          rw [idle t' (by omega)] at flight
          cases flight
        simpa [user] using others t' busy
      · rw [State.next, moved_threads]
        exact untouched (of_decide_eq_true small) t' large
  | resolve fns => exact ⟨⟨next_step permitted, trivial⟩, idle⟩

/-- Two batches share a cache, a third has another. The first is about to end. -/
def sharing : List Action :=
  prepared 2 ++ begins 0 1 ++ begins 1 1 ++ begins 2 3 ++ advances 0 3

/-- Then the second is, the first having gone. -/
def shared : List Action := sharing ++ advances 0 2 ++ advances 1 3

private theorem reachable_admitted {A : Type} {n : Nat} (actions : List Action) (look : State → A)
    (a : A) (ran : (State.zero.after fullProcess (fun _ => "1") (admitted n) actions).map look =
      some a) : ∃ s, (counting fullProcess).Reachable s ∧ look s = a := by
  obtain ⟨s, ends, looks⟩ := Option.map_eq_some_iff.mp ran
  have reach : (counting fullProcess).Reachable s ∧ ∀ t, n ≤ t → s.threads t = .idle :=
    after_invariant (I := fun s => (counting fullProcess).Reachable s ∧
        ∀ t, n ≤ t → s.threads t = .idle) ⟨.start rfl, fun _ _ => rfl⟩
      (fun s a before allowed =>
        let step := admitted_step before.2 allowed
        ⟨before.1.next step.1, step.2⟩) actions ends
  exact ⟨s, reach.1, looks⟩

/-- What thread `t` makes next. -/
private def makesNext (s : State) (t : Nat) : List Call :=
  (advance fullProcess s.cache (s.threads t)).asked (respond fun _ => "1") s.world

/-- The first to end leaves the cache alone; the second harvests it while the third compiles. -/
theorem harvest_safe_shared :
    (∃ s b b', (counting fullProcess).Reachable s ∧ s.threads 0 = .compiled b ∧
      (s.threads 1).inFlight = some b' ∧ b'.appCache = b.appCache ∧
      Call.mergePipelineCaches 1 2 [b.appCache] ∉ makesNext s 0) ∧
    ∃ s b b' w, (counting fullProcess).Reachable s ∧ s.threads 0 = .idle ∧
      s.threads 1 = .compiled b ∧ b.appCache ≠ 0 ∧ (s.threads 2).inFlight = some b' ∧
      s.Makes fullProcess 1 w (.mergePipelineCaches 1 2 [b.appCache]) ∧
      b'.appCache ≠ b.appCache := by
  obtain ⟨s₀, reach₀, facts₀⟩ := reachable_admitted (n := 3) sharing (fun s => (s.threads 0,
      (s.threads 1).inFlight, decide (Call.mergePipelineCaches 1 2 [1] ∈ makesNext s 0)))
    (.compiled ⟨1, 1, 1, false, true, 0, 1, 0, 0⟩, some ⟨1, 1, 1, false, true, 0, 1, 0, 0⟩, false)
    (by decide +kernel)
  obtain ⟨s, reach, facts⟩ := reachable_admitted (n := 3) shared (fun s => (s.threads 0,
      s.threads 1, (s.threads 2).inFlight,
      decide (Call.mergePipelineCaches 1 2 [1] ∈ makesNext s 1)))
    (.idle, .compiled ⟨1, 1, 1, false, true, 0, 1, 0, 0⟩,
      some ⟨1, 3, 1, false, true, 0, 3, 0, 0⟩, true) (by decide +kernel)
  simp only [Prod.mk.injEq] at facts₀ facts
  obtain ⟨ending, sharer, nothing⟩ := facts₀
  obtain ⟨gone, last, flight, made⟩ := facts
  obtain ⟨w, merges⟩ := Prog.calls_asked (respond_allowed _) (of_decide_eq_true made)
  exact ⟨⟨s₀, _, _, reach₀, ending, sharer, rfl, of_decide_eq_false nothing⟩,
    s, _, _, w, reach, gone, last, by decide, flight, merges,
    harvest_safe reach last (by decide) merges (by decide) flight⟩

/-- Sixteen caches fill the table, so the batch on the seventeenth is not counted. Then an
entry falls free, and a second batch on that cache takes it. -/
def crowded : List Action :=
  prepared 17 ++ begins 0 1 ++ ((List.range 15).map fun i => begins (i + 1) (i + 3)).flatten ++
    begins 16 18 ++ advances 0 4 ++ begins 17 18 ++ advances 17 3

/-- The second batch ends, and merges the cache the first still compiles into. -/
theorem harvest_unsafe : ¬ ∀ s, (lawful fullProcess).Reachable s → HarvestSafe fullProcess s := by
  intro safe
  have ran : (State.zero.after fullProcess (fun _ => "1") State.permits crowded).map
      (fun s => (s.threads 16, s.threads 17, decide (Call.mergePipelineCaches 1 2 [18] ∈
        (advance fullProcess s.cache (s.threads 17)).asked (respond fun _ => "1") s.world))) =
      some (.begun ⟨1, 18, 1, false, false, 0, 18, 0, 0⟩,
        .compiled ⟨1, 18, 1, false, true, 0, 18, 0, 0⟩, true) := by decide +kernel
  obtain ⟨s, ends, facts⟩ := Option.map_eq_some_iff.mp ran
  obtain ⟨first, rest⟩ := Prod.mk.inj facts
  obtain ⟨second, made⟩ := Prod.mk.inj rest
  obtain ⟨w, merges⟩ := Prog.calls_asked (respond_allowed _) (of_decide_eq_true made)
  have flight : (s.threads 16).inFlight = some ⟨1, 18, 1, false, false, 0, 18, 0, 0⟩ := by
    rw [first]
    rfl
  exact safe s (after_reachable crowded ends) second (by decide) merges (by decide) flight rfl

end XdPlus.Vulkan.PipelineHarvest
