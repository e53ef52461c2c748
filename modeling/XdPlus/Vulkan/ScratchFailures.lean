/- Module: XdPlus/Vulkan/ScratchFailures
   source: vulkan/vkshim.c, alloc_scratch_image, free_scratch_pair, get_scratch_pair
   digest: Every way the driver can answer one request for a scratch pair, and what is left
     behind. -/

import XdPlus.Vulkan.ScratchLedger

set_option autoImplicit false
set_option relaxedAutoImplicit false

namespace XdPlus.Vulkan.ScratchFailures

open XdPlus.Base Common Driver CommandBufferTable ScratchLedger

/-- What the driver and `realloc` do with one request: `image n` and `memory n` are the
outcomes of the `n`-th `vkCreateImage` and `vkAllocateMemory`, `none` where the call fails.
Nothing is created after something was destroyed, so no handle comes up twice. -/
structure Outcomes where
  room : Bool
  image : Nat → Option VkImage
  memory : Nat → Option VkDeviceMemory
  requirements : VkImage → VkMemoryRequirements
  image_ne_zero : ∀ n, image n ≠ some 0
  memory_ne_zero : ∀ n, memory n ≠ some 0
  image_injective : ∀ m n img, image m = some img → image n = some img → m = n
  memory_injective : ∀ m n mem, memory m = some mem → memory n = some mem → m = n

inductive Event where
  | made (r : Resource)
  | released (r : Resource)
  deriving DecidableEq, Repr

/-- How many images and memory objects have been asked for, and what came of it. -/
structure Ledger where
  images : Nat
  memories : Nat
  events : List Event
  deriving DecidableEq, Repr

def Ledger.start : Ledger := ⟨0, 0, []⟩

def respond (o : Outcomes) (w : Ledger) : (op : Call) → Answer op × Ledger
  | .malloc _ => (o.room, w)
  | .createImage .. =>
      (o.image w.images,
        { w with
          images := w.images + 1
          events := w.events ++ ((o.image w.images).map (.made ∘ .image)).toList })
  | .getImageMemoryRequirements _ img => (o.requirements img, w)
  | .allocateMemory .. =>
      (o.memory w.memories,
        { w with
          memories := w.memories + 1
          events := w.events ++ ((o.memory w.memories).map (.made ∘ .memory)).toList })
  | .destroyImage _ img => ((), { w with events := w.events ++ [.released (.image img)] })
  | .freeMemory _ mem => ((), { w with events := w.events ++ [.released (.memory mem)] })
  | _ => (default, w)

/-- The pairs `cb` owns. -/
def ownedPairs (t : CbTable) (cb : VkCommandBuffer) : List ScratchPair :=
  match firstIndex fun i => (t i).cb == cb with
  | none => []
  | some i => (t i).pairs

/-- The handles passed to `vkDestroyImage` and `vkFreeMemory`, in order. -/
def releases (events : List Event) : List Resource :=
  events.filterMap fun
    | .released r => some r
    | .made _ => none

/-- An error that leaves nothing behind. -/
structure FailsCleanly (t : CbTable) (cb : VkCommandBuffer) (events : List Event)
    (t' : CbTable) : Prop where
  released_once : ∀ r, .made r ∈ events → (releases events).count r = 1
  never_again : (releases events).Nodup
  kept : ownedPairs t' cb = ownedPairs t cb

/-- A pair more, and nothing destroyed. -/
structure Succeeds (t : CbTable) (cb : VkCommandBuffer) (p : ScratchPair)
    (events : List Event) (t' : CbTable) : Prop where
  none_released : releases events = []
  one_more : ownedPairs t' cb = ownedPairs t cb ++ [p]
  others_kept : ∀ other, other ≠ cb → other ≠ 0 → ownedPairs t' other = ownedPairs t other

def Clean (t : CbTable) (cb : VkCommandBuffer)
    (done : (Option ScratchPair × CbTable) × Ledger) : Prop :=
  match done.1.1 with
  | none => FailsCleanly t cb done.2.events done.1.2
  | some p => Succeeds t cb p done.2.events done.1.2

/-- The request gets as far as the driver: a slot is found and its array can hold one more. -/
def HasRoom (o : Outcomes) (t : CbTable) (cb : VkCommandBuffer) : Prop :=
  ∃ i, slotFor t cb = some i ∧
    (o.room = true ∨ ((t i).cb = cb ∧ (t i).pairs.length ≠ (t i).cap))

/-- An image is created for which there is no memory. -/
def Starved (o : Outcomes) : Prop :=
  ∃ img, o.image 0 = some img ∧
    (o.memory 0 = none ∨ ∃ other, o.image 1 = some other ∧ o.memory 1 = none)

section Helpers

variable (o : Outcomes) (w : Ledger)

private theorem eval_allocScratchImage (dev : VkDevice) (format : VkFormat)
    (width height depth usage : Nat) (props : VkPhysicalDeviceMemoryProperties) :
    (allocScratchImage dev format width height depth usage props 0 0).eval (respond o) w =
      match o.image w.images with
      | none => (⟨false, 0, 0⟩, { w with images := w.images + 1 })
      | some img =>
          match o.memory w.memories with
          | none => (⟨false, img, 0⟩, ⟨w.images + 1, w.memories + 1,
              w.events ++ [.made (.image img), .released (.image img)]⟩)
          | some mem => (⟨true, img, mem⟩, ⟨w.images + 1, w.memories + 1,
              w.events ++ [.made (.image img), .made (.memory mem)]⟩) := by
  simp only [allocScratchImage, Prog.eval_bind, Prog.eval_call, respond]
  cases o.image w.images with
  | none => simp
  | some img =>
      -- an index that has been through a `uint32_t` is never negative
      have unsigned (n : Nat) : ¬ (n : Int) < 0 := by omega
      simp only [Prog.eval_bind, Prog.eval_call, respond, unsigned, if_false]
      cases o.memory w.memories with
      | none => simp [respond]
      | some mem => simp [respond]

private theorem eval_releaseIf (dev : VkDevice) (r : Resource) :
    ((releaseIf r.handle (r.release dev)).eval (respond o) w).2 =
      { w with events := w.events ++ if r.handle ≠ 0 then [.released r] else [] } := by
  unfold releaseIf
  by_cases zero : r.handle = 0
  · simp [zero]
  · cases r <;> simp [zero, Resource.release, respond]

private theorem eval_freeScratchPair (dev : VkDevice) (p : ScratchPair) :
    ((freeScratchPair dev p).eval (respond o) w).2 =
      { w with events := w.events ++
          ((pairResources p).filter fun r => r.handle ≠ 0).map .released } := by
  have first := eval_releaseIf o w dev (.image p.srcImg)
  have second := fun w => eval_releaseIf o w dev (.memory p.srcMem)
  have third := fun w => eval_releaseIf o w dev (.image p.dstImg)
  have fourth := fun w => eval_releaseIf o w dev (.memory p.dstMem)
  simp only [Resource.handle, Resource.release] at first second third fourth
  simp only [freeScratchPair, Prog.eval_bind, first, second, third, fourth, pairResources,
    List.filter_cons, List.filter_nil, Resource.handle]
  by_cases a : p.srcImg = 0 <;> by_cases b : p.srcMem = 0 <;> by_cases c : p.dstImg = 0 <;>
    by_cases d : p.dstMem = 0 <;> simp [a, b, c, d]

end Helpers

section Table

variable {t : CbTable} {cb : VkCommandBuffer} {i : Fin cbTableMax}

/-- The slot as the search leaves it, before it is grown. -/
private def claimed (t : CbTable) (cb : VkCommandBuffer) (i : Fin cbTableMax) : CbScratch :=
  if (t i).cb = 0 then { t i with cb := cb, pairs := [], cap := 0 } else t i

private theorem slotFor_cases (found : slotFor t cb = some i) :
    (firstIndex (fun j => (t j).cb == cb) = some i ∧ (t i).cb = cb) ∨
      (firstIndex (fun j => (t j).cb == cb) = none ∧ (t i).cb = 0) := by
  rw [slotFor, claimSlot_eq] at found
  cases own : firstIndex fun j => (t j).cb == cb with
  | some j =>
      obtain rfl : j = i := by simpa [own] using found
      exact .inl ⟨rfl, by simpa using firstIndex_holds own⟩
  | none =>
      rw [own] at found
      have free : firstIndex (fun j => (t j).cb == 0) = some i := found
      exact .inr ⟨rfl, eq_of_beq (firstIndex_holds free)⟩

private theorem claimed_cb (handle : cb ≠ 0) (found : slotFor t cb = some i) :
    (claimed t cb i).cb = cb := by
  rcases slotFor_cases found with ⟨-, own⟩ | ⟨-, vacant⟩
  · rw [claimed, if_neg (own ▸ handle)]
    exact own
  · rw [claimed, if_pos vacant]

private theorem claimed_pairs (handle : cb ≠ 0) (found : slotFor t cb = some i) :
    (claimed t cb i).pairs = ownedPairs t cb := by
  rcases slotFor_cases found with ⟨first, own⟩ | ⟨first, vacant⟩
  · rw [claimed, if_neg (own ▸ handle), ownedPairs, first]
  · rw [claimed, if_pos vacant, ownedPairs, first]

private theorem ownedPairs_update (found : slotFor t cb = some i)
    (slot : CbScratch) (own : slot.cb = cb) :
    ownedPairs (Function.update t i slot) cb = slot.pairs := by
  have stops : firstIndex (fun j => (Function.update t i slot j).cb == cb) = some i := by
    rcases slotFor_cases found with ⟨first, held⟩ | ⟨first, -⟩
    · rw [← first]
      congr 1
      funext j
      rcases eq_or_ne j i with rfl | ne
      · simp [own, held]
      · simp [Function.update_of_ne ne]
    · refine firstIndex_unique (by simp [own]) fun j match_ => ?_
      by_contra ne
      rw [Function.update_of_ne ne] at match_
      exact absurd match_ (by simp [firstIndex_eq_none.mp first j])
  rw [ownedPairs, stops]
  simp

private theorem ownedPairs_update_other (found : slotFor t cb = some i)
    {slot : CbScratch} (own : slot.cb = cb) {other : VkCommandBuffer} (ne : other ≠ cb)
    (nonzero : other ≠ 0) :
    ownedPairs (Function.update t i slot) other = ownedPairs t other := by
  have before : (t i).cb ≠ other := by
    rcases slotFor_cases found with ⟨-, held⟩ | ⟨-, vacant⟩
    · exact held ▸ ne.symm
    · exact vacant ▸ nonzero.symm
  have same : (fun j => (Function.update t i slot j).cb == other) =
      fun j => (t j).cb == other := by
    funext j
    rcases eq_or_ne j i with rfl | apart
    · simp [own, before, ne.symm]
    · simp [Function.update_of_ne apart]
  simp only [ownedPairs, same]
  cases stops : firstIndex fun j => (t j).cb == other with
  | none => rfl
  | some j =>
      have held : (t j).cb = other := by simpa using firstIndex_holds stops
      have apart : j ≠ i := fun same => before (same ▸ held)
      simp [Function.update_of_ne apart]

end Table

section Request

variable {o : Outcomes} {t : CbTable} {cb : VkCommandBuffer} {i : Fin cbTableMax}

private theorem eval_growPairs (w : Ledger) (slot : CbScratch) :
    (growPairs slot).eval (respond o) w =
      (if slot.pairs.length = slot.cap then
        if o.room then some { slot with cap := if slot.cap ≠ 0 then slot.cap * 2 else 4 } else none
      else some slot, w) := by
  unfold growPairs
  by_cases full : slot.pairs.length = slot.cap
  · cases room : o.room <;> simp [full, respond, room]
  · simp [full]

private theorem growPairs_isSome (handle : cb ≠ 0) (found : slotFor t cb = some i)
    (w : Ledger) :
    (∃ cap, (growPairs (claimed t cb i)).eval (respond o) w =
        (some { claimed t cb i with cap := cap }, w) ∧ HasRoom o t cb) ∨
      ((growPairs (claimed t cb i)).eval (respond o) w = (none, w) ∧ ¬ HasRoom o t cb) := by
  rw [eval_growPairs]
  by_cases full : (claimed t cb i).pairs.length = (claimed t cb i).cap
  · cases room : o.room with
    | true =>
        refine .inl ⟨if (claimed t cb i).cap ≠ 0 then (claimed t cb i).cap * 2 else 4, ?_, i,
          found, .inl room⟩
        simp only [full, if_true]
    | false =>
        refine .inr ⟨by simp [full], ?_⟩
        rintro ⟨j, again, granted | ⟨own, spare⟩⟩
        · exact absurd (room.symm.trans granted) Bool.false_ne_true
        · obtain rfl : i = j := Option.some.inj (found.symm.trans again)
          rw [claimed, if_neg (own ▸ handle)] at full
          exact spare full
  · refine .inl ⟨(claimed t cb i).cap, by simp only [full, if_false], i, found, .inr ?_⟩
    rcases slotFor_cases found with ⟨-, own⟩ | ⟨-, vacant⟩
    · rw [claimed, if_neg (own ▸ handle)] at full
      exact ⟨own, full⟩
    · exact absurd (by simp [claimed, vacant]) full

section Driver

variable {slot : CbScratch} {dev : VkDevice} {format : VkFormat} {srcExt dstExt : VkExtent3D}
  {props : VkPhysicalDeviceMemoryProperties}

private theorem eval_getScratchPair_full (found : slotFor t cb = some i)
    (grown : (growPairs (claimed t cb i)).eval (respond o) .start = (none, .start)) :
    (getScratchPair t dev cb format srcExt dstExt props).eval (respond o) .start =
      ((none, Function.update t i (claimed t cb i)), .start) := by
  simp only [claimed] at grown ⊢
  simp only [getScratchPair, found, Prog.eval_bind, grown, Prog.eval_pure]

private theorem eval_getScratchPair (found : slotFor t cb = some i)
    (grown : (growPairs (claimed t cb i)).eval (respond o) .start = (some slot, .start)) :
    (getScratchPair t dev cb format srcExt dstExt props).eval (respond o) .start =
      match o.image 0 with
      | none => ((none, Function.update t i slot), ⟨1, 0, []⟩)
      | some a =>
          match o.memory 0 with
          | none => ((none, Function.update t i slot), ⟨1, 1,
              [.made (.image a), .released (.image a), .released (.image a)]⟩)
          | some m =>
              match o.image 1 with
              | none => ((none, Function.update t i slot), ⟨2, 1,
                  [.made (.image a), .made (.memory m),
                    .released (.image a), .released (.memory m)]⟩)
              | some b =>
                  match o.memory 1 with
                  | none => ((none, Function.update t i slot), ⟨2, 2,
                      [.made (.image a), .made (.memory m), .made (.image b),
                        .released (.image b), .released (.image a), .released (.memory m),
                        .released (.image b)]⟩)
                  | some n =>
                      ((some ⟨a, m, b, n⟩, Function.update t i
                          { slot with pairs := slot.pairs ++ [⟨a, m, b, n⟩] }), ⟨2, 2,
                        [.made (.image a), .made (.memory m), .made (.image b),
                          .made (.memory n)]⟩) := by
  have nonzero_image (n : Nat) {img : VkImage} (made : o.image n = some img) : img ≠ 0 :=
    fun zero => o.image_ne_zero n (zero ▸ made)
  have nonzero_memory (n : Nat) {mem : VkDeviceMemory} (made : o.memory n = some mem) : mem ≠ 0 :=
    fun zero => o.memory_ne_zero n (zero ▸ made)
  simp only [claimed] at grown
  simp only [getScratchPair, found, Prog.eval_bind, grown]
  simp only [eval_allocScratchImage, Ledger.start]
  cases first : o.image 0 with
  | none => simp [eval_freeScratchPair, pairResources, Resource.handle]
  | some a =>
      have a_ne := nonzero_image 0 first
      cases second : o.memory 0 with
      | none => simp [eval_freeScratchPair, pairResources, Resource.handle, a_ne]
      | some m =>
          have m_ne := nonzero_memory 0 second
          simp only [if_true, Prog.eval_bind, eval_allocScratchImage, zero_add]
          cases third : o.image 1 with
          | none => simp [eval_freeScratchPair, pairResources, Resource.handle, a_ne, m_ne]
          | some b =>
              have b_ne := nonzero_image 1 third
              cases fourth : o.memory 1 with
              | none =>
                  simp [eval_freeScratchPair, pairResources, Resource.handle, a_ne, m_ne, b_ne]
              | some n => simp

end Driver

private theorem failsCleanly_nil {t' : CbTable} (kept : ownedPairs t' cb = ownedPairs t cb) :
    FailsCleanly t cb [] t' :=
  ⟨fun _ made => absurd made List.not_mem_nil, List.nodup_nil, kept⟩

/-- The helper destroys the image it has no memory for and leaves the handle where the caller
finds it. A request is therefore clean unless an image is created and its memory refused. -/
theorem getScratchPair_clean_iff (o : Outcomes) (t : CbTable) (dev : VkDevice)
    (cb : VkCommandBuffer) (format : VkFormat) (srcExt dstExt : VkExtent3D)
    (props : VkPhysicalDeviceMemoryProperties) (handle : cb ≠ 0) :
    Clean t cb ((getScratchPair t dev cb format srcExt dstExt props).eval (respond o) .start) ↔
      ¬ (HasRoom o t cb ∧ Starved o) := by
  cases found : slotFor t cb with
  | none =>
      have unserved : ¬ HasRoom o t cb := by
        rintro ⟨i, again, -⟩
        exact absurd (found.symm.trans again) (by simp)
      refine iff_of_true ?_ fun both => unserved both.1
      simp only [getScratchPair, found, Prog.eval_pure]
      exact failsCleanly_nil rfl
  | some i =>
      have pairs := claimed_pairs handle found
      have own := claimed_cb handle found
      rcases growPairs_isSome handle found .start with ⟨cap, grown, served⟩ | ⟨grown, unserved⟩
      case inr =>
        refine iff_of_true ?_ fun both => unserved both.1
        rw [eval_getScratchPair_full found grown]
        exact failsCleanly_nil ((ownedPairs_update found _ own).trans pairs)
      case inl =>
        have kept := (ownedPairs_update found
          { claimed t cb i with cap := cap } own).trans pairs
        rw [eval_getScratchPair found grown]
        simp only [served, true_and, Starved]
        cases first : o.image 0 with
        | none => exact iff_of_true (failsCleanly_nil kept) (by simp)
        | some a =>
            cases second : o.memory 0 with
            | none =>
                refine iff_of_false ?_ (by simp)
                rintro ⟨-, again, -⟩
                simp [releases] at again
            | some m =>
                cases third : o.image 1 with
                | none =>
                    refine iff_of_true ⟨?_, by simp [releases], kept⟩ (by simp)
                    intro r made
                    simp only [List.mem_cons, Event.made.injEq, reduceCtorEq, List.not_mem_nil,
                      or_false] at made
                    rcases made with rfl | rfl <;> simp [releases]
                | some b =>
                    cases fourth : o.memory 1 with
                    | none =>
                        refine iff_of_false ?_ (by simp)
                        rintro ⟨-, again, -⟩
                        simp [releases] at again
                    | some n =>
                        refine iff_of_true ⟨rfl, ?_, ?_⟩ (by simp)
                        · rw [ownedPairs_update found _ (by exact own)]
                          exact congrArg (· ++ _) pairs
                        · intro other ne nonzero
                          exact ownedPairs_update_other found (by exact own) ne nonzero

end Request

private theorem Clean.nodup {t : CbTable} {cb : VkCommandBuffer}
    {done : (Option ScratchPair × CbTable) × Ledger} (failed : done.1.1 = none)
    (clean : Clean t cb done) : (releases done.2.events).Nodup := by
  rw [Clean, failed] at clean
  exact clean.never_again

/-- The driver has room for one image and no memory to put behind it. -/
def oneImage : Outcomes where
  room := true
  image n := if n = 0 then some 7 else none
  memory _ := none
  requirements _ := ⟨4096, 1⟩
  image_ne_zero n := by
    by_cases first : n = 0 <;> simp [first]
  memory_ne_zero n := by simp
  image_injective m n img := by
    by_cases first : m = 0 <;> by_cases second : n = 0 <;> simp [first, second]
  memory_injective m n mem := by simp

/-- The image is destroyed by the helper, and by its caller again. -/
theorem getScratchPair_destroys_twice :
    ¬ Clean CbTable.zero 1
      ((getScratchPair CbTable.zero 9 1 37 ⟨4, 4, 1⟩ ⟨2, 2, 1⟩ [1]).eval (respond oneImage)
        .start) := by
  have failed : ((getScratchPair CbTable.zero 9 1 37 ⟨4, 4, 1⟩ ⟨2, 2, 1⟩ [1]).eval
      (respond oneImage) .start).1.1 = none := by decide +kernel
  have twice : releases ((getScratchPair CbTable.zero 9 1 37 ⟨4, 4, 1⟩ ⟨2, 2, 1⟩ [1]).eval
      (respond oneImage) .start).2.events = [.image 7, .image 7] := by decide +kernel
  refine mt (Clean.nodup failed) ?_
  rw [twice]
  decide

/-- The driver has one image with its memory. -/
def onePair : Outcomes where
  room := true
  image n := if n = 0 then some 7 else none
  memory n := if n = 0 then some 8 else none
  requirements _ := ⟨4096, 1⟩
  image_ne_zero n := by
    by_cases first : n = 0 <;> simp [first]
  memory_ne_zero n := by
    by_cases first : n = 0 <;> simp [first]
  image_injective m n img := by
    by_cases first : m = 0 <;> by_cases second : n = 0 <;> simp [first, second]
  memory_injective m n mem := by
    by_cases first : m = 0 <;> by_cases second : n = 0 <;> simp [first, second]

/-- The second `vkCreateImage` fails, and the first image goes with its memory, each once. -/
theorem getScratchPair_clean_onePair :
    ((getScratchPair CbTable.zero 9 1 37 ⟨4, 4, 1⟩ ⟨2, 2, 1⟩ [1]).eval (respond onePair)
      .start).1.1 = none ∧
    releases ((getScratchPair CbTable.zero 9 1 37 ⟨4, 4, 1⟩ ⟨2, 2, 1⟩ [1]).eval
      (respond onePair) .start).2.events = [.image 7, .memory 8] ∧
    Clean CbTable.zero 1
      ((getScratchPair CbTable.zero 9 1 37 ⟨4, 4, 1⟩ ⟨2, 2, 1⟩ [1]).eval (respond onePair)
        .start) := by
  refine ⟨by decide +kernel, by decide +kernel, ?_⟩
  rw [getScratchPair_clean_iff onePair CbTable.zero 9 1 37 ⟨4, 4, 1⟩ ⟨2, 2, 1⟩ [1] (by decide)]
  intro both
  obtain ⟨img, -, starved⟩ : Starved onePair := both.2
  rcases starved with none | ⟨other, none, -⟩ <;> cases none

end XdPlus.Vulkan.ScratchFailures
