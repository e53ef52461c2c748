/- Module: XdPlus/Vulkan/CommandBufferLedger
   source: vulkan/vkshim.c, cb_table and the command-buffer lifetime hooks
   digest: Over every run each scratch image has one owner, and is destroyed once, when its
     buffer's recording ends. -/

import XdPlus.Base.Machine
import XdPlus.Vulkan.ScratchLedger

set_option autoImplicit false
set_option relaxedAutoImplicit false

namespace XdPlus.Vulkan.CommandBufferLedger

open XdPlus.Base Common Driver CommandBufferTable MipBlit ImageTable ScratchLedger

/-- Where a live command buffer comes from, and whether the table had room for it. -/
structure Allocation where
  dev : VkDevice
  pool : VkCommandPool
  slotted : Bool
  deriving DecidableEq, Repr

abbrev Buffers := VkCommandBuffer → Option Allocation

/-- What ties the table to the driver's objects. -/
structure Inv (t : CbTable) (w : World) (buffers : Buffers) : Prop where
  null : w.Null
  no_zero : buffers 0 = none
  one_slot : ∀ i j, (t i).cb = (t j).cb → (t i).cb ≠ 0 → i = j
  empty : ∀ i, (t i).cb = 0 → (t i).dev = 0 ∧ (t i).pool = 0 ∧ (t i).pairs = []
  bound : ∀ i, (t i).cb ≠ 0 → (t i).dev ≠ 0 ∧ (t i).pool ≠ 0 ∧
    ∃ slotted, buffers (t i).cb = some ⟨(t i).dev, (t i).pool, slotted⟩
  kept : ∀ cb a, buffers cb = some a → a.slotted = true → ∃ i, (t i).cb = cb
  owns : ∀ i, ∀ r ∈ resources (t i).pairs, w.live r = some ⟨(t i).dev, (t i).cb⟩
  distinct : ∀ i, (resources (t i).pairs).Nodup
  owned : ∀ r b, w.live r = some b → b.cb ≠ 0 →
    ∃ i, (t i).cb = b.cb ∧ r ∈ resources (t i).pairs

section Edits

variable {t : CbTable} {w : World} {buffers : Buffers} {i : Fin cbTableMax}

theorem Inv.of_scratch (inv : Inv t w buffers) {w' : World} (null : w'.Null)
    (same : ∀ r b, b.cb ≠ 0 → (w'.live r = some b ↔ w.live r = some b)) : Inv t w' buffers := by
  refine ⟨null, inv.no_zero, inv.one_slot, inv.empty, inv.bound, inv.kept, ?_, inv.distinct, ?_⟩
  · intro i r member
    have held : (t i).cb ≠ 0 := by
      intro zero
      simp [(inv.empty i zero).2.2, resources] at member
    exact (same r _ held).mpr (inv.owns i r member)
  · intro r b live nonzero
    exact inv.owned r b ((same r b nonzero).mp live) nonzero

theorem Inv.of_vacant {left : Buffers} (inv : Inv t w left) (vacant : ∀ i, (t i).cb = 0)
    (no_zero : buffers 0 = none) (unslotted : ∀ cb a, buffers cb = some a → a.slotted = false) :
    Inv t w buffers := by
  refine ⟨inv.null, no_zero, inv.one_slot, inv.empty, ?_, ?_, inv.owns, inv.distinct, inv.owned⟩
  · exact fun i held => absurd (vacant i) held
  · intro cb a live slotted
    exact absurd ((unslotted cb a live).symm.trans slotted) (by decide)

private theorem Inv.apart (inv : Inv t w buffers) {j : Fin cbTableMax} {r : Resource}
    (here : r ∈ resources (t i).pairs) (there : r ∈ resources (t j).pairs) : i = j := by
  have same := (inv.owns i r here).symm.trans (inv.owns j r there)
  simp only [Option.some.injEq, Birth.mk.injEq] at same
  refine inv.one_slot i j same.2 (fun zero => ?_)
  simp [(inv.empty i zero).2.2, resources] at here

private theorem Inv.refill (inv : Inv t w buffers) {w' : World} {slot : CbScratch}
    (identity : slot.dev = (t i).dev ∧ slot.cb = (t i).cb ∧ slot.pool = (t i).pool)
    (null : w'.Null) (empty : slot.cb = 0 → slot.pairs = [])
    (nodup : (resources slot.pairs).Nodup)
    (gained : ∀ r ∈ resources slot.pairs, w'.live r = some ⟨(t i).dev, (t i).cb⟩ ∧
      (r ∈ resources (t i).pairs ∨ w.live r = none))
    (lost : ∀ r ∈ resources (t i).pairs, r ∉ resources slot.pairs → w'.live r = none)
    (frame : ∀ r, r ∉ resources (t i).pairs → r ∉ resources slot.pairs →
      w'.live r = w.live r) :
    Inv (Function.update t i slot) w' buffers := by
  obtain ⟨same_dev, same_cb, same_pool⟩ := identity
  have cbs : ∀ j, (Function.update t i slot j).cb = (t j).cb := by
    intro j
    rcases eq_or_ne j i with rfl | ne
    · rw [Function.update_self, same_cb]
    · rw [Function.update_of_ne ne]
  refine ⟨null, inv.no_zero, ?_, ?_, ?_, ?_, ?_, ?_, ?_⟩
  · intro j k same nonzero
    rw [cbs, cbs] at same
    exact inv.one_slot j k same (cbs j ▸ nonzero)
  · intro j zero
    rw [cbs] at zero
    rcases eq_or_ne j i with rfl | ne
    · rw [Function.update_self, same_dev, same_pool]
      exact ⟨(inv.empty j zero).1, (inv.empty j zero).2.1, empty (same_cb.trans zero)⟩
    · rw [Function.update_of_ne ne]
      exact inv.empty j zero
  · intro j nonzero
    rw [cbs] at nonzero ⊢
    rcases eq_or_ne j i with rfl | ne
    · rw [Function.update_self, same_dev, same_pool]
      exact inv.bound j nonzero
    · rw [Function.update_of_ne ne]
      exact inv.bound j nonzero
  · intro cb a live slotted
    obtain ⟨j, held⟩ := inv.kept cb a live slotted
    exact ⟨j, (cbs j).trans held⟩
  · intro j r member
    rw [cbs]
    rcases eq_or_ne j i with rfl | ne
    · rw [Function.update_self] at member ⊢
      rw [same_dev]
      exact (gained r member).1
    · rw [Function.update_of_ne ne] at member ⊢
      have mine := inv.owns j r member
      rw [← mine]
      refine frame r (fun old => ne (inv.apart member old)) (fun new => ?_)
      rcases (gained r new).2 with old | absent
      · exact ne (inv.apart member old)
      · rw [absent] at mine
        cases mine
  · intro j
    rcases eq_or_ne j i with rfl | ne
    · rw [Function.update_self]
      exact nodup
    · rw [Function.update_of_ne ne]
      exact inv.distinct j
  · intro r b live nonzero
    by_cases new : r ∈ resources slot.pairs
    · rw [(gained r new).1, Option.some.injEq] at live
      subst live
      exact ⟨i, cbs i, by rwa [Function.update_self]⟩
    · have not_old : r ∉ resources (t i).pairs := by
        intro old
        rw [lost r old new] at live
        cases live
      rw [frame r not_old new] at live
      obtain ⟨j, held, member⟩ := inv.owned r b live nonzero
      have ne : j ≠ i := by
        rintro rfl
        exact not_old member
      exact ⟨j, (cbs j).trans held, by rwa [Function.update_of_ne ne]⟩

private theorem Inv.cap (inv : Inv t w buffers) (c : Nat) :
    Inv (Function.update t i { t i with cap := c }) w buffers := by
  refine inv.refill ⟨rfl, rfl, rfl⟩ inv.null (fun zero => (inv.empty i zero).2.2)
    (inv.distinct i) (fun r member => ⟨inv.owns i r member, .inl member⟩)
    (fun r old new => absurd old new) (fun r _ _ => rfl)

private theorem Inv.recycle (inv : Inv t w buffers) :
    Inv (Function.update t i { t i with pairs := [], cap := 0 })
      (w.without (resources (t i).pairs)) buffers := by
  refine inv.refill ⟨rfl, rfl, rfl⟩ (inv.null.without _) (fun _ => rfl) List.nodup_nil
    (fun r member => absurd member (List.not_mem_nil)) (fun r old _ => ?_) (fun r old _ => ?_)
  · simp [World.without, old]
  · simp [World.without, old]

private theorem Inv.push (inv : Inv t w buffers) {p : ScratchPair} (c : Nat)
    (nonzero : (t i).cb ≠ 0) (fresh : Fresh w (pairResources p)) :
    Inv (Function.update t i { t i with pairs := (t i).pairs ++ [p], cap := c })
      (w.add (pairResources p) ⟨(t i).dev, (t i).cb⟩) buffers := by
  have split : resources ((t i).pairs ++ [p]) = resources (t i).pairs ++ pairResources p := by
    simp [resources]
  have apart : ∀ r ∈ resources (t i).pairs, r ∉ pairResources p := by
    intro r old new
    have mine := inv.owns i r old
    rw [fresh.absent r new] at mine
    cases mine
  refine inv.refill ⟨rfl, rfl, rfl⟩ (inv.null.add fresh.nonzero)
    (fun zero => absurd zero nonzero) ?_ ?_ ?_ ?_
  · rw [split]
    exact List.nodup_append.mpr ⟨inv.distinct i, fresh.nodup,
      fun r old s new same => apart r old (same ▸ new)⟩
  · intro r member
    rw [split] at member
    by_cases new : r ∈ pairResources p
    · exact ⟨by simp [World.add, new], .inr (fresh.absent r new)⟩
    · have old := (List.mem_append.mp member).resolve_right new
      exact ⟨by simpa [World.add, new] using inv.owns i r old, .inl old⟩
  · intro r old missing
    rw [split] at missing
    exact absurd (List.mem_append_left _ old) missing
  · intro r _ missing
    rw [split] at missing
    have other : r ∉ pairResources p := fun new => missing (List.mem_append_right _ new)
    simp [World.add, other]

private theorem Inv.rebuffer (inv : Inv t w buffers) {buffers' : Buffers}
    (zero : buffers' 0 = none)
    (same : ∀ j, (t j).cb ≠ 0 → buffers' (t j).cb = buffers (t j).cb)
    (kept : ∀ cb a, buffers' cb = some a → a.slotted = true → ∃ j, (t j).cb = cb) :
    Inv t w buffers' := by
  refine ⟨inv.null, zero, inv.one_slot, inv.empty, fun j nonzero => ?_, kept, inv.owns,
    inv.distinct, inv.owned⟩
  rw [same j nonzero]
  exact inv.bound j nonzero

private theorem Inv.vacate (inv : Inv t w buffers) (bare : (t i).pairs = []) :
    Inv (Function.update t i CbScratch.zero) w (Function.update buffers (t i).cb none) := by
  have other : ∀ j, (Function.update t i CbScratch.zero j).cb ≠ 0 →
      j ≠ i ∧ Function.update t i CbScratch.zero j = t j := by
    intro j nonzero
    rcases eq_or_ne j i with rfl | ne
    · rw [Function.update_self] at nonzero
      exact absurd rfl nonzero
    · exact ⟨ne, Function.update_of_ne ne _ _⟩
  refine ⟨inv.null, ?_, ?_, ?_, ?_, ?_, ?_, ?_, ?_⟩
  · rcases eq_or_ne (t i).cb 0 with zero | ne
    · rw [zero, Function.update_self]
    · rw [Function.update_of_ne ne.symm]
      exact inv.no_zero
  · intro j k same nonzero
    have nonzero' := same ▸ nonzero
    rw [(other j nonzero).2, (other k nonzero').2] at same
    rw [(other j nonzero).2] at nonzero
    exact inv.one_slot j k same nonzero
  · intro j zero
    rcases eq_or_ne j i with rfl | ne
    · rw [Function.update_self]
      exact ⟨rfl, rfl, rfl⟩
    · rw [Function.update_of_ne ne] at zero ⊢
      exact inv.empty j zero
  · intro j nonzero
    obtain ⟨ne, same⟩ := other j nonzero
    rw [same] at nonzero ⊢
    have apart : (t j).cb ≠ (t i).cb := fun eq => ne (inv.one_slot j i eq nonzero)
    rw [Function.update_of_ne apart]
    exact inv.bound j nonzero
  · intro cb a live slotted
    have ne_cb : cb ≠ (t i).cb := by
      rintro rfl
      simp at live
    rw [Function.update_of_ne ne_cb] at live
    obtain ⟨j, held⟩ := inv.kept cb a live slotted
    have ne : j ≠ i := by
      rintro rfl
      exact ne_cb held.symm
    exact ⟨j, by rw [Function.update_of_ne ne]; exact held⟩
  · intro j r member
    rcases eq_or_ne j i with rfl | ne
    · simp [Function.update_self, CbScratch.zero, resources] at member
    · rw [Function.update_of_ne ne] at member ⊢
      exact inv.owns j r member
  · intro j
    rcases eq_or_ne j i with rfl | ne
    · rw [Function.update_self]
      exact List.nodup_nil
    · rw [Function.update_of_ne ne]
      exact inv.distinct j
  · intro r b live nonzero
    obtain ⟨j, held, member⟩ := inv.owned r b live nonzero
    have ne : j ≠ i := by
      rintro rfl
      simp [bare, resources] at member
    exact ⟨j, by rwa [Function.update_of_ne ne], by rwa [Function.update_of_ne ne]⟩

theorem Inv.not_held (inv : Inv t w buffers) {cb : VkCommandBuffer} (nonzero : cb ≠ 0)
    (absent : buffers cb = none) (j : Fin cbTableMax) : (t j).cb ≠ cb := by
  rintro rfl
  obtain ⟨-, -, slotted, live⟩ := inv.bound j nonzero
  rw [absent] at live
  cases live

private theorem Inv.claim (inv : Inv t w buffers) {dev : VkDevice} {cb : VkCommandBuffer}
    {pool : VkCommandPool} (c : Nat) (free : (t i).cb = 0) (absent : buffers cb = none)
    (nonzero : cb ≠ 0 ∧ dev ≠ 0 ∧ pool ≠ 0) :
    Inv (Function.update t i ⟨dev, cb, pool, [], c⟩) w
      (Function.update buffers cb (some ⟨dev, pool, true⟩)) := by
  have unheld := inv.not_held nonzero.1 absent
  refine ⟨inv.null, ?_, ?_, ?_, ?_, ?_, ?_, ?_, ?_⟩
  · rw [Function.update_of_ne nonzero.1.symm]
    exact inv.no_zero
  · intro j k same cb_nonzero
    rcases eq_or_ne j i with rfl | ne_j
    · rcases eq_or_ne k j with rfl | ne_k
      · rfl
      · rw [Function.update_self, Function.update_of_ne ne_k] at same
        exact absurd same.symm (unheld k)
    · rcases eq_or_ne k i with rfl | ne_k
      · rw [Function.update_of_ne ne_j, Function.update_self] at same
        exact absurd same (unheld j)
      · rw [Function.update_of_ne ne_j, Function.update_of_ne ne_k] at same
        rw [Function.update_of_ne ne_j] at cb_nonzero
        exact inv.one_slot j k same cb_nonzero
  · intro j zero
    rcases eq_or_ne j i with rfl | ne
    · rw [Function.update_self] at zero
      exact absurd zero nonzero.1
    · rw [Function.update_of_ne ne] at zero ⊢
      exact inv.empty j zero
  · intro j cb_nonzero
    rcases eq_or_ne j i with rfl | ne
    · rw [Function.update_self]
      exact ⟨nonzero.2.1, nonzero.2.2, true, Function.update_self _ _ _⟩
    · rw [Function.update_of_ne ne] at cb_nonzero ⊢
      rw [Function.update_of_ne (unheld j)]
      exact inv.bound j cb_nonzero
  · intro cb' a live slotted
    rcases eq_or_ne cb' cb with rfl | ne_cb
    · exact ⟨i, by rw [Function.update_self]⟩
    · rw [Function.update_of_ne ne_cb] at live
      obtain ⟨j, held⟩ := inv.kept cb' a live slotted
      have ne : j ≠ i := by
        rintro rfl
        rw [← held, free, inv.no_zero] at live
        cases live
      exact ⟨j, by rw [Function.update_of_ne ne]; exact held⟩
  · intro j r member
    rcases eq_or_ne j i with rfl | ne
    · simp [Function.update_self, resources] at member
    · rw [Function.update_of_ne ne] at member ⊢
      exact inv.owns j r member
  · intro j
    rcases eq_or_ne j i with rfl | ne
    · rw [Function.update_self]
      exact List.nodup_nil
    · rw [Function.update_of_ne ne]
      exact inv.distinct j
  · intro r b live b_nonzero
    obtain ⟨j, held, member⟩ := inv.owned r b live b_nonzero
    have ne : j ≠ i := by
      rintro rfl
      exact b_nonzero (held.symm.trans free)
    exact ⟨j, by rwa [Function.update_of_ne ne], by rwa [Function.update_of_ne ne]⟩

end Edits

section Operations

variable {t : CbTable} {w : World} {buffers : Buffers} {reliable strict : Bool}
  {finished : VkCommandBuffer → Prop} {owner : VkCommandBuffer}

/-- The buffers in the slots, and where they come from, are as before. -/
def SameIdentity (t t' : CbTable) : Prop :=
  ∀ i, (t' i).dev = (t i).dev ∧ (t' i).cb = (t i).cb ∧ (t' i).pool = (t i).pool

theorem SameIdentity.refl (t : CbTable) : SameIdentity t t := fun _ => ⟨rfl, rfl, rfl⟩

theorem SameIdentity.trans {t t' t'' : CbTable} (first : SameIdentity t t')
    (second : SameIdentity t' t'') : SameIdentity t t'' := by
  intro i
  obtain ⟨d, c, p⟩ := first i
  obtain ⟨d', c', p'⟩ := second i
  exact ⟨d'.trans d, c'.trans c, p'.trans p⟩

private theorem sameIdentity_update {i : Fin cbTableMax} {slot : CbScratch}
    (identity : slot.dev = (t i).dev ∧ slot.cb = (t i).cb ∧ slot.pool = (t i).pool) :
    SameIdentity t (Function.update t i slot) := by
  intro j
  rcases eq_or_ne j i with rfl | ne
  · rwa [Function.update_self]
  · rw [Function.update_of_ne ne]
    exact ⟨rfl, rfl, rfl⟩

private theorem ensures_freeSlot (inv : Inv t w buffers) (i : Fin cbTableMax) {given : VkDevice}
    (device : (t i).cb ≠ 0 → given = 0 ∨ given = (t i).dev ∨ strict = false)
    (ended : (t i).cb ≠ 0 → finished (t i).cb) :
    (freeCbScratchImages given (t i)).Ensures (answers reliable owner) (Proper strict finished) w
      (fun slot w' => slot = { t i with pairs := [], cap := 0 } ∧
        w' = w.without (resources (t i).pairs)) := by
  by_cases zero : (t i).cb = 0
  · obtain ⟨no_dev, -, bare⟩ := inv.empty i zero
    have nothing : ∀ d : VkDevice, (if d ≠ 0 then (t i).pairs else []) = [] := by
      intro d
      simp [bare]
    simp only [freeCbScratchImages, nothing, freePairs, Prog.ensures_bind, Prog.ensures_pure]
    refine ⟨trivial, ?_⟩
    rw [bare]
    exact (World.without_eq_self (by simp [resources])).symm
  · refine ensures_freeCbScratchImages inv.null (device zero) (inv.bound i zero).1 fun _ => ?_
    exact ⟨inv.distinct i, fun r member => ⟨_, inv.owns i r member, ended zero⟩⟩

private theorem ensures_forgetSlot (inv : Inv t w buffers) (i : Fin cbTableMax) {given : VkDevice}
    (device : (t i).cb ≠ 0 → given = 0 ∨ given = (t i).dev ∨ strict = false)
    (ended : (t i).cb ≠ 0 → finished (t i).cb) :
    (forgetSlot given (t i)).Ensures (answers reliable owner) (Proper strict finished) w
      (fun slot w' =>
        Inv (Function.update t i slot) w' (Function.update buffers (t i).cb none) ∧
          slot = CbScratch.zero) := by
  simp only [forgetSlot, Prog.ensures_bind]
  refine (ensures_freeSlot inv i device ended).mono ?_
  rintro _ _ ⟨rfl, rfl⟩
  refine ⟨?_, rfl⟩
  have bare := inv.recycle (i := i)
  have vacated := bare.vacate (i := i) (by rw [Function.update_self])
  simp only [Function.update_idem, Function.update_self] at vacated
  exact vacated

theorem ensures_recycleCb (inv : Inv t w buffers) (cb : VkCommandBuffer) (ended : finished cb) :
    (recycleCb t 0 cb).Ensures (answers reliable owner) (Proper reliable finished) w
      (fun t' w' => Inv t' w' buffers ∧ SameIdentity t t' ∧
        (cb ≠ 0 → ∀ i, (t' i).cb = cb → (t' i).pairs = [])) := by
  unfold recycleCb atBuffer
  cases found : firstIndex fun i => (t i).cb == cb with
  | none =>
      refine ⟨inv, SameIdentity.refl t, fun _ i held => ?_⟩
      have := firstIndex_eq_none.mp found i
      simp [held] at this
  | some i =>
      have held : (t i).cb = cb := by simpa using firstIndex_holds found
      simp only [Prog.ensures_bind]
      refine (ensures_freeSlot inv i (fun _ => .inl rfl) (fun _ => held ▸ ended)).mono ?_
      rintro _ _ ⟨rfl, rfl⟩
      refine ⟨inv.recycle, sameIdentity_update ⟨rfl, rfl, rfl⟩, fun nonzero j held_j => ?_⟩
      rcases eq_or_ne j i with rfl | ne
      · rw [Function.update_self]
      · rw [Function.update_of_ne ne] at held_j
        exact absurd (inv.one_slot j i (held_j.trans held.symm) (held_j ▸ nonzero)) ne

theorem ensures_clearCb (inv : Inv t w buffers) (cb : VkCommandBuffer) {dev : VkDevice}
    (device : ∀ a, buffers cb = some a → a.dev = dev) (ended : finished cb) :
    (clearCb t dev cb).Ensures (answers reliable owner) (Proper reliable finished) w
      (fun t' w' => Inv t' w' (Function.update buffers cb none)) := by
  unfold clearCb atBuffer
  cases found : firstIndex fun i => (t i).cb == cb with
  | none =>
      have unheld : ∀ j, (t j).cb ≠ cb := by
        intro j held
        have := firstIndex_eq_none.mp found j
        simp [held] at this
      refine inv.rebuffer ?_ (fun j _ => Function.update_of_ne (unheld j) _ _) ?_
      · rcases eq_or_ne cb 0 with rfl | ne
        · rw [Function.update_self]
        · rw [Function.update_of_ne ne.symm]
          exact inv.no_zero
      · intro cb' a live slotted
        rcases eq_or_ne cb' cb with rfl | ne
        · simp at live
        · rw [Function.update_of_ne ne] at live
          exact inv.kept cb' a live slotted
  | some i =>
      have held : (t i).cb = cb := by simpa using firstIndex_holds found
      simp only [Prog.ensures_bind]
      refine (ensures_forgetSlot inv i (fun nonzero => .inr (.inl ?_))
        (fun _ => held ▸ ended)).mono ?_
      · obtain ⟨-, -, slotted, live⟩ := inv.bound i nonzero
        exact (device _ (held ▸ live)).symm
      · rintro _ _ ⟨after, rfl⟩
        exact held ▸ after

private theorem ensures_recycleSlots (inv : Inv t w buffers) (is : List (Fin cbTableMax))
    {pool : VkCommandPool} {dev : VkDevice}
    (device : ∀ i, (t i).cb ≠ 0 → (t i).pool = pool → dev = (t i).dev)
    (ended : ∀ i, (t i).cb ≠ 0 → (t i).pool = pool → finished (t i).cb) :
    (atSlots (fun s => s.pool == pool) (freeCbScratchImages dev) is t).Ensures
      (answers reliable owner) (Proper reliable finished) w
      (fun t' w' => Inv t' w' buffers ∧ SameIdentity t t' ∧
        ∀ i, (t' i).pool = pool → i ∈ is ∨ (t i).pairs = [] → (t' i).pairs = []) := by
  induction is generalizing t w with
  | nil => exact ⟨inv, SameIdentity.refl t, fun i _ bare => bare.resolve_left List.not_mem_nil⟩
  | cons i rest ih =>
      unfold atSlots
      by_cases test : (t i).pool = pool
      · simp only [test, beq_self_eq_true, if_true, Prog.ensures_bind]
        refine (ensures_freeSlot inv i (fun nonzero => .inr (.inl (device i nonzero test)))
          (fun nonzero => ended i nonzero test)).mono ?_
        rintro _ _ ⟨rfl, rfl⟩
        have step : SameIdentity t
            (Function.update t i { t i with pairs := [], cap := 0 }) :=
          sameIdentity_update ⟨rfl, rfl, rfl⟩
        refine (ih inv.recycle ?_ ?_).mono ?_
        · intro j nonzero same
          rw [(step j).2.1] at nonzero
          rw [(step j).2.2] at same
          rw [(step j).1]
          exact device j nonzero same
        · intro j nonzero same
          rw [(step j).2.1] at nonzero ⊢
          rw [(step j).2.2] at same
          exact ended j nonzero same
        · rintro t' w' ⟨after, same, bare⟩
          refine ⟨after, step.trans same, fun j in_pool what => bare j in_pool ?_⟩
          rcases eq_or_ne j i with rfl | ne
          · exact .inr (by rw [Function.update_self])
          · rw [Function.update_of_ne ne]
            exact what.imp_left fun member => (List.mem_cons.mp member).resolve_left ne
      · have skip : ((t i).pool == pool) = false := by simpa using test
        simp only [skip, Bool.false_eq_true, if_false]
        refine (ih inv device ended).mono ?_
        rintro t' w' ⟨after, same, bare⟩
        refine ⟨after, same, fun j in_pool what => bare j in_pool ?_⟩
        have ne : j ≠ i := by
          rintro rfl
          exact test ((same j).2.2 ▸ in_pool)
        exact what.imp_left fun member => (List.mem_cons.mp member).resolve_left ne

theorem ensures_recyclePool (inv : Inv t w buffers) {pool : VkCommandPool} {dev : VkDevice}
    (device : ∀ cb a, buffers cb = some a → a.pool = pool → a.dev = dev)
    (ended : ∀ cb a, buffers cb = some a → a.pool = pool → finished cb) :
    (recyclePool t dev pool).Ensures (answers reliable owner) (Proper reliable finished) w
      (fun t' w' => Inv t' w' buffers ∧ SameIdentity t t' ∧
        ∀ i, (t' i).pool = pool → (t' i).pairs = []) := by
  refine (ensures_recycleSlots inv _ ?_ ?_).mono ?_
  · intro i nonzero same
    obtain ⟨-, -, slotted, live⟩ := inv.bound i nonzero
    exact (device _ _ live same).symm
  · intro i nonzero same
    obtain ⟨-, -, slotted, live⟩ := inv.bound i nonzero
    exact ended _ _ live same
  · rintro t' w' ⟨after, same, bare⟩
    exact ⟨after, same, fun i in_pool => bare i in_pool (.inl (List.mem_finRange i))⟩

/-- The buffers left when the pool's are gone. -/
def withoutPool (buffers : Buffers) (pool : VkCommandPool) : Buffers := fun cb =>
  match buffers cb with
  | some a => if a.pool = pool then none else some a
  | none => none

theorem withoutPool_eq_some {pool : VkCommandPool} {cb : VkCommandBuffer} {a : Allocation}
    (live : withoutPool buffers pool cb = some a) :
    buffers cb = some a ∧ a.pool ≠ pool := by
  unfold withoutPool at live
  split at live
  case h_1 b here =>
    split_ifs at live with in_pool
    cases live
    exact ⟨here, in_pool⟩
  case h_2 => cases live

theorem ensures_forgetSlots {test : CbScratch → Bool} (inv : Inv t w buffers)
    (is : List (Fin cbTableMax)) {dev : VkDevice} (unpicked : test CbScratch.zero = false)
    (occupied : ∀ i, test (t i) = true → (t i).cb ≠ 0)
    (device : ∀ i, test (t i) = true → dev = (t i).dev ∨ strict = false)
    (ended : ∀ i, test (t i) = true → finished (t i).cb) :
    (atSlots test (forgetSlot dev) is t).Ensures (answers reliable owner) (Proper strict finished) w
      (fun t' w' => ∃ left : Buffers, Inv t' w' left ∧
        (∀ cb, left cb = buffers cb ∨ left cb = none ∧ ∃ i, (t i).cb = cb ∧ test (t i) = true) ∧
        ∀ i, i ∈ is ∨ test (t i) = false → test (t' i) = false) := by
  induction is generalizing t w buffers with
  | nil =>
      exact ⟨buffers, inv, fun _ => .inl rfl, fun i other => other.resolve_left List.not_mem_nil⟩
  | cons i rest ih =>
      unfold atSlots
      cases picked : test (t i) with
      | true =>
          simp only [if_true, Prog.ensures_bind]
          refine (ensures_forgetSlot inv i (fun _ => .inr (device i picked))
            (fun _ => ended i picked)).mono ?_
          rintro _ _ ⟨after, rfl⟩
          have others : ∀ j, test (Function.update t i CbScratch.zero j) = true →
              Function.update t i CbScratch.zero j = t j := by
            intro j again
            rcases eq_or_ne j i with rfl | ne
            · rw [Function.update_self, unpicked] at again
              cases again
            · exact Function.update_of_ne ne _ _
          refine (ih after ?_ ?_ ?_).mono ?_
          · intro j again
            have unchanged := others j again
            rw [unchanged] at again ⊢
            exact occupied j again
          · intro j again
            have unchanged := others j again
            rw [unchanged] at again ⊢
            exact device j again
          · intro j again
            have unchanged := others j again
            rw [unchanged] at again ⊢
            exact ended j again
          · rintro t' w' ⟨left, final, accounted, cleared⟩
            refine ⟨left, final, fun cb => ?_, fun j what => cleared j ?_⟩
            · rcases eq_or_ne cb (t i).cb with rfl | ne
              · refine .inr ⟨?_, i, rfl, picked⟩
                rcases accounted (t i).cb with same | ⟨gone, -⟩
                · rw [same, Function.update_self]
                · exact gone
              · rcases accounted cb with same | ⟨gone, j, held, again⟩
                · exact .inl (by rw [same, Function.update_of_ne ne])
                · have unchanged := others j again
                  rw [unchanged] at held again
                  exact .inr ⟨gone, j, held, again⟩
            · rcases eq_or_ne j i with rfl | ne
              · exact .inr (by rw [Function.update_self, unpicked])
              · rw [Function.update_of_ne ne]
                exact what.imp_left fun member => (List.mem_cons.mp member).resolve_left ne
      | false =>
          simp only [Bool.false_eq_true, if_false]
          refine (ih inv occupied device ended).mono ?_
          rintro t' w' ⟨left, final, accounted, cleared⟩
          refine ⟨left, final, accounted, fun j what => cleared j ?_⟩
          rcases eq_or_ne j i with rfl | ne
          · exact .inr picked
          · exact what.imp_left fun member => (List.mem_cons.mp member).resolve_left ne

theorem ensures_clearPool (inv : Inv t w buffers) {pool : VkCommandPool} {dev : VkDevice}
    (pool_nonzero : pool ≠ 0)
    (device : ∀ cb a, buffers cb = some a → a.pool = pool → a.dev = dev)
    (ended : ∀ cb a, buffers cb = some a → a.pool = pool → finished cb) :
    (clearPool t dev pool).Ensures (answers reliable owner) (Proper reliable finished) w
      (fun t' w' => Inv t' w' (withoutPool buffers pool)) := by
  have occupied : ∀ i, ((t i).pool == pool) = true → (t i).cb ≠ 0 ∧ (t i).pool = pool := by
    intro i picked
    have in_pool : (t i).pool = pool := by simpa using picked
    exact ⟨fun zero => pool_nonzero (in_pool.symm.trans (inv.empty i zero).2.1), in_pool⟩
  have owner_of : ∀ i, ((t i).pool == pool) = true →
      ∃ slotted, buffers (t i).cb = some ⟨(t i).dev, pool, slotted⟩ := by
    intro i picked
    obtain ⟨nonzero, in_pool⟩ := occupied i picked
    obtain ⟨-, -, slotted, live⟩ := inv.bound i nonzero
    exact ⟨slotted, in_pool ▸ live⟩
  refine (ensures_forgetSlots inv _ ?_ (fun i picked => (occupied i picked).1) ?_ ?_).mono ?_
  · simpa [CbScratch.zero] using pool_nonzero.symm
  · intro i picked
    obtain ⟨slotted, live⟩ := owner_of i picked
    exact .inl (device _ _ live rfl).symm
  · intro i picked
    obtain ⟨slotted, live⟩ := owner_of i picked
    exact ended _ _ live rfl
  · rintro t' w' ⟨left, final, accounted, cleared⟩
    refine final.rebuffer ?_ ?_ ?_
    · simp [withoutPool, inv.no_zero]
    · intro j nonzero
      obtain ⟨-, -, slotted, live⟩ := final.bound j nonzero
      rcases accounted (t' j).cb with same | ⟨gone, -⟩
      · have elsewhere : (t' j).pool ≠ pool := by
          simpa using cleared j (.inl (List.mem_finRange j))
        rw [live] at same ⊢
        simp [withoutPool, ← same, elsewhere]
      · rw [gone] at live
        cases live
    · intro cb a live slotted
      obtain ⟨here, in_other⟩ := withoutPool_eq_some live
      rcases accounted cb with same | ⟨-, i, rfl, picked⟩
      · exact final.kept cb a (same.trans here) slotted
      · obtain ⟨_, there⟩ := owner_of i picked
        rw [here] at there
        cases there
        exact absurd rfl in_other

theorem Inv.rememberPool (inv : Inv t w buffers) {dev : VkDevice} {cb : VkCommandBuffer}
    {pool : VkCommandPool} (absent : buffers cb = none)
    (nonzero : cb ≠ 0 ∧ dev ≠ 0 ∧ pool ≠ 0) :
    Inv (rememberPool t dev cb pool) w
      (Function.update buffers cb (some ⟨dev, pool, (slotFor t cb).isSome⟩)) := by
  have unheld := inv.not_held nonzero.1 absent
  unfold CommandBufferTable.rememberPool
  cases found : slotFor t cb with
  | none =>
      refine inv.rebuffer ?_ (fun j _ => Function.update_of_ne (unheld j) _ _) ?_
      · rw [Function.update_of_ne nonzero.1.symm]
        exact inv.no_zero
      · intro cb' a live slotted
        rcases eq_or_ne cb' cb with rfl | ne
        · rw [Function.update_self] at live
          cases live
          cases slotted
        · rw [Function.update_of_ne ne] at live
          exact inv.kept cb' a live slotted
  | some i =>
      have free : (t i).cb = 0 := by
        rcases claimSlot_holds found with own | ⟨-, free⟩
        · exact absurd (by simpa using own) (unheld i)
        · simpa using free
      have reset : (if (t i).cb ≠ cb then { t i with pairs := [], cap := 0 } else t i) =
          { t i with pairs := [], cap := 0 } := if_pos (unheld i)
      simp only [reset]
      exact inv.claim 0 free absent nonzero

theorem Inv.cbToDevice_eq (inv : Inv t w buffers) {i : Fin cbTableMax}
    (nonzero : (t i).cb ≠ 0) : cbToDevice t (t i).cb = (t i).dev := by
  obtain ⟨j, held, same⟩ := cbToDevice_found rfl (List.finRange cbTableMax) 0 (List.mem_finRange i)
  rw [inv.one_slot i j held.symm nonzero]
  rw [inv.one_slot i j held.symm nonzero] at same
  exact same

private theorem Inv.firstIndex_eq (inv : Inv t w buffers) {i : Fin cbTableMax}
    (nonzero : (t i).cb ≠ 0) : (firstIndex fun j => (t j).cb == (t i).cb) = some i := by
  refine firstIndex_unique (by simp) fun j held => ?_
  have same : (t j).cb = (t i).cb := by simpa using held
  exact inv.one_slot j i same (same ▸ nonzero)

theorem Inv.slotFor_eq (inv : Inv t w buffers) {i : Fin cbTableMax}
    (nonzero : (t i).cb ≠ 0) : slotFor t (t i).cb = some i := by
  rw [slotFor, claimSlot_eq, inv.firstIndex_eq nonzero]
  rfl

theorem Inv.slotClaimDevice_eq (inv : Inv t w buffers) {i : Fin cbTableMax}
    (nonzero : (t i).cb ≠ 0) (dev : VkDevice) : slotClaimDevice t (t i).cb dev = t := by
  have known : (if (t i).dev = 0 then dev else (t i).dev) = (t i).dev :=
    if_neg (inv.bound i nonzero).1
  simp only [slotClaimDevice, inv.firstIndex_eq nonzero, known]
  exact Function.update_eq_self i t

theorem ensures_emitEmulatedBlit (inv : Inv t w buffers) {i : Fin cbTableMax}
    (nonzero : (t i).cb ≠ 0) (src : VkImage) (srcLayout : VkImageLayout) (dst : VkImage)
    (dstLayout : VkImageLayout) (region : VkImageBlit) (filter : VkFilter)
    (memProps : VkPhysicalDeviceMemoryProperties) (srcInfo dstInfo : ImgInfo) :
    (emitEmulatedBlit t (t i).cb (t i).dev src srcLayout dst dstLayout region filter memProps
      srcInfo dstInfo).Ensures (answers reliable (t i).cb) (Proper reliable finished) w
      (fun t' w' => Inv t' w' buffers ∧ SameIdentity t t') := by
  simp only [emitEmulatedBlit, Prog.ensures_bind]
  refine (ensures_getScratchPair inv.null (inv.slotFor_eq nonzero) rfl nonzero _ _ _ _).mono ?_
  rintro ⟨pair, t'⟩ w' ⟨cap, done⟩
  cases pair with
  | none =>
      obtain ⟨-, rfl, rfl⟩ := done
      exact ⟨inv.cap cap, sameIdentity_update ⟨rfl, rfl, rfl⟩⟩
  | some p =>
      obtain ⟨fresh, rfl, rfl⟩ := done
      simp only [Prog.ensures_bind]
      refine (ensures_recordCommands _).mono ?_
      rintro _ _ rfl
      exact ⟨inv.push cap nonzero fresh, sameIdentity_update ⟨rfl, rfl, rfl⟩⟩

private theorem ensures_emitRegions (inv : Inv t w buffers) {i : Fin cbTableMax}
    {cb : VkCommandBuffer} {dev : VkDevice} (own : (t i).cb = cb ∧ (t i).dev = dev)
    (nonzero : cb ≠ 0) (src : VkImage) (srcLayout : VkImageLayout) (dst : VkImage)
    (dstLayout : VkImageLayout) (filter : VkFilter)
    (memProps : VkPhysicalDeviceMemoryProperties) (srcInfo dstInfo : ImgInfo)
    (regions : List VkImageBlit) :
    (emitRegions cb dev src srcLayout dst dstLayout filter memProps srcInfo dstInfo t
      regions).Ensures (answers reliable cb) (Proper reliable finished) w
      (fun t' w' => Inv t' w' buffers ∧ SameIdentity t t') := by
  induction regions generalizing t w with
  | nil => exact ⟨inv, SameIdentity.refl t⟩
  | cons region rest ih =>
      obtain ⟨rfl, rfl⟩ := own
      simp only [emitRegions, Prog.ensures_bind]
      refine (ensures_emitEmulatedBlit inv nonzero _ _ _ _ _ _ _ _ _).mono ?_
      rintro t' w' ⟨after, same⟩
      refine (ih after ⟨(same i).2.1, (same i).1⟩).mono ?_
      rintro t'' w'' ⟨final, same'⟩
      exact ⟨final, same.trans same'⟩

theorem ensures_shimCmdBlitImage (inv : Inv t w buffers) (host : Host) (imgs : ImgTable)
    (gate : Gate) (cb : VkCommandBuffer) (src : VkImage) (srcLayout : VkImageLayout)
    (dst : VkImage) (dstLayout : VkImageLayout) (regions : List VkImageBlit)
    (filter : VkFilter) :
    (shimCmdBlitImage host t imgs gate cb src srcLayout dst dstLayout regions filter).Ensures
      (answers reliable cb) (Proper reliable finished) w
      (fun r w' => Inv r.1 w' buffers ∧ SameIdentity t r.1) := by
  have same := SameIdentity.refl t
  unfold shimCmdBlitImage
  split_ifs
  · simp only [Prog.ensures_bind, Prog.ensures_call]
    refine ⟨fun _ => trivial, fun _ w' answered => ?_⟩
    obtain rfl : w' = _ := answered
    exact ⟨inv, same⟩
  · cases emulate : (propOn host.props "debug.xdplus.vkblitmip" gate).1
    · simp only [emulate]
      exact ⟨inv, same⟩
    · simp only [emulate, Bool.not_true, Bool.false_eq_true, if_false]
      by_cases miss : cbToDevice t cb = 0
      · rw [if_pos miss]
        exact ⟨inv, same⟩
      · rw [if_neg miss]
        obtain ⟨i, rfl, device⟩ := cbToDevice_held miss
        have nonzero : (t i).cb ≠ 0 := by
          intro zero
          exact miss (device.trans (inv.empty i zero).1)
        rw [inv.slotClaimDevice_eq nonzero]
        split
        · split_ifs
          · exact ⟨inv, same⟩
          · simp only [Prog.ensures_bind]
            refine (ensures_emitRegions inv ⟨rfl, device.symm⟩ nonzero _ _ _ _ _ _ _ _ _).mono ?_
            rintro t' w' after
            exact after
        · exact ⟨inv, same⟩

end Operations

end XdPlus.Vulkan.CommandBufferLedger
