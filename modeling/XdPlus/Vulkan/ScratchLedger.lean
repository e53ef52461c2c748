/- Module: XdPlus/Vulkan/ScratchLedger
   source: vulkan/vkshim.c, alloc_scratch_image, free_scratch_pair, get_scratch_pair,
     free_cb_scratch_images
   digest: The driver's view of images and memory, and what each scratch helper does to it. -/

import XdPlus.Vulkan.MipBlit

set_option autoImplicit false
set_option relaxedAutoImplicit false

namespace XdPlus.Vulkan.ScratchLedger

open XdPlus.Base Common Driver CommandBufferTable MipBlit

inductive Resource where
  | image (img : VkImage)
  | memory (mem : VkDeviceMemory)
  deriving DecidableEq, Repr

def Resource.handle : Resource → Nat
  | .image h => h
  | .memory h => h

/-- The device a resource was created on, and the command buffer whose blit asked for it;
no buffer for what the application created itself. -/
structure Birth where
  dev : VkDevice
  cb : VkCommandBuffer
  deriving DecidableEq, Repr

/-- What exists. -/
structure World where
  live : Resource → Option Birth

def World.create (w : World) (r : Resource) (b : Birth) : World :=
  { w with live := Function.update w.live r (some b) }

def World.destroy (w : World) (r : Resource) : World :=
  { w with live := Function.update w.live r none }

/-- The device goes, and what was left on it with it. -/
def World.removeDevice (w : World) (dev : VkDevice) : World :=
  { w with live := fun r => (w.live r).filter fun b => b.dev ≠ dev }

/-- A driver working for `cb`. A new handle is none of the live ones. Only an unreliable
driver runs out of memory. -/
def answers (reliable : Bool) (cb : VkCommandBuffer) : Prog.Environment Call Answer World :=
  fun w op ans w' =>
    match op, ans with
    | .createImage dev _, some img =>
        img ≠ 0 ∧ w.live (.image img) = none ∧ w' = w.create (.image img) ⟨dev, cb⟩
    | .createImage _ _, none => reliable = false ∧ w' = w
    | .allocateMemory dev _ _, some mem =>
        mem ≠ 0 ∧ w.live (.memory mem) = none ∧ w' = w.create (.memory mem) ⟨dev, cb⟩
    | .allocateMemory _ _ _, none => reliable = false ∧ w' = w
    | .malloc _, ok => (reliable = true → ok = true) ∧ w' = w
    | .destroyImage _ img, _ => w' = w.destroy (.image img)
    | .freeMemory _ mem, _ => w' = w.destroy (.memory mem)
    | .destroyDevice dev, _ => w' = w.removeDevice dev
    | _, _ => w' = w

/-- Checked strictly, a destruction hits a live resource, through the device that created
it, and only when the recording of its command buffer is over. -/
def Proper (strict : Bool) (finished : VkCommandBuffer → Prop) (w : World) (op : Call) : Prop :=
  strict = true →
    match op with
    | .destroyImage dev img => ∃ cb, w.live (.image img) = some ⟨dev, cb⟩ ∧ finished cb
    | .freeMemory dev mem => ∃ cb, w.live (.memory mem) = some ⟨dev, cb⟩ ∧ finished cb
    | _ => True

def World.add (w : World) (rs : List Resource) (b : Birth) : World :=
  { w with live := fun r => if r ∈ rs then some b else w.live r }

def World.without (w : World) (rs : List Resource) : World :=
  { w with live := fun r => if r ∈ rs then none else w.live r }

/-- No resource has the null handle. -/
def World.Null (w : World) : Prop := ∀ r : Resource, r.handle = 0 → w.live r = none

section Ledger

variable {w : World} {rs more : List Resource} {b : Birth}

private theorem World.ext_live {w w' : World} (live : ∀ r, w.live r = w'.live r) : w = w' := by
  cases w
  cases w'
  simp only [World.mk.injEq]
  exact funext live

theorem World.create_eq_add (w : World) (r : Resource) (b : Birth) :
    w.create r b = w.add [r] b := by
  refine World.ext_live fun s => ?_
  by_cases same : s = r
  · subst same
    simp [World.create, World.add]
  · simp [World.create, World.add, same]

theorem World.destroy_eq_without (w : World) (r : Resource) : w.destroy r = w.without [r] := by
  refine World.ext_live fun s => ?_
  by_cases same : s = r
  · subst same
    simp [World.destroy, World.without]
  · simp [World.destroy, World.without, same]

theorem World.add_add (w : World) (rs more : List Resource) (b : Birth) :
    (w.add rs b).add more b = w.add (rs ++ more) b := by
  refine World.ext_live fun s => ?_
  by_cases first : s ∈ rs <;> by_cases second : s ∈ more <;> simp [World.add, first, second]

theorem World.without_without (w : World) (rs more : List Resource) :
    (w.without rs).without more = w.without (rs ++ more) := by
  refine World.ext_live fun s => ?_
  by_cases first : s ∈ rs <;> by_cases second : s ∈ more <;>
    simp [World.without, first, second]

theorem World.without_eq_self (absent : ∀ r ∈ rs, w.live r = none) : w.without rs = w := by
  refine World.ext_live fun s => ?_
  by_cases member : s ∈ rs
  · simp [World.without, member, absent s member]
  · simp [World.without, member]

theorem World.add_without (taken : ∀ r ∈ rs, r ∈ more)
    (absent : ∀ r ∈ more, w.live r = none) : (w.add rs b).without more = w := by
  refine World.ext_live fun s => ?_
  by_cases member : s ∈ more
  · simp [World.without, member, absent s member]
  · have other : s ∉ rs := fun h => member (taken s h)
    simp [World.without, World.add, member, other]

theorem World.absent_of_add {r : Resource} (gone : (w.add rs b).live r = none) :
    w.live r = none := by
  simp only [World.add] at gone
  split_ifs at gone
  exact gone

theorem World.Null.without (null : w.Null) (rs : List Resource) : (w.without rs).Null := by
  intro r zero
  by_cases member : r ∈ rs
  · simp [World.without, member]
  · simp [World.without, member, null r zero]

theorem World.Null.add (null : w.Null) (nonzero : ∀ r ∈ rs, r.handle ≠ 0) :
    (w.add rs b).Null := by
  intro r zero
  have other : r ∉ rs := fun member => nonzero r member zero
  simp [World.add, other, null r zero]

end Ledger

def Resource.release (dev : VkDevice) : Resource → Call
  | .image img => .destroyImage dev img
  | .memory mem => .freeMemory dev mem

def pairResources (p : ScratchPair) : List Resource :=
  [.image p.srcImg, .memory p.srcMem, .image p.dstImg, .memory p.dstMem]

def resources (ps : List ScratchPair) : List Resource := ps.flatMap pairResources

/-- The resources may be released one after the other through `dev`. -/
def Freeable (strict : Bool) (finished : VkCommandBuffer → Prop) (dev : VkDevice) (w : World)
    (rs : List Resource) : Prop :=
  strict = true → rs.Nodup ∧ ∀ r ∈ rs, ∃ cb, w.live r = some ⟨dev, cb⟩ ∧ finished cb

section Release

variable {reliable strict : Bool} {finished : VkCommandBuffer → Prop} {cb : VkCommandBuffer}
  {dev : VkDevice} {w : World}

theorem Freeable.rest {l m : List Resource}
    (free : Freeable strict finished dev w (l ++ m)) :
    Freeable strict finished dev (w.without l) m := by
  intro h
  obtain ⟨nodup, live⟩ := free h
  obtain ⟨-, nodup_rest, apart⟩ := List.nodup_append.mp nodup
  refine ⟨nodup_rest, fun r member => ?_⟩
  have other : r ∉ l := fun first => apart r first r member rfl
  simpa [World.without, other] using live r (List.mem_append_right l member)

theorem Freeable.front {l m : List Resource}
    (free : Freeable strict finished dev w (l ++ m)) : Freeable strict finished dev w l := by
  intro h
  obtain ⟨nodup, live⟩ := free h
  exact ⟨(List.nodup_append.mp nodup).1, fun r member => live r (List.mem_append_left m member)⟩

theorem Freeable.head {r : Resource} {m : List Resource}
    (free : Freeable strict finished dev w (r :: m)) : Freeable strict finished dev w [r] :=
  Freeable.front (l := [r]) free

private theorem ensures_release {r : Resource} (null : w.Null)
    (free : Freeable strict finished dev w [r]) :
    (releaseIf r.handle (r.release dev)).Ensures (answers reliable cb) (Proper strict finished) w
      (fun _ w' => w' = w.without [r]) := by
  unfold releaseIf
  by_cases zero : r.handle = 0
  · simp only [zero, ne_eq, not_true_eq_false, if_false, Prog.ensures_pure]
    refine (World.without_eq_self fun s member => ?_).symm
    rw [List.mem_singleton.mp member]
    exact null r zero
  · simp only [ne_eq, zero, not_false_eq_true, if_true, Prog.ensures_bind, Prog.ensures_call,
      Prog.ensures_pure]
    refine ⟨fun h => ?_, fun ans w' answered => ?_⟩
    · obtain ⟨c, live, ended⟩ := (free h).2 r (List.mem_singleton.mpr rfl)
      cases r <;> exact ⟨c, live, ended⟩
    · rw [← World.destroy_eq_without]
      cases r <;> exact answered

theorem ensures_freeScratchPair {p : ScratchPair} (null : w.Null)
    (free : Freeable strict finished dev w (pairResources p)) :
    (freeScratchPair dev p).Ensures (answers reliable cb) (Proper strict finished) w
      (fun _ w' => w' = w.without (pairResources p)) := by
  have second := free.rest (l := [_])
  have third := second.rest (l := [_])
  have fourth := third.rest (l := [_])
  simp only [freeScratchPair, Prog.ensures_bind]
  refine (ensures_release (r := .image p.srcImg) null free.head).mono ?_
  rintro _ _ rfl
  refine (ensures_release (r := .memory p.srcMem) (null.without _) second.head).mono ?_
  rintro _ _ rfl
  refine (ensures_release (r := .image p.dstImg) ((null.without _).without _) third.head).mono ?_
  rintro _ _ rfl
  refine (ensures_release (r := .memory p.dstMem) (((null.without _).without _).without _)
    fourth.head).mono ?_
  rintro _ _ rfl
  simp only [World.without_without]
  rfl

theorem ensures_freePairs {ps : List ScratchPair} (null : w.Null)
    (free : Freeable strict finished dev w (resources ps)) :
    (freePairs dev ps).Ensures (answers reliable cb) (Proper strict finished) w
      (fun _ w' => w' = w.without (resources ps)) := by
  induction ps generalizing w with
  | nil => exact (World.without_eq_self (by simp [resources])).symm
  | cons p rest ih =>
      have both : Freeable strict finished dev w (pairResources p ++ resources rest) := free
      simp only [freePairs, Prog.ensures_bind]
      refine (ensures_freeScratchPair null both.front).mono ?_
      rintro _ _ rfl
      refine (ih (null.without _) both.rest).mono ?_
      rintro _ _ rfl
      exact World.without_without w _ _

theorem ensures_freeCbScratchImages {slot : CbScratch} {given : VkDevice} (null : w.Null)
    (device : given = 0 ∨ given = slot.dev ∨ strict = false) (nonzero : slot.dev ≠ 0)
    (free : Freeable strict finished slot.dev w (resources slot.pairs)) :
    (freeCbScratchImages given slot).Ensures (answers reliable cb) (Proper strict finished) w
      (fun s' w' => s' = { slot with pairs := [], cap := 0 } ∧
        w' = w.without (resources slot.pairs)) := by
  unfold freeCbScratchImages
  generalize chosen : (if given ≠ 0 then given else slot.dev) = d
  have some_device : d ≠ 0 := by
    rw [← chosen]
    split_ifs with given_nonzero
    · exact given_nonzero
    · exact nonzero
  have through : Freeable strict finished d w (resources slot.pairs) := by
    intro checked
    have own : d = slot.dev := by
      rw [← chosen]
      rcases device with rfl | rfl | unchecked
      · simp
      · simp
      · exact absurd (checked.symm.trans unchecked) (by decide)
    exact own ▸ free checked
  simp only [some_device, ne_eq, not_false_eq_true, if_true, Prog.ensures_bind]
  refine (ensures_freePairs null through).mono ?_
  rintro _ _ rfl
  exact ⟨rfl, rfl⟩

end Release

section Allocate

variable {reliable : Bool} {finished : VkCommandBuffer → Prop} {cb : VkCommandBuffer}
  {dev : VkDevice} {w : World}

/-- The resources did not exist and have handles of their own. -/
structure Fresh (w : World) (rs : List Resource) : Prop where
  absent : ∀ r ∈ rs, w.live r = none
  nonzero : ∀ r ∈ rs, r.handle ≠ 0
  nodup : rs.Nodup

/-- One scratch image: bound memory behind it, or nothing left of the attempt. -/
def AllocatedOk (reliable : Bool) (b : Birth) (w : World) (a : Allocated) (w' : World) : Prop :=
  if a.ok then
    Fresh w [.image a.img, .memory a.mem] ∧ w' = w.add [.image a.img, .memory a.mem] b
  else
    reliable = false ∧ w' = w ∧ a.mem = 0 ∧ w.live (.image a.img) = none

private theorem ensures_destroy_failed {img : VkImage} {b : Birth}
    (absent : w.live (.image img) = none) (unreliable : reliable = false) :
    (Shim.call (.destroyImage dev img)).Ensures (answers reliable cb) (Proper reliable finished)
      (w.create (.image img) b) (fun _ w' => w' = w) := by
  refine ⟨fun h => absurd h (by simp [unreliable]), fun _ w' answered => ?_⟩
  have gone : w' = (w.create (.image img) b).destroy (.image img) := answered
  rw [gone, World.create_eq_add, World.destroy_eq_without]
  refine World.add_without (fun r member => member) (fun r member => ?_)
  rw [List.mem_singleton.mp member]
  exact absent

theorem ensures_allocScratchImage (null : w.Null) (format : VkFormat) (e : VkExtent3D)
    (props : VkPhysicalDeviceMemoryProperties) :
    (allocScratchImage dev format e.width e.height e.depth imageUsageTransferBits props
      0 0).Ensures (answers reliable cb) (Proper reliable finished) w
      (AllocatedOk reliable ⟨dev, cb⟩ w) := by
  refine ensures_allocScratchImage_of (fun _ => ⟨fun _ _ => trivial, fun _ _ _ still => still⟩)
    (fun _ _ => ⟨fun _ _ => trivial, fun _ _ _ still => still⟩) (fun _ => trivial)
    (fun w' refused => ?_) (fun img w₁ created size i => ⟨fun _ => trivial, ?_, ?_⟩)
  · obtain ⟨unreliable, rfl⟩ := refused
    exact ⟨unreliable, rfl, rfl, null _ rfl⟩
  · obtain ⟨nonzero, absent, rfl⟩ := created
    rintro w₂ ⟨unreliable, rfl⟩
    refine (ensures_destroy_failed absent unreliable).mono ?_
    rintro _ _ rfl
    exact ⟨unreliable, rfl, rfl, absent⟩
  · obtain ⟨nonzero, absent, rfl⟩ := created
    rintro mem w₂ ⟨mem_nonzero, mem_absent, rfl⟩
    refine ⟨⟨?_, ?_, by simp⟩, ?_⟩
    · simp only [List.mem_cons, List.not_mem_nil, or_false]
      rintro r (rfl | rfl)
      · exact absent
      · simpa [World.create] using mem_absent
    · simp only [List.mem_cons, List.not_mem_nil, or_false]
      rintro r (rfl | rfl)
      · exact nonzero
      · exact mem_nonzero
    · rw [World.create_eq_add, World.create_eq_add, World.add_add]
      rfl

private theorem Fresh.append {l m : List Resource} {b : Birth} (first : Fresh w l)
    (second : Fresh (w.add l b) m) : Fresh w (l ++ m) := by
  have apart : ∀ r ∈ m, r ∉ l := by
    intro r member old
    have := second.absent r member
    simp [World.add, old] at this
  refine ⟨?_, ?_, ?_⟩
  · intro r member
    rcases List.mem_append.mp member with old | new
    · exact first.absent r old
    · simpa [World.add, apart r new] using second.absent r new
  · intro r member
    rcases List.mem_append.mp member with old | new
    · exact first.nonzero r old
    · exact second.nonzero r new
  · refine List.nodup_append.mpr ⟨first.nodup, second.nodup, fun r old s new same => ?_⟩
    exact apart s new (same ▸ old)

/-- A pair the slot at `i` owns from now on, or nothing but room for one. -/
def ScratchOk (reliable : Bool) (b : Birth) (t : CbTable) (i : Fin cbTableMax) (w : World)
    (r : Option ScratchPair × CbTable) (w' : World) : Prop :=
  ∃ cap, match r.1 with
    | none =>
        reliable = false ∧ w' = w ∧ r.2 = Function.update t i { t i with cap := cap }
    | some p =>
        Fresh w (pairResources p) ∧ w' = w.add (pairResources p) b ∧
          r.2 = Function.update t i { t i with pairs := (t i).pairs ++ [p], cap := cap }

private theorem ensures_growPairs (slot : CbScratch) :
    (growPairs slot).Ensures (answers reliable cb) (Proper reliable finished) w
      (fun r w' => w' = w ∧ match r with
        | none => reliable = false
        | some s => ∃ cap, s = { slot with cap := cap }) := by
  refine ensures_growPairs_of (fun _ _ => trivial) (fun _ ok w' answered => ?_)
    fun cap => ⟨rfl, cap, rfl⟩
  obtain ⟨granted, rfl⟩ := answered
  refine ⟨rfl, fun refused => ⟨rfl, ?_⟩⟩
  subst refused
  simpa using granted

theorem ensures_getScratchPair {t : CbTable} {i : Fin cbTableMax} (null : w.Null)
    (found : slotFor t cb = some i) (own : (t i).cb = cb) (nonzero : cb ≠ 0)
    (format : VkFormat) (srcExt dstExt : VkExtent3D)
    (props : VkPhysicalDeviceMemoryProperties) :
    (getScratchPair t dev cb format srcExt dstExt props).Ensures
      (answers reliable cb) (Proper reliable finished) w
      (ScratchOk reliable ⟨dev, cb⟩ t i w) := by
  simp only [getScratchPair, found, claimed_own own nonzero, Prog.ensures_bind]
  refine (ensures_growPairs (t i)).mono ?_
  rintro grown w₀ ⟨rfl, room⟩
  cases grown with
  | none => exact ⟨(t i).cap, room, rfl, rfl⟩
  | some slot =>
      obtain ⟨cap, rfl⟩ := room
      simp only [Prog.ensures_bind]
      refine (ensures_allocScratchImage null _ _ _).mono ?_
      intro src w₁ src_done
      cases src_ok : src.ok
      case true =>
        simp only [AllocatedOk, src_ok, if_true] at src_done ⊢
        obtain ⟨src_fresh, rfl⟩ := src_done
        simp only [Prog.ensures_bind]
        refine (ensures_allocScratchImage (null.add src_fresh.nonzero) _ _ _).mono ?_
        intro dst w₂ dst_done
        cases dst_ok : dst.ok
        case true =>
          simp only [AllocatedOk, dst_ok, if_true] at dst_done ⊢
          obtain ⟨dst_fresh, rfl⟩ := dst_done
          refine ⟨cap, src_fresh.append dst_fresh, ?_, ?_⟩
          · rw [World.add_add]
            rfl
          · simp
        case false =>
          simp only [AllocatedOk, dst_ok, Bool.false_eq_true, if_false] at dst_done ⊢
          obtain ⟨unreliable, rfl, no_mem, gone⟩ := dst_done
          simp only [Prog.ensures_bind]
          refine (ensures_freeScratchPair (null.add src_fresh.nonzero) ?_).mono ?_
          · intro h
            simp [unreliable] at h
          · rintro _ _ rfl
            refine ⟨cap, unreliable, ?_, by simp⟩
            refine World.add_without (fun r member => ?_) (fun r member => ?_)
            · simp only [List.mem_cons, List.not_mem_nil, or_false] at member
              rcases member with rfl | rfl <;> simp [pairResources]
            · simp only [pairResources, List.mem_cons, List.not_mem_nil, or_false] at member
              rcases member with rfl | rfl | rfl | rfl
              · exact src_fresh.absent _ (by simp)
              · exact src_fresh.absent _ (by simp)
              · exact World.absent_of_add gone
              · exact null _ no_mem
      case false =>
        simp only [AllocatedOk, src_ok, Bool.false_eq_true, if_false] at src_done ⊢
        obtain ⟨unreliable, rfl, no_mem, gone⟩ := src_done
        simp only [Prog.ensures_bind]
        refine (ensures_freeScratchPair null ?_).mono ?_
        · intro h
          simp [unreliable] at h
        · rintro _ _ rfl
          refine ⟨cap, unreliable, World.without_eq_self fun r member => ?_, by simp⟩
          simp only [pairResources, List.mem_cons, List.not_mem_nil, or_false] at member
          rcases member with rfl | rfl | rfl | rfl
          · exact gone
          · exact null _ no_mem
          · exact null _ rfl
          · exact null _ rfl

end Allocate

theorem ensures_recordCommands {reliable : Bool} {finished : VkCommandBuffer → Prop}
    {owner cb : VkCommandBuffer} {w : World} (cs : List Command) :
    (recordCommands cb cs).Ensures (answers reliable owner) (Proper reliable finished) w
      (fun _ w' => w' = w) := by
  have still : (recordCommands cb cs).Ensures (answers reliable owner) (Proper reliable finished) w
      (fun _ w' => w' = cs.foldl (fun w _ => w) w) :=
    ensures_recordCommands_of (fun _ _ _ => trivial) (fun _ _ _ _ still => still) w cs
  simpa using still

section Progress

variable {reliable : Bool} {owner cb : VkCommandBuffer} {dev : VkDevice} {w : World}

private theorem runs_allocScratchImage (format : VkFormat) (width height depth usage : Nat)
    (props : VkPhysicalDeviceMemoryProperties) {img : VkImage} {mem : VkDeviceMemory}
    (fresh : Fresh w [.image img, .memory mem]) :
    (allocScratchImage dev format width height depth usage props 0 0).Runs (answers reliable cb) w
      ⟨true, img, mem⟩ (w.add [.image img, .memory mem] ⟨dev, cb⟩) := by
  have absent := fresh.absent _ (List.mem_cons_self ..)
  have mem_absent := fresh.absent (.memory mem) (by simp)
  have nonzero : img ≠ 0 := fresh.nonzero _ (List.mem_cons_self ..)
  have mem_nonzero : mem ≠ 0 := fresh.nonzero (.memory mem) (by simp)
  unfold allocScratchImage
  refine Prog.runs_bind.mpr ⟨some img, _, Prog.runs_call.mpr ⟨nonzero, absent, rfl⟩, ?_⟩
  refine Prog.runs_bind.mpr ⟨⟨0, 1⟩, _, Prog.runs_call.mpr rfl, ?_⟩
  rw [if_neg (by omega)]
  refine Prog.runs_bind.mpr ⟨some mem, _, Prog.runs_call.mpr ⟨mem_nonzero, ?_, rfl⟩, ?_⟩
  · simpa [World.create] using mem_absent
  · refine Prog.runs_bind.mpr ⟨(), _, Prog.runs_call.mpr rfl, rfl, ?_⟩
    rw [World.create_eq_add, World.create_eq_add, World.add_add]
    rfl

private theorem runs_growPairs (slot : CbScratch) :
    ∃ cap, (growPairs slot).Runs (answers reliable cb) w (some { slot with cap := cap }) w := by
  unfold growPairs
  by_cases full : slot.pairs.length = slot.cap
  · rw [if_pos full]
    exact ⟨_, Prog.runs_bind.mpr ⟨true, w, Prog.runs_call.mpr ⟨fun _ => rfl, rfl⟩, rfl, rfl⟩⟩
  · rw [if_neg full]
    exact ⟨slot.cap, rfl, rfl⟩

theorem runs_recordCommands (cs : List Command) :
    (recordCommands cb cs).Runs (answers reliable owner) w () w := by
  induction cs with
  | nil => exact ⟨rfl, rfl⟩
  | cons c rest ih => exact Prog.runs_bind.mpr ⟨(), w, Prog.runs_call.mpr rfl, ih⟩

private theorem Fresh.second {l m : List Resource} {b : Birth} (fresh : Fresh w (l ++ m)) :
    Fresh (w.add l b) m := by
  obtain ⟨-, nodup, apart⟩ := List.nodup_append.mp fresh.nodup
  refine ⟨fun r member => ?_, fun r member => fresh.nonzero r (List.mem_append_right l member),
    nodup⟩
  have other : r ∉ l := fun first => apart r first r member rfl
  simpa [World.add, other] using fresh.absent r (List.mem_append_right l member)

private theorem Fresh.first {l m : List Resource} (fresh : Fresh w (l ++ m)) : Fresh w l :=
  ⟨fun r member => fresh.absent r (List.mem_append_left m member),
    fun r member => fresh.nonzero r (List.mem_append_left m member),
    (List.nodup_append.mp fresh.nodup).1⟩

theorem runs_getScratchPair (reliable : Bool) (dev : VkDevice) {t : CbTable} {i : Fin cbTableMax}
    (found : slotFor t cb = some i) (own : (t i).cb = cb) (nonzero : cb ≠ 0)
    (format : VkFormat) (srcExt dstExt : VkExtent3D)
    (props : VkPhysicalDeviceMemoryProperties) {p : ScratchPair}
    (fresh : Fresh w (pairResources p)) :
    ∃ cap, (getScratchPair t dev cb format srcExt dstExt props).Runs (answers reliable cb) w
      (some p, Function.update t i { t i with pairs := (t i).pairs ++ [p], cap := cap })
      (w.add (pairResources p) ⟨dev, cb⟩) := by
  have both : Fresh w ([.image p.srcImg, .memory p.srcMem] ++
      [.image p.dstImg, .memory p.dstMem]) := fresh
  obtain ⟨cap, grown⟩ : ∃ cap, (growPairs (t i)).Runs (answers reliable cb) w
      (some { t i with cap := cap }) w := runs_growPairs (t i)
  refine ⟨cap, ?_⟩
  simp only [getScratchPair, found, claimed_own own nonzero]
  refine Prog.runs_bind.mpr ⟨_, _, grown, ?_⟩
  refine Prog.runs_bind.mpr ⟨_, _, runs_allocScratchImage _ _ _ _ _ _ both.first, ?_⟩
  rw [if_pos rfl]
  refine Prog.runs_bind.mpr ⟨_, _, runs_allocScratchImage _ _ _ _ _ _ both.second, ?_⟩
  rw [if_pos rfl]
  refine ⟨by simp, ?_⟩
  rw [World.add_add]
  rfl

end Progress

end XdPlus.Vulkan.ScratchLedger
