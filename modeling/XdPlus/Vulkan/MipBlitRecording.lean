/- Module: XdPlus/Vulkan/MipBlitRecording
   source: vulkan/vkshim.c, alloc_scratch_image, get_scratch_pair, emit_emulated_blit
   digest: The images there are and what each command buffer holds, while the blit hook
     works. -/

import XdPlus.Vulkan.MipBlit

set_option autoImplicit false
set_option relaxedAutoImplicit false

namespace XdPlus.Vulkan.MipBlitRecording

open XdPlus.Base Common Driver CommandBufferTable ImageTable MipBlit

/-- The images that exist, as they were created, and the commands each buffer holds. -/
structure Recording where
  images : VkImage → Option VkImageCreateInfo
  recorded : VkCommandBuffer → List Command

def Recording.append (w : Recording) (cb : VkCommandBuffer) (cmds : List Command) : Recording :=
  { w with recorded := Function.update w.recorded cb (w.recorded cb ++ cmds) }

/-- A driver whose new images have handles no image has. A reliable one serves every
allocation. -/
def recording (reliable : Bool) : Prog.Environment Call Answer Recording := fun w op ans w' =>
  match op, ans with
  | .createImage _ ici, some img =>
      w.images img = none ∧ img ≠ 0 ∧
        w' = { w with images := Function.update w.images img (some ici) }
  | .createImage _ _, none => reliable = false ∧ w' = w
  | .allocateMemory _ _ _, mem => (reliable = true → mem.isSome = true) ∧ w' = w
  | .malloc _, ok => (reliable = true → ok = true) ∧ w' = w
  | .destroyImage _ img, _ => w' = { w with images := Function.update w.images img none }
  | .record cb c, _ => w' = w.append cb [c]
  | _, _ => w' = w

/-- Every scratch allocation is served. -/
abbrev serving : Prog.Environment Call Answer Recording := recording true

/-- Any allocation may be refused. -/
abbrev trying : Prog.Environment Call Answer Recording := recording false

/-- Nothing is asked of the calls themselves. -/
abbrev anyCall : Recording → Call → Prop := fun _ _ => True

/-- Images of `w` are images of `w'`. -/
def Extends (w w' : Recording) : Prop := ∀ img ci, w.images img = some ci → w'.images img = some ci

theorem Extends.refl (w : Recording) : Extends w w := fun _ _ h => h

theorem Extends.trans {w w' w'' : Recording} (first : Extends w w') (second : Extends w' w'') :
    Extends w w'' := fun img ci h => second img ci (first img ci h)

/-- `cmds` have gone into `cb`, and nothing into any other buffer. -/
def Adds (cb : VkCommandBuffer) (cmds : List Command) (w w' : Recording) : Prop :=
  w'.recorded = Function.update w.recorded cb (w.recorded cb ++ cmds)

section Adds

variable {w w' w'' : Recording} {cb : VkCommandBuffer} {cmds cmds' : List Command}

theorem adds_nil (same : w'.recorded = w.recorded) : Adds cb [] w w' := by
  simp [Adds, same]

theorem adds_append (same : w'.recorded = w.recorded) : Adds cb cmds w (w'.append cb cmds) := by
  simp [Adds, Recording.append, same]

theorem Adds.trans (first : Adds cb cmds w w') (second : Adds cb cmds' w' w'') :
    Adds cb (cmds ++ cmds') w w'' := by
  unfold Adds at first second ⊢
  rw [second, first]
  simp

theorem Adds.recorded_eq (adds : Adds cb cmds w w') : w'.recorded cb = w.recorded cb ++ cmds := by
  rw [adds, Function.update_self]

theorem Adds.unique (adds : Adds cb cmds w w') (adds' : Adds cb cmds' w w') : cmds = cmds' :=
  List.append_cancel_left (adds.recorded_eq.symm.trans adds'.recorded_eq)

theorem Recording.append_append (w : Recording) (cb : VkCommandBuffer)
    (cmds cmds' : List Command) :
    (w.append cb cmds).append cb cmds' = w.append cb (cmds ++ cmds') := by
  simp [append]

theorem foldl_append (w : Recording) (cb : VkCommandBuffer) (cmds : List Command) :
    cmds.foldl (fun w c => w.append cb [c]) w = w.append cb cmds := by
  induction cmds generalizing w with
  | nil => simp [Recording.append]
  | cons c rest ih => rw [List.foldl_cons, ih, Recording.append_append, List.singleton_append]

end Adds

/-- Both images are new, different, and of the format and sizes asked for. -/
structure NewPair (w w' : Recording) (p : ScratchPair) (format : VkFormat)
    (srcExt dstExt : VkExtent3D) : Prop where
  src_new : w.images p.srcImg = none
  dst_new : w.images p.dstImg = none
  apart : p.srcImg ≠ p.dstImg
  grown : Extends w w'
  src_made : w'.images p.srcImg = some (scratchInfo format srcExt)
  dst_made : w'.images p.dstImg = some (scratchInfo format dstExt)

section Scratch

variable {reliable : Bool} {w : Recording} {cb : VkCommandBuffer} {dev : VkDevice}

private theorem idle_requirements (img : VkImage) :
    Prog.Idle (recording reliable) anyCall (.getImageMemoryRequirements dev img) :=
  ⟨fun _ => trivial, fun _ _ _ still => still⟩

private theorem idle_bind (img : VkImage) (mem : VkDeviceMemory) :
    Prog.Idle (recording reliable) anyCall (.bindImageMemory dev img mem) :=
  ⟨fun _ => trivial, fun _ _ _ still => still⟩

/-- A new image, or nothing left of the attempt. -/
private def Served (reliable : Bool) (w : Recording) (info : VkImageCreateInfo) (a : Allocated)
    (w' : Recording) : Prop :=
  if a.ok then
    w.images a.img = none ∧
      w' = { w with images := Function.update w.images a.img (some info) }
  else reliable = false ∧ w' = w

private theorem ensures_allocScratchImage (format : VkFormat) (e : VkExtent3D)
    (props : VkPhysicalDeviceMemoryProperties) :
    (allocScratchImage dev format e.width e.height e.depth imageUsageTransferBits props
      0 0).Ensures (recording reliable) anyCall w
      (Served reliable w (scratchInfo format e)) := by
  refine ensures_allocScratchImage_of idle_requirements idle_bind trivial (fun w' refused => ?_)
    (fun img w₁ created size i => ⟨trivial, fun w₂ none_left => ⟨trivial, ?_⟩, ?_⟩)
  · exact refused
  · obtain ⟨absent, -, rfl⟩ := created
    obtain ⟨unreliable, rfl⟩ := none_left
    intro _ w₃ destroyed
    obtain rfl : w₃ = _ := destroyed
    refine ⟨by simpa using unreliable, ?_⟩
    simp only [Function.update_idem, ← absent, Function.update_eq_self]
  · obtain ⟨absent, -, rfl⟩ := created
    rintro mem w₂ ⟨-, rfl⟩
    exact ⟨absent, rfl⟩

private theorem ensures_growPairs (slot : CbScratch) :
    (growPairs slot).Ensures (recording reliable) anyCall w
      (fun r w' => w' = w ∧ (r = none → reliable = false)) := by
  refine ensures_growPairs_of (fun _ => trivial) (fun _ ok w' answered => ?_) fun _ =>
    ⟨rfl, fun granted => by cases granted⟩
  obtain ⟨granted, rfl⟩ := answered
  refine ⟨rfl, fun refused => ⟨rfl, fun _ => ?_⟩⟩
  subst refused
  simpa using granted

private theorem ensures_freeScratchPair (p : ScratchPair) :
    (freeScratchPair dev p).Ensures (recording reliable) anyCall w
      (fun _ w' => w'.recorded = w.recorded) := by
  have quiet : (freeScratchPair dev p).Ensures (recording reliable) (fun _ op => Unrecorded op) w
      (fun _ _ => True) := (always_freeScratchPair dev p).anywhere
  refine ((quiet.keep (I := fun v => v.recorded = w.recorded) ?_ rfl).weaken
    fun _ _ _ => trivial).mono fun _ _ both => both.2
  intro v op ans v' silent answered same
  cases op
  case record cb c => exact (silent cb c rfl).elim
  case createImage =>
    cases ans with
    | none =>
        obtain ⟨-, rfl⟩ := answered
        exact same
    | some img =>
        obtain ⟨-, -, rfl⟩ := answered
        exact same
  case allocateMemory =>
    obtain ⟨-, rfl⟩ := answered
    exact same
  case malloc =>
    obtain ⟨-, rfl⟩ := answered
    exact same
  all_goals
    obtain rfl : v' = _ := answered
    exact same

theorem ensures_getScratchPair (t : CbTable) (format : VkFormat) (srcExt dstExt : VkExtent3D)
    (props : VkPhysicalDeviceMemoryProperties) :
    (getScratchPair t dev cb format srcExt dstExt props).Ensures (recording reliable) anyCall w
      (fun r w' => w'.recorded = w.recorded ∧
        (r.1 = none → reliable = false ∨ slotFor t cb = none) ∧
        ∀ p, r.1 = some p → NewPair w w' p format srcExt dstExt) := by
  simp only [getScratchPair]
  cases slotFor t cb with
  | none => exact ⟨rfl, fun _ => .inr rfl, fun _ made => by cases made⟩
  | some i =>
      simp only [Prog.ensures_bind]
      refine (ensures_growPairs _).mono ?_
      rintro grown w₀ ⟨rfl, refused⟩
      cases grown with
      | none => exact ⟨rfl, fun _ => .inl (refused rfl), fun _ made => by cases made⟩
      | some slot =>
          simp only [Prog.ensures_bind]
          refine (ensures_allocScratchImage format srcExt props).mono fun src w₁ src_done => ?_
          cases src_ok : src.ok
          case false =>
            simp only [Served, src_ok, Bool.false_eq_true, if_false] at src_done ⊢
            obtain ⟨unreliable, rfl⟩ := src_done
            simp only [Prog.ensures_bind]
            refine (ensures_freeScratchPair _).mono fun _ w₂ freed => ?_
            exact ⟨freed, fun _ => .inl unreliable, fun _ made => by cases made⟩
          simp only [Served, src_ok, if_true] at src_done ⊢
          obtain ⟨src_new, rfl⟩ := src_done
          simp only [Prog.ensures_bind]
          refine (ensures_allocScratchImage format dstExt props).mono fun dst w₂ dst_done => ?_
          cases dst_ok : dst.ok
          case false =>
            simp only [Served, dst_ok, Bool.false_eq_true, if_false] at dst_done ⊢
            obtain ⟨unreliable, rfl⟩ := dst_done
            simp only [Prog.ensures_bind]
            refine (ensures_freeScratchPair _).mono fun _ w₃ freed => ?_
            exact ⟨freed, fun _ => .inl unreliable, fun _ made => by cases made⟩
          simp only [Served, dst_ok, if_true] at dst_done ⊢
          obtain ⟨dst_new, rfl⟩ := dst_done
          have ne : dst.img ≠ src.img := by
            intro same
            simp [same] at dst_new
          have old_new : w₀.images dst.img = none := by
            simpa [Function.update_of_ne ne] using dst_new
          refine ⟨rfl, fun failed => (by cases failed), fun p made => ?_⟩
          obtain rfl := Option.some.inj made
          refine ⟨src_new, old_new, ne.symm, fun img ci live => ?_, ?_, ?_⟩
          · have not_src : img ≠ src.img := by
              rintro rfl
              rw [src_new] at live
              cases live
            have not_dst : img ≠ dst.img := by
              rintro rfl
              rw [old_new] at live
              cases live
            simpa [Function.update_of_ne not_dst, Function.update_of_ne not_src] using live
          · simp [Function.update_of_ne ne.symm]
          · simp

theorem ensures_recordCommands (cmds : List Command) :
    (recordCommands cb cmds).Ensures (recording reliable) anyCall w
      (fun _ w' => w' = w.append cb cmds) := by
  rw [← foldl_append]
  exact ensures_recordCommands_of (fun _ _ => trivial) (fun _ _ _ _ records => records) w cmds

theorem ensures_emitEmulatedBlit (t : CbTable) {src dst : VkImage}
    {srcLayout dstLayout : VkImageLayout} {r : VkImageBlit} {filter : VkFilter}
    {memProps : VkPhysicalDeviceMemoryProperties} {srcInfo dstInfo : ImgInfo} :
    (emitEmulatedBlit t cb dev src srcLayout dst dstLayout r filter memProps srcInfo
      dstInfo).Ensures (recording reliable) anyCall w (fun _ w' =>
        ((reliable = false ∨ slotFor t cb = none) ∧ w'.recorded = w.recorded) ∨
          ∃ p, NewPair w w' p srcInfo.format
              (levelExt srcInfo.extent r.srcSubresource.mipLevel)
              (levelExt dstInfo.extent r.dstSubresource.mipLevel) ∧
            Adds cb (regionCommands src srcLayout dst dstLayout r filter p) w w') := by
  simp only [emitEmulatedBlit, Prog.ensures_bind]
  refine (ensures_getScratchPair t _ _ _ _).mono ?_
  rintro ⟨got, t'⟩ w₁ ⟨quiet, refused, made⟩
  cases got with
  | none => exact .inl ⟨refused rfl, quiet⟩
  | some p =>
      simp only [Prog.ensures_bind]
      refine (ensures_recordCommands _).mono ?_
      rintro _ _ rfl
      obtain ⟨src_new, dst_new, apart, grown, src_made, dst_made⟩ := made p rfl
      exact .inr ⟨p, ⟨src_new, dst_new, apart, grown, src_made, dst_made⟩, adds_append quiet⟩

end Scratch

section Known

variable {t t' t'' : CbTable} {cb : VkCommandBuffer} {i : Fin cbTableMax}

/-- Every slot keeps its buffer, and a device once it has one. -/
def Keeps (t t' : CbTable) : Prop :=
  ∀ i, (t' i).cb = (t i).cb ∧ ((t i).dev ≠ 0 → (t' i).dev = (t i).dev)

theorem Keeps.refl (t : CbTable) : Keeps t t := fun _ => ⟨rfl, fun _ => rfl⟩

theorem Keeps.trans (first : Keeps t t') (second : Keeps t' t'') : Keeps t t'' := by
  intro i
  obtain ⟨cb, dev⟩ := first i
  obtain ⟨cb', dev'⟩ := second i
  refine ⟨cb'.trans cb, fun known => ?_⟩
  have known' : (t' i).dev ≠ 0 := by
    rw [dev known]
    exact known
  exact (dev' known').trans (dev known)

theorem Keeps.slotFor (kept : Keeps t t') : slotFor t' cb = slotFor t cb :=
  slotFor_congr fun j => (kept j).1

private theorem keeps_update {slot : CbScratch} (same_cb : slot.cb = (t i).cb)
    (same_dev : (t i).dev ≠ 0 → slot.dev = (t i).dev) : Keeps t (Function.update t i slot) := by
  intro j
  rcases eq_or_ne j i with rfl | ne
  · rw [Function.update_self]
    exact ⟨same_cb, same_dev⟩
  · rw [Function.update_of_ne ne]
    exact ⟨rfl, fun _ => rfl⟩

theorem keeps_slotClaimDevice (t : CbTable) (cb : VkCommandBuffer) (dev : VkDevice) :
    Keeps t (slotClaimDevice t cb dev) := by
  unfold slotClaimDevice
  cases firstIndex fun i => (t i).cb == cb with
  | none => exact Keeps.refl t
  | some i =>
      apply keeps_update
      · rfl
      · intro known
        simp only [known, if_false]

theorem Keeps.cbToDevice (kept : Keeps t t') (known : cbToDevice t cb ≠ 0) :
    cbToDevice t' cb = cbToDevice t cb := by
  have scan : ∀ (is : List (Fin cbTableMax)) (dev dev' : VkDevice), (dev ≠ 0 → dev' = dev) →
      is.foldl (fun dev i => if (t i).cb = cb then (t i).dev else dev) dev ≠ 0 →
      is.foldl (fun dev i => if (t' i).cb = cb then (t' i).dev else dev) dev' =
        is.foldl (fun dev i => if (t i).cb = cb then (t i).dev else dev) dev := by
    intro is
    induction is with
    | nil => exact fun _ _ same nonzero => same nonzero
    | cons i rest ih =>
        intro dev dev' same nonzero
        simp only [List.foldl_cons, (kept i).1] at nonzero ⊢
        apply ih _ _ _ nonzero
        split_ifs
        · exact (kept i).2
        · exact same
  exact scan _ 0 0 (fun _ => rfl) known

private theorem always_growPairs (slot : CbScratch) :
    (growPairs slot).Always (fun _ => True)
      (fun r => ∀ grown, r = some grown → grown.cb = slot.cb ∧ grown.dev = slot.dev) := by
  unfold growPairs
  by_cases full : slot.pairs.length = slot.cap
  · rw [if_pos full]
    simp only [Prog.always_bind, Prog.always_call]
    refine ⟨trivial, fun served => ?_⟩
    cases served with
    | false =>
        intro grown is_grown
        cases is_grown
    | true =>
        intro grown is_grown
        obtain rfl := Option.some.inj is_grown
        exact ⟨rfl, rfl⟩
  · rw [if_neg full]
    intro grown is_grown
    obtain rfl := Option.some.inj is_grown
    exact ⟨rfl, rfl⟩

theorem always_getScratchPair (dev : VkDevice) (found : slotFor t cb = some i)
    (own : (t i).cb = cb) (nonzero : cb ≠ 0) (format : VkFormat) (srcExt dstExt : VkExtent3D)
    (props : VkPhysicalDeviceMemoryProperties) :
    (getScratchPair t dev cb format srcExt dstExt props).Always (fun _ => True)
      (fun r => Keeps t r.2) := by
  simp only [getScratchPair, found, claimed_own own nonzero, Prog.always_bind]
  refine (always_growPairs (t i)).mono fun slot grown => ?_
  cases slot with
  | none => exact keeps_update rfl fun _ => rfl
  | some slot =>
      obtain ⟨same_cb, same_dev⟩ := grown slot rfl
      have first : Keeps t (Function.update t i slot) := keeps_update same_cb fun _ => same_dev
      have pushed : ∀ pairs, Keeps (Function.update t i slot)
          (Function.update (Function.update t i slot) i { slot with pairs := pairs }) := by
        intro pairs
        apply keeps_update
        · rw [Function.update_self]
        · intro _
          rw [Function.update_self]
      simp only [Prog.always_bind]
      refine (Prog.always_trivial _).mono fun src _ => ?_
      cases src.ok with
      | false =>
          simp only [Bool.false_eq_true, if_false, Prog.always_bind]
          exact (Prog.always_trivial _).mono fun _ _ => first
      | true =>
          simp only [if_true, Prog.always_bind]
          refine (Prog.always_trivial _).mono fun dst _ => ?_
          cases dst.ok with
          | false =>
              simp only [Bool.false_eq_true, if_false, Prog.always_bind]
              exact (Prog.always_trivial _).mono fun _ _ => first
          | true => exact first.trans (pushed _)

theorem always_emitEmulatedBlit {dev : VkDevice} {src dst : VkImage}
    {srcLayout dstLayout : VkImageLayout} {r : VkImageBlit} {filter : VkFilter}
    {memProps : VkPhysicalDeviceMemoryProperties} {srcInfo dstInfo : ImgInfo}
    (found : slotFor t cb = some i) (own : (t i).cb = cb) (nonzero : cb ≠ 0) :
    (emitEmulatedBlit t cb dev src srcLayout dst dstLayout r filter memProps srcInfo
      dstInfo).Always (fun _ => True) (Keeps t) := by
  simp only [emitEmulatedBlit, Prog.always_bind]
  refine (always_getScratchPair dev found own nonzero _ _ _ _).mono ?_
  rintro ⟨_ | p, t'⟩ kept
  · exact kept
  · simp only [Prog.always_bind]
    exact (Prog.always_trivial _).mono fun _ _ => kept

theorem always_emitRegions {dev : VkDevice} {src dst : VkImage}
    {srcLayout dstLayout : VkImageLayout} {filter : VkFilter}
    {memProps : VkPhysicalDeviceMemoryProperties} {srcInfo dstInfo : ImgInfo}
    (found : slotFor t cb = some i) (own : (t i).cb = cb) (nonzero : cb ≠ 0)
    (regions : List VkImageBlit) :
    (emitRegions cb dev src srcLayout dst dstLayout filter memProps srcInfo dstInfo t
      regions).Always (fun _ => True) (Keeps t) := by
  induction regions generalizing t with
  | nil => exact Keeps.refl t
  | cons r rest ih =>
      simp only [emitRegions, Prog.always_bind]
      refine (always_emitEmulatedBlit found own nonzero).mono fun t' kept => ?_
      exact (ih (kept.slotFor.trans found) ((kept i).1.trans own)).mono
        fun _ later => kept.trans later

end Known

/-- The driver never runs out of handles. -/
def Unbounded (w : Recording) : Prop := ∀ n : Nat, ∃ img : Nat, n < img ∧ w.images img = none

section Progress

variable {reliable : Bool} {w w' : Recording}

private theorem unbounded_update (more : Unbounded w) (img : Nat)
    (ci : Option VkImageCreateInfo) :
    Unbounded { w with images := Function.update w.images img ci } := by
  intro n
  obtain ⟨new, beyond, free⟩ := more (max n img)
  refine ⟨new, by omega, ?_⟩
  have ne : new ≠ img := by omega
  simpa [Function.update_of_ne ne] using free

theorem Unbounded.keeps (more : Unbounded w) {op : Call} {ans : Answer op}
    (answered : recording reliable w op ans w') : Unbounded w' := by
  cases op
  case createImage dev ici =>
    cases ans with
    | none => exact answered.2 ▸ more
    | some img => exact answered.2.2 ▸ unbounded_update more img _
  case destroyImage dev img =>
    obtain rfl : w' = _ := answered
    exact unbounded_update more img _
  case allocateMemory => exact answered.2 ▸ more
  case malloc => exact answered.2 ▸ more
  all_goals
    obtain rfl : w' = _ := answered
    exact more

private theorem serving_answers (w : Recording) (op : Call) (more : Unbounded w) :
    ∃ ans w', serving w op ans w' := by
  cases op
  case createImage dev ici =>
    obtain ⟨img, positive, free⟩ := more 0
    exact ⟨some img, _, free, Nat.ne_of_gt positive, rfl⟩
  case allocateMemory => exact ⟨some 1, w, fun _ => rfl, rfl⟩
  case malloc => exact ⟨true, w, fun _ => rfl, rfl⟩
  case destroyImage => exact ⟨(), _, rfl⟩
  case record => exact ⟨(), _, rfl⟩
  all_goals exact ⟨default, w, rfl⟩

theorem serving_runs {α : Type} (p : Shim α) (more : Unbounded w) :
    ∃ r w', p.Runs serving w r w' ∧ Unbounded w' := by
  obtain ⟨r, w', run⟩ := (Prog.always_trivial p).exists_runs  (I := Unbounded)
    (fun w op _ more => by
      obtain ⟨ans, w', answered⟩ := serving_answers w op more
      exact ⟨ans, w', answered, more.keeps answered⟩) more
  exact ⟨r, w', run, run.invariant (fun _ _ _ _ answered more => more.keeps answered) more⟩

end Progress

end XdPlus.Vulkan.MipBlitRecording
