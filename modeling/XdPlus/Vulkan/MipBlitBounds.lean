/- Module: XdPlus/Vulkan/MipBlitBounds
   source: vulkan/vkshim.c, emit_emulated_blit, alloc_scratch_image, mip_ext
   digest: Which levels, layers and texels the recorded copies and blits name, mirrored, empty
     and layered regions included. -/

import XdPlus.Vulkan.MipBlitRecording

set_option autoImplicit false
set_option relaxedAutoImplicit false

namespace XdPlus.Vulkan.MipBlitBounds

open XdPlus.Base Common Driver CommandBufferTable ImageTable MipBlit
  MipBlitRecording

/-- An offset and an extent on one axis of a level of `size` texels. -/
def SpanInside (offset : Int) (length size : Nat) : Prop :=
  0 ≤ offset ∧ offset + length ≤ size

/-- The level and the layers exist. -/
def LayersInside (ci : VkImageCreateInfo) (sub : VkImageSubresourceLayers) : Prop :=
  sub.mipLevel < ci.mipLevels ∧ sub.baseArrayLayer + sub.layerCount ≤ ci.arrayLayers

/-- The box of a copy on one level. -/
def AreaInside (level : VkExtent3D) (offset : VkOffset3D) (e : VkExtent3D) : Prop :=
  SpanInside offset.x e.width level.width ∧ SpanInside offset.y e.height level.height ∧
    SpanInside offset.z e.depth level.depth

/-- A corner of a blit on one level: mirrored or not, both have to be on it. -/
def CornerInside (level : VkExtent3D) (corner : VkOffset3D) : Prop :=
  AreaInside level corner ⟨0, 0, 0⟩

def CopyEndInside (ci : VkImageCreateInfo) (sub : VkImageSubresourceLayers)
    (offset : VkOffset3D) (e : VkExtent3D) : Prop :=
  LayersInside ci sub ∧ AreaInside (levelExt ci.extent sub.mipLevel) offset e

def BlitEndInside (ci : VkImageCreateInfo) (sub : VkImageSubresourceLayers)
    (a b : VkOffset3D) : Prop :=
  LayersInside ci sub ∧ CornerInside (levelExt ci.extent sub.mipLevel) a ∧
    CornerInside (levelExt ci.extent sub.mipLevel) b

/-- Both ends of every copy and blit are inside the images they name. -/
def CommandInside (images : VkImage → Option VkImageCreateInfo) : Command → Prop
  | .pipelineBarrier _ => True
  | .copyImage src _ dst _ regions => ∀ r ∈ regions,
      (∃ ci, images src = some ci ∧ CopyEndInside ci r.srcSubresource r.srcOffset r.extent) ∧
        ∃ ci, images dst = some ci ∧ CopyEndInside ci r.dstSubresource r.dstOffset r.extent
  | .blitImage src _ dst _ regions _ => ∀ r ∈ regions,
      (∃ ci, images src = some ci ∧
          BlitEndInside ci r.srcSubresource r.srcOffset0 r.srcOffset1) ∧
        ∃ ci, images dst = some ci ∧ BlitEndInside ci r.dstSubresource r.dstOffset0 r.dstOffset1

/-- `uint32_t` on every axis. -/
def InUint32 (e : VkExtent3D) : Prop :=
  e.width < 2 ^ 32 ∧ e.height < 2 ^ 32 ∧ e.depth < 2 ^ 32

/-- A region `vkCmdBlitImage` takes: both boxes on levels and layers that exist, corners in
any order, as many layers on one side as on the other. -/
structure Acceptable (src dst : VkImageCreateInfo) (r : VkImageBlit) : Prop where
  src_inside : BlitEndInside src r.srcSubresource r.srcOffset0 r.srcOffset1
  dst_inside : BlitEndInside dst r.dstSubresource r.dstOffset0 r.dstOffset1
  src_extent : InUint32 src.extent
  dst_extent : InUint32 dst.extent
  same_layers : r.dstSubresource.layerCount = r.srcSubresource.layerCount
  some_layers : 0 < r.srcSubresource.layerCount

/-- An axis a staged copy covers: corners in order, or an empty one with a texel to spare. -/
def AxisStaged (a b : Int) (size : Nat) : Prop := a < b ∨ (a = b ∧ a < size)

def BoxStaged (a b : VkOffset3D) (level : VkExtent3D) : Prop :=
  AxisStaged a.x b.x level.width ∧ AxisStaged a.y b.y level.height ∧
    AxisStaged a.z b.z level.depth

/-- Every end that goes through a scratch image can be copied as it stands. -/
structure Stageable (srcExt dstExt : VkExtent3D) (r : VkImageBlit) : Prop where
  one_layer : r.srcSubresource.layerCount = 1
  src_box : r.srcSubresource.mipLevel ≠ 0 →
    BoxStaged r.srcOffset0 r.srcOffset1 (levelExt srcExt r.srcSubresource.mipLevel)
  dst_box : r.dstSubresource.mipLevel ≠ 0 →
    BoxStaged r.dstOffset0 r.dstOffset1 (levelExt dstExt r.dstSubresource.mipLevel)

section Geometry

private theorem mipExt_lt {base : Nat} (level : Nat) (small : base < 2 ^ 32) :
    mipExt base level < 2 ^ 32 := by
  unfold mipExt
  have shrunk : base >>> level ≤ base := Nat.shiftRight_le base level
  split_ifs
  · omega
  · omega

theorem levelExt_lt {e : VkExtent3D} (level : Nat) (small : InUint32 e) :
    InUint32 (levelExt e level) :=
  ⟨mipExt_lt level small.1, mipExt_lt level small.2.1, mipExt_lt level small.2.2⟩

private theorem levelExt_levelExt (e : VkExtent3D) (level : Nat) :
    levelExt (levelExt e level) 0 = levelExt e level := by
  have whole (n : Nat) (positive : n ≠ 0) : mipExt n 0 = n := by simp [mipExt, positive]
  have positive (base : Nat) : mipExt base level ≠ 0 := by
    unfold mipExt
    split_ifs with some_left
    · exact some_left
    · exact one_ne_zero
  simp only [levelExt, whole _ (positive _)]

/-- The cast turns a mirrored axis into almost the whole of `uint32_t`. -/
private theorem span_inside_iff {a b : Int} {size : Nat} (small : size < 2 ^ 32)
    (first : SpanInside a 0 size) (second : SpanInside b 0 size) :
    SpanInside a (span a b) size ↔ AxisStaged a b size := by
  obtain ⟨a_low, a_high⟩ := first
  obtain ⟨b_low, b_high⟩ := second
  simp only [SpanInside, AxisStaged, span]
  rcases lt_trichotomy a b with ordered | rfl | mirrored
  · have length : (b - a) % 2 ^ 32 = b - a := Int.emod_eq_of_lt (by omega) (by omega)
    rw [length, if_pos (by omega)]
    omega
  · simp
    omega
  · have length : (b - a) % 2 ^ 32 = b - a + 2 ^ 32 := by omega
    rw [length, if_pos (by omega)]
    omega

private theorem area_inside_iff {a b : VkOffset3D} {level : VkExtent3D} (small : InUint32 level)
    (first : CornerInside level a) (second : CornerInside level b) :
    AreaInside level a (regionExtent a b) ↔ BoxStaged a b level := by
  simp only [AreaInside, BoxStaged, regionExtent]
  rw [span_inside_iff small.1 first.1 second.1, span_inside_iff small.2.1 first.2.1 second.2.1,
    span_inside_iff small.2.2 first.2.2 second.2.2]

end Geometry

section Commands

variable {images : VkImage → Option VkImageCreateInfo} {srcCi dstCi : VkImageCreateInfo}
  {r : VkImageBlit} {p : ScratchPair} {format : VkFormat}

private theorem exists_image {P : VkImageCreateInfo → Prop} {img : VkImage}
    {ci : VkImageCreateInfo} (live : images img = some ci) :
    (∃ c, images img = some c ∧ P c) ↔ P ci := by
  constructor
  · rintro ⟨c, again, holds⟩
    obtain rfl : ci = c := Option.some.inj (live.symm.trans again)
    exact holds
  · intro holds
    exact ⟨ci, live, holds⟩

private theorem regionLayers_eq (ok : Acceptable srcCi dstCi r) :
    regionLayers r = r.srcSubresource.layerCount := by
  have positive := ok.some_layers
  rw [regionLayers, if_pos (by omega)]

private theorem scratch_copy_iff {sub : VkImageSubresourceLayers} {e : VkExtent3D} {level : Nat}
    {offset : VkOffset3D} {extent : VkExtent3D} (first : sub.mipLevel = 0)
    (base : sub.baseArrayLayer = 0) :
    CopyEndInside (scratchInfo format (levelExt e level)) sub offset extent ↔
      sub.layerCount ≤ 1 ∧ AreaInside (levelExt e level) offset extent := by
  simp only [CopyEndInside, LayersInside, scratchInfo, first, base, zero_add, levelExt_levelExt]
  simp

private theorem staged_iff {ci : VkImageCreateInfo} {sub : VkImageSubresourceLayers}
    {a b : VkOffset3D} (inside : BlitEndInside ci sub a b) (small : InUint32 ci.extent)
    {real scratch : VkImageSubresourceLayers} (same : real.mipLevel = sub.mipLevel ∧
      real.baseArrayLayer = sub.baseArrayLayer ∧ real.layerCount = sub.layerCount)
    (first : scratch.mipLevel = 0 ∧ scratch.baseArrayLayer = 0 ∧
      scratch.layerCount = sub.layerCount) :
    CopyEndInside ci real a (regionExtent a b) ∧
        CopyEndInside (scratchInfo format (levelExt ci.extent sub.mipLevel)) scratch a
          (regionExtent a b) ↔
      sub.layerCount ≤ 1 ∧ BoxStaged a b (levelExt ci.extent sub.mipLevel) := by
  obtain ⟨layers, corner, opposite⟩ := inside
  rw [scratch_copy_iff first.1 first.2.1, first.2.2, CopyEndInside, same.1,
    area_inside_iff (levelExt_lt _ small) corner opposite]
  have real_layers : LayersInside ci real := by
    rw [LayersInside, same.1, same.2.1, same.2.2]
    exact layers
  simp only [real_layers, true_and]
  exact ⟨fun both => both.2, fun both => ⟨both.2, both⟩⟩

private theorem copySrc_inside_iff {src : VkImage} {layout other : VkImageLayout}
    (ok : Acceptable srcCi dstCi r) (live : images src = some srcCi)
    (made : images p.srcImg =
      some (scratchInfo format (levelExt srcCi.extent r.srcSubresource.mipLevel))) :
    CommandInside images (.copyImage src layout p.srcImg other [copySrc r]) ↔
      r.srcSubresource.layerCount ≤ 1 ∧
        BoxStaged r.srcOffset0 r.srcOffset1 (levelExt srcCi.extent r.srcSubresource.mipLevel) := by
  simp only [CommandInside, List.forall_mem_singleton, exists_image live, exists_image made]
  exact staged_iff ok.src_inside ok.src_extent ⟨rfl, rfl, regionLayers_eq ok⟩
    ⟨rfl, rfl, regionLayers_eq ok⟩

private theorem copyDst_inside_iff {dst : VkImage} {layout other : VkImageLayout}
    (ok : Acceptable srcCi dstCi r) (live : images dst = some dstCi)
    (made : images p.dstImg =
      some (scratchInfo format (levelExt dstCi.extent r.dstSubresource.mipLevel))) :
    CommandInside images (.copyImage p.dstImg layout dst other [copyDst r]) ↔
      r.srcSubresource.layerCount ≤ 1 ∧
        BoxStaged r.dstOffset0 r.dstOffset1 (levelExt dstCi.extent r.dstSubresource.mipLevel) := by
  have layers : regionLayers r = r.dstSubresource.layerCount :=
    (regionLayers_eq ok).trans ok.same_layers.symm
  simp only [CommandInside, List.forall_mem_singleton, exists_image live, exists_image made]
  rw [← ok.same_layers, and_comm]
  exact staged_iff ok.dst_inside ok.dst_extent ⟨rfl, rfl, layers⟩ ⟨rfl, rfl, layers⟩

private theorem mid_inside {ci : VkImageCreateInfo} {sub : VkImageSubresourceLayers}
    {a b : VkOffset3D} {img scratch : VkImage} (inside : BlitEndInside ci sub a b)
    (one : sub.layerCount ≤ 1) (live : images img = some ci)
    (made : images scratch = some (scratchInfo format (levelExt ci.extent sub.mipLevel))) :
    ∃ c, images (if sub.mipLevel = 0 then img else scratch) = some c ∧
      BlitEndInside c (midSubresource sub) a b := by
  by_cases direct : sub.mipLevel = 0
  · refine ⟨ci, by simp [direct, live], ?_⟩
    simpa [BlitEndInside, LayersInside, midSubresource, direct] using inside
  · refine ⟨_, by rw [if_neg direct, made], ?_, ?_⟩
    · simpa [LayersInside, midSubresource, direct, scratchInfo] using one
    · simpa only [midSubresource, scratchInfo, levelExt_levelExt] using inside.2

theorem regionCommands_inside_iff {src dst : VkImage}
    {srcLayout dstLayout : VkImageLayout} {filter : VkFilter} (ok : Acceptable srcCi dstCi r)
    (mip : namesMip r = true) (src_live : images src = some srcCi)
    (dst_live : images dst = some dstCi)
    (src_made : images p.srcImg =
      some (scratchInfo format (levelExt srcCi.extent r.srcSubresource.mipLevel)))
    (dst_made : images p.dstImg =
      some (scratchInfo format (levelExt dstCi.extent r.dstSubresource.mipLevel))) :
    (∀ c ∈ regionCommands src srcLayout dst dstLayout r filter p, CommandInside images c) ↔
      Stageable srcCi.extent dstCi.extent r := by
  have staged : r.srcSubresource.mipLevel ≠ 0 ∨ r.dstSubresource.mipLevel ≠ 0 := by
    simpa [namesMip] using mip
  constructor
  · intro inside
    have src_copy (level : r.srcSubresource.mipLevel ≠ 0) :=
      (copySrc_inside_iff ok src_live src_made).mp
        (inside (.copyImage src srcLayout p.srcImg .transferDstOptimal [copySrc r])
          (by simp [regionCommands, level]))
    have dst_copy (level : r.dstSubresource.mipLevel ≠ 0) :=
      (copyDst_inside_iff ok dst_live dst_made).mp
        (inside (.copyImage p.dstImg .transferSrcOptimal dst dstLayout [copyDst r])
          (by simp [regionCommands, level]))
    refine ⟨?_, fun level => (src_copy level).2, fun level => (dst_copy level).2⟩
    have positive := ok.some_layers
    rcases staged with level | level
    · have := (src_copy level).1
      omega
    · have := (dst_copy level).1
      omega
  · rintro ⟨one, src_box, dst_box⟩ c member
    have single : r.srcSubresource.layerCount ≤ 1 := one.le
    simp only [regionCommands, List.mem_append, List.mem_singleton] at member
    rcases member with ((member | member) | rfl) | member
    · split_ifs at member with level
      · simp only [List.mem_cons, List.not_mem_nil, or_false] at member
        rcases member with rfl | rfl | rfl
        · trivial
        · exact (copySrc_inside_iff ok src_live src_made).mpr ⟨single, src_box level⟩
        · trivial
      · cases member
    · split_ifs at member
      · obtain rfl := List.mem_singleton.mp member
        trivial
      · cases member
    · intro q here
      obtain rfl := List.mem_singleton.mp here
      exact ⟨mid_inside ok.src_inside single src_live src_made,
        mid_inside ok.dst_inside (ok.same_layers ▸ single) dst_live dst_made⟩
    · split_ifs at member with level
      · simp only [List.mem_cons, List.not_mem_nil, or_false] at member
        rcases member with rfl | rfl
        · trivial
        · exact (copyDst_inside_iff ok dst_live dst_made).mpr ⟨single, dst_box level⟩
      · cases member

end Commands

/-- Either no scratch is to be had and nothing is recorded, or what is recorded stays inside
its images exactly if every staged end is a single layer whose box can be copied as it
stands. -/
theorem recorded_inside_iff {t t' : CbTable} {cb : VkCommandBuffer} {dev : VkDevice}
    {src dst : VkImage} {srcLayout dstLayout : VkImageLayout} {r : VkImageBlit}
    {filter : VkFilter} {memProps : VkPhysicalDeviceMemoryProperties} {srcInfo dstInfo : ImgInfo}
    {srcCi dstCi : VkImageCreateInfo} {w w' : Recording}
    (src_live : w.images src = some srcCi) (dst_live : w.images dst = some dstCi)
    (src_tracked : srcInfo.extent = srcCi.extent) (dst_tracked : dstInfo.extent = dstCi.extent)
    (ok : Acceptable srcCi dstCi r) (mip : namesMip r = true)
    (run : (emitEmulatedBlit t cb dev src srcLayout dst dstLayout r filter memProps srcInfo
      dstInfo).Runs trying w t' w') :
    ∃ cmds, Adds cb cmds w w' ∧
      (cmds = [] ∨ ((∀ c ∈ cmds, CommandInside w'.images c) ↔
        Stageable srcCi.extent dstCi.extent r)) := by
  rcases (ensures_emitEmulatedBlit t).of_runs run with ⟨-, quiet⟩ | ⟨p, pair, adds⟩
  · exact ⟨[], adds_nil quiet, .inl rfl⟩
  · refine ⟨_, adds, .inr ?_⟩
    exact regionCommands_inside_iff ok mip (pair.grown _ _ src_live) (pair.grown _ _ dst_live)
      (src_tracked ▸ pair.src_made) (dst_tracked ▸ pair.dst_made)

def squareInfo : VkImageCreateInfo := ⟨.type2D, 37, ⟨4, 4, 1⟩, 3, 1, 7, .undefined⟩

/-- Images 10 and 11, both of that shape. -/
def twoSquares : Recording where
  images img := if img = 10 ∨ img = 11 then some squareInfo else none
  recorded _ := []

/-- Level 1 onto the whole of level 0, from `x0` to `x1`. -/
def outOfLevelOne (x0 x1 : Int) : VkImageBlit where
  srcSubresource := ⟨1, 1, 0, 1⟩
  srcOffset0 := ⟨x0, 0, 0⟩
  srcOffset1 := ⟨x1, 2, 1⟩
  dstSubresource := ⟨1, 0, 0, 1⟩
  dstOffset0 := ⟨0, 0, 0⟩
  dstOffset1 := ⟨4, 4, 1⟩

def emitOutOfLevelOne (t : CbTable) (x0 x1 : Int) : Shim CbTable :=
  emitEmulatedBlit t 5 1 10 .transferSrcOptimal 11
    .transferDstOptimal (outOfLevelOne x0 x1) .nearest [1] ⟨10, 37, ⟨4, 4, 1⟩, 1, 1, true⟩
    ⟨11, 37, ⟨4, 4, 1⟩, 1, 1, true⟩

private theorem outOfLevelOne_acceptable {x0 x1 : Int} (first : 0 ≤ x0 ∧ x0 ≤ 2)
    (second : 0 ≤ x1 ∧ x1 ≤ 2) : Acceptable squareInfo squareInfo (outOfLevelOne x0 x1) := by
  refine ⟨⟨?_, ?_, ?_⟩, ⟨?_, ?_, ?_⟩, ?_, ?_, rfl, ?_⟩ <;>
    simp [LayersInside, CornerInside, AreaInside, SpanInside, squareInfo, outOfLevelOne, levelExt,
      mipExt, InUint32, first, second]

/-- The first handle from 12 on that is free; memory is always there. -/
def supply (w : Recording) : (op : Call) → Answer op × Recording
  | .createImage _ ici =>
      match (List.range' 12 8).find? fun img => (w.images img).isNone with
      | some img => (some img, { w with images := Function.update w.images img (some ici) })
      | none => (none, w)
  | .allocateMemory .. => (some 1, w)
  | .malloc _ => (true, w)
  | .destroyImage _ img => ((), { w with images := Function.update w.images img none })
  | .record cb c => ((), w.append cb [c])
  | _ => (default, w)

private theorem supply_allowed (w : Recording) (op : Call) :
    trying w op (supply w op).1 (supply w op).2 := by
  cases op
  case createImage dev ici =>
    cases found : (List.range' 12 8).find? fun img => (w.images img).isNone with
    | none =>
        simp only [supply, found]
        exact ⟨rfl, rfl⟩
    | some img =>
        have free : w.images img = none := by simpa using List.find?_some found
        have above := List.mem_range'.mp (List.mem_of_find?_eq_some found)
        have nonzero : img ≠ 0 := by
          rintro rfl
          omega
        simp only [supply, found]
        exact ⟨free, nonzero, rfl⟩
  case allocateMemory => exact ⟨fun _ => rfl, rfl⟩
  case malloc => exact ⟨fun _ => rfl, rfl⟩
  all_goals rfl

private theorem runs_emitOutOfLevelOne (t : CbTable) (x0 x1 : Int) :
    ∃ t' w', (emitOutOfLevelOne t x0 x1).Runs trying twoSquares t' w' ∧
      w' = ((emitOutOfLevelOne t x0 x1).eval supply twoSquares).2 :=
  ⟨_, _, Prog.runs_eval supply_allowed _ _, rfl⟩

/-- A buffer the shim has seen allocated. -/
def oneBuffer : CbTable := rememberPool CbTable.zero 1 5 2

/-- The whole of level 1, left to right. -/
theorem recorded_inside_ordered :
    ∃ t t' w', (emitOutOfLevelOne t 0 2).Runs trying twoSquares t' w' ∧
      (w'.recorded 5).length = 4 ∧ ∀ c ∈ w'.recorded 5, CommandInside w'.images c := by
  -- the table stays a variable here, so that nothing evaluates the program
  obtain ⟨t, t_eq⟩ : ∃ t, t = oneBuffer := ⟨_, rfl⟩
  obtain ⟨t', w', run, result⟩ := runs_emitOutOfLevelOne t 0 2
  have four : (w'.recorded 5).length = 4 := by
    rw [result, t_eq]
    decide +kernel
  obtain ⟨cmds, adds, nothing | inside⟩ := recorded_inside_iff
    (show twoSquares.images 10 = some squareInfo from rfl)
    (show twoSquares.images 11 = some squareInfo from rfl) rfl rfl
    (outOfLevelOne_acceptable (by decide) (by decide)) (by decide) run
  · rw [adds.recorded_eq, nothing] at four
    cases four
  · refine ⟨t, t', w', run, four, ?_⟩
    obtain rfl : w'.recorded 5 = cmds := adds.recorded_eq
    refine inside.mpr ⟨rfl, fun _ => ?_, fun level => absurd rfl level⟩
    simp [BoxStaged, AxisStaged, outOfLevelOne]

/-- Mirrored, the copy out of level 1 starts at its right edge and is `2^32 - 2` wide. -/
theorem recorded_outside_mirrored :
    Acceptable squareInfo squareInfo (outOfLevelOne 2 0) ∧
      ∃ t t' w', (emitOutOfLevelOne t 2 0).Runs trying twoSquares t' w' ∧
        ∃ c ∈ w'.recorded 5, ¬ CommandInside w'.images c := by
  obtain ⟨t, t_eq⟩ : ∃ t, t = oneBuffer := ⟨_, rfl⟩
  obtain ⟨t', w', run, result⟩ := runs_emitOutOfLevelOne t 2 0
  refine ⟨outOfLevelOne_acceptable (by decide) (by decide), t, t', w', run,
    .copyImage 10 .transferSrcOptimal 12 .transferDstOptimal [copySrc (outOfLevelOne 2 0)], ?_, ?_⟩
  · rw [result, t_eq]
    decide +kernel
  · intro inside
    have live : w'.images 10 = some squareInfo := by
      rw [result, t_eq]
      decide +kernel
    obtain ⟨⟨ci, same, -, area⟩, -⟩ := inside _ (List.mem_singleton.mpr rfl)
    obtain rfl : squareInfo = ci := Option.some.inj (live.symm.trans same)
    obtain ⟨-, wide⟩ := area.1
    revert wide
    decide

end XdPlus.Vulkan.MipBlitBounds
