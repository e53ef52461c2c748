/- Module: XdPlus/Vulkan/Extensions
   source: vulkan/vkshim.c, shim_added_ext_count .. shim_EnumerateDeviceExtensionProperties,
     the filter of shim_CreateDevice
   digest: What the shim advertises is what it strips, for every gate and every list. -/

import Mathlib.Algebra.Group.Nat.Defs
import XdPlus.Vulkan.Common

set_option autoImplicit false
set_option relaxedAutoImplicit false

namespace XdPlus.Vulkan.Extensions

open Common

structure ExtensionProperties where
  extensionName : String
  specVersion : Nat
  deriving DecidableEq, Repr

/-- `drvinfo` and `memext`. -/
structure Gates where
  drvinfo : Gate
  memext : Gate
  deriving DecidableEq, Repr

/-! `specVersion` stands for the `*_SPEC_VERSION` macros of the Vulkan header the shim
is built with. -/

section Tables

variable (specVersion : String → Nat)

def ext (name : String) : ExtensionProperties := ⟨name, specVersion name⟩

def shimExtraExts : List ExtensionProperties :=
  [ext specVersion "VK_KHR_driver_properties",
    ext specVersion "VK_KHR_external_fence_capabilities",
    ext specVersion "VK_KHR_get_physical_device_properties2"]

def shimMemExts : List ExtensionProperties :=
  [ext specVersion "VK_KHR_get_memory_requirements2",
    ext specVersion "VK_KHR_bind_memory2",
    ext specVersion "VK_KHR_dedicated_allocation",
    ext specVersion "VK_KHR_maintenance3"]

def shimAddedExtCount (props : PropertyStore) (g : Gates) : Nat × Gates :=
  let (drv, drvinfo) := propOn props "debug.xdplus.vkdrvinfo" g.drvinfo
  let (mem, memext) := propOn props "debug.xdplus.vkmemext" g.memext
  ((if drv then (shimExtraExts specVersion).length else 0) +
    (if mem then (shimMemExts specVersion).length else 0), ⟨drvinfo, memext⟩)

/-- The index is rebased past the first table only when that table is on. -/
def shimAddedExtAt (props : PropertyStore) (g : Gates) (i : Nat) :
    Option ExtensionProperties × Gates :=
  let (drv, drvinfo) := propOn props "debug.xdplus.vkdrvinfo" g.drvinfo
  if drv = true ∧ i < (shimExtraExts specVersion).length then
    ((shimExtraExts specVersion)[i]?, { g with drvinfo := drvinfo })
  else
    let j := if drv then i - (shimExtraExts specVersion).length else i
    let (mem, memext) := propOn props "debug.xdplus.vkmemext" g.memext
    (if mem = true ∧ j < (shimMemExts specVersion).length then (shimMemExts specVersion)[j]?
      else none, ⟨drvinfo, memext⟩)

/-- `for (i = 0; i < n; i++) { e = shim_added_ext_at(i); if (e && !strcmp(...)) return 1; }`. -/
def ownsLoop (props : PropertyStore) (name : String) : Gates → List Nat → Bool × Gates
  | g, [] => (false, g)
  | g, i :: rest =>
      let (e, g) := shimAddedExtAt specVersion props g i
      if e.any (fun e => e.extensionName == name) then (true, g)
      else ownsLoop props name g rest

def shimOwnsExt (props : PropertyStore) (g : Gates) (name : String) : Bool × Gates :=
  let (n, g) := shimAddedExtCount specVersion props g
  ownsLoop specVersion props name g (List.range n)

/-- A caller's array of `VkExtensionProperties`. -/
abbrev Buffer := Nat → ExtensionProperties

/-- What `vkEnumerateDeviceExtensionProperties` leaves behind. -/
structure Enumeration where
  result : VkResult
  count : Nat
  buffer : Buffer

/-- The blob's own entry point: layer, then `none` for a null array or the capacity
in `*count` and the array. -/
abbrev RealEdep := Option String → Option (Nat × Buffer) → Enumeration

/-- `while (filled + appended < cap && appended < added) props[...] = *shim_added_ext_at(appended);`
with `fuel` rounds left. Every index below the count has an entry, so the pointer
is never null here. -/
def appendLoop (props : PropertyStore) (filled cap added : Nat) :
    Nat → Nat → Buffer → Gates → Nat × Buffer × Gates
  | 0, appended, buffer, g => (appended, buffer, g)
  | fuel + 1, appended, buffer, g =>
      if filled + appended < cap ∧ appended < added then
        match shimAddedExtAt specVersion props g appended with
        | (some e, g) =>
            appendLoop props filled cap added fuel (appended + 1)
              (Function.update buffer (filled + appended) e) g
        | (none, g) => (appended, buffer, g)
      else (appended, buffer, g)

def shimEnumerateDeviceExtensionProperties (realEdep : RealEdep) (props : PropertyStore)
    (g : Gates) (layer : Option String) (array : Option (Nat × Buffer)) :
    Enumeration × Gates :=
  let (added, g) := shimAddedExtCount specVersion props g
  if layer.isSome ∨ added = 0 then (realEdep layer array, g)
  else match array with
    | none =>
        let e := realEdep none none
        if e.result = .success then ({ e with count := (e.count + added) % 2 ^ 32 }, g)
        else (e, g)
    | some (cap, buffer) =>
        let e := realEdep none (some (cap, buffer))
        if e.result ≠ .success ∧ e.result ≠ .incomplete then (e, g)
        else
          let (appended, buffer, g) :=
            appendLoop specVersion props e.count cap added added 0 e.buffer g
          (⟨if e.result = .success ∧ appended = added then .success else .incomplete,
            e.count + appended, buffer⟩, g)

end Tables

/-- `VkDeviceCreateInfo`. The enabled-extension count is the length of the list; a
null array goes with a zero count. Pointers the shim does not follow are numbers. -/
structure DeviceCreateInfo where
  sType : Nat
  pNext : Nat
  flags : Nat
  queueCreateInfoCount : Nat
  pQueueCreateInfos : Nat
  enabledLayerCount : Nat
  ppEnabledLayerNames : Nat
  ppEnabledExtensionNames : List String
  pEnabledFeatures : Nat
  deriving DecidableEq, Repr

def keptLoop (specVersion : String → Nat) (props : PropertyStore) :
    Gates → List String → List String × Gates
  | g, [] => ([], g)
  | g, e :: rest =>
      let (owned, g) := shimOwnsExt specVersion props g e
      let (kept, g) := keptLoop specVersion props g rest
      (if owned then kept else e :: kept, g)

/-- The `VkDeviceCreateInfo` that `shim_CreateDevice` passes to the blob. `copy` says
whether the allocation of `kept` succeeds. -/
def forwardedCreateInfo (specVersion : String → Nat) (copy : Bool) (props : PropertyStore)
    (g : Gates) (ci : DeviceCreateInfo) : DeviceCreateInfo × Gates :=
  if ci.ppEnabledExtensionNames.length ≠ 0 ∧ copy = true then
    let (kept, g) := keptLoop specVersion props g ci.ppEnabledExtensionNames
    if kept.length ≠ ci.ppEnabledExtensionNames.length then
      ({ ci with ppEnabledExtensionNames := if kept.length ≠ 0 then kept else [] }, g)
    else (ci, g)
  else (ci, g)

/-- Both gates read. -/
def settle (props : PropertyStore) (g : Gates) : Gates :=
  ⟨some (propOn props "debug.xdplus.vkdrvinfo" g.drvinfo).1,
    some (propOn props "debug.xdplus.vkmemext" g.memext).1⟩

/-- The extensions that gates which have been read put behind the blob's own. -/
def added (specVersion : String → Nat) (g : Gates) : List ExtensionProperties :=
  (if g.drvinfo = some true then shimExtraExts specVersion else []) ++
    (if g.memext = some true then shimMemExts specVersion else [])

/-- The names the shim answers itself. -/
def ownedNames (specVersion : String → Nat) (g : Gates) : List String :=
  (added specVersion g).map ExtensionProperties.extensionName

section Agreement

variable (specVersion : String → Nat) (props : PropertyStore)

@[simp] theorem settle_settle (later : PropertyStore) (g : Gates) :
    settle later (settle props g) = settle props g := by
  rfl

private theorem shimAddedExtCount_eq (g : Gates) :
    shimAddedExtCount specVersion props g =
      ((added specVersion (settle props g)).length, settle props g) := by
  simp only [shimAddedExtCount, settle, added, propOn_snd, Option.some.injEq]
  split_ifs <;> rfl

private theorem shimAddedExtAt_read (later : PropertyStore) (drv mem : Bool) (i : Nat) :
    shimAddedExtAt specVersion later ⟨some drv, some mem⟩ i =
      ((added specVersion ⟨some drv, some mem⟩)[i]?, ⟨some drv, some mem⟩) := by
  simp only [shimAddedExtAt, propOn_cached, added, Option.some.injEq]
  cases drv <;> cases mem
  · simp
  · by_cases h : i < (shimMemExts specVersion).length
    · simp [h]
    · simp [h]
  · by_cases h : i < (shimExtraExts specVersion).length
    · simp [h]
    · simp [h]
  · by_cases h : i < (shimExtraExts specVersion).length
    · simp [h, List.getElem?_append]
    · by_cases h' : i - (shimExtraExts specVersion).length < (shimMemExts specVersion).length
      · simp [h, h', List.getElem?_append]
      · simp [h, h', List.getElem?_append]

private theorem shimAddedExtAt_eq (later : PropertyStore) (g : Gates) (i : Nat) :
    shimAddedExtAt specVersion later (settle props g) i =
      ((added specVersion (settle props g))[i]?, settle props g) := by
  exact shimAddedExtAt_read specVersion later _ _ i

private theorem ownsLoop_eq (later : PropertyStore) (name : String) (g : Gates)
    (is : List Nat) :
    ownsLoop specVersion later name (settle props g) is =
      (is.any (fun i => (added specVersion (settle props g))[i]?.any
        (fun e => e.extensionName == name)), settle props g) := by
  induction is with
  | nil => rfl
  | cons i rest ih =>
      simp only [ownsLoop, shimAddedExtAt_eq, List.any_cons]
      split_ifs with found
      · simp [found]
      · rw [ih]
        simp [found]

theorem shimOwnsExt_eq (g : Gates) (name : String) :
    shimOwnsExt specVersion props g name =
      (decide (name ∈ ownedNames specVersion (settle props g)), settle props g) := by
  simp only [shimOwnsExt, shimAddedExtCount_eq, ownsLoop_eq, Prod.mk.injEq, and_true]
  rw [Bool.eq_iff_iff, List.any_eq_true, decide_eq_true_iff, ownedNames, List.mem_map]
  constructor
  · rintro ⟨i, -, hit⟩
    obtain ⟨e, at_i, same⟩ := Option.any_eq_true _ _ |>.mp hit
    exact ⟨e, List.mem_of_getElem? at_i, by simpa using same⟩
  · rintro ⟨e, mem, same⟩
    obtain ⟨i, bound, rfl⟩ := List.mem_iff_getElem.mp mem
    refine ⟨i, List.mem_range.mpr bound, ?_⟩
    simpa [List.getElem?_eq_getElem bound] using same

private theorem keptLoop_eq (later : PropertyStore) (g : Gates) (names : List String) :
    keptLoop specVersion later (settle props g) names =
      (names.filter (fun n => n ∉ ownedNames specVersion (settle props g)),
        settle props g) := by
  induction names with
  | nil => rfl
  | cons e rest ih =>
      simp only [keptLoop, shimOwnsExt_eq, settle_settle, ih, Prod.mk.injEq, and_true,
        List.filter_cons]
      by_cases owned : e ∈ ownedNames specVersion (settle props g) <;> simp [owned]

theorem forwardedCreateInfo_eq (later : PropertyStore) (g : Gates) (ci : DeviceCreateInfo) :
    (forwardedCreateInfo specVersion true later (settle props g) ci).1 =
      { ci with
        ppEnabledExtensionNames := ci.ppEnabledExtensionNames.filter
          (fun n => n ∉ ownedNames specVersion (settle props g)) } := by
  unfold forwardedCreateInfo
  by_cases empty : ci.ppEnabledExtensionNames.length = 0
  · have none_in := List.length_eq_zero_iff.mp empty
    simp [none_in]
    cases ci
    simp_all
  · simp only [ne_eq, empty, not_false_eq_true, true_and, if_true, keptLoop_eq]
    by_cases same : (ci.ppEnabledExtensionNames.filter
        (fun n => n ∉ ownedNames specVersion (settle props g))).length =
        ci.ppEnabledExtensionNames.length
    · rw [if_neg (not_not.mpr same), List.filter_sublist.eq_of_length same]
    · rw [if_pos same]
      split_ifs with left
      · rw [List.length_eq_zero_iff.mp left]
      · rfl

end Agreement

/-- The answer to an array of `cap` entries from a driver that has `l` to report. -/
def filledFrom (l : List ExtensionProperties) (cap : Nat) (buffer : Buffer) : Enumeration where
  result := if l.length ≤ cap then .success else .incomplete
  count := min cap l.length
  buffer := fun i => if i < cap then l[i]?.getD (buffer i) else buffer i

/-- The text of the Vulkan specification on `vkEnumerateDeviceExtensionProperties`, for a driver
with the list `blob`. -/
structure Obeys (blob : List ExtensionProperties) (realEdep : RealEdep) : Prop where
  size : (realEdep none none).result = .success ∧ (realEdep none none).count = blob.length
  fill : ∀ cap buffer, realEdep none (some (cap, buffer)) = filledFrom blob cap buffer

/-- The same of a driver that may also fail a call; the number it reports is a `uint32_t`. -/
structure Answers (blob : List ExtensionProperties) (realEdep : RealEdep) : Prop where
  counted : blob.length < 2 ^ 32
  size : (∃ code, (realEdep none none).result = .error code) ∨
    (realEdep none none).result = .success ∧ (realEdep none none).count = blob.length
  fill : ∀ cap buffer, (∃ code, (realEdep none (some (cap, buffer))).result = .error code) ∨
    realEdep none (some (cap, buffer)) = filledFrom blob cap buffer

section Report

variable (specVersion : String → Nat) (props : PropertyStore) (g : Gates)

private theorem appendLoop_eq (filled cap fuel appended : Nat) (buffer : Buffer)
    (rounds : fuel + appended = (added specVersion (settle props g)).length) :
    appendLoop specVersion props filled cap (added specVersion (settle props g)).length
        fuel appended buffer (settle props g) =
      (appended + min fuel (cap - (filled + appended)),
        fun i => if filled + appended ≤ i ∧ i < cap then
          (added specVersion (settle props g))[i - filled]?.getD (buffer i) else buffer i,
        settle props g) := by
  induction fuel generalizing appended buffer with
  | zero =>
      simp only [appendLoop, Nat.zero_min, Nat.add_zero, Prod.mk.injEq, and_true, true_and]
      funext i
      split_ifs with inside
      · rw [List.getElem?_eq_none (by omega), Option.getD_none]
      · rfl
  | succ fuel ih =>
      by_cases room : filled + appended < cap
      · have bound : appended < (added specVersion (settle props g)).length := by omega
        have entry := List.getElem?_eq_getElem bound
        simp only [appendLoop, room, bound, and_self, if_true, shimAddedExtAt_eq, entry]
        rw [ih (appended + 1) _ (by omega)]
        simp only [Prod.mk.injEq, and_true]
        refine ⟨by omega, ?_⟩
        funext i
        rcases Nat.lt_trichotomy i (filled + appended) with before | here | after
        · simp only [show ¬ filled + (appended + 1) ≤ i by omega,
            show ¬ filled + appended ≤ i by omega, false_and, if_false,
            Function.update_of_ne (Nat.ne_of_lt before)]
        · subst here
          simp only [show ¬ filled + (appended + 1) ≤ filled + appended by omega, room,
            Nat.le_refl, false_and, and_self, if_false, if_true, Function.update_self,
            Nat.add_sub_cancel_left, entry, Option.getD_some]
        · simp only [show filled + (appended + 1) ≤ i by omega,
            show filled + appended ≤ i by omega, true_and,
            Function.update_of_ne (Nat.ne_of_gt after)]
      · simp only [appendLoop, room, false_and, if_false, Prod.mk.injEq, and_true]
        refine ⟨by omega, ?_⟩
        funext i
        rw [if_neg (by omega)]

private theorem enumerate_filled (blob : List ExtensionProperties) (realEdep : RealEdep)
    (cap : Nat) (buffer : Buffer)
    (filled : realEdep none (some (cap, buffer)) = filledFrom blob cap buffer) :
    shimEnumerateDeviceExtensionProperties specVersion realEdep props g none
        (some (cap, buffer)) =
      (filledFrom (blob ++ added specVersion (settle props g)) cap buffer,
        settle props g) := by
  simp only [shimEnumerateDeviceExtensionProperties, shimAddedExtCount_eq, filled]
  by_cases none_added : (added specVersion (settle props g)).length = 0
  · simp [List.length_eq_zero_iff.mp none_added]
  · have answered : ¬ ((filledFrom blob cap buffer).result ≠ .success ∧
        (filledFrom blob cap buffer).result ≠ .incomplete) := by
      simp only [filledFrom]
      split_ifs <;> simp
    simp only [Option.isSome_none, Bool.false_eq_true, none_added, or_self, if_false, answered]
    rw [appendLoop_eq specVersion props g _ cap _ 0 _ (Nat.add_zero _)]
    simp only [filledFrom, List.length_append, Prod.mk.injEq, and_true]
    rw [Enumeration.mk.injEq]
    refine ⟨?_, by omega, ?_⟩
    · by_cases fits : blob.length ≤ cap
      · simp only [fits, if_true, true_and]
        by_cases all : blob.length + (added specVersion (settle props g)).length ≤ cap
        · rw [if_pos all, if_pos (by omega)]
        · rw [if_neg all, if_neg (by omega)]
      · have beyond :
            ¬ blob.length + (added specVersion (settle props g)).length ≤ cap := by omega
        simp only [fits, beyond, if_false, reduceCtorEq, false_and]
    · funext i
      by_cases inside : i < cap
      · by_cases own : i < blob.length
        · have early : ¬ min cap blob.length + 0 ≤ i := by omega
          simp only [inside, early, false_and, if_false, if_true,
            List.getElem?_append_left own]
        · have past := Nat.not_lt.mp own
          have whole : min cap blob.length = blob.length := by omega
          simp only [inside, whole, past, Nat.add_zero, and_self, if_true,
            List.getElem?_append_right past, List.getElem?_eq_none past, Option.getD_none]
      · simp [inside]

theorem shimEnumerate_fill (blob : List ExtensionProperties) (realEdep : RealEdep)
    (obeys : Obeys blob realEdep) (cap : Nat) (buffer : Buffer) :
    shimEnumerateDeviceExtensionProperties specVersion realEdep props g none
        (some (cap, buffer)) =
      (filledFrom (blob ++ added specVersion (settle props g)) cap buffer,
        settle props g) := by
  exact enumerate_filled specVersion props g blob realEdep cap buffer (obeys.fill cap buffer)

private theorem enumerate_sized (realEdep : RealEdep)
    (answered : (realEdep none none).result = .success)
    (fits : (realEdep none none).count < 2 ^ 32) :
    let e := (shimEnumerateDeviceExtensionProperties specVersion realEdep props g none none).1
    e.result = .success ∧
      e.count = ((realEdep none none).count +
        (added specVersion (settle props g)).length) % 2 ^ 32 := by
  simp only [shimEnumerateDeviceExtensionProperties, shimAddedExtCount_eq, Option.isSome_none,
    Bool.false_eq_true, false_or]
  split_ifs with none_added
  · refine ⟨answered, ?_⟩
    rw [none_added, Nat.add_zero, Nat.mod_eq_of_lt fits]
  · exact ⟨answered, rfl⟩

private theorem enumerate_failed (realEdep : RealEdep) (array : Option (Nat × Buffer))
    (code : Int) (failed : (realEdep none array).result = .error code) :
    (shimEnumerateDeviceExtensionProperties specVersion realEdep props g none array).1 =
      realEdep none array := by
  simp only [shimEnumerateDeviceExtensionProperties, shimAddedExtCount_eq]
  by_cases none_added : (added specVersion (settle props g)).length = 0
  · simp [none_added]
  · rcases array with _ | ⟨cap, buffer⟩
    · simp [none_added, failed]
    · simp [none_added, failed]

private theorem filledFrom_entries (l : List ExtensionProperties) (cap : Nat) (buffer : Buffer) :
    (∀ i, i < min cap l.length → l[i]? = some ((filledFrom l cap buffer).buffer i)) ∧
      ∀ i, min cap l.length ≤ i → (filledFrom l cap buffer).buffer i = buffer i := by
  constructor
  · intro i bound
    have inside : i < cap := by omega
    have own : i < l.length := by omega
    simp only [filledFrom, inside, if_true, List.getElem?_eq_getElem own, Option.getD_some]
  · intro i beyond
    simp only [filledFrom]
    split_ifs with inside
    · rw [List.getElem?_eq_none (by omega), Option.getD_none]
    · rfl

/-- The shim keeps the protocol for the blob's list followed by its own extensions: an error
comes back as it is; otherwise an array gets the first entries of the two lists, as many as
it holds, and nothing behind them, and the result says whether that was all; without an array
`*count`, a `uint32_t`, becomes the number of them. -/
theorem shimEnumerate_protocol (blob : List ExtensionProperties) (realEdep : RealEdep)
    (answers : Answers blob realEdep) (array : Option (Nat × Buffer)) :
    let e := (shimEnumerateDeviceExtensionProperties specVersion realEdep props g none array).1
    let full := blob ++ added specVersion (settle props g)
    (∀ code, (realEdep none array).result = .error code → e = realEdep none array) ∧
      ((∀ code, (realEdep none array).result ≠ .error code) →
        match array with
        | none =>
            e.result = .success ∧ e.count = full.length % 2 ^ 32 ∧
              (full.length < 2 ^ 32 → e.count = full.length)
        | some (cap, buffer) =>
            e.count = min cap full.length ∧
              (∀ i, i < e.count → full[i]? = some (e.buffer i)) ∧
              (∀ i, e.count ≤ i → e.buffer i = buffer i) ∧
              e.result = if full.length ≤ cap then .success else .incomplete) := by
  intro e full
  refine ⟨enumerate_failed specVersion props g realEdep array, fun unfailed => ?_⟩
  rcases array with _ | ⟨cap, buffer⟩
  · obtain ⟨answered, count⟩ :=
      answers.size.resolve_left (fun failed => unfailed _ failed.choose_spec)
    have fits : (realEdep none none).count < 2 ^ 32 := by
      rw [count]
      exact answers.counted
    obtain ⟨result, sum⟩ := enumerate_sized specVersion props g realEdep answered fits
    have total : e.count = full.length % 2 ^ 32 := by
      rw [List.length_append, ← count]
      exact sum
    refine ⟨result, total, fun small => ?_⟩
    rw [total, Nat.mod_eq_of_lt small]
  · have filled := (answers.fill cap buffer).resolve_left
      (fun failed => unfailed _ failed.choose_spec)
    have answer : e = filledFrom full cap buffer := by
      simp only [e, full, enumerate_filled specVersion props g blob realEdep cap buffer filled]
    obtain ⟨written, untouched⟩ := filledFrom_entries full cap buffer
    rw [answer]
    exact ⟨rfl, written, untouched, rfl⟩

/-- Some call with an array names `name`. -/
def Reported (realEdep : RealEdep) (name : String) : Prop :=
  ∃ cap buffer, ∃ i,
    let e := (shimEnumerateDeviceExtensionProperties specVersion realEdep props g none
      (some (cap, buffer))).1
    i < e.count ∧ (e.buffer i).extensionName = name

/-- The names a list of extensions has. -/
def names (l : List ExtensionProperties) : List String :=
  l.map ExtensionProperties.extensionName

theorem reported_iff (blob : List ExtensionProperties) (realEdep : RealEdep)
    (obeys : Obeys blob realEdep) (name : String) :
    Reported specVersion props g realEdep name ↔
      name ∈ names blob ∨ name ∈ ownedNames specVersion (settle props g) := by
  rw [ownedNames, names, ← List.mem_append, ← List.map_append, List.mem_map]
  simp only [Reported, shimEnumerate_fill specVersion props g blob realEdep obeys]
  constructor
  · rintro ⟨cap, buffer, i, bound, same⟩
    simp only [filledFrom] at bound same
    rw [if_pos (by omega), List.getElem?_eq_getElem (by omega), Option.getD_some] at same
    exact ⟨_, List.getElem_mem _, same⟩
  · rintro ⟨e, member, same⟩
    obtain ⟨i, bound, rfl⟩ := List.mem_iff_getElem.mp member
    refine ⟨(blob ++ added specVersion (settle props g)).length, fun _ => ⟨"", 0⟩, i, ?_, ?_⟩
    · simpa [filledFrom] using bound
    · simp only [filledFrom]
      rw [if_pos bound, List.getElem?_eq_getElem bound, Option.getD_some]
      exact same

theorem shimEnumerate_gates (blob : List ExtensionProperties) (realEdep : RealEdep)
    (obeys : Obeys blob realEdep) (array : Option (Nat × Buffer)) :
    (shimEnumerateDeviceExtensionProperties specVersion realEdep props g none array).2 =
      settle props g := by
  rcases array with _ | ⟨cap, buffer⟩
  · simp only [shimEnumerateDeviceExtensionProperties, shimAddedExtCount_eq]
    split_ifs <;> rfl
  · rw [shimEnumerate_fill specVersion props g blob realEdep obeys]

/-- What the enumeration advertises and the blob does not know is exactly what
`shim_CreateDevice` takes out: a list drawn from the report reaches the blob as its
part in the blob's own list, and from any list at all the names outside the report
and the other fields arrive as they were. -/
theorem forwarded_of_reported (blob : List ExtensionProperties) (realEdep : RealEdep)
    (obeys : Obeys blob realEdep)
    (foreign : ∀ name ∈ names blob, name ∉ ownedNames specVersion (settle props g))
    (array : Option (Nat × Buffer)) (later : PropertyStore) (ci : DeviceCreateInfo) :
    let settled :=
      (shimEnumerateDeviceExtensionProperties specVersion realEdep props g none array).2
    let forwarded := (forwardedCreateInfo specVersion true later settled ci).1
    ((∀ name ∈ ci.ppEnabledExtensionNames, Reported specVersion props g realEdep name) →
      forwarded.ppEnabledExtensionNames =
        ci.ppEnabledExtensionNames.filter (fun name => name ∈ names blob)) ∧
    (∀ outside : String → Bool,
      (∀ name, outside name = true → ¬ Reported specVersion props g realEdep name) →
      forwarded.ppEnabledExtensionNames.filter outside =
        ci.ppEnabledExtensionNames.filter outside) ∧
    forwarded =
      { ci with ppEnabledExtensionNames := forwarded.ppEnabledExtensionNames } := by
  intro settled forwarded
  have is_filter : forwarded = { ci with
      ppEnabledExtensionNames := ci.ppEnabledExtensionNames.filter
        (fun name => name ∉ ownedNames specVersion (settle props g)) } := by
    simp only [forwarded, settled, shimEnumerate_gates specVersion props g blob realEdep obeys]
    exact forwardedCreateInfo_eq specVersion props later g ci
  refine ⟨fun drawn => ?_, fun outside apart => ?_, ?_⟩
  · rw [is_filter]
    refine List.filter_congr fun name member => ?_
    rw [decide_eq_decide]
    refine ⟨fun unowned => ?_, foreign name⟩
    exact ((reported_iff specVersion props g blob realEdep obeys name).mp
      (drawn name member)).resolve_right unowned
  · rw [is_filter, List.filter_filter]
    refine List.filter_congr fun name _ => ?_
    by_cases out : outside name = true
    · have unowned : name ∉ ownedNames specVersion (settle props g) := fun owned =>
        apart name out ((reported_iff specVersion props g blob realEdep obeys name).mpr
          (Or.inr owned))
      simp [out, unowned]
    · simp [out]
  · rw [is_filter]

end Report

/-- A blob that knows two extensions. -/
def swapchainBlob : List ExtensionProperties :=
  [⟨"VK_KHR_swapchain", 68⟩, ⟨"VK_KHR_maintenance1", 1⟩]

def swapchainEdep : RealEdep := fun _ array =>
  match array with
  | none => ⟨.success, 2, fun _ => ⟨"", 0⟩⟩
  | some (cap, buffer) => filledFrom swapchainBlob cap buffer

/-- Four entries for the blob's two and, with `vkmemext` off, three of the shim. -/
theorem shimEnumerate_protocol_short :
    (shimEnumerateDeviceExtensionProperties (fun _ => 1) swapchainEdep
      (fun name => if name = "debug.xdplus.vkmemext" then "0" else "") ⟨none, none⟩ none
      (some (4, fun _ => ⟨"", 0⟩))).1.result = .incomplete := by
  have answers : Answers swapchainBlob swapchainEdep :=
    ⟨by decide, .inr ⟨rfl, rfl⟩, fun _ _ => .inr rfl⟩
  have unfailed : ∀ code : Int,
      (swapchainEdep none (some (4, fun _ => ⟨"", 0⟩))).result ≠ .error code := by
    intro code failed
    cases failed
  have shown := (shimEnumerate_protocol (fun _ => 1)
    (fun name => if name = "debug.xdplus.vkmemext" then "0" else "") ⟨none, none⟩
    swapchainBlob swapchainEdep answers (some (4, fun _ => ⟨"", 0⟩))).2 unfailed
  exact shown.2.2.2

/-- Two names of the shim around a doubled name of the blob. -/
def mixedCreateInfo : DeviceCreateInfo where
  sType := 3
  pNext := 0
  flags := 0
  queueCreateInfoCount := 1
  pQueueCreateInfos := 4096
  enabledLayerCount := 0
  ppEnabledLayerNames := 0
  ppEnabledExtensionNames := ["VK_KHR_maintenance3", "VK_KHR_swapchain", "VK_KHR_swapchain",
    "VK_KHR_driver_properties"]
  pEnabledFeatures := 8192

theorem forwarded_mixedCreateInfo :
    (forwardedCreateInfo (fun _ => 1) true (fun _ => "0")
      (shimEnumerateDeviceExtensionProperties (fun _ => 1) swapchainEdep (fun _ => "")
        ⟨none, none⟩ none none).2 mixedCreateInfo).1.ppEnabledExtensionNames =
      ["VK_KHR_swapchain", "VK_KHR_swapchain"] := by
  have obeys : Obeys swapchainBlob swapchainEdep := ⟨⟨rfl, rfl⟩, fun _ _ => rfl⟩
  have owned : ownedNames (fun _ => 1) (settle (fun _ => "") ⟨none, none⟩) =
      ["VK_KHR_driver_properties", "VK_KHR_external_fence_capabilities",
        "VK_KHR_get_physical_device_properties2", "VK_KHR_get_memory_requirements2",
        "VK_KHR_bind_memory2", "VK_KHR_dedicated_allocation", "VK_KHR_maintenance3"] := by
    rfl
  have foreign : ∀ name ∈ names swapchainBlob,
      name ∉ ownedNames (fun _ => 1) (settle (fun _ => "") ⟨none, none⟩) := by
    simp [owned, names, swapchainBlob]
  have drawn : ∀ name ∈ mixedCreateInfo.ppEnabledExtensionNames,
      Reported (fun _ => 1) (fun _ => "") ⟨none, none⟩ swapchainEdep name := by
    intro name member
    rw [reported_iff _ _ _ swapchainBlob _ obeys, owned]
    simp [mixedCreateInfo] at member
    rcases member with rfl | rfl | rfl <;> simp [names, swapchainBlob]
  rw [(forwarded_of_reported (fun _ => 1) (fun _ => "") ⟨none, none⟩ swapchainBlob
    swapchainEdep obeys foreign none (fun _ => "0") mixedCreateInfo).1 drawn]
  simp [mixedCreateInfo, names, swapchainBlob]

end XdPlus.Vulkan.Extensions
