/- Module: XdPlus/Vulkan/CacheFiles
   source: vulkan/vkshim.c, cache_path_for_self .. save_disk_cache, drain_pending
   digest: The files, the properties and what the driver's caches hold, while no I/O fails. -/

import Mathlib.Data.List.Lattice
import XdPlus.Vulkan.PipelineLedger

/-!
`PipelineBatches.answers` knows which caches there are; this is what is in them, and what is in
the files. A descriptor is known by its path: no file is moved or removed while one is open.
-/

set_option autoImplicit false
set_option relaxedAutoImplicit false

namespace XdPlus.Vulkan.CacheFiles

open XdPlus.Base Common Driver PipelineCache PipelineBatches PipelineLedger

variable {E : Type} [DecidableEq E]

/-- What `vkGetPipelineCacheData` makes of the entries of a cache, and what the driver finds in
a blob it takes. -/
structure Blobs (E : Type) where
  encode : List E → Bytes
  decode : Bytes → Option (List E)
  decode_encode : ∀ es, decode (encode es) = some es

structure Disk (E : Type) where
  files : String → Option Bytes
  fds : Nat → String
  props : PropertyStore
  contents : VkPipelineCache → List E
  /-- The pipelines of the latest batch. -/
  made : List E

def Disk.fill (d : Disk E) (pc : VkPipelineCache) (es : List E) : Disk E :=
  { d with contents := Function.update d.contents pc es }

def Disk.put (d : Disk E) (path : String) (data : Option Bytes) : Disk E :=
  { d with files := Function.update d.files path data }

def Disk.opened (d : Disk E) (fd : Nat) (path : String) : Disk E :=
  { d with fds := Function.update d.fds fd path }

section Updates

variable (d : Disk E) (pc other : VkPipelineCache) (es : List E)

omit [DecidableEq E]

@[simp] theorem Disk.fill_files : (d.fill pc es).files = d.files := rfl

@[simp] theorem Disk.fill_props : (d.fill pc es).props = d.props := rfl

@[simp] theorem Disk.fill_self : (d.fill pc es).contents pc = es := Function.update_self ..

variable {pc other}

theorem Disk.fill_of_ne (ne : other ≠ pc) : (d.fill pc es).contents other = d.contents other :=
  Function.update_of_ne ne _ _

end Updates

/-- `recent` is what a batch may add now. A `steady` driver makes an empty cache whenever it is
asked for one, serialises every cache, and loses nothing in a merge. -/
structure Platform (E : Type) where
  blobs : Blobs E
  uid : Nat
  recent : E → Prop
  steady : Prop

/-- The driver may start a cache without the blob it was given, or refuse it. -/
def Platform.Loads (pf : Platform E) (initial : Bytes) (es : List E) : Prop :=
  es = [] ∨ initial ≠ [] ∧ pf.blobs.decode initial = some es

/-- The progress property is for the shell; its value is not kept. -/
def stores (pf : Platform E) : Prog.Environment Call Answer (Disk E) := fun d op ans d' =>
  match op, ans with
  | .getuid, uid => uid = pf.uid ∧ d' = d
  | .systemPropertyGet name, v => v = d.props name ∧ d' = d
  | .malloc _, got => (pf.steady → got = true) ∧ d' = d
  | .openRead path, some fd => (d.files path).isSome = true ∧ d' = d.opened fd path
  | .openRead path, none => d.files path = none ∧ d' = d
  | .openWrite path, some fd => d' = (d.put path (some [])).opened fd path
  | .openWrite _, none => False
  | .fstatSize fd, size => size = (d.files (d.fds fd)).map List.length ∧ d' = d
  | .read fd room, data => data = (d.files (d.fds fd)).map (List.take room) ∧ d' = d
  | .write fd data, n => n = some data.length ∧
      d' = d.put (d.fds fd) ((d.files (d.fds fd)).map (· ++ data))
  | .close _, ok => ok = true ∧ d' = d
  | .rename old new, ok => ok = (d.files old).isSome ∧
      d' = if (d.files old).isSome then (d.put new (d.files old)).put old none else d
  | .unlink path, ok => ok = (d.files path).isSome ∧ d' = d.put path none
  | .createPipelineCache _ _ initial, some pc => ∃ es, pf.Loads initial es ∧ d' = d.fill pc es
  | .createPipelineCache _ _ initial, none => (pf.steady → initial ≠ []) ∧ d' = d
  | .mergePipelineCaches _ dst srcs, _ => ∃ es,
      (∀ e ∈ es, e ∈ srcs.flatMap d.contents ∪ d.contents dst) ∧
      (pf.steady → es = srcs.flatMap d.contents ∪ d.contents dst) ∧ d' = d.fill dst es
  | .createPipelines _ pc _, _ => ∃ made es,
      (∀ e ∈ es, e ∈ d.contents pc ∨ e ∈ made ∧ pf.recent e) ∧
      (pf.steady → es = made ∪ d.contents pc) ∧ d' = { d.fill pc es with made := made }
  | .getPipelineCacheSize _ pc, r => (pf.steady → r.1 = .success) ∧
      (r.1 = .success → r.2 = (pf.blobs.encode (d.contents pc)).length) ∧ d' = d
  | .getPipelineCacheData _ pc room, r =>
      (pf.steady → room = (pf.blobs.encode (d.contents pc)).length → r.1 = .success) ∧
      (r.1 = .success → r.2 = pf.blobs.encode (d.contents pc)) ∧ d' = d
  | _, _ => d' = d

/-- Every way `prog` can end satisfies `post`. -/
abbrev Yields {α : Type} (pf : Platform E) (prog : Shim α) (d : Disk E)
    (post : α → Disk E → Prop) : Prop :=
  prog.Ensures (stores pf) (fun _ _ => True) d post

/-- All but the descriptors. -/
structure Disk.Same (d d' : Disk E) : Prop where
  files : d'.files = d.files
  props : d'.props = d.props
  contents : d'.contents = d.contents

omit [DecidableEq E] in
theorem Disk.Same.refl (d : Disk E) : d.Same d := ⟨rfl, rfl, rfl⟩

omit [DecidableEq E] in
theorem Disk.Same.trans {d d' d'' : Disk E} (first : d.Same d') (second : d'.Same d'') :
    d.Same d'' :=
  ⟨second.files.trans first.files, second.props.trans first.props,
    second.contents.trans first.contents⟩

/-- `cache_path_for_self` for this user. -/
def selfPath (p : Process) (uid : Nat) : Option String :=
  if uid % aidUserOffset < aidAppStart ∨ aidIsolatedStart ≤ uid % aidUserOffset then none
  else some ("/data/user/" ++ toString (uid / aidUserOffset) ++ "/" ++ p.pkgName ++
    "/cache/" ++ cacheFile)

theorem paths_apart {p : Process} {uid : Nat} {path : String} (self : selfPath p uid = some path) :
    path ≠ "" ∧ genPath path ≠ path ∧ path ++ ".tmp" ≠ path ∧ path ++ ".tmp" ≠ genPath path := by
  have long : 13 ≤ path.length := by
    unfold selfPath at self
    split_ifs at self
    obtain rfl := Option.some.inj self
    simp only [String.length_append, cacheFile]
    have : "vkshim.pcache".length = 13 := rfl
    omega
  have gen : (genPath path).length = path.length - 3 := by
    have : "vkshim.gen".length = 10 ∧ "vkshim.pcache".length = 13 := ⟨rfl, rfl⟩
    simp only [genPath, cacheFile, cacheGenFile, String.length_append, String.length_ofList,
      List.length_take, String.length_toList]
    omega
  have tmp : (path ++ ".tmp").length = path.length + 4 := by
    rw [String.length_append]
    rfl
  refine ⟨fun empty => ?_, fun same => ?_, fun same => ?_, fun same => ?_⟩
  · rw [empty] at long
    exact absurd long (by decide)
  all_goals
    have := congrArg String.length same
    omega

/-- What `drop_cache_if_stale` takes the stamp for. -/
def Disk.stamp (d : Disk E) (path : String) : Bytes :=
  (((d.files (genPath path)).getD []).take 91).takeWhile (· ≠ 0)

/-- `drop_cache_if_stale` clears the cache. -/
def Disk.Stale (d : Disk E) (path : String) : Prop :=
  d.props cacheGenProp ≠ "" ∧ d.stamp path ≠ (d.props cacheGenProp).toUTF8.toList

/-- The cache is gone and the stamp is that of now. -/
def Disk.cleared (d : Disk E) (path : String) : Disk E :=
  (d.put path none).put (genPath path) (some (d.props cacheGenProp).toUTF8.toList)

section Functions

variable {pf : Platform E} {p : Process} {d : Disk E} {fns : CacheFns} {c : DevCache}

theorem yields_cachePathForSelf :
    Yields pf (cachePathForSelf p) d (fun r d' => r = selfPath p pf.uid ∧ d' = d) := by
  simp only [cachePathForSelf, Prog.ensures_bind, Prog.ensures_call]
  refine ⟨trivial, ?_⟩
  rintro _ _ ⟨rfl, rfl⟩
  unfold selfPath
  split_ifs <;> exact ⟨rfl, rfl⟩

private theorem yields_readStamp (path : String) :
    Yields pf (readStamp path) d (fun r d' =>
      r = (((d.files path).getD []).take 91).takeWhile (· ≠ 0) ∧ d.Same d') := by
  refine ⟨trivial, fun fd d₁ opened => ?_⟩
  cases fd with
  | none =>
      obtain ⟨missing, rfl⟩ := opened
      exact ⟨by simp [missing], .refl _⟩
  | some fd =>
      obtain ⟨there, rfl⟩ := opened
      refine ⟨trivial, ?_⟩
      rintro _ _ ⟨rfl, rfl⟩
      refine ⟨trivial, ?_⟩
      rintro _ _ ⟨-, rfl⟩
      obtain ⟨data, is_data⟩ := Option.isSome_iff_exists.mp there
      exact ⟨by simp [Disk.opened, is_data], rfl, rfl, rfl⟩

theorem yields_dropCacheIfStale (path : String) :
    Yields pf (dropCacheIfStale path) d (fun _ d' =>
      ¬ d.Stale path ∧ d.Same d' ∨ d.Stale path ∧ (d.cleared path).Same d') := by
  simp only [dropCacheIfStale, Prog.ensures_bind, Prog.ensures_call]
  refine ⟨trivial, ?_⟩
  rintro _ _ ⟨rfl, rfl⟩
  split_ifs with unset
  · exact .inl ⟨fun stale => stale.1 unset, .refl _⟩
  simp only [Prog.ensures_bind]
  refine (yields_readStamp (genPath path)).mono ?_
  rintro _ d₁ ⟨rfl, same⟩
  split_ifs with current
  · exact .inl ⟨fun stale => stale.2 current, same⟩
  refine ⟨trivial, ?_⟩
  rintro _ _ ⟨-, rfl⟩
  refine ⟨trivial, fun fd d₂ opened => ?_⟩
  cases fd with
  | none => exact opened.elim
  | some fd =>
      obtain rfl : d₂ = _ := opened
      refine ⟨trivial, ?_⟩
      rintro _ _ ⟨-, rfl⟩
      refine ⟨trivial, ?_⟩
      rintro _ _ ⟨-, rfl⟩
      refine .inr ⟨⟨unset, current⟩, ?_, same.props, same.contents⟩
      simp [Disk.cleared, Disk.put, Disk.opened, same.files]

private theorem yields_readWhole (fd : Nat) : Yields pf (readWhole fd) d (fun r d' =>
    (r = [] ∨ d.files (d.fds fd) = some r) ∧ d' = d) := by
  simp only [readWhole, Prog.ensures_bind, Prog.ensures_call]
  refine ⟨trivial, ?_⟩
  rintro _ d ⟨rfl, rfl⟩
  cases file : d.files (d.fds fd) with
  | none => exact ⟨.inl rfl, rfl⟩
  | some data =>
      simp only [Option.map_some]
      split_ifs
      · exact ⟨.inl rfl, rfl⟩
      simp only [Prog.ensures_bind, Prog.ensures_call]
      refine ⟨trivial, ?_⟩
      rintro got _ ⟨-, rfl⟩
      split_ifs
      · simp only [Prog.ensures_bind, Prog.ensures_call]
        refine ⟨trivial, ?_⟩
        rintro _ _ ⟨rfl, rfl⟩
        simp [file]
      · exact ⟨.inl rfl, rfl⟩

theorem yields_loadInitial (path : String) : Yields pf (loadInitial path) d (fun r d' =>
    (r = [] ∨ d.files path = some r) ∧ d.Same d') := by
  unfold loadInitial
  split_ifs
  · exact ⟨.inl rfl, .refl d⟩
  simp only [Prog.ensures_bind, Prog.ensures_call]
  refine ⟨trivial, fun fd d₁ opened => ?_⟩
  cases fd with
  | none =>
      obtain ⟨-, rfl⟩ := opened
      exact ⟨.inl rfl, .refl _⟩
  | some fd =>
      obtain ⟨-, rfl⟩ := opened
      simp only [Prog.ensures_bind, Prog.ensures_call]
      refine (yields_readWhole fd).mono ?_
      rintro data _ ⟨read, rfl⟩
      refine ⟨trivial, ?_⟩
      rintro _ _ ⟨-, rfl⟩
      refine ⟨?_, rfl, rfl, rfl⟩
      simpa [Disk.opened] using read

theorem yields_createPrimed (dev : VkDevice) (initial : Bytes) :
    Yields pf (createPrimed dev initial) d (fun r d' => match r with
      | some pc => ∃ es, pf.Loads initial es ∧ d' = d.fill pc es
      | none => ¬ pf.steady ∧ d' = d) := by
  simp only [createPrimed, Prog.ensures_bind, Prog.ensures_call]
  refine ⟨trivial, fun made d₁ created => ?_⟩
  cases made with
  | some pc => exact created
  | none =>
      obtain ⟨refused, rfl⟩ := created
      split_ifs with empty
      · exact ⟨fun steady => refused steady empty, rfl⟩
      · refine ⟨trivial, fun made d₂ created => ?_⟩
        cases made with
        | some pc =>
            obtain ⟨es, loads, rfl⟩ := created
            rcases loads with rfl | ⟨full, -⟩
            · exact ⟨[], .inl rfl, rfl⟩
            · exact absurd rfl full
        | none =>
            obtain ⟨refused', rfl⟩ := created
            exact ⟨fun steady => refused' steady rfl, rfl⟩

private theorem yields_capBytes (name : String) (defMb : Nat) :
    Yields pf (capBytes p name defMb) d (fun r d' => r = capOf p d.props name defMb ∧ d' = d) := by
  exact ensures_capBytes Disk.props (fun _ => trivial) fun _ _ _ answered => answered

private theorem yields_replaceFile (data : Bytes) : Yields pf (replaceFile c data) d
    (fun c' d' => c' = { c with lastSavedSize := data.length } ∧
      ((d.put c.path (some data)).put (c.path ++ ".tmp") none).Same d') := by
  have apart : c.path ≠ c.path ++ ".tmp" := by
    intro same
    have := congrArg String.length same
    rw [String.length_append] at this
    have : ".tmp".length = 4 := rfl
    omega
  simp only [replaceFile, Prog.ensures_bind, Prog.ensures_call]
  refine ⟨trivial, fun fd d₁ opened => ?_⟩
  cases fd with
  | none => exact opened.elim
  | some fd =>
      simp only [Prog.ensures_bind, Prog.ensures_call]
      refine ⟨trivial, ?_⟩
      rintro _ d₂ ⟨rfl, written⟩
      have same : (d.put (c.path ++ ".tmp") (some data)).Same d₂ := by
        obtain rfl : d₁ = _ := opened
        rw [written]
        exact ⟨by simp [Disk.put, Disk.opened], rfl, rfl⟩
      have there : d₂.files (c.path ++ ".tmp") = some data := by
        rw [same.files]
        simp [Disk.put]
      simp only [if_true]
      refine ⟨trivial, ?_⟩
      rintro _ _ ⟨rfl, rfl⟩
      refine ⟨trivial, ?_⟩
      rintro _ _ ⟨rfl, rfl⟩
      simp only [there, Option.isSome_some, if_true]
      refine ⟨rfl, ?_, same.props, same.contents⟩
      simp only [Disk.put, same.files]
      rw [Function.update_comm apart, Function.update_idem, Function.update_comm apart.symm]

/-- What the cache of a slot is serialised to. -/
def blobOf (pf : Platform E) (d : Disk E) (c : DevCache) : Bytes :=
  pf.blobs.encode (d.contents c.pc)

/-- What `save_disk_cache` leaves: the file as it was, and why, or the file replaced. -/
structure Saved (pf : Platform E) (p : Process) (fns : CacheFns) (force : Bool) (c c' : DevCache)
    (d d' : Disk E) : Prop where
  slot : ∃ size ns frozen,
    c' = { c with lastSavedSize := size, lastSaveNs := ns, frozen := frozen }
  props : d'.props = d.props
  contents : d'.contents = d.contents
  files :
    (d'.files = d.files ∧ c'.lastSavedSize = c.lastSavedSize ∧
      (pf.steady → fns.gpcd = true → c.pc ≠ 0 → c.path ≠ "" → force = true →
        (blobOf pf d c).length ≤ capOf p d.props "vkcachemax" cacheMaxMb →
        (blobOf pf d c).length = 0 ∨ (blobOf pf d c).length = c.lastSavedSize)) ∨
    (c.pc ≠ 0 ∧ c.path ≠ "" ∧ (blobOf pf d c).length ≠ c.lastSavedSize ∧
      c'.lastSavedSize = (blobOf pf d c).length ∧
      d'.files = ((d.put c.path (some (blobOf pf d c))).put (c.path ++ ".tmp") none).files)

theorem yields_saveDiskCache (force : Bool) : Yields pf (saveDiskCache p fns c force) d
    (fun c' d' => Saved pf p fns force c c' d d') := by
  unfold saveDiskCache
  split_ifs with none_there
  · refine ⟨⟨_, _, _, rfl⟩, rfl, rfl, .inl ⟨rfl, rfl, fun _ able some_pc some_path => ?_⟩⟩
    rcases none_there with null | missing | memory
    · exact absurd null some_pc
    · cases missing.symm.trans able
    · exact absurd memory some_path
  push Not at none_there
  obtain ⟨some_pc, -, some_path⟩ := none_there
  simp only [Prog.ensures_bind, Prog.ensures_call]
  refine ⟨trivial, ?_⟩
  rintro now d rfl
  split_ifs with early
  · refine ⟨⟨_, _, _, rfl⟩, rfl, rfl, .inl ⟨rfl, rfl, fun _ _ _ _ forced => ?_⟩⟩
    cases early.1.symm.trans forced
  simp only [Prog.ensures_bind, Prog.ensures_call]
  refine ⟨trivial, ?_⟩
  rintro ⟨r, size⟩ d ⟨asked, sized, rfl⟩
  simp only at asked sized
  split_ifs with nothing
  · refine ⟨⟨_, _, _, rfl⟩, rfl, rfl, .inl ⟨rfl, rfl, fun steady _ _ _ _ _ => ?_⟩⟩
    have is_size : size = (blobOf pf d c).length := sized (asked steady)
    rcases nothing with failed | empty | same
    · exact absurd (asked steady) failed
    · exact .inl (is_size.symm.trans empty)
    · exact .inr (is_size.symm.trans same)
  push Not at nothing
  obtain ⟨ok, -, changed⟩ := nothing
  obtain rfl : size = (blobOf pf d c).length := sized ok
  simp only [Prog.ensures_bind]
  refine (yields_capBytes _ _).mono ?_
  rintro _ d ⟨rfl, rfl⟩
  split_ifs with over_cap
  · refine ⟨⟨_, _, _, rfl⟩, rfl, rfl, .inl ⟨rfl, rfl, fun _ _ _ _ _ under => ?_⟩⟩
    omega
  simp only [Prog.ensures_bind, Prog.ensures_call]
  refine ⟨trivial, ?_⟩
  rintro got d ⟨gets, rfl⟩
  split_ifs with room
  · simp only [Prog.ensures_bind, Prog.ensures_call]
    refine ⟨trivial, ?_⟩
    rintro ⟨r', data⟩ d ⟨serialises, serialised, rfl⟩
    simp only at serialises serialised
    split_ifs with failed
    · refine ⟨⟨_, _, _, rfl⟩, rfl, rfl, .inl ⟨rfl, rfl, fun steady _ _ _ _ _ => ?_⟩⟩
      exact absurd (serialises steady rfl) failed
    · obtain rfl : data = blobOf pf d c := serialised (not_not.mp failed)
      refine (yields_replaceFile _).mono ?_
      rintro _ d' ⟨rfl, same⟩
      exact ⟨⟨_, _, _, rfl⟩, same.props, same.contents,
        .inr ⟨some_pc, some_path, changed, rfl, same.files⟩⟩
  · refine ⟨⟨_, _, _, rfl⟩, rfl, rfl, .inl ⟨rfl, rfl, fun steady _ _ _ _ _ => ?_⟩⟩
    exact absurd (gets steady) room

private theorem yields_destroyAll (dev : VkDevice) (pcs : List VkPipelineCache) :
    Yields pf (destroyAll dev pcs) d (fun _ d' => d' = d) := by
  induction pcs with
  | nil => exact rfl
  | cons pc rest ih =>
      simp only [destroyAll, Prog.ensures_bind, Prog.ensures_call]
      refine ⟨trivial, ?_⟩
      rintro _ _ rfl
      exact ih

/-- What `drain_pending` makes of the master's entries. -/
structure Merged (pf : Platform E) (fns : CacheFns) (c : DevCache) (srcs : List VkPipelineCache)
    (d d' : Disk E) : Prop where
  files : d'.files = d.files
  props : d'.props = d.props
  others : ∀ pc, pc ≠ c.pc → d'.contents pc = d.contents pc
  within : ∀ e ∈ d'.contents c.pc, e ∈ srcs.flatMap d.contents ∪ d.contents c.pc
  full : pf.steady → fns.mpc = true → c.pc ≠ 0 →
    d'.contents c.pc = srcs.flatMap d.contents ∪ d.contents c.pc

theorem merged_by_call {dev : VkDevice} {srcs : List VkPipelineCache} {r : VkResult}
    {d' : Disk E} (merged : stores pf d (.mergePipelineCaches dev c.pc srcs) r d') :
    Merged pf fns c srcs d d' := by
  obtain ⟨es, within, full, rfl⟩ := merged
  refine ⟨rfl, rfl, fun pc ne => Disk.fill_of_ne d es ne, ?_, fun steady _ _ => ?_⟩
  · simpa using within
  · simpa using full steady

theorem merged_nothing (pf : Platform E) (fns : CacheFns) (c : DevCache) (d : Disk E) :
    Merged pf fns c [] d d :=
  ⟨rfl, rfl, fun _ _ => rfl, fun e member => by simpa using member, fun _ _ _ => by simp⟩

private theorem yields_mergeInto (srcs : List VkPipelineCache) :
    Yields pf (mergeInto fns c srcs) d (fun _ d' => Merged pf fns c srcs d d') := by
  unfold mergeInto
  split_ifs with able
  · exact ⟨trivial, fun r d' merged => merged_by_call merged⟩
  · refine ⟨rfl, rfl, fun _ _ => rfl, fun e member => ?_, fun _ can some_pc => ?_⟩
    · exact List.mem_union_iff.mpr (.inr member)
    · exact absurd ⟨can, some_pc⟩ able

theorem yields_drainPending : Yields pf (drainPending fns c) d
    (fun c' d' => c' = { c with pending := [] } ∧ Merged pf fns c c.pending d d') := by
  unfold drainPending
  by_cases empty : c.pending = []
  · rw [if_pos empty, empty]
    refine ⟨?_, merged_nothing pf fns c d⟩
    rw [← empty]
  · rw [if_neg empty]
    simp only [Prog.ensures_bind]
    refine (yields_mergeInto c.pending).mono fun _ d' merged => ?_
    split_ifs
    · simp only [Prog.ensures_bind]
      refine (yields_destroyAll c.dev c.pending).mono ?_
      rintro _ _ rfl
      exact ⟨rfl, merged⟩
    · exact ⟨rfl, merged⟩

/-- What `drop_cache_if_stale` makes of the files. -/
def Disk.refreshed (d d' : Disk E) : Option String → Prop
  | none => d' = d
  | some path => ¬ d.Stale path ∧ d.Same d' ∨ d.Stale path ∧ (d.cleared path).Same d'

/-- A slot without a cache after `ensure_disk_cache` has asked the driver for one: the files,
the slot's path, and the entries the cache started with. -/
structure Created (pf : Platform E) (p : Process) (c : DevCache) (pc : VkPipelineCache)
    (c' : DevCache) (d d' : Disk E) : Prop where
  rest : ∃ size ns, c' = { c with
    path := (selfPath p pf.uid).getD c.path
    frozen := false
    pc := pc
    lastSavedSize := size
    lastSaveNs := ns }
  disk : ∃ d₁, d.refreshed d₁ (selfPath p pf.uid) ∧
    ((pc = 0 ∧ ¬ pf.steady ∧ d₁.Same d') ∨
      ∃ initial es, (initial = [] ∨ d₁.files ((selfPath p pf.uid).getD c.path) = some initial) ∧
        pf.Loads initial es ∧ (d₁.fill pc es).Same d' ∧ c'.lastSavedSize = initial.length)

private theorem yields_createDiskCache (dev : VkDevice) (bare : c.pc = 0) :
    Yields pf (createDiskCache p dev c) d (fun r d' => Created pf p c r.1 r.2 d d') := by
  have load {c₁ : DevCache} {d₁ : Disk E} (is : c₁ = { c with
      path := (selfPath p pf.uid).getD c.path }) (refreshed : d.refreshed d₁ (selfPath p pf.uid)) :
      Yields pf (loadDiskCache dev c₁) d₁ (fun r d' => Created pf p c r.1 r.2 d d') := by
    simp only [loadDiskCache, Prog.ensures_bind]
    refine (yields_loadInitial _).mono ?_
    rintro initial d₂ ⟨read, same⟩
    refine (yields_createPrimed dev initial).mono fun made d₃ created => ?_
    cases made with
    | none =>
        obtain ⟨unsteady, rfl⟩ := created
        refine ⟨⟨c.lastSavedSize, c.lastSaveNs, ?_⟩, d₁, refreshed, .inl ⟨rfl, unsteady, same⟩⟩
        rw [is, ← bare]
    | some pc =>
        obtain ⟨es, loads, rfl⟩ := created
        simp only [Prog.ensures_bind, Prog.ensures_call]
        refine ⟨trivial, ?_⟩
        rintro now _ rfl
        refine ⟨⟨initial.length, now, by rw [is]⟩, d₁, refreshed, .inr ⟨initial, es, ?_, loads, ?_,
          rfl⟩⟩
        · simpa [is] using read
        · exact ⟨same.files, same.props, by simp [Disk.fill, same.contents]⟩
  simp only [createDiskCache, Prog.ensures_bind]
  refine yields_cachePathForSelf.mono ?_
  rintro _ d₁ ⟨rfl, rfl⟩
  cases self : selfPath p pf.uid with
  | none => exact load (by simp [self]) (by rw [self]; rfl)
  | some path =>
      simp only [Prog.ensures_bind]
      refine (yields_dropCacheIfStale path).mono fun _ d₁ dropped => ?_
      exact load (by simp [self]) (by rw [self]; exact dropped)

/-- `ensure_disk_cache` asks the driver for a cache, for the slot `i` of `caches`. -/
def Makes (p : Process) (k : CacheState) (dev : VkDevice) (i : Fin devCacheMax)
    (caches : DevCaches) : Prop :=
  cacheClaim k.devCaches dev = some (i, caches) ∧ (caches i).pc = 0 ∧
    (resolveCacheFns p.exported k.fns).cpc = true ∧ (resolveCacheFns p.exported k.fns).gpcd = true

/-- `ensure_disk_cache` has a cache already, or cannot have one. -/
def Unmade (p : Process) (k : CacheState) (dev : VkDevice) (pc : VkPipelineCache)
    (k' : CacheState) : Prop :=
  match cacheClaim k.devCaches dev with
  | none => pc = 0 ∧ k' = k
  | some (i, caches) => k'.devCaches = caches ∧ pc = (caches i).pc ∧ ((caches i).pc ≠ 0 ∨
      (resolveCacheFns p.exported k.fns).cpc = false ∨
      (resolveCacheFns p.exported k.fns).gpcd = false)

theorem yields_ensureDiskCache (k : CacheState) (dev : VkDevice) :
    Yields pf (ensureDiskCache p k dev) d (fun r d' =>
      (Unmade p k dev r.1 r.2 ∧ d' = d) ∨
      ∃ i caches c', Makes p k dev i caches ∧
        r.2.devCaches = Function.update caches i c' ∧ Created pf p (caches i) r.1 c' d d') := by
  unfold ensureDiskCache
  cases claimed : cacheClaim k.devCaches dev with
  | none => exact .inl ⟨by simp [Unmade, claimed], rfl⟩
  | some slot =>
      obtain ⟨i, caches⟩ := slot
      by_cases has : (caches i).pc ≠ 0
      · simp only [has, ne_eq, not_false_eq_true, if_true]
        exact .inl ⟨by simp [Unmade, claimed, has], rfl⟩
      · have bare : (caches i).pc = 0 := not_not.mp has
        simp only [bare, ne_eq, not_true_eq_false, if_false]
        split_ifs with missing
        · exact .inl ⟨by simpa [Unmade, claimed, bare] using missing, rfl⟩
        · simp only [Prog.ensures_bind]
          refine (yields_createDiskCache dev bare).mono fun r d' created => ?_
          push Not at missing
          have able : Makes p k dev i caches :=
            ⟨claimed, bare, by simpa using missing.1, by simpa using missing.2⟩
          exact .inr ⟨i, caches, r.2, able, rfl, created⟩

end Functions

/-- The same for the caches that exist and for what is in them. -/
abbrev Both {α : Type} (pf : Platform E) (prog : Shim α) (x : World × Disk E)
    (post : α → World × Disk E → Prop) : Prop :=
  prog.Ensures (answers.prod (stores pf)) (fun _ _ => True) x post

/-- A step of an application that keeps to the rules. -/
def Hooks (pf : Platform E) (p : Process) (s : State) (d : Disk E) (a : Action) (s' : State)
    (d' : Disk E) : Prop :=
  Lawful s a ∧
    match a with
    | .advance t => ∃ cache phase handed world,
        (advance p s.cache (s.threads t)).Runs (answers.prod (stores pf)) (s.world, d)
          (cache, phase, handed) (world, d') ∧ s' = s.moved t cache phase handed world
    | _ => (system p).step s a s' ∧ d' = d

theorem Hooks.lawful {pf : Platform E} {p : Process} {s s' : State} {d d' : Disk E} {a : Action}
    (step : Hooks pf p s d a s' d') : (PipelineBatches.lawful p).step s a s' := by
  obtain ⟨rules, made⟩ := step
  cases a with
  | advance t =>
      obtain ⟨cache, phase, handed, world, run, rfl⟩ := made
      exact ⟨⟨cache, phase, handed, world, run.prod.1, rfl⟩, rules⟩
  | call t e => exact ⟨made.1, rules⟩
  | resolve fns => exact ⟨made.1, rules⟩

/-- Files that are opened are descriptor 0, it is always the same time, a batch compiles `made`,
and a driver that finds nothing in a blob starts empty. -/
def serve (pf : Platform E) (made : List E) (x : World × Disk E) :
    (op : Call) → Option (Answer op × (World × Disk E))
  | .createPipelineCache owner dev initial =>
      (freeHandle x.1.caches).map fun pc =>
        (some pc, x.1.addCache pc dev owner,
          x.2.fill pc (if initial = [] then [] else (pf.blobs.decode initial).getD []))
  | .getuid => some (pf.uid, x)
  | .systemPropertyGet name => some (x.2.props name, x)
  | .malloc _ => some (true, x)
  | .nowNs => some (1, x)
  | .openRead path =>
      match x.2.files path with
      | some _ => some (some 0, x.1, x.2.opened 0 path)
      | none => some (none, x)
  | .openWrite path => some (some 0, x.1, (x.2.put path (some [])).opened 0 path)
  | .fstatSize fd => some ((x.2.files (x.2.fds fd)).map List.length, x)
  | .read fd room => some ((x.2.files (x.2.fds fd)).map (List.take room), x)
  | .write fd data =>
      some (some data.length, x.1,
        x.2.put (x.2.fds fd) ((x.2.files (x.2.fds fd)).map (· ++ data)))
  | .close _ => some (true, x)
  | .rename old new =>
      some ((x.2.files old).isSome, x.1, if (x.2.files old).isSome then
        (x.2.put new (x.2.files old)).put old none else x.2)
  | .unlink path => some ((x.2.files path).isSome, x.1, x.2.put path none)
  | .mergePipelineCaches _ dst srcs =>
      some (.success, x.1, x.2.fill dst (srcs.flatMap x.2.contents ∪ x.2.contents dst))
  | .createPipelines _ pc _ =>
      some (.success, x.1, { x.2.fill pc (made ∪ x.2.contents pc) with made := made })
  | .getPipelineCacheSize _ pc =>
      some ((.success, (pf.blobs.encode (x.2.contents pc)).length), x)
  | .getPipelineCacheData _ pc _ => some ((.success, pf.blobs.encode (x.2.contents pc)), x)
  | op => some ((respond x.2.props x.1 op).1, (respond x.2.props x.1 op).2, x.2)

theorem serve_allowed {pf : Platform E} {made : List E} (recent : ∀ e ∈ made, pf.recent e)
    (x : World × Disk E) (op : Call) (r : Answer op × (World × Disk E))
    (served : serve pf made x op = some r) : answers.prod (stores pf) x op r.1 r.2 := by
  cases op
  case createPipelineCache owner dev initial =>
    obtain ⟨pc, found, rfl⟩ := Option.map_eq_some_iff.mp served
    obtain ⟨handle, fresh⟩ := freeHandle_spec found
    refine ⟨⟨handle, fresh, rfl⟩, _, ?_, rfl⟩
    by_cases empty : initial = []
    · exact .inl (if_pos empty)
    · rw [if_neg empty]
      cases decoded : pf.blobs.decode initial with
      | none => exact .inl rfl
      | some es => exact .inr ⟨empty, decoded⟩
  case openRead path =>
    simp only [serve] at served
    split at served
    · next data file =>
        obtain rfl := Option.some.inj served
        exact ⟨rfl, by simp [file], rfl⟩
    · next missing =>
        obtain rfl := Option.some.inj served
        exact ⟨rfl, missing, rfl⟩
  case createPipelines dev pc n =>
    obtain rfl := Option.some.inj served
    refine ⟨rfl, made, _, fun e member => ?_, fun _ => rfl, rfl⟩
    rcases List.mem_union_iff.mp member with new | old
    · exact .inr ⟨new, recent e new⟩
    · exact .inl old
  case mergePipelineCaches dev dst srcs =>
    obtain rfl := Option.some.inj served
    exact ⟨rfl, _, fun _ member => member, fun _ => rfl, rfl⟩
  case getPipelineCacheSize dev pc =>
    obtain rfl := Option.some.inj served
    exact ⟨rfl, fun _ => rfl, fun _ => rfl, rfl⟩
  case getPipelineCacheData dev pc room =>
    obtain rfl := Option.some.inj served
    exact ⟨rfl, fun _ _ => rfl, fun _ => rfl, rfl⟩
  case malloc size =>
    obtain rfl := Option.some.inj served
    exact ⟨rfl, fun _ => rfl, rfl⟩
  case createDevice =>
    obtain rfl := Option.some.inj served
    exact ⟨respond_allowed x.2.props x.1 .createDevice, rfl⟩
  all_goals
    obtain rfl := Option.some.inj served
    first
      | exact ⟨rfl, rfl, rfl⟩
      | exact ⟨rfl, rfl⟩

end XdPlus.Vulkan.CacheFiles
