/- Module: XdPlus/Vulkan/CacheSaving
   source: vulkan/vkshim.c, save_disk_cache, cap_bytes
   digest: The cache file is replaced as a whole or not at all, whatever fails on the way. -/

import XdPlus.Base.Machine
import XdPlus.Vulkan.PipelineCache

set_option autoImplicit false
set_option relaxedAutoImplicit false

namespace XdPlus.Vulkan.CacheSaving

open XdPlus.Base Common Driver PipelineCache

/-- `served` holds the complete serialisations the driver has returned since the latest call of
`save_disk_cache` began, `placed` what a `rename` has moved since then. -/
structure Disk where
  files : String → Option Bytes
  fds : Nat → String
  props : PropertyStore
  served : List Bytes
  placed : Option Bytes

def Disk.put (d : Disk) (path : String) (data : Option Bytes) : Disk :=
  { d with files := Function.update d.files path data }

/-- The driver writes at most what it is given room for. Every system call may fail; a `write`
may leave any beginning of its data behind, whatever it returns, but no less than it says. -/
def outcomes : Prog.Environment Call Answer Disk := fun d op ans d' =>
  match op, ans with
  | .systemPropertyGet name, v => v = d.props name ∧ d' = d
  | .getPipelineCacheData _ _ room, (.success, data) =>
      data.length ≤ room ∧ d' = { d with served := data :: d.served }
  | .openWrite path, some fd =>
      d' = { d.put path (some []) with fds := Function.update d.fds fd path }
  | .write fd data, n => ∃ k, k ≤ data.length ∧ (∀ m, n = some m → m = k) ∧
      d' = d.put (d.fds fd) ((d.files (d.fds fd)).map (· ++ data.take k))
  | .rename old new, true =>
      (d.files old).isSome = true ∧
        d' = { (d.put new (d.files old)).put old none with placed := d.files old }
  | .unlink path, true => d' = d.put path none
  | _, _ => d' = d

/-- The name the new content is written under. -/
def tmpPath (path : String) : String := path ++ ".tmp"

/-- The cache as the latest call has returned it, and what is left of the call under way. -/
structure Config where
  cache : DevCache
  disk : Disk
  code : Option (Shim DevCache)

inductive Action where
  | call (force : Bool) (props : PropertyStore)
  | run (op : Call) (ans : Answer op)
  | finish

/-- `save_disk_cache` on one cache, again and again. The properties are as the call finds
them. -/
def machine (p : Process) (fns : CacheFns) : Machine Config Action where
  init s := s.code = none
  step s a s' :=
    match a with
    | .call force props =>
        s.code = none ∧ s'.cache = s.cache ∧
          s'.disk = { s.disk with props := props, served := [], placed := none } ∧
          s'.code = some (saveDiskCache p fns s.cache force)
    | .run op ans =>
        ∃ next, s.code = some (.ask op next) ∧ outcomes s.disk op ans s'.disk ∧
          s'.cache = s.cache ∧ s'.code = some (next ans)
    | .finish =>
        s.code = some (.ret s'.cache) ∧ s'.disk = s.disk ∧ s'.code = none

/-- The cap a call goes by. -/
def cap (p : Process) (d : Disk) : Nat := capOf p d.props "vkcachemax" cacheMaxMb

/-- The recorded size is that of the file at the end of a call that has replaced the file, and
otherwise what it was. -/
def SizeFollows (s : Config) : Action → Config → Prop
  | .finish, s' =>
      match s.disk.placed with
      | none => s'.cache.lastSavedSize = s.cache.lastSavedSize
      | some data =>
          s'.cache.lastSavedSize = data.length ∧ s'.disk.files s.cache.path = some data
  | _, s' => s'.cache = s.cache

/-- One step: the file changes by the `rename` only, and then to a complete serialisation
within the cap. -/
structure AllOrNothing (p : Process) (s : Config) (a : Action) (s' : Config) : Prop where
  path : s'.cache.path = s.cache.path
  file : s'.disk.files s.cache.path = s.disk.files s.cache.path ∨
    a = .run (.rename (tmpPath s.cache.path) s.cache.path) true ∧
      ∃ data ∈ s.disk.served, s'.disk.files s.cache.path = some data ∧
        s'.disk.placed = some data ∧ data.length ≤ cap p s.disk
  size : SizeFollows s a s'

section Calls

variable {p : Process} {fns : CacheFns} {c : DevCache} {d : Disk}

/-- Nothing is done to the file but to move a complete serialisation over it. -/
def Orderly (p : Process) (path : String) (d : Disk) : Call → Prop
  | .openWrite other | .unlink other => other ≠ path
  | .write fd _ => d.fds fd ≠ path
  | .rename old new => old = tmpPath path ∧ new = path ∧
      ∃ data ∈ d.served, d.files old = some data ∧ data.length ≤ cap p d
  | _ => True

/-- The recorded size goes with what has been moved. -/
def Booked (c c' : DevCache) (d : Disk) : Prop :=
  c'.path = c.path ∧
    match d.placed with
    | none => c'.lastSavedSize = c.lastSavedSize
    | some data => c'.lastSavedSize = data.length ∧ d.files c.path = some data

private theorem Booked.still (unmoved : d.placed = none) {c' : DevCache} (path : c'.path = c.path)
    (size : c'.lastSavedSize = c.lastSavedSize) : Booked c c' d := by
  refine ⟨path, ?_⟩
  rw [unmoved]
  exact size

private theorem tmpPath_ne (path : String) : tmpPath path ≠ path := by
  intro same
  have length := congrArg String.length same
  rw [tmpPath, String.length_append] at length
  have : ".tmp".length = 4 := rfl
  omega

/-- The serialisation is within the cap and nothing has been moved; `content` is what stands
under the temporary name. -/
private structure Prepared (p : Process) (path : String) (data content : Bytes) (d : Disk) :
    Prop where
  tmp : d.files (tmpPath path) = some content
  served : data ∈ d.served
  fits : data.length ≤ cap p d
  unmoved : d.placed = none

private theorem ensures_rename {data : Bytes} (ready : Prepared p c.path data data d) :
    (Shim.call (.rename (tmpPath c.path) c.path) >>= fun ok =>
        (if ok = true then pure { c with lastSavedSize := data.length } else pure c :
          Shim DevCache)).Ensures outcomes (Orderly p c.path) d (Booked c) := by
  simp only [Prog.ensures_bind, Prog.ensures_call]
  refine ⟨⟨rfl, rfl, data, ready.served, ready.tmp, ready.fits⟩, fun ok d' answered => ?_⟩
  cases ok with
  | false =>
      obtain rfl : d' = d := answered
      exact Booked.still ready.unmoved rfl rfl
  | true =>
      obtain ⟨-, rfl⟩ := answered
      refine ⟨rfl, ?_⟩
      simp only [ready.tmp, Disk.put, true_and]
      rw [Function.update_of_ne (tmpPath_ne c.path).symm, Function.update_self]

private theorem ensures_replaceFile {data : Bytes} (served : data ∈ d.served)
    (fits : data.length ≤ cap p d) (unmoved : d.placed = none) :
    (replaceFile c data).Ensures outcomes (Orderly p c.path) d (Booked c) := by
  have apart := tmpPath_ne c.path
  simp only [replaceFile, Prog.ensures_bind, Prog.ensures_call]
  refine ⟨apart, fun opened d₁ answered => ?_⟩
  cases opened with
  | none =>
      obtain rfl : d₁ = d := answered
      exact Booked.still unmoved rfl rfl
  | some fd =>
      have named : d₁.fds fd = tmpPath c.path := by
        rw [show d₁ = _ from answered]
        exact Function.update_self ..
      have empty : Prepared p c.path data [] d₁ := by
        rw [show d₁ = _ from answered]
        exact ⟨Function.update_self .., served, fits, unmoved⟩
      simp only [Prog.ensures_bind, Prog.ensures_call]
      refine ⟨fun same => apart (named.symm.trans same), ?_⟩
      rintro n d₂ ⟨k, -, counted, written⟩
      have partly : Prepared p c.path data (data.take k) d₂ := by
        rw [written, named]
        refine ⟨?_, empty.served, empty.fits, empty.unmoved⟩
        simp only [Disk.put, Function.update_self, empty.tmp, Option.map_some, List.nil_append]
      have given_up : ∀ d₃, d₃.placed = none →
          (Shim.call (.close fd) >>= fun _ => Shim.call (.unlink (tmpPath c.path)) >>= fun _ =>
            (pure c : Shim DevCache)).Ensures outcomes (Orderly p c.path) d₃ (Booked c) := by
        intro d₃ unmoved
        simp only [Prog.ensures_bind, Prog.ensures_call]
        refine ⟨trivial, fun _ d₄ closed => ?_⟩
        obtain rfl : d₄ = d₃ := closed
        refine ⟨apart, fun gone d₅ unlinked => ?_⟩
        cases gone with
        | false =>
            obtain rfl : d₅ = d₄ := unlinked
            exact Booked.still unmoved rfl rfl
        | true =>
            obtain rfl : d₅ = d₄.put (tmpPath c.path) none := unlinked
            have unmoved' : (d₄.put (tmpPath c.path) none).placed = none := unmoved
            exact Booked.still unmoved' rfl rfl
      split_ifs with whole
      · have full : Prepared p c.path data data d₂ := by
          obtain rfl : data.length = k := counted _ whole
          rwa [List.take_length] at partly
        simp only [Prog.ensures_bind, Prog.ensures_call]
        refine ⟨trivial, fun closed d₃ answered => ?_⟩
        obtain rfl : d₃ = d₂ := answered
        split_ifs with done
        · exact ensures_rename full
        · exact given_up d₃ full.unmoved
      · exact given_up d₂ partly.unmoved

theorem ensures_saveDiskCache (force : Bool) (unmoved : d.placed = none) :
    (saveDiskCache p fns c force).Ensures outcomes (Orderly p c.path) d (Booked c) := by
  unfold saveDiskCache
  split_ifs with none_there
  · exact Booked.still unmoved rfl rfl
  simp only [Prog.ensures_bind, Prog.ensures_call]
  refine ⟨trivial, ?_⟩
  rintro now d₁ rfl
  split_ifs with early
  · exact Booked.still unmoved rfl rfl
  simp only [Prog.ensures_bind, Prog.ensures_call]
  refine ⟨trivial, ?_⟩
  rintro ⟨r, size⟩ d₂ rfl
  split_ifs with nothing
  · exact Booked.still unmoved rfl rfl
  simp only [Prog.ensures_bind]
  refine (ensures_capBytes Disk.props (fun _ => trivial)
    fun _ _ _ answered => answered).mono ?_
  rintro _ d₃ ⟨rfl, rfl⟩
  split_ifs with over_cap
  · exact Booked.still unmoved rfl rfl
  simp only [Prog.ensures_bind, Prog.ensures_call]
  refine ⟨trivial, ?_⟩
  rintro got d₄ rfl
  split_ifs with room
  · simp only [Prog.ensures_bind, Prog.ensures_call]
    refine ⟨trivial, ?_⟩
    rintro ⟨r', data⟩ d₅ answered
    cases r' with
    | success =>
        obtain ⟨short, rfl⟩ := answered
        have within : data.length ≤ capOf p d₄.props "vkcachemax" cacheMaxMb := by omega
        simp only [ne_eq, not_true_eq_false, if_false]
        exact ensures_replaceFile (c := { c with lastSaveNs := now })
          (d := { d₄ with served := data :: d₄.served }) (List.mem_cons_self ..) within unmoved
    | incomplete =>
        obtain rfl : d₅ = d₄ := answered
        exact Booked.still unmoved rfl rfl
    | error code =>
        obtain rfl : d₅ = d₄ := answered
        exact Booked.still unmoved rfl rfl
  · exact Booked.still unmoved rfl rfl

end Calls

section Runs

variable {p : Process} {fns : CacheFns} {s s' : Config} {a : Action}

/-- What is left of a call is orderly and will leave the books right. -/
private def Safe (p : Process) (s : Config) : Prop :=
  match s.code with
  | none => True
  | some code => code.Ensures outcomes (Orderly p s.cache.path) s.disk (Booked s.cache)

private theorem file_of_orderly {path : String} {d d' : Disk} {op : Call} {ans : Answer op}
    (orderly : Orderly p path d op) (answered : outcomes d op ans d') :
    d'.files path = d.files path ∨
      Action.run op ans = .run (.rename (tmpPath path) path) true ∧
        ∃ data ∈ d.served, d'.files path = some data ∧ d'.placed = some data ∧
          data.length ≤ cap p d := by
  cases op with
  | openWrite other =>
      cases ans with
      | none =>
          obtain rfl : d' = d := answered
          exact .inl rfl
      | some fd =>
          obtain rfl : d' = _ := answered
          exact .inl (Function.update_of_ne (Ne.symm orderly) _ _)
  | write fd data =>
      obtain ⟨k, -, -, rfl⟩ := answered
      exact .inl (Function.update_of_ne (Ne.symm orderly) _ _)
  | unlink other =>
      cases ans with
      | false =>
          obtain rfl : d' = d := answered
          exact .inl rfl
      | true =>
          obtain rfl : d' = _ := answered
          exact .inl (Function.update_of_ne (Ne.symm orderly) _ _)
  | rename old new =>
      obtain ⟨rfl, rfl, data, served, tmp, fits⟩ := orderly
      cases ans with
      | false =>
          obtain rfl : d' = d := answered
          exact .inl rfl
      | true =>
          obtain ⟨-, rfl⟩ := answered
          refine .inr ⟨rfl, data, served, ?_, tmp, fits⟩
          simp only [Disk.put, tmp]
          rw [Function.update_of_ne (tmpPath_ne new).symm, Function.update_self]
  | getPipelineCacheData dev pc room =>
      obtain ⟨r, data⟩ := ans
      cases r with
      | success =>
          obtain ⟨-, rfl⟩ := answered
          exact .inl rfl
      | incomplete =>
          obtain rfl : d' = d := answered
          exact .inl rfl
      | error code =>
          obtain rfl : d' = d := answered
          exact .inl rfl
  | systemPropertyGet name =>
      obtain ⟨-, rfl⟩ := answered
      exact .inl rfl
  | _ =>
      obtain rfl : d' = d := answered
      exact .inl rfl

private theorem safe_step (safe : Safe p s) (step : (machine p fns).step s a s') :
    Safe p s' ∧ AllOrNothing p s a s' := by
  cases a with
  | call force props =>
      obtain ⟨idle, cache, disk, code⟩ := step
      refine ⟨?_, ?_, .inl ?_, cache⟩
      · rw [Safe, code]
        simp only [cache]
        refine ensures_saveDiskCache force ?_
        rw [disk]
      · rw [cache]
      · rw [disk]
  | run op ans =>
      obtain ⟨next, code, answered, cache, code'⟩ := step
      simp only [Safe, code] at safe
      obtain ⟨orderly, further⟩ := safe
      refine ⟨?_, ?_, file_of_orderly orderly answered, cache⟩
      · rw [Safe, code']
        simp only [cache]
        exact further ans s'.disk answered
      · rw [cache]
  | finish =>
      obtain ⟨code, disk, code'⟩ := step
      simp only [Safe, code] at safe
      obtain ⟨path, size⟩ : Booked s.cache s'.cache s.disk := safe
      refine ⟨?_, path, .inl (by rw [disk]), ?_⟩
      · rw [Safe, code']
        trivial
      · simp only [SizeFollows, disk]
        exact size

/-- Whatever fails in whichever of a sequence of calls, no step leaves anything but the old
file or a complete new one in place, and the recorded size follows the file. -/
theorem saves_all_or_nothing (p : Process) (fns : CacheFns) (s s' : Config) (a : Action)
    (reach : (machine p fns).Reachable s) (step : (machine p fns).step s a s') :
    AllOrNothing p s a s' := by
  have safe : Safe p s := by
    refine reach.invariant (I := Safe p) ?_ ?_
    · intro s idle
      rw [Safe, show s.code = none from idle]
      trivial
    · intro s a s' _ safe step
      exact (safe_step safe step).1
  exact (safe_step safe step).2

private theorem reachable_runs {code : Shim DevCache} {c c' : DevCache} {d d' : Disk}
    (reach : (machine p fns).Reachable ⟨c, d, some code⟩) (runs : code.Runs outcomes d c' d') :
    (machine p fns).Reachable ⟨c, d', some (.ret c')⟩ := by
  induction code generalizing d with
  | ret a =>
      obtain ⟨rfl, rfl⟩ := runs
      exact reach
  | ask op next ih =>
      obtain ⟨ans, mid, answered, rest⟩ := runs
      exact ih ans (reach.next (l := .run op ans) ⟨next, rfl, answered, rfl, rfl⟩) rest

/-- The driver has three bytes, and the disk has room for so many; nothing else fails. -/
def respond (space : Nat) (d : Disk) : (op : Call) → Answer op × Disk
  | .systemPropertyGet name => (d.props name, d)
  | .getPipelineCacheSize .. => ((.success, 3), d)
  | .getPipelineCacheData _ _ room =>
      ((.success, [1, 2, 3].take room), { d with served := [1, 2, 3].take room :: d.served })
  | .malloc _ => (true, d)
  | .openWrite path =>
      (some 7, { d.put path (some []) with fds := Function.update d.fds 7 path })
  | .write fd data =>
      (some (min space data.length),
        d.put (d.fds fd) ((d.files (d.fds fd)).map (· ++ data.take space)))
  | .close _ => (true, d)
  | .rename old new =>
      if (d.files old).isSome then
        (true, { (d.put new (d.files old)).put old none with placed := d.files old })
      else (false, d)
  | .unlink path => (true, d.put path none)
  | _ => (default, d)

private theorem respond_outcomes (space : Nat) (d : Disk) (op : Call) :
    outcomes d op (respond space d op).1 (respond space d op).2 := by
  cases op with
  | write fd data =>
      refine ⟨min space data.length, Nat.min_le_right _ _, ?_, ?_⟩
      · intro m same
        exact (Option.some.inj same).symm
      · simp only [respond, ← List.take_eq_take_min]
  | rename old new =>
      by_cases there : (d.files old).isSome = true
      · simp [respond, there, outcomes]
      · simp [respond, there, outcomes]
  | getPipelineCacheData dev pc room => exact ⟨List.length_take_le _ _, rfl⟩
  | systemPropertyGet name => exact ⟨rfl, rfl⟩
  | _ => exact rfl

/-- What a forced call leaves. -/
def saved (p : Process) (fns : CacheFns) (c : DevCache) (space : Nat) (d : Disk) :
    DevCache × Disk :=
  (saveDiskCache p fns c true).eval (respond space) { d with served := [], placed := none }

private theorem reachable_saved {c : DevCache} {d : Disk} (space : Nat)
    (reach : (machine p fns).Reachable ⟨c, d, none⟩) :
    ∃ s, (machine p fns).Reachable s ∧ s.disk = (saved p fns c space d).2 ∧ s.cache = c ∧
      (machine p fns).step s .finish
        ⟨(saved p fns c space d).1, (saved p fns c space d).2, none⟩ := by
  have began : (machine p fns).Reachable
      ⟨c, { d with served := [], placed := none }, some (saveDiskCache p fns c true)⟩ :=
    reach.next (l := .call true d.props) ⟨rfl, rfl, rfl, rfl⟩
  have runs := Prog.runs_eval (respond_outcomes space) (saveDiskCache p fns c true)
    { d with served := [], placed := none }
  exact ⟨_, reachable_runs began runs, rfl, rfl, rfl, rfl, rfl⟩

def game : Process := ⟨"app", ⟨true, true, true, true⟩, 64⟩

/-- A cache that was made from a file of one byte. -/
def oldCache : DevCache :=
  { DevCache.zero with dev := 1, pc := 5, path := "/c", lastSavedSize := 1 }

def oldDisk : Disk :=
  ⟨fun path => if path = "/c" then some [9] else none, fun _ => "", fun _ => "", [], none⟩

/-- One write comes short, the next does not. -/
def shortSave : DevCache × Disk := saved game game.exported oldCache 2 oldDisk

def wholeSave : DevCache × Disk := saved game game.exported shortSave.1 3 shortSave.2

/-- The old file stays with its size; the next save replaces both. -/
theorem saves_all_or_nothing_afterShort : ∃ s s' t t',
    (machine game game.exported).Reachable s ∧ (machine game game.exported).step s .finish s' ∧
      s'.cache.lastSavedSize = 1 ∧ s'.disk.files "/c" = some [9] ∧
      (machine game game.exported).Reachable t ∧ (machine game game.exported).step t .finish t' ∧
      t'.cache.lastSavedSize = 3 ∧ t'.disk.files "/c" = some [1, 2, 3] := by
  have start : (machine game game.exported).Reachable ⟨oldCache, oldDisk, none⟩ := .start rfl
  obtain ⟨s, first, s_disk, s_cache, returns⟩ := reachable_saved 2 start
  obtain ⟨t, second, t_disk, t_cache, finishes⟩ := reachable_saved 3 (first.next returns)
  change t.disk = wholeSave.2 at t_disk
  change s.disk = shortSave.2 at s_disk
  have unmoved : shortSave.2.placed = none := by decide +kernel
  have old : shortSave.2.files "/c" = some [9] := by decide +kernel
  have placed : wholeSave.2.placed = some [1, 2, 3] := by decide +kernel
  have path : shortSave.1.path = "/c" := by decide +kernel
  have kept := (saves_all_or_nothing game game.exported _ _ .finish first returns).size
  have replaced := (saves_all_or_nothing game game.exported _ _ .finish second finishes).size
  simp only [SizeFollows, s_disk, unmoved, s_cache] at kept
  simp only [SizeFollows, t_disk, placed, t_cache] at replaced
  refine ⟨s, _, t, _, first, returns, kept, old, second, finishes, replaced.1, ?_⟩
  rw [← path]
  exact replaced.2

end Runs

end XdPlus.Vulkan.CacheSaving
