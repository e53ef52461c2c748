/- Module: XdPlus/Vulkan/PipelineCache
   source: vulkan/vkshim.c, struct dev_cache .. drain_pending, compile_batch, the
     pipeline-cache hooks, drop_disk_cache
   digest: The per-device pipeline caches, their file, and the sections that run under
     cache_mu. -/

import XdPlus.Base.Framing
import XdPlus.Base.SlotTable
import XdPlus.Vulkan.Driver

/-!
Each `def` that takes and returns a `CacheState` runs with `cache_mu` held from its first
call to its last. Log lines, and the flags that keep them from repeating, are left out.
-/

set_option autoImplicit false
set_option relaxedAutoImplicit false

namespace XdPlus.Vulkan.PipelineCache

open XdPlus.Base Common Driver

def cacheFile : String := "vkshim.pcache"

def cacheGenFile : String := "vkshim.gen"

def cacheGenProp : String := "persist.sys.xdplus.vkcachegen"

def progressProp : String := "sys.xdplus.vkcompile"

def slowNs : Nat := 2 * 1000000000

def saveMinIntervalNs : Nat := 30 * 1000000000

def cacheMaxMb : Nat := 64

def pendingMax : Nat := 8

def devCacheMax : Nat := 4

def appCacheMax : Nat := 16

/-- `pending` is the array up to `pending_count`; an empty `path` is no file. -/
structure DevCache where
  dev : VkDevice
  pc : VkPipelineCache
  path : String
  lastSavedSize : Nat
  lastSaveNs : Nat
  frozen : Bool
  masterInUse : Bool
  pending : List VkPipelineCache
  warnedPendingFull : Bool
  deriving DecidableEq, Repr

def DevCache.zero : DevCache := ⟨0, 0, "", 0, 0, false, false, [], false⟩

abbrev DevCaches := Fin devCacheMax → DevCache

/-- `n` counts threads, so it stays far below where an `unsigned` wraps. -/
structure AppCache where
  pc : VkPipelineCache
  n : Nat
  deriving DecidableEq, Repr

abbrev AppInflight := Fin appCacheMax → AppCache

/-- Which of `real_cpc`, `real_mpc`, `real_gpcd`, `real_dpc` are there. -/
structure CacheFns where
  cpc : Bool
  mpc : Bool
  gpcd : Bool
  dpc : Bool
  deriving DecidableEq, Repr

/-- What `cache_mu` protects, and the pointers next to it. -/
structure CacheState where
  devCaches : DevCaches
  appInflight : AppInflight
  fns : CacheFns
  compiledCount : Nat
  slowSession : Bool
  cacheHarvest : Gate
  cachePrime : Gate

def CacheState.zero : CacheState where
  devCaches _ := DevCache.zero
  appInflight _ := ⟨0, 0⟩
  fns := ⟨false, false, false, false⟩
  compiledCount := 0
  slowSession := false
  cacheHarvest := none
  cachePrime := none

/-- What does not change while a process lives: `pkg_name()`, what the blob exports, and
the width of `size_t` and `unsigned long`. -/
structure Process where
  pkgName : String
  exported : CacheFns
  sizeBits : Nat

def cacheLookup (caches : DevCaches) (dev : VkDevice) : Option (Fin devCacheMax) :=
  if dev = 0 then none else firstIndex fun i => (caches i).dev = dev

/-- The slot of `dev`, a fresh one if it had none. -/
def cacheClaim (caches : DevCaches) (dev : VkDevice) : Option (Fin devCacheMax × DevCaches) :=
  match cacheLookup caches dev with
  | some i => some (i, caches)
  | none =>
      match firstIndex fun i => (caches i).dev = 0 with
      | some i => some (i, Function.update caches i { DevCache.zero with dev := dev })
      | none => none

def CacheState.setSlot (s : CacheState) (i : Fin devCacheMax) (c : DevCache) : CacheState :=
  { s with devCaches := Function.update s.devCaches i c }

/-- Whether the handle is tracked, and the table. -/
def appCacheRef (table : AppInflight) (pc : VkPipelineCache) : Bool × AppInflight :=
  match firstIndex fun i => (table i).pc = pc with
  | some i => (true, Function.update table i ⟨pc, (table i).n + 1⟩)
  | none =>
      match firstIndex fun i => (table i).pc = 0 with
      | some i => (true, Function.update table i ⟨pc, 1⟩)
      | none => (false, table)

/-- Whether this batch was the last user, and the table. -/
def appCacheUnref (table : AppInflight) (pc : VkPipelineCache) : Bool × AppInflight :=
  match firstIndex fun i => (table i).pc = pc with
  | some i =>
      if (table i).n = 1 then (true, Function.update table i ⟨0, 0⟩)
      else (false, Function.update table i ⟨pc, (table i).n - 1⟩)
  | none => (false, table)

/-- The loop of `shim_DestroyPipelineCache` over `app_inflight`. -/
def appCacheForget (table : AppInflight) (pc : VkPipelineCache) : AppInflight :=
  match firstIndex fun i => (table i).pc = pc with
  | some i => Function.update table i ⟨0, 0⟩
  | none => table

def resolveCacheFns (exported fns : CacheFns) : CacheFns where
  cpc := fns.cpc || exported.cpc
  mpc := fns.mpc || exported.mpc
  gpcd := fns.gpcd || exported.gpcd
  dpc := fns.dpc || exported.dpc

/-- `prop_on`, asking for the property only while the gate is unread. -/
def readPropOn (name : String) (gate : Gate) : Shim (Bool × Gate) := do
  match gate with
  | some _ => return propOn (fun _ => "") name gate
  | none =>
      let v ← Shim.call (.systemPropertyGet name)
      return propOn (fun _ => v) name gate

/-- `prop_explicit_on`, likewise. -/
def readPropExplicitOn (name : String) (gate : Gate) : Shim (Bool × Gate) := do
  match gate with
  | some _ => return propExplicitOn (fun _ => "") name gate
  | none =>
      let v ← Shim.call (.systemPropertyGet name)
      return propExplicitOn (fun _ => v) name gate

/-- `strtoul(s, NULL, 10)`: the largest value on overflow. -/
def strtoul (bits : Nat) (s : String) : Nat :=
  let (negative, value) := readDecimal s.toList
  if 2 ^ bits ≤ value then 2 ^ bits - 1
  else if negative then (2 ^ bits - value) % 2 ^ bits
  else value

def capBytes (p : Process) (name : String) (defMb : Nat) : Shim Nat := do
  let v ← Shim.call (.systemPropertyGet ("debug.xdplus." ++ name))
  let v ← if v = "" then Shim.call (.systemPropertyGet ("persist.sys.xdplus." ++ name))
    else pure v
  let mb := if v = "" then defMb else strtoul p.sizeBits v % 2 ^ 32
  let mb := if mb = 0 then defMb else mb
  return mb * 1024 * 1024 % 2 ^ p.sizeBits

/-- The cap a property store sets. -/
def capOf (p : Process) (props : PropertyStore) (name : String) (defMb : Nat) : Nat :=
  let v := props ("debug.xdplus." ++ name)
  let v := if v = "" then props ("persist.sys.xdplus." ++ name) else v
  let mb := if v = "" then defMb else strtoul p.sizeBits v % 2 ^ 32
  let mb := if mb = 0 then defMb else mb
  mb * 1024 * 1024 % 2 ^ p.sizeBits

theorem ensures_capBytes {W : Type} {env : Prog.Environment Call Answer W}
    {guard : W → Call → Prop} (store : W → PropertyStore) {w : W} {p : Process} {name : String}
    {defMb : Nat} (fine : ∀ prop, guard w (.systemPropertyGet prop))
    (reads : ∀ prop v w', env w (.systemPropertyGet prop) v w' → v = store w prop ∧ w' = w) :
    (capBytes p name defMb).Ensures env guard w
      (fun cap w' => cap = capOf p (store w) name defMb ∧ w' = w) := by
  simp only [capBytes, Prog.ensures_bind, Prog.ensures_call]
  refine ⟨fine _, fun v w' answered => ?_⟩
  obtain ⟨rfl, rfl⟩ := reads _ _ _ answered
  split_ifs with unset
  · refine ⟨fine _, fun v w₂ answered => ?_⟩
    obtain ⟨rfl, rfl⟩ := reads _ _ _ answered
    exact ⟨by simp only [capOf, unset, if_true], rfl⟩
  · exact ⟨by simp only [capOf, unset, if_false], rfl⟩

/-- `char v[92]` holds 91 characters. -/
def publishProgress (p : Process) (compiledCount : Nat) : Shim Unit :=
  let v := p.pkgName ++ ":" ++ toString compiledCount
  Shim.call (.systemPropertySet progressProp (String.ofList (v.toList.take 91)))

def aidAppStart : Nat := 10000

def aidUserOffset : Nat := 100000

def aidIsolatedStart : Nat := 99000

def cachePathForSelf (p : Process) : Shim (Option String) := do
  let uid ← Shim.call .getuid
  let appid := uid % aidUserOffset
  if appid < aidAppStart ∨ aidIsolatedStart ≤ appid then return none
  else
    return some ("/data/user/" ++ toString (uid / aidUserOffset) ++ "/" ++ p.pkgName ++
      "/cache/" ++ cacheFile)

/-- The stamp file next to the cache file. -/
def genPath (path : String) : String :=
  String.ofList (path.toList.take (path.length - cacheFile.length)) ++ cacheGenFile

/-- What `open`, `read` and `close` leave in `char stamp[92]`, up to the first NUL. -/
def readStamp (path : String) : Shim Bytes := do
  match ← Shim.call (.openRead path) with
  | none => return []
  | some fd =>
      let r ← Shim.call (.read fd 91)
      let _ ← Shim.call (.close fd)
      return (r.getD []).takeWhile (· ≠ 0)

def dropCacheIfStale (path : String) : Shim Unit := do
  let gen ← Shim.call (.systemPropertyGet cacheGenProp)
  if gen = "" then return ()
  else
    let stamp ← readStamp (genPath path)
    if stamp = gen.toUTF8.toList then return ()
    else
      let _ ← Shim.call (.unlink path)
      match ← Shim.call (.openWrite (genPath path)) with
      | none => return ()
      | some fd =>
          let _ ← Shim.call (.write fd gen.toUTF8.toList)
          let _ ← Shim.call (.close fd)
          return ()

/-- `read(fd, malloc(st_size), st_size)`, empty unless all of it came. -/
def readWhole (fd : Nat) : Shim Bytes := do
  match ← Shim.call (.fstatSize fd) with
  | none => return []
  | some size =>
      if size = 0 then return []
      else if ← Shim.call (.malloc size) then
        match ← Shim.call (.read fd size) with
        | some data => return if data.length = size then data else []
        | none => return []
      else
        return []

def loadInitial (path : String) : Shim Bytes := do
  if path = "" then return []
  else
    match ← Shim.call (.openRead path) with
    | none => return []
    | some fd =>
        let data ← readWhole fd
        let _ ← Shim.call (.close fd)
        return data

/-- `real_cpc` with the file's content, and once more without if the driver refuses it. -/
def createPrimed (dev : VkDevice) (initial : Bytes) : Shim (Option VkPipelineCache) := do
  match ← Shim.call (.createPipelineCache .shim dev initial) with
  | some pc => return some pc
  | none =>
      if initial = [] then return none
      else Shim.call (.createPipelineCache .shim dev [])

/-- The cache for a slot that has its path, read from the file there. -/
def loadDiskCache (dev : VkDevice) (c : DevCache) : Shim (VkPipelineCache × DevCache) := do
  let c := { c with frozen := false }
  let initial ← loadInitial c.path
  match ← createPrimed dev initial with
  | none => return (0, c)
  | some pc =>
      let now ← Shim.call .nowNs
      return (pc, { c with pc := pc, lastSavedSize := initial.length, lastSaveNs := now })

/-- The part of `ensure_disk_cache` that fills a slot without a cache. A slot keeps its
path where there is no sandbox to take one from. -/
def createDiskCache (p : Process) (dev : VkDevice) (c : DevCache) :
    Shim (VkPipelineCache × DevCache) := do
  match ← cachePathForSelf p with
  | some path =>
      dropCacheIfStale path
      loadDiskCache dev { c with path := path }
  | none => loadDiskCache dev c

def ensureDiskCache (p : Process) (s : CacheState) (dev : VkDevice) :
    Shim (VkPipelineCache × CacheState) := do
  match cacheClaim s.devCaches dev with
  | none => return (0, s)
  | some (i, caches) =>
      let s := { s with devCaches := caches }
      if (caches i).pc ≠ 0 then return ((caches i).pc, s)
      else
        let s := { s with fns := resolveCacheFns p.exported s.fns }
        if s.fns.cpc = false ∨ s.fns.gpcd = false then return (0, s)
        else
          let (pc, c) ← createDiskCache p dev (caches i)
          return (pc, s.setSlot i c)

/-- Write the serialised cache next to its file and move it over. -/
def replaceFile (c : DevCache) (data : Bytes) : Shim DevCache := do
  let tmp := c.path ++ ".tmp"
  match ← Shim.call (.openWrite tmp) with
  | none => return c
  | some fd =>
      let written ← Shim.call (.write fd data)
      let closed ← if written = some data.length then Shim.call (.close fd) else pure false
      if closed then
        if ← Shim.call (.rename tmp c.path) then return { c with lastSavedSize := data.length }
        else return c
      else
        let _ ← Shim.call (.close fd)
        let _ ← Shim.call (.unlink tmp)
        return c

def saveDiskCache (p : Process) (fns : CacheFns) (c : DevCache) (force : Bool) :
    Shim DevCache := do
  if c.pc = 0 ∨ fns.gpcd = false ∨ c.path = "" then return c
  else
    let now ← Shim.call .nowNs
    if force = false ∧ c.lastSaveNs ≠ 0 ∧
        (now + (2 ^ 64 - c.lastSaveNs)) % 2 ^ 64 < saveMinIntervalNs then return c
    else
      let (r, size) ← Shim.call (.getPipelineCacheSize c.dev c.pc)
      if r ≠ .success ∨ size = 0 ∨ size = c.lastSavedSize then return c
      else
        let cap ← capBytes p "vkcachemax" cacheMaxMb
        if cap < size then return { c with frozen := true }
        else
          let c := { c with lastSaveNs := now }
          if ← Shim.call (.malloc size) then
            let (r, data) ← Shim.call (.getPipelineCacheData c.dev c.pc size)
            if r ≠ .success then return c
            else replaceFile c data
          else
            return c

def destroyAll (dev : VkDevice) : List VkPipelineCache → Shim Unit
  | [] => return ()
  | pc :: rest => do
      Shim.call (.destroyPipelineCache dev pc)
      destroyAll dev rest

/-- `if (real_mpc && c->pc != VK_NULL_HANDLE) real_mpc(c->dev, c->pc, ...)`. -/
def mergeInto (fns : CacheFns) (c : DevCache) (srcs : List VkPipelineCache) : Shim Unit := do
  if fns.mpc = true ∧ c.pc ≠ 0 then
    let _ ← Shim.call (.mergePipelineCaches c.dev c.pc srcs)
    return ()
  else
    return ()

def drainPending (fns : CacheFns) (c : DevCache) : Shim DevCache := do
  if c.pending = [] then return c
  else
    mergeInto fns c c.pending
    if fns.dpc then
      destroyAll c.dev c.pending
      return { c with pending := [] }
    else
      return { c with pending := [] }

/-- The tail the three branches of the end section share. -/
def drainAndSave (p : Process) (fns : CacheFns) (c : DevCache) : Shim DevCache := do
  let c ← drainPending fns c
  saveDiskCache p fns c false

/-- The locals of `compile_batch`; `cacheSlot` is `*cache_slot`. -/
structure Batch where
  dev : VkDevice
  appCache : VkPipelineCache
  n : Nat
  ownMaster : Bool
  appTracked : Bool
  scratch : VkPipelineCache
  cacheSlot : VkPipelineCache
  t0 : Nat
  dt : Nat
  deriving DecidableEq, Repr

def Batch.start (dev : VkDevice) (appCache : VkPipelineCache) (n : Nat) : Batch :=
  ⟨dev, appCache, n, false, false, 0, appCache, 0, 0⟩

/-- The first locked section. -/
def batchBegin (p : Process) (s : CacheState) (b : Batch) : Shim (CacheState × Batch) := do
  let (shimCache, s) ← ensureDiskCache p s b.dev
  if b.appCache ≠ 0 then
    let (tracked, table) := appCacheRef s.appInflight b.appCache
    return ({ s with appInflight := table }, { b with appTracked := tracked })
  else
    match cacheLookup s.devCaches b.dev with
    | some i =>
        if shimCache ≠ 0 ∧ (s.devCaches i).masterInUse = false then
          return (s.setSlot i { s.devCaches i with masterInUse := true },
            { b with ownMaster := true, cacheSlot := shimCache })
        else
          return (s, b)
    | none => return (s, b)

/-- The master is taken: a cache of the batch's own. No lock is held. -/
def batchScratch (fns : CacheFns) (b : Batch) : Shim Batch := do
  if b.ownMaster = false ∧ b.appCache = 0 ∧ fns.cpc = true then
    match ← Shim.call (.createPipelineCache .shim b.dev []) with
    | some scratch => return { b with scratch := scratch, cacheSlot := scratch }
    | none => return b
  else
    return b

/-- `run_big_stack`: the driver's compile, up to where the driver has it. -/
def batchCompile (b : Batch) : Shim Batch := do
  let t0 ← Shim.call .nowNs
  let _ ← Shim.call (.createPipelines b.dev b.cacheSlot b.n)
  return { b with t0 := t0 }

/-- The driver is done. -/
def batchCompiled (b : Batch) : Shim Batch := do
  let now ← Shim.call .nowNs
  return { b with dt := (now + (2 ^ 64 - b.t0)) % 2 ^ 64 }

/-- The end of a batch that had the master. -/
def endMaster (p : Process) (s : CacheState) (b : Batch) : Shim CacheState := do
  match cacheLookup s.devCaches b.dev with
  | none => return s
  | some i =>
      let c ← drainAndSave p s.fns { s.devCaches i with masterInUse := false }
      return s.setSlot i c

/-- `last_user = app_tracked ? app_cache_unref(app_cache) : 0`. -/
def appCacheLeave (table : AppInflight) (b : Batch) : Bool × AppInflight :=
  if b.appTracked then appCacheUnref table b.appCache else (false, table)

/-- The end of a batch with an app cache: harvest it if no other batch uses it. -/
def endApp (p : Process) (s : CacheState) (b : Batch) : Shim CacheState := do
  let (lastUser, table) := appCacheLeave s.appInflight b
  let s := { s with appInflight := table }
  if lastUser then
    let (harvest, gate) ← readPropExplicitOn "debug.xdplus.vkcacheharvest" s.cacheHarvest
    let s := { s with cacheHarvest := gate }
    match cacheLookup s.devCaches b.dev with
    | none => return s
    | some i =>
        let c := s.devCaches i
        if harvest = true ∧ s.fns.mpc = true ∧ c.masterInUse = false ∧ c.pc ≠ 0 then
          let _ ← Shim.call (.mergePipelineCaches b.dev c.pc [b.appCache])
          let c ← drainAndSave p s.fns c
          return s.setSlot i c
        else
          return s
  else
    return s

/-- The end of a batch with a cache of its own: merge it, queue it, or drop it. What is
not queued stays in `scratch`. -/
def endScratch (p : Process) (s : CacheState) (b : Batch) : Shim (CacheState × Batch) := do
  match cacheLookup s.devCaches b.dev with
  | none => return (s, b)
  | some i =>
      let c := s.devCaches i
      if c.masterInUse = false ∧ s.fns.mpc = true ∧ c.pc ≠ 0 then
        let _ ← Shim.call (.mergePipelineCaches b.dev c.pc [b.scratch])
        let c ← drainAndSave p s.fns c
        return (s.setSlot i c, b)
      else if c.pending.length < pendingMax then
        return (s.setSlot i { c with pending := c.pending ++ [b.scratch] },
          { b with scratch := 0 })
      else
        return (s.setSlot i { c with warnedPendingFull := true }, b)

/-- `compiled_count` and `slow_session`, at the head of the last locked section. -/
def countBatch (p : Process) (s : CacheState) (b : Batch) : Shim CacheState := do
  let s := { s with
    compiledCount := (s.compiledCount + b.n) % 2 ^ 32
    slowSession := s.slowSession || slowNs < b.dt }
  if s.slowSession then
    publishProgress p s.compiledCount
    return s
  else
    return s

/-- The last locked section. -/
def batchEnd (p : Process) (s : CacheState) (b : Batch) : Shim (CacheState × Batch) := do
  let s ← countBatch p s b
  if b.ownMaster then
    let s ← endMaster p s b
    return (s, b)
  else if b.appCache ≠ 0 then
    let s ← endApp p s b
    return (s, b)
  else if b.scratch ≠ 0 then
    endScratch p s b
  else
    return (s, b)

/-- A scratch cache nothing took over is destroyed. No lock is held. -/
def batchRelease (fns : CacheFns) (b : Batch) : Shim Unit := do
  if b.scratch ≠ 0 ∧ fns.dpc = true then
    Shim.call (.destroyPipelineCache b.dev b.scratch)
  else
    return ()

/-- `shim_CreatePipelineCache` up to its lock: the cache the driver made, and whether to
prime it. -/
def createAppCache (gate : Gate) (dev : VkDevice) (initial : Bytes) :
    Shim (Option VkPipelineCache × Bool × Gate) := do
  match ← Shim.call (.createPipelineCache .app dev initial) with
  | none => return (none, false, gate)
  | some out =>
      let (prime, gate) ← readPropOn "debug.xdplus.vkcacheprime" gate
      return (some out, prime, gate)

/-- The locked part of `shim_CreatePipelineCache`. -/
def primeAppCache (p : Process) (s : CacheState) (dev : VkDevice) (out : VkPipelineCache) :
    Shim CacheState := do
  let (mine, s) ← ensureDiskCache p s dev
  match cacheLookup s.devCaches dev with
  | none => return s
  | some i =>
      if mine ≠ 0 ∧ mine ≠ out ∧ s.fns.mpc = true ∧ (s.devCaches i).masterInUse = false then
        let _ ← Shim.call .nowNs
        let _ ← Shim.call (.mergePipelineCaches dev out [mine])
        let _ ← Shim.call .nowNs
        return s
      else
        return s

/-- The locked part of `shim_DestroyPipelineCache`, which is all of it. -/
def shimDestroyPipelineCache (s : CacheState) (dev : VkDevice) (pc : VkPipelineCache) :
    Shim CacheState := do
  let s := { s with appInflight := appCacheForget s.appInflight pc }
  Shim.call (.destroyPipelineCache dev pc)
  return s

def dropDiskCache (p : Process) (s : CacheState) (slot : Option (Fin devCacheMax))
    (devAlive : Bool) : Shim CacheState := do
  match slot with
  | none => return s
  | some i =>
      if devAlive then
        let c ← drainPending s.fns (s.devCaches i)
        if c.pc ≠ 0 then
          let c ← saveDiskCache p s.fns c true
          if s.fns.dpc then
            Shim.call (.destroyPipelineCache c.dev c.pc)
            return s.setSlot i DevCache.zero
          else
            return s.setSlot i DevCache.zero
        else
          return s.setSlot i DevCache.zero
      else
        return s.setSlot i DevCache.zero

end XdPlus.Vulkan.PipelineCache
