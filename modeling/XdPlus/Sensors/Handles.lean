/- Module: XdPlus/Sensors/Handles
   source: sensors/multihal.cpp, struct FullHandle, assign_global_handle, get_local_handle,
     get_module_index, get_global_handle, fix_sensor_flags, lazy_init_sensors_list, open_sensors,
     get_v0_device_by_handle, activate, setDelay, copy_event_remap_handle
   digest: The handles the framework is told, and the sub-HALs they lead to. -/

import Mathlib.Data.List.Nodup
import Mathlib.Logic.Function.Basic

/-!
`sub_hw_modules` holds every module that was loaded, `sub_hw_devices` only the ones that opened.
A handle carries an index of the former and is looked up in the latter.
-/

set_option autoImplicit false
set_option relaxedAutoImplicit false

namespace XdPlus.Sensors.Handles

/-- A sensor by its module and by what the module calls it. -/
structure FullHandle where
  moduleIndex : Nat
  localHandle : Int
  deriving DecidableEq, Repr

/-- The two maps, which `std::map` keeps, and the next handle. -/
structure HandleMaps where
  globalToFull : Int → Option FullHandle
  fullToGlobal : FullHandle → Option Int
  nextGlobalHandle : Int

def HandleMaps.empty : HandleMaps := ⟨fun _ => none, fun _ => none, 1⟩

def HandleMaps.assignGlobalHandle (h : HandleMaps) (full : FullHandle) : Int × HandleMaps :=
  (h.nextGlobalHandle,
    { globalToFull := Function.update h.globalToFull h.nextGlobalHandle (some full)
      fullToGlobal := Function.update h.fullToGlobal full (some h.nextGlobalHandle)
      nextGlobalHandle := h.nextGlobalHandle + 1 })

def HandleMaps.getGlobalHandle (h : HandleMaps) (full : FullHandle) : Int :=
  (h.fullToGlobal full).getD (-1)

/-- What the multi-HAL reads or sets of a `sensor_t`. -/
structure Sensor where
  handle : Int
  type : Int
  flags : Nat
  deriving DecidableEq, Repr

/-- A loaded module: the sensors it lists, and the version of its device if it opened. -/
structure Module where
  sensors : List Sensor
  version : Option Nat

/-- The constants of `hardware/sensors.h`. -/
def sensorTypeMetaData : Int := 0
def sensorTypeLight : Int := 5
def sensorTypeProximity : Int := 8
def sensorTypeTiltDetector : Int := 22
def sensorFlagWakeUp : Nat := 1
def sensorFlagOnChangeMode : Nat := 2
def sensorsDeviceApiVersion10 : Nat := 0x01000001

def fixSensorFlags (version : Nat) (sensor : Sensor) : Sensor :=
  if version ≤ sensorsDeviceApiVersion10 then
    let sensor :=
      if sensor.type = sensorTypeProximity ∨ sensor.type = sensorTypeTiltDetector then
        { sensor with flags := sensorFlagWakeUp ||| sensorFlagOnChangeMode }
      else sensor
    if sensor.type = sensorTypeLight then { sensor with flags := sensorFlagOnChangeMode }
    else sensor
  else sensor

/-- One module of the loop; `sub_hw_versions->at` throws for a module that has not opened. -/
def initModule (moduleIndex : Nat) (version : Option Nat) :
    List Sensor → HandleMaps → Option (List Sensor × HandleMaps)
  | [], h => some ([], h)
  | local_sensor :: rest, h =>
      let (globalHandle, h) := h.assignGlobalHandle ⟨moduleIndex, local_sensor.handle⟩
      match version with
      | none => none
      | some v =>
          (initModule moduleIndex version rest h).map fun r =>
            (fixSensorFlags v { local_sensor with handle := globalHandle } :: r.1, r.2)

def initModules : Nat → List Module → HandleMaps → Option (List Sensor × HandleMaps)
  | _, [], h => some ([], h)
  | moduleIndex, m :: rest, h =>
      (initModule moduleIndex m.version m.sensors h).bind fun r =>
        (initModules (moduleIndex + 1) rest r.2).map fun r' => (r.1 ++ r'.1, r'.2)

/-- `lazy_init_sensors_list` after `open_sensors`: the list for the framework, and the maps. -/
def lazyInitSensorsList (modules : List Module) : Option (List Sensor × HandleMaps) :=
  initModules 0 modules HandleMaps.empty

/-- A `sensors_event_t`: a meta-data event names its sensor in its payload. -/
structure Event (P : Type) where
  sensor : Int
  type : Int
  metaSensor : Int
  payload : P
  deriving DecidableEq, Repr

/-- `copy_event_remap_handle`, for an event from the queue `subIndex`. -/
def copyEventRemapHandle {P : Type} (h : HandleMaps) (src : Event P) (subIndex : Nat) : Event P :=
  if src.type = sensorTypeMetaData then
    { src with metaSensor := h.getGlobalHandle ⟨subIndex, src.metaSensor⟩ }
  else
    { src with sensor := h.getGlobalHandle ⟨subIndex, src.sensor⟩ }

/-- The maps after these handles were assigned, in this order. -/
structure Assigned (h : HandleMaps) (fulls : List FullHandle) : Prop where
  next : h.nextGlobalHandle = fulls.length + 1
  global : ∀ k : Nat, h.globalToFull (k + 1) = fulls[k]?
  outside : ∀ g : Int, g ≤ 0 → h.globalToFull g = none
  full : ∀ {f g}, h.fullToGlobal f = some g → ∃ k : Nat, g = k + 1 ∧ fulls[k]? = some f
  known : ∀ {f}, f ∈ fulls → h.fullToGlobal f ≠ none

theorem assigned_empty : Assigned HandleMaps.empty [] where
  next := rfl
  global _ := rfl
  outside _ _ := rfl
  full found := by cases found
  known member := by cases member

theorem Assigned.assign {h : HandleMaps} {fulls : List FullHandle} (assigned : Assigned h fulls)
    (f : FullHandle) : (h.assignGlobalHandle f).1 = fulls.length + 1 ∧
      Assigned (h.assignGlobalHandle f).2 (fulls ++ [f]) := by
  obtain ⟨next, global, outside, full, known⟩ := assigned
  refine ⟨next, ?_, ?_, ?_, ?_, ?_⟩
  · simp only [HandleMaps.assignGlobalHandle, next, List.length_append, List.length_singleton]
    omega
  · intro k
    simp only [HandleMaps.assignGlobalHandle, next]
    by_cases last : k = fulls.length
    · rw [last, Function.update_self, List.getElem?_append_right (Nat.le_refl _), Nat.sub_self]
      rfl
    · rw [Function.update_of_ne (by omega), global]
      rcases Nat.lt_or_ge k fulls.length with before | behind
      · rw [List.getElem?_append_left before]
      · rw [List.getElem?_eq_none behind, List.getElem?_eq_none (by simp; omega)]
  · intro g low
    simp only [HandleMaps.assignGlobalHandle, next]
    rw [Function.update_of_ne (by omega), outside g low]
  · intro f' g found
    simp only [HandleMaps.assignGlobalHandle] at found
    by_cases same : f' = f
    · rw [same, Function.update_self] at found
      refine ⟨fulls.length, ?_, ?_⟩
      · rw [← Option.some.inj found, next]
      · rw [same, List.getElem?_append_right (Nat.le_refl _), Nat.sub_self]
        rfl
    · rw [Function.update_of_ne same] at found
      obtain ⟨k, is_g, there⟩ := full found
      have before : k < fulls.length := (List.getElem?_eq_some_iff.mp there).1
      exact ⟨k, is_g, by rw [List.getElem?_append_left before, there]⟩
  · intro f' member
    simp only [HandleMaps.assignGlobalHandle]
    by_cases same : f' = f
    · rw [same, Function.update_self]
      simp
    · rw [Function.update_of_ne same]
      apply known
      simpa [same] using member

/-- The sensors of a module, and of all modules, as the maps name them. -/
def fullHandles (moduleIndex : Nat) (sensors : List Sensor) : List FullHandle :=
  sensors.map fun s => ⟨moduleIndex, s.handle⟩

def allFullHandles : Nat → List Module → List FullHandle
  | _, [] => []
  | i, m :: rest => fullHandles i m.sensors ++ allFullHandles (i + 1) rest

/-- What the framework is told of a module. -/
def told (version : Nat) : Nat → List Sensor → List Sensor
  | _, [] => []
  | n, s :: rest =>
      fixSensorFlags version { s with handle := n + 1 } :: told version (n + 1) rest

def allTold : Nat → List Module → List Sensor
  | _, [] => []
  | n, m :: rest => told (m.version.getD 0) n m.sensors ++ allTold (n + m.sensors.length) rest

private theorem initModule_eq {i : Nat} {v : Nat} (sensors : List Sensor) {h : HandleMaps}
    {fulls : List FullHandle} (assigned : Assigned h fulls) :
    ∃ h', initModule i (some v) sensors h = some (told v fulls.length sensors, h') ∧
      Assigned h' (fulls ++ fullHandles i sensors) := by
  induction sensors generalizing h fulls with
  | nil => exact ⟨h, rfl, by simpa [fullHandles] using assigned⟩
  | cons s rest ih =>
      obtain ⟨is_next, further⟩ := assigned.assign ⟨i, s.handle⟩
      obtain ⟨h', rest_eq, assigned'⟩ := ih further
      refine ⟨h', ?_, ?_⟩
      · simp only [initModule, rest_eq, Option.map_some, is_next, List.length_append,
          List.length_singleton, told]
      · simpa [fullHandles] using assigned'

private theorem initModules_eq (modules : List Module) {i : Nat} {h : HandleMaps}
    {fulls : List FullHandle} (assigned : Assigned h fulls)
    (opened : ∀ m ∈ modules, m.sensors ≠ [] → m.version ≠ none) :
    ∃ h', initModules i modules h = some (allTold fulls.length modules, h') ∧
      Assigned h' (fulls ++ allFullHandles i modules) := by
  induction modules generalizing i h fulls with
  | nil => exact ⟨h, rfl, by simpa [allFullHandles] using assigned⟩
  | cons m rest ih =>
      have first : ∃ h', initModule i m.version m.sensors h =
          some (told (m.version.getD 0) fulls.length m.sensors, h') ∧
          Assigned h' (fulls ++ fullHandles i m.sensors) := by
        cases version : m.version with
        | some v => exact initModule_eq m.sensors assigned
        | none =>
            have none_listed : m.sensors = [] := by
              by_contra some_listed
              exact opened m (List.mem_cons_self ..) some_listed version
            rw [none_listed]
            exact ⟨h, rfl, by simpa [fullHandles] using assigned⟩
      obtain ⟨h₁, first_eq, assigned₁⟩ := first
      obtain ⟨h', rest_eq, assigned'⟩ := ih (i := i + 1) assigned₁ fun m' member =>
        opened m' (List.mem_cons_of_mem _ member)
      refine ⟨h', ?_, ?_⟩
      · have lengths : (fulls ++ fullHandles i m.sensors).length =
            fulls.length + m.sensors.length := by simp [fullHandles]
        rw [lengths] at rest_eq
        simp only [initModules, first_eq, Option.bind_some, rest_eq, Option.map_some, allTold]
      · simpa [allFullHandles, List.append_assoc] using assigned'

private theorem initModules_throws (modules : List Module) {i : Nat} {h : HandleMaps} {m : Module}
    (member : m ∈ modules) (listed : m.sensors ≠ []) (closed : m.version = none) :
    initModules i modules h = none := by
  induction modules generalizing i h with
  | nil => cases member
  | cons m' rest ih =>
      simp only [initModules]
      rcases List.mem_cons.mp member with rfl | later
      · obtain ⟨s, others, sensors⟩ := List.exists_cons_of_ne_nil listed
        simp only [sensors, closed, initModule, Option.bind_none]
      · cases initModule i m'.version m'.sensors h with
        | none => rfl
        | some r =>
            simp only [Option.bind_some, ih later, Option.map_none]

/-- The list is made unless a module that lists sensors has not opened: then it has every sensor
of every module, numbered from 1 on, and the maps name the sensors in this order. -/
theorem lazyInitSensorsList_spec (modules : List Module) :
    ((∃ m ∈ modules, m.sensors ≠ [] ∧ m.version = none) ∧ lazyInitSensorsList modules = none) ∨
      ((∀ m ∈ modules, m.sensors ≠ [] → m.version ≠ none) ∧
        ∃ h, lazyInitSensorsList modules = some (allTold 0 modules, h) ∧
          Assigned h (allFullHandles 0 modules)) := by
  by_cases opened : ∀ m ∈ modules, m.sensors ≠ [] → m.version ≠ none
  · right
    obtain ⟨h, eq, assigned⟩ := initModules_eq (i := 0) modules assigned_empty opened
    exact ⟨opened, h, eq, assigned⟩
  · left
    obtain ⟨m, member, listed, closed⟩ : ∃ m ∈ modules, m.sensors ≠ [] ∧ m.version = none := by
      by_contra absent
      exact opened fun m member listed closed => absent ⟨m, member, listed, closed⟩
    exact ⟨⟨m, member, listed, closed⟩, initModules_throws modules member listed closed⟩

@[simp] theorem handle_fixSensorFlags {version : Nat} {s : Sensor} :
    (fixSensorFlags version s).handle = s.handle := by
  simp only [fixSensorFlags]
  split_ifs <;> rfl

private theorem exists_told {version : Nat} {sensors : List Sensor} {n k : Nat}
    (inside : k < sensors.length) : ∃ s ∈ told version n sensors, s.handle = n + k + 1 := by
  induction sensors generalizing n k with
  | nil => cases inside
  | cons first rest ih =>
      cases k with
      | zero => exact ⟨_, List.mem_cons_self .., by simp⟩
      | succ k =>
          obtain ⟨s, member, handle⟩ := ih (n := n + 1) (Nat.lt_of_succ_lt_succ inside)
          refine ⟨s, List.mem_cons_of_mem _ member, ?_⟩
          rw [handle]
          omega

private theorem exists_allTold {modules : List Module} {i n k : Nat}
    (inside : k < (allFullHandles i modules).length) :
    ∃ s ∈ allTold n modules, s.handle = n + k + 1 := by
  induction modules generalizing i n k with
  | nil => cases inside
  | cons m rest ih =>
      simp only [allFullHandles, fullHandles, List.length_append, List.length_map] at inside
      rcases Nat.lt_or_ge k m.sensors.length with here | later
      · obtain ⟨s, member, handle⟩ := exists_told (n := n) here
        exact ⟨s, List.mem_append_left _ member, handle⟩
      · obtain ⟨s, member, handle⟩ := ih (i := i + 1) (n := n + m.sensors.length)
          (k := k - m.sensors.length) (by omega)
        refine ⟨s, List.mem_append_right _ member, ?_⟩
        rw [handle]
        omega

theorem exists_of_getGlobalHandle {modules : List Module} {list : List Sensor} {h : HandleMaps}
    (made : lazyInitSensorsList modules = some (list, h)) {f : FullHandle}
    (found : h.getGlobalHandle f ≠ -1) : ∃ s ∈ list, s.handle = h.getGlobalHandle f := by
  obtain ⟨-, throws⟩ | ⟨-, h', made', assigned⟩ := lazyInitSensorsList_spec modules
  · cases throws.symm.trans made
  · obtain ⟨rfl, rfl⟩ := Prod.mk.inj (Option.some.inj (made'.symm.trans made))
    cases known : h'.fullToGlobal f with
    | none =>
        rw [HandleMaps.getGlobalHandle, known] at found
        exact absurd rfl found
    | some g =>
        obtain ⟨k, is_g, there⟩ := assigned.full known
        obtain ⟨s, member, handle⟩ :=
          exists_allTold (n := 0) (List.getElem?_eq_some_iff.mp there).1
        refine ⟨s, member, ?_⟩
        rw [handle, HandleMaps.getGlobalHandle, known, is_g]
        simp

end XdPlus.Sensors.Handles
