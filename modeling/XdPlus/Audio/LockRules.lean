/- Module: XdPlus/Audio/LockRules
   source: audio/audio_hw.c, what is done under adev->lock and the lock of a stream
   digest: What a thread may do with the locks it holds, and that all the code keeps to it. -/

import Mathlib.Data.Set.Insert
import XdPlus.Audio.WholeHal
import XdPlus.Base.LockOrder

set_option autoImplicit false
set_option relaxedAutoImplicit false

namespace XdPlus.Audio.LockRules

open XdPlus.Base Routing Process LockOrder WholeHal

/-- What a thread has in hand: the device, and of one direction the streams it has locked,
those it may use and the one it is closing. -/
@[ext] structure Held where
  device : Prop
  locked : Set StreamId
  usable : Set StreamId
  closing : Set StreamId

section Rules

variable {X I L : Type}

/-- The device is touched under its lock, a stream under its own. A stream is locked before
the device, and the PCM is waited for without the device. -/
def mayCall (h : Held) : Call X → Prop
  | .lockDevice => ¬ h.device
  | .unlockDevice | .loadDevice | .storeDevice _ | .mixerOpen | .setSwitch .. | .setAmp ..
  | .setGain .. | .setAdc _ | .setPreamp _ => h.device
  | .lockStream σ => σ ∈ h.usable ∧ h.locked = ∅ ∧ ¬ h.device
  | .unlockStream σ => σ ∈ h.locked
  | .loadStream σ | .storeStream σ _ => σ ∈ h.usable ∧ σ ∈ h.locked
  | .pcmOpen | .pcmTransfer | .pcmClose => h.locked.Nonempty ∧ ¬ h.device
  | .newStream _ => ¬ h.device
  | .freeStream σ => σ ∈ h.closing ∧ h.locked = ∅

def afterCall (h : Held) : Call X → Held
  | .lockDevice => { h with device := True }
  | .unlockDevice => { h with device := False }
  | .lockStream σ => { h with locked := {σ} }
  | .unlockStream σ => { h with locked := h.locked \ {σ} }
  | .freeStream σ => { h with usable := h.usable \ {σ}, closing := h.closing \ {σ} }
  | _ => h

/-- Between two calls. -/
def Held.Nothing (h : Held) : Prop := ¬ h.device ∧ h.locked = ∅ ∧ h.closing = ∅

def callRules : Rules (Call X) Answer Held where
  may := mayCall
  after h op _ := afterCall h op
  rest := Held.Nothing
  done := Held.Nothing

/-- The streams thread `t` may use: the one it is closing, or the one its call is on. -/
def usableBy (f : Interface X I) (t : Tid) (s : Process.State X I L) : Set StreamId :=
  {σ | s.closer σ = some t ∨ ∃ i, s.calling t = some i ∧ f.closes i = none ∧ f.stream i = some σ}

def heldBy (f : Interface X I) (t : Tid) (s : Process.State X I L) : Held where
  device := s.deviceLock = some t
  locked := {σ | s.streamLock σ = some t}
  usable := usableBy f t s
  closing := {σ | s.closer σ = some t}

/-- A stream exists while a call is on it, and nobody but its closer uses it then. -/
structure Live (f : Interface X I) (s : Process.State X I L) : Prop where
  used : ∀ t i σ, s.calling t = some i → f.closes i = none → f.stream i = some σ →
    (s.streams σ).isSome
  closing : ∀ σ t, s.closer σ = some t → (s.streams σ).isSome ∧
    (∃ i, s.calling t = some i ∧ f.closes i = some σ) ∧
      ∀ u j, s.calling u = some j → f.stream j = some σ → u = t

variable {f : Interface X I} {s s' : Process.State X I L} {t u : Tid}

private theorem Live.exists_of_usable (live : Live f s) {σ : StreamId}
    (usable : σ ∈ usableBy f t s) : (s.streams σ).isSome := by
  rcases usable with closes | ⟨i, calling, open_, on_it⟩
  · exact (live.closing σ t closes).1
  · exact live.used t i σ calling open_ on_it

theorem Live.still (live : Live f s) (calling : s'.calling = s.calling)
    (closer : s'.closer = s.closer)
    (there : ∀ σ, (s.streams σ).isSome → (s'.streams σ).isSome) : Live f s' where
  used u i σ calls open_ on_it :=
    there σ (live.used u i σ (calling ▸ calls) open_ on_it)
  closing σ u closes := by
    rw [closer] at closes
    obtain ⟨exists_, call, alone⟩ := live.closing σ u closes
    rw [calling]
    exact ⟨there σ exists_, call, alone⟩

private theorem usableBy_congr (calling : s'.calling = s.calling) (closer : s'.closer = s.closer) :
    usableBy f u s' = usableBy f u s := by
  unfold usableBy
  rw [calling, closer]

private theorem heldBy_congr (device : (s'.deviceLock = some u) = (s.deviceLock = some u))
    (locks : s'.streamLock = s.streamLock) (calling : s'.calling = s.calling)
    (closer : s'.closer = s.closer) : heldBy f u s' = heldBy f u s := by
  unfold heldBy
  rw [device, locks, closer, usableBy_congr calling closer]

/-- What one call leaves: the streams in order, the others as they were, its thread with what
the rules say. -/
def Steps (f : Interface X I) (t : Tid) (s : Process.State X I L) (op : Call X)
    (s' : Process.State X I L) : Prop :=
  Live f s' ∧ (∀ u, u ≠ t → heldBy f u s' = heldBy f u s) ∧
    heldBy f t s' = afterCall (heldBy f t s) op

private theorem steps_still {op : Call X} (live : Live f s)
    (device : s'.deviceLock = s.deviceLock) (locks : s'.streamLock = s.streamLock)
    (calling : s'.calling = s.calling) (closer : s'.closer = s.closer)
    (there : ∀ σ, (s.streams σ).isSome → (s'.streams σ).isSome)
    (nothing : ∀ h, afterCall h op = h) : Steps f t s op s' := by
  refine ⟨live.still calling closer there, fun u _ => ?_, ?_⟩
  · exact heldBy_congr (by rw [device]) locks calling closer
  · rw [nothing]
    exact heldBy_congr (by rw [device]) locks calling closer

private theorem steps_device {op : Call X} {d : Prop} (live : Live f s)
    (locks : s'.streamLock = s.streamLock) (calling : s'.calling = s.calling)
    (closer : s'.closer = s.closer) (streams : s'.streams = s.streams)
    (others : ∀ u, u ≠ t → (s'.deviceLock = some u) = (s.deviceLock = some u))
    (own : (s'.deviceLock = some t) = d)
    (after : ∀ h, afterCall h op = { h with device := d }) : Steps f t s op s' := by
  refine ⟨live.still calling closer fun σ exists_ => streams ▸ exists_, fun u ne => ?_, ?_⟩
  · exact heldBy_congr (others u ne) locks calling closer
  · rw [after]
    unfold heldBy
    rw [own, locks, closer, usableBy_congr calling closer]

private theorem steps_locks {op : Call X} {locked : Set StreamId} (live : Live f s)
    (device : s'.deviceLock = s.deviceLock) (calling : s'.calling = s.calling)
    (closer : s'.closer = s.closer) (streams : s'.streams = s.streams)
    (others : ∀ u, u ≠ t → ∀ σ, s'.streamLock σ = some u ↔ s.streamLock σ = some u)
    (own : ∀ σ, s'.streamLock σ = some t ↔ σ ∈ locked)
    (after : afterCall (heldBy f t s) op = { heldBy f t s with locked := locked }) :
    Steps f t s op s' := by
  refine ⟨live.still calling closer fun σ exists_ => streams ▸ exists_, fun u ne => ?_, ?_⟩
  · refine Held.ext ?_ (Set.ext fun σ => others u ne σ) ?_ ?_
    · simp only [heldBy, device]
    · exact usableBy_congr calling closer
    · simp only [heldBy, closer]
  · rw [after]
    refine Held.ext ?_ (Set.ext fun σ => own σ) ?_ ?_
    · simp only [heldBy, device]
    · exact usableBy_congr calling closer
    · simp only [heldBy, closer]

theorem Live.only_closed (live : Live f s) {σ : StreamId} (closes : s.closer σ = some t)
    {i : I} (calls : s.calling u = some i) (open_ : f.closes i = none)
    (on_it : f.stream i = some σ) : False := by
  obtain ⟨-, ⟨j, calls', closing⟩, alone⟩ := live.closing σ t closes
  obtain rfl := alone u i calls on_it
  obtain rfl : i = j := Option.some.inj (calls.symm.trans calls')
  exact Option.some_ne_none σ (closing.symm.trans open_)

private theorem steps_free {σ : StreamId} (live : Live f s) (closes : s.closer σ = some t)
    (device : s'.deviceLock = s.deviceLock) (locks : s'.streamLock = s.streamLock)
    (calling : s'.calling = s.calling) (closer : s'.closer = Function.update s.closer σ none)
    (streams : s'.streams = Function.update s.streams σ none) :
    Steps f t s (.freeStream σ) s' := by
  have closer_iff : ∀ u τ, s'.closer τ = some u ↔ s.closer τ = some u ∧ τ ≠ σ := by
    intro u τ
    rw [closer]
    rcases eq_or_ne τ σ with rfl | ne
    · simp only [Function.update_self, reduceCtorEq, ne_eq, not_true_eq_false, and_false]
    · simp only [Function.update_of_ne ne, ne_eq, ne, not_false_eq_true, and_true]
  have there : ∀ τ, τ ≠ σ → s'.streams τ = s.streams τ := by
    intro τ ne
    rw [streams, Function.update_of_ne ne]
  refine ⟨⟨fun u i τ calls open_ on_it => ?_, fun τ u closes' => ?_⟩, fun u ne => ?_, ?_⟩
  · rw [calling] at calls
    rw [there τ]
    · exact live.used u i τ calls open_ on_it
    · rintro rfl
      exact live.only_closed closes calls open_ on_it
  · obtain ⟨closes', ne⟩ := (closer_iff u τ).mp closes'
    rw [there τ ne, calling]
    exact live.closing τ u closes'
  · have apart : ∀ τ, s'.closer τ = some u ↔ s.closer τ = some u := by
      intro τ
      rw [closer_iff]
      refine and_iff_left_of_imp fun closes' => ?_
      rintro rfl
      exact ne (Option.some.inj (closes'.symm.trans closes))
    refine Held.ext (by simp only [heldBy, device]) (by simp only [heldBy, locks]) ?_
      (Set.ext apart)
    refine Set.ext fun τ => or_congr (apart τ) ?_
    rw [calling]
  · refine Held.ext (by simp only [heldBy, afterCall, device])
      (by simp only [heldBy, afterCall, locks]) (Set.ext fun τ => ?_)
      (Set.ext fun τ => closer_iff t τ)
    change (s'.closer τ = some t ∨ _) ↔ (s.closer τ = some t ∨ _) ∧ τ ≠ σ
    rw [closer_iff, calling, or_and_right]
    refine or_congr_right (iff_self_and.mpr ?_)
    rintro ⟨i, calls, open_, on_it⟩ rfl
    exact live.only_closed closes calls open_ on_it

private theorem isSome_update {σ τ : StreamId} {x : X} (exists_ : (s.streams τ).isSome) :
    (Function.update s.streams σ (some x) τ).isSome := by
  rcases eq_or_ne τ σ with rfl | apart
  · rw [Function.update_self, Option.isSome_some]
  · rw [Function.update_of_ne apart]
    exact exists_

theorem Live.steps {note : Note X I L} {op : Call X} {ans : Answer op} (live : Live f s)
    (may : mayCall (heldBy f t s) op) (answered : answers note t s op ans s') :
    Steps f t s op s' := by
  obtain ⟨fits, rfl⟩ := answered
  cases op with
  | lockDevice =>
      have free : s.deviceLock = none := fits
      refine steps_device live rfl rfl rfl rfl (fun u ne => ?_) (eq_true rfl) fun h => rfl
      simp only [Process.State.perform, free, reduceCtorEq, Option.some.injEq, ne.symm]
  | unlockDevice =>
      have mine : s.deviceLock = some t := may
      refine steps_device live rfl rfl rfl rfl (fun u ne => ?_) ?_ fun h => rfl
      · simp only [Process.State.perform, mine, reduceCtorEq, Option.some.injEq, ne.symm]
      · exact eq_false (Option.some_ne_none t).symm
  | lockStream σ =>
      have free : s.streamLock σ = none := fits.2
      refine steps_locks live rfl rfl rfl rfl (fun u ne τ => ?_) (fun τ => ?_) rfl
      · rcases eq_or_ne τ σ with rfl | apart
        · simp only [Process.State.perform, Function.update_self, free, reduceCtorEq,
            Option.some.injEq, ne.symm]
        · simp only [Process.State.perform, Function.update_of_ne apart]
      · rcases eq_or_ne τ σ with rfl | apart
        · simp only [Process.State.perform, Function.update_self, Set.mem_singleton_iff]
        · have none_held : s.streamLock τ ≠ some t := Set.eq_empty_iff_forall_notMem.mp may.2.1 τ
          simp only [Process.State.perform, Function.update_of_ne apart, none_held,
            Set.mem_singleton_iff, apart]
  | unlockStream σ =>
      have mine : s.streamLock σ = some t := may
      refine steps_locks live rfl rfl rfl rfl (fun u ne τ => ?_) (fun τ => ?_) rfl
      · rcases eq_or_ne τ σ with rfl | apart
        · simp only [Process.State.perform, Function.update_self, mine, reduceCtorEq,
            Option.some.injEq, ne.symm]
        · simp only [Process.State.perform, Function.update_of_ne apart]
      · change _ ↔ s.streamLock τ = some t ∧ τ ≠ σ
        rcases eq_or_ne τ σ with rfl | apart
        · simp only [Process.State.perform, Function.update_self, reduceCtorEq, ne_eq,
            not_true_eq_false, and_false]
        · simp only [Process.State.perform, Function.update_of_ne apart, ne_eq, apart,
            not_false_eq_true, and_true]
  | freeStream σ => exact steps_free live may.1 rfl rfl rfl rfl rfl
  | storeStream σ x =>
      refine steps_still live rfl rfl rfl rfl (fun τ exists_ => ?_) fun h => rfl
      exact isSome_update exists_
  | newStream x =>
      cases ans with
      | none => exact steps_still live rfl rfl rfl rfl (fun _ exists_ => exists_) fun h => rfl
      | some σ =>
          refine steps_still live rfl rfl rfl rfl (fun τ exists_ => ?_) fun h => rfl
          exact isSome_update exists_
  | loadDevice | storeDevice | loadStream | mixerOpen | setSwitch | setAmp | setGain | setAdc
  | setPreamp | pcmOpen | pcmTransfer | pcmClose =>
      exact steps_still live rfl rfl rfl rfl (fun _ exists_ => exists_) fun h => rfl

/-- What a call begins with. -/
def Held.begun (stream closes : Option StreamId) : Held where
  device := False
  locked := ∅
  usable := {σ | stream = some σ}
  closing := {σ | closes = some σ}

private theorem Held.Nothing.not_closer (nothing : (heldBy f t s).Nothing) (σ : StreamId) :
    s.closer σ ≠ some t := Set.eq_empty_iff_forall_notMem.mp nothing.2.2 σ

private theorem usableBy_recall {i : Option I} (ne : u ≠ t)
    (calling : s'.calling = Function.update s.calling t i)
    (closer : ∀ σ, s'.closer σ = some u ↔ s.closer σ = some u) :
    usableBy f u s' = usableBy f u s := by
  refine Set.ext fun σ => or_congr (closer σ) ?_
  rw [calling, Function.update_of_ne ne]

private theorem heldBy_begun {i : I}
    (stream_closes : ∀ σ, f.closes i = some σ → f.stream i = some σ)
    (nothing : (heldBy f t s).Nothing) (device : s'.deviceLock = s.deviceLock)
    (locks : s'.streamLock = s.streamLock)
    (calling : s'.calling = Function.update s.calling t (some i))
    (closer : ∀ σ, s'.closer σ = some t ↔ f.closes i = some σ) :
    heldBy f t s' = Held.begun (f.stream i) (f.closes i) := by
  refine Held.ext ?_ ?_ (Set.ext fun σ => ?_) (Set.ext closer)
  · simp only [heldBy, device]
    exact eq_false nothing.1
  · simp only [heldBy, locks]
    exact nothing.2.1
  · change (s'.closer σ = some t ∨ _) ↔ f.stream i = some σ
    rw [closer, calling, Function.update_self]
    constructor
    · rintro (closes | ⟨j, same, -, on_it⟩)
      · exact stream_closes σ closes
      · obtain rfl := Option.some.inj same
        exact on_it
    · intro on_it
      cases closes : f.closes i with
      | none => exact .inr ⟨i, rfl, closes, on_it⟩
      | some τ =>
          refine .inl ?_
          rw [← on_it, stream_closes τ closes]

private theorem Live.begin {i : I} (live : Live f s) (nothing : (heldBy f t s).Nothing)
    (streams : s'.streams = s.streams)
    (calling : s'.calling = Function.update s.calling t (some i))
    (possible : ∀ σ, f.stream i = some σ → (s.streams σ).isSome ∧ s.closer σ = none)
    (closer : ∀ σ u, s'.closer σ = some u → s.closer σ = some u ∨ u = t ∧ f.closes i = some σ ∧
      f.stream i = some σ ∧ ∀ w j, s.calling w = some j → f.stream j ≠ some σ) :
    Live f s' where
  used u j σ calls open_ on_it := by
    rw [streams]
    rw [calling] at calls
    rcases eq_or_ne u t with rfl | ne
    · rw [Function.update_self] at calls
      obtain rfl := Option.some.inj calls
      exact (possible σ on_it).1
    · rw [Function.update_of_ne ne] at calls
      exact live.used u j σ calls open_ on_it
  closing σ u closes := by
    rw [streams, calling]
    rcases closer σ u closes with before | ⟨rfl, closes, on_it, unused⟩
    · obtain ⟨exists_, ⟨j, calls, closing⟩, alone⟩ := live.closing σ u before
      have ne : u ≠ t := by
        rintro rfl
        exact nothing.not_closer σ before
      refine ⟨exists_, ⟨j, by rwa [Function.update_of_ne ne], closing⟩, fun w k calls' on_it => ?_⟩
      rcases eq_or_ne w t with rfl | apart
      · rw [Function.update_self] at calls'
        obtain rfl := Option.some.inj calls'
        exact absurd (before.symm.trans (possible σ on_it).2) (Option.some_ne_none u)
      · rw [Function.update_of_ne apart] at calls'
        exact alone w k calls' on_it
    · refine ⟨(possible σ on_it).1, ⟨i, Function.update_self .., closes⟩, ?_⟩
      intro w k calls' on_it'
      by_contra apart
      rw [Function.update_of_ne apart] at calls'
      exact unused w k calls' on_it'

theorem Live.enters {i : I} (stream_closes : ∀ σ, f.closes i = some σ → f.stream i = some σ)
    (live : Live f s) (nothing : (heldBy f t s).Nothing) (entered : enters f s t i s') :
    Live f s' ∧ (∀ u, u ≠ t → heldBy f u s' = heldBy f u s) ∧
      heldBy f t s' = Held.begun (f.stream i) (f.closes i) := by
  obtain ⟨possible, effect⟩ := entered
  cases closes : f.closes i with
  | none =>
      rw [closes] at effect
      subst effect
      refine ⟨live.begin nothing rfl rfl possible fun σ u before => .inl before, fun u ne => ?_, ?_⟩
      · exact Held.ext rfl rfl (usableBy_recall ne rfl fun σ => Iff.rfl) rfl
      · rw [← closes]
        refine heldBy_begun stream_closes nothing rfl rfl rfl fun σ => ?_
        rw [closes]
        exact iff_of_false (nothing.not_closer σ) (Option.some_ne_none σ).symm
  | some σ =>
      rw [closes] at effect
      obtain ⟨unused, rfl⟩ := effect
      have on_it := stream_closes σ closes
      have closer_other : ∀ u, u ≠ t → ∀ τ,
          Function.update s.closer σ (some t) τ = some u ↔ s.closer τ = some u := by
        intro u ne τ
        rcases eq_or_ne τ σ with rfl | apart
        · simp only [Function.update_self, (possible τ on_it).2, Option.some.injEq, ne.symm,
            reduceCtorEq]
        · rw [Function.update_of_ne apart]
      have closer_own : ∀ τ, Function.update s.closer σ (some t) τ = some t ↔ some σ = some τ := by
        intro τ
        rcases eq_or_ne τ σ with rfl | apart
        · simp only [Function.update_self]
        · rw [Function.update_of_ne apart, Option.some.injEq]
          exact iff_of_false (nothing.not_closer τ) apart.symm
      refine ⟨live.begin nothing rfl rfl possible fun τ u closes' => ?_, fun u ne => ?_, ?_⟩
      · rcases eq_or_ne u t with rfl | ne
        · obtain rfl := Option.some.inj ((closer_own τ).mp closes')
          exact .inr ⟨rfl, closes, on_it, unused⟩
        · exact .inl ((closer_other u ne τ).mp closes')
      · exact Held.ext rfl rfl (usableBy_recall ne rfl (closer_other u ne))
          (Set.ext (closer_other u ne))
      · rw [← closes]
        refine heldBy_begun stream_closes nothing rfl rfl rfl fun τ => ?_
        rw [closes]
        exact closer_own τ

theorem Live.leaves (live : Live f s) (nothing : (heldBy f t s).Nothing)
    (device : s'.deviceLock = s.deviceLock) (locks : s'.streamLock = s.streamLock)
    (streams : s'.streams = s.streams) (closer : s'.closer = s.closer)
    (calling : s'.calling = Function.update s.calling t none) :
    Live f s' ∧ (∀ u, u ≠ t → heldBy f u s' = heldBy f u s) ∧ (heldBy f t s').Nothing := by
  refine ⟨⟨fun u i σ calls open_ on_it => ?_, fun σ u closes => ?_⟩, fun u ne => ?_, ?_⟩
  · rw [streams]
    rw [calling] at calls
    rcases eq_or_ne u t with rfl | ne
    · rw [Function.update_self] at calls
      exact absurd calls.symm (Option.some_ne_none i)
    · rw [Function.update_of_ne ne] at calls
      exact live.used u i σ calls open_ on_it
  · rw [streams, calling]
    rw [closer] at closes
    obtain ⟨exists_, ⟨j, calls, closing⟩, alone⟩ := live.closing σ u closes
    have ne : u ≠ t := by
      rintro rfl
      exact nothing.not_closer σ closes
    refine ⟨exists_, ⟨j, by rwa [Function.update_of_ne ne], closing⟩, fun w k calls' on_it => ?_⟩
    rcases eq_or_ne w t with rfl | apart
    · rw [Function.update_self] at calls'
      exact absurd calls'.symm (Option.some_ne_none k)
    · rw [Function.update_of_ne apart] at calls'
      exact alone w k calls' on_it
  · refine Held.ext (by simp only [heldBy, device]) (by simp only [heldBy, locks])
      (usableBy_recall ne calling fun σ => by rw [closer]) (by simp only [heldBy, closer])
  · unfold Held.Nothing heldBy
    rw [device, locks, closer]
    exact nothing

theorem Live.answered (live : Live f s) {op : Call X} (may : mayCall (heldBy f t s) op)
    (device : op = .lockDevice → s.deviceLock = none)
    (streams : ∀ σ, op = .lockStream σ → s.streamLock σ = none) :
    ∃ ans : Answer op, Answered s op ans := by
  cases op with
  | lockDevice => exact ⟨(), device rfl⟩
  | lockStream σ => exact ⟨(), live.exists_of_usable may.1, streams σ rfl⟩
  | loadDevice => exact ⟨s.device, rfl⟩
  | loadStream σ =>
      obtain ⟨x, there⟩ := Option.isSome_iff_exists.mp (live.exists_of_usable may.1)
      exact ⟨x, there⟩
  | storeStream σ x => exact ⟨(), live.exists_of_usable may.1⟩
  | newStream x => exact ⟨none, trivial⟩
  | mixerOpen | pcmOpen | pcmTransfer => exact ⟨true, trivial⟩
  | unlockDevice | unlockStream | storeDevice | freeStream | setSwitch | setAmp | setGain | setAdc
  | setPreamp | pcmClose => exact ⟨(), trivial⟩

end Rules

section Code

variable {X α : Type} {h : Held} {σ : StreamId} {locked usable closing : Set StreamId}

/-- Begun with `h` in hand, a program keeps to the rules and ends in `post`. -/
abbrev Keeps (p : Hal X α) (h : Held) (post : α → Held → Prop) : Prop :=
  p.Ensures callRules.env mayCall h post

private theorem keeps_call {op : Call X} {post : Answer op → Held → Prop} :
    Keeps (Hal.call op) h post ↔ mayCall h op ∧ ∀ ans, post ans (afterCall h op) := by
  simp only [Keeps, Hal.call, Prog.ensures_call, Rules.env, callRules, forall_eq]

/-- What is done to the device and its mixer. -/
def OnDevice : Call X → Prop
  | .loadDevice | .storeDevice _ | .mixerOpen | .setSwitch .. | .setAmp .. | .setGain .. | .setAdc _
  | .setPreamp _ => True
  | _ => False

private theorem always_adevMixerLocked :
    (adevMixerLocked : Hal X Bool).Always OnDevice (fun _ => True) := by
  simp only [adevMixerLocked, Prog.always_bind, Prog.always_call]
  refine ⟨trivial, fun adev => ?_⟩
  split
  · trivial
  · simp only [Prog.always_bind, Prog.always_call]
    exact ⟨trivial, fun opened => ⟨trivial, fun _ => trivial⟩⟩

private theorem always_adevRouteOutEnable (devices : AudioDevices) :
    (adevRouteOutEnable devices : Hal X Int).Always OnDevice (fun _ => True) := by
  simp only [adevRouteOutEnable, Prog.always_bind]
  refine always_adevMixerLocked.mono fun ready _ => ?_
  split
  · simp only [Prog.always_bind, Prog.always_call]
    refine ⟨trivial, fun adev => ⟨trivial, fun _ => ?_⟩⟩
    split
    · trivial
    · simp [OnDevice]
  · trivial

private theorem always_adevRouteOutRetarget (devices : AudioDevices) :
    (adevRouteOutRetarget devices : Hal X Unit).Always OnDevice (fun _ => True) := by
  simp only [adevRouteOutRetarget, Prog.always_bind, Prog.always_call]
  refine ⟨trivial, fun adev => ?_⟩
  split
  · trivial
  · simp only [Prog.always_bind]
    refine always_adevMixerLocked.mono fun ready _ => ?_
    split
    · split <;> simp [OnDevice]
    · trivial

private theorem always_adevRouteOutDisable :
    (adevRouteOutDisable : Hal X Unit).Always OnDevice (fun _ => True) := by
  simp only [adevRouteOutDisable, Prog.always_bind, Prog.always_call]
  refine ⟨trivial, fun adev => ?_⟩
  split
  · trivial
  · simp only [Prog.always_bind, Prog.always_call]
    refine ⟨trivial, fun _ => ?_⟩
    split
    · trivial
    · simp only [Prog.always_bind]
      refine always_adevMixerLocked.mono fun ready _ => ?_
      split
      · simp [OnDevice]
      · trivial

private theorem always_adevRouteInEnable :
    (adevRouteInEnable : Hal X Int).Always OnDevice (fun _ => True) := by
  simp only [adevRouteInEnable, Prog.always_bind]
  refine always_adevMixerLocked.mono fun ready _ => ?_
  split
  · simp only [Prog.always_bind, Prog.always_call]
    refine ⟨trivial, fun adev => ⟨trivial, fun _ => ?_⟩⟩
    split
    · trivial
    · simp [OnDevice]
  · trivial

private theorem always_adevRouteInDisable :
    (adevRouteInDisable : Hal X Unit).Always OnDevice (fun _ => True) := by
  simp only [adevRouteInDisable, Prog.always_bind, Prog.always_call]
  refine ⟨trivial, fun adev => ?_⟩
  split
  · trivial
  · simp only [Prog.always_bind, Prog.always_call]
    refine ⟨trivial, fun _ => ?_⟩
    split
    · trivial
    · simp only [Prog.always_bind]
      refine always_adevMixerLocked.mono fun ready _ => ?_
      split
      · simp [OnDevice]
      · trivial

private theorem keeps_onDevice {p : Hal X α} (always : p.Always OnDevice (fun _ => True))
    (device : h.device) : Keeps p h fun _ h' => h' = h := by
  have stays : Keeps p h fun _ h' => True ∧ h' = h := by
    refine always.ensures (fun op on => ?_) fun op ans h' on after => ?_
    · cases op <;> first | exact on.elim | exact device
    · obtain rfl := after
      cases op <;> first | exact on.elim | rfl
  exact stays.mono fun _ _ same => same.2

private theorem keeps_section {p : Hal X α} {post : α → Held → Prop}
    (always : p.Always OnDevice (fun _ => True))
    (rest : ∀ a, post a ⟨False, locked, usable, closing⟩) :
    Keeps (Hal.call (.lockDevice : Call X)) ⟨False, locked, usable, closing⟩ fun _ h =>
      Keeps p h fun a h => Keeps (Hal.call (.unlockDevice : Call X)) h fun _ h => post a h := by
  refine keeps_call.mpr ⟨id, fun _ => (keeps_onDevice always trivial).mono fun a h' same => ?_⟩
  obtain rfl := same
  exact keeps_call.mpr ⟨trivial, fun _ => rest a⟩

private theorem keeps_outClosePcmLocked (mine : σ ∈ usable) :
    Keeps (Playback.outClosePcmLocked σ) ⟨False, {σ}, usable, closing⟩ fun _ h =>
      h = ⟨False, {σ}, usable, closing⟩ := by
  have unroute : Keeps (X := Playback.Stream) (do
      let out ← Hal.call (.loadStream σ)
      if out.routed then
        Hal.call .lockDevice
        adevRouteOutDisable
        Hal.call .unlockDevice
        Hal.call (.storeStream σ { out with routed := false })
      let out ← Hal.call (.loadStream σ)
      Hal.call (.storeStream σ { out with standby := true }))
      ⟨False, {σ}, usable, closing⟩ fun _ h => h = ⟨False, {σ}, usable, closing⟩ := by
    simp only [Prog.ensures_bind]
    refine keeps_call.mpr ⟨⟨mine, rfl⟩, fun out => ?_⟩
    split
    · simp only [Prog.ensures_bind]
      refine keeps_section always_adevRouteOutDisable fun _ => ?_
      refine keeps_call.mpr ⟨⟨mine, rfl⟩, fun _ => keeps_call.mpr ⟨⟨mine, rfl⟩, fun out => ?_⟩⟩
      exact keeps_call.mpr ⟨⟨mine, rfl⟩, fun _ => rfl⟩
    · simp only [Prog.ensures_bind]
      refine keeps_call.mpr ⟨⟨mine, rfl⟩, fun out => ?_⟩
      exact keeps_call.mpr ⟨⟨mine, rfl⟩, fun _ => rfl⟩
  simp only [Playback.outClosePcmLocked, Prog.ensures_bind] at unroute ⊢
  refine keeps_call.mpr ⟨⟨mine, rfl⟩, fun out => ?_⟩
  split
  · simp only [Prog.ensures_bind]
    refine keeps_call.mpr ⟨⟨Set.singleton_nonempty σ, id⟩, fun _ => ?_⟩
    exact keeps_call.mpr ⟨⟨mine, rfl⟩, fun _ => unroute⟩
  · exact unroute

private theorem keeps_outOpenPcmLocked (mine : σ ∈ usable) :
    Keeps (Playback.outOpenPcmLocked σ) ⟨False, {σ}, usable, closing⟩ fun _ h =>
      h = ⟨False, {σ}, usable, closing⟩ := by
  simp only [Playback.outOpenPcmLocked, Prog.ensures_bind]
  refine keeps_call.mpr ⟨⟨mine, rfl⟩, fun out => ?_⟩
  split
  · rfl
  · simp only [Prog.ensures_bind]
    refine keeps_section (always_adevRouteOutEnable _) fun _ => ?_
    refine keeps_call.mpr ⟨⟨mine, rfl⟩, fun _ => ?_⟩
    refine keeps_call.mpr ⟨⟨Set.singleton_nonempty σ, id⟩, fun ready => ?_⟩
    split
    · simp only [Prog.ensures_bind]
      exact keeps_call.mpr ⟨⟨mine, rfl⟩, fun _ => rfl⟩
    · simp only [Prog.ensures_bind]
      refine keeps_call.mpr ⟨⟨mine, rfl⟩, fun _ => ?_⟩
      refine keeps_section always_adevRouteOutDisable fun _ => ?_
      exact keeps_call.mpr ⟨⟨mine, rfl⟩, fun _ => rfl⟩

private theorem keeps_unlockStream (none_closing : closing = ∅) :
    Keeps (Hal.call (.unlockStream σ : Call X)) ⟨False, {σ}, usable, closing⟩ fun _ h =>
      h.Nothing :=
  keeps_call.mpr ⟨rfl, fun _ => ⟨id, Set.sdiff_self, none_closing⟩⟩

private theorem keeps_outStandby (mine : σ ∈ usable) (none_closing : closing = ∅) :
    Keeps (Playback.outStandby σ) ⟨False, ∅, usable, closing⟩ fun _ h => h.Nothing := by
  simp only [Playback.outStandby, Prog.ensures_bind]
  refine keeps_call.mpr ⟨⟨mine, rfl, id⟩, fun _ => keeps_call.mpr ⟨⟨mine, rfl⟩, fun out => ?_⟩⟩
  split
  · simp only [Prog.ensures_bind]
    refine (keeps_outClosePcmLocked mine).mono fun _ h same => ?_
    obtain rfl := same
    exact keeps_unlockStream none_closing
  · exact keeps_unlockStream none_closing

private theorem keeps_outSetParameters (routing : Option Int) (mine : σ ∈ usable)
    (none_closing : closing = ∅) :
    Keeps (Playback.outSetParameters σ routing) ⟨False, ∅, usable, closing⟩ fun _ h =>
      h.Nothing := by
  cases routing with
  | none => exact ⟨id, rfl, none_closing⟩
  | some routing =>
      simp only [Playback.outSetParameters, Prog.ensures_bind]
      refine keeps_call.mpr ⟨⟨mine, rfl, id⟩, fun _ => keeps_call.mpr ⟨⟨mine, rfl⟩, fun out => ?_⟩⟩
      refine keeps_call.mpr ⟨⟨mine, rfl⟩, fun _ => keeps_call.mpr ⟨rfl, fun _ => ?_⟩⟩
      split
      · simp only [Prog.ensures_bind]
        refine (keeps_section (always_adevRouteOutRetarget _) fun _ => ?_ :)
        exact ⟨id, Set.sdiff_self, none_closing⟩
      · exact ⟨id, Set.sdiff_self, none_closing⟩

private theorem keeps_unlockDevice (none_locked : locked = ∅) (none_closing : closing = ∅) :
    Keeps (Hal.call (.unlockDevice : Call X)) ⟨True, locked, usable, closing⟩ fun _ h =>
      h.Nothing :=
  keeps_call.mpr ⟨trivial, fun _ => ⟨id, none_locked, none_closing⟩⟩

private theorem keeps_outSetVolume (volume : Playback.Volume) (none_closing : closing = ∅) :
    Keeps (Playback.outSetVolume volume) ⟨False, ∅, usable, closing⟩ fun _ h => h.Nothing := by
  simp only [Playback.outSetVolume, Prog.ensures_bind]
  refine keeps_call.mpr ⟨id, fun _ => keeps_call.mpr ⟨trivial, fun adev => ?_⟩⟩
  refine keeps_call.mpr ⟨trivial, fun _ => ?_⟩
  split
  · simp only [Prog.ensures_bind]
    refine (keeps_onDevice always_adevMixerLocked trivial).mono fun ready h same => ?_
    obtain rfl := same
    split
    · simp only [Prog.ensures_bind]
      refine keeps_call.mpr ⟨trivial, fun _ => keeps_call.mpr ⟨trivial, fun _ => ?_⟩⟩
      exact keeps_unlockDevice rfl none_closing
    · exact keeps_unlockDevice rfl none_closing
  · exact keeps_unlockDevice rfl none_closing

private theorem keeps_outWrite (bytes : Nat) (mine : σ ∈ usable) (none_closing : closing = ∅) :
    Keeps (Playback.outWrite σ bytes) ⟨False, ∅, usable, closing⟩ fun _ h => h.Nothing := by
  have transfer (ret : Int) : Keeps (X := Playback.Stream) (do
      if ret ≠ 0 then
        Hal.call (.unlockStream σ)
      else if ← Hal.call .pcmTransfer then
        let out ← Hal.call (.loadStream σ)
        Hal.call (.storeStream σ
          { out with framesWritten := out.framesWritten + bytes / Playback.frameSize })
        Hal.call (.unlockStream σ)
      else
        Playback.outClosePcmLocked σ
        Hal.call (.unlockStream σ))
      ⟨False, {σ}, usable, closing⟩ fun _ h => h.Nothing := by
    split
    · exact keeps_unlockStream none_closing
    · simp only [Prog.ensures_bind]
      refine keeps_call.mpr ⟨⟨Set.singleton_nonempty σ, id⟩, fun moved => ?_⟩
      split
      · simp only [Prog.ensures_bind]
        refine keeps_call.mpr ⟨⟨mine, rfl⟩, fun out => keeps_call.mpr ⟨⟨mine, rfl⟩, fun _ => ?_⟩⟩
        exact keeps_unlockStream none_closing
      · simp only [Prog.ensures_bind]
        refine (keeps_outClosePcmLocked mine).mono fun _ h same => ?_
        obtain rfl := same
        exact keeps_unlockStream none_closing
  simp only [Playback.outWrite, Prog.ensures_bind]
  refine keeps_call.mpr ⟨⟨mine, rfl, id⟩, fun _ => keeps_call.mpr ⟨⟨mine, rfl⟩, fun out => ?_⟩⟩
  split
  · rw [Prog.ensures_bind]
    exact transfer 0
  · rw [Prog.ensures_bind]
    refine (keeps_outOpenPcmLocked mine).mono fun ret h same => ?_
    obtain rfl := same
    exact transfer ret

private theorem keeps_adevOpenOutputStream (devices : AudioDevices) (none_closing : closing = ∅) :
    Keeps (Playback.adevOpenOutputStream devices) ⟨False, ∅, usable, closing⟩ fun _ h =>
      h.Nothing := by
  simp only [Playback.adevOpenOutputStream, Prog.ensures_bind]
  refine keeps_call.mpr ⟨id, fun _ => keeps_call.mpr ⟨trivial, fun adev => ?_⟩⟩
  split
  · exact keeps_unlockDevice rfl none_closing
  · simp only [Prog.ensures_bind]
    refine keeps_call.mpr ⟨trivial, fun _ => keeps_call.mpr ⟨trivial, fun _ => ?_⟩⟩
    refine keeps_call.mpr ⟨id, fun allocated => ?_⟩
    cases allocated with
    | some σ => exact ⟨id, rfl, none_closing⟩
    | none =>
        simp only [Prog.ensures_bind]
        refine keeps_call.mpr ⟨id, fun _ => keeps_call.mpr ⟨trivial, fun adev => ?_⟩⟩
        exact keeps_call.mpr ⟨trivial, fun _ => keeps_unlockDevice rfl none_closing⟩

private theorem keeps_countOut (none_locked : locked = ∅) (none_closing : closing = ∅) :
    Keeps (X := Playback.Stream) (do
      Hal.call .lockDevice
      let adev ← Hal.call .loadDevice
      if 0 < adev.outStreams then
        Hal.call (.storeDevice { adev with outStreams := adev.outStreams - 1 })
      Hal.call .unlockDevice)
      ⟨False, locked, usable, closing⟩ fun _ h => h.Nothing := by
  simp only [Prog.ensures_bind]
  refine keeps_call.mpr ⟨id, fun _ => keeps_call.mpr ⟨trivial, fun adev => ?_⟩⟩
  split
  · simp only [Prog.ensures_bind]
    exact keeps_call.mpr ⟨trivial, fun _ => keeps_unlockDevice none_locked none_closing⟩
  · exact keeps_unlockDevice none_locked none_closing

private theorem keeps_adevCloseOutputStream (mine : σ ∈ usable) :
    Keeps (Playback.adevCloseOutputStream σ) ⟨False, ∅, usable, {σ}⟩ fun _ h => h.Nothing := by
  have count_out := @keeps_countOut ({σ} \ {σ}) (usable \ {σ}) ({σ} \ {σ}) Set.sdiff_self
    Set.sdiff_self
  simp only [Playback.adevCloseOutputStream, Prog.ensures_bind] at count_out ⊢
  refine keeps_call.mpr ⟨⟨mine, rfl, id⟩, fun _ => ?_⟩
  refine (keeps_outClosePcmLocked mine).mono fun _ h same => ?_
  obtain rfl := same
  exact keeps_call.mpr ⟨rfl, fun _ => keeps_call.mpr ⟨⟨rfl, Set.sdiff_self⟩, fun _ => count_out⟩⟩

private theorem keeps_outGetRenderPosition (pointer : Bool) (mine : σ ∈ usable)
    (none_closing : closing = ∅) :
    Keeps (outGetRenderPosition σ pointer) ⟨False, ∅, usable, closing⟩ fun _ h => h.Nothing := by
  unfold outGetRenderPosition
  split
  · exact ⟨id, rfl, none_closing⟩
  · simp only [Prog.ensures_bind]
    refine keeps_call.mpr ⟨⟨mine, rfl, id⟩, fun _ => keeps_call.mpr ⟨⟨mine, rfl⟩, fun out => ?_⟩⟩
    exact keeps_unlockStream none_closing

private theorem keeps_outGetPresentationPosition (pointers : Bool)
    (htimestamp : Option Position.Htimestamp) (now : Int) (mine : σ ∈ usable)
    (none_closing : closing = ∅) :
    Keeps (outGetPresentationPosition σ pointers htimestamp now) ⟨False, ∅, usable, closing⟩
      fun _ h => h.Nothing := by
  unfold outGetPresentationPosition
  split
  · exact ⟨id, rfl, none_closing⟩
  · simp only [Prog.ensures_bind]
    refine keeps_call.mpr ⟨⟨mine, rfl, id⟩, fun _ => keeps_call.mpr ⟨⟨mine, rfl⟩, fun out => ?_⟩⟩
    exact keeps_unlockStream none_closing

private theorem keeps_adevInitCheck (none_closing : closing = ∅) :
    Keeps (adevInitCheck : Hal X Int) ⟨False, ∅, usable, closing⟩ fun _ h => h.Nothing := by
  simp only [adevInitCheck, Prog.ensures_bind]
  exact keeps_section always_adevMixerLocked fun _ => ⟨id, rfl, none_closing⟩

private theorem keeps_adevSetMode (mode : Int) (none_closing : closing = ∅) :
    Keeps (adevSetMode mode : Hal X Unit) ⟨False, ∅, usable, closing⟩ fun _ h => h.Nothing := by
  simp only [adevSetMode, Prog.ensures_bind]
  refine keeps_call.mpr ⟨id, fun _ => keeps_call.mpr ⟨trivial, fun adev => ?_⟩⟩
  exact keeps_call.mpr ⟨trivial, fun _ => keeps_unlockDevice rfl none_closing⟩

private theorem keeps_adevSetMicMute (state : Bool) (none_closing : closing = ∅) :
    Keeps (adevSetMicMute state : Hal X Unit) ⟨False, ∅, usable, closing⟩ fun _ h =>
      h.Nothing := by
  simp only [adevSetMicMute, Prog.ensures_bind]
  refine keeps_call.mpr ⟨id, fun _ => keeps_call.mpr ⟨trivial, fun adev => ?_⟩⟩
  exact keeps_call.mpr ⟨trivial, fun _ => keeps_unlockDevice rfl none_closing⟩

private theorem keeps_adevGetMicMute (pointer : Bool) (none_closing : closing = ∅) :
    Keeps (adevGetMicMute pointer : Hal X (Int × Option Bool)) ⟨False, ∅, usable, closing⟩
      fun _ h => h.Nothing := by
  unfold adevGetMicMute
  split
  · exact ⟨id, rfl, none_closing⟩
  · simp only [Prog.ensures_bind]
    refine keeps_call.mpr ⟨id, fun _ => keeps_call.mpr ⟨trivial, fun adev => ?_⟩⟩
    exact keeps_unlockDevice rfl none_closing

private theorem keeps_adevDump (none_closing : closing = ∅) :
    Keeps (adevDump : Hal X String) ⟨False, ∅, usable, closing⟩ fun _ h => h.Nothing := by
  simp only [adevDump, Prog.ensures_bind]
  refine keeps_call.mpr ⟨id, fun _ => keeps_call.mpr ⟨trivial, fun adev => ?_⟩⟩
  exact keeps_unlockDevice rfl none_closing

private theorem keeps_inClosePcmLocked (mine : σ ∈ usable) :
    Keeps (Capture.inClosePcmLocked σ) ⟨False, {σ}, usable, closing⟩ fun _ h =>
      h = ⟨False, {σ}, usable, closing⟩ := by
  have unroute : Keeps (X := Capture.Stream) (do
      let in_ ← Hal.call (.loadStream σ)
      if in_.routed then
        Hal.call .lockDevice
        adevRouteInDisable
        Hal.call .unlockDevice
        Hal.call (.storeStream σ { in_ with routed := false })
      let in_ ← Hal.call (.loadStream σ)
      Hal.call (.storeStream σ { in_ with standby := true }))
      ⟨False, {σ}, usable, closing⟩ fun _ h => h = ⟨False, {σ}, usable, closing⟩ := by
    simp only [Prog.ensures_bind]
    refine keeps_call.mpr ⟨⟨mine, rfl⟩, fun in_ => ?_⟩
    split
    · simp only [Prog.ensures_bind]
      refine keeps_section always_adevRouteInDisable fun _ => ?_
      refine keeps_call.mpr ⟨⟨mine, rfl⟩, fun _ => keeps_call.mpr ⟨⟨mine, rfl⟩, fun in_ => ?_⟩⟩
      exact keeps_call.mpr ⟨⟨mine, rfl⟩, fun _ => rfl⟩
    · simp only [Prog.ensures_bind]
      refine keeps_call.mpr ⟨⟨mine, rfl⟩, fun in_ => ?_⟩
      exact keeps_call.mpr ⟨⟨mine, rfl⟩, fun _ => rfl⟩
  simp only [Capture.inClosePcmLocked, Prog.ensures_bind] at unroute ⊢
  refine keeps_call.mpr ⟨⟨mine, rfl⟩, fun in_ => ?_⟩
  split
  · simp only [Prog.ensures_bind]
    refine keeps_call.mpr ⟨⟨Set.singleton_nonempty σ, id⟩, fun _ => ?_⟩
    exact keeps_call.mpr ⟨⟨mine, rfl⟩, fun _ => unroute⟩
  · exact unroute

private theorem keeps_inOpenPcmLocked (mine : σ ∈ usable) :
    Keeps (Capture.inOpenPcmLocked σ) ⟨False, {σ}, usable, closing⟩ fun _ h =>
      h = ⟨False, {σ}, usable, closing⟩ := by
  simp only [Capture.inOpenPcmLocked, Prog.ensures_bind]
  refine keeps_call.mpr ⟨⟨mine, rfl⟩, fun in_ => ?_⟩
  split
  · rfl
  · simp only [Prog.ensures_bind]
    refine keeps_section always_adevRouteInEnable fun _ => ?_
    refine keeps_call.mpr ⟨⟨mine, rfl⟩, fun _ => ?_⟩
    refine keeps_call.mpr ⟨⟨Set.singleton_nonempty σ, id⟩, fun ready => ?_⟩
    split
    · simp only [Prog.ensures_bind]
      exact keeps_call.mpr ⟨⟨mine, rfl⟩, fun _ => rfl⟩
    · simp only [Prog.ensures_bind]
      refine keeps_section always_adevRouteInDisable fun _ => ?_
      exact keeps_call.mpr ⟨⟨mine, rfl⟩, fun _ => rfl⟩

private theorem keeps_inStandby (mine : σ ∈ usable) (none_closing : closing = ∅) :
    Keeps (Capture.inStandby σ) ⟨False, ∅, usable, closing⟩ fun _ h => h.Nothing := by
  simp only [Capture.inStandby, Prog.ensures_bind]
  refine keeps_call.mpr ⟨⟨mine, rfl, id⟩, fun _ => keeps_call.mpr ⟨⟨mine, rfl⟩, fun in_ => ?_⟩⟩
  split
  · simp only [Prog.ensures_bind]
    refine (keeps_inClosePcmLocked mine).mono fun _ h same => ?_
    obtain rfl := same
    exact keeps_unlockStream none_closing
  · exact keeps_unlockStream none_closing

private theorem keeps_inRead (mine : σ ∈ usable) (none_closing : closing = ∅) :
    Keeps (Capture.inRead σ) ⟨False, ∅, usable, closing⟩ fun _ h => h.Nothing := by
  have transfer (ret : Int) : Keeps (X := Capture.Stream) (do
      if ret ≠ 0 then
        Hal.call (.unlockStream σ)
      else if ← Hal.call .pcmTransfer then
        Hal.call (.unlockStream σ)
        Hal.call .lockDevice
        let _ ← Hal.call .loadDevice
        Hal.call .unlockDevice
      else
        Capture.inClosePcmLocked σ
        Hal.call (.unlockStream σ))
      ⟨False, {σ}, usable, closing⟩ fun _ h => h.Nothing := by
    split
    · exact keeps_unlockStream none_closing
    · simp only [Prog.ensures_bind]
      refine keeps_call.mpr ⟨⟨Set.singleton_nonempty σ, id⟩, fun moved => ?_⟩
      split
      · simp only [Prog.ensures_bind]
        refine keeps_call.mpr ⟨rfl, fun _ => keeps_call.mpr ⟨id, fun _ => ?_⟩⟩
        refine keeps_call.mpr ⟨trivial, fun adev => ?_⟩
        exact keeps_unlockDevice Set.sdiff_self none_closing
      · simp only [Prog.ensures_bind]
        refine (keeps_inClosePcmLocked mine).mono fun _ h same => ?_
        obtain rfl := same
        exact keeps_unlockStream none_closing
  simp only [Capture.inRead, Prog.ensures_bind]
  refine keeps_call.mpr ⟨⟨mine, rfl, id⟩, fun _ => keeps_call.mpr ⟨⟨mine, rfl⟩, fun in_ => ?_⟩⟩
  split
  · rw [Prog.ensures_bind]
    exact transfer 0
  · rw [Prog.ensures_bind]
    refine (keeps_inOpenPcmLocked mine).mono fun ret h same => ?_
    obtain rfl := same
    exact transfer ret

private theorem keeps_inSetParameters (routing : Option Int) (mine : σ ∈ usable)
    (none_closing : closing = ∅) :
    Keeps (Capture.inSetParameters σ routing) ⟨False, ∅, usable, closing⟩ fun _ h =>
      h.Nothing := by
  cases routing with
  | none => exact ⟨id, rfl, none_closing⟩
  | some routing =>
      simp only [Capture.inSetParameters, Prog.ensures_bind]
      refine keeps_call.mpr ⟨⟨mine, rfl, id⟩, fun _ => ?_⟩
      refine keeps_call.mpr ⟨⟨mine, rfl⟩, fun in_ => keeps_call.mpr ⟨⟨mine, rfl⟩, fun _ => ?_⟩⟩
      exact keeps_unlockStream none_closing

private theorem keeps_adevCloseInputStream (mine : σ ∈ usable) :
    Keeps (Capture.adevCloseInputStream σ) ⟨False, ∅, usable, {σ}⟩ fun _ h => h.Nothing := by
  simp only [Capture.adevCloseInputStream, Prog.ensures_bind]
  refine keeps_call.mpr ⟨⟨mine, rfl, id⟩, fun _ => ?_⟩
  refine (keeps_inClosePcmLocked mine).mono fun _ h same => ?_
  obtain rfl := same
  refine keeps_call.mpr ⟨rfl, fun _ => keeps_call.mpr ⟨⟨rfl, Set.sdiff_self⟩, fun _ => ?_⟩⟩
  exact ⟨id, Set.sdiff_self, Set.sdiff_self⟩

private theorem none_named : {σ : StreamId | none = some σ} = ∅ :=
  Set.eq_empty_iff_forall_notMem.mpr fun σ named => Option.some_ne_none σ named.symm

private theorem one_named (σ : StreamId) : {τ | some σ = some τ} = {σ} :=
  Set.ext fun τ => by
    simp only [Set.mem_ofPred_eq, Option.some.injEq, Set.mem_singleton_iff, eq_comm]

private theorem keeps_playback (i : Playback.Invocation) :
    Keeps i.code (Held.begun i.stream i.closes) fun _ h => h.Nothing := by
  cases i with
  | openOutputStream devices => exact keeps_adevOpenOutputStream devices none_named
  | closeOutputStream σ =>
      have closes := @keeps_adevCloseOutputStream σ {τ | some σ = some τ} rfl
      rw [← one_named] at closes
      exact closes
  | write σ bytes => exact keeps_outWrite bytes rfl none_named
  | standby σ => exact keeps_outStandby rfl none_named
  | setParameters σ routing => exact keeps_outSetParameters routing rfl none_named
  | setVolume σ volume => exact keeps_outSetVolume volume none_named

theorem keeps_output (i : OutputCall) :
    Keeps (outputCalls.code i) (Held.begun (outputCalls.stream i) (outputCalls.closes i)) fun _ h =>
      h.Nothing := by
  cases i with
  | playback i => exact keeps_playback i
  | renderPosition σ pointer =>
      exact Prog.ensures_bind.mpr (keeps_outGetRenderPosition pointer rfl none_named)
  | presentationPosition σ pointers htimestamp now =>
      exact Prog.ensures_bind.mpr
        (keeps_outGetPresentationPosition pointers htimestamp now rfl none_named)
  | initCheck => exact Prog.ensures_bind.mpr (keeps_adevInitCheck none_named)
  | setMode mode => exact keeps_adevSetMode mode none_named
  | setMicMute state => exact keeps_adevSetMicMute state none_named
  | getMicMute pointer => exact Prog.ensures_bind.mpr (keeps_adevGetMicMute pointer none_named)
  | dump => exact Prog.ensures_bind.mpr (keeps_adevDump none_named)

theorem keeps_capture (i : Capture.Invocation) :
    Keeps (Capture.interface.code i)
      (Held.begun (Capture.interface.stream i) (Capture.interface.closes i)) fun _ h =>
        h.Nothing := by
  cases i with
  | openInputStream devices =>
      refine Prog.ensures_bind.mpr (keeps_call.mpr ⟨id, fun allocated => ?_⟩)
      exact ⟨id, rfl, none_named⟩
  | closeInputStream σ =>
      have closes := @keeps_adevCloseInputStream σ {τ | some σ = some τ} rfl
      rw [← one_named] at closes
      exact closes
  | read σ => exact keeps_inRead rfl none_named
  | standby σ => exact keeps_inStandby rfl none_named
  | setParameters σ routing => exact keeps_inSetParameters routing rfl none_named

end Code

end XdPlus.Audio.LockRules
