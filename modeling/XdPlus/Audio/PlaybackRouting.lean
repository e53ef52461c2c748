/- Module: XdPlus/Audio/PlaybackRouting
   source: audio/audio_hw.c, the locks around the playback path
   digest: Amps, switches and gains follow the reference count, and the stream's flags follow
     each other, in every interleaving. -/

import XdPlus.Audio.Playback

set_option autoImplicit false
set_option relaxedAutoImplicit false

namespace XdPlus.Audio.PlaybackRouting

open XdPlus.Base Routing Process Playback

/-- The card as the device describes it, with the device's lock free. -/
structure Routed (d : Device) (m : Mixer) : Prop where
  amp : ∀ a, m.amp a = true ↔ 0 < d.outRouteRefs ∧ d.outAmp = some a
  left_switch : m.switch .o03i05 = if 0 < d.outRouteRefs then 1 else 0
  right_switch : m.switch .o04i06 = if 0 < d.outRouteRefs then 1 else 0
  left_gain : 0 < d.outRouteRefs → m.gain .left = d.gainIndex
  right_gain : 0 < d.outRouteRefs → m.gain .right = d.gainIndex
  opened : 0 < d.outRouteRefs → d.mixer = true
  named : 0 < d.outRouteRefs → ∃ a, d.outAmp = some a

/-- A stream with its lock free: its PCM is open, it is routed and it is out of standby, or
none of it. -/
structure Settled (out : Stream) : Prop where
  pcm_routed : out.pcm = out.routed
  pcm_standby : out.pcm = !out.standby

/-- What a thread has of the stream it works on: nobody else can route it, so nobody else
changes the reference count either. -/
structure Hold where
  id : StreamId
  out : Stream
  refs : Int
  locked : Bool
  closing : Bool

structure View where
  device : Option (Device × Mixer)
  hold : Option Hold
  slot : Bool
  call : Option Invocation

def holdOf (t : Tid) (s : State) : Option Hold :=
  match s.ledger with
  | .stream σ =>
      if owner s σ = some t then
        (s.streams σ).map fun out =>
          ⟨σ, out, s.device.outRouteRefs, s.streamLock σ = some t, s.closer σ = some t⟩
      else none
  | _ => none

/-- What belongs to the holder of the device's lock. -/
def card (s : State) : Device × Mixer := (s.device, s.mixer)

def mine (t : Tid) (s : State) : View where
  device := shown card t s
  hold := holdOf t s
  slot := s.ledger = .thread t
  call := s.calling t

structure Inv (s : State) : Prop where
  routed : s.deviceLock = none → Routed s.device s.mixer
  settled : ∀ σ out, s.streams σ = some out → s.streamLock σ = none → Settled out
  only : ∀ σ out, s.streams σ = some out → s.ledger = .stream σ
  unlocked : ∀ σ, s.streams σ = none → s.streamLock σ = none ∧ s.closer σ = none
  closing : ∀ σ t, s.closer σ = some t → s.streamLock σ = none ∨ s.streamLock σ = some t
  alone : ∀ σ t, s.closer σ = some t →
    ∀ u j, s.calling u = some j → j.stream = some σ → u = t
  count : s.device.outStreams = if s.ledger = .free then 0 else 1
  refs : s.device.outRouteRefs = 0 ∨ s.device.outRouteRefs = 1
  carried : s.device.outRouteRefs = 1 →
    ∃ σ out, s.streams σ = some out ∧ (out.routed = true ∨ s.streamLock σ ≠ none)
  silent : s.device.outRouteRefs = 0 →
    (∀ t σ, s.deviceLock = some t → s.streamLock σ ≠ some t) → ∀ a, s.mixer.amp a = false
  called : ∀ σ t, owner s σ = some t → ∃ i, s.calling t = some i ∧ i.stream = some σ

/-- Verified from the view `v` of thread `t`. -/
abbrev Holds {α : Type} (t : Tid) (p : Hal Stream α) (v : View) (post : α → View → Prop) : Prop :=
  p.Ensures (system.ownView Inv mine t) (system.Keeps Inv mine t) v post

section Views

variable {s : State} {t u : Tid} {v : View}

private theorem mine_device {d : Device} {m : Mixer} (view : mine t s = v)
    (held : v.device = some (d, m)) :
    s.deviceLock = some t ∧ s.device = d ∧ s.mixer = m := by
  subst view
  obtain ⟨lock, same⟩ := shown_eq_some.mp held
  exact ⟨lock, Prod.mk.inj same⟩

private theorem mine_hold {h : Hold} (view : mine t s = v) (held : v.hold = some h) :
    s.ledger = .stream h.id ∧ owner s h.id = some t ∧ s.streams h.id = some h.out ∧
      s.device.outRouteRefs = h.refs ∧ h.locked = decide (s.streamLock h.id = some t) ∧
      h.closing = decide (s.closer h.id = some t) := by
  subst view
  simp only [mine, holdOf] at held
  cases slot : s.ledger with
  | free => simp [slot] at held
  | thread u => simp [slot] at held
  | stream σ =>
      simp only [slot] at held
      split_ifs at held with own
      obtain ⟨out, live, rfl⟩ := Option.map_eq_some_iff.mp held
      exact ⟨rfl, own, live, rfl, rfl, rfl⟩

private theorem mine_congr {s' : State}
    (device : shown card u s' = shown card u s)
    (hold : holdOf u s' = holdOf u s)
    (slot : s'.ledger = .thread u ↔ s.ledger = .thread u) (call : s'.calling u = s.calling u) :
    mine u s' = mine u s := by
  simp only [mine, View.mk.injEq]
  exact ⟨device, hold, by simp [slot], call⟩

private theorem holdOf_congr {s' : State} (slot : s'.ledger = s.ledger)
    (streams : s'.streams = s.streams) (lock : s'.streamLock = s.streamLock)
    (closer : s'.closer = s.closer)
    (refs : s'.device.outRouteRefs = s.device.outRouteRefs) : holdOf u s' = holdOf u s := by
  unfold holdOf owner
  rw [slot, streams, lock, closer, refs]

private theorem mine_locked {h : Option Hold} (lock : s.deviceLock = some t)
    (hold : holdOf t s = h) :
    mine t s = ⟨some (s.device, s.mixer), h, s.ledger = .thread t, s.calling t⟩ := by
  simp only [mine, shown_held lock, hold, card]

private theorem mine_with_hold {s' : State} {h : Option Hold} (view : mine t s = v)
    (hold : holdOf t s' = h) (lock : s'.deviceLock = s.deviceLock) (device : s'.device = s.device)
    (mixer : s'.mixer = s.mixer) (slot : s'.ledger = s.ledger) (calling : s'.calling = s.calling) :
    mine t s' = { v with hold := h } := by
  subst view
  simp only [mine, shown, card, lock, device, mixer, slot, calling, hold]

private theorem holdOf_other {σ : StreamId} (slot : s.ledger = .stream σ)
    (other : owner s σ ≠ some u) : holdOf u s = none := by
  simp only [holdOf, slot, if_neg other]

private theorem holdOf_own {σ : StreamId} {out : Stream} (slot : s.ledger = .stream σ)
    (own : owner s σ = some t) (live : s.streams σ = some out) :
    holdOf t s = some ⟨σ, out, s.device.outRouteRefs, s.streamLock σ = some t,
      s.closer σ = some t⟩ := by
  simp only [holdOf, slot, if_pos own, live, Option.map_some]

end Views

section DeviceCalls

variable {t : Tid} {v : View} {d : Device} {m : Mixer}

private theorem touch {s : State} (d' : Device) (m' : Mixer) (inv : Inv s)
    (lock : s.deviceLock = some t) (refs : d'.outRouteRefs = s.device.outRouteRefs)
    (streams : d'.outStreams = s.device.outStreams)
    (quiet : s.device.outRouteRefs = 0 → (∀ σ, s.streamLock σ ≠ some t) →
      (∀ a, s.mixer.amp a = false) → ∀ a, m'.amp a = false) :
    (Inv { s with device := d', mixer := m' } ∧
      ∀ u, u ≠ t → mine u { s with device := d', mixer := m' } = mine u s) ∧
      mine t { s with device := d', mixer := m' } =
        { mine t s with device := some (d', m') } := by
  have hold (u : Tid) : holdOf u { s with device := d', mixer := m' } = holdOf u s :=
    holdOf_congr rfl rfl rfl rfl refs
  refine ⟨⟨?_, fun u ne => ?_⟩, ?_⟩
  · refine ⟨fun free => absurd (lock.symm.trans free) (by simp), inv.settled, inv.only,
      inv.unlocked, inv.closing, inv.alone, streams ▸ inv.count, refs ▸ inv.refs,
      refs ▸ inv.carried, fun none_routed apart => ?_, inv.called⟩
    have zero : s.device.outRouteRefs = 0 := refs ▸ none_routed
    exact quiet zero (fun σ => apart t σ lock) (inv.silent zero apart)
  · exact mine_congr (shown_other ne lock rfl) (hold u) Iff.rfl rfl
  · simp only [mine, hold t, shown, if_pos lock, card]

private theorem counted_same (slot : Slot) (t : Tid) (n : Int) : slot.counted t n n = slot := by
  simp [Slot.counted]

private theorem counted_in (slot : Slot) (t : Tid) (n : Int) :
    slot.counted t n (n + 1) = .thread t := by
  rw [Slot.counted, if_pos (by omega)]

private theorem counted_out (slot : Slot) (t : Tid) (n : Int) :
    slot.counted t n (n - 1) = .free := by
  rw [Slot.counted, if_neg (by omega), if_pos (by omega)]

private theorem stored {s s' : State} {d' : Device} {ans : Unit}
    (answered : system.env t s (.storeDevice d') ans s') :
    s' = { s with
      device := d'
      ledger := s.ledger.counted t s.device.outStreams d'.outStreams } := answered.2

private theorem holds_lockDevice {post : Unit → View → Prop}
    (next : ∀ d m, Routed d m → (d.outRouteRefs = 0 ∨ d.outRouteRefs = 1) →
      (∀ h, v.hold = some h → d.outRouteRefs = h.refs) → (v.slot = true → d.outStreams = 1) →
      (d.outStreams = 0 ∨ d.outStreams = 1) → post () { v with device := some (d, m) }) :
    Holds t (Hal.call .lockDevice) v post := by
  refine ThreadSystem.ensures_call fun s _ s' inv view answered => ?_
  obtain ⟨free, rfl⟩ : s.deviceLock = none ∧ s' = { s with deviceLock := some t } := answered
  have hold (u : Tid) : holdOf u { s with deviceLock := some t } = holdOf u s := rfl
  refine ⟨⟨?_, fun u ne => ?_⟩, ?_⟩
  · refine ⟨fun h => absurd h (by simp), inv.settled, inv.only, inv.unlocked, inv.closing,
      inv.alone, inv.count, inv.refs, inv.carried, fun zero _ => ?_, inv.called⟩
    exact inv.silent zero fun u σ held => absurd (free.symm.trans held) (by simp)
  · exact mine_congr (shown_lock ne free) (hold u) Iff.rfl rfl
  · have mine_eq : mine t { s with deviceLock := some t } =
        { mine t s with device := some (s.device, s.mixer) } := by
      simp only [mine, hold, shown, if_true, card]
    rw [mine_eq, view]
    refine next _ _ (inv.routed free) inv.refs (fun h held => (mine_hold view held).2.2.2.1)
      (fun slot => ?_) ?_
    · have occupied : s.ledger = .thread t := by
        have : (mine t s).slot = true := by rw [view, slot]
        simpa [mine] using this
      rw [inv.count, occupied]
      rfl
    · rw [inv.count]
      split_ifs
      · exact .inl rfl
      · exact .inr rfl

private theorem holds_unlockDevice {post : Unit → View → Prop}
    (held : v.device = some (d, m)) (routed : Routed d m)
    (next : post () { v with device := none }) : Holds t (Hal.call .unlockDevice) v post := by
  refine ThreadSystem.ensures_call fun s _ s' inv view answered => ?_
  obtain rfl : s' = { s with deviceLock := none } := answered.2
  obtain ⟨lock, rfl, rfl⟩ := mine_device view held
  have hold (u : Tid) : holdOf u { s with deviceLock := none } = holdOf u s := rfl
  refine ⟨⟨?_, fun u ne => ?_⟩, ?_⟩
  · refine ⟨fun _ => routed, inv.settled, inv.only, inv.unlocked, inv.closing, inv.alone,
      inv.count, inv.refs, inv.carried, fun zero _ a => ?_, inv.called⟩
    have none_routed : ¬ 0 < s.device.outRouteRefs := by
      have same : s.device.outRouteRefs = 0 := zero
      omega
    exact Bool.eq_false_iff.mpr fun on => none_routed ((routed.amp a).mp on).1
  · exact mine_congr (shown_unlock ne lock) (hold u) Iff.rfl rfl
  · have mine_eq : mine t { s with deviceLock := none } = { mine t s with device := none } := by
      simp only [mine, hold, shown_unlocked]
    rw [mine_eq, view]
    exact next

private theorem holds_loadDevice {post : Device → View → Prop}
    (held : v.device = some (d, m)) (next : post d v) :
    Holds t (Hal.call .loadDevice) v post := by
  refine ThreadSystem.ensures_still fun s adev s' _ view answered => ?_
  obtain ⟨rfl, same⟩ : adev = s.device ∧ s' = s := answered
  obtain ⟨-, rfl, -⟩ := mine_device view held
  exact ⟨same, next⟩

private theorem holds_storeDevice {post : Unit → View → Prop} {d' : Device}
    (held : v.device = some (d, m)) (refs : d'.outRouteRefs = d.outRouteRefs)
    (streams : d'.outStreams = d.outStreams)
    (next : post () { v with device := some (d', m) }) :
    Holds t (Hal.call (.storeDevice d')) v post := by
  refine ThreadSystem.ensures_call fun s _ s' inv view answered => ?_
  obtain ⟨lock, rfl, rfl⟩ := mine_device view held
  obtain rfl : s' = { s with device := d' } :=
    (stored answered).trans (by rw [streams, counted_same])
  have kept := touch d' s.mixer inv lock refs streams fun _ _ off => off
  exact ⟨kept.1, by rw [kept.2, view]; exact next⟩

private theorem holds_storeRefs {post : Unit → View → Prop} {h : Hold} {n : Int}
    (held : v.device = some (d, m)) (holding : v.hold = some h) (locked : h.locked = true)
    (range : n = 0 ∨ n = 1)
    (next : post () { v with
      device := some ({ d with outRouteRefs := n }, m)
      hold := some { h with refs := n } }) :
    Holds t (Hal.call (.storeDevice { d with outRouteRefs := n })) v post := by
  refine ThreadSystem.ensures_call fun s _ s' inv view answered => ?_
  obtain ⟨lock, rfl, rfl⟩ := mine_device view held
  obtain ⟨slot, own, live, -, lock_eq, closing⟩ := mine_hold view holding
  obtain rfl : s' = { s with device := { s.device with outRouteRefs := n } } :=
    (stored answered).trans (by rw [counted_same])
  have stream_lock : s.streamLock h.id = some t := by simpa [locked] using lock_eq.symm
  refine ⟨⟨?_, fun u ne => ?_⟩, ?_⟩
  · refine ⟨fun free => absurd (lock.symm.trans free) (by simp), inv.settled, inv.only,
      inv.unlocked, inv.closing, inv.alone, inv.count, range, fun _ => ?_, fun _ apart => ?_,
      inv.called⟩
    · exact ⟨h.id, h.out, live, .inr (by simp [stream_lock])⟩
    · exact absurd stream_lock (apart t h.id lock)
  · refine mine_congr (shown_other ne lock rfl) ?_ Iff.rfl rfl
    · have other : owner s h.id ≠ some u := fun same => ne (Option.some.inj (same.symm.trans own))
      rw [holdOf_other slot other]
      exact holdOf_other slot other
  · have mine_eq : mine t { s with device := { s.device with outRouteRefs := n } } =
        { mine t s with
          device := some ({ s.device with outRouteRefs := n }, s.mixer)
          hold := some { h with refs := n } } := by
      simp only [mine, shown, card, lock, if_true, View.mk.injEq, and_true, true_and]
      rw [lock_eq, closing]
      exact holdOf_own slot own live
    rw [mine_eq, view]
    exact next

private theorem recount {s : State} (n : Int) (slot : Slot) (inv : Inv s)
    (lock : s.deviceLock = some t) (vacant : ∀ σ, s.ledger ≠ .stream σ)
    (owned : ∀ u, s.ledger = .thread u → u = t) (slot_owned : ∀ u, slot = .thread u → u = t)
    (none_now : ∀ σ, slot ≠ .stream σ) (count : n = if slot = .free then 0 else 1) :
    (Inv { s with device := { s.device with outStreams := n }, ledger := slot } ∧
      ∀ u, u ≠ t →
        mine u { s with device := { s.device with outStreams := n }, ledger := slot } = mine u s) ∧
      mine t { s with device := { s.device with outStreams := n }, ledger := slot } =
        { mine t s with
          device := some ({ s.device with outStreams := n }, s.mixer)
          slot := decide (slot = .thread t) } := by
  have no_stream (σ : StreamId) : s.streams σ = none := by
    cases live : s.streams σ with
    | none => rfl
    | some out => exact absurd (inv.only σ out live) (vacant σ)
  have no_hold (u : Tid) : holdOf u s = none := by
    unfold holdOf
    cases held : s.ledger with
    | stream σ => exact absurd held (vacant σ)
    | free => rfl
    | thread _ => rfl
  have no_hold' (u : Tid) :
      holdOf u { s with device := { s.device with outStreams := n }, ledger := slot } = none := by
    unfold holdOf
    cases slot with
    | stream σ => exact absurd rfl (none_now σ)
    | free => rfl
    | thread _ => rfl
  refine ⟨⟨?_, fun u ne => ?_⟩, ?_⟩
  · refine ⟨fun free => absurd (lock.symm.trans free) (by simp), inv.settled, ?_, inv.unlocked,
      inv.closing, inv.alone, count, inv.refs, inv.carried, inv.silent, inv.called⟩
    intro σ out live
    exact absurd (live.symm.trans (no_stream σ)) (by simp)
  · refine mine_congr (shown_other ne lock rfl) ((no_hold' u).trans (no_hold u).symm) ?_ rfl
    · exact ⟨fun now => absurd (slot_owned u now) ne, fun before => absurd (owned u before) ne⟩
  · rw [mine_locked lock (no_hold t)]
    exact mine_locked lock (no_hold' t)

private theorem holds_countIn {post : Unit → View → Prop} (held : v.device = some (d, m))
    (none_yet : d.outStreams = 0)
    (next : post () { v with
      device := some ({ d with outStreams := d.outStreams + 1 }, m)
      slot := true }) :
    Holds t (Hal.call (.storeDevice { d with outStreams := d.outStreams + 1 })) v post := by
  refine ThreadSystem.ensures_call fun s _ s' inv view answered => ?_
  obtain ⟨lock, rfl, rfl⟩ := mine_device view held
  have free : s.ledger = .free := by
    by_contra taken
    have := inv.count
    rw [if_neg taken] at this
    omega
  obtain rfl : s' = { s with
      device := { s.device with outStreams := s.device.outStreams + 1 }, ledger := .thread t } :=
    (stored answered).trans (by rw [counted_in])
  have kept := recount (s.device.outStreams + 1) (.thread t) inv lock (by simp [free])
    (by simp [free]) (by simp [eq_comm]) (by simp) (by simp [none_yet])
  refine ⟨kept.1, ?_⟩
  rw [kept.2, view]
  simpa using next

private theorem holds_countOut {post : Unit → View → Prop} (held : v.device = some (d, m))
    (slot : v.slot = true) (one : d.outStreams = 1)
    (next : post () { v with
      device := some ({ d with outStreams := d.outStreams - 1 }, m)
      slot := false }) :
    Holds t (Hal.call (.storeDevice { d with outStreams := d.outStreams - 1 })) v post := by
  refine ThreadSystem.ensures_call fun s _ s' inv view answered => ?_
  obtain ⟨lock, rfl, rfl⟩ := mine_device view held
  have taken : s.ledger = .thread t := by
    have : (mine t s).slot = true := by rw [view, slot]
    simpa [mine] using this
  obtain rfl : s' = { s with
      device := { s.device with outStreams := s.device.outStreams - 1 }, ledger := .free } :=
    (stored answered).trans (by rw [counted_out])
  have kept := recount (s.device.outStreams - 1) .free inv lock (by simp [taken])
    (by simp [taken, eq_comm]) (by simp) (by simp) (by simp [one])
  refine ⟨kept.1, ?_⟩
  rw [kept.2, view]
  simpa using next

private theorem holds_write {op : Call Stream} {post : Answer op → View → Prop}
    (f : Mixer → Mixer) (held : v.device = some (d, m))
    (does : ∀ s ans s', system.env t s op ans s' → s' = { s with mixer := f s.mixer })
    (allowed : (f m).amp = m.amp ∨ d.outRouteRefs ≠ 0 ∨
      ∃ h, v.hold = some h ∧ h.locked = true)
    (next : ∀ ans, post ans { v with device := some (d, f m) }) :
    Holds t (Hal.call op) v post := by
  refine ThreadSystem.ensures_call fun s ans s' inv view answered => ?_
  obtain ⟨lock, rfl, rfl⟩ := mine_device view held
  obtain rfl := does s ans s' answered
  have kept := touch s.device (f s.mixer) inv lock rfl rfl ?_
  · refine ⟨kept.1, ?_⟩
    rw [kept.2, view]
    exact next ans
  · intro zero apart off
    rcases allowed with same | some_routed | ⟨h, holding, locked⟩
    · rw [same]
      exact off
    · exact absurd zero some_routed
    · have stream_lock : s.streamLock h.id = some t := by
        simpa [locked] using (mine_hold view holding).2.2.2.2.1.symm
      exact absurd stream_lock (apart h.id)

private theorem holds_setSwitch {post : Unit → View → Prop} {c : Switch} {value : Int}
    (held : v.device = some (d, m))
    (next : post () { v with
      device := some (d, { m with switch := Function.update m.switch c value }) }) :
    Holds t (Hal.call (.setSwitch c value)) v post :=
  holds_write (fun m => { m with switch := Function.update m.switch c value }) held
    (fun _ _ _ answered => answered.2) (.inl rfl) fun _ => next

private theorem holds_setGain {post : Unit → View → Prop} {c : Gain} {index : Int}
    (held : v.device = some (d, m))
    (next : post () { v with
      device := some (d, { m with gain := Function.update m.gain c index }) }) :
    Holds t (Hal.call (.setGain c index)) v post :=
  holds_write (fun m => { m with gain := Function.update m.gain c index }) held
    (fun _ _ _ answered => answered.2) (.inl rfl) fun _ => next

private theorem holds_setAmp {post : Unit → View → Prop} {c : Amp} {on : Bool}
    (held : v.device = some (d, m))
    (allowed : d.outRouteRefs ≠ 0 ∨ ∃ h, v.hold = some h ∧ h.locked = true)
    (next : post () { v with
      device := some (d, { m with amp := Function.update m.amp c on }) }) :
    Holds t (Hal.call (.setAmp c on)) v post :=
  holds_write (fun m => { m with amp := Function.update m.amp c on }) held
    (fun _ _ _ answered => answered.2) (.inr allowed) fun _ => next

end DeviceCalls

section StreamCalls

variable {t : Tid} {v : View}

private theorem holds_still {op : Call Stream} {post : Answer op → View → Prop}
    (still : ∀ s ans s', system.env t s op ans s' → s' = s) (next : ∀ ans, post ans v) :
    Holds t (Hal.call op) v post := by
  exact ThreadSystem.ensures_still fun s ans s' _ _ answered => ⟨still s ans s' answered, next ans⟩

private theorem relock {s : State} {σ : StreamId} {out : Stream} (lock : Option Tid)
    (inv : Inv s) (live : s.streams σ = some out)
    (mine_only : s.streamLock σ = none ∨ s.streamLock σ = some t)
    (lock_mine : lock = none ∨ lock = some t) (closer : s.closer σ = none ∨ s.closer σ = some t)
    (settled : lock = none → Settled out ∧ (s.device.outRouteRefs = 1 → out.routed = true))
    (quiet : s.deviceLock ≠ some t) (calls : ∃ i, s.calling t = some i ∧ i.stream = some σ) :
    Inv { s with streamLock := Function.update s.streamLock σ lock } ∧
      ∀ u, u ≠ t → mine u { s with streamLock := Function.update s.streamLock σ lock } =
        mine u s := by
  have slot := inv.only σ out live
  have unique {τ : StreamId} {x : Stream} (here : s.streams τ = some x) : τ = σ :=
    Slot.stream.inj ((inv.only τ x here).symm.trans slot)
  refine ⟨?_, fun u ne => ?_⟩
  · refine ⟨inv.routed, ?_, inv.only, ?_, ?_, inv.alone, inv.count, inv.refs, ?_, ?_, ?_⟩
    · intro τ x here free
      obtain rfl := unique here
      obtain rfl : out = x := Option.some.inj (live.symm.trans here)
      exact (settled (by simpa using free)).1
    · intro τ gone
      have apart : τ ≠ σ := by
        rintro rfl
        exact absurd (gone.symm.trans live) (by simp)
      simpa [Function.update_of_ne apart] using inv.unlocked τ gone
    · intro τ u closing
      rcases eq_or_ne τ σ with rfl | apart
      · have same : u = t := by
          rcases closer with none | some
          · exact absurd (closing.symm.trans none) (by simp)
          · exact Option.some.inj (closing.symm.trans some)
        simpa [same] using lock_mine
      · simpa [Function.update_of_ne apart] using inv.closing τ u closing
    · intro one
      refine ⟨σ, out, live, ?_⟩
      by_cases free : lock = none
      · exact .inl ((settled free).2 one)
      · exact .inr (by simpa using free)
    · intro zero apart
      refine inv.silent zero fun u τ held locked => ?_
      have holder : u ≠ t := fun same => quiet (same ▸ held)
      have elsewhere : τ ≠ σ := by
        rintro rfl
        rcases mine_only with free | own
        · exact absurd (locked.symm.trans free) (by simp)
        · exact holder (Option.some.inj (locked.symm.trans own))
      exact apart u τ held (by simpa [Function.update_of_ne elsewhere] using locked)
    · intro τ u owned
      rcases eq_or_ne τ σ with rfl | apart
      · have same : u = t := by
          unfold owner at owned
          rcases closer with none | some
          · rw [none] at owned
            rcases lock_mine with rfl | rfl
            · simp at owned
            · simpa using owned.symm
          · rw [some] at owned
            simpa using owned.symm
        exact same ▸ calls
      · exact inv.called τ u (by simpa [owner, Function.update_of_ne apart] using owned)
  · refine mine_congr rfl ?_ Iff.rfl rfl
    have before : owner s σ ≠ some u := by
      unfold owner
      rcases closer with none | some
      · rw [none]
        rcases mine_only with free | own
        · simp [free]
        · simp [own, ne.symm]
      · simp [some, ne.symm]
    have after : owner { s with streamLock := Function.update s.streamLock σ lock } σ ≠ some u := by
      unfold owner
      rcases closer with none | some
      · rw [none]
        rcases lock_mine with rfl | rfl
        · simp
        · simp [ne.symm]
      · simp [some, ne.symm]
    rw [holdOf_other slot before]
    exact holdOf_other slot after

private theorem view_device {s : State} (view : mine t s = v) (none_held : v.device = none) :
    s.deviceLock ≠ some t := by
  subst view
  exact shown_eq_none.mp none_held

private theorem view_call {s : State} {i : Invocation} (view : mine t s = v)
    (call : v.call = some i) : s.calling t = some i := by
  subst view
  exact call

private theorem unlocked_routed {s : State} {σ : StreamId} {out : Stream} (inv : Inv s)
    (live : s.streams σ = some out) (free : s.streamLock σ = none) :
    Settled out ∧ (s.device.outRouteRefs = 1 → out.routed = true) := by
  refine ⟨inv.settled σ out live free, fun one => ?_⟩
  obtain ⟨τ, x, here, routed⟩ := inv.carried one
  obtain rfl : τ = σ :=
    Slot.stream.inj ((inv.only τ x here).symm.trans (inv.only σ out live))
  obtain rfl : out = x := Option.some.inj (live.symm.trans here)
  exact routed.resolve_right (not_not_intro free)

private theorem holds_lockStream {post : Unit → View → Prop} {σ : StreamId} {i : Invocation}
    (none_held : v.device = none) (apart : v.hold = none) (call : v.call = some i)
    (on_it : i.stream = some σ)
    (next : ∀ out refs, Settled out → (refs = 0 ∨ refs = 1) → (refs = 1 → out.routed = true) →
      post () { v with hold := some ⟨σ, out, refs, true, false⟩ }) :
    Holds t (Hal.call (.lockStream σ)) v post := by
  refine ThreadSystem.ensures_call fun s _ s' inv view answered => ?_
  obtain ⟨⟨live, free⟩, rfl⟩ : ((s.streams σ).isSome ∧ s.streamLock σ = none) ∧
    s' = { s with streamLock := Function.update s.streamLock σ (some t) } := answered
  obtain ⟨out, live⟩ := Option.isSome_iff_exists.mp live
  have slot := inv.only σ out live
  obtain ⟨settled, routed⟩ := unlocked_routed inv live free
  have not_closing : s.closer σ = none := by
    cases closing : s.closer σ with
    | none => rfl
    | some u =>
        obtain rfl := inv.alone σ u closing t i (view_call view call) on_it
        have own : owner s σ = some t := by simp [owner, closing]
        have holding := holdOf_own slot own live
        have nothing : holdOf t s = none := by
          rw [← apart, ← view]
          rfl
        exact absurd (holding.symm.trans nothing) (by simp)
  have kept := relock (t := t) (some t) inv live (.inl free) (.inr rfl)
    (.inl not_closing) (by simp) (view_device view none_held) ⟨i, view_call view call, on_it⟩
  refine ⟨kept, ?_⟩
  have own : owner { s with streamLock := Function.update s.streamLock σ (some t) } σ = some t := by
    simp [owner, not_closing]
  have hold : holdOf t { s with streamLock := Function.update s.streamLock σ (some t) } =
      some ⟨σ, out, s.device.outRouteRefs, true, false⟩ := by
    rw [holdOf_own (s := { s with streamLock := Function.update s.streamLock σ (some t) })
      slot own live]
    simp [not_closing]
  rw [mine_with_hold view hold rfl rfl rfl rfl rfl]
  exact next out s.device.outRouteRefs settled inv.refs routed

private theorem holds_lockStream_closing {post : Unit → View → Prop} {h : Hold}
    (none_held : v.device = none) (holding : v.hold = some h) (closing : h.closing = true)
    (next : Settled h.out → (h.refs = 0 ∨ h.refs = 1) → (h.refs = 1 → h.out.routed = true) →
      post () { v with hold := some { h with locked := true } }) :
    Holds t (Hal.call (.lockStream h.id)) v post := by
  refine ThreadSystem.ensures_call fun s _ s' inv view answered => ?_
  obtain ⟨⟨-, lock_free⟩, rfl⟩ : ((s.streams h.id).isSome ∧ s.streamLock h.id = none) ∧
    s' = { s with streamLock := Function.update s.streamLock h.id (some t) } := answered
  obtain ⟨slot, own, live, refs, -, closer⟩ := mine_hold view holding
  have closer_mine : s.closer h.id = some t := by simpa [closing] using closer.symm
  obtain ⟨settled, routed⟩ := unlocked_routed inv live lock_free
  have kept := relock (t := t) (some t) inv live (.inl lock_free) (.inr rfl)
    (.inr closer_mine) (by simp) (view_device view none_held) (inv.called h.id t own)
  refine ⟨kept, ?_⟩
  have own' : owner { s with streamLock := Function.update s.streamLock h.id (some t) } h.id =
      some t := by
    simp [owner, closer_mine]
  have hold : holdOf t { s with streamLock := Function.update s.streamLock h.id (some t) } =
      some { h with locked := true } := by
    rw [holdOf_own (s := { s with streamLock := Function.update s.streamLock h.id (some t) })
      slot own' live]
    simp [closer_mine, refs, closing]
  rw [mine_with_hold view hold rfl rfl rfl rfl rfl]
  exact next settled (refs ▸ inv.refs) (refs ▸ routed)

private theorem holds_unlockStream {post : Unit → View → Prop} {h : Hold}
    (none_held : v.device = none) (holding : v.hold = some h) (locked : h.locked = true)
    (settled : Settled h.out) (routed : h.refs = 1 → h.out.routed = true)
    (next : post () { v with
      hold := if h.closing then some { h with locked := false } else none }) :
    Holds t (Hal.call (.unlockStream h.id)) v post := by
  refine ThreadSystem.ensures_call fun s _ s' inv view answered => ?_
  obtain rfl : s' = { s with streamLock := Function.update s.streamLock h.id none } := answered.2
  obtain ⟨slot, own, live, refs, lock_eq, closer⟩ := mine_hold view holding
  have lock_mine : s.streamLock h.id = some t := by simpa [locked] using lock_eq.symm
  have closer_cases : s.closer h.id = none ∨ s.closer h.id = some t := by
    cases closing : s.closer h.id with
    | none => exact .inl rfl
    | some u =>
        have : owner s h.id = some u := by simp [owner, closing]
        exact .inr (this.symm.trans own)
  have kept := relock (t := t) none inv live (.inr lock_mine) (.inl rfl) closer_cases
    (fun _ => ⟨settled, refs ▸ routed⟩) (view_device view none_held) (inv.called h.id t own)
  refine ⟨kept, ?_⟩
  rcases closer_cases with not_closing | closing
  · have other : owner { s with streamLock := Function.update s.streamLock h.id none } h.id ≠
        some t := by
      simp [owner, not_closing]
    rw [mine_with_hold view (holdOf_other (s := { s with
      streamLock := Function.update s.streamLock h.id none }) slot other) rfl rfl rfl rfl rfl]
    simpa [not_closing, closer] using next
  · have own' : owner { s with streamLock := Function.update s.streamLock h.id none } h.id =
        some t := by
      simp [owner, closing]
    have hold : holdOf t { s with streamLock := Function.update s.streamLock h.id none } =
        some { h with locked := false } := by
      rw [holdOf_own (s := { s with streamLock := Function.update s.streamLock h.id none })
        slot own' live]
      simp [closing, refs, closer]
    rw [mine_with_hold view hold rfl rfl rfl rfl rfl]
    simpa [closing, closer] using next

private theorem holds_loadStream {post : Stream → View → Prop} {h : Hold}
    (holding : v.hold = some h) (next : post h.out v) :
    Holds t (Hal.call (.loadStream h.id)) v post := by
  refine ThreadSystem.ensures_call fun s out s' inv view answered => ?_
  obtain ⟨here, rfl⟩ : s.streams h.id = some out ∧ s' = s := answered
  obtain ⟨-, -, live, -⟩ := mine_hold view holding
  obtain rfl : h.out = out := Option.some.inj (live.symm.trans here)
  exact ⟨⟨inv, fun _ _ => rfl⟩, view.symm ▸ next⟩

private theorem holds_storeStream {post : Unit → View → Prop} {h : Hold} {out : Stream}
    (holding : v.hold = some h) (locked : h.locked = true)
    (next : post () { v with hold := some { h with out := out } }) :
    Holds t (Hal.call (.storeStream h.id out)) v post := by
  refine ThreadSystem.ensures_call fun s _ s' inv view answered => ?_
  obtain ⟨-, rfl⟩ : (s.streams h.id).isSome ∧
    s' = { s with streams := Function.update s.streams h.id (some out) } := answered
  obtain ⟨slot, own, live, refs, lock_eq, closer⟩ := mine_hold view holding
  have lock_mine : s.streamLock h.id = some t := by simpa [locked] using lock_eq.symm
  have unique {τ : StreamId} {x : Stream}
      (here : Function.update s.streams h.id (some out) τ = some x) : τ = h.id := by
    by_contra apart
    rw [Function.update_of_ne apart] at here
    exact apart (Slot.stream.inj ((inv.only τ x here).symm.trans slot))
  refine ⟨⟨?_, fun u ne => ?_⟩, ?_⟩
  · refine ⟨inv.routed, ?_, ?_, ?_, inv.closing, inv.alone, inv.count, inv.refs, fun _ => ?_,
      inv.silent, inv.called⟩
    · intro τ x here free
      obtain rfl := unique here
      exact absurd (lock_mine.symm.trans free) (by simp)
    · intro τ x here
      rw [unique here]
      exact slot
    · intro τ gone
      have apart : τ ≠ h.id := by
        rintro rfl
        simp at gone
      exact inv.unlocked τ (by simpa [Function.update_of_ne apart] using gone)
    · exact ⟨h.id, out, by simp, .inr (by simp [lock_mine])⟩
  · refine mine_congr rfl ?_ Iff.rfl rfl
    have other : owner s h.id ≠ some u := fun same => ne (Option.some.inj (same.symm.trans own))
    rw [holdOf_other slot other]
    exact holdOf_other slot other
  · have hold : holdOf t { s with streams := Function.update s.streams h.id (some out) } =
        some { h with out := out } := by
      rw [lock_eq, closer, ← refs]
      exact holdOf_own (s := { s with streams := Function.update s.streams h.id (some out) })
        slot own (by simp)
    rw [mine_with_hold view hold rfl rfl rfl rfl rfl]
    exact next

private theorem holds_newStream {post : Option StreamId → View → Prop} {out : Stream}
    (slot : v.slot = true) (settled : Settled out) (failed : post none v)
    (next : ∀ σ, post (some σ) { v with slot := false }) :
    Holds t (Hal.call (.newStream out)) v post := by
  refine ThreadSystem.ensures_call fun s made s' inv view answered => ?_
  cases made with
  | none =>
      obtain rfl : s' = s := answered.2
      exact ⟨⟨inv, fun _ _ => rfl⟩, view.symm ▸ failed⟩
  | some σ =>
      obtain ⟨absent, rfl⟩ : s.streams σ = none ∧ s' = { s with
        streams := Function.update s.streams σ (some out), ledger := .stream σ } := answered
      have taken : s.ledger = .thread t := by
        have : (mine t s).slot = true := by rw [view, slot]
        simpa [mine] using this
      have empty (τ : StreamId) : s.streams τ = none := by
        cases live : s.streams τ with
        | none => rfl
        | some x => exact absurd ((inv.only τ x live).symm.trans taken) (by simp)
      have unrouted : s.device.outRouteRefs ≠ 1 := by
        intro one
        obtain ⟨τ, x, live, -⟩ := inv.carried one
        exact absurd (live.symm.trans (empty τ)) (by simp)
      have unowned : owner s σ = none := by
        simp [owner, (inv.unlocked σ absent).1, (inv.unlocked σ absent).2]
      have unheld (u : Tid) : holdOf u s = none := by simp [holdOf, taken]
      have unheld' (u : Tid) : holdOf u { s with
          streams := Function.update s.streams σ (some out), ledger := .stream σ } = none := by
        refine holdOf_other (σ := σ) rfl ?_
        change owner s σ ≠ some u
        simp [unowned]
      have only_new {τ : StreamId} {x : Stream}
          (here : Function.update s.streams σ (some out) τ = some x) : τ = σ := by
        by_contra apart
        rw [Function.update_of_ne apart, empty] at here
        cases here
      refine ⟨⟨?_, fun u ne => ?_⟩, ?_⟩
      · refine ⟨inv.routed, ?_, ?_, ?_, inv.closing, inv.alone, ?_, inv.refs, ?_, inv.silent,
          inv.called⟩
        · intro τ x here _
          obtain rfl := only_new here
          obtain rfl : out = x := by simpa using here
          exact settled
        · intro τ x here
          rw [only_new here]
        · intro τ gone
          exact inv.unlocked τ (empty τ)
        · have count := inv.count
          rw [taken] at count
          simpa using count
        · intro one
          exact absurd one unrouted
      · refine mine_congr rfl ((unheld' u).trans (unheld u).symm) ?_ rfl
        simp [taken, ne.symm]
      · have mine_eq : mine t { s with
            streams := Function.update s.streams σ (some out), ledger := .stream σ } =
              { mine t s with slot := false } := by
          simp only [mine, unheld, View.mk.injEq]
          exact ⟨rfl, unheld' t, by simp⟩
        rw [mine_eq, view]
        exact next σ

private theorem holds_freeStream {post : Unit → View → Prop} {h : Hold}
    (holding : v.hold = some h) (unlocked : h.locked = false) (closing : h.closing = true)
    (unrouted : h.refs = 1 → False) (next : post () { v with hold := none, slot := true }) :
    Holds t (Hal.call (.freeStream h.id)) v post := by
  refine ThreadSystem.ensures_call fun s _ s' inv view answered => ?_
  obtain rfl : s' = { s with
    streams := Function.update s.streams h.id none
    closer := Function.update s.closer h.id none
    ledger := .thread t } := answered.2
  obtain ⟨slot, own, live, refs, lock_eq, closer⟩ := mine_hold view holding
  have closer_mine : s.closer h.id = some t := by simpa [closing] using closer.symm
  have free : s.streamLock h.id = none := by
    refine (inv.closing h.id t closer_mine).resolve_right ?_
    simpa [unlocked] using lock_eq.symm
  have empty (τ : StreamId) : Function.update s.streams h.id none τ = none := by
    rcases eq_or_ne τ h.id with rfl | apart
    · simp
    · rw [Function.update_of_ne apart]
      cases here : s.streams τ with
      | none => rfl
      | some x => exact absurd (Slot.stream.inj ((inv.only τ x here).symm.trans slot)) apart
  refine ⟨⟨?_, fun u ne => ?_⟩, ?_⟩
  · refine ⟨inv.routed, ?_, ?_, ?_, ?_, ?_, ?_, inv.refs, ?_, inv.silent, ?_⟩
    · intro τ x here
      exact absurd (here.symm.trans (empty τ)) (by simp)
    · intro τ x here
      exact absurd (here.symm.trans (empty τ)) (by simp)
    · intro τ _
      rcases eq_or_ne τ h.id with rfl | apart
      · exact ⟨free, by simp⟩
      · have gone : s.streams τ = none := by
          simpa [Function.update_of_ne apart] using empty τ
        simpa [Function.update_of_ne apart] using inv.unlocked τ gone
    · intro τ u closing_it
      rcases eq_or_ne τ h.id with rfl | apart
      · simp at closing_it
      · exact inv.closing τ u (by simpa [Function.update_of_ne apart] using closing_it)
    · intro τ u closing_it
      rcases eq_or_ne τ h.id with rfl | apart
      · simp at closing_it
      · exact inv.alone τ u (by simpa [Function.update_of_ne apart] using closing_it)
    · have count := inv.count
      rw [slot] at count
      simpa using count
    · intro one
      exact absurd (refs.symm.trans one) unrouted
    · intro τ u owned
      rcases eq_or_ne τ h.id with rfl | apart
      · simp [owner, free] at owned
      · exact inv.called τ u (by simpa [owner, Function.update_of_ne apart] using owned)
  · refine mine_congr rfl ?_ ?_ rfl
    · have other : owner s h.id ≠ some u := fun same => ne (Option.some.inj (same.symm.trans own))
      rw [holdOf_other slot other]
      rfl
    · simp [slot, ne.symm]
  · have mine_eq : mine t { s with
        streams := Function.update s.streams h.id none
        closer := Function.update s.closer h.id none
        ledger := .thread t } = { mine t s with hold := none, slot := true } := by
      simp [mine, holdOf, shown, card]
    rw [mine_eq, view]
    exact next

end StreamCalls

section Routing

variable {t : Tid} {v : View} {d : Device} {m : Mixer}

private theorem Routed.silent (routed : Routed d m) (zero : d.outRouteRefs = 0) (a : Amp) :
    m.amp a = false :=
  Bool.eq_false_iff.mpr fun on => by
    have := ((routed.amp a).mp on).1
    omega

private theorem holds_adevMixerLocked {post : Bool → View → Prop} (held : v.device = some (d, m))
    (next : ∀ b, (d.mixer = true → b = true) →
      post b { v with device := some ({ d with mixer := b }, m) }) :
    Holds t adevMixerLocked v post := by
  unfold Holds
  simp only [adevMixerLocked, Prog.ensures_bind]
  refine holds_loadDevice held ?_
  cases opened : d.mixer with
  | true =>
      have same : { v with device := some ({ d with mixer := true }, m) } = v := by
        rw [← opened, ← held]
      simpa [same] using next true fun _ => rfl
  | false =>
      simp only [Bool.false_eq_true, if_false, Prog.ensures_bind]
      refine holds_still (fun _ _ _ answered => answered.2) fun b => ?_
      refine holds_storeDevice held rfl rfl ?_
      exact next b (by simp [opened])

private theorem routed_enable {amp : Amp} (routed : Routed d m) (zero : d.outRouteRefs = 0) :
    Routed { d with mixer := true, outRouteRefs := 1, outAmp := some amp }
      { m with
        amp := Function.update m.amp amp true
        switch := Function.update (Function.update m.switch .o03i05 1) .o04i06 1
        gain := Function.update (Function.update m.gain .left d.gainIndex) .right
          d.gainIndex } where
  amp a := by
    rcases eq_or_ne a amp with rfl | ne
    · simp
    · simp [Function.update_of_ne ne, routed.silent zero, ne.symm]
  left_switch := by simp
  right_switch := by simp
  left_gain _ := by simp
  right_gain _ := by simp
  opened _ := rfl
  named _ := ⟨amp, rfl⟩

private theorem holds_adevRouteOutEnable {post : Int → View → Prop} {h : Hold}
    (devices : AudioDevices) (held : v.device = some (d, m)) (routed : Routed d m)
    (holding : v.hold = some h) (locked : h.locked = true) (zero : d.outRouteRefs = 0)
    (same : h.refs = 0)
    (next : ∀ r d' m', Routed d' m' → (d'.outRouteRefs = 0 ∨ d'.outRouteRefs = 1) →
      post r { v with
        device := some (d', m')
        hold := some { h with refs := d'.outRouteRefs } }) :
    Holds t (adevRouteOutEnable devices) v post := by
  unfold Holds
  simp only [adevRouteOutEnable, Prog.ensures_bind]
  refine holds_adevMixerLocked held fun b _ => ?_
  cases b with
  | false =>
      have unrouted : Routed { d with mixer := false } m :=
        ⟨routed.amp, routed.left_switch, routed.right_switch, routed.left_gain,
          routed.right_gain, fun some_routed => absurd some_routed (by simp [zero]), routed.named⟩
      have kept : some { h with refs := d.outRouteRefs } = v.hold := by
        rw [holding, zero, ← same]
      have shown := next (-19) _ m unrouted (.inl zero)
      simp only [kept] at shown
      simpa using shown
  | true =>
      simp only [if_true, Prog.ensures_bind]
      refine holds_loadDevice rfl ?_
      refine holds_storeRefs rfl holding locked (.inr (by simp [zero])) ?_
      simp only [zero, Int.lt_irrefl, if_false, Prog.ensures_bind]
      refine holds_loadDevice rfl ?_
      refine holds_storeDevice rfl rfl rfl ?_
      refine holds_setSwitch rfl ?_
      refine holds_setSwitch rfl ?_
      refine holds_setAmp rfl (.inl (by simp)) ?_
      refine holds_setGain rfl ?_
      refine holds_setGain rfl ?_
      exact next 0 _ _ (routed_enable routed zero) (.inr rfl)

private theorem routed_disable (routed : Routed d m) (one : d.outRouteRefs = 1) {mixer : Bool} :
    Routed { d with mixer := mixer, outRouteRefs := 0, outAmp := none }
      { m with
        amp := Function.update m.amp (d.outAmp.getD .speaker) false
        switch := Function.update (Function.update m.switch .o03i05 0) .o04i06 0 } where
  amp a := by
    obtain ⟨amp, named⟩ := routed.named (by omega)
    rcases eq_or_ne a amp with rfl | ne
    · simp [named]
    · have off : m.amp a = false := Bool.eq_false_iff.mpr fun on => by
        have := ((routed.amp a).mp on).2
        exact ne (Option.some.inj (this.symm.trans named))
      simp [named, Function.update_of_ne ne, off]
  left_switch := by simp
  right_switch := by simp
  left_gain := by simp
  right_gain := by simp
  opened := by simp
  named := by simp

private theorem holds_adevRouteOutDisable {post : Unit → View → Prop} {h : Hold}
    (held : v.device = some (d, m)) (routed : Routed d m) (holding : v.hold = some h)
    (locked : h.locked = true) (range : d.outRouteRefs = 0 ∨ d.outRouteRefs = 1)
    (same : d.outRouteRefs = h.refs)
    (next : ∀ d' m', Routed d' m' →
      post () { v with device := some (d', m'), hold := some { h with refs := 0 } }) :
    Holds t adevRouteOutDisable v post := by
  unfold Holds
  simp only [adevRouteOutDisable, Prog.ensures_bind]
  refine holds_loadDevice held ?_
  rcases range with zero | one
  · have kept : some { h with refs := 0 } = v.hold := by
      rw [holding, ← zero, same]
    have shown := next d m routed
    rw [kept, ← held] at shown
    simpa [zero] using shown
  · have left : d.outRouteRefs - 1 = 0 := by omega
    rw [if_neg (by omega)]
    simp only [left, Int.lt_irrefl, if_false, Prog.ensures_bind]
    refine holds_storeRefs held holding locked (.inl left) ?_
    simp only [left]
    refine holds_adevMixerLocked rfl fun b opened => ?_
    obtain rfl : b = true := opened (routed.opened (by omega))
    simp only [if_true, Prog.ensures_bind]
    refine holds_loadDevice rfl ?_
    refine holds_setAmp rfl (.inr ⟨_, rfl, locked⟩) ?_
    refine holds_storeDevice rfl rfl rfl ?_
    refine holds_setSwitch rfl ?_
    refine holds_setSwitch rfl ?_
    exact next _ _ (routed_disable routed one)

private theorem routed_retarget (amp : Amp) {old : Amp} (routed : Routed d m)
    (one : d.outRouteRefs = 1) (named : d.outAmp = some old) :
    Routed { d with mixer := true, outAmp := some amp }
      { m with amp := Function.update (Function.update m.amp old false) amp true } where
  amp a := by
    rcases eq_or_ne a amp with rfl | ne
    · simp [one]
    · rcases eq_or_ne a old with rfl | other
      · simp [Function.update_of_ne ne, ne.symm]
      · have off : m.amp a = false := Bool.eq_false_iff.mpr fun on => by
          have := ((routed.amp a).mp on).2
          exact other (Option.some.inj (this.symm.trans named))
        simp [Function.update_of_ne ne, Function.update_of_ne other, off, ne.symm]
  left_switch := routed.left_switch
  right_switch := routed.right_switch
  left_gain := routed.left_gain
  right_gain := routed.right_gain
  opened _ := rfl
  named _ := ⟨amp, rfl⟩

private theorem holds_adevRouteOutRetarget {post : Unit → View → Prop} (devices : AudioDevices)
    (held : v.device = some (d, m)) (routed : Routed d m)
    (range : d.outRouteRefs = 0 ∨ d.outRouteRefs = 1)
    (next : ∀ d' m', Routed d' m' → post () { v with device := some (d', m') }) :
    Holds t (adevRouteOutRetarget devices) v post := by
  unfold Holds
  simp only [adevRouteOutRetarget, Prog.ensures_bind]
  refine holds_loadDevice held ?_
  by_cases stay : d.outRouteRefs ≤ 0 ∨ d.outAmp = some (ampCtlForDevices devices)
  · have shown := next d m routed
    rw [← held] at shown
    rw [if_pos stay]
    exact shown
  · rw [if_neg stay]
    have one : d.outRouteRefs = 1 := by omega
    obtain ⟨old, named⟩ := routed.named (by omega)
    simp only [Prog.ensures_bind]
    refine holds_adevMixerLocked held fun b opened => ?_
    obtain rfl : b = true := opened (routed.opened (by omega))
    simp only [if_true, named, Prog.ensures_bind]
    refine holds_setAmp rfl (.inl (by simp [one])) ?_
    refine holds_setAmp rfl (.inl (by simp [one])) ?_
    refine holds_loadDevice rfl ?_
    refine holds_storeDevice rfl rfl rfl ?_
    have shown := next _ _ (routed_retarget (ampCtlForDevices devices) routed one named)
    exact shown

end Routing

section Operations

variable {t : Tid} {h : Hold} {sl : Bool} {c : Option Invocation}

/-- What is known of a stream whose lock is held: it accounts for whatever is routed. -/
structure Accounted (h : Hold) : Prop where
  locked : h.locked = true
  range : h.refs = 0 ∨ h.refs = 1
  routed : h.refs = 1 → h.out.routed = true

private theorem holds_outClosePcmLocked {post : Unit → View → Prop} (known : Accounted h)
    (next : ∀ out, out.pcm = false → out.routed = false → out.standby = true →
      post () ⟨none, some { h with out := out, refs := 0 }, sl, c⟩) :
    Holds t (outClosePcmLocked h.id) ⟨none, some h, sl, c⟩ post := by
  obtain ⟨locked, range, routed⟩ := known
  have unroute (out : Stream) (gone : out.pcm = false) (same : out.routed = h.out.routed) :
      Holds t (do
        let out ← Hal.call (.loadStream h.id)
        if out.routed then
          Hal.call .lockDevice
          adevRouteOutDisable
          Hal.call .unlockDevice
          Hal.call (.storeStream h.id { out with routed := false })
        let out ← Hal.call (.loadStream h.id)
        Hal.call (.storeStream h.id { out with standby := true }))
        ⟨none, some { h with out := out }, sl, c⟩ post := by
    unfold Holds
    simp only [Prog.ensures_bind]
    refine holds_loadStream (h := { h with out := out }) rfl ?_
    by_cases on : out.routed = true
    · simp only [on, if_true, Prog.ensures_bind]
      refine holds_lockDevice fun d m fine range same _ _ => ?_
      refine holds_adevRouteOutDisable rfl fine rfl locked range (same _ rfl) fun d' m' fine' => ?_
      refine holds_unlockDevice rfl fine' ?_
      refine holds_storeStream (h := { h with out := out, refs := 0 }) rfl locked ?_
      refine holds_loadStream (h := { h with out := { out with routed := false }, refs := 0 })
        rfl ?_
      refine holds_storeStream (h := { h with out := { out with routed := false }, refs := 0 })
        rfl locked ?_
      exact next _ gone rfl rfl
    · have zero : h.refs = 0 := range.resolve_right fun one => on (same.trans (routed one))
      rw [if_neg on]
      refine holds_loadStream (h := { h with out := out }) rfl ?_
      refine holds_storeStream (h := { h with out := out }) rfl locked ?_
      have shown := next { out with standby := true } gone (Bool.eq_false_iff.mpr on) rfl
      rw [← zero] at shown
      exact shown
  unfold Holds
  simp only [outClosePcmLocked, Prog.ensures_bind]
  refine holds_loadStream rfl ?_
  by_cases opened : h.out.pcm = true
  · simp only [opened, if_true, Prog.ensures_bind]
    refine holds_still (fun _ _ _ answered => answered.2) fun _ => ?_
    refine holds_storeStream rfl locked ?_
    have rest := unroute { h.out with pcm := false } rfl rfl
    unfold Holds at rest
    simpa only [Prog.ensures_bind] using rest
  · rw [if_neg opened]
    have rest := unroute h.out (Bool.eq_false_iff.mpr opened) rfl
    unfold Holds at rest
    simpa only [Prog.ensures_bind] using rest

private theorem holds_outOpenPcmLocked {post : Int → View → Prop} (known : Accounted h)
    (settled : Settled h.out) (closed : h.out.pcm = false)
    (next : ∀ r out refs, Accounted { h with out := out, refs := refs } → Settled out →
      post r ⟨none, some { h with out := out, refs := refs }, sl, c⟩) :
    Holds t (outOpenPcmLocked h.id) ⟨none, some h, sl, c⟩ post := by
  obtain ⟨locked, range, routed⟩ := known
  have off : h.out.routed = false := settled.pcm_routed ▸ closed
  have resting : h.out.standby = true := by
    have := settled.pcm_standby
    rw [closed] at this
    simpa using this.symm
  have zero : h.refs = 0 := range.resolve_right fun one => by simp [routed one] at off
  unfold Holds
  simp only [outOpenPcmLocked, Prog.ensures_bind]
  refine holds_loadStream rfl ?_
  simp only [closed, Bool.false_eq_true, if_false, Prog.ensures_bind]
  refine holds_lockDevice fun d m fine _ same _ _ => ?_
  refine holds_adevRouteOutEnable _ rfl fine rfl locked ((same h rfl).trans zero) zero
    fun r d' m' fine' range' => ?_
  refine holds_unlockDevice rfl fine' ?_
  refine holds_storeStream (h := { h with refs := d'.outRouteRefs }) rfl locked ?_
  refine holds_still (fun _ _ _ answered => answered.2) fun ready => ?_
  cases ready with
  | true =>
      simp only [if_true, Prog.ensures_bind]
      refine holds_storeStream (h := { h with
        out := { h.out with routed := true }, refs := d'.outRouteRefs }) rfl locked ?_
      exact next 0 _ _ ⟨locked, range', fun _ => rfl⟩ ⟨rfl, rfl⟩
  | false =>
      simp only [Bool.false_eq_true, if_false, Prog.ensures_bind]
      refine holds_storeStream (h := { h with
        out := { h.out with routed := true }, refs := d'.outRouteRefs }) rfl locked ?_
      refine holds_lockDevice fun e n fine range same _ _ => ?_
      refine holds_adevRouteOutDisable rfl fine rfl locked range (same _ rfl) fun e' n' fine' => ?_
      refine holds_unlockDevice rfl fine' ?_
      refine holds_storeStream (h := { h with
        out := { h.out with routed := true, openFailed := true }, refs := 0 }) rfl locked ?_
      exact next (-19) _ _ ⟨locked, .inl rfl, by simp⟩ ⟨closed, by simp [closed, resting]⟩

/-- Between two calls a thread has nothing. -/
def Resting (_ : Tid) (v : View) : Prop := v.device = none ∧ v.hold = none ∧ v.slot = false

private theorem holdOf_eq_none {s : State} (inv : Inv s) (nothing : holdOf t s = none)
    (σ : StreamId) : owner s σ ≠ some t := by
  intro own
  cases live : s.streams σ with
  | none =>
      obtain ⟨free, open_⟩ := inv.unlocked σ live
      simp [owner, free, open_] at own
  | some out =>
      exact absurd ((holdOf_own (inv.only σ out live) own live).symm.trans nothing) (by simp)

private theorem finished (v : View) (resting : Resting t v) :
    system.Finished Inv mine Resting t v := by
  rintro s s' inv view rfl
  obtain ⟨device, hold, slot⟩ := resting
  have nothing : holdOf t s = none := by
    rw [← hold, ← view]
    rfl
  have others (u : Tid) (ne : u ≠ t) :
      mine u { s with calling := Function.update s.calling t none } = mine u s :=
    mine_congr rfl rfl Iff.rfl (Function.update_of_ne ne _ _)
  refine ⟨?_, others, ?_⟩
  · refine ⟨inv.routed, inv.settled, inv.only, inv.unlocked, inv.closing, ?_, inv.count, inv.refs,
      inv.carried, inv.silent, ?_⟩
    · intro σ u closing w j calls
      rcases eq_or_ne w t with rfl | ne
      · simp at calls
      · exact inv.alone σ u closing w j (by simpa [Function.update_of_ne ne] using calls)
    · intro σ u own
      have ne : u ≠ t := by
        rintro rfl
        exact holdOf_eq_none inv nothing σ own
      simpa [Function.update_of_ne ne] using inv.called σ u own
  · subst view
    exact ⟨device, hold, slot⟩

private theorem holds_outStandby {i : Invocation} {σ : StreamId} (call : c = some i)
    (on_it : i.stream = some σ) :
    Holds t (outStandby σ) ⟨none, none, false, c⟩ fun _ v => Resting t v := by
  unfold Holds
  simp only [outStandby, Prog.ensures_bind]
  refine holds_lockStream rfl rfl call on_it fun out refs settled range routed => ?_
  refine holds_loadStream (h := ⟨σ, out, refs, true, false⟩) rfl ?_
  by_cases resting : out.standby = true
  · simp only [resting, Bool.not_true, Bool.false_eq_true, if_false]
    exact holds_unlockStream (h := ⟨σ, out, refs, true, false⟩) rfl rfl rfl settled routed
      ⟨rfl, rfl, rfl⟩
  · simp only [Bool.eq_false_iff.mpr resting, Bool.not_false, if_true, Prog.ensures_bind]
    refine holds_outClosePcmLocked (h := ⟨σ, out, refs, true, false⟩) ⟨rfl, range, routed⟩
      fun out' closed off standing => ?_
    exact holds_unlockStream (h := ⟨σ, out', 0, true, false⟩) rfl rfl rfl
      ⟨closed.trans off.symm, by simp [closed, standing]⟩ (by simp) ⟨rfl, rfl, rfl⟩

private theorem holds_outWrite {i : Invocation} {σ : StreamId} (bytes : Nat) (call : c = some i)
    (on_it : i.stream = some σ) :
    Holds t (outWrite σ bytes) ⟨none, none, false, c⟩ fun _ v => Resting t v := by
  have transfer (out : Stream) (refs : Int) (ret : Int) (settled : Settled out)
      (known : Accounted ⟨σ, out, refs, true, false⟩) :
      Holds t (do
        if ret ≠ 0 then
          Hal.call (.unlockStream σ)
        else if ← Hal.call .pcmTransfer then
          let out ← Hal.call (.loadStream σ)
          Hal.call (.storeStream σ
            { out with framesWritten := out.framesWritten + bytes / frameSize })
          Hal.call (.unlockStream σ)
        else
          outClosePcmLocked σ
          Hal.call (.unlockStream σ))
        ⟨none, some ⟨σ, out, refs, true, false⟩, false, c⟩ fun _ v => Resting t v := by
    unfold Holds
    by_cases failed : ret ≠ 0
    · rw [if_pos failed]
      exact holds_unlockStream (h := ⟨σ, out, refs, true, false⟩) rfl rfl rfl settled
        known.routed ⟨rfl, rfl, rfl⟩
    · rw [if_neg failed]
      simp only [Prog.ensures_bind]
      refine holds_still (fun _ _ _ answered => answered.2) fun moved => ?_
      cases moved with
      | true =>
          simp only [if_true, Prog.ensures_bind]
          refine holds_loadStream (h := ⟨σ, out, refs, true, false⟩) rfl ?_
          refine holds_storeStream (h := ⟨σ, out, refs, true, false⟩) rfl rfl ?_
          exact holds_unlockStream (h := ⟨σ, _, refs, true, false⟩) rfl rfl rfl
            ⟨settled.pcm_routed, settled.pcm_standby⟩ known.routed ⟨rfl, rfl, rfl⟩
      | false =>
          simp only [Bool.false_eq_true, if_false, Prog.ensures_bind]
          refine holds_outClosePcmLocked (h := ⟨σ, out, refs, true, false⟩) known
            fun out' closed off standing => ?_
          exact holds_unlockStream (h := ⟨σ, out', 0, true, false⟩) rfl rfl rfl
            ⟨closed.trans off.symm, by simp [closed, standing]⟩ (by simp) ⟨rfl, rfl, rfl⟩
  unfold Holds at transfer ⊢
  simp only [outWrite, Prog.ensures_bind]
  refine holds_lockStream rfl rfl call on_it fun out refs settled range routed => ?_
  refine holds_loadStream (h := ⟨σ, out, refs, true, false⟩) rfl ?_
  by_cases opened : out.pcm = true
  · simp only [opened, if_true]
    exact transfer out refs 0 settled ⟨rfl, range, routed⟩
  · rw [if_neg opened]
    simp only [Prog.ensures_bind]
    refine holds_outOpenPcmLocked (h := ⟨σ, out, refs, true, false⟩) ⟨rfl, range, routed⟩ settled
      (Bool.eq_false_iff.mpr opened) fun r out' refs' known settled' => ?_
    exact transfer out' refs' r settled' known

private theorem holds_outSetParameters {i : Invocation} {σ : StreamId} (routing : Option Int)
    (call : c = some i) (on_it : i.stream = some σ) :
    Holds t (outSetParameters σ routing) ⟨none, none, false, c⟩ fun _ v => Resting t v := by
  unfold Holds
  cases routing with
  | none => exact ⟨rfl, rfl, rfl⟩
  | some routing =>
      simp only [outSetParameters, Prog.ensures_bind]
      refine holds_lockStream rfl rfl call on_it fun out refs settled range routed => ?_
      refine holds_loadStream (h := ⟨σ, out, refs, true, false⟩) rfl ?_
      refine holds_storeStream (h := ⟨σ, out, refs, true, false⟩) rfl rfl ?_
      refine holds_unlockStream (h := ⟨σ, _, refs, true, false⟩) rfl rfl rfl
        ⟨settled.pcm_routed, settled.pcm_standby⟩ routed ?_
      by_cases on : out.routed = true
      · simp only [on, if_true, Prog.ensures_bind]
        refine holds_lockDevice fun d m fine range _ _ _ => ?_
        refine holds_adevRouteOutRetarget _ rfl fine range fun d' m' fine' => ?_
        exact holds_unlockDevice rfl fine' ⟨rfl, rfl, rfl⟩
      · rw [if_neg on]
        exact ⟨rfl, rfl, rfl⟩

private theorem holds_outSetVolume (volume : Volume) :
    Holds t (outSetVolume volume) ⟨none, none, false, c⟩ fun _ v => Resting t v := by
  unfold Holds
  simp only [outSetVolume, Prog.ensures_bind]
  refine holds_lockDevice fun d m fine range _ _ _ => ?_
  refine holds_loadDevice rfl ?_
  refine holds_storeDevice rfl rfl rfl ?_
  by_cases some_routed : 0 < d.outRouteRefs
  · simp only [some_routed, if_true, Prog.ensures_bind]
    refine holds_adevMixerLocked rfl fun b opened => ?_
    obtain rfl : b = true := opened (fine.opened some_routed)
    simp only [if_true, Prog.ensures_bind]
    refine holds_setGain rfl ?_
    refine holds_setGain rfl ?_
    refine holds_unlockDevice rfl ?_ ⟨rfl, rfl, rfl⟩
    exact ⟨fine.amp, fine.left_switch, fine.right_switch, by simp, by simp, fun _ => rfl,
      fine.named⟩
  · rw [if_neg some_routed]
    refine holds_unlockDevice rfl ?_ ⟨rfl, rfl, rfl⟩
    exact ⟨fine.amp, fine.left_switch, fine.right_switch, fun h => absurd h some_routed,
      fun h => absurd h some_routed, fine.opened, fine.named⟩

private theorem Routed.recounted {d : Device} {m : Mixer} (fine : Routed d m) (n : Int) :
    Routed { d with outStreams := n } m :=
  ⟨fine.amp, fine.left_switch, fine.right_switch, fine.left_gain, fine.right_gain, fine.opened,
    fine.named⟩

private theorem holds_adevOpenOutputStream (devices : AudioDevices) :
    Holds t (adevOpenOutputStream devices) ⟨none, none, false, c⟩ fun _ v => Resting t v := by
  unfold Holds
  simp only [adevOpenOutputStream, Prog.ensures_bind]
  refine holds_lockDevice fun d m fine _ _ _ count => ?_
  refine holds_loadDevice rfl ?_
  by_cases taken : 0 < d.outStreams
  · rw [if_pos taken]
    exact holds_unlockDevice rfl fine ⟨rfl, rfl, rfl⟩
  · rw [if_neg taken]
    simp only [Prog.ensures_bind]
    refine holds_countIn rfl (count.resolve_right fun one => taken (by omega)) ?_
    refine holds_unlockDevice rfl (fine.recounted _) ?_
    refine holds_newStream rfl ⟨rfl, rfl⟩ ?_ fun σ => ⟨rfl, rfl, rfl⟩
    simp only [Prog.ensures_bind]
    refine holds_lockDevice fun e n fine _ _ slot _ => ?_
    refine holds_loadDevice rfl ?_
    refine holds_countOut rfl rfl (slot rfl) ?_
    exact holds_unlockDevice rfl (fine.recounted _) ⟨rfl, rfl, rfl⟩

private theorem holds_adevCloseOutputStream {σ : StreamId} {out : Stream} {refs : Int} :
    Holds t (adevCloseOutputStream σ) ⟨none, some ⟨σ, out, refs, false, true⟩, false, c⟩
      fun _ v => Resting t v := by
  unfold Holds
  simp only [adevCloseOutputStream, Prog.ensures_bind]
  refine holds_lockStream_closing (h := ⟨σ, out, refs, false, true⟩) rfl rfl rfl
    fun settled range routed => ?_
  refine holds_outClosePcmLocked (h := ⟨σ, out, refs, true, true⟩) ⟨rfl, range, routed⟩
    fun out' closed off standing => ?_
  refine holds_unlockStream (h := ⟨σ, out', 0, true, true⟩) rfl rfl rfl
    ⟨closed.trans off.symm, by simp [closed, standing]⟩ (by simp) ?_
  refine holds_freeStream (h := ⟨σ, out', 0, false, true⟩) rfl rfl rfl (by simp) ?_
  refine holds_lockDevice fun d m fine _ _ slot _ => ?_
  refine holds_loadDevice rfl ?_
  have one : d.outStreams = 1 := slot rfl
  rw [if_pos (by omega)]
  simp only [Prog.ensures_bind]
  refine holds_countOut rfl rfl one ?_
  exact holds_unlockDevice rfl (fine.recounted _) ⟨rfl, rfl, rfl⟩

end Operations

section Interleavings

variable {s s' : State} {t : Tid}

private theorem enters_plain {i : Invocation} (inv : Inv s) (resting : Resting t (mine t s))
    (allowed : ∀ σ, interface.stream i = some σ → (s.streams σ).isSome ∧ s.closer σ = none) :
    Inv { s with calling := Function.update s.calling t (some i) } ∧
      (∀ u, u ≠ t → mine u { s with calling := Function.update s.calling t (some i) } = mine u s) ∧
      mine t { s with calling := Function.update s.calling t (some i) } =
        ⟨none, none, false, some i⟩ := by
  obtain ⟨device, hold, slot⟩ := resting
  refine ⟨?_, fun u ne => ?_, ?_⟩
  · refine ⟨inv.routed, inv.settled, inv.only, inv.unlocked, inv.closing, ?_, inv.count, inv.refs,
      inv.carried, inv.silent, ?_⟩
    · intro σ u closing w j calls on_it
      rcases eq_or_ne w t with rfl | ne
      · obtain rfl : i = j := by simpa using calls
        exact absurd ((allowed σ on_it).2.symm.trans closing) (by simp)
      · exact inv.alone σ u closing w j (by simpa [Function.update_of_ne ne] using calls) on_it
    · intro σ u own
      have ne : u ≠ t := by
        rintro rfl
        exact holdOf_eq_none inv hold σ own
      simpa [Function.update_of_ne ne] using inv.called σ u own
  · exact mine_congr rfl rfl Iff.rfl (Function.update_of_ne ne _ _)
  · simp only [mine] at device hold slot ⊢
    simp only [View.mk.injEq]
    exact ⟨device, hold, slot, Function.update_self ..⟩

private theorem enters_close {σ : StreamId} (inv : Inv s) (resting : Resting t (mine t s))
    (allowed : (s.streams σ).isSome ∧ s.closer σ = none)
    (unused : ∀ u j, s.calling u = some j → j.stream ≠ some σ)
    (entered : s' = { s with
      calling := Function.update s.calling t (some (.closeOutputStream σ))
      closer := Function.update s.closer σ (some t) }) :
    Inv s' ∧ (∀ u, u ≠ t → mine u s' = mine u s) ∧
      ∃ out refs, mine t s' = ⟨none, some ⟨σ, out, refs, false, true⟩, false,
        some (.closeOutputStream σ)⟩ := by
  obtain ⟨device, hold, slot⟩ := resting
  obtain ⟨out, live⟩ := Option.isSome_iff_exists.mp allowed.1
  have filled := inv.only σ out live
  have free : s.streamLock σ = none :=
    streamLock_of_unused (f := interface) (inv.called σ) allowed.2 unused
  subst entered
  refine ⟨?_, fun u ne => ?_, out, s.device.outRouteRefs, ?_⟩
  · refine ⟨inv.routed, inv.settled, inv.only, ?_, ?_, ?_, inv.count, inv.refs, inv.carried,
      inv.silent, ?_⟩
    · intro τ gone
      have apart : τ ≠ σ := by
        rintro rfl
        exact absurd (gone.symm.trans live) (by simp)
      simpa [Function.update_of_ne apart] using inv.unlocked τ gone
    · intro τ u closing
      rcases eq_or_ne τ σ with rfl | apart
      · exact .inl free
      · exact inv.closing τ u (by simpa [Function.update_of_ne apart] using closing)
    · intro τ u closing w j calls on_it
      rcases eq_or_ne τ σ with rfl | apart
      · obtain rfl : t = u := by simpa using closing
        by_contra ne
        exact unused w j (by simpa [Function.update_of_ne ne] using calls) on_it
      · have before : s.closer τ = some u := by
          simpa [Function.update_of_ne apart] using closing
        rcases eq_or_ne w t with rfl | ne
        · obtain rfl : Invocation.closeOutputStream σ = j := by simpa using calls
          exact absurd (Option.some.inj on_it).symm apart
        · exact inv.alone τ u before w j (by simpa [Function.update_of_ne ne] using calls) on_it
    · intro τ u own
      rcases eq_or_ne τ σ with rfl | apart
      · obtain rfl : t = u := by simpa [owner] using own
        exact ⟨_, Function.update_self .., rfl⟩
      · have before : owner s τ = some u := by
          simpa [owner, Function.update_of_ne apart] using own
        have ne : u ≠ t := by
          rintro rfl
          exact holdOf_eq_none inv hold τ before
        simpa [Function.update_of_ne ne] using inv.called τ u before
  · refine mine_congr rfl ?_ Iff.rfl (Function.update_of_ne ne _ _)
    have before : owner s σ ≠ some u := by simp [owner, allowed.2, free]
    rw [holdOf_other filled before]
    exact holdOf_other (σ := σ) filled (by simp [owner, ne.symm])
  · simp only [mine] at device hold slot ⊢
    simp only [View.mk.injEq]
    refine ⟨device, ?_, slot, Function.update_self ..⟩
    have own : owner { s with
        calling := Function.update s.calling t (some (.closeOutputStream σ))
        closer := Function.update s.closer σ (some t) } σ = some t := by
      simp [owner]
    refine (holdOf_own (s := { s with
      calling := Function.update s.calling t (some (.closeOutputStream σ))
      closer := Function.update s.closer σ (some t) }) filled own live).trans ?_
    simp [free]

private theorem playback_verified : system.Verified Inv mine Resting where
  start := by
    rintro s ⟨⟨lock, streams, locks, calling, closer⟩, device, amps, left, right, slot⟩
    refine ⟨?_, fun t => ?_⟩
    · refine ⟨fun _ => ?_, ?_, ?_, ?_, ?_, ?_, ?_, ?_, ?_, ?_, ?_⟩
      · rw [device]
        exact ⟨by simp [amps, Device.fresh], by simp [left, Device.fresh],
          by simp [right, Device.fresh], by simp [Device.fresh], by simp [Device.fresh],
          by simp [Device.fresh], by simp [Device.fresh]⟩
      · simp [streams]
      · simp [streams]
      · simp [locks, closer]
      · simp [closer]
      · simp [closer]
      · simp [device, slot, Device.fresh]
      · simp [device, Device.fresh]
      · simp [device, Device.fresh]
      · intro _ _ a
        exact amps a
      · simp [owner, closer, locks]
    · simp [Resting, mine, holdOf, shown, lock, slot]
  enters := by
    rintro s t i s' inv resting ⟨allowed, entered⟩
    cases i with
    | closeOutputStream σ =>
        obtain ⟨unused, entered⟩ := entered
        obtain ⟨kept, others, out, refs, view⟩ :=
          enters_close inv resting (allowed σ rfl) unused entered
        exact ThreadSystem.begun ⟨kept, others, view⟩ holds_adevCloseOutputStream finished
    | openOutputStream devices =>
        obtain rfl : s' = _ := entered
        exact ThreadSystem.begun (enters_plain inv resting allowed)
          (holds_adevOpenOutputStream devices) finished
    | write σ bytes =>
        obtain rfl : s' = _ := entered
        exact ThreadSystem.begun (enters_plain inv resting allowed) (holds_outWrite bytes rfl rfl)
          finished
    | standby σ =>
        obtain rfl : s' = _ := entered
        exact ThreadSystem.begun (enters_plain inv resting allowed) (holds_outStandby rfl rfl)
          finished
    | setParameters σ routing =>
        obtain rfl : s' = _ := entered
        exact ThreadSystem.begun (enters_plain inv resting allowed)
          (holds_outSetParameters routing rfl rfl) finished
    | setVolume σ volume =>
        obtain rfl : s' = _ := entered
        exact ThreadSystem.begun (enters_plain inv resting allowed) (holds_outSetVolume volume)
          finished

/-- In every interleaving: with the device's lock free, the amp that is on is the remembered
one of a routed path, the interconnect is on with it and the gains are the chosen ones; a
stream with its lock free has an open PCM, a route and no standby, or none of that; and when
no stream is in use every amp is off. -/
theorem playback_routing
    {c : ThreadSystem.Config (Call Stream) Answer State Tid} (reach : system.machine.Reachable c) :
    (c.shared.deviceLock = none →
      (∀ a, c.shared.mixer.amp a = true ↔
        0 < c.shared.device.outRouteRefs ∧ c.shared.device.outAmp = some a) ∧
      (c.shared.mixer.switch .o03i05 = if 0 < c.shared.device.outRouteRefs then 1 else 0) ∧
      (c.shared.mixer.switch .o04i06 = if 0 < c.shared.device.outRouteRefs then 1 else 0) ∧
      (0 < c.shared.device.outRouteRefs →
        c.shared.mixer.gain .left = c.shared.device.gainIndex ∧
        c.shared.mixer.gain .right = c.shared.device.gainIndex)) ∧
    (∀ σ out, c.shared.streams σ = some out → c.shared.streamLock σ = none →
      (out.pcm = true ↔ out.routed = true) ∧ (out.pcm = true ↔ out.standby = false)) ∧
    ((∀ σ out, c.shared.streams σ = some out →
        c.shared.streamLock σ = none ∧ out.standby = true) →
      ∀ a, c.shared.mixer.amp a = false) := by
  have inv : Inv c.shared := playback_verified.invariant reach
  refine ⟨fun free => ?_, fun σ out live free => ?_, fun unused => ?_⟩
  · have fine := inv.routed free
    exact ⟨fine.amp, fine.left_switch, fine.right_switch,
      fun some_routed => ⟨fine.left_gain some_routed, fine.right_gain some_routed⟩⟩
  · obtain ⟨routed, standby⟩ := inv.settled σ out live free
    refine ⟨by rw [routed], ?_⟩
    rw [standby]
    simp
  · have zero : c.shared.device.outRouteRefs = 0 := by
      refine inv.refs.resolve_right fun one => ?_
      obtain ⟨σ, out, live, carried⟩ := inv.carried one
      obtain ⟨free, standing⟩ := unused σ out live
      obtain ⟨routed, standby⟩ := inv.settled σ out live free
      rcases carried with on | locked
      · rw [← routed, standby, standing] at on
        cases on
      · exact locked free
    refine inv.silent zero fun t σ _ lock => ?_
    obtain ⟨out, live⟩ : ∃ out, c.shared.streams σ = some out := by
      cases live : c.shared.streams σ with
      | none => exact absurd (lock.symm.trans (inv.unlocked σ live).1) (by simp)
      | some out => exact ⟨out, rfl⟩
    exact absurd (lock.symm.trans (unused σ out live).1) (by simp)

end Interleavings

/-- A stream on the speaker, opened and written to. -/
theorem playback_routing_speaker : ∃ c, system.machine.Reachable c ∧
    c.shared.mixer.amp .speaker = true ∧ c.shared.device.outAmp = some .speaker ∧
    c.shared.mixer.gain .left = c.shared.device.gainIndex := by
  have played : (State.start.plays interface (respond note · 0) 0
      [(⟨true, true, true⟩, .openOutputStream 2), (⟨true, true, true⟩, .write 0 3840)]).map
      (fun s => (s.deviceLock, s.mixer.amp .speaker)) = some (none, true) := by
    decide +kernel
  obtain ⟨s, ran, shown⟩ := Option.map_eq_some_iff.mp played
  obtain ⟨free, on⟩ := Prod.mk.inj shown
  have reach := reachable_respond reachable_start ran
  have routed := (playback_routing reach).1 free
  have carrying := (routed.1 .speaker).mp on
  exact ⟨_, reach, on, carrying.2, (routed.2.2.2 carrying.1).1⟩

end XdPlus.Audio.PlaybackRouting
