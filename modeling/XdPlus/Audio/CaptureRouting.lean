/- Module: XdPlus/Audio/CaptureRouting
   source: audio/audio_hw.c, the locks around the capture path
   digest: When the reference count of the capture path is the number of streams that hold a
     reference. -/

import XdPlus.Audio.Capture

set_option autoImplicit false
set_option relaxedAutoImplicit false

namespace XdPlus.Audio.CaptureRouting

open XdPlus.Base Routing Process Capture

/-- The microphone path is switched on. -/
def PathOn (m : Mixer) : Prop :=
  m.switch .o09i03 = 1 ∧ m.switch .o10i04 = 1 ∧ m.adc = true ∧ m.preamp = .ain1

instance (m : Mixer) : Decidable (PathOn m) :=
  inferInstanceAs (Decidable (_ ∧ _ ∧ _ ∧ _))

/-- What belongs to the holder of the device's lock. -/
structure Board where
  device : Device
  mixer : Mixer
  takers : Finset StreamId
  opened : Bool

def boardOf (s : State) : Board := ⟨s.device, s.mixer, s.ledger.takers, s.ledger.opened⟩

/-- What belongs to the thread that has a stream. -/
structure Hold where
  id : StreamId
  in_ : Stream
  took : Bool
  owing : Bool
  locked : Bool
  closing : Bool

@[ext]
structure View where
  board : Option Board
  hold : Option Hold
  call : Option Invocation

def holdAt (t : Tid) (s : State) (σ : StreamId) : Option Hold :=
  if owner s σ = some t then
    (s.streams σ).map fun x =>
      ⟨σ, x, σ ∈ s.ledger.takers, σ ∈ s.ledger.owing, s.streamLock σ = some t,
        s.closer σ = some t⟩
  else none

def mine (t : Tid) (s : State) : View where
  board := shown boardOf t s
  hold := (workingOn s t).bind (holdAt t s)
  call := s.calling t

/-- A stream with its lock free is open, routed and out of standby, or none of it; it is routed
when it took a reference or failed to. -/
structure Settled (x : Stream) (took owing : Prop) : Prop where
  pcm_routed : x.pcm = x.routed
  pcm_standby : x.pcm = !x.standby
  routed : x.routed = true ↔ took ∨ owing

/-- What holds of one stream. -/
structure Sound (s : State) (σ : StreamId) : Prop where
  absent : s.streams σ = none → s.streamLock σ = none ∧ s.closer σ = none ∧
    σ ∉ s.ledger.takers ∧ σ ∉ s.ledger.owing
  closing : ∀ t, s.closer σ = some t → s.streamLock σ = none ∨ s.streamLock σ = some t
  alone : ∀ t, s.closer σ = some t → ∀ u, workingOn s u = some σ → u = t
  called : ∀ t, owner s σ = some t → workingOn s t = some σ
  settled : ∀ x, s.streams σ = some x → s.streamLock σ = none →
    Settled x (σ ∈ s.ledger.takers) (σ ∈ s.ledger.owing)

structure Inv (s : State) : Prop where
  sound : ∀ σ, Sound s σ
  counted : s.device.inRouteRefs = s.ledger.takers.card
  clear : s.ledger.opened = true → s.ledger.owing = ∅
  opener : s.ledger.takers.Nonempty → s.ledger.opened = true
  mixer : s.deviceLock = none → s.device.mixer = s.ledger.opened
  path : ∀ σ ∈ s.ledger.takers, (∀ t, s.deviceLock = some t → workingOn s t ≠ some σ) →
    PathOn s.mixer

/-- The calls of every thread, as long as `mixer_open` keeps to the condition. -/
abbrev careful : ThreadSystem (Call Stream) Answer State Tid Invocation :=
  system.restrict NoneOwing

/-- Verified from the view `v` of thread `t`. -/
abbrev Holds {α : Type} (t : Tid) (p : Hal Stream α) (v : View) (post : α → View → Prop) : Prop :=
  p.Ensures (careful.ownView Inv mine t) (careful.Keeps Inv mine t) v post

section Views

variable {s s' : State} {t u : Tid} {v : View} {σ : StreamId}

private theorem mine_board {b : Board} (view : mine t s = v) (held : v.board = some b) :
    s.deviceLock = some t ∧ boardOf s = b := by
  subst view
  exact shown_eq_some.mp held

private theorem mine_hold {h : Hold} (view : mine t s = v) (held : v.hold = some h) :
    workingOn s t = some h.id ∧ owner s h.id = some t ∧ s.streams h.id = some h.in_ ∧
      h.took = decide (h.id ∈ s.ledger.takers) ∧ h.owing = decide (h.id ∈ s.ledger.owing) ∧
      h.locked = decide (s.streamLock h.id = some t) ∧
      h.closing = decide (s.closer h.id = some t) := by
  subst view
  obtain ⟨σ, on_it, held⟩ := Option.bind_eq_some_iff.mp held
  unfold holdAt at held
  split_ifs at held with own
  obtain ⟨x, live, rfl⟩ := Option.map_eq_some_iff.mp held
  exact ⟨on_it, own, live, rfl, rfl, rfl, rfl⟩

private theorem holdAt_own {x : Stream} (own : owner s σ = some t) (live : s.streams σ = some x) :
    holdAt t s σ = some ⟨σ, x, σ ∈ s.ledger.takers, σ ∈ s.ledger.owing, s.streamLock σ = some t,
      s.closer σ = some t⟩ := by
  simp only [holdAt, if_pos own, live, Option.map_some]

private theorem holdAt_other (other : owner s σ ≠ some t) : holdAt t s σ = none := if_neg other

/-- The states agree on every stream but `σ`. -/
structure Agree (σ : StreamId) (s s' : State) : Prop where
  streams : ∀ τ, τ ≠ σ → s'.streams τ = s.streams τ
  lock : ∀ τ, τ ≠ σ → s'.streamLock τ = s.streamLock τ
  closer : ∀ τ, τ ≠ σ → s'.closer τ = s.closer τ
  takers : ∀ τ, τ ≠ σ → (τ ∈ s'.ledger.takers ↔ τ ∈ s.ledger.takers)
  owing : ∀ τ, τ ≠ σ → (τ ∈ s'.ledger.owing ↔ τ ∈ s.ledger.owing)
  calling : s'.calling = s.calling

private theorem Agree.same_work (agree : Agree σ s s') (t : Tid) :
    workingOn s' t = workingOn s t := by
  unfold workingOn
  rw [agree.calling]

private theorem Agree.same_owner (agree : Agree σ s s') {τ : StreamId} (apart : τ ≠ σ) :
    owner s' τ = owner s τ := by
  unfold owner
  rw [agree.closer τ apart, agree.lock τ apart]

private theorem Agree.sound (agree : Agree σ s s') (inv : ∀ τ, Sound s τ) (here : Sound s' σ)
    (τ : StreamId) : Sound s' τ := by
  rcases eq_or_ne τ σ with rfl | apart
  · exact here
  · obtain ⟨absent, closing, alone, called, settled⟩ := inv τ
    constructor
    · rw [agree.streams τ apart, agree.lock τ apart, agree.closer τ apart, agree.takers τ apart,
        agree.owing τ apart]
      exact absent
    · rw [agree.closer τ apart, agree.lock τ apart]
      exact closing
    · rw [agree.closer τ apart]
      simpa only [agree.same_work] using alone
    · rw [agree.same_owner apart]
      simpa only [agree.same_work] using called
    · rw [agree.streams τ apart, agree.lock τ apart, agree.takers τ apart, agree.owing τ apart]
      exact settled

private theorem Agree.same_hold (agree : Agree σ s s') (before : owner s σ ≠ some u)
    (after : owner s' σ ≠ some u) (τ : StreamId) : holdAt u s' τ = holdAt u s τ := by
  rcases eq_or_ne τ σ with rfl | apart
  · rw [holdAt_other before, holdAt_other after]
  · unfold holdAt
    rw [agree.same_owner apart, agree.streams τ apart]
    simp only [agree.takers τ apart, agree.owing τ apart, agree.lock τ apart,
      agree.closer τ apart]

private theorem Agree.same_view (agree : Agree σ s s') (before : owner s σ ≠ some u)
    (after : owner s' σ ≠ some u)
    (device : s.deviceLock = some u ∨ s'.deviceLock = some u →
      s'.deviceLock = s.deviceLock ∧ boardOf s' = boardOf s) :
    mine u s' = mine u s := by
  refine View.ext (shown_congr device) ?_ (congrFun agree.calling u)
  · simp only [mine]
    rw [agree.same_work]
    exact congrArg _ (funext fun τ => agree.same_hold before after τ)

end Views

section DeviceCalls

variable {t : Tid} {v : View} {b : Board}

private theorem holds_still {op : Call Stream} {post : Answer op → View → Prop}
    (still : ∀ s ans s', system.env t s op ans s' → s' = s) (next : ∀ ans, post ans v) :
    Holds t (Hal.call op) v post := by
  exact ThreadSystem.ensures_still fun s ans s' _ _ answered =>
    ⟨still s ans s' answered.1, next ans⟩

/-- What is true of the board whenever the lock is free. -/
structure Board.Fine (b : Board) : Prop where
  counted : b.device.inRouteRefs = b.takers.card
  opener : b.takers.Nonempty → b.opened = true
  mixer : b.device.mixer = b.opened
  path : b.takers.Nonempty → PathOn b.mixer

/-- What a board says of a stream. -/
structure Board.Tells (b : Board) (h : Hold) : Prop where
  took : h.took = true ↔ h.id ∈ b.takers
  clear : b.opened = true → h.owing = false

private theorem board_tells {s : State} {h : Hold} (inv : Inv s) (view : mine t s = v)
    (held : v.hold = some h) : (boardOf s).Tells h := by
  obtain ⟨-, -, -, took, owing, -⟩ := mine_hold view held
  constructor
  · rw [took]
    exact decide_eq_true_iff
  · intro opened
    rw [owing, inv.clear opened]
    rfl

private theorem holds_lockDevice {post : Unit → View → Prop}
    (next : ∀ b : Board, b.Fine → (∀ h, v.hold = some h → b.Tells h) →
      post () { v with board := some b }) :
    Holds t (Hal.call .lockDevice) v post := by
  refine ThreadSystem.ensures_call fun s _ s' inv view answered => ?_
  obtain ⟨free, rfl⟩ : s.deviceLock = none ∧ s' = { s with deviceLock := some t } := answered.1
  have path (some_taker : s.ledger.takers.Nonempty) : PathOn s.mixer := by
    obtain ⟨σ, taker⟩ := some_taker
    exact inv.path σ taker fun u held => absurd (free.symm.trans held) (by simp)
  refine ⟨⟨?_, fun u ne => ?_⟩, ?_⟩
  · refine ⟨fun σ => ?_, inv.counted, inv.clear, inv.opener, by simp, ?_⟩
    · obtain ⟨absent, closing, alone, called, settled⟩ := inv.sound σ
      exact ⟨absent, closing, alone, called, settled⟩
    · intro σ taker _
      exact path ⟨σ, taker⟩
  · exact View.ext (shown_lock ne free) rfl rfl
  · have mine_eq : mine t { s with deviceLock := some t } =
        { mine t s with board := some (boardOf s) } :=
      View.ext (shown_held rfl) rfl rfl
    rw [mine_eq, view]
    exact next _ ⟨inv.counted, inv.opener, inv.mixer free, path⟩
      fun h held => board_tells inv view held

private theorem holds_unlockDevice {post : Unit → View → Prop} (held : v.board = some b)
    (fine : b.Fine) (next : post () { v with board := none }) :
    Holds t (Hal.call .unlockDevice) v post := by
  refine ThreadSystem.ensures_call fun s _ s' inv view answered => ?_
  obtain rfl : s' = { s with deviceLock := none } := answered.1.2
  obtain ⟨lock, rfl⟩ := mine_board view held
  refine ⟨⟨?_, fun u ne => ?_⟩, ?_⟩
  · refine ⟨fun σ => ?_, inv.counted, inv.clear, inv.opener, fun _ => fine.mixer, ?_⟩
    · obtain ⟨absent, closing, alone, called, settled⟩ := inv.sound σ
      exact ⟨absent, closing, alone, called, settled⟩
    · intro σ taker _
      exact fine.path ⟨σ, taker⟩
  · exact View.ext (shown_unlock ne lock) rfl rfl
  · have mine_eq : mine t { s with deviceLock := none } = { mine t s with board := none } :=
      View.ext (shown_unlocked boardOf t s) rfl rfl
    rw [mine_eq, view]
    exact next

private theorem holds_loadDevice {post : Device → View → Prop} (held : v.board = some b)
    (next : post b.device v) : Holds t (Hal.call .loadDevice) v post := by
  refine ThreadSystem.ensures_still fun s adev s' _ view answered => ?_
  obtain ⟨rfl, same⟩ : adev = s.device ∧ s' = s := answered.1
  obtain ⟨-, rfl⟩ := mine_board view held
  exact ⟨same, next⟩

private theorem holds_touch {op : Call Stream} {post : Answer op → View → Prop}
    (d : Device) (m : Mixer) (held : v.board = some b)
    (does : ∀ s ans s', system.env t s op ans s' → boardOf s = b →
      s' = { s with device := d, mixer := m })
    (refs : d.inRouteRefs = b.device.inRouteRefs)
    (path : m = b.mixer ∨
      ∃ h, v.hold = some h ∧ (∀ σ ∈ b.takers, σ ≠ h.id → PathOn m))
    (next : ∀ ans, post ans { v with board := some { b with device := d, mixer := m } }) :
    Holds t (Hal.call op) v post := by
  refine ThreadSystem.ensures_call fun s ans s' inv view answered => ?_
  obtain ⟨lock, rfl⟩ := mine_board view held
  obtain rfl := does s ans s' answered.1 rfl
  refine ⟨⟨?_, fun u ne => ?_⟩, ?_⟩
  · refine ⟨fun σ => ?_, refs.trans inv.counted, inv.clear, inv.opener, ?_, ?_⟩
    · obtain ⟨absent, closing, alone, called, settled⟩ := inv.sound σ
      exact ⟨absent, closing, alone, called, settled⟩
    · intro free
      exact absurd (lock.symm.trans free) (by simp)
    · intro σ taker exempt
      rcases path with rfl | ⟨h, holding, kept⟩
      · exact inv.path σ taker exempt
      · refine kept σ taker fun same => exempt t lock ?_
        rw [same]
        exact (mine_hold view holding).1
  · exact View.ext (shown_other ne lock rfl) rfl rfl
  · have mine_eq : mine t { s with device := d, mixer := m } =
        { mine t s with board := some { boardOf s with device := d, mixer := m } } :=
      View.ext (shown_held lock) rfl rfl
    rw [mine_eq, view]
    exact next ans

private theorem counted_same (l : Ledger) (σ : Option StreamId) (n : Int) :
    l.counted σ n n = l := by
  cases σ with
  | none => rfl
  | some σ => simp [Ledger.counted]

private theorem holds_storeDevice {post : Unit → View → Prop} {d : Device}
    (held : v.board = some b) (refs : d.inRouteRefs = b.device.inRouteRefs)
    (next : post () { v with board := some { b with device := d } }) :
    Holds t (Hal.call (.storeDevice d)) v post := by
  refine holds_touch d b.mixer held ?_ refs (.inl rfl) fun _ => next
  rintro s _ s' answered rfl
  refine answered.2.trans ?_
  change { s with device := d, ledger := s.ledger.counted (workingOn s t) _ _ } = _
  rw [show d.inRouteRefs = s.device.inRouteRefs from refs, counted_same]
  rfl

private theorem holds_setSwitch {post : Unit → View → Prop} {h : Hold} {c : Switch} {value : Int}
    (held : v.board = some b) (holding : v.hold = some h)
    (path : ∀ σ ∈ b.takers, σ ≠ h.id →
      PathOn { b.mixer with switch := Function.update b.mixer.switch c value })
    (next : post () { v with board := some { b with
      mixer := { b.mixer with switch := Function.update b.mixer.switch c value } } }) :
    Holds t (Hal.call (.setSwitch c value)) v post := by
  refine holds_touch b.device _ held ?_ rfl (.inr ⟨h, holding, path⟩) fun _ => next
  rintro s _ s' answered rfl
  exact answered.2

private theorem holds_setAdc {post : Unit → View → Prop} {h : Hold} {on : Bool}
    (held : v.board = some b) (holding : v.hold = some h)
    (path : ∀ σ ∈ b.takers, σ ≠ h.id → PathOn { b.mixer with adc := on })
    (next : post () { v with board := some { b with mixer := { b.mixer with adc := on } } }) :
    Holds t (Hal.call (.setAdc on)) v post := by
  refine holds_touch b.device _ held ?_ rfl (.inr ⟨h, holding, path⟩) fun _ => next
  rintro s _ s' answered rfl
  exact answered.2

private theorem holds_setPreamp {post : Unit → View → Prop} {h : Hold} {value : Preamp}
    (held : v.board = some b) (holding : v.hold = some h)
    (path : ∀ σ ∈ b.takers, σ ≠ h.id → PathOn { b.mixer with preamp := value })
    (next : post () { v with board := some { b with
      mixer := { b.mixer with preamp := value } } }) :
    Holds t (Hal.call (.setPreamp value)) v post := by
  refine holds_touch b.device _ held ?_ rfl (.inr ⟨h, holding, path⟩) fun _ => next
  rintro s _ s' answered rfl
  exact answered.2

private theorem account {s : State} {h : Hold} (d : Device) (l : Ledger) (inv : Inv s)
    (view : mine t s = v) (lock : s.deviceLock = some t) (holding : v.hold = some h)
    (locked : h.locked = true)
    (takers : ∀ τ, τ ≠ h.id → (τ ∈ l.takers ↔ τ ∈ s.ledger.takers))
    (owing : ∀ τ, τ ≠ h.id → (τ ∈ l.owing ↔ τ ∈ s.ledger.owing))
    (counted : d.inRouteRefs = l.takers.card) (clear : l.opened = true → l.owing = ∅)
    (opener : l.takers.Nonempty → l.opened = true) :
    (Inv { s with device := d, ledger := l } ∧
      ∀ u, u ≠ t → mine u { s with device := d, ledger := l } = mine u s) ∧
      mine t { s with device := d, ledger := l } =
        { v with
          board := some ⟨d, s.mixer, l.takers, l.opened⟩
          hold := some { h with took := h.id ∈ l.takers, owing := h.id ∈ l.owing } } := by
  obtain ⟨on_it, own, live, -, -, lock_eq, closer⟩ := mine_hold view holding
  have stream_lock : s.streamLock h.id = some t := by simpa [locked] using lock_eq.symm
  have agree : Agree h.id s { s with device := d, ledger := l } :=
    ⟨fun _ _ => rfl, fun _ _ => rfl, fun _ _ => rfl, takers, owing, rfl⟩
  refine ⟨⟨?_, fun u ne => ?_⟩, ?_⟩
  · refine ⟨agree.sound inv.sound ?_, counted, clear, opener, ?_, ?_⟩
    · obtain ⟨-, closing, alone, called, -⟩ := inv.sound h.id
      refine ⟨fun gone => ?_, closing, alone, called, fun x _ free => ?_⟩
      · exact absurd (live.symm.trans gone) (by simp)
      · exact absurd (stream_lock.symm.trans free) (by simp)
    · intro free
      exact absurd (lock.symm.trans free) (by simp)
    · intro σ taker exempt
      have apart : σ ≠ h.id := by
        rintro rfl
        exact exempt t lock on_it
      exact inv.path σ ((takers σ apart).mp taker) exempt
  · have other : owner s h.id ≠ some u := fun same => ne (Option.some.inj (same.symm.trans own))
    refine agree.same_view other other fun either => ?_
    exact absurd (either.elim id id) (by simp [lock, ne.symm])
  · subst view
    refine View.ext (shown_held lock) ?_ rfl
    change (workingOn s t).bind (holdAt t { s with device := d, ledger := l }) = _
    rw [on_it, lock_eq, closer]
    exact holdAt_own (s := { s with device := d, ledger := l }) own live

private theorem holds_take {post : Unit → View → Prop} {h : Hold} (held : v.board = some b)
    (holding : v.hold = some h) (locked : h.locked = true) (tells : b.Tells h)
    (none_yet : h.took = false) (opened : b.opened = true)
    (next : post () { v with
      board := some { b with
        device := { b.device with inRouteRefs := b.device.inRouteRefs + 1 }
        takers := insert h.id b.takers }
      hold := some { h with took := true } }) :
    Holds t (Hal.call (.storeDevice { b.device with
      inRouteRefs := b.device.inRouteRefs + 1 })) v post := by
  refine ThreadSystem.ensures_call fun s _ s' inv view answered => ?_
  obtain ⟨lock, rfl⟩ := mine_board view held
  obtain ⟨on_it, -, -, -, owing, -⟩ := mine_hold view holding
  have absent : h.id ∉ s.ledger.takers := by
    intro taker
    rw [tells.took.mpr taker] at none_yet
    cases none_yet
  obtain rfl : s' = { s with
      device := { s.device with inRouteRefs := s.device.inRouteRefs + 1 }
      ledger := { s.ledger with takers := insert h.id s.ledger.takers } } := by
    refine answered.1.2.trans ?_
    simp only [State.perform, note, on_it, Ledger.counted]
    rw [if_pos (by simp only [boardOf]; omega)]
    rfl
  have kept := account { s.device with inRouteRefs := s.device.inRouteRefs + 1 }
    { s.ledger with takers := insert h.id s.ledger.takers } inv view lock holding locked
    (fun τ apart => by simp [apart]) (fun _ _ => Iff.rfl)
    (by simp [Finset.card_insert_of_notMem absent, inv.counted]) inv.clear (fun _ => opened)
  refine ⟨kept.1, ?_⟩
  rw [kept.2]
  simpa [owing, boardOf] using next

private theorem holds_give {post : Unit → View → Prop} {h : Hold} (held : v.board = some b)
    (holding : v.hold = some h) (locked : h.locked = true) (tells : b.Tells h)
    (has_one : h.took = true)
    (next : post () { v with
      board := some { b with
        device := { b.device with inRouteRefs := b.device.inRouteRefs - 1 }
        takers := b.takers.erase h.id }
      hold := some { h with took := false } }) :
    Holds t (Hal.call (.storeDevice { b.device with
      inRouteRefs := b.device.inRouteRefs - 1 })) v post := by
  refine ThreadSystem.ensures_call fun s _ s' inv view answered => ?_
  obtain ⟨lock, rfl⟩ := mine_board view held
  obtain ⟨on_it, -, -, -, owing, -⟩ := mine_hold view holding
  have taker : h.id ∈ s.ledger.takers := tells.took.mp has_one
  obtain rfl : s' = { s with
      device := { s.device with inRouteRefs := s.device.inRouteRefs - 1 }
      ledger := { s.ledger with takers := s.ledger.takers.erase h.id } } := by
    refine answered.1.2.trans ?_
    simp only [State.perform, note, on_it, Ledger.counted]
    rw [if_neg (by simp only [boardOf]; omega), if_pos (by simp only [boardOf]; omega)]
    rfl
  have counted := inv.counted
  have one_less := Finset.card_erase_add_one taker
  have kept := account { s.device with inRouteRefs := s.device.inRouteRefs - 1 }
    { s.ledger with takers := s.ledger.takers.erase h.id } inv view lock holding locked
    (fun τ apart => by simp [apart]) (fun _ _ => Iff.rfl)
    (by simp only; omega) inv.clear (fun _ => inv.opener ⟨_, taker⟩)
  refine ⟨kept.1, ?_⟩
  rw [kept.2]
  simpa [owing, boardOf] using next

private theorem holds_mixerOpen {post : Bool → View → Prop} {h : Hold} (held : v.board = some b)
    (holding : v.hold = some h) (locked : h.locked = true) (closed : b.opened = false)
    (opens : post true { v with board := some { b with opened := true } })
    (fails : post false { v with hold := some { h with owing := true } }) :
    Holds t (Hal.call .mixerOpen) v post := by
  refine ThreadSystem.ensures_call fun s opened s' inv view answered => ?_
  obtain ⟨lock, rfl⟩ := mine_board view held
  obtain ⟨on_it, -, -, took, owing, -⟩ := mine_hold view holding
  have same_hold : some { h with took := h.took, owing := h.owing } = v.hold := holding.symm
  cases opened with
  | true =>
      obtain rfl : s' = { s with ledger := { s.ledger with opened := true } } := answered.1.2
      have none_owing : s.ledger.owing = ∅ := answered.2
      have kept := account s.device { s.ledger with opened := true } inv view lock holding locked
        (fun _ _ => Iff.rfl) (fun _ _ => Iff.rfl) inv.counted (fun _ => none_owing) (fun _ => rfl)
      refine ⟨kept.1, ?_⟩
      have mine_eq := kept.2
      simp only [← took, ← owing, same_hold] at mine_eq
      exact mine_eq.symm ▸ opens
  | false =>
      obtain rfl : s' = { s with
          ledger := { s.ledger with owing := insert h.id s.ledger.owing } } := by
        refine answered.1.2.trans ?_
        simp only [State.perform, note, on_it]
      have kept := account s.device { s.ledger with owing := insert h.id s.ledger.owing } inv view
        lock holding locked (fun _ _ => Iff.rfl) (fun τ apart => by simp [apart]) inv.counted
        (fun opened => absurd (opened.symm.trans closed) (by simp)) inv.opener
      refine ⟨kept.1, ?_⟩
      have mine_eq := kept.2
      have same_board : some ⟨s.device, s.mixer, s.ledger.takers, s.ledger.opened⟩ = v.board :=
        held.symm
      simp only [← took, same_board, Finset.mem_insert_self, decide_true] at mine_eq
      exact mine_eq.symm ▸ fails

end DeviceCalls

section StreamCalls

variable {t : Tid} {v : View} {s s' : State} {σ : StreamId}

private theorem stream_step (inv : Inv s) (agree : Agree σ s s') (here : Sound s' σ)
    (lock : s'.deviceLock = s.deviceLock) (board : boardOf s' = boardOf s)
    (fewer : s'.ledger.owing ⊆ s.ledger.owing) (before : ∀ u, owner s σ = some u → u = t)
    (after : ∀ u, owner s' σ = some u → u = t) :
    Inv s' ∧ ∀ u, u ≠ t → mine u s' = mine u s := by
  obtain ⟨device, mixer, takers, opened⟩ := Board.mk.inj board
  refine ⟨⟨agree.sound inv.sound here, ?_, ?_, ?_, ?_, ?_⟩, fun u ne => ?_⟩
  · rw [device, takers]
    exact inv.counted
  · intro open_
    exact Finset.subset_empty.mp (inv.clear (opened ▸ open_) ▸ fewer)
  · rw [takers, opened]
    exact inv.opener
  · rw [lock, device, opened]
    exact inv.mixer
  · rw [takers, mixer, lock]
    simpa only [agree.same_work] using inv.path
  · exact agree.same_view (fun own => ne (before u own)) (fun own => ne (after u own))
      fun _ => ⟨lock, board⟩

private theorem mine_stream {h : Option Hold} (view : mine t s = v) (agree : Agree σ s s')
    (lock : s'.deviceLock = s.deviceLock) (board : boardOf s' = boardOf s)
    (on_it : workingOn s t = some σ) (hold : holdAt t s' σ = h) :
    mine t s' = { v with hold := h } := by
  subst view
  refine View.ext ?_ ?_ (congrFun agree.calling t)
  · exact shown_congr fun _ => ⟨lock, board⟩
  · simp only [mine]
    rw [agree.same_work, on_it]
    exact hold

private theorem owner_of_closer {u : Tid} (closing : s.closer σ = some u) : owner s σ = some u := by
  simp [owner, closing]

private theorem view_work {i : Invocation} (view : mine t s = v) (call : v.call = some i)
    (on_it : i.stream = some σ) : workingOn s t = some σ := by
  have calls : s.calling t = some i := by
    rw [← call, ← view]
    rfl
  simp [workingOn, calls, on_it]

private theorem agree_lock {lock : Option Tid} :
    Agree σ s { s with streamLock := Function.update s.streamLock σ lock } :=
  ⟨fun _ _ => rfl, fun _ apart => Function.update_of_ne apart .., fun _ _ => rfl,
    fun _ _ => Iff.rfl, fun _ _ => Iff.rfl, rfl⟩

private theorem holds_lockStream {post : Unit → View → Prop} {i : Invocation}
    (apart : v.hold = none) (call : v.call = some i) (on_it : i.stream = some σ)
    (next : ∀ x took owing, Settled x (took = true) (owing = true) →
      post () { v with hold := some ⟨σ, x, took, owing, true, false⟩ }) :
    Holds t (Hal.call (.lockStream σ)) v post := by
  refine ThreadSystem.ensures_call fun s _ s' inv view answered => ?_
  obtain ⟨⟨live, free⟩, rfl⟩ : ((s.streams σ).isSome ∧ s.streamLock σ = none) ∧
    s' = { s with streamLock := Function.update s.streamLock σ (some t) } := answered.1
  obtain ⟨x, live⟩ := Option.isSome_iff_exists.mp live
  have works := view_work view call on_it
  obtain ⟨-, closing, alone, called, settled⟩ := inv.sound σ
  have not_closing : s.closer σ = none := by
    cases closer : s.closer σ with
    | none => rfl
    | some u =>
        obtain rfl := alone u closer t works
        have nothing : (workingOn s t).bind (holdAt t s) = none := by
          rw [← apart, ← view]
          rfl
        rw [works] at nothing
        exact absurd ((holdAt_own (owner_of_closer closer) live).symm.trans nothing) (by simp)
  have own : owner { s with streamLock := Function.update s.streamLock σ (some t) } σ =
      some t := by
    simp [owner, not_closing]
  refine ⟨stream_step inv agree_lock ?_ rfl rfl (Finset.Subset.refl _) ?_ ?_, ?_⟩
  · refine ⟨fun gone => absurd (live.symm.trans gone) (by simp), ?_, alone, ?_, ?_⟩
    · intro u closer
      exact absurd (closer.symm.trans not_closing) (by simp)
    · intro u own_now
      obtain rfl := Option.some.inj (own.symm.trans own_now)
      exact works
    · intro y _ lock
      simp at lock
  · intro u held
    simp [owner, not_closing, free] at held
  · intro u held
    exact (Option.some.inj (own.symm.trans held)).symm
  · have hold := holdAt_own (s := { s with streamLock := Function.update s.streamLock σ (some t) })
      own live
    rw [mine_stream view agree_lock rfl rfl works hold]
    have shown := next x (decide (σ ∈ s.ledger.takers)) (decide (σ ∈ s.ledger.owing))
      (by simpa only [decide_eq_true_iff] using settled x live free)
    simpa [not_closing] using shown

private theorem holds_lockStream_closing {post : Unit → View → Prop} {h : Hold}
    (holding : v.hold = some h) (closing : h.closing = true)
    (next : Settled h.in_ (h.took = true) (h.owing = true) →
      post () { v with hold := some { h with locked := true } }) :
    Holds t (Hal.call (.lockStream h.id)) v post := by
  refine ThreadSystem.ensures_call fun s _ s' inv view answered => ?_
  obtain ⟨⟨-, free⟩, rfl⟩ : ((s.streams h.id).isSome ∧ s.streamLock h.id = none) ∧
    s' = { s with streamLock := Function.update s.streamLock h.id (some t) } := answered.1
  obtain ⟨on_it, own, live, took, owing, -, closer⟩ := mine_hold view holding
  have closer_mine : s.closer h.id = some t := by simpa [closing] using closer.symm
  obtain ⟨-, closes, alone, called, settled⟩ := inv.sound h.id
  have own' : owner { s with streamLock := Function.update s.streamLock h.id (some t) } h.id =
      some t := by
    simp [owner, closer_mine]
  refine ⟨stream_step inv agree_lock ?_ rfl rfl (Finset.Subset.refl _) ?_ ?_, ?_⟩
  · refine ⟨fun gone => absurd (live.symm.trans gone) (by simp), ?_, alone, ?_, ?_⟩
    · intro u closer
      obtain rfl := Option.some.inj (closer_mine.symm.trans closer)
      exact .inr (Function.update_self ..)
    · intro u own_now
      obtain rfl := Option.some.inj (own'.symm.trans own_now)
      exact on_it
    · intro y _ lock
      simp at lock
  · intro u held
    exact (Option.some.inj (own.symm.trans held)).symm
  · intro u held
    exact (Option.some.inj (own'.symm.trans held)).symm
  · have hold := holdAt_own
      (s := { s with streamLock := Function.update s.streamLock h.id (some t) }) own' live
    rw [mine_stream view agree_lock rfl rfl on_it hold]
    have shown := next (by
      rw [took, owing]
      simpa only [decide_eq_true_iff] using settled _ live free)
    simpa [took, owing, closing, closer_mine] using shown

private theorem holds_unlockStream {post : Unit → View → Prop} {h : Hold}
    (holding : v.hold = some h) (locked : h.locked = true)
    (settled : Settled h.in_ (h.took = true) (h.owing = true))
    (next : post () { v with
      hold := if h.closing then some { h with locked := false } else none }) :
    Holds t (Hal.call (.unlockStream h.id)) v post := by
  refine ThreadSystem.ensures_call fun s _ s' inv view answered => ?_
  obtain rfl : s' = { s with streamLock := Function.update s.streamLock h.id none } := answered.1.2
  obtain ⟨on_it, own, live, took, owing, lock_eq, closer⟩ := mine_hold view holding
  have lock_mine : s.streamLock h.id = some t := by simpa [locked] using lock_eq.symm
  obtain ⟨-, closes, alone, called, -⟩ := inv.sound h.id
  have after (u : Tid)
      (held : owner { s with streamLock := Function.update s.streamLock h.id none } h.id = some u) :
      u = t ∧ s.closer h.id = some t := by
    have closing : s.closer h.id = some u := by simpa [owner] using held
    obtain rfl := Option.some.inj ((owner_of_closer closing).symm.trans own)
    exact ⟨rfl, closing⟩
  refine ⟨stream_step inv agree_lock ?_ rfl rfl (Finset.Subset.refl _) ?_ ?_, ?_⟩
  · refine ⟨fun gone => absurd (live.symm.trans gone) (by simp), ?_, alone, ?_, ?_⟩
    · intro u _
      exact .inl (Function.update_self ..)
    · intro u held
      obtain ⟨rfl, -⟩ := after u held
      exact on_it
    · intro y here _
      obtain rfl : h.in_ = y := Option.some.inj (live.symm.trans here)
      rw [took, owing] at settled
      simpa only [decide_eq_true_iff] using settled
  · intro u held
    exact (Option.some.inj (own.symm.trans held)).symm
  · intro u held
    exact (after u held).1
  · by_cases closing : s.closer h.id = some t
    · have hold := holdAt_own
        (s := { s with streamLock := Function.update s.streamLock h.id none })
        (owner_of_closer closing) live
      rw [mine_stream view agree_lock rfl rfl on_it hold]
      simpa [closer, closing, took, owing] using next
    · have hold := holdAt_other (t := t)
        (s := { s with streamLock := Function.update s.streamLock h.id none })
        fun held => closing (after t held).2
      rw [mine_stream view agree_lock rfl rfl on_it hold]
      simpa [closer, closing] using next

private theorem holds_loadStream {post : Stream → View → Prop} {h : Hold}
    (holding : v.hold = some h) (next : post h.in_ v) :
    Holds t (Hal.call (.loadStream h.id)) v post := by
  refine ThreadSystem.ensures_still fun s x s' _ view answered => ?_
  obtain ⟨here, same⟩ : s.streams h.id = some x ∧ s' = s := answered.1
  obtain ⟨-, -, live, -⟩ := mine_hold view holding
  obtain rfl : h.in_ = x := Option.some.inj (live.symm.trans here)
  exact ⟨same, next⟩

private theorem holds_storeStream {post : Unit → View → Prop} {h : Hold} {x : Stream}
    (holding : v.hold = some h) (locked : h.locked = true)
    (next : post () { v with
      hold := some { h with in_ := x, owing := x.routed && h.owing } }) :
    Holds t (Hal.call (.storeStream h.id x)) v post := by
  refine ThreadSystem.ensures_call fun s _ s' inv view answered => ?_
  obtain ⟨on_it, own, live, took, owing, lock_eq, closer⟩ := mine_hold view holding
  have lock_mine : s.streamLock h.id = some t := by simpa [locked] using lock_eq.symm
  obtain ⟨l, noted, takers, opened, fewer, off, here⟩ : ∃ l : Ledger,
      s' = { s with streams := Function.update s.streams h.id (some x), ledger := l } ∧
      l.takers = s.ledger.takers ∧ l.opened = s.ledger.opened ∧
      l.owing ⊆ s.ledger.owing ∧
      (∀ τ, τ ≠ h.id → (τ ∈ l.owing ↔ τ ∈ s.ledger.owing)) ∧
      decide (h.id ∈ l.owing) = (x.routed && h.owing) := by
    refine ⟨_, answered.1.2, ?_⟩
    simp only [note]
    cases x.routed with
    | true => simp [owing]
    | false => simpa [Finset.erase_subset] using fun τ apart _ => apart
  subst noted
  have agree : Agree h.id s
      { s with streams := Function.update s.streams h.id (some x), ledger := l } :=
    ⟨fun _ apart => Function.update_of_ne apart .., fun _ _ => rfl, fun _ _ => rfl,
      fun _ _ => by rw [takers], off, rfl⟩
  have board : boardOf { s with
      streams := Function.update s.streams h.id (some x), ledger := l } = boardOf s := by
    simp only [boardOf, takers, opened]
  refine ⟨stream_step inv agree ?_ rfl board fewer ?_ ?_, ?_⟩
  · obtain ⟨-, closing, alone, called, -⟩ := inv.sound h.id
    refine ⟨fun gone => ?_, closing, alone, called, fun y _ free => ?_⟩
    · simp at gone
    · exact absurd (lock_mine.symm.trans free) (by simp)
  · intro u held
    exact (Option.some.inj (own.symm.trans held)).symm
  · intro u held
    exact (Option.some.inj (own.symm.trans held)).symm
  · have hold := holdAt_own (s := { s with
      streams := Function.update s.streams h.id (some x), ledger := l }) (x := x) own (by simp)
    rw [mine_stream view agree rfl board on_it hold]
    simpa [here, takers, took, lock_eq, closer] using next

private theorem holds_newStream {post : Option StreamId → View → Prop} {x : Stream}
    (settled : Settled x False False) (next : ∀ made, post made v) :
    Holds t (Hal.call (.newStream x)) v post := by
  refine ThreadSystem.ensures_call fun s made s' inv view answered => ?_
  cases made with
  | none =>
      obtain rfl : s' = s := answered.1.2
      exact ⟨⟨inv, fun _ _ => rfl⟩, view.symm ▸ next none⟩
  | some σ =>
      obtain ⟨absent, rfl⟩ : s.streams σ = none ∧
        s' = { s with streams := Function.update s.streams σ (some x) } := answered.1
      have agree : Agree σ s { s with streams := Function.update s.streams σ (some x) } :=
        ⟨fun _ apart => Function.update_of_ne apart .., fun _ _ => rfl, fun _ _ => rfl,
          fun _ _ => Iff.rfl, fun _ _ => Iff.rfl, rfl⟩
      obtain ⟨free, open_, not_taker, not_owing⟩ := (inv.sound σ).absent absent
      have unowned (u : Tid) : owner s σ ≠ some u := by simp [owner, free, open_]
      refine ⟨stream_step inv agree ?_ rfl rfl (Finset.Subset.refl _) ?_ ?_, ?_⟩
      · obtain ⟨-, closing, alone, called, -⟩ := inv.sound σ
        refine ⟨fun gone => ?_, closing, alone, called, fun y here _ => ?_⟩
        · simp at gone
        · obtain rfl : x = y := by simpa using here
          simpa only [not_taker, not_owing] using settled
      · intro u held
        exact absurd held (unowned u)
      · intro u held
        exact absurd held (unowned u)
      · have same : mine t { s with streams := Function.update s.streams σ (some x) } = mine t s :=
          agree.same_view (unowned t) (unowned t) fun _ => ⟨rfl, rfl⟩
        rw [same, view]
        exact next (some σ)

private theorem holds_freeStream {post : Unit → View → Prop} {h : Hold}
    (holding : v.hold = some h) (unlocked : h.locked = false) (closing : h.closing = true)
    (none_taken : h.took = false) (none_owing : h.owing = false)
    (next : post () { v with hold := none }) :
    Holds t (Hal.call (.freeStream h.id)) v post := by
  refine ThreadSystem.ensures_call fun s _ s' inv view answered => ?_
  obtain rfl : s' = { s with
    streams := Function.update s.streams h.id none
    closer := Function.update s.closer h.id none } := answered.1.2
  obtain ⟨on_it, own, live, took, owing, lock_eq, closer⟩ := mine_hold view holding
  have closer_mine : s.closer h.id = some t := by simpa [closing] using closer.symm
  have free : s.streamLock h.id = none := by
    refine ((inv.sound h.id).closing t closer_mine).resolve_right ?_
    simpa [unlocked] using lock_eq.symm
  have agree : Agree h.id s { s with
      streams := Function.update s.streams h.id none
      closer := Function.update s.closer h.id none } :=
    ⟨fun _ apart => Function.update_of_ne apart .., fun _ _ => rfl,
      fun _ apart => Function.update_of_ne apart .., fun _ _ => Iff.rfl, fun _ _ => Iff.rfl, rfl⟩
  have unowned (u : Tid) : owner { s with
      streams := Function.update s.streams h.id none
      closer := Function.update s.closer h.id none } h.id ≠ some u := by
    simp [owner, free]
  refine ⟨stream_step inv agree ?_ rfl rfl (Finset.Subset.refl _) ?_ ?_, ?_⟩
  · refine ⟨fun _ => ⟨free, by simp, ?_, ?_⟩, fun u closes => ?_, fun u closes => ?_,
      fun u held => absurd held (unowned u), fun y here => ?_⟩
    · simpa [none_taken] using took.symm
    · simpa [none_owing] using owing.symm
    · simp at closes
    · simp at closes
    · simp at here
  · intro u held
    exact (Option.some.inj (own.symm.trans held)).symm
  · intro u held
    exact absurd held (unowned u)
  · rw [mine_stream view agree rfl rfl on_it (holdAt_other (unowned t))]
    exact next

end StreamCalls

section Routing

variable {t : Tid} {v : View} {b : Board} {h : Hold}

private theorem Board.reopened (mixer : b.device.mixer = b.opened) {open_ : Bool}
    (opened : b.opened = open_) :
    { b with device := { b.device with mixer := open_ }, opened := open_ } = b := by
  obtain ⟨⟨_, _, _, _, _, _, _, _⟩, _, _, _⟩ := b
  simp only at mixer opened
  rw [mixer, opened]

private theorem holds_adevMixerLocked {post : Bool → View → Prop} (held : v.board = some b)
    (holding : v.hold = some h) (locked : h.locked = true) (mixer : b.device.mixer = b.opened)
    (opens : post true { v with
      board := some { b with device := { b.device with mixer := true }, opened := true } })
    (fails : b.opened = false → post false { v with hold := some { h with owing := true } }) :
    Holds t adevMixerLocked v post := by
  unfold Holds
  simp only [adevMixerLocked, Prog.ensures_bind]
  refine holds_loadDevice held ?_
  cases opened : b.opened with
  | true =>
      simp only [mixer.trans opened, if_true]
      rw [Board.reopened mixer opened, ← held] at opens
      exact opens
  | false =>
      simp only [mixer.trans opened, Bool.false_eq_true, if_false, Prog.ensures_bind]
      refine holds_mixerOpen held holding locked opened ?_ ?_
      · exact holds_storeDevice rfl rfl opens
      · refine holds_storeDevice (b := b) held rfl ?_
        have same : some { b with device := { b.device with mixer := false } } = v.board := by
          rw [held, ← Board.reopened mixer opened]
        rw [same]
        exact fails opened

private theorem Board.Fine.none_taken (fine : b.Fine) (none_counted : b.device.inRouteRefs ≤ 0) :
    b.takers = ∅ := by
  have counted := fine.counted
  exact Finset.card_eq_zero.mp (by omega)

private theorem holds_adevRouteInEnable {post : Int → View → Prop} (held : v.board = some b)
    (fine : b.Fine) (holding : v.hold = some h) (locked : h.locked = true) (tells : b.Tells h)
    (none_yet : h.took = false) (none_owing : h.owing = false)
    (next : ∀ r took owing b', Board.Fine b' → (took = true ∨ owing = true) →
      post r { v with board := some b', hold := some { h with took := took, owing := owing } }) :
    Holds t adevRouteInEnable v post := by
  have absent : h.id ∉ b.takers := by
    rw [← tells.took, none_yet]
    simp
  have counted : b.device.inRouteRefs + 1 = (insert h.id b.takers).card := by
    rw [Finset.card_insert_of_notMem absent, fine.counted]
    rfl
  unfold Holds
  simp only [adevRouteInEnable, Prog.ensures_bind]
  refine holds_adevMixerLocked held holding locked fine.mixer ?_ fun closed => ?_
  · simp only [if_true, Prog.ensures_bind]
    refine holds_loadDevice rfl ?_
    refine holds_take rfl holding locked ⟨tells.took, fun _ => none_owing⟩ none_yet rfl ?_
    by_cases some_counted : 0 < b.device.inRouteRefs
    · rw [if_pos some_counted]
      have some_taken : b.takers.Nonempty := by
        have := fine.counted
        exact Finset.card_pos.mp (by omega)
      exact next 0 true h.owing _ ⟨counted, fun _ => rfl, rfl, fun _ => fine.path some_taken⟩
        (.inl rfl)
    · rw [if_neg some_counted]
      have only : ∀ σ ∈ insert h.id b.takers, σ ≠ h.id → False := by
        simp [fine.none_taken (not_lt.mp some_counted)]
      simp only [Prog.ensures_bind]
      refine holds_setSwitch rfl rfl (fun σ taken apart => (only σ taken apart).elim) ?_
      refine holds_setSwitch rfl rfl (fun σ taken apart => (only σ taken apart).elim) ?_
      refine holds_setAdc rfl rfl (fun σ taken apart => (only σ taken apart).elim) ?_
      refine holds_setPreamp rfl rfl (fun σ taken apart => (only σ taken apart).elim) ?_
      exact next 0 true h.owing _ ⟨counted, fun _ => rfl, rfl, fun _ => by simp [PathOn]⟩
        (.inl rfl)
  · simp only [Bool.false_eq_true, if_false]
    have shown := next (-19) h.took true b fine (.inr rfl)
    rw [← held] at shown
    exact shown

private theorem holds_adevRouteInDisable {post : Unit → View → Prop} (held : v.board = some b)
    (fine : b.Fine) (holding : v.hold = some h) (locked : h.locked = true) (tells : b.Tells h)
    (routed : h.took = true ∨ h.owing = true)
    (next : ∀ b', Board.Fine b' →
      post () { v with board := some b', hold := some { h with took := false } }) :
    Holds t adevRouteInDisable v post := by
  unfold Holds
  simp only [adevRouteInDisable, Prog.ensures_bind]
  refine holds_loadDevice held ?_
  by_cases none_counted : b.device.inRouteRefs ≤ 0
  · rw [if_pos none_counted]
    have not_taken : h.took = false := by
      rw [Bool.eq_false_iff, Ne, tells.took, fine.none_taken none_counted]
      simp
    have shown := next b fine
    rw [← not_taken, ← held] at shown
    simp only [← holding] at shown
    exact shown
  · have some_taken : b.takers.Nonempty := by
      have := fine.counted
      exact Finset.card_pos.mp (by omega)
    have taken : h.took = true := by
      refine routed.resolve_right ?_
      simp [tells.clear (fine.opener some_taken)]
    have one_less := Finset.card_erase_add_one (tells.took.mp taken)
    have counted : b.device.inRouteRefs - 1 = (b.takers.erase h.id).card := by
      have := fine.counted
      omega
    have opened : b.opened = true := fine.opener some_taken
    rw [if_neg none_counted]
    simp only [Prog.ensures_bind]
    refine holds_give held holding locked tells taken ?_
    by_cases some_left : 0 < b.device.inRouteRefs - 1
    · rw [if_pos some_left]
      exact next _ ⟨counted, fun _ => opened, fine.mixer, fun _ => fine.path some_taken⟩
    · rw [if_neg some_left]
      have none_left : b.takers.erase h.id = ∅ := Finset.card_eq_zero.mp (by omega)
      simp only [Prog.ensures_bind]
      refine holds_adevMixerLocked rfl rfl locked fine.mixer ?_ fun closed => ?_
      · simp only [if_true, Prog.ensures_bind]
        refine holds_setPreamp rfl rfl (by simp [none_left]) ?_
        refine holds_setAdc rfl rfl (by simp [none_left]) ?_
        refine holds_setSwitch rfl rfl (by simp [none_left]) ?_
        refine holds_setSwitch rfl rfl (by simp [none_left]) ?_
        exact next _ ⟨counted, fun _ => rfl, rfl, by simp [none_left]⟩
      · exact absurd (opened.symm.trans closed) (by simp)

end Routing

section Operations

variable {t : Tid} {h : Hold} {c : Option Invocation}

/-- What is known of a stream whose lock is held. -/
structure Accounted (h : Hold) : Prop where
  locked : h.locked = true
  routed : h.in_.routed = true ↔ h.took = true ∨ h.owing = true

private theorem Accounted.owing_kept (known : Accounted h) :
    (h.in_.routed && h.owing) = h.owing := by
  cases owing : h.owing with
  | false => simp
  | true => simpa using known.routed.mpr (.inr owing)

private theorem holds_inClosePcmLocked {post : Unit → View → Prop} (known : Accounted h)
    (next : ∀ x, x.pcm = false → x.routed = false → x.standby = true →
      post () ⟨none, some { h with in_ := x, took := false, owing := false }, c⟩) :
    Holds t (inClosePcmLocked h.id) ⟨none, some h, c⟩ post := by
  obtain ⟨locked, routed⟩ := known
  have unroute {x : Stream} (gone : x.pcm = false) (same : x.routed = h.in_.routed) :
      Holds t (do
        let in_ ← Hal.call (.loadStream h.id)
        if in_.routed then
          Hal.call .lockDevice
          adevRouteInDisable
          Hal.call .unlockDevice
          Hal.call (.storeStream h.id { in_ with routed := false })
        let in_ ← Hal.call (.loadStream h.id)
        Hal.call (.storeStream h.id { in_ with standby := true }))
        ⟨none, some { h with in_ := x }, c⟩ post := by
    unfold Holds
    simp only [Prog.ensures_bind]
    refine holds_loadStream (h := { h with in_ := x }) rfl ?_
    by_cases on : x.routed = true
    · simp only [on, if_true, Prog.ensures_bind]
      refine holds_lockDevice fun b fine tells => ?_
      refine holds_adevRouteInDisable rfl fine rfl locked (tells _ rfl)
        (routed.mp (same ▸ on)) fun b' fine' => ?_
      refine holds_unlockDevice rfl fine' ?_
      refine holds_storeStream (h := { h with in_ := x, took := false }) rfl locked ?_
      refine holds_loadStream
        (h := { h with in_ := { x with routed := false }, took := false, owing := false }) rfl ?_
      refine holds_storeStream
        (h := { h with in_ := { x with routed := false }, took := false, owing := false })
        rfl locked ?_
      exact next _ gone rfl rfl
    · have off : x.routed = false := Bool.eq_false_iff.mpr on
      obtain ⟨not_taken, not_owing⟩ : h.took = false ∧ h.owing = false := by
        have := mt routed.mpr (same ▸ on)
        simpa using this
      rw [if_neg on]
      refine holds_loadStream (h := { h with in_ := x }) rfl ?_
      refine holds_storeStream (h := { h with in_ := x }) rfl locked ?_
      have shown := next { x with standby := true } gone off rfl
      simpa [off, not_taken] using shown
  unfold Holds
  simp only [inClosePcmLocked, Prog.ensures_bind]
  refine holds_loadStream rfl ?_
  by_cases opened : h.in_.pcm = true
  · simp only [opened, if_true, Prog.ensures_bind]
    refine holds_still (fun _ _ _ answered => answered.2) fun _ => ?_
    refine holds_storeStream rfl locked ?_
    have rest := unroute (x := { h.in_ with pcm := false }) rfl rfl
    unfold Holds at rest
    simp only [Accounted.owing_kept ⟨locked, routed⟩]
    simpa only [Prog.ensures_bind] using rest
  · rw [if_neg opened]
    have rest := unroute (x := h.in_) (Bool.eq_false_iff.mpr opened) rfl
    unfold Holds at rest
    simpa only [Prog.ensures_bind] using rest

private theorem holds_inOpenPcmLocked {post : Int → View → Prop} (locked : h.locked = true)
    (settled : Settled h.in_ (h.took = true) (h.owing = true)) (closed : h.in_.pcm = false)
    (next : ∀ r x took owing, Settled x (took = true) (owing = true) →
      post r ⟨none, some { h with in_ := x, took := took, owing := owing }, c⟩) :
    Holds t (inOpenPcmLocked h.id) ⟨none, some h, c⟩ post := by
  have off : h.in_.routed = false := settled.pcm_routed ▸ closed
  have resting : h.in_.standby = true := by
    have := settled.pcm_standby
    rw [closed] at this
    simpa using this.symm
  obtain ⟨not_taken, not_owing⟩ : h.took = false ∧ h.owing = false := by
    have := mt settled.routed.mpr (by simp [off])
    simpa using this
  unfold Holds
  simp only [inOpenPcmLocked, Prog.ensures_bind]
  refine holds_loadStream rfl ?_
  simp only [closed, Bool.false_eq_true, if_false, Prog.ensures_bind]
  refine holds_lockDevice fun b fine tells => ?_
  refine holds_adevRouteInEnable rfl fine rfl locked (tells h rfl) not_taken not_owing
    fun r took owing b' fine' routed => ?_
  refine holds_unlockDevice rfl fine' ?_
  refine holds_storeStream (h := { h with took := took, owing := owing }) rfl locked ?_
  simp only [Bool.true_and]
  refine holds_still (fun _ _ _ answered => answered.2) fun ready => ?_
  cases ready with
  | true =>
      simp only [if_true, Prog.ensures_bind]
      refine holds_storeStream (h := { h with
        in_ := { h.in_ with routed := true }, took := took, owing := owing }) rfl locked ?_
      exact next 0 _ _ _ ⟨rfl, rfl, by simpa using routed⟩
  | false =>
      simp only [Bool.false_eq_true, if_false, Prog.ensures_bind]
      refine holds_lockDevice fun e fine tells => ?_
      refine holds_adevRouteInDisable rfl fine rfl locked (tells _ rfl) routed fun e' fine' => ?_
      refine holds_unlockDevice rfl fine' ?_
      refine holds_storeStream (h := { h with
        in_ := { h.in_ with routed := true }, took := false, owing := owing }) rfl locked ?_
      exact next (-19) _ _ _ ⟨closed, by simp [closed, resting], by simp⟩

/-- Between two calls a thread has nothing. -/
def Resting (_ : Tid) (v : View) : Prop := v.board = none ∧ v.hold = none

private theorem holds_inStandby {i : Invocation} {σ : StreamId} (call : c = some i)
    (on_it : i.stream = some σ) :
    Holds t (inStandby σ) ⟨none, none, c⟩ fun _ v => Resting t v := by
  unfold Holds
  simp only [inStandby, Prog.ensures_bind]
  refine holds_lockStream rfl call on_it fun x took owing settled => ?_
  refine holds_loadStream (h := ⟨σ, x, took, owing, true, false⟩) rfl ?_
  by_cases resting : x.standby = true
  · simp only [resting, Bool.not_true, Bool.false_eq_true, if_false]
    exact holds_unlockStream (h := ⟨σ, x, took, owing, true, false⟩) rfl rfl settled ⟨rfl, rfl⟩
  · simp only [Bool.eq_false_iff.mpr resting, Bool.not_false, if_true, Prog.ensures_bind]
    refine holds_inClosePcmLocked (h := ⟨σ, x, took, owing, true, false⟩) ⟨rfl, settled.routed⟩
      fun x' closed off standing => ?_
    exact holds_unlockStream (h := ⟨σ, x', false, false, true, false⟩) rfl rfl
      ⟨closed.trans off.symm, by simp [closed, standing], by simp [off]⟩ ⟨rfl, rfl⟩

private theorem holds_inRead {i : Invocation} {σ : StreamId} (call : c = some i)
    (on_it : i.stream = some σ) :
    Holds t (inRead σ) ⟨none, none, c⟩ fun _ v => Resting t v := by
  have transfer (x : Stream) (took owing : Bool) (ret : Int)
      (settled : Settled x (took = true) (owing = true)) :
      Holds t (do
        if ret ≠ 0 then
          Hal.call (.unlockStream σ)
        else if ← Hal.call .pcmTransfer then
          Hal.call (.unlockStream σ)
          Hal.call .lockDevice
          let _ ← Hal.call .loadDevice
          Hal.call .unlockDevice
        else
          inClosePcmLocked σ
          Hal.call (.unlockStream σ))
        ⟨none, some ⟨σ, x, took, owing, true, false⟩, c⟩ fun _ v => Resting t v := by
    unfold Holds
    by_cases failed : ret ≠ 0
    · rw [if_pos failed]
      exact holds_unlockStream (h := ⟨σ, x, took, owing, true, false⟩) rfl rfl settled ⟨rfl, rfl⟩
    · rw [if_neg failed]
      simp only [Prog.ensures_bind]
      refine holds_still (fun _ _ _ answered => answered.2) fun moved => ?_
      cases moved with
      | true =>
          simp only [if_true, Prog.ensures_bind]
          refine holds_unlockStream (h := ⟨σ, x, took, owing, true, false⟩) rfl rfl settled ?_
          refine holds_lockDevice fun b fine _ => ?_
          refine holds_loadDevice rfl ?_
          exact holds_unlockDevice rfl fine ⟨rfl, rfl⟩
      | false =>
          simp only [Bool.false_eq_true, if_false, Prog.ensures_bind]
          refine holds_inClosePcmLocked (h := ⟨σ, x, took, owing, true, false⟩)
            ⟨rfl, settled.routed⟩ fun x' closed off standing => ?_
          exact holds_unlockStream (h := ⟨σ, x', false, false, true, false⟩) rfl rfl
            ⟨closed.trans off.symm, by simp [closed, standing], by simp [off]⟩ ⟨rfl, rfl⟩
  unfold Holds at transfer ⊢
  simp only [inRead, Prog.ensures_bind]
  refine holds_lockStream rfl call on_it fun x took owing settled => ?_
  refine holds_loadStream (h := ⟨σ, x, took, owing, true, false⟩) rfl ?_
  by_cases opened : x.pcm = true
  · simp only [opened, if_true]
    exact transfer x took owing 0 settled
  · rw [if_neg opened]
    simp only [Prog.ensures_bind]
    refine holds_inOpenPcmLocked (h := ⟨σ, x, took, owing, true, false⟩) rfl settled
      (Bool.eq_false_iff.mpr opened) fun r x' took' owing' settled' => ?_
    exact transfer x' took' owing' r settled'

private theorem holds_inSetParameters {i : Invocation} {σ : StreamId} (routing : Option Int)
    (call : c = some i) (on_it : i.stream = some σ) :
    Holds t (inSetParameters σ routing) ⟨none, none, c⟩ fun _ v => Resting t v := by
  unfold Holds
  cases routing with
  | none => exact ⟨rfl, rfl⟩
  | some routing =>
      simp only [inSetParameters, Prog.ensures_bind]
      refine holds_lockStream rfl call on_it fun x took owing settled => ?_
      have known : Accounted ⟨σ, x, took, owing, true, false⟩ := ⟨rfl, settled.routed⟩
      refine holds_loadStream (h := ⟨σ, x, took, owing, true, false⟩) rfl ?_
      refine holds_storeStream (h := ⟨σ, x, took, owing, true, false⟩) rfl rfl ?_
      rw [known.owing_kept]
      exact holds_unlockStream (h := ⟨σ, { x with devices := _ }, took, owing, true, false⟩) rfl rfl
        ⟨settled.pcm_routed, settled.pcm_standby, settled.routed⟩ ⟨rfl, rfl⟩

private theorem holds_adevOpenInputStream (devices : AudioDevices) :
    Holds t (adevOpenInputStream devices) ⟨none, none, c⟩ fun _ v => Resting t v := by
  unfold Holds
  simp only [adevOpenInputStream, Prog.ensures_bind]
  exact holds_newStream ⟨rfl, rfl, by simp⟩ fun _ => ⟨rfl, rfl⟩

private theorem holds_adevCloseInputStream {σ : StreamId} {x : Stream} {took owing : Bool} :
    Holds t (adevCloseInputStream σ) ⟨none, some ⟨σ, x, took, owing, false, true⟩, c⟩
      fun _ v => Resting t v := by
  unfold Holds
  simp only [adevCloseInputStream, Prog.ensures_bind]
  refine holds_lockStream_closing (h := ⟨σ, x, took, owing, false, true⟩) rfl rfl
    fun settled => ?_
  refine holds_inClosePcmLocked (h := ⟨σ, x, took, owing, true, true⟩) ⟨rfl, settled.routed⟩
    fun x' closed off standing => ?_
  refine holds_unlockStream (h := ⟨σ, x', false, false, true, true⟩) rfl rfl
    ⟨closed.trans off.symm, by simp [closed, standing], by simp [off]⟩ ?_
  exact holds_freeStream (h := ⟨σ, x', false, false, false, true⟩) rfl rfl rfl rfl rfl ⟨rfl, rfl⟩

end Operations

section Interleavings

variable {s s' : State} {t : Tid}

private theorem working_update (i : Option Invocation) (u : Tid) :
    workingOn { s with calling := Function.update s.calling t i } u =
      if u = t then i.bind Invocation.stream else workingOn s u := by
  unfold workingOn
  by_cases same : u = t
  · subst same
    simp
  · simp [same]

private theorem unowned (inv : Inv s) (resting : Resting t (mine t s)) (σ : StreamId) :
    owner s σ ≠ some t := by
  intro own
  have works := (inv.sound σ).called t own
  cases live : s.streams σ with
  | none =>
      obtain ⟨free, open_, -⟩ := (inv.sound σ).absent live
      simp [owner, free, open_] at own
  | some x =>
      have nothing : (workingOn s t).bind (holdAt t s) = none := resting.2
      rw [works] at nothing
      exact absurd ((holdAt_own own live).symm.trans nothing) (by simp)

private theorem unlocked_device (resting : Resting t (mine t s)) : s.deviceLock ≠ some t :=
  shown_eq_none.mp resting.1

private theorem redial (inv : Inv s) (resting : Resting t (mine t s)) (i : Option Invocation)
    (allowed : ∀ j σ, i = some j → j.stream = some σ → s.closer σ = none) :
    Inv { s with calling := Function.update s.calling t i } ∧
      (∀ u, u ≠ t → mine u { s with calling := Function.update s.calling t i } = mine u s) ∧
      mine t { s with calling := Function.update s.calling t i } = ⟨none, none, i⟩ := by
  have works := working_update (s := s) (t := t) i
  refine ⟨⟨fun σ => ?_, inv.counted, inv.clear, inv.opener, inv.mixer, ?_⟩, fun u ne => ?_, ?_⟩
  · obtain ⟨absent, closing, alone, called, settled⟩ := inv.sound σ
    refine ⟨absent, closing, fun u closes w on_it => ?_, fun u own => ?_, settled⟩
    · rw [works] at on_it
      split_ifs at on_it with same
      · obtain ⟨j, rfl, stream⟩ := Option.bind_eq_some_iff.mp on_it
        exact absurd ((allowed j σ rfl stream).symm.trans closes) (by simp)
      · exact alone u closes w on_it
    · have ne : u ≠ t := by
        rintro rfl
        exact unowned inv resting σ own
      rw [works, if_neg ne]
      exact called u own
  · intro σ taker exempt
    refine inv.path σ taker fun u lock on_it => exempt u lock ?_
    have ne : u ≠ t := by
      rintro rfl
      exact unlocked_device resting lock
    rw [works, if_neg ne]
    exact on_it
  · refine View.ext rfl ?_ (Function.update_of_ne ne ..)
    simp only [mine]
    rw [works, if_neg ne]
    rfl
  · have lock : s.deviceLock ≠ some t := unlocked_device resting
    refine View.ext (shown_eq_none.mpr lock) ?_ (Function.update_self ..)
    simp only [mine]
    rw [Option.bind_eq_none_iff]
    intro σ _
    exact holdAt_other (unowned inv resting σ)

private theorem finished (v : View) (resting : Resting t v) :
    careful.Finished Inv mine Resting t v := by
  rintro s s' inv rfl rfl
  obtain ⟨kept, others, view⟩ := redial inv resting none (by simp)
  refine ⟨kept, others, ?_⟩
  rw [view]
  exact ⟨rfl, rfl⟩

private theorem enters_plain {i : Invocation} (inv : Inv s) (resting : Resting t (mine t s))
    (allowed : ∀ σ, interface.stream i = some σ → (s.streams σ).isSome ∧ s.closer σ = none) :
    Inv { s with calling := Function.update s.calling t (some i) } ∧
      (∀ u, u ≠ t → mine u { s with calling := Function.update s.calling t (some i) } = mine u s) ∧
      mine t { s with calling := Function.update s.calling t (some i) } = ⟨none, none, some i⟩ := by
  refine redial inv resting (some i) ?_
  rintro j σ same on_it
  obtain rfl := Option.some.inj same
  exact (allowed σ on_it).2

private theorem enters_close {σ : StreamId} (inv : Inv s) (resting : Resting t (mine t s))
    (allowed : (s.streams σ).isSome ∧ s.closer σ = none)
    (unused : ∀ u j, s.calling u = some j → j.stream ≠ some σ)
    (entered : s' = { s with
      calling := Function.update s.calling t (some (.closeInputStream σ))
      closer := Function.update s.closer σ (some t) }) :
    Inv s' ∧ (∀ u, u ≠ t → mine u s' = mine u s) ∧
      ∃ x took owing, mine t s' =
        ⟨none, some ⟨σ, x, took, owing, false, true⟩, some (.closeInputStream σ)⟩ := by
  obtain ⟨x, live⟩ := Option.isSome_iff_exists.mp allowed.1
  have idle (u : Tid) : workingOn s u ≠ some σ := by
    intro on_it
    obtain ⟨j, calls, stream⟩ := Option.bind_eq_some_iff.mp on_it
    exact unused u j calls stream
  have free : s.streamLock σ = none :=
    streamLock_of_unused (f := interface)
      (fun u own => Option.bind_eq_some_iff.mp ((inv.sound σ).called u own)) allowed.2 unused
  obtain ⟨s₁, begun⟩ : ∃ s₁ : State,
      s₁ = { s with calling := Function.update s.calling t (some (.closeInputStream σ)) } :=
    ⟨_, rfl⟩
  obtain ⟨kept, others, view⟩ := enters_plain (i := .closeInputStream σ) inv resting
    fun τ on_it => Option.some.inj on_it ▸ allowed
  have works := working_update (s := s) (t := t) (some (.closeInputStream σ))
  rw [← begun] at kept others view works
  have on_it : workingOn s₁ t = some σ := by
    rw [works, if_pos rfl]
    rfl
  obtain rfl : s' = { s₁ with closer := Function.update s₁.closer σ (some t) } := by
    rw [entered, begun]
  have agree : Agree σ s₁ { s₁ with closer := Function.update s₁.closer σ (some t) } :=
    ⟨fun _ _ => rfl, fun _ _ => rfl, fun _ apart => Function.update_of_ne apart ..,
      fun _ _ => Iff.rfl, fun _ _ => Iff.rfl, rfl⟩
  have own : owner { s₁ with closer := Function.update s₁.closer σ (some t) } σ = some t := by
    simp [owner]
  have live₁ : s₁.streams σ = some x := by simpa [begun] using live
  have free₁ : s₁.streamLock σ = none := by simpa [begun] using free
  have step := stream_step (t := t) kept agree ?_ rfl rfl (Finset.Subset.refl _) ?_ ?_
  · refine ⟨step.1, fun u ne => (step.2 u ne).trans (others u ne), x,
      σ ∈ s₁.ledger.takers, σ ∈ s₁.ledger.owing, ?_⟩
    have hold := holdAt_own (s := { s₁ with closer := Function.update s₁.closer σ (some t) })
      own live₁
    rw [mine_stream view agree rfl rfl on_it hold]
    simp [free₁]
  · refine ⟨fun gone => ?_, fun u _ => .inl free₁, fun u closes w works_on => ?_, fun u owns => ?_,
      (kept.sound σ).settled⟩
    · exact absurd (live₁.symm.trans gone) (by simp)
    · obtain rfl : t = u := by simpa using closes
      have works_on : workingOn s₁ w = some σ := works_on
      rw [works] at works_on
      split_ifs at works_on with same
      · exact same
      · exact absurd works_on (idle w)
    · obtain rfl := Option.some.inj (own.symm.trans owns)
      exact on_it
  · intro u owns
    simp [owner, begun, allowed.2, free] at owns
  · intro u owns
    exact (Option.some.inj (own.symm.trans owns)).symm

private theorem capture_verified : careful.Verified Inv mine Resting where
  start := by
    rintro s ⟨⟨lock, streams, locks, calling, closer⟩, device, ledger⟩
    refine ⟨⟨fun σ => ⟨?_, ?_, ?_, ?_, ?_⟩, ?_, ?_, ?_, ?_, ?_⟩, fun t => ⟨?_, ?_⟩⟩
    · simp [locks, closer, ledger]
    · simp [closer]
    · simp [closer]
    · simp [owner, closer, locks]
    · simp [streams]
    · simp [device, ledger, Device.fresh]
    · simp [ledger]
    · simp [ledger]
    · simp [device, ledger, Device.fresh]
    · simp [ledger]
    · exact shown_eq_none.mpr (by simp [lock])
    · simp [mine, workingOn, calling]
  enters := by
    rintro s t i s' inv resting ⟨allowed, entered⟩
    cases i with
    | closeInputStream σ =>
        obtain ⟨unused, entered⟩ := entered
        obtain ⟨kept, others, x, took, owing, view⟩ :=
          enters_close inv resting (allowed σ rfl) unused entered
        exact ThreadSystem.begun ⟨kept, others, view⟩ holds_adevCloseInputStream finished
    | openInputStream devices =>
        obtain rfl : s' = _ := entered
        exact ThreadSystem.begun (enters_plain inv resting allowed)
          (holds_adevOpenInputStream devices) finished
    | read σ =>
        obtain rfl : s' = _ := entered
        exact ThreadSystem.begun (enters_plain inv resting allowed) (holds_inRead rfl rfl) finished
    | standby σ =>
        obtain rfl : s' = _ := entered
        exact ThreadSystem.begun (enters_plain inv resting allowed) (holds_inStandby rfl rfl)
          finished
    | setParameters σ routing =>
        obtain rfl : s' = _ := entered
        exact ThreadSystem.begun (enters_plain inv resting allowed)
          (holds_inSetParameters routing rfl rfl) finished

/-- In every interleaving in which `mixer_open` never succeeds while a stream is routed that it
failed for: the count is the number of streams that hold a reference, and the path is on for
each of them, unless that stream's own thread is at work on the path. -/
theorem capture_routing {c : ThreadSystem.Config (Call Stream) Answer State Tid}
    (reach : (system.restrict NoneOwing).machine.Reachable c) :
    c.shared.device.inRouteRefs = c.shared.ledger.takers.card ∧
    ∀ σ ∈ c.shared.ledger.takers,
      (∀ t, c.shared.deviceLock = some t → workingOn c.shared t ≠ some σ) →
        PathOn c.shared.mixer := by
  have inv : Inv c.shared := capture_verified.invariant reach
  exact ⟨inv.counted, inv.path⟩

end Interleavings

/-- The first stream goes to standby before `mixer_open` succeeds for the second. -/
theorem capture_routing_second : ∃ c, (system.restrict NoneOwing).machine.Reachable c ∧
    c.shared.ledger.takers = {1} ∧ c.shared.device.inRouteRefs = 1 ∧ PathOn c.shared.mixer := by
  have played : (State.start.plays interface (carefully 0) 0
      [(⟨false, true, true⟩, .openInputStream builtinMic),
        (⟨false, true, true⟩, .openInputStream builtinMic),
        (⟨false, true, true⟩, .read 0), (⟨false, true, true⟩, .standby 0),
        (⟨true, true, true⟩, .read 1)]).map
      (fun s => (s.deviceLock, s.ledger.takers)) = some (none, {1}) := by
    decide +kernel
  obtain ⟨s, ran, shown⟩ := Option.map_eq_some_iff.mp played
  obtain ⟨free, takers⟩ := Prod.mk.inj shown
  have reach := reachable_plays (carefully_allowed 0) reachable_start_restrict ran
  obtain ⟨counted, path⟩ := capture_routing reach
  refine ⟨_, reach, takers, ?_, ?_⟩
  · rw [counted, takers]
    rfl
  · exact path 1 (by simp [takers]) (by simp [free])

/-- `mixer_open` fails for the first stream and succeeds for the second: the first one's
standby gives the second one's reference back, and switches its path off. -/
theorem capture_reference_stolen : ∃ c, system.machine.Reachable c ∧
    c.shared.deviceLock = none ∧ 1 ∈ c.shared.ledger.takers ∧
    c.shared.device.inRouteRefs ≠ c.shared.ledger.takers.card ∧ ¬ PathOn c.shared.mixer := by
  have played : (State.start.plays interface (respond note · 0) 0
      [(⟨false, true, true⟩, .openInputStream builtinMic),
        (⟨false, true, true⟩, .openInputStream builtinMic),
        (⟨false, true, true⟩, .read 0), (⟨true, true, true⟩, .read 1),
        (⟨true, true, true⟩, .standby 0)]).map
      (fun s => decide (s.deviceLock = none ∧ 1 ∈ s.ledger.takers ∧
        s.device.inRouteRefs ≠ s.ledger.takers.card ∧ ¬ PathOn s.mixer)) = some true := by
    decide +kernel
  obtain ⟨s, ran, shown⟩ := Option.map_eq_some_iff.mp played
  exact ⟨_, reachable_respond reachable_start ran, of_decide_eq_true shown⟩

end XdPlus.Audio.CaptureRouting
