/- Module: XdPlus/Audio/Locking
   source: audio/audio_hw.c, adev->lock and the lock of each stream
   digest: Threads inside the HAL do not wait for each other and do not meet in one record. -/

import XdPlus.Audio.LockRules

set_option autoImplicit false
set_option relaxedAutoImplicit false

namespace XdPlus.Audio.Locking

open XdPlus.Base Routing Process LockOrder WholeHal LockRules

/-- A call of one direction is made with no stream of the other locked; both see the same
device. -/
def halRules : Rules HalCall HalAnswer (Held × Held) where
  may
    | v, .inl op => mayCall v.1 op ∧ v.2.locked = ∅
    | v, .inr op => mayCall v.2 op ∧ v.1.locked = ∅
  after
    | v, .inl op, _ => (afterCall v.1 op, { v.2 with device := (afterCall v.1 op).device })
    | v, .inr op, _ => ({ v.1 with device := (afterCall v.2 op).device }, afterCall v.2 op)
  rest v := v.1.Nothing ∧ v.2.Nothing
  done v := v.1.Nothing ∧ v.2.Nothing

def mine (t : Tid) (s : State) : Held × Held :=
  (heldBy outputCalls t s.playback, heldBy Capture.interface t s.capture)

def Inv (s : State) : Prop := Live outputCalls s.playback ∧ Live Capture.interface s.capture

/-- What a thread inside a call of one direction holds of the other: the device, if it holds that,
and no stream. -/
private def Beside (h other : Held) : Prop :=
  other.locked = ∅ ∧ other.closing = ∅ ∧ other.device = h.device

private theorem Beside.nothing {h other : Held} (beside : Beside h other) (nothing : h.Nothing) :
    other.Nothing :=
  ⟨beside.2.2 ▸ nothing.1, beside.1, beside.2.1⟩

private theorem renamed_left {p : Hal Playback.Stream Unit} {h other : Held}
    (keeps : Keeps p h fun _ h => h.Nothing) (beside : Beside h other) :
    (Prog.renamed Sum.inl p : Prog HalCall HalAnswer Unit).Ensures halRules.env halRules.may
      (h, other) fun _ v => halRules.done v := by
  refine keeps.renamed (fun h v => v.1 = h ∧ Beside h v.2) ⟨rfl, beside⟩ ?_ ?_ ?_
  · rintro _ v op ⟨rfl, beside⟩ may
    exact ⟨may, beside.1⟩
  · rintro _ v op ans _ ⟨rfl, beside⟩ - rfl
    exact ⟨_, rfl, rfl, beside.1, beside.2.1, rfl⟩
  · rintro _ _ v ⟨rfl, beside⟩ nothing
    exact ⟨nothing, beside.nothing nothing⟩

private theorem renamed_right {p : Hal Capture.Stream Unit} {h other : Held}
    (keeps : Keeps p h fun _ h => h.Nothing) (beside : Beside h other) :
    (Prog.renamed Sum.inr p : Prog HalCall HalAnswer Unit).Ensures halRules.env halRules.may
      (other, h) fun _ v => halRules.done v := by
  refine keeps.renamed (fun h v => v.2 = h ∧ Beside h v.1) ⟨rfl, beside⟩ ?_ ?_ ?_
  · rintro _ v op ⟨rfl, beside⟩ may
    exact ⟨may, beside.1⟩
  · rintro _ v op ans _ ⟨rfl, beside⟩ - rfl
    exact ⟨_, rfl, rfl, beside.1, beside.2.1, rfl⟩
  · rintro _ _ v ⟨rfl, beside⟩ nothing
    exact ⟨beside.nothing nothing, nothing⟩

section Other

variable {X I : Type} {f : Interface X I} {s s' : State} {own own' : Streams X I} {t u : Tid}

private theorem live_elsewhere (live : Live f (seen s own)) (same : own' = own) :
    Live f (seen s' own') := by
  subst same
  exact live.still rfl rfl fun _ exists_ => exists_

private theorem live_leave (live : Live f (seen s own))
    (nothing : (heldBy f t (seen s own)).Nothing) :
    Live f (seen s (own.leave t)) ∧
      (∀ u, u ≠ t → heldBy f u (seen s (own.leave t)) = heldBy f u (seen s own)) ∧
        (heldBy f t (seen s (own.leave t))).Nothing :=
  live.leaves nothing rfl rfl rfl rfl rfl

private theorem heldBy_seen {d : Prop} (same : own' = own) (device : (s'.deviceLock = some u) = d) :
    heldBy f u (seen s' own') = { heldBy f u (seen s own) with device := d } := by
  subst same device
  rfl

end Other

private theorem runs_obeyed {s s' : State} {t : Tid} {op : HalCall} {ans : HalAnswer op}
    (inv : Inv s) (may : halRules.may (mine t s) op) (answered : halAnswers t s op ans s') :
    Inv s' ∧ (∀ u, u ≠ t → mine u s' = mine u s) ∧
      mine t s' = halRules.after (mine t s) op ans := by
  obtain ⟨answered, rfl⟩ := answered
  cases op with
  | inl op =>
      have served : answers (fun _ _ _ _ => ()) t s.playback op ans
          (s.served t (.inl op) ans).playback := ⟨answered, rfl⟩
      obtain ⟨live, others, own⟩ := inv.1.steps may.1 served
      refine ⟨⟨live, live_elsewhere inv.2 rfl⟩, fun u ne => ?_, ?_⟩
      · exact Prod.ext (others u ne) (heldBy_seen rfl (congrArg Held.device (others u ne)))
      · exact Prod.ext own (heldBy_seen rfl (congrArg Held.device own))
  | inr op =>
      have served : answers (fun _ _ _ _ => ()) t s.capture op ans
          (s.served t (.inr op) ans).capture := ⟨answered, rfl⟩
      obtain ⟨live, others, own⟩ := inv.2.steps may.1 served
      refine ⟨⟨live_elsewhere inv.1 rfl, live⟩, fun u ne => ?_, ?_⟩
      · exact Prod.ext (heldBy_seen rfl (congrArg Held.device (others u ne))) (others u ne)
      · exact Prod.ext (heldBy_seen rfl (congrArg Held.device own)) own

private theorem output_stream_closes (i : OutputCall) (σ : StreamId)
    (closes : outputCalls.closes i = some σ) : outputCalls.stream i = some σ := by
  cases i with
  | playback i =>
      cases i <;> first | exact closes | exact absurd closes.symm (Option.some_ne_none σ)
  | renderPosition | presentationPosition | initCheck | setMode | setMicMute | getMicMute
  | dump =>
      exact absurd closes.symm (Option.some_ne_none σ)

private theorem input_stream_closes (i : Capture.Invocation) (σ : StreamId)
    (closes : Capture.interface.closes i = some σ) : Capture.interface.stream i = some σ := by
  cases i <;> first | exact closes | exact absurd closes.symm (Option.some_ne_none σ)

private theorem live_unused {X I : Type} {f : Interface X I} {s : State} {own : Streams X I}
    (unused : own.Unused) : Live f (seen s own) where
  used t i _ calls := absurd ((unused.2.2.1 t).symm.trans calls).symm (Option.some_ne_none i)
  closing σ t closes := absurd ((unused.2.2.2 σ).symm.trans closes).symm (Option.some_ne_none t)

private theorem nothing_unused {X I : Type} {f : Interface X I} {s : State} {own : Streams X I}
    (free : s.deviceLock = none) (unused : own.Unused) (t : Tid) :
    (heldBy f t (seen s own)).Nothing := by
  refine ⟨?_, ?_, ?_⟩
  · simp only [heldBy, seen, free, reduceCtorEq, not_false_eq_true]
  · simp only [heldBy, seen, unused.2.1, reduceCtorEq, Set.ofPred_false]
  · simp only [heldBy, seen, unused.2.2.2, reduceCtorEq, Set.ofPred_false]

private theorem enters_obeyed {s s' : State} {t : Tid} {i : OutputCall ⊕ Capture.Invocation}
    (inv : Inv s) (rest : halRules.rest (mine t s)) (entered : halEnters s t i s') :
    Inv s' ∧ (∀ u, u ≠ t → mine u s' = mine u s) ∧
      (halCode i).Ensures halRules.env halRules.may (mine t s') fun _ v => halRules.done v := by
  cases i with
  | inl i =>
      obtain ⟨begun, same⟩ := entered
      obtain ⟨live, others, own⟩ := inv.1.enters (output_stream_closes i) rest.1 begun
      refine ⟨⟨live, live_elsewhere inv.2 same⟩, fun u ne => ?_, ?_⟩
      · exact Prod.ext (others u ne) (heldBy_seen same (congrArg Held.device (others u ne)))
      · have other := heldBy_seen (f := Capture.interface) (s := s) same (congrArg Held.device own)
        refine renamed_left (own ▸ keeps_output i) ⟨?_, ?_, rfl⟩
        · rw [other]
          exact rest.2.2.1
        · rw [other]
          exact rest.2.2.2
  | inr i =>
      obtain ⟨begun, same⟩ := entered
      obtain ⟨live, others, own⟩ := inv.2.enters (input_stream_closes i) rest.2 begun
      refine ⟨⟨live_elsewhere inv.1 same, live⟩, fun u ne => ?_, ?_⟩
      · exact Prod.ext (heldBy_seen same (congrArg Held.device (others u ne))) (others u ne)
      · have other := heldBy_seen (f := outputCalls) (s := s) same (congrArg Held.device own)
        refine renamed_right (own ▸ keeps_capture i) ⟨?_, ?_, rfl⟩
        · rw [other]
          exact rest.1.2.1
        · rw [other]
          exact rest.1.2.2

private theorem obeyed : Obeyed system Inv mine halRules where
  start s initial := by
    obtain ⟨-, free, outputs, inputs⟩ := initial
    exact ⟨⟨live_unused outputs, live_unused inputs⟩, fun t =>
      ⟨nothing_unused free outputs t, nothing_unused free inputs t⟩⟩
  enters s t i s' := enters_obeyed
  runs s t op ans s' := runs_obeyed
  leaves s t s' inv done left := by
    obtain rfl := left
    obtain ⟨live, others, rest⟩ := live_leave inv.1 done.1
    obtain ⟨live', others', rest'⟩ := live_leave inv.2 done.2
    exact ⟨⟨live, live'⟩, fun u ne => Prod.ext (others u ne) (others' u ne), rest, rest'⟩

/-- `adev->lock`, and the lock of each stream. -/
inductive Lock where
  | device
  | output (σ : StreamId)
  | input (σ : StreamId)
  deriving DecidableEq, Repr

def halLocks : Locks HalCall State Tid Lock where
  takes
    | .inl .lockDevice | .inr .lockDevice => some .device
    | .inl (.lockStream σ) => some (.output σ)
    | .inr (.lockStream σ) => some (.input σ)
    | _ => none
  holder
    | s, .device => s.deviceLock
    | s, .output σ => s.outputs.streamLock σ
    | s, .input σ => s.inputs.streamLock σ
  rank
    | .device => 1
    | .output _ | .input _ => 0

private theorem not_holder {s : State} {t : Tid} (nothing : halRules.rest (mine t s)) (l : Lock) :
    halLocks.holder s l ≠ some t := by
  cases l with
  | device => exact nothing.1.1
  | output σ => exact Set.eq_empty_iff_forall_notMem.mp nothing.1.2.1 σ
  | input σ => exact Set.eq_empty_iff_forall_notMem.mp nothing.2.2.1 σ

private theorem holds_nothing {s : State} {t : Tid} (device : ¬ (mine t s).1.device)
    (outputs : (mine t s).1.locked = ∅) (inputs : (mine t s).2.locked = ∅) {l : Lock}
    (held : halLocks.holder s l = some t) : False := by
  cases l with
  | device => exact device held
  | output σ => exact Set.eq_empty_iff_forall_notMem.mp outputs σ held
  | input σ => exact Set.eq_empty_iff_forall_notMem.mp inputs σ held

private theorem below_device {s : State} {t : Tid} (device : ¬ (mine t s).1.device) {l : Lock}
    (held : halLocks.holder s l = some t) : halLocks.rank l < 1 := by
  cases l with
  | device => exact absurd held device
  | output | input => exact Nat.one_pos

private theorem ordered : Ordered system Inv mine halRules halLocks 2 where
  answered s t op inv may free := by
    cases op with
    | inl op =>
        obtain ⟨ans, answered⟩ := inv.1.answered may.1
          (fun takes => free .device (by rw [takes]; rfl))
          fun σ takes => free (.output σ) (by rw [takes]; rfl)
        exact ⟨ans, s.served t (.inl op) ans, answered, rfl⟩
    | inr op =>
        obtain ⟨ans, answered⟩ := inv.2.answered may.1
          (fun takes => free .device (by rw [takes]; rfl))
          fun σ takes => free (.input σ) (by rw [takes]; rfl)
        exact ⟨ans, s.served t (.inr op) ans, answered, rfl⟩
  rising s t op l k inv may takes held := by
    cases op with
    | inl op =>
        cases op with
        | lockDevice =>
            obtain rfl := Option.some.inj takes
            exact below_device may.1 held
        | lockStream σ => exact (holds_nothing may.1.2.2 may.1.2.1 may.2 held).elim
        | _ => exact absurd takes.symm (Option.some_ne_none l)
    | inr op =>
        cases op with
        | lockDevice =>
            obtain rfl := Option.some.inj takes
            exact below_device may.1 held
        | lockStream σ => exact (holds_nothing may.1.2.2 may.2 may.1.2.1 held).elim
        | _ => exact absurd takes.symm (Option.some_ne_none l)
  bounded l := by
    cases l with
    | device => exact Nat.one_lt_two
    | output | input => exact Nat.two_pos
  resting s t l rest := not_holder rest l
  ended s t l done := not_holder done l
  leaves s t _ _ := ⟨_, rfl⟩

/-- In every interleaving, whatever is scheduled and answered from there, as long as no new call
begins: every call of the HAL that is under way returns, and no lock is held then. -/
theorem calls_return {c : ThreadSystem.Config HalCall HalAnswer State Tid}
    (reach : system.machine.Reachable c) :
    Inevitable (Quiet system) (fun c => (∀ t, c.threads t = none) ∧
      ∀ l, halLocks.holder c.shared l = none) c :=
  ordered.returns obeyed reach

private theorem reachable_busy : ∃ c next next', system.machine.Reachable c ∧
    c.threads 0 = some (.ask (.inr (.loadStream 0)) next) ∧
      c.threads 1 = some (.ask (.inl .loadDevice) next') := by
  have start : system.machine.Reachable ⟨State.start, fun _ => none⟩ := by
    refine .start ⟨⟨rfl, rfl, ⟨?_, ?_, ?_, ?_⟩, ?_, ?_, ?_, ?_⟩, ?_⟩ <;> exact fun _ => rfl
  let opens : OutputCall ⊕ Capture.Invocation := .inr (.openInputStream Capture.builtinMic)
  let s₁ := State.start.called 0 opens
  let s₂ := s₁.served 0 (.inr (.newStream ⟨false, true, false, Capture.builtinMic⟩)) (some 0)
  have entered : system.enters State.start 0 opens s₁ :=
    ⟨⟨fun σ none_on => absurd none_on.symm (Option.some_ne_none σ), rfl⟩, rfl⟩
  have allocated : (system.code opens).Runs (system.env 0) s₁ ⟨⟩ s₂ :=
    ⟨some 0, s₂, ⟨rfl, rfl⟩, rfl, rfl⟩
  let s₃ := { s₂ with outputs := s₂.outputs.leave 0, inputs := s₂.inputs.leave 0 }
  have left : system.leaves s₂ 0 s₃ := rfl
  have opened := ThreadSystem.reachable_invoke start rfl entered allocated left
  let s₄ := s₃.called 0 (.inr (.read 0))
  have exists_ : system.enters s₃ 0 (.inr (.read 0)) s₄ := by
    refine ⟨⟨fun σ on_it => ?_, rfl⟩, rfl⟩
    obtain rfl : 0 = σ := Option.some.inj on_it
    exact ⟨rfl, rfl⟩
  have reading := ThreadSystem.reachable_enter opened rfl exists_
  let s₅ := s₄.served 0 (.inr (.lockStream 0)) ()
  have locks : system.env 0 s₄ (.inr (.lockStream 0)) () s₅ := ⟨⟨rfl, rfl⟩, rfl⟩
  have locked := ThreadSystem.reachable_run reading rfl locks
  let s₆ := s₅.called 1 (.inl (.setMicMute true))
  have anytime : system.enters s₅ 1 (.inl (.setMicMute true)) s₆ :=
    ⟨⟨fun σ none_on => absurd none_on.symm (Option.some_ne_none σ), rfl⟩, rfl⟩
  have muting := ThreadSystem.reachable_enter locked rfl anytime
  have free : system.env 1 s₆ (.inl .lockDevice) () (s₆.served 1 (.inl .lockDevice) ()) :=
    ⟨rfl, rfl⟩
  have both := ThreadSystem.reachable_run muting rfl free
  exact ⟨_, _, _, both, rfl, rfl⟩

/-- With two threads inside the HAL. -/
theorem calls_return_busy : ∃ c, system.machine.Reachable c ∧ c.threads 0 ≠ none ∧
    c.threads 1 ≠ none ∧ Inevitable (Quiet system) (fun c => (∀ t, c.threads t = none) ∧
      ∀ l, halLocks.holder c.shared l = none) c := by
  obtain ⟨c, next, next', reach, reading, muting⟩ := reachable_busy
  refine ⟨c, reach, ?_, ?_, calls_return reach⟩
  · rw [reading]
    exact Option.some_ne_none _
  · rw [muting]
    exact Option.some_ne_none _

section Accesses

variable {X I L : Type} {f : Interface X I} {s : Process.State X I L} {t u : Tid}

end Accesses

end XdPlus.Audio.Locking
