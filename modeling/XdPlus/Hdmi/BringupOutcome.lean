/- Module: XdPlus/Hdmi/BringupOutcome
   source: rootdir/system/bin/xdplus_tweaks, hdmi_up, hdmi_down
   digest: Whatever the phone answers, the output ends up checked and showing, or switched off. -/

import XdPlus.Hdmi.Bringup

/-!
The output is what the script has made of it. What it has seen of the display is forgotten at
each mode set, since that registers the display anew. All that it asks may be answered in any way,
except that a file is executable or not all the time, and that the stored mode is what it is.
-/

set_option autoImplicit false
set_option relaxedAutoImplicit false

namespace XdPlus.Hdmi.BringupOutcome

open XdPlus.Base MainLoop SleepWake Bringup

structure Output where
  enabled : Bool
  powered : Bool
  mode : Option String
  mirror : String
  latched : Bool
  poked : List Ctl

/-- The last answers since the mode was set. -/
structure Seen where
  displayOne : Option Bool
  stackZero : Option Bool
  session : Option String
  mask : Option (Option Nat)

def Seen.nothing : Seen := ⟨none, none, none, none⟩

structure Phone where
  output : Output
  seen : Seen
  setting : String

/-- The driver has no mode until one is set. -/
def Output.switch (o : Output) : Ctl → Output
  | .enable => { o with enabled := true, mode := none, poked := o.poked ++ [.enable] }
  | .disable => { o with enabled := false, mode := none, poked := o.poked ++ [.disable] }
  | .power on => { o with powered := on, poked := o.poked ++ [.power on] }

def Phone.after (p : Phone) : (c : Call) → Answer c → Phone
  | .displayOne, a => { p with seen := { p.seen with displayOne := some a } }
  | .stackZero, a => { p with seen := { p.seen with stackZero := some a } }
  | .sessionMode, a => { p with seen := { p.seen with session := some a } }
  | .sinkMask, a => { p with seen := { p.seen with mask := some a } }
  | .hdmictl _ (.switch c), _ => { p with output := p.output.switch c }
  | .hdmictl _ (.res mode), _ =>
      { p with output := { p.output with mode := some mode }, seen := .nothing }
  | .setprop name value, _ =>
      if name = mirrorState then
        { p with output := { p.output with mirror := value, latched := false } }
      else if name = settingName then { p with setting := value }
      else p
  | .dumpSurfaceFlinger, _ => { p with output := { p.output with latched := true } }
  | _, _ => p

/-- What a question can be answered with. -/
def Possible (present : String → Bool) (p : Phone) : (c : Call) → Answer c → Prop
  | .isExecutable path, a => a = present path
  | .getprop name, a => name = settingName → a = p.setting
  | _, _ => True

def phone (present : String → Bool) : Prog.Environment Call Answer Phone :=
  fun p c a p' => Possible present p c a ∧ p' = p.after c a

/-- The mirror queue gate is open and the blob has read it. -/
def Gated (o : Output) : Prop := o.mirror = "1" ∧ o.latched = true

/-- A mode can be set. -/
def Ready (o : Output) : Prop := o.enabled = true ∧ o.powered = true ∧ Gated o

/-- Nothing is switched on before the gate is open, no mode is set before all is switched on, and
no mode is set twice in a row. The stored mode stays. -/
def Ordered (present : String → Bool) (p : Phone) : Call → Prop
  | .hdmictl ctl args => present ctl = true ∧
      match args with
      | .switch .enable | .switch (.power true) => Gated p.output
      | .switch _ => True
      | .res mode => Ready p.output ∧ p.output.mode ≠ some mode
  | .setprop name _ => name ≠ settingName
  | _ => True

/-- The sink has the mode among its ultra modes, or does not say what it has. -/
def Claimed (mode : String) (mask : Option (Option Nat)) : Prop :=
  ∀ bit, ultraBit mode = some bit →
    mask = some none ∨ ∃ bits, mask = some (some bits) ∧ bits &&& bit ≠ 0

/-- Why a mode is taken to be showing. -/
structure Judged (mode : String) (seen : Seen) : Prop where
  registered : seen.displayOne = some true
  mirrors : seen.stackZero = some true
  session : seen.session = some "4" ∨ seen.session = some "" ∨
    seen.session = some "1" ∧ isUltra mode = true ∧ Claimed mode seen.mask

def tool (present : String → Bool) : String :=
  if present imageCtl then imageCtl else dataCtl

/-- The modes a bring-up goes through. -/
def candidates (setting : String) : List String :=
  [if setting = "" then "11" else setting, "11", "2"]

/-- What a run of the dispatcher comes to. -/
inductive Outcome (present : String → Bool) (p p' : Phone) : Tweak → Nat → Prop
  | notBegun {status : Nat} : p' = p → Outcome present p p' .hdmiUp status
  | up {mode : String} : mode ∈ candidates p.setting →
      p'.output = ⟨true, true, some mode, "1", true, p.output.poked ++ script .hdmiUp⟩ →
      Judged mode p'.seen → present (tool present) = true → Outcome present p p' .hdmiUp 0
  | failed :
      p'.output = ⟨false, false, none, "4", false,
        p.output.poked ++ script .hdmiUp ++ script .hdmiDown⟩ → Outcome present p p' .hdmiUp 1
  | down : p'.output = ⟨false, false, none, "4", false, p.output.poked ++ script .hdmiDown⟩ →
      Outcome present p p' .hdmiDown 0
  | missing : present (tool present) = false →
      p'.output = { p.output with mirror := "4", latched := false } →
      Outcome present p p' .hdmiDown 0

section Scripts

variable {present : String → Bool} {p : Phone} {ctl mode want : String}

/-- A script that asks in order, from `p` to what `post` says. -/
abbrev Does {α : Type} (present : String → Bool) (script : Script α) (p : Phone)
    (post : α → Phone → Prop) : Prop :=
  script.Ensures (phone present) (Ordered present) p post

/-- What every wait and every question leaves. -/
def Same (p p' : Phone) : Prop := p'.output = p.output ∧ p'.setting = p.setting

theorem Same.refl (p : Phone) : Same p p := ⟨rfl, rfl⟩

theorem Same.trans {p p' p'' : Phone} (first : Same p p') (second : Same p' p'') : Same p p'' :=
  ⟨second.1.trans first.1, second.2.trans first.2⟩

theorem does_run (c : Call) (ordered : Ordered present p c) :
    Does present (run c) p (fun a p' => Possible present p c a ∧ p' = p.after c a) :=
  ⟨ordered, fun _ _ answered => answered⟩

theorem does_settle {I : Phone → Prop} {cond : Script Bool}
    (keeps : ∀ p, I p → Does present cond p fun _ p' => I p') (seconds : Nat) (start : I p) :
    Does present (settle seconds cond) p fun _ p' => I p' := by
  have tries : ∀ left p, I p → Does present (waitTries cond left) p fun _ p' => I p' := by
    intro left
    induction left with
    | zero => exact fun _ start => start
    | succ left ih =>
        intro p start
        simp only [Does, waitTries, Prog.ensures_bind]
        refine (keeps p start).mono fun found p' kept => ?_
        cases found with
        | true => exact kept
        | false =>
            simp only [Bool.false_eq_true, if_false, Prog.ensures_bind]
            refine (does_run .sleep trivial).mono fun _ p'' answered => ?_
            obtain ⟨-, rfl⟩ := answered
            exact ih _ kept
  simp only [Does, settle, waitFor, Prog.ensures_bind]
  exact tries _ p start

theorem does_onlyIf {b : Bool} {script : Script Unit} {post : Unit → Phone → Prop}
    (yes : b = true → Does present script p post) (no : b = false → post () p) :
    Does present (onlyIf b script) p post := by
  unfold onlyIf
  cases b with
  | true => exact yes rfl
  | false => exact no rfl

theorem does_absent {I : Phone → Prop} {cond : Script Bool}
    (keeps : Does present cond p fun _ p' => I p') :
    Does present (absent cond) p fun _ p' => I p' := by
  simp only [Does, absent, Prog.ensures_bind]
  exact keeps

private theorem same_displayOne {p₀ p : Phone} (same : Same p₀ p) :
    Does present (run .displayOne) p fun _ p' => Same p₀ p' := by
  refine (does_run .displayOne trivial).mono fun _ p' answered => ?_
  obtain ⟨-, rfl⟩ := answered
  exact same

private theorem same_quiet {p₀ p : Phone} (c : Call) (ordered : Ordered present p c)
    (quiet : ∀ a, p.after c a = p) (same : Same p₀ p) :
    Does present (run c) p fun _ p' => Same p₀ p' := by
  refine (does_run c ordered).mono fun _ p' answered => ?_
  obtain ⟨-, rfl⟩ := answered
  rw [quiet]
  exact same

theorem does_hdmiSetRes (there : present ctl = true) (ready : Ready p.output)
    (other : p.output.mode ≠ some mode) (seconds : Nat) :
    Does present (hdmiSetRes ctl mode seconds) p fun _ p' =>
      p'.output = { p.output with mode := some mode } ∧ p'.setting = p.setting := by
  simp only [Does, hdmiSetRes, Prog.ensures_bind]
  refine (same_displayOne (Same.refl p)).mono fun had1 p₁ same => ?_
  have ordered : Ordered present p₁ (.hdmictl ctl (.res mode)) := by
    refine ⟨there, ?_⟩
    rw [same.1]
    exact ⟨ready, other⟩
  refine (does_run _ ordered).mono fun _ p₂ answered => ?_
  obtain ⟨-, rfl⟩ := answered
  let set := p₁.after (.hdmictl ctl (.res mode)) ()
  have waits : ∀ p, Same set p → Does present (run .displayOne) p fun _ p' => Same set p' :=
    fun _ => same_displayOne
  have gone : ∀ p, Same set p →
      Does present (absent (run .displayOne)) p fun _ p' => Same set p' :=
    fun p same => does_absent (waits p same)
  have dropped : Does present (onlyIf had1 (settle 10 (absent (run .displayOne)))) set
      fun _ p' => Same set p' :=
    does_onlyIf (fun _ => does_settle gone 10 (Same.refl set)) fun _ => Same.refl set
  refine dropped.mono fun _ p₃ same₃ => (does_settle waits seconds same₃).mono ?_
  intro _ p₄ same₄
  rw [same₄.1, same₄.2]
  exact ⟨congrArg (fun o : Output => { o with mode := some mode }) same.1, same.2⟩

theorem altMode_ne (mode : String) : altMode mode ≠ mode := by
  unfold altMode
  split_ifs with eleven
  · rw [eleven]
    decide
  · exact fun same => eleven same.symm

theorem does_toggle (there : present ctl = true) (ready : Ready p.output)
    (current : p.output.mode = some mode) (pass : Nat) :
    Does present (toggle ctl mode pass) p fun _ p' => Same p p' := by
  simp only [Does, toggle, Prog.ensures_bind]
  refine (same_quiet (.xlog _) trivial (fun _ => rfl) (Same.refl p)).mono fun _ p₁ same₁ => ?_
  refine (same_quiet .unplugCable trivial (fun _ => rfl) same₁).mono fun _ p₂ same₂ => ?_
  have ordered : Ordered present p₂ (.hdmictl ctl (.res (altMode mode))) := by
    refine ⟨there, ?_⟩
    rw [same₂.1, current]
    exact ⟨ready, fun same => altMode_ne mode (Option.some.inj same).symm⟩
  refine (does_run _ ordered).mono fun _ p₃ answered => ?_
  obtain ⟨-, rfl⟩ := answered
  let set := p₂.after (.hdmictl ctl (.res (altMode mode))) ()
  have applied : ∀ p, Same set p →
      Does present (do return (← run .resState) == altApplied mode) p fun _ p' => Same set p' := by
    intro p same
    simp only [Does, Prog.ensures_bind]
    exact same_quiet .resState trivial (fun _ => rfl) same
  refine (does_settle applied 3 (Same.refl set)).mono fun _ p₄ same₄ => ?_
  have output₄ : p₄.output = { p.output with mode := some (altMode mode) } := by
    rw [same₄.1, ← same₂.1]
    rfl
  have ready₄ : Ready p₄.output := by
    rw [output₄]
    exact ready
  have other₄ : p₄.output.mode ≠ some mode := by
    rw [output₄]
    exact fun same => altMode_ne mode (Option.some.inj same)
  refine (does_hdmiSetRes there ready₄ other₄ 5).mono fun _ p' set_again => ?_
  refine ⟨?_, set_again.2.trans (same₄.2.trans same₂.2)⟩
  rw [set_again.1, output₄, ← current]

theorem does_sinkSupportsMode (p : Phone) : Does present (sinkSupportsMode mode) p fun yes p' =>
    Same p p' ∧ p'.seen = { p.seen with mask := p'.seen.mask } ∧
      (yes = true → Claimed mode p'.seen.mask) := by
  unfold sinkSupportsMode
  cases ultra : ultraBit mode with
  | none =>
      refine ⟨Same.refl p, rfl, fun _ bit is_bit => ?_⟩
      cases ultra.symm.trans is_bit
  | some bit =>
      simp only [Does, Prog.ensures_bind]
      refine (does_run .sinkMask trivial).mono fun mask p₁ answered => ?_
      obtain ⟨-, rfl⟩ := answered
      cases mask with
      | none => exact ⟨Same.refl p, rfl, fun _ _ _ => .inl rfl⟩
      | some bits =>
          refine ⟨Same.refl p, rfl, fun claims bit' is_bit => .inr ⟨bits, rfl, ?_⟩⟩
          obtain rfl := Option.some.inj (ultra.symm.trans is_bit)
          simpa using claims

theorem does_judge (pass : Nat) (registered : p.seen.displayOne = some true)
    (mirrors : p.seen.stackZero = some true) :
    Does present (judge mode pass) p fun verdict p' =>
      Same p p' ∧ (verdict = .up → Judged mode p'.seen) := by
  have unmoved : ∀ p', p' = p → Does present (run .mirroring) p' fun _ p'' => p'' = p := by
    intro p' same
    refine (does_run .mirroring trivial).mono fun _ p'' answered => ?_
    exact answered.2.trans same
  simp only [Does, judge, Prog.ensures_bind]
  refine (does_settle unmoved 2 rfl).mono fun _ p₁ same₁ => ?_
  obtain rfl := same₁
  refine (does_run .sessionMode trivial).mono fun smode p₂ answered => ?_
  obtain ⟨-, rfl⟩ := answered
  have quiet : ∀ (msg : String) (verdict : Verdict) {p' : Phone}, Same p₁ p' →
      (verdict = .up → Judged mode p'.seen) →
      Does present (do run (.xlog msg); return verdict) p' fun verdict p' =>
        Same p₁ p' ∧ (verdict = .up → Judged mode p'.seen) := by
    intro msg verdict p' same judged
    simp only [Does, Prog.ensures_bind]
    refine (does_run (.xlog msg) trivial).mono fun _ p'' answered => ?_
    obtain ⟨-, rfl⟩ := answered
    exact ⟨same, judged⟩
  by_cases four : smode = "4"
  · rw [if_pos four]
    exact quiet _ _ (Same.refl _) fun _ => ⟨registered, mirrors, .inl (congrArg some four)⟩
  · rw [if_neg four]
    by_cases ultra : smode = "1" ∧ isUltra mode = true
    · rw [if_pos ultra]
      simp only [Prog.ensures_bind]
      refine (does_sinkSupportsMode _).mono fun yes p₃ asked => ?_
      obtain ⟨same, seen, claims⟩ := asked
      cases yes with
      | true =>
          refine quiet _ _ same fun _ => ⟨?_, ?_, .inr (.inr ⟨?_, ultra.2, claims rfl⟩)⟩
          · rw [seen]
            exact registered
          · rw [seen]
            exact mirrors
          · rw [seen]
            exact congrArg some ultra.1
      | false => exact quiet _ _ same fun up => by cases up
    · rw [if_neg ultra]
      by_cases unread : smode = ""
      · rw [if_pos unread]
        exact quiet _ _ (Same.refl _) fun _ =>
          ⟨registered, mirrors, .inr (.inl (congrArg some unread))⟩
      · rw [if_neg unread]
        exact quiet _ _ (Same.refl _) fun up => by cases up

theorem does_attempt (there : present ctl = true) (ready : Ready p.output)
    (current : p.output.mode = some mode) (pass : Nat) :
    Does present (attempt ctl mode pass) p fun verdict p' =>
      Same p p' ∧ (verdict = .up → Judged mode p'.seen) := by
  have screen : ∀ p', Same p p' → Does present (run .hdmiScreen) p' fun _ p'' => Same p p'' :=
    fun _ => same_quiet .hdmiScreen trivial fun _ => rfl
  simp only [Does, attempt, Prog.ensures_bind]
  refine (does_settle screen 5 (Same.refl p)).mono fun _ p₁ same₁ => ?_
  refine (screen p₁ same₁).mono fun shown p₂ same₂ => ?_
  have toggled : Does present (onlyIf (!shown) (toggle ctl mode pass)) p₂
      fun _ p' => Same p p' := by
    apply does_onlyIf
    · intro _
      rw [← same₂.1] at ready current
      exact (does_toggle there ready current pass).mono fun _ _ same => same₂.trans same
    · exact fun _ => same₂
  refine toggled.mono fun _ p₃ same₃ => ?_
  refine (does_run .displayOne trivial).mono fun registered p₄ answered => ?_
  obtain ⟨-, rfl⟩ := answered
  have same₄ : Same p (p₃.after .displayOne registered) := same₃
  cases registered with
  | false =>
      simp only [Bool.false_eq_true, if_false, Prog.ensures_bind]
      refine (same_quiet (.xlog _) trivial (fun _ => rfl) same₄).mono fun _ p' same => ?_
      exact ⟨same, fun up => by cases up⟩
  | true =>
      simp only [if_true, Prog.ensures_bind]
      refine (does_run .stackZero trivial).mono fun mirrors p₅ answered => ?_
      obtain ⟨-, rfl⟩ := answered
      have same₅ : Same p ((p₃.after .displayOne true).after .stackZero mirrors) := same₃
      cases mirrors with
      | false =>
          have keyguard : ∀ p', Same p p' →
              Does present (absent (run .keyguardShowing)) p' fun _ p'' => Same p p'' :=
            fun _ same => does_absent (same_quiet .keyguardShowing trivial (fun _ => rfl) same)
          simp only [Bool.false_eq_true, if_false, Prog.ensures_bind]
          refine (same_quiet (.xlog _) trivial (fun _ => rfl) same₅).mono fun _ p₆ same₆ => ?_
          refine (same_quiet .dismissKeyguard trivial (fun _ => rfl) same₆).mono ?_
          intro _ p₇ same₇
          refine (does_settle keyguard 2 same₇).mono fun _ p' same => ?_
          exact ⟨same, fun up => by cases up⟩
      | true =>
          simp only [if_true]
          refine (does_judge pass rfl rfl).mono fun verdict p' judged => ?_
          exact ⟨same₃.trans judged.1, judged.2⟩

theorem does_attempts (there : present ctl = true) (passes : List Nat) (ready : Ready p.output)
    (current : p.output.mode = some mode) :
    Does present (attempts ctl mode passes) p fun up p' =>
      Same p p' ∧ (up = true → Judged mode p'.seen) := by
  induction passes generalizing p with
  | nil => exact ⟨Same.refl p, fun up => by cases up⟩
  | cons pass rest ih =>
      simp only [Does, attempts, Prog.ensures_bind]
      refine (does_attempt there ready current pass).mono fun verdict p₁ tried => ?_
      obtain ⟨same, judged⟩ := tried
      cases verdict with
      | up => exact ⟨same, fun _ => judged rfl⟩
      | refused => exact ⟨same, fun up => by cases up⟩
      | again =>
          rw [← same.1] at ready current
          refine (ih ready current).mono fun up p' later => ?_
          exact ⟨same.trans later.1, later.2⟩

theorem does_hdmiApplyMode (there : present ctl = true) (ready : Ready p.output)
    (other : p.output.mode ≠ some mode) :
    Does present (hdmiApplyMode ctl mode) p fun up p' =>
      p'.output = { p.output with mode := some mode } ∧ p'.setting = p.setting ∧
        (up = true → Judged mode p'.seen) := by
  simp only [Does, hdmiApplyMode, Prog.ensures_bind]
  refine (does_hdmiSetRes there ready other 6).mono fun _ p₁ set => ?_
  obtain ⟨output, setting⟩ := set
  have ready₁ : Ready p₁.output := by
    rw [output]
    exact ready
  have current₁ : p₁.output.mode = some mode := by rw [output]
  refine (does_attempts there [1, 2, 3] ready₁ current₁).mono fun up p' tried => ?_
  obtain ⟨same, judged⟩ := tried
  exact ⟨same.1.trans output, same.2.trans setting, judged⟩

theorem does_fallbacks (there : present ctl = true) (fbs : List String) (distinct : fbs.Nodup)
    (ready : Ready p.output) {current : String} (is_current : p.output.mode = some current)
    (other : current = want ∨ current ∉ fbs) :
    Does present (fallbacks ctl want fbs) p fun up p' => ∃ mode,
      p'.output = { p.output with mode := some mode } ∧ p'.setting = p.setting ∧
        (up = true → mode ∈ fbs ∧ Judged mode p'.seen) := by
  induction fbs generalizing p current with
  | nil => exact ⟨current, by rw [← is_current], rfl, fun up => by cases up⟩
  | cons fb rest ih =>
      obtain ⟨fresh, distinct'⟩ := List.nodup_cons.mp distinct
      unfold fallbacks
      by_cases skipped : fb = want
      · rw [if_pos skipped]
        have other' : current = want ∨ current ∉ rest :=
          other.imp_right fun missing later => missing (List.mem_cons_of_mem fb later)
        refine (ih distinct' ready is_current other').mono fun up p' done => ?_
        obtain ⟨mode, output, setting, judged⟩ := done
        exact ⟨mode, output, setting, fun up =>
          ⟨List.mem_cons_of_mem fb (judged up).1, (judged up).2⟩⟩
      · rw [if_neg skipped]
        have ne : p.output.mode ≠ some fb := by
          rw [is_current]
          intro same
          obtain rfl := Option.some.inj same
          exact other.elim skipped fun missing => missing (List.mem_cons_self ..)
        simp only [Does, Prog.ensures_bind]
        refine (same_quiet (.xlog _) trivial (fun _ => rfl) (Same.refl p)).mono ?_
        intro _ p₁ same
        rw [← same.1] at ready ne
        refine (does_hdmiApplyMode there ready ne).mono fun up p₂ applied => ?_
        obtain ⟨output, setting, judged⟩ := applied
        rw [same.1] at output
        cases up with
        | true => exact ⟨fb, output, setting.trans same.2, fun _ =>
            ⟨List.mem_cons_self .., judged rfl⟩⟩
        | false =>
            have ready₂ : Ready p₂.output := by
              rw [output]
              rw [same.1] at ready
              exact ready
            have current₂ : p₂.output.mode = some fb := by rw [output]
            refine (ih distinct' ready₂ current₂ (.inr fresh)).mono fun up p' done => ?_
            obtain ⟨mode, output', setting', judged'⟩ := done
            refine ⟨mode, ?_, setting'.trans (setting.trans same.2), fun up =>
              ⟨List.mem_cons_of_mem fb (judged' up).1, (judged' up).2⟩⟩
            rw [output', output]

private theorem same_setprop {p₀ p : Phone} (name value : String)
    (free : name ≠ settingName ∧ name ≠ mirrorState) (same : Same p₀ p) :
    Does present (run (.setprop name value)) p fun _ p' => Same p₀ p' := by
  apply same_quiet (.setprop name value) free.1
  · intro _
    simp only [Phone.after, if_neg free.1, if_neg free.2]
  · exact same

theorem does_openGate (p : Phone) : Does present openGate p fun _ p' =>
    p'.output = { p.output with mirror := "1", latched := true } ∧ p'.setting = p.setting := by
  simp only [Does, openGate, Prog.ensures_bind]
  refine (same_quiet (.getprop _) trivial (fun _ => rfl) (Same.refl p)).mono ?_
  intro force p₁ same₁
  have noted : Does present (onlyIf (force != "0") (run (.xlog
      ("note: hdmi_force_validate is set; " ++
        "the external validates when it carries its own content")))) p₁ fun _ p' => Same p p' :=
    does_onlyIf (fun _ => same_quiet _ trivial (fun _ => rfl) same₁) fun _ => same₁
  refine noted.mono fun _ p₂ same₂ => ?_
  have ordered : Ordered present p₂ (.setprop mirrorState "1") := by
    show mirrorState ≠ settingName
    decide
  refine (does_run _ ordered).mono fun _ p₃ answered => ?_
  obtain ⟨-, rfl⟩ := answered
  refine (same_quiet (.getprop _) trivial (fun _ => rfl) (Same.refl _)).mono ?_
  intro novsync p₄ same₄
  have paced : Does present (onlyIf (novsync != "0") pace) p₄
      fun _ p' => Same (p₂.after (.setprop mirrorState "1") ()) p' := by
    apply does_onlyIf
    · intro _
      simp only [Does, pace, Prog.ensures_bind]
      refine (same_setprop "debug.hwc.trigger_by_vsync" "0" (by decide) same₄).mono ?_
      exact fun _ p' same => same_quiet _ trivial (fun _ => rfl) same
    · exact fun _ => same₄
  refine paced.mono fun _ p₅ same₅ => ?_
  refine (does_run .dumpSurfaceFlinger trivial).mono fun _ p₆ answered => ?_
  obtain ⟨-, rfl⟩ := answered
  refine ⟨?_, same₅.2.trans same₂.2⟩
  show { p₅.output with latched := true } = _
  rw [same₅.1, ← same₂.1]
  rfl

theorem does_rouse (p : Phone) : Does present rouse p fun _ p' => Same p p' := by
  have awake : ∀ p', Same p p' → Does present (run .awake) p' fun _ p'' => Same p p'' :=
    fun _ => same_quiet .awake trivial fun _ => rfl
  have keyguard : ∀ p', Same p p' →
      Does present (run .keyguardShowing) p' fun _ p'' => Same p p'' :=
    fun _ => same_quiet .keyguardShowing trivial fun _ => rfl
  simp only [Does, rouse, Prog.ensures_bind]
  refine (awake p (Same.refl p)).mono fun up p₁ same₁ => ?_
  have woken : Does present (onlyIf (!up) wake) p₁ fun _ p' => Same p p' := by
    apply does_onlyIf
    · intro _
      simp only [Does, wake, Prog.ensures_bind]
      refine (same_quiet .wakeUp trivial (fun _ => rfl) same₁).mono fun _ p' same => ?_
      exact does_settle awake 1 same
    · exact fun _ => same₁
  refine woken.mono fun _ p₂ same₂ => ?_
  refine (keyguard p₂ same₂).mono fun showing p₃ same₃ => ?_
  apply does_onlyIf
  · intro _
    simp only [Does, dismiss, Prog.ensures_bind]
    refine (same_quiet .dismissKeyguard trivial (fun _ => rfl) same₃).mono fun _ p' same => ?_
    exact does_settle (fun p' same => does_absent (keyguard p' same)) 2 same
  · exact fun _ => same₃

theorem does_switchOn (there : present ctl = true) (gated : Gated p.output) :
    Does present (switchOn ctl) p fun _ p' =>
      p'.output = { p.output with
        enabled := true, powered := true, mode := none
        poked := p.output.poked ++ script .hdmiUp } ∧ p'.setting = p.setting := by
  simp only [Does, switchOn, Prog.ensures_bind]
  refine (does_run (.hdmictl ctl (.switch .enable)) ⟨there, gated⟩).mono ?_
  intro _ p₁ answered
  obtain ⟨-, rfl⟩ := answered
  have ordered : Ordered present (p.after (.hdmictl ctl (.switch .enable)) ())
      (.hdmictl ctl (.switch (.power true))) := ⟨there, gated⟩
  refine (does_run _ ordered).mono fun _ p₂ answered => ?_
  obtain ⟨-, rfl⟩ := answered
  have waits : ∀ p₀ p', Same p₀ p' → Does present (run .sinkReady) p' fun _ p'' => Same p₀ p'' :=
    fun _ _ => same_quiet .sinkReady trivial fun _ => rfl
  refine (does_settle (waits _) 3 (Same.refl _)).mono fun _ p' same => ?_
  refine ⟨?_, same.2⟩
  rw [same.1]
  show Output.switch (Output.switch p.output .enable) (.power true) = _
  simp only [Output.switch, script, List.append_assoc, List.cons_append, List.nil_append]

theorem does_switchOff (there : present ctl = true) (p : Phone) :
    Does present (switchOff ctl) p fun _ p' =>
      p'.output = { p.output with
        enabled := false, powered := false, mode := none
        poked := p.output.poked ++ script .hdmiDown } ∧ p'.setting = p.setting := by
  simp only [Does, switchOff, Prog.ensures_bind]
  refine (does_run (.hdmictl ctl (.switch (.power false))) ⟨there, trivial⟩).mono ?_
  intro _ p₁ answered
  obtain ⟨-, rfl⟩ := answered
  refine (does_run (.hdmictl ctl (.switch .disable)) ⟨there, trivial⟩).mono ?_
  intro _ p₂ answered
  obtain ⟨-, rfl⟩ := answered
  refine ⟨?_, rfl⟩
  show Output.switch (Output.switch p.output (.power false)) .disable = _
  simp only [Output.switch, script, List.append_assoc, List.cons_append, List.nil_append]

private theorem does_parkGate (p : Phone) :
    Does present (run (.setprop mirrorState "4")) p fun _ p' =>
      p'.output = { p.output with mirror := "4", latched := false } ∧ p'.setting = p.setting := by
  have ordered : Ordered present p (.setprop mirrorState "4") := by
    show mirrorState ≠ settingName
    decide
  refine (does_run _ ordered).mono fun _ p' answered => ?_
  obtain ⟨-, rfl⟩ := answered
  exact ⟨rfl, rfl⟩

theorem does_tryModes (there : present ctl = true) (ready : Ready p.output)
    (fresh : p.output.mode = none) :
    Does present (tryModes ctl want) p fun up p' => p'.setting = p.setting ∧
      ((up = true ∧ ∃ mode ∈ [want, "11", "2"],
          p'.output = { p.output with mode := some mode } ∧ Judged mode p'.seen) ∨
        up = false ∧ p'.output = ⟨false, false, none, "4", false,
          p.output.poked ++ script .hdmiDown⟩) := by
  have unset : p.output.mode ≠ some want := by
    rw [fresh]
    exact Option.some_ne_none want |>.symm
  simp only [Does, tryModes, Prog.ensures_bind]
  refine (does_hdmiApplyMode there ready unset).mono fun up p₁ applied => ?_
  obtain ⟨output₁, setting₁, judged₁⟩ := applied
  cases up with
  | true => exact ⟨setting₁, .inl ⟨rfl, want, List.mem_cons_self .., output₁, judged₁ rfl⟩⟩
  | false =>
      have ready₁ : Ready p₁.output := by
        rw [output₁]
        exact ready
      have current₁ : p₁.output.mode = some want := by rw [output₁]
      simp only [Bool.false_eq_true, if_false, Prog.ensures_bind]
      refine (does_fallbacks there ["11", "2"] (by decide) ready₁ current₁ (.inl rfl)).mono ?_
      intro up p₂ fell
      obtain ⟨mode, output₂, setting₂, judged₂⟩ := fell
      cases up with
      | true =>
          obtain ⟨member, judged⟩ := judged₂ rfl
          refine ⟨setting₂.trans setting₁, .inl ⟨rfl, mode, List.mem_cons_of_mem _ member, ?_, ?_⟩⟩
          · rw [output₂, output₁]
          · exact judged
      | false =>
          simp only [Bool.false_eq_true, if_false, safeTeardown, Prog.ensures_bind]
          refine (same_quiet (.xlog _) trivial (fun _ => rfl) (Same.refl p₂)).mono ?_
          intro _ p₃ same₃
          refine (same_quiet .unplugCable trivial (fun _ => rfl) same₃).mono fun _ p₄ same₄ => ?_
          refine (does_switchOff there p₄).mono fun _ p₅ off => ?_
          refine (does_parkGate p₅).mono fun _ p₆ parked => ?_
          obtain ⟨output₅, setting₅⟩ := off
          obtain ⟨output₆, setting₆⟩ := parked
          refine ⟨?_, .inr ⟨rfl, ?_⟩⟩
          · rw [setting₆, setting₅, same₄.2, setting₂, setting₁]
          · rw [output₆, output₅, same₄.1, output₂, output₁]

theorem does_patchVendor (p : Phone) : Does present patchVendor p fun _ p' => p' = p := by
  have quiet : ∀ (c : Call) (p' : Phone), Ordered present p' c → (∀ a, p'.after c a = p') →
      p' = p → Does present (run c) p' fun _ p'' => p'' = p := by
    intro c p' ordered still same
    refine (does_run c ordered).mono fun _ p'' answered => ?_
    rw [answered.2, still, same]
  simp only [Does, patchVendor, Prog.ensures_bind]
  refine (quiet (.isFile blob) p trivial (fun _ => rfl) rfl).mono fun there p₁ same₁ => ?_
  cases there with
  | false =>
      simp only [Bool.false_eq_true, if_false, Prog.ensures_bind]
      exact quiet (.xlog _) p₁ trivial (fun _ => rfl) same₁
  | true =>
      simp only [if_true, Prog.ensures_bind]
      refine (quiet (.bindMount blob vblob) p₁ trivial (fun _ => rfl) same₁).mono ?_
      intro bound p₂ same₂
      have killed : Does present (onlyIf bound (run .killComposer)) p₂ fun _ p' => p' = p :=
        does_onlyIf (fun _ => quiet .killComposer p₂ trivial (fun _ => rfl) same₂) fun _ => same₂
      refine killed.mono fun _ p₃ same₃ => ?_
      exact quiet (.xlog _) p₃ trivial (fun _ => rfl) same₃

theorem does_hdmiUp (p : Phone) (is_tool : ctl = tool present) :
    Does present (hdmiUp ctl) p fun up p' => p'.setting = p.setting ∧
      ∀ status, status = (if up then 0 else 1) → Outcome present p p' .hdmiUp status := by
  simp only [Does, hdmiUp, Prog.ensures_bind]
  refine (does_run (.getprop settingName) trivial).mono fun stored p₁ answered => ?_
  obtain rfl : p = p₁ := answered.2.symm
  obtain rfl : stored = p.setting := answered.1 rfl
  refine (does_run (.isExecutable ctl) trivial).mono fun there p₂ answered => ?_
  obtain rfl : p = p₂ := answered.2.symm
  have is_there := answered.1
  cases there with
  | false =>
      simp only [Bool.false_eq_true, if_false, Prog.ensures_bind]
      refine (does_run (.xlog _) trivial).mono fun _ p' answered => ?_
      obtain rfl : p = p' := answered.2.symm
      exact ⟨rfl, fun _ _ => .notBegun rfl⟩
  | true =>
      have there : present ctl = true := is_there.symm
      simp only [if_true, Prog.ensures_bind]
      refine (does_run (.md5Is vblob vblobMd5) trivial).mono fun patched p₃ answered => ?_
      obtain rfl : p = p₃ := answered.2.symm
      cases patched with
      | false =>
          simp only [Bool.false_eq_true, if_false]
          refine (does_patchVendor p).mono fun up p' same => ?_
          exact ⟨congrArg Phone.setting same, fun _ _ => .notBegun same⟩
      | true =>
          simp only [if_true, Prog.ensures_bind]
          refine (does_openGate p).mono fun _ p₄ opened => ?_
          obtain ⟨output₄, setting₄⟩ := opened
          refine (does_rouse p₄).mono fun _ p₅ same₅ => ?_
          refine (same_quiet .chmod trivial (fun _ => rfl) same₅).mono fun _ p₆ same₆ => ?_
          refine (same_quiet (.xlog _) trivial (fun _ => rfl) same₆).mono fun _ p₇ same₇ => ?_
          have gated : Gated p₇.output := by
            rw [same₇.1, output₄]
            exact ⟨rfl, rfl⟩
          refine (does_switchOn there gated).mono fun _ p₈ on => ?_
          obtain ⟨output₈, setting₈⟩ := on
          have ready : Ready p₈.output := by
            rw [output₈]
            exact ⟨rfl, rfl, gated⟩
          have fresh : p₈.output.mode = none := by rw [output₈]
          have setting₀ : p₈.setting = p.setting := by rw [setting₈, same₇.2, setting₄]
          refine (does_tryModes there ready fresh).mono fun up p' tried => ?_
          obtain ⟨setting', result⟩ := tried
          refine ⟨setting'.trans setting₀, fun status is_status => ?_⟩
          obtain ⟨rfl, mode, member, output', judged⟩ | ⟨rfl, output'⟩ := result
          · obtain rfl : status = 0 := is_status
            refine .up member ?_ judged (is_tool ▸ there)
            rw [output', output₈, same₇.1, output₄]
          · obtain rfl : status = 1 := is_status
            apply Outcome.failed
            rw [output', output₈, same₇.1, output₄]

theorem does_hdmiDown (p : Phone) (is_tool : ctl = tool present) :
    Does present (hdmiDown ctl) p fun ok p' => ok = true ∧ p'.setting = p.setting ∧
      Outcome present p p' .hdmiDown 0 := by
  simp only [Does, hdmiDown, Prog.ensures_bind]
  refine (does_run (.isExecutable ctl) trivial).mono fun there p₁ answered => ?_
  obtain rfl : p = p₁ := answered.2.symm
  have is_there := answered.1
  have off : Does present (onlyIf there (switchOff ctl)) p fun _ p' =>
      p'.setting = p.setting ∧ (there = false ∧ p'.output = p.output ∨
        p'.output = { p.output with
          enabled := false, powered := false, mode := none
          poked := p.output.poked ++ script .hdmiDown }) := by
    apply does_onlyIf
    · intro yes
      refine (does_switchOff (is_there ▸ yes) p).mono fun _ p' off => ?_
      exact ⟨off.2, .inr off.1⟩
    · exact fun no => ⟨rfl, .inl ⟨no, rfl⟩⟩
  refine off.mono fun _ p₂ switched => ?_
  obtain ⟨setting₂, output₂⟩ := switched
  refine (does_parkGate p₂).mono fun _ p₃ parked => ?_
  obtain ⟨output₃, setting₃⟩ := parked
  refine (same_quiet (.xlog "HDMI torn down") trivial (fun _ => rfl) (Same.refl p₃)).mono ?_
  intro _ p' same
  refine ⟨rfl, by rw [same.2, setting₃, setting₂], ?_⟩
  obtain ⟨no, kept⟩ | gone := output₂
  · apply Outcome.missing
    · rw [← is_tool, ← is_there, no]
    · rw [same.1, output₃, kept]
  · apply Outcome.down
    rw [same.1, output₃, gone]

/-- The dispatcher asks and acts in order, and a run of it comes to one of the outcomes. -/
theorem does_xdplusTweaks (action : Tweak) (p : Phone) :
    Does present (xdplusTweaks action) p fun status p' =>
      p'.setting = p.setting ∧ Outcome present p p' action status := by
  have cleared : ∀ p' : Phone, Does present (run (.setprop "sys.xdplus.action" "none")) p'
      fun _ p'' => p'' = p' := by
    intro p'
    have ordered : Ordered present p' (.setprop "sys.xdplus.action" "none") := by
      show "sys.xdplus.action" ≠ settingName
      decide
    exact (does_run _ ordered).mono fun _ p'' answered => answered.2
  simp only [Does, xdplusTweaks, Prog.ensures_bind]
  refine (does_run (.isExecutable imageCtl) trivial).mono fun shipped p₁ answered => ?_
  obtain rfl : p = p₁ := answered.2.symm
  have is_tool : (if shipped then imageCtl else dataCtl) = tool present := by
    rw [show shipped = present imageCtl from answered.1, tool]
  generalize (if shipped = true then imageCtl else dataCtl) = ctl at is_tool ⊢
  cases action with
  | hdmiUp =>
      simp only [early, Prog.ensures_bind]
      refine (does_run (.getprop _) trivial).mono fun booted p₂ answered => ?_
      obtain rfl : p = p₂ := answered.2.symm
      simp only [Prog.ensures_pure]
      cases booted == "1" with
      | true =>
          simp only [if_true, body, Prog.ensures_bind]
          refine (does_hdmiUp p is_tool).mono fun up p' done => ?_
          refine (cleared p').mono fun _ p'' same => ?_
          obtain rfl := same
          exact ⟨done.1, done.2 _ rfl⟩
      | false =>
          simp only [Bool.false_eq_true, if_false, Prog.ensures_bind]
          refine (does_run (.xlog _) trivial).mono fun _ p₃ answered => ?_
          obtain rfl : p = p₃ := answered.2.symm
          refine (cleared p).mono fun _ p' same => ?_
          exact ⟨congrArg Phone.setting same, .notBegun same⟩
  | hdmiDown =>
      simp only [early, Prog.ensures_pure, if_true, body, Prog.ensures_bind]
      refine (does_hdmiDown p is_tool).mono fun ok p' done => ?_
      obtain ⟨rfl, setting, outcome⟩ := done
      refine (cleared p').mono fun _ p'' same => ?_
      obtain rfl := same
      exact ⟨setting, outcome⟩

end Scripts

/-! The stored mode is an ultra mode, and the sink can do 1080p at most. -/

def fullHdAnswer (p : Phone) : (c : Call) → Answer c
  | .isExecutable _ | .md5Is .. | .stackZero | .hdmiScreen | .awake | .sinkReady => true
  | .isFile _ | .bindMount .. | .keyguardShowing => false
  | .displayOne => p.output.mode.isSome
  | .mirroring => p.output.mode == some "11"
  | .sessionMode => if p.output.mode = some "11" then "4" else "1"
  | .sinkMask => some 0
  | .getprop name => if name = settingName then p.setting else "1"
  | .resState => ""
  | .sleep | .xlog _ | .chmod | .killComposer | .setprop .. | .dumpSurfaceFlinger | .wakeUp
  | .dismissKeyguard | .unplugCable | .hdmictl .. => ()

def fullHd (p : Phone) (c : Call) : Answer c × Phone :=
  (fullHdAnswer p c, p.after c (fullHdAnswer p c))

def ultraStored : Phone :=
  ⟨⟨false, false, none, "", false, []⟩, .nothing, "23"⟩

theorem fullHd_phone (p : Phone) (c : Call) :
    phone (fun _ => true) p c (fullHd p c).1 (fullHd p c).2 := by
  refine ⟨?_, rfl⟩
  cases c
  case isExecutable path => rfl
  case getprop name =>
      intro is_setting
      show (if name = settingName then p.setting else "1") = p.setting
      rw [if_pos is_setting]
  all_goals trivial

end XdPlus.Hdmi.BringupOutcome
