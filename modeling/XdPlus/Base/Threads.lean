/- Module: XdPlus/Base/Threads
   layer: library
   digest: Threads that run programs over one shared state, verified one thread at a time. -/

import Mathlib.Logic.Function.Basic
import XdPlus.Base.Machine
import XdPlus.Base.Program

/-!
Each thread executes invocations of library code, one call at a time, and the calls of
different threads interleave freely; a lock is a call that is not answered while somebody
else holds it.

What a thread can rely on is its *view* of the shared state. If no call of a thread changes
the view of another, a thread can be verified as a sequential program over its own view,
with the rules of `Prog.Ensures`.
-/

set_option autoImplicit false
set_option relaxedAutoImplicit false

namespace XdPlus.Base

universe u v w

/-- Invocations `I` of library code, made by threads `T` over a shared state `S`. -/
structure ThreadSystem (Op : Type u) (Ans : Op → Type v) (S T I : Type w) where
  init : S → Prop
  env : T → Prog.Environment Op Ans S
  code : I → Prog Op Ans PUnit.{w + 1}
  enters : S → T → I → S → Prop
  leaves : S → T → S → Prop

namespace ThreadSystem

variable {Op : Type u} {Ans : Op → Type v} {S T I : Type w}

/-- The shared state, and what is left of each thread's invocation. -/
structure Config (Op : Type u) (Ans : Op → Type v) (S T : Type w) where
  shared : S
  threads : T → Option (Prog Op Ans PUnit.{w + 1})

inductive Action (Op : Type u) (Ans : Op → Type v) (T I : Type w)
  | enter (t : T) (i : I)
  | run (t : T) (op : Op) (ans : Ans op)
  | leave (t : T)

def machine [DecidableEq T] (sys : ThreadSystem Op Ans S T I) :
    Machine (Config Op Ans S T) (Action Op Ans T I) where
  init c := sys.init c.shared ∧ ∀ t, c.threads t = none
  step c a c' :=
    match a with
    | .enter t i =>
        c.threads t = none ∧ sys.enters c.shared t i c'.shared ∧
          c'.threads = Function.update c.threads t (some (sys.code i))
    | .run t op ans =>
        ∃ next, c.threads t = some (.ask op next) ∧ sys.env t c.shared op ans c'.shared ∧
          c'.threads = Function.update c.threads t (some (next ans))
    | .leave t =>
        c.threads t = some (.ret ⟨⟩) ∧ sys.leaves c.shared t c'.shared ∧
          c'.threads = Function.update c.threads t none

/-- The same system with only the answers that meet `P` in the state they are given in. -/
def restrict (sys : ThreadSystem Op Ans S T I) (P : S → (op : Op) → Ans op → Prop) :
    ThreadSystem Op Ans S T I :=
  { sys with env := fun t s op ans s' => sys.env t s op ans s' ∧ P s op ans }

theorem restrict_true (sys : ThreadSystem Op Ans S T I) :
    sys.restrict (fun _ _ _ => True) = sys := by
  simp only [restrict, and_true]

section Solo

variable [DecidableEq T] {sys : ThreadSystem Op Ans S T I}

theorem reachable_enter {c : Config Op Ans S T} {t : T} {i : I} {s' : S}
    (reach : sys.machine.Reachable c) (idle : c.threads t = none)
    (entered : sys.enters c.shared t i s') :
    sys.machine.Reachable ⟨s', Function.update c.threads t (some (sys.code i))⟩ :=
  reach.next (l := .enter t i) ⟨idle, entered, rfl⟩

theorem reachable_run {c : Config Op Ans S T} {t : T} {op : Op} {ans : Ans op} {s' : S}
    {next : Ans op → Prog Op Ans PUnit.{w + 1}} (reach : sys.machine.Reachable c)
    (about : c.threads t = some (.ask op next)) (answered : sys.env t c.shared op ans s') :
    sys.machine.Reachable ⟨s', Function.update c.threads t (some (next ans))⟩ :=
  reach.next (l := .run t op ans) ⟨next, about, answered, rfl⟩

private theorem reachable_runs {threads : T → Option (Prog Op Ans PUnit.{w + 1})} {t : T}
    {p : Prog Op Ans PUnit.{w + 1}} {s s' : S} {r : PUnit.{w + 1}}
    (reach : sys.machine.Reachable ⟨s, Function.update threads t (some p)⟩)
    (run : p.Runs (sys.env t) s r s') :
    sys.machine.Reachable ⟨s', Function.update threads t (some (.ret r))⟩ := by
  induction p generalizing s with
  | ret a =>
      obtain ⟨rfl, rfl⟩ := run
      exact reach
  | ask op next ih =>
      obtain ⟨ans, mid, answered, rest⟩ := run
      refine ih ans (reach.next (l := .run t op ans) ⟨next, ?_, answered, ?_⟩) rest
      · exact Function.update_self ..
      · exact (Function.update_idem ..).symm

theorem reachable_invoke {threads : T → Option (Prog Op Ans PUnit.{w + 1})} {t : T} {i : I}
    {s s₁ s₂ s₃ : S} (reach : sys.machine.Reachable ⟨s, threads⟩) (idle : threads t = none)
    (entered : sys.enters s t i s₁) (run : (sys.code i).Runs (sys.env t) s₁ ⟨⟩ s₂)
    (left : sys.leaves s₂ t s₃) : sys.machine.Reachable ⟨s₃, threads⟩ := by
  have began : sys.machine.Reachable ⟨s₁, Function.update threads t (some (sys.code i))⟩ :=
    reach.next (l := .enter t i) ⟨idle, entered, rfl⟩
  refine (reachable_runs began run).next (l := .leave t) ⟨Function.update_self .., left, ?_⟩
  change threads = Function.update (Function.update threads t (some (.ret ⟨⟩))) t none
  rw [Function.update_idem, ← idle, Function.update_eq_self]

end Solo

section Verification

variable {V : Type w} (sys : ThreadSystem Op Ans S T I) (inv : S → Prop) (mine : T → S → V)

/-- How a call of `t` can change the view of `t`. -/
def ownView (t : T) : Prog.Environment Op Ans V := fun v op ans v' =>
  ∃ s s', inv s ∧ mine t s = v ∧ sys.env t s op ans s' ∧ mine t s' = v'

/-- A call of `t`, made with the view `v`, keeps the invariant and everybody else's view. -/
def Keeps (t : T) (v : V) (op : Op) : Prop :=
  ∀ s ans s', inv s → mine t s = v → sys.env t s op ans s' →
    inv s' ∧ ∀ u, u ≠ t → mine u s' = mine u s

/-- What the end of an invocation has to establish; a thread between two of them sees `rest`. -/
def Finished (rest : T → V → Prop) (t : T) (v : V) : Prop :=
  ∀ s s', inv s → mine t s = v → sys.leaves s t s' →
    inv s' ∧ (∀ u, u ≠ t → mine u s' = mine u s) ∧ rest t (mine t s')

/-- The code is correct one thread at a time. -/
structure Verified (rest : T → V → Prop) : Prop where
  start : ∀ s, sys.init s → inv s ∧ ∀ t, rest t (mine t s)
  enters : ∀ s t i s', inv s → rest t (mine t s) → sys.enters s t i s' →
    inv s' ∧ (∀ u, u ≠ t → mine u s' = mine u s) ∧
      (sys.code i).Ensures (sys.ownView inv mine t) (sys.Keeps inv mine t) (mine t s')
        fun _ v => sys.Finished inv mine rest t v

variable {sys inv mine}

/-- The rest of an invocation is verified from the view its thread has now. -/
private def Safe (sys : ThreadSystem Op Ans S T I) (inv : S → Prop) (mine : T → S → V)
    (rest : T → V → Prop) (s : S) (t : T) : Option (Prog Op Ans PUnit.{w + 1}) → Prop
  | none => rest t (mine t s)
  | some p =>
      p.Ensures (sys.ownView inv mine t) (sys.Keeps inv mine t) (mine t s)
        fun _ v => sys.Finished inv mine rest t v

private theorem Safe.congr {rest : T → V → Prop} {s s' : S} {t : T}
    {p : Option (Prog Op Ans PUnit.{w + 1})} (same : mine t s' = mine t s)
    (safe : Safe sys inv mine rest s t p) : Safe sys inv mine rest s' t p := by
  cases p with
  | none =>
      simp only [Safe] at safe ⊢
      rw [same]
      exact safe
  | some p =>
      simp only [Safe] at safe ⊢
      rw [same]
      exact safe

private theorem safe_update [DecidableEq T] {rest : T → V → Prop} {c : Config Op Ans S T} {s' : S}
    {t : T} {p : Option (Prog Op Ans PUnit.{w + 1})}
    (safe : ∀ u, Safe sys inv mine rest c.shared u (c.threads u))
    (others : ∀ u, u ≠ t → mine u s' = mine u c.shared)
    (own : Safe sys inv mine rest s' t p) (u : T) :
    Safe sys inv mine rest s' u (Function.update c.threads t p u) := by
  rcases eq_or_ne u t with rfl | ne
  · rw [Function.update_self]
    exact own
  · rw [Function.update_of_ne ne]
    exact (safe u).congr (others u ne)

/-- Threads verified one by one are safe together: the invariant holds between any two calls
of any interleaving. -/
theorem Verified.invariant [DecidableEq T] {rest : T → V → Prop}
    (verified : sys.Verified inv mine rest)
    {c : Config Op Ans S T} (reach : sys.machine.Reachable c) : inv c.shared := by
  suffices safe : inv c.shared ∧ ∀ t, Safe sys inv mine rest c.shared t (c.threads t) from
    safe.1
  refine reach.invariant (I := fun c => inv c.shared ∧
    ∀ t, Safe sys inv mine rest c.shared t (c.threads t)) ?_ ?_
  · rintro c ⟨start, idle⟩
    refine ⟨(verified.start _ start).1, fun t => ?_⟩
    rw [idle t]
    exact (verified.start _ start).2 t
  · rintro c a c' - ⟨holds, safe⟩ step
    cases a with
    | enter t i =>
        obtain ⟨idle, entered, threads⟩ := step
        have own := safe t
        rw [idle] at own
        obtain ⟨kept, others, ensured⟩ := verified.enters _ _ _ _ holds own entered
        rw [threads]
        exact ⟨kept, safe_update safe others ensured⟩
    | run t op ans =>
        obtain ⟨next, running, answered, threads⟩ := step
        have own := safe t
        rw [running] at own
        obtain ⟨kept, others⟩ := own.1 _ _ _ holds rfl answered
        rw [threads]
        exact ⟨kept, safe_update safe others (own.2 ans _ ⟨_, _, holds, rfl, answered, rfl⟩)⟩
    | leave t =>
        obtain ⟨done, left, threads⟩ := step
        have own := safe t
        rw [done] at own
        obtain ⟨kept, others, idle⟩ := own _ _ holds rfl left
        rw [threads]
        exact ⟨kept, safe_update safe others idle⟩

theorem ensures_call {t : T} {v : V} {op : Op} {post : Ans op → V → Prop}
    (does : ∀ s ans s', inv s → mine t s = v → sys.env t s op ans s' →
      (inv s' ∧ ∀ u, u ≠ t → mine u s' = mine u s) ∧ post ans (mine t s')) :
    (Prog.call op).Ensures (sys.ownView inv mine t) (sys.Keeps inv mine t) v post := by
  refine ⟨fun s ans s' holds view answered => (does s ans s' holds view answered).1, ?_⟩
  rintro ans v' ⟨s, s', holds, view, answered, rfl⟩
  exact (does s ans s' holds view answered).2

theorem ensures_still {t : T} {v : V} {op : Op} {post : Ans op → V → Prop}
    (still : ∀ s ans s', inv s → mine t s = v → sys.env t s op ans s' → s' = s ∧ post ans v) :
    (Prog.call op).Ensures (sys.ownView inv mine t) (sys.Keeps inv mine t) v post := by
  refine ensures_call fun s ans s' holds view answered => ?_
  obtain ⟨rfl, next⟩ := still s ans s' holds view answered
  exact ⟨⟨holds, fun _ _ => rfl⟩, view.symm ▸ next⟩

theorem begun {rest : T → V → Prop} {s s' : S} {t : T} {i : I} {v : V}
    (entered : inv s' ∧ (∀ u, u ≠ t → mine u s' = mine u s) ∧ mine t s' = v)
    (verified : (sys.code i).Ensures (sys.ownView inv mine t) (sys.Keeps inv mine t) v
      fun _ v => rest t v)
    (finished : ∀ v, rest t v → sys.Finished inv mine rest t v) :
    inv s' ∧ (∀ u, u ≠ t → mine u s' = mine u s) ∧
      (sys.code i).Ensures (sys.ownView inv mine t) (sys.Keeps inv mine t) (mine t s')
        fun _ v => sys.Finished inv mine rest t v := by
  obtain ⟨kept, others, rfl⟩ := entered
  exact ⟨kept, others, verified.mono fun _ v done => finished v done⟩

end Verification

end ThreadSystem

end XdPlus.Base
