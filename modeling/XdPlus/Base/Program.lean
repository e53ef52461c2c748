/- Module: XdPlus/Base/Program
   layer: library
   digest: Sequential programs that call an environment, their runs, the calls they make
     and the rules of their preconditions. -/

import Mathlib.Tactic.Common

/-!
A program is a tree of calls: each node asks the environment something and goes on
with the answer. The environment is a relation between the world before the call, the
answer and the world after it, so one program covers every outcome the environment
may produce.
-/

set_option autoImplicit false
set_option relaxedAutoImplicit false

namespace XdPlus.Base

universe u v w x

/-- A program that returns an `α`, calling operations `Op` answered in `Ans`. -/
inductive Prog (Op : Type u) (Ans : Op → Type v) (α : Type w) : Type (max u v w)
  | ret (a : α)
  | ask (op : Op) (next : Ans op → Prog Op Ans α)

namespace Prog

variable {Op : Type u} {Ans : Op → Type v} {α β : Type w} {W : Type x}

protected def bind : Prog Op Ans α → (α → Prog Op Ans β) → Prog Op Ans β
  | ret a, f => f a
  | ask op next, f => ask op (fun ans => (next ans).bind f)

instance : Monad (Prog Op Ans) where
  pure := ret
  bind := Prog.bind

theorem bind_assoc {γ : Type w} (p : Prog Op Ans α) (f : α → Prog Op Ans β)
    (g : β → Prog Op Ans γ) : p >>= f >>= g = p >>= fun a => f a >>= g := by
  change (p.bind f).bind g = p.bind fun a => (f a).bind g
  induction p with
  | ret a => rfl
  | ask op next ih =>
      simp only [Prog.bind]
      exact congrArg (ask op) (funext ih)

/-- One call, returning its answer. -/
def call (op : Op) : Prog Op Ans (Ans op) := ask op ret

/-- What the environment may answer, and how it changes. -/
abbrev Environment (Op : Type u) (Ans : Op → Type v) (W : Type x) :=
  W → (op : Op) → Ans op → W → Prop

/-- The program, started in `w`, ends with `r` in the world `w'`. -/
def Runs (env : Environment Op Ans W) : Prog Op Ans α → W → α → W → Prop
  | ret a, w, r, w' => r = a ∧ w' = w
  | ask op next, w, r, w' => ∃ ans mid, env w op ans mid ∧ (next ans).Runs env mid r w'

/-- The program, started in `w`, can come to call `op` in the world `at_call`. -/
def Calls (env : Environment Op Ans W) : Prog Op Ans α → W → W → Op → Prop
  | ret _, _, _, _ => False
  | ask op next, w, at_call, made =>
      (at_call = w ∧ made = op) ∨
        ∃ ans mid, env w op ans mid ∧ (next ans).Calls env mid at_call made

/-- Every call the program can make meets `guard` in the world it is made in, and every
way it can end satisfies `post`. -/
def Ensures (env : Environment Op Ans W) (guard : W → Op → Prop) :
    Prog Op Ans α → W → (α → W → Prop) → Prop
  | ret a, w, post => post a w
  | ask op next, w, post =>
      guard w op ∧ ∀ ans mid, env w op ans mid → (next ans).Ensures env guard mid post

/-- Whatever it is answered, the program asks only what meets `ok` and ends in `post`. -/
def Always (ok : Op → Prop) : Prog Op Ans α → (α → Prop) → Prop
  | ret a, post => post a
  | ask op next, post => ok op ∧ ∀ ans, (next ans).Always ok post

section Rules

variable {env : Environment Op Ans W} {guard : W → Op → Prop} {w : W}

@[simp] theorem ensures_pure {a : α} {post : α → W → Prop} :
    (pure a : Prog Op Ans α).Ensures env guard w post ↔ post a w := Iff.rfl

@[simp] theorem ensures_call {op : Op} {post : Ans op → W → Prop} :
    (call op : Prog Op Ans (Ans op)).Ensures env guard w post ↔
      guard w op ∧ ∀ ans w', env w op ans w' → post ans w' := Iff.rfl

@[simp] theorem ensures_bind {p : Prog Op Ans α} {f : α → Prog Op Ans β}
    {post : β → W → Prop} :
    (p >>= f).Ensures env guard w post ↔
      p.Ensures env guard w (fun a w' => (f a).Ensures env guard w' post) := by
  change (p.bind f).Ensures env guard w post ↔ _
  induction p generalizing w with
  | ret a => exact Iff.rfl
  | ask op next ih =>
      simp only [Prog.bind, Ensures]
      exact and_congr_right' (forall_congr' fun ans => forall_congr' fun mid =>
        imp_congr_right fun _ => ih ans)

/-- A call that may be made anywhere and changes nothing. -/
structure Idle (env : Environment Op Ans W) (guard : W → Op → Prop) (op : Op) : Prop where
  allowed : ∀ w, guard w op
  still : ∀ w ans w', env w op ans w' → w' = w

theorem Idle.ensures_bind {Answer : Op → Type w} {env : Environment Op Answer W}
    {guard : W → Op → Prop} {w : W} {op : Op} {f : Answer op → Prog Op Answer β}
    {post : β → W → Prop} (idle : Idle env guard op)
    (next : ∀ ans, (f ans).Ensures env guard w post) :
    (call op >>= f : Prog Op Answer β).Ensures env guard w post := by
  rw [Prog.ensures_bind, ensures_call]
  refine ⟨idle.allowed w, fun ans w' answered => ?_⟩
  obtain rfl := idle.still w ans w' answered
  exact next ans

theorem Ensures.mono {p : Prog Op Ans α} {post weaker : α → W → Prop}
    (h : p.Ensures env guard w post) (imp : ∀ a w', post a w' → weaker a w') :
    p.Ensures env guard w weaker := by
  induction p generalizing w with
  | ret a => exact imp a w h
  | ask op next ih => exact ⟨h.1, fun ans mid answered => ih ans (h.2 ans mid answered)⟩

theorem Ensures.weaken {guard' : W → Op → Prop} {p : Prog Op Ans α} {post : α → W → Prop}
    (h : p.Ensures env guard w post) (imp : ∀ w op, guard w op → guard' w op) :
    p.Ensures env guard' w post := by
  induction p generalizing w with
  | ret a => exact h
  | ask op next ih => exact ⟨imp w op h.1, fun ans mid answered => ih ans (h.2 ans mid answered)⟩

@[simp] theorem runs_pure {a r : α} {w' : W} :
    (pure a : Prog Op Ans α).Runs env w r w' ↔ r = a ∧ w' = w := Iff.rfl

@[simp] theorem runs_call {op : Op} {r : Ans op} {w' : W} :
    (call op : Prog Op Ans (Ans op)).Runs env w r w' ↔ env w op r w' := by
  constructor
  · rintro ⟨ans, mid, answered, rfl, rfl⟩
    exact answered
  · intro answered
    exact ⟨r, w', answered, rfl, rfl⟩

theorem runs_bind {p : Prog Op Ans α} {f : α → Prog Op Ans β} {r : β} {w' : W} :
    (p >>= f).Runs env w r w' ↔
      ∃ a mid, p.Runs env w a mid ∧ (f a).Runs env mid r w' := by
  change (p.bind f).Runs env w r w' ↔ _
  induction p generalizing w with
  | ret a =>
      constructor
      · intro run
        exact ⟨a, w, ⟨rfl, rfl⟩, run⟩
      · rintro ⟨b, mid, ⟨rfl, rfl⟩, run⟩
        exact run
  | ask op next ih =>
      constructor
      · rintro ⟨ans, mid, answered, rest⟩
        obtain ⟨b, mid', first, second⟩ := (ih ans).mp rest
        exact ⟨b, mid', ⟨ans, mid, answered, first⟩, second⟩
      · rintro ⟨b, mid', ⟨ans, mid, answered, first⟩, second⟩
        exact ⟨ans, mid, answered, (ih ans).mpr ⟨b, mid', first, second⟩⟩

theorem Ensures.of_runs {p : Prog Op Ans α} {post : α → W → Prop} {r : α} {w' : W}
    (h : p.Ensures env guard w post) (run : p.Runs env w r w') : post r w' := by
  induction p generalizing w with
  | ret a =>
      obtain ⟨rfl, rfl⟩ := run
      exact h
  | ask op next ih =>
      obtain ⟨ans, mid, answered, rest⟩ := run
      exact ih ans (h.2 ans mid answered) rest

theorem Ensures.of_calls {p : Prog Op Ans α} {post : α → W → Prop} {at_call : W} {made : Op}
    (h : p.Ensures env guard w post) (calls : p.Calls env w at_call made) :
    guard at_call made := by
  induction p generalizing w with
  | ret a => exact calls.elim
  | ask op next ih =>
      rcases calls with ⟨rfl, rfl⟩ | ⟨ans, mid, answered, rest⟩
      · exact h.1
      · exact ih ans (h.2 ans mid answered) rest

theorem Runs.invariant {I : W → Prop} {p : Prog Op Ans α} {r : α} {w' : W}
    (keep : ∀ w op ans w', env w op ans w' → I w → I w') (run : p.Runs env w r w')
    (start : I w) : I w' := by
  induction p generalizing w with
  | ret a =>
      obtain ⟨-, rfl⟩ := run
      exact start
  | ask op next ih =>
      obtain ⟨ans, mid, answered, rest⟩ := run
      exact ih ans rest (keep w op ans mid answered start)

theorem Ensures.and_invariant {I : W → Prop} {p : Prog Op Ans α} {post : α → W → Prop}
    (keep : ∀ w op ans w', env w op ans w' → I w → I w') (h : p.Ensures env guard w post)
    (start : I w) : p.Ensures env guard w (fun a w' => post a w' ∧ I w') := by
  induction p generalizing w with
  | ret a => exact ⟨h, start⟩
  | ask op next ih =>
      exact ⟨h.1, fun ans mid answered =>
        ih ans (h.2 ans mid answered) (keep w op ans mid answered start)⟩

theorem Ensures.keep {I : W → Prop} {p : Prog Op Ans α} {post : α → W → Prop}
    (h : p.Ensures env guard w post)
    (keep : ∀ w op ans w', guard w op → env w op ans w' → I w → I w') (start : I w) :
    p.Ensures env guard w (fun a w' => post a w' ∧ I w') := by
  induction p generalizing w with
  | ret a => exact ⟨h, start⟩
  | ask op next ih =>
      exact ⟨h.1, fun ans mid answered =>
        ih ans (h.2 ans mid answered) (keep w op ans mid h.1 answered start)⟩

theorem Ensures.and {guard' : W → Op → Prop} {p : Prog Op Ans α} {post post' : α → W → Prop}
    (h : p.Ensures env guard w post) (h' : p.Ensures env guard' w post') :
    p.Ensures env (fun w op => guard w op ∧ guard' w op) w
      (fun a w' => post a w' ∧ post' a w') := by
  induction p generalizing w with
  | ret a => exact ⟨h, h'⟩
  | ask op next ih =>
      exact ⟨⟨h.1, h'.1⟩, fun ans mid answered =>
        ih ans (h.2 ans mid answered) (h'.2 ans mid answered)⟩

theorem Calls.invariant {I : W → Prop} {p : Prog Op Ans α} {at_call : W} {made : Op}
    (keep : ∀ w op ans w', env w op ans w' → I w → I w') (calls : p.Calls env w at_call made)
    (start : I w) : I at_call := by
  induction p generalizing w with
  | ret a => exact calls.elim
  | ask op next ih =>
      rcases calls with ⟨rfl, -⟩ | ⟨ans, mid, answered, rest⟩
      · exact start
      · exact ih ans rest (keep w op ans mid answered start)

end Rules

section Always

variable {ok : Op → Prop}

@[simp] theorem always_pure {a : α} {post : α → Prop} :
    (pure a : Prog Op Ans α).Always ok post ↔ post a := Iff.rfl

@[simp] theorem always_call {op : Op} {post : Ans op → Prop} :
    (call op : Prog Op Ans (Ans op)).Always ok post ↔ ok op ∧ ∀ ans, post ans := Iff.rfl

@[simp] theorem always_bind {p : Prog Op Ans α} {f : α → Prog Op Ans β} {post : β → Prop} :
    (p >>= f).Always ok post ↔ p.Always ok (fun a => (f a).Always ok post) := by
  change (p.bind f).Always ok post ↔ _
  induction p with
  | ret a => exact Iff.rfl
  | ask op next ih =>
      simp only [Prog.bind, Always]
      exact and_congr_right' (forall_congr' ih)

theorem Always.mono {p : Prog Op Ans α} {post weaker : α → Prop} (h : p.Always ok post)
    (imp : ∀ a, post a → weaker a) : p.Always ok weaker := by
  induction p with
  | ret a => exact imp a h
  | ask op next ih => exact ⟨h.1, fun ans => ih ans (h.2 ans)⟩

theorem Always.weaken {wider : Op → Prop} {p : Prog Op Ans α} {post : α → Prop}
    (h : p.Always ok post) (imp : ∀ op, ok op → wider op) : p.Always wider post := by
  induction p with
  | ret a => exact h
  | ask op next ih => exact ⟨imp op h.1, fun ans => ih ans (h.2 ans)⟩

theorem always_trivial (p : Prog Op Ans α) : p.Always (fun _ => True) (fun _ => True) := by
  induction p with
  | ret a => trivial
  | ask op next ih => exact ⟨trivial, ih⟩

theorem Always.of_runs {env : Environment Op Ans W} {p : Prog Op Ans α} {post : α → Prop}
    {w w' : W} {r : α} (h : p.Always ok post) (run : p.Runs env w r w') : post r := by
  induction p generalizing w with
  | ret a =>
      obtain ⟨rfl, -⟩ := run
      exact h
  | ask op next ih =>
      obtain ⟨ans, mid, -, rest⟩ := run
      exact ih ans (h.2 ans) rest

theorem Always.of_calls {env : Environment Op Ans W} {p : Prog Op Ans α} {post : α → Prop}
    {w at_call : W} {made : Op} (h : p.Always ok post) (calls : p.Calls env w at_call made) :
    ok made := by
  induction p generalizing w with
  | ret a => exact calls.elim
  | ask op next ih =>
      rcases calls with ⟨-, rfl⟩ | ⟨ans, mid, -, rest⟩
      · exact h.1
      · exact ih ans (h.2 ans) rest

theorem Always.exists_runs {env : Environment Op Ans W} {I : W → Prop} {w : W}
    {p : Prog Op Ans α} {post : α → Prop} (h : p.Always ok post)
    (answered : ∀ w op, ok op → I w → ∃ ans w', env w op ans w' ∧ I w') (start : I w) :
    ∃ r w', p.Runs env w r w' := by
  induction p generalizing w with
  | ret a => exact ⟨a, w, rfl, rfl⟩
  | ask op next ih =>
      obtain ⟨ans, mid, answer, kept⟩ := answered w op h.1 start
      obtain ⟨r, w', rest⟩ := ih ans (h.2 ans) kept
      exact ⟨r, w', ans, mid, answer, rest⟩

theorem Always.anywhere {env : Environment Op Ans W} {w : W} {p : Prog Op Ans α}
    {post : α → Prop} (h : p.Always ok post) :
    p.Ensures env (fun _ op => ok op) w (fun a _ => post a) := by
  induction p generalizing w with
  | ret a => exact h
  | ask op next ih => exact ⟨h.1, fun ans mid _ => ih ans (h.2 ans)⟩

theorem Always.ensures {env : Environment Op Ans W} {guard : W → Op → Prop} {w : W}
    {p : Prog Op Ans α} {post : α → Prop} (h : p.Always ok post)
    (fine : ∀ op, ok op → guard w op)
    (still : ∀ op ans w', ok op → env w op ans w' → w' = w) :
    p.Ensures env guard w (fun a w' => post a ∧ w' = w) := by
  induction p with
  | ret a => exact ⟨h, rfl⟩
  | ask op next ih =>
      refine ⟨fine op h.1, fun ans mid answered => ?_⟩
      obtain rfl := still op ans mid h.1 answered
      exact ih ans (h.2 ans)

end Always

section Product

variable {V : Type x}

/-- Two environments that are asked the same and agree on the answers. -/
def Environment.prod (env : Environment Op Ans W) (env' : Environment Op Ans V) :
    Environment Op Ans (W × V) :=
  fun w op ans w' => env w.1 op ans w'.1 ∧ env' w.2 op ans w'.2

variable {env : Environment Op Ans W} {env' : Environment Op Ans V} {p : Prog Op Ans α}

theorem Runs.prod {w w' : W × V} {r : α} (run : p.Runs (env.prod env') w r w') :
    p.Runs env w.1 r w'.1 ∧ p.Runs env' w.2 r w'.2 := by
  induction p generalizing w with
  | ret a =>
      obtain ⟨rfl, rfl⟩ := run
      exact ⟨⟨rfl, rfl⟩, rfl, rfl⟩
  | ask op next ih =>
      obtain ⟨ans, mid, ⟨first, second⟩, rest⟩ := run
      obtain ⟨left, right⟩ := ih ans rest
      exact ⟨⟨ans, mid.1, first, left⟩, ans, mid.2, second, right⟩

theorem Ensures.prod {guard : W → Op → Prop} {guard' : V → Op → Prop} {x : W × V}
    {post : α → W → Prop} {post' : α → V → Prop} (h : p.Ensures env guard x.1 post)
    (h' : p.Ensures env' guard' x.2 post') :
    p.Ensures (env.prod env') (fun _ _ => True) x (fun a x' => post a x'.1 ∧ post' a x'.2) := by
  induction p generalizing x with
  | ret a => exact ⟨h, h'⟩
  | ask op next ih =>
      exact ⟨trivial, fun ans mid answered =>
        ih ans (h.2 ans mid.1 answered.1) (h'.2 ans mid.2 answered.2)⟩

theorem Calls.prod {w at_call : W × V} {made : Op}
    (calls : p.Calls (env.prod env') w at_call made) :
    p.Calls env w.1 at_call.1 made ∧ p.Calls env' w.2 at_call.2 made := by
  induction p generalizing w with
  | ret a => exact calls.elim
  | ask op next ih =>
      rcases calls with ⟨rfl, rfl⟩ | ⟨ans, mid, ⟨first, second⟩, rest⟩
      · exact ⟨.inl ⟨rfl, rfl⟩, .inl ⟨rfl, rfl⟩⟩
      · obtain ⟨left, right⟩ := ih ans rest
        exact ⟨.inr ⟨ans, mid.1, first, left⟩, .inr ⟨ans, mid.2, second, right⟩⟩

end Product

section Notes

variable {V : Type x} {env : Environment Op Ans W} {note : V → W → (op : Op) → Ans op → V}
  {p : Prog Op Ans α}

/-- The same environment with a record kept of what it is asked. -/
def Environment.noted (env : Environment Op Ans W) (note : V → W → (op : Op) → Ans op → V) :
    Environment Op Ans (W × V) :=
  fun x op ans x' => env x.1 op ans x'.1 ∧ x'.2 = note x.2 x.1 op ans

theorem Runs.unnoted {x x' : W × V} {r : α} (run : p.Runs (env.noted note) x r x') :
    p.Runs env x.1 r x'.1 := by
  induction p generalizing x with
  | ret a =>
      obtain ⟨rfl, rfl⟩ := run
      exact ⟨rfl, rfl⟩
  | ask op next ih =>
      obtain ⟨ans, mid, answered, rest⟩ := run
      exact ⟨ans, mid.1, answered.1, ih ans rest⟩

theorem Runs.noted {w w' : W} {r : α} (run : p.Runs env w r w') (v : V) :
    ∃ v', p.Runs (env.noted note) (w, v) r (w', v') := by
  induction p generalizing w v with
  | ret a =>
      obtain ⟨rfl, rfl⟩ := run
      exact ⟨v, rfl, rfl⟩
  | ask op next ih =>
      obtain ⟨ans, mid, answered, rest⟩ := run
      obtain ⟨v', rest'⟩ := ih ans rest (note v w op ans)
      exact ⟨v', ans, (mid, note v w op ans), ⟨answered, rfl⟩, rest'⟩

theorem Ensures.noted {guard : W → Op → Prop} {w : W} {post : α → W → Prop}
    (h : p.Ensures env guard w post) (v : V) :
    p.Ensures (env.noted note) (fun x op => guard x.1 op) (w, v) (fun a x' => post a x'.1) := by
  induction p generalizing w v with
  | ret a => exact h
  | ask op next ih =>
      refine ⟨h.1, fun ans mid answered => ?_⟩
      exact ih ans (h.2 ans mid.1 answered.1) mid.2

end Notes

section Evaluation

/-- A run against an environment that is a function. -/
def eval (respond : W → (op : Op) → Ans op × W) : Prog Op Ans α → W → α × W
  | ret a, w => (a, w)
  | ask op next, w => (next (respond w op).1).eval respond (respond w op).2

@[simp] theorem eval_pure (respond : W → (op : Op) → Ans op × W) (a : α) (w : W) :
    (pure a : Prog Op Ans α).eval respond w = (a, w) := rfl

@[simp] theorem eval_call (respond : W → (op : Op) → Ans op × W) (op : Op) (w : W) :
    (call op : Prog Op Ans (Ans op)).eval respond w = respond w op := rfl

@[simp] theorem eval_bind (respond : W → (op : Op) → Ans op × W) (p : Prog Op Ans α)
    (f : α → Prog Op Ans β) (w : W) :
    (p >>= f).eval respond w =
      (f (p.eval respond w).1).eval respond (p.eval respond w).2 := by
  change (p.bind f).eval respond w = _
  induction p generalizing w with
  | ret a => rfl
  | ask op next ih => exact ih _ _

theorem runs_eval {env : Environment Op Ans W} {respond : W → (op : Op) → Ans op × W}
    (allowed : ∀ w op, env w op (respond w op).1 (respond w op).2) (p : Prog Op Ans α) (w : W) :
    p.Runs env w (p.eval respond w).1 (p.eval respond w).2 := by
  induction p generalizing w with
  | ret a => exact ⟨rfl, rfl⟩
  | ask op next ih => exact ⟨_, _, allowed w op, ih _ _⟩

/-- A run against a function that may leave a call unanswered. -/
def attempt (respond : W → (op : Op) → Option (Ans op × W)) : Prog Op Ans α → W → Option (α × W)
  | ret a, w => some (a, w)
  | ask op next, w => (respond w op).bind fun r => (next r.1).attempt respond r.2

theorem runs_attempt {env : Environment Op Ans W} {respond : W → (op : Op) → Option (Ans op × W)}
    (allowed : ∀ w op r, respond w op = some r → env w op r.1 r.2) {p : Prog Op Ans α} {w w' : W}
    {a : α} (done : p.attempt respond w = some (a, w')) : p.Runs env w a w' := by
  induction p generalizing w with
  | ret b =>
      obtain ⟨rfl, rfl⟩ := Prod.mk.inj (Option.some.inj done)
      exact ⟨rfl, rfl⟩
  | ask op next ih =>
      obtain ⟨r, answered, rest⟩ := Option.bind_eq_some_iff.mp done
      exact ⟨r.1, r.2, allowed w op r answered, ih _ rest⟩

/-- The calls made on the way. -/
def asked (respond : W → (op : Op) → Ans op × W) : Prog Op Ans α → W → List Op
  | ret _, _ => []
  | ask op next, w => op :: (next (respond w op).1).asked respond (respond w op).2

@[simp] theorem asked_pure (respond : W → (op : Op) → Ans op × W) (a : α) (w : W) :
    (pure a : Prog Op Ans α).asked respond w = [] := rfl

@[simp] theorem asked_call (respond : W → (op : Op) → Ans op × W) (op : Op) (w : W) :
    (call op : Prog Op Ans (Ans op)).asked respond w = [op] := rfl

@[simp] theorem asked_bind (respond : W → (op : Op) → Ans op × W) (p : Prog Op Ans α)
    (f : α → Prog Op Ans β) (w : W) :
    (p >>= f).asked respond w =
      p.asked respond w ++ (f (p.eval respond w).1).asked respond (p.eval respond w).2 := by
  change (p.bind f).asked respond w = _
  induction p generalizing w with
  | ret a => rfl
  | ask op next ih => exact congrArg (op :: ·) (ih _ _)

theorem calls_asked {env : Environment Op Ans W} {respond : W → (op : Op) → Ans op × W}
    (allowed : ∀ w op, env w op (respond w op).1 (respond w op).2) {p : Prog Op Ans α} {w : W}
    {op : Op} (made : op ∈ p.asked respond w) : ∃ at_call, p.Calls env w at_call op := by
  induction p generalizing w with
  | ret a => cases made
  | ask first next ih =>
      rcases List.mem_cons.mp made with rfl | later
      · exact ⟨w, .inl ⟨rfl, rfl⟩⟩
      · obtain ⟨at_call, calls⟩ := ih _ later
        exact ⟨at_call, .inr ⟨_, _, allowed w first, calls⟩⟩

end Evaluation

section Renaming

variable {Op' : Type u} {Ans' : Op' → Type v}

/-- The same program for an environment that knows its calls under other names. -/
def renamed (name : Op → Op') : Prog Op (fun op => Ans' (name op)) α → Prog Op' Ans' α
  | ret a => ret a
  | ask op next => ask (name op) fun ans => (next ans).renamed name

/-- A world that shows the program its own through `view`, whatever is answered under the other
names. -/
theorem Ensures.renamed {W' : Type x} {name : Op → Op'}
    {p : Prog Op (fun op => Ans' (name op)) α}
    {env : Environment Op (fun op => Ans' (name op)) W} {guard : W → Op → Prop}
    {env' : Environment Op' Ans' W'} {guard' : W' → Op' → Prop} {w : W} {w' : W'}
    {post : α → W → Prop} {post' : α → W' → Prop} (view : W → W' → Prop)
    (h : p.Ensures env guard w post) (start : view w w')
    (may : ∀ v v' op, view v v' → guard v op → guard' v' (name op))
    (keep : ∀ v v' op ans u', view v v' → guard v op → env' v' (name op) ans u' →
      ∃ u, env v op ans u ∧ view u u')
    (ends : ∀ a v v', view v v' → post a v → post' a v') :
    (p.renamed name).Ensures env' guard' w' post' := by
  induction p generalizing w w' with
  | ret a => exact ends a w w' start h
  | ask op next ih =>
      refine ⟨may w w' op start h.1, fun ans u' answered => ?_⟩
      obtain ⟨u, own, seen⟩ := keep w w' op ans u' start h.1 answered
      exact ih ans (h.2 ans u own) seen

end Renaming

end Prog

end XdPlus.Base
