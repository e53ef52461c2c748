/- Module: XdPlus/Base/LockOrder
   layer: library
   digest: Threads that take their locks in a fixed order do not wait for each other, and
     their invocations come to an end. -/

import Mathlib.Data.DFinsupp.WellFounded
import Mathlib.Data.Set.Finite.Basic
import XdPlus.Base.Progress
import XdPlus.Base.Threads

/-!
The rules of a system say what a call does to the view of the thread that makes it and
which calls a view allows. Where every invocation keeps to them, each thread is within
the rules at any moment of any interleaving.

With locks among the calls, the rules may demand that a lock is only taken above all
those the thread holds. Then the thread that waits for the highest lock waits for one
that does not wait.
-/

set_option autoImplicit false
set_option relaxedAutoImplicit false

namespace XdPlus.Base.LockOrder

universe u v w

variable {Op : Type u} {Ans : Op → Type v} {S T I V L : Type w}

/-- What threads with views `V` may do, and how they find themselves between two invocations
and at the end of one. -/
structure Rules (Op : Type u) (Ans : Op → Type v) (V : Type w) where
  may : V → Op → Prop
  after : V → (op : Op) → Ans op → V
  rest : V → Prop
  done : V → Prop

/-- The view of a thread, changed by its own calls. -/
def Rules.env (rules : Rules Op Ans V) : Prog.Environment Op Ans V :=
  fun v op ans v' => v' = rules.after v op ans

section Rules

variable (sys : ThreadSystem Op Ans S T I) (inv : S → Prop) (mine : T → S → V)
  (rules : Rules Op Ans V)

/-- Every invocation keeps to the rules, and what keeps to them concerns nobody else. -/
structure Obeyed : Prop where
  start : ∀ s, sys.init s → inv s ∧ ∀ t, rules.rest (mine t s)
  enters : ∀ s t i s', inv s → rules.rest (mine t s) → sys.enters s t i s' →
    inv s' ∧ (∀ u, u ≠ t → mine u s' = mine u s) ∧
      (sys.code i).Ensures rules.env rules.may (mine t s') fun _ v => rules.done v
  runs : ∀ s t op ans s', inv s → rules.may (mine t s) op → sys.env t s op ans s' →
    inv s' ∧ (∀ u, u ≠ t → mine u s' = mine u s) ∧ mine t s' = rules.after (mine t s) op ans
  leaves : ∀ s t s', inv s → rules.done (mine t s) → sys.leaves s t s' →
    inv s' ∧ (∀ u, u ≠ t → mine u s' = mine u s) ∧ rules.rest (mine t s')

/-- What is left of an invocation keeps to the rules from here on. -/
def Within (v : V) : Option (Prog Op Ans PUnit.{w + 1}) → Prop
  | none => rules.rest v
  | some p => p.Ensures rules.env rules.may v fun _ v' => rules.done v'

/-- Everybody is within the rules. -/
def Safe (c : ThreadSystem.Config Op Ans S T) : Prop :=
  inv c.shared ∧ ∀ t, Within rules (mine t c.shared) (c.threads t)

variable {sys inv mine rules}

private theorem safe_update [DecidableEq T] {c c' : ThreadSystem.Config Op Ans S T} {t : T}
    {p : Option (Prog Op Ans PUnit.{w + 1})} (safe : Safe inv mine rules c)
    (threads : c'.threads = Function.update c.threads t p) (kept : inv c'.shared)
    (others : ∀ u, u ≠ t → mine u c'.shared = mine u c.shared)
    (own : Within rules (mine t c'.shared) p) : Safe inv mine rules c' := by
  refine ⟨kept, fun u => ?_⟩
  rw [threads]
  rcases eq_or_ne u t with rfl | ne
  · rw [Function.update_self]
    exact own
  · rw [Function.update_of_ne ne, others u ne]
    exact safe.2 u

theorem Obeyed.safe_step [DecidableEq T] (obeyed : Obeyed sys inv mine rules)
    {c c' : ThreadSystem.Config Op Ans S T} {a : ThreadSystem.Action Op Ans T I}
    (safe : Safe inv mine rules c) (step : sys.machine.step c a c') : Safe inv mine rules c' := by
  cases a with
  | enter t i =>
      obtain ⟨idle, entered, threads⟩ := step
      have own := safe.2 t
      rw [idle] at own
      obtain ⟨kept, others, within⟩ := obeyed.enters _ _ _ _ safe.1 own entered
      exact safe_update safe threads kept others within
  | run t op ans =>
      obtain ⟨next, running, answered, threads⟩ := step
      have own := safe.2 t
      rw [running] at own
      obtain ⟨kept, others, view⟩ := obeyed.runs _ _ _ _ _ safe.1 own.1 answered
      exact safe_update safe threads kept others (own.2 ans _ view)
  | leave t =>
      obtain ⟨ended, left, threads⟩ := step
      have own := safe.2 t
      rw [ended] at own
      obtain ⟨kept, others, rest⟩ := obeyed.leaves _ _ _ safe.1 own left
      exact safe_update safe threads kept others rest

theorem Obeyed.safe [DecidableEq T] (obeyed : Obeyed sys inv mine rules)
    {c : ThreadSystem.Config Op Ans S T} (reach : sys.machine.Reachable c) :
    Safe inv mine rules c := by
  refine reach.invariant ?_ fun c a c' _ safe step => obeyed.safe_step safe step
  rintro c ⟨start, idle⟩
  refine ⟨(obeyed.start _ start).1, fun t => ?_⟩
  rw [idle t]
  exact (obeyed.start _ start).2 t

theorem Obeyed.allowed [DecidableEq T] (obeyed : Obeyed sys inv mine rules)
    {c : ThreadSystem.Config Op Ans S T} (reach : sys.machine.Reachable c) {t : T} {op : Op}
    {next : Ans op → Prog Op Ans PUnit.{w + 1}} (about : c.threads t = some (.ask op next)) :
    inv c.shared ∧ rules.may (mine t c.shared) op := by
  have safe := obeyed.safe reach
  have own := safe.2 t
  rw [about] at own
  exact ⟨safe.1, own.1⟩

end Rules

section Ends

variable [DecidableEq T] (sys : ThreadSystem Op Ans S T I)

/-- A step of an invocation under way, or its end. -/
def Quiet (c c' : ThreadSystem.Config Op Ans S T) : Prop :=
  (∃ t op ans, sys.machine.step c (.run t op ans) c') ∨ ∃ t, sys.machine.step c (.leave t) c'

/-- One call less to make, or the invocation over. -/
inductive Shorter :
    Option (Prog Op Ans PUnit.{w + 1}) → Option (Prog Op Ans PUnit.{w + 1}) → Prop
  | called (op : Op) (next : Ans op → Prog Op Ans PUnit.{w + 1}) (ans : Ans op) :
      Shorter (some (next ans)) (some (.ask op next))
  | left (r : PUnit.{w + 1}) : Shorter none (some (.ret r))

theorem shorter_wf : WellFounded (@Shorter Op Ans) := by
  have none_ends : Acc (@Shorter Op Ans) none := by
    constructor
    rintro q (_ | _)
  refine ⟨fun p => ?_⟩
  cases p with
  | none => exact none_ends
  | some p =>
      induction p with
      | ret r =>
          constructor
          rintro q (_ | _)
          exact none_ends
      | ask op next ih =>
          constructor
          rintro q (⟨_, _, ans⟩ | _)
          exact ih ans

variable {sys}

theorem Quiet.shorter {c c' : ThreadSystem.Config Op Ans S T} (quiet : Quiet sys c c') :
    ∃ t p, Shorter p (c.threads t) ∧ c'.threads = Function.update c.threads t p := by
  rcases quiet with ⟨t, op, ans, next, running, -, threads⟩ | ⟨t, ended, -, threads⟩
  · exact ⟨t, _, running ▸ .called op next ans, threads⟩
  · exact ⟨t, _, ended ▸ .left _, threads⟩

theorem finite_running {c : ThreadSystem.Config Op Ans S T} (reach : sys.machine.Reachable c) :
    {t | c.threads t ≠ none}.Finite := by
  refine reach.invariant (I := fun c => {t | c.threads t ≠ none}.Finite) ?_ ?_
  · rintro c ⟨-, idle⟩
    simp only [idle, ne_eq, not_true_eq_false, Set.ofPred_false, Set.finite_empty]
  · intro c a c' _ finite step
    have updated : ∃ t p, c'.threads = Function.update c.threads t p := by
      cases a with
      | enter t i => exact ⟨t, _, step.2.2⟩
      | run t op ans =>
          obtain ⟨next, -, -, threads⟩ := step
          exact ⟨t, _, threads⟩
      | leave t => exact ⟨t, _, step.2.2⟩
    obtain ⟨t, p, threads⟩ := updated
    refine (finite.insert t).subset fun u busy => ?_
    rcases eq_or_ne u t with rfl | ne
    · exact Set.mem_insert ..
    · rw [Set.mem_ofPred_eq, threads, Function.update_of_ne ne] at busy
      exact Set.mem_insert_of_mem _ busy

theorem quiet_ends {c : ThreadSystem.Config Op Ans S T} (reach : sys.machine.Reachable c) :
    Acc (fun c' c => Quiet sys c c') c := by
  obtain ⟨n, ⟨number⟩⟩ := finite_iff_exists_equiv_fin.mp (finite_running reach).to_subtype
  let left (d : ThreadSystem.Config Op Ans S T) (k : Fin n) := d.threads (number.symm k)
  have lower : WellFounded (InvImage (Pi.Lex (· < ·) fun {_} => Shorter) left) :=
    InvImage.wf left (Pi.Lex.wellFounded (· < ·) fun _ => shorter_wf)
  suffices ends : ∀ d, (∀ t, d.threads t ≠ none → c.threads t ≠ none) →
      Acc (fun c' c => Quiet sys c c') d from ends c fun _ => id
  intro d
  induction d using lower.induction with
  | _ d ih =>
      intro among
      refine ⟨d, fun d' quiet => ?_⟩
      obtain ⟨t, p, shorter, threads⟩ := quiet.shorter
      have busy : d.threads t ≠ none := by
        intro idle
        rw [idle] at shorter
        cases shorter
      have place : number.symm (number ⟨t, among t busy⟩) = ⟨t, among t busy⟩ :=
        number.symm_apply_apply _
      refine ih d' ⟨number ⟨t, among t busy⟩, fun k before => ?_, ?_⟩ fun u busy' => ?_
      · have apart : (number.symm k : T) ≠ t := by
          intro same
          have : number.symm k = ⟨t, among t busy⟩ := Subtype.ext same
          rw [← this, number.apply_symm_apply] at before
          exact lt_irrefl _ before
        simp only [left, threads, Function.update_of_ne apart]
      · simp only [left, place, threads, Function.update_self]
        exact shorter
      · rcases eq_or_ne u t with rfl | ne
        · exact among u busy
        · rw [threads, Function.update_of_ne ne] at busy'
          exact among u busy'

end Ends

/-- Which calls take a lock, who holds one, and the order of the locks. -/
structure Locks (Op : Type u) (S T L : Type w) where
  takes : Op → Option L
  holder : S → L → Option T
  rank : L → Nat

section Order

variable [DecidableEq T] (sys : ThreadSystem Op Ans S T I) (inv : S → Prop) (mine : T → S → V)
  (rules : Rules Op Ans V) (locks : Locks Op S T L)

/-- A call is answered unless it takes a lock that somebody holds; locks are taken in order,
and an invocation ends without any. -/
structure Ordered (bound : Nat) : Prop where
  answered : ∀ s t op, inv s → rules.may (mine t s) op →
    (∀ l, locks.takes op = some l → locks.holder s l = none) → ∃ ans s', sys.env t s op ans s'
  rising : ∀ s t op l k, inv s → rules.may (mine t s) op → locks.takes op = some l →
    locks.holder s k = some t → locks.rank k < locks.rank l
  bounded : ∀ l, locks.rank l < bound
  resting : ∀ s t l, rules.rest (mine t s) → locks.holder s l ≠ some t
  ended : ∀ s t l, rules.done (mine t s) → locks.holder s l ≠ some t
  leaves : ∀ s t, inv s → rules.done (mine t s) → ∃ s', sys.leaves s t s'

variable {sys inv mine rules locks}

/-- The ranks of the locks that `p` may be about to take lie above `n`. -/
def Above (locks : Locks Op S T L) (n : Nat) (p : Prog Op Ans PUnit.{w + 1}) : Prop :=
  ∀ op next l, p = .ask op next → locks.takes op = some l → n < locks.rank l

private theorem Ordered.steps_or_waits {bound : Nat}
    (ordered : Ordered sys inv mine rules locks bound) {c : ThreadSystem.Config Op Ans S T}
    (safe : Safe inv mine rules c) {t : T} {p : Prog Op Ans PUnit.{w + 1}}
    (running : c.threads t = some p) :
    (∃ c', Quiet sys c c') ∨ ∃ op next l u q, p = .ask op next ∧ locks.takes op = some l ∧
      c.threads u = some q ∧ Above locks (locks.rank l) q := by
  have own := safe.2 t
  rw [running] at own
  cases p with
  | ret r =>
      obtain ⟨s', left⟩ := ordered.leaves _ t safe.1 own
      exact .inl ⟨⟨s', _⟩, .inr ⟨t, running, left, rfl⟩⟩
  | ask op next =>
      by_cases free : ∀ l, locks.takes op = some l → locks.holder c.shared l = none
      · obtain ⟨ans, s', answered⟩ := ordered.answered _ t op safe.1 own.1 free
        exact .inl ⟨⟨s', _⟩, .inl ⟨t, op, ans, next, running, answered, rfl⟩⟩
      · obtain ⟨l, takes, taken⟩ : ∃ l, locks.takes op = some l ∧
            locks.holder c.shared l ≠ none := by
          simpa only [not_forall, exists_prop] using free
        obtain ⟨u, held⟩ := Option.ne_none_iff_exists'.mp taken
        have other := safe.2 u
        cases working : c.threads u with
        | none =>
            rw [working] at other
            exact absurd held (ordered.resting _ u l other)
        | some q =>
            rw [working] at other
            refine .inr ⟨op, next, l, u, q, rfl, takes, working, ?_⟩
            rintro op' next' l' rfl takes'
            exact ordered.rising _ u op' l' l safe.1 other.1 takes' held

private theorem Ordered.someone_steps {bound : Nat}
    (ordered : Ordered sys inv mine rules locks bound) {c : ThreadSystem.Config Op Ans S T}
    (safe : Safe inv mine rules c) (n : Nat) {t : T} {p : Prog Op Ans PUnit.{w + 1}}
    (running : c.threads t = some p) (above : ∀ op next l, p = .ask op next →
      locks.takes op = some l → bound ≤ locks.rank l + n) : ∃ c', Quiet sys c c' := by
  induction n generalizing t p with
  | zero =>
      rcases ordered.steps_or_waits safe running with steps | ⟨op, next, l, _, _, about, takes, -⟩
      · exact steps
      · exact absurd (above op next l about takes) (ordered.bounded l).not_ge
  | succ n ih =>
      rcases ordered.steps_or_waits safe running with
        steps | ⟨op, next, l, u, q, about, takes, working, higher⟩
      · exact steps
      · refine ih working fun op' next' l' about' takes' => ?_
        have := above op next l about takes
        have := higher op' next' l' about' takes'
        omega

theorem Ordered.progress {bound : Nat} (ordered : Ordered sys inv mine rules locks bound)
    {c : ThreadSystem.Config Op Ans S T} (safe : Safe inv mine rules c)
    (busy : ∃ t, c.threads t ≠ none) : ∃ c', Quiet sys c c' := by
  obtain ⟨t, busy⟩ := busy
  obtain ⟨p, running⟩ := Option.ne_none_iff_exists'.mp busy
  exact ordered.someone_steps safe bound running fun _ _ l _ _ => Nat.le_add_left ..

/-- Whatever is scheduled, every invocation returns and all locks are free then. -/
theorem Ordered.returns {bound : Nat} (ordered : Ordered sys inv mine rules locks bound)
    (obeyed : Obeyed sys inv mine rules) {c : ThreadSystem.Config Op Ans S T}
    (reach : sys.machine.Reachable c) :
    Inevitable (Quiet sys) (fun c => (∀ t, c.threads t = none) ∧
      ∀ l, locks.holder c.shared l = none) c := by
  have keep : ∀ c c', Safe inv mine rules c → Quiet sys c c' → Safe inv mine rules c' := by
    rintro c c' safe (⟨t, op, ans, step⟩ | ⟨t, step⟩)
    · exact obeyed.safe_step safe step
    · exact obeyed.safe_step safe step
  refine inevitable_of_acc keep (fun c safe unfinished => ?_) (quiet_ends reach) (obeyed.safe reach)
  by_contra stuck
  have idle : ∀ t, c.threads t = none := by
    intro t
    by_contra busy
    exact stuck (ordered.progress safe ⟨t, busy⟩)
  refine unfinished ⟨idle, fun l => Option.eq_none_iff_forall_ne_some.mpr fun t => ?_⟩
  have own := safe.2 t
  rw [idle t] at own
  exact ordered.resting _ t l own

end Order

end XdPlus.Base.LockOrder
