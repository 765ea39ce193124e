import Mathlib.Data.List.Basic

/-!
# Programs that talk to a world

A driver is a program that issues operations (bus accesses, property writes, loads and stores of
its own memory) and continues with their answers. `Prog` is the tree of such a program, a `World`
answers each operation from its state and from an *input* the environment chooses for that
operation, and `Prog.run` / `Prog.trace` are the total, executable meaning: the value and state a
program ends in, and the operations it issued, for one stream of inputs.

`wp` is the matching predicate transformer. It quantifies over every input the assumption `A`
admits, and it carries a `Monitor`, a small automaton over the issued operations, so that "no
operation of kind X is ever issued while Y" is proved by the same rules as a postcondition.
`wp_sound` returns to `run` and `trace`.
-/

namespace Driver

/-- The operations a program can issue, and the type of each one's answer. -/
structure Iface where
  Op : Type
  Ans : Op → Type

/-- A program over `I`: it returns, or issues an operation and continues with the answer. -/
inductive Prog (I : Iface) (α : Type) : Type
  | ret (a : α)
  | call (o : I.Op) (k : I.Ans o → Prog I α)

namespace Prog

variable {I : Iface} {α β : Type}

/-- Sequencing. -/
protected def bind : Prog I α → (α → Prog I β) → Prog I β
  | .ret a, f => f a
  | .call o k, f => .call o fun x => (k x).bind f

instance : Monad (Prog I) where
  pure := .ret
  bind := Prog.bind

instance : LawfulMonad (Prog I) := LawfulMonad.mk' (Prog I)
  (by
    intro α x
    induction x with
    | ret a => rfl
    | call o k ih => exact congrArg (Prog.call o) (funext ih))
  (fun _ _ => rfl)
  (by
    intro α β γ x f g
    induction x with
    | ret a => rfl
    | call o k ih => exact congrArg (Prog.call o) (funext ih))

/-- Issue one operation. -/
def perform (o : I.Op) : Prog I (I.Ans o) := .call o .ret

end Prog

/-- Run a fallible program and hand its result on as a value. -/
def attempt {I : Iface} {ε α : Type} (x : ExceptT ε (Prog I) α) : ExceptT ε (Prog I) (Except ε α) :=
  ExceptT.lift x.run

/-- What answers the operations: a state, and for each operation an input of the environment. -/
structure World (I : Iface) where
  State : Type
  Input : Type
  handle : (o : I.Op) → Input → State → I.Ans o × State

/-- One issued operation: what was asked, what the environment chose, and the state it met. -/
structure Event {I : Iface} (W : World I) where
  op : I.Op
  input : W.Input
  pre : W.State

section Runs

variable {I : Iface} {W : World I} {α β : Type}

/-- The value and the state a program ends in, the `n`-th operation being given input `ι n`. -/
def Prog.run (W : World I) : Prog I α → (Nat → W.Input) → W.State → α × W.State
  | .ret a, _, s => (a, s)
  | .call o k, ι, s =>
    (k (W.handle o (ι 0) s).1).run W (fun n => ι (n + 1)) (W.handle o (ι 0) s).2

/-- The operations a program issues, in order. -/
def Prog.trace (W : World I) : Prog I α → (Nat → W.Input) → W.State → List (Event W)
  | .ret _, _, _ => []
  | .call o k, ι, s =>
    ⟨o, ι 0, s⟩ :: (k (W.handle o (ι 0) s).1).trace W (fun n => ι (n + 1)) (W.handle o (ι 0) s).2

theorem Prog.run_bind (p : Prog I α) (f : α → Prog I β) (ι : Nat → W.Input) (s : W.State) :
    (p >>= f).run W ι s = (f (p.run W ι s).1).run W
      (fun n => ι (n + (p.trace W ι s).length)) (p.run W ι s).2 := by
  induction p generalizing ι s with
  | ret a => rfl
  | call o k ih => exact ih _ _ _

theorem Prog.trace_bind (p : Prog I α) (f : α → Prog I β) (ι : Nat → W.Input) (s : W.State) :
    (p >>= f).trace W ι s = p.trace W ι s ++ (f (p.run W ι s).1).trace W
      (fun n => ι (n + (p.trace W ι s).length)) (p.run W ι s).2 := by
  induction p generalizing ι s with
  | ret a => rfl
  | call o k ih => exact congrArg (List.cons _) (ih _ _ _)

theorem Prog.exists_input_of_mem_trace {p : Prog I α} {ι : Nat → W.Input} {s : W.State}
    {e : Event W} (h : e ∈ p.trace W ι s) : ∃ n, e.input = ι n := by
  induction p generalizing ι s with
  | ret a => exact nomatch h
  | call o k ih =>
    rcases List.mem_cons.1 h with rfl | h
    · exact ⟨0, rfl⟩
    · obtain ⟨n, hn⟩ := ih _ h
      exact ⟨n + 1, hn⟩

end Runs

/-- An automaton over issued operations: `ok` says which operations it accepts. -/
structure Monitor {I : Iface} (W : World I) where
  St : Type
  step : St → Event W → St
  ok : St → Event W → Prop

namespace Monitor

variable {I : Iface} {W : World I}

/-- The monitor that accepts everything. -/
abbrev idle (W : World I) : Monitor W := ⟨Unit, fun _ _ => (), fun _ _ => True⟩

/-- The monitor accepts `o` and does not move on it. -/
class Ignores (M : Monitor W) (o : I.Op) : Prop where
  accepts : ∀ m i s, M.ok m ⟨o, i, s⟩
  stays : ∀ m i s, M.step m ⟨o, i, s⟩ = m

instance (o : I.Op) : (idle W).Ignores o := ⟨fun _ _ _ => trivial, fun _ _ _ => rfl⟩

/-- The state of the monitor after a trace. -/
def after (M : Monitor W) (m : M.St) (tr : List (Event W)) : M.St := tr.foldl M.step m

/-- Every operation of the trace is accepted when it is issued. -/
def Safe (M : Monitor W) : M.St → List (Event W) → Prop
  | _, [] => True
  | m, e :: tr => M.ok m e ∧ Safe M (M.step m e) tr

/-- Safety of a trace can be computed if acceptance can. -/
def decidableSafe {M : Monitor W} [∀ m e, Decidable (M.ok m e)] :
    (m : M.St) → (tr : List (Event W)) → Decidable (M.Safe m tr)
  | _, [] => isTrue trivial
  | m, e :: tr => @instDecidableAnd _ _ inferInstance (decidableSafe (M.step m e) tr)

theorem after_append (M : Monitor W) (m : M.St) (tr tr' : List (Event W)) :
    M.after m (tr ++ tr') = M.after (M.after m tr) tr' :=
  List.foldl_append

theorem safe_append {M : Monitor W} {m : M.St} {tr tr' : List (Event W)} :
    M.Safe m (tr ++ tr') ↔ M.Safe m tr ∧ M.Safe (M.after m tr) tr' := by
  induction tr generalizing m with
  | nil => exact (iff_of_eq (true_and _)).symm
  | cons e tr ih => exact (and_congr_right fun _ => ih).trans and_assoc.symm

/-- Judges each operation by itself. -/
abbrev each (P : Event W → Prop) : Monitor W := ⟨Unit, fun _ _ => (), fun _ e => P e⟩

theorem safe_each {P : Event W → Prop} {m : Unit} {tr : List (Event W)} :
    (each P).Safe m tr ↔ ∀ e ∈ tr, P e := by
  induction tr with
  | nil => exact iff_of_true trivial fun _ he => nomatch he
  | cons e tr ih =>
    rw [List.forall_mem_cons]
    exact and_congr_right fun _ => ih

/-- Judges each operation by everything issued before it. -/
abbrev history (ok : List (Event W) → Event W → Prop) : Monitor W :=
  ⟨List (Event W), fun h e => h ++ [e], ok⟩

theorem after_history (ok : List (Event W) → Event W → Prop) (h tr : List (Event W)) :
    (history ok).after h tr = h ++ tr := by
  induction tr generalizing h with
  | nil => exact (List.append_nil h).symm
  | cons e tr ih => exact (ih (h ++ [e])).trans (List.append_assoc h [e] tr)

theorem ok_of_safe_history {ok : List (Event W) → Event W → Prop} {h tr pre post : List (Event W)}
    {e : Event W} (hsafe : (history ok).Safe h tr) (htr : tr = pre ++ e :: post) : ok (h ++ pre) e := by
  subst htr
  have he := (safe_append.1 hsafe).2.1
  rwa [after_history] at he

/-- Accepts everything, and records whether a `P` operation was issued. -/
abbrev seen (P : Event W → Prop) : Monitor W := ⟨Prop, fun m e => m ∨ P e, fun _ _ => True⟩

theorem after_seen {P : Event W → Prop} {m : Prop} {tr : List (Event W)} :
    (seen P).after m tr ↔ m ∨ ∃ e ∈ tr, P e := by
  induction tr generalizing m with
  | nil => exact (or_iff_left (fun ⟨_, he, _⟩ => (nomatch he))).symm
  | cons e tr ih =>
    refine ih.trans ?_
    rw [or_assoc, List.exists_mem_cons_iff]

/-- Accepts everything, and records what `f` reads off the operations. -/
abbrev records {β : Type} (f : Event W → Option β) : Monitor W :=
  ⟨List β, fun l e => l ++ (f e).toList, fun _ _ => True⟩

theorem after_records {β : Type} (f : Event W → Option β) (l : List β) (tr : List (Event W)) :
    (records f).after l tr = l ++ tr.filterMap f := by
  induction tr generalizing l with
  | nil => exact (List.append_nil l).symm
  | cons e tr ih =>
    refine (ih _).trans ?_
    cases hf : f e <;> simp [hf]

theorem ignores_records {β : Type} {f : Event W → Option β} {o : I.Op}
    (h : ∀ i s, f ⟨o, i, s⟩ = none) : (records f).Ignores o where
  accepts _ _ _ := trivial
  stays l i s := by simp only [h, Option.toList_none, List.append_nil]

/-- Two monitors side by side. -/
abbrev prod (M N : Monitor W) : Monitor W :=
  ⟨M.St × N.St, fun m e => (M.step m.1 e, N.step m.2 e), fun m e => M.ok m.1 e ∧ N.ok m.2 e⟩

theorem ignores_prod (M N : Monitor W) (o : I.Op) [M.Ignores o] [N.Ignores o] :
    (M.prod N).Ignores o where
  accepts m i s := ⟨Ignores.accepts m.1 i s, Ignores.accepts m.2 i s⟩
  stays m i s := Prod.ext (Ignores.stays m.1 i s) (Ignores.stays m.2 i s)

theorem after_prod (M N : Monitor W) (m : M.St × N.St) (tr : List (Event W)) :
    (M.prod N).after m tr = (M.after m.1 tr, N.after m.2 tr) := by
  induction tr generalizing m with
  | nil => rfl
  | cons e tr ih => exact ih _

/-- Accepts a `Q` operation only after a `P` operation. -/
abbrev precedes (P Q : Event W → Prop) : Monitor W := ⟨Prop, fun m e => m ∨ P e, fun m e => Q e → m⟩

/-- In a trace this monitor accepts, every `Q` has a `P` before it. -/
theorem exists_of_safe_precedes {P Q : Event W → Prop} {m : Prop} {tr pre post : List (Event W)}
    {e : Event W} (h : (precedes P Q).Safe m tr) (htr : tr = pre ++ e :: post) (he : Q e) :
    m ∨ ∃ e' ∈ pre, P e' := by
  subst htr
  induction pre generalizing m with
  | nil => exact .inl (h.1 he)
  | cons e₀ pre ih =>
    rcases ih h.2 with (hm | h₀) | ⟨e', he', hP⟩
    · exact .inl hm
    · exact .inr ⟨e₀, List.mem_cons_self, h₀⟩
    · exact .inr ⟨e', List.mem_cons_of_mem _ he', hP⟩

end Monitor

section Wp

variable {I : Iface} {W : World I} {α β ε : Type}

/-- Under every input that `A` admits, each operation `p` issues from `(m, s)` is accepted by the
monitor, and `p` ends with `Q`. -/
def wp (A : Event W → Prop) (M : Monitor W) :
    Prog I α → (α → M.St → W.State → Prop) → M.St → W.State → Prop
  | .ret a, Q, m, s => Q a m s
  | .call o k, Q, m, s => ∀ i, A ⟨o, i, s⟩ → M.ok m ⟨o, i, s⟩ ∧
      wp A M (k (W.handle o i s).1) Q (M.step m ⟨o, i, s⟩) (W.handle o i s).2

variable {A : Event W → Prop} {M : Monitor W}

/-- **Soundness.** What `wp` promises holds of every run whose inputs meet the assumption. -/
theorem wp_sound {p : Prog I α} {Q : α → M.St → W.State → Prop} {m : M.St} {s : W.State}
    (h : wp A M p Q m s) (ι : Nat → W.Input) (hA : ∀ e ∈ p.trace W ι s, A e) :
    M.Safe m (p.trace W ι s) ∧ Q (p.run W ι s).1 (M.after m (p.trace W ι s)) (p.run W ι s).2 := by
  induction p generalizing m s ι with
  | ret a => exact ⟨trivial, h⟩
  | call o k ih =>
    obtain ⟨h0, h1⟩ := h (ι 0) (hA _ List.mem_cons_self)
    obtain ⟨h2, h3⟩ := ih _ h1 (fun n => ι (n + 1)) fun e he => hA e (List.mem_cons_of_mem _ he)
    exact ⟨⟨h0, h2⟩, h3⟩

@[simp] theorem wp_pure (a : α) (Q : α → M.St → W.State → Prop) (m : M.St) (s : W.State) :
    wp A M (pure a) Q m s ↔ Q a m s := Iff.rfl

theorem wp_mono {p : Prog I α} {Q R : α → M.St → W.State → Prop} {m : M.St} {s : W.State}
    (h : wp A M p Q m s) (hQR : ∀ a m s, Q a m s → R a m s) : wp A M p R m s := by
  induction p generalizing m s with
  | ret a => exact hQR _ _ _ h
  | call o k ih => exact fun i hi => ⟨(h i hi).1, ih _ (h i hi).2⟩

@[simp] theorem wp_bind (p : Prog I α) (f : α → Prog I β) (Q : β → M.St → W.State → Prop)
    (m : M.St) (s : W.State) :
    wp A M (p >>= f) Q m s ↔ wp A M p (fun a m s => wp A M (f a) Q m s) m s := by
  induction p generalizing m s with
  | ret a => exact Iff.rfl
  | call o k ih => exact forall_congr' fun i => imp_congr_right fun _ => and_congr_right fun _ => ih _ _ _

/-- Sequencing through an intermediate assertion. -/
theorem wp_seq {p : Prog I α} {f : α → Prog I β} {P : α → M.St → W.State → Prop}
    {Q : β → M.St → W.State → Prop} {m : M.St} {s : W.State} (hp : wp A M p P m s)
    (hf : ∀ a m s, P a m s → wp A M (f a) Q m s) : wp A M (p >>= f) Q m s := by
  rw [wp_bind]
  exact wp_mono hp hf

/-- A program whose value is thrown away. -/
theorem wp_void {p : Prog I α} {Q : M.St → W.State → Prop} {m : M.St} {s : W.State}
    (h : wp A M p (fun _ m s => Q m s) m s) :
    wp A M (p >>= fun _ => pure ()) (fun _ m s => Q m s) m s :=
  (wp_bind _ _ _ _ _).2 h

@[simp] theorem wp_perform (o : I.Op) (Q : I.Ans o → M.St → W.State → Prop) (m : M.St)
    (s : W.State) :
    wp A M (Prog.perform o) Q m s ↔ ∀ i, A ⟨o, i, s⟩ → M.ok m ⟨o, i, s⟩ ∧
      Q (W.handle o i s).1 (M.step m ⟨o, i, s⟩) (W.handle o i s).2 := Iff.rfl

/-- An operation the monitor ignores. -/
theorem wp_perform_of_ignores {o : I.Op} [M.Ignores o] {Q : I.Ans o → M.St → W.State → Prop}
    {m : M.St} {s : W.State}
    (h : ∀ i, A ⟨o, i, s⟩ → Q (W.handle o i s).1 m (W.handle o i s).2) :
    wp A M (Prog.perform o) Q m s := by
  intro i hi
  refine ⟨Monitor.Ignores.accepts m i s, ?_⟩
  rw [Monitor.Ignores.stays m i s]
  exact h i hi

theorem wp_ite {c : Prop} [Decidable c] {p q : Prog I α} {Q : α → M.St → W.State → Prop} {m : M.St}
    {s : W.State} (hp : c → wp A M p Q m s) (hq : ¬ c → wp A M q Q m s) :
    wp A M (if c then p else q) Q m s := by
  split
  · next h => exact hp h
  · next h => exact hq h

/-- What every operation keeps is kept by every program. -/
theorem wp_stable {J : M.St → Prop} (hok : ∀ m e, M.ok m e) (hstep : ∀ m e, J m → J (M.step m e))
    {p : Prog I α} {m : M.St} {s : W.State} (h : J m) : wp A M p (fun _ m _ => J m) m s := by
  induction p generalizing m s with
  | ret a => exact h
  | call o k ih => exact fun i _ => ⟨hok _ _, ih _ (hstep _ _ h)⟩

/-- Nothing is asked of a program by a monitor that accepts everything. -/
theorem wp_true (hok : ∀ m e, M.ok m e) {p : Prog I α} {m : M.St} {s : W.State} :
    wp A M p (fun _ _ _ => True) m s :=
  wp_stable (J := fun _ => True) hok (fun _ _ _ => trivial) trivial

/-- What is true of each operation is never seen to fail. -/
theorem wp_seen_of_each {P : Event W → Prop} {p : Prog I α} {Q : α → W.State → Prop}
    {m : Prop} {s : W.State} (h : wp A (.each P) p (fun a _ s => Q a s) () s) :
    wp A (.seen fun e => ¬ P e) p (fun a m' s => (m' ↔ m) ∧ Q a s) m s := by
  induction p generalizing m s with
  | ret a => exact ⟨Iff.rfl, h⟩
  | call o k ih =>
    intro i hi
    obtain ⟨hP, hk⟩ := h i hi
    refine ⟨trivial, wp_mono (ih _ hk) fun a m' s' hr => ⟨hr.1.trans ?_, hr.2⟩⟩
    exact or_iff_left (not_not.2 hP)

theorem wp_and {p : Prog I α} {Q R : α → M.St → W.State → Prop} {m : M.St} {s : W.State}
    (h : wp A M p Q m s) (h' : wp A M p R m s) :
    wp A M p (fun a m s => Q a m s ∧ R a m s) m s := by
  induction p generalizing m s with
  | ret a => exact ⟨h, h'⟩
  | call o k ih => exact fun i hi => ⟨(h i hi).1, ih _ (h i hi).2 (h' i hi).2⟩

/-- What was proved under two monitors apart holds under both together. -/
theorem wp_prod {N : Monitor W} {p : Prog I α} {Q : α → M.St → W.State → Prop}
    {R : α → N.St → W.State → Prop} {m : M.St × N.St} {s : W.State} (h : wp A M p Q m.1 s)
    (h' : wp A N p R m.2 s) :
    wp A (M.prod N) p (fun a m s => Q a m.1 s ∧ R a m.2 s) m s := by
  induction p generalizing m s with
  | ret a => exact ⟨h, h'⟩
  | call o k ih =>
    intro i hi
    obtain ⟨hM, hk⟩ := h i hi
    obtain ⟨hN, hk'⟩ := h' i hi
    exact ⟨⟨hM, hN⟩, ih _ hk hk'⟩

/-- Whatever a program does, it only adds to a record. -/
theorem wp_records {γ : Type} {f : Event W → Option γ} {p : Prog I α} {l : List γ} {s : W.State} :
    wp A (.records f) p (fun _ l' _ => ∃ l₁, l' = l ++ l₁) l s := by
  refine wp_stable (M := .records f) (J := fun l' => ∃ l₁, l' = l ++ l₁) (fun _ _ => trivial) ?_
    ⟨[], (List.append_nil l).symm⟩
  rintro _ e ⟨l₁, rfl⟩
  exact ⟨l₁ ++ (f e).toList, List.append_assoc _ _ _⟩

/-! ## Fallible programs -/

@[simp] theorem wp_run_bind (x : ExceptT ε (Prog I) α) (f : α → ExceptT ε (Prog I) β)
    (Q : Except ε β → M.St → W.State → Prop) (m : M.St) (s : W.State) :
    wp A M (x >>= f).run Q m s ↔ wp A M x.run (fun r m s =>
      match r with
      | .ok a => wp A M (f a).run Q m s
      | .error e => Q (.error e) m s) m s := by
  rw [ExceptT.run_bind, wp_bind]
  constructor <;> intro h <;> refine wp_mono h fun r m s hr => ?_ <;> cases r <;> exact hr

/-- Sequencing of fallible code: a failure of the first part ends it, and a success goes on. -/
theorem wp_run_seq {x : ExceptT ε (Prog I) α} {f : α → ExceptT ε (Prog I) β}
    {P : Except ε α → M.St → W.State → Prop} {Q : Except ε β → M.St → W.State → Prop} {m : M.St}
    {s : W.State} (hx : wp A M x.run P m s)
    (herr : ∀ e m s, P (.error e) m s → Q (.error e) m s)
    (hok : ∀ a m s, P (.ok a) m s → wp A M (f a).run Q m s) : wp A M (x >>= f).run Q m s := by
  rw [wp_run_bind]
  refine wp_mono hx ?_
  intro r m s hr
  cases r with
  | error e => exact herr e m s hr
  | ok a => exact hok a m s hr

@[simp] theorem wp_run_lift (p : Prog I α) (Q : Except ε α → M.St → W.State → Prop) (m : M.St)
    (s : W.State) :
    wp A M (liftM p : ExceptT ε (Prog I) α).run Q m s ↔ wp A M p (fun a m s => Q (.ok a) m s) m s := by
  show wp A M (p >>= fun a => pure (Except.ok a)) Q m s ↔ _
  rw [wp_bind]
  exact Iff.rfl

@[simp] theorem wp_run_attempt (x : ExceptT ε (Prog I) α)
    (Q : Except ε (Except ε α) → M.St → W.State → Prop) (m : M.St) (s : W.State) :
    wp A M (attempt x).run Q m s ↔ wp A M x.run (fun r m s => Q (.ok r) m s) m s :=
  wp_run_lift x.run Q m s

/-- Sequencing after an attempt, whose failure is not the end. -/
theorem wp_run_attempt_seq {x : ExceptT ε (Prog I) α} {f : Except ε α → ExceptT ε (Prog I) β}
    {P : Except ε α → M.St → W.State → Prop} {Q : Except ε β → M.St → W.State → Prop} {m : M.St}
    {s : W.State} (hx : wp A M x.run P m s)
    (hf : ∀ r m s, P r m s → wp A M (f r).run Q m s) : wp A M (attempt x >>= f).run Q m s := by
  rw [wp_run_bind, wp_run_attempt]
  exact wp_mono hx hf

end Wp

/-! ## Which operations a program can issue -/

section Issues

variable {I : Iface} {W : World I} {α β ε : Type} {P P' : I.Op → Prop}

/-- Whatever it is answered, `p` only issues operations in `P`. -/
def Issues (P : I.Op → Prop) : Prog I α → Prop
  | .ret _ => True
  | .call o k => P o ∧ ∀ x, Issues P (k x)

@[simp] theorem issues_pure (a : α) : Issues P (pure a : Prog I α) := trivial

theorem issues_true (p : Prog I α) : Issues (fun _ => True) p := by
  induction p with
  | ret a => trivial
  | call o k ih => exact ⟨trivial, ih⟩

theorem Issues.mono {p : Prog I α} (h : Issues P p) (hP : ∀ o, P o → P' o) : Issues P' p := by
  induction p with
  | ret a => trivial
  | call o k ih => exact ⟨hP _ h.1, fun x => ih x (h.2 x)⟩

theorem Issues.bind {p : Prog I α} {f : α → Prog I β} (h : Issues P p)
    (hf : ∀ a, Issues P (f a)) : Issues P (p >>= f) := by
  induction p with
  | ret a => exact hf a
  | call o k ih => exact ⟨h.1, fun x => ih x (h.2 x)⟩

theorem Issues.run_bind {x : ExceptT ε (Prog I) α} {f : α → ExceptT ε (Prog I) β}
    (h : Issues P x.run) (hf : ∀ a, Issues P (f a).run) : Issues P (x >>= f).run := by
  rw [ExceptT.run_bind]
  refine h.bind fun r => ?_
  cases r with
  | ok a => exact hf a
  | error e => trivial

theorem Issues.run_lift {p : Prog I α} (h : Issues P p) :
    Issues P (liftM p : ExceptT ε (Prog I) α).run :=
  h.bind fun _ => trivial

theorem Issues.run_attempt {x : ExceptT ε (Prog I) α} (h : Issues P x.run) :
    Issues P (attempt x).run :=
  h.bind fun _ => trivial

/-- **Frame rule.** A property of the monitor and the state that every operation in `P` accepts
and keeps is kept by every program that only issues operations in `P`. -/
theorem Issues.wp {A : Event W → Prop} {M : Monitor W} {p : Prog I α} (h : Issues P p)
    {J : M.St → W.State → Prop}
    (hJ : ∀ o, P o → ∀ i m s, A ⟨o, i, s⟩ → J m s →
      M.ok m ⟨o, i, s⟩ ∧ J (M.step m ⟨o, i, s⟩) (W.handle o i s).2)
    {m : M.St} {s : W.State} (h0 : J m s) : wp A M p (fun _ m s => J m s) m s := by
  induction p generalizing m s with
  | ret a => exact h0
  | call o k ih =>
    intro i hi
    obtain ⟨h1, h2⟩ := hJ o h.1 i m s hi h0
    exact ⟨h1, ih _ (h.2 _) h2⟩

/-- What was proved without a monitor holds under one that accepts the operations of `P` as long as
`K` holds of its state. -/
theorem Issues.wp_of_idle {A : Event W → Prop} {M : Monitor W} {p : Prog I α} (h : Issues P p)
    {K : M.St → Prop}
    (hM : ∀ o, P o → ∀ i m s, K m → M.ok m ⟨o, i, s⟩ ∧ K (M.step m ⟨o, i, s⟩))
    {Q : α → W.State → Prop} {m : M.St} {s : W.State}
    (hw : Driver.wp A (Monitor.idle W) p (fun a _ s => Q a s) () s) (hm : K m) :
    Driver.wp A M p (fun a m s => Q a s ∧ K m) m s := by
  induction p generalizing m s with
  | ret a => exact ⟨hw, hm⟩
  | call o k ih =>
    intro i hi
    obtain ⟨h1, h2⟩ := hM o h.1 i m s hm
    exact ⟨h1, ih _ (h.2 _) (hw i hi).2 h2⟩

end Issues

end Driver
