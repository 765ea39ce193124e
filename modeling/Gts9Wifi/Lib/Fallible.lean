import Mathlib.Data.List.Basic

/-!
# Programs with a state that can fail

`ends p s Q` says how a program of `ExceptT ε (StateM σ)` ends when it is started in `s`: with which
result, and in which state, which survives a failure. The rules take a program apart statement by
statement, where it is known how a statement ends and where it is not. `zoom` runs a program on a part
of a larger state.
-/

namespace Driver

variable {ε σ τ α β : Type}

/-- Started in `s`, the program ends with `Q`. -/
def ends (p : ExceptT ε (StateM σ) α) (s : σ) (Q : Except ε α → σ → Prop) : Prop :=
  Q (p.run.run s).1 (p.run.run s).2

section Rules

variable {p : ExceptT ε (StateM σ) α} {f : α → ExceptT ε (StateM σ) β} {s s' : σ}

theorem run_bind_of_ok {a : α} (h : p.run.run s = (.ok a, s')) :
    (p >>= f).run.run s = (f a).run.run s' := by
  rw [ExceptT.run_bind, StateT.run_bind, h]
  rfl

theorem run_bind_of_error {e : ε} (h : p.run.run s = (.error e, s')) :
    (p >>= f).run.run s = (.error e, s') := by
  rw [ExceptT.run_bind, StateT.run_bind, h]
  rfl

theorem run_bind_eq_ok_iff {b : β} {t : σ} :
    (p >>= f).run.run s = (.ok b, t) ↔
      ∃ a s', p.run.run s = (.ok a, s') ∧ (f a).run.run s' = (.ok b, t) := by
  rw [ExceptT.run_bind, StateT.run_bind]
  rcases p.run.run s with ⟨r, s'⟩
  cases r with
  | ok a =>
    constructor
    · exact fun h => ⟨a, s', rfl, h⟩
    · rintro ⟨a', s'', heq, h⟩
      cases heq
      exact h
  | error e =>
    refine iff_of_false (fun h => nomatch congrArg Prod.fst h) ?_
    rintro ⟨a, s'', heq, -⟩
    exact nomatch congrArg Prod.fst heq

theorem run_lift (x : Except ε α) : (liftM x : ExceptT ε (StateM σ) α).run.run s = (x, s) := rfl

theorem ends_run_iff {r : Except ε α} :
    ends p s (fun r' t => r' = r ∧ t = s') ↔ p.run.run s = (r, s') :=
  ⟨fun h => Prod.ext h.1 h.2, fun h => ⟨congrArg Prod.fst h, congrArg Prod.snd h⟩⟩

theorem ends_mono {Q R : Except ε α → σ → Prop} (h : ends p s Q) (hQR : ∀ r s', Q r s' → R r s') :
    ends p s R :=
  hQR _ _ h

@[simp] theorem ends_bind {Q : Except ε β → σ → Prop} :
    ends (p >>= f) s Q ↔ ends p s fun r s' =>
      match r with
      | .ok a => ends (f a) s' Q
      | .error e => Q (.error e) s' := by
  unfold ends
  rw [ExceptT.run_bind, StateT.run_bind]
  rcases p.run.run s with ⟨r, s'⟩
  cases r with
  | ok a => exact Iff.rfl
  | error e => exact Iff.rfl

@[simp] theorem ends_pure (a : α) {Q : Except ε α → σ → Prop} :
    ends (pure a : ExceptT ε (StateM σ) α) s Q ↔ Q (.ok a) s := Iff.rfl

@[simp] theorem ends_throw (e : ε) {Q : Except ε α → σ → Prop} :
    ends (throw e : ExceptT ε (StateM σ) α) s Q ↔ Q (.error e) s := Iff.rfl

/-- A computation that does not look at the state. -/
@[simp] theorem ends_lift (x : Except ε α) {Q : Except ε α → σ → Prop} :
    ends (liftM x : ExceptT ε (StateM σ) α) s Q ↔ Q x s := Iff.rfl

theorem ends_ite {c : Prop} [Decidable c] {q : ExceptT ε (StateM σ) α} {Q : Except ε α → σ → Prop}
    (hp : c → ends p s Q) (hq : ¬ c → ends q s Q) : ends (if c then p else q) s Q := by
  split
  · next h => exact hp h
  · next h => exact hq h

end Rules

/-! ## Without a state -/

theorem bind_eq_ok_iff {x : Except ε α} {f : α → Except ε β} {b : β} :
    x >>= f = .ok b ↔ ∃ a, x = .ok a ∧ f a = .ok b := by
  cases x with
  | error e => exact iff_of_false (fun h => nomatch h) fun ⟨_, h, _⟩ => nomatch h
  | ok a => exact ⟨fun h => ⟨a, rfl, h⟩, fun ⟨_, h, hf⟩ => Except.ok.inj h ▸ hf⟩

theorem ite_throw_eq_ok_iff {c : Prop} [Decidable c] {x : Except ε α} {e : ε} {a : α} :
    (if c then x else throw e) = .ok a ↔ c ∧ x = .ok a := by
  by_cases hc : c
  · simp [hc]
  · simp [hc, throw, throwThe, MonadExceptOf.throw]

/-! ## Part of a state -/

/-- Run a program on the part of the state that `view` shows and `put` replaces. -/
def zoom (view : σ → τ) (put : σ → τ → σ) (p : ExceptT ε (StateM τ) α) : ExceptT ε (StateM σ) α :=
  ExceptT.mk fun s => ((p.run.run (view s)).1, put s (p.run.run (view s)).2)

@[simp] theorem ends_zoom {view : σ → τ} {put : σ → τ → σ} {p : ExceptT ε (StateM τ) α} {s : σ}
    {Q : Except ε α → σ → Prop} :
    ends (zoom view put p) s Q ↔ ends p (view s) fun r t => Q r (put s t) := Iff.rfl

end Driver
