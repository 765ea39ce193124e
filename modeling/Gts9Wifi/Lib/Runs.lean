import Mathlib.Data.List.Infix

/-!
# Whole runs of a labelled step function

`runFrom step ls s` is the state after the steps `ls`. `Meets step C ls s` says that every step of
the run meets the condition `C` in the state it starts from. `Meets.imp` carries an invariant along
a run, and `meets_iff_prefix` is its exact form, for a condition that a step from a good state meets
precisely when it ends in a good state.
-/

namespace Driver

variable {L S : Type} {step : L → S → S}

/-- The state after the steps `ls`. -/
def runFrom (step : L → S → S) : List L → S → S
  | [], s => s
  | l :: ls, s => runFrom step ls (step l s)

theorem runFrom_append (ls ls' : List L) (s : S) :
    runFrom step (ls ++ ls') s = runFrom step ls' (runFrom step ls s) := by
  induction ls generalizing s with
  | nil => rfl
  | cons l ls ih => exact ih _

/-- What every step keeps is kept by every run. -/
theorem runFrom_keeps {J : S → Prop} (hstep : ∀ l s, J s → J (step l s)) (ls : List L) {s : S}
    (h : J s) : J (runFrom step ls s) := by
  induction ls generalizing s with
  | nil => exact h
  | cons l ls ih => exact ih (hstep l s h)

/-- Every step of the run meets `C` in the state it starts from. -/
def Meets (step : L → S → S) (C : L → S → Prop) : List L → S → Prop
  | [], _ => True
  | l :: ls, s => C l s ∧ Meets step C ls (step l s)

theorem meets_true (ls : List L) (s : S) : Meets step (fun _ _ => True) ls s := by
  induction ls generalizing s with
  | nil => trivial
  | cons l ls ih => exact ⟨trivial, ih _⟩

/-- Along a run under `C₀`, conditions that agree on every step under `C₀` agree. -/
theorem Meets.congr {C₀ C C' : L → S → Prop} (h : ∀ l s, C₀ l s → (C l s ↔ C' l s)) {ls : List L}
    {s : S} (h₀ : Meets step C₀ ls s) : Meets step C ls s ↔ Meets step C' ls s := by
  induction ls generalizing s with
  | nil => exact Iff.rfl
  | cons l ls ih => exact and_congr (h l s h₀.1) (ih h₀.2)

/-- Conditions that agree on every step agree on runs. -/
theorem meets_congr {C C' : L → S → Prop} (h : ∀ l s, C l s ↔ C' l s) (ls : List L) (s : S) :
    Meets step C ls s ↔ Meets step C' ls s :=
  (meets_true ls s).congr fun l s _ => h l s

theorem Meets.and {C C' : L → S → Prop} {ls : List L} {s : S} (h : Meets step C ls s)
    (h' : Meets step C' ls s) : Meets step (fun l s => C l s ∧ C' l s) ls s := by
  induction ls generalizing s with
  | nil => trivial
  | cons l ls ih => exact ⟨⟨h.1, h'.1⟩, ih h.2 h'.2⟩

/-- Along a run that keeps `J`, a condition may be replaced by any that `J` makes weaker. -/
theorem Meets.imp {C C' : L → S → Prop} {J : S → Prop}
    (hstep : ∀ l s, J s → C l s → J (step l s) ∧ C' l s) {ls : List L} {s : S} (h0 : J s)
    (hC : Meets step C ls s) : Meets step C' ls s := by
  induction ls generalizing s with
  | nil => trivial
  | cons l ls ih =>
    obtain ⟨h1, h2⟩ := hstep l s h0 hC.1
    exact ⟨h2, ih h1 hC.2⟩

/-- **Exact conditions.** If a step from a good state, under an assumption `C₀`, ends in a good state
precisely when it meets `C`, then all states of a run under `C₀` are good precisely when all its
steps meet `C`. -/
theorem meets_iff_prefix {C C₀ : L → S → Prop} {J : S → Prop}
    (hstep : ∀ l s, C₀ l s → J s → (C l s ↔ J (step l s))) {ls : List L} {s : S}
    (hC₀ : Meets step C₀ ls s) (h0 : J s) :
    (∀ pre, pre <+: ls → J (runFrom step pre s)) ↔ Meets step C ls s := by
  induction ls generalizing s with
  | nil =>
    refine ⟨fun _ => trivial, fun _ pre hpre => ?_⟩
    rw [List.prefix_nil.1 hpre]
    exact h0
  | cons l ls ih =>
    obtain ⟨hl, hls⟩ := hC₀
    constructor
    · intro h
      have h1 : J (step l s) := h [l] ⟨ls, rfl⟩
      refine ⟨(hstep l s hl h0).2 h1, (ih hls h1).1 fun pre hpre => ?_⟩
      exact h (l :: pre) ((List.cons_prefix_cons).2 ⟨rfl, hpre⟩)
    · rintro ⟨hc, hm⟩ pre hpre
      have h1 : J (step l s) := (hstep l s hl h0).1 hc
      cases pre with
      | nil => exact h0
      | cons l' pre =>
        obtain ⟨rfl, hpre'⟩ := List.cons_prefix_cons.1 hpre
        exact (ih hls h1).2 hm pre hpre'

/-- What good states keep holds along a run whose states are all good. -/
theorem inv_of_prefix {J K : S → Prop} (hstep : ∀ l s, J s → K s → K (step l s)) {ls : List L} {s : S}
    (h0 : K s) (hJ : ∀ pre, pre <+: ls → J (runFrom step pre s)) :
    ∀ pre, pre <+: ls → K (runFrom step pre s) := by
  induction ls generalizing s with
  | nil =>
    intro pre hpre
    rw [List.prefix_nil.1 hpre]
    exact h0
  | cons l ls ih =>
    intro pre hpre
    cases pre with
    | nil => exact h0
    | cons l' pre =>
      obtain ⟨rfl, hpre'⟩ := List.cons_prefix_cons.1 hpre
      have h1 : K (step l' s) := hstep l' s (hJ [] List.nil_prefix) h0
      refine ih h1 (fun pre' hpre'' => ?_) pre hpre'
      exact hJ (l' :: pre') (List.cons_prefix_cons.2 ⟨rfl, hpre''⟩)

/-! ## Runs that carry a ghost -/

section Projection

variable {T : Type} {stepT : L → T → T} {f : T → S}

/-- A condition on the runs of a step that refines `step` through `f`. -/
theorem meets_proj (hf : ∀ l t, f (stepT l t) = step l (f t)) {C : L → S → Prop} (ls : List L)
    (t : T) : Meets stepT (fun l t => C l (f t)) ls t ↔ Meets step C ls (f t) := by
  induction ls generalizing t with
  | nil => exact Iff.rfl
  | cons l ls ih =>
    refine and_congr Iff.rfl ((ih _).trans ?_)
    rw [hf]

end Projection

end Driver
