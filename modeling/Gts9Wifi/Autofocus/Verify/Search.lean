import Mathlib
import Gts9Wifi.Autofocus.Search

/-!
# The search ends at a local maximum

The best sample is never below anything that was probed. A round of the fine pass either finds a better
position, of which there are fewer then, or halves the step; so the search ends on every curve. It ends
after a round with a step of 4 that found nothing better at the distances 2 and 4.
-/

namespace Gts9Wifi.Autofocus

variable {V : Type*} [LinearOrder V]

def InRange (p : Int) : Prop := focusMin ≤ p ∧ p ≤ focusMax

/-- The best sample is one of the scene, and nothing that was probed is better. -/
structure Best (scene : Int → V) (cam : Camera) (best : Sample V) : Prop where
  inRange : InRange best.pos
  fv : best.fv = scene best.pos
  probed : ∀ p ∈ cam.probed, InRange p ∧ scene p ≤ scene best.pos

/-- Nothing better at the distances 2 and 4. -/
def LocalMax (scene : Int → V) (p : Int) : Prop :=
  ∀ q, InRange q → (q - p).natAbs = 2 ∨ (q - p).natAbs = 4 → scene q ≤ scene p

/-! ## Probing -/

theorem setFocus_lens (cam : Camera) {p : Int} (h : InRange p) : (setFocus cam p).lens = p := by
  obtain ⟨hlo, hhi⟩ := h
  simp [setFocus, Int.not_lt.mpr hlo, Int.not_lt.mpr hhi]

/-- What the sweep and the fine pass have in common: the better sample is kept. -/
def keep (scene : Int → V) (acc : Camera × Sample V) (p : Int) : Camera × Sample V :=
  let (cam, s) := probe scene acc.1 p
  (cam, if acc.2.fv < s.fv then s else acc.2)

def probeAll (scene : Int → V) (l : List Int) (acc : Camera × Sample V) : Camera × Sample V :=
  l.foldl (keep scene) acc

theorem mem_positions {lo hi step p : Int} (hs : 0 < step) :
    p ∈ positions lo hi step ↔ ∃ k : Nat, p = lo + step * k ∧ p ≤ hi := by
  simp only [positions, List.mem_map, List.mem_range]
  constructor
  · rintro ⟨k, hk, rfl⟩
    have : (k : Int) ≤ (hi - lo) / step := by omega
    have := (Int.le_ediv_iff_mul_le hs).mp this
    exact ⟨k, rfl, by rw [Int.mul_comm]; omega⟩
  · rintro ⟨k, rfl, hk⟩
    have : (k : Int) ≤ (hi - lo) / step := (Int.le_ediv_iff_mul_le hs).mpr (by rw [Int.mul_comm]; omega)
    exact ⟨k, by omega, rfl⟩

theorem keep_sample (scene : Int → V) (acc : Camera × Sample V) {p : Int} (h : InRange p) :
    (keep scene acc p).2 = if acc.2.fv < scene p then ⟨p, scene p⟩ else acc.2 := by
  simp only [keep, probe, setFocus_lens _ h]

theorem probeAll_probed (scene : Int → V) (l : List Int) (acc : Camera × Sample V) :
    (probeAll scene l acc).1.probed = acc.1.probed ++ l := by
  induction l generalizing acc with
  | nil => simp [probeAll]
  | cons p l ih =>
    rw [probeAll, List.foldl_cons]
    exact (ih _).trans (by simp [keep, probe, setFocus])

/-- The sample that is kept is the old one or one of those probed, and none of them is better. -/
theorem probeAll_sample (scene : Int → V) {l : List Int} (hl : ∀ p ∈ l, InRange p)
    (acc : Camera × Sample V) :
    ((probeAll scene l acc).2 = acc.2 ∨ ∃ p ∈ l, (probeAll scene l acc).2 = ⟨p, scene p⟩)
      ∧ acc.2.fv ≤ (probeAll scene l acc).2.fv
      ∧ ∀ p ∈ l, (scene p : WithBot V) ≤ (probeAll scene l acc).2.fv := by
  induction l generalizing acc with
  | nil => simp [probeAll]
  | cons p l ih =>
    rw [List.forall_mem_cons] at hl
    obtain ⟨hkept, hle, hall⟩ := ih hl.2 (keep scene acc p)
    have hk := keep_sample scene acc hl.1
    change _ ∧ _ ≤ (probeAll scene l (keep scene acc p)).2.fv ∧ _
    by_cases hlt : acc.2.fv < scene p
    · rw [if_pos hlt] at hk
      rw [hk] at hkept hle
      refine ⟨Or.inr ?_, hlt.le.trans hle, List.forall_mem_cons.mpr ⟨hle, hall⟩⟩
      rcases hkept with h | ⟨q, hq, h⟩
      · exact ⟨p, List.mem_cons_self, h⟩
      · exact ⟨q, List.mem_cons_of_mem p hq, h⟩
    · rw [if_neg hlt] at hk
      rw [hk] at hkept hle
      refine ⟨?_, hle, List.forall_mem_cons.mpr ⟨(not_lt.mp hlt).trans hle, hall⟩⟩
      rcases hkept with h | ⟨q, hq, h⟩
      · exact Or.inl h
      · exact Or.inr ⟨q, List.mem_cons_of_mem p hq, h⟩

/-- A loop over positions leaves a best sample, from one or from nothing. -/
theorem best_probeAll {scene : Int → V} {l : List Int} {cam : Camera} {best : Sample V}
    (hl : ∀ p ∈ l, InRange p) (hold : ∀ p ∈ cam.probed, InRange p ∧ (scene p : WithBot V) ≤ best.fv)
    (hbest : InRange best.pos ∧ best.fv = scene best.pos ∨ best.fv = ⊥ ∧ l ≠ []) :
    Best scene (probeAll scene l (cam, best)).1 (probeAll scene l (cam, best)).2 := by
  obtain ⟨hkept, hle, hall⟩ := probeAll_sample scene hl (cam, best)
  have hprobed := probeAll_probed scene l (cam, best)
  generalize probeAll scene l (cam, best) = r at *
  have hr : InRange r.2.pos ∧ r.2.fv = scene r.2.pos := by
    rcases hkept with h | ⟨p, hp, h⟩
    · rw [h]
      rcases hbest with hb | ⟨hb, hne⟩
      · exact hb
      · obtain ⟨p, hp⟩ := List.exists_mem_of_ne_nil l hne
        have := hall p hp
        rw [h, hb] at this
        exact absurd this (WithBot.not_coe_le_bot _)
    · rw [h]
      exact ⟨hl p hp, rfl⟩
  refine ⟨hr.1, hr.2, fun p hp => ?_⟩
  have hp' : InRange p ∧ (scene p : WithBot V) ≤ r.2.fv := by
    rcases List.mem_append.mp (hprobed ▸ hp) with hp | hp
    · exact ⟨(hold p hp).1, (hold p hp).2.trans hle⟩
    · exact ⟨hl p hp, hall p hp⟩
  rw [hr.2] at hp'
  exact ⟨hp'.1, WithBot.coe_le_coe.mp hp'.2⟩

/-! ## The sweep and a round of the fine pass -/

theorem sweep_eq (scene : Int → V) (cam : Camera) :
    ((sweep scene cam).1, (sweep scene cam).2.1)
      = probeAll scene (positions focusMin focusMax 128) (cam, ⟨-1, ⊥⟩) := by
  unfold sweep
  generalize positions focusMin focusMax 128 = l
  generalize (⟨-1, ⊥⟩ : Sample V) = best
  generalize (⊤ : WithTop (WithBot V)) = worst
  induction l generalizing cam best worst with
  | nil => rfl
  | cons p l ih => exact ih _ _ _

theorem best_sweep (scene : Int → V) (lens : Int) :
    Best scene (sweep scene ⟨lens, []⟩).1 (sweep scene ⟨lens, []⟩).2.1 := by
  have h := sweep_eq scene ⟨lens, []⟩
  rw [Prod.ext_iff] at h
  simp only at h
  rw [h.1, h.2]
  apply best_probeAll
  · intro p hp
    obtain ⟨k, rfl, hk⟩ := (mem_positions (by decide)).mp hp
    exact ⟨by unfold focusMin; omega, hk⟩
  · intro p hp
    cases hp
  · exact Or.inr ⟨rfl, by decide⟩

/-- The positions a round looks at. -/
def around (pos step : Int) : List Int :=
  (positions (pos - step) (pos + step) (step / 2)).filter fun p =>
    ¬(p < focusMin ∨ p > focusMax ∨ p = pos)

theorem pass_eq (scene : Int → V) (cam : Camera) (best : Sample V) (step : Int) :
    pass scene cam best step = probeAll scene (around best.pos step) (cam, best) := by
  rw [probeAll, around, List.foldl_filter, pass]
  congr 1
  funext acc p
  by_cases h : p < focusMin ∨ p > focusMax ∨ p = best.pos
  · simp [h]
  · simp [h, keep]

theorem mem_around {pos step p : Int} (hs : 0 < step / 2) :
    p ∈ around pos step ↔
      (∃ k : Nat, p = pos - step + step / 2 * k ∧ p ≤ pos + step) ∧ InRange p ∧ p ≠ pos := by
  rw [around, List.mem_filter, mem_positions hs]
  refine and_congr_right fun _ => ?_
  simp only [decide_eq_true_eq, InRange]
  omega

/-- The round with a step of 4 looks at the distances 2 and 4. -/
theorem mem_around_four {p q : Int} (hq : InRange q) (hd : (q - p).natAbs = 2 ∨ (q - p).natAbs = 4) :
    q ∈ around p 4 := by
  rw [mem_around (by decide)]
  exact ⟨⟨((q - p + 4) / 2).toNat, by omega, by omega⟩, hq, by omega⟩

section Round

variable {scene : Int → V} {cam : Camera} {best : Sample V} {step : Int} (h : Best scene cam best)
  (hs : 0 < step / 2)
include h hs

theorem Best.pass : Best scene (pass scene cam best step).1 (pass scene cam best step).2 := by
  rw [pass_eq]
  apply best_probeAll
  · exact fun p hp => ((mem_around hs).mp hp).2.1
  · intro p hp
    rw [h.fv]
    exact ⟨(h.probed p hp).1, WithBot.coe_le_coe.mpr (h.probed p hp).2⟩
  · exact Or.inl ⟨h.inRange, h.fv⟩

/-- A round without a better sample shows that there is none where it looked. -/
theorem Best.around_le (hno : ¬best.fv < (Autofocus.pass scene cam best step).2.fv) {p : Int}
    (hp : p ∈ around best.pos step) : scene p ≤ scene best.pos := by
  have hall := (probeAll_sample scene (fun p hp => ((mem_around hs).mp hp).2.1) (cam, best)).2.2 p hp
  rw [← pass_eq] at hall
  have := hall.trans (not_lt.mp hno)
  rw [h.fv] at this
  exact WithBot.coe_le_coe.mp this

theorem Best.pass_stays (hno : ¬best.fv < (Autofocus.pass scene cam best step).2.fv) :
    Best scene (Autofocus.pass scene cam best step).1 best := by
  refine ⟨h.inRange, h.fv, fun p hp => ?_⟩
  rw [pass_eq, probeAll_probed] at hp
  rcases List.mem_append.mp hp with hp | hp
  · exact h.probed p hp
  · exact ⟨((mem_around hs).mp hp).2.1, h.around_le hs hno hp⟩

end Round

/-! ## The fine pass -/

/-- The positions that are better. -/
noncomputable def better (scene : Int → V) (p : Int) : Finset Int :=
  {q ∈ Finset.Icc focusMin focusMax | scene p < scene q}

theorem card_better_lt {scene : Int → V} {p q : Int} (hq : InRange q) (h : scene p < scene q) :
    (better scene q).card < (better scene p).card := by
  apply Finset.card_lt_card
  rw [Finset.ssubset_iff_of_subset]
  · exact ⟨q, by simp [better, hq.1, hq.2, h], by simp [better]⟩
  · intro r hr
    simp only [better, Finset.mem_filter] at hr ⊢
    exact ⟨hr.1, h.trans hr.2⟩

theorem card_better_le (scene : Int → V) (p : Int) : (better scene p).card ≤ 1024 :=
  (Finset.card_filter_le _ _).trans (by simp [focusMin, focusMax])

section FinePass

variable (scene : Int → V) (fuel : Nat) (cam : Camera) (best : Sample V) {step : Int}

theorem finePass_done (h : step < 4) : finePass scene fuel cam best step = some (cam, best) := by
  cases fuel <;> simp [finePass, h]

theorem finePass_round (h : ¬step < 4) :
    finePass scene (fuel + 1) cam best step
      = if best.fv < (pass scene cam best step).2.fv then
          finePass scene fuel (pass scene cam best step).1 (pass scene cam best step).2 step
        else finePass scene fuel (pass scene cam best step).1 best (step / 2) := by
  rw [finePass, if_neg h]

end FinePass

/-- The steps are powers of two, so 4 is the last but one. -/
theorem half_step {step : Int} (h : ∃ k : Nat, step = 2 ^ (k + 1)) (h4 : ¬step < 4) :
    (∃ k : Nat, step / 2 = 2 ^ (k + 1)) ∧ (step / 2 < 4 → step = 4) := by
  obtain ⟨k, rfl⟩ := h
  cases k with
  | zero => simp at h4
  | succ k =>
    have hhalf : (2 : Int) ^ (k + 1 + 1) / 2 = 2 ^ (k + 1) := by
      rw [Int.pow_succ]
      omega
    refine ⟨⟨k, hhalf⟩, fun hlt => ?_⟩
    cases k with
    | zero => rfl
    | succ k =>
      have : (0 : Int) < 2 ^ k := Int.pow_pos (by decide)
      rw [hhalf, Int.pow_succ, Int.pow_succ] at hlt
      omega

/-- A round makes fewer positions better or the step smaller; so there is an end, however much fuel there
is beyond it. -/
theorem finePass_ends {scene : Int → V} (n : Nat) {cam : Camera} {best : Sample V} {step : Int}
    (hn : (better scene best.pos).card + step.toNat ≤ n) (h : Best scene cam best)
    (hstep : ∃ k : Nat, step = 2 ^ (k + 1)) (hloc : step < 4 → LocalMax scene best.pos) :
    ∃ r, (∀ fuel, n ≤ fuel → finePass scene fuel cam best step = some r) ∧ Best scene r.1 r.2
      ∧ LocalMax scene r.2.pos := by
  have hpos : 0 < step := by
    obtain ⟨k, rfl⟩ := hstep
    exact Int.pow_pos (by decide)
  induction n generalizing cam best step with
  | zero => omega
  | succ n ih =>
    by_cases hlt : step < 4
    · exact ⟨(cam, best), fun fuel _ => finePass_done scene fuel cam best hlt, h, hloc hlt⟩
    · have hs : 0 < step / 2 := by omega
      by_cases hbetter : best.fv < (pass scene cam best step).2.fv
      · have hnew := h.pass hs
        have hval : scene best.pos < scene (pass scene cam best step).2.pos := by
          rw [h.fv, hnew.fv] at hbetter
          exact WithBot.coe_lt_coe.mp hbetter
        have hcard := card_better_lt hnew.inRange hval
        obtain ⟨r, hr, hend⟩ := ih (by omega) hnew hstep (fun hl => absurd hl hlt) hpos
        refine ⟨r, fun fuel hfuel => ?_, hend⟩
        obtain ⟨fuel, rfl⟩ : ∃ f, fuel = f + 1 := ⟨fuel - 1, by omega⟩
        rw [finePass_round scene fuel cam best hlt, if_pos hbetter]
        exact hr fuel (by omega)
      · obtain ⟨hstep', hfour⟩ := half_step hstep hlt
        have hloc' : step / 2 < 4 → LocalMax scene best.pos := by
          intro hl q hq hd
          apply h.around_le hs hbetter
          rw [hfour hl]
          exact mem_around_four hq hd
        obtain ⟨r, hr, hend⟩ := ih (by omega) (h.pass_stays hs hbetter) hstep' hloc' hs
        refine ⟨r, fun fuel hfuel => ?_, hend⟩
        obtain ⟨fuel, rfl⟩ : ∃ f, fuel = f + 1 := ⟨fuel - 1, by omega⟩
        rw [finePass_round scene fuel cam best hlt, if_neg hbetter]
        exact hr fuel (by omega)

/-! ## The result -/

/-- **The search ends, probes positions of the lens only, and leaves the lens where nothing that was
probed, and nothing at the distances 2 and 4, is better.** -/
theorem search_localMax (flat : WithBot V → WithTop (WithBot V) → Bool) (scene : Int → V) (lens : Int)
    (h : ¬flat (sweep scene ⟨lens, []⟩).2.1.fv (sweep scene ⟨lens, []⟩).2.2) :
    ∃ cam, (∀ fuel, 1152 ≤ fuel → search flat scene fuel ⟨lens, []⟩ = some cam)
      ∧ InRange cam.lens ∧ (∀ p ∈ cam.probed, InRange p ∧ scene p ≤ scene cam.lens)
      ∧ LocalMax scene cam.lens := by
  have hn : (better scene (sweep scene ⟨lens, []⟩).2.1.pos).card + (128 : Int).toNat ≤ 1152 := by
    have := card_better_le scene (sweep scene ⟨lens, []⟩).2.1.pos
    omega
  obtain ⟨r, hr, hbest, hloc⟩ :=
    finePass_ends 1152 hn (best_sweep scene lens) ⟨6, by decide⟩ (fun hlt => absurd hlt (by decide))
  have hlens : (setFocus r.1 r.2.pos).lens = r.2.pos := setFocus_lens r.1 hbest.inRange
  refine ⟨setFocus r.1 r.2.pos, fun fuel hfuel => ?_, ?_, ?_, ?_⟩
  · simp only [search, if_neg h, hr fuel hfuel, Option.map_some]
  · rw [hlens]
    exact hbest.inRange
  · rw [hlens]
    exact hbest.probed
  · rw [hlens]
    exact hloc

/-- `best.fv / worst < 1.05` of whole numbers. -/
def spreadBelow : WithBot Nat → WithTop (WithBot Nat) → Bool
  | some best, some (some worst) => best * 100 < worst * 105
  | _, _ => true

/-- A curve with its peak at 300. -/
def peak (p : Int) : Nat := 1000 - (p - 300).natAbs

theorem search_peak :
    ¬spreadBelow (sweep peak ⟨0, []⟩).2.1.fv (sweep peak ⟨0, []⟩).2.2
      ∧ ∃ cam, (∀ fuel, 1152 ≤ fuel → search spreadBelow peak fuel ⟨0, []⟩ = some cam)
        ∧ InRange cam.lens ∧ (∀ p ∈ cam.probed, InRange p ∧ peak p ≤ peak cam.lens)
        ∧ LocalMax peak cam.lens := by
  have h : ¬spreadBelow (sweep peak ⟨0, []⟩).2.1.fv (sweep peak ⟨0, []⟩).2.2 := by decide
  exact ⟨h, search_localMax spreadBelow peak 0 h⟩

end Gts9Wifi.Autofocus
