import Gts9Wifi.Charger.Verify.Pps

/-!
# The walk for the current

`sm5440_negotiate_pps` finds out what current the source grants by asking for less and less, from
`max_pps_ma` down in steps of 250 mA. What it asks for last depends on where it started, and need not
be the minimum: a source that grants the minimum, but not that, is treated as one without PPS.
-/

namespace Gts9Wifi.Charger.Sm5440

open Driver

/-! ## Vocabulary -/

/-- The source takes currents up to the limit, in mA, refuses those above, and takes any voltage. -/
structure Grants (limit : Nat) (e : Event board) : Prop where
  current : ∀ ma : Nat, e.op = .psySet .currentNow (ma * 1000 : Nat) →
    e.input.fault = if ma ≤ limit then none else some .einval
  voltage : ∀ uv, e.op = .psySet .voltageNow uv → e.input.fault = none

/-- Asks for `ONLINE`. -/
def AsksOnline (v : Int) (e : Event board) : Prop := e.op = .psySet .online v

/-- The port is asked for its fixed contract, and has it if it accepts. -/
structure FixedAgain (tr : List (Event board)) (s : State) : Prop where
  asked : ∃ e ∈ tr, AsksOnline 1 e
  accepted : (∃ e ∈ tr, AsksOnline 1 e ∧ e.input.fault = none) → s.tcpm.online = 1

/-- Where the walk starts: `clamp_val(max_pps_ma, SM5440_MIN_PPS_MA, SM5440_PPS_CAP_MA)`. -/
def walkStart (m : Mem) : Nat := min (max m.maxPpsMa minPpsMa) ppsCapMa

/-- The last current of the walk. -/
def walkEnd (m : Mem) : Nat := minPpsMa + (walkStart m - minPpsMa) % ppsStepMa

/-- A current within a step of the limit is chosen, or the port is returned to its fixed contract. -/
structure FindsLimit (limit start : Nat) (r : Except Errno (Nat × Nat)) (tr : List (Event board))
    (s : State) : Prop where
  found : minPpsMa ≤ limit → ∃ ma mv, r = .ok (ma, mv) ∧ minPpsMa ≤ ma ∧ ma ≤ min limit start ∧
    min limit start < ma + ppsStepMa
  fixed : limit < minPpsMa → (∃ e, r = .error e) ∧ FixedAgain tr s

/-! ## The walk -/

/-- The current that the walk ends with. -/
def walkFrom (limit : Nat) : Nat → Nat → Option Nat
  | 0, _ => none
  | n + 1, ma => if ma ≤ limit then some ma else walkFrom limit n (ma - ppsStepMa)

/-- On the grid above `low`, the walk stops at the largest current within the limit. -/
theorem walkFrom_grid (limit low n : Nat) : walkFrom limit (n + 1) (low + ppsStepMa * n) =
    if low ≤ limit then some (low + ppsStepMa * min n ((limit - low) / ppsStepMa)) else none := by
  induction n with
  | zero => simp [walkFrom]
  | succ n ih =>
    rw [walkFrom]
    have hprev : low + ppsStepMa * (n + 1) - ppsStepMa = low + ppsStepMa * n := by
      rw [Nat.mul_succ]
      omega
    rw [hprev, ih]
    unfold ppsStepMa
    by_cases hall : low + 250 * (n + 1) ≤ limit
    · rw [if_pos hall, if_pos (by omega), Nat.min_eq_left (by omega)]
    · rw [if_neg hall]
      by_cases hlow : low ≤ limit
      · rw [if_pos hlow, if_pos hlow, Nat.min_eq_right (by omega : (limit - low) / 250 ≤ n),
          Nat.min_eq_right (by omega)]
      · rw [if_neg hlow, if_neg hlow]

theorem walkFrom_walkStart (limit : Nat) (m : Mem) :
    walkFrom limit ((walkStart m - minPpsMa) / ppsStepMa + 1) (walkStart m) =
      if walkEnd m ≤ limit then some (walkEnd m + ppsStepMa *
        min ((walkStart m - minPpsMa) / ppsStepMa) ((limit - walkEnd m) / ppsStepMa)) else none := by
  rw [← walkFrom_grid]
  congr 1
  unfold walkEnd walkStart
  simp only [minPpsMa, ppsCapMa, ppsStepMa]
  omega

/-! ## What the source answers -/

/-- Records all operations. -/
abbrev recorder : Monitor board := Monitor.history fun _ _ => True

/-- Operations that do not ask for `ONLINE` have been recorded. -/
def OtherThanOnline (h h' : List (Event board)) : Prop :=
  ∃ new, h' = h ++ new ∧ ∀ e ∈ new, ∀ v, ¬ AsksOnline v e

theorem OtherThanOnline.trans {h₁ h₂ h₃ : List (Event board)} (h12 : OtherThanOnline h₁ h₂)
    (h23 : OtherThanOnline h₂ h₃) : OtherThanOnline h₁ h₃ := by
  obtain ⟨new, rfl, hnew⟩ := h12
  obtain ⟨new', rfl, hnew'⟩ := h23
  refine ⟨new ++ new', List.append_assoc h₁ new new', fun e he => ?_⟩
  rcases List.mem_append.1 he with he | he
  · exact hnew e he
  · exact hnew' e he

section

variable {A : Event board → Prop} {limit : Nat} {h : List (Event board)} {s : State}

/-- What was recorded while a property was asked for: once it is accepted, the port has it. -/
structure Asked (prop : PsyProp) (v : Int) (new : List (Event board)) (s : State)
    (r : Except Errno Unit) (s' : State) : Prop where
  only : ∀ e ∈ new, e.op = .psySet prop v
  accepted : (∃ e ∈ new, e.input.fault = none) → r = .ok () ∧ s'.tcpm = (s.setTcpm prop v).tcpm
  mem : s'.mem = s.mem

theorem psyAttempts_asked (prop : PsyProp) (v : Int) (n : Nat) :
    wp A recorder (psyAttempts prop v n).run (fun r h' s' =>
      ∃ new, h' = h ++ new ∧ (0 < n → new ≠ []) ∧ Asked prop v new s r s') h s := by
  induction n generalizing h s with
  | zero => exact ⟨[], (List.append_nil h).symm, by simp, by simp, by simp, rfl⟩
  | succ n ih =>
    unfold psyAttempts
    rw [wp_run_bind, wp_run_attempt]
    refine (wp_perform _ _ _ _).2 fun i _ => ⟨trivial, ?_⟩
    cases hf : i.fault with
    | none =>
      simp only [handle, answer_none hf, apply_none hf]
      refine ⟨[⟨.psySet prop v, i, s⟩], rfl, by simp, by simp, fun _ => ⟨rfl, ?_⟩, ?_⟩
      · exact settle_setTcpm s i prop v
      · exact setTcpm_mem (s.settle i) prop v
    | some e =>
      simp only [handle, answer_some hf, apply_some hf]
      split
      · refine wp_mono ih ?_
        rintro r h' s' ⟨new, rfl, -, honly, hacc, hmem⟩
        refine ⟨⟨.psySet prop v, i, s⟩ :: new, by simp, by simp, by simpa using honly,
          fun hsome => ?_, hmem⟩
        obtain ⟨e', he', hnone⟩ := hsome
        rcases List.mem_cons.1 he' with rfl | he'
        · exact absurd (hf.symm.trans hnone) (by simp)
        · obtain ⟨hr, htcpm⟩ := hacc ⟨e', he', hnone⟩
          exact ⟨hr, htcpm.trans (settle_setTcpm s i prop v)⟩
      · exact ⟨[⟨.psySet prop v, i, s⟩], rfl, by simp, by simp, by simp [hf], rfl⟩

/-- A request whose answer is known, and is not `-EAGAIN`, is made once. -/
theorem psyAttempts_answered {prop : PsyProp} {v : Int} {f : Option Errno}
    (hA : ∀ i s, A ⟨.psySet prop v, i, s⟩ → i.fault = f) (hf : f ≠ some .eagain)
    (hprop : prop ≠ .online) (n : Nat) :
    wp A recorder (psyAttempts prop v (n + 1)).run (fun r h' _ =>
      r = f.elim (.ok ()) .error ∧ OtherThanOnline h h') h s := by
  unfold psyAttempts
  rw [wp_run_bind, wp_run_attempt]
  refine (wp_perform _ _ _ _).2 fun i hi => ⟨trivial, ?_⟩
  have hother : OtherThanOnline h (h ++ [⟨.psySet prop v, i, s⟩]) := by
    refine ⟨_, rfl, ?_⟩
    simp [AsksOnline, hprop]
  cases f with
  | none =>
    simp only [handle, answer_none (hA i s hi)]
    exact ⟨rfl, hother⟩
  | some e =>
    simp only [handle, answer_some (hA i s hi)]
    rw [if_neg fun he => hf (congrArg some he)]
    exact ⟨rfl, hother⟩

theorem walkCurrent_walkFrom (n ma : Nat) :
    wp (Grants limit) recorder (walkCurrent n ma).run (fun r h' _ =>
      r = (walkFrom limit n ma).elim (.error .einval) .ok ∧ OtherThanOnline h h') h s := by
  induction n generalizing h s ma with
  | zero => exact ⟨rfl, [], (List.append_nil h).symm, by simp⟩
  | succ n ih =>
    rw [walkCurrent, walkFrom]
    have hanswer : ∀ i s, Grants limit ⟨.psySet .currentNow (ma * 1000 : Nat), i, s⟩ →
        i.fault = if ma ≤ limit then none else some .einval :=
      fun i s hg => hg.current ma rfl
    by_cases hle : ma ≤ limit
    · simp only [hle, if_true] at hanswer ⊢
      apply wp_run_attempt_seq (psyAttempts_answered hanswer (by simp) (by simp) 4)
      rintro _ h₁ s₁ ⟨rfl, h1⟩
      exact ⟨rfl, h1⟩
    · simp only [hle, if_false] at hanswer ⊢
      apply wp_run_attempt_seq (psyAttempts_answered hanswer (by decide) (by simp) 4)
      rintro _ h₁ s₁ ⟨rfl, h1⟩
      simp only [Option.elim, if_true]
      refine wp_mono (ih _) ?_
      rintro r h' s' ⟨hr, h2⟩
      exact ⟨hr, h1.trans h2⟩

/-- The fixed contract is asked for after operations that did not ask for it. -/
theorem Asked.fixedAgain {new : List (Event board)} {r : Except Errno Unit} {s' : State}
    (hasked : Asked .online 1 new s r s') (hne : new ≠ []) (hbefore : ∀ e ∈ h, ¬ AsksOnline 1 e) :
    FixedAgain (h ++ new) s' where
  asked := by
    obtain ⟨e, he⟩ := List.exists_mem_of_ne_nil new hne
    exact ⟨e, List.mem_append_right h he, hasked.only e he⟩
  accepted := by
    rintro ⟨e, he, hone, hnone⟩
    rcases List.mem_append.1 he with he | he
    · exact absurd hone (hbefore e he)
    · rw [(hasked.accepted ⟨e, he, hnone⟩).2]
      rfl

/-- The point for the current that the walk ends with. -/
theorem grantPoint_walkFrom (ma vbatUv : Nat) :
    wp (Grants limit) recorder (do
      let targetMa ← grantCurrent ma
      let targetMv := ppsTargetMv targetMa vbatUv
      psyRetry .voltageNow (targetMv * 1000 : Nat)
      return (targetMa, targetMv) : Fallible (Nat × Nat)).run (fun r h' _ =>
        r = (walkFrom limit ((ma - minPpsMa) / ppsStepMa + 1) ma).elim (.error .einval)
          (fun c => .ok (c, ppsTargetMv c vbatUv)) ∧ OtherThanOnline h h') h s := by
  unfold grantCurrent
  rw [wp_run_bind]
  refine wp_mono (walkCurrent_walkFrom _ _) ?_
  rintro _ h₁ s₁ ⟨rfl, h1⟩
  cases walkFrom limit ((ma - minPpsMa) / ppsStepMa + 1) ma with
  | none => exact ⟨rfl, h1⟩
  | some c =>
    simp only [Option.elim]
    rw [wp_run_bind]
    refine wp_mono (psyAttempts_answered (fun i s hg => hg.voltage _ rfl) (by simp) (by simp) 4) ?_
    rintro _ h₂ s₂ ⟨rfl, h2⟩
    exact ⟨rfl, h1.trans h2⟩

/-- Where the walk ends decides what `sm5440_negotiate_pps` returns. -/
theorem negotiatePps_walk (vbatUv : Nat) :
    wp (Grants limit) recorder (negotiatePps vbatUv).run (fun r tr s' =>
      (∃ e ∈ tr, AsksOnline 2 e ∧ e.input.fault = none) →
        match walkFrom limit ((walkStart s.mem - minPpsMa) / ppsStepMa + 1) (walkStart s.mem) with
        | some ma => r = .ok (ma, ppsTargetMv ma vbatUv)
        | none => r = .error .einval ∧ FixedAgain tr s') [] s := by
  unfold negotiatePps
  rw [wp_run_bind, wp_run_lift]
  refine (wp_perform _ _ _ _).2 fun i _ => ⟨trivial, ?_⟩
  apply wp_run_seq (psyAttempts_asked .online 2 pdRetries)
  · -- `ONLINE` = 2 was not accepted
    rintro e _ s₁ ⟨new, rfl, -, hnew⟩ ⟨e', he', htwo, hnone⟩
    rcases List.mem_append.1 he' with he' | he'
    · simp only [List.nil_append, List.mem_singleton] at he'
      rw [he'] at htwo
      exact absurd htwo (by simp [AsksOnline])
    · exact absurd (hnew.accepted ⟨e', he', hnone⟩).1 (by simp)
  rintro _ _ s₁ ⟨new, rfl, -, hnew⟩
  apply wp_run_attempt_seq (grantPoint_walkFrom (walkStart s.mem) vbatUv)
  rintro _ _ s₂ ⟨rfl, walked, rfl, hwalked⟩
  cases walkFrom limit ((walkStart s.mem - minPpsMa) / ppsStepMa + 1) (walkStart s.mem) with
  | some ma => exact fun _ => rfl
  | none =>
    have hbefore : ∀ e ∈ [⟨.load, i, s⟩] ++ new ++ walked, ¬ AsksOnline 1 e := by
      intro e he hone
      simp only [List.mem_append, List.mem_singleton] at he
      rcases he with (rfl | he) | he
      · exact absurd hone (by simp [AsksOnline])
      · exact absurd ((hnew.only e he).symm.trans hone) (by simp)
      · exact hwalked e he 1 hone
    simp only [Option.elim]
    apply wp_run_attempt_seq (psyAttempts_asked .online 1 pdRetries)
    rintro r _ s₃ ⟨new', rfl, hne, hnew'⟩
    exact fun _ => ⟨rfl, hnew'.fixedAgain (hne (by decide)) hbefore⟩

end

/-- **The walk finds the limit of the source** precisely if the last current it asks for is within it.
Otherwise, although the limit is not below the minimum, the source is treated as one without PPS. -/
theorem negotiatePps_finds_limit_iff (limit vbatUv : Nat) (ι : Nat → Input) (s : State)
    (hsource : ∀ e ∈ (negotiatePps vbatUv).run.trace board ι s, Grants limit e)
    (honline : ∃ e ∈ (negotiatePps vbatUv).run.trace board ι s, AsksOnline 2 e ∧ e.input.fault = none) :
    FindsLimit limit (walkStart s.mem) ((negotiatePps vbatUv).run.run board ι s).1
        ((negotiatePps vbatUv).run.trace board ι s) ((negotiatePps vbatUv).run.run board ι s).2 ↔
      limit < minPpsMa ∨ walkEnd s.mem ≤ limit := by
  have hspec := (wp_sound (negotiatePps_walk (s := s) vbatUv) ι hsource).2
  rw [Monitor.after_history, List.nil_append] at hspec
  have hret := hspec honline
  have hlow : minPpsMa ≤ walkEnd s.mem := Nat.le_add_right _ _
  have hstart : walkEnd s.mem + ppsStepMa * ((walkStart s.mem - minPpsMa) / ppsStepMa) =
      walkStart s.mem := by
    unfold walkEnd walkStart
    simp only [minPpsMa, ppsCapMa, ppsStepMa]
    omega
  rw [walkFrom_walkStart] at hret
  by_cases hend : walkEnd s.mem ≤ limit
  · rw [if_pos hend] at hret
    refine iff_of_true ⟨fun _ => ⟨_, _, hret, ?_⟩, fun hlt => ?_⟩ (.inr hend)
    · unfold ppsStepMa at *
      omega
    · omega
  · rw [if_neg hend] at hret
    constructor
    · intro hfinds
      by_contra hnot
      obtain ⟨ma, mv, hok, -⟩ := hfinds.found (by omega)
      rw [hret.1] at hok
      cases hok
    · intro hlimit
      have hlt : limit < minPpsMa := by omega
      exact ⟨fun hle => by omega, fun _ => ⟨⟨_, hret.1⟩, hret.2⟩⟩

/-- A source that refuses the first `n` currents it is asked for, the board being as probed. -/
def refusing (n : Nat) : Nat → Input := fun k =>
  if 2 ≤ k ∧ k < n + 2 then { fault := some .einval } else {}

/-- Decides for one operation whether the source has this limit. -/
def consistent (limit : Nat) (e : Event board) : Bool :=
  match e.op with
  | .psySet .currentNow ua => decide (e.input.fault = if ua ≤ limit * 1000 then none else some .einval)
  | .psySet .voltageNow _ => decide (e.input.fault = none)
  | _ => true

theorem grants_of_consistent {limit : Nat} {e : Event board} (h : consistent limit e = true) :
    Grants limit e := by
  obtain ⟨o, i, s⟩ := e
  constructor
  · rintro ma ho
    dsimp only at ho
    subst ho
    have hfault : i.fault = if ((ma * 1000 : Nat) : Int) ≤ limit * 1000 then none else some .einval := by
      simpa [consistent] using h
    rw [hfault]
    congr 1
    refine propext ?_
    omega
  · rintro uv ho
    dsimp only at ho
    subst ho
    simpa [consistent] using h

/-- A source that grants 2300 mA: the walk from 3000 mA ends at 2250 mA. -/
theorem finds_2300 :
    FindsLimit 2300 3000 ((negotiatePps 3800000).run.run board (refusing 3) .probed).1
      ((negotiatePps 3800000).run.trace board (refusing 3) .probed)
      ((negotiatePps 3800000).run.run board (refusing 3) .probed).2 := by
  have hall : ∀ e ∈ (negotiatePps 3800000).run.trace board (refusing 3) .probed,
      consistent 2300 e = true := of_decide_eq_true rfl
  refine (negotiatePps_finds_limit_iff 2300 3800000 (refusing 3) .probed
    (fun e he => grants_of_consistent (hall e he)) ?_).2 (.inr (by decide))
  exact ⟨_, List.mem_cons_of_mem _ List.mem_cons_self, rfl, rfl⟩

/-- A source that grants 1900 mA: 2000 mA is the last current it is asked for. -/
theorem misses_1900 :
    (∀ e ∈ (negotiatePps 3800000).run.trace board (refusing 5) .probed, Grants 1900 e) ∧
      (∃ e ∈ (negotiatePps 3800000).run.trace board (refusing 5) .probed,
        AsksOnline 2 e ∧ e.input.fault = none) ∧
      ¬ FindsLimit 1900 3000 ((negotiatePps 3800000).run.run board (refusing 5) .probed).1
        ((negotiatePps 3800000).run.trace board (refusing 5) .probed)
        ((negotiatePps 3800000).run.run board (refusing 5) .probed).2 := by
  have hall : ∀ e ∈ (negotiatePps 3800000).run.trace board (refusing 5) .probed,
      consistent 1900 e = true := of_decide_eq_true rfl
  refine ⟨fun e he => grants_of_consistent (hall e he), ?_, fun hfinds => ?_⟩
  · exact ⟨_, List.mem_cons_of_mem _ List.mem_cons_self, rfl, rfl⟩
  · obtain ⟨ma, mv, hok, -⟩ := hfinds.found (by decide)
    have herr : ((negotiatePps 3800000).run.run board (refusing 5) .probed).1 = .error .einval := rfl
    rw [herr] at hok
    cases hok

end Gts9Wifi.Charger.Sm5440
