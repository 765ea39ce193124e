import Gts9Wifi.Charger.Verify.Sections
import Gts9Wifi.Lib.Runs

/-!
# The poll and the thermal cut-off

What one `sm5714_poll_work` does when no register access fails and the boost is off: `Polled` tells
apart the poll that sees no cable, the poll whose sample does not move the thermal state, and the
poll that re-programs the charger.

A poll that moves the state to `STOP` opens Q4. A poll that finds the state at `STOP` already takes
Q4 for open, so a write that was lost when the state moved is never made up for. No other access than
those on the way to that write can leave such a state (`polls_never_stuck`).

The bands themselves have a law (`Hysteresis`), which a sample of 42.0 C sharp breaks.
-/

namespace Gts9Wifi.Charger.Sm5714

open Driver

/-- What a poll between `s` and `s'` did, with the samples it took. -/
inductive Polled (s s' : State) : List Int → Prop
  | offline (hthermal : s'.mem.bat.thermalState = s.mem.bat.thermalState)
      (hq4 : q4Closed s' → q4Closed s) : Polled s s' []
  | kept (t : Int) (ht : chargeThermalState s.mem.bat.thermalState t = s.mem.bat.thermalState)
      (hthermal : s'.mem.bat.thermalState = s.mem.bat.thermalState)
      (hq4 : q4Closed s' ↔ q4Closed s) : Polled s s' [t]
  | reprogrammed (t : Int) (l : List Int)
      (ht : chargeThermalState s.mem.bat.thermalState t = s.mem.bat.thermalState →
        s.mem.bat.thermalState ≠ .stop ∧ s.mem.bat.directCharging = false)
      (hthermal : s'.mem.bat.thermalState = thermalAfter (t :: l) s.mem.bat.thermalState)
      (hq4 : q4Closed s' ↔ thermalAfter (t :: l) s.mem.bat.thermalState ≠ .stop) :
      Polled s s' (t :: l)

theorem thermalAfter_append (l l' : List Int) (t : ThermalState) :
    thermalAfter (l ++ l') t = thermalAfter l' (thermalAfter l t) :=
  List.foldl_append

/-! ## The hysteresis -/

/-- The thermal state after one more sample. -/
def thermalStep (temp : Int) (old : ThermalState) : ThermalState := chargeThermalState old temp

/-- The law of the three bands, for a sample that meets the state `old`. -/
structure Hysteresis (temp : Int) (old : ThermalState) : Prop where
  recovers : old ≠ .normal → thermalStep temp old = .normal → temp < 420
  stops : thermalStep temp old = .stop ↔ 500 ≤ temp ∨ old = .stop ∧ 460 ≤ temp
  leaves : old = .normal → thermalStep temp old ≠ .normal → 460 ≤ temp

/-- Full current returns at 42.0 C already. -/
theorem thermalStep_normal_iff (temp : Int) (old : ThermalState) :
    thermalStep temp old = .normal ↔ temp < 460 ∧ (old ≠ .normal → temp ≤ 420) := by
  unfold thermalStep chargeThermalState
  cases old <;> simp only [reduceCtorEq, false_and, true_and, if_false, ne_eq, not_true_eq_false,
    not_false_eq_true, false_imp_iff, true_imp_iff, and_true]
  all_goals
    split_ifs <;> simp <;> omega

theorem thermalStep_stop_iff (temp : Int) (old : ThermalState) :
    thermalStep temp old = .stop ↔ 500 ≤ temp ∨ old = .stop ∧ 460 ≤ temp := by
  unfold thermalStep chargeThermalState
  cases old <;> simp only [reduceCtorEq, false_and, true_and, if_false, or_false]
  all_goals
    split_ifs <;> simp <;> omega

theorem hysteresis_iff (temp : Int) (old : ThermalState) :
    Hysteresis temp old ↔ (old ≠ .normal → temp ≠ 420) := by
  constructor
  · rintro h hold rfl
    have := h.recovers hold ((thermalStep_normal_iff _ _).2 ⟨by decide, fun _ => Int.le_refl _⟩)
    omega
  · intro h
    refine ⟨fun hold hn => ?_, thermalStep_stop_iff temp old, fun hold hn => ?_⟩
    · have := ((thermalStep_normal_iff _ _).1 hn).2 hold
      have := h hold
      omega
    · by_contra hlt
      exact hn ((thermalStep_normal_iff _ _).2 ⟨by omega, fun hne => absurd hold hne⟩)

/-- **Every sample of a sequence meets the law of the bands precisely when none is 42.0 C sharp while
charging is reduced or stopped.** -/
theorem hysteresis_along_iff (temps : List Int) (t : ThermalState) :
    Meets thermalStep Hysteresis temps t ↔
      Meets thermalStep (fun temp old => old ≠ .normal → temp ≠ 420) temps t :=
  meets_congr hysteresis_iff temps t

/-- Charging is reduced at 47.0 C, and full current is back at 42.0 C sharp. -/
theorem full_current_at_42 : ¬ Meets thermalStep Hysteresis [470, 420] .normal := by
  intro h
  have := h.2.1.recovers (by decide) (by decide)
  omega

/-! ## The parts of a poll -/

section

variable {A : Event board → Prop} {m : List Int} {s : State}

/-- Without a failing access a sample is always taken. -/
theorem pollSample_spec (hA : ¬ Faulty A) :
    wp A sampleMonitor pollSample.seq (fun _ m' s' => ∃ t, m' = m ++ [t] ∧
      s' = s.setMem (Battery.setThermal (chargeThermalState s.mem.bat.thermalState t))) m s := by
  unfold pollSample
  apply Thread.wp_seq_interruptible getTemp_spec
  intro r _ _ hpost
  obtain ⟨⟨rfl, rfl⟩, hfail⟩ := hpost
  cases r with
  | error e => exact absurd (hfail rfl) hA
  | ok t =>
    apply wp_thread_load
    rw [Thread.seq_interruptible]
    exact wp_store ⟨t, rfl, rfl⟩

theorem configureCharging_ok (hA : ¬ Faulty A) (hotg : s.mem.bat.otgActive = false) :
    wp A sampleMonitor configureCharging.run
      (fun r m' s' => r = .ok () ∧ ∃ l, m' = m ++ l ∧ Configured s s' l) m s := by
  refine wp_mono configureCharging_spec ?_
  intro r m' s' h
  cases r with
  | ok _ => exact ⟨rfl, h⟩
  | error e =>
    rcases h with h | h
    · exact absurd (hotg.symm.trans h) Bool.false_ne_true
    · exact absurd h hA

/-- The thermal part of a poll that sees a cable: the sample leaves everything as it is, or the
charger is programmed for the new state. -/
theorem pollThermal_spec (hA : ¬ Faulty A) (hotg : s.mem.bat.otgActive = false)
    (status : Except Errno PsyStatus) :
    wp A sampleMonitor (pollThermal true status).seq (fun _ m' s' => ∃ t l, m' = m ++ t :: l ∧
      (chargeThermalState s.mem.bat.thermalState t = s.mem.bat.thermalState ∧ l = [] ∧ s' = s ∨
        chargeThermalState s.mem.bat.thermalState t ≠ s.mem.bat.thermalState ∧
          Configured (s.setMem (Battery.setThermal (chargeThermalState s.mem.bat.thermalState t)))
            s' l)) m s := by
  unfold pollThermal
  simp only [not_true_eq_false, ↓reduceIte]
  apply wp_thread_load
  apply Thread.wp_seq_bind (pollSample_spec hA)
  intro _ _ _ hpost
  obtain ⟨t, rfl, rfl⟩ := hpost
  apply wp_thread_load
  split
  · next hkept =>
    have hkept' : chargeThermalState s.mem.bat.thermalState t = s.mem.bat.thermalState := hkept
    refine ⟨t, [], rfl, .inl ⟨hkept', rfl, ?_⟩⟩
    rw [hkept']
    rfl
  next hmoved =>
  refine Thread.wp_seq_atomic (configureCharging_ok hA hotg) ?_
  intro _ _ s' hpost
  obtain ⟨-, l, rfl, hc⟩ := hpost
  rw [Thread.seq_interruptible]
  refine wp_mono (wp_quiet getStatus_quiet) ?_
  rintro _ _ _ ⟨rfl, rfl⟩
  refine ⟨t, l, ?_, .inr ⟨hmoved, hc⟩⟩
  rw [List.append_assoc]
  rfl

theorem pollMustRecover_spec (online : Bool) (status : Except Errno PsyStatus) :
    wp A sampleMonitor (pollMustRecover online status).seq (fun r m' s' => (m' = m ∧ s' = s) ∧
      (r = true → online = true ∧ s.mem.bat.directCharging = false ∧
        s.mem.bat.thermalState ≠ .stop)) m s := by
  unfold pollMustRecover
  refine Thread.wp_seq_ite (fun _ => ⟨⟨rfl, rfl⟩, fun h => nomatch h⟩) fun hon => ?_
  apply wp_thread_load
  refine Thread.wp_seq_ite (fun _ => ⟨⟨rfl, rfl⟩, fun h => nomatch h⟩) fun hdirect => ?_
  refine Thread.wp_seq_ite (fun _ => ⟨⟨rfl, rfl⟩, fun h => nomatch h⟩) fun _ => ?_
  apply wp_thread_load
  refine Thread.wp_seq_ite (fun _ => ⟨⟨rfl, rfl⟩, fun h => nomatch h⟩) fun hstop => ?_
  rw [Thread.seq_bind, Thread.seq_interruptible, wp_bind]
  refine wp_chgRead (fun _ _ _ _ => ⟨⟨rfl, rfl⟩, fun h => nomatch h⟩) fun _ _ _ => ?_
  exact ⟨⟨rfl, rfl⟩, fun _ => ⟨not_not.1 hon, Bool.eq_false_iff.2 hdirect, hstop⟩⟩

/-- The recovery part: nothing, or the charger is programmed once more. -/
theorem pollRecover_spec (hA : ¬ Faulty A) (hotg : s.mem.bat.otgActive = false) (online : Bool)
    (status : Except Errno PsyStatus) :
    wp A sampleMonitor (pollRecover online status).seq (fun _ m' s' => m' = m ∧ s' = s ∨
      online = true ∧ s.mem.bat.directCharging = false ∧ s.mem.bat.thermalState ≠ .stop ∧
        ∃ l, m' = m ++ l ∧ Configured s s' l) m s := by
  unfold pollRecover
  apply Thread.wp_seq_bind (pollMustRecover_spec online status)
  intro r _ _ hpost
  obtain ⟨⟨rfl, rfl⟩, hr⟩ := hpost
  split
  · next hr' =>
    obtain ⟨hon, hdirect, hstop⟩ := hr hr'
    apply Thread.wp_seq_atomic (configureCharging_ok hA hotg)
    intro _ _ s' hpost
    obtain ⟨rfl, l, rfl, hc⟩ := hpost
    dsimp only
    rw [Thread.seq_interruptible]
    refine wp_mono (wp_quiet getStatus_quiet) ?_
    rintro _ _ _ ⟨rfl, rfl⟩
    exact .inr ⟨hon, hdirect, hstop, l, rfl, hc⟩
  · exact .inl ⟨rfl, rfl⟩

/-! ## A whole poll -/

theorem Configured.thermal {s s' : State} {l : List Int} (h : Configured s s' l) :
    s'.mem.bat.thermalState = thermalAfter l s.mem.bat.thermalState := by
  rw [h.mem]
  rfl

/-- The thermal part and the recovery part of a poll, put together. -/
theorem polled_of_parts {s s₁ s' : State} {t : Int} {l l' : List Int}
    (h₁ : chargeThermalState s.mem.bat.thermalState t = s.mem.bat.thermalState ∧ l = [] ∧ s₁ = s ∨
      chargeThermalState s.mem.bat.thermalState t ≠ s.mem.bat.thermalState ∧
        Configured (s.setMem (Battery.setThermal (chargeThermalState s.mem.bat.thermalState t))) s₁ l)
    (h₂ : l' = [] ∧ s' = s₁ ∨ s₁.mem.bat.directCharging = false ∧
      s₁.mem.bat.thermalState ≠ .stop ∧ Configured s₁ s' l') : Polled s s' (t :: (l ++ l')) := by
  rcases h₁ with ⟨hkept, rfl, rfl⟩ | ⟨hmoved, hc₁⟩
  · rcases h₂ with ⟨rfl, rfl⟩ | ⟨hdirect, hstop, hc₂⟩
    · exact .kept t hkept rfl Iff.rfl
    · have hth : thermalAfter (t :: l') s₁.mem.bat.thermalState =
          thermalAfter l' s₁.mem.bat.thermalState := congrArg (thermalAfter l') hkept
      refine .reprogrammed t l' (fun _ => ⟨hstop, hdirect⟩) ?_ ?_
      · rw [hth]
        exact hc₂.thermal
      · rw [hth]
        exact hc₂.q4
  · have hth₁ : s₁.mem.bat.thermalState = thermalAfter (t :: l) s.mem.bat.thermalState := hc₁.thermal
    rcases h₂ with ⟨rfl, rfl⟩ | ⟨hdirect, hstop, hc₂⟩
    · rw [List.append_nil]
      exact .reprogrammed t l (fun h => absurd h hmoved) hth₁ hc₁.q4
    · have hth : thermalAfter (t :: (l ++ l')) s.mem.bat.thermalState =
          thermalAfter l' s₁.mem.bat.thermalState := by
        rw [hth₁, ← List.cons_append, thermalAfter_append]
      refine .reprogrammed t (l ++ l') (fun h => absurd h hmoved) ?_ ?_
      · rw [hth]
        exact hc₂.thermal
      · rw [hth]
        exact hc₂.q4

/-- The bookkeeping at the end of a poll: neither the thermal state nor the charger changes. -/
def Noted (s s' : State) : Prop :=
  s'.mem.bat.thermalState = s.mem.bat.thermalState ∧ s'.chg = s.chg

theorem pollRecordStatus_spec (status : Except Errno PsyStatus) (capacity : Int) :
    wp A sampleMonitor (pollRecordStatus status capacity).seq
      (fun _ m' s' => m' = m ∧ Noted s s' ∧ s'.mem.bat.lastOnline = s.mem.bat.lastOnline) m s := by
  unfold pollRecordStatus
  cases status with
  | error e => exact ⟨rfl, ⟨rfl, rfl⟩, rfl⟩
  | ok st =>
    dsimp only
    apply wp_thread_load
    refine Thread.wp_seq_ite (fun _ => ?_) fun _ => ⟨rfl, ⟨rfl, rfl⟩, rfl⟩
    rw [Thread.seq_interruptible]
    exact wp_store ⟨rfl, ⟨rfl, rfl⟩, rfl⟩

theorem pollRecordUsbType_spec (usbType : Except Errno UsbType) :
    wp A sampleMonitor (pollRecordUsbType usbType).seq
      (fun _ m' s' => m' = m ∧ Noted s s' ∧ s'.mem.bat.lastOnline = s.mem.bat.lastOnline) m s := by
  unfold pollRecordUsbType
  cases usbType with
  | error e => exact ⟨rfl, ⟨rfl, rfl⟩, rfl⟩
  | ok t =>
    dsimp only
    apply wp_thread_load
    refine Thread.wp_seq_ite (fun _ => ?_) fun _ => ⟨rfl, ⟨rfl, rfl⟩, rfl⟩
    rw [Thread.seq_interruptible]
    exact wp_store ⟨rfl, ⟨rfl, rfl⟩, rfl⟩

/-- What recording the cable does to Q4: it is opened when the cable has gone since the last poll. -/
structure Recorded (A : Event board → Prop) (online : Except Errno Bool) (s s' : State) : Prop where
  thermal : s'.mem.bat.thermalState = s.mem.bat.thermalState
  opens : q4Closed s' → q4Closed s
  plugged : online = .ok true → (q4Closed s' ↔ q4Closed s)
  unplugged : ¬ Faulty A → online = .ok false →
    (q4Closed s' ↔ q4Closed s ∧ s.mem.bat.lastOnline = false)
  noted : ∀ on, online = .ok on → s'.mem.bat.lastOnline = on

theorem pollRecordOnline_spec (online : Except Errno Bool) :
    wp A sampleMonitor (pollRecordOnline online).seq
      (fun _ m' s' => m' = m ∧ Recorded A online s s') m s := by
  unfold pollRecordOnline
  cases online with
  | error e => exact ⟨rfl, rfl, id, (nomatch ·), fun _ => (nomatch ·), fun _ => (nomatch ·)⟩
  | ok on =>
    have hinj : ∀ {s' : State}, s'.mem.bat.lastOnline = on →
        ∀ on', (.ok on : Except Errno Bool) = .ok on' → s'.mem.bat.lastOnline = on' := by
      rintro s' h _ ⟨⟩
      exact h
    dsimp only
    apply wp_thread_load
    refine Thread.wp_seq_ite (fun hmoved => ?_) fun hsame => ?_
    · apply wp_thread_store
      refine Thread.wp_seq_ite (fun hoff => ?_) fun hon => ?_
      · obtain rfl : on = false := by simpa using hoff
        rw [Thread.seq_bind, Thread.seq_interruptible, wp_bind]
        refine wp_chgUpdateBits rfl (fun hf _ => ?_) ?_
        · exact ⟨rfl, rfl, id, (nomatch ·), fun hA => absurd hf hA, hinj rfl⟩
        · refine ⟨rfl, rfl, fun hq => ?_, (nomatch ·), fun _ _ => ?_, hinj rfl⟩
          · rw [q4Closed_update] at hq
            exact absurd rfl hq
          · rw [q4Closed_update]
            exact iff_of_false (fun h => h rfl) fun h => hmoved h.2.symm
      · obtain rfl : on = true := not_not.1 hon
        exact ⟨rfl, rfl, id, fun _ => Iff.rfl, fun _ => (nomatch ·), hinj rfl⟩
    · refine ⟨rfl, rfl, id, fun _ => Iff.rfl, fun _ hoff => ?_, hinj (not_not.1 hsame).symm⟩
      obtain rfl : on = false := Except.ok.inj hoff
      exact (and_iff_left (not_not.1 hsame).symm).symm

theorem pollCapacity_spec (sm : Battery) :
    wp A sampleMonitor (pollCapacity sm).seq (fun _ m' s' => m' = m ∧ s' = s) m s := by
  unfold pollCapacity
  refine Thread.wp_seq_ite (fun _ => ?_) fun _ => ⟨rfl, rfl⟩
  apply Thread.wp_seq_interruptible (wp_quiet getCapacity_quiet)
  intro r _ _ hpost
  cases r with
  | error e => exact hpost
  | ok c => exact hpost

/-- The bookkeeping after a poll does not change what it did. -/
theorem Polled.congr {s₂ s' : State} {l : List Int} (h : Polled s s₂ l)
    (hthermal : s'.mem.bat.thermalState = s₂.mem.bat.thermalState)
    (hq4 : q4Closed s' ↔ q4Closed s₂) : Polled s s' l := by
  cases h with
  | offline h1 h2 => exact .offline (hthermal.trans h1) fun h => h2 (hq4.1 h)
  | kept t ht h1 h2 => exact .kept t ht (hthermal.trans h1) (hq4.trans h2)
  | reprogrammed t l ht h1 h2 => exact .reprogrammed t l ht (hthermal.trans h1) (hq4.trans h2)

theorem pollRecord_spec (status : Except Errno PsyStatus) (capacity : Int)
    (online : Except Errno Bool) (usbType : Except Errno UsbType) :
    wp A sampleMonitor (do
      pollRecordStatus status capacity
      pollRecordOnline online
      pollRecordUsbType usbType : Task Unit).seq
      (fun _ m' s' => m' = m ∧ Recorded A online s s') m s := by
  apply Thread.wp_seq_bind (pollRecordStatus_spec status capacity)
  intro _ _ s₁ hpost
  obtain ⟨rfl, ⟨ht₁, hc₁⟩, hon₁⟩ := hpost
  apply Thread.wp_seq_bind (pollRecordOnline_spec online)
  intro _ _ s₂ hpost
  obtain ⟨rfl, h₂⟩ := hpost
  refine wp_mono (pollRecordUsbType_spec usbType) ?_
  rintro _ _ s₃ ⟨rfl, ⟨ht₃, hc₃⟩, hon₃⟩
  have h₁ := q4Closed_congr (congrFun hc₁ .cntl1)
  have h₃ := q4Closed_congr (congrFun hc₃ .cntl1)
  refine ⟨rfl, ht₃.trans (h₂.thermal.trans ht₁), ?_, ?_, ?_, fun on h => hon₃.trans (h₂.noted on h)⟩
  · exact fun h => h₁.1 (h₂.opens (h₃.1 h))
  · exact fun hon => h₃.trans ((h₂.plugged hon).trans h₁)
  · intro hA hoff
    rw [h₃, h₂.unplugged hA hoff, h₁, hon₁]

/-- The thermal and the recovery part together, whatever the poll saw of the cable. -/
theorem pollAct_spec (hA : ¬ Faulty A) (hotg : s.mem.bat.otgActive = false) (on : Bool)
    (status : Except Errno PsyStatus) :
    wp A sampleMonitor (pollThermal on status >>= pollRecover on).seq (fun _ m' s' =>
      ∃ l, m' = m ++ l ∧ Polled s s' l ∧ (on = true ↔ l ≠ [])) m s := by
  rw [Thread.seq_bind, wp_bind]
  cases on with
  | false =>
    refine wp_mono (pollRecover_spec hA hotg false status) ?_
    rintro _ _ _ (⟨rfl, rfl⟩ | ⟨hon, -⟩)
    · exact ⟨[], (List.append_nil _).symm, .offline rfl id, by simp⟩
    · exact absurd hon Bool.false_ne_true
  | true =>
    refine wp_mono (pollThermal_spec hA hotg status) ?_
    rintro st _ s₁ ⟨t, l, rfl, h₁⟩
    have hotg₁ : s₁.mem.bat.otgActive = false := by
      rcases h₁ with ⟨-, -, rfl⟩ | ⟨-, hc⟩
      · exact hotg
      · rw [hc.mem]
        exact hotg
    refine wp_mono (pollRecover_spec hA hotg₁ true st) ?_
    rintro _ _ s' (⟨rfl, rfl⟩ | ⟨-, hdirect, hstop, l', rfl, hc⟩)
    · refine ⟨t :: (l ++ []), by rw [List.append_nil], ?_, by simp⟩
      exact polled_of_parts h₁ (.inl ⟨rfl, rfl⟩)
    · refine ⟨t :: (l ++ l'), by rw [List.append_assoc]; rfl, ?_, by simp⟩
      exact polled_of_parts h₁ (.inr ⟨hdirect, hstop, hc⟩)

/-- Counting the poll changes nothing that `Polled` speaks of. -/
theorem Polled.of_bump {s' : State} {l : List Int} (h : Polled (s.setMem Battery.bumpPoll) s' l) :
    Polled s s' l := by
  cases h with
  | offline h1 h2 => exact .offline h1 h2
  | kept t ht h1 h2 => exact .kept t ht h1 h2
  | reprogrammed t l ht h1 h2 => exact .reprogrammed t l ht h1 h2

/-- A poll from its thermal part on. -/
theorem pollTail_spec (hA : ¬ Faulty A) (hotg : s.mem.bat.otgActive = false) {on : Bool}
    {online : Except Errno Bool} (hon : on = true ↔ online = .ok true)
    (status : Except Errno PsyStatus) (usbType : Except Errno UsbType) (capacity : Int) :
    wp A sampleMonitor (do
      let status ← pollThermal on status
      let status ← pollRecover on status
      pollRecordStatus status capacity
      pollRecordOnline online
      pollRecordUsbType usbType : Task Unit).seq (fun _ m' s' =>
        ∃ l, m' = m ++ l ∧ Polled s s' l ∧ (online = .ok true ↔ l ≠ []))
      m (s.setMem Battery.bumpPoll) := by
  have hact := pollAct_spec (m := m) (s := s.setMem Battery.bumpPoll) hA hotg on status
  rw [Thread.seq_bind, wp_bind] at hact ⊢
  refine wp_mono hact fun st _ _ hrecover => ?_
  apply Thread.wp_seq_bind hrecover
  intro st' _ s₂ hpost
  obtain ⟨l, rfl, hp, hl⟩ := hpost
  refine wp_mono (pollRecord_spec st' capacity online usbType) ?_
  rintro _ _ s₃ ⟨rfl, hrec⟩
  refine ⟨l, rfl, Polled.of_bump ?_, hon.symm.trans hl⟩
  by_cases h : online = .ok true
  · exact hp.congr hrec.thermal (hrec.plugged h)
  · have hnil : l = [] := by
      by_contra hne
      exact h (hon.1 (hl.2 hne))
    subst hnil
    cases hp with
    | offline hth hq₂ => exact .offline (hrec.thermal.trans hth) fun h₃ => hq₂ (hrec.opens h₃)

/-- What a poll does with the two readings it starts with. -/
theorem pollUpdate_spec (hA : ¬ Faulty A) (hotg : s.mem.bat.otgActive = false)
    (status : Except Errno PsyStatus) (online : Except Errno Bool) :
    wp A sampleMonitor (pollUpdate status online).seq (fun _ m' s' =>
      ∃ l, m' = m ++ l ∧ Polled s s' l ∧ (online = .ok true ↔ l ≠ [])) m s := by
  unfold pollUpdate
  apply Thread.wp_seq_interruptible (wp_quiet getUsbType_quiet)
  intro usbType m s hpost
  obtain ⟨rfl, rfl⟩ := hpost
  apply wp_thread_load
  apply wp_thread_store
  apply Thread.wp_seq_bind (pollCapacity_spec _)
  intro capacity m _ hpost
  obtain ⟨rfl, rfl⟩ := hpost
  match online with
  | .ok true => exact pollTail_spec hA hotg (by simp) status usbType capacity
  | .ok false => exact pollTail_spec hA hotg (by simp) status usbType capacity
  | .error e => exact pollTail_spec hA hotg (by simp) status usbType capacity

/-- **What a poll does** when no register access fails and the boost is off. -/
theorem pollWork_spec (hA : ¬ Faulty A) (hotg : s.mem.bat.otgActive = false) :
    wp A sampleMonitor pollWork.seq (fun _ m' s' => ∃ l, m' = m ++ l ∧ Polled s s' l) m s := by
  unfold pollWork
  apply Thread.wp_seq_interruptible (wp_quiet pollStart_quiet)
  rintro ⟨status, online⟩ _ _ ⟨rfl, rfl⟩
  refine wp_mono (pollUpdate_spec hA hotg status online) ?_
  rintro _ _ _ ⟨l, rfl, hp, -⟩
  exact ⟨l, rfl, hp⟩

end

/-! ## Runs of polls -/

/-- The board after a poll whose operations are given the inputs `ι`. -/
def pollStep (ι : Nat → Input) (s : State) : State := (pollWork.seq.run board ι s).2

/-- The operations of that poll. -/
def pollTrace (ι : Nat → Input) (s : State) : List (Event board) := pollWork.seq.trace board ι s

/-- A poll that starts with VBUS present and without OTG, all of whose accesses succeed. -/
structure CleanPoll (ι : Nat → Input) (s : State) : Prop where
  ok : ∀ e ∈ pollTrace ι s, e.input.fault = none
  vbus : (pollStart.run board ι s).1.2 = .ok true
  notOtg : s.mem.bat.otgActive = false

/-- A clean poll that ends with the thermal state at `STOP` ends with Q4 open. -/
def CutOff (ι : Nat → Input) (s : State) : Prop := CleanPoll ι s →
  (pollStep ι s).mem.bat.thermalState = .stop → ¬ q4Closed (pollStep ι s)

/-- A clean poll whose first sample is 46.0 C or more does not start at `STOP` with Q4 closed. -/
def NoLostCutOff (ι : Nat → Input) (s : State) : Prop := CleanPoll ι s →
  (∃ t ∈ (samples (pollTrace ι s)).head?, 460 ≤ t) →
    ¬ (s.mem.bat.thermalState = .stop ∧ q4Closed s)

theorem chargeThermalState_stop_iff (t : Int) : chargeThermalState .stop t = .stop ↔ 460 ≤ t := by
  have h := thermalStep_stop_iff t .stop
  unfold thermalStep at h
  rw [h]
  constructor
  · rintro (h | ⟨-, h⟩)
    · omega
    · exact h
  · exact fun h => .inr ⟨rfl, h⟩

/-- A poll does with its two readings what `pollUpdate` does with them. -/
theorem poll_of_update {A : Event board → Prop} {Q : List Int → State → Prop} {ι : Nat → Input}
    {s : State} (hupdate : wp A sampleMonitor
      (pollUpdate (pollStart.run board ι s).1.1 (pollStart.run board ι s).1.2).seq
      (fun _ m' s' => Q m' s') [] s)
    (hA : ∀ e ∈ pollTrace ι s, A e) : Q (samples (pollTrace ι s)) (pollStep ι s) := by
  have hseq : pollWork.seq = pollStart >>= fun x => (pollUpdate x.1 x.2).seq := by
    unfold pollWork
    rw [Thread.seq_bind, Thread.seq_interruptible]
  -- the two readings change nothing and sample nothing
  obtain ⟨-, hm, hs⟩ := wp_sound (wp_quiet (A := fun _ => True) (m := []) (s := s) pollStart_quiet) ι
    fun _ _ => trivial
  unfold pollStep pollTrace samples at *
  rw [hseq, Prog.trace_bind, hs] at hA
  rw [hseq, Prog.run_bind, Prog.trace_bind, Monitor.after_append, hm, hs]
  exact (wp_sound hupdate _ fun e he => hA e (List.mem_append_right _ he)).2

/-- What a clean poll does. -/
theorem CleanPoll.polled {ι : Nat → Input} {s : State} (h : CleanPoll ι s) :
    Polled s (pollStep ι s) (samples (pollTrace ι s)) ∧ samples (pollTrace ι s) ≠ [] := by
  have hnf : ¬ Faulty fun e => e.input.fault = none := fun ⟨e, he, _, hne⟩ => hne he
  obtain ⟨l, hl, hp, hne⟩ := poll_of_update (pollUpdate_spec hnf h.notOtg _ _) h.ok
  rw [hl]
  exact ⟨hp, hne.1 h.vbus⟩

theorem cutOff_iff (ι : Nat → Input) (s : State) : CutOff ι s ↔ NoLostCutOff ι s := by
  unfold CutOff NoLostCutOff
  refine imp_congr_right fun hclean => ?_
  obtain ⟨hp, hne⟩ := hclean.polled
  generalize samples (pollTrace ι s) = l at hp hne
  cases hp with
  | offline => exact absurd rfl hne
  | kept t ht hth hq4 =>
    rw [hth, hq4]
    constructor
    · rintro h - ⟨hstop, hclosed⟩
      exact h hstop hclosed
    · intro h hstop hclosed
      rw [hstop] at ht
      exact h ⟨t, rfl, (chargeThermalState_stop_iff t).1 ht⟩ ⟨hstop, hclosed⟩
  | reprogrammed t l ht hth hq4 =>
    rw [hth, hq4]
    refine iff_of_true (fun hstop hne => hne hstop) ?_
    rintro ⟨t', ht', hge⟩ ⟨hstop, -⟩
    obtain rfl : t = t' := by simpa using ht'
    rw [hstop] at ht
    exact (ht ((chargeThermalState_stop_iff t).2 hge)).1 rfl

/-- **In a run of polls with any accesses failing, every clean poll that ends at `STOP` has opened Q4
precisely when no clean poll with a hot first sample starts at `STOP` with Q4 still closed.** -/
theorem poll_cuts_off_iff (polls : List (Nat → Input)) (s : State) :
    Meets pollStep CutOff polls s ↔ Meets pollStep NoLostCutOff polls s :=
  meets_congr cutOff_iff polls s

/-! ## Which lost accesses matter -/

/-- What `sm5714_configure_charging` does on the way to an open Q4, but for the sample: the detection
of the cable, and the update of `ENQ4FET`. -/
def OnTheWay : Op → Prop
  | .chgRead r => r = .status1 ∨ r = .cntl1
  | .chgWrite r _ => r = .cntl1
  | .muicRead r => r = .deviceType1
  | _ => False

/-- Nothing on the way to an open Q4 is lost. -/
def Reaches (e : Event board) : Prop := OnTheWay e.op → e.input.fault = none

/-- The thermal state is `STOP`, and Q4 is closed. -/
def Stuck (s : State) : Prop := s.mem.bat.thermalState = .stop ∧ q4Closed s

/-- The boost is off, and charging goes on only while it may. -/
def Free (s : State) : Prop := s.mem.bat.otgActive = false ∧ ¬ Stuck s

section

variable {m : List Int} {s : State}

theorem getOnline_reaches :
    wp Reaches sampleMonitor getOnline.run (fun r m' s' => (m' = m ∧ s' = s) ∧ r.toOption ≠ none)
      m s := by
  refine wp_and (wp_quiet getOnline_quiet) ?_
  unfold getOnline
  apply wp_run_load_seq
  split
  · exact (nomatch ·)
  unfold getOnlineRaw
  rw [wp_run_bind]
  refine wp_chgRead (fun i e hi hf => ?_) fun _ _ _ => (nomatch ·)
  exact absurd ((hi (.inl rfl)).symm.trans hf) (nomatch ·)

theorem getUsbType_reaches :
    wp Reaches sampleMonitor getUsbType.run (fun r m' s' => (m' = m ∧ s' = s) ∧ r.toOption ≠ none)
      m s := by
  refine wp_and (wp_quiet getUsbType_quiet) ?_
  unfold getUsbType
  apply wp_run_seq getOnline_reaches
  · intro e m' s' hr
    exact absurd rfl hr.2
  rintro online m' s' ⟨⟨rfl, rfl⟩, -⟩
  split
  · exact Option.some_ne_none _
  apply wp_run_load_seq
  split
  · exact Option.some_ne_none _
  rw [wp_run_bind]
  refine wp_muicRead (fun i e hi hf => ?_) fun i _ _ => ?_
  · exact absurd (hf.symm.trans (hi rfl)) (Option.some_ne_none e)
  simp only [MuicReg.isStatus, ↓reduceIte]
  split
  · exact Option.some_ne_none _
  split
  · exact Option.some_ne_none _
  split <;> exact Option.some_ne_none _

/-- Nothing on the way is lost, so Q4 is open in the end. -/
theorem openQ4_reaches :
    wp Reaches sampleMonitor (chgUpdateBits .cntl1 cntl1Enq4fet 0).run
      (fun _ _ s' => s'.mem = s.mem ∧ ¬ q4Closed s') m s := by
  have hopen : ¬ q4Closed (s.setChg .cntl1 (maskedUpdate cntl1Enq4fet 0 (s.chg .cntl1))) := by
    rw [q4Closed_update]
    exact fun h => h rfl
  unfold chgUpdateBits
  rw [wp_run_bind]
  refine wp_chgRead (fun i e hi hf => ?_) fun i _ _ => ?_
  · exact absurd ((hi (.inr rfl)).symm.trans hf) (nomatch ·)
  simp only [ChgReg.isStatus, Bool.false_eq_true, ↓reduceIte]
  split
  · next heq =>
    rw [heq, setChg_self] at hopen
    exact ⟨rfl, hopen⟩
  · refine wp_chgWrite (fun i e hi hf => ?_) ⟨rfl, hopen⟩
    exact absurd ((hi rfl).symm.trans hf) (nomatch ·)

/-- Operations on the charger alone. -/
def Programs : Op → Prop
  | .load | .chgRead _ | .chgWrite _ _ => True
  | _ => False

theorem wp_programs {A : Event board → Prop} {α : Type} {p : Code α} (h : Issues Programs p) :
    wp A sampleMonitor p (fun _ _ s' => s'.mem = s.mem) m s := by
  apply h.wp (M := sampleMonitor) (J := fun _ s' => s'.mem = s.mem) ?_ rfl
  intro o ho i m' s' _ hs'
  refine ⟨trivial, Eq.trans ?_ hs'⟩
  cases o with
  | load | chgRead _ => rfl
  | chgWrite r v => cases hf : i.fault <;> simp [handle, apply_some, apply_none, hf]
  | _ => exact ho.elim

/-- However it ends, charging does not go on at `STOP`. -/
theorem configureCharging_reaches (hotg : s.mem.bat.otgActive = false) :
    wp Reaches sampleMonitor configureCharging.run (fun _ _ s' => Free s') m s := by
  unfold configureCharging
  apply wp_run_load_seq
  dsimp only
  rw [if_neg (by rw [hotg]; exact Bool.false_ne_true)]
  apply wp_run_seq getUsbType_reaches
  · intro e m' s' hr
    exact absurd rfl hr.2
  rintro usbType m' s' ⟨⟨rfl, rfl⟩, -⟩
  apply wp_run_seq sampleThermal_spec
  · rintro e m' s' ⟨l, -, herr, -⟩
    cases herr
  rintro thermal m' s' ⟨l, -, hthermal, rfl⟩
  cases hthermal
  split
  · next hstop =>
    refine wp_mono openQ4_reaches fun r m' s' ⟨hmem, hopen⟩ => ⟨?_, fun h => hopen h.2⟩
    rw [hmem]
    exact hotg
  next hgo =>
  -- what is left programs the charger, and does not move the thermal state
  refine wp_mono (wp_programs ?_) fun r m' s' hmem => ⟨?_, fun h => hgo ?_⟩
  · refine Issues.run_bind (Issues.run_lift ⟨trivial, fun _ => trivial⟩) fun _ => ?_
    refine Issues.run_bind ⟨trivial, fun _ => trivial⟩ fun _ => ?_
    refine Issues.run_bind ⟨trivial, fun _ => trivial⟩ fun _ => ?_
    have hupdate : ∀ r mask val, Issues Programs (chgUpdateBits r mask val).run := fun r mask val => by
      unfold chgUpdateBits
      refine Issues.run_bind ⟨trivial, fun _ => trivial⟩ fun _ => ?_
      dsimp only
      split
      · trivial
      · exact ⟨trivial, fun _ => trivial⟩
    refine Issues.run_bind ?_ fun _ => ?_
    · unfold setFloatVoltage
      refine Issues.run_bind (Issues.run_lift ⟨trivial, fun _ => trivial⟩) fun _ => ?_
      dsimp only
      split
      · trivial
      · exact hupdate _ _ _
    exact Issues.run_bind (hupdate _ _ _) fun _ => ⟨trivial, fun _ => trivial⟩
  · rw [hmem]
    exact hotg
  · rw [← h.1, hmem]
    rfl

/-- What keeps the flag, the thermal state and Q4, or opens it, keeps the rest. -/
theorem Free.of_eq {s' : State} (h : Free s) (hotg : s'.mem.bat.otgActive = s.mem.bat.otgActive)
    (hthermal : s'.mem.bat.thermalState = s.mem.bat.thermalState) (hq4 : q4Closed s' → q4Closed s) :
    Free s' :=
  ⟨hotg.trans h.1, fun hs => h.2 ⟨hthermal.symm.trans hs.1, hq4 hs.2⟩⟩

theorem pollThermal_reaches (hs : Free s) (online : Bool) (status : Except Errno PsyStatus) :
    wp Reaches sampleMonitor (pollThermal online status).seq (fun _ _ s' => Free s') m s := by
  unfold pollThermal
  refine Thread.wp_seq_ite (fun _ => hs) fun _ => ?_
  apply wp_thread_load
  have hsample : wp Reaches sampleMonitor pollSample.seq
      (fun _ _ s' => ∃ t, s' = s.setMem (Battery.setThermal t)) m s := by
    unfold pollSample
    apply Thread.wp_seq_interruptible getTemp_spec
    rintro r _ s₁ ⟨⟨hs₁, -⟩, -⟩
    cases r with
    | error e => exact ⟨s.mem.bat.thermalState, hs₁⟩
    | ok t =>
      apply wp_thread_load
      rw [Thread.seq_interruptible, hs₁]
      exact wp_store ⟨_, rfl⟩
  apply Thread.wp_seq_bind hsample
  rintro _ _ _ ⟨t, rfl⟩
  apply wp_thread_load
  refine Thread.wp_seq_ite (fun hkept => ?_) fun _ => ?_
  · exact hs.of_eq rfl hkept id
  refine Thread.wp_seq_atomic (configureCharging_reaches hs.1) ?_
  intro _ _ s' hfree
  rw [Thread.seq_interruptible]
  refine wp_mono (wp_quiet getStatus_quiet) ?_
  rintro _ _ _ ⟨-, rfl⟩
  exact hfree

theorem pollRecover_reaches (hs : Free s) (online : Bool) (status : Except Errno PsyStatus) :
    wp Reaches sampleMonitor (pollRecover online status).seq (fun _ _ s' => Free s') m s := by
  unfold pollRecover
  apply Thread.wp_seq_bind (pollMustRecover_spec online status)
  rintro r _ _ ⟨⟨rfl, rfl⟩, -⟩
  split
  · apply Thread.wp_seq_atomic (configureCharging_reaches hs.1)
    intro r _ s' hfree
    cases r with
    | error e => exact hfree
    | ok u =>
      dsimp only
      rw [Thread.seq_interruptible]
      refine wp_mono (wp_quiet getStatus_quiet) ?_
      rintro _ _ _ ⟨-, rfl⟩
      exact hfree
  · exact hs

/-- A poll that loses nothing on the way leaves no state stuck that was not. -/
theorem pollUpdate_reaches (hs : Free s) (status : Except Errno PsyStatus)
    (online : Except Errno Bool) :
    wp Reaches sampleMonitor (pollUpdate status online).seq (fun _ _ s' => ¬ Stuck s') m s := by
  have htail : ∀ on (s : State) (m : List Int) usbType capacity, Free s →
      wp Reaches sampleMonitor (do
        let status ← pollThermal on status
        let status ← pollRecover on status
        pollRecordStatus status capacity
        pollRecordOnline online
        pollRecordUsbType usbType : Task Unit).seq (fun _ _ s' => ¬ Stuck s') m s := by
    intro on s m usbType capacity hs
    apply Thread.wp_seq_bind (pollThermal_reaches hs on status)
    intro status _ s₁ h₁
    apply Thread.wp_seq_bind (pollRecover_reaches h₁ on status)
    intro status _ s₂ h₂
    refine wp_mono (pollRecord_spec status capacity online usbType) ?_
    rintro _ _ s₃ ⟨-, hrec⟩
    exact fun hstuck => h₂.2 ⟨hrec.thermal.symm.trans hstuck.1, hrec.opens hstuck.2⟩
  unfold pollUpdate
  apply Thread.wp_seq_interruptible (wp_quiet getUsbType_quiet)
  rintro usbType _ _ ⟨rfl, rfl⟩
  apply wp_thread_load
  apply wp_thread_store
  apply Thread.wp_seq_bind (pollCapacity_spec _)
  rintro capacity _ _ ⟨rfl, rfl⟩
  exact htail _ _ _ usbType capacity (hs.of_eq rfl rfl id)

end

/-- A poll that loses none of the accesses on the way to an open Q4. -/
def LosesNothing (ι : Nat → Input) (s : State) : Prop := ∀ e ∈ pollTrace ι s, Reaches e

theorem free_pollStep {ι : Nat → Input} {s : State} (hs : Free s) (h : LosesNothing ι s) :
    Free (pollStep ι s) := by
  refine ⟨(run_keeps_flags pollWork_charging ι s).2.trans hs.1, ?_⟩
  exact poll_of_update (Q := fun _ s' => ¬ Stuck s') (pollUpdate_reaches hs _ _) h

/-- **Only accesses on the way to an open Q4 matter.** In a run of polls in which all reads of `STATUS1`,
of the detected cable and of `CNTL1` and all writes of `CNTL1` succeed, whatever else fails, no poll
leaves the thermal state at `STOP` with Q4 closed. -/
theorem polls_never_stuck {polls : List (Nat → Input)} {s : State} (hs : Free s)
    (h : Meets pollStep LosesNothing polls s) :
    Meets pollStep (fun ι s => ¬ Stuck (pollStep ι s)) polls s :=
  h.imp (fun _ _ hs hι => ⟨free_pollStep hs hι, (free_pollStep hs hι).2⟩) hs

/-- A poll with the cable in, at `mc` thousandths of a degree, whose operation `lost` fails. -/
def pollAt (mc : Int) (lost : Option Nat) : Nat → Input := fun n =>
  { byte := 0x01, val := mc, fault := if lost = some n then some .eio else none }

/-- The charger is started; 51.0 C, but the write that opens Q4 fails; 51.0 C again. -/
def lostCutOff : List (Nat → Input) :=
  [pollAt 25000 none, pollAt 51000 (some 29), pollAt 51000 none]

/-- The third poll succeeds throughout, ends at `STOP`, and leaves Q4 closed. -/
theorem q4_closed_at_stop : ¬ Meets pollStep CutOff lostCutOff .probed := by
  intro h
  have hclean : CleanPoll (pollAt 51000 none)
      (pollStep (pollAt 51000 (some 29)) (pollStep (pollAt 25000 none) .probed)) := by
    refine ⟨fun e he => ?_, rfl, rfl⟩
    obtain ⟨n, hn⟩ := Prog.exists_input_of_mem_trace he
    rw [hn]
    rfl
  exact h.2.2.1 hclean rfl (by decide)

end Gts9Wifi.Charger.Sm5714
