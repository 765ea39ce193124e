import Gts9Wifi.Touch.Verify.Power
import Gts9Wifi.Lib.Runs

/-!
# Suspend and resume balance

A resume undoes what the suspend before it has done. One that fails half way returns with what it has
done so far: the rails off or on, and the interrupt still disabled. The next suspend does not know
and disables everything once more, so after a failed resume the counts never meet again: the next
resume that returns zero leaves the interrupt disabled, and a suspend that cuts the power takes
supplies that are off below zero.

`Harmless` says just this of a run, by what the environment answers: after its first failed resume
every resume fails, and no suspend cuts the power when the supplies did not come up. A run of
alternating calls is balanced precisely when it is harmless.
-/

namespace Gts9Wifi.Touch

open Driver

/-! ## Vocabulary -/

/-- No supply has been disabled more often than enabled. -/
def NonNeg (s : State) : Prop := ∀ r, 0 ≤ s.supplies r

/-- Both supplies are enabled once, and the interrupt is enabled and no wake source. -/
def Restored (s : State) : Prop :=
  s.supplies .avdd = 1 ∧ s.supplies .vddio = 1 ∧ s.irqDepth = 0 ∧ s.wakeDepth = 0

/-- The supplies' counts never go below zero during the step, and if it is a resume that returns
zero, everything is as it was before the suspend. -/
structure Balanced (l : Step) (s : State) : Prop where
  during : ∀ e ∈ l.trace s, NonNeg e.pre
  after : NonNeg (step l s)
  restored : l.call = .resume → l.result s = .ok () → Restored (step l s)

/-- A resume from a cut power fails. -/
structure Fails (l : Step) (s : State) : Prop where
  resume : l.call = .resume
  cut : s.ctx.lpmSuspended = false
  down : ¬ Up ((l.trace s).filterMap sign)

/-- A supply does not come up. -/
def SupplyFails (l : Step) (s : State) : Prop := .supplyFails ∈ (l.trace s).filterMap sign

instance (l : Step) (s : State) : Decidable (SupplyFails l s) :=
  inferInstanceAs (Decidable (_ ∈ _))

/-- A suspend arms the gesture, and leaves the power on. -/
def Arms (l : Step) (s : State) : Prop :=
  s.ctx.dtwEnabled = true ∧ (l.trace s).filterMap obstacle = []

/-- What may follow a failed resume, which left the supplies off if `dark`: every resume fails, and as
long as the supplies are off every suspend arms the gesture. -/
def Aftermath : Prop → List Step → State → Prop
  | _, [], _ => True
  | dark, l :: rest, s =>
    match l.call with
    | .suspend => (dark → Arms l s) ∧ Aftermath dark rest (step l s)
    | .resume => Fails l s ∧ Aftermath (SupplyFails l s) rest (step l s)
    | .doubleTapToWakeStore _ => Aftermath dark rest (step l s)

/-- Anything may happen up to the first failed resume. -/
def Harmless : List Step → State → Prop
  | [], _ => True
  | l :: rest, s =>
    (Fails l s → Aftermath (SupplyFails l s) rest (step l s)) ∧
      (¬ Fails l s → Harmless rest (step l s))

theorem nonNeg_of_power {s : State} {a v d w : Int} {b : Bool} (hs : power s = (a, v, d, w, b))
    (ha : 0 ≤ a) (hv : 0 ≤ v) : NonNeg s := by
  simp only [power, Prod.mk.injEq] at hs
  intro r
  cases r with
  | avdd => omega
  | vddio => omega

/-! ## The supplies during a call -/

/-- Operations that enable no supply. -/
def Lowers : Op → Prop
  | .regulatorEnable _ => False
  | _ => True

/-- Operations that disable no supply. -/
def Raises : Op → Prop
  | .regulatorDisable _ => False
  | _ => True

theorem KeepsPower.lowers {o : Op} (h : KeepsPower o) : Lowers o := by
  cases o <;> trivial

theorem KeepsPower.raises {o : Op} (h : KeepsPower o) : Raises o := by
  cases o <;> trivial

theorem Lowers.le {o : Op} (h : Lowers o) (i : Input) (s : State) (r : Supply) :
    (handle o i s).2.supplies r ≤ s.supplies r := by
  cases o with
  | regulatorEnable r' => exact h.elim
  | regulatorDisable r' =>
    simp only [handle, State.addUse]
    split <;> omega
  | enableIrqWake => cases hf : i.fault <;> simp [handle, hf]
  | _ => exact Int.le_refl _

theorem Raises.le {o : Op} (h : Raises o) (i : Input) (s : State) (r : Supply) :
    s.supplies r ≤ (handle o i s).2.supplies r := by
  cases o with
  | regulatorDisable r' => exact h.elim
  | regulatorEnable r' =>
    cases hf : i.fault with
    | some e => simp [handle, hf]
    | none =>
      simp only [handle, hf, State.addUse]
      split <;> omega
  | enableIrqWake => cases hf : i.fault <;> simp [handle, hf]
  | _ => exact Int.le_refl _

/-- Code that only disables supplies never has fewer of them enabled than at its end. -/
theorem end_le_of_lowers {α : Type} {p : Code α} (h : Issues Lowers p) (ι : Nat → Input) (s : State) :
    (∀ r, (p.run touch ι s).2.supplies r ≤ s.supplies r) ∧
      ∀ e ∈ p.trace touch ι s, ∀ r, (p.run touch ι s).2.supplies r ≤ e.pre.supplies r := by
  induction p generalizing ι s with
  | ret a => exact ⟨fun _ => Int.le_refl _, fun _ he => nomatch he⟩
  | call o k ih =>
    obtain ⟨hend, htrace⟩ := ih _ (h.2 _) (fun n => ι (n + 1)) (handle o (ι 0) s).2
    have hle : ∀ r, ((Prog.call o k).run touch ι s).2.supplies r ≤ s.supplies r :=
      fun r => Int.le_trans (hend r) (h.1.le (ι 0) s r)
    refine ⟨hle, fun e he => ?_⟩
    rcases List.mem_cons.1 he with rfl | he
    · exact hle
    · exact htrace e he

theorem suspendOff_lowers : Issues Lowers suspendOff :=
  ⟨trivial, fun _ => ⟨trivial, fun _ => ⟨trivial, fun _ => trivial⟩⟩⟩

theorem suspend_lowers : Issues Lowers suspend := by
  have hoff : Issues Lowers (suspendOff >>= fun _ => (return .ok () : Code (Except Errno Unit))) :=
    suspendOff_lowers.bind fun _ => trivial
  unfold suspend
  refine ⟨trivial, fun ctx => ?_⟩
  refine Issues.bind (p := pure ctx) trivial fun ctx => ?_
  split
  · exact hoff
  refine ⟨trivial, fun may => ?_⟩
  refine Issues.bind (p := pure may) trivial fun may => ?_
  split
  · exact hoff
  refine ⟨trivial, fun r => ?_⟩
  refine Issues.bind (p := pure r) trivial fun r => ?_
  cases r with
  | error e => exact hoff
  | ok _ =>
    refine (suppressTouch_keepsPower.mono fun _ => KeepsPower.lowers).bind fun _ => ?_
    refine (armGesture_keepsPower.mono fun _ => KeepsPower.lowers).bind fun r => ?_
    cases r with
    | error e => exact ⟨trivial, fun _ => hoff⟩
    | ok _ => exact ⟨trivial, fun _ => trivial⟩

/-- Accepts an operation if no count is below zero when it is issued. -/
abbrev rails : Monitor touch := .each fun e => NonNeg e.pre

section Rails

variable {A : Event touch → Prop} {s : State}

theorem wp_raises {α : Type} {p : Code α} (h : Issues Raises p) (hs : NonNeg s) :
    wp A rails p (fun _ _ s' => NonNeg s') () s :=
  h.wp (M := rails) (J := fun _ s' => NonNeg s')
    (fun _ ho i _ s' _ hs' => ⟨hs', fun r => Int.le_trans (hs' r) (ho.le i s' r)⟩) hs

/-- Where the second supply fails to come up, the first one goes back to what it was. -/
theorem powerOn_rails (hs : NonNeg s) : wp A rails powerOn.run (fun _ _ s' => NonNeg s') () s := by
  unfold powerOn
  rw [wp_run_bind]
  refine (wp_perform _ _ _ _).2 fun i _ => ⟨hs, ?_⟩
  cases hf : i.fault with
  | some e => simpa only [handle, hf] using hs
  | none =>
    simp only [handle, hf]
    have hs₁ : NonNeg (s.addUse .vddio 1) := fun r => Int.le_trans (hs r) (by
      simp only [State.addUse]
      split <;> omega)
    rw [wp_run_bind, wp_run_attempt]
    refine (wp_perform _ _ _ _).2 fun i' _ => ⟨hs₁, ?_⟩
    cases hf' : i'.fault with
    | some e =>
      simp only [handle, hf']
      rw [wp_run_bind, wp_run_lift]
      refine (wp_perform _ _ _ _).2 fun _ _ => ⟨hs₁, fun r => ?_⟩
      have := hs r
      simp only [handle, State.addUse]
      split <;> omega
    | none =>
      simp only [handle, hf']
      refine fun r => Int.le_trans (hs₁ r) ?_
      simp only [State.addUse]
      split <;> omega

theorem resume_rails (hs : NonNeg s) : wp A rails resume (fun _ _ s' => NonNeg s') () s := by
  have hstart : Issues Raises start.run := start_keepsPower.mono fun _ => KeepsPower.raises
  have hdisarm : Issues Raises disarmGesture.run :=
    disarmGesture_keepsPower.mono fun _ => KeepsPower.raises
  unfold resume
  rw [wp_bind]
  refine (wp_perform _ _ _ _).2 fun _ _ => ⟨hs, ?_⟩
  refine wp_ite (fun _ => ?_) fun _ => ?_
  · refine wp_raises ⟨trivial, fun _ => ⟨trivial, fun _ => ?_⟩⟩ hs
    refine hdisarm.bind fun r => ?_
    cases r with
    | ok _ => trivial
    | error e => exact hstart.bind fun _ => trivial
  · unfold bringUp
    rw [wp_bind, wp_run_bind]
    refine wp_mono (powerOn_rails hs) ?_
    rintro (e | ⟨⟩) _ s₁ hs₁
    · exact hs₁
    refine wp_mono (wp_raises hstart hs₁) ?_
    rintro (e | ⟨⟩) _ s₂ hs₂
    · exact hs₂
    · exact wp_raises ⟨trivial, fun _ => trivial⟩ hs₂

end Rails

/-! ## Steps -/

section Steps

variable {l : Step} {s : State} {a v d : Int}

/-- What a suspend does to the power state. -/
theorem suspend_step (hl : l.call = .suspend) (hs : power s = (a, v, d, 0, false)) :
    Arms l s ∧ power (step l s) = (a, v, d, 1, true) ∨
      ¬ Arms l s ∧ power (step l s) = (a - 1, v - 1, d + 1, 0, false) := by
  obtain ⟨call, ι⟩ := l
  obtain rfl : call = .suspend := hl
  have hspec := (wp_sound (suspend_spec (A := fun _ => True) hs) ι fun _ _ => trivial).2
  rwa [Monitor.after_records] at hspec

/-- A suspend is balanced if the supplies end at zero or more. -/
theorem suspend_balanced_iff (hl : l.call = .suspend) : Balanced l s ↔ NonNeg (step l s) := by
  obtain ⟨call, ι⟩ := l
  obtain rfl : call = .suspend := hl
  refine ⟨fun h => h.after, fun h => ⟨fun e he r => ?_, h, fun h => nomatch h⟩⟩
  exact Int.le_trans (h r) ((end_le_of_lowers suspend_lowers ι s).2 e he r)

/-- A resume never takes a supply below zero. -/
theorem resume_balanced_iff (hl : l.call = .resume) (hs : NonNeg s) :
    Balanced l s ↔ (l.result s = .ok () → Restored (step l s)) := by
  obtain ⟨call, ι⟩ := l
  obtain rfl : call = .resume := hl
  obtain ⟨hsafe, hend⟩ := wp_sound (resume_rails (A := fun _ => True) hs) ι fun _ _ => trivial
  exact ⟨fun h => h.restored rfl, fun h => ⟨Monitor.safe_each.1 hsafe, hend, fun _ => h⟩⟩

theorem resume_cut_step (hl : l.call = .resume) (hs : power s = (0, 0, d, 0, false)) :
    ¬ Fails l s ∧ l.result s = .ok () ∧ power (step l s) = (1, 1, d - 1, 0, false) ∨
      Fails l s ∧ l.result s ≠ .ok () ∧
        (SupplyFails l s ∧ power (step l s) = (0, 0, d, 0, false) ∨
          ¬ SupplyFails l s ∧ power (step l s) = (1, 1, d, 0, false)) := by
  obtain ⟨call, ι⟩ := l
  obtain rfl : call = .resume := hl
  have hlpm : s.ctx.lpmSuspended = false := by
    simp only [power, Prod.mk.injEq] at hs
    exact hs.2.2.2.2
  have hspec := (wp_sound (resume_cut_spec (A := fun _ => True) hs) ι fun _ _ => trivial).2
  rw [Monitor.after_records] at hspec
  rcases hspec with ⟨hok, hup, hpower⟩ | ⟨⟨e, herr⟩, hdown, hpower⟩
  · exact .inl ⟨fun h => h.down hup, hok, hpower⟩
  · refine .inr ⟨⟨rfl, hlpm, hdown⟩, fun hok => ?_, hpower⟩
    cases herr.symm.trans hok

theorem resume_armed_step (hl : l.call = .resume) (hs : power s = (a, v, d, 1, true)) :
    ¬ Fails l s ∧ l.result s = .ok () ∧ power (step l s) = (a, v, d, 0, false) := by
  obtain ⟨call, ι⟩ := l
  obtain rfl : call = .resume := hl
  have hlpm : s.ctx.lpmSuspended = true := by
    simp only [power, Prod.mk.injEq] at hs
    exact hs.2.2.2.2
  have hspec := (wp_sound (resume_armed_spec (A := fun _ => True) hs) ι fun _ _ => trivial).2
  exact ⟨fun h => absurd (h.cut.symm.trans hlpm) Bool.false_ne_true, hspec⟩

/-- The switch touches no supply. -/
theorem dtw_step {parsed : Except Errno Bool} (hl : l.call = .doubleTapToWakeStore parsed)
    (hs : NonNeg s) : Balanced l s ∧ power (step l s) = power s := by
  obtain ⟨call, ι⟩ := l
  obtain rfl : call = .doubleTapToWakeStore parsed := hl
  have hkeeps : Issues KeepsPower (doubleTapToWakeStore parsed) := by
    cases parsed with
    | error e => trivial
    | ok enabled => exact ⟨fun _ => rfl, fun _ => trivial⟩
  obtain ⟨hsafe, hend⟩ := wp_sound (wp_raises (A := fun _ => True)
    (hkeeps.mono fun _ => KeepsPower.raises) hs) ι fun _ _ => trivial
  have hpower := (wp_sound (wp_keepsPower (A := fun _ => True) (f := sign) (l := []) (s := s) hkeeps)
    ι fun _ _ => trivial).2
  exact ⟨⟨Monitor.safe_each.1 hsafe, hend, fun h => nomatch h⟩, hpower⟩

end Steps

/-! ## Runs -/

def Awake (s : State) : Prop := power s = (1, 1, 0, 0, false)

/-- Asleep with the power cut, or with the gesture armed. -/
def Asleep (s : State) : Prop := power s = (0, 0, 1, 0, false) ∨ power s = (1, 1, 0, 1, true)

/-- Awake or asleep, as the alternation says. -/
def InPhase (asleep : Bool) (s : State) : Prop := if asleep then Asleep s else Awake s

/-- After a failed resume, until the next suspend: the interrupt is disabled, and the supplies are off
if `dark` and on otherwise. -/
def DamagedAwake (dark : Prop) (s : State) : Prop :=
  ∃ d k, 1 ≤ d ∧ (dark → k = 0) ∧ (¬ dark → k = 1) ∧ power s = (k, k, d, 0, false)

/-- The same after the next suspend, which has cut the power, or has armed the gesture. -/
def DamagedAsleep (s : State) : Prop :=
  (∃ d, 1 ≤ d ∧ power s = (0, 0, d + 1, 0, false)) ∨
    ∃ d k, 1 ≤ d ∧ 0 ≤ k ∧ power s = (k, k, d, 1, true)

def Damaged (dark : Prop) (asleep : Bool) (s : State) : Prop :=
  if asleep then DamagedAsleep s else DamagedAwake dark s

theorem restored_iff {s : State} {a v d w : Int} {b : Bool} (hs : power s = (a, v, d, w, b)) :
    Restored s ↔ a = 1 ∧ v = 1 ∧ d = 0 ∧ w = 0 := by
  simp only [power, Prod.mk.injEq] at hs
  unfold Restored
  rw [hs.1, hs.2.1, hs.2.2.1, hs.2.2.2.1]

theorem nonNeg_of_phase {asleep : Bool} {s : State} (hs : InPhase asleep s) : NonNeg s := by
  cases asleep with
  | false => exact nonNeg_of_power hs (by decide) (by decide)
  | true => rcases hs with h | h <;> exact nonNeg_of_power h (by decide) (by decide)

theorem nonNeg_of_damaged {dark : Prop} {asleep : Bool} {s : State} (hs : Damaged dark asleep s) :
    NonNeg s := by
  cases asleep with
  | false =>
    obtain ⟨d, k, -, hdark, hlit, hpower⟩ := hs
    by_cases h : dark
    · obtain rfl := hdark h
      exact nonNeg_of_power hpower (by decide) (by decide)
    · obtain rfl := hlit h
      exact nonNeg_of_power hpower (by decide) (by decide)
  | true =>
    rcases hs with ⟨d, -, hpower⟩ | ⟨d, k, -, hk, hpower⟩
    · exact nonNeg_of_power hpower (by decide) (by decide)
    · exact nonNeg_of_power hpower hk hk

/-- A suspend after a failed resume is balanced precisely if it does not cut a power that is off. -/
theorem suspend_damaged {l : Step} {s : State} {dark : Prop} (hl : l.call = .suspend)
    (hs : DamagedAwake dark s) :
    (Balanced l s ↔ (dark → Arms l s)) ∧ (Balanced l s → DamagedAsleep (step l s)) := by
  rw [suspend_balanced_iff hl]
  obtain ⟨d, k, hd, hdark, hlit, hpower⟩ := hs
  rcases suspend_step hl hpower with ⟨harms, hnext⟩ | ⟨hcuts, hnext⟩
  · have hk : 0 ≤ k := by
      by_cases h : dark
      · exact Int.le_of_eq (hdark h).symm
      · rw [hlit h]
        decide
    refine ⟨iff_of_true (nonNeg_of_power hnext hk hk) fun _ => harms, fun _ => ?_⟩
    exact .inr ⟨d, k, hd, hk, hnext⟩
  · by_cases h : dark
    · obtain rfl := hdark h
      have hneg : ¬ NonNeg (step l s) := fun hn => by
        have := hn .avdd
        simp only [power, Prod.mk.injEq] at hnext
        omega
      exact ⟨iff_of_false hneg fun ha => hcuts (ha h), fun hn => absurd hn hneg⟩
    · obtain rfl := hlit h
      refine ⟨iff_of_true (nonNeg_of_power hnext (by decide) (by decide)) fun hd => absurd hd h,
        fun _ => .inl ⟨d, hd, hnext⟩⟩

/-- A resume after a failed one is balanced precisely if it fails too. -/
theorem resume_damaged {l : Step} {s : State} (hl : l.call = .resume) (hs : DamagedAsleep s) :
    (Balanced l s ↔ Fails l s) ∧ (Fails l s → DamagedAwake (SupplyFails l s) (step l s)) := by
  have hdamaged : Damaged True true s := hs
  rw [resume_balanced_iff hl (nonNeg_of_damaged hdamaged)]
  rcases hs with ⟨d, hd, hpower⟩ | ⟨d, k, hd, -, hpower⟩
  · rcases resume_cut_step hl hpower with ⟨hnot, hok, hnext⟩ | ⟨hfails, hne, hnext⟩
    · refine ⟨iff_of_false (fun h => ?_) hnot, fun h => absurd h hnot⟩
      have hdepth := ((restored_iff hnext).1 (h hok)).2.2.1
      omega
    · refine ⟨iff_of_true (fun hok => absurd hok hne) hfails, fun _ => ?_⟩
      rcases hnext with ⟨hsupply, hnext⟩ | ⟨hsupply, hnext⟩
      · exact ⟨d + 1, 0, by omega, fun _ => rfl, fun h => absurd hsupply h, hnext⟩
      · exact ⟨d + 1, 1, by omega, fun h => absurd h hsupply, fun _ => rfl, hnext⟩
  · obtain ⟨hnot, hok, hnext⟩ := resume_armed_step hl hpower
    refine ⟨iff_of_false (fun h => ?_) hnot, fun h => absurd h hnot⟩
    have hdepth := ((restored_iff hnext).1 (h hok)).2.2.1
    omega

/-- After a failed resume, the rest of the run is balanced precisely if it is such an aftermath. -/
theorem aftermath_iff {steps : List Step} {dark : Prop} {asleep : Bool} {s : State}
    (hs : Damaged dark asleep s) (halt : Alternates asleep steps) :
    Meets step Balanced steps s ↔ Aftermath dark steps s := by
  induction steps generalizing dark asleep s with
  | nil => exact Iff.rfl
  | cons l steps ih =>
    unfold Alternates at halt
    unfold Meets Aftermath
    cases hc : l.call with
    | suspend =>
      simp only [hc] at halt
      obtain ⟨rfl, hrest⟩ := halt
      obtain ⟨hiff, hnext⟩ := suspend_damaged hc hs
      have htail : Balanced l s → (Meets step Balanced steps (step l s) ↔
          Aftermath dark steps (step l s)) := fun h =>
        have hdamaged : Damaged dark true (step l s) := hnext h
        ih hdamaged hrest
      exact (and_congr_right htail).trans (and_congr_left fun _ => hiff)
    | resume =>
      simp only [hc] at halt
      obtain ⟨rfl, hrest⟩ := halt
      obtain ⟨hiff, hnext⟩ := resume_damaged hc hs
      have htail : Fails l s → (Meets step Balanced steps (step l s) ↔
          Aftermath (SupplyFails l s) steps (step l s)) := fun h =>
        have hdamaged : Damaged (SupplyFails l s) false (step l s) := hnext h
        ih hdamaged hrest
      exact (and_congr_left fun _ => hiff).trans (and_congr_right htail)
    | doubleTapToWakeStore parsed =>
      simp only [hc] at halt
      obtain ⟨hb, hpower⟩ := dtw_step hc (nonNeg_of_damaged hs)
      have hnext : Damaged dark asleep (step l s) := by
        unfold Damaged DamagedAsleep DamagedAwake at hs ⊢
        rwa [hpower]
      exact (and_iff_right hb).trans (ih hnext halt)

/-- Up to the first failed resume the device is awake and asleep in turn, and every step is
balanced. -/
theorem harmless_iff {steps : List Step} {asleep : Bool} {s : State} (hs : InPhase asleep s)
    (halt : Alternates asleep steps) : Meets step Balanced steps s ↔ Harmless steps s := by
  induction steps generalizing asleep s with
  | nil => exact Iff.rfl
  | cons l steps ih =>
    -- a step that is no failed resume keeps to the phases
    have hfine : ∀ {next : Bool}, Balanced l s → ¬ Fails l s → InPhase next (step l s) →
        Alternates next steps → (Meets step Balanced (l :: steps) s ↔ Harmless (l :: steps) s) := by
      intro next hb hnot hphase hrest
      refine (and_iff_right hb).trans ((ih hphase hrest).trans ?_)
      exact ⟨fun h => ⟨fun hf => absurd hf hnot, fun _ => h⟩, fun h => h.2 hnot⟩
    unfold Alternates at halt
    cases hc : l.call with
    | suspend =>
      simp only [hc] at halt
      obtain ⟨rfl, hrest⟩ := halt
      have hasleep : InPhase true (step l s) := by
        rcases suspend_step hc hs with ⟨-, h⟩ | ⟨-, h⟩
        · exact .inr h
        · exact .inl h
      have hnot : ¬ Fails l s := fun h => absurd (hc.symm.trans h.resume) (nomatch ·)
      have hb : Balanced l s := (suspend_balanced_iff hc).2 (nonNeg_of_phase hasleep)
      exact hfine hb hnot hasleep hrest
    | resume =>
      simp only [hc] at halt
      obtain ⟨rfl, hrest⟩ := halt
      have hbal := resume_balanced_iff hc (nonNeg_of_phase hs)
      have hrestored : power (step l s) = (1, 1, 0, 0, false) → Balanced l s :=
        fun h => hbal.2 fun _ => (restored_iff h).2 ⟨rfl, rfl, rfl, rfl⟩
      rcases hs with hpower | hpower
      · rcases resume_cut_step hc hpower with ⟨hnot, -, hnext⟩ | ⟨hfails, hne, hnext⟩
        · have hawake : InPhase false (step l s) := hnext
          exact hfine (hrestored hnext) hnot hawake hrest
        · have hdamaged : Damaged (SupplyFails l s) false (step l s) := by
            rcases hnext with ⟨hsupply, hnext⟩ | ⟨hsupply, hnext⟩
            · exact ⟨1, 0, Int.le_refl 1, fun _ => rfl, fun h => absurd hsupply h, hnext⟩
            · exact ⟨1, 1, Int.le_refl 1, fun h => absurd h hsupply, fun _ => rfl, hnext⟩
          have hb : Balanced l s := hbal.2 fun hok => absurd hok hne
          refine (and_iff_right hb).trans ((aftermath_iff hdamaged hrest).trans ?_)
          exact ⟨fun h => ⟨fun _ => h, fun hnot => absurd hfails hnot⟩, fun h => h.1 hfails⟩
      · obtain ⟨hnot, -, hnext⟩ := resume_armed_step hc hpower
        have hawake : InPhase false (step l s) := hnext
        exact hfine (hrestored hnext) hnot hawake hrest
    | doubleTapToWakeStore parsed =>
      simp only [hc] at halt
      obtain ⟨hb, hpower⟩ := dtw_step hc (nonNeg_of_phase hs)
      have hnext : InPhase asleep (step l s) := by
        unfold InPhase Asleep Awake at hs ⊢
        rwa [hpower]
      have hnot : ¬ Fails l s := fun h => absurd (hc.symm.trans h.resume) (nomatch ·)
      exact hfine hb hnot hnext halt

/-- **Suspend and resume balance.** In a run of alternating suspends and resumes of a probed device,
whatever fails, no supply is ever disabled more often than enabled and every resume that returns zero
restores both supplies, the interrupt and its wake depth, precisely if after the first failed resume
every resume fails, and no suspend cuts the power after one whose supplies did not come up. -/
theorem suspend_resume_balanced_iff {steps : List Step} (halt : Alternates false steps) :
    Meets step Balanced steps .probed ↔ Harmless steps .probed :=
  have hprobed : InPhase false .probed := rfl
  harmless_iff hprobed halt

/-- Every access succeeds, and the controller reports that it is ready. -/
def readyInputs : Nat → Input := fun _ => { data := fun k => if k = 0 then 0x09 else 0 }

/-- One suspend and resume with the power cut, one with the gesture armed, and two more, whose resumes
both fail, the first one on the bus and the second one with a supply. -/
def failsTwice : List Step :=
  [⟨.suspend, readyInputs⟩, ⟨.resume, readyInputs⟩,
    ⟨.doubleTapToWakeStore (.ok true), readyInputs⟩,
    ⟨.suspend, fun _ => { flag := true }⟩, ⟨.resume, readyInputs⟩,
    ⟨.suspend, readyInputs⟩, ⟨.resume, fun n => if n = 3 then { fault := some .eio } else {}⟩,
    ⟨.suspend, readyInputs⟩, ⟨.resume, fun _ => { fault := some .eio }⟩]

theorem suspend_resume_balanced_iff_failsTwice : Meets step Balanced failsTwice .probed := by
  refine (suspend_resume_balanced_iff ?_).2 ?_
  · exact ⟨rfl, rfl, rfl, rfl, rfl, rfl, rfl, rfl, trivial⟩
  refine ⟨fun h => (nomatch h.resume), fun _ => ⟨fun h => absurd ?_ h.down, fun _ => ?_⟩⟩
  · exact ⟨by decide, by decide, by decide⟩
  refine ⟨fun h => (nomatch h.resume), fun _ => ⟨fun h => (nomatch h.resume), fun _ => ?_⟩⟩
  refine ⟨fun h => (nomatch h.cut), fun _ => ⟨fun h => (nomatch h.resume), fun _ => ?_⟩⟩
  have hbus : Fails ⟨.resume, fun n => if n = 3 then { fault := some .eio } else {}⟩
      (runFrom step (failsTwice.take 6) .probed) := ⟨rfl, rfl, fun h => h.2.1 (by decide)⟩
  refine ⟨fun _ => ⟨fun h => absurd h (by decide), ⟨rfl, rfl, fun h => h.1 (by decide)⟩, trivial⟩,
    fun hnot => absurd hbus hnot⟩

/-- The controller does not answer in the first resume. The next suspend disables the interrupt a
second time, and the next resume returns zero with it still disabled. -/
theorem failed_resume_unbalances :
    Alternates false [⟨.suspend, readyInputs⟩, ⟨.resume, fun n => match n with
      | 3 => { fault := some .eio }
      | _ => {}⟩, ⟨.suspend, readyInputs⟩, ⟨.resume, readyInputs⟩] ∧
    ¬ Meets step Balanced [⟨.suspend, readyInputs⟩, ⟨.resume, fun n => match n with
      | 3 => { fault := some .eio }
      | _ => {}⟩, ⟨.suspend, readyInputs⟩, ⟨.resume, readyInputs⟩] .probed := by
  refine ⟨⟨rfl, rfl, rfl, rfl, trivial⟩, fun h => ?_⟩
  have hlast := h.2.2.2.1.restored rfl rfl
  exact absurd hlast.2.2.1 (by decide)

end Gts9Wifi.Touch
