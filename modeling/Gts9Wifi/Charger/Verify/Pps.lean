import Gts9Wifi.Charger.Verify.Arbitration
import Gts9Wifi.Charger.Verify.Parking

/-!
# The operating points the pump asks for

While the pump runs, TCPM reports every contract it agrees to `sm5714_usbpd`, which passes it on to
the SM5714 driver. That driver takes 5 V to 9 V and at most 3 A, while the pump driver asks for up to
10.5 V and 5 A. A point is recorded precisely when it lies in both ranges, which for a point computed
from a battery voltage is a condition on that voltage and on the current the source granted.
-/

namespace Gts9Wifi.Charger.Sm5440

open Driver

/-! ## Vocabulary -/

/-- The battery voltage an operation reads, if it does. -/
def voltageOf (e : Event board) : Option Int :=
  match e.op with
  | .psyGet .battery .voltageNow => if e.input.fault = none then some e.input.val else none
  | _ => none

/-- The contract, as current and voltage, that TCPM has agreed for an operating point of the pump.
The pump driver asks for a point with the voltage; while the pump runs it repeats the current. Before
that, a current is only tried. -/
def pointOf (e : Event board) : Option (Nat × Nat) :=
  if e.input.fault = none then
    match e.op with
    | .psySet .voltageNow v => some ((e.pre.tcpm.currentUa / 1000).toNat, (v / 1000).toNat)
    | .psySet .currentNow v =>
      if e.pre.mem.dc.active then some ((v / 1000).toNat, (e.pre.tcpm.voltageUv / 1000).toNat)
      else none
    | _ => none
  else none

/-- TCPM reports the contract: it is not out of range, and the drivers' records describe it. -/
structure Recorded (ma mv : Nat) (s : State) : Prop where
  inRange : ∀ κ, ((Sm5714.setCurrentLimit ma mv).seq.run board κ s).1 ≠ .error .erange
  typec : s.mem.primary = true → ∀ κ,
    ((Sm5714.setCurrentLimit ma mv).seq.run board κ s).2.mem.bat.typecMv = mv ∧
      ((Sm5714.setCurrentLimit ma mv).seq.run board κ s).2.mem.bat.typecMa = ma
  negotiated : s.mem.primary = true → ∀ κ,
    ((Sm5714.setCurrentLimit ma mv).seq.run board κ s).2.mem.negotiatedMv = mv ∧
      ((Sm5714.setCurrentLimit ma mv).seq.run board κ s).2.mem.negotiatedMa = ma

/-- The point for this current at this battery voltage lies in the SM5714's range. -/
def BothAllow (ma vbatUv : Nat) : Prop :=
  ma ≤ 3000 ∧ vbatUv / 1000 * 2 + divRoundUp (ma * rTtlMilliohm) 1000 + extraHeadroomMv ≤ 9000

instance (ma vbatUv : Nat) : Decidable (BothAllow ma vbatUv) := inferInstanceAs (Decidable (_ ∧ _))

/-- Judges each operation by the battery voltage that was read last. -/
abbrev voltageMonitor (ok : Option Int → Event board → Prop) : Monitor board where
  St := Option Int
  step v e := voltageOf e <|> v
  ok := ok

/-- Every contract that TCPM agrees in the step for a point of the pump is recorded. -/
def PointsRecorded (l : PumpStep) (s : State) : Prop :=
  ∀ e ∈ l.trace s, ∀ ma mv, pointOf e = some (ma, mv) → Recorded ma mv (handle e.op e.input e.pre).2

/-- The point is allowed by both drivers at the battery voltage read last. -/
def Allowed (v : Option Int) (e : Event board) : Prop :=
  ∀ p ∈ pointOf e, ∀ x ∈ v, BothAllow p.1 x.toNat

/-- Every such point is allowed. -/
def PointsAllowed (l : PumpStep) (s : State) : Prop :=
  (voltageMonitor Allowed).Safe none (l.trace s)

instance (v : Option Int) (e : Event board) : Decidable (Allowed v e) :=
  inferInstanceAs (Decidable (∀ p ∈ pointOf e, ∀ x ∈ v, BothAllow p.1 x.toNat))

instance (l : PumpStep) (s : State) : Decidable (PointsAllowed l s) :=
  Monitor.decidableSafe (M := voltageMonitor Allowed) none (l.trace s)

/-- Negotiating leaves the memory alone. -/
theorem mem_of_pointOf {e : Event board} {p : Nat × Nat} (h : pointOf e = some p) :
    (handle e.op e.input e.pre).2.mem = e.pre.mem := by
  obtain ⟨o, i, s⟩ := e
  unfold pointOf at h
  dsimp only at h ⊢
  split at h
  · next hf =>
    cases o with
    | psySet prop x =>
      simp only [handle, apply_none hf]
      cases prop <;> rfl
    | _ => cases h
  · cases h

/-! ## The two ranges -/

theorem ppsTargetMv_le_iff (ma vbatUv : Nat) : ppsTargetMv ma vbatUv ≤ 9000 ↔
    vbatUv / 1000 * 2 + divRoundUp (ma * rTtlMilliohm) 1000 + extraHeadroomMv ≤ 9000 := by
  unfold ppsTargetMv
  simp only [divRoundUp, ppsVStepMv, maxPpsMv]
  omega

theorem le_ppsTargetMv (ma vbatUv : Nat) : 8200 ≤ ppsTargetMv ma vbatUv := by
  unfold ppsTargetMv
  simp only [maxPpsMv]
  omega

/-- All targets are on the 20 mV grid of the source. -/
theorem ppsTargetMv_mod (ma vbatUv : Nat) : ppsTargetMv ma vbatUv % ppsVStepMv = 0 := by
  unfold ppsTargetMv
  simp only [ppsVStepMv, maxPpsMv]
  omega

/-- A target that has moved by less than a step has not moved. -/
theorem ppsTargetMv_eq_of_near {ma v w : Nat}
    (h : ¬ ((ppsTargetMv ma v : Int) - ppsTargetMv ma w).natAbs ≥ ppsVStepMv) :
    ppsTargetMv ma w = ppsTargetMv ma v := by
  have hv := ppsTargetMv_mod ma v
  have hw := ppsTargetMv_mod ma w
  unfold ppsVStepMv at h hv hw
  omega

theorem contractInRange_ppsTargetMv (ma vbatUv : Nat) :
    Sm5714.contractInRange (ppsTargetMv ma vbatUv) ma = true ↔ BothAllow ma vbatUv := by
  have hlow := le_ppsTargetMv ma vbatUv
  have hhigh := ppsTargetMv_le_iff ma vbatUv
  unfold BothAllow
  rw [← hhigh]
  simp only [Sm5714.contractInRange, Bool.not_or, Bool.and_eq_true, Bool.not_eq_true',
    decide_eq_false_iff_not]
  omega

theorem setCurrentLimit_of_direct {A : Event board → Prop} {s : State}
    (hdirect : s.mem.bat.directCharging = true) (ma mv : Nat) :
    wp A (Monitor.idle board) (Sm5714.setCurrentLimit ma mv).seq (fun r _ s' =>
      (r = .error .erange ↔ Sm5714.contractInRange mv ma = false) ∧
      (Sm5714.contractInRange mv ma = true → s.mem.primary = true →
        s'.mem.bat.typecMv = mv ∧ s'.mem.bat.typecMa = ma ∧
        s'.mem.negotiatedMv = mv ∧ s'.mem.negotiatedMa = ma)) () s := by
  unfold Sm5714.setCurrentLimit
  apply Thread.wp_seq_bind (Sm5714.setPdContract_of_direct hdirect mv ma)
  intro r _ s₁ hnoted
  cases hrange : Sm5714.contractInRange mv ma with
  | false =>
    obtain ⟨rfl, -⟩ := hnoted.refused hrange
    exact ⟨⟨fun _ => rfl, fun _ => rfl⟩, fun h => (nomatch h)⟩
  | true =>
    cases hprimary : s.mem.primary with
    | false =>
      obtain ⟨rfl, -⟩ := hnoted.unbound hrange hprimary
      exact ⟨⟨fun h => absurd h (by decide), fun h => (nomatch h)⟩, fun _ h => (nomatch h)⟩
    | true =>
      obtain ⟨rfl, hbat⟩ := hnoted.noted hrange hprimary
      dsimp only
      rw [Thread.seq_bind, Thread.seq_interruptible, wp_bind]
      refine wp_store ⟨⟨fun h => (nomatch h), fun h => (nomatch h)⟩, fun _ _ => ?_⟩
      rw [setMem_mem]
      refine ⟨?_, ?_, rfl, rfl⟩
      · exact congrArg Battery.typecMv hbat
      · exact congrArg Battery.typecMa hbat

/-- **While direct charging is granted, a contract is recorded precisely when it is in range.** -/
theorem recorded_iff {s : State} (hdirect : s.mem.bat.directCharging = true) (ma mv : Nat) :
    Recorded ma mv s ↔ Sm5714.contractInRange mv ma = true := by
  have hspec := fun κ => (wp_sound (setCurrentLimit_of_direct (A := fun _ => True) hdirect ma mv) κ
    fun _ _ => trivial).2
  constructor
  · intro hrec
    rw [← Bool.not_eq_false]
    intro hrange
    exact hrec.inRange (inputs []) ((hspec (inputs [])).1.2 hrange)
  · intro hrange
    have hnot : Sm5714.contractInRange mv ma ≠ false := by
      rw [hrange]
      exact Bool.noConfusion
    refine ⟨fun κ h => hnot ((hspec κ).1.1 h), fun hp κ => ?_, fun hp κ => ?_⟩
    · obtain ⟨h1, h2, -, -⟩ := (hspec κ).2 hrange hp
      exact ⟨h1, h2⟩
    · obtain ⟨-, -, h3, h4⟩ := (hspec κ).2 hrange hp
      exact ⟨h3, h4⟩

/-! ## Where the points come from -/

/-- The point was computed from the battery voltage read last, with direct charging granted. -/
def Grounded (v : Option Int) (e : Event board) : Prop :=
  ∀ ma mv, pointOf e = some (ma, mv) →
    e.pre.mem.bat.directCharging = true ∧ ∃ x, v = some x ∧ mv = ppsTargetMv ma x.toNat

abbrev pointMonitor : Monitor board := voltageMonitor Grounded

/-- While active, the driver's target is a point it has computed, and what TCPM has agreed. -/
structure OnPoint (s : State) : Prop where
  granted : s.mem.dc.active = true → s.mem.bat.directCharging = true
  current : s.mem.dc.active = true → s.tcpm.currentUa = (s.mem.dc.targetMa * 1000 : Nat)
  voltage : s.mem.dc.active = true → s.tcpm.voltageUv = (s.mem.dc.targetMv * 1000 : Nat)
  point : s.mem.dc.active = true → ∃ x, s.mem.dc.targetMv = ppsTargetMv s.mem.dc.targetMa x

theorem onPoint_of_inactive {s : State} (h : s.mem.dc.active = false) : OnPoint s := by
  have hf : s.mem.dc.active = true → False := fun h' => Bool.false_ne_true (h.symm.trans h')
  exact ⟨fun h => (hf h).elim, fun h => (hf h).elim, fun h => (hf h).elim, fun h => (hf h).elim⟩

/-- Nothing that `OnPoint` mentions has changed. -/
structure Unmoved (s s' : State) : Prop where
  active : s'.mem.dc.active = s.mem.dc.active
  targetMa : s'.mem.dc.targetMa = s.mem.dc.targetMa
  targetMv : s'.mem.dc.targetMv = s.mem.dc.targetMv
  granted : s'.mem.bat.directCharging = s.mem.bat.directCharging
  current : s'.tcpm.currentUa = s.tcpm.currentUa
  voltage : s'.tcpm.voltageUv = s.tcpm.voltageUv

theorem Unmoved.refl (s : State) : Unmoved s s := ⟨rfl, rfl, rfl, rfl, rfl, rfl⟩

theorem Unmoved.trans {s₁ s₂ s₃ : State} (h12 : Unmoved s₁ s₂) (h23 : Unmoved s₂ s₃) :
    Unmoved s₁ s₃ where
  active := h23.active.trans h12.active
  targetMa := h23.targetMa.trans h12.targetMa
  targetMv := h23.targetMv.trans h12.targetMv
  granted := h23.granted.trans h12.granted
  current := h23.current.trans h12.current
  voltage := h23.voltage.trans h12.voltage

theorem OnPoint.of_unmoved {s s' : State} (h : OnPoint s) (hu : Unmoved s s') : OnPoint s' := by
  constructor
  · intro ha
    rw [hu.granted]
    exact h.granted (hu.active.symm.trans ha)
  · intro ha
    rw [hu.current, hu.targetMa]
    exact h.current (hu.active.symm.trans ha)
  · intro ha
    rw [hu.voltage, hu.targetMv]
    exact h.voltage (hu.active.symm.trans ha)
  · intro ha
    rw [hu.targetMv, hu.targetMa]
    exact h.point (hu.active.symm.trans ha)

/-- Operations that ask for no point and leave what `OnPoint` mentions alone. -/
def Pointless : Op → Prop
  | .psySet prop _ => prop = .online
  | .store f => ∀ m, (f m).dc.active = m.dc.active ∧ (f m).dc.targetMa = m.dc.targetMa ∧
      (f m).dc.targetMv = m.dc.targetMv ∧ (f m).bat.directCharging = m.bat.directCharging
  | _ => True

/-- The `Pointless` operations that do not read the battery voltage either. -/
def Aloof (o : Op) : Prop := Pointless o ∧ o ≠ .psyGet .battery .voltageNow

theorem grounded_of_ne {o : Op} (h : ∀ prop x, o ≠ .psySet prop x) (v : Option Int) (i : Input)
    (s : State) : Grounded v ⟨o, i, s⟩ := by
  intro ma mv hp
  unfold pointOf at hp
  cases o with
  | psySet prop x => exact absurd rfl (h prop x)
  | _ => split at hp <;> cases hp

theorem grounded_store {f : Mem → Mem} {v : Option Int} {i : Input} {s : State} :
    Grounded v ⟨.store f, i, s⟩ :=
  grounded_of_ne (fun _ _ => Op.noConfusion) v i s

theorem Elsewhere.grounded {o : Op} (h : Elsewhere o) (v : Option Int) (i : Input) (s : State) :
    Grounded v ⟨o, i, s⟩ := by
  refine grounded_of_ne (fun prop x ho => ?_) v i s
  subst ho
  exact h

theorem Pointless.grounded {o : Op} (h : Pointless o) (v : Option Int) (i : Input) (s : State) :
    Grounded v ⟨o, i, s⟩ := by
  by_cases hset : ∃ prop x, o = .psySet prop x
  · obtain ⟨prop, x, rfl⟩ := hset
    intro ma mv hp
    unfold pointOf at hp
    rw [show prop = .online from h] at hp
    split at hp <;> cases hp
  · exact grounded_of_ne (fun prop x ho => hset ⟨prop, x, ho⟩) v i s

theorem Pointless.unmoved {o : Op} (h : Pointless o) (i : Input) (s : State) :
    Unmoved s (handle o i s).2 := by
  cases o with
  | store f =>
    obtain ⟨h1, h2, h3, h4⟩ := h s.mem
    exact ⟨h1, h2, h3, h4, rfl, rfl⟩
  | psySet prop x =>
    subst h
    cases hf : i.fault <;> simp only [handle, Input.apply, hf] <;> exact ⟨rfl, rfl, rfl, rfl, rfl, rfl⟩
  | chgWrite r x | muicWrite r x | dcWrite r x =>
    cases hf : i.fault <;> simp only [handle, Input.apply, hf] <;> exact ⟨rfl, rfl, rfl, rfl, rfl, rfl⟩
  | _ => exact ⟨rfl, rfl, rfl, rfl, rfl, rfl⟩

theorem voltageOf_of_ne {o : Op} (h : o ≠ .psyGet .battery .voltageNow) (i : Input) (s : State) :
    voltageOf ⟨o, i, s⟩ = none := by
  unfold voltageOf
  split
  · next ho => exact absurd ho h
  · rfl

instance : pointMonitor.Ignores Op.load where
  accepts v i s := Pointless.grounded (o := .load) trivial v i s
  stays _ _ _ := rfl

section

variable {A : Event board → Prop} {α : Type} {v : Option Int} {s : State}

theorem wp_pointless {p : Code α} (hp : Issues Pointless p) :
    wp A pointMonitor p (fun _ _ s' => Unmoved s s') v s :=
  hp.wp (W := board) (M := pointMonitor) (J := fun _ s' => Unmoved s s')
    (fun _ ho i v' s' _ hu => ⟨ho.grounded v' i s', hu.trans (ho.unmoved i s')⟩) (Unmoved.refl s)

theorem wp_aloof {p : Code α} (hp : Issues Aloof p) :
    wp A pointMonitor p (fun _ v' s' => v' = v ∧ Unmoved s s') v s := by
  refine hp.wp (W := board) (M := pointMonitor) (J := fun v' s' => v' = v ∧ Unmoved s s') ?_
    ⟨rfl, Unmoved.refl s⟩
  rintro o ho i _ s' - ⟨rfl, hu⟩
  refine ⟨ho.1.grounded _ i s', ?_, hu.trans (ho.1.unmoved i s')⟩
  show (voltageOf ⟨o, i, s'⟩ <|> _) = _
  rw [voltageOf_of_ne ho.2]
  rfl

end

/-! ## Negotiating and refreshing -/

section

variable {A : Event board → Prop} {v : Option Int} {s : State}

/-- What a property write with its retries has done to the memory and to TCPM. -/
structure Agreed (prop : PsyProp) (value : Int) (s : State) (r : Except Errno Unit) (s' : State) :
    Prop where
  mem : s'.mem = s.mem
  ok : r = .ok () → s'.tcpm = (s.setTcpm prop value).tcpm
  failed : r ≠ .ok () → s'.tcpm = s.tcpm

theorem Agreed.unmoved {prop : PsyProp} {value : Int} {r : Except Errno Unit} {s' : State}
    (h : Agreed prop value s r s') (hr : r ≠ .ok ()) : Unmoved s s' := by
  have htcpm := h.failed hr
  constructor <;> first | rw [h.mem] | rw [htcpm]

theorem settle_setTcpm (s : State) (i : Input) (prop : PsyProp) (value : Int) :
    ((s.settle i).setTcpm prop value).tcpm = (s.setTcpm prop value).tcpm := by
  cases prop <;> rfl

theorem setTcpm_mem (s : State) (prop : PsyProp) (value : Int) :
    (s.setTcpm prop value).mem = s.mem := by
  cases prop <;> rfl

theorem psyAttempts_agreed {prop : PsyProp} {value : Int}
    (hpoint : ∀ s' i, s'.mem = s.mem → s'.tcpm = s.tcpm → Grounded v ⟨.psySet prop value, i, s'⟩)
    (n : Nat) :
    wp A pointMonitor (psyAttempts prop value n).run
      (fun r v' s' => v' = v ∧ Agreed prop value s r s') v s := by
  refine wp_psyAttempts (J := fun v' s' => v' = v ∧ s'.mem = s.mem ∧ s'.tcpm = s.tcpm)
    ?_ ?_ ?_ ?_ n ⟨rfl, rfl, rfl⟩
  · rintro i v' s' ⟨rfl, hmem, htcpm⟩
    exact hpoint s' i hmem htcpm
  · rintro i v' s' ⟨rfl, hmem, htcpm⟩ -
    exact ⟨rfl, hmem, htcpm⟩
  · rintro i v' s' ⟨rfl, hmem, htcpm⟩ -
    refine ⟨rfl, (setTcpm_mem _ _ _).trans hmem, fun _ => ?_, fun hr => absurd rfl hr⟩
    cases prop <;> simp [State.setTcpm, State.settle, htcpm]
  · rintro e v' s' ⟨rfl, hmem, htcpm⟩
    exact ⟨rfl, hmem, fun hr => (by cases hr), fun _ => htcpm⟩

theorem psyRetry_online_aloof (value : Int) : Issues Aloof (psyRetry .online value).run :=
  psyAttempts_issues ⟨rfl, Op.noConfusion⟩ pdRetries

/-- Trying currents, which is done while inactive, asks for no point. -/
theorem walkCurrent_agreed (hinactive : s.mem.dc.active = false) (n ma : Nat) :
    wp A pointMonitor (walkCurrent n ma).run (fun r v' s' => v' = v ∧ s'.mem = s.mem ∧
      ∀ ma', r = .ok ma' → s'.tcpm.currentUa = (ma' * 1000 : Nat)) v s := by
  induction n generalizing s ma with
  | zero => exact ⟨rfl, rfl, fun _ hr => (by cases hr)⟩
  | succ n ih =>
    unfold walkCurrent
    have hpoint : ∀ (s' : State) i, s'.mem = s.mem → s'.tcpm = s.tcpm →
        Grounded v ⟨.psySet .currentNow (ma * 1000 : Nat), i, s'⟩ := by
      intro s' i hmem _ ma' mv' hp
      unfold pointOf at hp
      dsimp only at hp
      rw [hmem, hinactive] at hp
      split at hp <;> cases hp
    apply wp_run_attempt_seq (psyAttempts_agreed hpoint _)
    intro r v₁ s₁ hr
    obtain ⟨rfl, h1⟩ := hr
    cases r with
    | error e =>
      dsimp only
      split
      · refine wp_mono (ih (by rw [h1.mem]; exact hinactive) _) fun r v' s' hr => ?_
        exact ⟨hr.1, hr.2.1.trans h1.mem, hr.2.2⟩
      · exact ⟨rfl, h1.mem, fun _ hr => (by cases hr)⟩
    | ok _ =>
      refine ⟨rfl, h1.mem, fun ma' hr => ?_⟩
      cases hr
      rw [h1.ok rfl]
      rfl

/-- The pump driver holds a point that it computed from the battery voltage `x`. -/
structure Holds (x ma mv : Nat) (s : State) : Prop where
  granted : s.mem.bat.directCharging = true
  current : s.tcpm.currentUa = (ma * 1000 : Nat)
  voltage : s.tcpm.voltageUv = (mv * 1000 : Nat)
  point : mv = ppsTargetMv ma x

theorem Holds.of_unmoved {x ma mv : Nat} {s' : State} (h : Holds x ma mv s) (hu : Unmoved s s') :
    Holds x ma mv s' :=
  ⟨hu.granted.trans h.granted, hu.current.trans h.current, hu.voltage.trans h.voltage, h.point⟩

/-- A voltage write for a point at the battery voltage read last. -/
theorem grounded_voltage {x : Int} {ma : Nat} {i : Input}
    (hdirect : s.mem.bat.directCharging = true) (hcurrent : s.tcpm.currentUa = (ma * 1000 : Nat)) :
    Grounded (some x) ⟨.psySet .voltageNow (ppsTargetMv ma x.toNat * 1000 : Nat), i, s⟩ := by
  intro ma' mv' hp
  unfold pointOf at hp
  dsimp only at hp
  split at hp
  · simp only [hcurrent, Option.some.injEq, Prod.mk.injEq] at hp
    have hma : ma' = ma := by omega
    have hmv : mv' = ppsTargetMv ma x.toNat := by omega
    exact ⟨hdirect, x, rfl, by rw [hmv, hma]⟩
  · cases hp

/-- The point that `sm5440_negotiate_pps` returns is the one TCPM has agreed. -/
theorem negotiatePps_agreed (hinactive : s.mem.dc.active = false)
    (hdirect : s.mem.bat.directCharging = true) {x : Int} (hv : v = some x) :
    wp A pointMonitor (negotiatePps x.toNat).run
      (fun r _ s' => ∀ ma mv, r = .ok (ma, mv) → Holds x.toNat ma mv s') v s := by
  subst hv
  unfold negotiatePps
  apply wp_run_load_seq
  apply wp_run_seq (wp_aloof (psyRetry_online_aloof 2))
  · intro e v₁ s₁ _ ma mv hr
    cases hr
  intro _ v₁ s₁ h1
  obtain ⟨rfl, h1⟩ := h1
  -- whatever goes wrong from here on, the port is asked for its fixed contract
  have hback : ∀ {v' s'} (e : Errno), wp A pointMonitor (do
        let _ ← attempt (psyRetry .online 1)
        throw e : Fallible (Nat × Nat)).run
      (fun r _ s' => ∀ ma mv, r = .ok (ma, mv) → Holds x.toNat ma mv s') v' s' := by
    intro v' s' e
    apply wp_run_attempt_seq (wp_aloof (psyRetry_online_aloof 1))
    intro _ v'' s'' _ ma mv hr
    cases hr
  rw [wp_run_bind, wp_run_attempt, wp_run_bind]
  refine wp_mono (walkCurrent_agreed (h1.active.trans hinactive) _ _) ?_
  intro r v₂ s₂ h2
  obtain ⟨rfl, hmem₂, hcurrent⟩ := h2
  cases r with
  | error e => exact hback e
  | ok ma =>
  have hdirect₂ : s₂.mem.bat.directCharging = true := by
    rw [hmem₂]
    exact h1.granted.trans hdirect
  apply wp_run_seq (psyAttempts_agreed (fun s' j hmem htcpm => grounded_voltage
    (by rw [hmem]; exact hdirect₂) (by rw [htcpm]; exact hcurrent ma rfl)) _)
  · intro e v₃ s₃ _
    exact hback e
  intro _ v₃ s₃ h3 ma' mv' hr
  obtain ⟨-, h3⟩ := h3
  cases hr
  refine ⟨?_, ?_, ?_, rfl⟩
  · rw [h3.mem]
    exact hdirect₂
  · rw [h3.ok rfl]
    exact hcurrent ma rfl
  · rw [h3.ok rfl]
    rfl

/-- Reading the battery voltage: what is returned is what was read last. -/
theorem psyGetNonneg_voltage :
    wp A pointMonitor (psyGetNonneg .battery .voltageNow).run (fun r v' s' => Unmoved s s' ∧
      ∀ n, r = .ok n → ∃ x : Int, v' = some x ∧ n = x.toNat) v s := by
  refine wp_and (wp_pointless ((psyGetNonneg_looks _ _).mono fun o ho => ?_)) ?_
  · cases o with
    | psySet _ _ | store _ => exact ho.elim
    | _ => trivial
  refine wp_psyGetNonneg (fun i => Pointless.grounded (o := .psyGet _ _) trivial _ i s) ?_ ?_
  · intro i e n hr
    cases hr
  · intro i hf n hr
    cases hr
    refine ⟨i.val, ?_, rfl⟩
    show (voltageOf _ <|> v) = _
    simp only [voltageOf, hf, ↓reduceIte]
    rfl

/-- Repeating the current at a target computed from the voltage read last. -/
theorem repeatCurrent_onPoint {x : Int} (hs : OnPoint s) (hactive : s.mem.dc.active = true)
    (hmv : s.mem.dc.targetMv = ppsTargetMv s.mem.dc.targetMa x.toNat) :
    wp A pointMonitor (psyRetry .currentNow (s.mem.dc.targetMa * 1000 : Nat)).run
      (fun _ _ s' => OnPoint s' ∧ s'.mem.dc.active = true) (some x) s := by
  have hpoint : ∀ (s' : State) j, s'.mem = s.mem → s'.tcpm = s.tcpm →
      Grounded (some x) ⟨.psySet .currentNow (s.mem.dc.targetMa * 1000 : Nat), j, s'⟩ := by
    intro s' j hmem htcpm ma' mv' hp
    unfold pointOf at hp
    dsimp only at hp
    rw [hmem, htcpm, if_pos hactive, hs.voltage hactive, hmv] at hp
    split at hp
    · simp only [Option.some.injEq, Prod.mk.injEq] at hp
      have hma' : ma' = s.mem.dc.targetMa := by omega
      have hmv' : mv' = ppsTargetMv s.mem.dc.targetMa x.toNat := by omega
      refine ⟨?_, x, rfl, by rw [hmv', hma']⟩
      rw [hmem]
      exact hs.granted hactive
    · cases hp
  refine wp_mono (psyAttempts_agreed hpoint _) ?_
  intro r v' s' hr
  obtain ⟨-, h⟩ := hr
  have hcurrent : s'.tcpm.currentUa = (s.mem.dc.targetMa * 1000 : Nat) := by
    by_cases hr : r = .ok ()
    · rw [h.ok hr]
      rfl
    · rw [h.failed hr]
      exact hs.current hactive
  have hvoltage : s'.tcpm.voltageUv = s.tcpm.voltageUv := by
    by_cases hr : r = .ok ()
    · rw [h.ok hr]
      rfl
    · rw [h.failed hr]
  refine ⟨⟨fun _ => ?_, fun _ => ?_, fun _ => ?_, fun _ => ?_⟩, by rw [h.mem]; exact hactive⟩
  · rw [h.mem]
    exact hs.granted hactive
  · rw [h.mem]
    exact hcurrent
  · rw [h.mem, hvoltage]
    exact hs.voltage hactive
  · rw [h.mem]
    exact hs.point hactive

/-- A refresh asks for nothing but the point at the battery voltage it has read. -/
theorem refreshPps_onPoint (hs : OnPoint s) (hactive : s.mem.dc.active = true) :
    wp A pointMonitor refreshPps.run (fun _ _ s' => OnPoint s' ∧ s'.mem.dc.active = true) v s := by
  unfold refreshPps
  apply wp_run_seq psyGetNonneg_voltage
  · intro e v₁ s₁ h1
    exact ⟨hs.of_unmoved h1.1, h1.1.active.trans hactive⟩
  intro n v₁ s₁ h1
  obtain ⟨hu, hn⟩ := h1
  obtain ⟨x, rfl, rfl⟩ := hn n rfl
  have hs₁ : OnPoint s₁ := hs.of_unmoved hu
  have hactive₁ : s₁.mem.dc.active = true := hu.active.trans hactive
  apply wp_run_load_seq
  dsimp only
  split
  · -- the target has moved: the new one is asked for, and kept if TCPM agrees
    apply wp_run_seq (psyAttempts_agreed (fun s' j hmem htcpm => grounded_voltage
      (by rw [hmem]; exact hs₁.granted hactive₁) (by rw [htcpm]; exact hs₁.current hactive₁)) _)
    · intro e v₂ s₂ h2
      have hu₂ : Unmoved s₁ s₂ := h2.2.unmoved (fun h => nomatch h)
      exact ⟨hs₁.of_unmoved hu₂, hu₂.active.trans hactive₁⟩
    intro _ v₂ s₂ h2
    obtain ⟨rfl, h2⟩ := h2
    rw [wp_run_bind, wp_run_lift]
    refine (wp_perform _ _ _ _).2 fun j _ => ⟨grounded_store, ?_⟩
    have hma : s₁.mem.dc.targetMa = s₂.mem.dc.targetMa := by rw [h2.mem]
    rw [hma]
    refine repeatCurrent_onPoint
      (s := s₂.setMem (Direct.setTargetMv (ppsTargetMv s₂.mem.dc.targetMa x.toNat)))
      ⟨fun _ => ?_, fun _ => ?_, fun _ => ?_, fun _ => ⟨x.toNat, rfl⟩⟩ ?_ rfl
    · show s₂.mem.bat.directCharging = true
      rw [h2.mem]
      exact hs₁.granted hactive₁
    · show s₂.tcpm.currentUa = (s₂.mem.dc.targetMa * 1000 : Nat)
      rw [h2.ok rfl, ← hma]
      exact hs₁.current hactive₁
    · show s₂.tcpm.voltageUv = _
      rw [h2.ok rfl, ← hma]
      rfl
    · show s₂.mem.dc.active = true
      rw [h2.mem]
      exact hactive₁
  · next hnear =>
    obtain ⟨w, hw⟩ := hs₁.point hactive₁
    refine repeatCurrent_onPoint hs₁ hactive₁ ?_
    rw [hw] at hnear ⊢
    exact ppsTargetMv_eq_of_near hnear

end

/-! ## The driver -/

theorem pointless_of_looks {o : Op} (h : Looks o) : Pointless o := by
  cases o with
  | psySet _ _ | store _ => exact h.elim
  | _ => trivial

theorem pointless_of_tunes {o : Op} (h : Tunes o) : Pointless o := by
  cases o with
  | psySet _ _ | store _ => exact h.elim
  | _ => trivial

theorem updateBits_pointless (r : DcReg) (mask val : BitVec 8) :
    Issues Pointless (updateBits r mask val).run :=
  Issues.run_bind ⟨trivial, fun _ => trivial⟩ fun _ => ⟨trivial, fun _ => trivial⟩

theorem pumpOn_pointless : Issues Pointless pumpOn.run := by
  refine Issues.run_bind (updateBits_pointless _ _ _) fun _ => ?_
  exact (waitVbusPok_looks 5).mono fun _ => pointless_of_looks

theorem backoff_pointless : Issues Pointless backoff := by
  unfold backoff
  refine Issues.bind ⟨trivial, fun _ => trivial⟩ fun m => ?_
  exact Issues.bind ⟨fun _ => ⟨rfl, rfl, rfl, rfl⟩, fun _ => trivial⟩ fun _ => trivial

section

variable {A : Event board → Prop} {v : Option Int} {s : State}

theorem hwInit_aloof : Issues Aloof hwInit.run :=
  hwInit_issues (fun _ => ⟨trivial, Op.noConfusion⟩) fun _ _ _ => ⟨trivial, Op.noConfusion⟩

/-- A call into the SM5714 driver asks for no point and leaves the pump driver's data alone. -/
theorem wp_elsewhere_points {α : Type} {p : Code α} (hp : Issues Elsewhere p) :
    wp A pointMonitor p (fun _ v' s' => v' = v ∧ Aside s s') v s := by
  refine hp.wp (W := board) (M := pointMonitor) (J := fun v' s' => v' = v ∧ Aside s s') ?_
    ⟨rfl, id, rfl, rfl⟩
  rintro o ho i _ s' - ⟨rfl, ha⟩
  have ha' := ho.aside i s'
  refine ⟨ho.grounded _ i s', ?_, fun hoff => ha'.parked (ha.parked hoff), ha'.tcpm.trans ha.tcpm,
    ha'.driver.trans ha.driver⟩
  have hne : o ≠ .psyGet .battery .voltageNow := by
    rintro rfl
    exact ho
  show (voltageOf ⟨o, i, s'⟩ <|> _) = _
  rw [voltageOf_of_ne hne]
  rfl

theorem restoreSwitching_onPoint :
    wp A pointMonitor restoreSwitching (fun _ _ s' => OnPoint s') v s := by
  unfold restoreSwitching
  apply wp_seq (wp_pointless (p := enter _) ⟨trivial, fun _ => trivial⟩)
  intro _ _ _ _
  apply wp_seq (wp_pointless (updateBits_pointless _ _ _))
  intro _ _ _ _
  apply wp_seq (wp_pointless (updateBits_pointless _ _ _))
  intro _ _ _ _
  apply wp_seq (wp_pointless (updateBits_pointless _ _ _))
  intro _ _ _ _
  apply wp_seq (wp_aloof (psyRetry_online_aloof 1))
  intro _ _ _ _
  apply wp_seq (wp_elsewhere_points (setDirectCharge_elsewhere false))
  intro _ _ _ _
  rw [wp_bind]
  refine (wp_perform _ _ _ _).2 fun _ _ => ⟨grounded_store, ?_⟩
  exact (wp_perform _ _ _ _).2 fun _ _ => ⟨grounded_store, onPoint_of_inactive rfl⟩

theorem startPump_holds (hinactive : s.mem.dc.active = false)
    (hdirect : s.mem.bat.directCharging = true) {x : Int} (hv : v = some x) :
    wp A pointMonitor (startPump x.toNat).run
      (fun r _ s' => ∀ ma mv, r = .ok (ma, mv) → Holds x.toNat ma mv s') v s := by
  have hfail : ∀ (e : Errno) (s' : State) (ma mv : Nat),
      (.error e : Except Errno (Nat × Nat)) = .ok (ma, mv) → Holds x.toNat ma mv s' := by
    intro e s' ma mv hr
    cases hr
  unfold startPump
  refine wp_run_seq (wp_aloof hwInit_aloof) (fun e _ s' _ => hfail e s') ?_
  intro _ v₁ s₁ h1
  obtain ⟨rfl, h1⟩ := h1
  refine wp_run_seq (negotiatePps_agreed (h1.active.trans hinactive) (h1.granted.trans hdirect) hv)
    (fun e _ s' _ => hfail e s') ?_
  intro point v₂ s₂ h2
  obtain ⟨ma, mv⟩ := point
  -- the rest prepares and starts the pump, at this point
  have hpoint : Holds x.toNat ma mv s₂ := h2 ma mv rfl
  refine wp_run_seq (wp_pointless ((selectFreq_tunes _).mono fun _ => pointless_of_tunes))
    (fun e _ s' _ => hfail e s') ?_
  intro _ v₃ s₃ h3
  refine wp_run_seq (wp_pointless ((setIbusLimit_tunes _).mono fun _ => pointless_of_tunes))
    (fun e _ s' _ => hfail e s') ?_
  intro _ v₄ s₄ h4
  refine wp_run_seq (wp_pointless ((waitSettled_looks _ _).mono fun _ => pointless_of_looks))
    (fun e _ s' _ => hfail e s') ?_
  intro _ v₅ s₅ h5
  refine wp_run_seq (wp_pointless (updateBits_pointless _ _ _)) (fun e _ s' _ => hfail e s') ?_
  intro _ v₆ s₆ h6
  refine wp_run_seq (wp_pointless pumpOn_pointless) (fun e _ s' _ => hfail e s') ?_
  intro _ v₇ s₇ h7 ma' mv' hr
  cases hr
  exact hpoint.of_unmoved (h3.trans (h4.trans (h5.trans (h6.trans h7))))

theorem start_onPoint (hinactive : s.mem.dc.active = false) :
    wp A pointMonitor start.run (fun _ _ s' => OnPoint s') v s := by
  unfold start
  apply wp_run_seq psyGetNonneg_voltage
  · intro e v₁ s₁ h1
    exact onPoint_of_inactive (h1.1.active.trans hinactive)
  intro n v₁ s₁ h1
  obtain ⟨h1, hn⟩ := h1
  obtain ⟨x, rfl, rfl⟩ := hn n rfl
  have hissues := setDirectCharge_elsewhere true
  have hgrant := hissues.wp_of_idle (M := pointMonitor) (A := A) (K := fun _ => True) (m := some x)
    (fun o ho i v' s' _ => ⟨ho.grounded v' i s', trivial⟩) (setDirectCharge_grants (s := s₁)) trivial
  have hinactive₂ : ∀ {s₂ : State}, Aside s₁ s₂ → s₂.mem.dc.active = false := by
    intro s₂ haside
    rw [haside.driver]
    exact h1.active.trans hinactive
  apply wp_run_seq (wp_and (wp_elsewhere_points hissues) hgrant)
  · intro e v₂ s₂ h2
    exact onPoint_of_inactive (hinactive₂ h2.1.2)
  intro _ v₂ s₂ h2
  obtain ⟨⟨rfl, haside⟩, hgranted, -⟩ := h2
  apply wp_run_attempt_seq (startPump_holds (hinactive₂ haside) (hgranted rfl) rfl)
  intro r v₃ s₃ h3
  cases r with
  | error e =>
    dsimp only
    rw [wp_run_bind, wp_run_lift]
    exact wp_mono restoreSwitching_onPoint fun _ _ _ hs => hs
  | ok point =>
    obtain ⟨ma, mv⟩ := point
    have hpoint := h3 ma mv rfl
    dsimp only
    rw [wp_run_lift]
    refine (wp_perform _ _ _ _).2 fun _ _ => ⟨grounded_store, ?_⟩
    exact ⟨fun _ => hpoint.granted, fun _ => hpoint.current, fun _ => hpoint.voltage,
      fun _ => ⟨x.toNat, hpoint.point⟩⟩

/-- `Pointless` operations keep the driver on its point. -/
theorem wp_onPoint {α : Type} {p : Code α} (hp : Issues Pointless p) (hs : OnPoint s) :
    wp A pointMonitor p (fun _ _ s' => OnPoint s') v s :=
  wp_mono (wp_pointless hp) fun _ _ _ hu => hs.of_unmoved hu

theorem workIdle_onPoint (hs : OnPoint s) (hinactive : s.mem.dc.active = false) :
    wp A pointMonitor workIdle (fun _ _ s' => OnPoint s') v s := by
  unfold workIdle
  apply wp_seq (wp_pointless (fastChargeEnabled_looks.mono fun _ => pointless_of_looks))
  intro b v₁ s₁ h1
  refine wp_ite (fun _ => hs.of_unmoved h1) fun _ => ?_
  apply wp_seq (wp_pointless (eligible_looks.mono fun _ => pointless_of_looks))
  intro b v₂ s₂ h2
  refine wp_ite (fun _ => hs.of_unmoved (h1.trans h2)) fun _ => ?_
  apply wp_seq (start_onPoint ((h1.trans h2).active.trans hinactive))
  intro r v₃ s₃ hs₃
  cases r with
  | error e => exact wp_onPoint backoff_pointless hs₃
  | ok _ =>
    refine wp_onPoint ?_ hs₃
    exact Issues.bind ⟨fun _ => ⟨rfl, rfl, rfl, rfl⟩, fun _ => trivial⟩ fun _ => trivial

theorem logged_restore_onPoint {p : Code Nat} (hp : Issues Pointless p) :
    wp A pointMonitor (logFaults >>= fun _ => restoreSwitching >>= fun _ => p)
      (fun _ _ s' => OnPoint s') v s := by
  apply wp_seq (wp_pointless (logFaults_looks.mono fun _ => pointless_of_looks))
  intro _ _ _ _
  apply wp_seq restoreSwitching_onPoint
  intro _ v s hs
  exact wp_onPoint hp hs

theorem workMonitor_onPoint (hs : OnPoint s) :
    wp A pointMonitor workMonitor (fun _ _ s' => OnPoint s') v s := by
  unfold workMonitor
  apply wp_seq (wp_onPoint (measure_looks.mono fun _ => pointless_of_looks) hs)
  intro r v₁ s₁ hs₁
  refine wp_ite (fun _ => ?_) fun _ => logged_restore_onPoint backoff_pointless
  apply wp_seq (wp_onPoint (updateBits_pointless _ _ _) hs₁)
  intro r v₂ s₂ hs₂
  cases r with
  | error e =>
    apply wp_seq restoreSwitching_onPoint
    intro _ v s hs
    exact wp_onPoint backoff_pointless hs
  | ok _ =>
    refine wp_onPoint ?_ hs₂
    exact Issues.bind ⟨fun _ => ⟨rfl, rfl, rfl, rfl⟩, fun _ => trivial⟩ fun _ => trivial

theorem renegotiatePps_onPoint (hs : OnPoint s) (hactive : s.mem.dc.active = true) :
    wp A pointMonitor renegotiatePps.run (fun _ _ s' => OnPoint s') v s := by
  unfold renegotiatePps
  apply wp_run_seq (wp_pointless (updateBits_pointless _ _ _))
  · intro e v₁ s₁ h1
    exact hs.of_unmoved h1
  intro _ v₁ s₁ h1
  apply wp_run_seq (refreshPps_onPoint (hs.of_unmoved h1) (h1.active.trans hactive))
  · intro e v₂ s₂ hr
    obtain ⟨hs₂, -⟩ := hr
    exact hs₂
  intro _ v₂ s₂ hr
  obtain ⟨hs₂, -⟩ := hr
  dsimp only
  refine wp_onPoint ?_ hs₂
  refine Issues.run_bind (Issues.run_lift ⟨trivial, fun _ => trivial⟩) fun m => ?_
  refine Issues.run_bind ((waitSettled_looks _ _).mono fun _ => pointless_of_looks) fun _ => ?_
  exact pumpOn_pointless

theorem workActive_onPoint (hs : OnPoint s) (hactive : s.mem.dc.active = true) :
    wp A pointMonitor workActive (fun _ _ s' => OnPoint s') v s := by
  unfold workActive
  apply wp_seq (wp_pointless (fastChargeEnabled_looks.mono fun _ => pointless_of_looks))
  intro b v₁ s₁ h1
  refine wp_ite (fun _ => logged_restore_onPoint (issues_pure _)) fun _ => ?_
  apply wp_load_seq
  refine wp_seq (wp_pointless (p := store _) ⟨fun _ => ⟨rfl, rfl, rfl, rfl⟩, fun _ => trivial⟩) ?_
  intro _ v₂ s₂ h2
  have hs₂ : OnPoint s₂ := hs.of_unmoved (h1.trans h2)
  refine wp_ite (fun _ => ?_) fun _ => workMonitor_onPoint hs₂
  refine wp_seq (wp_pointless (p := store _) ⟨fun _ => ⟨rfl, rfl, rfl, rfl⟩, fun _ => trivial⟩) ?_
  intro _ v₃ s₃ h3
  have hu : Unmoved s s₃ := h1.trans (h2.trans h3)
  apply wp_seq (renegotiatePps_onPoint (hs.of_unmoved hu) (hu.active.trans hactive))
  intro r v₄ s₄ hs₄
  cases r with
  | error e => exact logged_restore_onPoint backoff_pointless
  | ok _ => exact workMonitor_onPoint hs₄

/-- Every entry point asks only for grounded points, and leaves the driver on one while active. -/
theorem code_onPoint (c : PumpCall) (hs : OnPoint s) :
    wp A pointMonitor c.code (fun _ _ s' => OnPoint s') v s := by
  have hstore : ∀ {f : Mem → Mem} {v : Option Int} {s : State}, Pointless (.store f) → OnPoint s →
      wp A pointMonitor (store f) (fun _ _ s' => OnPoint s') v s :=
    fun hf hs => wp_onPoint ⟨hf, fun _ => trivial⟩ hs
  have hquiet : ∀ m : Mem, m.dc.active = m.dc.active ∧ m.dc.targetMa = m.dc.targetMa ∧
      m.dc.targetMv = m.dc.targetMv ∧ m.bat.directCharging = m.bat.directCharging :=
    fun _ => ⟨rfl, rfl, rfl, rfl⟩
  cases c with
  | work =>
    unfold PumpCall.code work workPass
    refine wp_seq (hstore hquiet hs) ?_
    intro _ v₁ s₁ hs₁
    rw [wp_bind, wp_bind]
    refine wp_load ?_
    have hpass : wp A pointMonitor (if s₁.mem.dc.active then workActive else workIdle)
        (fun _ _ s' => OnPoint s') v₁ s₁ :=
      wp_ite (fun hactive => workActive_onPoint hs₁ hactive)
        fun hactive => workIdle_onPoint hs₁ (Bool.eq_false_iff.2 hactive)
    refine wp_mono hpass fun delay v₂ s₂ hs₂ => ?_
    apply wp_load_seq
    exact wp_ite (fun _ => hstore hquiet hs₂) fun _ => hs₂
  | suspendPrepare =>
    unfold PumpCall.code suspendPrepare
    refine wp_seq (hstore hquiet hs) ?_
    intro _ v₁ s₁ hs₁
    refine wp_seq (hstore hquiet hs₁) ?_
    intro _ v₂ s₂ hs₂
    apply wp_load_seq
    refine wp_ite (fun _ => ?_) fun _ => hs₂
    rw [wp_bind]
    exact wp_mono (wp_pointless (updateBits_pointless _ _ _)) fun _ _ _ _ => restoreSwitching_onPoint
  | postSuspend =>
    unfold PumpCall.code postSuspend
    rw [wp_bind]
    exact wp_mono (hstore hquiet hs) fun _ _ _ hs₁ => hstore hquiet hs₁
  | cancelWork =>
    unfold PumpCall.code cancelWork
    refine wp_seq (hstore hquiet hs) ?_
    intro _ v₁ s₁ hs₁
    apply wp_load_seq
    exact wp_ite (fun _ => restoreSwitching_onPoint) fun _ => hs₁

end

/-! ## Runs -/

/-- A grounded point is recorded precisely when both drivers allow it. -/
theorem recorded_iff_allowed {v : Option Int} {e : Event board} (hg : Grounded v e) :
    (∀ ma mv, pointOf e = some (ma, mv) → Recorded ma mv (handle e.op e.input e.pre).2) ↔
      Allowed v e := by
  cases hp : pointOf e with
  | none =>
    refine iff_of_true (fun _ _ h => (nomatch h)) fun p hmem => ?_
    rw [hp] at hmem
    exact nomatch hmem
  | some p =>
    obtain ⟨ma, mv⟩ := p
    obtain ⟨hdirect, x, rfl, rfl⟩ := hg ma mv hp
    have hmem := mem_of_pointOf hp
    rw [← hmem] at hdirect
    have hrec := (recorded_iff hdirect ma _).trans (contractInRange_ppsTargetMv ma x.toNat)
    constructor
    · intro h p' hp' x' hx'
      obtain rfl : (ma, ppsTargetMv ma x.toNat) = p' := Option.some.inj (hp.symm.trans hp')
      obtain rfl : x = x' := Option.some.inj hx'
      exact hrec.1 (h ma _ rfl)
    · intro h ma' mv' hp'
      cases hp'
      exact hrec.2 (h (ma, ppsTargetMv ma x.toNat) hp x rfl)

theorem recorded_iff_safe {v : Option Int} {tr : List (Event board)} (h : pointMonitor.Safe v tr) :
    (∀ e ∈ tr, ∀ ma mv, pointOf e = some (ma, mv) → Recorded ma mv (handle e.op e.input e.pre).2) ↔
      (voltageMonitor Allowed).Safe v tr := by
  induction tr generalizing v with
  | nil => exact iff_of_true (fun _ he => (nomatch he)) trivial
  | cons e tr ih =>
    rw [List.forall_mem_cons]
    exact and_congr (recorded_iff_allowed h.1) (ih h.2)

theorem pumpStep_onPoint {s : State} (hs : OnPoint s) (l : PumpStep) :
    OnPoint (pumpStep l s) ∧ (PointsRecorded l s ↔ PointsAllowed l s) := by
  cases l with
  | call c ι =>
    obtain ⟨hsafe, hs'⟩ := wp_sound (code_onPoint (A := fun _ => True) (v := none) c hs) ι
      fun _ _ => trivial
    exact ⟨hs', recorded_iff_safe hsafe⟩
  | elsewhere f hf =>
    refine ⟨hs.of_unmoved ⟨?_, ?_, ?_, hf.granted s, ?_, ?_⟩, recorded_iff_safe trivial⟩
    · exact congrArg Direct.active (hf.driver s)
    · exact congrArg Direct.targetMa (hf.driver s)
    · exact congrArg Direct.targetMv (hf.driver s)
    · exact congrArg Tcpm.currentUa (hf.tcpm s)
    · exact congrArg Tcpm.voltageUv (hf.tcpm s)

/-- **Range agreement.** In a run of the pump driver that starts inactive, for any `max_pps_ma`, any
battery voltages and any currents the source grants: every contract TCPM agrees for an operating point
is accepted and described by the drivers' records precisely when each of these points is computed
for at most 3 A at a battery voltage whose double, with the headroom, is at most 9 V. -/
theorem points_recorded_iff {steps : List PumpStep} {s : State} (h0 : s.mem.dc.active = false) :
    Meets pumpStep PointsRecorded steps s ↔ Meets pumpStep PointsAllowed steps s := by
  have hs : OnPoint s := onPoint_of_inactive h0
  constructor
  · exact Meets.imp (fun l s hs h => ⟨(pumpStep_onPoint hs l).1, (pumpStep_onPoint hs l).2.1 h⟩) hs
  · exact Meets.imp (fun l s hs h => ⟨(pumpStep_onPoint hs l).1, (pumpStep_onPoint hs l).2.2 h⟩) hs

/-- At 3.8 V the point for 3 A is 8.76 V. -/
theorem points_recorded_iff_at_3800 :
    Meets pumpStep PointsRecorded [switchFastCharge true, startPass] .probed := by
  refine (points_recorded_iff rfl).2 ⟨?_, ?_, trivial⟩
  · exact trivial
  · exact of_decide_eq_true rfl

/-- As `startPass`, at 4.3 V. -/
def fullerPass : PumpStep := .call .work fun n => match n with
  | 3 => { val := 1 }
  | 4 => { val := 80 }
  | 5 => { val := 250 }
  | 6 | 7 => { val := 4300000 }
  | _ => { byte := 0xff, val := 25000 }

/-- At 4.3 V the driver asks for 9.76 V at 3 A, which the SM5714 driver refuses. -/
theorem point_out_of_range :
    (∃ e ∈ fullerPass.trace (pumpStep (switchFastCharge true) .probed),
        pointOf e = some (3000, 9760)) ∧
      ¬ Meets pumpStep PointsRecorded [switchFastCharge true, fullerPass] .probed := by
  refine ⟨of_decide_eq_true rfl, fun h => ?_⟩
  have hs : OnPoint (pumpStep (switchFastCharge true) .probed) := onPoint_of_inactive rfl
  have hallowed := (pumpStep_onPoint hs fullerPass).2.1 h.2.1
  exact absurd hallowed (of_decide_eq_false rfl)

end Gts9Wifi.Charger.Sm5440
