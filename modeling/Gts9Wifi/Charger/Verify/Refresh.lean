import Mathlib.Algebra.Order.Floor.Div
import Mathlib.Order.Bounds.Basic
import Gts9Wifi.Charger.Verify.Walk

/-!
# The point the pump is kept at

The current is chosen once, by `sm5440_start`. From then on the voltage follows the battery, on a grid
of 20 mV: since all targets are on it, one that has moved by less than a step has not moved.
-/

namespace Gts9Wifi.Charger.Sm5440

open Driver

/-! ## The operating point -/

/-- What the pump needs: twice the cell voltage, the drop at this current, and a margin. -/
def needMv (ma vbatUv : Nat) : Nat := 2 * (vbatUv / 1000) + (320 * ma) ⌈/⌉ 1000 + 200

/-- The least multiple of 20 mV that is enough, clamped to what the source is asked for. -/
structure IsTarget (ma vbatUv mv : Nat) : Prop where
  multiple : 20 ∣ mv
  inRange : 8200 ≤ mv ∧ mv ≤ 10500
  least : ∃ least, IsLeast {m | 20 ∣ m ∧ needMv ma vbatUv ≤ m} least ∧ mv = min (max least 8200) 10500

theorem ppsTargetMv_eq (ma vbatUv : Nat) : ppsTargetMv ma vbatUv =
    min (max (divRoundUp (needMv ma vbatUv) 20 * 20) 8200) 10500 := by
  have hneed : vbatUv / 1000 * 2 + (divRoundUp (ma * rTtlMilliohm) 1000 + extraHeadroomMv) =
      needMv ma vbatUv := by
    unfold needMv divRoundUp rTtlMilliohm extraHeadroomMv
    rw [Nat.ceilDiv_eq_add_pred_div, Nat.mul_comm ma, Nat.mul_comm _ 2, Nat.add_assoc]
  simp only [ppsTargetMv, hneed, ppsVStepMv, maxPpsMv]

theorem isTarget_ppsTargetMv (ma vbatUv : Nat) : IsTarget ma vbatUv (ppsTargetMv ma vbatUv) where
  multiple := Nat.dvd_of_mod_eq_zero (ppsTargetMv_mod ma vbatUv)
  inRange := ⟨le_ppsTargetMv ma vbatUv, Nat.min_le_right _ _⟩
  least := by
    refine ⟨divRoundUp (needMv ma vbatUv) 20 * 20, ⟨⟨?_, ?_⟩, ?_⟩, ppsTargetMv_eq ma vbatUv⟩
    · exact Nat.dvd_mul_left 20 _
    · unfold divRoundUp
      omega
    · rintro m ⟨hdvd, hle⟩
      unfold divRoundUp
      omega

theorem needMv_mono {ma ma' vbatUv vbatUv' : Nat} (hma : ma ≤ ma') (hv : vbatUv ≤ vbatUv') :
    needMv ma vbatUv ≤ needMv ma' vbatUv' := by
  unfold needMv
  rw [Nat.ceilDiv_eq_add_pred_div, Nat.ceilDiv_eq_add_pred_div]
  gcongr

theorem ppsTargetMv_mono {ma ma' vbatUv vbatUv' : Nat} (hma : ma ≤ ma') (hv : vbatUv ≤ vbatUv') :
    ppsTargetMv ma vbatUv ≤ ppsTargetMv ma' vbatUv' := by
  rw [ppsTargetMv_eq, ppsTargetMv_eq]
  refine min_le_min_right _ (max_le_max_right _ (Nat.mul_le_mul_right _ (Nat.div_le_div_right ?_)))
  exact Nat.sub_le_sub_right (Nat.add_le_add_right (needMv_mono hma hv) 20) 1

/-! ## Keeping the point -/

/-- The battery voltage that was read last. -/
def lastVoltage (tr : List (Event board)) : Option Int := (voltageMonitor fun _ _ => True).after none tr

/-- The target is the point for the battery voltage that was read last. -/
def AtPoint (tr : List (Event board)) (s : State) : Prop :=
  ∃ uv : Int, lastVoltage tr = some uv ∧ s.mem.dc.targetMv = ppsTargetMv s.mem.dc.targetMa uv.toNat

/-- An `sm5440_refresh_pps`, and what has happened since the call before it. -/
structure Refresh where
  between : State → State
  keeps : ∀ s, (between s).mem.dc.targetMv = s.mem.dc.targetMv ∧
    (between s).mem.dc.targetMa = s.mem.dc.targetMa
  inputs : Nat → Input

def Refresh.trace (l : Refresh) (s : State) : List (Event board) :=
  refreshPps.run.trace board l.inputs (l.between s)

def Refresh.result (l : Refresh) (s : State) : Except Errno Unit :=
  (refreshPps.run.run board l.inputs (l.between s)).1

def refreshStep (l : Refresh) (s : State) : State :=
  (refreshPps.run.run board l.inputs (l.between s)).2

/-- What is asked for is the point `mv`, `ma`, in microvolts and microamperes. -/
def OfPoint (mv ma : Nat) (o : Op) : Prop :=
  (∀ uv, o = .psySet .voltageNow uv → uv = (mv * 1000 : Nat)) ∧
    ∀ ua, o = .psySet .currentNow ua → ua = (ma * 1000 : Nat)

/-- The target follows the battery, the voltage is asked for precisely if it has moved, and what is
asked for is the target. -/
structure Follows (l : Refresh) (s : State) : Prop where
  point : AtPoint (l.trace s) (refreshStep l s)
  asked : (∃ e ∈ l.trace s, ∃ uv, e.op = .psySet .voltageNow uv) ↔
    (refreshStep l s).mem.dc.targetMv ≠ s.mem.dc.targetMv
  values : ∀ e ∈ l.trace s,
    OfPoint (refreshStep l s).mem.dc.targetMv (refreshStep l s).mem.dc.targetMa e.op

theorem ofPoint_voltage (mv ma : Nat) : OfPoint mv ma (.psySet .voltageNow (mv * 1000 : Nat)) := by
  refine ⟨fun uv h => ?_, fun ua h => ?_⟩
  · cases h
    rfl
  · cases h

theorem ofPoint_current (mv ma : Nat) : OfPoint mv ma (.psySet .currentNow (ma * 1000 : Nat)) := by
  refine ⟨fun uv h => ?_, fun ua h => ?_⟩
  · cases h
  · cases h
    rfl

theorem ofPoint_of_ne {mv ma : Nat} {o : Op} (h : ∀ prop v, o ≠ .psySet prop v) : OfPoint mv ma o :=
  ⟨fun uv hop => absurd hop (h _ uv), fun ua hop => absurd hop (h _ ua)⟩

theorem lastVoltage_append {h new : List (Event board)} (hnew : ∀ e ∈ new, voltageOf e = none) :
    lastVoltage (h ++ new) = lastVoltage h := by
  rw [lastVoltage, Monitor.after_append, ← lastVoltage]
  induction new with
  | nil => rfl
  | cons e new ih =>
    rw [List.forall_mem_cons] at hnew
    have hstep : (voltageOf e <|> lastVoltage h) = lastVoltage h := by simp [hnew.1]
    rw [Monitor.after, List.foldl_cons, ← Monitor.after]
    exact (congrArg (fun v => Monitor.after _ v new) hstep).trans (ih hnew.2)

/-- Operations other than reading the battery voltage. -/
def Unread (o : Op) : Prop := o ≠ .psyGet .battery .voltageNow

theorem Unread.voltageOf {e : Event board} (h : Unread e.op) : voltageOf e = none :=
  voltageOf_of_ne h e.input e.pre

section

variable {A : Event board → Prop} {h : List (Event board)} {s : State}

/-- The recorder holds what a program may issue. -/
theorem wp_recorded {α : Type} {P : Op → Prop} {p : Code α} (hp : Issues P p) :
    wp A recorder p (fun _ h' _ => ∃ new, h' = h ++ new ∧ ∀ e ∈ new, P e.op) h s := by
  refine hp.wp (W := board) (M := recorder) (J := fun h' _ => ∃ new, h' = h ++ new ∧ ∀ e ∈ new, P e.op)
    ?_ ⟨[], (List.append_nil h).symm, by simp⟩
  rintro o ho i _ s' - ⟨new, rfl, hnew⟩
  refine ⟨trivial, new ++ [⟨o, i, s'⟩], List.append_assoc h new _, fun e he => ?_⟩
  rcases List.mem_append.1 he with he | he
  · exact hnew e he
  · rw [List.mem_singleton.1 he]
    exact ho

theorem psyGetNonneg_recorded :
    wp A recorder (psyGetNonneg .battery .voltageNow).run (fun r h' s' =>
      ∃ e, h' = h ++ [e] ∧ e.op = .psyGet .battery .voltageNow ∧ s'.mem = s.mem ∧
        ∀ n, r = .ok n → ∃ uv : Int, voltageOf e = some uv ∧ n = uv.toNat) h s := by
  refine wp_psyGetNonneg (fun i => trivial) ?_ ?_
  · intro i e
    exact ⟨_, rfl, rfl, rfl, fun n hr => (by cases hr)⟩
  · intro i hf
    refine ⟨_, rfl, rfl, rfl, fun n hr => ⟨i.val, ?_, ?_⟩⟩
    · simp [voltageOf, hf]
    · cases hr
      rfl

/-- Repeating the current reads no voltage and asks for none. -/
theorem repeatCurrent_recorded (v : Int) :
    wp A recorder (psyRetry .currentNow v).run (fun _ h' s' => s'.mem = s.mem ∧
      ∃ new, h' = h ++ new ∧ ∀ e ∈ new, e.op = .psySet .currentNow v) h s := by
  refine wp_mono (psyAttempts_asked .currentNow v pdRetries) ?_
  rintro r _ s' ⟨new, rfl, -, hnew⟩
  exact ⟨hnew.mem, new, rfl, hnew.only⟩

/-- Moving the target: the voltage is asked for, and none is read. -/
theorem moveTarget_recorded (mv ma : Nat) :
    wp A recorder (do
      psyRetry .voltageNow (mv * 1000 : Nat)
      store (Direct.setTargetMv mv)
      psyRetry .currentNow (ma * 1000 : Nat) : Fallible Unit).run (fun r h' s' => r = .ok () →
        s'.mem.dc.targetMv = mv ∧ s'.mem.dc.targetMa = s.mem.dc.targetMa ∧
          ∃ new, h' = h ++ new ∧ (∀ e ∈ new, Unread e.op ∧ OfPoint mv ma e.op) ∧
            ∃ e ∈ new, ∃ uv, e.op = .psySet .voltageNow uv) h s := by
  apply wp_run_seq (psyAttempts_asked .voltageNow _ pdRetries)
  · exact fun e _ _ _ hr => nomatch hr
  rintro _ _ s₁ ⟨new, rfl, hne, hnew⟩
  rw [wp_run_bind, wp_run_lift]
  refine (wp_perform _ _ _ _).2 fun i _ => ⟨trivial, ?_⟩
  refine wp_mono (repeatCurrent_recorded _) ?_
  rintro r _ s₂ ⟨hmem, new', rfl, hnew'⟩ -
  have hdc : s₂.mem.dc.targetMv = mv ∧ s₂.mem.dc.targetMa = s.mem.dc.targetMa := by
    rw [hmem]
    exact ⟨rfl, congrArg (·.dc.targetMa) hnew.mem⟩
  refine ⟨hdc.1, hdc.2, new ++ [⟨.store (Direct.setTargetMv mv), i, s₁⟩] ++ new', ?_, ?_, ?_⟩
  · simp [recorder]
  · simp only [List.mem_append, List.mem_singleton]
    rintro e ((he | rfl) | he)
    · rw [hnew.only e he]
      exact ⟨Op.noConfusion, ofPoint_voltage mv ma⟩
    · exact ⟨Op.noConfusion, ofPoint_of_ne fun _ _ => Op.noConfusion⟩
    · rw [hnew' e he]
      exact ⟨Op.noConfusion, ofPoint_current mv ma⟩
  · obtain ⟨e, he⟩ := List.exists_mem_of_ne_nil new (hne (by decide))
    exact ⟨e, List.mem_append_left _ (List.mem_append_left _ he), _, hnew.only e he⟩

/-- What a refresh leaves, if the target was a point before. -/
theorem refreshPps_follows {uv : Nat} (hs : s.mem.dc.targetMv = ppsTargetMv s.mem.dc.targetMa uv) :
    wp A recorder refreshPps.run (fun r tr s' => r = .ok () →
      s'.mem.dc.targetMa = s.mem.dc.targetMa ∧ AtPoint tr s' ∧
        ((∃ e ∈ tr, ∃ uv, e.op = .psySet .voltageNow uv) ↔
          s'.mem.dc.targetMv ≠ s.mem.dc.targetMv) ∧
        ∀ e ∈ tr, OfPoint s'.mem.dc.targetMv s'.mem.dc.targetMa e.op) [] s := by
  unfold refreshPps
  apply wp_run_seq psyGetNonneg_recorded
  · exact fun e _ _ _ hr => nomatch hr
  rintro n _ s₁ ⟨e₀, rfl, hop, hmem₁, hn⟩
  obtain ⟨x, hx, rfl⟩ := hn n rfl
  have hlast : lastVoltage [e₀] = some x := by simp [lastVoltage, Monitor.after, hx]
  rw [wp_run_bind, wp_run_lift]
  refine (wp_perform _ _ _ _).2 fun i _ => ⟨trivial, ?_⟩
  show wp A recorder _ _ ([e₀] ++ [⟨.load, i, s₁⟩]) s₁
  dsimp only [handle]
  -- what comes after the reading reads no voltage
  have hafter {new : List (Event board)} (hnew : ∀ e ∈ new, Unread e.op) :
      lastVoltage ([e₀] ++ [⟨.load, i, s₁⟩] ++ new) = some x := by
    rw [lastVoltage_append fun e he => (hnew e he).voltageOf, lastVoltage_append, hlast]
    simp [voltageOf]
  -- what comes before asks for nothing
  have hbefore : ∀ e ∈ [e₀] ++ [⟨.load, i, s₁⟩], ∀ mv ma, OfPoint mv ma e.op := by
    intro e he mv ma
    simp only [List.mem_append, List.mem_singleton] at he
    rcases he with rfl | rfl
    · rw [hop]
      exact ofPoint_of_ne fun _ _ => Op.noConfusion
    · exact ofPoint_of_ne fun _ _ => Op.noConfusion
  rw [hmem₁]
  split
  · next hfar =>
    refine wp_mono (moveTarget_recorded _ _) ?_
    rintro r _ s₂ hr hok
    obtain ⟨hmv, hma, new, rfl, hnew, e, he, v, hset⟩ := hr hok
    rw [hmem₁] at hma
    refine ⟨hma, ⟨x, hafter fun e he => (hnew e he).1, ?_⟩,
      iff_of_true ⟨e, List.mem_append_right _ he, v, hset⟩ ?_, fun e he => ?_⟩
    · rw [hmv, hma]
    · rw [hmv]
      intro heq
      rw [heq] at hfar
      simp [ppsVStepMv] at hfar
    · rw [hmv, hma]
      rcases List.mem_append.1 he with he | he
      · exact hbefore e he _ _
      · exact (hnew e he).2
  · next hnear =>
    refine wp_mono (repeatCurrent_recorded _) ?_
    rintro r _ s₂ ⟨hmem₂, new, rfl, hnew⟩ -
    have hmem : s₂.mem = s.mem := hmem₂.trans hmem₁
    rw [hmem]
    refine ⟨rfl, ⟨x, hafter fun e he => by simp [Unread, hnew e he], ?_⟩,
      iff_of_false ?_ (fun hne => hne rfl), fun e he => ?_⟩
    · rw [hmem, hs]
      rw [hs] at hnear
      exact ppsTargetMv_eq_of_near hnear
    · simp only [List.mem_append, List.mem_singleton]
      rintro ⟨e, (rfl | rfl) | he, uv, hset⟩
      · rw [hop] at hset
        cases hset
      · cases hset
      · rw [hnew e he] at hset
        cases hset
    · rcases List.mem_append.1 he with he | he
      · exact hbefore e he _ _
      · rw [hnew e he]
        exact ofPoint_current _ _

theorem wp_recorder (α : Type) (p : Code α) : wp A recorder p (fun _ _ _ => True) h s :=
  wp_mono (wp_recorded (issues_true p)) fun _ _ _ _ => trivial

/-- The voltage that is returned is the one for the current. -/
theorem negotiatePps_point (vbatUv : Nat) :
    wp A recorder (negotiatePps vbatUv).run (fun r _ _ =>
      ∀ ma mv, r = .ok (ma, mv) → mv = ppsTargetMv ma vbatUv) h s := by
  have hback : ∀ {h' s'} (e : Errno), wp A recorder (do
        let _ ← attempt (psyRetry .online 1)
        throw e : Fallible (Nat × Nat)).run
      (fun r _ _ => ∀ ma mv, r = .ok (ma, mv) → mv = ppsTargetMv ma vbatUv) h' s' := by
    intro h' s' e
    apply wp_run_attempt_seq (wp_recorder _ _)
    exact fun _ _ _ _ ma mv hr => nomatch hr
  unfold negotiatePps
  apply wp_run_seq (wp_recorder _ _)
  · exact fun e _ _ _ ma mv hr => nomatch hr
  intro m _ _ _
  apply wp_run_seq (wp_recorder _ _)
  · exact fun e _ _ _ ma mv hr => nomatch hr
  intro _ _ _ _
  rw [wp_run_bind, wp_run_attempt, wp_run_bind]
  refine wp_mono (wp_recorder _ _) fun r _ _ _ => ?_
  cases r with
  | error e => exact hback e
  | ok ma =>
    dsimp only
    apply wp_run_seq (wp_recorder _ _)
    · exact fun e _ _ _ => hback e
    · rintro _ _ _ - ma' mv' hr
      cases hr
      rfl

theorem startPump_unread (batteryUv : Nat) : Issues Unread (startPump batteryUv).run := by
  have hbits : ∀ r mask val, Issues Unread (updateBits r mask val).run := fun r mask val =>
    Issues.run_bind ⟨Op.noConfusion, fun _ => trivial⟩ fun _ => ⟨Op.noConfusion, fun _ => trivial⟩
  unfold startPump
  refine Issues.run_bind (hwInit_issues (fun _ => Op.noConfusion) fun _ _ _ => Op.noConfusion) fun _ => ?_
  refine Issues.run_bind (negotiatePps_issues Op.noConfusion (fun _ _ => Op.noConfusion) _) fun _ => ?_
  refine Issues.run_bind ?_ fun _ => ?_
  · unfold selectFreq setFreq
    split
    · exact ⟨Op.noConfusion, fun _ => trivial⟩
    split <;> exact ⟨Op.noConfusion, fun _ => trivial⟩
  refine Issues.run_bind ⟨Op.noConfusion, fun _ => trivial⟩ fun _ => ?_
  refine Issues.run_bind (waitSettled_issues (fun _ => Op.noConfusion) _ _) fun _ => ?_
  refine Issues.run_bind (hbits _ _ _) fun _ => ?_
  refine Issues.run_bind (Issues.run_bind (hbits _ _ _) fun _ => ?_) fun _ => trivial
  exact waitVbusPok_issues (fun _ => Op.noConfusion) 5

theorem startPump_point (batteryUv : Nat) :
    wp A recorder (startPump batteryUv).run (fun r _ _ =>
      ∀ ma mv, r = .ok (ma, mv) → mv = ppsTargetMv ma batteryUv) h s := by
  have hfail : ∀ (e : Errno) (ma mv : Nat),
      (.error e : Except Errno (Nat × Nat)) = .ok (ma, mv) → mv = ppsTargetMv ma batteryUv :=
    fun e ma mv hr => nomatch hr
  unfold startPump
  refine wp_run_seq (wp_recorder _ _) (fun e _ _ _ => hfail e) fun _ _ _ _ => ?_
  refine wp_run_seq (negotiatePps_point batteryUv) (fun e _ _ _ => hfail e) ?_
  rintro ⟨ma, mv⟩ _ _ hpoint
  refine wp_run_seq (wp_recorder _ _) (fun e _ _ _ => hfail e) fun _ _ _ _ => ?_
  refine wp_run_seq (wp_recorder _ _) (fun e _ _ _ => hfail e) fun _ _ _ _ => ?_
  refine wp_run_seq (wp_recorder _ _) (fun e _ _ _ => hfail e) fun _ _ _ _ => ?_
  refine wp_run_seq (wp_recorder _ _) (fun e _ _ _ => hfail e) fun _ _ _ _ => ?_
  refine wp_run_seq (wp_recorder _ _) (fun e _ _ _ => hfail e) fun _ _ _ _ => ?_
  rintro ma' mv' hr
  cases hr
  exact hpoint ma mv rfl

theorem setDirectCharge_unread (active : Bool) :
    Issues Unread (Sm5714.setDirectCharge active).seq := by
  refine (setDirectCharge_elsewhere active).mono fun o ho heq => ?_
  subst heq
  exact ho

/-- A successful start sets the target to the point for the battery voltage it has read. -/
theorem start_atPoint :
    wp A recorder start.run (fun r tr s' => r = .ok () → AtPoint tr s') [] s := by
  unfold start
  apply wp_run_seq psyGetNonneg_recorded
  · exact fun e _ _ _ hr => nomatch hr
  rintro n _ s₁ ⟨e₀, rfl, -, -, hn⟩
  obtain ⟨x, hx, rfl⟩ := hn n rfl
  have hlast : lastVoltage [e₀] = some x := by simp [lastVoltage, Monitor.after, hx]
  apply wp_run_seq (wp_recorded (setDirectCharge_unread true))
  · exact fun e _ _ _ hr => nomatch hr
  rintro _ _ s₂ ⟨new, rfl, hnew⟩
  apply wp_run_attempt_seq (wp_and (wp_recorded (startPump_unread _)) (startPump_point _))
  rintro r _ s₃ ⟨⟨new', rfl, hnew'⟩, hpoint⟩
  cases r with
  | error e =>
    dsimp only
    rw [wp_run_bind]
    exact wp_mono (wp_recorder _ _) fun r _ _ _ => by cases r <;> exact fun hr => nomatch hr
  | ok point =>
    obtain ⟨ma, mv⟩ := point
    dsimp only
    rw [wp_run_lift]
    refine (wp_perform _ _ _ _).2 fun i _ => ⟨trivial, fun _ => ⟨x, ?_, hpoint ma mv rfl⟩⟩
    show lastVoltage ([e₀] ++ new ++ new' ++ [_]) = some x
    rw [lastVoltage_append (by simp [voltageOf]),
      lastVoltage_append fun e he => Unread.voltageOf (hnew' e he),
      lastVoltage_append fun e he => Unread.voltageOf (hnew e he), hlast]

end

/-- **The operating point and its refresh.** The target for a current and a battery voltage is on the
20 mV grid, in range, monotone, and the least that is enough unless it is clamped. After a successful
start, and after each of any successful refreshes that follow it, the target is the one for the
battery voltage read last, and a refresh asks for a voltage precisely if the target has moved, for the
target and nothing else. -/
theorem target_follows_battery :
    (∀ ma vbatUv, 1800 ≤ ma → ma ≤ 5000 → IsTarget ma vbatUv (ppsTargetMv ma vbatUv)) ∧
    (∀ ma ma' vbatUv vbatUv', 1800 ≤ ma → ma' ≤ 5000 → ma ≤ ma' → vbatUv ≤ vbatUv' →
      ppsTargetMv ma vbatUv ≤ ppsTargetMv ma' vbatUv') ∧
    ∀ (ι : Nat → Input) (s : State) (steps : List Refresh),
      (start.run.run board ι s).1 = .ok () →
      Meets refreshStep (fun l s => l.result s = .ok ()) steps (start.run.run board ι s).2 →
      AtPoint (start.run.trace board ι s) (start.run.run board ι s).2 ∧
        Meets refreshStep Follows steps (start.run.run board ι s).2 := by
  refine ⟨fun ma vbatUv _ _ => isTarget_ppsTargetMv ma vbatUv,
    fun ma ma' vbatUv vbatUv' _ _ hma hv => ppsTargetMv_mono hma hv, fun ι s steps hok hall => ?_⟩
  have hstart := (wp_sound (start_atPoint (A := fun _ => True) (s := s)) ι fun _ _ => trivial).2
  rw [Monitor.after_history, List.nil_append] at hstart
  have hpoint := hstart hok
  refine ⟨hpoint, ?_⟩
  obtain ⟨x, -, hx⟩ := hpoint
  refine Meets.imp (J := fun s => ∃ uv, s.mem.dc.targetMv = ppsTargetMv s.mem.dc.targetMa uv) ?_
    ⟨_, hx⟩ hall
  rintro l s ⟨uv, hs⟩ hl
  obtain ⟨hmv, hma⟩ := l.keeps s
  have hs' : (l.between s).mem.dc.targetMv = ppsTargetMv (l.between s).mem.dc.targetMa uv := by
    rw [hmv, hma, hs]
  have hspec := (wp_sound (refreshPps_follows (A := fun _ => True) hs') l.inputs fun _ _ => trivial).2
  rw [Monitor.after_history, List.nil_append] at hspec
  obtain ⟨-, hat, hasked, hvalues⟩ := hspec hl
  rw [hmv] at hasked
  refine ⟨?_, hat, hasked, hvalues⟩
  obtain ⟨y, -, hy⟩ := hat
  exact ⟨_, hy⟩

/-- The battery is at `uv`, the pump settles, and everything succeeds. -/
def batteryAt (uv : Int) : Nat → Input := fun n =>
  if n = 0 then { val := uv } else { byte := 0xff, val := 25000 }

/-- A start at 3.8 V, and a refresh at 4.0 V and at 4.0 V again. -/
theorem follows_to_4000 :
    AtPoint (start.run.trace board (batteryAt 3800000) .probed)
        (start.run.run board (batteryAt 3800000) .probed).2 ∧
      Meets refreshStep Follows
        [⟨id, fun _ => ⟨rfl, rfl⟩, batteryAt 4000000⟩, ⟨id, fun _ => ⟨rfl, rfl⟩, batteryAt 4000000⟩]
        (start.run.run board (batteryAt 3800000) .probed).2 :=
  target_follows_battery.2.2 (batteryAt 3800000) .probed _ rfl ⟨rfl, rfl, trivial⟩

end Gts9Wifi.Charger.Sm5440
