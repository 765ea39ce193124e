import Gts9Wifi.Charger.Sm5440
import Gts9Wifi.Charger.Verify.Sections

/-!
# What the SM5440 driver's functions may do

The classes of operations the functions of the pump driver issue: some only read, some tune the
chip without touching its operating mode, some negotiate over TCPM. The calls into the SM5714 driver
touch neither the pump nor the port.
-/

namespace Gts9Wifi.Charger.Sm5440

open Driver

/-! ## Classes of operations -/

/-- Operations that only read. -/
def Looks : Op → Prop
  | .load | .dcRead _ | .psyGet _ _ => True
  | _ => False

/-- Operations that do not touch the operating mode nor the port. -/
def Tunes : Op → Prop
  | .dcWrite r _ => r ≠ .cntl5
  | o => Looks o

/-- Operations that read, or negotiate over TCPM. -/
def Negotiates : Op → Prop
  | .psySet _ _ => True
  | o => Looks o

/-- Operations of the SM5714 driver: they leave the pump, the port and the pump driver's own
structure alone. -/
def OnSm5714 : Op → Prop
  | .store f => ∀ m, (f m).dc = m.dc
  | .load | .chgRead _ | .chgWrite _ _ | .muicRead _ | .muicWrite _ _ | .fgWriteAddr _
  | .fgReadData _ | .iioRead => True
  | _ => False

theorem Looks.tunes {o : Op} (h : Looks o) : Tunes o := by
  cases o <;> trivial

/-! ## What each function issues -/

theorem updateBits_tunes {r : DcReg} (hr : r ≠ .cntl5) (mask val : BitVec 8) :
    Issues Tunes (updateBits r mask val).run := by
  unfold updateBits
  exact Issues.run_bind ⟨trivial, fun _ => trivial⟩ fun _ => ⟨hr, fun _ => trivial⟩

section

variable {P : Op → Prop}

/-- Functions that only read registers of the chip. -/
theorem adcVbusMv_issues (hread : ∀ r, P (.dcRead r)) : Issues P adcVbusMv.run := by
  unfold adcVbusMv readAdcPair
  refine Issues.run_bind (Issues.run_bind ⟨hread _, fun _ => trivial⟩ fun _ => ?_) fun _ => trivial
  exact Issues.run_bind ⟨hread _, fun _ => trivial⟩ fun _ => trivial

theorem waitVbusPok_issues (hread : ∀ r, P (.dcRead r)) (n : Nat) : Issues P (waitVbusPok n).run := by
  induction n with
  | zero => trivial
  | succ n ih =>
    refine Issues.run_bind ⟨hread _, fun _ => trivial⟩ fun status3 => ?_
    split
    · trivial
    · exact ih

theorem waitSettled_issues (hread : ∀ r, P (.dcRead r)) (targetMv n : Nat) :
    Issues P (waitSettled targetMv n).run := by
  induction n with
  | zero => trivial
  | succ n ih =>
    refine Issues.run_bind (adcVbusMv_issues hread) fun vbusMv => ?_
    split
    · trivial
    · exact ih

/-- Functions that only negotiate over TCPM. -/
theorem psyAttempts_issues {prop : PsyProp} {value : Int} (hset : P (.psySet prop value)) (n : Nat) :
    Issues P (psyAttempts prop value n).run := by
  induction n with
  | zero => trivial
  | succ n ih =>
    refine Issues.run_bind (Issues.run_attempt ⟨hset, fun _ => trivial⟩) fun r => ?_
    split
    · trivial
    · split
      · exact ih
      · trivial

theorem walkCurrent_issues (hset : ∀ prop v, P (.psySet prop v)) (n ma : Nat) :
    Issues P (walkCurrent n ma).run := by
  induction n generalizing ma with
  | zero => trivial
  | succ n ih =>
    refine Issues.run_bind (Issues.run_attempt (psyAttempts_issues (hset _ _) _)) fun r => ?_
    split
    · trivial
    · split
      · exact ih _
      · trivial

theorem negotiatePps_issues (hload : P .load) (hset : ∀ prop v, P (.psySet prop v)) (vbatUv : Nat) :
    Issues P (negotiatePps vbatUv).run := by
  unfold negotiatePps
  refine Issues.run_bind (Issues.run_lift ⟨hload, fun _ => trivial⟩) fun m => ?_
  refine Issues.run_bind (psyAttempts_issues (hset _ _) _) fun _ => ?_
  refine Issues.run_bind (Issues.run_attempt ?_) fun point => ?_
  · refine Issues.run_bind (walkCurrent_issues hset _ _) fun ma => ?_
    exact Issues.run_bind (psyAttempts_issues (hset _ _) _) fun _ => trivial
  · split
    · trivial
    · exact Issues.run_bind (Issues.run_attempt (psyAttempts_issues (hset _ _) _)) fun _ => trivial

end

theorem readAdcPair_looks (reg reg1 : DcReg) : Issues Looks (readAdcPair reg reg1).run := by
  unfold readAdcPair
  refine Issues.run_bind ⟨trivial, fun _ => trivial⟩ fun _ => ?_
  exact Issues.run_bind ⟨trivial, fun _ => trivial⟩ fun _ => trivial

theorem adcVbusMv_looks : Issues Looks adcVbusMv.run := adcVbusMv_issues fun _ => trivial

theorem psyGetInt_looks (p : Psy) (prop : PsyProp) : Issues Looks (psyGetInt p prop) := by
  unfold psyGetInt
  refine Issues.bind ⟨trivial, fun _ => trivial⟩ fun r => ?_
  split <;> trivial

theorem psyGetNonneg_looks (p : Psy) (prop : PsyProp) : Issues Looks (psyGetNonneg p prop).run := by
  unfold psyGetNonneg
  refine Issues.run_bind (Issues.run_lift (psyGetInt_looks p prop)) fun v => ?_
  split <;> trivial

theorem psyAttempts_negotiates (prop : PsyProp) (value : Int) (n : Nat) :
    Issues Negotiates (psyAttempts prop value n).run :=
  psyAttempts_issues trivial n

theorem negotiatePps_negotiates (vbatUv : Nat) : Issues Negotiates (negotiatePps vbatUv).run :=
  negotiatePps_issues trivial (fun _ _ => trivial) vbatUv

theorem selectFreq_tunes (ma : Nat) : Issues Tunes (selectFreq ma).run := by
  unfold selectFreq setFreq
  split
  · exact ⟨DcReg.noConfusion, fun _ => trivial⟩
  split <;> exact ⟨DcReg.noConfusion, fun _ => trivial⟩

theorem setIbusLimit_tunes (ma : Nat) : Issues Tunes (setIbusLimit ma).run :=
  ⟨DcReg.noConfusion, fun _ => trivial⟩

theorem waitVbusPok_looks (n : Nat) : Issues Looks (waitVbusPok n).run :=
  waitVbusPok_issues (fun _ => trivial) n

theorem waitSettled_looks (targetMv n : Nat) : Issues Looks (waitSettled targetMv n).run :=
  waitSettled_issues (fun _ => trivial) targetMv n

section

variable {P : Op → Prop}

theorem waitReset_issues (hread : ∀ r, P (.dcRead r)) (n : Nat) : Issues P (waitReset n).run := by
  induction n with
  | zero => trivial
  | succ n ih =>
    refine Issues.run_bind ⟨hread _, fun _ => trivial⟩ fun reg => ?_
    split
    · trivial
    · exact ih

theorem writeAll_issues {l : List (DcReg × BitVec 8)} (h : ∀ p ∈ l, P (.dcWrite p.1 p.2)) :
    Issues P (writeAll l).run := by
  induction l with
  | nil => trivial
  | cons p l ih =>
    refine Issues.run_bind ⟨h p List.mem_cons_self, fun _ => trivial⟩ fun _ => ?_
    exact ih fun q hq => h q (List.mem_cons_of_mem _ hq)

theorem readAll_issues (hread : ∀ r, P (.dcRead r)) (l : List DcReg) :
    Issues P (readAll l).run := by
  induction l with
  | nil => trivial
  | cons r l ih => exact Issues.run_bind ⟨hread r, fun _ => trivial⟩ fun _ => ih

/-- The initialisation only reads and writes registers of the chip, the mode register apart. -/
theorem hwInit_issues (hread : ∀ r, P (.dcRead r)) (hwrite : ∀ r v, r ≠ .cntl5 → P (.dcWrite r v)) :
    Issues P hwInit.run := by
  have hmode : ∀ p ∈ initSequence, p.1 ≠ .cntl5 := by decide
  unfold hwInit
  refine Issues.run_bind ⟨hwrite _ _ DcReg.noConfusion, fun _ => trivial⟩ fun _ => ?_
  refine Issues.run_bind (waitReset_issues hread 255) fun _ => ?_
  refine Issues.run_bind (writeAll_issues fun p hp => hwrite _ _ (hmode p hp)) fun _ => ?_
  exact readAll_issues hread _

end

theorem hwInit_tunes : Issues Tunes hwInit.run := hwInit_issues (fun _ => trivial) fun _ _ hr => hr

theorem logFaults_looks : Issues Looks logFaults :=
  Issues.bind ⟨trivial, fun _ => trivial⟩ fun _ =>
    Issues.bind ⟨trivial, fun _ => trivial⟩ fun _ => trivial

theorem measure_looks : Issues Looks measure := by
  unfold measure adcIbusMa adcVbatMv adcDieTemp
  refine (psyGetInt_looks _ _).bind fun capacity => (psyGetInt_looks _ _).bind fun packTemp => ?_
  refine Issues.bind ⟨trivial, fun _ => trivial⟩ fun opMode => ?_
  refine Issues.bind ⟨trivial, fun _ => trivial⟩ fun status3 => ?_
  refine adcVbusMv_looks.bind fun vbus => ?_
  refine Issues.bind (Issues.run_bind (readAdcPair_looks _ _) fun _ => trivial) fun ibus => ?_
  refine Issues.bind (Issues.run_bind (readAdcPair_looks _ _) fun _ => trivial) fun vbat => ?_
  refine Issues.bind (Issues.run_bind ⟨trivial, fun _ => trivial⟩ fun _ => trivial) fun dieTemp => ?_
  trivial

theorem eligible_looks : Issues Looks eligible := by
  unfold eligible
  refine (psyGetInt_looks _ _).bind fun online => (psyGetInt_looks _ _).bind fun capacity => ?_
  exact (psyGetInt_looks _ _).bind fun temp => (psyGetInt_looks _ _).bind fun voltage => trivial

theorem fastChargeEnabled_looks : Issues Looks Sm5714.fastChargeEnabled :=
  ⟨trivial, fun _ => trivial⟩

/-! ## The calls into the SM5714 driver -/

theorem onSm5714_of_charging {o : Op} (h : Sm5714.Charging o) : OnSm5714 o := by
  cases o with
  | store f => exact fun m => (h m).2.2
  | _ => trivial

theorem onSm5714_of_spares {α : Type} {t : Task α} (h : t.Each Sm5714.Spares) :
    t.Each fun _ => Issues OnSm5714 :=
  h.imp fun _ _ hp => hp.1.mono fun _ => onSm5714_of_charging

theorem onSm5714_storeDirect (b : Bool) :
    (Thread.interruptible (store (Sm5714.Battery.setDirect b)) : Task Unit).Each
      fun _ => Issues OnSm5714 :=
  ⟨⟨fun _ => rfl, fun _ => trivial⟩, fun _ => trivial⟩

/-- `sm5714_battery_set_direct_charge` after its entry. -/
def setDirectChargeBody (active : Bool) : Code (Except Errno Unit) := (do
  Sm5714.lockGlobal
  let ret ← Sm5714.setDirectChargeLocked active
  Sm5714.unlockGlobal
  return ret : Task (Except Errno Unit)).seq

theorem setDirectCharge_seq (active : Bool) :
    (Sm5714.setDirectCharge active).seq =
      enter (.setDirectCharge active) >>= fun _ => setDirectChargeBody active := by
  unfold Sm5714.setDirectCharge setDirectChargeBody
  rw [Thread.seq_bind, Thread.seq_interruptible]

theorem setDirectChargeBody_onSm5714 (active : Bool) :
    Issues OnSm5714 (setDirectChargeBody active) := by
  apply Thread.Each.seq_issues
  unfold Sm5714.setDirectChargeLocked
  refine (onSm5714_of_spares Sm5714.lockGlobal_spares).bind fun _ => ?_
  refine Thread.Each.bind ?_ fun _ =>
    (onSm5714_of_spares Sm5714.unlockGlobal_spares).bind fun _ => trivial
  refine (onSm5714_of_spares Sm5714.spares_load).bind fun m => ?_
  split
  · trivial
  split
  · unfold Sm5714.grantDirectCharge
    refine (onSm5714_of_spares (Sm5714.spares_reads Sm5714.getTemp_reads)).bind fun r => ?_
    split
    · trivial
    split
    · trivial
    refine (onSm5714_storeDirect true).bind fun _ => ?_
    refine Thread.Each.bind (Thread.Each.atomic ?_) fun r => ?_
    · exact (Sm5714.chgUpdateBits_charging ChgReg.noConfusion _ _).mono fun _ => onSm5714_of_charging
    split
    · trivial
    · exact (onSm5714_storeDirect false).bind fun _ => trivial
  · unfold Sm5714.revokeDirectCharge
    refine (onSm5714_storeDirect false).bind fun _ => ?_
    refine (onSm5714_of_spares (Sm5714.spares_quiet Sm5714.getOnline_quiet)).bind fun online => ?_
    exact Thread.Each.ite (onSm5714_of_spares Sm5714.spares_configure) trivial

/-! ## What the driver keeps books on -/

/-- The fields of the driver that decide what its work item does next. -/
def book (d : Direct) : Bool × Nat × Bool × Option Nat := (d.active, d.fails, d.suspending, d.pending)

/-- Operations that leave the books alone and enter no function. -/
def KeepsBook : Op → Prop
  | .store f => ∀ m, book (f m).dc = book m.dc
  | .enter _ => False
  | _ => True

theorem Looks.keepsBook {o : Op} (h : Looks o) : KeepsBook o := by
  cases o with
  | store _ | enter _ => exact h.elim
  | _ => trivial

theorem Tunes.keepsBook {o : Op} (h : Tunes o) : KeepsBook o := by
  cases o with
  | store _ | enter _ => exact h.elim
  | _ => trivial

theorem Negotiates.keepsBook {o : Op} (h : Negotiates o) : KeepsBook o := by
  cases o with
  | store _ | enter _ => exact h.elim
  | _ => trivial

theorem OnSm5714.keepsBook {o : Op} (h : OnSm5714 o) : KeepsBook o := by
  cases o with
  | store f => exact fun m => congrArg book (h m)
  | enter _ => exact h.elim
  | _ => trivial

theorem updateBits_keepsBook (r : DcReg) (mask val : BitVec 8) :
    Issues KeepsBook (updateBits r mask val).run :=
  Issues.run_bind ⟨trivial, fun _ => trivial⟩ fun _ => ⟨trivial, fun _ => trivial⟩

theorem pumpOn_keepsBook : Issues KeepsBook pumpOn.run := by
  refine Issues.run_bind (updateBits_keepsBook _ _ _) fun _ => ?_
  exact (waitVbusPok_looks 5).mono fun _ => Looks.keepsBook

theorem startPump_keepsBook (batteryUv : Nat) : Issues KeepsBook (startPump batteryUv).run := by
  unfold startPump
  refine Issues.run_bind (hwInit_tunes.mono fun _ => Tunes.keepsBook) fun _ => ?_
  refine Issues.run_bind ((negotiatePps_negotiates _).mono fun _ => Negotiates.keepsBook) fun point => ?_
  refine Issues.run_bind ((selectFreq_tunes _).mono fun _ => Tunes.keepsBook) fun _ => ?_
  refine Issues.run_bind ((setIbusLimit_tunes _).mono fun _ => Tunes.keepsBook) fun _ => ?_
  refine Issues.run_bind ((waitSettled_looks _ _).mono fun _ => Looks.keepsBook) fun _ => ?_
  refine Issues.run_bind (updateBits_keepsBook _ _ _) fun _ => ?_
  exact Issues.run_bind pumpOn_keepsBook fun _ => trivial

theorem refreshPps_keepsBook : Issues KeepsBook refreshPps.run := by
  unfold refreshPps
  refine Issues.run_bind ((psyGetNonneg_looks _ _).mono fun _ => Looks.keepsBook) fun batteryUv => ?_
  refine Issues.run_bind (Issues.run_lift ⟨trivial, fun _ => trivial⟩) fun m => ?_
  dsimp only
  have hretry : ∀ prop value, Issues KeepsBook (psyRetry prop value).run := fun prop value =>
    (psyAttempts_negotiates prop value _).mono fun _ => Negotiates.keepsBook
  split
  · refine Issues.run_bind (hretry _ _) fun _ => ?_
    refine Issues.run_bind (Issues.run_lift ⟨fun _ => rfl, fun _ => trivial⟩) fun _ => ?_
    exact hretry _ _
  · exact hretry _ _

theorem renegotiatePps_keepsBook : Issues KeepsBook renegotiatePps.run := by
  unfold renegotiatePps
  refine Issues.run_bind (updateBits_keepsBook _ _ _) fun _ => ?_
  refine Issues.run_bind refreshPps_keepsBook fun _ => ?_
  refine Issues.run_bind (Issues.run_lift ⟨trivial, fun _ => trivial⟩) fun m => ?_
  refine Issues.run_bind ((waitSettled_looks _ _).mono fun _ => Looks.keepsBook) fun _ => ?_
  exact pumpOn_keepsBook

theorem KeepsBook.frame {o : Op} (h : KeepsBook o) (i : Input) (s : State) :
    book (handle o i s).2.mem.dc = book s.mem.dc := by
  cases o with
  | store f => exact h s.mem
  | _ => rw [handle_mem (by nofun)]

/-! ## Rules for the power supplies -/

section

variable {A : Event board → Prop} {M : Monitor board} {m : M.St} {s : State}

/-- A reading, which a negative answer makes an error as well. -/
theorem wp_psyGetNonneg {p : Psy} {prop : PsyProp} {Q : Except Errno Nat → M.St → State → Prop}
    (haccepts : ∀ i, M.ok m ⟨.psyGet p prop, i, s⟩)
    (herror : ∀ i e, Q (.error e) (M.step m ⟨.psyGet p prop, i, s⟩) (s.settle i))
    (hok : ∀ i, i.fault = none → Q (.ok i.val.toNat) (M.step m ⟨.psyGet p prop, i, s⟩) (s.settle i)) :
    wp A M (psyGetNonneg p prop).run Q m s := by
  unfold psyGetNonneg psyGetInt
  rw [wp_run_bind, wp_run_lift, wp_bind]
  refine (wp_perform _ _ _ _).2 fun i _ => ⟨haccepts i, ?_⟩
  cases hf : i.fault with
  | some e =>
    simp only [handle, answer_some hf, wp_pure]
    have hneg : e.toInt < 0 := by
      have := e.pos
      simp only [Errno.toInt]
      omega
    rw [dif_pos hneg]
    exact herror i _
  | none =>
    simp only [handle, answer_none hf, wp_pure]
    split
    · exact herror i _
    · exact hok i hf

/-- The attempts at a property write: what every failed one keeps holds where it is accepted or given
up. -/
theorem wp_psyAttempts {prop : PsyProp} {v : Int} {J : M.St → State → Prop}
    {Q : Except Errno Unit → M.St → State → Prop}
    (haccepts : ∀ i m s, J m s → M.ok m ⟨.psySet prop v, i, s⟩)
    (hfailed : ∀ i m s, J m s → i.fault ≠ none → J (M.step m ⟨.psySet prop v, i, s⟩) (s.settle i))
    (hdone : ∀ i m s, J m s → i.fault = none →
      Q (.ok ()) (M.step m ⟨.psySet prop v, i, s⟩) ((s.settle i).setTcpm prop v))
    (hgiven : ∀ e m s, J m s → Q (.error e) m s) (n : Nat) (h : J m s) :
    wp A M (psyAttempts prop v n).run Q m s := by
  induction n generalizing m s with
  | zero => exact hgiven _ _ _ h
  | succ n ih =>
    unfold psyAttempts
    rw [wp_run_bind, wp_run_attempt]
    refine (wp_perform _ _ _ _).2 fun i _ => ⟨haccepts i m s h, ?_⟩
    cases hf : i.fault with
    | none =>
      simp only [handle, answer_none hf, apply_none hf]
      exact hdone i m s h hf
    | some e =>
      have hkept := hfailed i m s h (by simp [hf])
      simp only [handle, answer_some hf, apply_some hf]
      split
      · exact ih hkept
      · exact hgiven e _ _ hkept

end

/-! ## What the operations leave alone -/

/-- `SW_RESET` apart, the chip only ever drops `CHG_ON` by itself. -/
theorem settle_cntl5 (s : State) (i : Input) :
    (s.settle i).dc .cntl5 = s.dc .cntl5 ∨ (s.settle i).dc .cntl5 = s.dc .cntl5 &&& ~~~cntl5ChgOn := by
  unfold State.settle
  dsimp only
  split
  · exact .inr rfl
  · exact .inl rfl

theorem OnSm5714.frame {o : Op} (h : OnSm5714 o) (i : Input) (s : State) :
    (handle o i s).2.dc = s.dc ∧ (handle o i s).2.tcpm = s.tcpm ∧
      (handle o i s).2.mem.dc = s.mem.dc := by
  cases o with
  | store f => exact ⟨rfl, rfl, h s.mem⟩
  | chgWrite r v | muicWrite r v =>
    simp only [handle, Input.apply]
    cases i.fault
    all_goals exact ⟨rfl, rfl, rfl⟩
  | load | chgRead _ | muicRead _ | fgWriteAddr _ | fgReadData _ | iioRead => exact ⟨rfl, rfl, rfl⟩
  | _ => exact h.elim

/-- A reading leaves everything alone but what the chip does by itself. -/
theorem Looks.frame {o : Op} (h : Looks o) (i : Input) (s : State) :
    (handle o i s).2 = s ∨ (handle o i s).2 = s.settle i := by
  cases o with
  | load => exact .inl rfl
  | dcRead r => exact .inr rfl
  | psyGet p prop => exact .inr rfl
  | _ => exact h.elim

end Gts9Wifi.Charger.Sm5440
