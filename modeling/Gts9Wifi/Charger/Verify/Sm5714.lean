import Gts9Wifi.Charger.Sm5714

/-!
# What the SM5714 driver's functions do

One lemma per function. Reading functions leave the board alone (`Issues Quiet`, `wp_quiet`);
`getTemp` takes at most one temperature sample, which `sampleMonitor` records;
`configureCharging_spec` says everything a successful `sm5714_configure_charging` has done.
-/

namespace Gts9Wifi.Charger

open Driver

namespace Sm5714

/-! ## Vocabulary -/

/-- Q4 is closed: the switching charger feeds the pack. -/
def q4Closed (s : State) : Prop := s.chg .cntl1 &&& cntl1Enq4fet ≠ 0

/-- The boost is on. -/
def otgMode (s : State) : Prop := s.chg .cntl2 &&& cntl2ModeMask = cntl2UsbOtg

instance (s : State) : Decidable (q4Closed s) := inferInstanceAs (Decidable (_ ≠ _))
instance (s : State) : Decidable (otgMode s) := inferInstanceAs (Decidable (_ = _))

theorem q4Closed_congr {s s' : State} (h : s'.chg .cntl1 = s.chg .cntl1) :
    q4Closed s' ↔ q4Closed s := by
  unfold q4Closed
  rw [h]

/-- Updating `ENQ4FET` opens or closes Q4. -/
theorem q4Closed_update (s : State) (val old : BitVec 8) :
    q4Closed (s.setChg .cntl1 (maskedUpdate cntl1Enq4fet val old)) ↔ val &&& cntl1Enq4fet ≠ 0 := by
  unfold q4Closed
  rw [setChg_chg, if_pos rfl, maskedUpdate_and_mask]

/-- The temperature an operation samples, if it does. -/
def sampleOf (e : Event board) : Option Int :=
  match e.op with
  | .iioRead => if e.input.fault = none then thermistorTemp e.input.val else none
  | .fgReadData .temperature => if e.input.fault = none then some (sramTemp e.input.word) else none
  | _ => none

/-- Records the temperature samples. -/
abbrev sampleMonitor : Monitor board where
  St := List Int
  step l e := l ++ (sampleOf e).toList
  ok _ _ := True

theorem sampleMonitor_ignores {o : Op} (h : ∀ i s, sampleOf ⟨o, i, s⟩ = none) :
    sampleMonitor.Ignores o where
  accepts _ _ _ := trivial
  stays m i s := by simp only [h, Option.toList_none, List.append_nil]

instance : sampleMonitor.Ignores Op.load := sampleMonitor_ignores fun _ _ => rfl
instance (f : Mem → Mem) : sampleMonitor.Ignores (Op.store f) := sampleMonitor_ignores fun _ _ => rfl
instance (f : Fn) : sampleMonitor.Ignores (Op.enter f) := sampleMonitor_ignores fun _ _ => rfl
instance (r : ChgReg) : sampleMonitor.Ignores (Op.chgRead r) := sampleMonitor_ignores fun _ _ => rfl
instance (r : ChgReg) (v : BitVec 8) : sampleMonitor.Ignores (Op.chgWrite r v) :=
  sampleMonitor_ignores fun _ _ => rfl
instance (r : MuicReg) : sampleMonitor.Ignores (Op.muicRead r) := sampleMonitor_ignores fun _ _ => rfl
instance (a : FgSram) : sampleMonitor.Ignores (Op.fgWriteAddr a) :=
  sampleMonitor_ignores fun _ _ => rfl

/-- The samples of a trace, in order. -/
def samples (tr : List (Event board)) : List Int := sampleMonitor.after ([] : List Int) tr

/-- Operations that change nothing and sample nothing. Of the MUIC they read the detected type. -/
def Quiet : Op → Prop
  | .load | .chgRead _ | .fgWriteAddr _ => True
  | .muicRead r => r = .deviceType1
  | .fgReadData a => a ≠ .temperature
  | _ => False

theorem wp_quiet {A : Event board → Prop} {α : Type} {p : Code α} (h : Issues Quiet p)
    {m : List Int} {s : State} :
    wp A sampleMonitor p (fun _ m' s' => m' = m ∧ s' = s) m s := by
  apply h.wp (M := sampleMonitor) (J := fun m' s' => m' = m ∧ s' = s) ?_ ⟨rfl, rfl⟩
  rintro o ho i m' s' - ⟨rfl, rfl⟩
  refine ⟨trivial, ?_, ?_⟩
  · cases o with
    | fgReadData a => cases a <;> first | exact absurd rfl ho | exact List.append_nil m'
    | load | chgRead _ | muicRead _ | fgWriteAddr _ => exact List.append_nil m'
    | _ => exact ho.elim
  · cases o <;> first | rfl | exact ho.elim

/-! ## Reading functions -/

theorem getOnlineRaw_quiet : Issues Quiet getOnlineRaw.run := by
  unfold getOnlineRaw
  exact Issues.run_bind ⟨trivial, fun _ => trivial⟩ fun _ => trivial

theorem getOnline_quiet : Issues Quiet getOnline.run := by
  unfold getOnline
  refine Issues.run_bind (Issues.run_lift ⟨trivial, fun _ => trivial⟩) fun m => ?_
  split
  · trivial
  · exact getOnlineRaw_quiet

theorem getUsbType_quiet : Issues Quiet getUsbType.run := by
  unfold getUsbType
  refine Issues.run_bind getOnline_quiet fun online => ?_
  split
  · trivial
  refine Issues.run_bind (Issues.run_lift ⟨trivial, fun _ => trivial⟩) fun m => ?_
  split
  · trivial
  refine Issues.run_bind ⟨rfl, fun _ => trivial⟩ fun type => ?_
  split
  · trivial
  split
  · trivial
  split <;> trivial

theorem getStatus_quiet : Issues Quiet getStatus.run := by
  unfold getStatus
  refine Issues.run_bind (Issues.run_lift ⟨trivial, fun _ => trivial⟩) fun m => ?_
  split
  · trivial
  refine Issues.run_bind ⟨trivial, fun _ => trivial⟩ fun st1 => ?_
  refine Issues.run_bind ⟨trivial, fun _ => trivial⟩ fun st2 => ?_
  split
  · trivial
  refine Issues.run_bind (Issues.run_lift ⟨trivial, fun _ => trivial⟩) fun m => ?_
  split
  · trivial
  split
  · trivial
  split <;> trivial

theorem getCapacity_quiet : Issues Quiet getCapacity.run := by
  unfold getCapacity fgReadSram
  refine Issues.run_bind ?_ fun _ => trivial
  refine Issues.run_bind ⟨trivial, fun _ => trivial⟩ fun _ => ?_
  exact ⟨FgSram.noConfusion, fun _ => trivial⟩

/-! ## Temperature -/

section Temperature

variable {A : Event board → Prop} {m : List Int} {s : State}

theorem wp_fgReadTemp {Q : Except Errno (BitVec 16) → List Int → State → Prop}
    (he : ∀ i e, A ⟨.fgReadData .temperature, i, s⟩ → i.fault = some e → Q (.error e) m s)
    (hok : ∀ i, A ⟨.fgReadData .temperature, i, s⟩ → i.fault = none →
      Q (.ok i.word) (m ++ [sramTemp i.word]) s) :
    wp A sampleMonitor (fgReadData .temperature).run Q m s := by
  refine (wp_perform _ _ _ _).2 fun i hi => ⟨trivial, ?_⟩
  cases hf : i.fault with
  | some e => simpa [handle, answer_some hf, sampleOf, hf] using he i e hi hf
  | none => simpa [handle, answer_none hf, sampleOf, hf] using hok i hi hf

theorem wp_iioRead {Q : Except Errno Int → List Int → State → Prop}
    (he : ∀ i e, A ⟨.iioRead, i, s⟩ → i.fault = some e → Q (.error e) m s)
    (hok : ∀ i, A ⟨.iioRead, i, s⟩ → i.fault = none →
      Q (.ok i.val) (m ++ (thermistorTemp i.val).toList) s) :
    wp A sampleMonitor iioRead.run Q m s := by
  refine (wp_perform _ _ _ _).2 fun i hi => ⟨trivial, ?_⟩
  cases hf : i.fault with
  | some e => simpa [handle, answer_some hf, sampleOf, hf] using he i e hi hf
  | none => simpa [handle, answer_none hf, sampleOf, hf] using hok i hi hf

theorem fgReadTemp_spec :
    wp A sampleMonitor (fgReadSram .temperature >>= fun raw => pure (sramTemp raw) : Fallible Int).run
      (fun r m' s' => (s' = s ∧ m' = m ++ r.toOption.toList) ∧ (r.toOption = none → Faulty A)) m s := by
  unfold fgReadSram
  rw [wp_run_bind, wp_run_bind]
  refine wp_fgWriteAddr (fun i e hi hf => ?_) ?_
  · exact ⟨⟨rfl, (List.append_nil m).symm⟩, fun _ => ⟨_, hi, rfl, by simp [hf]⟩⟩
  refine wp_fgReadTemp (fun i e hi hf => ?_) fun _ _ _ => ⟨⟨rfl, rfl⟩, fun h => nomatch h⟩
  exact ⟨⟨rfl, (List.append_nil m).symm⟩, fun _ => ⟨_, hi, rfl, by simp [hf]⟩⟩

/-- A temperature that is returned is the one sample taken; a failed read takes none, and it fails
only with a register access, since the gauge stands in for the thermistor. -/
theorem getTemp_spec :
    wp A sampleMonitor getTemp.run (fun r m' s' =>
      (s' = s ∧ m' = m ++ r.toOption.toList) ∧ (r.toOption = none → Faulty A)) m s := by
  unfold getTemp
  apply wp_run_load_seq
  split
  · rw [wp_run_bind, wp_run_attempt]
    refine wp_iioRead (fun _ _ _ _ => fgReadTemp_spec) fun i _ _ => ?_
    dsimp only
    cases ht : thermistorTemp i.val with
    | some t => exact ⟨⟨rfl, rfl⟩, fun h => nomatch h⟩
    | none =>
      rw [Option.toList_none, List.append_nil]
      exact fgReadTemp_spec
  · exact fgReadTemp_spec

end Temperature

/-! ## Register updates -/

section Updates

variable {A : Event board → Prop} {M : Monitor board} {m : M.St} {s : State}

/-- A masked update that succeeds leaves the masked value, whether or not it had to write. -/
theorem wp_chgUpdateBits {r : ChgReg} {mask val : BitVec 8} (hr : r.isStatus = false)
    [M.Ignores (Op.chgRead r)] [∀ v, M.Ignores (Op.chgWrite r v)]
    {Q : Except Errno Unit → M.St → State → Prop}
    (he : Faulty A → ∀ e, Q (.error e) m s)
    (hok : Q (.ok ()) m (s.setChg r (maskedUpdate mask val (s.chg r)))) :
    wp A M (chgUpdateBits r mask val).run Q m s := by
  unfold chgUpdateBits
  rw [wp_run_bind]
  refine wp_chgRead (fun i e hi hf => he ⟨_, hi, rfl, by simp [hf]⟩ e) fun i _ _ => ?_
  simp only [hr, Bool.false_eq_true, ↓reduceIte]
  split
  · next heq =>
    rw [heq, setChg_self] at hok
    exact hok
  · exact wp_chgWrite (fun i e hi hf => he ⟨_, hi, rfl, by simp [hf]⟩ e) hok

end Updates

/-! ## The global lock -/

section Locked

variable {A : Event board → Prop} {M : Monitor board} {m : M.St} {s : State} {β : Type}
  [∀ g, M.Ignores (Op.store g)]

theorem wp_lockGlobal {f : Unit → Task β} {Q : β → M.St → State → Prop}
    (h : wp A M (f ()).seq Q m (s.setMem (setGlobalLock true))) :
    wp A M (lockGlobal >>= f).seq Q m s := by
  unfold lockGlobal
  rw [Thread.seq_bind, Thread.seq_await, wp_bind]
  exact wp_store h

theorem wp_unlockGlobal {f : Unit → Task β} {Q : β → M.St → State → Prop}
    (h : wp A M (f ()).seq Q m (s.setMem (setGlobalLock false))) :
    wp A M (unlockGlobal >>= f).seq Q m s := by
  unfold unlockGlobal
  rw [Thread.seq_bind, Thread.seq_atomic, wp_bind]
  exact wp_store h

/-- `sm5714_battery_set_direct_charge` is refused while no driver is bound, and otherwise grants or
revokes under the lock. -/
theorem wp_setDirectCharge [M.Ignores Op.load] [∀ f, M.Ignores (Op.enter f)] {active : Bool}
    {Q : Except Errno Unit → M.St → State → Prop}
    (hunbound : ∀ i, s.mem.primary = false → Q (.error .eprobeDefer) m
      (((s.settle i).setMem (setGlobalLock true)).setMem (setGlobalLock false)))
    (hbound : ∀ i, s.mem.primary = true →
      wp A M (if active then grantDirectCharge else revokeDirectCharge).seq
        (fun r m s' => Q r m (s'.setMem (setGlobalLock false))) m
        ((s.settle i).setMem (setGlobalLock true))) :
    wp A M (setDirectCharge active).seq Q m s := by
  unfold setDirectCharge setDirectChargeLocked
  rw [Thread.seq_bind, Thread.seq_interruptible, wp_bind]
  refine wp_enter fun i => wp_lockGlobal ?_
  apply Thread.wp_seq_bind (P := fun r m s' => Q r m (s'.setMem (setGlobalLock false)))
  · apply wp_thread_load
    refine Thread.wp_seq_ite (fun hp => ?_) fun hp => ?_
    · exact hunbound i (Bool.eq_false_iff.2 hp)
    · exact hbound i (not_not.1 hp)
  · intro r m s' hr
    exact wp_unlockGlobal hr

/-- `sm5714_battery_set_otg(true)` is refused while no driver is bound, has nothing to do while the
flag is set, and otherwise takes the enable path under the lock. -/
theorem wp_setOtg_true [M.Ignores Op.load] {Q : Except Errno Unit → M.St → State → Prop}
    (hunbound : s.mem.primary = false → Q (.error .eprobeDefer) m
      ((s.setMem (setGlobalLock true)).setMem (setGlobalLock false)))
    (hsame : s.mem.bat.otgActive = true → Q (.ok ()) m
      ((s.setMem (setGlobalLock true)).setMem (setGlobalLock false)))
    (hbound : s.mem.primary = true → s.mem.bat.otgActive = false →
      wp A M otgEnable.seq (fun r m s' => Q r m (s'.setMem (setGlobalLock false))) m
        (s.setMem (setGlobalLock true))) :
    wp A M (setOtg true).seq Q m s := by
  unfold setOtg
  apply wp_lockGlobal
  apply Thread.wp_seq_bind (P := fun r m s' =>
    r ≠ .ok true ∧ Q (r.map fun _ => ()) m (s'.setMem (setGlobalLock false)))
  · unfold setOtgLocked
    apply wp_thread_load
    refine Thread.wp_seq_ite (fun hp => ?_) fun hp => ?_
    · exact ⟨(nomatch ·), hunbound (Bool.eq_false_iff.2 hp)⟩
    apply wp_thread_load
    refine Thread.wp_seq_ite (fun hflag => ?_) fun hflag => ?_
    · exact ⟨(nomatch ·), hsame hflag.symm⟩
    simp only [↓reduceIte]
    apply Thread.wp_seq_bind (hbound (not_not.1 hp) (Bool.eq_false_iff.2 fun h => hflag h.symm))
    rintro (e | ⟨⟩) _ _ hr
    · exact ⟨(nomatch ·), hr⟩
    · exact ⟨(nomatch ·), hr⟩
  · rintro r m s' ⟨hne, hr⟩
    apply wp_unlockGlobal
    match r, hne, hr with
    | .error e, _, hr => exact hr
    | .ok false, _, hr => exact hr
    | .ok true, hne, _ => exact absurd rfl hne

/-- `sm5714_battery_set_otg(false)` has nothing to do while the flag is clear; otherwise it takes the
disable path under the lock, and restores charging after it. -/
theorem wp_setOtg_false [M.Ignores Op.load] {Q : Except Errno Unit → M.St → State → Prop}
    (hunbound : s.mem.primary = false → Q (.error .eprobeDefer) m
      ((s.setMem (setGlobalLock true)).setMem (setGlobalLock false)))
    (hsame : s.mem.primary = true → s.mem.bat.otgActive = false → Q (.ok ()) m
      ((s.setMem (setGlobalLock true)).setMem (setGlobalLock false)))
    (hbound : s.mem.primary = true → s.mem.bat.otgActive = true →
      wp A M otgDisable.seq (fun r m s' =>
        match r with
        | .error e => Q (.error e) m (s'.setMem (setGlobalLock false))
        | .ok false => Q (.ok ()) m (s'.setMem (setGlobalLock false))
        | .ok true => wp A M configureCharging.run Q m (s'.setMem (setGlobalLock false))) m
        (s.setMem (setGlobalLock true))) :
    wp A M (setOtg false).seq Q m s := by
  unfold setOtg
  apply wp_lockGlobal
  apply Thread.wp_seq_bind (P := fun r m s' =>
    match r with
    | .error e => Q (.error e) m (s'.setMem (setGlobalLock false))
    | .ok false => Q (.ok ()) m (s'.setMem (setGlobalLock false))
    | .ok true => wp A M configureCharging.run Q m (s'.setMem (setGlobalLock false)))
  · unfold setOtgLocked
    apply wp_thread_load
    refine Thread.wp_seq_ite (fun hp => ?_) fun hp => ?_
    · exact hunbound (Bool.eq_false_iff.2 hp)
    apply wp_thread_load
    refine Thread.wp_seq_ite (fun hflag => ?_) fun hflag => ?_
    · exact hsame (not_not.1 hp) hflag.symm
    simp only [Bool.false_eq_true, ↓reduceIte]
    exact hbound (not_not.1 hp) (eq_true_of_ne_false fun h => hflag h.symm)
  · intro r m s' hr
    apply wp_unlockGlobal
    match r, hr with
    | .error e, hr => exact hr
    | .ok false, hr => exact hr
    | .ok true, hr =>
      dsimp only
      rw [Thread.seq_atomic]
      exact hr

end Locked

/-! ## Programming the charger -/

/-- The thermal state after some samples. -/
def thermalAfter (l : List Int) (t : ThermalState) : ThermalState := l.foldl chargeThermalState t

/-- Everything a successful `sm5714_configure_charging` has done: it took the samples `l`. -/
structure Configured (s s' : State) (l : List Int) : Prop where
  notOtg : s.mem.bat.otgActive = false
  mem : s'.mem = Battery.setThermal (thermalAfter l s.mem.bat.thermalState) s.mem
  muic : s'.muic = s.muic
  cntl2 : s'.chg .cntl2 = s.chg .cntl2
  q4 : q4Closed s' ↔ thermalAfter l s.mem.bat.thermalState ≠ .stop
  limits : thermalAfter l s.mem.bat.thermalState ≠ .stop → ∃ usbType,
    s'.chg .vbuscntl = inputCurrentReg (chargeCurrents s.mem.bat.typecMv s.mem.bat.typecMa usbType
      s.mem.bat.fastCharge (thermalAfter l s.mem.bat.thermalState)).1 ∧
    s'.chg .chgcntl2 = fastCurrentReg (chargeCurrents s.mem.bat.typecMv s.mem.bat.typecMa usbType
      s.mem.bat.fastCharge (thermalAfter l s.mem.bat.thermalState)).2

section Configure

variable {A : Event board → Prop} {m : List Int} {s : State}

theorem sampleThermal_spec :
    wp A sampleMonitor sampleThermal.run (fun r m' s' => ∃ l, m' = m ++ l ∧
      r = .ok (thermalAfter l s.mem.bat.thermalState) ∧
      s' = s.setMem (Battery.setThermal (thermalAfter l s.mem.bat.thermalState))) m s := by
  unfold sampleThermal
  apply wp_run_load_seq
  apply wp_run_attempt_seq getTemp_spec
  intro r m' s' hr
  obtain ⟨⟨rfl, rfl⟩, -⟩ := hr
  cases r with
  | error e => exact ⟨[], rfl, rfl, rfl⟩
  | ok t =>
    apply wp_run_load_seq
    apply wp_run_store_seq
    exact ⟨[t], rfl, rfl, rfl⟩

/-- Reading functions fail only when an access fails. -/
theorem getOnline_spec :
    wp A sampleMonitor getOnline.run (fun r m' s' => (m' = m ∧ s' = s) ∧
      match r with
      | .ok b => s.mem.bat.otgActive = true → b = false
      | .error _ => Faulty A) m s := by
  refine wp_and (wp_quiet getOnline_quiet) ?_
  unfold getOnline
  apply wp_run_load_seq
  split
  · exact fun _ => rfl
  next h =>
  unfold getOnlineRaw
  rw [wp_run_bind]
  refine wp_chgRead (fun i e hi hf => ⟨_, hi, rfl, by simp [hf]⟩) fun i _ _ => ?_
  exact fun h' => absurd h' h

theorem getUsbType_spec :
    wp A sampleMonitor getUsbType.run (fun r m' s' => (m' = m ∧ s' = s) ∧
      (r.toOption = none → Faulty A)) m s := by
  refine wp_and (wp_quiet getUsbType_quiet) ?_
  unfold getUsbType
  apply wp_run_seq getOnline_spec
  · intro e m' s' hr _
    exact hr.2
  intro online m' s' hr
  obtain ⟨⟨rfl, rfl⟩, -⟩ := hr
  split
  · exact (nomatch ·)
  apply wp_run_load_seq
  split
  · exact (nomatch ·)
  rw [wp_run_bind]
  refine wp_muicRead (fun i e hi hf _ => ⟨_, hi, rfl, by simp [hf]⟩) fun i _ _ => ?_
  simp only [MuicReg.isStatus, ↓reduceIte]
  split
  · exact (nomatch ·)
  split
  · exact (nomatch ·)
  split <;> exact (nomatch ·)

theorem setFloatVoltage_spec :
    wp A sampleMonitor setFloatVoltage.run (fun r m' s' => m' = m ∧
      match r with
      | .ok () => ∃ v, s' = s.setChg .chgcntl4 v
      | .error _ => Faulty A) m s := by
  unfold setFloatVoltage
  apply wp_run_load_seq
  dsimp only
  split
  · exact ⟨rfl, s.chg .chgcntl4, (setChg_self s _).symm⟩
  · exact wp_chgUpdateBits rfl (fun hF _ => ⟨rfl, hF⟩) ⟨rfl, _, rfl⟩

/-- `sm5714_configure_charging` succeeds with the effect `Configured`, or it refuses because the
boost is on, or a register access failed. -/
theorem configureCharging_spec :
    wp A sampleMonitor configureCharging.run (fun r m' s' =>
      match r with
      | .ok () => ∃ l, m' = m ++ l ∧ Configured s s' l
      | .error _ => s.mem.bat.otgActive = true ∨ Faulty A) m s := by
  unfold configureCharging
  apply wp_run_load_seq
  dsimp only
  split
  · next h => exact .inl h
  next hotg =>
  apply wp_run_seq getUsbType_spec
  · intro e m' s' hr
    exact .inr (hr.2 rfl)
  intro usbType m' s' hr
  obtain ⟨⟨rfl, rfl⟩, -⟩ := hr
  apply wp_run_seq sampleThermal_spec
  · intro e m' s' hr
    obtain ⟨l, -, herr, -⟩ := hr
    cases herr
  intro thermal m' s' hr
  obtain ⟨l, rfl, hthermal, rfl⟩ := hr
  cases hthermal
  split
  · next hstop =>
    refine wp_chgUpdateBits rfl (fun hF _ => .inr hF) ⟨l, rfl, ?_⟩
    refine ⟨by simpa using hotg, rfl, rfl, rfl, ?_, fun h => absurd hstop h⟩
    rw [q4Closed_update]
    exact iff_of_false (fun h => h rfl) fun h => h hstop
  next hstop =>
  apply wp_run_load_seq
  rw [wp_run_bind]
  refine wp_chgWrite (fun i e hi hf => .inr ⟨_, hi, rfl, by simp [hf]⟩) ?_
  dsimp only
  rw [wp_run_bind]
  refine wp_chgWrite (fun i e hi hf => .inr ⟨_, hi, rfl, by simp [hf]⟩) ?_
  apply wp_run_seq setFloatVoltage_spec
  · intro e m' s' hr
    exact .inr hr.2
  intro _ m' s' hr
  obtain ⟨rfl, v, rfl⟩ := hr
  rw [wp_run_bind]
  refine wp_chgUpdateBits rfl (fun hF _ => .inr hF) ?_
  dsimp only
  refine wp_chgWrite (fun i e hi hf => .inr ⟨_, hi, rfl, by simp [hf]⟩) ⟨l, rfl, ?_⟩
  refine ⟨by simpa using hotg, rfl, rfl, rfl, ?_, fun _ => ⟨usbType, ?_⟩⟩
  · rw [q4Closed_congr (setChg_chg _ _ _ _), q4Closed_update]
    exact iff_of_true (by decide) hstop
  · exact ⟨rfl, rfl⟩

end Configure

end Sm5714

end Gts9Wifi.Charger
