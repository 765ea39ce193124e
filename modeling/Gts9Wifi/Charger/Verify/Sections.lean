import Gts9Wifi.Charger.Verify.Sm5714

/-!
# What the sections of the SM5714 driver may do

The poll, the contract callback and the fast-charge switch never touch the two mode flags nor the
charger's mode register, and none of their sections breaks the OTG invariant `OtgSafe`: outside
`chg_lock` they only open Q4, and `sm5714_configure_charging`, which may close it, refuses while the
boost is on. `Spares` packages this for one section; the lemmas below go through the entry points
once, and what they give is used both for calls on their own and for interleaved ones.
-/

namespace Gts9Wifi.Charger.Sm5714

open Driver

/-- The mode register and the flag agree, and Q4 is open while the boost is on. -/
structure OtgSafe (s : State) : Prop where
  mode : otgMode s ↔ s.mem.bat.otgActive = true
  q4 : s.mem.bat.otgActive = true → ¬ q4Closed s

/-! ## Classes of operations -/

/-- Operations that only read, of the MUIC only the detected type. -/
def Reads : Op → Prop
  | .load | .chgRead _ | .fgWriteAddr _ | .fgReadData _ | .iioRead => True
  | .muicRead r => r = .deviceType1
  | _ => False

/-- Operations that keep `direct_charging`. -/
def KeepsDirect : Op → Prop
  | .store f => ∀ m, (f m).bat.directCharging = m.bat.directCharging
  | _ => True

/-- Operations that keep both mode flags, the charger's mode register and the pump driver's data. -/
def Charging : Op → Prop
  | .store f => ∀ m, (f m).bat.directCharging = m.bat.directCharging ∧
      (f m).bat.otgActive = m.bat.otgActive ∧ (f m).dc = m.dc
  | .chgWrite r _ => r ≠ .cntl2
  | o => Reads o

/-- The `Charging` operations that do not close Q4 either. -/
def Harmless : Op → Prop
  | .chgWrite .cntl1 v => v &&& cntl1Enq4fet = 0
  | o => Charging o

theorem Quiet.reads {o : Op} (h : Quiet o) : Reads o := by
  cases o <;> trivial

theorem Reads.frame {o : Op} (h : Reads o) (i : Input) (s : State) : (handle o i s).2 = s := by
  cases o <;> first | rfl | exact h.elim

theorem Reads.harmless {o : Op} (h : Reads o) : Harmless o := by
  cases o <;> trivial

theorem Harmless.charging {o : Op} (h : Harmless o) : Charging o := by
  cases o with
  | chgWrite r v => cases r <;> first | exact h | exact ChgReg.noConfusion
  | _ => exact h

theorem Charging.keepsDirect {o : Op} (h : Charging o) : KeepsDirect o := by
  cases o with
  | store f => exact fun m => (h m).1
  | _ => trivial

/-- What no `Charging` operation changes. -/
theorem Charging.frame {o : Op} (h : Charging o) (i : Input) (s : State) :
    (handle o i s).2.mem.bat.directCharging = s.mem.bat.directCharging ∧
      (handle o i s).2.mem.bat.otgActive = s.mem.bat.otgActive ∧
      (handle o i s).2.chg .cntl2 = s.chg .cntl2 ∧ (handle o i s).2.muic = s.muic := by
  cases o with
  | store f => exact ⟨(h s.mem).1, (h s.mem).2.1, rfl, rfl⟩
  | chgWrite r v =>
    cases hf : i.fault with
    | some e => simp only [handle, apply_some hf, and_self]
    | none =>
      simp only [handle, apply_none hf, setChg_mem, setChg_chg, setChg_muic, true_and, and_true]
      exact if_neg (Ne.symm h)
  | load | chgRead _ | muicRead _ | fgWriteAddr _ | fgReadData _ | iioRead =>
    exact ⟨rfl, rfl, rfl, rfl⟩
  | _ => exact h.elim

/-- Run on its own, a program of `Charging` operations keeps both flags. -/
theorem run_keeps_flags {α : Type} {p : Code α} (h : Issues Charging p) (ι : Nat → Input)
    (s : State) :
    (p.run board ι s).2.mem.bat.directCharging = s.mem.bat.directCharging ∧
      (p.run board ι s).2.mem.bat.otgActive = s.mem.bat.otgActive := by
  have hwp := h.wp (W := board) (A := fun _ => True) (M := Monitor.idle board) (m := ()) (s := s)
    (J := fun _ s' => s'.mem.bat.directCharging = s.mem.bat.directCharging ∧
      s'.mem.bat.otgActive = s.mem.bat.otgActive)
    (fun o ho i _ s' _ hs' => by
      obtain ⟨h1, h2, -⟩ := ho.frame i s'
      exact ⟨trivial, h1.trans hs'.1, h2.trans hs'.2⟩)
    ⟨rfl, rfl⟩
  exact (wp_sound hwp ι fun _ _ => trivial).2

theorem OtgSafe.congr {s s' : State} (h : OtgSafe s)
    (hotg : s'.mem.bat.otgActive = s.mem.bat.otgActive) (hmode : s'.chg .cntl2 = s.chg .cntl2)
    (hq4 : s'.mem.bat.otgActive = true → ¬ q4Closed s') : OtgSafe s' := by
  refine ⟨?_, hq4⟩
  have hm := h.mode
  unfold otgMode at hm ⊢
  rw [hmode, hotg]
  exact hm

theorem Harmless.otgSafe {o : Op} (h : Harmless o) {i : Input} {s : State} (hs : OtgSafe s) :
    OtgSafe (handle o i s).2 := by
  obtain ⟨-, hotg, hmode, -⟩ := h.charging.frame i s
  refine hs.congr hotg hmode fun hact => ?_
  have hopen : ¬ q4Closed s := hs.q4 (hotg ▸ hact)
  cases o with
  | chgWrite r v =>
    cases hf : i.fault with
    | some e =>
      simp only [handle, apply_some hf]
      exact hopen
    | none =>
      simp only [handle, apply_none hf]
      cases r with
      | cntl1 => exact fun hq => hq h
      | _ => exact hopen
  | store _ | load | chgRead _ | muicRead _ | fgWriteAddr _ | fgReadData _ | iioRead => exact hopen
  | _ => exact h.elim

/-! ## Sections -/

/-- A section that leaves the flags and the mode register alone and keeps `OtgSafe`. -/
def Spares (β : Type) (p : Code β) : Prop :=
  Issues Charging p ∧ ∀ s, OtgSafe s →
    wp (fun _ => True) (Monitor.idle board) p (fun _ _ s' => OtgSafe s') () s

theorem spares_perform {o : Op} (h : Harmless o) : Spares _ (Prog.perform (I := iface) o) :=
  ⟨⟨h.charging, fun _ => trivial⟩, fun _ hs _ _ => ⟨trivial, h.otgSafe hs⟩⟩

/-- Code outside every lock whose operations are all harmless. -/
theorem spares_interruptible {α : Type} {p : Code α} (h : Issues Harmless p) :
    (Thread.interruptible p : Task α).Each Spares :=
  Thread.Each.interruptible h fun _ => spares_perform

theorem spares_reads {α : Type} {p : Code α} (h : Issues Reads p) :
    (Thread.interruptible p : Task α).Each Spares :=
  spares_interruptible (h.mono fun _ => Reads.harmless)

theorem spares_quiet {α : Type} {p : Code α} (h : Issues Quiet p) :
    (Thread.interruptible p : Task α).Each Spares :=
  spares_reads (h.mono fun _ => Quiet.reads)

theorem spares_load : (Thread.interruptible load : Task Mem).Each Spares :=
  spares_quiet ⟨trivial, fun _ => trivial⟩

theorem spares_store {f : Mem → Mem} (h : Charging (.store f)) :
    (Thread.interruptible (store f) : Task Unit).Each Spares :=
  spares_interruptible ⟨h, fun _ => trivial⟩

theorem fgReadTemp_reads :
    Issues Reads (fgReadSram .temperature >>= fun raw => pure (sramTemp raw) : Fallible Int).run := by
  unfold fgReadSram
  refine Issues.run_bind ?_ fun _ => trivial
  exact Issues.run_bind ⟨trivial, fun _ => trivial⟩ fun _ => ⟨trivial, fun _ => trivial⟩

theorem getTemp_reads : Issues Reads getTemp.run := by
  unfold getTemp
  refine Issues.run_bind (Issues.run_lift ⟨trivial, fun _ => trivial⟩) fun m => ?_
  split
  · refine Issues.run_bind (Issues.run_attempt ⟨trivial, fun _ => trivial⟩) fun r => ?_
    split
    · split
      · trivial
      · exact fgReadTemp_reads
    · exact fgReadTemp_reads
  · exact fgReadTemp_reads

theorem chgUpdateBits_charging {r : ChgReg} (hr : r ≠ .cntl2) (mask val : BitVec 8) :
    Issues Charging (chgUpdateBits r mask val).run := by
  unfold chgUpdateBits
  refine Issues.run_bind ⟨trivial, fun _ => trivial⟩ fun old => ?_
  dsimp only
  split
  · trivial
  · exact ⟨hr, fun _ => trivial⟩

/-- Opening Q4 is harmless, also outside `chg_lock`: whatever was read, `ENQ4FET` is written as 0. -/
theorem openQ4_harmless : Issues Harmless (chgUpdateBits .cntl1 cntl1Enq4fet 0).run := by
  unfold chgUpdateBits
  refine Issues.run_bind ⟨trivial, fun _ => trivial⟩ fun old => ?_
  dsimp only
  split
  · trivial
  · exact ⟨maskedUpdate_and_mask _ _ _, fun _ => trivial⟩

theorem sampleThermal_charging : Issues Charging sampleThermal.run := by
  unfold sampleThermal
  refine Issues.run_bind (Issues.run_lift ⟨trivial, fun _ => trivial⟩) fun m => ?_
  refine Issues.run_bind (Issues.run_attempt (getTemp_reads.mono fun _ h => h.harmless.charging))
    fun r => ?_
  split
  · refine Issues.run_bind (Issues.run_lift ⟨trivial, fun _ => trivial⟩) fun m => ?_
    dsimp only
    exact Issues.run_bind (Issues.run_lift ⟨fun _ => ⟨rfl, rfl, rfl⟩, fun _ => trivial⟩) fun _ => trivial
  · trivial

theorem configureCharging_charging : Issues Charging configureCharging.run := by
  unfold configureCharging
  refine Issues.run_bind (Issues.run_lift ⟨trivial, fun _ => trivial⟩) fun m => ?_
  dsimp only
  split
  · trivial
  refine Issues.run_bind (getUsbType_quiet.mono fun _ h => h.reads.harmless.charging) fun t => ?_
  refine Issues.run_bind sampleThermal_charging fun thermal => ?_
  split
  · exact chgUpdateBits_charging ChgReg.noConfusion _ _
  refine Issues.run_bind (Issues.run_lift ⟨trivial, fun _ => trivial⟩) fun m => ?_
  refine Issues.run_bind ⟨ChgReg.noConfusion, fun _ => trivial⟩ fun _ => ?_
  refine Issues.run_bind ⟨ChgReg.noConfusion, fun _ => trivial⟩ fun _ => ?_
  refine Issues.run_bind ?_ fun _ => ?_
  · unfold setFloatVoltage
    refine Issues.run_bind (Issues.run_lift ⟨trivial, fun _ => trivial⟩) fun m => ?_
    dsimp only
    split
    · trivial
    · exact chgUpdateBits_charging ChgReg.noConfusion _ _
  refine Issues.run_bind (chgUpdateBits_charging ChgReg.noConfusion _ _) fun _ => ?_
  exact ⟨ChgReg.noConfusion, fun _ => trivial⟩

/-- While the boost is on, `sm5714_configure_charging` touches nothing; while it is off, it cannot
bring it up. -/
theorem configureCharging_spares : Spares _ configureCharging.run := by
  refine ⟨configureCharging_charging, fun s hs => ?_⟩
  cases hact : s.mem.bat.otgActive with
  | true =>
    unfold configureCharging
    apply wp_run_load_seq
    rw [if_pos hact]
    exact hs
  | false =>
    have hframe := configureCharging_charging.wp (W := board) (A := fun _ => True)
      (M := Monitor.idle board) (m := ()) (s := s)
      (J := fun _ s' => s'.mem.bat.otgActive = false ∧ s'.chg .cntl2 = s.chg .cntl2)
      (fun o ho i _ s' _ h => by
        obtain ⟨-, h1, h2, -⟩ := ho.frame i s'
        exact ⟨trivial, h1.trans h.1, h2.trans h.2⟩)
      ⟨hact, rfl⟩
    refine wp_mono hframe ?_
    rintro r m s' ⟨h1, h2⟩
    exact hs.congr (h1.trans hact.symm) h2 fun h => absurd (h1.symm.trans h) Bool.false_ne_true

theorem spares_configure :
    (Thread.atomic configureCharging.run : Task (Except Errno Unit)).Each Spares :=
  Thread.Each.atomic configureCharging_spares

/-! ## Entry points -/

theorem lockGlobal_spares : lockGlobal.Each Spares :=
  Thread.Each.await (spares_perform fun _ => ⟨rfl, rfl, rfl⟩)

theorem unlockGlobal_spares : unlockGlobal.Each Spares :=
  Thread.Each.atomic (spares_perform fun _ => ⟨rfl, rfl, rfl⟩)

theorem setPdContract_spares (mv ma : Nat) : (setPdContract mv ma).Each Spares := by
  unfold setPdContract setPdContractLocked
  split
  · trivial
  refine lockGlobal_spares.bind fun _ => Thread.Each.bind ?_ fun _ =>
    unlockGlobal_spares.bind fun _ => trivial
  refine spares_load.bind fun m => ?_
  split
  · trivial
  refine Thread.Each.bind (spares_store fun _ => ⟨rfl, rfl, rfl⟩) fun _ => ?_
  split
  · trivial
  refine (spares_quiet getOnline_quiet).bind fun online => ?_
  refine Thread.Each.ite trivial ?_
  refine spares_load.bind fun m => ?_
  split
  · trivial
  · exact spares_configure

theorem fastChargeStore_spares (parsed : Option Bool) : (fastChargeStore parsed).Each Spares := by
  unfold fastChargeStore
  split
  · trivial
  refine spares_load.bind fun m => ?_
  split
  · trivial
  refine Thread.Each.bind (spares_store fun _ => ⟨rfl, rfl, rfl⟩) fun _ => ?_
  exact spares_configure.bind fun _ => trivial

theorem pollCapacity_spares (sm : Battery) : (pollCapacity sm).Each Spares := by
  unfold pollCapacity
  split
  · refine (spares_quiet getCapacity_quiet).bind fun r => ?_
    split <;> trivial
  · trivial

theorem pollSample_spares : pollSample.Each Spares := by
  unfold pollSample
  refine (spares_reads getTemp_reads).bind fun r => ?_
  split
  · exact spares_load.bind fun m => spares_store fun _ => ⟨rfl, rfl, rfl⟩
  · trivial

theorem pollThermal_spares (online : Bool) (status : Except Errno PsyStatus) :
    (pollThermal online status).Each Spares := by
  unfold pollThermal
  split
  · trivial
  refine spares_load.bind fun m => pollSample_spares.bind fun _ => spares_load.bind fun m' => ?_
  split
  · trivial
  · exact spares_configure.bind fun _ => spares_quiet getStatus_quiet

theorem pollMustRecover_spares (online : Bool) (status : Except Errno PsyStatus) :
    (pollMustRecover online status).Each Spares := by
  unfold pollMustRecover
  split
  · trivial
  refine spares_load.bind fun m => ?_
  split
  · trivial
  refine Thread.Each.ite trivial ?_
  refine spares_load.bind fun m => ?_
  split
  · trivial
  refine Thread.Each.bind (spares_quiet ⟨trivial, fun _ => trivial⟩) fun r => ?_
  split <;> trivial

theorem pollRecover_spares (online : Bool) (status : Except Errno PsyStatus) :
    (pollRecover online status).Each Spares := by
  unfold pollRecover
  refine (pollMustRecover_spares online status).bind fun recover => ?_
  split
  · refine spares_configure.bind fun r => ?_
    split
    · exact spares_quiet getStatus_quiet
    · trivial
  · trivial

theorem pollRecordStatus_spares (status : Except Errno PsyStatus) (capacity : Int) :
    (pollRecordStatus status capacity).Each Spares := by
  unfold pollRecordStatus
  split
  · refine spares_load.bind fun m => ?_
    dsimp only
    split
    · exact spares_store fun _ => ⟨rfl, rfl, rfl⟩
    · trivial
  · trivial

theorem pollRecordOnline_spares (online : Except Errno Bool) :
    (pollRecordOnline online).Each Spares := by
  unfold pollRecordOnline
  split
  · refine spares_load.bind fun m => ?_
    split
    · refine Thread.Each.bind (spares_store fun _ => ⟨rfl, rfl, rfl⟩) fun _ => ?_
      split
      · exact (spares_interruptible openQ4_harmless).bind fun _ => trivial
      · trivial
    · trivial
  · trivial

theorem pollRecordUsbType_spares (usbType : Except Errno UsbType) :
    (pollRecordUsbType usbType).Each Spares := by
  unfold pollRecordUsbType
  split
  · refine spares_load.bind fun m => ?_
    split
    · exact spares_store fun _ => ⟨rfl, rfl, rfl⟩
    · trivial
  · trivial

theorem pollStart_quiet : Issues Quiet pollStart := by
  unfold pollStart
  exact getStatus_quiet.bind fun status => getOnline_quiet.bind fun online => trivial

theorem pollWork_spares : pollWork.Each Spares := by
  unfold pollWork pollUpdate
  refine (spares_quiet pollStart_quiet).bind fun _ => ?_
  refine (spares_quiet getUsbType_quiet).bind fun usbType => ?_
  refine spares_load.bind fun m => Thread.Each.bind (spares_store fun _ => ⟨rfl, rfl, rfl⟩) fun _ => ?_
  refine (pollCapacity_spares _).bind fun capacity => ?_
  refine (pollThermal_spares _ _).bind fun status => (pollRecover_spares _ _).bind fun status => ?_
  exact (pollRecordStatus_spares _ _).bind fun _ => (pollRecordOnline_spares _).bind fun _ =>
    pollRecordUsbType_spares _

theorem pollWork_charging : Issues Charging pollWork.seq :=
  Thread.Each.seq_issues (pollWork_spares.imp fun _ _ h => h.1)

end Gts9Wifi.Charger.Sm5714
