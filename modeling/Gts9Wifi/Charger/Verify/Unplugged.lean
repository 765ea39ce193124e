import Gts9Wifi.Charger.Verify.Otg
import Gts9Wifi.Charger.Verify.Thermal

/-!
# Q4 and the unplugged cable

A poll that reads `VBUS_POK` as 0 opens Q4 only if the poll before it saw the cable, so a call that
closes Q4 while `last_online` is clear is not noticed by the polls that follow. `Closes` says when a
call does so: the fast-charge switch whenever it changes, and a contract, the end of direct charging
or the end of OTG if they read `VBUS_POK` as 1, which they may do before a poll has seen the cable.

The invariant of runs is `Guarded`: Q4 is open while `last_online` is clear or the boost is on. With
all accesses succeeding a poll always keeps it, and every other call keeps it unless it closes Q4
with `last_online` clear.
-/

namespace Gts9Wifi.Charger.Sm5714

open Driver

/-! ## What a call reads -/

/-- What an access reads of the cable. -/
def vbusReading (e : Event board) : Option Bool :=
  match e.op with
  | .chgRead .status1 =>
    if e.input.fault = none then some (e.input.byte &&& status1VbusPok ≠ 0) else none
  | _ => none

abbrev vbusMonitor : Monitor board := .records vbusReading

instance : vbusMonitor.Ignores Op.load := Monitor.ignores_records fun _ _ => rfl
instance (f : Mem → Mem) : vbusMonitor.Ignores (Op.store f) :=
  Monitor.ignores_records fun _ _ => rfl
instance (f : Fn) : vbusMonitor.Ignores (Op.enter f) := Monitor.ignores_records fun _ _ => rfl
instance : vbusMonitor.Ignores (Op.chgRead .cntl2) := Monitor.ignores_records fun _ _ => rfl
instance (r : ChgReg) (v : BitVec 8) : vbusMonitor.Ignores (Op.chgWrite r v) :=
  Monitor.ignores_records fun _ _ => rfl

/-- Records the temperature samples and the readings of `VBUS_POK`. -/
abbrev readings : Monitor board := sampleMonitor.prod vbusMonitor

instance (o : Op) [sampleMonitor.Ignores o] [vbusMonitor.Ignores o] : readings.Ignores o :=
  Monitor.ignores_prod sampleMonitor vbusMonitor o

section

variable {A : Event board → Prop} {m : List Int × List Bool} {s : State}

theorem getOnlineRaw_readings (hA : ¬ Faulty A) :
    wp A readings getOnlineRaw.run
      (fun r m' s' => s' = s ∧ ∃ b, r = .ok b ∧ m' = (m.1, m.2 ++ [b])) m s := by
  unfold getOnlineRaw
  rw [wp_run_bind]
  refine (wp_perform _ _ _ _).2 fun i hi => ⟨⟨trivial, trivial⟩, ?_⟩
  cases hf : i.fault with
  | some e => exact absurd ⟨_, hi, rfl, by simp [hf]⟩ hA
  | none =>
    simp only [handle, answer_none hf]
    refine ⟨rfl, _, rfl, ?_⟩
    simp [sampleOf, vbusReading, hf, ChgReg.isStatus]

/-- While the boost is on the cable is not read. -/
theorem getOnline_readings (hA : ¬ Faulty A) :
    wp A readings getOnline.run (fun r m' s' => s' = s ∧
      (s.mem.bat.otgActive = true ∧ r = .ok false ∧ m' = m ∨
        s.mem.bat.otgActive = false ∧ ∃ b, r = .ok b ∧ m' = (m.1, m.2 ++ [b]))) m s := by
  unfold getOnline
  apply wp_run_load_seq
  split
  · next hotg => exact ⟨rfl, .inl ⟨hotg, rfl, rfl⟩⟩
  · next hotg =>
    refine wp_mono (getOnlineRaw_readings hA) ?_
    rintro r m' s' ⟨rfl, b, rfl, rfl⟩
    exact ⟨rfl, .inr ⟨Bool.eq_false_iff.2 hotg, b, rfl, rfl⟩⟩

theorem configureCharging_readings (hA : ¬ Faulty A) (hotg : s.mem.bat.otgActive = false) :
    wp A readings configureCharging.run
      (fun _ m' s' => ∃ l n, m' = (m.1 ++ l, m.2 ++ n) ∧ Configured s s' l) m s := by
  refine wp_mono (wp_prod (configureCharging_ok hA hotg) wp_records) ?_
  rintro r ⟨m₁, m₂⟩ s' ⟨⟨-, l, rfl, hc⟩, n, rfl⟩
  exact ⟨l, n, rfl, hc⟩

/-- What is not about the readings may be proved without them. -/
theorem wp_readings_of_idle {α : Type} {p : Code α} {Q : α → State → Prop}
    (h : wp A (Monitor.idle board) p (fun a _ s => Q a s) () s) :
    wp A readings p (fun a _ s => Q a s) m s := by
  refine wp_mono ((issues_true p).wp_of_idle (M := readings) (K := fun _ => True) ?_ h trivial) ?_
  · exact fun _ _ _ _ _ _ => ⟨⟨trivial, trivial⟩, trivial⟩
  · exact fun _ _ _ h => h.1

end

/-! ## What a call does to Q4 -/

/-- When a call that reads the temperatures `temps` and the `VBUS_POK` bits `vbus` closes Q4. -/
def ClosesOn (c : Call) (s : State) (temps : List Int) (vbus : List Bool) : Prop :=
  thermalAfter temps s.mem.bat.thermalState ≠ .stop ∧
    match c with
    | .fastCharge parsed =>
      s.mem.bat.otgActive = false ∧ ∃ b, parsed = some b ∧ s.mem.bat.fastCharge ≠ b
    | .pdContract mv ma => contractInRange mv ma = true ∧ mv ≠ 0 ∧ ma ≠ 0 ∧
        s.mem.bat.directCharging = false ∧ vbus.head? = some true
    | .directCharge active => active = false ∧ vbus.head? = some true
    | .otg active => active = false ∧ vbus.head? = some true
    | .poll => False

/-- What a call that is not a poll does between `s` and `s'`, according to whether it closes Q4. -/
structure Affects (closes : Prop) (s s' : State) : Prop where
  online : s'.mem.bat.lastOnline = s.mem.bat.lastOnline
  closed : closes → q4Closed s' ∧ s'.mem.bat.otgActive = false
  spared : ¬ closes → q4Closed s' →
    q4Closed s ∧ (s'.mem.bat.otgActive = true → s.mem.bat.otgActive = true)

namespace Affects

variable {closes closes' : Prop} {s s₁ s' : State}

theorem congr (h : Affects closes s s') (hc : closes' ↔ closes) : Affects closes' s s' := by
  rwa [propext hc]

/-- A call that leaves the charger alone. -/
theorem of_eq (hc : ¬ closes) (hchg : s'.chg = s.chg)
    (hotg : s'.mem.bat.otgActive = s.mem.bat.otgActive)
    (hon : s'.mem.bat.lastOnline = s.mem.bat.lastOnline) : Affects closes s s' :=
  ⟨hon, fun h => absurd h hc, fun _ hq =>
    ⟨(q4Closed_congr (congrFun hchg _)).1 hq, fun h => hotg.symm.trans h⟩⟩

/-- A call that programs the charger. -/
theorem of_configured {l : List Int} (h : Configured s₁ s' l)
    (hth : s₁.mem.bat.thermalState = s.mem.bat.thermalState)
    (hon : s₁.mem.bat.lastOnline = s.mem.bat.lastOnline) :
    Affects (thermalAfter l s.mem.bat.thermalState ≠ .stop) s s' := by
  have hq := h.q4
  rw [hth] at hq
  refine ⟨?_, fun hne => ⟨hq.2 hne, ?_⟩, fun hne h' => absurd (hq.1 h') hne⟩
  · rw [h.mem]
    exact hon
  · rw [h.mem]
    exact h.notOtg

end Affects

section

variable {A : Event board → Prop} {s : State}

/-- While the boost is on, `sm5714_configure_charging` refuses at once. -/
theorem configureCharging_busy {M : Monitor board} [M.Ignores Op.load] {m : M.St}
    (hotg : s.mem.bat.otgActive = true) :
    wp A M configureCharging.run (fun _ m' s' => m' = m ∧ s' = s) m s := by
  unfold configureCharging
  apply wp_run_load_seq
  rw [if_pos hotg]
  exact ⟨rfl, rfl⟩

theorem fastChargeStore_affects (hA : ¬ Faulty A) (parsed : Option Bool) :
    wp A readings (fastChargeStore parsed).seq (fun _ m' s' =>
      Affects (ClosesOn (.fastCharge parsed) s m'.1 m'.2) s s') ([], []) s := by
  unfold fastChargeStore
  cases parsed with
  | none => exact .of_eq (fun h => nomatch h.2.2) rfl rfl rfl
  | some b =>
    dsimp only
    apply wp_thread_load
    split
    · next hsame =>
      refine .of_eq ?_ rfl rfl rfl
      rintro ⟨-, -, b', hb', hne⟩
      cases hb'
      exact hne hsame
    next hmoved =>
    apply wp_thread_store
    cases hotg : s.mem.bat.otgActive with
    | true =>
      refine Thread.wp_seq_atomic (configureCharging_busy (s := s.setMem _) hotg) ?_
      rintro _ _ _ ⟨rfl, rfl⟩
      refine .of_eq (fun h => ?_) rfl rfl rfl
      exact absurd (hotg.symm.trans h.2.1) Bool.noConfusion
    | false =>
      refine Thread.wp_seq_atomic (configureCharging_readings hA (s := s.setMem _) hotg) ?_
      rintro _ _ s' ⟨l, n, rfl, hc⟩
      have h : Affects (thermalAfter l s.mem.bat.thermalState ≠ .stop) s s' :=
        .of_configured hc rfl rfl
      exact h.congr (and_iff_left ⟨hotg, b, rfl, hmoved⟩)

theorem setPdContractLocked_affects (hA : ¬ Faulty A) (mv ma : Nat)
    (hrange : contractInRange mv ma = true) :
    wp A readings (setPdContractLocked mv ma).seq (fun _ m' s' =>
      Affects (ClosesOn (.pdContract mv ma) s m'.1 m'.2) s s') ([], []) s := by
  unfold setPdContractLocked
  apply wp_thread_load
  split
  · exact .of_eq (fun h => nomatch h.2.2.2.2.2) rfl rfl rfl
  apply wp_thread_store
  split
  · next hzero =>
    refine .of_eq ?_ rfl rfl rfl
    rintro ⟨-, -, hmv, hma, -⟩
    exact hzero.elim hmv hma
  next hzero =>
  apply Thread.wp_seq_interruptible (getOnline_readings hA)
  rintro r m' s' ⟨rfl, ⟨hotg, rfl, rfl⟩ | ⟨hotg, b, rfl, rfl⟩⟩
  · exact .of_eq (fun h => nomatch h.2.2.2.2.2) rfl rfl rfl
  cases b with
  | false => exact .of_eq (fun h => nomatch h.2.2.2.2.2) rfl rfl rfl
  | true =>
    simp only [not_true_eq_false, ↓reduceIte]
    apply wp_thread_load
    split
    · next hdirect =>
      refine .of_eq (fun h => ?_) rfl rfl rfl
      exact absurd (hdirect.symm.trans h.2.2.2.2.1) Bool.noConfusion
    next hdirect =>
    rw [Thread.seq_atomic]
    refine wp_mono (configureCharging_readings hA hotg) ?_
    rintro _ _ s' ⟨l, n, rfl, hc⟩
    have h : Affects (thermalAfter l s.mem.bat.thermalState ≠ .stop) s s' :=
      .of_configured hc rfl rfl
    refine h.congr (and_iff_left ⟨hrange, fun h => hzero (.inl h), fun h => hzero (.inr h), ?_, rfl⟩)
    exact Bool.eq_false_iff.2 hdirect

theorem setPdContract_affects (hA : ¬ Faulty A) (mv ma : Nat) :
    wp A readings (setPdContract mv ma).seq (fun _ m' s' =>
      Affects (ClosesOn (.pdContract mv ma) s m'.1 m'.2) s s') ([], []) s := by
  unfold setPdContract
  split
  · next hrange => exact .of_eq (fun h => hrange h.2.1) rfl rfl rfl
  next hrange =>
  apply wp_lockGlobal
  apply Thread.wp_seq_bind (setPdContractLocked_affects hA mv ma (not_not.1 hrange))
  intro r m' s' h
  apply wp_unlockGlobal
  have h' : Affects (ClosesOn (.pdContract mv ma) s m'.1 m'.2) s
      (s'.setMem (setGlobalLock false)) := ⟨h.online, h.closed, h.spared⟩
  exact h'

/-- Operations that neither close Q4 nor move `last_online` or `otg_active`. -/
def NeverCloses : Op → Prop
  | .chgWrite .cntl1 v => v &&& cntl1Enq4fet = 0
  | .store f => ∀ m, (f m).bat.lastOnline = m.bat.lastOnline ∧ (f m).bat.otgActive = m.bat.otgActive
  | _ => True

theorem NeverCloses.affects {o : Op} (h : NeverCloses o) (i : Input) {s s' : State}
    (hs : Affects False s s') : Affects False s (handle o i s').2 := by
  have hread : ∀ {s'' : State}, s''.mem = s'.mem → (q4Closed s'' → q4Closed s') →
      Affects False s s'' := fun hmem hq => by
    refine ⟨by rw [hmem]; exact hs.online, False.elim, fun hn hq' => ?_⟩
    rw [hmem]
    exact hs.spared hn (hq hq')
  cases o with
  | store f =>
    obtain ⟨hon, hotg⟩ := h s'.mem
    refine ⟨hon.trans hs.online, False.elim, fun hn hq => ?_⟩
    obtain ⟨hq₀, hact⟩ := hs.spared hn hq
    exact ⟨hq₀, fun h' => hact (hotg.symm.trans h')⟩
  | chgWrite r v =>
    refine hread (handle_mem (fun _ => Op.noConfusion) i s') fun hq => ?_
    cases hf : i.fault with
    | some e => simpa only [handle, apply_some hf] using hq
    | none =>
      simp only [handle, apply_none hf] at hq
      cases r with
      | cntl1 => exact absurd h hq
      | _ => exact hq
  | _ =>
    refine hread (handle_mem (fun _ => Op.noConfusion) i s') fun hq => ?_
    exact (q4Closed_congr (congrFun (handle_chg (fun _ _ => Op.noConfusion) i s') _)).1 hq

/-- A call made of such operations. -/
theorem wp_neverCloses {α : Type} {p : Code α} (h : Issues NeverCloses p)
    {m : List Int × List Bool} : wp A readings p (fun _ _ s' => Affects False s s') m s :=
  h.wp (M := readings) (J := fun _ s' => Affects False s s')
    (fun _ ho i _ _ _ hs' => ⟨⟨trivial, trivial⟩, ho.affects i hs'⟩) (.of_eq id rfl rfl rfl)

theorem Reads.neverCloses {o : Op} (h : Reads o) : NeverCloses o := by
  cases o <;> trivial

theorem openQ4_neverCloses : Issues NeverCloses (chgUpdateBits .cntl1 cntl1Enq4fet 0).run := by
  unfold chgUpdateBits
  refine Issues.run_bind ⟨trivial, fun _ => trivial⟩ fun old => ?_
  dsimp only
  split
  · trivial
  · exact ⟨maskedUpdate_and_mask _ _ _, fun _ => trivial⟩

theorem grantDirectCharge_neverCloses : Issues NeverCloses grantDirectCharge.seq := by
  have hstore : ∀ b, Issues NeverCloses (store (Battery.setDirect b)) :=
    fun _ => ⟨fun _ => ⟨rfl, rfl⟩, fun _ => trivial⟩
  unfold grantDirectCharge
  rw [Thread.seq_bind, Thread.seq_interruptible]
  refine (getTemp_reads.mono fun _ => Reads.neverCloses).bind fun r => ?_
  cases r with
  | error e => trivial
  | ok temp =>
    dsimp only
    rw [Thread.seq_ite]
    split
    · trivial
    rw [Thread.seq_bind, Thread.seq_interruptible]
    refine (hstore true).bind fun _ => ?_
    rw [Thread.seq_bind, Thread.seq_atomic]
    refine openQ4_neverCloses.bind fun r => ?_
    cases r with
    | ok _ => trivial
    | error e =>
      dsimp only
      rw [Thread.seq_bind, Thread.seq_interruptible]
      exact (hstore false).bind fun _ => trivial

theorem setDirectCharge_affects (hA : ¬ Faulty A) (active : Bool) :
    wp A readings (setDirectCharge active).seq (fun _ m' s' =>
      Affects (ClosesOn (.directCharge active) s m'.1 m'.2) s s') ([], []) s := by
  apply wp_setDirectCharge
  · exact fun i _ => .of_eq (fun h => nomatch h.2.2) rfl rfl rfl
  intro i _
  cases active with
  | true =>
    refine wp_mono (wp_neverCloses grantDirectCharge_neverCloses) ?_
    intro _ _ s' h
    exact ⟨h.online, fun hc => absurd hc.2.1 Bool.noConfusion, fun _ => h.spared not_false⟩
  | false =>
    unfold revokeDirectCharge
    simp only [Bool.false_eq_true, ↓reduceIte]
    apply wp_thread_store
    apply Thread.wp_seq_interruptible (getOnline_readings hA)
    rintro r m' s' ⟨rfl, ⟨hotg, rfl, rfl⟩ | ⟨hotg, b, rfl, rfl⟩⟩
    · exact .of_eq (fun h => nomatch h.2.2) rfl rfl rfl
    cases b with
    | false => exact .of_eq (fun h => nomatch h.2.2) rfl rfl rfl
    | true =>
      simp only [↓reduceIte]
      rw [Thread.seq_atomic]
      refine wp_mono (configureCharging_readings hA hotg) ?_
      rintro _ _ s' ⟨l, n, rfl, hc⟩
      have h : Affects (thermalAfter l s.mem.bat.thermalState ≠ .stop) s
          (s'.setMem (setGlobalLock false)) := by
        obtain ⟨hon, hclosed, hspared⟩ := Affects.of_configured (s := s) hc rfl rfl
        exact ⟨hon, hclosed, hspared⟩
      exact h.congr (and_iff_left ⟨rfl, rfl⟩)

/-- The enable section opens Q4 before it sets the flag. -/
theorem otgEnableSection_affects :
    wp A (Monitor.idle board) otgEnableSection.run (fun _ _ s' => Affects False s s') () s := by
  -- the four steps either fail, with Q4 no more closed than before, or leave Q4 open
  have hsteps : wp A (Monitor.idle board) (do
      muicSetOtgPath true
      chgUpdateBits .cntl1 cntl1Enq4fet 0
      chgUpdateBits .bstcntl1 bstcntl1OtgMask bstcntl15v1900ma
      chgUpdateBits .cntl2 cntl2ModeMask cntl2UsbOtg : Fallible Unit).run
      (fun r _ s' => s'.mem = s.mem ∧ (q4Closed s' → q4Closed s ∧ r ≠ .ok ())) () s := by
    apply wp_run_seq (muicSetOtgPath_frame true)
    · rintro e _ s₁ ⟨hmem, hchg⟩
      exact ⟨hmem, fun hq => ⟨(q4Closed_congr (congrFun hchg _)).1 hq, (nomatch ·)⟩⟩
    rintro _ _ s₁ ⟨hmem, hchg⟩
    have hclosed : q4Closed s₁ → q4Closed s := (q4Closed_congr (congrFun hchg _)).1
    rw [wp_run_bind]
    refine wp_chgUpdateBits rfl (fun _ _ => ⟨hmem, fun hq => ⟨hclosed hq, (nomatch ·)⟩⟩) ?_
    have hopen : ¬ q4Closed (s₁.setChg .cntl1 (maskedUpdate cntl1Enq4fet 0 (s₁.chg .cntl1))) := by
      rw [q4Closed_update]
      exact fun h => h rfl
    dsimp only
    rw [wp_run_bind]
    refine wp_chgUpdateBits rfl (fun _ _ => ⟨hmem, fun hq => absurd hq hopen⟩) ?_
    dsimp only
    exact wp_chgUpdateBits rfl (fun _ _ => ⟨hmem, fun hq => absurd hq hopen⟩)
      ⟨hmem, fun hq => absurd hq hopen⟩
  unfold otgEnableSection
  apply wp_run_attempt_seq hsteps
  rintro (e | ⟨⟩) _ s₁ ⟨hmem, hq⟩
  · dsimp only
    apply wp_run_attempt_seq (muicSetOtgPath_frame false)
    rintro _ _ s₂ ⟨hmem₂, hchg₂⟩
    have hmem' : s₂.mem = s.mem := hmem₂.trans hmem
    refine ⟨by rw [hmem'], False.elim, fun _ hq₂ => ⟨?_, by rw [hmem']; exact id⟩⟩
    exact (hq ((q4Closed_congr (congrFun hchg₂ _)).1 hq₂)).1
  · dsimp only
    rw [wp_run_lift]
    refine wp_store ⟨?_, False.elim, fun _ hq' => absurd rfl (hq hq').2⟩
    rw [setMem_mem, hmem]
    rfl

/-- The disable section reads nothing of the cable and leaves Q4 as it is. -/
theorem otgDisableSection_frame {m : List Int × List Bool} :
    wp A readings otgDisableSection.run (fun r m' s' => m' = m ∧ ((∃ e, r = .error e) ∧ s' = s ∨
      s'.mem = Battery.setOtgActive false s.mem ∧ s'.chg .cntl1 = s.chg .cntl1)) m s := by
  unfold otgDisableSection
  rw [wp_run_bind]
  refine wp_chgUpdateBits rfl (fun _ e => ⟨rfl, .inl ⟨⟨e, rfl⟩, rfl⟩⟩) ?_
  dsimp only
  apply wp_run_store_seq
  refine wp_mono ((muicSetOtgPath_onMuic false).wp (M := readings) (J := fun m' s' => m' = m ∧
    s'.mem = Battery.setOtgActive false s.mem ∧ s'.chg .cntl1 = s.chg .cntl1)
    (fun o ho i m' s' _ h => ?_) ⟨rfl, rfl, rfl⟩) ?_
  · obtain ⟨hmem, hchg⟩ := ho.frame i s'
    obtain ⟨rfl, hmem', hchg'⟩ := h
    refine ⟨⟨trivial, trivial⟩, ?_, hmem.trans hmem', (congrFun hchg _).trans hchg'⟩
    cases o with
    | muicRead r => simp only [sampleOf, vbusReading, Option.toList_none, List.append_nil]
    | muicWrite r v => simp only [sampleOf, vbusReading, Option.toList_none, List.append_nil]
    | _ => exact ho.elim
  · rintro r _ s' ⟨rfl, hmem, hchg⟩
    exact ⟨rfl, .inr ⟨hmem, hchg⟩⟩

theorem setOtg_affects (hA : ¬ Faulty A) (active : Bool) :
    wp A readings (setOtg active).seq (fun _ m' s' =>
      Affects (ClosesOn (.otg active) s m'.1 m'.2) s s') ([], []) s := by
  cases active with
  | true =>
    have hnone : ∀ {s' : State} {temps : List Int} {vbus : List Bool}, Affects False s s' →
        Affects (ClosesOn (.otg true) s temps vbus) s (s'.setMem (setGlobalLock false)) :=
      fun h => ⟨h.online, fun hc => absurd hc.2.1 Bool.noConfusion, fun _ => h.spared not_false⟩
    have hsame : Affects False s (s.setMem (setGlobalLock true)) := .of_eq id rfl rfl rfl
    apply wp_setOtg_true
    · exact fun _ => hnone hsame
    · exact fun _ => hnone hsame
    intro _ _
    unfold otgEnable
    apply wp_thread_load
    split
    · exact hnone hsame
    apply Thread.wp_seq_interruptible (getOnlineRaw_readings hA)
    rintro online m' s' ⟨rfl, b, rfl, rfl⟩
    cases b with
    | true => exact hnone hsame
    | false =>
      dsimp only
      rw [Thread.seq_atomic]
      refine wp_mono (wp_readings_of_idle otgEnableSection_affects) ?_
      intro _ _ s' h
      exact hnone ⟨h.online, False.elim, fun _ => h.spared not_false⟩
  | false =>
    apply wp_setOtg_false
    · exact fun _ => .of_eq (fun h => nomatch h.2.2) rfl rfl rfl
    · exact fun _ _ => .of_eq (fun h => nomatch h.2.2) rfl rfl rfl
    intro _ hwas
    unfold otgDisable
    apply Thread.wp_seq_atomic otgDisableSection_frame
    rintro r m' s₁ ⟨rfl, ⟨⟨e, rfl⟩, rfl⟩ | ⟨hmem, hchg⟩⟩
    · exact .of_eq (fun h => nomatch h.2.2) rfl rfl rfl
    have hoff : s₁.mem.bat.otgActive = false := by
      rw [hmem]
      rfl
    have hon : s₁.mem.bat.lastOnline = s.mem.bat.lastOnline := by
      rw [hmem]
      rfl
    have hth : s₁.mem.bat.thermalState = s.mem.bat.thermalState := by
      rw [hmem]
      rfl
    -- as long as charging is not restored, Q4 stays as it was
    have hsame : ∀ closes, ¬ closes → Affects closes s (s₁.setMem (setGlobalLock false)) :=
      fun closes hc => ⟨hon, fun h => absurd h hc, fun _ hq =>
        ⟨(q4Closed_congr hchg).1 hq, fun h => absurd (hoff.symm.trans h) Bool.false_ne_true⟩⟩
    cases r with
    | error e => exact hsame _ fun h => nomatch h.2.2
    | ok _ =>
      dsimp only
      apply Thread.wp_seq_interruptible (getOnlineRaw_readings hA)
      rintro online m' s' ⟨rfl, b, rfl, rfl⟩
      cases b with
      | false => exact hsame _ fun h => nomatch h.2.2
      | true =>
        refine wp_mono (p := configureCharging.run) (configureCharging_readings hA hoff) ?_
        rintro _ _ s' ⟨l, n, rfl, hc⟩
        have h : Affects (thermalAfter l s.mem.bat.thermalState ≠ .stop) s s' :=
          .of_configured hc hth hon
        exact h.congr (and_iff_left ⟨rfl, rfl⟩)

end

/-! ## What a poll does to Q4 -/

section

variable {A : Event board → Prop} {m : List Int} {s : State}

/-- What a poll that takes the cable for gone does to Q4. -/
theorem pollUpdate_unplugged (hA : ¬ Faulty A) (status : Except Errno PsyStatus) :
    wp A sampleMonitor (pollUpdate status (.ok false)).seq (fun _ _ s' =>
      (q4Closed s' ↔ q4Closed s ∧ s.mem.bat.lastOnline = false)) m s := by
  unfold pollUpdate
  apply Thread.wp_seq_interruptible (wp_quiet getUsbType_quiet)
  intro usbType m s hpost
  obtain ⟨rfl, rfl⟩ := hpost
  apply wp_thread_load
  apply wp_thread_store
  apply Thread.wp_seq_bind (pollCapacity_spec _)
  intro capacity m _ hpost
  obtain ⟨rfl, rfl⟩ := hpost
  -- without a cable neither the thermal nor the recovery part does anything
  refine wp_mono (pollRecord_spec status capacity (.ok false) usbType) ?_
  rintro _ _ s' ⟨-, hrec⟩
  exact hrec.unplugged hA rfl

/-- A poll that sees the cable notes it, whatever else it does. -/
theorem pollUpdate_plugged (status : Except Errno PsyStatus) :
    wp A sampleMonitor (pollUpdate status (.ok true)).seq
      (fun _ _ s' => s'.mem.bat.lastOnline = true) m s := by
  have hany : ∀ {α : Type} {t : Task α} {m : List Int} {s : State},
      wp A sampleMonitor t.seq (fun _ _ _ => True) m s := wp_true fun _ _ => trivial
  unfold pollUpdate
  refine Thread.wp_seq_bind hany fun usbType _ _ _ => ?_
  refine Thread.wp_seq_bind hany fun _ _ _ _ => Thread.wp_seq_bind hany fun _ _ _ _ => ?_
  refine Thread.wp_seq_bind hany fun capacity _ _ _ => Thread.wp_seq_bind hany fun _ _ _ _ => ?_
  refine Thread.wp_seq_bind hany fun status _ _ _ => ?_
  refine wp_mono (pollRecord_spec status capacity (.ok true) usbType) ?_
  rintro _ _ s' ⟨-, hrec⟩
  exact hrec.noted true rfl

/-- What a poll reads of the cable: nothing while the boost is on. -/
theorem pollStart_online {P : Bool → Prop} (hA : ¬ Faulty A)
    (hP : ∀ i, A ⟨.chgRead .status1, i, s⟩ → i.fault = none → P (i.byte &&& status1VbusPok ≠ 0)) :
    wp A (Monitor.idle board) pollStart (fun r _ s' => s' = s ∧
      ∃ b, r.2 = .ok b ∧ (s.mem.bat.otgActive = true → b = false) ∧
        (s.mem.bat.otgActive = false → P b)) () s := by
  unfold pollStart
  refine wp_seq (P := fun _ _ s' => s' = s) ?_ fun _ _ s₁ hs => ?_
  · exact getStatus_quiet.wp (W := board) (J := fun _ s' => s' = s)
      (fun o ho i _ s' _ hs => ⟨trivial, (ho.reads.frame i s').trans hs⟩) rfl
  subst hs
  rw [wp_bind]
  unfold getOnline
  apply wp_run_load_seq
  split
  · next hotg => exact ⟨rfl, false, rfl, fun _ => rfl, fun h => absurd (hotg.symm.trans h) (nomatch ·)⟩
  next hotg =>
  unfold getOnlineRaw
  rw [wp_run_bind]
  refine wp_chgRead (fun i e hi hf => ?_) fun i hi hf => ?_
  · exact absurd ⟨_, hi, rfl, by simp [hf]⟩ hA
  · exact ⟨rfl, _, rfl, fun h => absurd h hotg, fun _ => hP i hi hf⟩

end

/-! ## Runs of calls -/

/-- A call, and what the environment answers to its operations. The cable may be plugged in or pulled
at any of them. -/
structure Made where
  call : Call
  inputs : Nat → Input

def callStep (l : Made) (s : State) : State := (l.call.task.seq.run board l.inputs s).2

def callTrace (l : Made) (s : State) : List (Event board) := l.call.task.seq.trace board l.inputs s

/-- All register accesses of the call succeed. -/
def Accessible (l : Made) (s : State) : Prop := ∀ e ∈ callTrace l s, Succeeds e

theorem accessible_of_no_fault {l : Made} (h : ∀ n, (l.inputs n).fault = none) (s : State) :
    Accessible l s := by
  intro e he _
  obtain ⟨n, hn⟩ := Prog.exists_input_of_mem_trace he
  rw [hn]
  exact h n

/-- The call is a poll, and it reads `VBUS_POK` as 0. -/
structure SeesUnplugged (l : Made) (s : State) : Prop where
  poll : l.call = .poll
  boostOff : s.mem.bat.otgActive = false
  vbus : (pollStart.run board l.inputs s).1.2 = .ok false

/-- A poll that reads `VBUS_POK` as 0 leaves Q4 open. -/
def LeavesOpen (l : Made) (s : State) : Prop := SeesUnplugged l s → ¬ q4Closed (callStep l s)

/-- The call closes Q4, by what it is asked, the state it meets, and what it reads. -/
def Closes (l : Made) (s : State) : Prop :=
  ClosesOn l.call s (samples (callTrace l s)) ((callTrace l s).filterMap vbusReading)

/-- While `last_online` is clear, the call does not close Q4. -/
def Sparing (l : Made) (s : State) : Prop := s.mem.bat.lastOnline = false → ¬ Closes l s

/-- Q4 is open while `last_online` is clear or the boost is on. -/
def Guarded (s : State) : Prop :=
  s.mem.bat.lastOnline = false ∨ s.mem.bat.otgActive = true → ¬ q4Closed s

theorem callStep_affects {l : Made} {s : State} (hok : Accessible l s) (hl : l.call ≠ .poll) :
    Affects (Closes l s) s (callStep l s) := by
  obtain ⟨call, ι⟩ := l
  have hspec : wp Succeeds readings call.task.seq
      (fun _ m' s' => Affects (ClosesOn call s m'.1 m'.2) s s') ([], []) s := by
    cases call with
    | poll => exact absurd rfl hl
    | directCharge active =>
      exact Thread.wp_seq_bind (setDirectCharge_affects not_faulty_succeeds active) fun _ _ _ h => h
    | otg active =>
      exact Thread.wp_seq_bind (setOtg_affects not_faulty_succeeds active) fun _ _ _ h => h
    | pdContract mv ma =>
      exact Thread.wp_seq_bind (setPdContract_affects not_faulty_succeeds mv ma) fun _ _ _ h => h
    | fastCharge parsed =>
      exact Thread.wp_seq_bind (fastChargeStore_affects not_faulty_succeeds parsed) fun _ _ _ h => h
  have hrun := (wp_sound hspec ι hok).2
  rwa [Monitor.after_prod, Monitor.after_records vbusReading] at hrun

theorem poll_not_closes {l : Made} (hl : l.call = .poll) (s : State) : ¬ Closes l s := by
  obtain ⟨call, ι⟩ := l
  obtain rfl : call = .poll := hl
  exact fun h => h.2

/-- The reading a poll goes by. -/
theorem poll_reading {ι : Nat → Input} {s : State} (hok : Accessible ⟨.poll, ι⟩ s) :
    ∃ b, (pollStart.run board ι s).1.2 = .ok b ∧ (s.mem.bat.otgActive = true → b = false) := by
  have hseq : pollWork.seq = pollStart >>= fun x => (pollUpdate x.1 x.2).seq := by
    unfold pollWork
    rw [Thread.seq_bind, Thread.seq_interruptible]
  have hstart : ∀ e ∈ pollStart.trace board ι s, Succeeds e := fun e he => by
    refine hok e ?_
    show e ∈ pollWork.seq.trace board ι s
    rw [hseq, Prog.trace_bind]
    exact List.mem_append_left _ he
  obtain ⟨-, b, hb, hboost, -⟩ := (wp_sound
    (pollStart_online (P := fun _ => True) not_faulty_succeeds fun _ _ _ => trivial) ι hstart).2
  exact ⟨b, hb, hboost⟩

/-- What a poll of which all accesses succeed does with the reading. -/
theorem poll_effect {ι : Nat → Input} {s : State} (hok : Accessible ⟨.poll, ι⟩ s) {b : Bool}
    (hb : (pollStart.run board ι s).1.2 = .ok b) :
    (b = false → (q4Closed (callStep ⟨.poll, ι⟩ s) ↔ q4Closed s ∧ s.mem.bat.lastOnline = false)) ∧
      (b = true → (callStep ⟨.poll, ι⟩ s).mem.bat.lastOnline = true) ∧
      (callStep ⟨.poll, ι⟩ s).mem.bat.otgActive = s.mem.bat.otgActive := by
  refine ⟨?_, ?_, ?_⟩
  · rintro rfl
    refine poll_of_update (A := Succeeds)
      (Q := fun _ s' => (q4Closed s' ↔ q4Closed s ∧ s.mem.bat.lastOnline = false)) ?_ hok
    rw [hb]
    exact pollUpdate_unplugged not_faulty_succeeds _
  · rintro rfl
    refine poll_of_update (A := Succeeds) (Q := fun _ s' => s'.mem.bat.lastOnline = true) ?_ hok
    rw [hb]
    exact pollUpdate_plugged _
  · exact (run_keeps_flags pollWork_charging ι s).2

/-- A poll keeps Q4 guarded. -/
theorem guarded_poll {ι : Nat → Input} {s : State} (hs : Guarded s)
    (hok : Accessible ⟨.poll, ι⟩ s) : Guarded (callStep ⟨.poll, ι⟩ s) := by
  obtain ⟨b, hb, hboost⟩ := poll_reading hok
  obtain ⟨hoff, hon, hotg⟩ := poll_effect hok hb
  cases b with
  | false =>
    intro _ hq
    obtain ⟨hq₀, hlast⟩ := (hoff rfl).1 hq
    exact hs (.inl hlast) hq₀
  | true =>
    rintro (hlast | hact) _
    · exact absurd ((hon rfl).symm.trans hlast) (nomatch ·)
    · exact absurd (hboost (hotg.symm.trans hact)) (nomatch ·)

/-- Q4 is open during the boost, sparing calls or not. -/
theorem boost_open_callStep {l : Made} {s : State} (hok : Accessible l s)
    (hs : s.mem.bat.otgActive = true → ¬ q4Closed s) :
    (callStep l s).mem.bat.otgActive = true → ¬ q4Closed (callStep l s) := by
  intro hact hq
  by_cases hl : l.call = .poll
  · obtain ⟨call, ι⟩ := l
    obtain rfl : call = .poll := hl
    obtain ⟨b, hb, hboost⟩ := poll_reading hok
    obtain ⟨hoff, -, hotg⟩ := poll_effect hok hb
    have hwas : s.mem.bat.otgActive = true := hotg.symm.trans hact
    exact hs hwas ((hoff (hboost hwas)).1 hq).1
  · have haff := callStep_affects hok hl
    by_cases hc : Closes l s
    · exact absurd ((haff.closed hc).2.symm.trans hact) Bool.false_ne_true
    · obtain ⟨hq₀, hwas⟩ := haff.spared hc hq
      exact hs (hwas hact) hq₀

/-- **The step.** A call keeps Q4 guarded precisely when it is sparing. -/
theorem guarded_callStep_iff {l : Made} {s : State} (hok : Accessible l s) (hs : Guarded s) :
    Sparing l s ↔ Guarded (callStep l s) := by
  by_cases hl : l.call = .poll
  · refine iff_of_true (fun _ => poll_not_closes hl s) ?_
    obtain ⟨call, ι⟩ := l
    obtain rfl : call = .poll := hl
    exact guarded_poll hs hok
  have haff := callStep_affects hok hl
  by_cases hc : Closes l s
  · obtain ⟨hq, hboost⟩ := haff.closed hc
    constructor
    · rintro hspare (hlast | hact)
      · exact absurd hc (hspare (haff.online.symm.trans hlast))
      · exact absurd (hboost.symm.trans hact) Bool.false_ne_true
    · intro hg hlast
      exact absurd hq (hg (.inl (haff.online.trans hlast)))
  · refine iff_of_true (fun _ => hc) ?_
    intro hcase hq
    obtain ⟨hq₀, hact⟩ := haff.spared hc hq
    exact hs (hcase.imp haff.online.symm.trans hact) hq₀

theorem LeavesOpen.of_guarded {l : Made} {s : State} (hs : Guarded s) (hok : Accessible l s) :
    LeavesOpen l s := by
  intro hsees hq
  obtain ⟨call, ι⟩ := l
  obtain rfl : call = .poll := hsees.poll
  obtain ⟨hq₀, hlast⟩ := ((poll_effect hok hsees.vbus).1 rfl).1 hq
  exact hs (.inl hlast) hq₀

/-- A poll that runs now, with nothing failing and the cable out, shows whether Q4 is guarded. -/
theorem guarded_of_leavesOpen {s : State} (hboost : s.mem.bat.otgActive = true → ¬ q4Closed s)
    (h : ∀ ι, Accessible ⟨.poll, ι⟩ s → LeavesOpen ⟨.poll, ι⟩ s) : Guarded s := by
  cases hotg : s.mem.bat.otgActive with
  | true => exact fun _ => hboost hotg
  | false =>
    rintro (hlast | hact)
    · have hok : Accessible ⟨.poll, inputs []⟩ s := accessible_of_no_fault (fun _ => rfl) s
      have hvbus : (pollStart.run board (inputs []) s).1.2 = .ok false := by
        have hspec := pollStart_online (A := fun e => e.input = {}) (P := fun b => b = false) (s := s)
          (fun ⟨e, he, _, hne⟩ => hne (by rw [he])) fun i hi _ => by
            rw [show i = {} from hi]
            rfl
        obtain ⟨-, b, hb, -, hfalse⟩ := (wp_sound hspec (inputs []) fun e he => by
          obtain ⟨n, hn⟩ := Prog.exists_input_of_mem_trace he
          exact hn).2
        rw [hb, hfalse hotg]
      intro hq
      have hleaves := h (inputs []) hok ⟨rfl, hotg, hvbus⟩
      exact hleaves (((poll_effect hok hvbus).1 rfl).2 ⟨hq, hlast⟩)
    · exact absurd (hotg.symm.trans hact) Bool.false_ne_true

/-- **Unplugged means Q4 open.** When all register accesses succeed, every poll of a run of calls that
reads `VBUS_POK` as 0 leaves Q4 open, as long as no call closes Q4 while `last_online` is clear. This
is exact: all calls are that sparing precisely when at every point of the run a poll that reads
`VBUS_POK` as 0 would leave Q4 open. -/
theorem unplugged_q4_open (calls : List Made) (s : State) (hs : Guarded s)
    (hok : Meets callStep Accessible calls s) :
    (Meets callStep Sparing calls s → Meets callStep LeavesOpen calls s) ∧
      (Meets callStep Sparing calls s ↔
        ∀ pre, pre <+: calls → ∀ ι, Accessible ⟨.poll, ι⟩ (runFrom callStep pre s) →
          LeavesOpen ⟨.poll, ι⟩ (runFrom callStep pre s)) := by
  constructor
  · intro hspare
    refine Meets.imp (J := Guarded) (C := fun l s => Sparing l s ∧ Accessible l s) ?_ hs
      (hspare.and hok)
    rintro l s hs ⟨hsp, hl⟩
    exact ⟨(guarded_callStep_iff hl hs).1 hsp, .of_guarded hs hl⟩
  have hexact := meets_iff_prefix (C := Sparing) (J := Guarded)
    (fun l s hl hs => guarded_callStep_iff hl hs) hok hs
  rw [← hexact]
  constructor
  · intro h pre hpre ι hl
    exact .of_guarded (h pre hpre) hl
  · intro h
    -- that Q4 is open during the boost does not depend on the calls being sparing
    have hboost := meets_iff_prefix (C := fun _ _ => True)
      (J := fun s => s.mem.bat.otgActive = true → ¬ q4Closed s)
      (fun l s hl hs => iff_of_true trivial (boost_open_callStep hl hs)) hok
      fun hact => hs (.inr hact)
    intro pre hpre
    exact guarded_of_leavesOpen (hboost.2 (meets_true calls s) pre hpre) (h pre hpre)

/-- The cable is put in, the fast-charge switch turned on, and the cable pulled. -/
def switchedPlugged : List Made :=
  [⟨.poll, pollAt 25000 none⟩, ⟨.fastCharge (some true), pollAt 25000 none⟩,
    ⟨.poll, fun _ => { val := 25000 }⟩]

/-- The poll that sees the cable closes Q4, the one that misses it opens it. -/
theorem unplugged_q4_open_switchedPlugged :
    Meets callStep Accessible switchedPlugged .probed ∧
      Meets callStep LeavesOpen switchedPlugged .probed ∧
      ¬ q4Closed (runFrom callStep switchedPlugged .probed) := by
  have hok : Meets callStep Accessible switchedPlugged .probed :=
    ⟨accessible_of_no_fault (fun _ => rfl) _, accessible_of_no_fault (fun _ => rfl) _,
      accessible_of_no_fault (fun _ => rfl) _, trivial⟩
  have hspare : Meets callStep Sparing switchedPlugged .probed :=
    ⟨fun _ => poll_not_closes rfl _, fun hoff => absurd hoff (by decide),
      fun _ => poll_not_closes rfl _, trivial⟩
  have h := (unplugged_q4_open switchedPlugged .probed (fun _ => by decide) hok).1 hspare
  exact ⟨hok, h, h.2.2.1 ⟨rfl, rfl, rfl⟩⟩

/-- The fast-charge switch is turned on without a cable, and a poll follows. -/
def switchedUnplugged : List Made :=
  [⟨.fastCharge (some true), fun _ => { val := 25000 }⟩, ⟨.poll, fun _ => { val := 25000 }⟩]

/-- The cable is put in, a contract of 5 V and 500 mA made before a poll has seen the cable, and the
cable pulled before the next poll. -/
def contractedEarly : List Made :=
  [⟨.pdContract 5000 500, pollAt 25000 none⟩, ⟨.poll, fun _ => { val := 25000 }⟩]

/-- All accesses succeed, the poll reads `VBUS_POK` as 0, and Q4 stays closed. -/
theorem q4_closed_unplugged :
    (Meets callStep Accessible switchedUnplugged .probed ∧
      ¬ Meets callStep LeavesOpen switchedUnplugged .probed) ∧
    (Meets callStep Accessible contractedEarly .probed ∧
      ¬ Meets callStep LeavesOpen contractedEarly .probed) := by
  refine ⟨⟨?_, fun h => ?_⟩, ⟨?_, fun h => ?_⟩⟩
  · exact ⟨accessible_of_no_fault (fun _ => rfl) _, accessible_of_no_fault (fun _ => rfl) _, trivial⟩
  · exact h.2.1 ⟨rfl, rfl, rfl⟩ (by decide)
  · exact ⟨accessible_of_no_fault (fun _ => rfl) _, accessible_of_no_fault (fun _ => rfl) _, trivial⟩
  · exact h.2.1 ⟨rfl, rfl, rfl⟩ (by decide)

end Gts9Wifi.Charger.Sm5714
