import Gts9Wifi.Charger.Verify.Sections

/-!
# The OTG boost

Under any interleaving of calls and any pattern of failing accesses, the mode register and
`otg_active` agree, Q4 is open while the boost is on, and the boost is only switched on by a call
that has read `VBUS_POK` as 0. The one section that switches it on opens Q4 first and sets the flag
last; every other section is `Unboosting`.
-/

namespace Gts9Wifi.Charger.Sm5714

open Driver

/-! ## Sections that do not switch the boost on -/

/-- Operations that do not switch the boost on. -/
def NoBoost : Op → Prop
  | .chgWrite .cntl2 v => v &&& cntl2ModeMask ≠ cntl2UsbOtg
  | _ => True

/-- A section that keeps `OtgSafe`. -/
def KeepsOtgSafe (β : Type) (p : Code β) : Prop := ∀ s, OtgSafe s →
  wp (fun _ => True) (Monitor.idle board) p (fun _ _ s' => OtgSafe s') () s

/-- A section that keeps `OtgSafe` and does not switch the boost on. -/
def Unboosting (β : Type) (p : Code β) : Prop := Issues NoBoost p ∧ KeepsOtgSafe β p

theorem Charging.noBoost {o : Op} (h : Charging o) : NoBoost o := by
  cases o with
  | chgWrite r v => cases r <;> trivial
  | _ => trivial

theorem Spares.unboosting {β : Type} {p : Code β} (h : Spares β p) : Unboosting β p :=
  ⟨h.1.mono fun _ => Charging.noBoost, h.2⟩

theorem unboosting_of_spares {α : Type} {t : Task α} (h : t.Each Spares) : t.Each Unboosting :=
  h.imp fun _ _ => Spares.unboosting

theorem unboosting_storeDirect (b : Bool) :
    (Thread.interruptible (store (Battery.setDirect b)) : Task Unit).Each Unboosting := by
  refine ⟨⟨⟨trivial, fun _ => trivial⟩, ?_⟩, fun _ => trivial⟩
  exact fun s hs _ _ => ⟨trivial, hs.mode, hs.q4⟩

theorem unboosting_enter (f : Fn) :
    (Thread.interruptible (enter f) : Task Unit).Each Unboosting := by
  refine ⟨⟨⟨trivial, fun _ => trivial⟩, ?_⟩, fun _ => trivial⟩
  exact fun s hs _ _ => ⟨trivial, hs.mode, hs.q4⟩

/-- A section made of harmless operations. -/
theorem spares_of_harmless {α : Type} {p : Code α} (h : Issues Harmless p) : Spares α p := by
  refine ⟨h.mono fun _ => Harmless.charging, fun s hs => ?_⟩
  exact h.wp (W := board) (J := fun _ s => OtgSafe s) (fun o ho i _ s _ hs => ⟨trivial, ho.otgSafe hs⟩) hs

theorem setDirectCharge_unboosting (active : Bool) : (setDirectCharge active).Each Unboosting := by
  unfold setDirectCharge setDirectChargeLocked
  refine (unboosting_enter _).bind fun _ => ?_
  refine (unboosting_of_spares lockGlobal_spares).bind fun _ => ?_
  refine Thread.Each.bind ?_ fun _ => (unboosting_of_spares unlockGlobal_spares).bind fun _ => trivial
  refine (unboosting_of_spares spares_load).bind fun m => ?_
  split
  · trivial
  split
  · unfold grantDirectCharge
    refine (unboosting_of_spares (spares_reads getTemp_reads)).bind fun r => ?_
    split
    · trivial
    split
    · trivial
    refine (unboosting_storeDirect true).bind fun _ => ?_
    refine (Thread.Each.atomic (spares_of_harmless openQ4_harmless).unboosting).bind fun r => ?_
    split
    · trivial
    · exact (unboosting_storeDirect false).bind fun _ => trivial
  · unfold revokeDirectCharge
    refine (unboosting_storeDirect false).bind fun _ => ?_
    refine (unboosting_of_spares (spares_quiet getOnline_quiet)).bind fun online => ?_
    exact Thread.Each.ite (unboosting_of_spares spares_configure) trivial

/-! ## Switching the boost -/

/-- Operations on the MUIC. -/
def OnMuic : Op → Prop
  | .muicRead _ | .muicWrite _ _ => True
  | _ => False

theorem muicSetOtgPath_onMuic (active : Bool) : Issues OnMuic (muicSetOtgPath active).run := by
  unfold muicSetOtgPath
  split
  · refine Issues.run_bind ⟨trivial, fun _ => trivial⟩ fun oldCntl => ?_
    refine Issues.run_bind ⟨trivial, fun _ => trivial⟩ fun _ => ?_
    refine Issues.run_bind (Issues.run_attempt ?_) fun ret => ?_
    · refine Issues.run_bind ⟨trivial, fun _ => trivial⟩ fun old => ?_
      exact ⟨trivial, fun _ => trivial⟩
    split
    · trivial
    · refine Issues.run_bind (Issues.run_attempt ⟨trivial, fun _ => trivial⟩) fun _ => trivial
  · refine Issues.run_bind ⟨trivial, fun _ => trivial⟩ fun old => ?_
    refine Issues.run_bind ⟨trivial, fun _ => trivial⟩ fun _ => ?_
    refine Issues.run_bind ⟨trivial, fun _ => trivial⟩ fun old => ?_
    exact ⟨trivial, fun _ => trivial⟩

/-- MUIC operations leave the charger and the memory alone. -/
theorem OnMuic.frame {o : Op} (h : OnMuic o) (i : Input) (s : State) :
    (handle o i s).2.mem = s.mem ∧ (handle o i s).2.chg = s.chg := by
  cases o with
  | muicRead r => exact ⟨rfl, rfl⟩
  | muicWrite r v =>
    cases hf : i.fault with
    | some e => simp only [handle, apply_some hf, and_self]
    | none => simp only [handle, apply_none hf, setMuic_mem, setMuic_chg, and_self]
  | _ => exact h.elim

section

variable {A : Event board → Prop} {s : State}

theorem muicSetOtgPath_frame (active : Bool) :
    wp A (Monitor.idle board) (muicSetOtgPath active).run
      (fun _ _ s' => s'.mem = s.mem ∧ s'.chg = s.chg) () s := by
  refine (muicSetOtgPath_onMuic active).wp (W := board) (J := fun _ s' => s'.mem = s.mem ∧ s'.chg = s.chg)
    (fun o ho i _ s' _ h => ?_) ⟨rfl, rfl⟩
  obtain ⟨h1, h2⟩ := ho.frame i s'
  exact ⟨trivial, h1.trans h.1, h2.trans h.2⟩

end

theorem OtgSafe.of_eq {s s' : State} (h : OtgSafe s) (hmem : s'.mem = s.mem) (hchg : s'.chg = s.chg) :
    OtgSafe s' := by
  refine h.congr (by rw [hmem]) (by rw [hchg]) fun hact => ?_
  rw [q4Closed_congr (congrFun hchg _)]
  exact h.q4 (by rw [← hmem]; exact hact)

/-- What the four steps of the enable section end with. -/
def Boosted (r : Except Errno Unit) (s : State) : Prop :=
  match r with
  | .ok () => otgMode s ∧ ¬ q4Closed s
  | .error _ => OtgSafe s

/-- The enable section opens Q4, then switches the boost on, then sets the flag: wherever it stops,
register and flag agree. -/
theorem otgEnableSection_keeps : KeepsOtgSafe _ otgEnableSection.run := by
  intro s hs
  unfold otgEnableSection
  rw [wp_run_bind, wp_run_attempt]
  -- every way out of the four steps but the last leaves `OtgSafe`; the last leaves the boost on
  suffices h : wp (fun _ => True) (Monitor.idle board) (do
      muicSetOtgPath true
      chgUpdateBits .cntl1 cntl1Enq4fet 0
      chgUpdateBits .bstcntl1 bstcntl1OtgMask bstcntl15v1900ma
      chgUpdateBits .cntl2 cntl2ModeMask cntl2UsbOtg : Fallible Unit).run
      (fun r _ s' => Boosted r s') () s by
    refine wp_mono h ?_
    rintro (e | ⟨⟩) _ s' hs'
    · dsimp only
      rw [wp_run_bind, wp_run_attempt]
      refine wp_mono (muicSetOtgPath_frame false) ?_
      rintro r _ s'' ⟨hmem, hchg⟩
      exact OtgSafe.of_eq hs' hmem hchg
    · dsimp only
      rw [wp_run_lift]
      refine wp_store ⟨?_, ?_⟩
      · exact iff_of_true hs'.1 rfl
      · exact fun _ => hs'.2
  apply wp_run_seq (muicSetOtgPath_frame true)
  · intro e _ s1 hr
    obtain ⟨hmem, hchg⟩ := hr
    exact hs.of_eq hmem hchg
  intro _ _ s1 hr
  obtain ⟨hmem, hchg⟩ := hr
  have hs1 : OtgSafe s1 := hs.of_eq hmem hchg
  dsimp only
  rw [wp_run_bind]
  refine wp_chgUpdateBits rfl (fun _ _ => hs1) ?_
  have hopen : ¬ q4Closed (s1.setChg .cntl1 (maskedUpdate cntl1Enq4fet 0 (s1.chg .cntl1))) := by
    rw [q4Closed_update]
    exact fun h => h rfl
  have hs2 : OtgSafe (s1.setChg .cntl1 (maskedUpdate cntl1Enq4fet 0 (s1.chg .cntl1))) :=
    hs1.congr rfl rfl fun _ => hopen
  generalize s1.setChg .cntl1 (maskedUpdate cntl1Enq4fet 0 (s1.chg .cntl1)) = s2 at hs2 hopen
  dsimp only
  rw [wp_run_bind]
  refine wp_chgUpdateBits rfl (fun _ _ => hs2) ?_
  dsimp only
  refine wp_chgUpdateBits rfl (fun _ _ => hs2.congr rfl rfl fun _ => hopen) ⟨?_, hopen⟩
  unfold otgMode
  rw [setChg_chg, if_pos rfl, maskedUpdate_and_mask]
  decide

/-- The disable section leaves OTG mode, then clears the flag. -/
theorem otgDisableSection_unboosting : Unboosting _ otgDisableSection.run := by
  constructor
  · unfold otgDisableSection chgUpdateBits
    refine Issues.run_bind ?_ fun _ => ?_
    · refine Issues.run_bind ⟨trivial, fun _ => trivial⟩ fun old => ?_
      dsimp only
      split
      · trivial
      refine ⟨?_, fun _ => trivial⟩
      show maskedUpdate cntl2ModeMask cntl2Charging old &&& cntl2ModeMask ≠ cntl2UsbOtg
      rw [maskedUpdate_and_mask]
      decide
    · refine Issues.run_bind (Issues.run_lift ⟨trivial, fun _ => trivial⟩) fun _ => ?_
      refine (muicSetOtgPath_onMuic false).mono fun o ho => ?_
      cases o <;> trivial
  · intro s hs
    unfold otgDisableSection
    rw [wp_run_bind]
    refine wp_chgUpdateBits rfl (fun _ _ => hs) ?_
    dsimp only
    apply wp_run_store_seq
    refine wp_mono (muicSetOtgPath_frame false) ?_
    rintro r _ s' ⟨hmem, hchg⟩
    refine OtgSafe.of_eq (s := (s.setChg .cntl2
      (maskedUpdate cntl2ModeMask cntl2Charging (s.chg .cntl2))).setMem (Battery.setOtgActive false))
      ?_ hmem hchg
    refine ⟨iff_of_false ?_ Bool.false_ne_true, fun h => absurd h Bool.false_ne_true⟩
    unfold otgMode
    rw [setMem_chg, setChg_chg, if_pos rfl, maskedUpdate_and_mask]
    decide

/-! ## Interleaved calls -/

/-- The access reads `VBUS_POK` as 0. -/
def ReadsNoVbus (e : Event board) : Prop :=
  e.op = .chgRead .status1 ∧ e.input.fault = none ∧ e.input.byte &&& status1VbusPok = 0

/-- The access puts the charger into OTG mode. -/
def SwitchesBoostOn (e : Event board) : Prop :=
  ∃ v, e.op = .chgWrite .cntl2 v ∧ v &&& cntl2ModeMask = cntl2UsbOtg

/-- Accepts switching the boost on only after `VBUS_POK` was read as 0. -/
abbrev boostMonitor : Monitor board := Monitor.precedes ReadsNoVbus SwitchesBoostOn

theorem NoBoost.not_switches {o : Op} (h : NoBoost o) (i : Input) (s : State) :
    ¬ SwitchesBoostOn ⟨o, i, s⟩ := by
  rintro ⟨v, hv, hmode⟩
  cases hv
  exact h hmode

section

variable {α : Type}

/-- Whatever the call has read so far, its sections without a boost are safe. -/
theorem wp_unboosting {t : Task α} (h : t.Each Unboosting) (m : Prop) :
    t.wp (fun _ => True) boostMonitor OtgSafe (fun _ _ => True) m := by
  refine h.wp (K := fun _ => True) (fun β p hp m s _ hs => ?_) trivial
  refine wp_mono (hp.1.wp_of_idle (M := boostMonitor) (K := fun _ => True) ?_ (hp.2 s hs) trivial) ?_
  · exact fun o ho i m s _ => ⟨fun he => absurd he (ho.not_switches i s), trivial⟩
  · exact fun _ _ _ h => h

theorem otgEnable_wp (m : Prop) :
    otgEnable.wp (fun _ => True) boostMonitor OtgSafe (fun _ _ => True) m := by
  unfold otgEnable
  rw [Thread.wp_bind]
  refine Thread.wp_mono (wp_unboosting (unboosting_of_spares spares_load) m) fun mem m _ => ?_
  split
  · trivial
  rw [Thread.wp_bind]
  -- the reading `false` is what licenses the write to CNTL2
  have hread : (Thread.interruptible getOnlineRaw.run : Task _).wp (fun _ => True) boostMonitor
      OtgSafe (fun r m => r = .ok false → m) m := by
    intro s hs _ i _
    refine ⟨?_, hs, ?_⟩
    · rintro ⟨v, hv, -⟩
      cases hv
    cases hf : i.fault with
    | some e =>
      simp only [handle, answer_some hf]
      intro hr
      cases hr
    | none =>
      simp only [handle, answer_none hf]
      intro hr
      refine .inr ⟨rfl, hf, ?_⟩
      simpa [ChgReg.isStatus] using Except.ok.inj hr
  refine Thread.wp_mono hread ?_
  rintro (e | online) m hm
  · trivial
  cases online with
  | true => trivial
  | false =>
    refine (Thread.wp_atomic _ _ _).2 fun s hs => ?_
    have hidle := otgEnableSection_keeps s hs
    have hall : Issues (fun _ => True) otgEnableSection.run := issues_true _
    refine wp_mono (hall.wp_of_idle (M := boostMonitor) (K := id) ?_ hidle (hm rfl)) ?_
    · exact fun o _ i m s hm => ⟨fun _ => hm, .inl hm⟩
    · exact fun _ _ _ h => ⟨h.1, trivial⟩

theorem otgDisable_unboosting : otgDisable.Each Unboosting := by
  unfold otgDisable
  refine (Thread.Each.atomic otgDisableSection_unboosting).bind fun r => ?_
  split
  · trivial
  refine (unboosting_of_spares ?_).bind fun _ => trivial
  exact spares_quiet getOnlineRaw_quiet

theorem setOtgLocked_wp (active : Bool) (m : Prop) :
    (setOtgLocked active).wp (fun _ => True) boostMonitor OtgSafe (fun _ _ => True) m := by
  unfold setOtgLocked
  rw [Thread.wp_bind]
  refine Thread.wp_mono (wp_unboosting (unboosting_of_spares spares_load) m) fun mem m _ => ?_
  split
  · trivial
  rw [Thread.wp_bind]
  refine Thread.wp_mono (wp_unboosting (unboosting_of_spares spares_load) m) fun mem m _ => ?_
  split
  · trivial
  split
  · rw [Thread.wp_bind]
    exact Thread.wp_mono (otgEnable_wp m) fun r m _ => trivial
  · exact wp_unboosting otgDisable_unboosting m

theorem setOtg_wp (active : Bool) (m : Prop) :
    (setOtg active).wp (fun _ => True) boostMonitor OtgSafe (fun _ _ => True) m := by
  unfold setOtg
  rw [Thread.wp_bind]
  refine Thread.wp_mono (wp_unboosting (unboosting_of_spares lockGlobal_spares) m) fun _ m _ => ?_
  rw [Thread.wp_bind]
  refine Thread.wp_mono (setOtgLocked_wp active m) fun ret m _ => ?_
  refine wp_unboosting ((unboosting_of_spares unlockGlobal_spares).bind fun _ => ?_) m
  split
  · trivial
  · trivial
  · exact unboosting_of_spares spares_configure

/-- Every call is safe on its own, whatever runs between its sections. -/
theorem task_wp (c : Call) :
    c.task.wp (fun _ => True) boostMonitor OtgSafe (fun _ _ => True) False := by
  cases c with
  | directCharge active =>
    unfold Call.task
    rw [Thread.wp_bind]
    refine Thread.wp_mono (wp_unboosting ?_ False) fun _ _ _ => trivial
    exact setDirectCharge_unboosting active
  | otg active =>
    unfold Call.task
    rw [Thread.wp_bind]
    exact Thread.wp_mono (setOtg_wp active False) fun _ _ _ => trivial
  | pdContract mv ma =>
    unfold Call.task
    rw [Thread.wp_bind]
    refine Thread.wp_mono (wp_unboosting ?_ False) fun _ _ _ => trivial
    exact unboosting_of_spares (setPdContract_spares mv ma)
  | poll => exact wp_unboosting (unboosting_of_spares pollWork_spares) False
  | fastCharge parsed =>
    unfold Call.task
    rw [Thread.wp_bind]
    refine Thread.wp_mono (wp_unboosting ?_ False) fun _ _ _ => trivial
    exact unboosting_of_spares (fastChargeStore_spares parsed)

end

/-- Pools reachable by interleaving calls, started in any number and at any time, whose accesses may
all fail. -/
def Interleaved (s₀ : State) (c : Pool board) : Prop :=
  Pool.Reachable (fun t => ∃ call : Call, t = call.task) (fun _ => True) s₀ c

/-- **OTG boost safety.** From a board that is not in OTG mode, under every interleaving of calls and
every pattern of failing accesses: the mode register says OTG precisely when `otg_active` is set, Q4
is open while it is set, and a call that switches the boost on has read `VBUS_POK = 0` before. -/
theorem boost_safe_of_interleaved {s₀ : State} (h0 : ¬ otgMode s₀)
    (h0' : s₀.mem.bat.otgActive = false) {c : Pool board} (h : Interleaved s₀ c) :
    (otgMode c.shared ↔ c.shared.mem.bat.otgActive = true) ∧
      (c.shared.mem.bat.otgActive = true → ¬ q4Closed c.shared) ∧
      ∀ q ∈ c.procs, ∀ pre e post, q.log = pre ++ e :: post → SwitchesBoostOn e →
        ∃ e' ∈ pre, ReadsNoVbus e' := by
  have hs₀ : OtgSafe s₀ := by
    refine ⟨iff_of_false h0 ?_, fun h => ?_⟩
    · rw [h0']
      exact Bool.false_ne_true
    · rw [h0'] at h
      exact absurd h Bool.false_ne_true
  have hstart : ∀ t, (∃ call : Call, t = call.task) →
      t.wp (fun _ => True) boostMonitor OtgSafe (fun _ _ => True) False := by
    rintro t ⟨call, rfl⟩
    exact task_wp call
  obtain ⟨hsafe, hprocs⟩ := Pool.Reachable.inv h hs₀ hstart
  refine ⟨hsafe.mode, hsafe.q4, fun q hq pre e post hlog he => ?_⟩
  rcases Monitor.exists_of_safe_precedes (hprocs q hq).log_safe hlog he with hf | hread
  · exact hf.elim
  · exact hread

/-- The probed board without a cable, and an enable call after its last critical section. -/
def boosted : Pool board :=
  (Pool.advance fun _ => ({} : Input))^[6] ⟨.probed, [⟨(Call.otg true).task, []⟩]⟩

theorem boost_safe_of_interleaved_boosted :
    Interleaved .probed boosted ∧ boosted.shared.mem.bat.otgActive = true ∧
      otgMode boosted.shared ∧ ¬ q4Closed boosted.shared := by
  have hreach : Interleaved .probed boosted :=
    Pool.Reachable.advance (.step .init (.start _ ⟨.otg true, rfl⟩)) (fun _ => trivial) _ 6
  obtain ⟨hmode, hq4, -⟩ := boost_safe_of_interleaved (by decide) rfl hreach
  exact ⟨hreach, rfl, hmode.2 rfl, hq4 rfl⟩

end Gts9Wifi.Charger.Sm5714
