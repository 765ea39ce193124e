import Gts9Wifi.Typec.Sm5714Usbpd

/-!
# The CC hold is released

A swap from source to sink freezes the CC state, and the flag `pr_swap_src_to_snk` is what gets it
released again. `set_vbus` tests the flag before it takes the lock, so the swap may be over by the
time it freezes the state. Apart from that the flag is set wherever the state is frozen, whatever the
order of calls and interrupts.
-/

namespace Gts9Wifi.Typec.Sm5714Usbpd

open Driver

/-! ## Vocabulary -/

/-- The CC hold field. -/
def hold (s : State) : BitVec 8 := s.regs regCcCntl3 &&& ccHoldMask

/-- A CC state that is frozen has a swap that will release it. -/
def Guarded (s : State) : Prop := hold s ≠ 0 → s.ctx.prSwapSrcToSnk = true

/-- Register accesses succeed. -/
def Succeeds (e : Event chip) : Prop :=
  match e.op with
  | .regmapRead _ | .regmapWrite _ _ | .regmapUpdateBits _ _ _ | .regmapBulkRead _ _
  | .regmapBulkWrite _ _ => e.input.fault = none
  | _ => True

/-- The CC state is frozen only while the swap is still going on. -/
def FreezesInSwap (e : Event chip) : Prop :=
  e.op = .regmapUpdateBits regCcCntl3 ccHoldMask 0x20 → e.pre.ctx.prSwapSrcToSnk = true

def Admitted (e : Event chip) : Prop := Succeeds e ∧ FreezesInSwap e

instance (e : Event chip) : Decidable (Succeeds e) :=
  match e with
  | ⟨.regmapRead _, i, _⟩ | ⟨.regmapWrite _ _, i, _⟩ | ⟨.regmapUpdateBits _ _ _, i, _⟩
  | ⟨.regmapBulkRead _ _, i, _⟩ | ⟨.regmapBulkWrite _ _, i, _⟩ =>
    inferInstanceAs (Decidable (i.fault = none))
  | ⟨.load, _, _⟩ | ⟨.store _, _, _⟩ | ⟨.setOtgDet _, _, _⟩ | ⟨.modOtgDetWork _, _, _⟩
  | ⟨.cancelOtgDetWork, _, _⟩ | ⟨.batterySetOtg _, _, _⟩ | ⟨.tcpm _, _, _⟩ => isTrue trivial

instance (e : Event chip) : Decidable (FreezesInSwap e) :=
  match e with
  | ⟨.regmapUpdateBits reg mask value, _, s⟩ =>
    decidable_of_iff
      (reg = regCcCntl3 ∧ mask = ccHoldMask ∧ value = 0x20 → s.ctx.prSwapSrcToSnk = true)
      (imp_congr_left (iff_of_eq (Op.regmapUpdateBits.injEq _ _ _ _ _ _).symm))
  | ⟨.load, _, _⟩ | ⟨.store _, _, _⟩ | ⟨.regmapRead _, _, _⟩ | ⟨.regmapWrite _ _, _, _⟩
  | ⟨.regmapBulkRead _ _, _, _⟩ | ⟨.regmapBulkWrite _ _, _, _⟩ | ⟨.setOtgDet _, _, _⟩
  | ⟨.modOtgDetWork _, _, _⟩ | ⟨.cancelOtgDetWork, _, _⟩ | ⟨.batterySetOtg _, _, _⟩
  | ⟨.tcpm _, _, _⟩ => isTrue fun h => nomatch h

instance (e : Event chip) : Decidable (Admitted e) := inferInstanceAs (Decidable (_ ∧ _))

/-- Calls and interrupts start at any time. -/
def Starts (t : Thread chip Unit) : Prop := ∃ c : Call, t = c.thread

/-! ## Operations that keep the guard -/

theorem guarded_of_hold {s : State} (h : hold s = 0) : Guarded s := fun hne => absurd h hne

theorem hold_write_of_ne {s : State} {reg value : BitVec 8} (h : reg ≠ regCcCntl3) :
    hold (s.write reg value) = hold s := by
  simp only [hold, State.write, Function.update_of_ne h.symm]

theorem hold_write_self (s : State) (value : BitVec 8) :
    hold (s.write regCcCntl3 value) = value &&& ccHoldMask := by
  simp only [hold, State.write, Function.update_self]

theorem hold_writeAll {s : State} {reg : BitVec 8} {data : List (BitVec 8)} (h : ¬ reg ≤ regCcCntl3) :
    hold (s.writeAll reg data) = hold s := by
  simp only [hold, State.writeAll, if_neg h]

/-- Operations that neither freeze the CC state nor end the swap. -/
def Keeping : Op → Prop
  | .store f => ∀ sm : Ctx, sm.prSwapSrcToSnk = true → (f sm).prSwapSrcToSnk = true
  | .regmapWrite reg value => reg ≠ regCcCntl3 ∨ value &&& ccHoldMask = 0
  | .regmapUpdateBits reg _ _ => reg ≠ regCcCntl3
  | .regmapBulkWrite reg _ => ¬ reg ≤ regCcCntl3
  | _ => True

theorem Keeping.frame {o : Op} (h : Keeping o) (i : Input) {s : State} (hs : Guarded s) :
    Guarded (handle o i s).2 := by
  cases o with
  | store f => exact fun hne => h _ (hs hne)
  | regmapWrite reg value =>
    cases hf : i.fault with
    | some e => simpa only [handle, hf] using hs
    | none =>
      simp only [handle, hf]
      rcases h with hreg | hvalue
      · rw [Guarded, hold_write_of_ne hreg]
        exact hs
      · by_cases hreg : reg = regCcCntl3
        · subst hreg
          exact guarded_of_hold ((hold_write_self s value).trans hvalue)
        · rw [Guarded, hold_write_of_ne hreg]
          exact hs
  | regmapUpdateBits reg mask value =>
    cases hf : i.fault with
    | some e => simpa only [handle, hf] using hs
    | none =>
      simp only [handle, hf]
      rw [Guarded, hold_write_of_ne h]
      exact hs
  | regmapBulkWrite reg data =>
    cases hf : i.fault with
    | some e => simpa only [handle, hf] using hs
    | none =>
      simp only [handle, hf]
      rw [Guarded, hold_writeAll h]
      exact hs
  | _ => exact hs

/-! ## Code that keeps the guard -/

/-- Started with the guard in place, the code ends with it in place. -/
def Keeps {α : Type} (x : Code α) : Prop :=
  ∀ s, Guarded s → wp Admitted (Monitor.idle chip) x.run (fun _ _ s' => Guarded s') () s

section Keeps

variable {α β : Type} {x : Code α} {f : α → Code β}

theorem keeps_of_issues (h : Issues Keeping x.run) : Keeps x := by
  intro s hs
  refine h.wp (W := chip) (J := fun _ s => Guarded s) (fun o ho i _ s _ hs => ⟨trivial, ?_⟩) hs
  exact ho.frame i hs

theorem Keeps.bind (hx : Keeps x) (hf : ∀ a, Keeps (f a)) : Keeps (x >>= f) :=
  fun s hs => wp_run_seq (hx s hs) (fun _ _ _ h => h) fun a _ s hs => hf a s hs

theorem Keeps.attempt (hx : Keeps x) : Keeps (attempt x) :=
  fun s hs => (wp_run_attempt _ _ _ _).2 (hx s hs)

theorem keeps_pure (a : α) : Keeps (pure a : Code α) := fun _ hs => hs

theorem Keeps.onlyIf {c : Prop} [Decidable c] {y : Code Unit} (hy : Keeps y) : Keeps (onlyIf c y) := by
  unfold Sm5714Usbpd.onlyIf
  split
  · exact hy
  · exact keeps_pure ()

theorem Keeps.ite {c : Prop} [Decidable c] {y : Code α} (hx : Keeps x) (hy : Keeps y) :
    Keeps (if c then x else y) := by
  split
  · exact hx
  · exact hy

end Keeps

section Rules

variable {α : Type} {s : State} {Q : Except Errno α → Unit → State → Prop}

theorem wp_load_seq {f : Ctx → Code α}
    (h : wp Admitted (Monitor.idle chip) (f s.ctx).run Q () s) :
    wp Admitted (Monitor.idle chip) (load >>= f).run Q () s :=
  (wp_run_bind _ _ _ _ _).2 fun _ _ => ⟨trivial, h⟩

theorem wp_store_seq {g : Ctx → Ctx} {f : Unit → Code α}
    (h : wp Admitted (Monitor.idle chip) (f ()).run Q () (s.setCtx g)) :
    wp Admitted (Monitor.idle chip) (store g >>= f).run Q () s :=
  (wp_run_bind _ _ _ _ _).2 fun _ _ => ⟨trivial, h⟩

theorem wp_regmapRead_seq {reg : BitVec 8} {f : BitVec 8 → Code α}
    (h : ∀ v, wp Admitted (Monitor.idle chip) (f v).run Q () s) :
    wp Admitted (Monitor.idle chip) (regmapRead reg >>= f).run Q () s := by
  refine (wp_run_bind _ _ _ _ _).2 fun i hi => ⟨trivial, ?_⟩
  have hf : i.fault = none := hi.1
  simp only [handle, Input.answer, hf]
  exact h _

theorem wp_regmapWrite {reg value : BitVec 8} {Q : Ret → Unit → State → Prop}
    (h : Q (.ok ()) () (s.write reg value)) :
    wp Admitted (Monitor.idle chip) (regmapWrite reg value).run Q () s := by
  refine (wp_perform _ _ _ _).2 fun i hi => ⟨trivial, ?_⟩
  have hf : i.fault = none := hi.1
  simpa only [handle, hf] using h

/-- A hold is written. It can only be the freeze while the flag is set. -/
theorem wp_setCcHold {v : BitVec 8} {Q : Ret → Unit → State → Prop}
    (h : (v = 0x20 → s.ctx.prSwapSrcToSnk = true) →
      Q (.ok ()) () (s.write regCcCntl3 (maskedUpdate ccHoldMask v (s.regs regCcCntl3)))) :
    wp Admitted (Monitor.idle chip) (setCcHold v).run Q () s := by
  refine (wp_perform _ _ _ _).2 fun i hi => ⟨trivial, ?_⟩
  have hf : i.fault = none := hi.1
  have hswap : v = 0x20 → s.ctx.prSwapSrcToSnk = true := by
    rintro rfl
    exact hi.2 rfl
  simpa only [handle, hf] using h hswap

end Rules

/-! ## The functions -/

theorem keeps_load : Keeps load := keeps_of_issues ⟨trivial, fun _ => trivial⟩

theorem keeps_regmapRead (reg : BitVec 8) : Keeps (regmapRead reg) :=
  keeps_of_issues ⟨trivial, fun _ => trivial⟩

theorem keeps_regmapBulkRead (reg : BitVec 8) (len : Nat) : Keeps (regmapBulkRead reg len) :=
  keeps_of_issues ⟨trivial, fun _ => trivial⟩

theorem keeps_regmapWrite {reg value : BitVec 8} (h : reg ≠ regCcCntl3 ∨ value &&& ccHoldMask = 0) :
    Keeps (regmapWrite reg value) :=
  keeps_of_issues ⟨h, fun _ => trivial⟩

theorem keeps_tcpm (e : TcpmEvent) : Keeps (tcpm e) := keeps_of_issues ⟨trivial, fun _ => trivial⟩

theorem keeps_store {g : Ctx → Ctx}
    (h : ∀ sm : Ctx, sm.prSwapSrcToSnk = true → (g sm).prSwapSrcToSnk = true) : Keeps (store g) :=
  keeps_of_issues ⟨h, fun _ => trivial⟩

theorem togglePull_keeps : Keeps togglePull :=
  (keeps_regmapRead _).bind fun _ => keeps_regmapWrite (.inl (by decide))

/-- Whatever was held, an open port holds nothing. -/
theorem setCcOpen_releases (s : State) :
    wp Admitted (Monitor.idle chip) setCcOpen.run (fun _ _ s' => hold s' = 0) () s := by
  unfold setCcOpen
  apply wp_store_seq
  refine wp_run_attempt_seq (P := fun _ _ _ => True) ?_ fun r _ s' _ => ?_
  · exact wp_setCcHold fun _ => trivial
  · exact wp_regmapWrite ((hold_write_self s' _).trans (by decide))

/-- Neither does one that toggles. -/
theorem toggleDrp_releases (s : State) :
    wp Admitted (Monitor.idle chip) toggleDrp.run (fun _ _ s' => hold s' = 0) () s := by
  unfold toggleDrp
  apply wp_store_seq
  refine wp_run_attempt_seq (P := fun _ _ _ => True) ?_ fun r _ s' _ => ?_
  · exact wp_setCcHold fun _ => trivial
  · rw [wp_run_bind]
    apply wp_regmapWrite
    exact wp_regmapWrite ((hold_write_self _ _).trans (by decide))

theorem hold_setCcHold (s : State) (v : BitVec 8) :
    hold (s.write regCcCntl3 (maskedUpdate ccHoldMask v (s.regs regCcCntl3))) = v &&& ccHoldMask := by
  rw [hold_write_self, maskedUpdate_and_mask]

/-- A hold that is written while the flag is set. -/
theorem guarded_setCcHold {s : State} (h : s.ctx.prSwapSrcToSnk = true) (v : BitVec 8) :
    Guarded (s.write regCcCntl3 (maskedUpdate ccHoldMask v (s.regs regCcCntl3))) := fun _ => h

theorem setCcRd_keeps : Keeps setCcRd := by
  intro s hs
  unfold setCcRd
  apply wp_regmapRead_seq
  intro status
  split
  · exact hs
  apply wp_load_seq
  split
  next hflag =>
    rw [wp_run_bind]
    exact wp_setCcHold fun _ => togglePull_keeps _ (guarded_setCcHold hflag _)
  · have hforce : Keeps (do regmapWrite regCcCntl1 0x45; regmapWrite regCcCntl3 0x82) :=
      (keeps_regmapWrite (.inl (by decide))).bind fun _ => keeps_regmapWrite (.inr (by decide))
    exact hforce s hs

theorem setCcRp_keeps : Keeps setCcRp := by
  unfold setCcRp
  refine (keeps_regmapRead _).bind fun status => Keeps.ite ?_ (keeps_load.bind fun sm => Keeps.ite ?_ ?_)
  · have hreg : regCcCntl1 ≠ regCcCntl3 := by decide
    exact keeps_of_issues ⟨hreg, fun _ => trivial⟩
  · exact togglePull_keeps
  · exact (keeps_regmapWrite (.inl (by decide))).bind fun _ => keeps_regmapWrite (.inr (by decide))

theorem beginSwap_keeps : Keeps beginSwap := by
  unfold beginSwap
  refine (keeps_regmapRead _).attempt.bind fun r => ?_
  split
  · exact keeps_pure ()
  · refine Keeps.ite (keeps_store fun _ _ => rfl) (Keeps.ite (keeps_store fun _ h => h) (keeps_pure ()))

/-- The end of a swap releases the hold and only then clears the flag. -/
theorem endSwap_keeps : Keeps endSwap := by
  intro s hs
  unfold endSwap
  apply wp_load_seq
  split
  · refine wp_run_attempt_seq (P := fun r _ s' => r = .ok () ∧ hold s' = 0) ?_ ?_
    · exact wp_setCcHold fun _ => ⟨rfl, (hold_setCcHold s 0).trans (by decide)⟩
    · rintro r _ s' ⟨rfl, hzero⟩
      exact fun _ _ => ⟨trivial, guarded_of_hold hzero⟩
  · exact hs

theorem deliver_keeps (header : BitVec 16) : Keeps (deliver header) := by
  unfold deliver
  refine Keeps.ite (keeps_pure ()) ?_
  refine Keeps.bind ?_ fun payload => (keeps_regmapRead _).bind fun origin => ?_
  · exact Keeps.ite ((keeps_regmapBulkRead _ _).bind fun _ => keeps_pure _) (keeps_pure _)
  · split
    · exact keeps_pure ()
    · exact beginSwap_keeps.onlyIf.bind fun _ => endSwap_keeps.onlyIf.bind fun _ => keeps_tcpm _

theorem receive_keeps : Keeps receive := by
  unfold receive
  refine (keeps_regmapBulkRead _ _).attempt.bind fun r => ?_
  split
  · exact keeps_pure ()
  · refine (deliver_keeps _).attempt.bind fun _ => ?_
    exact (keeps_regmapWrite (.inl (by decide))).attempt.bind fun _ => keeps_pure ()

theorem irqLocked_keeps : Keeps irqLocked := by
  unfold irqLocked completeTransmit
  refine (keeps_regmapBulkRead _ _).bind fun intr => receive_keeps.onlyIf.bind fun _ => ?_
  refine Keeps.bind ?_ fun _ => (keeps_tcpm _).onlyIf.bind fun _ => keeps_pure intr
  exact Keeps.ite (keeps_tcpm _) (Keeps.ite (keeps_tcpm _) (keeps_tcpm _).onlyIf)

/-! ## The threads -/

section Threads

variable {α : Type}

theorem wp_atomic_of_keeps {x : Code α} (h : Keeps x) :
    (Thread.atomic x.run : Task (Except Errno α)).wp Admitted (Monitor.idle chip) Guarded
      (fun _ _ => True) () := by
  rw [Thread.wp_atomic]
  intro s hs
  exact wp_mono (h s hs) fun _ _ _ h => ⟨h, trivial⟩

theorem wp_interruptible {p : Prog iface α} (h : Issues Keeping p) :
    (Thread.interruptible p : Task α).wp Admitted (Monitor.idle chip) Guarded (fun _ _ => True) () := by
  have heach : (Thread.interruptible p : Task α).Each fun _ => Issues Keeping :=
    .interruptible h fun o ho => ⟨ho, fun _ => trivial⟩
  refine heach.wp (K := fun _ => True) (fun β q hq m s _ hs => ?_) trivial
  have hkept : wp Admitted (Monitor.idle chip) q (fun _ _ s => Guarded s) () s :=
    hq.wp (W := chip) (M := Monitor.idle chip) (J := fun _ s => Guarded s)
      (fun o ho i _ s _ hs => ⟨trivial, ho.frame i hs⟩) hs
  exact wp_mono hkept fun _ _ _ h => ⟨h, trivial⟩

end Threads

theorem issues_onlyIf {c : Prop} [Decidable c] {x : Code Unit} (h : Issues Keeping x.run) :
    Issues Keeping (onlyIf c x).run := by
  unfold onlyIf
  split
  · exact h
  · trivial

theorem irqNotify_issues (intr : Nat → BitVec 8) : Issues Keeping (irqNotify intr).run :=
  Issues.run_bind (issues_onlyIf ⟨trivial, fun _ => trivial⟩) fun _ =>
    issues_onlyIf ⟨trivial, fun _ => trivial⟩

theorem endOtgDet_issues : Issues Keeping endOtgDet.run := by
  unfold endOtgDet
  refine Issues.run_bind ⟨trivial, fun _ => trivial⟩ fun _ => ?_
  exact Issues.run_bind ⟨trivial, fun _ => trivial⟩ fun sm => issues_onlyIf ⟨trivial, fun _ => trivial⟩

theorem endSnkToSrc_issues (on : Bool) : Issues Keeping (endSnkToSrc on).run := by
  unfold endSnkToSrc
  split
  · refine Issues.run_bind ⟨trivial, fun _ => trivial⟩ fun sm => issues_onlyIf ?_
    exact ⟨fun _ h => h, fun _ => trivial⟩
  · trivial

theorem switchVbus_issues (on : Bool) : Issues Keeping (switchVbus on).run := by
  unfold switchVbus
  refine Issues.run_bind ⟨trivial, fun _ => trivial⟩ fun sm => ?_
  refine Issues.run_bind (issues_onlyIf ?_) fun _ => ?_
  · exact Issues.run_bind ⟨trivial, fun _ => trivial⟩ fun _ => ⟨trivial, fun _ => trivial⟩
  refine Issues.run_bind (Issues.run_attempt ⟨trivial, fun _ => trivial⟩) fun r => ?_
  split
  · exact Issues.run_bind (endSnkToSrc_issues on) fun _ => issues_onlyIf endOtgDet_issues
  · exact Issues.run_bind endOtgDet_issues fun _ => trivial

theorem setCc_wp (cc : CcStatus) :
    (setCc cc).wp Admitted (Monitor.idle chip) Guarded (fun _ _ => True) () := by
  apply wp_atomic_of_keeps
  cases cc with
  | opened => exact fun s _ => wp_mono (setCcOpen_releases s) fun _ _ _ h => guarded_of_hold h
  | rd => exact setCcRd_keeps
  | rpDef | rp15 | rp30 => exact setCcRp_keeps
  | ra => exact fun s hs => hs

theorem startToggling_wp (portType : PortType) (cc : CcStatus) :
    (startToggling portType cc).wp Admitted (Monitor.idle chip) Guarded (fun _ _ => True) () := by
  cases portType with
  | src => exact setCc_wp cc
  | snk => exact setCc_wp .rd
  | drp =>
    apply wp_atomic_of_keeps
    exact fun s _ => wp_mono (toggleDrp_releases s) fun _ _ _ h => guarded_of_hold h

/-- The freeze is what the assumption is about. -/
theorem setVbus_wp (on : Bool) :
    (setVbus on).wp Admitted (Monitor.idle chip) Guarded (fun _ _ => True) () := by
  have hswitch := wp_interruptible (switchVbus_issues on)
  unfold setVbus
  split
  · exact hswitch
  rw [Thread.wp_bind]
  refine Thread.wp_mono (wp_interruptible ⟨trivial, fun _ => trivial⟩) fun sm _ _ => ?_
  split
  · have hfreeze : Keeps (setCcHold 0x20) :=
      fun s _ => wp_setCcHold fun h => guarded_setCcHold (h rfl) 0x20
    rw [Thread.wp_bind]
    refine Thread.wp_mono (wp_atomic_of_keeps hfreeze) fun r _ _ => ?_
    split
    · trivial
    · exact hswitch
  · exact hswitch

theorem irq_wp : irq.wp Admitted (Monitor.idle chip) Guarded (fun _ _ => True) () := by
  unfold irq
  rw [Thread.wp_bind]
  refine Thread.wp_mono (wp_atomic_of_keeps irqLocked_keeps) fun r _ _ => ?_
  split
  · trivial
  · exact wp_interruptible (irqNotify_issues _)

theorem setRoles_issues (source host : Bool) : Issues Keeping (setRoles source host).run := by
  unfold setRoles
  have hreg : regPdCntl2 ≠ regCcCntl3 := by decide
  exact Issues.run_bind ⟨trivial, fun _ => trivial⟩ fun _ => ⟨.inl hreg, fun _ => trivial⟩

theorem setVconn_issues (on : Bool) : Issues Keeping (setVconn on).run := by
  unfold setVconn
  have hreg : regCcCntl5 ≠ regCcCntl3 := by decide
  exact Issues.run_bind ⟨trivial, fun _ => trivial⟩ fun _ => ⟨.inl hreg, fun _ => trivial⟩

theorem setPdRx_issues (on : Bool) : Issues Keeping (setPdRx on).run := by
  have hreg : regPdCntl1 ≠ regCcCntl3 := by decide
  exact ⟨.inl hreg, fun _ => trivial⟩

theorem setPolarity_issues (polarity : Polarity) : Issues Keeping (setPolarity polarity).run :=
  ⟨fun _ h => h, fun _ => trivial⟩

/-- The transmit buffer lies above the control registers. -/
theorem transmitLocked_issues (type : TransmitType) (header : BitVec 16) (payload : List (BitVec 8)) :
    Issues Keeping (transmitLocked type header payload).run := by
  have hrequest : regTxReq ≠ regCcCntl3 := by decide
  have hheader : ¬ regTxHeader ≤ regCcCntl3 := by decide
  have hpayload : ¬ regTxPayload ≤ regCcCntl3 := by decide
  have hreset : regPdCntl4 ≠ regCcCntl3 := by decide
  cases type with
  | hardReset => exact ⟨hreset, fun _ => trivial⟩
  | other => trivial
  | message sop =>
    refine Issues.run_bind ⟨hheader, fun _ => trivial⟩ fun _ => ?_
    split
    · refine Issues.run_bind ⟨hpayload, fun _ => trivial⟩ fun _ => ?_
      exact ⟨.inl hrequest, fun _ => trivial⟩
    · exact ⟨.inl hrequest, fun _ => trivial⟩

theorem Call.task_wp (c : Call) :
    c.task.wp Admitted (Monitor.idle chip) Guarded (fun _ _ => True) () := by
  cases c with
  | setCc cc => exact setCc_wp cc
  | startToggling portType cc => exact startToggling_wp portType cc
  | setVbus on => exact setVbus_wp on
  | setPolarity polarity => exact wp_interruptible (setPolarity_issues polarity)
  | setVconn on => exact wp_interruptible (setVconn_issues on)
  | setPdRx on => exact wp_interruptible (setPdRx_issues on)
  | setRoles source host => exact wp_interruptible (setRoles_issues source host)
  | transmit type header payload =>
    exact wp_atomic_of_keeps (keeps_of_issues (transmitLocked_issues type header payload))
  | irq => exact irq_wp

theorem Call.thread_wp (c : Call) :
    c.thread.wp Admitted (Monitor.idle chip) Guarded (fun _ _ => True) () := by
  unfold Call.thread
  rw [Thread.wp_bind]
  exact Thread.wp_mono c.task_wp fun _ _ _ => trivial

/-! ## Every state that is reached -/

/-- The code ends with nothing held, if its register accesses succeed. -/
def Releases (x : Code Unit) (s : State) : Prop :=
  wp Admitted (Monitor.idle chip) x.run (fun _ _ s' => hold s' = 0) () s

/-- What the flag is for: the partner's `PS_RDY` releases what is held. -/
theorem endSwap_releases {s : State} (h : Guarded s) : Releases endSwap s := by
  unfold Releases endSwap
  apply wp_load_seq
  split
  · refine wp_run_attempt_seq (P := fun _ _ s' => hold s' = 0) ?_ fun r _ s' hzero => ?_
    · exact wp_setCcHold fun _ => (hold_setCcHold s 0).trans (by decide)
    · split
      · exact hzero
      · exact fun _ _ => ⟨trivial, hzero⟩
  next hflag =>
    by_contra hne
    exact hflag (h hne)

/-- **The CC freeze is always released.** Let calls and interrupts interleave in any way, with register
accesses that succeed and a CC state that is only frozen while the flag is set. A hold is then always
guarded by the flag, and `PS_RDY`, an open port and a toggling one release it. -/
theorem hold_guarded {s₀ : State} (h₀ : hold s₀ = 0) {c : Pool chip}
    (hc : Pool.Reachable Starts Admitted s₀ c) :
    Guarded c.shared ∧ Releases endSwap c.shared ∧ Releases setCcOpen c.shared ∧
      Releases toggleDrp c.shared := by
  have hstart : ∀ t, Starts t →
      t.wp Admitted (Monitor.idle chip) Guarded (fun _ _ => True) () := by
    rintro t ⟨call, rfl⟩
    exact call.thread_wp
  have hguarded : Guarded c.shared := (hc.inv (guarded_of_hold h₀) hstart).1
  exact ⟨hguarded, endSwap_releases hguarded, setCcOpen_releases _, toggleDrp_releases _⟩

/-- A port without a partner, at rest. -/
def atRest : State := ⟨⟨false, .cc1, false, false⟩, fun _ => 0⟩

/-- An interrupt that finds this control message, with a sink attached. -/
def receiving (type : BitVec 8) : Nat → Input
  | 0 => { data := fun n => if n = 3 then 0x01 else 0 }
  | 1 => { data := fun n => if n = 0 then type else 0 }
  | 3 => { value := ccAttachSink }
  | _ => {}

/-- A swap is asked for, and the port manager takes VBUS away. -/
def swapBegins : List (Pool.Move chip) :=
  [.start Call.irq.thread, .run 0 (receiving 10), .start (Call.setVbus false).thread,
    .run 0 fun _ => {}]

/-- The same, up to the end of the locked section. -/
def swapFreezes : List (Pool.Move chip) := swapBegins ++ [.run 0 fun _ => {}]

theorem hold_guarded_swapFreezes :
    hold (Pool.play swapFreezes ⟨atRest, []⟩).shared = 0x20 ∧
      Guarded (Pool.play swapFreezes ⟨atRest, []⟩).shared := by
  have hrest : hold atRest = 0 := by decide
  refine ⟨by decide, (hold_guarded hrest (.play .init ?_)).1⟩
  exact ⟨⟨.irq, rfl⟩, by decide, ⟨.setVbus false, rfl⟩, by decide, by decide, trivial⟩

/-- The partner's supply is ready between the test and the locked section, and all calls go on to their
ends. -/
def swapOvertakes : List (Pool.Move chip) :=
  swapBegins ++ [.start Call.irq.thread, .run 0 (receiving 6), .run 1 fun _ => {}, .run 1 fun _ => {},
    .run 1 fun _ => {}, .run 1 fun _ => {}, .run 1 fun _ => {}]

/-- Then the freeze is left behind without a guard: the flag was cleared before it was written. -/
theorem hold_left_frozen :
    Pool.Reachable Starts Succeeds atRest (Pool.play swapOvertakes ⟨atRest, []⟩) ∧
      hold atRest = 0 ∧ (Pool.play swapOvertakes ⟨atRest, []⟩).finished ∧
      ¬ Guarded (Pool.play swapOvertakes ⟨atRest, []⟩).shared := by
  refine ⟨.play .init ?_, by decide, by decide, ?_⟩
  · exact ⟨⟨.irq, rfl⟩, by decide, ⟨.setVbus false, rfl⟩, by decide, ⟨.irq, rfl⟩, by decide, by decide,
      by decide, by decide, by decide, by decide, trivial⟩
  · unfold Guarded
    decide

end Gts9Wifi.Typec.Sm5714Usbpd
