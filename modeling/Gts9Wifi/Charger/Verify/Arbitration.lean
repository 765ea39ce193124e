import Gts9Wifi.Charger.Verify.Otg
import Gts9Wifi.Charger.Verify.Thermal

/-!
# Arbitration between the two charging paths

While direct charging is granted the switching path has to stay open and the boost off (`Arbitrated`).
The contract callback and `set_otg` respect that. Three calls need not: a poll whose sample moves the
thermal state re-programs the charger, and so does a change of the fast-charge switch, both without
looking at `direct_charging`; and direct charging is granted without looking at `otg_active`.
`PathKept` is the exact condition under which a call keeps `Arbitrated`, register accesses succeeding.
-/

namespace Gts9Wifi.Charger.Sm5714

open Driver

/-- While direct charging is granted, Q4 is open and the boost is off. -/
def Arbitrated (s : State) : Prop :=
  s.mem.bat.directCharging = true → ¬ q4Closed s ∧ s.mem.bat.otgActive = false

/-- A call and what its operations meet. -/
structure Step where
  call : Call
  inputs : Nat → Input

/-- The board after the call, run on its own. -/
def arbStep (c : Step) (s : State) : State := (c.call.task.seq.run board c.inputs s).2

def Step.trace (c : Step) (s : State) : List (Event board) :=
  c.call.task.seq.trace board c.inputs s

/-- Every register access of the call succeeds. -/
def AccessesSucceed (c : Step) (s : State) : Prop := ∀ e ∈ c.trace s, Succeeds e

/-- The condition under which a call keeps the paths apart: while direct charging is granted, a poll
takes no sample that moves the thermal state, or it ends at `STOP`; a change of the fast-charge
switch ends at `STOP`; and direct charging is not granted, at a temperature that allows it, while
the boost is on. -/
def PathKept (c : Step) (s : State) : Prop :=
  match c.call with
  | .poll => s.mem.bat.directCharging = true →
      (∀ t ∈ samples (c.trace s),
        chargeThermalState s.mem.bat.thermalState t = s.mem.bat.thermalState) ∨
      thermalAfter (samples (c.trace s)) s.mem.bat.thermalState = .stop
  | .fastCharge (some enabled) => s.mem.bat.directCharging = true →
      s.mem.bat.fastCharge ≠ enabled →
      thermalAfter (samples (c.trace s)) s.mem.bat.thermalState = .stop
  | .directCharge true => s.mem.primary = true → s.mem.bat.otgActive = true →
      ∀ t ∈ samples (c.trace s), t < 100 ∨ 420 ≤ t
  | _ => True

/-! ## Calls that leave the flag alone -/

/-- The battery structure and the charger are as before. -/
def Same (s s' : State) : Prop := s'.mem.bat = s.mem.bat ∧ s'.chg = s.chg

theorem Arbitrated.of_same {s s' : State} (h : Arbitrated s) (hsame : Same s s') : Arbitrated s' := by
  obtain ⟨hbat, hchg⟩ := hsame
  intro hdirect
  rw [hbat] at hdirect ⊢
  obtain ⟨hopen, hotg⟩ := h hdirect
  exact ⟨fun hq => hopen ((q4Closed_congr (congrFun hchg _)).1 hq), hotg⟩

theorem KeepsDirect.frame {o : Op} (h : KeepsDirect o) (i : Input) (s : State) :
    (handle o i s).2.mem.bat.directCharging = s.mem.bat.directCharging := by
  cases o with
  | store f => exact h s.mem
  | _ => rw [handle_mem (by nofun)]

theorem run_keeps_direct {α : Type} {p : Code α} (h : Issues KeepsDirect p) (ι : Nat → Input)
    (s : State) :
    (p.run board ι s).2.mem.bat.directCharging = s.mem.bat.directCharging := by
  have hwp := h.wp (W := board) (A := fun _ => True) (M := Monitor.idle board) (m := ())
    (J := fun _ s' => s'.mem.bat.directCharging = s.mem.bat.directCharging)
    (fun o ho i _ s' _ hs' => ⟨trivial, (ho.frame i s').trans hs'⟩) rfl
  exact (wp_sound hwp ι fun _ _ => trivial).2

theorem keepsDirect_of_spares {α : Type} {t : Task α} (h : t.Each Spares) :
    t.Each fun _ => Issues KeepsDirect :=
  h.imp fun _ _ hp => hp.1.mono fun _ => Charging.keepsDirect

theorem chgUpdateBits_keepsDirect (r : ChgReg) (mask val : BitVec 8) :
    Issues KeepsDirect (chgUpdateBits r mask val).run := by
  unfold chgUpdateBits
  refine Issues.run_bind ⟨trivial, fun _ => trivial⟩ fun old => ?_
  dsimp only
  split
  · trivial
  · exact ⟨trivial, fun _ => trivial⟩

theorem muicSetOtgPath_keepsDirect (active : Bool) :
    Issues KeepsDirect (muicSetOtgPath active).run := by
  refine (muicSetOtgPath_onMuic active).mono fun o ho => ?_
  cases o <;> trivial

theorem otgEnableSection_keepsDirect : Issues KeepsDirect otgEnableSection.run := by
  unfold otgEnableSection
  refine Issues.run_bind (Issues.run_attempt ?_) fun ret => ?_
  · refine Issues.run_bind (muicSetOtgPath_keepsDirect true) fun _ => ?_
    refine Issues.run_bind (chgUpdateBits_keepsDirect _ _ _) fun _ => ?_
    exact Issues.run_bind (chgUpdateBits_keepsDirect _ _ _) fun _ => chgUpdateBits_keepsDirect _ _ _
  split
  · exact Issues.run_lift ⟨fun _ => rfl, fun _ => trivial⟩
  · exact Issues.run_bind (Issues.run_attempt (muicSetOtgPath_keepsDirect false)) fun _ => trivial

theorem otgDisableSection_keepsDirect : Issues KeepsDirect otgDisableSection.run := by
  unfold otgDisableSection
  refine Issues.run_bind (chgUpdateBits_keepsDirect _ _ _) fun _ => ?_
  refine Issues.run_bind (Issues.run_lift ⟨fun _ => rfl, fun _ => trivial⟩) fun _ => ?_
  exact muicSetOtgPath_keepsDirect false

theorem setOtg_keepsDirect (active : Bool) :
    (setOtg active).Each fun _ => Issues KeepsDirect := by
  unfold setOtg setOtgLocked
  refine (keepsDirect_of_spares lockGlobal_spares).bind fun _ => ?_
  refine Thread.Each.bind ?_ fun ret => (keepsDirect_of_spares unlockGlobal_spares).bind fun _ => ?_
  · refine (keepsDirect_of_spares spares_load).bind fun m => ?_
    split
    · trivial
    refine (keepsDirect_of_spares spares_load).bind fun m => ?_
    split
    · trivial
    split
    · refine Thread.Each.bind ?_ fun _ => trivial
      unfold otgEnable
      refine (keepsDirect_of_spares spares_load).bind fun m => ?_
      split
      · trivial
      refine (keepsDirect_of_spares (spares_quiet getOnlineRaw_quiet)).bind fun r => ?_
      split
      · trivial
      · trivial
      · exact Thread.Each.atomic otgEnableSection_keepsDirect
    · unfold otgDisable
      refine Thread.Each.bind (Thread.Each.atomic otgDisableSection_keepsDirect) fun r => ?_
      split
      · trivial
      · exact (keepsDirect_of_spares (spares_quiet getOnlineRaw_quiet)).bind fun _ => trivial
  · split
    · trivial
    · trivial
    · exact keepsDirect_of_spares spares_configure

/-- Only `set_direct_charge` moves `direct_charging`. -/
theorem task_keepsDirect {c : Call} (h : ∀ active, c ≠ .directCharge active) :
    Issues KeepsDirect c.task.seq := by
  apply Thread.Each.seq_issues
  cases c with
  | directCharge active => exact absurd rfl (h active)
  | otg active => exact (setOtg_keepsDirect active).bind fun _ => trivial
  | pdContract mv ma => exact (keepsDirect_of_spares (setPdContract_spares mv ma)).bind fun _ => trivial
  | poll => exact keepsDirect_of_spares pollWork_spares
  | fastCharge parsed => exact (keepsDirect_of_spares (fastChargeStore_spares parsed)).bind fun _ => trivial

/-! ## Calls while direct charging is granted -/

section

variable {A : Event board → Prop} {m : List Int} {s : State}

/-- `set_otg` refuses: enabling is busy, disabling finds the flag clear. -/
theorem setOtg_of_direct (hdirect : s.mem.bat.directCharging = true)
    (hotg : s.mem.bat.otgActive = false) (active : Bool) :
    wp A (Monitor.idle board) (setOtg active).seq (fun _ _ s' => Same s s') () s := by
  have hlocked : ∀ {s₁ : State}, s₁.mem.bat = s.mem.bat →
      wp A (Monitor.idle board) (setOtgLocked active).seq
        (fun r _ s' => s' = s₁ ∧ r ≠ .ok true) () s₁ := by
    intro s₁ hbat
    unfold setOtgLocked
    apply wp_thread_load
    refine Thread.wp_seq_ite (fun _ => ⟨rfl, fun h => nomatch h⟩) fun _ => ?_
    apply wp_thread_load
    rw [hbat, hotg]
    cases active with
    | false => exact ⟨rfl, fun h => nomatch h⟩
    | true =>
      simp only [Bool.true_eq_false, ↓reduceIte]
      unfold otgEnable
      rw [Thread.seq_bind, wp_bind, Thread.seq_bind, Thread.seq_interruptible, wp_bind]
      refine wp_load ?_
      rw [hbat, if_pos hdirect]
      exact ⟨rfl, fun h => nomatch h⟩
  unfold setOtg
  apply wp_lockGlobal
  refine Thread.wp_seq_bind (hlocked rfl) ?_
  intro r _ _ hpost
  obtain ⟨rfl, hr⟩ := hpost
  apply wp_unlockGlobal
  match r, hr with
  | .error e, _ => exact ⟨rfl, rfl⟩
  | .ok false, _ => exact ⟨rfl, rfl⟩
  | .ok true, hr => exact absurd rfl hr

/-- What a contract callback does while direct charging is granted: the contract is recorded, if it
is in range and the driver is bound, and nothing else happens. -/
structure ContractNoted (mv ma : Nat) (s : State) (r : Except Errno Unit) (s' : State) : Prop where
  chg : s'.chg = s.chg
  refused : contractInRange mv ma = false → r = .error .erange ∧ s'.mem.bat = s.mem.bat
  unbound : contractInRange mv ma = true → s.mem.primary = false →
    r = .error .eprobeDefer ∧ s'.mem.bat = s.mem.bat
  noted : contractInRange mv ma = true → s.mem.primary = true →
    r = .ok () ∧ s'.mem.bat = (Battery.setTypec mv ma s.mem).bat

theorem ContractNoted.otg {mv ma : Nat} {s s' : State} {r : Except Errno Unit} (h : ContractNoted mv ma s r s') :
    s'.mem.bat.otgActive = s.mem.bat.otgActive := by
  cases hrange : contractInRange mv ma with
  | false => rw [(h.refused hrange).2]
  | true =>
    cases hp : s.mem.primary with
    | false => rw [(h.unbound hrange hp).2]
    | true =>
      rw [(h.noted hrange hp).2]
      rfl

theorem setPdContract_of_direct (hdirect : s.mem.bat.directCharging = true) (mv ma : Nat) :
    wp A (Monitor.idle board) (setPdContract mv ma).seq (fun r _ s' => ContractNoted mv ma s r s') () s := by
  have hlocked : ∀ {s₁ : State}, s₁.mem.bat = s.mem.bat →
      wp A (Monitor.idle board) (setPdContractLocked mv ma).seq (fun r _ s' => s'.chg = s₁.chg ∧
        (s₁.mem.primary = false → r = .error .eprobeDefer ∧ s'.mem.bat = s₁.mem.bat) ∧
        (s₁.mem.primary = true →
          r = .ok () ∧ s'.mem.bat = (Battery.setTypec mv ma s₁.mem).bat)) () s₁ := by
    intro s₁ hbat
    unfold setPdContractLocked
    apply wp_thread_load
    refine Thread.wp_seq_ite (fun hp => ⟨rfl, fun _ => ⟨rfl, rfl⟩, fun h => absurd h hp⟩) fun hp => ?_
    have hbound : s₁.mem.primary = false → False := fun h => hp (by rw [h]; exact Bool.false_ne_true)
    have hdone : ∀ s', s' = s₁.setMem (Battery.setTypec mv ma) →
        s'.chg = s₁.chg ∧
        (s₁.mem.primary = false → (.ok () : Except Errno Unit) = .error .eprobeDefer ∧
          s'.mem.bat = s₁.mem.bat) ∧
        (s₁.mem.primary = true → (.ok () : Except Errno Unit) = .ok () ∧
          s'.mem.bat = (Battery.setTypec mv ma s₁.mem).bat) := by
      rintro _ rfl
      exact ⟨rfl, fun h => (hbound h).elim, fun _ => ⟨rfl, rfl⟩⟩
    apply wp_thread_store
    refine Thread.wp_seq_ite (fun _ => hdone _ rfl) fun _ => ?_
    rw [Thread.seq_bind, Thread.seq_interruptible, wp_bind]
    have hquiet : wp A (Monitor.idle board) getOnline.run
        (fun _ _ s' => s' = s₁.setMem (Battery.setTypec mv ma)) ()
        (s₁.setMem (Battery.setTypec mv ma)) := by
      refine getOnline_quiet.wp (W := board) (J := fun _ s' => s' = _) (fun o ho i _ s' _ h => ?_) rfl
      exact ⟨trivial, (ho.reads.frame i s').trans h⟩
    refine wp_mono hquiet ?_
    rintro online _ _ rfl
    refine Thread.wp_seq_ite (fun _ => hdone _ rfl) fun _ => ?_
    apply wp_thread_load
    have hd : (s₁.setMem (Battery.setTypec mv ma)).mem.bat.directCharging = true := by
      rw [← hdirect, ← hbat]
      rfl
    rw [if_pos hd]
    exact hdone _ rfl
  unfold setPdContract
  refine Thread.wp_seq_ite (fun hr => ?_) fun hr => ?_
  · have hrange : contractInRange mv ma = false := Bool.eq_false_iff.2 hr
    exact ⟨rfl, fun _ => ⟨rfl, rfl⟩, fun h => absurd (hrange.symm.trans h) Bool.false_ne_true,
      fun h => absurd (hrange.symm.trans h) Bool.false_ne_true⟩
  apply wp_lockGlobal
  refine Thread.wp_seq_bind (hlocked rfl) ?_
  intro r _ s' hpost
  obtain ⟨hchg, hunbound, hnoted⟩ := hpost
  exact wp_unlockGlobal ⟨hchg, fun h => absurd (not_not.1 hr) (by rw [h]; exact Bool.false_ne_true),
    fun _ => hunbound, fun _ => hnoted⟩

/-- The fast-charge switch re-programs the charger when it changes. -/
theorem fastChargeStore_spec (hA : ¬ Faulty A) (hotg : s.mem.bat.otgActive = false)
    (enabled : Bool) :
    wp A sampleMonitor (fastChargeStore (some enabled)).seq (fun _ m' s' =>
      s.mem.bat.fastCharge = enabled ∧ s' = s ∨
      s.mem.bat.fastCharge ≠ enabled ∧ s'.mem.bat.otgActive = false ∧
        ∃ l, m' = m ++ l ∧
          (q4Closed s' ↔ thermalAfter l s.mem.bat.thermalState ≠ .stop)) m s := by
  unfold fastChargeStore
  dsimp only
  apply wp_thread_load
  refine Thread.wp_seq_ite (fun h => .inl ⟨h, rfl⟩) fun hne => ?_
  apply wp_thread_store
  refine Thread.wp_seq_atomic (configureCharging_ok hA hotg) ?_
  intro _ _ s' hpost
  obtain ⟨-, l, rfl, hc⟩ := hpost
  refine .inr ⟨hne, ?_, l, rfl, hc.q4⟩
  rw [hc.mem]
  exact hotg

/-- Granting direct charging: refused outside 10.0 C to 42.0 C, otherwise Q4 is open afterwards. The
boost is not looked at. -/
theorem grantDirectCharge_spec (hA : ¬ Faulty A) :
    wp A sampleMonitor grantDirectCharge.seq (fun _ m' s' => ∃ t, m' = m ++ [t] ∧
      ((t < 100 ∨ 420 ≤ t) ∧ s' = s ∨
        ¬ (t < 100 ∨ 420 ≤ t) ∧ s'.mem.bat = (Battery.setDirect true s.mem).bat ∧ ¬ q4Closed s')) m s := by
  unfold grantDirectCharge
  apply Thread.wp_seq_interruptible getTemp_spec
  intro r _ _ hpost
  obtain ⟨⟨rfl, rfl⟩, hfail⟩ := hpost
  cases r with
  | error e => exact absurd (hfail rfl) hA
  | ok t =>
  dsimp only
  refine Thread.wp_seq_ite (fun h => ⟨t, rfl, .inl ⟨h, rfl⟩⟩) fun h => ?_
  apply wp_thread_store
  rw [Thread.seq_bind, Thread.seq_atomic, wp_bind]
  refine wp_chgUpdateBits rfl (fun hF _ => absurd hF hA) ?_
  refine ⟨t, rfl, .inr ⟨h, rfl, fun hq => ?_⟩⟩
  rw [q4Closed_update] at hq
  exact hq rfl

theorem setDirectCharge_true_spec (hA : ¬ Faulty A) :
    wp A sampleMonitor (setDirectCharge true).seq (fun _ m' s' =>
      s.mem.primary = false ∧ m' = m ∧ Same s s' ∨
      s.mem.primary = true ∧ ∃ t, m' = m ++ [t] ∧
        ((t < 100 ∨ 420 ≤ t) ∧ Same s s' ∨
          ¬ (t < 100 ∨ 420 ≤ t) ∧ s'.mem.bat = (Battery.setDirect true s.mem).bat ∧
            ¬ q4Closed s')) m s := by
  refine wp_setDirectCharge (fun i hp => .inl ⟨hp, rfl, rfl, rfl⟩) fun i hp => ?_
  refine wp_mono (grantDirectCharge_spec hA) ?_
  intro r _ s' hpost
  obtain ⟨t, rfl, hs'⟩ := hpost
  refine .inr ⟨hp, t, rfl, ?_⟩
  rcases hs' with ⟨h, rfl⟩ | ⟨h, hbat, hopen⟩
  · exact .inl ⟨h, rfl, rfl⟩
  · exact .inr ⟨h, hbat, hopen⟩

/-- Revoking direct charging clears the flag, whatever else happens. -/
theorem setDirectCharge_false_spec :
    wp A (Monitor.idle board) (setDirectCharge false).seq (fun _ _ s' =>
      Same s s' ∨ s'.mem.bat.directCharging = false) () s := by
  refine wp_setDirectCharge (fun i _ => .inl ⟨rfl, rfl⟩) fun i _ => ?_
  simp only [Bool.false_eq_true, ↓reduceIte]
  unfold revokeDirectCharge
  apply wp_thread_store
  refine wp_mono (Issues.wp (W := board) (P := KeepsDirect)
    (J := fun _ s' => s'.mem.bat.directCharging = false) ?_
    (fun o ho i _ s' _ hs' => ⟨trivial, (ho.frame i s').trans hs'⟩) rfl) ?_
  · apply Thread.Each.seq_issues
    refine keepsDirect_of_spares ((spares_quiet getOnline_quiet).bind fun online => ?_)
    exact Thread.Each.ite spares_configure trivial
  · intro r _ s' hs'
    exact .inr hs'

end

/-! ## One call, and runs of calls -/

section

variable {s : State} {ι : Nat → Input}

/-- What is proved about the function a call runs holds of the call. -/
theorem arbStep_sound {M : Monitor board} {m : M.St} {α : Type} {t : Task α} {c : Step}
    (ht : c.call.task = t >>= fun _ => pure ()) {Q : M.St → State → Prop}
    (hwp : wp Succeeds M t.seq (fun _ m s => Q m s) m s) (hok : AccessesSucceed c s) :
    Q (M.after m (c.trace s)) (arbStep c s) := by
  have hwp' : wp Succeeds M c.call.task.seq (fun _ m s => Q m s) m s := by
    rw [ht, Thread.seq_bind, wp_bind]
    exact hwp
  exact (wp_sound hwp' c.inputs hok).2

/-- Calls while direct charging is not granted can only break the arbitration by granting it. -/
theorem arbitrated_of_not_direct {c : Step} (hcall : ∀ active, c.call ≠ .directCharge active)
    (hdirect : s.mem.bat.directCharging = false) : Arbitrated (arbStep c s) := by
  intro h
  have hkeep := run_keeps_direct (task_keepsDirect hcall) c.inputs s
  unfold arbStep at h
  rw [hkeep, hdirect] at h
  exact absurd h Bool.false_ne_true

theorem pathKept_poll_iff (hok : AccessesSucceed ⟨.poll, ι⟩ s)
    (hdirect : s.mem.bat.directCharging = true) (hopen : ¬ q4Closed s)
    (hotg : s.mem.bat.otgActive = false) :
    PathKept ⟨.poll, ι⟩ s ↔ Arbitrated (arbStep ⟨.poll, ι⟩ s) := by
  obtain ⟨hdirect', hotg'⟩ := run_keeps_flags pollWork_charging ι s
  obtain ⟨-, l, hl, hp⟩ := wp_sound (pollWork_spec (m := []) not_faulty_succeeds hotg) ι hok
  have hsamples : samples ((⟨.poll, ι⟩ : Step).trace s) = l := hl
  have harb : Arbitrated (arbStep ⟨.poll, ι⟩ s) ↔ ¬ q4Closed (arbStep ⟨.poll, ι⟩ s) :=
    ⟨fun h => (h (hdirect'.trans hdirect)).1, fun h _ => ⟨h, hotg'.trans hotg⟩⟩
  have hp' : Polled s (arbStep ⟨.poll, ι⟩ s) l := hp
  rw [harb]
  unfold PathKept
  dsimp only
  rw [hsamples]
  cases hp' with
  | offline hth hq4 => exact iff_of_true (fun _ => .inl fun t ht => nomatch ht) fun h => hopen (hq4 h)
  | kept t ht hth hq4 =>
    refine iff_of_true (fun _ => .inl fun t' ht' => ?_) fun h => hopen (hq4.1 h)
    rw [List.mem_singleton.1 ht']
    exact ht
  | reprogrammed t l ht hth hq4 =>
    rw [hq4, not_not]
    constructor
    · intro h
      rcases h hdirect with hkeep | hstop
      · have hfalse := (ht (hkeep t List.mem_cons_self)).2
        exact absurd (hfalse.symm.trans hdirect) Bool.false_ne_true
      · exact hstop
    · exact fun h _ => .inr h

theorem pathKept_fastCharge_iff {enabled : Bool}
    (hok : AccessesSucceed ⟨.fastCharge (some enabled), ι⟩ s) (hs : Arbitrated s)
    (hdirect : s.mem.bat.directCharging = true) :
    PathKept ⟨.fastCharge (some enabled), ι⟩ s ↔
      Arbitrated (arbStep ⟨.fastCharge (some enabled), ι⟩ s) := by
  obtain ⟨hopen, hotg⟩ := hs hdirect
  have hkeep : (arbStep ⟨.fastCharge (some enabled), ι⟩ s).mem.bat.directCharging = true :=
    (run_keeps_direct (task_keepsDirect fun _ => Call.noConfusion) ι s).trans hdirect
  have hspec := arbStep_sound rfl (fastChargeStore_spec (m := []) not_faulty_succeeds hotg enabled) hok
  rcases hspec with ⟨heq, hsame⟩ | ⟨hne, hotg', l, hl, hq4⟩
  · refine iff_of_true (fun _ hne => absurd heq hne) ?_
    rw [hsame]
    exact hs
  · have hsamples : samples ((⟨.fastCharge (some enabled), ι⟩ : Step).trace s) = l := hl
    unfold PathKept
    dsimp only
    rw [hsamples]
    constructor
    · intro h _
      exact ⟨fun hq => hq4.1 hq (h hdirect hne), hotg'⟩
    · intro h _ _
      by_contra hstop
      exact (h hkeep).1 (hq4.2 hstop)

theorem pathKept_grant_iff (hok : AccessesSucceed ⟨.directCharge true, ι⟩ s) (hs : Arbitrated s) :
    PathKept ⟨.directCharge true, ι⟩ s ↔ Arbitrated (arbStep ⟨.directCharge true, ι⟩ s) := by
  have hspec := arbStep_sound rfl (setDirectCharge_true_spec (m := []) not_faulty_succeeds) hok
  unfold PathKept
  dsimp only
  rcases hspec with ⟨hp, -, hsame⟩ | ⟨hp, t, ht, h⟩
  · refine iff_of_true (fun hp' => ?_) (hs.of_same hsame)
    exact absurd (hp.symm.trans hp') Bool.false_ne_true
  have hsamples : samples ((⟨.directCharge true, ι⟩ : Step).trace s) = [t] := ht
  rw [hsamples]
  rcases h with ⟨hrange, hsame⟩ | ⟨hrange, hbat, hopen⟩
  · refine iff_of_true (fun _ _ t' ht' => ?_) (hs.of_same hsame)
    rw [List.mem_singleton.1 ht']
    exact hrange
  · unfold Arbitrated
    rw [hbat]
    constructor
    · intro h _
      refine ⟨hopen, ?_⟩
      by_contra hotg
      exact hrange (h hp (Bool.of_not_eq_false hotg) t (List.mem_singleton.2 rfl))
    · intro h _ hotg
      exact absurd ((h rfl).2.symm.trans hotg) Bool.false_ne_true

/-- A call from a state in which the paths are apart keeps them apart precisely under `PathKept`. -/
theorem pathKept_iff {c : Step} (hok : AccessesSucceed c s) (hs : Arbitrated s) :
    PathKept c s ↔ Arbitrated (arbStep c s) := by
  obtain ⟨call, ι⟩ := c
  by_cases hgrant : ∃ active, call = .directCharge active
  · obtain ⟨active, rfl⟩ := hgrant
    cases active with
    | true => exact pathKept_grant_iff hok hs
    | false =>
      refine iff_of_true trivial ?_
      rcases arbStep_sound rfl setDirectCharge_false_spec hok with hsame | hdirect
      · exact hs.of_same hsame
      · exact fun h => absurd (hdirect.symm.trans h) Bool.false_ne_true
  have hcall : ∀ active, call ≠ .directCharge active := fun active h => hgrant ⟨active, h⟩
  by_cases hdirect : s.mem.bat.directCharging = true
  swap
  · refine iff_of_true ?_ (arbitrated_of_not_direct hcall (Bool.eq_false_iff.2 hdirect))
    cases call with
    | poll => exact fun h => absurd h hdirect
    | fastCharge parsed =>
      cases parsed with
      | none => trivial
      | some enabled => exact fun h => absurd h hdirect
    | directCharge active => exact absurd rfl (hcall active)
    | otg | pdContract => trivial
  obtain ⟨hopen, hotg⟩ := hs hdirect
  cases call with
  | directCharge active => exact absurd rfl (hcall active)
  | poll => exact pathKept_poll_iff hok hdirect hopen hotg
  | fastCharge parsed =>
    cases parsed with
    | none => exact iff_of_true trivial hs
    | some enabled => exact pathKept_fastCharge_iff hok hs hdirect
  | otg active =>
    exact iff_of_true trivial (hs.of_same (arbStep_sound rfl (setOtg_of_direct hdirect hotg active) hok))
  | pdContract mv ma =>
    have hspec := wp_mono (setPdContract_of_direct (A := Succeeds) hdirect mv ma)
      fun _ _ s' h => (⟨h.otg, h.chg⟩ : s'.mem.bat.otgActive = _ ∧ s'.chg = s.chg)
    obtain ⟨hotg', hchg⟩ := arbStep_sound rfl hspec hok
    refine iff_of_true trivial fun _ => ⟨fun hq => hopen ?_, hotg'.trans hotg⟩
    exact (q4Closed_congr (congrFun hchg _)).1 hq

end

/-- **Path arbitration.** In a run of calls in any order whose register accesses all succeed, started
with the paths apart, they are apart in every state of the run precisely when every call meets
`PathKept`. -/
theorem arbitrated_iff_pathKept {steps : List Step} {s : State} (h0 : Arbitrated s)
    (hok : Meets arbStep AccessesSucceed steps s) :
    (∀ pre, pre <+: steps → Arbitrated (runFrom arbStep pre s)) ↔ Meets arbStep PathKept steps s :=
  meets_iff_prefix (fun _ _ hok hs => pathKept_iff hok hs) hok h0

/-- A call with the cable in, at 25.0 C, whose accesses all succeed. -/
def calm (call : Call) : Step := ⟨call, fun _ => { byte := 0x01, val := 25000 }⟩

theorem calm_succeeds (call : Call) (s : State) : AccessesSucceed (calm call) s := by
  intro e he _
  obtain ⟨n, hn⟩ := Prog.exists_input_of_mem_trace he
  rw [hn]
  rfl

theorem arbitrated_probed : Arbitrated .probed := fun h => nomatch h

theorem arbitrated_iff_pathKept_granted :
    Meets arbStep AccessesSucceed
        [calm (.directCharge true), calm (.pdContract 9000 2000), calm .poll] .probed ∧
      ∀ pre, pre <+: [calm (.directCharge true), calm (.pdContract 9000 2000), calm .poll] →
        Arbitrated (runFrom arbStep pre .probed) := by
  have hok : Meets arbStep AccessesSucceed
      [calm (.directCharge true), calm (.pdContract 9000 2000), calm .poll] .probed :=
    ⟨calm_succeeds _ _, calm_succeeds _ _, calm_succeeds _ _, trivial⟩
  refine ⟨hok, (arbitrated_iff_pathKept arbitrated_probed hok).2 ?_⟩
  exact ⟨fun _ h => (nomatch h), trivial, fun _ => .inl (by decide), trivial⟩

/-- Direct charging is granted, then the fast-charge switch is turned on: every access succeeds, and
Q4 is closed while the pump may run. -/
theorem q4_closed_behind_direct :
    Arbitrated .probed ∧
      Meets arbStep AccessesSucceed [calm (.directCharge true), calm (.fastCharge (some true))]
        .probed ∧
      ¬ Arbitrated (runFrom arbStep [calm (.directCharge true), calm (.fastCharge (some true))]
        .probed) := by
  refine ⟨arbitrated_probed, ⟨calm_succeeds _ _, calm_succeeds _ _, trivial⟩, fun h => ?_⟩
  exact (h rfl).1 (by decide)

end Gts9Wifi.Charger.Sm5714
