import Gts9Wifi.Charger.Verify.Sm5440
import Gts9Wifi.Lib.Runs
import Mathlib.Data.List.TakeWhile

/-!
# Handing the pack back to the switching charger

Every failure of the pump driver ends in `sm5440_restore_switching`, which turns the pump off,
returns the port to its fixed contract and then lets the SM5714 close Q4. It ignores whether the
first two succeeded. So the hand-back is safe precisely as far as they do: in a run whose restores
all work, `set_direct_charge(false)` is only entered with the pump off and the port on the fixed
contract, and an inactive driver has the pump off.
-/

namespace Gts9Wifi.Charger.Sm5440

open Driver

/-! ## Vocabulary -/

/-- The operating mode on the chip is off. -/
def PumpOff (s : State) : Prop := s.dc .cntl5 &&& cntl5OpModeMask = 0

/-- The last `ONLINE` write that was accepted did not ask for a programmable contract. -/
def OnFixed (s : State) : Prop := s.tcpm.online ≠ 2

/-- The pump is off and the port is on the fixed contract. -/
def Secured (s : State) : Prop := PumpOff s ∧ OnFixed s

/-- While the driver is inactive, the pump is off and the port is on the fixed contract. -/
def Parked (s : State) : Prop := s.mem.dc.active = false → Secured s

/-- The function an operation enters, if it does. -/
def entered (e : Event board) : Option Fn :=
  match e.op with
  | .enter f => some f
  | _ => none

/-- The access turns the pump off. -/
def TurnsPumpOff (e : Event board) : Prop :=
  match e.op with
  | .dcWrite .cntl5 v => v &&& cntl5OpModeMask = 0 ∧ e.input.fault = none
  | _ => False

/-- The write returns the port to the fixed contract. -/
def ReturnsToFixed (e : Event board) : Prop :=
  match e.op with
  | .psySet .online v => v = 1 ∧ e.input.fault = none
  | _ => False

/-- A restore entered at `e` that issued `mid` has done its two jobs, as far as there was one. -/
structure RestoreWorks (e : Event board) (mid : List (Event board)) : Prop where
  pump : PumpOff e.pre ∨ ∃ x ∈ mid, TurnsPumpOff x
  port : OnFixed e.pre ∨ ∃ x ∈ mid, ReturnsToFixed x

/-- Every restore of the trace works before it calls `set_direct_charge(false)`. -/
def RestoresWork (tr : List (Event board)) : Prop :=
  ∀ pre e mid e' post, tr = pre ++ e :: (mid ++ e' :: post) →
    entered e = some .restoreSwitching → (∀ x ∈ mid, entered x = none) →
    entered e' = some (.setDirectCharge false) → RestoreWorks e mid

/-- `set_direct_charge(false)` is entered with the pump off and the port on the fixed contract. -/
def HandedBack (e : Event board) : Prop :=
  entered e = some (.setDirectCharge false) → Secured e.pre

/-- Judges a hand-back, as long as the restores have worked. -/
abbrev handBackMonitor : Monitor board :=
  Monitor.history fun h e => RestoresWork (h ++ [e]) → HandedBack e

theorem RestoresWork.of_append {h tr : List (Event board)} (hw : RestoresWork (h ++ tr)) :
    RestoresWork h := by
  intro pre e mid e' post hh
  refine hw pre e mid e' (post ++ tr) ?_
  rw [hh]
  simp only [List.append_assoc, List.cons_append]

theorem PumpOff.settle {s : State} (h : PumpOff s) (i : Input) : PumpOff (s.settle i) := by
  unfold PumpOff at h ⊢
  rcases settle_cntl5 s i with hs | hs
  · rw [hs]
    exact h
  · rw [hs, BitVec.and_assoc, BitVec.and_comm (~~~cntl5ChgOn), ← BitVec.and_assoc, h]
    exact BitVec.zero_and

/-! ### The condition, computed -/

instance (s : State) : Decidable (PumpOff s) := inferInstanceAs (Decidable (_ = _))
instance (s : State) : Decidable (OnFixed s) := inferInstanceAs (Decidable (_ ≠ _))
instance (s : State) : Decidable (Secured s) := inferInstanceAs (Decidable (_ ∧ _))

instance : DecidablePred TurnsPumpOff := fun e => by
  unfold TurnsPumpOff
  split <;> infer_instance

instance : DecidablePred ReturnsToFixed := fun e => by
  unfold ReturnsToFixed
  split <;> infer_instance

instance (e : Event board) (mid : List (Event board)) : Decidable (RestoreWorks e mid) :=
  decidable_of_iff ((PumpOff e.pre ∨ ∃ x ∈ mid, TurnsPumpOff x) ∧
    (OnFixed e.pre ∨ ∃ x ∈ mid, ReturnsToFixed x)) ⟨fun h => ⟨h.1, h.2⟩, fun h => ⟨h.pump, h.port⟩⟩

/-- Not the entry of a function. -/
def inside (x : Event board) : Bool := (entered x).isNone

/-- The first operation of a trace, if it is a restore, judged by what follows. -/
def FirstWorks (e : Event board) (tr : List (Event board)) : Prop :=
  entered e = some .restoreSwitching →
    (tr.dropWhile inside).head?.bind entered = some (.setDirectCharge false) →
    RestoreWorks e (tr.takeWhile inside)

theorem restoresWork_cons {e : Event board} {tr : List (Event board)} :
    RestoresWork (e :: tr) ↔ FirstWorks e tr ∧ RestoresWork tr := by
  constructor
  · refine fun h => ⟨fun he hd => ?_, fun pre e₁ mid e' post htr => ?_⟩
    · cases hdrop : tr.dropWhile inside with
      | nil => simp [hdrop] at hd
      | cons e' post =>
        refine h [] e (tr.takeWhile inside) e' post ?_ he (fun x hx => ?_) ?_
        · rw [← hdrop, List.takeWhile_append_dropWhile]
          rfl
        · exact Option.isNone_iff_eq_none.1 (List.mem_takeWhile_imp (p := inside) hx)
        · simpa [hdrop] using hd
    · exact h (e :: pre) e₁ mid e' post (congrArg (e :: ·) htr)
  · intro h pre e₁ mid e' post htr he₁ hmid he'
    obtain ⟨hfirst, hrest⟩ := h
    cases pre with
    | nil =>
      obtain ⟨rfl, rfl⟩ := List.cons.inj htr
      have hin : ∀ x ∈ mid, inside x = true := fun x hx => Option.isNone_iff_eq_none.2 (hmid x hx)
      have hout : inside e' = false := by simp [inside, he']
      have hw := hfirst he₁
      rw [List.takeWhile_append_of_pos hin, List.dropWhile_append_of_pos hin,
        List.takeWhile_cons_of_neg (by simp [hout]), List.dropWhile_cons_of_neg (by simp [hout]),
        List.append_nil] at hw
      exact hw he'
    | cons e₀ pre =>
      obtain ⟨rfl, rfl⟩ := List.cons.inj htr
      exact hrest pre e₁ mid e' post rfl he₁ hmid he'

instance (e : Event board) (tr : List (Event board)) : Decidable (FirstWorks e tr) :=
  inferInstanceAs (Decidable (_ → _ → _))

instance decidableRestoresWork : DecidablePred RestoresWork
  | [] => isTrue fun pre _ _ _ _ h => absurd h.symm (by simp)
  | _ :: tr => @decidable_of_iff' _ _ restoresWork_cons
      (@instDecidableAnd _ _ inferInstance (decidableRestoresWork tr))

/-! ## Operations around a restore -/

/-- What holds between operations outside a restore. -/
def Kept (h : List (Event board)) (s : State) : Prop := RestoresWork h → Parked s

/-- Operations that keep the driver's state, the pump and the port. -/
def Still : Op → Prop
  | .enter f => f ≠ .setDirectCharge false
  | .store f => ∀ m, (f m).dc.active = m.dc.active
  | o => Looks o ∨ OnSm5714 o

/-- Operations that keep the driver's state; no hand-back. -/
def Bystander : Op → Prop
  | .enter f => f ≠ .setDirectCharge false
  | .store f => ∀ m, (f m).dc.active = m.dc.active
  | _ => True

theorem Still.frame {o : Op} (h : Still o) (i : Input) (s : State) :
    ((handle o i s).2.dc = s.dc ∨ (handle o i s).2.dc = (s.settle i).dc) ∧
      (handle o i s).2.tcpm = s.tcpm ∧ (handle o i s).2.mem.dc.active = s.mem.dc.active := by
  cases o with
  | enter f => exact ⟨.inr rfl, rfl, rfl⟩
  | store f => exact ⟨.inl rfl, rfl, h s.mem⟩
  | _ =>
    rcases h with h | h
    · rcases h.frame i s with hs | hs
      · rw [hs]
        exact ⟨.inl rfl, rfl, rfl⟩
      · rw [hs]
        exact ⟨.inr rfl, rfl, rfl⟩
    · obtain ⟨hdc, htcpm, hmem⟩ := h.frame i s
      exact ⟨.inl hdc, htcpm, congrArg Direct.active hmem⟩

theorem Still.secured {o : Op} (h : Still o) {i : Input} {s : State} (hs : Secured s) :
    Secured (handle o i s).2 := by
  obtain ⟨hdc, htcpm, -⟩ := h.frame i s
  obtain ⟨hoff, hfixed⟩ := hs
  refine ⟨?_, ?_⟩
  · rcases hdc with hdc | hdc
    · unfold PumpOff
      rw [hdc]
      exact hoff
    · unfold PumpOff
      rw [hdc]
      exact hoff.settle i
  · unfold OnFixed
    rw [htcpm]
    exact hfixed

theorem Still.parked {o : Op} (h : Still o) {i : Input} {s : State} (hs : Parked s) :
    Parked (handle o i s).2 := by
  obtain ⟨-, -, hactive⟩ := h.frame i s
  exact fun hinactive => h.secured (hs (hactive.symm.trans hinactive))

theorem Still.not_handBack {o : Op} (h : Still o) (i : Input) (s : State) :
    HandedBack ⟨o, i, s⟩ := by
  intro ho
  cases o with
  | enter f => exact absurd (Option.some.inj ho) h
  | _ => cases ho

theorem Bystander.active {o : Op} (h : Bystander o) (i : Input) (s : State) :
    (handle o i s).2.mem.dc.active = s.mem.dc.active := by
  cases o with
  | store f => exact h s.mem
  | _ => rw [handle_mem (by nofun)]

theorem Bystander.not_handBack {o : Op} (h : Bystander o) (i : Input) (s : State) :
    HandedBack ⟨o, i, s⟩ := by
  intro ho
  cases o with
  | enter f => exact absurd (Option.some.inj ho) h
  | _ => cases ho

section

variable {α : Type} {h : List (Event board)} {s : State}

/-- What still operations keep of the board, they keep under the condition on the restores. -/
theorem wp_still_of {K : State → Prop}
    (hK : ∀ {o}, Still o → ∀ {i s}, K s → K (handle o i s).2) {p : Code α} (hp : Issues Still p)
    (hs : RestoresWork h → K s) :
    wp (fun _ => True) handBackMonitor p (fun _ h s => RestoresWork h → K s) h s := by
  refine hp.wp (W := board) (M := handBackMonitor) (J := fun h s => RestoresWork h → K s)
    (fun o ho i h s _ hs => ⟨fun _ => ho.not_handBack i s, fun hw => ?_⟩) hs
  exact hK ho (hs hw.of_append)

theorem wp_still {p : Code α} (hp : Issues Still p) (hs : Kept h s) :
    wp (fun _ => True) handBackMonitor p (fun _ h s => Kept h s) h s :=
  wp_still_of Still.parked hp hs

theorem wp_bystander {p : Code α} (hp : Issues Bystander p) :
    wp (fun _ => True) handBackMonitor p
      (fun _ _ s' => s'.mem.dc.active = s.mem.dc.active) h s := by
  refine hp.wp (W := board) (M := handBackMonitor)
    (J := fun _ s' => s'.mem.dc.active = s.mem.dc.active)
    (fun o ho i h s' _ hs => ⟨fun _ => ho.not_handBack i s', ?_⟩) rfl
  exact (ho.active i s').trans hs

end

/-! ## The restore itself -/

/-- Operations of a restore before its hand-back. -/
def Restoring : Op → Prop
  | .dcRead _ => True
  | .dcWrite r v => r = .cntl5 → v &&& cntl5OpModeMask = 0
  | .psySet prop v => prop = .online ∧ v = 1
  | _ => False

theorem Restoring.pumpOff {o : Op} (h : Restoring o) {i : Input} {s : State}
    (hs : PumpOff s ∨ TurnsPumpOff ⟨o, i, s⟩) : PumpOff (handle o i s).2 := by
  cases o with
  | dcRead r => exact (hs.resolve_right id).settle i
  | dcWrite r v =>
    cases hf : i.fault with
    | some e =>
      simp only [handle, apply_some hf]
      refine (hs.resolve_right fun ht => ?_).settle i
      cases r with
      | cntl5 => cases hf.symm.trans ht.2
      | _ => exact ht
    | none =>
      simp only [handle, apply_none hf]
      unfold PumpOff
      rw [setDc_dc]
      split
      · next hr => exact h hr.symm
      · next hr =>
        refine (hs.resolve_right fun ht => ?_).settle i
        cases r with
        | cntl5 => exact hr rfl
        | _ => exact ht
  | psySet prop v =>
    obtain ⟨rfl, rfl⟩ := h
    have hoff := (hs.resolve_right id).settle i
    cases hf : i.fault with
    | some e =>
      simp only [handle, apply_some hf]
      exact hoff
    | none =>
      simp only [handle, apply_none hf]
      exact hoff
  | _ => exact h.elim

theorem Restoring.onFixed {o : Op} (h : Restoring o) {i : Input} {s : State}
    (hs : OnFixed s ∨ ReturnsToFixed ⟨o, i, s⟩) : OnFixed (handle o i s).2 := by
  cases o with
  | dcRead r => exact hs.resolve_right id
  | dcWrite r v =>
    have hfixed : OnFixed s := hs.resolve_right id
    cases hf : i.fault with
    | some e =>
      simp only [handle, apply_some hf]
      exact hfixed
    | none =>
      simp only [handle, apply_none hf]
      exact hfixed
  | psySet prop v =>
    obtain ⟨rfl, rfl⟩ := h
    cases hf : i.fault with
    | some e =>
      simp only [handle, apply_some hf]
      refine hs.resolve_right fun ht => ?_
      cases hf.symm.trans ht.2
    | none =>
      simp only [handle, apply_none hf]
      show (1 : Int) ≠ 2
      decide
  | _ => exact h.elim

theorem updateBits_restoring {r : DcReg} {mask val : BitVec 8}
    (h : r = .cntl5 → ∀ old, maskedUpdate mask val old &&& cntl5OpModeMask = 0) :
    Issues Restoring (updateBits r mask val).run := by
  unfold updateBits
  exact Issues.run_bind ⟨trivial, fun _ => trivial⟩ fun old => ⟨fun hr => h hr old, fun _ => trivial⟩

theorem psyRetry_restoring : Issues Restoring (psyRetry .online 1).run := by
  unfold psyRetry
  generalize pdRetries = n
  induction n with
  | zero => trivial
  | succ n ih =>
    refine Issues.run_bind (Issues.run_attempt ⟨⟨rfl, rfl⟩, fun _ => trivial⟩) fun r => ?_
    split
    · trivial
    · split
      · exact ih
      · trivial

/-- What a restore entered at `e` has done after it issued `mid`. -/
structure Restored (e : Event board) (mid : List (Event board)) (s : State) : Prop where
  noEntry : ∀ x ∈ mid, entered x = none
  pump : (PumpOff e.pre ∨ ∃ x ∈ mid, TurnsPumpOff x) → PumpOff s
  port : (OnFixed e.pre ∨ ∃ x ∈ mid, ReturnsToFixed x) → OnFixed s

theorem Restored.step {e : Event board} {mid : List (Event board)} {s : State}
    (h : Restored e mid s) {o : Op} (ho : Restoring o) (i : Input) :
    Restored e (mid ++ [⟨o, i, s⟩]) (handle o i s).2 := by
  have hsplit : ∀ {P : Event board → Prop}, (∃ x ∈ mid ++ [⟨o, i, s⟩], P x) →
      (∃ x ∈ mid, P x) ∨ P ⟨o, i, s⟩ := by
    intro P hex
    obtain ⟨x, hx, hP⟩ := hex
    rcases List.mem_append.1 hx with hx | hx
    · exact .inl ⟨x, hx, hP⟩
    · rw [List.mem_singleton.1 hx] at hP
      exact .inr hP
  refine ⟨?_, fun hp => ho.pumpOff ?_, fun hp => ho.onFixed ?_⟩
  · intro x hx
    rcases List.mem_append.1 hx with hx | hx
    · exact h.noEntry x hx
    · rw [List.mem_singleton.1 hx]
      cases o with
      | enter f => exact ho.elim
      | _ => rfl
  · rcases hp with hp | hp
    · exact .inl (h.pump (.inl hp))
    · exact (hsplit hp).imp (fun hx => h.pump (.inr hx)) id
  · rcases hp with hp | hp
    · exact .inl (h.port (.inl hp))
    · exact (hsplit hp).imp (fun hx => h.port (.inr hx)) id

section

variable {α : Type} {h : List (Event board)} {s : State}

/-- A part of a restore before its hand-back. -/
theorem wp_restoring {p : Code α} (hp : Issues Restoring p) {e : Event board}
    {mid : List (Event board)} (hs : Restored e mid s) :
    wp (fun _ => True) handBackMonitor p
      (fun _ h' s' => ∃ mid', h' = h ++ e :: mid' ∧ Restored e mid' s') (h ++ e :: mid) s := by
  refine hp.wp (W := board) (M := handBackMonitor)
    (J := fun h' s' => ∃ mid', h' = h ++ e :: mid' ∧ Restored e mid' s') ?_ ⟨mid, rfl, hs⟩
  rintro o ho i _ s' - ⟨mid', rfl, hs'⟩
  refine ⟨fun _ hop => ?_, mid' ++ [⟨o, i, s'⟩], ?_, hs'.step ho i⟩
  · cases o with
    | enter f => exact ho.elim
    | _ => cases hop
  · simp only [List.append_assoc, List.cons_append]

theorem setDirectChargeBody_still (active : Bool) : Issues Still (setDirectChargeBody active) := by
  refine (setDirectChargeBody_onSm5714 active).mono fun o ho => ?_
  cases o with
  | store f => exact fun m => congrArg Direct.active (ho m)
  | enter f => exact ho.elim
  | _ => exact .inr ho

/-- **Whatever failed before, a restore that works leaves the pump off and the port on its fixed
contract**, and that is so already when it calls `set_direct_charge(false)`. -/
theorem restoreSwitching_spec :
    wp (fun _ => True) handBackMonitor restoreSwitching (fun _ h s => Kept h s) h s := by
  unfold restoreSwitching
  rw [wp_bind]
  refine (wp_perform _ _ _ _).2 fun i _ => ⟨fun _ hop => (nomatch hop), ?_⟩
  have h0 : Restored ⟨.enter .restoreSwitching, i, s⟩ [] (s.settle i) := by
    refine ⟨fun x hx => (nomatch hx), ?_, ?_⟩
    · intro hpump
      rcases hpump with hp | ⟨x, hx, -⟩
      · exact hp.settle i
      · exact nomatch hx
    · intro hport
      rcases hport with hp | ⟨x, hx, -⟩
      · exact hp
      · exact nomatch hx
  refine wp_seq (wp_restoring (updateBits_restoring fun _ old => maskedUpdate_and_mask _ _ _) h0) ?_
  intro _ _ s₁ hmid
  obtain ⟨mid, rfl, h1⟩ := hmid
  apply wp_seq (wp_restoring (updateBits_restoring DcReg.noConfusion) h1)
  intro _ _ s₂ hmid
  obtain ⟨mid, rfl, h2⟩ := hmid
  apply wp_seq (wp_restoring (updateBits_restoring DcReg.noConfusion) h2)
  intro _ _ s₃ hmid
  obtain ⟨mid, rfl, h3⟩ := hmid
  apply wp_seq (wp_restoring psyRetry_restoring h3)
  intro _ _ s₄ hmid
  obtain ⟨mid, rfl, h4⟩ := hmid
  rw [setDirectCharge_seq, wp_bind, wp_bind]
  -- the hand-back: the history up to here contains the restore, so its two jobs are done
  refine (wp_perform _ _ _ _).2 fun j _ => ?_
  have hdone : RestoresWork (h ++ ⟨.enter .restoreSwitching, i, s⟩ :: mid ++
      [⟨.enter (.setDirectCharge false), j, s₄⟩]) → PumpOff s₄ ∧ OnFixed s₄ := by
    intro hw
    have hr := hw h ⟨.enter .restoreSwitching, i, s⟩ mid ⟨.enter (.setDirectCharge false), j, s₄⟩ []
      (by simp only [List.append_assoc, List.cons_append]) rfl h4.noEntry rfl
    exact ⟨h4.pump hr.pump, h4.port hr.port⟩
  refine ⟨fun hw _ => hdone hw, ?_⟩
  have hsecured : RestoresWork (h ++ ⟨.enter .restoreSwitching, i, s⟩ :: mid ++
      [⟨.enter (.setDirectCharge false), j, s₄⟩]) → Secured (s₄.settle j) := fun hw =>
    ⟨(hdone hw).1.settle j, (hdone hw).2⟩
  refine wp_mono (wp_still_of Still.secured (setDirectChargeBody_still false) hsecured) ?_
  intro _ h₅ s₅ h5
  rw [wp_bind]
  refine (wp_perform _ _ _ _).2 fun _ _ => ⟨fun _ hop => (nomatch hop), ?_⟩
  refine (wp_perform _ _ _ _).2 fun _ _ => ⟨fun _ hop => (nomatch hop), fun hw _ => ?_⟩
  exact h5 hw.of_append.of_append

end

/-! ## The other functions -/

theorem Looks.still {o : Op} (h : Looks o) : Still o := by
  cases o with
  | store _ | enter _ => exact h.elim
  | _ => exact .inl h

theorem KeepsBook.bystander {o : Op} (h : KeepsBook o) : Bystander o := by
  cases o with
  | store f => exact fun m => congrArg Prod.fst (h m)
  | enter _ => exact h.elim
  | _ => trivial

theorem Looks.bystander {o : Op} (h : Looks o) : Bystander o := h.keepsBook.bystander

theorem backoff_still : Issues Still backoff := by
  unfold backoff
  refine Issues.bind ⟨.inl trivial, fun _ => trivial⟩ fun m => ?_
  exact Issues.bind ⟨fun _ => rfl, fun _ => trivial⟩ fun _ => trivial

section

variable {h : List (Event board)} {s : State}

theorem kept_of_active (hs : s.mem.dc.active = true) : Kept h s :=
  fun _ hf => absurd (hf.symm.trans hs) Bool.false_ne_true

theorem start_spec (hs : Kept h s) :
    wp (fun _ => True) handBackMonitor start.run (fun _ h s => Kept h s) h s := by
  unfold start
  apply wp_run_seq (wp_still ((psyGetNonneg_looks _ _).mono fun _ => Looks.still) hs)
  · intro e h s hs
    exact hs
  intro batteryUv h s hs
  have hgrant : Issues Still (Sm5714.setDirectCharge true).seq := by
    rw [setDirectCharge_seq]
    exact Issues.bind ⟨fun h => (nomatch h), fun _ => trivial⟩ fun _ => setDirectChargeBody_still true
  apply wp_run_seq (wp_still hgrant hs)
  · intro e h s hs
    exact hs
  intro _ h s hs
  apply wp_run_attempt_seq (wp_bystander ((startPump_keepsBook batteryUv).mono fun _ => KeepsBook.bystander))
  intro r h s _
  cases r with
  | error e =>
    dsimp only
    rw [wp_run_bind, wp_run_lift]
    exact wp_mono restoreSwitching_spec fun _ _ _ hk => hk
  | ok point =>
    dsimp only
    rw [wp_run_lift]
    exact (wp_perform _ _ _ _).2 fun _ _ => ⟨fun _ hop => (nomatch hop), kept_of_active rfl⟩

theorem workIdle_spec (hs : Kept h s) :
    wp (fun _ => True) handBackMonitor workIdle (fun _ h s => Kept h s) h s := by
  unfold workIdle
  apply wp_seq (wp_still (fastChargeEnabled_looks.mono fun _ => Looks.still) hs)
  intro b h s hs
  refine wp_ite (fun _ => hs) fun _ => ?_
  apply wp_seq (wp_still (eligible_looks.mono fun _ => Looks.still) hs)
  intro b h s hs
  refine wp_ite (fun _ => hs) fun _ => ?_
  apply wp_seq (start_spec hs)
  intro r h s hs
  cases r with
  | error e => exact wp_still backoff_still hs
  | ok _ =>
    refine wp_still ?_ hs
    exact Issues.bind ⟨fun _ => rfl, fun _ => trivial⟩ fun _ => trivial

theorem restore_backoff_spec :
    wp (fun _ => True) handBackMonitor (restoreSwitching >>= fun _ => backoff)
      (fun _ h s => Kept h s) h s := by
  apply wp_seq restoreSwitching_spec
  intro _ h s hk
  exact wp_still backoff_still hk

theorem logged_restore_spec :
    wp (fun _ => True) handBackMonitor (logFaults >>= fun _ => restoreSwitching >>= fun _ => backoff)
      (fun _ h s => Kept h s) h s := by
  apply wp_seq (wp_bystander (logFaults_looks.mono fun _ => Looks.bystander))
  intro _ h s _
  exact restore_backoff_spec

theorem workMonitor_spec (hs : s.mem.dc.active = true) :
    wp (fun _ => True) handBackMonitor workMonitor (fun _ h s => Kept h s) h s := by
  unfold workMonitor
  apply wp_seq (wp_bystander (measure_looks.mono fun _ => Looks.bystander))
  intro r h s hr
  refine wp_ite (fun _ => ?_) fun _ => logged_restore_spec
  apply wp_seq (wp_bystander ((updateBits_keepsBook _ _ _).mono fun _ => KeepsBook.bystander))
  intro r' h s hr'
  cases r' with
  | error e => exact restore_backoff_spec
  | ok _ =>
    refine wp_still ?_ (kept_of_active (hr'.trans (hr.trans hs)))
    exact Issues.bind ⟨fun _ => rfl, fun _ => trivial⟩ fun _ => trivial

theorem workActive_spec (hs : s.mem.dc.active = true) :
    wp (fun _ => True) handBackMonitor workActive (fun _ h s => Kept h s) h s := by
  unfold workActive
  apply wp_seq (wp_bystander (fastChargeEnabled_looks.mono fun _ => Looks.bystander))
  intro b h s₁ hs₁
  refine wp_ite (fun _ => ?_) fun _ => ?_
  · apply wp_seq (wp_bystander (logFaults_looks.mono fun _ => Looks.bystander))
    intro _ h s _
    apply wp_seq restoreSwitching_spec
    intro _ h s hk
    exact hk
  apply wp_seq (wp_bystander (p := load) ⟨trivial, fun _ => trivial⟩)
  intro m h s₂ hs₂
  dsimp only
  refine wp_seq (wp_bystander (p := store _) ⟨fun _ => rfl, fun _ => trivial⟩) ?_
  intro _ h s₃ hs₃
  have hactive : s₃.mem.dc.active = true := hs₃.trans (hs₂.trans (hs₁.trans hs))
  refine wp_ite (fun _ => ?_) fun _ => workMonitor_spec hactive
  refine wp_seq (wp_bystander (p := store _) ⟨fun _ => rfl, fun _ => trivial⟩) ?_
  intro _ h s₄ hs₄
  apply wp_seq (wp_bystander (renegotiatePps_keepsBook.mono fun _ => KeepsBook.bystander))
  intro r h s₅ hs₅
  cases r with
  | error e => exact logged_restore_spec
  | ok _ => exact workMonitor_spec (hs₅.trans (hs₄.trans hactive))

theorem store_still {f : Mem → Mem} (hf : ∀ m, (f m).dc.active = m.dc.active) :
    Issues Still (store f) := ⟨hf, fun _ => trivial⟩

/-- Branching on whether the pump is in use. -/
theorem wp_ifActive {α : Type} {p q : Code α} (hs : Kept h s)
    (hp : ∀ {h s}, s.mem.dc.active = true →
      wp (fun _ => True) handBackMonitor p (fun _ h s => Kept h s) h s)
    (hq : ∀ {h s}, Kept h s → wp (fun _ => True) handBackMonitor q (fun _ h s => Kept h s) h s) :
    wp (fun _ => True) handBackMonitor (load >>= fun m => if m.dc.active then p else q)
      (fun _ h s => Kept h s) h s := by
  rw [wp_bind]
  refine (wp_perform _ _ _ _).2 fun i _ => ⟨fun _ hop => (nomatch hop), ?_⟩
  refine wp_ite (fun hactive => hp hactive) fun _ => hq fun hw => ?_
  exact hs hw.of_append

/-- Every entry point keeps the pump parked while the driver is inactive, if its restore works. -/
theorem code_spec (c : PumpCall) (hs : Kept h s) :
    wp (fun _ => True) handBackMonitor c.code (fun _ h s => Kept h s) h s := by
  cases c with
  | work =>
    unfold PumpCall.code work
    refine wp_seq (wp_still (store_still fun _ => rfl) hs) ?_
    intro _ h s hs
    apply wp_seq (wp_ifActive hs workActive_spec workIdle_spec)
    intro delay h s hs
    refine wp_still (Issues.bind ⟨.inl trivial, fun _ => trivial⟩ fun m => ?_) hs
    split
    · exact store_still fun _ => rfl
    · trivial
  | suspendPrepare =>
    unfold PumpCall.code suspendPrepare
    refine wp_seq (wp_still (store_still fun _ => rfl) hs) ?_
    intro _ h s hs
    refine wp_seq (wp_still (store_still fun _ => rfl) hs) ?_
    intro _ h s hs
    refine wp_ifActive hs (fun _ => ?_) fun hs => hs
    apply wp_seq (wp_bystander ((updateBits_keepsBook _ _ _).mono fun _ => KeepsBook.bystander))
    intro _ h s _
    exact restoreSwitching_spec
  | postSuspend =>
    unfold PumpCall.code postSuspend
    refine wp_still ?_ hs
    exact Issues.bind (store_still fun _ => rfl) fun _ => store_still fun _ => rfl
  | cancelWork =>
    unfold PumpCall.code cancelWork
    refine wp_seq (wp_still (store_still fun _ => rfl) hs) ?_
    intro _ h s hs
    exact wp_ifActive hs (fun _ => restoreSwitching_spec) fun hs => hs

end

/-! ## Runs -/

/-- Every hand-back of the step is safe, and afterwards an inactive driver has the pump off. -/
structure HandsBackSafely (l : PumpStep) (s : State) : Prop where
  handedBack : ∀ e ∈ l.trace s, HandedBack e
  pump : (pumpStep l s).mem.dc.active = false → PumpOff (pumpStep l s)

/-- One step of a run whose restores work. -/
theorem pumpStep_parked {l : PumpStep} {s : State} (hs : Parked s) (hw : RestoresWork (l.trace s)) :
    Parked (pumpStep l s) ∧ HandsBackSafely l s := by
  cases l with
  | call c ι =>
    obtain ⟨hsafe, hkept⟩ := wp_sound (code_spec c (h := []) fun _ => hs) ι fun _ _ => trivial
    rw [Monitor.after_history] at hkept
    have hparked : Parked (pumpStep (.call c ι) s) := hkept hw
    refine ⟨hparked, fun e he => ?_, fun hf => (hparked hf).1⟩
    obtain ⟨pre, post, htr⟩ := List.append_of_mem he
    have hw' : RestoresWork (pre ++ [e] ++ post) := by
      rw [List.append_assoc, List.singleton_append, ← htr]
      exact hw
    exact Monitor.ok_of_safe_history hsafe htr hw'.of_append
  | elsewhere f hf =>
    have hparked : Parked (f s) := by
      intro hinactive
      rw [hf.driver] at hinactive
      obtain ⟨hoff, hfixed⟩ := hs hinactive
      exact ⟨by unfold PumpOff; rw [hf.dc]; exact hoff, by unfold OnFixed; rw [hf.tcpm]; exact hfixed⟩
    exact ⟨hparked, fun e he => (nomatch he), fun hinactive => (hparked hinactive).1⟩

/-- **Hand-back safety.** In a run of the work item, the PM notifier and the removal, in any order and
with any accesses and property writes failing, started with the pump parked: if every restore turns
the pump off (or finds it off) and returns the port to the fixed contract (or finds it there), then
`set_direct_charge(false)` is only ever entered with both done, and an inactive driver always has
the pump off. -/
theorem hands_back_safely {steps : List PumpStep} {s : State} (h0 : Parked s)
    (hw : Meets pumpStep (fun l s => RestoresWork (l.trace s)) steps s) :
    Meets pumpStep HandsBackSafely steps s :=
  Meets.imp (fun _ _ hs hw => pumpStep_parked hs hw) h0 hw

/-- The fast-charge switch is set elsewhere. -/
def switchFastCharge (enabled : Bool) : PumpStep :=
  .elsewhere (fun s => s.setMem (Sm5714.Battery.setFastCharge enabled))
    ⟨fun _ => rfl, fun _ => rfl, fun _ => rfl, fun _ => rfl⟩

/-- A pass of the work item that starts the pump: 50 %, 25.0 C, 3.8 V. -/
def startPass : PumpStep := .call .work fun n => match n with
  | 3 => { val := 1 }
  | 4 => { val := 50 }
  | 5 => { val := 250 }
  | 6 | 7 => { val := 3800000 }
  | _ => { byte := 0xff, val := 25000 }

theorem parked_probed : Parked .probed := fun _ => ⟨by decide, by decide⟩

/-- The pump is started, then the switch goes off and the pack is handed back. -/
theorem hands_back_safely_switched_off :
    Meets pumpStep HandsBackSafely
      [switchFastCharge true, startPass, switchFastCharge false, .call .work (inputs [])] .probed := by
  refine hands_back_safely parked_probed ⟨?_, ?_, ?_, ?_, trivial⟩
  · exact of_decide_eq_true rfl
  · exact of_decide_eq_true rfl
  · exact of_decide_eq_true rfl
  · exact of_decide_eq_true rfl

/-- As before, but the read of CNTL5 fails when the pack is handed back: the SM5714 is told to take
over, and the driver is inactive, with the pump still running. -/
theorem pump_runs_after_hand_back :
    Parked .probed ∧ ¬ Meets pumpStep HandsBackSafely
      [switchFastCharge true, startPass, switchFastCharge false,
        .call .work (inputs [{}, {}, {}, {}, {}, {}, { fault := some .eio }])] .probed := by
  refine ⟨parked_probed, fun h => ?_⟩
  exact absurd (h.2.2.2.1.pump rfl) (by decide)

end Gts9Wifi.Charger.Sm5440
