import Gts9Wifi.Charger.Verify.HandBack

/-!
# The pump is parked across negotiations

Every TCPM property write is a power negotiation, which the pump must not see. The driver parks the
pump first and arms it again only on a bus whose voltage has been measured since. With writes to
CNTL5 succeeding there is one way around that: a restore that finds the pump on and cannot read
CNTL5 goes on to the `ONLINE` write all the same.
-/

namespace Gts9Wifi.Charger.Sm5440

open Driver

/-! ## Vocabulary -/

/-- The operating mode on the chip is `CHG_ON`. -/
def ChgOn (s : State) : Prop := s.dc .cntl5 &&& cntl5OpModeMask = cntl5ChgOn

instance (s : State) : Decidable (ChgOn s) := inferInstanceAs (Decidable (_ = _))

/-- A TCPM property write. -/
def Negotiation (e : Event board) : Prop :=
  match e.op with
  | .psySet _ _ => True
  | _ => False

/-- A write that sets `CHG_ON`. -/
def Arms (e : Event board) : Prop :=
  match e.op with
  | .dcWrite .cntl5 v => v &&& cntl5OpModeMask = cntl5ChgOn
  | _ => False

/-- The register was read, as `b`. -/
def ReadsAs (r : DcReg) (b : BitVec 8) (e : Event board) : Prop :=
  e.op = .dcRead r ∧ e.input.fault = none ∧ e.input.byte = b

/-- VBUS has been measured at or above the voltage that was last requested less 500 mV, and nothing
has been negotiated since. -/
def Settled (h : List (Event board)) (s : State) : Prop :=
  ∃ h₁ x y h₂ a b, h = h₁ ++ x :: y :: h₂ ∧ ReadsAs .adcVbus1 a x ∧ ReadsAs .adcVbus2 b y ∧
    s.tcpm.voltageUv / 1000 - 500 ≤ (4096 + adcRaw a b : Nat) ∧ ∀ z ∈ h₂, ¬ Negotiation z

/-- A negotiation meets a parked pump; `CHG_ON` is set with direct charging granted and the bus
settled. -/
structure Ordered (h : List (Event board)) (e : Event board) : Prop where
  parked : Negotiation e → ¬ ChgOn (e.pre.settle e.input)
  granted : Arms e → e.pre.mem.bat.directCharging = true
  settled : Arms e → Settled h e.pre

/-- The write, if it is one to CNTL5, succeeds. -/
def Cntl5Writes (e : Event board) : Prop :=
  match e.op with
  | .dcWrite .cntl5 _ => e.input.fault = none
  | _ => True

/-- Every restore that finds the pump on can read CNTL5. -/
def RestoresRead (tr : List (Event board)) : Prop :=
  ∀ pre e x post, tr = pre ++ e :: x :: post → entered e = some .restoreSwitching →
    ChgOn (x.pre.settle x.input) → x.input.fault = none

/-- Judges the order, as long as the restores can read the mode. -/
abbrev parkingMonitor : Monitor board :=
  Monitor.history fun h e => RestoresRead (h ++ [e]) → Ordered h e

/-- While inactive the pump is not on; while active it is granted and runs at the requested
voltage. -/
structure InStep (s : State) : Prop where
  parked : s.mem.dc.active = false → ¬ ChgOn s
  granted : s.mem.dc.active = true → s.mem.bat.directCharging = true
  target : s.mem.dc.active = true → s.tcpm.voltageUv = (s.mem.dc.targetMv * 1000 : Nat)

theorem RestoresRead.of_append {h tr : List (Event board)} (hr : RestoresRead (h ++ tr)) :
    RestoresRead h := by
  intro pre e x post hh
  refine hr pre e x (post ++ tr) ?_
  rw [hh]
  simp only [List.append_assoc, List.cons_append]

theorem not_chgOn_settle {s : State} (h : ¬ ChgOn s) (i : Input) : ¬ ChgOn (s.settle i) := by
  unfold ChgOn at h ⊢
  rcases settle_cntl5 s i with hs | hs
  · rw [hs]
    exact h
  · intro hon
    rw [hs] at hon
    -- the bit has just been cleared
    have hbit := congrArg (· &&& cntl5ChgOn) hon
    have hmask : ~~~cntl5ChgOn &&& (cntl5OpModeMask &&& cntl5ChgOn) = 0 := by decide
    simp only [BitVec.and_assoc, hmask, BitVec.and_self] at hbit
    exact absurd hbit (by rw [show s.dc .cntl5 &&& (0 : BitVec 8) = 0 from BitVec.and_zero]; decide)

theorem not_chgOn_of_pumpOff {s : State} (h : PumpOff s) : ¬ ChgOn s := by
  unfold ChgOn
  rw [show s.dc .cntl5 &&& cntl5OpModeMask = 0 from h]
  decide

/-- Settling survives operations that negotiate nothing. -/
theorem Settled.snoc {h : List (Event board)} {s s' : State} {e : Event board} (hset : Settled h s)
    (he : ¬ Negotiation e) (htcpm : s'.tcpm = s.tcpm) : Settled (h ++ [e]) s' := by
  obtain ⟨h₁, x, y, h₂, a, b, rfl, hx, hy, hv, hquiet⟩ := hset
  refine ⟨h₁, x, y, h₂ ++ [e], a, b, ?_, hx, hy, ?_, fun z hz => ?_⟩
  · simp only [List.append_assoc, List.cons_append]
  · rw [htcpm]
    exact hv
  · rcases List.mem_append.1 hz with hz | hz
    · exact hquiet z hz
    · rw [List.mem_singleton.1 hz]
      exact he

/-! ## Tuning -/

/-- What tuning the chip keeps. -/
structure Tuned (h : List (Event board)) (s : State) (h' : List (Event board)) (s' : State) :
    Prop where
  mem : s'.mem = s.mem
  tcpm : s'.tcpm = s.tcpm
  parked : ¬ ChgOn s → ¬ ChgOn s'
  settled : Settled h s → Settled h' s'
  reads : RestoresRead h' → RestoresRead h

theorem Tuned.refl (h : List (Event board)) (s : State) : Tuned h s h s :=
  ⟨rfl, rfl, id, id, id⟩

theorem Tuned.trans {h₁ h₂ h₃ : List (Event board)} {s₁ s₂ s₃ : State} (h12 : Tuned h₁ s₁ h₂ s₂)
    (h23 : Tuned h₂ s₂ h₃ s₃) : Tuned h₁ s₁ h₃ s₃ where
  mem := h23.mem.trans h12.mem
  tcpm := h23.tcpm.trans h12.tcpm
  parked h := h23.parked (h12.parked h)
  settled h := h23.settled (h12.settled h)
  reads h := h12.reads (h23.reads h)

theorem Tunes.tuned {o : Op} (ho : Tunes o) (i : Input) (h : List (Event board)) (s : State) :
    Tuned h s (h ++ [⟨o, i, s⟩]) (handle o i s).2 := by
  have hlook : (handle o i s).2 = s ∨ (handle o i s).2 = s.settle i →
      ¬ Negotiation (⟨o, i, s⟩ : Event board) →
      Tuned h s (h ++ [⟨o, i, s⟩]) (handle o i s).2 := by
    intro hs hneg
    rcases hs with hs | hs
    · rw [hs]
      exact ⟨rfl, rfl, id, fun hset => hset.snoc hneg rfl, RestoresRead.of_append⟩
    · rw [hs]
      exact ⟨rfl, rfl, fun hoff => not_chgOn_settle hoff i, fun hset => hset.snoc hneg rfl,
        RestoresRead.of_append⟩
  cases o with
  | dcWrite r v =>
    cases hf : i.fault with
    | some e => exact hlook (.inr (by simp only [handle, apply_some hf])) id
    | none =>
      simp only [handle, apply_none hf]
      refine ⟨rfl, rfl, fun hoff => ?_, fun hset => hset.snoc id rfl, RestoresRead.of_append⟩
      unfold ChgOn
      rw [setDc_dc, if_neg (Ne.symm ho)]
      exact not_chgOn_settle hoff i
  | load => exact hlook (.inl rfl) id
  | dcRead r => exact hlook (.inr rfl) id
  | psyGet p prop => exact hlook (.inr rfl) id
  | _ => exact ho.elim

theorem Tunes.ordered {o : Op} (ho : Tunes o) (i : Input) (h : List (Event board)) (s : State) :
    Ordered h ⟨o, i, s⟩ := by
  cases o with
  | dcWrite r v =>
    have hr : ¬ Arms (⟨.dcWrite r v, i, s⟩ : Event board) := by
      cases r <;> first | exact id | exact absurd rfl ho
    exact ⟨fun hn => hn.elim, fun ha => absurd ha hr, fun ha => absurd ha hr⟩
  | psySet prop v => exact ho.elim
  | _ => exact ⟨fun hn => hn.elim, fun ha => ha.elim, fun ha => ha.elim⟩

section

variable {α : Type} {h : List (Event board)} {s : State}

theorem wp_tunes {p : Code α} (hp : Issues Tunes p) :
    wp Cntl5Writes parkingMonitor p (fun _ h' s' => Tuned h s h' s') h s :=
  hp.wp (W := board) (M := parkingMonitor) (J := fun h' s' => Tuned h s h' s')
    (fun _ ho i h' s' _ ht => ⟨fun _ => ho.ordered i h' s', ht.trans (ho.tuned i h' s')⟩)
    (Tuned.refl h s)

theorem wp_looks {p : Code α} (hp : Issues Looks p) :
    wp Cntl5Writes parkingMonitor p (fun _ h' s' => Tuned h s h' s') h s :=
  wp_tunes (hp.mono fun _ => Looks.tunes)

end

/-! ## The operating mode, the negotiations and the bus -/

section

variable {h : List (Event board)} {s : State}

/-- What an update of the operating mode to `val` has done. Since writes to CNTL5 succeed, a failure
is one of the read. -/
structure ModeSet (val : BitVec 8) (h : List (Event board)) (s : State) (r : Except Errno Unit)
    (h' : List (Event board)) (s' : State) : Prop where
  mem : s'.mem = s.mem
  tcpm : s'.tcpm = s.tcpm
  ok : r = .ok () → s'.dc .cntl5 &&& cntl5OpModeMask = val &&& cntl5OpModeMask
  failed : ∀ e, r = .error e → ∃ i : Input, i.fault = some e ∧ s' = s.settle i ∧
    h' = h ++ [⟨.dcRead .cntl5, i, s⟩]

theorem updateBits_cntl5_spec {val : BitVec 8}
    (harms : val &&& cntl5OpModeMask = cntl5ChgOn →
      s.mem.bat.directCharging = true ∧ Settled h s) :
    wp Cntl5Writes parkingMonitor (updateBits .cntl5 cntl5OpModeMask val).run
      (fun r h' s' => ModeSet val h s r h' s') h s := by
  unfold updateBits
  rw [wp_run_bind]
  refine (wp_perform _ _ _ _).2 fun i _ => ?_
  have hread : Ordered h (⟨.dcRead .cntl5, i, s⟩ : Event board) :=
    Tunes.ordered (o := .dcRead .cntl5) trivial i h s
  refine ⟨fun _ => hread, ?_⟩
  cases hf : i.fault with
  | some e =>
    simp only [handle, answer_some hf]
    refine ⟨rfl, rfl, fun hr => ?_, fun e' he' => ⟨i, ?_, rfl, rfl⟩⟩
    · cases hr
    · cases he'
      rw [hf]
  | none =>
    simp only [handle, answer_none hf]
    refine (wp_perform _ _ _ _).2 fun j hj => ?_
    have hjf : j.fault = none := hj
    refine ⟨fun _ => ⟨fun hn => hn.elim, fun ha => ?_, fun ha => ?_⟩, ?_⟩
    · have harm : val &&& cntl5OpModeMask = cntl5ChgOn := (maskedUpdate_and_mask _ _ _).symm.trans ha
      exact (harms harm).1
    · have harm : val &&& cntl5OpModeMask = cntl5ChgOn := (maskedUpdate_and_mask _ _ _).symm.trans ha
      exact (harms harm).2.snoc id rfl
    · simp only [handle, answer_none hjf, apply_none hjf]
      refine ⟨rfl, rfl, fun _ => ?_, fun e he => ?_⟩
      · rw [setDc_dc, if_pos rfl]
        exact maskedUpdate_and_mask _ _ _
      · cases he

theorem ModeSet.parked {h' : List (Event board)} {s' : State} {r : Except Errno Unit}
    (hm : ModeSet 0 h s r h' s') (hr : r = .ok ()) : ¬ ChgOn s' := by
  refine not_chgOn_of_pumpOff ?_
  unfold PumpOff
  rw [hm.ok hr]
  decide

theorem pumpOff_spec :
    wp Cntl5Writes parkingMonitor pumpOff.run (fun r h' s' => ModeSet 0 h s r h' s') h s :=
  updateBits_cntl5_spec fun h0 => absurd h0 (by decide)

/-- Only with direct charging granted and the bus settled may the pump be turned on. -/
theorem pumpOn_spec (hgranted : s.mem.bat.directCharging = true) (hset : Settled h s) :
    wp Cntl5Writes parkingMonitor pumpOn.run (fun _ _ s' => s'.mem = s.mem ∧ s'.tcpm = s.tcpm) h s := by
  unfold pumpOn
  apply wp_run_seq (updateBits_cntl5_spec fun _ => ⟨hgranted, hset⟩)
  · intro e h₁ s₁ hm
    exact ⟨hm.mem, hm.tcpm⟩
  intro _ h₁ s₁ hm
  refine wp_mono (wp_looks (waitVbusPok_looks 5)) fun _ _ _ ht => ?_
  exact ⟨ht.mem.trans hm.mem, ht.tcpm.trans hm.tcpm⟩

/-- What a property write with its retries has done. -/
structure Requested (prop : PsyProp) (value : Int) (s : State) (r : Except Errno Unit) (s' : State) :
    Prop where
  parked : ¬ ChgOn s'
  mem : s'.mem = s.mem
  voltage : r = .ok () → prop = .voltageNow → s'.tcpm.voltageUv = value
  others : prop ≠ .voltageNow → s'.tcpm.voltageUv = s.tcpm.voltageUv

theorem psyAttempts_spec (hoff : ¬ ChgOn s) (prop : PsyProp) (value : Int) (n : Nat) :
    wp Cntl5Writes parkingMonitor (psyAttempts prop value n).run
      (fun r _ s' => Requested prop value s r s') h s := by
  refine wp_psyAttempts (J := fun _ s' => ¬ ChgOn s' ∧ s'.mem = s.mem ∧ s'.tcpm = s.tcpm)
    ?_ ?_ ?_ ?_ n ⟨hoff, rfl, rfl⟩
  · rintro i h' s' ⟨hoff', -, -⟩ -
    exact ⟨fun _ => not_chgOn_settle hoff' i, fun ha => ha.elim, fun ha => ha.elim⟩
  · rintro i h' s' ⟨hoff', hmem, htcpm⟩ -
    exact ⟨not_chgOn_settle hoff' i, hmem, htcpm⟩
  · rintro i h' s' ⟨hoff', hmem, htcpm⟩ -
    have hset := not_chgOn_settle hoff' i
    have huv : s'.tcpm.voltageUv = s.tcpm.voltageUv := congrArg Tcpm.voltageUv htcpm
    cases prop with
    | voltageNow => exact ⟨hset, hmem, fun _ _ => rfl, fun hne => absurd rfl hne⟩
    | _ => exact ⟨hset, hmem, fun _ hp => (by cases hp), fun _ => huv⟩
  · rintro e h' s' ⟨hoff', hmem, htcpm⟩
    exact ⟨hoff', hmem, fun hr => (by cases hr), fun _ => congrArg Tcpm.voltageUv htcpm⟩

/-- Reading the driver's memory is in order at any time. -/
theorem wp_run_load_ordered {β : Type} {f : Mem → Fallible β}
    {Q : Except Errno β → List (Event board) → State → Prop}
    (hf : ∀ h, wp Cntl5Writes parkingMonitor (f s.mem).run Q h s) :
    wp Cntl5Writes parkingMonitor ((liftM load : Fallible Mem) >>= f).run Q h s := by
  rw [wp_run_bind, wp_run_lift]
  refine (wp_perform _ _ _ _).2 fun i _ => ⟨fun _ => ?_, hf _⟩
  exact Tunes.ordered (o := .load) trivial i h s

theorem adcVbusMv_spec :
    wp Cntl5Writes parkingMonitor adcVbusMv.run (fun r h' s' => Tuned h s h' s' ∧
      ∀ v, r = .ok v → ∃ x y a b, h' = h ++ [x, y] ∧ ReadsAs .adcVbus1 a x ∧
        ReadsAs .adcVbus2 b y ∧ v = 4096 + adcRaw a b) h s := by
  refine wp_and (wp_looks adcVbusMv_looks) ?_
  unfold adcVbusMv readAdcPair
  rw [wp_run_bind, wp_run_bind]
  refine (wp_perform _ _ _ _).2 fun i _ => ⟨fun _ => Tunes.ordered (o := .dcRead _) trivial i h s, ?_⟩
  cases hi : i.fault with
  | some e =>
    simp only [handle, answer_some hi]
    intro v hv
    cases hv
  | none =>
    simp only [handle, answer_none hi]
    rw [wp_run_bind]
    refine (wp_perform _ _ _ _).2 fun j _ => ⟨fun _ => Tunes.ordered (o := .dcRead _) trivial j _ _, ?_⟩
    cases hj : j.fault with
    | some e =>
      simp only [handle, answer_some hj]
      intro v hv
      cases hv
    | none =>
      simp only [handle, answer_none hj]
      intro v hv
      cases hv
      exact ⟨_, _, i.byte, j.byte, List.append_assoc _ _ _, ⟨rfl, hi, rfl⟩, ⟨rfl, hj, rfl⟩, rfl⟩

/-- A wait that succeeds has measured the bus. -/
theorem waitSettled_spec {mv : Nat} (hv : s.tcpm.voltageUv = (mv * 1000 : Nat)) (n : Nat) :
    wp Cntl5Writes parkingMonitor (waitSettled mv n).run
      (fun r h' s' => Tuned h s h' s' ∧ (r = .ok () → Settled h' s')) h s := by
  induction n generalizing h s with
  | zero => exact ⟨Tuned.refl h s, fun hr => (nomatch hr)⟩
  | succ n ih =>
    unfold waitSettled
    apply wp_run_seq adcVbusMv_spec
    · intro e h₁ s₁ h1
      exact ⟨h1.1, fun hr => (nomatch hr)⟩
    intro v h₁ s₁ h1
    obtain ⟨ht, hread⟩ := h1
    have hv₁ : s₁.tcpm.voltageUv = (mv * 1000 : Nat) := by
      rw [ht.tcpm]
      exact hv
    dsimp only
    split
    · next hge =>
      refine ⟨ht, fun _ => ?_⟩
      obtain ⟨x, y, a, b, rfl, hx, hy, rfl⟩ := hread v rfl
      refine ⟨h, x, y, [], a, b, rfl, hx, hy, ?_, fun z hz => (nomatch hz)⟩
      rw [hv₁]
      omega
    · refine wp_mono (ih hv₁) fun r h' s' hr => ?_
      exact ⟨ht.trans hr.1, hr.2⟩

end

/-! ## As long as the restores can read the mode -/

section

variable {α β : Type} {h : List (Event board)} {s : State}

/-- `p` keeps the order and ends with `Q`, as long as the restores can read the mode. -/
def Orders (p : Code α) (Q : α → List (Event board) → State → Prop) (h : List (Event board))
    (s : State) : Prop :=
  wp Cntl5Writes parkingMonitor p (fun a h s => RestoresRead h → Q a h s) h s

theorem Orders.of_wp {p : Code α} {Q : α → List (Event board) → State → Prop}
    (hp : wp Cntl5Writes parkingMonitor p Q h s) : Orders p Q h s :=
  wp_mono hp fun _ _ _ hq _ => hq

theorem Orders.mono {p : Code α} {Q R : α → List (Event board) → State → Prop} (hp : Orders p Q h s)
    (hQR : ∀ a h s, Q a h s → R a h s) : Orders p R h s :=
  wp_mono hp fun a h s hq hr => hQR a h s (hq hr)

/-- After a restore that cannot read the mode nothing is claimed. -/
theorem Orders.of_not_reads (hr : ¬ RestoresRead h) (p : Code α)
    (Q : α → List (Event board) → State → Prop) : Orders p Q h s := by
  refine wp_mono ((issues_true p).wp (W := board) (M := parkingMonitor)
    (J := fun h' _ => ¬ RestoresRead h') (fun o _ i h' s' _ hn => ?_) hr) fun _ _ _ hn hr' => ?_
  · exact ⟨fun hr' => absurd hr'.of_append hn, fun hr' => hn hr'.of_append⟩
  · exact absurd hr' hn

theorem Orders.bind {p : Code α} {f : α → Code β} {P : α → List (Event board) → State → Prop}
    {Q : β → List (Event board) → State → Prop} (hp : Orders p P h s)
    (hf : ∀ a h s, P a h s → Orders (f a) Q h s) : Orders (p >>= f) Q h s := by
  refine (wp_bind _ _ _ _ _).2 (wp_mono hp fun a h₁ s₁ ha => ?_)
  by_cases hr : RestoresRead h₁
  · exact hf a h₁ s₁ (ha hr)
  · exact Orders.of_not_reads hr (f a) Q

theorem Orders.run_bind {p : Fallible α} {f : α → Fallible β}
    {P : Except Errno α → List (Event board) → State → Prop}
    {Q : Except Errno β → List (Event board) → State → Prop} (hp : Orders p.run P h s)
    (herr : ∀ e h s, P (.error e) h s → Q (.error e) h s)
    (hf : ∀ a h s, P (.ok a) h s → Orders (f a).run Q h s) : Orders (p >>= f).run Q h s := by
  rw [ExceptT.run_bind]
  refine hp.bind ?_
  intro r h₁ s₁ hP
  cases r with
  | error e => exact fun _ => herr e h₁ s₁ hP
  | ok a => exact hf a h₁ s₁ hP

theorem Orders.run_lift {p : Code α} {Q : Except Errno α → List (Event board) → State → Prop}
    (hp : Orders p (fun a => Q (.ok a)) h s) : Orders (liftM p : Fallible α).run Q h s :=
  (wp_run_lift _ _ _ _).2 hp

theorem Orders.run_attempt_bind {p : Fallible α} {f : Except Errno α → Fallible β}
    {P : Except Errno α → List (Event board) → State → Prop}
    {Q : Except Errno β → List (Event board) → State → Prop} (hp : Orders p.run P h s)
    (hf : ∀ r h s, P r h s → Orders (f r).run Q h s) : Orders (attempt p >>= f).run Q h s := by
  refine Orders.run_bind (P := fun r h s => ∃ r', r = .ok r' ∧ P r' h s) ?_ ?_ ?_
  · exact Orders.run_lift (hp.mono fun r _ _ hP => ⟨r, rfl, hP⟩)
  · intro e h₁ s₁ hr
    obtain ⟨r', hr', -⟩ := hr
    exact nomatch hr'
  · intro r h₁ s₁ hr
    obtain ⟨r', hr', hP⟩ := hr
    cases hr'
    exact hf r h₁ s₁ hP

theorem Orders.load {Q : Mem → List (Event board) → State → Prop} (hq : ∀ h, Q s.mem h s) :
    Orders load Q h s :=
  (wp_perform _ _ _ _).2 fun i _ =>
    ⟨fun _ => Tunes.ordered (o := .load) trivial i h s, fun _ => hq _⟩

theorem Orders.store {f : Mem → Mem} {Q : Unit → List (Event board) → State → Prop}
    (hq : ∀ h, Q () h (s.setMem f)) : Orders (store f) Q h s :=
  (wp_perform _ _ _ _).2 fun _ _ =>
    ⟨fun _ => ⟨fun hn => hn.elim, fun ha => ha.elim, fun ha => ha.elim⟩, fun _ => hq _⟩

end

/-! ## The functions -/

section

variable {h : List (Event board)} {s : State}

/-- A negotiation has left the pump parked, and the driver's memory alone. -/
structure Negotiated (s s' : State) : Prop where
  parked : ¬ ChgOn s'
  mem : s'.mem = s.mem

theorem Requested.negotiated {prop : PsyProp} {value : Int} {r : Except Errno Unit} {s' : State}
    (hr : Requested prop value s r s') : Negotiated s s' := ⟨hr.parked, hr.mem⟩

theorem Negotiated.trans {s₁ s₂ s₃ : State} (h12 : Negotiated s₁ s₂) (h23 : Negotiated s₂ s₃) :
    Negotiated s₁ s₃ := ⟨h23.parked, h23.mem.trans h12.mem⟩

theorem walkCurrent_spec (hoff : ¬ ChgOn s) (n ma : Nat) :
    wp Cntl5Writes parkingMonitor (walkCurrent n ma).run (fun _ _ s' => Negotiated s s') h s := by
  induction n generalizing h s ma with
  | zero => exact ⟨hoff, rfl⟩
  | succ n ih =>
    unfold walkCurrent
    apply wp_run_attempt_seq (psyAttempts_spec hoff _ _ _)
    intro r h₁ s₁ hr
    cases r with
    | ok _ => exact hr.negotiated
    | error e =>
      dsimp only
      split
      · refine wp_mono (ih hr.parked _) fun _ _ _ hn => ?_
        exact hr.negotiated.trans hn
      · exact hr.negotiated

theorem negotiatePps_spec (hoff : ¬ ChgOn s) (vbatUv : Nat) :
    wp Cntl5Writes parkingMonitor (negotiatePps vbatUv).run (fun r _ s' => Negotiated s s' ∧
      ∀ ma mv, r = .ok (ma, mv) → s'.tcpm.voltageUv = (mv * 1000 : Nat)) h s := by
  unfold negotiatePps
  apply wp_run_load_ordered
  intro h
  apply wp_run_seq (psyAttempts_spec hoff _ _ _)
  · intro e h₁ s₁ h1
    exact ⟨h1.negotiated, fun _ _ hr => (nomatch hr)⟩
  intro _ h₁ s₁ h1
  dsimp only
  rw [wp_run_bind, wp_run_attempt, wp_run_bind]
  refine wp_mono (walkCurrent_spec h1.parked _ _) fun r₂ h₂ s₂ h2 => ?_
  have h12 := h1.negotiated.trans h2
  -- whatever went wrong, the port is asked for its fixed contract
  have hback : ∀ {h₃ s₃} (e : Errno), Negotiated s s₃ →
      wp Cntl5Writes parkingMonitor (do
          let _ ← attempt (psyRetry .online 1)
          throw e : Fallible (Nat × Nat)).run
        (fun r _ s' => Negotiated s s' ∧
          ∀ ma mv, r = .ok (ma, mv) → s'.tcpm.voltageUv = (mv * 1000 : Nat)) h₃ s₃ := by
    intro h₃ s₃ e h3
    apply wp_run_attempt_seq (psyAttempts_spec h3.parked _ _ _)
    intro _ _ _ h4
    exact ⟨h3.trans h4.negotiated, fun _ _ hr => (nomatch hr)⟩
  rcases r₂ with e | ma
  · exact hback e h12
  apply wp_run_seq (psyAttempts_spec h2.parked _ _ _)
  · intro e h₃ s₃ h3
    exact hback e (h12.trans h3.negotiated)
  intro _ h₃ s₃ h3
  refine ⟨h12.trans h3.negotiated, fun ma' mv' hr => ?_⟩
  cases hr
  exact h3.voltage rfl rfl

/-- A refresh that succeeds leaves the driver's target as what was last requested. -/
theorem refreshPps_spec (hoff : ¬ ChgOn s)
    (hv : s.tcpm.voltageUv = (s.mem.dc.targetMv * 1000 : Nat)) :
    wp Cntl5Writes parkingMonitor refreshPps.run (fun r _ s' => ¬ ChgOn s' ∧
      s'.mem.bat = s.mem.bat ∧ s'.mem.dc.active = s.mem.dc.active ∧
      (r = .ok () → s'.tcpm.voltageUv = (s'.mem.dc.targetMv * 1000 : Nat))) h s := by
  unfold refreshPps
  apply wp_run_seq (wp_looks (psyGetNonneg_looks _ _))
  · intro e h₁ s₁ ht
    exact ⟨ht.parked hoff, by rw [ht.mem], by rw [ht.mem], fun hr => (nomatch hr)⟩
  intro batteryUv h₁ s₁ ht
  have hv₁ : s₁.tcpm.voltageUv = (s₁.mem.dc.targetMv * 1000 : Nat) := by
    rw [ht.tcpm, ht.mem]
    exact hv
  apply wp_run_load_ordered
  intro h₁
  -- the current request at the end keeps the voltage
  have hcurrent : ∀ {h₂ : List (Event board)} {s₂ : State} (ma : Nat), ¬ ChgOn s₂ →
      s₂.mem.bat = s.mem.bat → s₂.mem.dc.active = s.mem.dc.active →
      s₂.tcpm.voltageUv = (s₂.mem.dc.targetMv * 1000 : Nat) →
      wp Cntl5Writes parkingMonitor (psyRetry .currentNow (ma * 1000 : Nat)).run (fun r _ s' =>
        ¬ ChgOn s' ∧ s'.mem.bat = s.mem.bat ∧ s'.mem.dc.active = s.mem.dc.active ∧
        (r = .ok () → s'.tcpm.voltageUv = (s'.mem.dc.targetMv * 1000 : Nat))) h₂ s₂ := by
    intro h₂ s₂ ma hoff₂ hbat hactive hv₂
    refine wp_mono (psyAttempts_spec hoff₂ _ _ _) fun r _ s' hr => ?_
    refine ⟨hr.parked, by rw [hr.mem]; exact hbat, by rw [hr.mem]; exact hactive, fun _ => ?_⟩
    rw [hr.others PsyProp.noConfusion, hr.mem]
    exact hv₂
  have hbat₁ : s₁.mem.bat = s.mem.bat := by rw [ht.mem]
  have hactive₁ : s₁.mem.dc.active = s.mem.dc.active := by rw [ht.mem]
  dsimp only
  split
  · apply wp_run_seq (psyAttempts_spec (ht.parked hoff) _ _ _)
    · intro e h₂ s₂ h2
      exact ⟨h2.parked, by rw [h2.mem]; exact hbat₁, by rw [h2.mem]; exact hactive₁,
        fun hr => (nomatch hr)⟩
    intro _ h₂ s₂ h2
    rw [wp_run_bind, wp_run_lift]
    refine (wp_perform _ _ _ _).2 fun j _ =>
      ⟨fun _ => ⟨fun hn => hn.elim, fun ha => ha.elim, fun ha => ha.elim⟩, ?_⟩
    refine hcurrent _ h2.parked ?_ ?_ (h2.voltage rfl rfl)
    · exact (congrArg Mem.bat h2.mem).trans hbat₁
    · exact (congrArg (fun m => m.dc.active) h2.mem).trans hactive₁
  · exact hcurrent _ (ht.parked hoff) hbat₁ hactive₁ hv₁

end

/-! ## The calls into the SM5714 driver -/

/-- Operations of a call into the SM5714 driver, its entry included. -/
def Elsewhere : Op → Prop
  | .enter _ => True
  | o => OnSm5714 o

theorem setDirectCharge_elsewhere (active : Bool) :
    Issues Elsewhere (Sm5714.setDirectCharge active).seq := by
  rw [setDirectCharge_seq]
  refine Issues.bind ⟨trivial, fun _ => trivial⟩ fun _ => ?_
  refine (setDirectChargeBody_onSm5714 active).mono fun o ho => ?_
  cases o with
  | enter f => trivial
  | _ => exact ho

theorem Elsewhere.ordered {o : Op} (ho : Elsewhere o) (i : Input) (h : List (Event board))
    (s : State) : Ordered h ⟨o, i, s⟩ := by
  cases o with
  | dcWrite r v | psySet prop v => exact ho.elim
  | _ => exact ⟨fun hn => hn.elim, fun ha => ha.elim, fun ha => ha.elim⟩

/-- What a call into the SM5714 driver leaves alone. -/
structure Aside (s s' : State) : Prop where
  parked : ¬ ChgOn s → ¬ ChgOn s'
  tcpm : s'.tcpm = s.tcpm
  driver : s'.mem.dc = s.mem.dc

theorem Elsewhere.aside {o : Op} (ho : Elsewhere o) (i : Input) (s : State) :
    Aside s (handle o i s).2 := by
  have hother : OnSm5714 o → Aside s (handle o i s).2 := by
    intro ho
    obtain ⟨hdc, htcpm, hmem⟩ := ho.frame i s
    refine ⟨fun hoff => ?_, htcpm, hmem⟩
    unfold ChgOn
    rw [hdc]
    exact hoff
  cases o with
  | enter f => exact ⟨fun hoff => not_chgOn_settle hoff i, rfl, rfl⟩
  | _ => exact hother ho

section

variable {h : List (Event board)} {s : State}

theorem wp_elsewhere {α : Type} {p : Code α} (hp : Issues Elsewhere p) :
    wp Cntl5Writes parkingMonitor p (fun _ _ s' => Aside s s') h s := by
  refine hp.wp (W := board) (M := parkingMonitor) (J := fun _ s' => Aside s s') ?_ ⟨id, rfl, rfl⟩
  intro o ho i h' s' _ ha
  have ha' := ho.aside i s'
  exact ⟨fun _ => ho.ordered i h' s', fun hoff => ha'.parked (ha.parked hoff),
    ha'.tcpm.trans ha.tcpm, ha'.driver.trans ha.driver⟩

theorem grantDirectCharge_grants {A : Event board → Prop} :
    wp A (Monitor.idle board) Sm5714.grantDirectCharge.seq
      (fun r _ s' => r = .ok () → s'.mem.bat.directCharging = true) () s := by
  unfold Sm5714.grantDirectCharge
  apply Thread.wp_seq_interruptible ((issues_true _).wp (W := board) (J := fun _ _ => True)
    (fun _ _ _ _ _ _ _ => ⟨trivial, trivial⟩) trivial)
  intro r _ s₁ _
  cases r with
  | error e => exact fun hr => (nomatch hr)
  | ok temp =>
  dsimp only
  refine Thread.wp_seq_ite (fun _ hr => (nomatch hr)) fun _ => ?_
  apply wp_thread_store
  rw [Thread.seq_bind, Thread.seq_atomic, wp_bind]
  have hkeeps := (Sm5714.chgUpdateBits_charging (r := .cntl1) ChgReg.noConfusion
    Sm5714.cntl1Enq4fet 0).wp (W := board) (A := A) (M := Monitor.idle board) (m := ())
    (s := s₁.setMem (Sm5714.Battery.setDirect true))
    (J := fun _ s' => s'.mem.bat.directCharging = true)
    (fun o ho i _ s' _ hs' => ⟨trivial, (ho.frame i s').1.trans hs'⟩) rfl
  refine wp_mono hkeeps ?_
  intro r _ s₂ h2
  cases r with
  | ok _ => exact fun _ => h2
  | error e =>
    dsimp only
    rw [Thread.seq_bind, Thread.seq_interruptible, wp_bind]
    exact wp_store fun hr => (nomatch hr)

/-- Direct charging is granted when the call succeeds. -/
theorem setDirectCharge_grants {A : Event board → Prop} :
    wp A (Monitor.idle board) (Sm5714.setDirectCharge true).seq
      (fun r _ s' => r = .ok () → s'.mem.bat.directCharging = true) () s := by
  refine Sm5714.wp_setDirectCharge (fun i _ hr => (nomatch hr)) fun i _ => ?_
  rw [if_pos rfl]
  exact wp_mono grantDirectCharge_grants fun r _ s' hr => hr

theorem setDirectCharge_true_spec :
    wp Cntl5Writes parkingMonitor (Sm5714.setDirectCharge true).seq (fun r _ s' => Aside s s' ∧
      (r = .ok () → s'.mem.bat.directCharging = true)) h s := by
  have hissues := setDirectCharge_elsewhere true
  refine wp_and (wp_elsewhere hissues) ?_
  refine wp_mono (hissues.wp_of_idle (M := parkingMonitor) (K := fun _ => True)
    (fun o ho i h' s' _ => ⟨fun _ => ho.ordered i h' s', trivial⟩) setDirectCharge_grants trivial) ?_
  exact fun r _ s' hr => hr.1

/-! ## Restoring, starting and the work item -/

theorem inStep_of_inactive (hinactive : s.mem.dc.active = false) (hoff : ¬ ChgOn s) : InStep s where
  parked _ := hoff
  granted ha := absurd (hinactive.symm.trans ha) Bool.false_ne_true
  target ha := absurd (hinactive.symm.trans ha) Bool.false_ne_true

theorem inStep_of_active (hactive : s.mem.dc.active = true)
    (hgranted : s.mem.bat.directCharging = true)
    (htarget : s.tcpm.voltageUv = (s.mem.dc.targetMv * 1000 : Nat)) : InStep s where
  parked hf := absurd (hf.symm.trans hactive) Bool.false_ne_true
  granted _ := hgranted
  target _ := htarget

/-- **A restore parks the pump before it negotiates**, whatever it finds, if it can read the mode. -/
theorem restoreSwitching_orders : Orders restoreSwitching (fun _ _ s' => InStep s') h s := by
  unfold restoreSwitching
  have henter : Orders (enter .restoreSwitching) (fun _ h' s' => ∃ i : Input,
      h' = h ++ [⟨.enter .restoreSwitching, i, s⟩] ∧ s' = s.settle i) h s :=
    (wp_perform _ _ _ _).2 fun i _ =>
      ⟨fun _ => Elsewhere.ordered (o := .enter _) trivial i h s, fun _ => ⟨i, rfl, rfl⟩⟩
  refine henter.bind ?_
  intro _ h₀ s₀ h0
  obtain ⟨i, rfl, rfl⟩ := h0
  have hpark : Orders (updateBits .cntl5 cntl5OpModeMask 0).run (fun _ _ s' => ¬ ChgOn s')
      (h ++ [⟨.enter .restoreSwitching, i, s⟩]) (s.settle i) := by
    refine wp_mono (updateBits_cntl5_spec fun h0 => absurd h0 (by decide)) ?_
    intro r h₁ s₁ hm hr
    cases r with
    | ok _ => exact hm.parked rfl
    | error e =>
      -- the read failed, so the pump was not on
      obtain ⟨j, hj, rfl, rfl⟩ := hm.failed e rfl
      intro hon
      have hread := hr h ⟨.enter .restoreSwitching, i, s⟩ ⟨.dcRead .cntl5, j, s.settle i⟩ []
        (List.append_assoc _ _ _) rfl hon
      exact absurd (hj.symm.trans hread) (fun hne => nomatch hne)
  refine hpark.bind fun _ h₁ s₁ h1 => ?_
  refine (Orders.of_wp (wp_tunes (updateBits_tunes DcReg.noConfusion _ _))).bind fun _ h₂ s₂ h2 => ?_
  refine (Orders.of_wp (wp_tunes (updateBits_tunes DcReg.noConfusion _ _))).bind fun _ h₃ s₃ h3 => ?_
  have hoff₃ : ¬ ChgOn s₃ := h3.parked (h2.parked h1)
  refine (Orders.of_wp (psyAttempts_spec hoff₃ _ _ _)).bind fun _ h₄ s₄ h4 => ?_
  refine (Orders.of_wp (wp_elsewhere (setDirectCharge_elsewhere false))).bind fun _ h₅ s₅ h5 => ?_
  have hoff₅ : ¬ ChgOn s₅ := h5.parked h4.parked
  refine (Orders.store (Q := fun _ _ s' => ¬ ChgOn s') fun _ => hoff₅).bind fun _ h₆ s₆ h6 => ?_
  exact Orders.store fun _ => inStep_of_inactive rfl h6

theorem renegotiatePps_spec (hs : InStep s) (hactive : s.mem.dc.active = true) :
    wp Cntl5Writes parkingMonitor renegotiatePps.run (fun r _ s' => r = .ok () →
      InStep s' ∧ s'.mem.dc.active = true) h s := by
  unfold renegotiatePps
  apply wp_run_seq pumpOff_spec
  · intro e h₁ s₁ _ hr
    cases hr
  intro _ h₁ s₁ h1
  have hv₁ : s₁.tcpm.voltageUv = (s₁.mem.dc.targetMv * 1000 : Nat) := by
    rw [h1.tcpm, h1.mem]
    exact hs.target hactive
  apply wp_run_seq (refreshPps_spec (h1.parked rfl) hv₁)
  · intro e h₂ s₂ _ hr
    cases hr
  intro _ h₂ s₂ h2
  obtain ⟨-, hbat, hact, hv₂⟩ := h2
  apply wp_run_load_ordered
  intro h₂
  apply wp_run_seq (waitSettled_spec (hv₂ rfl) 30)
  · intro e h₃ s₃ _ hr
    cases hr
  intro _ h₃ s₃ h3
  obtain ⟨ht, hset⟩ := h3
  have hgranted : s₃.mem.bat.directCharging = true := by
    rw [ht.mem, hbat, h1.mem]
    exact hs.granted hactive
  refine wp_mono (pumpOn_spec hgranted (hset rfl)) fun r _ s₄ h4 _ => ?_
  have hactive₄ : s₄.mem.dc.active = true := by
    rw [h4.1, ht.mem, hact, h1.mem]
    exact hactive
  refine ⟨inStep_of_active hactive₄ ?_ ?_, hactive₄⟩
  · rw [h4.1]
    exact hgranted
  · rw [h4.1, h4.2, ht.mem, ht.tcpm]
    exact hv₂ rfl

theorem startPump_spec (hoff : ¬ ChgOn s) (hgranted : s.mem.bat.directCharging = true)
    (batteryUv : Nat) :
    wp Cntl5Writes parkingMonitor (startPump batteryUv).run (fun r _ s' => ∀ ma mv,
      r = .ok (ma, mv) → s'.mem = s.mem ∧ s'.tcpm.voltageUv = (mv * 1000 : Nat)) h s := by
  have hfail : ∀ (e : Errno) (s' : State) (ma mv : Nat),
      (.error e : Except Errno (Nat × Nat)) = .ok (ma, mv) →
      s'.mem = s.mem ∧ s'.tcpm.voltageUv = (mv * 1000 : Nat) := by
    intro e s' ma mv hr
    cases hr
  unfold startPump
  refine wp_run_seq (wp_tunes hwInit_tunes) (fun e _ s' _ => hfail e s') ?_
  intro _ h₁ s₁ h1
  refine wp_run_seq (negotiatePps_spec (h1.parked hoff) _) (fun e _ s' _ => hfail e s') ?_
  intro point h₂ s₂ hpoint
  obtain ⟨ma, mv⟩ := point
  obtain ⟨h2, hv₂⟩ := hpoint
  have hmem₂ : s₂.mem = s.mem := h2.mem.trans h1.mem
  refine wp_run_seq (wp_tunes (selectFreq_tunes _)) (fun e _ s' _ => hfail e s') ?_
  intro _ h₃ s₃ h3
  refine wp_run_seq (wp_tunes (setIbusLimit_tunes _)) (fun e _ s' _ => hfail e s') ?_
  intro _ h₄ s₄ h4
  have h34 := h3.trans h4
  have hv₄ : s₄.tcpm.voltageUv = (mv * 1000 : Nat) := by
    rw [h34.tcpm]
    exact hv₂ ma mv rfl
  refine wp_run_seq (waitSettled_spec hv₄ 30) (fun e _ s' _ => hfail e s') ?_
  intro _ h₅ s₅ hsettled
  obtain ⟨h5, hset⟩ := hsettled
  refine wp_run_seq (wp_tunes (updateBits_tunes DcReg.noConfusion _ _))
    (fun e _ s' _ => hfail e s') ?_
  intro _ h₆ s₆ h6
  have hmem₆ : s₆.mem = s.mem := h6.mem.trans (h5.mem.trans (h34.mem.trans hmem₂))
  refine wp_run_seq (pumpOn_spec (by rw [hmem₆]; exact hgranted) (h6.settled (hset rfl)))
    (fun e _ s' _ => hfail e s') ?_
  intro _ h₇ s₇ h7 ma' mv' hr
  cases hr
  refine ⟨h7.1.trans hmem₆, ?_⟩
  rw [h7.2, h6.tcpm, h5.tcpm]
  exact hv₄

theorem start_orders (hs : InStep s) (hinactive : s.mem.dc.active = false) :
    Orders start.run (fun _ _ s' => InStep s') h s := by
  unfold start
  refine Orders.run_bind (Orders.of_wp (wp_looks (psyGetNonneg_looks _ _))) ?_ ?_
  · intro e h₁ s₁ h1
    exact inStep_of_inactive (by rw [h1.mem]; exact hinactive) (h1.parked (hs.parked hinactive))
  intro batteryUv h₁ s₁ h1
  have hoff₁ : ¬ ChgOn s₁ := h1.parked (hs.parked hinactive)
  have hinactive₁ : s₁.mem.dc.active = false := by
    rw [h1.mem]
    exact hinactive
  refine Orders.run_bind (Orders.of_wp setDirectCharge_true_spec) ?_ ?_
  · intro e h₂ s₂ h2
    exact inStep_of_inactive (by rw [h2.1.driver]; exact hinactive₁) (h2.1.parked hoff₁)
  intro _ h₂ s₂ h2
  obtain ⟨haside, hgranted⟩ := h2
  refine Orders.run_attempt_bind (Orders.of_wp
    (startPump_spec (haside.parked hoff₁) (hgranted rfl) batteryUv)) ?_
  intro r h₃ s₃ h3
  cases r with
  | error e =>
    refine Orders.run_bind (P := fun _ _ s' => InStep s') (Orders.run_lift restoreSwitching_orders)
      (fun _ _ _ hk => hk) fun _ _ _ hk _ => hk
  | ok point =>
    obtain ⟨ma, mv⟩ := point
    obtain ⟨hmem, hv⟩ := h3 ma mv rfl
    refine Orders.run_lift (Orders.store fun _ => inStep_of_active rfl ?_ hv)
    show s₃.mem.bat.directCharging = true
    rw [hmem]
    exact hgranted rfl

theorem InStep.of_tuned {h' : List (Event board)} {s' : State} (hs : InStep s)
    (ht : Tuned h s h' s') : InStep s' := by
  refine ⟨fun hi => ht.parked (hs.parked ?_), fun ha => ?_, fun ha => ?_⟩
  · rw [← ht.mem]
    exact hi
  · rw [ht.mem] at ha ⊢
    exact hs.granted ha
  · rw [ht.mem] at ha
    rw [ht.tcpm, ht.mem]
    exact hs.target ha

/-- A store that the order does not depend on. -/
theorem InStep.setMem (hs : InStep s) {f : Mem → Mem} (hbat : (f s.mem).bat = s.mem.bat)
    (hactive : (f s.mem).dc.active = s.mem.dc.active)
    (htarget : (f s.mem).dc.targetMv = s.mem.dc.targetMv) : InStep (s.setMem f) := by
  refine ⟨fun hi => hs.parked (hactive.symm.trans hi), fun ha => ?_, fun ha => ?_⟩
  · rw [setMem_mem, hbat]
    exact hs.granted (hactive.symm.trans ha)
  · rw [setMem_mem, setMem_tcpm, htarget]
    exact hs.target (hactive.symm.trans ha)

theorem backoff_orders (hs : InStep s) : Orders backoff (fun _ _ s' => InStep s') h s := by
  unfold backoff
  refine (Orders.load (Q := fun _ _ s' => InStep s') fun _ => hs).bind fun m _ s₁ hs₁ => ?_
  refine (Orders.store (Q := fun _ _ s' => InStep s') fun _ => hs₁.setMem rfl rfl rfl).bind ?_
  exact fun _ _ _ hs₂ _ => hs₂

theorem restore_backoff_orders :
    Orders (restoreSwitching >>= fun _ => backoff) (fun _ _ s' => InStep s') h s :=
  restoreSwitching_orders.bind fun _ _ _ hs => backoff_orders hs

theorem logged_restore_orders {f : Unit → Code Nat}
    (hf : ∀ {h s}, InStep s → Orders (f ()) (fun _ _ s' => InStep s') h s) :
    Orders (logFaults >>= fun _ => restoreSwitching >>= f) (fun _ _ s' => InStep s') h s :=
  (Orders.of_wp (wp_looks logFaults_looks)).bind fun _ _ _ _ =>
    restoreSwitching_orders.bind fun _ _ _ hs => hf hs

theorem workIdle_orders (hs : InStep s) (hinactive : s.mem.dc.active = false) :
    Orders workIdle (fun _ _ s' => InStep s') h s := by
  unfold workIdle
  refine (Orders.of_wp (wp_looks fastChargeEnabled_looks)).bind fun b h₁ s₁ h1 => ?_
  refine wp_ite (fun _ _ => hs.of_tuned h1) fun _ => ?_
  refine Orders.bind (Orders.of_wp (wp_looks eligible_looks)) fun b h₂ s₂ h2 => ?_
  have h12 := h1.trans h2
  refine wp_ite (fun _ _ => hs.of_tuned h12) fun _ => ?_
  refine (start_orders (hs.of_tuned h12) (by rw [h12.mem]; exact hinactive)).bind ?_
  intro r h₃ s₃ hs₃
  cases r with
  | error e => exact backoff_orders hs₃
  | ok _ =>
    refine (Orders.store (Q := fun _ _ s' => InStep s') fun _ => hs₃.setMem rfl rfl rfl).bind ?_
    exact fun _ _ _ hs₄ _ => hs₄

theorem workMonitor_orders (hs : InStep s) : Orders workMonitor (fun _ _ s' => InStep s') h s := by
  unfold workMonitor
  refine (Orders.of_wp (wp_looks measure_looks)).bind fun r h₁ s₁ h1 => ?_
  refine wp_ite (fun _ => ?_) fun _ => logged_restore_orders backoff_orders
  refine Orders.bind (Orders.of_wp (wp_tunes (updateBits_tunes DcReg.noConfusion _ _))) ?_
  intro r h₂ s₂ h2
  cases r with
  | error e => exact restore_backoff_orders
  | ok _ =>
    have hs₂ : InStep s₂ := (hs.of_tuned h1).of_tuned h2
    refine (Orders.store (Q := fun _ _ s' => InStep s') fun _ => hs₂.setMem rfl rfl rfl).bind ?_
    exact fun _ _ _ hs₃ _ => hs₃

theorem workActive_orders (hs : InStep s) (hactive : s.mem.dc.active = true) :
    Orders workActive (fun _ _ s' => InStep s') h s := by
  unfold workActive
  refine (Orders.of_wp (wp_looks fastChargeEnabled_looks)).bind fun b h₁ s₁ h1 => ?_
  refine wp_ite (fun _ => logged_restore_orders fun hs' _ => hs') fun _ => ?_
  have hstay : ∀ {s' : State} {f : Mem → Mem}, InStep s' ∧ s'.mem.dc.active = true →
      (f s'.mem).bat = s'.mem.bat → (f s'.mem).dc.active = s'.mem.dc.active →
      (f s'.mem).dc.targetMv = s'.mem.dc.targetMv →
      InStep (s'.setMem f) ∧ (s'.setMem f).mem.dc.active = true :=
    fun hs' hbat hact htarget => ⟨hs'.1.setMem hbat hact htarget, hact.trans hs'.2⟩
  have hs₁ : InStep s₁ ∧ s₁.mem.dc.active = true :=
    ⟨hs.of_tuned h1, by rw [h1.mem]; exact hactive⟩
  refine Orders.bind (Orders.load (Q := fun _ _ s' => InStep s' ∧ s'.mem.dc.active = true)
    fun _ => hs₁) fun m _ s₂ hs₂ => ?_
  refine Orders.bind (Orders.store (Q := fun _ _ s' => InStep s' ∧ s'.mem.dc.active = true)
    fun _ => hstay hs₂ rfl rfl rfl) fun _ _ s₃ hs₃ => ?_
  refine wp_ite (fun _ => ?_) fun _ => workMonitor_orders hs₃.1
  refine Orders.bind (Orders.store (Q := fun _ _ s' => InStep s' ∧ s'.mem.dc.active = true)
    fun _ => hstay hs₃ rfl rfl rfl) fun _ _ s₄ hs₄ => ?_
  refine Orders.bind (Orders.of_wp (renegotiatePps_spec hs₄.1 hs₄.2)) ?_
  intro r h₅ s₅ h5
  cases r with
  | error e => exact logged_restore_orders backoff_orders
  | ok _ => exact workMonitor_orders (h5 rfl).1

/-- Branching on whether the pump is in use. -/
theorem ifActive_orders {α : Type} {p q : Code α} (hs : InStep s)
    (hp : ∀ {h s}, InStep s → s.mem.dc.active = true → Orders p (fun _ _ s' => InStep s') h s)
    (hq : ∀ {h s}, InStep s → s.mem.dc.active = false → Orders q (fun _ _ s' => InStep s') h s) :
    Orders (load >>= fun m => if m.dc.active then p else q) (fun _ _ s' => InStep s') h s := by
  refine (Orders.load (Q := fun m _ s' => InStep s' ∧ m = s'.mem) fun _ => ⟨hs, rfl⟩).bind ?_
  intro m _ s' hm
  obtain ⟨hs', rfl⟩ := hm
  exact wp_ite (fun hact => hp hs' hact) fun hact => hq hs' (Bool.eq_false_iff.2 hact)

/-- Every entry point keeps the order, as long as its restore can read the mode. -/
theorem code_orders (c : PumpCall) (hs : InStep s) :
    Orders c.code (fun _ _ s' => InStep s') h s := by
  have hstore : ∀ {f : Mem → Mem} {h : List (Event board)} {s : State}, InStep s →
      (f s.mem).bat = s.mem.bat → (f s.mem).dc.active = s.mem.dc.active →
      (f s.mem).dc.targetMv = s.mem.dc.targetMv →
      Orders (store f) (fun _ _ s' => InStep s') h s :=
    fun hs hbat hact htarget => Orders.store fun _ => hs.setMem hbat hact htarget
  cases c with
  | work =>
    unfold PumpCall.code work
    refine (hstore hs rfl rfl rfl).bind fun _ _ _ hs => ?_
    refine Orders.bind (ifActive_orders hs workActive_orders workIdle_orders) fun delay _ _ hs => ?_
    refine Orders.bind (Orders.load (Q := fun _ _ s' => InStep s') fun _ => hs) fun m _ _ hs => ?_
    exact wp_ite (fun _ => hstore hs rfl rfl rfl) fun _ _ => hs
  | suspendPrepare =>
    unfold PumpCall.code suspendPrepare
    refine (hstore hs rfl rfl rfl).bind fun _ _ _ hs => ?_
    refine (hstore hs rfl rfl rfl).bind fun _ _ _ hs => ?_
    refine ifActive_orders hs (fun _ _ => ?_) fun hs _ _ => hs
    exact (Orders.of_wp pumpOff_spec).bind fun _ _ _ _ => restoreSwitching_orders
  | postSuspend =>
    unfold PumpCall.code postSuspend
    exact (hstore hs rfl rfl rfl).bind fun _ _ _ hs => hstore hs rfl rfl rfl
  | cancelWork =>
    unfold PumpCall.code cancelWork
    refine (hstore hs rfl rfl rfl).bind fun _ _ _ hs => ?_
    exact ifActive_orders hs (fun _ _ => restoreSwitching_orders) fun hs _ _ => hs

end

/-! ## Runs -/

/-- Every operation of the step keeps the order, judged by those before it. -/
def KeepsOrder (l : PumpStep) (s : State) : Prop :=
  ∀ pre e post, l.trace s = pre ++ e :: post → Ordered pre e

/-- Writes to CNTL5 succeed. -/
def Cntl5WritesSucceed (l : PumpStep) (s : State) : Prop := ∀ e ∈ l.trace s, Cntl5Writes e

/-- `Negotiation`, of the operation alone. -/
def negotiates : Op → Bool
  | .psySet _ _ => true
  | _ => false

def writesCntl5 : Op → Bool
  | .dcWrite .cntl5 _ => true
  | _ => false

theorem negotiates_iff (e : Event board) : negotiates e.op = true ↔ Negotiation e := by
  unfold Negotiation
  split <;> simp_all [negotiates]

theorem writesCntl5_iff (e : Event board) :
    (writesCntl5 e.op = true → e.input.fault = none) ↔ Cntl5Writes e := by
  unfold Cntl5Writes
  split <;> simp_all [writesCntl5]

instance : DecidablePred Negotiation := fun e => decidable_of_iff _ (negotiates_iff e)

instance : DecidablePred Cntl5Writes := fun e => decidable_of_iff _ (writesCntl5_iff e)

instance (l : PumpStep) (s : State) : Decidable (Cntl5WritesSucceed l s) :=
  inferInstanceAs (Decidable (∀ e ∈ l.trace s, Cntl5Writes e))

theorem KeepsOrder.parked {l : PumpStep} {s : State} (hk : KeepsOrder l s) :
    ∀ e ∈ l.trace s, Negotiation e → ¬ ChgOn (e.pre.settle e.input) := by
  intro e he
  obtain ⟨pre, post, htr⟩ := List.append_of_mem he
  exact (hk pre e post htr).parked

/-- The first operation of a trace, if it is a restore, judged by the next. -/
def FirstReads (e : Event board) (tr : List (Event board)) : Prop :=
  entered e = some .restoreSwitching → ∀ x ∈ tr.head?, ChgOn (x.pre.settle x.input) →
    x.input.fault = none

theorem restoresRead_cons {e : Event board} {tr : List (Event board)} :
    RestoresRead (e :: tr) ↔ FirstReads e tr ∧ RestoresRead tr := by
  constructor
  · intro h
    refine ⟨fun he x hx hon => ?_, fun pre e₁ x post htr => ?_⟩
    · obtain ⟨post, rfl⟩ := List.head?_eq_some_iff.1 (Option.mem_def.1 hx)
      exact h [] e x post rfl he hon
    · exact h (e :: pre) e₁ x post (congrArg (e :: ·) htr)
  · intro h pre e₁ x post htr he₁ hon
    obtain ⟨hfirst, hrest⟩ := h
    cases pre with
    | nil =>
      obtain ⟨rfl, rfl⟩ := List.cons.inj htr
      exact hfirst he₁ x rfl hon
    | cons e₀ pre =>
      obtain ⟨rfl, rfl⟩ := List.cons.inj htr
      exact hrest pre e₁ x post rfl he₁ hon

instance (e : Event board) (tr : List (Event board)) : Decidable (FirstReads e tr) :=
  inferInstanceAs (Decidable (_ → _))

instance decidableRestoresRead : DecidablePred RestoresRead
  | [] => isTrue fun pre _ _ _ h => absurd h.symm (by simp)
  | _ :: tr => @decidable_of_iff' _ _ restoresRead_cons
      (@instDecidableAnd _ _ inferInstance (decidableRestoresRead tr))

/-- One step of a run whose restores can read the mode. -/
theorem pumpStep_inStep {l : PumpStep} {s : State} (hs : InStep s) (hw : Cntl5WritesSucceed l s)
    (hr : RestoresRead (l.trace s)) : InStep (pumpStep l s) ∧ KeepsOrder l s := by
  cases l with
  | call c ι =>
    obtain ⟨hsafe, hkept⟩ := wp_sound (code_orders c (h := []) hs) ι hw
    rw [Monitor.after_history] at hkept
    refine ⟨hkept hr, fun pre e post htr => ?_⟩
    have hr' : RestoresRead (pre ++ [e] ++ post) := by
      rw [List.append_assoc, List.singleton_append, ← htr]
      exact hr
    exact Monitor.ok_of_safe_history hsafe htr hr'.of_append
  | elsewhere f hf =>
    refine ⟨⟨fun hi => ?_, fun ha => ?_, fun ha => ?_⟩, fun pre e post htr => ?_⟩
    · unfold ChgOn pumpStep
      rw [hf.dc]
      exact hs.parked ((congrArg Direct.active (hf.driver s)).symm.trans hi)
    · exact (hf.granted s).trans (hs.granted ((congrArg Direct.active (hf.driver s)).symm.trans ha))
    · unfold pumpStep
      rw [hf.tcpm, hf.driver]
      exact hs.target ((congrArg Direct.active (hf.driver s)).symm.trans ha)
    · exact absurd htr (by simp [PumpStep.trace])

/-- **The pump is parked across negotiations.** In a run of the work item, the PM notifier and the
removal, in any order, started inactive with the pump off, in which writes to CNTL5 succeed: if every
restore that finds the pump on can read CNTL5, then no TCPM property is written while the mode is
`CHG_ON`, and `CHG_ON` is only set with direct charging granted and VBUS measured within 500 mV of
the requested voltage since the last negotiation. -/
theorem pump_parked_across_negotiations {steps : List PumpStep} {s : State}
    (hinactive : s.mem.dc.active = false) (hoff : PumpOff s)
    (hw : Meets pumpStep Cntl5WritesSucceed steps s)
    (hr : Meets pumpStep (fun l s => RestoresRead (l.trace s)) steps s) :
    Meets pumpStep KeepsOrder steps s := by
  have h0 : InStep s := inStep_of_inactive hinactive (not_chgOn_of_pumpOff hoff)
  exact Meets.imp (fun l s hs hc => pumpStep_inStep hs hc.1 hc.2) h0 (hw.and hr)

/-- The pump is started, then the switch goes off and the pack is handed back. -/
theorem pump_parked_across_negotiations_switched_off :
    Meets pumpStep KeepsOrder
      [switchFastCharge true, startPass, switchFastCharge false, .call .work (inputs [])] .probed := by
  refine pump_parked_across_negotiations rfl (by decide) ⟨?_, ?_, ?_, ?_, trivial⟩
    ⟨?_, ?_, ?_, ?_, trivial⟩ <;> exact of_decide_eq_true rfl

/-- As before, but the read of CNTL5 fails when the pack is handed back: the port is asked for its
fixed contract with the pump running, although no write to CNTL5 fails. -/
theorem negotiated_with_pump_on :
    Meets pumpStep Cntl5WritesSucceed
        [switchFastCharge true, startPass, switchFastCharge false,
          .call .work (inputs [{}, {}, {}, {}, {}, {}, { fault := some .eio }])] .probed ∧
      ¬ Meets pumpStep KeepsOrder
        [switchFastCharge true, startPass, switchFastCharge false,
          .call .work (inputs [{}, {}, {}, {}, {}, {}, { fault := some .eio }])] .probed := by
  refine ⟨⟨?_, ?_, ?_, ?_, trivial⟩, fun h => ?_⟩
  · exact of_decide_eq_true rfl
  · exact of_decide_eq_true rfl
  · exact of_decide_eq_true rfl
  · exact of_decide_eq_true rfl
  · have hparked := h.2.2.2.1.parked
    exact absurd hparked (of_decide_eq_false rfl)

end Gts9Wifi.Charger.Sm5440
