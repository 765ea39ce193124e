import Gts9Wifi.Lens.Dw9808
import Gts9Wifi.Lib.Runs

/-!
# The lens's vote for the rail

A resume takes one vote and gives it back if the chip cannot be initialised, though the device is
active all the same. A suspend looks at the shared rail, not at its own vote, and gives back a vote
whenever the rail is up. So votes balance precisely as long as every suspend that reads the rail holds
a vote, or finds the sensor's vote gone. A suspend can find the vote gone after a resume that lost a
write (`resume_leaves`) or after a suspend that failed (`suspend_leaves`).
-/

namespace Gts9Wifi.Lens

open Driver

/-! ## Vocabulary -/

/-- No vote is given back that is not held. -/
def GivesOwnVote (e : Event lens) : Prop := e.op = .regulatorDisable → e.pre.uses ≠ 0

/-- During the step the count is zero or one and only held votes are given back, and after a suspend
none is left. -/
structure Balanced (l : Step) (s : State) : Prop where
  during : ∀ e ∈ l.trace s, e.pre.uses ≤ 1 ∧ GivesOwnVote e
  after : (step l s).uses ≤ 1
  released : l.call = .suspend → (step l s).uses = 0

/-- The operation reads the rail with the driver's vote held, or without the sensor's. -/
def ReadsOwnVote (e : Event lens) : Prop :=
  e.op = .regulatorIsEnabled → e.pre.uses = 1 ∨ (e.pre.switch e.input.levels).sensor = false

def VoteHeld (l : Step) (s : State) : Prop :=
  l.call = .suspend → ∀ e ∈ l.trace s, ReadsOwnVote e

instance (e : Event lens) : Decidable (ReadsOwnVote e) := inferInstanceAs (Decidable (_ → _ ∨ _))

instance (l : Step) (s : State) : Decidable (VoteHeld l s) :=
  inferInstanceAs (Decidable (_ → ∀ e ∈ l.trace s, ReadsOwnVote e))

/-! ## Votes -/

@[simp] theorem switch_dev (levels : List Bool) (s : State) : (s.switch levels).dev = s.dev := by
  induction levels generalizing s with
  | nil => rfl
  | cons level levels ih => exact ih _

@[simp] theorem switch_active (levels : List Bool) (s : State) :
    (s.switch levels).active = s.active := by
  induction levels generalizing s with
  | nil => rfl
  | cons level levels ih => exact ih _

@[simp] theorem switch_uses (levels : List Bool) (s : State) : (s.switch levels).uses = s.uses := by
  induction levels generalizing s with
  | nil => rfl
  | cons level levels ih => exact ih _

/-- The driver's count, and whether the device is active. -/
def meter (s : State) : Nat × Bool := (s.uses, s.active)

/-- Operations that move the lens, and loads. -/
def Moving : Op → Prop
  | .load | .smbusReadByteData _ | .masterSend _ | .pollExpired => True
  | _ => False

/-- Operations on the chip and loads. -/
def Driving : Op → Prop
  | .load | .smbusReadByteData _ | .smbusWriteByteData _ _ | .masterSend _ | .pollExpired => True
  | _ => False

/-- Operations that leave the count and the device's state alone. -/
def Calm : Op → Prop
  | .regulatorEnable | .regulatorDisable | .setPmActive _ => False
  | _ => True

theorem Moving.driving {o : Op} (h : Moving o) : Driving o := by
  cases o with
  | smbusWriteByteData reg value => exact h.elim
  | _ => exact h

theorem Driving.calm {o : Op} (h : Driving o) : Calm o := by
  cases o with
  | regulatorEnable | regulatorDisable | setPmActive _ => exact h
  | _ => trivial

@[simp] theorem meter_receive (s : State) (i : Input) (ws : List (BitVec 8 × BitVec 8)) :
    meter (s.receive i ws) = meter s := by
  unfold State.receive
  split <;> rfl

theorem Calm.frame {o : Op} (h : Calm o) (i : Input) (s : State) :
    meter (handle o i s).2 = meter s := by
  have hswitch : meter (s.switch i.levels) = meter s := by simp [meter]
  rw [← hswitch, handle]
  cases o with
  | regulatorEnable | regulatorDisable | setPmActive _ => exact h.elim
  | pmRuntimeGetIfInUse =>
    cases hf : i.fault with
    | some e => simp only [act, hf]
    | none => simp only [act, hf]
  | smbusWriteByteData reg value => exact meter_receive _ i _
  | masterSend data => exact meter_receive _ i _
  | _ => rfl

/-! ## Which operations the functions issue -/

theorem pollStatus_moving (n : Nat) : Issues Moving (pollStatus n).run := by
  induction n with
  | zero => exact ⟨trivial, fun _ => trivial⟩
  | succ n ih =>
    refine Issues.run_bind ⟨trivial, fun _ => trivial⟩ fun status => ?_
    split
    · trivial
    refine Issues.run_bind ⟨trivial, fun _ => trivial⟩ fun expired => ?_
    split
    · exact ⟨trivial, fun _ => trivial⟩
    · exact ih

theorem setPosition_moving (position : Nat) : Issues Moving (setPosition position).run := by
  refine Issues.run_bind (pollStatus_moving pollLimit) fun status => ?_
  split
  · trivial
  refine Issues.run_bind ⟨trivial, fun _ => trivial⟩ fun sent => ?_
  split <;> trivial

theorem setPosition_driving (position : Nat) : Issues Driving (setPosition position).run :=
  (setPosition_moving position).mono fun _ => Moving.driving

theorem ramp_moving (positions : List Nat) : Issues Moving (ramp positions).run := by
  induction positions with
  | nil => trivial
  | cons position positions ih =>
    refine Issues.run_bind (Issues.run_attempt (setPosition_moving position)) fun r => ?_
    split
    · trivial
    · exact ih

theorem writeSequence_driving (ws : List (BitVec 8 × BitVec 8)) :
    Issues Driving (writeSequence ws).run := by
  induction ws with
  | nil => trivial
  | cons w ws ih => exact Issues.run_bind ⟨trivial, fun _ => trivial⟩ fun _ => ih

theorem ensureReady_calm : Issues Calm ensureReady.run := by
  unfold ensureReady
  refine Issues.run_bind ⟨trivial, fun _ => trivial⟩ fun enabled => ?_
  split
  · exact Issues.run_bind ⟨trivial, fun _ => trivial⟩ fun _ => trivial
  refine Issues.run_bind ⟨trivial, fun _ => trivial⟩ fun dev => ?_
  split
  · trivial
  refine Issues.run_bind ((writeSequence_driving _).mono fun _ => Driving.calm) fun _ => ?_
  exact ⟨trivial, fun _ => trivial⟩

theorem setControl_calm (id : Nat) (val : Int) : Issues Calm (setControl id val).run := by
  unfold setControl
  split
  · trivial
  refine Issues.run_bind ⟨trivial, fun _ => trivial⟩ fun _ => ?_
  refine Issues.run_bind ⟨trivial, fun _ => trivial⟩ fun inUse => ?_
  split
  · trivial
  refine Issues.run_bind (Issues.run_attempt ensureReady_calm) fun r => ?_
  split
  · split <;> trivial
  · refine Issues.run_bind ⟨trivial, fun _ => trivial⟩ fun dev => ?_
    exact (setPosition_driving _).mono fun _ => Driving.calm

/-! ## Driving the chip -/

/-- Operations on the chip are accepted and keep `J`. -/
def Framed (A : Event lens → Prop) (M : Monitor lens) (J : M.St → State → Prop) : Prop :=
  ∀ o, Driving o → ∀ i m s, A ⟨o, i, s⟩ → J m s →
    M.ok m ⟨o, i, s⟩ ∧ J (M.step m ⟨o, i, s⟩) (handle o i s).2

section Framed

variable {A : Event lens → Prop} {M : Monitor lens} {J : M.St → State → Prop} {α β : Type}
  {m : M.St} {s : State}

theorem Framed.load_seq (hF : Framed A M J) {f : Dev → Code β}
    {Q : Except Errno β → M.St → State → Prop} (h : J m s)
    (hf : ∀ m' s', s'.dev = s.dev → J m' s' → wp A M (f s.dev).run Q m' s') :
    wp A M (load >>= f).run Q m s := by
  refine (wp_run_bind _ _ _ _ _).2 fun i hi => ?_
  obtain ⟨hok, hJ⟩ := hF .load trivial i m s hi h
  have hdev : (handle .load i s).2.dev = s.dev := switch_dev i.levels s
  refine ⟨hok, ?_⟩
  rw [← hdev] at hf
  exact hf _ _ rfl hJ

theorem Framed.attempt_seq (hF : Framed A M J) {x : Code α} (hx : Issues Driving x.run)
    {f : Except Errno α → Code β} {Q : Except Errno β → M.St → State → Prop} (h : J m s)
    (hf : ∀ r m' s', J m' s' → wp A M (f r).run Q m' s') : wp A M (attempt x >>= f).run Q m s :=
  wp_run_attempt_seq (hx.wp (W := lens) hF h) hf

/-- The loop of `resume` hides its errors. -/
theorem Framed.ramp (hF : Framed A M J) (positions : List Nat) (h : J m s) :
    wp A M (ramp positions).run (fun r m' s' => r = .ok () ∧ J m' s') m s := by
  induction positions generalizing m s with
  | nil => exact ⟨rfl, h⟩
  | cons position positions ih =>
    refine hF.attempt_seq (setPosition_driving position) h fun r m' s' h' => ?_
    split
    · exact ⟨rfl, h'⟩
    · exact ih h'

/-- The loop of `suspend` keeps them. -/
theorem Framed.park (hF : Framed A M J) (k : Nat) (ret : Except Errno Unit) (h : J m s) :
    wp A M (park k ret).run (fun r m' s' => (∃ ret', r = .ok ret') ∧ J m' s') m s := by
  induction k generalizing ret m s with
  | zero => exact hF.attempt_seq (setPosition_driving 0) h fun r m' s' h' => ⟨⟨_, rfl⟩, h'⟩
  | succ k ih => exact hF.attempt_seq (setPosition_driving _) h fun r m' s' h' => ih _ h'

/-- A suspend on a rail that is up, as far as it drives the chip. -/
theorem Framed.park_seq (hF : Framed A M J) {f : Except Errno Unit → Except Errno Unit → Code β}
    {Q : Except Errno β → M.St → State → Prop} (h : J m s)
    (hf : ∀ ret r m' s', J m' s' → wp A M (f ret r).run Q m' s') :
    wp A M (do
      let dev ← load
      let ret ← Lens.park (dev.position / ctrlSteps) (.ok ())
      let r ← attempt (smbusWriteByteData regControl 0x01)
      f ret r).run Q m s := by
  have hwrite : Issues Driving (smbusWriteByteData regControl 0x01).run :=
    ⟨trivial, fun _ => trivial⟩
  refine hF.load_seq h fun m₁ s₁ _ h₁ => ?_
  refine wp_run_seq (hF.park _ _ h₁) ?_ ?_
  · rintro e _ s₂ ⟨⟨ret, heq⟩, -⟩
    exact nomatch heq
  rintro ret m₂ s₂ ⟨-, h₂⟩
  exact hF.attempt_seq hwrite h₂ fun r m₃ s₃ h₃ => hf ret r m₃ s₃ h₃

end Framed

/-! ## One step -/

/-- Accepts what leaves the votes in balance. -/
abbrev votesMonitor : Monitor lens := Monitor.each fun e => e.pre.uses ≤ 1 ∧ GivesOwnVote e

section Rules

variable {A : Event lens → Prop} {α β : Type} {s : State} {n : Nat} {a : Bool}

theorem wp_calm {x : Code α} (hx : Issues Calm x.run) (hs : meter s = (n, a)) (hn : n ≤ 1) :
    wp A votesMonitor x.run (fun _ _ s' => meter s' = (n, a)) () s := by
  refine hx.wp (W := lens) (M := votesMonitor) (J := fun _ s' => meter s' = (n, a))
    (fun o ho i _ s' _ hs' => ⟨⟨?_, ?_⟩, (ho.frame i s').trans hs'⟩) hs
  · have huses : s'.uses = n := congrArg Prod.fst hs'
    rw [huses]
    exact hn
  · rintro rfl
    exact ho.elim

theorem wp_calm_attempt_seq {x : Code α} {f : Except Errno α → Code β}
    {Q : Except Errno β → Unit → State → Prop} (hx : Issues Calm x.run) (hs : meter s = (n, a))
    (hn : n ≤ 1) (hf : ∀ r s', meter s' = (n, a) → wp A votesMonitor (f r).run Q () s') :
    wp A votesMonitor (attempt x >>= f).run Q () s :=
  wp_run_attempt_seq (wp_calm hx hs hn) fun r _ s' => hf r s'

/-- A vote that is held is given back. -/
theorem wp_regulatorDisable {Q : Except Errno Unit → Unit → State → Prop} (hs : meter s = (1, a))
    (h : ∀ s', meter s' = (0, a) → Q (.ok ()) () s') :
    wp A votesMonitor regulatorDisable.run Q () s := by
  have huses : s.uses = 1 := congrArg Prod.fst hs
  have hactive : s.active = a := congrArg Prod.snd hs
  have hle : s.uses ≤ 1 := by omega
  have hne : s.uses ≠ 0 := by omega
  refine fun i _ => ⟨⟨hle, fun _ => hne⟩, h _ ?_⟩
  simp [meter, handle, act, State.vote, huses, hactive]

theorem wp_regulatorEnable {Q : Except Errno Unit → Unit → State → Prop} (hs : meter s = (0, a))
    (herr : ∀ e s', meter s' = (0, a) → Q (.error e) () s')
    (hok : ∀ s', meter s' = (1, a) → Q (.ok ()) () s') :
    wp A votesMonitor regulatorEnable.run Q () s := by
  have huses : s.uses = 0 := congrArg Prod.fst hs
  have hactive : s.active = a := congrArg Prod.snd hs
  have hle : s.uses ≤ 1 := by omega
  refine (wp_perform _ _ _ _).2 fun i _ => ⟨⟨hle, nofun⟩, ?_⟩
  cases hf : i.fault with
  | some e =>
    simp only [handle, act, hf]
    exact herr e _ (by simp [meter, huses, hactive])
  | none =>
    simp only [handle, act, hf]
    exact hok _ (by simp [meter, State.vote, huses, hactive])

theorem wp_setPmActive {b : Bool} {Q : Except Errno Unit → Unit → State → Prop} (hs : meter s = (n, a))
    (hn : n ≤ 1) (h : ∀ s', meter s' = (n, b) → Q (.ok ()) () s') :
    wp A votesMonitor (setPmActive b).run Q () s := by
  have huses : s.uses = n := congrArg Prod.fst hs
  have hle : s.uses ≤ 1 := by omega
  refine fun i _ => ⟨⟨hle, nofun⟩, h _ ?_⟩
  simp [meter, handle, act, huses]

/-- A rail that is up, and the reader's own vote. -/
theorem wp_regulatorIsEnabled_seq {f : Bool → Code β} {Q : Except Errno β → Unit → State → Prop}
    (hs : meter s = (n, a)) (hn : n ≤ 1)
    (hdown : ∀ s', meter s' = (0, a) → wp ReadsOwnVote votesMonitor (f false).run Q () s')
    (hup : ∀ s', meter s' = (1, a) → wp ReadsOwnVote votesMonitor (f true).run Q () s') :
    wp ReadsOwnVote votesMonitor (regulatorIsEnabled >>= f).run Q () s := by
  have huses : s.uses = n := congrArg Prod.fst hs
  have hactive : s.active = a := congrArg Prod.snd hs
  have hle : s.uses ≤ 1 := by omega
  refine (wp_run_bind _ _ _ _ _).2 fun i hi => ⟨⟨hle, nofun⟩, ?_⟩
  have hmeter : meter (s.switch i.levels) = (n, a) := by simp [meter, huses, hactive]
  have hown : n = 1 ∨ (s.switch i.levels).sensor = false := by
    rw [← huses]
    exact hi rfl
  show wp ReadsOwnVote votesMonitor (f (s.switch i.levels).rail).run Q () (s.switch i.levels)
  cases hrail : (s.switch i.levels).rail with
  | false =>
    have hzero : n = 0 := by
      simp [State.rail, huses] at hrail
      exact hrail.2
    exact hdown _ (hzero ▸ hmeter)
  | true =>
    have hone : n = 1 := by
      rcases hown with hone | hsensor
      · exact hone
      · simp [State.rail, hsensor, huses] at hrail
        omega
    exact hup _ (hone ▸ hmeter)

end Rules

theorem framed_votes {A : Event lens → Prop} {n : Nat} {a : Bool} (hn : n ≤ 1) :
    Framed A votesMonitor fun _ s => meter s = (n, a) := by
  intro o ho i _ s _ hs
  have huses : s.uses = n := congrArg Prod.fst hs
  refine ⟨⟨huses.trans_le hn, ?_⟩, (ho.calm.frame i s).trans hs⟩
  rintro rfl
  exact ho.elim

theorem resume_votes {A : Event lens → Prop} {s : State} {a : Bool} (hs : meter s = (0, a)) :
    wp A votesMonitor resume.run (fun r _ s' => meter s' = (0, a) ∨ r = .ok () ∧ meter s' = (1, a)) ()
      s := by
  unfold resume
  rw [wp_run_bind]
  refine wp_regulatorEnable hs (fun _ _ h => .inl h) fun s₁ h₁ => ?_
  refine wp_calm_attempt_seq ensureReady_calm h₁ le_rfl fun r s₂ h₂ => ?_
  split
  · exact wp_regulatorDisable h₂ fun _ h => .inl h
  · refine (framed_votes le_rfl).load_seq h₂ fun _ s₃ _ h₃ => ?_
    exact wp_mono ((framed_votes le_rfl).ramp _ h₃) fun _ _ _ h => .inr h

/-- A suspend that reads its own vote gives it back. -/
theorem suspend_votes {s : State} {n : Nat} (hs : meter s = (n, true)) (hn : n ≤ 1) :
    wp ReadsOwnVote votesMonitor suspend.run (fun _ _ s' => meter s' = (0, true)) () s := by
  have hinited {s' : State} (hs' : meter s' = (0, true)) :
      wp ReadsOwnVote votesMonitor (setInited false).run (fun _ _ s' => meter s' = (0, true)) () s' :=
    wp_calm ⟨trivial, fun _ => trivial⟩ hs' (by decide)
  unfold suspend
  refine wp_regulatorIsEnabled_seq hs hn (fun s₁ h₁ => hinited h₁) fun s₁ h₁ => ?_
  refine (framed_votes le_rfl).park_seq h₁ fun ret r _ s₂ h₂ => ?_
  rw [wp_run_bind]
  refine wp_regulatorDisable h₂ fun s₃ h₃ => ?_
  refine wp_run_seq (hinited h₃) (fun _ _ _ h => h) fun _ _ s₄ h₄ => ?_
  split <;> exact h₄

/-- What a resume has come to when it returns zero: its vote is kept, unless it was given back. -/
def Resumed (m : Prop) (a : Bool) (s : State) : Prop :=
  (m → meter s = (0, a)) ∧ (¬ m → meter s = (1, a))

/-- A write to the chip fails. -/
def LosesWrite (e : Event lens) : Prop :=
  (∃ reg value, e.op = .smbusWriteByteData reg value) ∧ e.input.fault ≠ none

section Held

variable {A : Event lens → Prop} {m : Prop} {s : State} {a : Bool}

theorem not_losesWrite {o : Op} (ho : ∀ reg value, o ≠ .smbusWriteByteData reg value) (hm : ¬ m)
    (i : Input) (s : State) : ¬ (m ∨ LosesWrite ⟨o, i, s⟩) := by
  rintro (h | ⟨⟨reg, value, hop⟩, -⟩)
  · exact hm h
  · exact ho reg value hop

/-- While a vote is held the rail is up. -/
theorem rail_switch_of_held (hs : meter s = (1, a)) (levels : List Bool) :
    (s.switch levels).rail = true := by
  have huses : s.uses = 1 := congrArg Prod.fst hs
  simp [State.rail, huses]

/-- With a vote held, writes fail on the bus only. -/
theorem writeSequence_held (hs : meter s = (1, a)) (hm : ¬ m) (ws : List (BitVec 8 × BitVec 8)) :
    wp A (.seen LosesWrite) (writeSequence ws).run
      (fun r m' s' => meter s' = (1, a) ∧ (m' ↔ r ≠ .ok ())) m s := by
  induction ws generalizing m s with
  | nil => exact ⟨hs, iff_of_false hm fun h => h rfl⟩
  | cons w ws ih =>
    refine (wp_run_bind _ _ _ _ _).2 fun i _ => ⟨trivial, ?_⟩
    have hdriving : Driving (.smbusWriteByteData w.1 w.2) := trivial
    have hmeter := (hdriving.calm.frame i s).trans hs
    have hrail := rail_switch_of_held hs i.levels
    cases hf : i.fault with
    | some e =>
      have hlost : LosesWrite ⟨.smbusWriteByteData w.1 w.2, i, s⟩ := ⟨⟨_, _, rfl⟩, by simp [hf]⟩
      simp only [handle, act, Input.answer, hf]
      exact ⟨hmeter, iff_of_true (.inr hlost) (nomatch ·)⟩
    | none =>
      have hkept : ¬ LosesWrite ⟨.smbusWriteByteData w.1 w.2, i, s⟩ := fun h => h.2 hf
      simp only [handle, act, Input.answer, hf, hrail, if_true]
      exact ih hmeter fun h => h.elim hm hkept

theorem ensureReady_held (hs : meter s = (1, a)) (hinited : s.dev.inited = false) (hm : ¬ m) :
    wp A (.seen LosesWrite) ensureReady.run
      (fun r m' s' => meter s' = (1, a) ∧ (m' ↔ r ≠ .ok ())) m s := by
  unfold ensureReady
  refine (wp_run_bind _ _ _ _ _).2 fun i _ => ⟨trivial, ?_⟩
  have hm₁ := not_losesWrite (o := .regulatorIsEnabled) (fun _ _ => Op.noConfusion) hm i s
  simp only [handle, act, rail_switch_of_held hs i.levels]
  have hs₁ : meter (s.switch i.levels) = (1, a) := by simpa [meter] using hs
  refine (wp_run_bind _ _ _ _ _).2 fun j _ => ⟨trivial, ?_⟩
  have hm₂ := not_losesWrite (o := .load) (fun _ _ => Op.noConfusion) hm₁ j (s.switch i.levels)
  have hs₂ : meter ((s.switch i.levels).switch j.levels) = (1, a) := by simpa [meter] using hs₁
  simp only [handle, act, switch_dev]
  show wp A (.seen LosesWrite) (if s.dev.inited then pure () else do
    init
    setInited true : Code Unit).run _ _ _
  rw [hinited]
  refine wp_run_seq (writeSequence_held hs₂ hm₂ initSequence) (fun e m' s' h => h) ?_
  rintro _ m' s' ⟨hs₃, hm₃⟩ k _
  refine ⟨trivial, ?_, iff_of_false ?_ fun h => h rfl⟩
  · exact (Calm.frame (o := .setInited true) trivial k s').trans hs₃
  · exact not_losesWrite (fun _ _ => Op.noConfusion) (fun h => hm₃.1 h rfl) k s'

theorem resume_held (hs : meter s = (0, a)) (hinited : s.dev.inited = false) (hm : ¬ m) :
    wp A (.seen LosesWrite) resume.run
      (fun r m' s' => s'.active = a ∧ (r = .ok () → Resumed m' a s')) m s := by
  have huses : s.uses = 0 := congrArg Prod.fst hs
  have hactive : s.active = a := congrArg Prod.snd hs
  unfold resume
  refine (wp_run_bind _ _ _ _ _).2 fun i _ => ⟨trivial, ?_⟩
  have hm₁ := not_losesWrite (o := .regulatorEnable) (fun _ _ => Op.noConfusion) hm i s
  cases hf : i.fault with
  | some e =>
    simp only [handle, act, hf]
    exact ⟨(switch_active i.levels s).trans hactive, (nomatch ·)⟩
  | none =>
    simp only [handle, act, hf]
    have hs₁ : meter
        ((s.switch i.levels).vote (s.switch i.levels).sensor ((s.switch i.levels).uses + 1)) = (1, a) := by
      simp [meter, State.vote, huses, hactive]
    refine wp_run_attempt_seq (ensureReady_held hs₁ (by simpa [State.vote] using hinited) hm₁) ?_
    rintro r m₂ s₂ ⟨hs₂, hr⟩
    cases r with
    | error e =>
      have hlost : m₂ := hr.2 (nomatch ·)
      have huses₂ : s₂.uses = 1 := congrArg Prod.fst hs₂
      have hactive₂ : s₂.active = a := congrArg Prod.snd hs₂
      intro j _
      refine ⟨trivial, ?_⟩
      have hback : meter (handle .regulatorDisable j s₂).2 = (0, a) := by
        simp [meter, handle, act, State.vote, huses₂, hactive₂]
      exact ⟨congrArg Prod.snd hback, fun _ => ⟨fun _ => hback, fun h => absurd (.inl hlost) h⟩⟩
    | ok u =>
      have hm₂ : ¬ m₂ := fun h => hr.1 h rfl
      have hmoves : Issues Moving (do
          let dev ← load
          ramp (rampPositions dev.position) : Code Unit).run :=
        Issues.run_bind ⟨trivial, fun _ => trivial⟩ fun dev => ramp_moving _
      refine wp_mono (hmoves.wp (W := lens) (M := .seen LosesWrite)
        (J := fun m' s' => ¬ m' ∧ meter s' = (1, a)) ?_ ⟨hm₂, hs₂⟩) ?_
      · rintro o ho j m' s' - ⟨hm', hs'⟩
        refine ⟨trivial, not_losesWrite ?_ hm' j s', (ho.driving.calm.frame j s').trans hs'⟩
        rintro reg value rfl
        exact ho.elim
      · exact fun _ m' s' h => ⟨congrArg Prod.snd h.2, fun _ => ⟨fun hm' => absurd hm' h.1, fun _ => h.2⟩⟩

end Held

/-- Once the sensor's vote was read for the driver's own, the count is zero. -/
theorem framed_seen {A : Event lens → Prop} :
    Framed A (Monitor.seen fun e => ¬ ReadsOwnVote e) fun m s => m → s.uses = 0 := by
  intro o ho i m s _ hs
  refine ⟨trivial, ?_⟩
  rintro (hm | hbad)
  · exact (congrArg Prod.fst (ho.calm.frame i s)).trans (hs hm)
  · refine absurd ?_ hbad
    rintro rfl
    exact ho.elim

/-- Only reading the rail can go wrong. -/
theorem not_seen (o : Op) (ho : o ≠ .regulatorIsEnabled) {m : Prop} (hm : ¬ m) (i : Input)
    (s : State) : ¬ (m ∨ ¬ ReadsOwnVote ⟨o, i, s⟩) := by
  rintro (h | hbad)
  · exact hm h
  · exact hbad fun heq => absurd heq ho

/-- A suspend that reads the sensor's vote for its own gives back what it does not have. -/
theorem suspend_reads {s : State} (hs : s.uses ≤ 1) {m : Prop} (hm : ¬ m) :
    wp GivesOwnVote (Monitor.seen fun e => ¬ ReadsOwnVote e) suspend.run (fun _ m _ => ¬ m) m s := by
  have hinited {m : Prop} (hm : ¬ m) (s' : State) : wp GivesOwnVote
      (Monitor.seen fun e => ¬ ReadsOwnVote e) (setInited false).run (fun _ m _ => ¬ m) m s' := by
    exact fun i _ => ⟨trivial, not_seen (.setInited false) nofun hm i s'⟩
  unfold suspend
  refine (wp_run_bind _ _ _ _ _).2 fun i _ => ⟨trivial, ?_⟩
  have hspent : (m ∨ ¬ ReadsOwnVote ⟨.regulatorIsEnabled, i, s⟩) → (s.switch i.levels).uses = 0 := by
    rintro (h | hbad)
    · exact absurd h hm
    · have hne : s.uses ≠ 1 := fun hone => hbad fun _ => .inl hone
      rw [switch_uses]
      omega
  cases hrail : (s.switch i.levels).rail with
  | false =>
    have hown : ReadsOwnVote ⟨.regulatorIsEnabled, i, s⟩ := by
      simp [State.rail] at hrail
      exact fun _ => .inr hrail.1
    simp only [handle, act, hrail]
    refine hinited ?_ _
    rintro (h | hbad)
    · exact hm h
    · exact hbad hown
  | true =>
    simp only [handle, act, hrail]
    refine framed_seen.park_seq hspent fun ret r m₁ s₁ hm₁ => ?_
    refine (wp_run_bind _ _ _ _ _).2 fun j hj => ⟨trivial, ?_⟩
    have hnot : ¬ m₁ := fun h => hj rfl (hm₁ h)
    refine wp_run_seq (hinited (not_seen .regulatorDisable nofun hnot j s₁) _) (fun _ _ _ h => h)
      fun _ _ s₂ h₂ => ?_
    split <;> exact h₂

/-! ## Whole runs -/

/-- The count is zero or one, and zero while the device is suspended. -/
def Voting (s : State) : Prop := s.uses ≤ 1 ∧ (s.active = false → s.uses = 0)

theorem voting_of_meter {s : State} {n : Nat} {a : Bool} (h : meter s = (n, a)) (hn : n ≤ 1)
    (ha : a = false → n = 0) : Voting s := by
  have huses : s.uses = n := congrArg Prod.fst h
  have hactive : s.active = a := congrArg Prod.snd h
  rw [Voting, huses, hactive]
  exact ⟨hn, ha⟩

/-- The core looks at the device's state first. -/
theorem wp_pmActive_seq {A : Event lens → Prop} {s : State} {β : Type} {f : Bool → Code β}
    {Q : Except Errno β → Unit → State → Prop} (hs : Voting s)
    (h : ∀ s', meter s' = meter s → wp A votesMonitor (f s.active).run Q () s') :
    wp A votesMonitor (pmActive >>= f).run Q () s := by
  refine (wp_run_bind _ _ _ _ _).2 fun i _ => ⟨⟨hs.1, nofun⟩, ?_⟩
  have hframe := Calm.frame (o := .pmActive) trivial i s
  have hactive : (handle .pmActive i s).1 = s.active := switch_active i.levels s
  rw [← hactive] at h
  exact h _ hframe

theorem rpmResume_votes {A : Event lens → Prop} {s : State} (hs : Voting s) :
    wp A votesMonitor rpmResume.run (fun _ _ s' => Voting s') () s := by
  refine wp_pmActive_seq hs fun s₁ h₁ => ?_
  split
  next hactive => exact voting_of_meter h₁ hs.1 hs.2
  next hactive =>
    have hactive' : s.active = false := by simpa using hactive
    have h₁' : meter s₁ = (0, false) := by rw [h₁, meter, hs.2 hactive', hactive']
    refine wp_run_seq (resume_votes h₁') ?_ ?_
    · rintro e _ s₂ (h₂ | ⟨heq, -⟩)
      · exact voting_of_meter h₂ (by decide) fun _ => rfl
      · exact nomatch heq
    · rintro _ _ s₂ (h₂ | ⟨-, h₂⟩)
      · exact wp_setPmActive h₂ (by decide) fun _ h => voting_of_meter h (by decide) nofun
      · exact wp_setPmActive h₂ le_rfl fun _ h => voting_of_meter h le_rfl nofun

theorem rpmSuspend_votes {s : State} (hs : Voting s) :
    wp ReadsOwnVote votesMonitor rpmSuspend.run
      (fun r _ s' => Voting s' ∧ s'.uses = 0 ∧ (s'.active = true ↔ r ≠ .ok ())) () s := by
  refine wp_pmActive_seq hs fun s₁ h₁ => ?_
  split
  next hactive =>
    have hasleep : s.active = false := by simpa using hactive
    have hasleep₁ : s₁.active = false := (congrArg Prod.snd h₁).trans hasleep
    refine ⟨voting_of_meter h₁ hs.1 hs.2, (congrArg Prod.fst h₁).trans (hs.2 hasleep), ?_⟩
    exact iff_of_false (fun h => nomatch hasleep₁.symm.trans h) fun h => h rfl
  next hactive =>
    have h₁' : meter s₁ = (s.uses, true) := by
      rw [h₁, meter]
      simpa using hactive
    refine wp_run_seq (suspend_votes h₁' hs.1) ?_ ?_
    · refine fun e _ s₂ h₂ => ⟨voting_of_meter h₂ (by decide) nofun, congrArg Prod.fst h₂, ?_⟩
      exact iff_of_true (congrArg Prod.snd h₂) (nomatch ·)
    · refine fun _ _ s₂ h₂ => wp_setPmActive h₂ (by decide) fun s₃ h₃ => ?_
      have hasleep : s₃.active = false := congrArg Prod.snd h₃
      refine ⟨voting_of_meter h₃ (by decide) fun _ => rfl, congrArg Prod.fst h₃, ?_⟩
      exact iff_of_false (fun h => nomatch hasleep.symm.trans h) fun h => h rfl

theorem rpmSuspend_reads {s : State} (hs : s.uses ≤ 1) :
    wp GivesOwnVote (Monitor.seen fun e => ¬ ReadsOwnVote e) rpmSuspend.run (fun _ m _ => ¬ m) False
      s := by
  refine (wp_run_bind _ _ _ _ _).2 fun i _ => ⟨trivial, ?_⟩
  have hm := not_seen .pmActive nofun id i s
  cases hactive : (s.switch i.levels).active with
  | false =>
    simp only [handle, act, hactive]
    exact hm
  | true =>
    simp only [handle, act, hactive]
    refine wp_run_seq (suspend_reads ((switch_uses i.levels s).trans_le hs) hm) (fun _ _ _ h => h) ?_
    exact fun _ m s₁ h₁ j _ => ⟨trivial, not_seen (.setPmActive false) nofun h₁ j s₁⟩

theorem setControl_votes {A : Event lens → Prop} {s : State} (id : Nat) (val : Int) (hs : Voting s) :
    wp A votesMonitor (setControl id val).run (fun _ _ s' => Voting s') () s :=
  wp_mono (wp_calm (setControl_calm id val) rfl hs.1) fun _ _ _ h => voting_of_meter h hs.1 hs.2

/-- A step that gives back what is held. -/
theorem balanced_of_voteHeld {l : Step} {s : State} (hs : Voting s) (hheld : VoteHeld l s) :
    Voting (step l s) ∧ Balanced l s := by
  obtain ⟨call, ι⟩ := l
  cases call with
  | resume =>
    obtain ⟨hsafe, hv⟩ := wp_sound (A := fun _ => True) (rpmResume_votes hs) ι fun _ _ => trivial
    exact ⟨hv, Monitor.safe_each.1 hsafe, hv.1, nofun⟩
  | suspend =>
    obtain ⟨hsafe, hv, hzero, -⟩ := wp_sound (rpmSuspend_votes hs) ι (hheld rfl)
    exact ⟨hv, Monitor.safe_each.1 hsafe, hv.1, fun _ => hzero⟩
  | setControl id val =>
    obtain ⟨hsafe, hv⟩ := wp_sound (A := fun _ => True) (setControl_votes id val hs) ι fun _ _ => trivial
    exact ⟨hv, Monitor.safe_each.1 hsafe, hv.1, nofun⟩

/-- **What a resume leaves.** A device that it makes active holds a vote, unless a write of `dw9808_init`
has failed. -/
theorem resume_leaves {l : Step} {s : State} (hl : l.call = .resume) (hs : Voting s)
    (hasleep : s.active = false) (hinited : s.dev.inited = false)
    (hactive : (step l s).active = true) :
    (step l s).uses = 0 ↔ ∃ e ∈ l.trace s, LosesWrite e := by
  obtain ⟨call, ι⟩ := l
  obtain rfl : call = .resume := hl
  have hmeter : meter s = (0, false) := by rw [meter, hs.2 hasleep, hasleep]
  have hrule : wp (fun _ => True) (.seen LosesWrite) rpmResume.run
      (fun _ m s' => s'.active = true → Resumed m true s') False s := by
    refine (wp_run_bind _ _ _ _ _).2 fun i _ => ⟨trivial, ?_⟩
    have hm := not_losesWrite (o := .pmActive) (fun _ _ => Op.noConfusion) id i s
    simp only [handle, act, switch_active, hasleep]
    have hmeter₁ : meter (s.switch i.levels) = (0, false) := by simpa [meter] using hmeter
    refine wp_run_seq (resume_held hmeter₁ (by simpa using hinited) hm) ?_ ?_
    · exact fun e m s' h hawake => nomatch h.1.symm.trans hawake
    · rintro _ m s' ⟨-, hresumed⟩ j _
      obtain ⟨hback, hkept⟩ := hresumed rfl
      have hmet : ∀ n b, meter s' = (n, b) → meter (handle (.setPmActive true) j s').2 = (n, true) := by
        intro n b h
        have huses : s'.uses = n := congrArg Prod.fst h
        simp [meter, handle, act, huses]
      have hiff : (m ∨ LosesWrite ⟨.setPmActive true, j, s'⟩) ↔ m := by
        refine or_iff_left ?_
        rintro ⟨⟨_, _, hop⟩, -⟩
        cases hop
      refine ⟨trivial, fun _ => ⟨fun h => hmet _ _ (hback (hiff.1 h)), fun h => hmet _ _ (hkept ?_)⟩⟩
      exact fun h' => h (hiff.2 h')
  obtain ⟨hback, hkept⟩ := (wp_sound hrule ι fun _ _ => trivial).2 hactive
  constructor
  · intro hzero
    by_contra hnone
    have hone := congrArg Prod.fst (hkept fun h => hnone ((Monitor.after_seen.1 h).resolve_left id))
    exact absurd (hone.symm.trans hzero) (by decide)
  · exact fun hlost => congrArg Prod.fst (hback (Monitor.after_seen.2 (.inr hlost)))

/-- **What a suspend leaves.** One that reads its own vote leaves none, and the device active precisely
if it fails. -/
theorem suspend_leaves {l : Step} {s : State} (hl : l.call = .suspend) (hs : Voting s)
    (hheld : VoteHeld l s) :
    (step l s).uses = 0 ∧
      ((step l s).active = true ↔ (l.call.code.run.run lens l.inputs s).1 ≠ .ok ()) := by
  obtain ⟨call, ι⟩ := l
  obtain rfl : call = .suspend := hl
  exact (wp_sound (rpmSuspend_votes hs) ι (hheld rfl)).2.2

theorem voteHeld_of_balanced {l : Step} {s : State} (hs : Voting s) (h : Balanced l s) :
    VoteHeld l s := by
  obtain ⟨call, ι⟩ := l
  rintro rfl e he
  have hgives : ∀ e ∈ rpmSuspend.run.trace lens ι s, GivesOwnVote e := fun e he => (h.during e he).2
  have hreads := (wp_sound (rpmSuspend_reads hs.1) ι hgives).2
  by_contra hbad
  exact hreads (Monitor.after_seen.2 (.inr ⟨e, he, hbad⟩))

/-- **Votes balance exactly when a suspend reads its own.** In a run after a probe, all steps are
balanced if and only if every suspend that reads the rail holds the driver's vote, or meets a rail
without the sensor's. -/
theorem votes_balanced_iff (sensor : Bool) (written : List (BitVec 8 × BitVec 8)) (steps : List Step) :
    Meets step Balanced steps (probed sensor written) ↔
      Meets step VoteHeld steps (probed sensor written) := by
  have hprobed : Voting (probed sensor written) := ⟨Nat.zero_le 1, fun _ => rfl⟩
  constructor
  · refine Meets.imp (J := Voting) (fun l s hs h => ?_) hprobed
    have hheld := voteHeld_of_balanced hs h
    exact ⟨(balanced_of_voteHeld hs hheld).1, hheld⟩
  · exact Meets.imp (J := Voting) (fun l s hs h => balanced_of_voteHeld hs h) hprobed

/-- The device is opened and closed while the sensor has the rail up, and every access succeeds. -/
theorem votes_balanced_iff_sensorUp :
    Meets step Balanced [⟨.resume, fun _ => {}⟩, ⟨.suspend, fun _ => {}⟩] (probed true []) ∧
      (step ⟨.resume, fun _ => {}⟩ (probed true [])).uses = 1 :=
  ⟨(votes_balanced_iff true [] _).2 ⟨nofun, by decide, trivial⟩, by decide⟩

/-- The device is opened while nothing answers, and closed while the sensor has the rail up. -/
def openAndClose : List Step :=
  [⟨.resume, fun n => if n = 4 then { fault := some .eio } else {}⟩,
    ⟨.suspend, fun n => if n = 0 then { levels := [true] } else {}⟩]

/-- The vote was given back by the failed initialisation already. -/
theorem openAndClose_unbalanced : ¬ Meets step Balanced openAndClose (probed false []) := by
  rintro ⟨-, ⟨hduring, -, -⟩, -⟩
  have hbad : ∃ e ∈ Step.trace ⟨.suspend, fun n => if n = 0 then { levels := [true] } else {}⟩
      (step ⟨.resume, fun n => if n = 4 then { fault := some .eio } else {}⟩ (probed false [])),
      e.op = .regulatorDisable ∧ e.pre.uses = 0 := by decide
  obtain ⟨e, he, hop, hzero⟩ := hbad
  exact (hduring e he).2 hop hzero

end Gts9Wifi.Lens
