import Mathlib.Data.List.Infix
import Gts9Wifi.Lens.Verify.Votes

/-!
# The lens is driven only when it is initialised

`inited` is what the driver believes about a chip whose rail the sensor switches. A rail that is found
down clears it, but one that has gone down and come up again between two looks does not. As long as the
rail does not come up to stay while the driver believes, or while it initialises the chip, whatever is
driven is initialised.
-/

namespace Gts9Wifi.Lens

open Driver

/-! ## Vocabulary -/

/-- The state that the operation meets, after the sensor's switching. -/
def met (e : Event lens) : State := e.pre.switch e.input.levels

/-- A transfer that reaches the chip finds it initialised since it was powered up. -/
def DrivesReady (e : Event lens) : Prop :=
  ∀ data, e.op = .masterSend data → (met e).rail = true → initSequence <:+: (met e).written

/-- The focus control and `resume` drive an initialised chip only. -/
def Driven (l : Step) (s : State) : Prop := l.call ≠ .suspend → ∀ e ∈ l.trace s, DrivesReady e

/-- The rail comes up somewhere in these levels. -/
def powersUp : List Bool → State → Bool
  | [], _ => false
  | level :: levels, s =>
    (!s.rail && (s.vote level s.uses).rail) || powersUp levels (s.vote level s.uses)

/-- Operations between the first write of `dw9808_init` and the flag. -/
def Initialising : Op → Prop
  | .smbusWriteByteData reg value => (reg, value) ≠ (0x02, 0x01)
  | .setInited inited => inited = true
  | _ => False

/-- The rail does not come up to stay while the driver believes in the chip, or initialises it. One that
is down again at the operation does no harm. -/
def Steady (e : Event lens) : Prop :=
  powersUp e.input.levels e.pre = true → (met e).rail = true →
    e.pre.dev.inited = false ∧ ¬ Initialising e.op

def Undisturbed (l : Step) (s : State) : Prop := l.call ≠ .suspend → ∀ e ∈ l.trace s, Steady e

instance : DecidablePred Initialising
  | .smbusWriteByteData reg value => inferInstanceAs (Decidable ((reg, value) ≠ (0x02, 0x01)))
  | .setInited inited => inferInstanceAs (Decidable (inited = true))
  | .load | .storePosition _ | .pmActive | .setPmActive _ | .pmRuntimeGetIfInUse | .regulatorEnable
  | .regulatorDisable | .regulatorIsEnabled | .smbusReadByteData _ | .masterSend _ | .pollExpired =>
    isFalse id

instance (e : Event lens) : Decidable (Steady e) :=
  inferInstanceAs (Decidable (_ → _ → e.pre.dev.inited = false ∧ ¬ Initialising e.op))

instance (l : Step) (s : State) : Decidable (Undisturbed l s) :=
  inferInstanceAs (Decidable (_ → ∀ e ∈ l.trace s, Steady e))

/-! ## The rail -/

/-- A rail that never comes up and is up at the end was up all along. -/
theorem switch_of_not_powersUp {levels : List Bool} {s : State} (h : powersUp levels s = false)
    (hup : (s.switch levels).rail = true) :
    s.rail = true ∧ (s.switch levels).written = s.written := by
  induction levels generalizing s with
  | nil => exact ⟨hup, rfl⟩
  | cons level levels ih =>
    simp only [powersUp, Bool.or_eq_false_iff] at h
    obtain ⟨hrail₁, hwritten⟩ := ih h.2 hup
    have hrail : s.rail = true := by simpa [hrail₁] using h.1
    refine ⟨hrail, hwritten.trans ?_⟩
    have hkept : (level || decide (s.uses ≠ 0)) = true := hrail₁
    simp only [State.vote, hrail, hkept, Bool.and_self, if_true]

/-- What the chip was told last, if it has power. -/
def Told (ws : List (BitVec 8 × BitVec 8)) (s : State) : Prop := s.rail = true → ws <:+ s.written

/-- If the driver believes, the chip is initialised. -/
def Believed (s : State) : Prop :=
  s.dev.inited = true → s.rail = true → initSequence <:+: s.written

theorem Told.switch {ws : List (BitVec 8 × BitVec 8)} {s : State} {levels : List Bool}
    (h : Told ws s) (hup : (s.switch levels).rail = true → powersUp levels s = false) :
    Told ws (s.switch levels) := by
  intro hrail
  obtain ⟨hrail', hwritten⟩ := switch_of_not_powersUp (hup hrail) hrail
  rw [hwritten]
  exact h hrail'

theorem Believed.switch {s : State} (h : Believed s) {o : Op} {i : Input} (hi : Steady ⟨o, i, s⟩) :
    Believed (s.switch i.levels) := by
  intro hinited hrail
  rw [switch_dev] at hinited
  cases hup : powersUp i.levels s with
  | true =>
    have hfalse : s.dev.inited = false := (hi hup hrail).1
    simp [hfalse] at hinited
  | false =>
    obtain ⟨hrail', hwritten⟩ := switch_of_not_powersUp hup hrail
    rw [hwritten]
    exact h hinited hrail'

/-- More writes do no harm. -/
theorem Believed.receive {s : State} (h : Believed s) (i : Input) (ws : List (BitVec 8 × BitVec 8)) :
    Believed (s.receive i ws) := by
  unfold State.receive
  split
  · exact fun hinited hrail => (h hinited hrail).trans (List.prefix_append _ _).isInfix
  · exact h

@[simp] theorem receive_dev (s : State) (i : Input) (ws : List (BitVec 8 × BitVec 8)) :
    (s.receive i ws).dev = s.dev := by
  unfold State.receive
  split <;> rfl

theorem Driving.frame_dev {o : Op} (h : Driving o) (i : Input) (s : State) :
    (handle o i s).2.dev = s.dev := by
  rw [← switch_dev i.levels s, handle]
  cases o with
  | load | smbusReadByteData _ | pollExpired => rfl
  | smbusWriteByteData reg value => exact receive_dev _ i _
  | masterSend data => exact receive_dev _ i _
  | _ => exact h.elim

theorem Driving.believed {o : Op} (h : Driving o) {i : Input} {s : State} (hs : Believed s)
    (hi : Steady ⟨o, i, s⟩) : Believed (handle o i s).2 := by
  have hswitch := hs.switch hi
  rw [handle]
  cases o with
  | load | smbusReadByteData _ | pollExpired => exact hswitch
  | smbusWriteByteData reg value => exact hswitch.receive i _
  | masterSend data => exact hswitch.receive i _
  | _ => exact h.elim

/-! ## Initialising -/

/-- Accepts transfers to an initialised chip. -/
abbrev readyMonitor : Monitor lens := Monitor.each DrivesReady

/-- The driver believes, and rightly. -/
def Trusted (s : State) : Prop := s.dev.inited = true ∧ Believed s

/-- A trusted chip is driven, and stays trusted. -/
theorem framed_trusted {n : Nat} {a : Bool} :
    Framed Steady readyMonitor fun _ s => Trusted s ∧ meter s = (n, a) := by
  rintro o ho i _ s hi ⟨⟨hinited, hbelieved⟩, hmeter⟩
  refine ⟨?_, ⟨?_, ho.believed hbelieved hi⟩, (ho.calm.frame i s).trans hmeter⟩
  · intro data _ hrail
    exact hbelieved.switch hi ((switch_dev i.levels s).symm ▸ hinited) hrail
  · rw [ho.frame_dev i s]
    exact hinited

theorem answer_eq_ok {α : Type} {i : Input} {s : State} {a b : α} (h : i.answer s a = .ok b) :
    i.fault = none ∧ s.rail = true := by
  unfold Input.answer at h
  split at h
  · exact nomatch h
  next hf =>
    split at h
    next hrail => exact ⟨hf, hrail⟩
    · exact nomatch h

/-- One write of the sequence, after which the chip was told that as well. -/
theorem wp_smbusWrite {s : State} {pre : List (BitVec 8 × BitVec 8)} {w : BitVec 8 × BitVec 8}
    (h : ∀ i, Steady ⟨.smbusWriteByteData w.1 w.2, i, s⟩ → Told pre (s.switch i.levels)) :
    wp Steady readyMonitor (smbusWriteByteData w.1 w.2).run (fun r _ s' =>
      s'.dev = s.dev ∧ meter s' = meter s ∧ (r = .ok () → Told (pre ++ [w]) s')) () s := by
  refine (wp_perform _ _ _ _).2 fun i hi => ⟨nofun, ?_⟩
  have hdriving : Driving (.smbusWriteByteData w.1 w.2) := trivial
  refine ⟨hdriving.frame_dev i s, hdriving.calm.frame i s, fun hok _ => ?_⟩
  obtain ⟨hf, hrail⟩ := answer_eq_ok hok
  obtain ⟨told, htold⟩ := h i hi hrail
  have hreceive : (handle (.smbusWriteByteData w.1 w.2) i s).2.written =
      (s.switch i.levels).written ++ [w] := by
    simp [handle, act, State.receive, hf, hrail]
  exact ⟨told, by rw [hreceive, ← htold, List.append_assoc]⟩

/-- The rest of the sequence. A rail that goes down in between ends it with an error. -/
theorem writeSequence_told {s : State} {pre rest : List (BitVec 8 × BitVec 8)} (h : Told pre s)
    (hrest : ∀ w ∈ rest, w ≠ (0x02, 0x01)) :
    wp Steady readyMonitor (writeSequence rest).run (fun r _ s' =>
      s'.dev = s.dev ∧ meter s' = meter s ∧ (r = .ok () → Told (pre ++ rest) s')) () s := by
  induction rest generalizing s pre with
  | nil => exact ⟨rfl, rfl, fun _ => by rwa [List.append_nil]⟩
  | cons w rest ih =>
    have htold (i : Input) (hi : Steady ⟨.smbusWriteByteData w.1 w.2, i, s⟩) :
        Told pre (s.switch i.levels) := by
      refine h.switch fun hrail => ?_
      by_contra hup
      exact (hi (by simpa using hup) hrail).2 (hrest w List.mem_cons_self)
    refine wp_run_seq (wp_smbusWrite htold) ?_ ?_
    · rintro e _ s₁ ⟨hdev, hmeter, -⟩
      exact ⟨hdev, hmeter, nofun⟩
    · rintro _ _ s₁ ⟨hdev, hmeter, h₁⟩
      refine wp_mono (ih (h₁ rfl) fun w' hw' => hrest w' (List.mem_cons_of_mem _ hw')) ?_
      rintro r _ s₂ ⟨hdev₂, hmeter₂, h₂⟩
      refine ⟨hdev₂.trans hdev, hmeter₂.trans hmeter, fun hok => ?_⟩
      simpa using h₂ hok

/-- After `dw9808_init` the chip was told the whole sequence. -/
theorem init_told (s : State) :
    wp Steady readyMonitor init.run (fun r _ s' =>
      s'.dev = s.dev ∧ meter s' = meter s ∧ (r = .ok () → Told initSequence s')) () s := by
  have hfirst (i : Input) (_ : Steady ⟨.smbusWriteByteData 0x02 0x01, i, s⟩) :
      Told [] (s.switch i.levels) := fun _ => List.nil_suffix
  have hrest : ∀ w ∈ initSequence.tail, w ≠ (0x02, 0x01) := by simp [initSequence]
  refine wp_run_seq (wp_smbusWrite hfirst) ?_ ?_
  · rintro e _ s₁ ⟨hdev, hmeter, -⟩
    exact ⟨hdev, hmeter, nofun⟩
  · rintro _ _ s₁ ⟨hdev, hmeter, h₁⟩
    refine wp_mono (writeSequence_told (h₁ rfl) hrest) ?_
    rintro r _ s₂ ⟨hdev₂, hmeter₂, h₂⟩
    exact ⟨hdev₂.trans hdev, hmeter₂.trans hmeter, h₂⟩

/-- What `dw9808_ensure_ready` leaves: a chip to be trusted, or no belief. -/
def Settles (a : Nat × Bool) (r : Except Errno Unit) (s : State) : Prop :=
  meter s = a ∧ (r = .ok () → Trusted s) ∧ (r ≠ .ok () → s.dev.inited = false)

theorem Settles.error {a : Nat × Bool} {e : Errno} {s : State} (hm : meter s = a)
    (hinited : s.dev.inited = false) : Settles a (.error e) s :=
  ⟨hm, nofun, fun _ => hinited⟩

theorem Settles.ok {a : Nat × Bool} {s : State} (hm : meter s = a) (h : Trusted s) :
    Settles a (.ok ()) s :=
  ⟨hm, fun _ => h, fun hne => absurd rfl hne⟩

section Rules

variable {β : Type} {s : State} {Q : Except Errno β → Unit → State → Prop}

theorem wp_regulatorIsEnabled {f : Bool → Code β}
    (h : ∀ i, Steady ⟨.regulatorIsEnabled, i, s⟩ →
      wp Steady readyMonitor (f (s.switch i.levels).rail).run Q () (s.switch i.levels)) :
    wp Steady readyMonitor (regulatorIsEnabled >>= f).run Q () s :=
  (wp_run_bind _ _ _ _ _).2 fun i hi => ⟨nofun, h i hi⟩

theorem wp_load {f : Dev → Code β}
    (h : ∀ i, Steady ⟨.load, i, s⟩ →
      wp Steady readyMonitor (f (s.switch i.levels).dev).run Q () (s.switch i.levels)) :
    wp Steady readyMonitor (load >>= f).run Q () s :=
  (wp_run_bind _ _ _ _ _).2 fun i hi => ⟨nofun, h i hi⟩

theorem wp_setInited {inited : Bool} {Q : Except Errno Unit → Unit → State → Prop}
    (h : ∀ i, Steady ⟨.setInited inited, i, s⟩ →
      Q (.ok ()) () ((s.switch i.levels).setDev fun dev => { dev with inited })) :
    wp Steady readyMonitor (setInited inited).run Q () s :=
  fun i hi => ⟨nofun, h i hi⟩

theorem wp_storePosition {position : Nat} {f : Unit → Code β}
    (h : ∀ i, Steady ⟨.storePosition position, i, s⟩ → wp Steady readyMonitor (f ()).run Q ()
      ((s.switch i.levels).setDev fun dev => { dev with position })) :
    wp Steady readyMonitor (storePosition position >>= f).run Q () s :=
  (wp_run_bind _ _ _ _ _).2 fun i hi => ⟨nofun, h i hi⟩

/-- Only an active device is in use. -/
theorem wp_pmRuntimeGetIfInUse {f : Bool → Code β}
    (herr : ∀ e i, Steady ⟨.pmRuntimeGetIfInUse, i, s⟩ → Q (.error e) () (s.switch i.levels))
    (hok : ∀ inUse i, Steady ⟨.pmRuntimeGetIfInUse, i, s⟩ → (inUse = true → s.active = true) →
      wp Steady readyMonitor (f inUse).run Q () (s.switch i.levels)) :
    wp Steady readyMonitor (pmRuntimeGetIfInUse >>= f).run Q () s := by
  refine (wp_run_bind _ _ _ _ _).2 fun i hi => ⟨nofun, ?_⟩
  cases hf : i.fault with
  | some e =>
    simp only [handle, act, hf]
    exact herr e i hi
  | none =>
    simp only [handle, act, hf]
    refine hok _ i hi fun hinUse => ?_
    rw [switch_active, Bool.and_eq_true] at hinUse
    exact hinUse.1

@[simp] theorem meter_switch (levels : List Bool) (s : State) : meter (s.switch levels) = meter s := by
  simp [meter]

@[simp] theorem meter_setDev (f : Dev → Dev) (s : State) : meter (s.setDev f) = meter s := rfl

end Rules

/-- The flag is set on a chip that was told the sequence. -/
theorem setInited_trusted {s : State} (h : Told initSequence s) :
    wp Steady readyMonitor (setInited true).run (fun r _ s' => Settles (meter s) r s') () s := by
  refine wp_setInited fun i hi => Settles.ok (by simp) ⟨rfl, fun _ hrail => ?_⟩
  have hup : powersUp i.levels s = false := by
    by_contra hup
    exact (hi (by simpa using hup) hrail).2 rfl
  exact (h.switch (fun _ => hup) hrail).isInfix

theorem ensureReady_settles {s : State} (hs : Believed s) :
    wp Steady readyMonitor ensureReady.run (fun r _ s' => Settles (meter s) r s') () s := by
  unfold ensureReady
  refine wp_regulatorIsEnabled fun i hi => ?_
  have hb₁ := hs.switch hi
  rw [← meter_switch i.levels s]
  generalize s.switch i.levels = s₁ at hb₁
  split
  · rw [wp_run_bind]
    exact wp_setInited fun j hj => Settles.error (by simp) rfl
  · refine wp_load fun j hj => ?_
    have hb₂ := hb₁.switch hj
    rw [← meter_switch j.levels s₁]
    generalize s₁.switch j.levels = s₂ at hb₂
    split
    next hinited => exact Settles.ok rfl ⟨hinited, hb₂⟩
    next hinited =>
      refine wp_run_seq (init_told s₂) ?_ ?_
      · rintro e _ s₃ ⟨hdev, hmeter, -⟩
        exact Settles.error hmeter (by simpa [hdev] using hinited)
      · rintro _ _ s₃ ⟨-, hmeter, htold⟩
        rw [← hmeter]
        exact setInited_trusted (htold rfl)

/-! ## The callbacks -/

/-- What holds between the calls: belief is right, and there is none in a suspended device. -/
def Sound (s : State) : Prop := Believed s ∧ (s.active = false → s.dev.inited = false)

theorem sound_of_not_inited {s : State} (h : s.dev.inited = false) : Sound s := by
  refine ⟨fun hinited => ?_, fun _ => h⟩
  simp [h] at hinited

theorem Trusted.sound {s : State} (h : Trusted s) (hactive : s.active = true) : Sound s := by
  refine ⟨h.2, fun hnot => ?_⟩
  simp [hactive] at hnot

theorem Sound.switch {s : State} (h : Sound s) {o : Op} {i : Input} (hi : Steady ⟨o, i, s⟩) :
    Sound (s.switch i.levels) :=
  ⟨h.1.switch hi, by simpa using h.2⟩

theorem Settles.sound {n : Nat} {r : Except Errno Unit} {s : State} (h : Settles (n, true) r s) :
    Sound s := by
  have hactive : s.active = true := congrArg Prod.snd h.1
  by_cases hr : r = .ok ()
  · exact (h.2.1 hr).sound hactive
  · exact sound_of_not_inited (h.2.2 hr)

/-- From where the device is known to be in use on. -/
theorem applyPosition_sound {s : State} (hs : Sound s) (hactive : s.active = true) :
    wp Steady readyMonitor (do
      match ← attempt ensureReady with
      | .error e => if e = .eagain then return else throw e
      | .ok () =>
        let dev ← load
        setPosition dev.position : Code Unit).run (fun _ _ s' => Sound s') () s := by
  have hmeter : meter s = (s.uses, true) := by rw [meter, hactive]
  refine wp_run_attempt_seq (ensureReady_settles hs.1) fun r _ s₁ h₁ => ?_
  rw [hmeter] at h₁
  split
  · split <;> exact h₁.sound
  · refine framed_trusted.load_seq ⟨h₁.2.1 rfl, h₁.1⟩ fun _ s₂ _ h₂ => ?_
    have hdriven := (setPosition_driving s₁.dev.position).wp (W := lens) (m := ()) framed_trusted h₂
    exact wp_mono hdriven fun _ _ s₃ h₃ => h₃.1.sound (congrArg Prod.snd h₃.2)

theorem setControl_sound {s : State} (id : Nat) (val : Int) (hs : Sound s) :
    wp Steady readyMonitor (setControl id val).run (fun _ _ s' => Sound s') () s := by
  unfold setControl
  split
  · exact hs
  refine wp_storePosition fun i hi => ?_
  have hs₁ : Sound ((s.switch i.levels).setDev fun dev =>
      { dev with position := (val % 65536).toNat }) := hs.switch hi
  refine wp_pmRuntimeGetIfInUse (fun e j hj => hs₁.switch hj) fun inUse j hj hactive => ?_
  split
  · exact hs₁.switch hj
  next hinUse =>
    refine applyPosition_sound (hs₁.switch hj) ((switch_active _ _).trans (hactive ?_))
    simpa using hinUse

theorem resume_sound {s : State} (hs : s.dev.inited = false) :
    wp Steady readyMonitor resume.run (fun r _ s' =>
      Believed s' ∧ (r ≠ .ok () → s'.dev.inited = false)) () s := by
  have hend {s' : State} (h : s'.dev.inited = false) (r : Except Errno Unit) :
      Believed s' ∧ (r ≠ .ok () → s'.dev.inited = false) :=
    ⟨(sound_of_not_inited h).1, fun _ => h⟩
  unfold resume
  refine (wp_run_bind _ _ _ _ _).2 fun i hi => ⟨fun _ hop => (by cases hop), ?_⟩
  have hnot : (s.switch i.levels).dev.inited = false := by rw [switch_dev, hs]
  cases hf : i.fault with
  | some e =>
    simp only [handle, act, hf]
    exact hend hnot _
  | none =>
    simp only [handle, act, hf]
    refine wp_run_attempt_seq (ensureReady_settles fun hinited => ?_) fun r _ s₁ h₁ => ?_
    · simp [State.vote, hs] at hinited
    split
    · have hnot₁ : s₁.dev.inited = false := h₁.2.2 fun h => (by cases h)
      refine fun j _ => ⟨fun _ hop => (by cases hop), hend ?_ _⟩
      simp [handle, act, State.vote, hnot₁]
    · refine framed_trusted.load_seq ⟨h₁.2.1 rfl, h₁.1⟩ fun _ s₂ _ h₂ => ?_
      refine wp_mono (framed_trusted.ramp _ h₂) fun _ _ s₃ h₃ => ⟨h₃.2.1.2, fun hne => ?_⟩
      exact absurd h₃.1 hne

/-- A suspend ends without belief, whatever the rail does. -/
theorem suspend_forgets {A : Event lens → Prop} (s : State) :
    wp A (Monitor.idle lens) suspend.run (fun _ _ s' => s'.dev.inited = false) () s := by
  have hframed : Framed A (Monitor.idle lens) fun _ _ => True :=
    fun _ _ _ _ _ _ _ => ⟨trivial, trivial⟩
  have hinited (s' : State) : wp A (Monitor.idle lens) (setInited false).run
      (fun _ _ s' => s'.dev.inited = false) () s' := fun _ _ => ⟨trivial, rfl⟩
  unfold suspend
  refine (wp_run_bind _ _ _ _ _).2 fun i _ => ⟨trivial, ?_⟩
  cases hrail : (s.switch i.levels).rail with
  | false =>
    simp only [handle, act, hrail]
    exact hinited _
  | true =>
    simp only [handle, act, hrail]
    refine hframed.park_seq trivial fun ret r _ s₁ _ => ?_
    refine (wp_run_bind _ _ _ _ _).2 fun j _ => ⟨trivial, ?_⟩
    refine wp_run_seq (hinited _) (fun _ _ _ h => h) fun _ _ s₂ h₂ => ?_
    split <;> exact h₂

theorem rpmResume_sound {s : State} (hs : Sound s) :
    wp Steady readyMonitor rpmResume.run (fun _ _ s' => Sound s') () s := by
  refine (wp_run_bind _ _ _ _ _).2 fun i hi => ⟨fun _ hop => (by cases hop), ?_⟩
  have hs₁ := hs.switch hi
  cases hactive : (s.switch i.levels).active with
  | true =>
    simp only [handle, act, hactive]
    exact hs₁
  | false =>
    simp only [handle, act, hactive]
    refine wp_run_seq (resume_sound (hs₁.2 hactive)) ?_ ?_
    · exact fun e _ s₂ h₂ => sound_of_not_inited (h₂.2 fun h => (by cases h))
    · exact fun _ _ s₂ h₂ j hj =>
        ⟨fun _ hop => (by cases hop), h₂.1.switch hj, fun h => (by cases h)⟩

theorem rpmSuspend_sound {A : Event lens → Prop} {s : State} (hs : Sound s) :
    wp A (Monitor.idle lens) rpmSuspend.run (fun _ _ s' => Sound s') () s := by
  refine (wp_run_bind _ _ _ _ _).2 fun i _ => ⟨trivial, ?_⟩
  cases hactive : (s.switch i.levels).active with
  | false =>
    simp only [handle, act, hactive]
    rw [switch_active] at hactive
    exact sound_of_not_inited (by rw [switch_dev, hs.2 hactive])
  | true =>
    simp only [handle, act, hactive]
    refine wp_run_seq (suspend_forgets _) (fun _ _ _ h => sound_of_not_inited h) ?_
    intro _ _ s₁ h₁ j _
    refine ⟨trivial, sound_of_not_inited ?_⟩
    simpa [handle, act] using h₁

/-! ## Whole runs -/

theorem step_sound {l : Step} {s : State} (hs : Sound s) (h : Undisturbed l s) :
    Sound (step l s) ∧ Driven l s := by
  obtain ⟨call, ι⟩ := l
  cases call with
  | resume =>
    obtain ⟨hsafe, hsound⟩ := wp_sound (rpmResume_sound hs) ι (h nofun)
    exact ⟨hsound, fun _ => Monitor.safe_each.1 hsafe⟩
  | suspend =>
    have hrun := wp_sound (A := fun _ => True) (rpmSuspend_sound hs) ι fun _ _ => trivial
    exact ⟨hrun.2, fun hne => absurd rfl hne⟩
  | setControl id val =>
    obtain ⟨hsafe, hsound⟩ := wp_sound (setControl_sound id val hs) ι (h nofun)
    exact ⟨hsound, fun _ => Monitor.safe_each.1 hsafe⟩

/-- **The lens is only driven when initialised.** In a run after a probe in which the rail never comes
up to stay while the driver believes in the chip or initialises it, every transfer of the focus control
and of `resume` that reaches the chip finds it initialised since it was powered up. -/
theorem lens_driven_ready (sensor : Bool) (written : List (BitVec 8 × BitVec 8)) {steps : List Step}
    (h : Meets step Undisturbed steps (probed sensor written)) :
    Meets step Driven steps (probed sensor written) :=
  h.imp (J := Sound) (fun _ _ hs hl => step_sound hs hl) (sound_of_not_inited rfl)

/-- The device is opened while nothing answers, and the sensor is up for the first focus write. -/
def openAndFocus (levels : List Bool) : List Step :=
  [⟨.resume, fun n => if n = 4 then { fault := some .eio } else {}⟩,
    ⟨.setControl focusAbsolute 100, fun n => if n = 0 then { levels := [true] } else { yes := true }⟩,
    ⟨.setControl focusAbsolute 200, fun n => if n = 0 then { levels } else { yes := true }⟩]

/-- The sensor stays up between the focus writes, or is off, on and off again. -/
theorem openAndFocus_driven :
    Meets step Driven (openAndFocus []) (probed false []) ∧
      Meets step Driven (openAndFocus [false, true, false]) (probed false []) :=
  ⟨lens_driven_ready false [] ⟨by decide, by decide, by decide, trivial⟩,
    lens_driven_ready false [] ⟨by decide, by decide, by decide, trivial⟩⟩

/-- Between the two focus writes the sensor has been off and on again. -/
theorem openAndFocus_notReady : ¬ Meets step Driven (openAndFocus [false, true]) (probed false []) := by
  rintro ⟨-, -, hdriven, -⟩
  have hbad : ∃ e ∈ Step.trace ⟨.setControl focusAbsolute 200,
      fun n => if n = 0 then { levels := [false, true] } else { yes := true }⟩
      (runFrom step ((openAndFocus [false, true]).take 2) (probed false [])),
      e.op = .masterSend [0x03, 0x00, 0xc8] ∧ (met e).rail = true ∧
        ¬ initSequence <:+: (met e).written := by decide
  obtain ⟨e, he, hop, hrail, hnot⟩ := hbad
  exact hnot (hdriven nofun e he _ hop hrail)

end Gts9Wifi.Lens
