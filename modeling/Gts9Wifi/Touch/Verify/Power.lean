import Gts9Wifi.Touch.Fts1ba90a

/-!
# What suspend and resume do to the power

The power state is the counts of the two supplies, the interrupt's disable depth and its wake depth,
and whether the wake gesture is armed. A suspend either arms the gesture with the supplies up, or
disables the interrupt and cuts the power; which of the two follows from the operations that stand in
the way of arming (`obstacle`). A resume that finds the power cut succeeds precisely if what the
environment answers shows the controller to come up (`Up`), and if it fails, the answers say whether
the supplies are up nevertheless.
-/

namespace Gts9Wifi.Touch

open Driver

/-! ## What the environment answers -/

/-- What an access shows of how a resume gets on. -/
inductive Sign
  | supplyFails | busFails | ready
deriving DecidableEq

/-- The event a read returns says that the controller is ready. -/
def ReportsReady (buf : Buffer) : Prop :=
  (eventAt buf 0).eid = 1 ∧ (eventAt buf 0).field = 2 ∧ buf 1 = 0x00

instance (buf : Buffer) : Decidable (ReportsReady buf) := inferInstanceAs (Decidable (_ ∧ _))

def sign (e : Event touch) : Option Sign :=
  match e.op with
  | .regulatorEnable _ => if e.input.fault = none then none else some .supplyFails
  | .i2cWrite _ => if e.input.fault = none then none else some .busFails
  | .i2cRead _ _ =>
    if e.input.fault = none then if ReportsReady e.input.data then some .ready else none
    else some .busFails
  | _ => none

/-- The supplies and the controller come up: nothing fails, and the controller reports that it is
ready. -/
def Up (l : List Sign) : Prop := .supplyFails ∉ l ∧ .busFails ∉ l ∧ .ready ∈ l

/-- What keeps a suspend from arming the gesture: the device may not wake the system, or a step fails
that counts. An unconfirmed low-power mode does not count. -/
def obstacle (e : Event touch) : Option Unit :=
  match e.op with
  | .deviceMayWakeup => if e.input.flag then none else some ()
  | .enableIrqWake => e.input.fault.map fun _ => ()
  | .i2cWrite (cmd :: _) =>
    if cmd = writeWakeupGesture then e.input.fault.map fun _ => ()
    else if cmd = setGetOpmode ∧ e.input.fault ≠ some .eagain then e.input.fault.map fun _ => ()
    else none
  | _ => none

/-! ## The power state -/

/-- The counts of `avdd` and `vddio`, the two depths, and whether the gesture is armed. -/
def power (s : State) : Int × Int × Int × Int × Bool :=
  (s.supplies .avdd, s.supplies .vddio, s.irqDepth, s.wakeDepth, s.ctx.lpmSuspended)

/-- Operations that leave the power state alone. -/
def KeepsPower : Op → Prop
  | .store f => ∀ c, (f c).lpmSuspended = c.lpmSuspended
  | .regulatorEnable _ | .regulatorDisable _ | .enableIrqWake | .disableIrqWake | .enableIrq
  | .disableIrq => False
  | _ => True

theorem KeepsPower.frame {o : Op} (h : KeepsPower o) (i : Input) (s : State) :
    power (handle o i s).2 = power s := by
  cases o with
  | store f => simp [power, handle, State.setCtx, h s.ctx]
  | regulatorEnable _ | regulatorDisable _ | enableIrqWake | disableIrqWake | enableIrq
  | disableIrq => exact h.elim
  | _ => rfl

section Rules

variable {A : Event touch → Prop} {M : Monitor touch} {m : M.St} {α β : Type} {s : State}

theorem wp_load_seq [M.Ignores Op.load] {f : Ctx → Code β} {Q : β → M.St → State → Prop}
    (h : wp A M (f s.ctx) Q m s) : wp A M (load >>= f) Q m s :=
  (wp_bind _ _ _ _ _).2 (wp_perform_of_ignores fun _ _ => h)

theorem wp_store {f : Ctx → Ctx} [M.Ignores (Op.store f)] {Q : Unit → M.St → State → Prop}
    (h : Q () m (s.setCtx f)) : wp A M (store f) Q m s :=
  wp_perform_of_ignores fun _ _ => h

theorem wp_regulatorDisable {r : Supply} [M.Ignores (Op.regulatorDisable r)]
    {Q : Unit → M.St → State → Prop} (h : Q () m (s.addUse r (-1))) :
    wp A M (regulatorDisable r) Q m s :=
  wp_perform_of_ignores fun _ _ => h

theorem wp_disableIrqWake [M.Ignores Op.disableIrqWake] {Q : Unit → M.St → State → Prop}
    (h : Q () m { s with wakeDepth := s.wakeDepth - 1 }) : wp A M disableIrqWake Q m s :=
  wp_perform_of_ignores fun _ _ => h

theorem wp_enableIrq [M.Ignores Op.enableIrq] {Q : Unit → M.St → State → Prop}
    (h : Q () m { s with irqDepth := s.irqDepth - 1 }) : wp A M enableIrq Q m s :=
  wp_perform_of_ignores fun _ _ => h

theorem wp_disableIrq [M.Ignores Op.disableIrq] {Q : Unit → M.St → State → Prop}
    (h : Q () m { s with irqDepth := s.irqDepth + 1 }) : wp A M disableIrq Q m s :=
  wp_perform_of_ignores fun _ _ => h

/-- Code that leaves the power state alone, whatever is recorded of it. -/
theorem wp_keepsPower {γ : Type} {f : Event touch → Option γ} {p : Code α}
    (hp : Issues KeepsPower p) {l : List γ} :
    wp A (.records f) p (fun _ _ s' => power s' = power s) l s := by
  refine hp.wp (M := .records f) (J := fun _ s' => power s' = power s)
    (fun o ho i _ s' _ hs' => ⟨trivial, ?_⟩) rfl
  exact (ho.frame i s').trans hs'

end Rules

/-! ## What leaves the power state alone -/

theorem pollReady_keepsPower (n : Nat) : Issues KeepsPower (pollReady n).run := by
  induction n with
  | zero => trivial
  | succ n ih =>
    refine Issues.run_bind ⟨trivial, fun _ => trivial⟩ fun buf => ?_
    dsimp only
    split
    · trivial
    · exact ih

theorem i2cWrite_keepsPower (data : List (BitVec 8)) : Issues KeepsPower (i2cWrite data).run :=
  ⟨trivial, fun _ => trivial⟩

theorem start_keepsPower : Issues KeepsPower start.run := by
  unfold start reset senseOn
  refine Issues.run_bind ?_ fun _ => ?_
  · exact Issues.run_bind (i2cWrite_keepsPower _) fun _ => pollReady_keepsPower 100
  · refine Issues.run_bind (i2cWrite_keepsPower _) fun _ => ?_
    exact Issues.run_bind (i2cWrite_keepsPower _) fun _ => i2cWrite_keepsPower _

theorem tryOpmode_keepsPower (mode : BitVec 8) (n : Nat) :
    Issues KeepsPower (tryOpmode mode n).run := by
  induction n with
  | zero => trivial
  | succ n ih =>
    refine Issues.run_bind (i2cWrite_keepsPower _) fun _ => ?_
    refine Issues.run_bind (Issues.run_attempt ⟨trivial, fun _ => trivial⟩) fun r => ?_
    split
    · split
      · trivial
      · exact ih
    · exact ih

theorem writeSpongeMode_keepsPower (mode : BitVec 8) : Issues KeepsPower (writeSpongeMode mode).run :=
  Issues.run_bind (i2cWrite_keepsPower _) fun _ => i2cWrite_keepsPower _

theorem armGesture_keepsPower : Issues KeepsPower armGesture.run := by
  unfold armGesture
  refine Issues.run_bind (Issues.run_attempt (writeSpongeMode_keepsPower _)) fun _ => ?_
  refine Issues.run_bind (Issues.run_attempt (tryOpmode_keepsPower _ _)) fun r => ?_
  split
  · exact i2cWrite_keepsPower _
  · split
    · exact i2cWrite_keepsPower _
    · trivial

theorem disarmGesture_keepsPower : Issues KeepsPower disarmGesture.run := by
  unfold disarmGesture
  refine Issues.run_bind (Issues.run_attempt (i2cWrite_keepsPower _)) fun _ => ?_
  refine Issues.run_bind (Issues.run_attempt (writeSpongeMode_keepsPower _)) fun _ => ?_
  exact tryOpmode_keepsPower _ _

theorem releaseSlots_keepsPower (l : List Nat) : Issues KeepsPower (releaseSlots l) := by
  induction l with
  | nil => trivial
  | cons i l ih => exact ⟨trivial, fun _ => ⟨trivial, fun _ => ih⟩⟩

theorem suppressTouch_keepsPower : Issues KeepsPower suppressTouch :=
  (releaseSlots_keepsPower _).bind fun _ => ⟨trivial, fun _ => ⟨trivial, fun _ => trivial⟩⟩

/-- Code that succeeds and records nothing, or fails and records `x`. -/
def Marks {γ : Type} (x : γ) (l : List γ) (r : Except Errno Unit) (l' : List γ) : Prop :=
  r = .ok () ∧ l' = l ∨ (∃ e, r = .error e) ∧ l' = l ++ [x]

/-! ## Suspend -/

abbrev obstacles : Monitor touch := .records obstacle

instance : obstacles.Ignores Op.load := Monitor.ignores_records fun _ _ => rfl
instance (f : Ctx → Ctx) : obstacles.Ignores (Op.store f) := Monitor.ignores_records fun _ _ => rfl
instance (r : Supply) : obstacles.Ignores (Op.regulatorDisable r) :=
  Monitor.ignores_records fun _ _ => rfl
instance : obstacles.Ignores Op.disableIrqWake := Monitor.ignores_records fun _ _ => rfl
instance : obstacles.Ignores Op.disableIrq := Monitor.ignores_records fun _ _ => rfl
instance (i : Nat) : obstacles.Ignores (Op.mtSlot i) := Monitor.ignores_records fun _ _ => rfl
instance (b : Bool) : obstacles.Ignores (Op.mtReportSlot b) :=
  Monitor.ignores_records fun _ _ => rfl
instance : obstacles.Ignores Op.mtSyncFrame := Monitor.ignores_records fun _ _ => rfl
instance (r : Report) : obstacles.Ignores (Op.report r) := Monitor.ignores_records fun _ _ => rfl
instance (c : BitVec 8) (n : Nat) : obstacles.Ignores (Op.i2cRead c n) :=
  Monitor.ignores_records fun _ _ => rfl

section Suspend

variable {A : Event touch → Prop} {l : List Unit} {s : State}

/-- A write that counts when it fails. -/
theorem wp_write_counts {data : List (BitVec 8)} {Q : Except Errno Unit → List Unit → State → Prop}
    (hdata : ∀ i s, obstacle ⟨.i2cWrite data, i, s⟩ = i.fault.map fun _ => ())
    (herr : ∀ e, Q (.error e) (l ++ [()]) s) (hok : Q (.ok ()) l s) :
    wp A obstacles (i2cWrite data).run Q l s := by
  refine (wp_perform _ _ _ _).2 fun i _ => ⟨trivial, ?_⟩
  cases hf : i.fault with
  | some e => simpa [handle, Input.answer, hf, hdata] using herr e
  | none => simpa [handle, Input.answer, hf, hdata] using hok

/-- The sponge is written without looking at the result. -/
theorem writeSpongeMode_obstacles (mode : BitVec 8) :
    wp A obstacles (writeSpongeMode mode).run (fun _ l' _ => l' = l) l s := by
  have hwrite : ∀ {data : List (BitVec 8)} {l : List Unit} {s : State},
      (∀ i s, obstacle ⟨.i2cWrite data, i, s⟩ = none) →
      wp A obstacles (i2cWrite data).run (fun _ l' _ => l' = l) l s := fun hdata => by
    refine (wp_perform _ _ _ _).2 fun i _ => ⟨trivial, ?_⟩
    simp only [hdata, Option.toList_none, List.append_nil]
  unfold writeSpongeMode
  apply wp_run_seq (hwrite fun _ _ => rfl)
  · exact fun _ _ _ h => h
  · rintro _ _ _ rfl
    exact hwrite fun _ _ => rfl

/-- Writing the mode counts when it fails, unless it fails with `-EAGAIN`. -/
theorem wp_write_opmode {mode : BitVec 8} {Q : Except Errno Unit → List Unit → State → Prop}
    (hagain : Q (.error .eagain) l s) (herr : ∀ e, e ≠ .eagain → Q (.error e) (l ++ [()]) s)
    (hok : Q (.ok ()) l s) : wp A obstacles (i2cWrite [setGetOpmode, mode]).run Q l s := by
  refine (wp_perform _ _ _ _).2 fun i _ => ⟨trivial, ?_⟩
  have hcmd : setGetOpmode ≠ writeWakeupGesture := by decide
  cases hf : i.fault with
  | none => simpa [handle, Input.answer, hf, obstacle, hcmd] using hok
  | some e =>
    by_cases he : e = .eagain
    · simpa [handle, Input.answer, hf, obstacle, hcmd, he] using hagain
    · simpa [handle, Input.answer, hf, obstacle, hcmd, he] using herr e he

theorem wp_i2cRead {c : BitVec 8} {n : Nat} {Q : Except Errno Buffer → List Unit → State → Prop}
    (herr : ∀ e, Q (.error e) l s) (hok : ∀ buf, Q (.ok buf) l s) :
    wp A obstacles (i2cRead c n).run Q l s := by
  refine wp_perform_of_ignores fun i _ => ?_
  cases hf : i.fault with
  | none => simpa only [handle, Input.answer, hf] using hok i.data
  | some e => simpa only [handle, Input.answer, hf] using herr e

/-- Setting the mode fails with `-EAGAIN`, which does not count, or with a write that does. -/
theorem tryOpmode_obstacles (mode : BitVec 8) (n : Nat) :
    wp A obstacles (tryOpmode mode n).run (fun r l' _ =>
      (r = .ok () ∨ r = .error .eagain) ∧ l' = l ∨
        ∃ e, r = .error e ∧ e ≠ .eagain ∧ l' = l ++ [()]) l s := by
  induction n generalizing s with
  | zero => exact .inl ⟨.inr rfl, rfl⟩
  | succ n ih =>
    unfold tryOpmode
    rw [wp_run_bind]
    refine wp_write_opmode (.inl ⟨.inr rfl, rfl⟩) (fun e he => .inr ⟨e, rfl, he, rfl⟩) ?_
    dsimp only
    rw [wp_run_bind, wp_run_attempt]
    refine wp_i2cRead (fun e => ih) fun buf => ?_
    dsimp only
    split
    · exact .inl ⟨.inl rfl, rfl⟩
    · exact ih

theorem armGesture_obstacles :
    wp A obstacles armGesture.run (fun r l' _ => Marks () l r l') l s := by
  have hgesture : ∀ {l : List Unit} {s : State},
      wp A obstacles (i2cWrite [writeWakeupGesture, 0x02]).run
        (fun r l' _ => Marks () l r l') l s :=
    wp_write_counts (fun _ _ => by simp [obstacle]) (fun e => .inr ⟨⟨e, rfl⟩, rfl⟩) (.inl ⟨rfl, rfl⟩)
  unfold armGesture
  apply wp_run_attempt_seq (writeSpongeMode_obstacles _)
  rintro _ _ s rfl
  apply wp_run_attempt_seq (tryOpmode_obstacles _ _)
  rintro r _ s (⟨rfl | rfl, rfl⟩ | ⟨e, rfl, he, rfl⟩)
  · exact hgesture
  · exact hgesture
  · dsimp only
    rw [if_neg he]
    exact .inr ⟨⟨e, rfl⟩, rfl⟩

theorem suppressTouch_obstacles :
    wp A obstacles suppressTouch (fun _ l' _ => l' = l) l s := by
  have hslots : ∀ (slots : List Nat) {s : State},
      wp A obstacles (releaseSlots slots) (fun _ l' _ => l' = l) l s := by
    intro slots
    induction slots with
    | nil => exact rfl
    | cons i slots ih =>
      intro s
      unfold releaseSlots
      rw [wp_bind]
      refine wp_perform_of_ignores fun _ _ => ?_
      rw [wp_bind]
      exact wp_perform_of_ignores fun _ _ => ih
  unfold suppressTouch
  apply wp_seq (hslots _)
  rintro _ _ s rfl
  rw [wp_bind]
  refine wp_perform_of_ignores fun _ _ => ?_
  exact wp_perform_of_ignores fun _ _ => rfl

theorem suspendOff_spec {a v d w : Int} {b : Bool} (hs : power s = (a, v, d, w, b)) :
    wp A obstacles suspendOff
      (fun _ l' s' => l' = l ∧ power s' = (a - 1, v - 1, d + 1, w, b)) l s := by
  simp only [power, Prod.mk.injEq] at hs
  obtain ⟨rfl, rfl, rfl, rfl, rfl⟩ := hs
  unfold suspendOff powerOff
  rw [wp_bind]
  refine wp_disableIrq ?_
  rw [wp_bind]
  refine wp_regulatorDisable ?_
  refine wp_regulatorDisable ⟨rfl, ?_⟩
  simp [power, State.addUse, sub_eq_add_neg]

/-- A suspend arms the gesture if double tap to wake is on and nothing stands in its way; otherwise it
cuts the power. -/
theorem suspend_spec {a v d : Int} (hs : power s = (a, v, d, 0, false)) :
    wp A obstacles suspend (fun _ l' s' =>
      (s.ctx.dtwEnabled = true ∧ l' = []) ∧ power s' = (a, v, d, 1, true) ∨
        ¬ (s.ctx.dtwEnabled = true ∧ l' = []) ∧ power s' = (a - 1, v - 1, d + 1, 0, false)) [] s := by
  have hoff : ∀ {l : List Unit} {s₁ : State}, power s₁ = (a, v, d, 0, false) →
      ¬ (s.ctx.dtwEnabled = true ∧ l = []) →
      wp A obstacles (suspendOff >>= fun _ => (return .ok () : Code (Except Errno Unit)))
        (fun _ l' s' => (s.ctx.dtwEnabled = true ∧ l' = []) ∧ power s' = (a, v, d, 1, true) ∨
          ¬ (s.ctx.dtwEnabled = true ∧ l' = []) ∧ power s' = (a - 1, v - 1, d + 1, 0, false)) l s₁ := by
    intro l s₁ hs₁ hl
    apply wp_seq (suspendOff_spec hs₁)
    rintro _ _ s₂ ⟨rfl, hs₂⟩
    exact .inr ⟨hl, hs₂⟩
  unfold suspend
  refine wp_load_seq ?_
  refine wp_ite (fun hdtw => hoff hs fun h => hdtw h.1) fun hdtw => ?_
  rw [wp_bind]
  refine (wp_perform _ _ _ _).2 fun may _ => ⟨trivial, ?_⟩
  cases hmay : may.flag with
  | false =>
    simp only [handle, hmay, obstacle]
    exact hoff hs fun h => nomatch h.2
  | true =>
    simp only [handle, hmay, obstacle, not_true_eq_false, ↓reduceIte, Option.toList_none,
      List.append_nil]
    rw [wp_bind]
    refine (wp_perform _ _ _ _).2 fun i _ => ⟨trivial, ?_⟩
    cases hf : i.fault with
    | some e =>
      simp only [handle, hf, obstacle]
      exact hoff hs fun h => nomatch h.2
    | none =>
      simp only [handle, hf, obstacle, Option.map_none, Option.toList_none, List.append_nil]
      have hwake : power { s with wakeDepth := s.wakeDepth + 1 } = (a, v, d, 1, false) := by
        simp only [power, Prod.mk.injEq] at hs
        simp [power, hs]
      apply wp_seq (wp_and suppressTouch_obstacles (wp_keepsPower suppressTouch_keepsPower))
      rintro _ _ s₁ ⟨rfl, hs₁⟩
      apply wp_seq (wp_and armGesture_obstacles (wp_keepsPower armGesture_keepsPower))
      rintro r _ s₂ ⟨h, hs₂⟩
      have hpower : power s₂ = (a, v, d, 1, false) := hs₂.trans (hs₁.trans hwake)
      simp only [power, Prod.mk.injEq] at hpower
      rcases h with ⟨rfl, rfl⟩ | ⟨⟨e, rfl⟩, rfl⟩
      · dsimp only
        rw [wp_bind]
        refine wp_store (.inl ⟨⟨not_not.1 hdtw, rfl⟩, ?_⟩)
        simp [power, State.setCtx, Ctx.setLpmSuspended, hpower]
      · dsimp only
        rw [wp_bind]
        refine wp_disableIrqWake (hoff ?_ fun h => nomatch h.2)
        simp [power, hpower]

end Suspend

/-! ## Resume -/

abbrev signs : Monitor touch := .records sign

instance : signs.Ignores Op.load := Monitor.ignores_records fun _ _ => rfl
instance (f : Ctx → Ctx) : signs.Ignores (Op.store f) := Monitor.ignores_records fun _ _ => rfl
instance (r : Supply) : signs.Ignores (Op.regulatorDisable r) :=
  Monitor.ignores_records fun _ _ => rfl
instance : signs.Ignores Op.disableIrqWake := Monitor.ignores_records fun _ _ => rfl
instance : signs.Ignores Op.enableIrq := Monitor.ignores_records fun _ _ => rfl

section Resume

variable {A : Event touch → Prop} {l : List Sign} {s : State} {a v d w : Int} {b : Bool}

theorem wp_regulatorEnable {r : Supply} {Q : Except Errno Unit → List Sign → State → Prop}
    (herr : ∀ e, Q (.error e) (l ++ [.supplyFails]) s) (hok : Q (.ok ()) l (s.addUse r 1)) :
    wp A signs (regulatorEnable r).run Q l s := by
  refine (wp_perform _ _ _ _).2 fun i _ => ⟨trivial, ?_⟩
  cases hf : i.fault with
  | some e => simpa [handle, hf, sign] using herr e
  | none => simpa [handle, hf, sign] using hok

theorem i2cWrite_signs (data : List (BitVec 8)) :
    wp A signs (i2cWrite data).run (fun r l' _ => Marks .busFails l r l') l s := by
  refine (wp_perform _ _ _ _).2 fun i _ => ⟨trivial, ?_⟩
  unfold Marks
  cases hf : i.fault with
  | some e => simp [handle, Input.answer, hf, sign]
  | none => simp [handle, Input.answer, hf, sign]

/-- The poll ends with a reading that is ready, with a failed one, or with neither. -/
theorem pollReady_signs (n : Nat) :
    wp A signs (pollReady n).run (fun r l' _ => r = .ok () ∧ l' = l ++ [.ready] ∨
      (∃ e, r = .error e) ∧ (l' = l ∨ l' = l ++ [.busFails])) l s := by
  induction n generalizing s with
  | zero => exact .inr ⟨⟨_, rfl⟩, .inl rfl⟩
  | succ n ih =>
    unfold pollReady
    rw [wp_run_bind]
    refine (wp_perform _ _ _ _).2 fun i _ => ⟨trivial, ?_⟩
    cases hf : i.fault with
    | some e => simp [handle, Input.answer, hf, sign]
    | none =>
      simp only [handle, Input.answer, hf, sign, ↓reduceIte]
      split
      · next hready =>
        rw [if_pos (show ReportsReady i.data from hready)]
        exact .inl ⟨rfl, rfl⟩
      · next hready =>
        rw [if_neg (show ¬ ReportsReady i.data from hready), Option.toList_none, List.append_nil]
        exact ih

/-- A run of writes, each of which must succeed. -/
theorem senseOn_signs :
    wp A signs senseOn.run (fun r l' _ => Marks .busFails l r l') l s := by
  have hseq : ∀ {data : List (BitVec 8)} {x : Fallible Unit} {l : List Sign} {s : State},
      (∀ {s : State}, wp A signs x.run (fun r l' _ => Marks .busFails l r l') l s) →
      wp A signs (i2cWrite data >>= fun _ => x).run (fun r l' _ => Marks .busFails l r l') l s := by
    intro data x l s hx
    apply wp_run_seq (i2cWrite_signs _)
    · rintro e l' s (⟨h, -⟩ | ⟨-, rfl⟩)
      · cases h
      · exact .inr ⟨⟨e, rfl⟩, rfl⟩
    · rintro _ l' s (⟨-, rfl⟩ | ⟨⟨e, h⟩, -⟩)
      · exact hx
      · cases h
  unfold senseOn
  exact hseq (hseq (i2cWrite_signs _))

/-- The controller starts precisely if nothing fails and it reports that it is ready. -/
theorem start_signs :
    wp A signs start.run (fun r l' _ => r = .ok () ∧ l' = l ++ [.ready] ∨
      (∃ e, r = .error e) ∧ (l' = l ∨ ∃ l₁, l' = l ++ l₁ ++ [.busFails] ∧ .supplyFails ∉ l₁)) l s := by
  unfold start reset waitForReady
  rw [wp_run_bind]
  apply wp_run_seq (i2cWrite_signs _)
  · rintro e l' s (⟨h, -⟩ | ⟨-, rfl⟩)
    · cases h
    · exact .inr ⟨⟨e, rfl⟩, .inr ⟨[], by simp, List.not_mem_nil⟩⟩
  rintro _ l' s (⟨-, rfl⟩ | ⟨⟨e, h⟩, -⟩)
  · refine wp_mono (pollReady_signs 100) ?_
    rintro r l'' s (⟨rfl, rfl⟩ | ⟨⟨e, rfl⟩, rfl | rfl⟩)
    · refine wp_mono senseOn_signs ?_
      rintro r l'' s (⟨rfl, rfl⟩ | ⟨⟨e, rfl⟩, rfl⟩)
      · exact .inl ⟨rfl, rfl⟩
      · exact .inr ⟨⟨e, rfl⟩, .inr ⟨[.ready], rfl, by decide⟩⟩
    · exact .inr ⟨⟨e, rfl⟩, .inl rfl⟩
    · exact .inr ⟨⟨e, rfl⟩, .inr ⟨[], by simp, List.not_mem_nil⟩⟩
  · cases h

/-- From cut supplies, what the signs say of bringing the controller up: the supplies come up together
or not at all, and the controller does not touch them. -/
theorem bringUp_signs (hs : power s = (0, 0, d, w, b)) :
    wp A signs bringUp.run (fun r l' s' => r = .ok () ∧ Up l' ∧ power s' = (1, 1, d, w, b) ∨
      (∃ e, r = .error e) ∧ ¬ Up l' ∧
        (.supplyFails ∈ l' ∧ power s' = (0, 0, d, w, b) ∨
          .supplyFails ∉ l' ∧ power s' = (1, 1, d, w, b))) [] s := by
  simp only [power, Prod.mk.injEq] at hs
  have hdown : ∀ {e : Errno} {s' : State}, power s' = (0, 0, d, w, b) →
      (∃ e', (.error e : Except Errno Unit) = .error e') ∧ ¬ Up [.supplyFails] ∧
        (.supplyFails ∈ [Sign.supplyFails] ∧ power s' = (0, 0, d, w, b) ∨
          .supplyFails ∉ [Sign.supplyFails] ∧ power s' = (1, 1, d, w, b)) := by
    intro e s' hs'
    exact ⟨⟨e, rfl⟩, fun h => h.1 List.mem_cons_self, .inl ⟨List.mem_cons_self, hs'⟩⟩
  unfold bringUp powerOn
  rw [wp_run_bind, wp_run_bind]
  refine wp_regulatorEnable (fun e => .inr (hdown ?_)) ?_
  · simp [power, hs]
  dsimp only
  rw [wp_run_bind, wp_run_attempt]
  refine wp_regulatorEnable (fun e => ?_) ?_
  · dsimp only
    rw [wp_run_bind, wp_run_lift]
    refine wp_regulatorDisable (.inr (hdown ?_))
    simp [power, State.addUse, hs]
  have hup : power ((s.addUse .vddio 1).addUse .avdd 1) = (1, 1, d, w, b) := by
    simp [power, State.addUse, hs]
  dsimp only
  rw [ExceptT.run_pure, wp_pure]
  refine wp_mono (wp_and start_signs (wp_keepsPower start_keepsPower)) ?_
  rintro r l' s' ⟨⟨rfl, rfl⟩ | ⟨⟨e, rfl⟩, rfl | ⟨l₁, rfl, hl₁⟩⟩, hs'⟩
  · exact .inl ⟨rfl, ⟨by decide, by decide, by decide⟩, hs'.trans hup⟩
  · refine .inr ⟨⟨e, rfl⟩, fun h => ?_, .inr ⟨List.not_mem_nil, hs'.trans hup⟩⟩
    exact absurd h.2.2 List.not_mem_nil
  · refine .inr ⟨⟨e, rfl⟩, fun h => h.2.1 (by simp), .inr ⟨?_, hs'.trans hup⟩⟩
    simpa using hl₁

/-- A resume from a cut power. -/
theorem resume_cut_spec (hs : power s = (0, 0, d, 0, false)) :
    wp A signs resume (fun r l' s' => r = .ok () ∧ Up l' ∧ power s' = (1, 1, d - 1, 0, false) ∨
      (∃ e, r = .error e) ∧ ¬ Up l' ∧
        (.supplyFails ∈ l' ∧ power s' = (0, 0, d, 0, false) ∨
          .supplyFails ∉ l' ∧ power s' = (1, 1, d, 0, false))) [] s := by
  have hlpm : s.ctx.lpmSuspended = false := by
    simp only [power, Prod.mk.injEq] at hs
    exact hs.2.2.2.2
  unfold resume
  refine wp_load_seq ?_
  rw [if_neg (by simp [hlpm])]
  apply wp_seq (bringUp_signs hs)
  rintro r l' s₁ (⟨rfl, hl, hs₁⟩ | ⟨⟨e, rfl⟩, hl, hs₁⟩)
  · dsimp only
    rw [wp_bind]
    refine wp_enableIrq (.inl ⟨rfl, hl, ?_⟩)
    simp only [power, Prod.mk.injEq] at hs₁
    simp [power, hs₁]
  · exact .inr ⟨⟨e, rfl⟩, hl, hs₁⟩

/-- A resume from an armed gesture always returns zero. -/
theorem resume_armed_spec (hs : power s = (a, v, d, 1, true)) :
    wp A signs resume (fun r _ s' => r = .ok () ∧ power s' = (a, v, d, 0, false)) [] s := by
  simp only [power, Prod.mk.injEq] at hs
  unfold resume
  refine wp_load_seq ?_
  rw [if_pos hs.2.2.2.2, wp_bind]
  refine wp_store ?_
  rw [wp_bind]
  refine wp_disableIrqWake ?_
  have hawake : power { s.setCtx (Ctx.setLpmSuspended false) with
      wakeDepth := s.wakeDepth - 1 } = (a, v, d, 0, false) := by
    simp [power, State.setCtx, Ctx.setLpmSuspended, hs]
  refine wp_seq (wp_keepsPower disarmGesture_keepsPower) ?_
  intro r _ s₁ hs₁
  cases r with
  | ok _ => exact ⟨rfl, hs₁.trans hawake⟩
  | error e =>
    dsimp only
    apply wp_seq (wp_keepsPower start_keepsPower)
    intro _ _ s₂ hs₂
    exact ⟨rfl, hs₂.trans (hs₁.trans hawake)⟩

end Resume

end Gts9Wifi.Touch
