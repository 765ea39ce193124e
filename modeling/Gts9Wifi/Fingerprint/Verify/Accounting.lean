import Gts9Wifi.Fingerprint.El721
import Gts9Wifi.Lib.Runs

/-!
# The sensor's power is accounted for

The sensor is off, with nothing in use and no line high, or it is on, with the supply in use once if
there is one. Every operation leads from one of these to one of these, wherever it fails: a power-on
that stops half way undoes what it did, and a batch of transfers stops between two of them. Once the
driver is being removed the sensor is off, and no operation drives anything up again.
-/

namespace Gts9Wifi.Fingerprint

open Driver

/-! ## Vocabulary -/

/-- The supply is in use once if the sensor is powered and has one, a powered sensor has its enable
line, and no line is high while it is not powered. -/
structure Accounted (s : State) : Prop where
  uses : s.vddUses = if s.el721.powered ∧ s.el721.vdd then 1 else 0
  held : s.el721.powered = true → s.el721.enableGpio = true
  low : s.el721.powered = false → ∀ line, s.driven line ≠ some true

/-- Operations that bring the supply or a line up. -/
def Powers : Op → Prop
  | .regulatorEnable => True
  | .gpiodDirectionOutput _ value | .gpiodSetValue _ value => value = true
  | _ => False

/-- The step brings nothing up. -/
def Quiet (l : Step) (s : State) : Prop := ∀ e ∈ l.trace s, ¬ Powers e.op

/-- The step is a shutdown or a removal. -/
def Step.Ends (l : Step) : Prop := l.call = .shutdown ∨ l.call = .remove

/-! ## On and off -/

/-- The sensor is off. The flags say whether the driver is being removed and is still bound. -/
structure Off (removing bound : Bool) (s : State) : Prop where
  powered : s.el721.powered = false
  uses : s.vddUses = 0
  low : ∀ line, s.driven line ≠ some true
  ldo : s.driven .ldo ≠ none → s.el721.ldoGpio = true
  removing : s.el721.removing = removing
  bound : s.drvdata = bound

/-- The sensor is on. -/
structure On (removing bound : Bool) (s : State) : Prop where
  powered : s.el721.powered = true
  uses : s.vddUses = if s.el721.vdd then 1 else 0
  held : s.el721.enableGpio = true
  ldo : s.driven .ldo ≠ none → s.el721.ldoGpio = true
  removing : s.el721.removing = removing
  bound : s.drvdata = bound

/-- Off or on. -/
def Settled (removing bound : Bool) (s : State) : Prop := Off removing bound s ∨ On removing bound s

theorem Off.accounted {r b : Bool} {s : State} (h : Off r b s) : Accounted s where
  uses := by simp [h.uses, h.powered]
  held hp := by simp [h.powered] at hp
  low _ := h.low

theorem On.accounted {r b : Bool} {s : State} (h : On r b s) : Accounted s where
  uses := by simp [h.uses, h.powered]
  held _ := h.held
  low hp := by simp [h.powered] at hp

section State

variable (s : State) (f : El721Data → El721Data) (n : Int) (line : Line) (value : Bool)

@[simp] theorem setData_el721 : (s.setData f).el721 = f s.el721 := rfl
@[simp] theorem setData_drvdata : (s.setData f).drvdata = s.drvdata := rfl
@[simp] theorem setData_vddUses : (s.setData f).vddUses = s.vddUses := rfl
@[simp] theorem setData_driven : (s.setData f).driven = s.driven := rfl
@[simp] theorem addUse_vddUses : (s.addUse n).vddUses = s.vddUses + n := rfl
@[simp] theorem drive_el721 : (s.drive line value).el721 = s.el721 := rfl

@[simp] theorem drive_driven (l : Line) :
    (s.drive line value).driven l = if l = line then some value else s.driven l := rfl

end State

/-! ## Rules -/

/-- Whatever the environment answers, the code ends with `Q`. -/
def Ends {α : Type} (x : Code α) (s : State) (Q : Except Errno α → State → Prop) : Prop :=
  wp (fun _ => True) (Monitor.idle board) x.run (fun r _ s' => Q r s') () s

section Rules

variable {α β : Type} {s : State} {x : Code α} {f : α → Code β}

theorem Ends.mono {Q R : Except Errno α → State → Prop} (h : Ends x s Q)
    (hQR : ∀ r s', Q r s' → R r s') : Ends x s R :=
  wp_mono h fun r _ s' => hQR r s'

/-- Code that is followed by more, whether it may fail or not. -/
theorem Ends.seq {P : Except Errno α → State → Prop} {Q : Except Errno β → State → Prop}
    (h : Ends x s P) (herr : ∀ e s', P (.error e) s' → Q (.error e) s')
    (hok : ∀ a s', P (.ok a) s' → Ends (f a) s' Q) : Ends (x >>= f) s Q :=
  wp_run_seq h (fun e _ s' => herr e s') fun a _ s' => hok a s'

theorem Ends.attempt_seq {P : Except Errno α → State → Prop} {g : Except Errno α → Code β}
    {Q : Except Errno β → State → Prop} (h : Ends x s P) (hg : ∀ r s', P r s' → Ends (g r) s' Q) :
    Ends (attempt x >>= g) s Q :=
  wp_run_attempt_seq h fun r _ s' => hg r s'

theorem ends_pure {a : α} {Q : Except Errno α → State → Prop} (h : Q (.ok a) s) :
    Ends (pure a) s Q := h

theorem ends_throw {e : Errno} {Q : Except Errno α → State → Prop} (h : Q (.error e) s) :
    Ends (throw e) s Q := h

theorem ends_load_seq {f : El721Data → Code β} {Q : Except Errno β → State → Prop}
    (h : Ends (f s.el721) s Q) : Ends (load >>= f) s Q :=
  (wp_run_bind _ _ _ _ _).2 fun _ _ => ⟨trivial, h⟩

theorem ends_getDrvdata_seq {f : Bool → Code β} {Q : Except Errno β → State → Prop}
    (h : Ends (f s.drvdata) s Q) : Ends (getDrvdata >>= f) s Q :=
  (wp_run_bind _ _ _ _ _).2 fun _ _ => ⟨trivial, h⟩

theorem ends_store {g : El721Data → El721Data} {Q : Except Errno Unit → State → Prop}
    (h : Q (.ok ()) (s.setData g)) : Ends (store g) s Q :=
  fun _ _ => ⟨trivial, h⟩

theorem ends_gpiodSetValue {line : Line} {value : Bool} {Q : Except Errno Unit → State → Prop}
    (h : Q (.ok ()) (s.drive line value)) : Ends (gpiodSetValue line value) s Q :=
  fun _ _ => ⟨trivial, h⟩

theorem ends_gpiodSetValue_seq {line : Line} {value : Bool} {f : Unit → Code β}
    {Q : Except Errno β → State → Prop} (h : Ends (f ()) (s.drive line value) Q) :
    Ends (gpiodSetValue line value >>= f) s Q :=
  (wp_run_bind _ _ _ _ _).2 fun _ _ => ⟨trivial, h⟩

theorem ends_regulatorDisable {Q : Except Errno Unit → State → Prop}
    (h : Q (.ok ()) (s.addUse (-1))) : Ends regulatorDisable s Q :=
  fun _ _ => ⟨trivial, h⟩

theorem ends_regulatorEnable {Q : Except Errno Unit → State → Prop} (herr : ∀ e, Q (.error e) s)
    (hok : Q (.ok ()) (s.addUse 1)) : Ends regulatorEnable s Q := by
  refine (wp_perform _ _ _ _).2 fun i _ => ⟨trivial, ?_⟩
  cases hf : i.fault with
  | some e => simpa only [handle, hf] using herr e
  | none => simpa only [handle, hf] using hok

theorem ends_gpiodDirectionOutput {line : Line} {value : Bool} {Q : Except Errno Unit → State → Prop}
    (herr : ∀ e, Q (.error e) s) (hok : Q (.ok ()) (s.drive line value)) :
    Ends (gpiodDirectionOutput line value) s Q := by
  refine (wp_perform _ _ _ _).2 fun i _ => ⟨trivial, ?_⟩
  cases hf : i.fault with
  | some e => simpa only [handle, hf] using herr e
  | none => simpa only [handle, hf] using hok

theorem ends_onlyIf {c : Prop} [Decidable c] {y : Code Unit} {Q : Except Errno Unit → State → Prop}
    (hy : c → Ends y s Q) (hn : ¬ c → Q (.ok ()) s) : Ends (onlyIf c y) s Q := by
  unfold onlyIf
  split
  next hc => exact hy hc
  next hc => exact hn hc

theorem ends_ite {c : Prop} [Decidable c] {y : Code α} {Q : Except Errno α → State → Prop}
    (hx : c → Ends x s Q) (hy : ¬ c → Ends y s Q) : Ends (if c then x else y) s Q := by
  split
  next hc => exact hx hc
  next hc => exact hy hc

end Rules

/-! ## Acquiring the hardware -/

/-- Operations that only ask the environment. -/
def Asks : Op → Prop
  | .store _ | .clearDrvdata | .regulatorEnable | .regulatorDisable | .gpiodDirectionOutput _ _
  | .gpiodSetValue _ _ => False
  | _ => True

theorem Asks.frame {o : Op} (h : Asks o) (i : Input) (s : State) : (handle o i s).2 = s := by
  cases o with
  | store _ | clearDrvdata | regulatorEnable | regulatorDisable | gpiodDirectionOutput _ _
  | gpiodSetValue _ _ => exact h.elim
  | _ => rfl

theorem ends_of_asks {α : Type} {x : Code α} (h : Issues Asks x.run) (s : State) :
    Ends x s fun _ s' => s' = s := by
  refine h.wp (W := board) (M := Monitor.idle board) (J := fun _ s' => s' = s)
    (fun o ho i _ s' _ hs' => ⟨trivial, ?_⟩) rfl
  exact (ho.frame i s').trans hs'

/-- Whatever becomes of asking, the code goes on in the same state. -/
theorem ends_asks_seq {α β : Type} {x : Code α} (h : Issues Asks x.run) {s : State} {f : α → Code β}
    {Q : Except Errno β → State → Prop} (herr : ∀ e, Q (.error e) s) (hok : ∀ a, Ends (f a) s Q) :
    Ends (x >>= f) s Q := by
  refine (ends_of_asks h s).seq ?_ ?_
  · rintro e s' rfl
    exact herr e
  · rintro a s' rfl
    exact hok a

theorem vddSupplyPresent_asks : Issues Asks vddSupplyPresent.run := ⟨trivial, fun _ => trivial⟩

theorem publishRail_asks : Issues Asks publishRail.run := ⟨trivial, fun _ => trivial⟩

theorem gpiodGetOptional_asks (line : Line) : Issues Asks (gpiodGetOptional line).run :=
  ⟨trivial, fun _ => trivial⟩

theorem gpiodGet_asks (line : Line) : Issues Asks (gpiodGet line).run := ⟨trivial, fun _ => trivial⟩

theorem getVdd_asks (n : Nat) : Issues Asks (getVdd n).run := by
  induction n with
  | zero => trivial
  | succ n ih =>
    refine Issues.run_bind (Issues.run_attempt ⟨trivial, fun _ => trivial⟩) fun r => ?_
    split
    · trivial
    · split
      · exact ih
      · trivial

variable {r b : Bool} {s : State}

/-- What is held may change while the sensor is off, as long as a driven line stays held. -/
theorem Off.setData (h : Off r b s) {f : El721Data → El721Data}
    (hp : (f s.el721).powered = s.el721.powered) (hr : (f s.el721).removing = s.el721.removing)
    (hldo : s.el721.ldoGpio = true → (f s.el721).ldoGpio = true) : Off r b (s.setData f) where
  powered := by simp [hp, h.powered]
  uses := h.uses
  low := h.low
  ldo hne := hldo (h.ldo hne)
  removing := by simp [hr, h.removing]
  bound := h.bound

theorem acquireVdd_off (h : Off r b s) : Ends acquireVdd s fun _ s' => Off r b s' := by
  unfold acquireVdd
  apply ends_load_seq
  apply ends_ite
  · exact fun _ => h
  intro _
  refine ends_asks_seq vddSupplyPresent_asks (fun _ => h) fun present => ?_
  have hpublish : Issues Asks (onlyIf (!present) publishRail).run := by
    unfold onlyIf
    split
    · exact publishRail_asks
    · trivial
  refine ends_asks_seq (Issues.run_attempt hpublish) (fun _ => h) fun _ => ?_
  refine ends_asks_seq (getVdd_asks 50) (fun _ => h) fun found => ?_
  exact ends_store (h.setData rfl rfl id)

/-- The line is asked for again only if it is not held. -/
theorem acquireLdo_off (h : Off r b s) : Ends acquireLdo s fun _ s' => Off r b s' := by
  unfold acquireLdo
  apply ends_load_seq
  apply ends_ite
  · exact fun _ => h
  intro hnot
  refine ends_asks_seq (gpiodGetOptional_asks .ldo) (fun _ => h) fun found => ?_
  exact ends_store (h.setData rfl rfl fun hheld => absurd hheld hnot)

theorem acquireEnable_off (h : Off r b s) :
    Ends acquireEnable s fun res s' => Off r b s' ∧ (res = .ok () → s'.el721.enableGpio = true) := by
  unfold acquireEnable
  apply ends_load_seq
  apply ends_ite
  · exact fun hheld => ends_pure ⟨h, fun _ => hheld⟩
  intro _
  refine ends_asks_seq (gpiodGet_asks .enable) ?_ ?_
  · exact fun e => ⟨h, fun heq => nomatch heq⟩
  · exact fun _ => ends_store ⟨h.setData rfl rfl id, fun _ => rfl⟩

theorem prepareHardwareLocked_off (h : Off r b s) :
    Ends prepareHardwareLocked s fun res s' =>
      Off r b s' ∧ (res = .ok () → s'.el721.enableGpio = true) := by
  unfold prepareHardwareLocked
  refine (acquireVdd_off h).seq (fun e s' h' => ⟨h', fun heq => nomatch heq⟩) fun _ s' h' => ?_
  refine (acquireLdo_off h').seq (fun e s' h' => ⟨h', fun heq => nomatch heq⟩) fun _ s' h' => ?_
  exact acquireEnable_off h'

/-! ## Power and reset -/

/-- Nothing but the lines has changed, and of them the LDO's is driven only if it is held. -/
structure OnlyLines (s s' : State) : Prop where
  el721 : s'.el721 = s.el721
  uses : s'.vddUses = s.vddUses
  bound : s'.drvdata = s.drvdata
  ldo : s'.driven .ldo ≠ none → s.el721.ldoGpio = true

/-- The LDO's line, if there is one, is raised or left as it was. -/
theorem raiseLdo_lines (hlow : ∀ line, s.driven line ≠ some true)
    (hldo : s.driven .ldo ≠ none → s.el721.ldoGpio = true) :
    Ends (onlyIf s.el721.ldoGpio (gpiodDirectionOutput .ldo true)) s fun res s' =>
      OnlyLines s s' ∧ s'.driven .enable ≠ some true ∧
        ((res = .ok () → s.el721.ldoGpio = false) → s'.driven .ldo ≠ some true) := by
  have hsame : OnlyLines s s := ⟨rfl, rfl, rfl, hldo⟩
  apply ends_onlyIf
  · intro hheld
    apply ends_gpiodDirectionOutput
    · exact fun e => ⟨hsame, hlow .enable, fun _ => hlow .ldo⟩
    · refine ⟨⟨rfl, rfl, rfl, fun _ => hheld⟩, by simpa using hlow .enable, fun hnot => ?_⟩
      simp [hnot rfl] at hheld
  · exact fun _ => ⟨hsame, hlow .enable, fun _ => hlow .ldo⟩

/-- The LDO's line goes down again. -/
theorem lowerLdo_lines {s' : State} (hlines : OnlyLines s s') (henable : s'.driven .enable ≠ some true)
    (hldo : s.el721.ldoGpio = false → s'.driven .ldo ≠ some true) :
    Ends (onlyIf s.el721.ldoGpio (gpiodSetValue .ldo false)) s' fun res s'' =>
      res = .ok () ∧ OnlyLines s s'' ∧ ∀ line, s''.driven line ≠ some true := by
  apply ends_onlyIf
  · intro hheld
    apply ends_gpiodSetValue
    refine ⟨rfl, ⟨hlines.el721, hlines.uses, hlines.bound, fun _ => hheld⟩, fun line => ?_⟩
    cases line with
    | ldo => simp
    | enable => simpa using henable
  · intro hnot
    refine ⟨rfl, hlines, fun line => ?_⟩
    cases line with
    | ldo => exact hldo (by simpa using hnot)
    | enable => exact henable

/-- Lines that could not both be raised are left low. -/
theorem raiseLines_lines (hlow : ∀ line, s.driven line ≠ some true)
    (hldo : s.driven .ldo ≠ none → s.el721.ldoGpio = true) :
    Ends (raiseLines s.el721.ldoGpio) s fun res s' =>
      OnlyLines s s' ∧ (res ≠ .ok () → ∀ line, s'.driven line ≠ some true) := by
  unfold raiseLines
  refine (raiseLdo_lines hlow hldo).seq ?_ ?_
  · rintro e s' ⟨hlines, henable, hldo'⟩
    refine ⟨hlines, fun _ line => ?_⟩
    cases line with
    | ldo => exact hldo' fun heq => nomatch heq
    | enable => exact henable
  rintro _ s' ⟨hlines, henable, hldo'⟩
  refine Ends.attempt_seq (P := fun res s'' => (res = .ok () ∧ OnlyLines s s'') ∨
    (∃ e, res = .error e) ∧ s'' = s') ?_ ?_
  · refine ends_gpiodDirectionOutput (fun e => .inr ⟨⟨e, rfl⟩, rfl⟩) (.inl ⟨rfl, ?_⟩)
    exact ⟨hlines.el721, hlines.uses, hlines.bound, by simpa using hlines.ldo⟩
  · rintro res s'' (⟨rfl, hlines'⟩ | ⟨⟨e, rfl⟩, rfl⟩)
    · exact ends_pure ⟨hlines', fun hne => absurd rfl hne⟩
    · refine (lowerLdo_lines hlines henable fun hnot => hldo' fun _ => hnot).seq ?_ ?_
      · exact fun _ s₁ h₁ => nomatch h₁.1
      · exact fun _ s₁ h₁ => ends_throw ⟨h₁.2.1, fun _ => h₁.2.2⟩

/-- The supply is enabled if there is one. -/
theorem enableVdd_uses (huses : s.vddUses = 0) :
    Ends (onlyIf s.el721.vdd regulatorEnable) s fun res s' =>
      s'.el721 = s.el721 ∧ s'.driven = s.driven ∧ s'.drvdata = s.drvdata ∧
        s'.vddUses = if res = .ok () ∧ s.el721.vdd then 1 else 0 := by
  apply ends_onlyIf
  · intro hvdd
    apply ends_regulatorEnable
    · exact fun e => ⟨rfl, rfl, rfl, by simp [huses]⟩
    · exact ⟨rfl, rfl, rfl, by simp [huses, hvdd]⟩
  · exact fun hvdd => ⟨rfl, rfl, rfl, by simp [huses, hvdd]⟩

/-- And disabled again. -/
theorem disableVdd_uses {s' : State} (huses : s'.vddUses = if s.el721.vdd then 1 else 0) :
    Ends (onlyIf s.el721.vdd regulatorDisable) s' fun res s'' =>
      res = .ok () ∧ s''.el721 = s'.el721 ∧ s''.driven = s'.driven ∧ s''.drvdata = s'.drvdata ∧
        s''.vddUses = 0 := by
  apply ends_onlyIf
  · intro hvdd
    exact ends_regulatorDisable ⟨rfl, rfl, rfl, rfl, by simp [huses, hvdd]⟩
  · exact fun hvdd => ⟨rfl, rfl, rfl, rfl, by simp [huses, hvdd]⟩

/-- The supply and the lines have come and gone. -/
theorem Off.again (h : Off r b s) {s' : State} (hel : s'.el721 = s.el721)
    (hbound : s'.drvdata = s.drvdata) (huses : s'.vddUses = 0)
    (hlow : ∀ line, s'.driven line ≠ some true)
    (hldo : s'.driven .ldo ≠ none → s.el721.ldoGpio = true) : Off r b s' where
  powered := by rw [hel, h.powered]
  uses := huses
  low := hlow
  ldo := by rwa [hel]
  removing := by rw [hel, h.removing]
  bound := by rw [hbound, h.bound]

/-- The supply and the lines have come and stay. -/
theorem Off.poweredOn (h : Off r b s) (henable : s.el721.enableGpio = true) {s' : State}
    (hel : s'.el721 = s.el721) (hbound : s'.drvdata = s.drvdata)
    (huses : s'.vddUses = if s.el721.vdd then 1 else 0)
    (hldo : s'.driven .ldo ≠ none → s.el721.ldoGpio = true) :
    On r b (s'.setData fun el721 => { el721 with powered := true }) where
  powered := rfl
  uses := by simp [huses, hel]
  held := by simp [hel, henable]
  ldo := by simpa [hel] using hldo
  removing := by simp [hel, h.removing]
  bound := by simp [hbound, h.bound]

/-- From where everything is acquired on. The supply is enabled and the lines are raised, or all of it
is undone. -/
theorem bringUp_settled (h : Off r b s) (henable : s.el721.enableGpio = true) :
    Ends (do
      onlyIf s.el721.vdd regulatorEnable
      match ← attempt (raiseLines s.el721.ldoGpio) with
      | .ok () => store fun el721 => { el721 with powered := true }
      | .error e => do
        onlyIf s.el721.vdd regulatorDisable
        throw e) s fun _ s' => Settled r b s' := by
  refine (enableVdd_uses h.uses).seq ?_ ?_
  · rintro e s₁ ⟨hel, hdriven, hbound, huses⟩
    exact .inl (h.again hel hbound (by simpa using huses) (by rw [hdriven]; exact h.low)
      (by rw [hdriven]; exact h.ldo))
  rintro _ s₁ ⟨hel, hdriven, hbound, huses⟩
  have huses₁ : s₁.vddUses = if s.el721.vdd then 1 else 0 := by simpa using huses
  have hraise : Ends (raiseLines s.el721.ldoGpio) s₁ fun res s' =>
      OnlyLines s₁ s' ∧ (res ≠ .ok () → ∀ line, s'.driven line ≠ some true) := by
    rw [← hel]
    exact raiseLines_lines (by rw [hdriven]; exact h.low) (by rw [hdriven, hel]; exact h.ldo)
  refine hraise.attempt_seq ?_
  rintro res s₂ ⟨hlines, hlow⟩
  have hel₂ : s₂.el721 = s.el721 := hlines.el721.trans hel
  have hbound₂ : s₂.drvdata = s.drvdata := hlines.bound.trans hbound
  have huses₂ : s₂.vddUses = if s.el721.vdd then 1 else 0 := hlines.uses.trans huses₁
  have hldo₂ : s₂.driven .ldo ≠ none → s.el721.ldoGpio = true := by
    rw [← hel]
    exact hlines.ldo
  cases res with
  | ok _ => exact ends_store (.inr (h.poweredOn henable hel₂ hbound₂ huses₂ hldo₂))
  | error e =>
    refine (disableVdd_uses huses₂).seq (fun _ s₃ h₃ => nomatch h₃.1) ?_
    rintro _ s₃ ⟨-, hel₃, hdriven₃, hbound₃, huses₃⟩
    refine .inl (h.again (hel₃.trans hel₂) (hbound₃.trans hbound₂) huses₃ ?_ ?_)
    · rw [hdriven₃]
      exact hlow fun heq => nomatch heq
    · rw [hdriven₃]
      exact hldo₂

theorem powerOnLocked_settled (h : Settled r b s) :
    Ends powerOnLocked s fun _ s' => Settled r b s' := by
  unfold powerOnLocked
  apply ends_load_seq
  apply ends_ite
  · exact fun _ => h
  intro hnot
  rcases h with hoff | hon
  · refine (prepareHardwareLocked_off hoff).seq (fun e s' h' => .inl h'.1) fun _ s' h' => ?_
    apply ends_load_seq
    exact bringUp_settled h'.1 (h'.2 rfl)
  · exact absurd hon.powered hnot

/-- Power is always off afterwards. -/
theorem powerOffLocked_off (h : Settled r b s) : Ends powerOffLocked s fun _ s' => Off r b s' := by
  unfold powerOffLocked
  apply ends_load_seq
  rcases h with hoff | hon
  · simpa [hoff.powered] using ends_pure (α := Unit) hoff
  · simp only [hon.powered, Bool.not_true, Bool.false_eq_true, if_false]
    apply ends_gpiodSetValue_seq
    have hlines : OnlyLines s (s.drive .enable false) := ⟨rfl, rfl, rfl, by simpa using hon.ldo⟩
    have hldo : s.el721.ldoGpio = false → (s.drive .enable false).driven .ldo ≠ some true := by
      intro hnot hhigh
      have hheld := hlines.ldo (by rw [hhigh]; exact nofun)
      simp [hnot] at hheld
    refine (lowerLdo_lines hlines (by simp) hldo).seq (fun _ s₁ h₁ => nomatch h₁.1) ?_
    rintro _ s₁ ⟨-, hlines₁, hlow₁⟩
    refine (disableVdd_uses (s := s) (hlines₁.uses.trans hon.uses)).seq (fun _ s₂ h₂ => nomatch h₂.1) ?_
    rintro _ s₂ ⟨-, hel₂, hdriven₂, hbound₂, huses₂⟩
    have hel : s₂.el721 = s.el721 := hel₂.trans hlines₁.el721
    refine ends_store ?_
    exact {
      powered := rfl
      uses := huses₂
      low := by simpa [hdriven₂] using hlow₁
      ldo := by simpa [hdriven₂, hel] using hlines₁.ldo
      removing := by simp [hel, hon.removing]
      bound := hbound₂.trans (hlines₁.bound.trans hon.bound) }

/-- Data that the power state does not depend on. -/
theorem Settled.setData (h : Settled r b s) {f : El721Data → El721Data}
    (hpowered : (f s.el721).powered = s.el721.powered) (hvdd : (f s.el721).vdd = s.el721.vdd)
    (hldo : (f s.el721).ldoGpio = s.el721.ldoGpio)
    (henable : (f s.el721).enableGpio = s.el721.enableGpio)
    (hremoving : (f s.el721).removing = s.el721.removing) : Settled r b (s.setData f) := by
  rcases h with hoff | hon
  · exact .inl (hoff.setData hpowered hremoving hldo.trans)
  · refine .inr ?_
    exact {
      powered := by simp [hpowered, hon.powered]
      uses := by simp [hvdd, hon.uses]
      held := by simp [henable, hon.held]
      ldo := by simpa [hldo] using hon.ldo
      removing := by simp [hremoving, hon.removing]
      bound := hon.bound }

/-- The enable line of a powered sensor may go up and down. -/
theorem On.drive (h : On r b s) (value : Bool) : On r b (s.drive .enable value) :=
  ⟨h.powered, h.uses, h.held, by simpa using h.ldo, h.removing, h.bound⟩

theorem On.of_settled (h : Settled r b s) (hpowered : s.el721.powered = true) : On r b s := by
  rcases h with hoff | hon
  · simp [hoff.powered] at hpowered
  · exact hon

theorem resetLocked_settled (h : Settled r b s) : Ends resetLocked s fun _ s' => Settled r b s' := by
  unfold resetLocked
  apply ends_load_seq
  apply ends_ite
  · exact fun _ => h
  intro hpowered
  have hon : On r b s := .of_settled h (by simpa using hpowered)
  apply ends_gpiodSetValue_seq
  apply ends_gpiodSetValue_seq
  apply ends_store
  exact Settled.setData (.inr ((hon.drive false).drive true)) rfl rfl rfl rfl rfl

theorem resetControlLocked_settled (enabled : BitVec 32) (h : Settled r b s) :
    Ends (resetControlLocked enabled) s fun _ s' => Settled r b s' := by
  unfold resetControlLocked
  apply ends_ite
  · exact fun _ => h
  intro _
  apply ends_load_seq
  apply ends_ite
  · intro _
    apply ends_ite
    · exact fun _ => h
    · exact fun _ => h
  · intro hpowered
    have hon : On r b s := .of_settled h (by simpa using hpowered)
    exact ends_gpiodSetValue (.inr (hon.drive _))

/-! ## Batches -/

theorem copyModelInfo_settled (rxBuf : BitVec 64) (h : Settled r b s) :
    Ends (copyModelInfo rxBuf) s fun _ s' => Settled r b s' := by
  have hasks : Issues Asks (copyModelInfo rxBuf).run := by
    unfold copyModelInfo
    split
    · trivial
    · refine Issues.run_bind ⟨trivial, fun _ => trivial⟩ fun el721 => ?_
      refine Issues.run_bind ⟨trivial, fun _ => trivial⟩ fun failed => ?_
      split <;> trivial
  refine (ends_of_asks hasks s).mono ?_
  rintro _ s' rfl
  exact h

/-- Whatever its opcode and arguments are, a transfer leaves the sensor off or on. -/
theorem runTransferLocked_settled (ioc : IocTransfer) (h : Settled r b s) :
    Ends (runTransferLocked ioc) s fun _ s' => Settled r b s' := by
  have hstore {f : El721Data → El721Data} (hs : Settled r b (s.setData f)) :
      Ends (store f) s fun _ s' => Settled r b s' := ends_store hs
  unfold runTransferLocked
  refine ends_ite (fun _ => resetLocked_settled h) fun _ => ?_
  refine ends_ite (fun _ => ?_) fun _ => ?_
  · refine ends_ite (fun _ => ends_throw h) fun _ => ?_
    exact ends_ite (fun _ => powerOnLocked_settled h) fun _ =>
      (powerOffLocked_off h).mono fun _ _ h' => .inl h'
  refine ends_ite (fun _ => resetControlLocked_settled _ h) fun _ => ?_
  refine ends_ite (fun _ => hstore (h.setData rfl rfl rfl rfl rfl)) fun _ => ?_
  refine ends_ite (fun _ => hstore (h.setData rfl rfl rfl rfl rfl)) fun _ => ?_
  refine ends_ite (fun _ => ends_pure h) fun _ => ?_
  refine ends_ite (fun _ => hstore (h.setData rfl rfl rfl rfl rfl)) fun _ => ?_
  refine ends_ite (fun _ => hstore (h.setData rfl rfl rfl rfl rfl)) fun _ => ?_
  refine ends_ite (fun _ => copyModelInfo_settled _ h) fun _ => ?_
  exact ends_ite (fun _ => ends_pure h) fun _ => ends_throw h

/-- A batch may stop after any of its transfers. -/
theorem runTransfers_settled (xfers : List IocTransfer) (h : Settled r b s) :
    Ends (runTransfers xfers) s fun _ s' => Settled r b s' := by
  induction xfers generalizing s with
  | nil => exact h
  | cons ioc xfers ih =>
    exact (runTransferLocked_settled ioc h).seq (fun _ _ h' => h') fun _ _ h' => ih h'

theorem Settled.bound (h : Settled r b s) : s.drvdata = b := by
  rcases h with hoff | hon
  · exact hoff.bound
  · exact hon.bound

theorem ends_unlessRemoving {x : Code Unit} {Q : Except Errno Unit → State → Prop} (hx : Ends x s Q)
    (herr : ∀ e, Q (.error e) s) : Ends (unlessRemoving x) s Q := by
  unfold unlessRemoving
  apply ends_load_seq
  exact ends_ite (fun _ => ends_throw (herr _)) fun _ => hx

theorem ioctl_settled (cmd : BitVec 32) (h : Settled r b s) :
    Ends (ioctl cmd) s fun _ s' => Settled r b s' := by
  have hcapable : Issues Asks capable.run := ⟨trivial, fun _ => trivial⟩
  have hmemdup (count : Nat) : Issues Asks (memdupUser count).run := ⟨trivial, fun _ => trivial⟩
  unfold ioctl
  refine ends_ite (fun _ => ends_throw h) fun _ => ?_
  refine ends_ite (fun _ => ends_throw h) fun _ => ?_
  refine ends_asks_seq hcapable (fun _ => h) fun admin => ?_
  refine ends_ite (fun _ => ends_throw h) fun _ => ?_
  refine ends_asks_seq (hmemdup _) (fun _ => h) fun xfers => ?_
  exact ends_unlessRemoving (runTransfers_settled xfers h) fun _ => h

/-! ## The device's life -/

/-- The driver is bound and not being removed. -/
def Live (s : State) : Prop := Settled false true s

/-- The driver is being removed, or has been. -/
def Gone (s : State) : Prop := ∃ bound, Off true bound s

theorem Settled.markRemoving (h : Settled r b s) :
    Settled true b (s.setData fun el721 => { el721 with removing := true }) := by
  rcases h with hoff | hon
  · exact .inl { hoff with removing := rfl }
  · exact .inr { hon with removing := rfl }

theorem powerOffForGood_off (h : Settled r b s) : Ends powerOffForGood s fun _ s' => Off true b s' := by
  unfold powerOffForGood
  refine Ends.seq (ends_store (Q := fun res s' => res = .ok () ∧ Settled true b s')
    ⟨rfl, h.markRemoving⟩) ?_ ?_
  · exact fun _ _ h' => nomatch h'.1
  · exact fun _ _ h' => powerOffLocked_off h'.2

/-- A call to a live driver leaves it alive, or is the last one. -/
theorem code_live (c : Call) (h : Live s) :
    Ends c.code s fun _ s' => Live s' ∧ c ≠ .shutdown ∧ c ≠ .remove ∨ Gone s' := by
  have hlive {x : Code Unit} (hx : Ends x s fun _ s' => Live s') (hs : c ≠ .shutdown)
      (hr : c ≠ .remove) : Ends x s fun _ s' => Live s' ∧ c ≠ .shutdown ∧ c ≠ .remove ∨ Gone s' :=
    hx.mono fun _ _ h' => .inl ⟨h', hs, hr⟩
  cases c with
  | ioctl cmd => exact hlive (ioctl_settled cmd h) nofun nofun
  | powerStore enabled =>
    refine hlive ?_ nofun nofun
    cases enabled with
    | error e => exact h
    | ok enabled =>
      refine ends_unlessRemoving ?_ fun _ => h
      exact ends_ite (fun _ => powerOnLocked_settled h) fun _ =>
        (powerOffLocked_off h).mono fun _ _ h' => .inl h'
  | resetStore reset =>
    refine hlive ?_ nofun nofun
    cases reset with
    | error e => exact h
    | ok reset =>
      refine ends_ite (fun _ => ends_throw h) fun _ => ?_
      exact ends_unlessRemoving (resetLocked_settled h) fun _ => h
  | suspend => exact hlive ((powerOffLocked_off h).mono fun _ _ h' => .inl h') nofun nofun
  | shutdown =>
    refine ends_getDrvdata_seq (ends_ite (fun hnot => ?_) fun _ => ?_)
    · simp [Settled.bound h] at hnot
    · exact (powerOffForGood_off h).attempt_seq fun _ s' h' => ends_pure (.inr ⟨true, h'⟩)
  | remove =>
    refine (powerOffForGood_off h).attempt_seq fun _ s' h' => ?_
    exact fun _ _ => ⟨trivial, .inr ⟨false, { h' with bound := rfl }⟩⟩

/-! ## Afterwards -/

/-- Accepts what brings nothing up. -/
abbrev quietMonitor : Monitor board := Monitor.each fun e => ¬ Powers e.op

/-- The code brings nothing up and leaves the driver gone. -/
def StaysGone (x : Code Unit) : Prop :=
  ∀ s, Gone s → wp (fun _ => True) quietMonitor x.run (fun _ _ s' => Gone s') () s

theorem Asks.quiet {o : Op} (h : Asks o) : ¬ Powers o := by
  cases o with
  | store _ | clearDrvdata | regulatorEnable | regulatorDisable | gpiodDirectionOutput _ _
  | gpiodSetValue _ _ => exact h.elim
  | _ => exact id

theorem staysGone_asks_seq {α : Type} {x : Code α} (hx : Issues Asks x.run) {f : α → Code Unit}
    (hf : ∀ a, StaysGone (f a)) : StaysGone (x >>= f) := by
  intro s h
  have hgone : wp (fun _ => True) quietMonitor x.run (fun _ _ s' => Gone s') () s := by
    refine hx.wp (W := board) (M := quietMonitor) (J := fun _ s' => Gone s')
      (fun o ho i _ s' _ hs' => ⟨ho.quiet, ?_⟩) h
    simpa only [ho.frame i s'] using hs'
  exact wp_run_seq hgone (fun _ _ _ h' => h') fun a _ s' h' => hf a s' h'

theorem staysGone_throw (e : Errno) : StaysGone (throw e) := fun _ h => h

theorem staysGone_load_seq {f : El721Data → Code Unit}
    (h : ∀ s, Gone s → wp (fun _ => True) quietMonitor (f s.el721).run (fun _ _ s' => Gone s') () s) :
    StaysGone (load >>= f) :=
  fun s hs => (wp_run_bind _ _ _ _ _).2 fun _ _ => ⟨id, h s hs⟩

theorem unlessRemoving_staysGone (x : Code Unit) : StaysGone (unlessRemoving x) := by
  apply staysGone_load_seq
  intro s hs
  split
  · exact hs
  next hremoving =>
    obtain ⟨bound, h⟩ := hs
    exact absurd h.removing hremoving

theorem powerOffLocked_staysGone : StaysGone powerOffLocked := by
  apply staysGone_load_seq
  intro s hs
  split
  · exact hs
  next hpowered =>
    obtain ⟨bound, h⟩ := hs
    simp [h.powered] at hpowered

theorem powerOffForGood_staysGone : StaysGone powerOffForGood := by
  rintro s ⟨bound, h⟩
  refine (wp_run_bind _ _ _ _ _).2 fun _ _ => ⟨id, ?_⟩
  exact powerOffLocked_staysGone _ ⟨bound, { h with removing := rfl }⟩

theorem ioctl_staysGone (cmd : BitVec 32) : StaysGone (ioctl cmd) := by
  have hcapable : Issues Asks capable.run := ⟨trivial, fun _ => trivial⟩
  have hmemdup (count : Nat) : Issues Asks (memdupUser count).run := ⟨trivial, fun _ => trivial⟩
  unfold ioctl
  split
  · exact staysGone_throw _
  split
  · exact staysGone_throw _
  refine staysGone_asks_seq hcapable fun admin => ?_
  split
  · exact staysGone_throw _
  exact staysGone_asks_seq (hmemdup _) fun xfers => unlessRemoving_staysGone _

theorem code_gone (c : Call) : StaysGone c.code := by
  cases c with
  | ioctl cmd => exact ioctl_staysGone cmd
  | powerStore enabled =>
    cases enabled with
    | error e => exact fun _ h => h
    | ok enabled => exact unlessRemoving_staysGone _
  | resetStore reset =>
    cases reset with
    | error e => exact fun _ h => h
    | ok reset =>
      cases reset with
      | false => exact fun _ h => h
      | true => exact unlessRemoving_staysGone _
  | suspend => exact powerOffLocked_staysGone
  | shutdown =>
    have hbound : Issues Asks getDrvdata.run := ⟨trivial, fun _ => trivial⟩
    refine staysGone_asks_seq hbound fun bound => ?_
    split
    · exact fun _ h => h
    · exact fun s h => wp_run_attempt_seq (powerOffForGood_staysGone s h) fun _ _ s' h' => h'
  | remove =>
    intro s h
    refine wp_run_attempt_seq (powerOffForGood_staysGone s h) ?_
    rintro _ _ s' ⟨bound, h'⟩
    exact fun _ _ => ⟨id, false, { h' with bound := rfl }⟩

/-! ## Whole runs -/

theorem step_live (l : Step) (h : Live s) : Live (step l s) ∧ ¬ l.Ends ∨ Gone (step l s) := by
  have hstep := (wp_sound (code_live l.call h) l.inputs fun _ _ => trivial).2
  rcases hstep with ⟨hlive, hshutdown, hremove⟩ | hgone
  · exact .inl ⟨hlive, not_or.2 ⟨hshutdown, hremove⟩⟩
  · exact .inr hgone

theorem step_gone (l : Step) (h : Gone s) : Quiet l s ∧ Gone (step l s) := by
  obtain ⟨hsafe, hgone⟩ := wp_sound (code_gone l.call s h) l.inputs fun _ _ => trivial
  exact ⟨Monitor.safe_each.1 hsafe, hgone⟩

theorem run_live_or_gone (steps : List Step) (h : Live s ∨ Gone s) :
    Live (runFrom step steps s) ∨ Gone (runFrom step steps s) := by
  induction steps generalizing s with
  | nil => exact h
  | cons l steps ih =>
    apply ih
    rcases h with hlive | hgone
    · rcases step_live l hlive with ⟨hlive', -⟩ | hgone'
      · exact .inl hlive'
      · exact .inr hgone'
    · exact .inr (step_gone l hgone).2

theorem run_gone (steps : List Step) (h : Gone s) :
    Gone (runFrom step steps s) ∧ Meets step Quiet steps s := by
  induction steps generalizing s with
  | nil => exact ⟨h, trivial⟩
  | cons l steps ih =>
    obtain ⟨hquiet, hgone⟩ := step_gone l h
    exact ⟨(ih hgone).1, hquiet, (ih hgone).2⟩

theorem probed_live (model : List (BitVec 8)) : Live (probed model) :=
  .inl ⟨rfl, rfl, nofun, nofun, rfl, rfl⟩

/-- **Power accounting.** In every run after a probe, power is accounted for between the operations;
and from a shutdown or removal on, the sensor stays off and no operation brings anything up. -/
theorem power_accounted (model : List (BitVec 8)) (steps : List Step) :
    Accounted (runFrom step steps (probed model)) ∧
      ∀ pre l post, steps = pre ++ l :: post → l.Ends →
        (runFrom step steps (probed model)).el721.powered = false ∧
          Meets step Quiet post (runFrom step (pre ++ [l]) (probed model)) := by
  constructor
  · rcases run_live_or_gone steps (.inl (probed_live model)) with (hoff | hon) | ⟨bound, hoff⟩
    · exact hoff.accounted
    · exact hon.accounted
    · exact hoff.accounted
  · rintro pre l post rfl hends
    have hgone : Gone (runFrom step (pre ++ [l]) (probed model)) := by
      rw [runFrom_append]
      rcases run_live_or_gone pre (.inl (probed_live model)) with hlive | hgone
      · exact (step_live l hlive).resolve_left fun h => h.2 hends
      · exact (step_gone l hgone).2
    obtain ⟨⟨bound, hoff⟩, hquiet⟩ := run_gone post hgone
    rw [← runFrom_append, List.append_assoc, List.singleton_append] at hoff
    exact ⟨hoff.powered, hquiet⟩

/-- The supply and the enable line are there, and there is no LDO line. -/
def found : Nat → Input := fun _ => {}

/-- Power on, shut down, and ask for power once more. -/
def onAndGone : List Step :=
  [⟨.powerStore (.ok true), found⟩, ⟨.shutdown, found⟩, ⟨.powerStore (.ok true), found⟩]

theorem power_accounted_onAndGone :
    (runFrom step (onAndGone.take 1) (probed [])).el721.powered = true ∧
      Accounted (runFrom step (onAndGone.take 1) (probed [])) ∧
      (runFrom step onAndGone (probed [])).el721.powered = false :=
  ⟨by decide, (power_accounted [] (onAndGone.take 1)).1,
    ((power_accounted [] onAndGone).2 (onAndGone.take 1) ⟨.shutdown, found⟩ (onAndGone.drop 2) rfl
      (.inl rfl)).1⟩

end Gts9Wifi.Fingerprint
