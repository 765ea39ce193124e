import Gts9Wifi.Camera.Hi1337
import Gts9Wifi.Lib.Runs

/-!
# Power is held while streaming

A power-on that fails gives back what it took, and so does a start that fails after it. What
`hi1337_power_off` gives back it finds out from the two handles, which say what is held between any
two calls.
-/

namespace Gts9Wifi.Camera

open Driver

/-! ## Vocabulary -/

/-- How much of a resource is held by a camera that is on or off. -/
def amount (on hasEnable : Bool) : Resource → Int
  | .line .enable => if on && hasEnable then 1 else 0
  | _ => if on then 1 else 0

/-- The operation gives the resource back. -/
def GivesBack : Op → Resource → Prop
  | .regulatorBulkDisable, .vddio | .regulatorBulkDisable, .vdig | .clkDisableUnprepare, .mclk => True
  | .gpiodPut line, .line l => l = line
  | _, _ => False

/-- Only what is held is given back. -/
def GivesOwn (e : Event camera) : Prop := ∀ r, GivesBack e.op r → e.pre.held r = 1

/-- Nothing is given back that is not held, and after the step each resource is held once if the
sensor streams and not at all otherwise. -/
structure Balanced (tables : Tables) (l : Step) (s : State) : Prop where
  during : ∀ e ∈ l.trace tables s, GivesOwn e
  after : ∀ r, (step tables l s).held r =
    amount (step tables l s).sensor.streaming (step tables l s).hasEnable r

/-! ## Rules -/

/-- Accepts what gives back only what is held. -/
abbrev ownMonitor : Monitor camera := Monitor.each GivesOwn

/-- Whatever the environment answers, the code gives back only what is held, and ends with `Q`. -/
def Ends {α : Type} (x : Code α) (s : State) (Q : Except Errno α → State → Prop) : Prop :=
  wp (fun _ => True) ownMonitor x.run (fun r _ s' => Q r s') () s

section Rules

variable {α β : Type} {s : State} {x : Code α}

theorem Ends.mono {Q R : Except Errno α → State → Prop} (h : Ends x s Q)
    (hQR : ∀ r s', Q r s' → R r s') : Ends x s R :=
  wp_mono h fun r _ s' => hQR r s'

@[simp] theorem ends_bind {f : α → Code β} {Q : Except Errno β → State → Prop} :
    Ends (x >>= f) s Q ↔ Ends x s fun r s' =>
      match r with
      | .ok a => Ends (f a) s' Q
      | .error e => Q (.error e) s' := by
  unfold Ends
  rw [wp_run_bind]
  constructor <;> intro h <;> refine wp_mono h fun r _ s' hr => ?_ <;> cases r <;> exact hr

@[simp] theorem ends_attempt {Q : Except Errno (Except Errno α) → State → Prop} :
    Ends (attempt x) s Q ↔ Ends x s fun r s' => Q (.ok r) s' :=
  wp_run_attempt _ _ _ _

@[simp] theorem ends_pure {a : α} {Q : Except Errno α → State → Prop} :
    Ends (pure a) s Q ↔ Q (.ok a) s := Iff.rfl

@[simp] theorem ends_throw {e : Errno} {Q : Except Errno α → State → Prop} :
    Ends (throw e) s Q ↔ Q (.error e) s := Iff.rfl

@[simp] theorem ends_onlyIf {c : Prop} [Decidable c] {y : Code Unit}
    {Q : Except Errno Unit → State → Prop} :
    Ends (onlyIf c y) s Q ↔ (c → Ends y s Q) ∧ (¬ c → Q (.ok ()) s) := by
  unfold onlyIf
  split <;> simp_all

theorem ends_ite {c : Prop} [Decidable c] {y : Code α} {Q : Except Errno α → State → Prop} :
    Ends (if c then x else y) s Q ↔ (c → Ends x s Q) ∧ (¬ c → Ends y s Q) := by
  split <;> simp_all

/-- One operation. -/
theorem ends_perform {o : Op} {Q : Except Errno o.Ans → State → Prop} :
    Ends (ExceptT.lift (Prog.perform (I := iface) o)) s Q ↔
      ∀ i, GivesOwn ⟨o, i, s⟩ ∧ Q (.ok (handle o i s).1) (handle o i s).2 :=
  ⟨fun h i => h i trivial, fun h i _ => h i⟩

@[simp] theorem ends_load {Q : Except Errno Sensor → State → Prop} :
    Ends load s Q ↔ Q (.ok s.sensor) s :=
  ends_perform.trans ⟨fun h => (h {}).2, fun h _ => ⟨fun _ hr => hr.elim, h⟩⟩

@[simp] theorem ends_setHandle {line : Line} {there : Bool} {Q : Except Errno Unit → State → Prop} :
    Ends (setHandle line there) s Q ↔
      Q (.ok ()) (s.setSensor fun d => { d with handle := Function.update d.handle line there }) :=
  ends_perform.trans ⟨fun h => (h {}).2, fun h _ => ⟨fun _ hr => hr.elim, h⟩⟩

@[simp] theorem ends_setStreaming {b : Bool} {Q : Except Errno Unit → State → Prop} :
    Ends (setStreaming b) s Q ↔ Q (.ok ()) (s.setSensor fun d => { d with streaming := b }) :=
  ends_perform.trans ⟨fun h => (h {}).2, fun h _ => ⟨fun _ hr => hr.elim, h⟩⟩

@[simp] theorem ends_gpiodSetValue {line : Line} {value : Bool}
    {Q : Except Errno Unit → State → Prop} : Ends (gpiodSetValue line value) s Q ↔ Q (.ok ()) s :=
  ends_perform.trans ⟨fun h => (h {}).2, fun h _ => ⟨fun _ hr => hr.elim, h⟩⟩

@[simp] theorem ends_gpiodPut {line : Line} {Q : Except Errno Unit → State → Prop} :
    Ends (gpiodPut line) s Q ↔ s.held (.line line) = 1 ∧ Q (.ok ()) (s.add (.line line) (-1)) := by
  refine ends_perform.trans ⟨fun h => ⟨(h {}).1 _ rfl, (h {}).2⟩, fun h i => ⟨fun r hr => ?_, h.2⟩⟩
  match r, hr with
  | .line _, rfl => exact h.1

@[simp] theorem ends_clkDisableUnprepare {Q : Except Errno Unit → State → Prop} :
    Ends clkDisableUnprepare s Q ↔ s.held .mclk = 1 ∧ Q (.ok ()) (s.add .mclk (-1)) := by
  refine ends_perform.trans ⟨fun h => ⟨(h {}).1 .mclk trivial, (h {}).2⟩, fun h i => ⟨fun r hr => ?_, h.2⟩⟩
  match r, hr with
  | .mclk, _ => exact h.1

@[simp] theorem ends_disableSupplies {Q : Except Errno Unit → State → Prop} :
    Ends disableSupplies s Q ↔
      s.held .vddio = 1 ∧ s.held .vdig = 1 ∧ Q (.ok ()) (s.addSupplies (-1)) := by
  unfold disableSupplies
  rw [ends_bind, ends_attempt]
  constructor
  · intro h
    obtain ⟨hown, hQ⟩ := h {} trivial
    exact ⟨hown .vddio trivial, hown .vdig trivial, hQ⟩
  · refine fun h i _ => ⟨fun r hr => ?_, h.2.2⟩
    match r, hr with
    | .vddio, _ => exact h.1
    | .vdig, _ => exact h.2.1

/-- What takes something does nothing if it fails. -/
theorem handle_fault {i : Input} {e : Errno} (hf : i.fault = some e) (s : State) :
    handle .regulatorBulkEnable i s = (.error e, s) ∧ handle .clkPrepareEnable i s = (.error e, s) ∧
      handle .gpiodGet i s = (.error e, s) ∧ handle .gpiodGetOptional i s = (.error e, s) := by
  simp only [handle, hf, and_self]

theorem handle_ok {i : Input} (hf : i.fault = none) (s : State) :
    handle .regulatorBulkEnable i s = (.ok (), { s.addSupplies 1 with regs := i.regs }) ∧
      handle .clkPrepareEnable i s = (.ok (), s.add .mclk 1) ∧
      handle .gpiodGet i s = (.ok (), s.add (.line .reset) 1) ∧
      handle .gpiodGetOptional i s =
        (.ok s.hasEnable, if s.hasEnable then s.add (.line .enable) 1 else s) := by
  simp only [handle, hf, and_self]

@[simp] theorem ends_regulatorBulkEnable {Q : Except Errno Unit → State → Prop} :
    Ends regulatorBulkEnable s Q ↔
      (∀ e, Q (.error e) s) ∧ ∀ regs, Q (.ok ()) { s.addSupplies 1 with regs } := by
  constructor
  · exact fun h => ⟨fun e => (h { fault := some e } trivial).2, fun regs => (h { regs } trivial).2⟩
  · refine fun h => (wp_perform _ _ _ _).2 fun i _ => ⟨fun r hr => hr.elim, ?_⟩
    cases hf : i.fault with
    | some e => simpa only [(handle_fault hf s).1] using h.1 e
    | none => simpa only [(handle_ok hf s).1] using h.2 i.regs

/-- An operation that gives nothing back and may fail without doing anything. -/
theorem ends_fallible {P : Input → Prop} {E : Errno → Prop} {A : Prop}
    (herror : ∀ i e, i.fault = some e → (P i ↔ E e)) (hok : ∀ i, i.fault = none → (P i ↔ A)) :
    (∀ i, P i) ↔ (∀ e, E e) ∧ A := by
  constructor
  · intro h
    exact ⟨fun e => (herror { fault := some e } e rfl).1 (h _), (hok {} rfl).1 (h _)⟩
  · intro h i
    cases hf : i.fault with
    | some e => exact (herror i e hf).2 (h.1 e)
    | none => exact (hok i hf).2 h.2

@[simp] theorem ends_clkPrepareEnable {Q : Except Errno Unit → State → Prop} :
    Ends clkPrepareEnable s Q ↔ (∀ e, Q (.error e) s) ∧ Q (.ok ()) (s.add .mclk 1) := by
  refine Iff.trans ⟨fun h i => (h i trivial).2, fun h i _ => ⟨fun r hr => hr.elim, h i⟩⟩
    (ends_fallible (fun i e hf => ?_) fun i hf => ?_)
  · simp only [(handle_fault hf s).2.1, wp]
  · simp only [(handle_ok hf s).2.1, wp]

@[simp] theorem ends_gpiodGet {Q : Except Errno Unit → State → Prop} :
    Ends gpiodGet s Q ↔ (∀ e, Q (.error e) s) ∧ Q (.ok ()) (s.add (.line .reset) 1) := by
  refine Iff.trans ⟨fun h i => (h i trivial).2, fun h i _ => ⟨fun r hr => hr.elim, h i⟩⟩
    (ends_fallible (fun i e hf => ?_) fun i hf => ?_)
  · simp only [(handle_fault hf s).2.2.1, wp]
  · simp only [(handle_ok hf s).2.2.1, wp]

@[simp] theorem ends_gpiodGetOptional {Q : Except Errno Bool → State → Prop} :
    Ends gpiodGetOptional s Q ↔ (∀ e, Q (.error e) s) ∧
      Q (.ok s.hasEnable) (if s.hasEnable then s.add (.line .enable) 1 else s) := by
  refine Iff.trans ⟨fun h i => (h i trivial).2, fun h i _ => ⟨fun r hr => hr.elim, h i⟩⟩
    (ends_fallible (fun i e hf => ?_) fun i hf => ?_)
  · simp only [(handle_fault hf s).2.2.2, wp]
  · simp only [(handle_ok hf s).2.2.2, wp]

end Rules

/-! ## Power on and off -/

/-- Everything is held or nothing, and the handles say so. -/
structure Powered (on : Bool) (s : State) : Prop where
  held : ∀ r, s.held r = amount on s.hasEnable r
  enable : s.sensor.handle .enable = (on && s.hasEnable)
  reset : s.sensor.handle .reset = on

/-- What power does not touch. -/
def Rest (s s' : State) : Prop :=
  s'.sensor.streaming = s.sensor.streaming ∧ s'.hasEnable = s.hasEnable ∧
    s'.sensor.control = s.sensor.control ∧ s'.sensor.variant = s.sensor.variant

section Held

variable (s : State) (n : Int) (f : Sensor → Sensor)

@[simp] theorem add_held (r r' : Resource) :
    (s.add r n).held r' = if r' = r then s.held r + n else s.held r' := by
  simp [State.add, Function.update_apply]

@[simp] theorem addSupplies_held (r : Resource) :
    (s.addSupplies n).held r = if r = .vddio ∨ r = .vdig then s.held r + n else s.held r := by
  cases r <;> simp [State.addSupplies]

@[simp] theorem add_sensor (r : Resource) : (s.add r n).sensor = s.sensor := rfl
@[simp] theorem add_hasEnable (r : Resource) : (s.add r n).hasEnable = s.hasEnable := rfl
@[simp] theorem addSupplies_sensor : (s.addSupplies n).sensor = s.sensor := rfl
@[simp] theorem bulkDisabled_sensor : s.bulkDisabled.sensor = s.sensor := rfl
@[simp] theorem addSupplies_hasEnable : (s.addSupplies n).hasEnable = s.hasEnable := rfl
@[simp] theorem setSensor_sensor : (s.setSensor f).sensor = f s.sensor := rfl
@[simp] theorem setSensor_held : (s.setSensor f).held = s.held := rfl
@[simp] theorem setSensor_hasEnable : (s.setSensor f).hasEnable = s.hasEnable := rfl

end Held

variable {s : State}

/-- Whether everything is held can be read off resource by resource. -/
theorem powered_iff {on : Bool} : Powered on s ↔ s.held .vddio = amount on s.hasEnable .vddio ∧
    s.held .vdig = amount on s.hasEnable .vdig ∧ s.held .mclk = amount on s.hasEnable .mclk ∧
    s.held (.line .reset) = amount on s.hasEnable (.line .reset) ∧
    s.held (.line .enable) = amount on s.hasEnable (.line .enable) ∧
    s.sensor.handle .enable = (on && s.hasEnable) ∧ s.sensor.handle .reset = on := by
  constructor
  · exact fun h => ⟨h.held _, h.held _, h.held _, h.held _, h.held _, h.enable, h.reset⟩
  · rintro ⟨h1, h2, h3, h4, h5, h6, h7⟩
    refine ⟨fun r => ?_, h6, h7⟩
    match r with
    | .vddio => exact h1
    | .vdig => exact h2
    | .mclk => exact h3
    | .line .reset => exact h4
    | .line .enable => exact h5

theorem powerOff_ends {on : Bool} (h : Powered on s) :
    Ends powerOff s fun r s' => r = .ok () ∧ Powered false s' ∧ Rest s s' := by
  rw [powered_iff] at h
  unfold powerOff
  simp only [powered_iff, Rest]
  cases on <;> cases hen : s.hasEnable <;> simp [amount, hen] at h <;>
    simp [ends_ite, amount, hen, h]

theorem powerOn_ends (h : Powered false s) :
    Ends powerOn s fun r s' => Powered (r matches .ok _) s' ∧ Rest s s' := by
  rw [powered_iff] at h
  unfold powerOn startClock releaseEnable
  simp only [powered_iff, Rest]
  cases hen : s.hasEnable <;> simp [amount, hen] at h <;> simp [amount, hen, h]

/-! ## What does not touch the power -/

/-- Operations that leave power and the streaming flag alone. -/
def Steady : Op → Prop
  | .load | .setControl _ _ | .probeStep _ | .gpiodSetValue _ _ | .i2cMasterSend _ _ | .i2cTransfer _ =>
    True
  | _ => False

/-- Operations on the bus, and loads. -/
def OnBus : Op → Prop
  | .load | .i2cMasterSend _ _ | .i2cTransfer _ => True
  | _ => False

theorem OnBus.steady {o : Op} (h : OnBus o) : Steady o := by
  cases o <;> trivial

theorem Steady.frame {o : Op} (h : Steady o) (i : Input) (s : State) :
    (handle o i s).2.held = s.held ∧ (handle o i s).2.hasEnable = s.hasEnable ∧
      (handle o i s).2.sensor.handle = s.sensor.handle ∧
      (handle o i s).2.sensor.streaming = s.sensor.streaming := by
  cases o with
  | load | setControl _ _ | probeStep _ | gpiodSetValue _ _ | i2cTransfer _ => simp [handle, Sensor.setControl]
  | i2cMasterSend reg value =>
    simp only [handle]
    split <;> simp [State.setReg]
  | _ => exact h.elim

theorem Steady.givesOwn {o : Op} (h : Steady o) (i : Input) (s : State) : GivesOwn ⟨o, i, s⟩ := by
  intro r hr
  cases o <;> first | exact hr.elim | exact h.elim

theorem Powered.congr {on : Bool} {s' : State} (h : Powered on s) (hheld : s'.held = s.held)
    (hhas : s'.hasEnable = s.hasEnable) (hhandle : s'.sensor.handle = s.sensor.handle) :
    Powered on s' := by
  refine ⟨fun r => ?_, ?_, ?_⟩
  · rw [hheld, hhas]
    exact h.held r
  · rw [hhandle, hhas]
    exact h.enable
  · rw [hhandle]
    exact h.reset

/-- Everything is held or nothing, and the sensor streams or not. -/
def Settled (on streaming : Bool) (s : State) : Prop := Powered on s ∧ s.sensor.streaming = streaming

theorem ends_of_steady {α : Type} {x : Code α} (hx : Issues Steady x.run) {on streaming : Bool}
    (h : Settled on streaming s) : Ends x s fun _ s' => Settled on streaming s' := by
  refine hx.wp (W := camera) (M := ownMonitor) (J := fun _ s' => Settled on streaming s')
    (fun o ho i _ s' _ hs' => ⟨ho.givesOwn i s', ?_⟩) h
  obtain ⟨hheld, hhas, hhandle, hstr⟩ := ho.frame i s'
  exact ⟨hs'.1.congr hheld hhas hhandle, hstr.trans hs'.2⟩

theorem readReg_onBus (reg : Nat) : Issues OnBus (readReg reg).run := by
  unfold readReg
  refine Issues.run_bind ⟨trivial, fun _ => trivial⟩ fun r => ?_
  dsimp only
  split <;> trivial

theorem writeReg_onBus (reg : Nat) (value : Int) : Issues OnBus (writeReg reg value).run := by
  unfold writeReg
  refine Issues.run_bind ⟨trivial, fun _ => trivial⟩ fun count => ?_
  split <;> trivial

theorem writeTable_onBus (regs : List (Nat × Int)) : Issues OnBus (writeTable regs).run := by
  induction regs with
  | nil => trivial
  | cons r regs ih => exact Issues.run_bind (writeReg_onBus r.1 r.2) fun _ => ih

theorem debugRead_onBus (reg : Nat) : Issues OnBus (debugRead reg).run :=
  Issues.run_bind (Issues.run_attempt (readReg_onBus reg)) fun _ => trivial

theorem identify_onBus : Issues OnBus identify.run := by
  unfold identify
  refine Issues.run_bind (Issues.run_attempt (readReg_onBus _)) fun model => ?_
  refine Issues.run_bind (Issues.run_attempt (readReg_onBus _)) fun vendor => ?_
  split
  · trivial
  · dsimp only
    split <;> trivial

theorem writeCtrl_steady (c : Ctrl) : Issues Steady (writeCtrl c).run := by
  unfold writeCtrl
  refine Issues.run_bind ⟨trivial, fun _ => trivial⟩ fun sensor => ?_
  split
  · trivial
  · cases c <;> exact (writeReg_onBus _ _).mono fun _ => OnBus.steady

theorem tryOrSet_steady (c : Ctrl) {x : Code Unit} (hx : Issues Steady x.run) :
    Issues Steady (tryOrSet c x).run := by
  unfold tryOrSet
  refine Issues.run_bind ⟨trivial, fun _ => trivial⟩ fun sensor => ?_
  split
  · trivial
  · exact Issues.run_bind hx fun _ => ⟨trivial, fun _ => trivial⟩

theorem followVblank_steady : Issues Steady followVblank.run := by
  unfold followVblank modifyRange
  refine Issues.run_bind ⟨trivial, fun _ => trivial⟩ fun sensor => ?_
  refine Issues.run_bind (Issues.run_attempt ?_) fun _ => trivial
  split
  · trivial
  · exact Issues.run_bind ⟨trivial, fun _ => trivial⟩ fun _ => tryOrSet_steady _ (writeCtrl_steady _)

theorem setCtrl_steady (c : Ctrl) : Issues Steady (setCtrl c).run := by
  unfold setCtrl onlyIf
  refine Issues.run_bind ?_ fun _ => writeCtrl_steady c
  split
  · exact followVblank_steady
  · trivial

theorem userSet_steady (c : Ctrl) (value : Int) : Issues Steady (userSet c value).run :=
  Issues.run_bind ⟨trivial, fun _ => trivial⟩ fun _ => tryOrSet_steady c (setCtrl_steady c)

theorem handlerSetup_steady (cs : List Ctrl) : Issues Steady (handlerSetup cs).run := by
  induction cs with
  | nil => trivial
  | cons c cs ih =>
    refine Issues.run_bind ⟨trivial, fun _ => trivial⟩ fun _ => ?_
    exact Issues.run_bind (setCtrl_steady c) fun _ => ih

theorem register_steady : Issues Steady register.run := by
  have hstep : ∀ p, Issues Steady (probeStep p).run := fun p => ⟨trivial, fun _ => trivial⟩
  unfold register initControls
  refine Issues.run_bind (identify_onBus.mono fun _ => OnBus.steady) fun _ => ?_
  refine Issues.run_bind ?_ fun _ => ?_
  · refine Issues.run_bind ⟨trivial, fun _ => trivial⟩ fun sensor => ?_
    refine Issues.run_bind ⟨trivial, fun _ => trivial⟩ fun _ => ?_
    refine Issues.run_bind ⟨trivial, fun _ => trivial⟩ fun _ => ?_
    exact Issues.run_bind ⟨trivial, fun _ => trivial⟩ fun _ => hstep _
  refine Issues.run_bind (hstep _) fun _ => ?_
  refine Issues.run_bind (hstep _) fun _ => ?_
  exact Issues.run_bind (hstep _) fun _ => hstep _

/-! ## Calls -/

section Calls

variable {on streaming : Bool}

/-- Code that is followed by more and leaves power alone. -/
theorem Settled.seq {α β : Type} {x : Code α} {f : α → Code β} {Q : Except Errno β → State → Prop}
    (h : Settled on streaming s) (hx : Issues Steady x.run)
    (herr : ∀ e s', Settled on streaming s' → Q (.error e) s')
    (hok : ∀ a s', Settled on streaming s' → Ends (f a) s' Q) : Ends (x >>= f) s Q := by
  rw [ends_bind]
  refine (ends_of_steady hx h).mono fun r s' hs' => ?_
  cases r with
  | ok a => exact hok a s' hs'
  | error e => exact herr e s' hs'

theorem Settled.bus_seq {α β : Type} {x : Code α} {f : α → Code β} {Q : Except Errno β → State → Prop}
    (h : Settled on streaming s) (hx : Issues OnBus x.run)
    (herr : ∀ e s', Settled on streaming s' → Q (.error e) s')
    (hok : ∀ a s', Settled on streaming s' → Ends (f a) s' Q) : Ends (x >>= f) s Q :=
  h.seq (hx.mono fun _ => OnBus.steady) herr hok

theorem Settled.attempt_seq {α β : Type} {x : Code α} {f : Except Errno α → Code β}
    {Q : Except Errno β → State → Prop} (h : Settled on streaming s) (hx : Issues Steady x.run)
    (hf : ∀ r s', Settled on streaming s' → Ends (f r) s' Q) : Ends (attempt x >>= f) s Q := by
  rw [ends_bind, ends_attempt]
  exact (ends_of_steady hx h).mono hf

theorem Settled.setStreaming (h : Settled on streaming s) (b : Bool) :
    Settled on b (s.setSensor fun d => { d with streaming := b }) :=
  ⟨h.1.congr rfl rfl rfl, rfl⟩

theorem Settled.powerOff (h : Settled on streaming s) :
    Ends powerOff s fun r s' => r = .ok () ∧ Settled false streaming s' := by
  refine (powerOff_ends h.1).mono ?_
  rintro r s' ⟨hr, hoff, hrest⟩
  exact ⟨hr, hoff, hrest.1.trans h.2⟩

theorem Settled.powerOn (h : Settled false streaming s) :
    Ends powerOn s fun r s' => Settled (r matches .ok _) streaming s' := by
  refine (powerOn_ends h.1).mono ?_
  rintro r s' ⟨hon, hrest⟩
  exact ⟨hon, hrest.1.trans h.2⟩

/-- A start that fails leaves the sensor as not streaming, and powered. -/
theorem startStreaming_ends (tables : Tables) (h : Settled on false s) :
    Ends (startStreaming tables) s fun r s' => Settled on (r matches .ok _) s' := by
  unfold startStreaming
  refine h.bus_seq ⟨trivial, fun _ => trivial⟩ (fun _ _ h' => h') fun sensor s₁ h₁ => ?_
  refine h₁.bus_seq (writeTable_onBus _) (fun _ _ h' => h') fun _ s₂ h₂ => ?_
  refine h₂.bus_seq (writeTable_onBus _) (fun _ _ h' => h') fun _ s₃ h₃ => ?_
  refine h₃.bus_seq (debugRead_onBus _) (fun _ _ h' => h') fun _ s₄ h₄ => ?_
  refine h₄.bus_seq (debugRead_onBus _) (fun _ _ h' => h') fun _ s₅ h₅ => ?_
  refine h₅.bus_seq (debugRead_onBus _) (fun _ _ h' => h') fun _ s₆ h₆ => ?_
  rw [ends_bind, ends_setStreaming]
  have hsetup : Issues Steady (do
      handlerSetup [.vblank, .exposure, .analogueGain]
      writeReg regModeSelect modeStreaming : Code Unit).run :=
    Issues.run_bind (handlerSetup_steady _) fun _ => (writeReg_onBus _ _).mono fun _ => OnBus.steady
  refine (h₆.setStreaming true).attempt_seq hsetup fun r s₇ h₇ => ?_
  cases r with
  | error e =>
    simp only [ends_bind, ends_setStreaming, ends_throw]
    exact h₇.setStreaming false
  | ok _ =>
    -- the two reads for the log cannot make it fail
    unfold debugRead
    simp only [bind_assoc, pure_bind]
    refine h₇.attempt_seq ((readReg_onBus _).mono fun _ => OnBus.steady) fun _ s₈ h₈ => ?_
    exact h₈.attempt_seq ((readReg_onBus _).mono fun _ => OnBus.steady) fun _ s₉ h₉ => h₉

/-- Between two calls, what is held is held because the sensor streams. -/
def Steered (s : State) : Prop := Powered s.sensor.streaming s

theorem Settled.steered {b : Bool} (h : Settled b b s) : Steered s := by
  unfold Steered
  rw [h.2]
  exact h.1

theorem setStream_ends (tables : Tables) (enable : Bool) (h : Steered s) :
    Ends (setStream tables enable) s fun _ s' => Steered s' := by
  unfold setStream
  rw [ends_bind, ends_load]
  dsimp only
  rw [ends_ite]
  refine ⟨fun _ => h, fun hne => ?_⟩
  cases enable with
  | true =>
    have hoff : s.sensor.streaming = false := Bool.eq_false_iff.2 hne
    have hs : Settled false false s := ⟨hoff ▸ h, hoff⟩
    rw [if_pos rfl, ends_bind]
    refine hs.powerOn.mono fun r s₁ h₁ => ?_
    cases r with
    | error e => exact Settled.steered h₁
    | ok _ =>
      dsimp only
      rw [ends_bind, ends_attempt]
      refine (startStreaming_ends tables h₁).mono fun r s₂ h₂ => ?_
      cases r with
      | ok _ => exact Settled.steered h₂
      | error e =>
        dsimp only
        rw [ends_bind]
        refine h₂.powerOff.mono ?_
        rintro _ s₃ ⟨rfl, h₃⟩
        exact Settled.steered h₃
  | false =>
    have hon : s.sensor.streaming = true := by simpa using hne
    have hs : Settled true true s := ⟨hon ▸ h, hon⟩
    rw [if_neg Bool.false_ne_true]
    refine hs.attempt_seq ((writeReg_onBus _ _).mono fun _ => OnBus.steady) fun ret s₁ h₁ => ?_
    rw [ends_bind, ends_setStreaming]
    dsimp only
    rw [ends_bind]
    refine (h₁.setStreaming false).powerOff.mono ?_
    rintro _ s₂ ⟨rfl, h₂⟩
    cases ret <;> exact Settled.steered h₂

theorem call_ends (tables : Tables) (call : Call) (h : Steered s) :
    Ends (call.code tables) s fun _ s' => Steered s' := by
  cases call with
  | setStream enable => exact setStream_ends tables enable h
  | userSet c value =>
    exact (ends_of_steady (userSet_steady c value) ⟨h, rfl⟩).mono fun _ _ h' => h'.steered

/-- Whether the probe succeeds or not, it leaves nothing held. -/
theorem probe_ends (h : Settled false false s) :
    Ends probe s fun _ s' => Settled false false s' := by
  have hstep : ∀ p, Issues Steady (probeStep p).run := fun p => ⟨trivial, fun _ => trivial⟩
  unfold probe
  refine h.seq (hstep _) (fun _ _ h' => h') fun _ s₁ h₁ => ?_
  refine h₁.seq (hstep _) (fun _ _ h' => h') fun _ s₂ h₂ => ?_
  refine h₂.seq (hstep _) (fun _ _ h' => h') fun _ s₃ h₃ => ?_
  refine h₃.seq (hstep _) (fun _ _ h' => h') fun _ s₄ h₄ => ?_
  rw [ends_bind]
  refine h₄.powerOn.mono fun r s₅ h₅ => ?_
  cases r with
  | error e => exact h₅
  | ok _ =>
    refine h₅.attempt_seq register_steady fun ret s₆ h₆ => ?_
    rw [ends_bind]
    refine h₆.powerOff.mono ?_
    rintro _ s₇ ⟨rfl, h₇⟩
    cases ret <;> exact h₇

theorem remove_ends (h : Steered s) : Ends remove s fun _ s' => Powered false s' := by
  unfold remove
  rw [ends_bind, ends_load]
  dsimp only
  rw [ends_onlyIf]
  refine ⟨fun _ => ?_, fun hoff => ?_⟩
  · exact (powerOff_ends h).mono fun _ _ h' => h'.2.1
  · have hoff' : s.sensor.streaming = false := Bool.eq_false_iff.2 hoff
    unfold Steered at h
    rw [hoff'] at h
    exact h

end Calls

/-! ## The device's life -/

theorem Ends.sound {α : Type} {x : Code α} {Q : Except Errno α → State → Prop} (h : Ends x s Q)
    (ι : Nat → Input) : (∀ e ∈ x.run.trace camera ι s, GivesOwn e) ∧
      Q (x.run.run camera ι s).1 (x.run.run camera ι s).2 := by
  obtain ⟨hsafe, hQ⟩ := wp_sound h ι fun _ _ => trivial
  exact ⟨Monitor.safe_each.1 hsafe, hQ⟩

/-- The board after a probe. -/
def probed (variant : Variant) (hasEnable : Bool) (ι : Nat → Input) : State :=
  (probe.run.run camera ι (unprobed variant hasEnable)).2

/-- **Power is held exactly while the sensor streams.** After a probe, over any calls that start and
stop the stream and set controls, with any step failing, no call gives back what is not held, and
between calls each resource is held once if the sensor streams and not at all otherwise. A removal then
gives back only what is held, and nothing is left. What disabling the supplies does is assumed in
`State.bulkDisabled`. -/
theorem power_held_while_streaming (tables : Tables) (variant : Variant) (hasEnable : Bool)
    (ι κ : Nat → Input) (calls : List Step) :
    Meets (step tables) (Balanced tables) calls (probed variant hasEnable ι) ∧
      (∀ e ∈ remove.run.trace camera κ (runFrom (step tables) calls (probed variant hasEnable ι)),
        GivesOwn e) ∧
      ∀ r, (remove.run.run camera κ
        (runFrom (step tables) calls (probed variant hasEnable ι))).2.held r = 0 := by
  have hstart : Steered (probed variant hasEnable ι) := by
    refine Settled.steered ((probe_ends ?_).sound ι).2
    exact ⟨powered_iff.2 ⟨rfl, rfl, rfl, rfl, rfl, rfl, rfl⟩, rfl⟩
  have hstep : ∀ l s, Steered s → Steered (step tables l s) ∧ Balanced tables l s := by
    intro l s hs
    obtain ⟨hown, hafter⟩ := (call_ends tables l.call hs).sound l.inputs
    exact ⟨hafter, hown, hafter.held⟩
  have hend : Steered (runFrom (step tables) calls (probed variant hasEnable ι)) :=
    inv_of_prefix (J := fun _ => True) (fun l s _ hs => (hstep l s hs).1) hstart (fun _ _ => trivial)
      calls List.prefix_rfl
  obtain ⟨hown, hoff⟩ := (remove_ends hend).sound κ
  refine ⟨?_, hown, fun r => ?_⟩
  · exact (meets_true calls _).imp (fun l s hs _ => hstep l s hs) hstart
  · rw [hoff.held r]
    rcases r with _ | _ | _ | _ | _ <;> rfl

end Gts9Wifi.Camera
