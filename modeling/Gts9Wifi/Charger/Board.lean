import Gts9Wifi.Lib.Interleave
import Gts9Wifi.Lib.Kernel
import Mathlib.Logic.Function.Basic

/-!
# The charging board

The world of the two charger drivers: the SM5714 switching charger with its MUIC and fuel gauge,
the SM5440 2:1 charge pump, the TCPM power supply, and the memory the drivers share. Control
registers hold what was last written; status, interrupt and ADC registers, temperatures and
power-supply properties are whatever the environment answers. A failed access has no effect. Two
things happen inside the pump without a bus write: it may drop `CHG_ON` by itself at any time, and
it clears `SW_RESET` when its reset is over.

The fuel gauge is read through a two-step SRAM window. The driver holds a mutex over both steps, so
the second one always meets the address the first one set, and it carries that address here.

Delays, log lines and `power_supply_changed` notifications have no effect on this state and are not
operations.
-/

namespace Gts9Wifi.Charger

open Driver

/-! ## Registers -/

/-- Registers of the SM5714 charger block. -/
inductive ChgReg
  | status1 | status2 | cntl1 | cntl2 | vbuscntl | chgcntl2 | chgcntl4 | bstcntl1
deriving DecidableEq

/-- Registers of the SM5714 MUIC block. -/
inductive MuicReg
  | cntl | manualSw | deviceType1
deriving DecidableEq

/-- Words behind the fuel gauge's SRAM window. -/
inductive FgSram
  | soc | ocv | vbat | current | temperature | vbatAvg | currentAvg
deriving DecidableEq

/-- Registers of the SM5440. -/
inductive DcReg
  | int1 | int2 | int3 | int4 | status3 | cntl1 | cntl2 | cntl3 | cntl4 | cntl5 | cntl6 | cntl7
  | vbuscntl | vbatcntl | voutcntl | ibuscntl | prtncntl | themcntl1 | adccntl1 | adccntl2
  | adcVbus1 | adcVbus2 | adcIbus1 | adcIbus2 | adcDietemp | adcVbat1 | adcVbat2
deriving DecidableEq

/-- Status registers: the chip, not the driver, decides what they hold. -/
def ChgReg.isStatus : ChgReg → Bool
  | .status1 | .status2 => true
  | _ => false

def MuicReg.isStatus : MuicReg → Bool
  | .deviceType1 => true
  | _ => false

def DcReg.isStatus : DcReg → Bool
  | .int1 | .int2 | .int3 | .int4 | .status3 | .adcVbus1 | .adcVbus2 | .adcIbus1 | .adcIbus2
  | .adcDietemp | .adcVbat1 | .adcVbat2 => true
  | _ => false

/-! ## Driver memory -/

/-- `enum sm5714_charge_thermal_state`. -/
inductive ThermalState
  | normal | reduced | stop
deriving DecidableEq

/-- `POWER_SUPPLY_USB_TYPE_*`, as far as the driver uses it. -/
inductive UsbType
  | unknown | sdp | dcp | cdp | pd
deriving DecidableEq

/-- `POWER_SUPPLY_STATUS_*`, as far as the driver uses it. -/
inductive PsyStatus
  | charging | discharging | notCharging | full
deriving DecidableEq

/-- `struct sm5714_battery`. The last three of its `last_*` fields only decide notifications. -/
structure Battery where
  hasBatteryTemp : Bool
  floatUv : Nat
  lastOnline : Bool
  lastStatus : Except Errno PsyStatus
  lastCapacity : Int
  lastUsbType : Except Errno UsbType
  pollCount : Nat
  typecMv : Nat
  typecMa : Nat
  thermalState : ThermalState
  directCharging : Bool
  otgActive : Bool
  fastCharge : Bool

/-- `struct sm5440_direct`. `pending` is its delayed work, with the delay in milliseconds. -/
structure Direct where
  targetMv : Nat
  targetMa : Nat
  ppsTicks : Nat
  fails : Nat
  active : Bool
  suspending : Bool
  pending : Option Nat

/-- What the drivers keep in memory: both structures, `sm5714_primary`, the global mutex, the
`max_pps_ma` parameter, and the contract `sm5714_usbpd` has recorded. -/
structure Mem where
  bat : Battery
  dc : Direct
  primary : Bool
  globalLock : Bool
  maxPpsMa : Nat
  negotiatedMv : Nat
  negotiatedMa : Nat

/-! ## The board -/

/-- The two power supplies the SM5440 driver uses. -/
inductive Psy
  | tcpm | battery
deriving DecidableEq

/-- Power-supply properties. -/
inductive PsyProp
  | online | capacity | temp | voltageNow | currentNow
deriving DecidableEq

/-- What TCPM last accepted through its power supply. -/
structure Tcpm where
  online : Int
  voltageUv : Int
  currentUa : Int

/-- The whole board. -/
structure State where
  mem : Mem
  chg : ChgReg → BitVec 8
  muic : MuicReg → BitVec 8
  dc : DcReg → BitVec 8
  tcpm : Tcpm

/-- Functions whose entry is recorded in traces. -/
inductive Fn
  | restoreSwitching
  | setDirectCharge (active : Bool)
deriving DecidableEq

/-- The operations of the two drivers. -/
inductive Op
  | load
  | store (f : Mem → Mem)
  | chgRead (r : ChgReg)
  | chgWrite (r : ChgReg) (v : BitVec 8)
  | muicRead (r : MuicReg)
  | muicWrite (r : MuicReg) (v : BitVec 8)
  | fgWriteAddr (a : FgSram)
  | fgReadData (a : FgSram)
  | iioRead
  | dcRead (r : DcReg)
  | dcWrite (r : DcReg) (v : BitVec 8)
  | psyGet (p : Psy) (prop : PsyProp)
  | psySet (prop : PsyProp) (v : Int)
  | enter (f : Fn)

/-- The answer to an operation. -/
def Op.Ans : Op → Type
  | .load => Mem
  | .store _ | .enter _ => Unit
  | .chgRead _ | .muicRead _ | .dcRead _ => Except Errno (BitVec 8)
  | .chgWrite _ _ | .muicWrite _ _ | .dcWrite _ _ | .fgWriteAddr _ | .psySet _ _ => Except Errno Unit
  | .fgReadData _ => Except Errno (BitVec 16)
  | .iioRead | .psyGet _ _ => Except Errno Int

/-- The interface of the two drivers. -/
abbrev iface : Iface := ⟨Op, Op.Ans⟩

/-- Register accesses over I2C. -/
def Op.isAccess : Op → Bool
  | .chgRead _ | .chgWrite _ _ | .muicRead _ | .muicWrite _ _ | .fgWriteAddr _ | .fgReadData _
  | .dcRead _ | .dcWrite _ _ => true
  | _ => false

/-- What the environment decides about one operation: whether it fails, what a status register, the
fuel gauge, the thermistor or a power supply reports, and what the pump does by itself. -/
structure Input where
  fault : Option Errno := none
  byte : BitVec 8 := 0
  word : BitVec 16 := 0
  val : Int := 0
  dropsChgOn : Bool := false
  resetDone : Bool := true

/-- The answer `a`, unless the access fails. -/
def Input.answer {α : Type} (i : Input) (a : α) : Except Errno α :=
  match i.fault with
  | some e => .error e
  | none => .ok a

/-- The state after an access that does `t` if it succeeds. -/
def Input.apply (i : Input) (t : State → State) (s : State) : State :=
  match i.fault with
  | some _ => s
  | none => t s

/-! ## SM5440 operating mode -/

/-- `SM5440_CNTL5_OP_MODE_MASK`. -/
def cntl5OpModeMask : BitVec 8 := 0x0c

/-- `SM5440_CNTL5_CHG_ON`. -/
def cntl5ChgOn : BitVec 8 := 0x04

/-- `SM5440_CNTL1_SW_RESET`. -/
def dcCntl1SwReset : BitVec 8 := 0x01

/-- What the pump does by itself before the next operation that can see it. -/
def State.settle (s : State) (i : Input) : State :=
  { s with dc := fun r => match r with
      | .cntl5 => if i.dropsChgOn then s.dc .cntl5 &&& ~~~cntl5ChgOn else s.dc .cntl5
      | .cntl1 => if i.resetDone then s.dc .cntl1 &&& ~~~dcCntl1SwReset else s.dc .cntl1
      | r => s.dc r }

def State.setMem (s : State) (f : Mem → Mem) : State := { s with mem := f s.mem }

def State.setChg (s : State) (r : ChgReg) (v : BitVec 8) : State :=
  { s with chg := Function.update s.chg r v }

def State.setMuic (s : State) (r : MuicReg) (v : BitVec 8) : State :=
  { s with muic := Function.update s.muic r v }

def State.setDc (s : State) (r : DcReg) (v : BitVec 8) : State :=
  { s with dc := Function.update s.dc r v }

def State.setTcpm (s : State) (prop : PsyProp) (v : Int) : State :=
  match prop with
  | .online => { s with tcpm := { s.tcpm with online := v } }
  | .voltageNow => { s with tcpm := { s.tcpm with voltageUv := v } }
  | .currentNow => { s with tcpm := { s.tcpm with currentUa := v } }
  | _ => s

/-- How the board answers an operation. -/
def handle : (o : Op) → Input → State → o.Ans × State
  | .load, _, s => (s.mem, s)
  | .store f, _, s => ((), s.setMem f)
  | .chgRead r, i, s => (i.answer (if r.isStatus then i.byte else s.chg r), s)
  | .chgWrite r v, i, s => (i.answer (), i.apply (fun s => s.setChg r v) s)
  | .muicRead r, i, s => (i.answer (if r.isStatus then i.byte else s.muic r), s)
  | .muicWrite r v, i, s => (i.answer (), i.apply (fun s => s.setMuic r v) s)
  | .fgWriteAddr _, i, s => (i.answer (), s)
  | .fgReadData _, i, s => (i.answer i.word, s)
  | .iioRead, i, s => (i.answer i.val, s)
  | .dcRead r, i, s =>
    (i.answer (if r.isStatus then i.byte else (s.settle i).dc r), s.settle i)
  | .dcWrite r v, i, s => (i.answer (), i.apply (fun s => s.setDc r v) (s.settle i))
  | .psyGet _ _, i, s => (i.answer i.val, s.settle i)
  | .psySet prop v, i, s => (i.answer (), i.apply (fun s => s.setTcpm prop v) (s.settle i))
  | .enter _, i, s => ((), s.settle i)

/-- The charging board as a world. -/
abbrev board : World iface := ⟨State, Input, handle⟩

/-- The assumption admits a register access that fails. -/
def Faulty (A : Event board → Prop) : Prop :=
  ∃ e, A e ∧ e.op.isAccess = true ∧ e.input.fault ≠ none

/-- The operation is not a register access that fails. -/
def Succeeds (e : Event board) : Prop := e.op.isAccess = true → e.input.fault = none

theorem not_faulty_succeeds : ¬ Faulty Succeeds := fun ⟨_, he, hacc, hne⟩ => hne (he hacc)

/-! ## The operations as programs -/

/-- Code of the two drivers that cannot fail. -/
abbrev Code (α : Type) := Prog iface α

/-- Code of the two drivers that returns an error number when it fails. -/
abbrev Fallible (α : Type) := ExceptT Errno (Prog iface) α

def load : Code Mem := Prog.perform (I := iface) Op.load
def store (f : Mem → Mem) : Code Unit := Prog.perform (I := iface) (Op.store f)
def enter (f : Fn) : Code Unit := Prog.perform (I := iface) (Op.enter f)
def chgRead (r : ChgReg) : Fallible (BitVec 8) := Prog.perform (I := iface) (Op.chgRead r)
def chgWrite (r : ChgReg) (v : BitVec 8) : Fallible Unit :=
  Prog.perform (I := iface) (Op.chgWrite r v)
def muicRead (r : MuicReg) : Fallible (BitVec 8) := Prog.perform (I := iface) (Op.muicRead r)
def muicWrite (r : MuicReg) (v : BitVec 8) : Fallible Unit :=
  Prog.perform (I := iface) (Op.muicWrite r v)
def fgWriteAddr (a : FgSram) : Fallible Unit := Prog.perform (I := iface) (Op.fgWriteAddr a)
def fgReadData (a : FgSram) : Fallible (BitVec 16) := Prog.perform (I := iface) (Op.fgReadData a)
def iioRead : Fallible Int := Prog.perform (I := iface) Op.iioRead
def dcRead (r : DcReg) : Fallible (BitVec 8) := Prog.perform (I := iface) (Op.dcRead r)
def dcWrite (r : DcReg) (v : BitVec 8) : Fallible Unit := Prog.perform (I := iface) (Op.dcWrite r v)
def psyGet (p : Psy) (prop : PsyProp) : Fallible Int := Prog.perform (I := iface) (Op.psyGet p prop)
def psySet (prop : PsyProp) (v : Int) : Fallible Unit := Prog.perform (I := iface) (Op.psySet prop v)

/-! ## A board to start from -/

/-- The drivers as probed without a cable: 4.44 V float voltage, no contract, nothing active. -/
def Mem.probed : Mem where
  bat :=
    { hasBatteryTemp := true, floatUv := 4440000, lastOnline := false, lastStatus := .ok .discharging
      lastCapacity := 50, lastUsbType := .ok .unknown, pollCount := 0, typecMv := 0, typecMa := 0
      thermalState := .normal, directCharging := false, otgActive := false, fastCharge := false }
  dc :=
    { targetMv := 0, targetMa := 0, ppsTicks := 0, fails := 0, active := false, suspending := false
      pending := some 10000 }
  primary := true
  globalLock := false
  maxPpsMa := 3000
  negotiatedMv := 0
  negotiatedMa := 0

/-- The board as probed: Q4 open, the charger in charging mode, the MUIC automatic, the pump off. -/
def State.probed : State where
  mem := .probed
  chg
    | .cntl2 => 0x05
    | _ => 0
  muic _ := 0
  dc _ := 0
  tcpm := ⟨0, 0, 0⟩

/-- The inputs `l`, then inputs with no fault, no VBUS and a zero reading. -/
def inputs (l : List Input) : Nat → Input := fun n => l.getD n {}

/-! ## The state, field by field -/

section Fields

variable (s : State) (f : Mem → Mem) (v : BitVec 8)

@[simp] theorem setMem_mem : (s.setMem f).mem = f s.mem := rfl
@[simp] theorem setMem_chg : (s.setMem f).chg = s.chg := rfl
@[simp] theorem setMem_muic : (s.setMem f).muic = s.muic := rfl
@[simp] theorem setMem_tcpm : (s.setMem f).tcpm = s.tcpm := rfl
@[simp] theorem setChg_mem (r : ChgReg) : (s.setChg r v).mem = s.mem := rfl
@[simp] theorem setChg_muic (r : ChgReg) : (s.setChg r v).muic = s.muic := rfl
@[simp] theorem setMuic_mem (r : MuicReg) : (s.setMuic r v).mem = s.mem := rfl
@[simp] theorem setMuic_chg (r : MuicReg) : (s.setMuic r v).chg = s.chg := rfl

@[simp] theorem setChg_chg (r r' : ChgReg) :
    (s.setChg r v).chg r' = if r' = r then v else s.chg r' := by
  simp only [State.setChg, Function.update_apply]

@[simp] theorem setChg_self (r : ChgReg) : s.setChg r (s.chg r) = s := by
  simp only [State.setChg, Function.update_eq_self]

@[simp] theorem setDc_dc (r r' : DcReg) :
    (s.setDc r v).dc r' = if r' = r then v else s.dc r' := by
  simp only [State.setDc, Function.update_apply]

end Fields

/-! ## Rules for the operations

Each rule covers a monitor that ignores the operation, and splits on whether the access fails. -/

section Rules

variable {A : Event board → Prop} {M : Monitor board} {m : M.St} {s : State}

theorem answer_some {α : Type} {i : Input} {e : Errno} (h : i.fault = some e) (a : α) :
    i.answer a = .error e := by
  simp only [Input.answer, h]

theorem answer_none {α : Type} {i : Input} (h : i.fault = none) (a : α) : i.answer a = .ok a := by
  simp only [Input.answer, h]

theorem apply_some {i : Input} {e : Errno} (h : i.fault = some e) (t : State → State) :
    i.apply t s = s := by
  simp only [Input.apply, h]

theorem apply_none {i : Input} (h : i.fault = none) (t : State → State) : i.apply t s = t s := by
  simp only [Input.apply, h]

/-- An access changes what it is of, and not the memory of the drivers. -/
theorem apply_mem {t : State → State} (ht : ∀ s, (t s).mem = s.mem) (i : Input) (s : State) :
    (i.apply t s).mem = s.mem := by
  cases hf : i.fault with
  | some e => rw [apply_some hf]
  | none => rw [apply_none hf, ht]

/-- Only the stores of the drivers change their memory. -/
theorem handle_mem {o : Op} (h : ∀ f, o ≠ .store f) (i : Input) (s : State) :
    (handle o i s).2.mem = s.mem := by
  cases o with
  | store f => exact absurd rfl (h f)
  | chgWrite r v => exact apply_mem (t := fun s => s.setChg r v) (fun _ => rfl) i s
  | muicWrite r v => exact apply_mem (t := fun s => s.setMuic r v) (fun _ => rfl) i s
  | dcWrite r v => exact apply_mem (t := fun s => s.setDc r v) (fun _ => rfl) i (s.settle i)
  | psySet prop v =>
    have hset : ∀ s : State, (s.setTcpm prop v).mem = s.mem := fun _ => by cases prop <;> rfl
    exact apply_mem hset i (s.settle i)
  | _ => rfl

/-- Only writes to the charger change its registers. -/
theorem handle_chg {o : Op} (h : ∀ r v, o ≠ .chgWrite r v) (i : Input) (s : State) :
    (handle o i s).2.chg = s.chg := by
  cases o with
  | chgWrite r v => exact absurd rfl (h r v)
  | muicWrite r v | dcWrite r v => cases hf : i.fault <;> simp only [handle, Input.apply, hf] <;> rfl
  | psySet prop v =>
    cases hf : i.fault <;> simp only [handle, Input.apply, hf] <;> first | rfl | cases prop <;> rfl
  | _ => rfl

theorem wp_load [M.Ignores Op.load] {Q : Mem → M.St → State → Prop} (h : Q s.mem m s) :
    wp A M load Q m s :=
  wp_perform_of_ignores fun _ _ => h

theorem wp_store {f : Mem → Mem} [M.Ignores (Op.store f)] {Q : Unit → M.St → State → Prop}
    (h : Q () m (s.setMem f)) : wp A M (store f) Q m s :=
  wp_perform_of_ignores fun _ _ => h

/-- Reading the memory in the middle of a function. -/
theorem wp_load_seq [M.Ignores Op.load] {β : Type} {f : Mem → Code β} {Q : β → M.St → State → Prop}
    (h : wp A M (f s.mem) Q m s) : wp A M (load >>= f) Q m s :=
  (wp_bind _ _ _ _ _).2 (wp_load h)

theorem wp_thread_load [M.Ignores Op.load] {β : Type} {f : Mem → Thread board β}
    {Q : β → M.St → State → Prop} (h : wp A M (f s.mem).seq Q m s) :
    wp A M (Thread.interruptible load >>= f).seq Q m s := by
  rw [Thread.seq_bind, Thread.seq_interruptible, wp_bind]
  exact wp_load h

theorem wp_thread_store {g : Mem → Mem} [M.Ignores (Op.store g)] {β : Type}
    {f : Unit → Thread board β} {Q : β → M.St → State → Prop}
    (h : wp A M (f ()).seq Q m (s.setMem g)) :
    wp A M (Thread.interruptible (store g) >>= f).seq Q m s := by
  rw [Thread.seq_bind, Thread.seq_interruptible, wp_bind]
  exact wp_store h

theorem wp_run_load_seq [M.Ignores Op.load] {β : Type} {f : Mem → Fallible β}
    {Q : Except Errno β → M.St → State → Prop} (h : wp A M (f s.mem).run Q m s) :
    wp A M ((liftM load : Fallible Mem) >>= f).run Q m s := by
  rw [wp_run_bind, wp_run_lift]
  exact wp_load h

theorem wp_run_store_seq {g : Mem → Mem} [M.Ignores (Op.store g)] {β : Type} {f : Unit → Fallible β}
    {Q : Except Errno β → M.St → State → Prop} (h : wp A M (f ()).run Q m (s.setMem g)) :
    wp A M ((liftM (store g) : Fallible Unit) >>= f).run Q m s := by
  rw [wp_run_bind, wp_run_lift]
  exact wp_store h

theorem wp_enter {f : Fn} [M.Ignores (Op.enter f)] {Q : Unit → M.St → State → Prop}
    (h : ∀ i, Q () m (s.settle i)) : wp A M (enter f) Q m s :=
  wp_perform_of_ignores fun i _ => h i

theorem wp_chgRead {r : ChgReg} [M.Ignores (Op.chgRead r)]
    {Q : Except Errno (BitVec 8) → M.St → State → Prop}
    (he : ∀ i e, A ⟨.chgRead r, i, s⟩ → i.fault = some e → Q (.error e) m s)
    (hok : ∀ i, A ⟨.chgRead r, i, s⟩ → i.fault = none →
      Q (.ok (if r.isStatus then i.byte else s.chg r)) m s) :
    wp A M (chgRead r).run Q m s := by
  refine wp_perform_of_ignores fun i hi => ?_
  cases hf : i.fault with
  | some e => simpa only [handle, answer_some hf] using he i e hi hf
  | none => simpa only [handle, answer_none hf] using hok i hi hf

theorem wp_chgWrite {r : ChgReg} {v : BitVec 8} [M.Ignores (Op.chgWrite r v)]
    {Q : Except Errno Unit → M.St → State → Prop}
    (he : ∀ i e, A ⟨.chgWrite r v, i, s⟩ → i.fault = some e → Q (.error e) m s)
    (hok : Q (.ok ()) m (s.setChg r v)) : wp A M (chgWrite r v).run Q m s := by
  refine wp_perform_of_ignores fun i hi => ?_
  cases hf : i.fault with
  | some e => simpa only [handle, answer_some hf, apply_some hf] using he i e hi hf
  | none => simpa only [handle, answer_none hf, apply_none hf] using hok

theorem wp_muicRead {r : MuicReg} [M.Ignores (Op.muicRead r)]
    {Q : Except Errno (BitVec 8) → M.St → State → Prop}
    (he : ∀ i e, A ⟨.muicRead r, i, s⟩ → i.fault = some e → Q (.error e) m s)
    (hok : ∀ i, A ⟨.muicRead r, i, s⟩ → i.fault = none →
      Q (.ok (if r.isStatus then i.byte else s.muic r)) m s) :
    wp A M (muicRead r).run Q m s := by
  refine wp_perform_of_ignores fun i hi => ?_
  cases hf : i.fault with
  | some e => simpa only [handle, answer_some hf] using he i e hi hf
  | none => simpa only [handle, answer_none hf] using hok i hi hf

theorem wp_fgWriteAddr {a : FgSram} [M.Ignores (Op.fgWriteAddr a)]
    {Q : Except Errno Unit → M.St → State → Prop}
    (he : ∀ i e, A ⟨.fgWriteAddr a, i, s⟩ → i.fault = some e → Q (.error e) m s)
    (hok : Q (.ok ()) m s) : wp A M (fgWriteAddr a).run Q m s := by
  refine wp_perform_of_ignores fun i hi => ?_
  cases hf : i.fault with
  | some e => simpa only [handle, answer_some hf] using he i e hi hf
  | none => simpa only [handle, answer_none hf] using hok

end Rules

end Gts9Wifi.Charger
