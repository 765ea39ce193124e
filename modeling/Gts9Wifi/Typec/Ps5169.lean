import Mathlib.Logic.Function.Basic
import Gts9Wifi.Lib.Kernel
import Gts9Wifi.Lib.Prog

/-!
# The PS5169 redriver

`ps5169.c`: the initialisation, and the two calls of the Type-C core that program the chip. The chip
is the file of its registers. The role of the port may change between the calls. Looking up the
neighbours in the graph and registering with the core is left out, and so are delays, log lines and
the data that is handed through to the next multiplexer.
-/

namespace Gts9Wifi.Typec.Ps5169

open Driver

inductive Orientation
  | none | normal | reverse
deriving DecidableEq

inductive UsbRole
  | none | host | device
deriving DecidableEq

/-- `TYPEC_STATE_*` and `TYPEC_DP_STATE_*`. -/
inductive Mode
  | safe | usb | dpA | dpB | dpC | dpD | dpE | dpF
  | other (n : Nat)
deriving DecidableEq

/-- `USB_TYPEC_DP_SID`. -/
def usbTypecDpSid : BitVec 32 := 0xff01

def regMode : BitVec 8 := 0x40
def regUsbDirection : BitVec 8 := 0x04
def regEq0 : BitVec 8 := 0x52
def regEq1 : BitVec 8 := 0x5e
def regChipId2 : BitVec 8 := 0xac
def regChipId1 : BitVec 8 := 0xad

/-- `struct ps5169`, and whether it has a role switch. -/
structure Ctx where
  roleSwitch : Bool
  orientation : Orientation
  mode : Mode
  svid : BitVec 32
  reg50 : BitVec 8
  reg51 : BitVec 8
  reg54 : BitVec 8
  reg5d : BitVec 8

abbrev Regs := BitVec 8 → BitVec 8

/-- The driver, the chip, and the role of the port. -/
structure State where
  ctx : Ctx
  regs : Regs
  role : UsbRole

inductive Op
  | load
  | store (f : Ctx → Ctx)
  | regmapWrite (reg value : BitVec 8)
  | regmapRead (reg : BitVec 8)
  | getRole
  | typecSwitchSet (orientation : Orientation)
  | typecMuxSet (alt : Option (BitVec 32)) (mode : Mode)

def Op.Ans : Op → Type
  | .load => Ctx
  | .store _ => Unit
  | .regmapWrite _ _ | .typecSwitchSet _ | .typecMuxSet _ _ => Except Errno Unit
  | .regmapRead _ => Except Errno (BitVec 8)
  | .getRole => UsbRole

abbrev iface : Iface := ⟨Op, Op.Ans⟩

/-- What the environment decides about one operation: whether it fails. -/
structure Input where
  fault : Option Errno := none

def Input.answer {α : Type} (i : Input) (a : α) : Except Errno α :=
  match i.fault with
  | some e => .error e
  | none => .ok a

def State.setCtx (s : State) (f : Ctx → Ctx) : State := { s with ctx := f s.ctx }

def handle : (o : Op) → Input → State → o.Ans × State
  | .load, _, s => (s.ctx, s)
  | .store f, _, s => ((), s.setCtx f)
  | .regmapWrite reg value, i, s =>
    match i.fault with
    | some e => (.error e, s)
    | none => (.ok (), { s with regs := Function.update s.regs reg value })
  | .regmapRead reg, i, s => (i.answer (s.regs reg), s)
  | .getRole, _, s => (s.role, s)
  | .typecSwitchSet _, i, s => (i.answer (), s)
  | .typecMuxSet _ _, i, s => (i.answer (), s)

/-- The board as a world. -/
abbrev board : World iface := ⟨State, Input, handle⟩

abbrev Code (α : Type) := ExceptT Errno (Prog iface) α

def load : Code Ctx := ExceptT.lift (Prog.perform (I := iface) Op.load)
def store (f : Ctx → Ctx) : Code Unit := ExceptT.lift (Prog.perform (I := iface) (Op.store f))
def regmapWrite (reg value : BitVec 8) : Code Unit :=
  ExceptT.mk (Prog.perform (I := iface) (Op.regmapWrite reg value))
def regmapRead (reg : BitVec 8) : Code (BitVec 8) :=
  ExceptT.mk (Prog.perform (I := iface) (Op.regmapRead reg))
def getRole : Code UsbRole := ExceptT.lift (Prog.perform (I := iface) Op.getRole)
def typecSwitchSet (o : Orientation) : Code Unit :=
  ExceptT.mk (Prog.perform (I := iface) (Op.typecSwitchSet o))
def typecMuxSet (alt : Option (BitVec 32)) (mode : Mode) : Code Unit :=
  ExceptT.mk (Prog.perform (I := iface) (Op.typecMuxSet alt mode))

/-- A register and its value. -/
abbrev Write := BitVec 8 × BitVec 8

/-- `ps5169_write_sequence`. It ends at the first error, like a row of `regmap_write`. -/
def writeSequence : List Write → Code Unit
  | [] => return
  | (reg, value) :: l => do
    regmapWrite reg value
    writeSequence l

/-! ## Programming -/

def safeSequence : List Write :=
  [(regEq0, 0x20), (regEq1, 0x06), (regMode, 0x80), (0xa0, 0x02), (0xa1, 0x00),
    (regUsbDirection, 0x00), (0x8d, 0x00), (0x90, 0x00)]

/-- `ps5169_set_safe`. -/
def setSafe : Code Unit := writeSequence safeSequence

/-- The branches of `ps5169_program`. -/
def modeSequence (ps : Ctx) (role : UsbRole) : Except Errno (List Write) :=
  let reverse := ps.orientation = .reverse
  match ps.mode with
  | .usb =>
    return [(regMode, if reverse then 0xd0 else 0xc0), (0xa0, 0x02),
      (regUsbDirection, if role = .host then 0x00 else 0x44), (0x8d, 0x01), (0x90, 0x01)]
  | .dpC | .dpE =>
    if ps.svid ≠ usbTypecDpSid then throw .einval
    else return [(regMode, if reverse then 0xb0 else 0xa0), (0xa0, 0x00), (0xa1, 0x04)]
  | .dpD | .dpF =>
    if ps.svid ≠ usbTypecDpSid then throw .einval
    else
      return [(regMode, if reverse then 0xf0 else 0xe0), (0xa0, 0x00), (0xa1, 0x04),
        (regUsbDirection, 0x00), (0x8d, 0x01), (0x90, 0x01)]
  | _ => throw Errno.eopnotsupp

/-- Without a role switch there is no role. -/
def currentRole (ps : Ctx) : Code UsbRole := if ps.roleSwitch then getRole else pure .none

/-- `ps5169_program`. -/
def program : Code Unit := do
  let ps ← load
  if ps.orientation = .none ∨ ps.mode = .safe then
    setSafe
  else
    let role ← currentRole ps
    match modeSequence ps role with
    | .error e => throw e
    | .ok l => writeSequence l

/-- `ps5169_switch_set`. -/
def switchSet (orientation : Orientation) : Code Unit := do
  typecSwitchSet orientation
  store fun ps => { ps with orientation }
  program

/-- `ps5169_retimer_set`, with the SVID of the alternate mode if there is one. -/
def retimerSet (alt : Option (BitVec 32)) (mode : Mode) : Code Unit := do
  store fun ps => { ps with mode, svid := alt.getD 0 }
  program
  typecMuxSet alt mode

/-! ## Initialisation -/

def initSequence (ps : Ctx) : List Write :=
  [(regMode, 0x80), (0xa0, 0x02), (0x51, ps.reg51), (0x50, ps.reg50), (0x54, ps.reg54),
    (0x5d, ps.reg5d), (0x55, 0x00), (0x56, 0x00), (0x57, 0x00), (0x58, 0x00), (0x59, 0x00),
    (0x5a, 0x00), (0x5b, 0x00), (0x5f, 0x00), (0x60, 0x00), (0x61, 0x03), (0x65, 0x40), (0x66, 0x00),
    (0x67, 0x03), (regEq0, 0x20), (regEq1, 0x06), (regUsbDirection, 0x00)]

/-- `ps5169_hw_init`. -/
def hwInit : Code (BitVec 8 × BitVec 8) := do
  let ps ← load
  regmapWrite 0x9d 0x80
  regmapWrite 0x9d 0x00
  writeSequence (initSequence ps)
  let id1 ← regmapRead regChipId1
  let id2 ← regmapRead regChipId2
  return (id1, id2)

/-- The driver's structure as the probe sets it up, with the properties of the node. -/
def probeCtx (roleSwitch : Bool) (reg50 reg51 reg54 reg5d : Option (BitVec 32)) : Ctx where
  roleSwitch := roleSwitch
  orientation := .none
  mode := .safe
  svid := 0
  reg50 := (reg50.map (BitVec.setWidth 8)).getD 0x10
  reg51 := (reg51.map (BitVec.setWidth 8)).getD 0x70
  reg54 := (reg54.map (BitVec.setWidth 8)).getD 0x02
  reg5d := (reg5d.map (BitVec.setWidth 8)).getD 0x40

/-! ## Runs -/

inductive Call
  | switchSet (orientation : Orientation)
  | retimerSet (alt : Option (BitVec 32)) (mode : Mode)

def Call.code : Call → Code Unit
  | .switchSet orientation => Ps5169.switchSet orientation
  | .retimerSet alt mode => Ps5169.retimerSet alt mode

/-- A call with what the environment answers, or a change of the port's role. -/
inductive Step
  | call (c : Call) (inputs : Nat → Input)
  | roleChange (role : UsbRole)

def Step.result : Step → State → Except Errno Unit
  | .call c inputs, s => (c.code.run.run board inputs s).1
  | .roleChange _, _ => .ok ()

def step : Step → State → State
  | .call c inputs, s => (c.code.run.run board inputs s).2
  | .roleChange role, s => { s with role }

end Gts9Wifi.Typec.Ps5169
