import Gts9Wifi.Lib.Kernel
import Gts9Wifi.Lib.Prog

/-!
# The HI1337 image sensor

`hi1337_gts9u.c`. Power is taken when streaming starts and given back when it ends; the enable line is
shared with the microphone, so its handle is held only meanwhile. Of the controls the three are kept
that reach the sensor, with what the control core does to them: it clamps a value to the range, asks
the driver if the value has changed, and keeps the old value if the driver fails. The register tables
are parameters. Delays, log lines and the formats are left out. A failed `regulator_bulk_disable` is
taken as `State.bulkDisabled` says.
-/

namespace Gts9Wifi.Camera

open Driver

/-! ## The board -/

/-- `struct hi1337_variant`. -/
inductive Variant
  | rear | front | frontUw
deriving DecidableEq

def Variant.height : Variant → Nat
  | .rear => 3096
  | .front => 2556
  | .frontUw => 3000

def Variant.frameLength : Variant → Nat
  | .rear => 0x0cc0
  | .front => 0x0a96
  | .frontUw => 0x0c54

/-- `hi1337_gts9u_tables.h`: addresses and values. -/
structure Tables where
  global : List (Nat × Int)
  mode : Variant → List (Nat × Int)

inductive Ctrl
  | vblank | exposure | analogueGain
deriving DecidableEq

/-- `struct v4l2_ctrl`: `val` is the value that is being set, `cur` the value it has. The step is 1. -/
structure Control where
  minimum : Int
  maximum : Int
  default : Int
  val : Int
  cur : Int

inductive Line
  | enable | reset
deriving DecidableEq

/-- `struct hi1337`. A handle is there or `NULL`. -/
structure Sensor where
  variant : Variant
  handle : Line → Bool
  control : Ctrl → Control
  streaming : Bool

/-- What the driver takes and gives back. -/
inductive Resource
  | vddio | vdig | mclk | line (l : Line)
deriving DecidableEq

/-- The driver's data, how often it has taken each resource and not given it back, the registers of
the sensor, and whether the board has the enable line. -/
structure State where
  sensor : Sensor
  held : Resource → Int
  regs : Nat → Int
  hasEnable : Bool

/-! ## Operations -/

/-- The steps of the probe that leave no trace but can fail. -/
inductive ProbeStep
  | clkGet | clkGetRate | regulatorBulkGet | checkHwcfg | initControls | padsInit | registerSubdev
  | parseLenses | registerNotifier
deriving DecidableEq

inductive Op
  | load
  | setHandle (line : Line) (there : Bool)
  | setStreaming (streaming : Bool)
  | setControl (c : Ctrl) (f : Control → Control)
  | probeStep (p : ProbeStep)
  | regulatorBulkEnable
  | regulatorBulkDisable
  | clkPrepareEnable
  | clkDisableUnprepare
  | gpiodGetOptional
  | gpiodGet
  | gpiodPut (line : Line)
  | gpiodSetValue (line : Line) (value : Bool)
  | i2cMasterSend (reg : Nat) (value : Int)
  | i2cTransfer (reg : Nat)

def Op.Ans : Op → Type
  | .load => Sensor
  | .setHandle _ _ | .setStreaming _ | .setControl _ _ | .clkDisableUnprepare | .gpiodPut _
  | .gpiodSetValue _ _ => Unit
  | .gpiodGetOptional => Except Errno Bool
  | .probeStep _ | .regulatorBulkEnable | .regulatorBulkDisable | .clkPrepareEnable | .gpiodGet =>
    Except Errno Unit
  | .i2cMasterSend _ _ => Except Errno Nat
  | .i2cTransfer _ => Except Errno (Nat × Int)

abbrev iface : Iface := ⟨Op, Op.Ans⟩

/-- What the environment decides about one operation: whether it fails, how many bytes or messages are
transferred, what a register reads, and what the registers hold when the sensor is powered up. -/
structure Input where
  fault : Option Errno := none
  count : Nat := 4
  value : Int := 0
  regs : Nat → Int := fun _ => 0

def Input.answer {α : Type} (i : Input) (a : α) : Except Errno α :=
  match i.fault with
  | some e => .error e
  | none => .ok a

/-- A write of four bytes does not get through. -/
def Input.lost (i : Input) : Bool := i.fault ≠ none || i.count ≠ 4

def Sensor.setControl (s : Sensor) (c : Ctrl) (f : Control → Control) : Sensor :=
  { s with control := Function.update s.control c (f (s.control c)) }

def State.setSensor (s : State) (f : Sensor → Sensor) : State := { s with sensor := f s.sensor }

def State.add (s : State) (r : Resource) (n : Int) : State :=
  { s with held := Function.update s.held r (s.held r + n) }

def State.addSupplies (s : State) (n : Int) : State := (s.add .vddio n).add .vdig n

/-- A register is 16 bits wide. -/
def State.setReg (s : State) (reg : Nat) (value : Int) : State :=
  { s with regs := Function.update s.regs reg (value % 2 ^ 16) }

/-- The assumption about `regulator_bulk_disable`: the supplies count as given back also when it fails.
The call itself then enables again what it had disabled; the driver does not look, and never asks again.
What is counted is what the driver has taken and given back, not whether the supplies are on. -/
def State.bulkDisabled (s : State) : State := s.addSupplies (-1)

def handle : (o : Op) → Input → State → o.Ans × State
  | .load, _, s => (s.sensor, s)
  | .setHandle line there, _, s =>
    ((), s.setSensor fun d => { d with handle := Function.update d.handle line there })
  | .setStreaming streaming, _, s => ((), s.setSensor fun d => { d with streaming })
  | .setControl c f, _, s => ((), s.setSensor fun d => d.setControl c f)
  | .probeStep _, i, s => (i.answer (), s)
  | .regulatorBulkEnable, i, s =>
    match i.fault with
    | some e => (.error e, s)
    | none => (.ok (), { s.addSupplies 1 with regs := i.regs })
  | .regulatorBulkDisable, i, s => (i.answer (), s.bulkDisabled)
  | .clkPrepareEnable, i, s =>
    match i.fault with
    | some e => (.error e, s)
    | none => (.ok (), s.add .mclk 1)
  | .clkDisableUnprepare, _, s => ((), s.add .mclk (-1))
  | .gpiodGetOptional, i, s =>
    match i.fault with
    | some e => (.error e, s)
    | none => (.ok s.hasEnable, if s.hasEnable then s.add (.line .enable) 1 else s)
  | .gpiodGet, i, s =>
    match i.fault with
    | some e => (.error e, s)
    | none => (.ok (), s.add (.line .reset) 1)
  | .gpiodPut line, _, s => ((), s.add (.line line) (-1))
  | .gpiodSetValue _ _, _, s => ((), s)
  | .i2cMasterSend reg value, i, s =>
    (i.answer i.count, if i.lost then s else s.setReg reg value)
  | .i2cTransfer _, i, s => (i.answer (i.count, i.value), s)

/-- The camera as a world. -/
abbrev camera : World iface := ⟨State, Input, Camera.handle⟩

abbrev Code (α : Type) := ExceptT Errno (Prog iface) α

def load : Code Sensor := ExceptT.lift (Prog.perform (I := iface) Op.load)
def setHandle (line : Line) (there : Bool) : Code Unit :=
  ExceptT.lift (Prog.perform (I := iface) (Op.setHandle line there))
def setStreaming (streaming : Bool) : Code Unit :=
  ExceptT.lift (Prog.perform (I := iface) (Op.setStreaming streaming))
def setControl (c : Ctrl) (f : Control → Control) : Code Unit :=
  ExceptT.lift (Prog.perform (I := iface) (Op.setControl c f))
def probeStep (p : ProbeStep) : Code Unit :=
  ExceptT.mk (Prog.perform (I := iface) (Op.probeStep p))
def regulatorBulkEnable : Code Unit :=
  ExceptT.mk (Prog.perform (I := iface) Op.regulatorBulkEnable)
def regulatorBulkDisable : Code Unit :=
  ExceptT.mk (Prog.perform (I := iface) Op.regulatorBulkDisable)
def clkPrepareEnable : Code Unit := ExceptT.mk (Prog.perform (I := iface) Op.clkPrepareEnable)
def clkDisableUnprepare : Code Unit :=
  ExceptT.lift (Prog.perform (I := iface) Op.clkDisableUnprepare)
def gpiodGetOptional : Code Bool := ExceptT.mk (Prog.perform (I := iface) Op.gpiodGetOptional)
def gpiodGet : Code Unit := ExceptT.mk (Prog.perform (I := iface) Op.gpiodGet)
def gpiodPut (line : Line) : Code Unit :=
  ExceptT.lift (Prog.perform (I := iface) (Op.gpiodPut line))
def gpiodSetValue (line : Line) (value : Bool) : Code Unit :=
  ExceptT.lift (Prog.perform (I := iface) (Op.gpiodSetValue line value))
def i2cMasterSend (reg : Nat) (value : Int) : Code Nat :=
  ExceptT.mk (Prog.perform (I := iface) (Op.i2cMasterSend reg value))
def i2cTransfer (reg : Nat) : Code (Nat × Int) :=
  ExceptT.mk (Prog.perform (I := iface) (Op.i2cTransfer reg))

/-- An `if` without an `else`. -/
def onlyIf (c : Prop) [Decidable c] (x : Code Unit) : Code Unit := if c then x else pure ()

/-! ## Registers -/

def regModelId : Nat := 0x0716
def regVendorId : Nat := 0x0714
def modelId : Int := 0x1336
def vendorId : Int := 0x2000
def regModeSelect : Nat := 0x0b00
def modeStandby : Int := 0x0000
def modeStreaming : Int := 0x0100
def regFrameLength : Nat := 0x020e
def regExposure : Nat := 0x020a
def regAnalogueGain : Nat := 0x0213
def frameLengthMax : Int := 0x7fff
def exposureMin : Int := 4
def exposureMargin : Int := 4

def readReg (reg : Nat) : Code Int := do
  let (count, value) ← i2cTransfer reg
  if count = 2 then return value else throw .eio

def writeReg (reg : Nat) (value : Int) : Code Unit := do
  let count ← i2cMasterSend reg value
  if count = 4 then return else throw .eio

/-- The table is written until a write fails. -/
def writeTable : List (Nat × Int) → Code Unit
  | [] => return
  | r :: regs => do
    writeReg r.1 r.2
    writeTable regs

/-! ## Power -/

/-- `regulator_bulk_disable`, whose result is not looked at. -/
def disableSupplies : Code Unit := do
  let _ ← attempt regulatorBulkDisable

/-- From `release_enable` on. -/
def releaseEnable : Code Unit := do
  let sensor ← load
  onlyIf (sensor.handle .enable) (gpiodPut .enable)
  setHandle .enable false
  disableSupplies

/-- From the clock on: the reset line is let go, or `disable_module` undoes what came before. -/
def startClock : Code Unit := do
  let sensor ← load
  onlyIf (sensor.handle .enable) (gpiodSetValue .enable true)
  match ← attempt clkPrepareEnable with
  | .ok () => gpiodSetValue .reset false
  | .error e =>
    onlyIf (sensor.handle .enable) (gpiodSetValue .enable false)
    gpiodPut .reset
    setHandle .reset false
    releaseEnable
    throw e

def powerOn : Code Unit := do
  regulatorBulkEnable
  match ← attempt gpiodGetOptional with
  | .error e =>
    setHandle .enable false
    disableSupplies
    throw e
  | .ok found =>
    setHandle .enable found
    match ← attempt gpiodGet with
    | .error e =>
      setHandle .reset false
      releaseEnable
      throw e
    | .ok () =>
      setHandle .reset true
      startClock

def powerOff : Code Unit := do
  let sensor ← load
  if !sensor.handle .reset then return
  else do
    gpiodSetValue .reset true
    clkDisableUnprepare
    onlyIf (sensor.handle .enable) (gpiodSetValue .enable false)
    gpiodPut .reset
    setHandle .reset false
    onlyIf (sensor.handle .enable) (gpiodPut .enable)
    setHandle .enable false
    disableSupplies

/-- One of the two identity registers is enough. -/
def identify : Code Unit := do
  let model ← attempt (readReg regModelId)
  let vendor ← attempt (readReg regVendorId)
  match model, vendor with
  | .error e, .error _ => throw e
  | _, _ =>
    let model := model.toOption.getD 0
    let vendor := vendor.toOption.getD 0
    if model ≠ modelId ∧ model ≠ 0x1337 ∧ vendor ≠ vendorId then throw .enxio else return

/-! ## Controls -/

/-- A value of type `u32`. -/
def u32 (x : Int) : Int := x % 2 ^ 32

/-- The value that was asked for, brought into the range. -/
def Control.request (value : Int) (c : Control) : Control :=
  { c with val := clamp value c.minimum c.maximum }

/-- The value that was set is the one it has. -/
def Control.commit (c : Control) : Control := { c with cur := c.val }

/-- The value it has is set again. -/
def Control.restore (c : Control) : Control := { c with val := c.cur }

/-- A new range. The value it has is brought into it. -/
def Control.setRange (minimum maximum default : Int) (c : Control) : Control :=
  { c with minimum, maximum, default, val := clamp c.cur minimum maximum }

/-- Have the driver apply a value that has changed. Unless it succeeds, the old value stays. -/
def tryOrSet (c : Ctrl) (sCtrl : Code Unit) : Code Unit := do
  let sensor ← load
  if (sensor.control c).val = (sensor.control c).cur then return
  else do
    sCtrl
    setControl c Control.commit

/-- `__v4l2_ctrl_modify_range`. -/
def modifyRange (c : Ctrl) (sCtrl : Code Unit) (minimum maximum default : Int) : Code Unit := do
  if minimum > maximum ∨ default < minimum ∨ default > maximum then throw .erange
  else do
    setControl c (Control.setRange minimum maximum default)
    tryOrSet c sCtrl

/-- The end of `hi1337_set_ctrl`, and for a control other than `VBLANK` all of it. -/
def writeCtrl (c : Ctrl) : Code Unit := do
  let sensor ← load
  if !sensor.streaming then return
  else
    match c with
    | .exposure => writeReg regExposure (sensor.control .exposure).val
    | .analogueGain => writeReg regAnalogueGain ((sensor.control .analogueGain).val % 256)
    | .vblank => writeReg regFrameLength (u32 (sensor.variant.height + (sensor.control .vblank).val))

/-- The exposure's range follows the new `VBLANK`; what becomes of that is not looked at. -/
def followVblank : Code Unit := do
  let sensor ← load
  let exposureMax := u32 (sensor.variant.height + (sensor.control .vblank).val - exposureMargin)
  let _ ← attempt (modifyRange .exposure (writeCtrl .exposure) exposureMin exposureMax
    (min (sensor.control .exposure).val exposureMax))

def setCtrl (c : Ctrl) : Code Unit := do
  onlyIf (c = .vblank) followVblank
  writeCtrl c

/-- A control is set from user space. -/
def userSet (c : Ctrl) (value : Int) : Code Unit := do
  setControl c (Control.request value)
  tryOrSet c (setCtrl c)

/-- `__v4l2_ctrl_handler_setup`: the driver applies all controls, in the order of their creation. -/
def handlerSetup : List Ctrl → Code Unit
  | [] => return
  | c :: cs => do
    setControl c Control.restore
    setCtrl c
    handlerSetup cs

def vblankOf (v : Variant) : Int := u32 (v.frameLength - v.height)

/-- A control as `v4l2_ctrl_new_std` makes it. -/
def newStd (minimum maximum default : Int) : Control :=
  { minimum, maximum, default, val := default, cur := default }

def initControls : Code Unit := do
  let sensor ← load
  let v := sensor.variant
  setControl .vblank fun _ => newStd (vblankOf v) (frameLengthMax - v.height) (vblankOf v)
  setControl .exposure fun _ =>
    newStd exposureMin (v.frameLength - exposureMargin) (v.frameLength - exposureMargin)
  setControl .analogueGain fun _ => newStd 0 240 0
  probeStep .initControls

/-! ## Streaming -/

/-- A register is read for the log. -/
def debugRead (reg : Nat) : Code Unit := do
  let _ ← attempt (readReg reg)

def startStreaming (tables : Tables) : Code Unit := do
  let sensor ← load
  writeTable tables.global
  writeTable (tables.mode sensor.variant)
  debugRead regModeSelect
  debugRead regModelId
  debugRead regFrameLength
  setStreaming true
  match ← attempt (do
      handlerSetup [.vblank, .exposure, .analogueGain]
      writeReg regModeSelect modeStreaming) with
  | .error e =>
    setStreaming false
    throw e
  | .ok () =>
    debugRead regModeSelect
    debugRead regModeSelect

def setStream (tables : Tables) (enable : Bool) : Code Unit := do
  let sensor ← load
  if sensor.streaming = enable then return
  else if enable then do
    powerOn
    match ← attempt (startStreaming tables) with
    | .ok () => return
    | .error e =>
      powerOff
      throw e
  else do
    let ret ← attempt (writeReg regModeSelect modeStandby)
    setStreaming false
    powerOff
    match ret with
    | .ok () => return
    | .error e => throw e

/-! ## The device's life -/

/-- The part of the probe for which the sensor is powered. -/
def register : Code Unit := do
  identify
  initControls
  probeStep .padsInit
  probeStep .registerSubdev
  probeStep .parseLenses
  probeStep .registerNotifier

def probe : Code Unit := do
  probeStep .clkGet
  probeStep .clkGetRate
  probeStep .regulatorBulkGet
  probeStep .checkHwcfg
  powerOn
  let ret ← attempt register
  powerOff
  match ret with
  | .ok () => return
  | .error e => throw e

def remove : Code Unit := do
  let sensor ← load
  onlyIf sensor.streaming powerOff

inductive Call
  | setStream (enable : Bool)
  | userSet (c : Ctrl) (value : Int)
deriving DecidableEq

def Call.code (tables : Tables) : Call → Code Unit
  | .setStream enable => Camera.setStream tables enable
  | .userSet c value => Camera.userSet c value

/-- A call, and how the environment answers it. -/
structure Step where
  call : Call
  inputs : Nat → Input

def Step.trace (tables : Tables) (l : Step) (s : State) : List (Event camera) :=
  (l.call.code tables).run.trace camera l.inputs s

def step (tables : Tables) (l : Step) (s : State) : State :=
  ((l.call.code tables).run.run camera l.inputs s).2

/-- The board before the probe: the memory is zeroed, and nothing is held. -/
def unprobed (variant : Variant) (hasEnable : Bool) : State where
  sensor := ⟨variant, fun _ => false, fun _ => ⟨0, 0, 0, 0, 0⟩, false⟩
  held _ := 0
  regs _ := 0
  hasEnable := hasEnable

end Gts9Wifi.Camera
