import Gts9Wifi.Lib.Kernel
import Gts9Wifi.Lib.Prog

/-!
# The EL721 fingerprint sensor

`egis_el721.c`. The supply and the two lines are acquired when the sensor is first powered, and each
of them may be missing. Every operation runs under the driver's mutex, so it is one program. What the
regulator and GPIO layers, `el721_publish_rail` and user memory answer is the environment's; so is
what `kstrtobool` makes of a written text. Delays and log lines are left out, and so is what only a
reading attribute uses.
-/

namespace Gts9Wifi.Fingerprint

open Driver

inductive Line
  | ldo | enable
deriving DecidableEq

/-- `struct el721_data`. A resource is held or not. -/
structure El721Data where
  vdd : Bool := false
  ldoGpio : Bool := false
  enableGpio : Bool := false
  powered : Bool := false
  removing : Bool := false
  resetCount : BitVec 32 := 0
  sensorType : BitVec 32 := 8
  spiValue : BitVec 32 := 0
  requestedClockHz : BitVec 32 := 0
  model : List (BitVec 8)

/-- `struct egis_ioc_transfer`, as far as it is read. -/
structure IocTransfer where
  rxBuf : BitVec 64
  len : BitVec 32
  speedHz : BitVec 32
  opcode : BitVec 8

/-- The driver's data and whether the device still points to it, how often the driver has enabled the
supply more than it has disabled it, and what it drives each line to, if it ever did. -/
structure State where
  el721 : El721Data
  drvdata : Bool
  vddUses : Int
  driven : Line → Option Bool

/-! ## Operations -/

inductive Op
  | load
  | store (f : El721Data → El721Data)
  | getDrvdata
  | clearDrvdata
  | vddSupplyPresent
  | publishRail
  | regulatorGet
  | gpiodGetOptional (line : Line)
  | gpiodGet (line : Line)
  | regulatorEnable
  | regulatorDisable
  | gpiodDirectionOutput (line : Line) (value : Bool)
  | gpiodSetValue (line : Line) (value : Bool)
  | copyToUser (dst : BitVec 64) (data : List (BitVec 8))
  | capable
  | memdupUser (count : Nat)

def Op.Ans : Op → Type
  | .load => El721Data
  | .store _ | .clearDrvdata | .regulatorDisable | .gpiodSetValue _ _ => Unit
  | .getDrvdata | .vddSupplyPresent | .copyToUser _ _ | .capable => Bool
  | .gpiodGetOptional _ => Except Errno Bool
  | .publishRail | .regulatorGet | .gpiodGet _ | .regulatorEnable | .gpiodDirectionOutput _ _ =>
    Except Errno Unit
  | .memdupUser _ => Except Errno (List IocTransfer)

abbrev iface : Iface := ⟨Op, Op.Ans⟩

/-- What the environment decides about one operation: whether it fails, what it finds, and what user
memory holds. -/
structure Input where
  fault : Option Errno := none
  found : Bool := false
  user : Nat → IocTransfer := fun _ => ⟨0, 0, 0, 0⟩

def Input.answer {α : Type} (i : Input) (a : α) : Except Errno α :=
  match i.fault with
  | some e => .error e
  | none => .ok a

def State.setData (s : State) (f : El721Data → El721Data) : State := { s with el721 := f s.el721 }

def State.addUse (s : State) (n : Int) : State := { s with vddUses := s.vddUses + n }

def State.drive (s : State) (line : Line) (value : Bool) : State :=
  { s with driven := fun l => if l = line then some value else s.driven l }

def handle : (o : Op) → Input → State → o.Ans × State
  | .load, _, s => (s.el721, s)
  | .store f, _, s => ((), s.setData f)
  | .getDrvdata, _, s => (s.drvdata, s)
  | .clearDrvdata, _, s => ((), { s with drvdata := false })
  | .vddSupplyPresent, i, s | .copyToUser _ _, i, s | .capable, i, s => (i.found, s)
  | .publishRail, i, s | .regulatorGet, i, s | .gpiodGet _, i, s => (i.answer (), s)
  | .gpiodGetOptional _, i, s => (i.answer i.found, s)
  | .regulatorEnable, i, s =>
    match i.fault with
    | some e => (.error e, s)
    | none => (.ok (), s.addUse 1)
  | .regulatorDisable, _, s => ((), s.addUse (-1))
  | .gpiodDirectionOutput line value, i, s =>
    match i.fault with
    | some e => (.error e, s)
    | none => (.ok (), s.drive line value)
  | .gpiodSetValue line value, _, s => ((), s.drive line value)
  | .memdupUser count, i, s => (i.answer ((List.range count).map i.user), s)

/-- The sensor as a world. -/
abbrev board : World iface := ⟨State, Input, handle⟩

abbrev Code (α : Type) := ExceptT Errno (Prog iface) α

def load : Code El721Data := ExceptT.lift (Prog.perform (I := iface) Op.load)
def store (f : El721Data → El721Data) : Code Unit :=
  ExceptT.lift (Prog.perform (I := iface) (Op.store f))
def getDrvdata : Code Bool := ExceptT.lift (Prog.perform (I := iface) Op.getDrvdata)
def clearDrvdata : Code Unit := ExceptT.lift (Prog.perform (I := iface) Op.clearDrvdata)
def vddSupplyPresent : Code Bool := ExceptT.lift (Prog.perform (I := iface) Op.vddSupplyPresent)
def publishRail : Code Unit := ExceptT.mk (Prog.perform (I := iface) Op.publishRail)
def regulatorGet : Code Unit := ExceptT.mk (Prog.perform (I := iface) Op.regulatorGet)
def gpiodGetOptional (line : Line) : Code Bool :=
  ExceptT.mk (Prog.perform (I := iface) (Op.gpiodGetOptional line))
def gpiodGet (line : Line) : Code Unit := ExceptT.mk (Prog.perform (I := iface) (Op.gpiodGet line))
def regulatorEnable : Code Unit := ExceptT.mk (Prog.perform (I := iface) Op.regulatorEnable)
def regulatorDisable : Code Unit := ExceptT.lift (Prog.perform (I := iface) Op.regulatorDisable)
def gpiodDirectionOutput (line : Line) (value : Bool) : Code Unit :=
  ExceptT.mk (Prog.perform (I := iface) (Op.gpiodDirectionOutput line value))
def gpiodSetValue (line : Line) (value : Bool) : Code Unit :=
  ExceptT.lift (Prog.perform (I := iface) (Op.gpiodSetValue line value))
def copyToUser (dst : BitVec 64) (data : List (BitVec 8)) : Code Bool :=
  ExceptT.lift (Prog.perform (I := iface) (Op.copyToUser dst data))
def capable : Code Bool := ExceptT.lift (Prog.perform (I := iface) Op.capable)
def memdupUser (count : Nat) : Code (List IocTransfer) :=
  ExceptT.mk (Prog.perform (I := iface) (Op.memdupUser count))

/-- An `if` without an `else`. -/
def onlyIf (c : Prop) [Decidable c] (x : Code Unit) : Code Unit := if c then x else pure ()

/-! ## Acquiring the hardware -/

/-- Ask for the supply, again and again while its driver is still binding. -/
def getVdd : (attempts : Nat) → Code Bool
  | 0 => return false
  | n + 1 => do
    match ← attempt regulatorGet with
    | .ok () => return true
    | .error e => if e = .eprobeDefer then getVdd n else return false

/-- Without a supply the sensor is used all the same. -/
def acquireVdd : Code Unit := do
  let el721 ← load
  if el721.vdd then return
  else do
    let present ← vddSupplyPresent
    let _ ← attempt (onlyIf (!present) publishRail)
    let found ← getVdd 50
    store fun el721 => { el721 with vdd := found }

def acquireLdo : Code Unit := do
  let el721 ← load
  if el721.ldoGpio then return
  else do
    let found ← gpiodGetOptional .ldo
    store fun el721 => { el721 with ldoGpio := found }

def acquireEnable : Code Unit := do
  let el721 ← load
  if el721.enableGpio then return
  else do
    gpiodGet .enable
    store fun el721 => { el721 with enableGpio := true }

/-- `el721_prepare_hardware_locked`. -/
def prepareHardwareLocked : Code Unit := do
  acquireVdd
  acquireLdo
  acquireEnable

/-! ## Power and reset -/

/-- The two lines go up, or the first one down again. -/
def raiseLines (ldo : Bool) : Code Unit := do
  onlyIf ldo (gpiodDirectionOutput .ldo true)
  match ← attempt (gpiodDirectionOutput .enable true) with
  | .ok () => return
  | .error e =>
    onlyIf ldo (gpiodSetValue .ldo false)
    throw e

/-- `el721_power_on_locked`. -/
def powerOnLocked : Code Unit := do
  let el721 ← load
  if el721.powered then return
  else do
    prepareHardwareLocked
    let el721 ← load
    onlyIf el721.vdd regulatorEnable
    match ← attempt (raiseLines el721.ldoGpio) with
    | .ok () => store fun el721 => { el721 with powered := true }
    | .error e =>
      onlyIf el721.vdd regulatorDisable
      throw e

/-- `el721_power_off_locked`. -/
def powerOffLocked : Code Unit := do
  let el721 ← load
  if !el721.powered then return
  else do
    gpiodSetValue .enable false
    onlyIf el721.ldoGpio (gpiodSetValue .ldo false)
    onlyIf el721.vdd regulatorDisable
    store fun el721 => { el721 with powered := false }

/-- `el721_reset_locked`. -/
def resetLocked : Code Unit := do
  let el721 ← load
  if !el721.powered then throw .ehostdown
  else do
    gpiodSetValue .enable false
    gpiodSetValue .enable true
    store fun el721 => { el721 with resetCount := el721.resetCount + 1 }

/-- `el721_reset_control_locked`. -/
def resetControlLocked (enabled : BitVec 32) : Code Unit := do
  if enabled > 1 then throw .einval
  else do
    let el721 ← load
    if !el721.powered then
      if enabled ≠ 0 then throw .ehostdown else return
    else gpiodSetValue .enable (enabled ≠ 0)

/-! ## Transfers -/

def fpSensorReset : BitVec 8 := 0x04
def fpPowerControl : BitVec 8 := 0x05
def fpSetSpiClock : BitVec 8 := 0x06
def fpResetControl : BitVec 8 := 0x07
def fpDisableSpiClock : BitVec 8 := 0x10
def fpCpuSpeedup : BitVec 8 := 0x11
def fpSetSensorType : BitVec 8 := 0x14
def fpSpiValue : BitVec 8 := 0x1a
def fpModelInfo : BitVec 8 := 0x1f

/-- `FP_IOCTL_RESERVED_01` to `FP_IOCTL_RESERVED_07`. -/
def fpReserved : List (BitVec 8) := [0x19, 0x1c, 0xa4, 0xa5, 0xa8, 0x16, 0x17]

def modelInfoLen : Nat := 10

/-- What `strscpy` leaves in a zeroed buffer of `modelInfoLen` bytes. -/
def modelInfo (model : List (BitVec 8)) : List (BitVec 8) :=
  let text := (model.takeWhile (· ≠ 0)).take (modelInfoLen - 1)
  text ++ List.replicate (modelInfoLen - text.length) 0

def copyModelInfo (rxBuf : BitVec 64) : Code Unit := do
  if rxBuf = 0 then throw .einval
  else do
    let el721 ← load
    let failed ← copyToUser rxBuf (modelInfo el721.model)
    if failed then throw .efault else return

/-- `el721_run_transfer_locked`. -/
def runTransferLocked (ioc : IocTransfer) : Code Unit :=
  if ioc.opcode = fpSensorReset then resetLocked
  else if ioc.opcode = fpPowerControl then
    if ioc.len > 1 then throw .einval
    else if ioc.len ≠ 0 then powerOnLocked else powerOffLocked
  else if ioc.opcode = fpResetControl then resetControlLocked ioc.len
  else if ioc.opcode = fpSetSpiClock then
    store fun el721 => { el721 with requestedClockHz := ioc.speedHz }
  else if ioc.opcode = fpDisableSpiClock then store fun el721 => { el721 with requestedClockHz := 0 }
  else if ioc.opcode = fpCpuSpeedup then return
  else if ioc.opcode = fpSetSensorType then store fun el721 => { el721 with sensorType := ioc.len }
  else if ioc.opcode = fpSpiValue then store fun el721 => { el721 with spiValue := ioc.len }
  else if ioc.opcode = fpModelInfo then copyModelInfo ioc.rxBuf
  else if ioc.opcode ∈ fpReserved then return
  else throw .eopnotsupp

/-- The loop over a batch. It stops at the first transfer that fails. -/
def runTransfers : List IocTransfer → Code Unit
  | [] => return
  | ioc :: xfers => do
    runTransferLocked ioc
    runTransfers xfers

/-- What needs a driver that is not being removed. -/
def unlessRemoving (x : Code Unit) : Code Unit := do
  let el721 ← load
  if el721.removing then throw .enodev else x

def iocNr (cmd : BitVec 32) : BitVec 32 := cmd &&& 0xff
def iocType (cmd : BitVec 32) : BitVec 32 := (cmd >>> 8) &&& 0xff
def iocSize (cmd : BitVec 32) : Nat := ((cmd >>> 16) &&& 0x3fff).toNat
def iocDir (cmd : BitVec 32) : BitVec 32 := cmd >>> 30

/-- `EGIS_IOC_MAGIC`. -/
def egisIocMagic : BitVec 32 := 0x6b

/-- `sizeof(struct egis_ioc_transfer)`. -/
def xferSize : Nat := 32

/-- `el721_ioctl`. -/
def ioctl (cmd : BitVec 32) : Code Unit := do
  if iocType cmd ≠ egisIocMagic ∨ iocNr cmd ≠ 0 ∨ iocDir cmd ≠ 1 then throw .enotty
  else if iocSize cmd = 0 ∨ iocSize cmd % xferSize ≠ 0 then throw .einval
  else do
    let admin ← capable
    if !admin then throw .eperm
    else do
      let xfers ← memdupUser (iocSize cmd / xferSize)
      unlessRemoving (runTransfers xfers)

/-! ## Attributes and the device's life -/

/-- `power_store`, once the text is parsed. -/
def powerStore (enabled : Except Errno Bool) : Code Unit := do
  match enabled with
  | .error e => throw e
  | .ok enabled => unlessRemoving (if enabled then powerOnLocked else powerOffLocked)

/-- `reset_store`, once the text is parsed. -/
def resetStore (reset : Except Errno Bool) : Code Unit := do
  match reset with
  | .error e => throw e
  | .ok reset => if !reset then throw .einval else unlessRemoving resetLocked

/-- `el721_suspend`. -/
def suspend : Code Unit := powerOffLocked

def powerOffForGood : Code Unit := do
  store fun el721 => { el721 with removing := true }
  powerOffLocked

/-- `el721_shutdown`. -/
def shutdown : Code Unit := do
  let bound ← getDrvdata
  if !bound then return
  else do
    let _ ← attempt powerOffForGood
    return

/-- `el721_remove`. A file that is still open keeps the data. -/
def remove : Code Unit := do
  let _ ← attempt powerOffForGood
  clearDrvdata

inductive Call
  | ioctl (cmd : BitVec 32)
  | powerStore (enabled : Except Errno Bool)
  | resetStore (reset : Except Errno Bool)
  | suspend
  | shutdown
  | remove

def Call.code : Call → Code Unit
  | .ioctl cmd => Fingerprint.ioctl cmd
  | .powerStore enabled => Fingerprint.powerStore enabled
  | .resetStore reset => Fingerprint.resetStore reset
  | .suspend => Fingerprint.suspend
  | .shutdown => Fingerprint.shutdown
  | .remove => Fingerprint.remove

/-- A call, and how the environment answers it. -/
structure Step where
  call : Call
  inputs : Nat → Input

def Step.trace (l : Step) (s : State) : List (Event board) := l.call.code.run.trace board l.inputs s

def step (l : Step) (s : State) : State := (l.call.code.run.run board l.inputs s).2

/-- What `el721_probe` leaves: nothing is acquired or driven yet. -/
def probed (model : List (BitVec 8)) : State := ⟨{ model }, true, 0, fun _ => none⟩

end Gts9Wifi.Fingerprint
