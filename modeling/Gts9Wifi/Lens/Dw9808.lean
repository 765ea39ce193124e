import Gts9Wifi.Lib.Kernel
import Gts9Wifi.Lib.Prog

/-!
# The DW9808 lens

`dw9808_vcm.c`. The chip hangs on a rail that it shares with the image sensor, which switches its own
vote at any time: before every operation of the driver the environment says what levels that vote has
gone through. A rail that goes down takes what was written to the chip with it. The runtime-PM core
calls `resume` on a suspended device and `suspend` on an active one, and a call that fails leaves the
device in the state it was in. Delays and log lines are left out.
-/

namespace Gts9Wifi.Lens

open Driver

/-- `struct dw9808_device`. The position is a `u16`. -/
structure Dev where
  position : Nat
  inited : Bool

/-- The driver's data, whether runtime PM has the device active, the driver's own enable count and the
sensor's vote, and what was written to the chip since it was last powered up. -/
structure State where
  dev : Dev
  active : Bool
  uses : Nat
  sensor : Bool
  written : List (BitVec 8 × BitVec 8)

/-- The shared rail. -/
def State.rail (s : State) : Bool := s.sensor || s.uses ≠ 0

/-- The votes change. Unless the rail is up before and after, the chip forgets what it was told. -/
def State.vote (s : State) (sensor : Bool) (uses : Nat) : State :=
  { s with
    sensor, uses, written := if s.rail && (sensor || uses ≠ 0) then s.written else [] }

/-- The sensor's vote goes through these levels. -/
def State.switch : List Bool → State → State
  | [], s => s
  | level :: levels, s => switch levels (s.vote level s.uses)

/-! ## Operations -/

inductive Op
  | load
  | storePosition (position : Nat)
  | setInited (inited : Bool)
  | pmActive
  | setPmActive (active : Bool)
  | pmRuntimeGetIfInUse
  | regulatorEnable
  | regulatorDisable
  | regulatorIsEnabled
  | smbusReadByteData (reg : BitVec 8)
  | smbusWriteByteData (reg value : BitVec 8)
  | masterSend (data : List (BitVec 8))
  | pollExpired
deriving DecidableEq

def Op.Ans : Op → Type
  | .load => Dev
  | .storePosition _ | .setInited _ | .setPmActive _ | .regulatorDisable => Unit
  | .pmActive | .regulatorIsEnabled | .pollExpired => Bool
  | .pmRuntimeGetIfInUse => Except Errno Bool
  | .regulatorEnable | .smbusWriteByteData _ _ => Except Errno Unit
  | .smbusReadByteData _ => Except Errno (BitVec 8)
  | .masterSend _ => Except Errno Nat

abbrev iface : Iface := ⟨Op, Op.Ans⟩

/-- What the environment decides about one operation: the levels the sensor's vote goes through before
it, whether it fails, and what it finds. -/
structure Input where
  levels : List Bool := []
  fault : Option Errno := none
  value : BitVec 8 := 0
  sent : Nat := 3
  yes : Bool := false

/-- An access to the chip. Without power nothing answers. -/
def Input.answer {α : Type} (i : Input) (s : State) (a : α) : Except Errno α :=
  match i.fault with
  | some e => .error e
  | none => if s.rail then .ok a else .error .enxio

def State.setDev (s : State) (f : Dev → Dev) : State := { s with dev := f s.dev }

/-- The chip takes a write, if it is reached. -/
def State.receive (s : State) (i : Input) (ws : List (BitVec 8 × BitVec 8)) : State :=
  if i.fault = none ∧ s.rail then { s with written := s.written ++ ws } else s

/-- The registers that a transfer starting with `POSITION_MSB` writes. -/
def positionWrites : List (BitVec 8) → List (BitVec 8 × BitVec 8)
  | [reg, msb, lsb] => [(reg, msb), (reg + 1, lsb)]
  | _ => []

/-- An operation that meets the state `s`. -/
def act : (o : Op) → Input → State → o.Ans × State
  | .load, _, s => (s.dev, s)
  | .storePosition position, _, s => ((), s.setDev fun dev => { dev with position })
  | .setInited inited, _, s => ((), s.setDev fun dev => { dev with inited })
  | .pmActive, _, s => (s.active, s)
  | .setPmActive active, _, s => ((), { s with active })
  | .pmRuntimeGetIfInUse, i, s =>
    match i.fault with
    | some e => (.error e, s)
    | none => (.ok (s.active && i.yes), s)
  | .regulatorEnable, i, s =>
    match i.fault with
    | some e => (.error e, s)
    | none => (.ok (), s.vote s.sensor (s.uses + 1))
  | .regulatorDisable, _, s => ((), s.vote s.sensor (s.uses - 1))
  | .regulatorIsEnabled, _, s => (s.rail, s)
  | .smbusReadByteData _, i, s => (i.answer s i.value, s)
  | .smbusWriteByteData reg value, i, s => (i.answer s (), s.receive i [(reg, value)])
  | .masterSend data, i, s => (i.answer s i.sent, s.receive i (positionWrites data))
  | .pollExpired, i, s => (i.yes, s)

def handle (o : Op) (i : Input) (s : State) : o.Ans × State := act o i (s.switch i.levels)

/-- The lens as a world. -/
abbrev lens : World iface := ⟨State, Input, handle⟩

abbrev Code (α : Type) := ExceptT Errno (Prog iface) α

def load : Code Dev := ExceptT.lift (Prog.perform (I := iface) Op.load)
def storePosition (position : Nat) : Code Unit :=
  ExceptT.lift (Prog.perform (I := iface) (Op.storePosition position))
def setInited (inited : Bool) : Code Unit :=
  ExceptT.lift (Prog.perform (I := iface) (Op.setInited inited))
def pmActive : Code Bool := ExceptT.lift (Prog.perform (I := iface) Op.pmActive)
def setPmActive (active : Bool) : Code Unit :=
  ExceptT.lift (Prog.perform (I := iface) (Op.setPmActive active))
def pmRuntimeGetIfInUse : Code Bool :=
  ExceptT.mk (Prog.perform (I := iface) Op.pmRuntimeGetIfInUse)
def regulatorEnable : Code Unit := ExceptT.mk (Prog.perform (I := iface) Op.regulatorEnable)
def regulatorDisable : Code Unit := ExceptT.lift (Prog.perform (I := iface) Op.regulatorDisable)
def regulatorIsEnabled : Code Bool := ExceptT.lift (Prog.perform (I := iface) Op.regulatorIsEnabled)
def smbusReadByteData (reg : BitVec 8) : Code (BitVec 8) :=
  ExceptT.mk (Prog.perform (I := iface) (Op.smbusReadByteData reg))
def smbusWriteByteData (reg value : BitVec 8) : Code Unit :=
  ExceptT.mk (Prog.perform (I := iface) (Op.smbusWriteByteData reg value))
def masterSend (data : List (BitVec 8)) : Code Nat :=
  ExceptT.mk (Prog.perform (I := iface) (Op.masterSend data))
def pollExpired : Code Bool := ExceptT.lift (Prog.perform (I := iface) Op.pollExpired)

/-! ## The chip -/

def ctrlSteps : Nat := 16
def regControl : BitVec 8 := 0x02
def regPositionMsb : BitVec 8 := 0x03
def regStatus : BitVec 8 := 0x05

/-- The vendor's sequence. -/
def initSequence : List (BitVec 8 × BitVec 8) :=
  [(0x02, 0x01), (0x02, 0x00), (0x06, 0x60), (0x07, 0x05), (0x03, 0x00), (0x04, 0xaf), (0x03, 0x00),
    (0x04, 0xfa), (0x03, 0x01), (0x04, 0x18), (0x03, 0x01), (0x04, 0x2b), (0x02, 0x02)]

/-- The loop of `dw9808_init`, which stops at the first write that fails. -/
def writeSequence : List (BitVec 8 × BitVec 8) → Code Unit
  | [] => return
  | w :: ws => do
    smbusWriteByteData w.1 w.2
    writeSequence ws

/-- `dw9808_init`. -/
def init : Code Unit := writeSequence initSequence

/-- How often the status is read at most within the 10 ms, at no less than 251 µs a time. -/
def pollLimit : Nat := 40

/-- `readx_poll_timeout`. It returns the status that was read last, once that is zero or the time is
over, and a read that fails ends it. -/
def pollStatus : Nat → Code (BitVec 8)
  | 0 => smbusReadByteData regStatus
  | n + 1 => do
    let status ← smbusReadByteData regStatus
    if status = 0 then return status
    else do
      let expired ← pollExpired
      if expired then smbusReadByteData regStatus else pollStatus n

/-- `dw9808_set_position`. -/
def setPosition (position : Nat) : Code Unit := do
  let status ← pollStatus pollLimit
  if status ≠ 0 then throw .ebusy
  else do
    let sent ← masterSend
      [regPositionMsb, BitVec.ofNat 8 (position / 256 % 4), BitVec.ofNat 8 (position % 256)]
    if sent = 3 then return else throw .eio

/-- `dw9808_ensure_ready`. -/
def ensureReady : Code Unit := do
  let enabled ← regulatorIsEnabled
  if !enabled then
    setInited false
    throw .eagain
  else do
    let dev ← load
    if dev.inited then return
    else do
      init
      setInited true

/-! ## Callbacks -/

/-- `V4L2_CID_FOCUS_ABSOLUTE`. -/
def focusAbsolute : Nat := 0x009a090a

/-- `dw9808_set_control`. -/
def setControl (id : Nat) (val : Int) : Code Unit := do
  if id ≠ focusAbsolute then throw .einval
  else do
    storePosition (val % 65536).toNat
    let inUse ← pmRuntimeGetIfInUse
    if !inUse then return
    else do
      match ← attempt ensureReady with
      | .error e => if e = .eagain then return else throw e
      | .ok () =>
        let dev ← load
        setPosition dev.position

/-- The first error of two. -/
def firstError (a b : Except Errno Unit) : Except Errno Unit :=
  match a with
  | .error e => .error e
  | .ok () => b

/-- The loop of `dw9808_suspend`, from `k` steps above zero down. -/
def park : Nat → Except Errno Unit → Code (Except Errno Unit)
  | 0, ret => do
    let r ← attempt (setPosition 0)
    return firstError ret r
  | k + 1, ret => do
    let r ← attempt (setPosition (ctrlSteps * (k + 1)))
    park k (firstError ret r)

/-- `dw9808_suspend`. -/
def suspend : Code Unit := do
  let enabled ← regulatorIsEnabled
  if !enabled then setInited false
  else do
    let dev ← load
    let ret ← park (dev.position / ctrlSteps) (.ok ())
    let r ← attempt (smbusWriteByteData regControl 0x01)
    regulatorDisable
    setInited false
    match ret, r with
    | .error e, _ => throw e
    | .ok (), .error _ => throw .eio
    | .ok (), .ok () => return

/-- The loop of `dw9808_resume`, which stops at the first position that fails. -/
def ramp : List Nat → Code Unit
  | [] => return
  | position :: positions => do
    match ← attempt (setPosition position) with
    | .error _ => return
    | .ok () => ramp positions

/-- The positions of that loop. -/
def rampPositions (position : Nat) : List Nat :=
  (List.range (position / ctrlSteps + 1)).map fun i =>
    min (position % ctrlSteps + ctrlSteps * i) position

/-- `dw9808_resume`. -/
def resume : Code Unit := do
  regulatorEnable
  match ← attempt ensureReady with
  | .error _ => regulatorDisable
  | .ok () =>
    let dev ← load
    ramp (rampPositions dev.position)

/-! ## Runs -/

/-- The runtime-PM core resumes a suspended device. -/
def rpmResume : Code Unit := do
  let active ← pmActive
  if active then return
  else do
    resume
    setPmActive true

/-- It suspends an active one. -/
def rpmSuspend : Code Unit := do
  let active ← pmActive
  if !active then return
  else do
    suspend
    setPmActive false

inductive Call
  | resume
  | suspend
  | setControl (id : Nat) (val : Int)
deriving DecidableEq

def Call.code : Call → Code Unit
  | .resume => rpmResume
  | .suspend => rpmSuspend
  | .setControl id val => Lens.setControl id val

/-- A call, and how the environment answers it. -/
structure Step where
  call : Call
  inputs : Nat → Input

def Step.trace (l : Step) (s : State) : List (Event lens) := l.call.code.run.trace lens l.inputs s

def step (l : Step) (s : State) : State := (l.call.code.run.run lens l.inputs s).2

/-- What `dw9808_probe` leaves, whatever the sensor does and the chip was told before. -/
def probed (sensor : Bool) (written : List (BitVec 8 × BitVec 8)) : State :=
  ⟨⟨512, false⟩, false, 0, sensor, written⟩

end Gts9Wifi.Lens
