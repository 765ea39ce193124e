import Gts9Wifi.Lib.Prog
import Gts9Wifi.Lib.Kernel
import Mathlib.Data.Fin.Basic

/-!
# The FTS1BA90A touchscreen driver

`fts1ba90a.c`: the interrupt handler and the PM callbacks, function by function, with all they call.
The world they run in has the two supplies, the interrupt with its disable depth and its wake depth,
the I2C bus, the answer of the digitizer driver whether a pen is near, and the multi-touch state of
the input core. That core keeps, for each slot, whether it is active and whether it has been reported
in the frame under way; ending a frame releases the active slots that were not, which is what
`INPUT_MT_DROP_UNUSED` asks for.

Delays and log lines change nothing here and are left out, and so is the wakeup accounting.
-/

namespace Gts9Wifi.Touch

open Driver

/-! ## The world -/

/-- `struct fts1ba90a`, as far as it is not a handle. -/
structure Ctx where
  dtwEnabled : Bool
  lpmSuspended : Bool

inductive Supply
  | avdd | vddio
deriving DecidableEq

/-- The multi-touch state of the input core. -/
structure Slots where
  slot : Nat
  active : Nat → Bool
  used : Nat → Bool

/-- Reports that carry no slot state. -/
inductive Report
  | keyWakeup (down : Bool)
  | position (x y : Nat)
  | touchMajor (v : Nat)
  | touchMinor (v : Nat)
  | pressure (v : Nat)
  | sync
deriving DecidableEq

/-- The driver, how often each supply is enabled, the depths of the interrupt, and the input core. -/
structure State where
  ctx : Ctx
  supplies : Supply → Int
  irqDepth : Int
  wakeDepth : Int
  input : Slots

/-- The operations of the driver. -/
inductive Op
  | load
  | store (f : Ctx → Ctx)
  | i2cWrite (data : List (BitVec 8))
  | i2cRead (cmd : BitVec 8) (len : Nat)
  | regulatorEnable (r : Supply)
  | regulatorDisable (r : Supply)
  | enableIrqWake
  | disableIrqWake
  | enableIrq
  | disableIrq
  | deviceMayWakeup
  | shouldSuppressTouch
  | mtSlot (i : Nat)
  | mtReportSlot (active : Bool)
  | mtSyncFrame
  | report (r : Report)

/-- A buffer that was read; only the bytes that were asked for mean something. -/
abbrev Buffer := Nat → BitVec 8

def Op.Ans : Op → Type
  | .load => Ctx
  | .store _ | .regulatorDisable _ | .disableIrqWake | .enableIrq | .disableIrq | .mtSlot _
  | .mtReportSlot _ | .mtSyncFrame | .report _ => Unit
  | .i2cWrite _ | .regulatorEnable _ | .enableIrqWake => Except Errno Unit
  | .i2cRead _ _ => Except Errno Buffer
  | .deviceMayWakeup | .shouldSuppressTouch => Bool

abbrev iface : Iface := ⟨Op, Op.Ans⟩

/-- What the environment decides about one operation: whether it fails, what a read returns, and the
answer to a question. -/
structure Input where
  fault : Option Errno := none
  data : Buffer := fun _ => 0
  flag : Bool := false

def Input.answer {α : Type} (i : Input) (a : α) : Except Errno α :=
  match i.fault with
  | some e => .error e
  | none => .ok a

def State.setCtx (s : State) (f : Ctx → Ctx) : State := { s with ctx := f s.ctx }

def State.addUse (s : State) (r : Supply) (n : Int) : State :=
  { s with supplies := fun r' => if r' = r then s.supplies r' + n else s.supplies r' }

/-- `input_mt_report_slot_state` and `_inactive`, for the current slot. -/
def Slots.reportSlot (t : Slots) (active : Bool) : Slots :=
  { t with
    active := fun i => if i = t.slot then active else t.active i
    used := fun i => if i = t.slot then true else t.used i }

/-- `input_mt_sync_frame` with `INPUT_MT_DROP_UNUSED`. -/
def Slots.syncFrame (t : Slots) : Slots :=
  { t with active := fun i => t.active i && t.used i, used := fun _ => false }

/-- How the world answers an operation. A failed one has no effect. -/
def handle : (o : Op) → Input → State → o.Ans × State
  | .load, _, s => (s.ctx, s)
  | .store f, _, s => ((), s.setCtx f)
  | .i2cWrite _, i, s => (i.answer (), s)
  | .i2cRead _ _, i, s => (i.answer i.data, s)
  | .regulatorEnable r, i, s =>
    match i.fault with
    | some e => (.error e, s)
    | none => (.ok (), s.addUse r 1)
  | .regulatorDisable r, _, s => ((), s.addUse r (-1))
  | .enableIrqWake, i, s =>
    match i.fault with
    | some e => (.error e, s)
    | none => (.ok (), { s with wakeDepth := s.wakeDepth + 1 })
  | .disableIrqWake, _, s => ((), { s with wakeDepth := s.wakeDepth - 1 })
  | .enableIrq, _, s => ((), { s with irqDepth := s.irqDepth - 1 })
  | .disableIrq, _, s => ((), { s with irqDepth := s.irqDepth + 1 })
  | .deviceMayWakeup, i, s => (i.flag, s)
  | .shouldSuppressTouch, i, s => (i.flag, s)
  | .mtSlot n, _, s => ((), { s with input := { s.input with slot := n } })
  | .mtReportSlot active, _, s => ((), { s with input := s.input.reportSlot active })
  | .mtSyncFrame, _, s => ((), { s with input := s.input.syncFrame })
  | .report _, _, s => ((), s)

/-- The touchscreen as a world. -/
abbrev touch : World iface := ⟨State, Input, handle⟩

abbrev Code (α : Type) := Prog iface α

/-- Code that returns an error number when it fails. -/
abbrev Fallible (α : Type) := ExceptT Errno (Prog iface) α

def load : Code Ctx := Prog.perform (I := iface) Op.load
def store (f : Ctx → Ctx) : Code Unit := Prog.perform (I := iface) (Op.store f)
def i2cWrite (data : List (BitVec 8)) : Fallible Unit := Prog.perform (I := iface) (Op.i2cWrite data)
def i2cRead (cmd : BitVec 8) (len : Nat) : Fallible Buffer :=
  Prog.perform (I := iface) (Op.i2cRead cmd len)
def regulatorEnable (r : Supply) : Fallible Unit :=
  Prog.perform (I := iface) (Op.regulatorEnable r)
def regulatorDisable (r : Supply) : Code Unit := Prog.perform (I := iface) (Op.regulatorDisable r)
def enableIrqWake : Fallible Unit := Prog.perform (I := iface) Op.enableIrqWake
def disableIrqWake : Code Unit := Prog.perform (I := iface) Op.disableIrqWake
def enableIrq : Code Unit := Prog.perform (I := iface) Op.enableIrq
def disableIrq : Code Unit := Prog.perform (I := iface) Op.disableIrq
def deviceMayWakeup : Code Bool := Prog.perform (I := iface) Op.deviceMayWakeup
def shouldSuppressTouch : Code Bool := Prog.perform (I := iface) Op.shouldSuppressTouch
def mtSlot (i : Nat) : Code Unit := Prog.perform (I := iface) (Op.mtSlot i)
def mtReportSlot (active : Bool) : Code Unit := Prog.perform (I := iface) (Op.mtReportSlot active)
def mtSyncFrame : Code Unit := Prog.perform (I := iface) Op.mtSyncFrame
def report (r : Report) : Code Unit := Prog.perform (I := iface) (Op.report r)

/-! ## Constants -/

def readOneEvent : BitVec 8 := 0x60
def readAllEvent : BitVec 8 := 0x61
def setGetOpmode : BitVec 8 := 0x31
def writeWakeupGesture : BitVec 8 := 0x39
def spongeReadWrite : BitVec 8 := 0xaa
def spongeNotify : BitVec 8 := 0xc0
def opmodeNormal : BitVec 8 := 0x00
def opmodeLowpower : BitVec 8 := 0x01
def modeDoubletapWakeup : BitVec 8 := 0x20
def eventSize : Nat := 16
def fifoMax : Nat := 32
def maxFingers : Nat := 10

/-! ## Events -/

/-- An event of the controller. -/
abbrev Ev := Fin 16 → BitVec 8

/-- The `i`-th event of a buffer. -/
def eventAt (buf : Buffer) (i : Nat) : Ev := fun k => buf (i * eventSize + k)

/-- Bits `[1:0]`, `[5:2]` and `[7:6]` of byte 0. -/
def Ev.eid (ev : Ev) : Nat := (ev 0 &&& 0x3).toNat
def Ev.field (ev : Ev) : Nat := (ev 0 >>> 2 &&& 0xf).toNat
def Ev.action (ev : Ev) : Nat := (ev 0 >>> 6).toNat

/-- Touch type, from bytes 6 and 7. -/
def Ev.ttype (ev : Ev) : Nat := (((ev 6 >>> 6) <<< 2) ||| (ev 7 >>> 6)).toNat

/-- The remaining FIFO depth, in byte 7. -/
def Ev.depth (ev : Ev) : Nat := (ev 7 &&& 0x3f).toNat

def isDoubleTap (ev : Ev) : Bool :=
  ev.eid = 2 && ev.action = 1 && ev.field = 1 && ev 1 = 1

/-! ## Talking to the controller -/

/-- The attempts of `fts1ba90a_wait_for_ready`. -/
def pollReady : Nat → Fallible Unit
  | 0 => throw .etimedout
  | n + 1 => do
    let ev := eventAt (← i2cRead readOneEvent eventSize) 0
    if ev.eid = 1 ∧ ev.field = 2 ∧ ev 1 = 0x00 then return () else pollReady n

def waitForReady : Fallible Unit := pollReady 100

def reset : Fallible Unit := do
  i2cWrite [0xfa, 0x20, 0x00, 0x00, 0x24, 0x81]
  waitForReady

def senseOn : Fallible Unit := do
  i2cWrite [0x30, 0x61, 0x00]
  i2cWrite [0x62]
  i2cWrite [0xa0, 0x00, 0x01]

def start : Fallible Unit := do
  reset
  senseOn

def powerOn : Fallible Unit := do
  regulatorEnable .vddio
  match ← attempt (regulatorEnable .avdd) with
  | .ok () => return ()
  | .error e =>
    regulatorDisable .vddio
    throw e

def powerOff : Code Unit := do
  regulatorDisable .avdd
  regulatorDisable .vddio

/-- The attempts of `fts1ba90a_set_opmode`. -/
def tryOpmode (mode : BitVec 8) : Nat → Fallible Unit
  | 0 => throw .eagain
  | n + 1 => do
    i2cWrite [setGetOpmode, mode]
    match ← attempt (i2cRead setGetOpmode 1) with
    | .ok buf => if buf 0 = mode then return () else tryOpmode mode n
    | .error _ => tryOpmode mode n

def setOpmode (mode : BitVec 8) : Fallible Unit := tryOpmode mode 3

def writeSpongeMode (mode : BitVec 8) : Fallible Unit := do
  i2cWrite [spongeReadWrite, 0x00, 0x00, mode]
  i2cWrite [spongeNotify, 0x00, 0x00]

/-- A low-power mode that was not confirmed is armed all the same. -/
def armGesture : Fallible Unit := do
  let _ ← attempt (writeSpongeMode modeDoubletapWakeup)
  match ← attempt (setOpmode opmodeLowpower) with
  | .ok () => i2cWrite [writeWakeupGesture, 0x02]
  | .error e => if e = .eagain then i2cWrite [writeWakeupGesture, 0x02] else throw e

def disarmGesture : Fallible Unit := do
  let _ ← attempt (i2cWrite [writeWakeupGesture, 0x00])
  let _ ← attempt (writeSpongeMode 0)
  setOpmode opmodeNormal

/-! ## Reporting -/

def reportTouch (ev : Ev) : Code Unit := do
  if ev.eid ≠ 0 then
    return
  let slot := ev.field
  if slot ≥ maxFingers then
    return
  if ev.ttype = 5 then
    -- a palm
    mtSlot slot
    mtReportSlot false
    return
  if ¬ (ev.ttype = 0 ∨ ev.ttype = 3 ∨ ev.ttype = 6) then
    return
  mtSlot slot
  if ev.action = 3 then
    mtReportSlot false
    return
  if ¬ (ev.action = 1 ∨ ev.action = 2) then
    return
  let z := (ev 6 &&& 0x3f).toNat
  mtReportSlot true
  report (.position ((ev 1).toNat <<< 4 ||| (ev 3 >>> 4).toNat)
    ((ev 2).toNat <<< 4 ||| (ev 3 &&& 0xf).toNat))
  report (.touchMajor (ev 4).toNat)
  report (.touchMinor (ev 5).toNat)
  report (.pressure (if z = 0 then 1 else z))

def releaseSlots : List Nat → Code Unit
  | [] => return ()
  | i :: rest => do
    mtSlot i
    mtReportSlot false
    releaseSlots rest

def suppressTouch : Code Unit := do
  releaseSlots (List.range maxFingers)
  mtSyncFrame
  report .sync

def reportWake : Code Unit := do
  report (.keyWakeup true)
  report .sync
  report (.keyWakeup false)
  report .sync

/-- The loop of the handler over the events it has read. -/
def reportEvents : List Ev → Code Unit
  | [] => return ()
  | ev :: rest => do
    if isDoubleTap ev then
      reportWake
      reportEvents rest
    else if ← shouldSuppressTouch then
      suppressTouch
    else
      reportTouch ev
      reportEvents rest

/-- The events of one interrupt: the first, and what its depth says is left, unless that read
fails. -/
def readEvents : Fallible (List Ev) := do
  let first := eventAt (← i2cRead readOneEvent eventSize) 0
  let count := min (first.depth + 1) fifoMax
  if count > 1 then
    match ← attempt (i2cRead readAllEvent ((count - 1) * eventSize)) with
    | .ok buf => return first :: (List.range (count - 1)).map (eventAt buf)
    | .error _ => return [first]
  else
    return [first]

def irqHandler : Code Unit := do
  match ← readEvents.run with
  | .error _ => return ()
  | .ok events =>
    reportEvents events
    if ¬ (← shouldSuppressTouch) then
      mtSyncFrame
      report .sync

/-! ## Suspend and resume -/

def Ctx.setLpmSuspended (b : Bool) (c : Ctx) : Ctx := { c with lpmSuspended := b }

def suspendOff : Code Unit := do
  disableIrq
  powerOff

def suspend : Code (Except Errno Unit) := do
  if ¬ (← load).dtwEnabled then
    suspendOff
    return .ok ()
  if ¬ (← deviceMayWakeup) then
    suspendOff
    return .ok ()
  match ← enableIrqWake.run with
  | .error _ =>
    suspendOff
    return .ok ()
  | .ok () =>
    suppressTouch
    match ← armGesture.run with
    | .error _ =>
      disableIrqWake
      suspendOff
      return .ok ()
    | .ok () =>
      store (Ctx.setLpmSuspended true)
      return .ok ()

/-- What a resume from a suspend that cut the power has to do before the interrupt is enabled. -/
def bringUp : Fallible Unit := do
  powerOn
  start

def resume : Code (Except Errno Unit) := do
  if (← load).lpmSuspended then
    store (Ctx.setLpmSuspended false)
    disableIrqWake
    match ← disarmGesture.run with
    | .ok () => return .ok ()
    | .error _ =>
      let _ ← start.run
      return .ok ()
  match ← bringUp.run with
  | .error e => return .error e
  | .ok () =>
    enableIrq
    return .ok ()

def doubleTapToWakeStore (parsed : Except Errno Bool) : Code (Except Errno Unit) := do
  match parsed with
  | .error e => return .error e
  | .ok enabled =>
    store fun c => { c with dtwEnabled := enabled }
    return .ok ()

/-! ## Steps -/

/-- The PM callbacks, and the switch that decides what a suspend does. -/
inductive Call
  | suspend | resume
  | doubleTapToWakeStore (parsed : Except Errno Bool)

def Call.code : Call → Code (Except Errno Unit)
  | .suspend => Touch.suspend
  | .resume => Touch.resume
  | .doubleTapToWakeStore parsed => Touch.doubleTapToWakeStore parsed

/-- One step of a run: a call, with what its operations meet. -/
structure Step where
  call : Call
  inputs : Nat → Input

def step (l : Step) (s : State) : State := (l.call.code.run touch l.inputs s).2

/-- What the call returns. -/
def Step.result (l : Step) (s : State) : Except Errno Unit := (l.call.code.run touch l.inputs s).1

def Step.trace (l : Step) (s : State) : List (Event touch) := l.call.code.trace touch l.inputs s

/-- Suspends and resumes alternate, from a device that is asleep or not. -/
def Alternates : Bool → List Step → Prop
  | _, [] => True
  | asleep, l :: rest =>
    match l.call with
    | .suspend => asleep = false ∧ Alternates true rest
    | .resume => asleep = true ∧ Alternates false rest
    | .doubleTapToWakeStore _ => Alternates asleep rest

/-- A probed device: both supplies on, the interrupt enabled, no slot active. -/
def State.probed : State where
  ctx := { dtwEnabled := false, lpmSuspended := false }
  supplies _ := 1
  irqDepth := 0
  wakeDepth := 0
  input := { slot := 0, active := fun _ => false, used := fun _ => false }

end Gts9Wifi.Touch
