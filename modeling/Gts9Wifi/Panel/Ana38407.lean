import Gts9Wifi.Lib.Prog
import Gts9Wifi.Lib.Kernel
import Mathlib.Logic.Function.Basic

/-!
# The ANA38407 panel driver

`panel-samsung-ana38407.c`: the DRM callbacks, the backlight, the two fingerprint controls and their
watchdog, function by function. Each of them runs under the driver's lock, so they are plain
programs over the panel: DSI packets that may be refused, supplies that may not come up, and the
driver's own structure. The panel holds, for each command, the parameters it last accepted.

Delays, log lines and the low-power flag of the link change nothing here and are left out, and so is
the picture parameter set that goes with its packet.
-/

namespace Gts9Wifi.Panel

open Driver

/-! ## The panel and the driver's structure -/

/-- `struct ana38407`. `fodWatchdog` is its delayed work, with the delay in milliseconds. -/
structure Ctx where
  userBrightness : BitVec 16
  prepared : Bool
  enabled : Bool
  fodMode : Bool
  fodCircle : Bool
  fodWatchdog : Option Nat
  id : List (BitVec 8)
  cellId : List (BitVec 8)

inductive Supply
  | vddio | vdd | vci | avdd
deriving DecidableEq

/-- What is sent over DSI. -/
inductive Packet
  | dcs (cmd : BitVec 8) (params : List (BitVec 8))
  | generic (data : List (BitVec 8))
  | compressionMode (on : Bool)
  | pictureParameterSet
deriving DecidableEq

/-- The driver, the parameters each command last set, how often each supply is enabled, and the
reset line. -/
structure State where
  ctx : Ctx
  regs : BitVec 8 → List (BitVec 8)
  supplies : Supply → Int
  reset : Bool

/-- The operations of the driver. -/
inductive Op
  | load
  | store (f : Ctx → Ctx)
  | transfer (p : Packet)
  | dcsRead (cmd : BitVec 8) (len : Nat)
  | regulatorEnable (l : List Supply)
  | regulatorDisable (l : List Supply)
  | setReset (value : Bool)

def Op.Ans : Op → Type
  | .load => Ctx
  | .store _ | .regulatorDisable _ | .setReset _ => Unit
  | .transfer _ | .regulatorEnable _ => Except Errno Unit
  | .dcsRead _ _ => Except Errno (List (BitVec 8))

abbrev iface : Iface := ⟨Op, Op.Ans⟩

/-- What the environment decides about one operation: whether it fails, and what a read returns. -/
structure Input where
  fault : Option Errno := none
  data : List (BitVec 8) := []

def Input.answer {α : Type} (i : Input) (a : α) : Except Errno α :=
  match i.fault with
  | some e => .error e
  | none => .ok a

def State.setCtx (s : State) (f : Ctx → Ctx) : State := { s with ctx := f s.ctx }

/-- The panel after a packet it accepted. -/
def State.accept (s : State) : Packet → State
  | .dcs cmd params => { s with regs := Function.update s.regs cmd params }
  | .generic (cmd :: params) => { s with regs := Function.update s.regs cmd params }
  | _ => s

def State.addUse (s : State) (l : List Supply) (n : Int) : State :=
  { s with supplies := fun r => if r ∈ l then s.supplies r + n else s.supplies r }

/-- How the board answers an operation. A refused packet has no effect, and neither has a regulator
call that fails: `regulator_bulk_enable` undoes its own. -/
def handle : (o : Op) → Input → State → o.Ans × State
  | .load, _, s => (s.ctx, s)
  | .store f, _, s => ((), s.setCtx f)
  | .transfer p, i, s =>
    match i.fault with
    | some e => (.error e, s)
    | none => (.ok (), s.accept p)
  | .dcsRead _ len, i, s => (i.answer (i.data.take len), s)
  | .regulatorEnable l, i, s =>
    match i.fault with
    | some e => (.error e, s)
    | none => (.ok (), s.addUse l 1)
  | .regulatorDisable l, _, s => ((), s.addUse l (-1))
  | .setReset value, _, s => ((), { s with reset := value })

/-- The panel as a world. -/
abbrev panel : World iface := ⟨State, Input, handle⟩

abbrev Code (α : Type) := Prog iface α

/-- The `int` of a C function: zero, or an error. -/
abbrev Ret := Except Errno Unit

def load : Code Ctx := Prog.perform (I := iface) Op.load
def store (f : Ctx → Ctx) : Code Unit := Prog.perform (I := iface) (Op.store f)
def transfer (p : Packet) : Code Ret := Prog.perform (I := iface) (Op.transfer p)
def dcsRead (cmd : BitVec 8) (len : Nat) : Code (Except Errno (List (BitVec 8))) :=
  Prog.perform (I := iface) (Op.dcsRead cmd len)
def regulatorEnable (l : List Supply) : Code Ret := Prog.perform (I := iface) (Op.regulatorEnable l)
def regulatorDisable (l : List Supply) : Code Unit :=
  Prog.perform (I := iface) (Op.regulatorDisable l)
def setReset (value : Bool) : Code Unit := Prog.perform (I := iface) (Op.setReset value)

/-- The first error: `if (!ret) ret = tmp`. -/
def firstError : Ret → Ret → Ret
  | .ok (), tmp => tmp
  | .error e, _ => .error e

/-! ## Constants and sequences -/

def maxBrightness : BitVec 16 := 0x07ff
def fodBrightness : BitVec 16 := 1623
def fodWatchdogMs : Nat := 15000

def epipe : Errno := ⟨32, by decide⟩

/-- DCS 0x53, the dimming control, and 0x51, the brightness. -/
def dimming : BitVec 8 := 0x53
def brightness : BitVec 8 := 0x51

/-- The two parameters of a brightness, high byte first. -/
def brightnessParams (v : BitVec 16) : List (BitVec 8) := [(v >>> 8).setWidth 8, v.setWidth 8]

/-- 0x53 in the fingerprint's high-brightness mode, and in normal mode. -/
def hbmDimming : List (BitVec 8) := [0xe0]
def normalDimming : List (BitVec 8) := [0x28]

def level0Unlock : Packet := .dcs 0xf0 [0x5a, 0x5a]
def level0Lock : Packet := .dcs 0xf0 [0xa5, 0xa5]
def level1Unlock : Packet := .dcs 0xf1 [0x5a, 0x5a]
def level1Lock : Packet := .dcs 0xf1 [0xa5, 0xa5]

/-- One indirect register access: 0xc1, 0xb0, 0xc0. -/
def gpara (value high low : BitVec 8) : List Packet :=
  [.dcs 0xc1 [value], .dcs 0xb0 [0x03], .dcs 0xc0 [0x0f, 0x00, 0x00, 0x00, high, low, 0x81]]

/-- Packets between both keys. -/
def underKeys (l : List Packet) : List Packet :=
  [level0Unlock, level1Unlock] ++ l ++ [level0Lock, level1Lock]

/-- Packets under the level-0 key. -/
def underKey (l : List Packet) : List Packet := [level0Unlock] ++ l ++ [level0Lock]

def slewBoosting (value : BitVec 8) : List Packet :=
  underKeys (gpara value 0x13 0x4f ++ gpara value 0x13 0x62 ++ gpara value 0x13 0x75 ++
    gpara value 0x13 0x88)

/-- `ana38407_on` up to sleep out. -/
def powerOnPreSetting : List Packet :=
  slewBoosting 0x2a ++ underKeys (gpara 0x00 0x14 0x35 ++ gpara 0x23 0x01 0x04) ++ [.dcs 0x11 []]

/-- `ana38407_on` after the identification reads. -/
def powerOnSetting (userBrightness : BitVec 16) : List Packet :=
  underKeys (gpara 0x23 0x09 0xb2) ++
  underKeys (gpara 0x02 0x14 0x46 ++ gpara 0x13 0x08 0xcf ++ gpara 0x05 0x09 0xcd) ++
  underKey [.dcs 0x35 [0x00]] ++
  underKey [.dcs 0xb0 [0x0b, 0xb9], .dcs 0xb9 [0xcc]] ++
  underKey [.compressionMode true, .pictureParameterSet] ++
  [.dcs 0x91 [0x02]] ++
  underKey [.dcs dimming normalDimming, .dcs brightness (brightnessParams userBrightness)] ++
  underKey [.dcs 0xc3 [0x02]] ++
  slewBoosting 0x2e

def enterFod : List Packet :=
  underKey [.dcs dimming hbmDimming, .dcs brightness (brightnessParams fodBrightness),
    .dcs 0xb0 [0x0a, 0xe0],
    .dcs 0xe0 [0x3c, 0xfd, 0xff, 0x15, 0x00, 0x00, 0x66, 0xcc, 0x00, 0xff, 0x12]]

def leaveFod (userBrightness : BitVec 16) : List Packet :=
  underKey [.dcs dimming normalDimming, .dcs brightness (brightnessParams userBrightness)]

/-! ## Fingerprint mode and brightness -/

/-- The packets of one `mipi_dsi_multi_context`: after an error the others are skipped. -/
def multi : Ret → List Packet → Code Ret
  | .error e, _ => return .error e
  | .ok (), [] => return .ok ()
  | .ok (), p :: rest => do multi (← transfer p) rest

def writeBrightnessLocked (v : BitVec 16) : Code Ret := transfer (.dcs brightness (brightnessParams v))

def writeFodLocked (enable : Bool) : Code Ret := do
  let userBrightness := (← load).userBrightness
  multi (.ok ()) (if enable then enterFod else leaveFod userBrightness)

def writeFodCircleLocked (enable : Bool) : Code Ret := do
  let ret ← multi (.ok ())
    [.generic [0xf1, 0x5a, 0x5a], .generic [0x7a, 0x05, 0x00, 0x00, if enable then 0x00 else 0x02]]
  let lockRet ← transfer (.generic [0xf1, 0xa5, 0xa5])
  return firstError ret lockRet

def Ctx.setFodMode (b : Bool) (c : Ctx) : Ctx := { c with fodMode := b }
def Ctx.setFodCircle (b : Bool) (c : Ctx) : Ctx := { c with fodCircle := b }
def Ctx.setEnabled (b : Bool) (c : Ctx) : Ctx := { c with enabled := b }
def Ctx.setPrepared (b : Bool) (c : Ctx) : Ctx := { c with prepared := b }

/-- `mod_delayed_work` and `cancel_delayed_work` of the watchdog. -/
def Ctx.setWatchdog (d : Option Nat) (c : Ctx) : Ctx := { c with fodWatchdog := d }

def leaveCircle : Code Ret := do
  if (← load).fodCircle then
    let tmp ← writeFodCircleLocked false
    store (Ctx.setFodCircle false)
    return tmp
  return .ok ()

def leaveMode : Code Ret := do
  if (← load).fodMode then
    let tmp ← writeFodLocked false
    store (Ctx.setFodMode false)
    return tmp
  return .ok ()

def fodCleanupLocked : Code Ret := do
  let ret ← leaveCircle
  let tmp ← leaveMode
  return firstError ret tmp

-- The result of the cleanup is only logged.
def fodWatchdogWork : Code Unit := do
  let ctx ← load
  if ctx.prepared && ctx.enabled then
    let _ ← fodCleanupLocked
  else
    store (Ctx.setFodCircle false)
    store (Ctx.setFodMode false)

def updateFodWatchdogLocked : Code Unit := do
  let ctx ← load
  if ctx.fodMode || ctx.fodCircle then
    store (Ctx.setWatchdog (some fodWatchdogMs))
  else
    store (Ctx.setWatchdog none)

/-! ## The DRM callbacks -/

def powerOn : Code Ret := do
  match ← regulatorEnable [.vddio] with
  | .error e => return .error e
  | .ok () =>
    match ← regulatorEnable [.vdd, .vci, .avdd] with
    | .error e =>
      regulatorDisable [.vddio]
      return .error e
    | .ok () => return .ok ()

def allSupplies : List Supply := [.vddio, .vdd, .vci, .avdd]

def resetPanel : Code Unit := do
  setReset true
  setReset false
  setReset true

-- A failed read leaves the zeroed buffer as it is.
def readId (cmd : BitVec 8) : Code (BitVec 8) := do
  match ← dcsRead cmd 1 with
  | .ok (b :: _) => return b
  | _ => return 0

/-- Bytes 4..10 of the module info, then 0..3; the driver keeps them in hexadecimal. -/
def cellIdOf (info : Except Errno (List (BitVec 8))) : List (BitVec 8) :=
  match info with
  | .ok info => if info.length = 11 then info.drop 4 ++ info.take 4 else []
  | .error _ => []

/-- `ana38407_on`. The reads are made whether or not a write has failed before them. -/
def on : Code Ret := do
  let err ← multi (.ok ()) powerOnPreSetting
  let id0 ← readId 0xda
  let id1 ← readId 0xdb
  let id2 ← readId 0xdc
  store fun c => { c with id := [id0, id1, id2] }
  let err ← multi err [level0Unlock]
  let moduleInfo ← dcsRead 0xa1 11
  let err ← multi err [level0Lock]
  store fun c => { c with cellId := cellIdOf moduleInfo }
  let userBrightness := (← load).userBrightness
  multi err (powerOnSetting userBrightness)

def prepare : Code Ret := do
  if (← load).prepared then
    return .ok ()
  match ← powerOn with
  | .error e => return .error e
  | .ok () =>
    resetPanel
    match ← on with
    | .error e =>
      setReset false
      regulatorDisable allSupplies
      return .error e
    | .ok () =>
      store (Ctx.setPrepared true)
      return .ok ()

/-- DCS 0x29, display on, under the level-0 key. -/
def displayOn : List Packet := underKey [.dcs 0x29 []]

def enable : Code Ret := do
  let ctx ← load
  if ¬ ctx.prepared then
    return .error epipe
  if ctx.enabled then
    return .ok ()
  match ← multi (.ok ()) displayOn with
  | .error e => return .error e
  | .ok () =>
    store (Ctx.setEnabled true)
    return .ok ()

def cancelWatchdog : Code Unit := store (Ctx.setWatchdog none)

/-- `ret ?: cleanup_ret`, for what a function does while it holds the lock; the watchdog is cancelled
after it. -/
def disableLocked : Code Ret := do
  if ¬ (← load).enabled then
    return .ok ()
  let cleanupRet ← fodCleanupLocked
  let ret ← multi (.ok ()) [.dcs 0x28 []]
  store (Ctx.setEnabled false)
  return firstError ret cleanupRet

def disable : Code Ret := do
  let ret ← disableLocked
  cancelWatchdog
  return ret

def sleepIn : Code Ret := multi (.ok ()) [.dcs 0x10 []]

def unprepareLocked : Code Ret := do
  if ¬ (← load).prepared then
    return .ok ()
  let cleanupRet ← fodCleanupLocked
  let ret ← sleepIn
  store (Ctx.setEnabled false)
  store (Ctx.setPrepared false)
  setReset false
  regulatorDisable allSupplies
  return firstError ret cleanupRet

def unprepare : Code Ret := do
  let ret ← unprepareLocked
  cancelWatchdog
  return ret

/-! ## The backlight and the fingerprint controls -/

/-- `min_t(u16, value, ANA38407_MAX_BRIGHTNESS)`: the value is cut to 16 bits first. -/
def clampBrightness (value : Nat) : BitVec 16 :=
  if BitVec.ofNat 16 value < maxBrightness then BitVec.ofNat 16 value else maxBrightness

/-- `value` is what `backlight_get_brightness` returns. -/
def blUpdate (value : Nat) : Code Ret := do
  let v := clampBrightness value
  store fun c => { c with userBrightness := v }
  let ctx ← load
  if ctx.prepared && !ctx.fodMode then
    writeBrightnessLocked v
  else
    return .ok ()

/-- `fod_mode_store`; `parsed` is what `kstrtobool` makes of the text. -/
def fodModeStore (parsed : Except Errno Bool) : Code Ret := do
  match parsed with
  | .error e => return .error e
  | .ok enable =>
    let ctx ← load
    if ¬ (ctx.prepared && ctx.enabled) then
      return .error epipe
    if ctx.fodMode = enable then
      updateFodWatchdogLocked
      return .ok ()
    if enable then
      match ← writeFodLocked true with
      | .error e =>
        let _ ← writeFodLocked false
        return .error e
      | .ok () =>
        store (Ctx.setFodMode true)
        updateFodWatchdogLocked
        return .ok ()
    else
      let ret ← fodCleanupLocked
      updateFodWatchdogLocked
      return ret

def fodCircleStore (parsed : Except Errno Bool) : Code Ret := do
  match parsed with
  | .error e => return .error e
  | .ok enable =>
    let ctx ← load
    if ¬ (ctx.prepared && ctx.enabled) then
      return .error epipe
    if enable && !ctx.fodMode then
      return .error .einval
    if ctx.fodCircle = enable then
      updateFodWatchdogLocked
      return .ok ()
    match ← writeFodCircleLocked enable with
    | .ok () =>
      store (Ctx.setFodCircle enable)
      updateFodWatchdogLocked
      return .ok ()
    | .error e =>
      if enable then
        let _ ← writeFodCircleLocked false
      updateFodWatchdogLocked
      return .error e

/-! ## Steps -/

/-- What can happen to the driver. -/
inductive Call
  | prepare | enable | disable | unprepare
  | fodModeStore (parsed : Except Errno Bool)
  | fodCircleStore (parsed : Except Errno Bool)
  | blUpdate (value : Nat)
  | fodWatchdog

/-- Only a pending watchdog expires, and it is no longer pending when its work runs. -/
def Call.code : Call → Code Unit
  | .prepare => do let _ ← Panel.prepare
  | .enable => do let _ ← Panel.enable
  | .disable => do let _ ← Panel.disable
  | .unprepare => do let _ ← Panel.unprepare
  | .fodModeStore parsed => do let _ ← Panel.fodModeStore parsed
  | .fodCircleStore parsed => do let _ ← Panel.fodCircleStore parsed
  | .blUpdate value => do let _ ← Panel.blUpdate value
  | .fodWatchdog => do
    if (← load).fodWatchdog.isSome then
      cancelWatchdog
      fodWatchdogWork

/-- One step of a run: a call, with what its operations meet. -/
structure Step where
  call : Call
  inputs : Nat → Input

def step (l : Step) (s : State) : State := (l.call.code.run panel l.inputs s).2

def Step.trace (l : Step) (s : State) : List (Event panel) := l.call.code.trace panel l.inputs s

/-- The driver as probed, over a panel that is off. -/
def State.probed : State where
  ctx :=
    { userBrightness := maxBrightness, prepared := false, enabled := false, fodMode := false
      fodCircle := false, fodWatchdog := none, id := [0, 0, 0], cellId := [] }
  regs _ := []
  supplies _ := 0
  reset := true

end Gts9Wifi.Panel
