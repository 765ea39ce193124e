import Mathlib.Logic.Function.Basic
import Gts9Wifi.Lib.Kernel
import Gts9Wifi.Lib.Interleave

/-!
# The SM5714 USB-PD controller

`sm5714_usbpd.c`: the callbacks of the port manager and the interrupt thread. What runs under `lock`
is one section, and everything else is interrupted between any two operations. Status registers show
what the port sees, so they read as the environment says; control registers read as they were
written. The charger's `set_otg` is another driver, and its answer is the environment's as well.
Reading callbacks, initialisation, the resynchronising work and log lines are left out.
-/

namespace Gts9Wifi.Typec.Sm5714Usbpd

open Driver

inductive Polarity
  | cc1 | cc2
deriving DecidableEq

/-- `enum typec_cc_status`. -/
inductive CcStatus
  | opened | ra | rd | rpDef | rp15 | rp30
deriving DecidableEq

inductive PortType
  | src | snk | drp
deriving DecidableEq

/-- `enum tcpm_transmit_type`, as far as it is received. -/
inductive Sop
  | base | prime | primePrime
deriving DecidableEq

inductive TransmitType
  | message (sop : Sop)
  | hardReset
  | other
deriving DecidableEq

inductive TransmitStatus
  | success | discarded | failed
deriving DecidableEq

/-- What the port manager is told. -/
inductive TcpmEvent
  | pdReceive (header : BitVec 16) (payload : List (BitVec 8)) (sop : Sop)
  | transmitComplete (status : TransmitStatus)
  | hardReset
  | ccChange
  | vbusChange

/-- `struct sm5714_usbpd`, and whether it has the OTG-detect line. -/
structure Ctx where
  otgDetGpio : Bool
  polarity : Polarity
  prSwapSrcToSnk : Bool
  prSwapSnkToSrc : Bool

structure State where
  ctx : Ctx
  regs : BitVec 8 → BitVec 8

/-! ## Registers -/

def regInt1 : BitVec 8 := 0x01
def regCcStatus : BitVec 8 := 0x28
def ccAttachMask : BitVec 8 := 0x07
def ccAttachSource : BitVec 8 := 1
def ccAttachSink : BitVec 8 := 2
def regCcCntl1 : BitVec 8 := 0x29
def regCcCntl3 : BitVec 8 := 0x2b
def regCcCntl5 : BitVec 8 := 0x2d
def regCcCntl7 : BitVec 8 := 0x2f
def regPdCntl1 : BitVec 8 := 0x38
def regPdCntl2 : BitVec 8 := 0x39
def regPdCntl4 : BitVec 8 := 0x3b
def pdHardReset : BitVec 8 := 0x04
def regRxSrc : BitVec 8 := 0x41
def regRxHeader : BitVec 8 := 0x42
def regRxPayload : BitVec 8 := 0x44
def regRxBuf : BitVec 8 := 0x5e
def regTxHeader : BitVec 8 := 0x60
def regTxPayload : BitVec 8 := 0x62
def regTxReq : BitVec 8 := 0x7e

/-- `GENMASK(5, 4)` of `CC_CNTL3`. -/
def ccHoldMask : BitVec 8 := 0x30

/-- The registers that the environment drives. -/
def isStatus (reg : BitVec 8) : Bool := reg = regCcStatus || reg = regRxSrc

/-! ## Operations -/

inductive Op
  | load
  | store (f : Ctx → Ctx)
  | regmapRead (reg : BitVec 8)
  | regmapWrite (reg value : BitVec 8)
  | regmapUpdateBits (reg mask value : BitVec 8)
  | regmapBulkRead (reg : BitVec 8) (len : Nat)
  | regmapBulkWrite (reg : BitVec 8) (data : List (BitVec 8))
  | setOtgDet (value : Bool)
  | modOtgDetWork (ms : Nat)
  | cancelOtgDetWork
  | batterySetOtg (active : Bool)
  | tcpm (e : TcpmEvent)

def Op.Ans : Op → Type
  | .load => Ctx
  | .store _ | .setOtgDet _ | .modOtgDetWork _ | .cancelOtgDetWork | .tcpm _ => Unit
  | .regmapWrite _ _ | .regmapUpdateBits _ _ _ | .regmapBulkWrite _ _ | .batterySetOtg _ =>
    Except Errno Unit
  | .regmapRead _ => Except Errno (BitVec 8)
  | .regmapBulkRead _ _ => Except Errno (Nat → BitVec 8)

abbrev iface : Iface := ⟨Op, Op.Ans⟩

/-- What the environment decides about one operation: whether it fails, and what is read. -/
structure Input where
  fault : Option Errno := none
  value : BitVec 8 := 0
  data : Nat → BitVec 8 := fun _ => 0

def Input.answer {α : Type} (i : Input) (a : α) : Except Errno α :=
  match i.fault with
  | some e => .error e
  | none => .ok a

def State.setCtx (s : State) (f : Ctx → Ctx) : State := { s with ctx := f s.ctx }

def State.write (s : State) (reg value : BitVec 8) : State :=
  { s with regs := Function.update s.regs reg value }

/-- A block of registers from `reg` on. -/
def State.writeAll (s : State) (reg : BitVec 8) (data : List (BitVec 8)) : State :=
  { s with regs := fun r => if reg ≤ r then (data[(r - reg).toNat]?).getD (s.regs r) else s.regs r }

def handle : (o : Op) → Input → State → o.Ans × State
  | .load, _, s => (s.ctx, s)
  | .store f, _, s => ((), s.setCtx f)
  | .regmapRead reg, i, s => (i.answer (if isStatus reg then i.value else s.regs reg), s)
  | .regmapWrite reg value, i, s =>
    match i.fault with
    | some e => (.error e, s)
    | none => (.ok (), s.write reg value)
  | .regmapUpdateBits reg mask value, i, s =>
    match i.fault with
    | some e => (.error e, s)
    | none => (.ok (), s.write reg (maskedUpdate mask value (s.regs reg)))
  | .regmapBulkRead _ _, i, s => (i.answer i.data, s)
  | .regmapBulkWrite reg data, i, s =>
    match i.fault with
    | some e => (.error e, s)
    | none => (.ok (), s.writeAll reg data)
  | .batterySetOtg _, i, s => (i.answer (), s)
  | .setOtgDet _, _, s | .modOtgDetWork _, _, s | .cancelOtgDetWork, _, s | .tcpm _, _, s => ((), s)

/-- The controller as a world. -/
abbrev chip : World iface := ⟨State, Input, handle⟩

abbrev Code (α : Type) := ExceptT Errno (Prog iface) α

/-- The `int` of a C function: zero, or an error. -/
abbrev Ret := Except Errno Unit

abbrev Task (α : Type) := Thread chip α

def load : Code Ctx := ExceptT.lift (Prog.perform (I := iface) Op.load)
def store (f : Ctx → Ctx) : Code Unit := ExceptT.lift (Prog.perform (I := iface) (Op.store f))
def regmapRead (reg : BitVec 8) : Code (BitVec 8) :=
  ExceptT.mk (Prog.perform (I := iface) (Op.regmapRead reg))
def regmapWrite (reg value : BitVec 8) : Code Unit :=
  ExceptT.mk (Prog.perform (I := iface) (Op.regmapWrite reg value))
def regmapUpdateBits (reg mask value : BitVec 8) : Code Unit :=
  ExceptT.mk (Prog.perform (I := iface) (Op.regmapUpdateBits reg mask value))
def regmapBulkRead (reg : BitVec 8) (len : Nat) : Code (Nat → BitVec 8) :=
  ExceptT.mk (Prog.perform (I := iface) (Op.regmapBulkRead reg len))
def regmapBulkWrite (reg : BitVec 8) (data : List (BitVec 8)) : Code Unit :=
  ExceptT.mk (Prog.perform (I := iface) (Op.regmapBulkWrite reg data))
def setOtgDet (value : Bool) : Code Unit :=
  ExceptT.lift (Prog.perform (I := iface) (Op.setOtgDet value))
def modOtgDetWork (ms : Nat) : Code Unit :=
  ExceptT.lift (Prog.perform (I := iface) (Op.modOtgDetWork ms))
def cancelOtgDetWork : Code Unit := ExceptT.lift (Prog.perform (I := iface) Op.cancelOtgDetWork)
def batterySetOtg (active : Bool) : Code Unit :=
  ExceptT.mk (Prog.perform (I := iface) (Op.batterySetOtg active))
def tcpm (e : TcpmEvent) : Code Unit := ExceptT.lift (Prog.perform (I := iface) (Op.tcpm e))

/-- An `if` without an `else`. -/
def onlyIf (c : Prop) [Decidable c] (x : Code Unit) : Code Unit := if c then x else pure ()

def Ctx.clearSwap (sm : Ctx) : Ctx := { sm with prSwapSrcToSnk := false, prSwapSnkToSrc := false }

/-- `sm5714_usbpd_set_cc_hold`. -/
def setCcHold (hold : BitVec 8) : Code Unit := regmapUpdateBits regCcCntl3 ccHoldMask hold

/-! ## Configuration channel -/

/-- The in-place swap: bit 0 of `CC_CNTL7` toggles. -/
def togglePull : Code Unit := do
  let role ← regmapRead regCcCntl7
  regmapWrite regCcCntl7 (role ^^^ 1)

def setCcOpen : Code Unit := do
  store Ctx.clearSwap
  let _ ← attempt (setCcHold 0)
  regmapWrite regCcCntl3 0x88

def setCcRd : Code Unit := do
  let status ← regmapRead regCcStatus
  if status &&& ccAttachMask = ccAttachSource then return
  else do
    let sm ← load
    if sm.prSwapSrcToSnk then
      setCcHold 0x10
      togglePull
    else
      regmapWrite regCcCntl1 0x45
      regmapWrite regCcCntl3 0x82

def setCcRp : Code Unit := do
  let status ← regmapRead regCcStatus
  if status &&& ccAttachMask = ccAttachSink then regmapUpdateBits regCcCntl1 0x30 0
  else do
    let sm ← load
    if sm.prSwapSnkToSrc then togglePull
    else
      regmapWrite regCcCntl1 0x49
      regmapWrite regCcCntl3 0x81

/-- `sm5714_usbpd_set_cc`, all of it under the lock. -/
def setCc (cc : CcStatus) : Task Ret :=
  Thread.atomic (match cc with
    | .opened => setCcOpen
    | .rd => setCcRd
    | .rpDef | .rp15 | .rp30 => setCcRp
    | .ra => throw Errno.eopnotsupp).run

def toggleDrp : Code Unit := do
  store Ctx.clearSwap
  let _ ← attempt (setCcHold 0)
  regmapWrite regCcCntl1 0x40
  regmapWrite regCcCntl3 0x80

/-- `sm5714_usbpd_start_toggling`. -/
def startToggling (portType : PortType) (cc : CcStatus) : Task Ret :=
  match portType with
  | .src => setCc cc
  | .snk => setCc .rd
  | .drp => Thread.atomic toggleDrp.run

/-! ## VBUS -/

/-- A swap to source has ended. -/
def endSnkToSrc (on : Bool) : Code Unit := do
  if on then
    let sm ← load
    onlyIf sm.prSwapSnkToSrc (store fun sm => { sm with prSwapSnkToSrc := false })
  else return

/-- The end of the pulse on the OTG-detect line. -/
def endOtgDet : Code Unit := do
  cancelOtgDetWork
  let sm ← load
  onlyIf sm.otgDetGpio (setOtgDet false)

/-- What `set_vbus` does once the CC state is frozen, or need not be. -/
def switchVbus (on : Bool) : Code Unit := do
  let sm ← load
  onlyIf (on && sm.otgDetGpio) do
    setOtgDet true
    modOtgDetWork 130
  match ← attempt (batterySetOtg on) with
  | .ok () =>
    endSnkToSrc on
    onlyIf (!on) endOtgDet
  | .error e =>
    endOtgDet
    throw e

/-- `sm5714_usbpd_set_vbus`. The flag is tested before the lock is taken. -/
def setVbus (on : Bool) : Task Ret := do
  if on then Thread.interruptible (switchVbus on).run
  else
    let sm ← Thread.interruptible (Prog.perform (I := iface) Op.load)
    if sm.prSwapSrcToSnk then
      match ← Thread.atomic (setCcHold 0x20).run with
      | .error e => return .error e
      | .ok () => Thread.interruptible (switchVbus on).run
    else Thread.interruptible (switchVbus on).run

/-! ## Other callbacks -/

def setPolarity (polarity : Polarity) : Code Unit := store fun sm => { sm with polarity }

def setVconn (on : Bool) : Code Unit := do
  let sm ← load
  regmapWrite regCcCntl5 (if !on then 0x18 else if sm.polarity = .cc1 then 0x19 else 0x1a)

def setPdRx (on : Bool) : Code Unit := regmapWrite regPdCntl1 (if on then 0x08 else 0x00)

/-- `sm5714_usbpd_set_roles`. -/
def setRoles (source host : Bool) : Code Unit := do
  let val ← regmapRead regPdCntl2
  let val := if source then val ||| 0x02 else val &&& ~~~0x02
  regmapWrite regPdCntl2 (if host then val ||| 0x01 else val &&& ~~~0x01)

def pdHeaderCnt (header : BitVec 16) : Nat := ((header >>> 12) &&& 0x7).toNat
def pdHeaderType (header : BitVec 16) : BitVec 16 := header &&& 0x1f

def headerBytes (header : BitVec 16) : List (BitVec 8) := [header.setWidth 8, (header >>> 8).setWidth 8]

def Sop.request : Sop → BitVec 8
  | .base => 0x07
  | .prime => 0x17
  | .primePrime => 0x27

/-- `sm5714_usbpd_transmit`, under the lock. -/
def transmitLocked (type : TransmitType) (header : BitVec 16) (payload : List (BitVec 8)) : Code Unit :=
  match type with
  | .hardReset => regmapUpdateBits regPdCntl4 pdHardReset pdHardReset
  | .other => throw Errno.eopnotsupp
  | .message sop => do
    regmapBulkWrite regTxHeader (headerBytes header)
    if pdHeaderCnt header ≠ 0 then
      regmapBulkWrite regTxPayload (payload.take (pdHeaderCnt header * 4))
      regmapWrite regTxReq sop.request
    else regmapWrite regTxReq sop.request

/-! ## The interrupt thread -/

def pdCtrlPsRdy : BitVec 16 := 6
def pdCtrlPrSwap : BitVec 16 := 10
def pdMaxPayload : Nat := 7

/-- A control message of this type to the port itself. -/
def isControl (header : BitVec 16) (sop : Sop) (type : BitVec 16) : Bool :=
  sop = .base && pdHeaderCnt header = 0 && pdHeaderType header = type

/-- A swap begins. -/
def beginSwap : Code Unit := do
  match ← attempt (regmapRead regCcStatus) with
  | .error _ => return
  | .ok status =>
    if status &&& ccAttachMask = ccAttachSink then store fun sm => { sm with prSwapSrcToSnk := true }
    else if status &&& ccAttachMask = ccAttachSource then
      store fun sm => { sm with prSwapSnkToSrc := true }
    else return

/-- The partner's supply is ready: the hold is released. -/
def endSwap : Code Unit := do
  let sm ← load
  if sm.prSwapSrcToSnk then
    match ← attempt (setCcHold 0) with
    | .error _ => return
    | .ok () => store fun sm => { sm with prSwapSrcToSnk := false }
  else return

def sopOf (origin : BitVec 8) : Option Sop :=
  if origin &&& 0x0f = 0 then some .base
  else if origin &&& 0x0f = 1 then some .prime
  else if origin &&& 0x0f = 2 then some .primePrime
  else none

def readPayload (count : Nat) : Code (List (BitVec 8)) := do
  if count ≠ 0 then
    let data ← regmapBulkRead regRxPayload (count * 4)
    return (List.range (count * 4)).map data
  else return []

/-- `sm5714_usbpd_receive` between the header and the acknowledgement. -/
def deliver (header : BitVec 16) : Code Unit := do
  if pdHeaderCnt header > pdMaxPayload then return
  else do
    let payload ← readPayload (pdHeaderCnt header)
    let origin ← regmapRead regRxSrc
    match sopOf origin with
    | none => return
    | some sop =>
      onlyIf (isControl header sop pdCtrlPrSwap) beginSwap
      onlyIf (isControl header sop pdCtrlPsRdy) endSwap
      tcpm (.pdReceive header payload sop)

/-- `sm5714_usbpd_receive`. -/
def receive : Code Unit := do
  match ← attempt (regmapBulkRead regRxHeader 2) with
  | .error _ => return
  | .ok data =>
    let _ ← attempt (deliver (data 1 ++ data 0))
    let _ ← attempt (regmapWrite regRxBuf 0x80)
    return

/-- How a transmission ended, by the fourth interrupt register. -/
def completeTransmit (int4 : BitVec 8) : Code Unit :=
  if int4 &&& 0x02 ≠ 0 then tcpm (.transmitComplete .success)
  else if int4 &&& 0x80 ≠ 0 then tcpm (.transmitComplete .discarded)
  else onlyIf (int4 &&& 0x04 ≠ 0) (tcpm (.transmitComplete .failed))

/-- `sm5714_usbpd_irq` under the lock. It returns the pending interrupts. -/
def irqLocked : Code (Nat → BitVec 8) := do
  let intr ← regmapBulkRead regInt1 5
  onlyIf (intr 3 &&& 0x01 ≠ 0) receive
  completeTransmit (intr 3)
  onlyIf (intr 3 &&& 0x20 ≠ 0) (tcpm .hardReset)
  return intr

/-- The end of it, which is not. -/
def irqNotify (intr : Nat → BitVec 8) : Code Unit := do
  onlyIf (intr 0 &&& 0x18 ≠ 0 ∨ intr 1 &&& 0x10 ≠ 0) (tcpm .ccChange)
  onlyIf (intr 0 &&& 0x01 ≠ 0 ∨ intr 1 &&& 0x20 ≠ 0) (tcpm .vbusChange)

/-- `sm5714_usbpd_irq`. -/
def irq : Task Ret := do
  match ← Thread.atomic irqLocked.run with
  | .error e => return .error e
  | .ok intr => Thread.interruptible (irqNotify intr).run

/-! ## Threads -/

/-- The calls of the port manager, and an interrupt. -/
inductive Call
  | setCc (cc : CcStatus)
  | startToggling (portType : PortType) (cc : CcStatus)
  | setVbus (on : Bool)
  | setPolarity (polarity : Polarity)
  | setVconn (on : Bool)
  | setPdRx (on : Bool)
  | setRoles (source host : Bool)
  | transmit (type : TransmitType) (header : BitVec 16) (payload : List (BitVec 8))
  | irq

def Call.task : Call → Task Ret
  | .setCc cc => Sm5714Usbpd.setCc cc
  | .startToggling portType cc => Sm5714Usbpd.startToggling portType cc
  | .setVbus on => Sm5714Usbpd.setVbus on
  | .setPolarity polarity => Thread.interruptible (Sm5714Usbpd.setPolarity polarity).run
  | .setVconn on => Thread.interruptible (Sm5714Usbpd.setVconn on).run
  | .setPdRx on => Thread.interruptible (Sm5714Usbpd.setPdRx on).run
  | .setRoles source host => Thread.interruptible (Sm5714Usbpd.setRoles source host).run
  | .transmit type header payload => Thread.atomic (transmitLocked type header payload).run
  | .irq => Sm5714Usbpd.irq

/-- The thread that makes a call. -/
def Call.thread (c : Call) : Task Unit := do
  let _ ← c.task
  return

end Gts9Wifi.Typec.Sm5714Usbpd
