import Gts9Wifi.Charger.Board

/-!
# The SM5714 charger driver

`sm5714_battery.c`, function by function. What runs under `chg_lock` is one section of a `Task`;
`sm5714_global_lock` is a mutex in memory that a section waits for; everything else is interruptible
between any two operations. `Thread.seq` of a task is the call on its own.
-/

namespace Gts9Wifi.Charger

open Driver

/-- A call into the SM5714 driver, cut where another thread can run. -/
abbrev Task (α : Type) := Thread board α

namespace Sm5714

/-! ## Bits and constants -/

def status1VbusPok : BitVec 8 := 0x01
def status2ChgOn : BitVec 8 := 0x08
def status2Topoff : BitVec 8 := 0x20
def cntl1Enq4fet : BitVec 8 := 0x08
def cntl2ModeMask : BitVec 8 := 0x0f
def cntl2Charging : BitVec 8 := 0x05
def cntl2UsbOtg : BitVec 8 := 0x07
def batregMask : BitVec 8 := 0x3f
def bstcntl1OtgMask : BitVec 8 := 0xcf
def bstcntl15v1900ma : BitVec 8 := 0x46
def muicBc12off : BitVec 8 := 0x02
def manualSwManual : BitVec 8 := 0x80
def manualSwPathMask : BitVec 8 := 0x3f
def manualSwUsb : BitVec 8 := 0x09
def typeDcdOutSdp : BitVec 8 := 0x01
def typeSdp : BitVec 8 := 0x02
def typeDcp : BitVec 8 := 0x04
def typeCdp : BitVec 8 := 0x08
def typeU200 : BitVec 8 := 0x10
def typeAfc : BitVec 8 := 0x20
def typeQc20 : BitVec 8 := 0x40
def typeLoTa : BitVec 8 := 0x80
def capacityPollDivider : Nat := 10

/-! ## Register helpers -/

def chgUpdateBits (reg : ChgReg) (mask val : BitVec 8) : Fallible Unit := do
  let old ← chgRead reg
  let new := maskedUpdate mask val old
  if new = old then
    return ()
  chgWrite reg new

-- The vendor encoding: 50 mV steps, two 100 mV steps, then 10 mV steps; 4.2 V when out of range.
def batregOffset (uv : Nat) : BitVec 8 :=
  let mv := uv / 1000
  if mv ≤ 3700 then 0x00
  else if mv < 3900 then BitVec.ofNat 8 ((mv - 3700) / 50)
  else if mv < 4050 then BitVec.ofNat 8 ((mv - 3900) / 100 + 4)
  else if mv < 4630 then BitVec.ofNat 8 ((mv - 4050) / 10 + 6)
  else 0x15

def setFloatVoltage : Fallible Unit := do
  let sm := (← load).bat
  if sm.floatUv = 0 then
    return ()
  chgUpdateBits .chgcntl4 batregMask (batregOffset sm.floatUv)

/-- Route the data lines to the SoC for OTG, or hand the switch back to the MUIC's own detector. -/
def muicSetOtgPath (active : Bool) : Fallible Unit := do
  if active then
    let oldCntl ← muicRead .cntl
    muicWrite .cntl (oldCntl ||| muicBc12off)
    let ret ← attempt do
      let old ← muicRead .manualSw
      muicWrite .manualSw
        ((old &&& ~~~(manualSwManual ||| manualSwPathMask)) ||| manualSwManual ||| manualSwUsb)
    match ret with
    | .ok () => return ()
    | .error e =>
      -- restore_bc12: the result of this write is ignored
      let _ ← attempt (muicWrite .cntl oldCntl)
      throw e
  else
    let old ← muicRead .manualSw
    muicWrite .manualSw (old &&& ~~~(manualSwManual ||| manualSwPathMask))
    let old ← muicRead .cntl
    muicWrite .cntl (old &&& ~~~muicBc12off)

/-! ## Measurements -/

def getOnlineRaw : Fallible Bool := do
  let st1 ← chgRead .status1
  return st1 &&& status1VbusPok ≠ 0

def getOnline : Fallible Bool := do
  if (← load).bat.otgActive then
    return false
  getOnlineRaw

def getUsbType : Fallible UsbType := do
  let online ← getOnline
  if ¬ online then
    return .unknown
  if (← load).bat.typecMv > 5000 then
    return .pd
  let type ← muicRead .deviceType1
  if type &&& typeCdp ≠ 0 then
    return .cdp
  if type &&& (typeSdp ||| typeDcdOutSdp) ≠ 0 then
    return .sdp
  if type &&& (typeDcp ||| typeU200 ||| typeAfc ||| typeQc20 ||| typeLoTa) ≠ 0 then
    return .dcp
  return .unknown

def fgReadSram (addr : FgSram) : Fallible (BitVec 16) := do
  fgWriteAddr addr
  fgReadData addr

-- State of charge is an unsigned Q8.8 percentage.
def capacityOf (raw : BitVec 16) : Int :=
  min (((raw.toNat * 10) / 256) / 10) 100

def getCapacity : Fallible Int := do
  return capacityOf (← fgReadSram .soc)

/-- The pack thermistor's reading in tenths of a degree, if it is plausible. -/
def thermistorTemp (mc : Int) : Option Int :=
  let temp := divRoundClosest mc 100
  if -200 ≤ temp ∧ temp ≤ 900 then some temp else none

/-- The fuel gauge's die temperature in tenths of a degree. -/
def sramTemp (raw : BitVec 16) : Int :=
  let temp : Int := (((raw &&& 0x7fff).toNat * 10) * 2989) / 2 ^ 11 / 2 ^ 8
  if raw &&& 0x8000 ≠ 0 then -temp else temp

def getTemp : Fallible Int := do
  if (← load).bat.hasBatteryTemp then
    match ← attempt iioRead with
    | .ok mc =>
      match thermistorTemp mc with
      | some temp => return temp
      | none => return sramTemp (← fgReadSram .temperature)
    | .error _ => return sramTemp (← fgReadSram .temperature)
  else
    return sramTemp (← fgReadSram .temperature)

def getStatus : Fallible PsyStatus := do
  if (← load).bat.otgActive then
    return .discharging
  let st1 ← chgRead .status1
  let st2 ← chgRead .status2
  if st2 &&& status2Topoff ≠ 0 then
    return .full
  if (← load).bat.directCharging ∧ st1 &&& status1VbusPok ≠ 0 then
    return .charging
  if st2 &&& status2ChgOn ≠ 0 then
    return .charging
  if st1 &&& status1VbusPok ≠ 0 then
    return .notCharging
  return .discharging

/-! ## Charging policy -/

-- `ma - 100` is unsigned: below 100 mA it wraps and the clamp makes it the largest code.
def inputCurrentReg (ma : Nat) : BitVec 8 :=
  BitVec.ofNat 8 (min ((ma + 2 ^ 32 - 100) % 2 ^ 32 / 25) 0x7f)

def fastCurrentReg (ma : Nat) : BitVec 8 :=
  let ua := ma * 1000 % 2 ^ 32
  if ua ≤ 109375 then 0x07
  else BitVec.ofNat 8 (min (max (7 + (ua - 109375) / 15625) 0x07) 0xe0)

/-- 50.0 C stops charging, 46.0 C reduces it; a stop recovers below 46.0 C, full current returns at
42.0 C or below. -/
def chargeThermalState (old : ThermalState) (temp : Int) : ThermalState :=
  if old = .stop ∧ temp ≥ 460 then .stop
  else if old = .stop ∧ temp > 420 then .reduced
  else if old = .reduced ∧ temp > 420 then
    if temp ≥ 500 then .stop else .reduced
  else if temp ≥ 500 then .stop
  else if temp ≥ 460 then .reduced
  else .normal

/-- The input and fast-charge currents `sm5714_configure_charging` decides on. -/
def chargeCurrents (typecMv typecMa : Nat) (usbType : UsbType) (fastCharge : Bool)
    (thermal : ThermalState) : Nat × Nat :=
  let (inputMa, fastMa) :=
    if typecMv ≥ 5000 ∧ typecMa ≥ 500 then
      if fastCharge then (min typecMa 3000, 3150)
      else (min typecMa (if typecMv > 5000 then 1660 else 3000), 2800)
    else match usbType with
      | .dcp => (1800, 2100)
      | .cdp => (1500, 1500)
      | _ => (500, 500)
  (inputMa, if thermal = .reduced then min fastMa 2100 else fastMa)

def Battery.setThermal (t : ThermalState) (m : Mem) : Mem :=
  { m with bat := { m.bat with thermalState := t } }

/-- Take a temperature sample, if one can be read, and move the thermal state. -/
def sampleThermal : Fallible ThermalState := do
  let old := (← load).bat.thermalState
  match ← attempt getTemp with
  | .ok temp =>
    let thermal := chargeThermalState (← load).bat.thermalState temp
    store (Battery.setThermal thermal)
    return thermal
  | .error _ => return old

/-- The body of `sm5714_configure_charging`, all of it under `chg_lock`. -/
def configureCharging : Fallible Unit := do
  let sm := (← load).bat
  if sm.otgActive then
    throw .ebusy
  let usbType ← getUsbType
  let thermal ← sampleThermal
  if thermal = .stop then
    chgUpdateBits .cntl1 cntl1Enq4fet 0
  else
    let (inputMa, fastMa) :=
      chargeCurrents sm.typecMv sm.typecMa usbType (← load).bat.fastCharge thermal
    -- lower the input limit before closing Q4, then restore it
    chgWrite .vbuscntl (inputCurrentReg 500)
    chgWrite .chgcntl2 (fastCurrentReg fastMa)
    setFloatVoltage
    chgUpdateBits .cntl1 cntl1Enq4fet cntl1Enq4fet
    chgWrite .vbuscntl (inputCurrentReg inputMa)

/-! ## Entry points -/

def setGlobalLock (b : Bool) (m : Mem) : Mem := { m with globalLock := b }

def lockGlobal : Task Unit :=
  Thread.await (fun s => ! s.mem.globalLock) (store (setGlobalLock true))

def unlockGlobal : Task Unit := Thread.atomic (store (setGlobalLock false))

def Battery.setTypec (mv ma : Nat) (m : Mem) : Mem :=
  { m with bat := { m.bat with typecMv := mv, typecMa := ma } }

def setPdContractLocked (mv ma : Nat) : Task (Except Errno Unit) := do
  if ¬ (← Thread.interruptible load).primary then
    return .error .eprobeDefer
  Thread.interruptible (store (Battery.setTypec mv ma))
  if mv = 0 ∨ ma = 0 then
    return .ok ()
  if ¬ (← Thread.interruptible getOnline.run) matches .ok true then
    return .ok ()
  if (← Thread.interruptible load).bat.directCharging then
    return .ok ()
  Thread.atomic configureCharging.run

/-- The range check at the top of `sm5714_battery_set_pd_contract`. -/
def contractInRange (mv ma : Nat) : Bool :=
  ! (decide (mv ≠ 0 ∧ (mv < 5000 ∨ mv > 9000)) || decide (ma > 3000))

def setPdContract (mv ma : Nat) : Task (Except Errno Unit) := do
  if ¬ contractInRange mv ma then
    return .error .erange
  lockGlobal
  let ret ← setPdContractLocked mv ma
  unlockGlobal
  return ret

def setNegotiated (mv ma : Nat) (m : Mem) : Mem := { m with negotiatedMv := mv, negotiatedMa := ma }

/-- `sm5714_usbpd_set_current_limit`, through which TCPM reports a contract. -/
def setCurrentLimit (maxMa mv : Nat) : Task (Except Errno Unit) := do
  match ← setPdContract mv maxMa with
  | .error e => return .error e
  | .ok () =>
    Thread.interruptible (store (setNegotiated mv maxMa))
    return .ok ()

def Battery.setDirect (b : Bool) (m : Mem) : Mem :=
  { m with bat := { m.bat with directCharging := b } }

def grantDirectCharge : Task (Except Errno Unit) := do
  match ← Thread.interruptible getTemp.run with
  | .error e => return .error e
  | .ok temp =>
    if temp < 100 ∨ temp ≥ 420 then
      return .error .erange
    Thread.interruptible (store (Battery.setDirect true))
    match ← Thread.atomic (chgUpdateBits .cntl1 cntl1Enq4fet 0).run with
    | .ok () => return .ok ()
    | .error e =>
      Thread.interruptible (store (Battery.setDirect false))
      return .error e

def revokeDirectCharge : Task (Except Errno Unit) := do
  Thread.interruptible (store (Battery.setDirect false))
  if (← Thread.interruptible getOnline.run) matches .ok true then
    Thread.atomic configureCharging.run
  else
    return .ok ()

def setDirectChargeLocked (active : Bool) : Task (Except Errno Unit) := do
  if ¬ (← Thread.interruptible load).primary then
    return .error .eprobeDefer
  if active then grantDirectCharge else revokeDirectCharge

def setDirectCharge (active : Bool) : Task (Except Errno Unit) := do
  Thread.interruptible (enter (.setDirectCharge active))
  lockGlobal
  let ret ← setDirectChargeLocked active
  unlockGlobal
  return ret

def Battery.setOtgActive (b : Bool) (m : Mem) : Mem :=
  { m with bat := { m.bat with otgActive := b } }

/-- The five steps that bring the boost up; a failure hands the MUIC back. -/
def otgEnableSection : Fallible Unit := do
  let ret ← attempt do
    muicSetOtgPath true
    chgUpdateBits .cntl1 cntl1Enq4fet 0
    chgUpdateBits .bstcntl1 bstcntl1OtgMask bstcntl15v1900ma
    chgUpdateBits .cntl2 cntl2ModeMask cntl2UsbOtg
  match ret with
  | .ok () => store (Battery.setOtgActive true)
  | .error e =>
    let _ ← attempt (muicSetOtgPath false)
    throw e

def otgDisableSection : Fallible Unit := do
  chgUpdateBits .cntl2 cntl2ModeMask cntl2Charging
  store (Battery.setOtgActive false)
  muicSetOtgPath false

def otgEnable : Task (Except Errno Unit) := do
  if (← Thread.interruptible load).bat.directCharging then
    return .error .ebusy
  match ← Thread.interruptible getOnlineRaw.run with
  | .error e => return .error e
  | .ok true => return .error .ebusy
  | .ok false => Thread.atomic otgEnableSection.run

-- The value of a successful call is `restore_charging`.
def otgDisable : Task (Except Errno Bool) := do
  match ← Thread.atomic otgDisableSection.run with
  | .error e => return .error e
  | .ok () =>
    let online ← Thread.interruptible getOnlineRaw.run
    return .ok (online matches .ok true)

def setOtgLocked (active : Bool) : Task (Except Errno Bool) := do
  if ¬ (← Thread.interruptible load).primary then
    return .error .eprobeDefer
  if active = (← Thread.interruptible load).bat.otgActive then
    return .ok false
  if active then
    return (← otgEnable).map fun _ => false
  else
    otgDisable

def setOtg (active : Bool) : Task (Except Errno Unit) := do
  lockGlobal
  let ret ← setOtgLocked active
  unlockGlobal
  match ret with
  | .error e => return .error e
  | .ok false => return .ok ()
  | .ok true => Thread.atomic configureCharging.run

/-! ### The one-second poll -/

def Battery.bumpPoll (m : Mem) : Mem :=
  { m with bat := { m.bat with pollCount := (m.bat.pollCount + 1) % 2 ^ 32 } }

def pollCapacity (sm : Battery) : Task Int := do
  if sm.pollCount % capacityPollDivider = 0 then
    match ← Thread.interruptible getCapacity.run with
    | .ok capacity => return capacity
    | .error _ => return sm.lastCapacity
  else
    return sm.lastCapacity

def pollSample : Task Unit := do
  match ← Thread.interruptible getTemp.run with
  | .ok temp =>
    let old := (← Thread.interruptible load).bat.thermalState
    Thread.interruptible (store (Battery.setThermal (chargeThermalState old temp)))
  | .error _ => return ()

/-- The thermal part of the poll: sample, record, and re-program the charger on a change. -/
def pollThermal (online : Bool) (status : Except Errno PsyStatus) :
    Task (Except Errno PsyStatus) := do
  if ¬ online then
    return status
  let old := (← Thread.interruptible load).bat.thermalState
  pollSample
  if (← Thread.interruptible load).bat.thermalState = old then
    return status
  let _ ← Thread.atomic configureCharging.run
  Thread.interruptible getStatus.run

/-- Q4 is open although the charger should run: nothing but the poll will close it again. -/
def pollMustRecover (online : Bool) (status : Except Errno PsyStatus) : Task Bool := do
  if ¬ online then
    return false
  if (← Thread.interruptible load).bat.directCharging then
    return false
  if ¬ status matches .ok .notCharging then
    return false
  if (← Thread.interruptible load).bat.thermalState = .stop then
    return false
  match ← Thread.interruptible (chgRead .cntl1).run with
  | .ok cntl1 => return cntl1 &&& cntl1Enq4fet = 0
  | .error _ => return false

/-- The recovery part of the poll. -/
def pollRecover (online : Bool) (status : Except Errno PsyStatus) :
    Task (Except Errno PsyStatus) := do
  if ← pollMustRecover online status then
    match ← Thread.atomic configureCharging.run with
    | .ok () => Thread.interruptible getStatus.run
    | .error _ => return status
  else
    return status

def Battery.setStatus (status : PsyStatus) (capacity : Int) (m : Mem) : Mem :=
  { m with bat := { m.bat with lastStatus := .ok status, lastCapacity := capacity } }

def Battery.setOnline (b : Bool) (m : Mem) : Mem :=
  { m with bat := { m.bat with lastOnline := b } }

def Battery.setUsbType (t : UsbType) (m : Mem) : Mem :=
  { m with bat := { m.bat with lastUsbType := .ok t } }

def pollRecordStatus (status : Except Errno PsyStatus) (capacity : Int) : Task Unit := do
  match status with
  | .ok st =>
    let sm := (← Thread.interruptible load).bat
    if sm.lastStatus ≠ .ok st ∨ capacity ≠ sm.lastCapacity then
      Thread.interruptible (store (Battery.setStatus st capacity))
  | .error _ => return ()

-- When the cable has gone, Q4 is opened, outside `chg_lock` and with the result ignored.
def pollRecordOnline (online : Except Errno Bool) : Task Unit := do
  match online with
  | .ok on =>
    if on ≠ (← Thread.interruptible load).bat.lastOnline then
      Thread.interruptible (store (Battery.setOnline on))
      if ¬ on then
        let _ ← Thread.interruptible (chgUpdateBits .cntl1 cntl1Enq4fet 0).run
  | .error _ => return ()

def pollRecordUsbType (usbType : Except Errno UsbType) : Task Unit := do
  match usbType with
  | .ok t =>
    if (← Thread.interruptible load).bat.lastUsbType ≠ .ok t then
      Thread.interruptible (store (Battery.setUsbType t))
  | .error _ => return ()

/-- The two readings a poll starts with. -/
def pollStart : Code (Except Errno PsyStatus × Except Errno Bool) := do
  let status ← getStatus.run
  let online ← getOnline.run
  return (status, online)

/-- What a poll does with them. -/
def pollUpdate (status : Except Errno PsyStatus) (online : Except Errno Bool) : Task Unit := do
  let usbType ← Thread.interruptible getUsbType.run
  let sm := (← Thread.interruptible load).bat
  Thread.interruptible (store Battery.bumpPoll)
  let capacity ← pollCapacity sm
  let on := online matches .ok true
  let status ← pollThermal on status
  let status ← pollRecover on status
  pollRecordStatus status capacity
  pollRecordOnline online
  pollRecordUsbType usbType

def pollWork : Task Unit := do
  let (status, online) ← Thread.interruptible pollStart
  pollUpdate status online

/-! ### The fast-charge switch -/

def Battery.setFastCharge (b : Bool) (m : Mem) : Mem :=
  { m with bat := { m.bat with fastCharge := b } }

/-- `parsed` is what `kstrtobool` makes of the buffer. -/
def fastChargeStore (parsed : Option Bool) : Task (Except Errno Unit) := do
  match parsed with
  | none => return .error .einval
  | some enabled =>
    if (← Thread.interruptible load).bat.fastCharge = enabled then
      return .ok ()
    Thread.interruptible (store (Battery.setFastCharge enabled))
    let _ ← Thread.atomic configureCharging.run
    return .ok ()

def fastChargeEnabled : Code Bool := do
  let m ← load
  return m.primary && m.bat.fastCharge

/-! ### The calls into the driver -/

/-- A call from the USB-PD driver, the charge pump, the poll or the settings, with its arguments. -/
inductive Call
  | directCharge (active : Bool)
  | otg (active : Bool)
  | pdContract (mv ma : Nat)
  | poll
  | fastCharge (parsed : Option Bool)

/-- The call, its result dropped. -/
def Call.task : Call → Task Unit
  | .directCharge active => do let _ ← setDirectCharge active
  | .otg active => do let _ ← setOtg active
  | .pdContract mv ma => do let _ ← setPdContract mv ma
  | .poll => pollWork
  | .fastCharge parsed => do let _ ← fastChargeStore parsed

end Sm5714

end Gts9Wifi.Charger
