import Gts9Wifi.Charger.Sm5714

/-!
# The SM5440 charge pump driver

`sm5440_direct.c`, function by function. Its work item, its PM notifier and its removal never run at
the same time, so these are plain programs; where they call into the SM5714 driver they run that call
on its own (`Thread.seq`). A property value and an error come back in one `int`, so a negative
reading counts as an error, as in the source.
-/

namespace Gts9Wifi.Charger

open Driver

namespace Sm5440

/-! ## Bits and constants -/

def status3Vbuspok : BitVec 8 := 0x20
def cntl1WdtEn : BitVec 8 := 0x80
def cntl1Wdt30s : BitVec 8 := 0x40
def adccntl1Avg32 : BitVec 8 := 0x08
def adccntl1Continuous : BitVec 8 := 0x02
def adccntl1Enable : BitVec 8 := 0x01

def pollMs : Nat := 1000
def retryMs : Nat := 2000
def maxRetryMs : Nat := 30000
def quietRetryMs : Nat := 300000
def maxFails : Nat := 5
def pdRetries : Nat := 5
def initialIbusMa : Nat := 1800
def vbatregMv : Nat := 4400
def ppsCapMa : Nat := 5000
def minPpsMa : Nat := 1800
def ppsStepMa : Nat := 250
def ibusMarginMa : Nat := 300
def ppsVStepMv : Nat := 20
def refreshTicks : Nat := 4
def frequencyKhz : Nat := 850
def frequencySiop2Khz : Nat := 650
def frequencySiop1Khz : Nat := 450
def siopLev1Ma : Nat := 1100
def siopLev2Ma : Nat := 1700
def rTtlMilliohm : Nat := 320
def extraHeadroomMv : Nat := 200
def maxPpsMv : Nat := 10500

/-! ## Register and property helpers -/

-- Unlike the SM5714's helper this one always writes.
def updateBits (reg : DcReg) (mask val : BitVec 8) : Fallible Unit := do
  let old ← dcRead reg
  dcWrite reg (maskedUpdate mask val old)

/-- `(high << 5) | (low >> 3)`. -/
def adcRaw (high low : BitVec 8) : Nat := high.toNat <<< 5 ||| low.toNat >>> 3

def readAdcPair (reg reg1 : DcReg) : Fallible Nat := do
  let high ← dcRead reg
  let low ← dcRead reg1
  return adcRaw high low

def adcVbusMv : Fallible Nat := do return 4096 + (← readAdcPair .adcVbus1 .adcVbus2)

def adcIbusMa : Fallible Nat := do return (← readAdcPair .adcIbus1 .adcIbus2) * 625 / 1000

def adcVbatMv : Fallible Nat := do return 2048 + (← readAdcPair .adcVbat1 .adcVbat2) * 500 / 1000

def adcDieTemp : Fallible Nat := do return 225 + (← dcRead .adcDietemp).toNat * 5

/-- `sm5440_psy_get`: the value, or the negated error number. -/
def psyGetInt (p : Psy) (prop : PsyProp) : Code Int := do
  match ← (psyGet p prop).run with
  | .ok v => return v
  | .error e => return e.toInt

/-- The value, a negative one being returned as the error it looks like. -/
def psyGetNonneg (p : Psy) (prop : PsyProp) : Fallible Nat := do
  let v ← psyGetInt p prop
  if h : v < 0 then throw (Errno.ofNeg v h) else return v.toNat

/-- The attempts of `sm5440_psy_retry`: another one only after `-EAGAIN`. -/
def psyAttempts (prop : PsyProp) (value : Int) : Nat → Fallible Unit
  | 0 => throw .eagain
  | n + 1 => do
    match ← attempt (psySet prop value) with
    | .ok () => return ()
    | .error e => if e = .eagain then psyAttempts prop value n else throw e

def psyRetry (prop : PsyProp) (value : Int) : Fallible Unit := psyAttempts prop value pdRetries

/-! ## The PPS operating point -/

def ppsTargetMv (ma vbatUv : Nat) : Nat :=
  let headroom := divRoundUp (ma * rTtlMilliohm) 1000 + extraHeadroomMv
  let mv := divRoundUp (vbatUv / 1000 * 2 + headroom) ppsVStepMv * ppsVStepMv
  min (max mv 8200) maxPpsMv

def setIbusLimit (ma : Nat) : Fallible Unit :=
  dcWrite .ibuscntl (BitVec.ofNat 8 (min (ma + ibusMarginMa) 6350 / 50))

/-- The walk down from `ma`, for as many steps as keep it at `SM5440_MIN_PPS_MA` or above. -/
def walkCurrent : Nat → Nat → Fallible Nat
  | 0, _ => throw .einval
  | n + 1, ma => do
    match ← attempt (psyRetry .currentNow (ma * 1000 : Nat)) with
    | .ok () => return ma
    | .error e => if e = .einval then walkCurrent n (ma - ppsStepMa) else throw e

def grantCurrent (ma : Nat) : Fallible Nat := walkCurrent ((ma - minPpsMa) / ppsStepMa + 1) ma

/-- The operating point that was accepted, as current and voltage. -/
def negotiatePps (vbatUv : Nat) : Fallible (Nat × Nat) := do
  let ma := min (max (← load).maxPpsMa minPpsMa) ppsCapMa
  psyRetry .online 2
  let point ← attempt do
    let targetMa ← grantCurrent ma
    let targetMv := ppsTargetMv targetMa vbatUv
    psyRetry .voltageNow (targetMv * 1000 : Nat)
    return (targetMa, targetMv)
  match point with
  | .ok point => return point
  | .error e =>
    -- fixed: the result of this write is ignored
    let _ ← attempt (psyRetry .online 1)
    throw e

def Direct.setTargetMv (mv : Nat) (m : Mem) : Mem := { m with dc := { m.dc with targetMv := mv } }

def refreshPps : Fallible Unit := do
  let batteryUv ← psyGetNonneg .battery .voltageNow
  let sm := (← load).dc
  let targetMv := ppsTargetMv sm.targetMa batteryUv
  if ((targetMv : Int) - sm.targetMv).natAbs ≥ ppsVStepMv then
    psyRetry .voltageNow (targetMv * 1000 : Nat)
    store (Direct.setTargetMv targetMv)
  psyRetry .currentNow (sm.targetMa * 1000 : Nat)

def setFreq (khz : Nat) : Fallible Unit := dcWrite .cntl7 (BitVec.ofNat 8 ((khz - 250) / 50))

def selectFreq (ma : Nat) : Fallible Unit :=
  if ma ≤ siopLev1Ma then setFreq frequencySiop1Khz
  else if ma ≤ siopLev2Ma then setFreq frequencySiop2Khz
  else setFreq frequencyKhz

/-! ## The pump -/

def pumpOff : Fallible Unit := updateBits .cntl5 cntl5OpModeMask 0

def waitVbusPok : Nat → Fallible Unit
  | 0 => throw .enolink
  | n + 1 => do
    let status3 ← dcRead .status3
    if status3 &&& status3Vbuspok ≠ 0 then return () else waitVbusPok n

def pumpOn : Fallible Unit := do
  updateBits .cntl5 cntl5OpModeMask cntl5ChgOn
  waitVbusPok 5

def waitSettled (targetMv : Nat) : Nat → Fallible Unit
  | 0 => throw .etimedout
  | n + 1 => do
    let vbusMv ← adcVbusMv
    if (vbusMv : Int) ≥ targetMv - 500 then return () else waitSettled targetMv n

def waitVbusSettled (targetMv : Nat) : Fallible Unit := waitSettled targetMv 30

def renegotiatePps : Fallible Unit := do
  pumpOff
  refreshPps
  waitVbusSettled (← load).dc.targetMv
  pumpOn

-- The two latches are read for the log only.
def logFaults : Code Unit := do
  let _ ← (dcRead .int1).run
  let _ ← (dcRead .int3).run

def Direct.setPpsTicks (n : Nat) (m : Mem) : Mem := { m with dc := { m.dc with ppsTicks := n } }

def Direct.setActive (b : Bool) (m : Mem) : Mem := { m with dc := { m.dc with active := b } }

/-- Every result is ignored. -/
def restoreSwitching : Code Unit := do
  enter .restoreSwitching
  let _ ← (updateBits .cntl5 cntl5OpModeMask 0).run
  let _ ← (updateBits .adccntl1 adccntl1Enable 0).run
  let _ ← (updateBits .cntl1 cntl1WdtEn 0).run
  let _ ← (psyRetry .online 1).run
  let _ ← (Sm5714.setDirectCharge false).seq
  store (Direct.setPpsTicks 0)
  store (Direct.setActive false)

/-! ## Starting -/

def waitReset : Nat → Fallible Unit
  | 0 => throw .etimedout
  | n + 1 => do
    let reg ← dcRead .cntl1
    if reg &&& dcCntl1SwReset = 0 then return () else waitReset n

/-- The `SM5440_WRITE` lines of `sm5440_hw_init`, in order. -/
def initSequence : List (DcReg × BitVec 8) :=
  [(.cntl1, cntl1Wdt30s), (.cntl2, 0xf2), (.cntl3, 0xb8), (.cntl4, 0xff), (.cntl6, 0x09),
    (.vbuscntl, 0x07), (.vbatcntl, BitVec.ofNat 8 ((vbatregMv - 3800) * 10 / 125)),
    (.voutcntl, 0x3f), (.ibuscntl, BitVec.ofNat 8 (initialIbusMa / 50)), (.prtncntl, 0xfe),
    (.themcntl1, 0x0c), (.adccntl1, adccntl1Avg32 ||| adccntl1Continuous ||| adccntl1Enable),
    (.adccntl2, 0xdf)]

def writeAll : List (DcReg × BitVec 8) → Fallible Unit
  | [] => return ()
  | (reg, val) :: rest => do
    dcWrite reg val
    writeAll rest

def readAll : List DcReg → Fallible Unit
  | [] => return ()
  | reg :: rest => do
    let _ ← dcRead reg
    readAll rest

def hwInit : Fallible Unit := do
  dcWrite .cntl1 dcCntl1SwReset
  waitReset 255
  writeAll initSequence
  readAll [.int1, .int2, .int3, .int4]

def Direct.setStarted (ma mv : Nat) (m : Mem) : Mem :=
  { m with dc := { m.dc with active := true, targetMv := mv, targetMa := ma, ppsTicks := 0 } }

/-- The steps of `sm5440_start` whose failure hands the pack back. -/
def startPump (batteryUv : Nat) : Fallible (Nat × Nat) := do
  hwInit
  let (targetMa, targetMv) ← negotiatePps batteryUv
  selectFreq targetMa
  setIbusLimit targetMa
  waitVbusSettled targetMv
  updateBits .cntl1 cntl1WdtEn cntl1WdtEn
  pumpOn
  return (targetMa, targetMv)

def start : Fallible Unit := do
  let batteryUv ← psyGetNonneg .battery .voltageNow
  ExceptT.mk (Sm5714.setDirectCharge true).seq
  match ← attempt (startPump batteryUv) with
  | .ok (targetMa, targetMv) => store (Direct.setStarted targetMa targetMv)
  | .error e =>
    restoreSwitching
    throw e

def eligible : Code Bool := do
  let online ← psyGetInt .tcpm .online
  let capacity ← psyGetInt .battery .capacity
  let temp ← psyGetInt .battery .temp
  let voltage ← psyGetInt .battery .voltageNow
  return decide (online > 0 ∧ capacity ≥ 5 ∧ capacity < 90 ∧ temp ≥ 100 ∧ temp < 420 ∧
    voltage ≥ 3500000 ∧ voltage < 4350000)

/-! ## The work item, suspend and removal -/

def Direct.setFails (n : Nat) (m : Mem) : Mem := { m with dc := { m.dc with fails := n } }

def backoffMs (fails : Nat) : Nat :=
  if fails ≥ maxFails then quietRetryMs else min (retryMs <<< fails) maxRetryMs

def backoff : Code Nat := do
  let fails := (← load).dc.fails
  let fails := if fails < maxFails then fails + 1 else fails
  store (Direct.setFails fails)
  return backoffMs fails

/-- What one pass of the work item measures while the pump runs. -/
structure Readings where
  capacity : Int
  packTemp : Int
  opMode : Except Errno (BitVec 8)
  status3 : Except Errno (BitVec 8)
  vbus : Except Errno Nat
  ibus : Except Errno Nat
  vbat : Except Errno Nat
  dieTemp : Except Errno Nat

def measure : Code Readings := do
  let capacity ← psyGetInt .battery .capacity
  let packTemp ← psyGetInt .battery .temp
  let opMode ← (dcRead .cntl5).run
  let status3 ← (dcRead .status3).run
  let vbus ← adcVbusMv.run
  let ibus ← adcIbusMa.run
  let vbat ← adcVbatMv.run
  let dieTemp ← adcDieTemp.run
  return ⟨capacity, packTemp, opMode, status3, vbus, ibus, vbat, dieTemp⟩

/-- The stop conditions of the work item, negated. -/
def Readings.healthy (r : Readings) : Bool :=
  match r.opMode, r.status3, r.vbus, r.ibus, r.vbat, r.dieTemp with
  | .ok opMode, .ok status3, .ok vbus, .ok _, .ok vbat, .ok dieTemp =>
    decide (r.capacity ≥ 0 ∧ r.packTemp ≥ 0 ∧ r.capacity < 90 ∧ r.packTemp < 450 ∧
      opMode &&& cntl5ChgOn ≠ 0 ∧ status3 &&& status3Vbuspok ≠ 0 ∧
      vbus ≤ 10800 ∧ vbat ≤ 4450 ∧ dieTemp < 1100)
  | _, _, _, _, _, _ => false

/-- A pass while the pump is off. The value is the delay until the next one. -/
def workIdle : Code Nat := do
  if ¬ (← Sm5714.fastChargeEnabled) then
    return retryMs
  if ¬ (← eligible) then
    return retryMs
  match ← start.run with
  | .ok () =>
    store (Direct.setFails 0)
    return pollMs
  | .error _ => backoff

/-- The measurements of a pass while the pump runs, and what follows from them. -/
def workMonitor : Code Nat := do
  if (← measure).healthy then
    match ← (updateBits .cntl1 cntl1WdtEn cntl1WdtEn).run with
    | .ok () =>
      store (Direct.setFails 0)
      return pollMs
    | .error _ =>
      restoreSwitching
      backoff
  else
    logFaults
    restoreSwitching
    backoff

def workActive : Code Nat := do
  if ¬ (← Sm5714.fastChargeEnabled) then
    logFaults
    restoreSwitching
    return retryMs
  let ticks := (← load).dc.ppsTicks + 1
  store (Direct.setPpsTicks ticks)
  if ticks ≥ refreshTicks then
    store (Direct.setPpsTicks 0)
    match ← renegotiatePps.run with
    | .ok () => workMonitor
    | .error _ =>
      logFaults
      restoreSwitching
      backoff
  else
    workMonitor

-- Queueing a work item that is queued already does nothing.
def schedule (delay : Nat) (m : Mem) : Mem :=
  { m with dc := { m.dc with pending := m.dc.pending <|> some delay } }

def cancelDelayedWork (m : Mem) : Mem := { m with dc := { m.dc with pending := none } }

def workPass : Code Nat := do
  if (← load).dc.active then workActive else workIdle

-- The item is no longer queued when it runs.
def work : Code Unit := do
  store cancelDelayedWork
  let delay ← workPass
  if ¬ (← load).dc.suspending then
    store (schedule delay)

def cancelWork : Code Unit := do
  store cancelDelayedWork
  if (← load).dc.active then
    restoreSwitching

def Direct.setSuspending (b : Bool) (m : Mem) : Mem :=
  { m with dc := { m.dc with suspending := b } }

/-- `PM_SUSPEND_PREPARE`. -/
def suspendPrepare : Code Unit := do
  store (Direct.setSuspending true)
  store cancelDelayedWork
  if (← load).dc.active then
    let _ ← pumpOff.run
    restoreSwitching

/-- `PM_POST_SUSPEND`. -/
def postSuspend : Code Unit := do
  store (Direct.setSuspending false)
  store (schedule pollMs)

/-! ### The entry points -/

/-- What the kernel calls: the work item, the PM notifier and the removal. -/
inductive PumpCall
  | work | suspendPrepare | postSuspend | cancelWork

def PumpCall.code : PumpCall → Code Unit
  | .work => Sm5440.work
  | .suspendPrepare => Sm5440.suspendPrepare
  | .postSuspend => Sm5440.postSuspend
  | .cancelWork => Sm5440.cancelWork

/-- A change elsewhere that leaves the pump, the port, the pump driver and its grant alone. -/
structure LeavesPump (f : State → State) : Prop where
  dc : ∀ s, (f s).dc = s.dc
  tcpm : ∀ s, (f s).tcpm = s.tcpm
  driver : ∀ s, (f s).mem.dc = s.mem.dc
  granted : ∀ s, (f s).mem.bat.directCharging = s.mem.bat.directCharging

/-- One step of a run: a call with what its operations meet, or a change elsewhere. -/
inductive PumpStep
  | call (c : PumpCall) (inputs : Nat → Input)
  | elsewhere (f : State → State) (h : LeavesPump f)

def pumpStep : PumpStep → State → State
  | .call c inputs, s => (c.code.run board inputs s).2
  | .elsewhere f _, s => f s

def PumpStep.trace : PumpStep → State → List (Event board)
  | .call c inputs, s => c.code.trace board inputs s
  | .elsewhere _ _, _ => []

end Sm5440

end Gts9Wifi.Charger
