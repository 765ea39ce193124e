import Mathlib.Algebra.GroupWithZero.Nat
import Gts9Wifi.Lib.Kernel

/-!
# The WEZ01 digitizer driver

`wacom-wez01.c`: the interrupt handler, the silence timer and the PM callbacks, as functions on the
driver's state. Each of them runs to its end before the next one starts. What the driver reports to
the input layer and the commands it sends are kept in the order it issues them; the results of those
sends are ignored in the source.
-/

namespace Gts9Wifi.Pen

open Driver

/-! ## Constants -/

def comSurveyExit : BitVec 8 := 0x2d
def comSamplerateStop : BitVec 8 := 0x30
def comSamplerateStart : BitVec 8 := 0x31
def pktCoord : BitVec 8 := 1
def rdy : BitVec 8 := 0x80
def eraser : BitVec 8 := 0x40
def side : BitVec 8 := 0x20
def tip : BitVec 8 := 0x10

/-! ## Data -/

/-- The four calibration parameters. -/
structure Calibration where
  penXMin : Int := 0
  penXMax : Int := 23575
  penYMin : Int := 0
  penYMax : Int := 14724

inductive Key
  | touch | stylus | toolPen | toolRubber
deriving DecidableEq

inductive Axis
  | x | y | pressure | distance | tiltX | tiltY
deriving DecidableEq

/-- What is reported to the input layer. -/
inductive Report
  | abs (axis : Axis) (value : Int)
  | key (key : Key) (down : Bool)
  | sync
deriving DecidableEq

/-- An event packet with its ack byte. -/
abbrev Packet := Fin 17 → BitVec 8

/-- A packet has a first byte. -/
instance packetLength_neZero : NeZero 17 := ⟨by decide⟩

/-- `struct wacom_wez01` with the two global flags, the depth of `disable_irq`, and what has been
reported and sent. -/
structure Wez01 where
  maxX : BitVec 16
  calibration : Calibration
  prox : Bool
  penProximity : Bool
  touchSuppression : Bool
  proxTimer : Timer
  irqDisabled : Nat
  reports : List Report
  commands : List (BitVec 8)

/-! ## Functions -/

def shouldSuppressTouch (w : Wez01) : Bool := w.touchSuppression && w.penProximity

def send (cmd : BitVec 8) (w : Wez01) : Wez01 := { w with commands := w.commands ++ [cmd] }

/-- The events that release the pen. -/
def releaseReports : List Report :=
  [.abs .pressure 0, .abs .distance 0, .key .touch false, .key .stylus false, .key .toolPen false,
    .key .toolRubber false, .sync]

def leaveRange (w : Wez01) : Wez01 :=
  if w.penProximity then
    if w.prox then
      { w with penProximity := false, prox := false, reports := w.reports ++ releaseReports }
    else
      { w with penProximity := false }
  else w

def proxTimeout (w : Wez01) : Wez01 := leaveRange w

def be16 (high low : BitVec 8) : Int := (high ++ low).toNat

/-- What an in-range frame reports. -/
def penReports (w : Wez01) (data : Packet) : List Report :=
  let c := w.calibration
  let px := clamp (be16 (data 3) (data 4)) c.penXMin c.penXMax
  let py := clamp (w.maxX.toNat - be16 (data 1) (data 2)) c.penYMin c.penYMax
  [.key .toolRubber (data 0 &&& eraser ≠ 0), .key .toolPen (data 0 &&& eraser = 0),
    .key .touch (data 0 &&& tip ≠ 0), .key .stylus (data 0 &&& side ≠ 0),
    .abs .x px, .abs .y py, .abs .pressure (be16 (data 5 &&& 0x0f) (data 6)),
    .abs .distance (data 7).toNat, .abs .tiltX (data 8).toInt, .abs .tiltY (data 9).toInt, .sync]

/-- `none` is a read that failed or came short. -/
def irqHandler (recv : Option Packet) (w : Wez01) : Wez01 :=
  match recv with
  | none => w
  | some data =>
    if data 0 &&& 0x0f ≠ pktCoord then w
    else if data 0 &&& rdy = 0 then
      leaveRange { w with proxTimer := .shutdown }
    else
      { w with
        reports := w.reports ++ penReports w data
        prox := true
        penProximity := true
        proxTimer := w.proxTimer.mod }

def suspend (w : Wez01) : Wez01 :=
  send comSamplerateStop
    (leaveRange { w with irqDisabled := w.irqDisabled + 1, proxTimer := .shutdown })

def resume (w : Wez01) : Wez01 :=
  let w := send comSamplerateStart (send comSurveyExit w)
  { w with irqDisabled := w.irqDisabled - 1 }

/-! ## Steps -/

/-- What can happen to the driver. -/
inductive Event
  | irq (recv : Option Packet)
  | expire
  | suspend
  | resume
  | calibrate (c : Calibration)

/-- An interrupt is only delivered while it is enabled, and only an armed timer expires. -/
def step : Event → Wez01 → Wez01
  | .irq recv, w => if w.irqDisabled = 0 then irqHandler recv w else w
  | .expire, w => if w.proxTimer = .armed then proxTimeout { w with proxTimer := .idle } else w
  | .suspend, w => suspend w
  | .resume, w => resume w
  | .calibrate c, w => { w with calibration := c }

/-- The driver as probed. -/
def Wez01.probed (maxX : BitVec 16) : Wez01 where
  maxX := maxX
  calibration := {}
  prox := false
  penProximity := false
  touchSuppression := true
  proxTimer := .idle
  irqDisabled := 0
  reports := []
  commands := [comSamplerateStart]

end Gts9Wifi.Pen
