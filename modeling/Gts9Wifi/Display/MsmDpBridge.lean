import Mathlib.Logic.Basic

/-!
# Hot-plug detection until the first resume

`msm-dp-defer-oob-hpd-until-resume.patch`: a Type-C DisplayPort bridge puts hot-plug events off until
the first resume and then replays what it kept. Three contexts share its flags: the notification of an
event, the PM notifier, which writes the flag in one step and tests for a kept event in another, and
the delayed work. What `msm_dp_bridge_hpd_notify` does past the deferral test is one entry of the list
of processed events. Registration, delays and log lines are left out.
-/

namespace Gts9Wifi.Display

/-- `enum drm_connector_status`. -/
inductive ConnectorStatus
  | connected | disconnected | unknown
deriving DecidableEq

/-- What a PM notifier is told. -/
inductive PmAction
  | postSuspend | other
deriving DecidableEq

/-- `struct msm_dp_bridge`, as far as deferring goes. -/
structure Bridge where
  deferredHpdStatus : ConnectorStatus
  deferHpdUntilResume : Bool
  deferredHpdPending : Bool

/-- The bridge, whether the delayed work is queued, whether the notifier is between its two steps, and
the events that were processed. -/
structure State where
  bridge : Bridge
  workQueued : Bool
  notifierTests : Bool
  processed : List ConnectorStatus

abbrev Code := StateM State

def load : Code Bridge := return (← get).bridge

def store (f : Bridge → Bridge) : Code Unit := modify fun s => { s with bridge := f s.bridge }

def scheduleDelayedWork : Code Unit := modify fun s => { s with workQueued := true }

/-- Whether the work was queued. -/
def cancelDelayedWork : Code Bool := modifyGet fun s => (s.workQueued, { s with workQueued := false })

def process (status : ConnectorStatus) : Code Unit :=
  modify fun s => { s with processed := s.processed ++ [status] }

/-- An `if` without an `else`. -/
def onlyIf (c : Prop) [Decidable c] (x : Code Unit) : Code Unit := if c then x else pure ()

/-- `msm_dp_bridge_hpd_notify`. -/
def hpdNotify (status : ConnectorStatus) : Code Unit := do
  let bridge ← load
  if bridge.deferHpdUntilResume then
    onlyIf (!bridge.deferredHpdPending ∨ status = .connected)
      (store fun b => { b with deferredHpdStatus := status })
    store fun b => { b with deferredHpdPending := true }
  else
    onlyIf bridge.deferredHpdPending do
      let canceled ← cancelDelayedWork
      onlyIf canceled (store fun b => { b with deferredHpdPending := false })
    process status

/-- `msm_dp_bridge_deferred_hpd_work`. -/
def deferredHpdWork : Code Unit := do
  let bridge ← load
  if !bridge.deferredHpdPending then return
  else
    store fun b => { b with deferredHpdPending := false }
    hpdNotify bridge.deferredHpdStatus

/-- `msm_dp_bridge_pm_notifier`, up to the flag. -/
def pmNotifier (action : PmAction) : Code Unit := do
  let bridge ← load
  if action ≠ .postSuspend ∨ !bridge.deferHpdUntilResume then return
  else
    store fun b => { b with deferHpdUntilResume := false }
    modify fun s => { s with notifierTests := true }

/-- The rest of it. -/
def testAndSchedule : Code Unit := do
  let bridge ← load
  onlyIf bridge.deferredHpdPending scheduleDelayedWork
  modify fun s => { s with notifierTests := false }

/-! ## Runs -/

inductive Step
  | notify (status : ConnectorStatus)
  | pmNotifier (action : PmAction)
  | testAndSchedule
  | work
deriving DecidableEq

/-- The second half of the notifier comes after the first, and the work runs when it is queued. -/
def Step.code : Step → Code Unit
  | .notify status => hpdNotify status
  | .pmNotifier action => Display.pmNotifier action
  | .testAndSchedule => do
    let s ← get
    onlyIf s.notifierTests Display.testAndSchedule
  | .work => do
    let s ← get
    onlyIf s.workQueued do
      set { s with workQueued := false }
      deferredHpdWork

def step (l : Step) (s : State) : State := (l.code.run s).2

/-- What `msm_dp_bridge_init` leaves on a bridge that defers. -/
def initial (status : ConnectorStatus) : State := ⟨⟨status, true, false⟩, false, false, []⟩

end Gts9Wifi.Display
