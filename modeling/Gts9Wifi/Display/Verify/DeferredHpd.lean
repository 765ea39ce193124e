import Gts9Wifi.Display.MsmDpBridge
import Gts9Wifi.Lib.Runs

/-!
# What a deferred hot-plug replays

While events are put off the bridge keeps one status: the first, or `connected` once that was seen, so
that an unplug does not make it forget a display. After the first resume the kept status is replayed,
unless an event comes first. Either way the last status processed is that of the newest event after the
resume, or else the kept one. An event between the two steps of the notifier, while a status is kept,
is left out here.
-/

namespace Gts9Wifi.Display

open Driver

/-! ## Vocabulary -/

/-- The events of a run. -/
def notified : List Step → List ConnectorStatus
  | [] => []
  | .notify status :: steps => status :: notified steps
  | _ :: steps => notified steps

/-- Those before the first resume. -/
def deferred : List Step → List ConnectorStatus
  | [] => []
  | .notify status :: steps => status :: deferred steps
  | .pmNotifier .postSuspend :: _ => []
  | _ :: steps => deferred steps

/-- And those after it. -/
def live : List Step → List ConnectorStatus
  | [] => []
  | .pmNotifier .postSuspend :: steps => notified steps
  | _ :: steps => live steps

/-- What is kept of the events that were put off. -/
def kept (statuses : List ConnectorStatus) : Option ConnectorStatus :=
  if .connected ∈ statuses then some .connected else statuses.head?

/-- Nothing is put off any more, the notifier has returned, and no work is queued. -/
structure Quiescent (s : State) : Prop where
  resumed : s.bridge.deferHpdUntilResume = false
  notifier : s.notifierTests = false
  work : s.workQueued = false

/-- No status is kept for a replay, and none is on its way. -/
structure Settled (s : State) : Prop where
  pending : s.bridge.deferredHpdPending = false
  work : s.workQueued = false

/-- The status that was processed last is that of the newest event. -/
def ReplaysTruth (s : State) (steps : List Step) : Prop :=
  Quiescent (runFrom step steps s) →
    (runFrom step steps s).processed.getLast? = (notified steps).getLast?

/-- No event lands between the two steps of the notifier while a status is kept. -/
def Apart (l : Step) (s : State) : Prop :=
  ∀ status, l = .notify status → s.notifierTests = true → s.bridge.deferredHpdPending = false

/-! ## Steps -/

theorem step_notify_deferring {s : State} {status : ConnectorStatus}
    (h : s.bridge.deferHpdUntilResume = true) :
    step (.notify status) s = { s with bridge := { s.bridge with
      deferredHpdStatus := if s.bridge.deferredHpdPending = false ∨ status = .connected then status
        else s.bridge.deferredHpdStatus
      deferredHpdPending := true } } := by
  obtain ⟨⟨stored, defer, pending⟩, queued, tests, processed⟩ := s
  cases h
  cases pending with
  | false => rfl
  | true => cases status <;> rfl

/-- An event after the resume takes a kept status back, if the work is still queued. -/
theorem step_notify_live {s : State} {status : ConnectorStatus}
    (h : s.bridge.deferHpdUntilResume = false) :
    step (.notify status) s = { s with
      bridge := { s.bridge with
        deferredHpdPending := s.bridge.deferredHpdPending && !s.workQueued }
      workQueued := s.workQueued && !s.bridge.deferredHpdPending
      processed := s.processed ++ [status] } := by
  obtain ⟨⟨stored, defer, pending⟩, queued, tests, processed⟩ := s
  cases h
  cases pending <;> cases queued <;> rfl

/-- The notifier does nothing once the deferral is over. -/
theorem step_pmNotifier_live {s : State} {action : PmAction}
    (h : s.bridge.deferHpdUntilResume = false) : step (.pmNotifier action) s = s := by
  obtain ⟨⟨stored, defer, pending⟩, queued, tests, processed⟩ := s
  cases h
  cases action <;> rfl

theorem step_pmNotifier_postSuspend {s : State} (h : s.bridge.deferHpdUntilResume = true) :
    step (.pmNotifier .postSuspend) s =
      { s with bridge := { s.bridge with deferHpdUntilResume := false }, notifierTests := true } := by
  obtain ⟨⟨stored, defer, pending⟩, queued, tests, processed⟩ := s
  cases h
  rfl

theorem step_testAndSchedule (s : State) :
    step .testAndSchedule s = { s with
      workQueued := s.workQueued || s.notifierTests && s.bridge.deferredHpdPending
      notifierTests := false } := by
  obtain ⟨⟨stored, defer, pending⟩, queued, tests, processed⟩ := s
  cases tests <;> cases pending <;> cases queued <;> rfl

/-- The work replays what is kept. -/
theorem step_work_live {s : State} (h : s.bridge.deferHpdUntilResume = false) :
    step .work s = { s with
      bridge := { s.bridge with
        deferredHpdPending := s.bridge.deferredHpdPending && !s.workQueued }
      workQueued := false
      processed := s.processed ++
        if s.workQueued ∧ s.bridge.deferredHpdPending then [s.bridge.deferredHpdStatus] else [] } := by
  obtain ⟨⟨stored, defer, pending⟩, queued, tests, processed⟩ := s
  cases h
  cases queued with
  | false => cases pending <;> simp [step, Step.code] <;> rfl
  | true => cases pending <;> simp [step, Step.code] <;> rfl

theorem step_work_idle {s : State} (h : s.workQueued = false) : step .work s = s := by
  obtain ⟨⟨stored, defer, pending⟩, queued, tests, processed⟩ := s
  cases h
  rfl

/-! ## After the resume -/

/-- A kept status is on its way: the notifier is about to find it, or the work is queued. -/
structure Resumed (s : State) : Prop where
  ended : s.bridge.deferHpdUntilResume = false
  pending : s.bridge.deferredHpdPending = true → s.workQueued = true ∨ s.notifierTests = true
  queued : s.workQueued = true → s.bridge.deferredHpdPending = true

theorem Resumed.settled {s : State} (h : Resumed s) (hp : s.bridge.deferredHpdPending = false) :
    Settled s :=
  ⟨hp, Bool.eq_false_iff.2 fun hq => nomatch hp.symm.trans (h.queued hq)⟩

/-- The status that will have been processed last if no further event comes. -/
def outcome (s : State) : Option ConnectorStatus :=
  if s.bridge.deferredHpdPending then some s.bridge.deferredHpdStatus else s.processed.getLast?

/-- An event takes the place of what is kept. -/
theorem Resumed.notify {s : State} (h : Resumed s) {status : ConnectorStatus}
    (hapart : Apart (.notify status) s) :
    Resumed (step (.notify status) s) ∧ outcome (step (.notify status) s) = some status ∧
      (step (.notify status) s).bridge.deferredHpdPending = false := by
  have hqueued : s.bridge.deferredHpdPending = true → s.workQueued = true := by
    intro hp
    rcases h.pending hp with hq | ht
    · exact hq
    · rw [hapart status rfl ht] at hp
      exact nomatch hp
  have hpending : (s.bridge.deferredHpdPending && !s.workQueued) = false := by
    cases hp : s.bridge.deferredHpdPending with
    | false => rfl
    | true => rw [hqueued hp]; rfl
  have hwork : (s.workQueued && !s.bridge.deferredHpdPending) = false := by
    cases hq : s.workQueued with
    | false => rfl
    | true => rw [h.queued hq]; rfl
  rw [step_notify_live h.ended, hpending, hwork]
  exact ⟨⟨h.ended, nofun, nofun⟩, by simp [outcome], rfl⟩

theorem Resumed.work {s : State} (h : Resumed s) :
    Resumed (step .work s) ∧ outcome (step .work s) = outcome s ∧
      ((step .work s).bridge.deferredHpdPending = true → s.bridge.deferredHpdPending = true) := by
  cases hq : s.workQueued with
  | false =>
    rw [step_work_idle hq]
    exact ⟨h, rfl, id⟩
  | true =>
    have hp := h.queued hq
    rw [step_work_live h.ended, hq, hp]
    exact ⟨⟨h.ended, nofun, nofun⟩, by simp [outcome, hp], nofun⟩

theorem Resumed.testAndSchedule {s : State} (h : Resumed s) : Resumed (step .testAndSchedule s) := by
  rw [step_testAndSchedule]
  refine ⟨h.ended, fun hp => .inl ?_, fun hq => ?_⟩
  · rcases h.pending hp with hq | ht
    · simp [hq]
    · have hp' : s.bridge.deferredHpdPending = true := hp
      simp [ht, hp']
  · rcases Bool.or_eq_true_iff.1 hq with hq | htest
    · exact h.queued hq
    · exact (Bool.and_eq_true_iff.1 htest).2

theorem notified_cons (l : Step) (steps : List Step) :
    notified (l :: steps) = notified [l] ++ notified steps := by
  cases l <;> rfl

theorem Resumed.step {s : State} (h : Resumed s) {l : Step} (hapart : Apart l s) :
    Resumed (step l s) ∧ outcome (step l s) = (notified [l]).getLast?.or (outcome s) ∧
      ((step l s).bridge.deferredHpdPending = true →
        s.bridge.deferredHpdPending = true ∧ notified [l] = []) := by
  cases l with
  | notify status =>
    obtain ⟨h₁, hout, hnone⟩ := h.notify hapart
    refine ⟨h₁, hout, fun hp => ?_⟩
    rw [hnone] at hp
    exact nomatch hp
  | pmNotifier action =>
    rw [step_pmNotifier_live h.ended]
    exact ⟨h, rfl, fun hp => ⟨hp, rfl⟩⟩
  | testAndSchedule =>
    refine ⟨h.testAndSchedule, ?_⟩
    rw [step_testAndSchedule]
    exact ⟨rfl, fun hp => ⟨hp, rfl⟩⟩
  | work =>
    obtain ⟨h₁, hout, hpend⟩ := h.work
    exact ⟨h₁, hout, fun hp => ⟨hpend hp, rfl⟩⟩

/-- Along a run the newest event decides, and once there was one nothing is kept any more. -/
theorem Resumed.run {s : State} (h : Resumed s) {steps : List Step}
    (hapart : Meets Display.step Apart steps s) :
    Resumed (runFrom Display.step steps s) ∧
      outcome (runFrom Display.step steps s) = (notified steps).getLast?.or (outcome s) ∧
      ((runFrom Display.step steps s).bridge.deferredHpdPending = true →
        s.bridge.deferredHpdPending = true ∧ notified steps = []) := by
  induction steps generalizing s with
  | nil => exact ⟨h, rfl, fun hp => ⟨hp, rfl⟩⟩
  | cons l steps ih =>
    obtain ⟨h₁, hout₁, hpend₁⟩ := h.step hapart.1
    obtain ⟨h₂, hout₂, hpend₂⟩ := ih h₁ hapart.2
    refine ⟨h₂, ?_, fun hp => ?_⟩
    · rw [notified_cons, List.getLast?_append, Option.or_assoc, ← hout₁]
      exact hout₂
    · obtain ⟨hp₁, hnil⟩ := hpend₂ hp
      obtain ⟨hp₀, hnil₁⟩ := hpend₁ hp₁
      rw [notified_cons, hnil₁, hnil]
      exact ⟨hp₀, rfl⟩

/-! ## Before the resume -/

/-- Events are put off, and nothing has been processed. -/
structure Deferring (s : State) : Prop where
  defers : s.bridge.deferHpdUntilResume = true
  idle : s.workQueued = false
  notifier : s.notifierTests = false
  processed : s.processed = []

/-- What is kept so far. -/
def stored (s : State) : Option ConnectorStatus :=
  if s.bridge.deferredHpdPending then some s.bridge.deferredHpdStatus else none

/-- One more event that is put off. -/
def keep (d : Option ConnectorStatus) (status : ConnectorStatus) : Option ConnectorStatus :=
  match d with
  | none => some status
  | some first => if status = .connected then some .connected else some first

theorem foldl_keep_some (first : ConnectorStatus) (statuses : List ConnectorStatus) :
    statuses.foldl keep (some first) =
      if .connected ∈ statuses then some .connected else some first := by
  induction statuses generalizing first with
  | nil => rfl
  | cons status statuses ih =>
    rw [List.foldl_cons]
    by_cases hc : status = .connected
    · subst hc
      simp [keep, ih]
    · have hkeep : keep (some first) status = some first := by simp [keep, hc]
      rw [hkeep, ih]
      simp [List.mem_cons, Ne.symm hc]

/-- The code keeps what `kept` says. -/
theorem foldl_keep_none (statuses : List ConnectorStatus) : statuses.foldl keep none = kept statuses := by
  cases statuses with
  | nil => rfl
  | cons status statuses =>
    rw [List.foldl_cons, keep, foldl_keep_some, kept]
    by_cases hc : status = .connected
    · simp [hc]
    · simp [List.mem_cons, Ne.symm hc]

theorem Deferring.notify {s : State} (h : Deferring s) (status : ConnectorStatus) :
    Deferring (step (.notify status) s) ∧ stored (step (.notify status) s) = keep (stored s) status := by
  rw [step_notify_deferring h.defers]
  refine ⟨⟨h.defers, h.idle, h.notifier, h.processed⟩, ?_⟩
  cases hp : s.bridge.deferredHpdPending with
  | false => simp [stored, keep, hp]
  | true =>
    by_cases hc : status = .connected
    · simp [stored, keep, hp, hc]
    · simp [stored, keep, hp, hc]

/-- The resume. -/
theorem Deferring.postSuspend {s : State} (h : Deferring s) :
    Resumed (step (.pmNotifier .postSuspend) s) ∧
      outcome (step (.pmNotifier .postSuspend) s) = stored s := by
  rw [step_pmNotifier_postSuspend h.defers]
  refine ⟨⟨rfl, fun _ => .inr rfl, fun hq => ?_⟩, ?_⟩
  · exact absurd (h.idle.symm.trans hq) nofun
  · simp [outcome, stored, h.processed]

/-- Nothing else happens before it. -/
theorem Deferring.idle_step {s : State} (h : Deferring s) :
    step (.pmNotifier .other) s = s ∧ step .testAndSchedule s = s ∧ step .work s = s := by
  refine ⟨rfl, ?_, step_work_idle h.idle⟩
  rw [step_testAndSchedule]
  obtain ⟨⟨stored, defer, pending⟩, queued, tests, processed⟩ := s
  cases h.notifier
  cases h.idle
  rfl

/-! ## Whole runs -/

theorem Deferring.run {s : State} (h : Deferring s) {steps : List Step}
    (hapart : Meets step Apart steps s)
    (hover : (runFrom step steps s).bridge.deferHpdUntilResume = false) :
    Resumed (runFrom step steps s) ∧
      outcome (runFrom step steps s) =
        (live steps).getLast?.or ((deferred steps).foldl keep (stored s)) ∧
      ((runFrom step steps s).bridge.deferredHpdPending = true → live steps = []) := by
  induction steps generalizing s with
  | nil => exact absurd (h.defers.symm.trans hover) nofun
  | cons l steps ih =>
    obtain ⟨hother, htest, hwork⟩ := h.idle_step
    cases l with
    | notify status =>
      obtain ⟨h₁, hstored⟩ := h.notify status
      rw [deferred, List.foldl_cons, ← hstored]
      exact ih h₁ hapart.2 hover
    | pmNotifier action =>
      cases action with
      | postSuspend =>
        obtain ⟨h₁, hout⟩ := h.postSuspend
        obtain ⟨h₂, hout₂, hpend₂⟩ := h₁.run hapart.2
        rw [hout] at hout₂
        exact ⟨h₂, hout₂, fun hp => (hpend₂ hp).2⟩
      | other => exact ih h (hother ▸ hapart.2) hover
    | testAndSchedule =>
      rw [runFrom, htest] at hover ⊢
      exact ih h (htest ▸ hapart.2) hover
    | work =>
      rw [runFrom, hwork] at hover ⊢
      exact ih h (hwork ▸ hapart.2) hover

/-- **What a deferred hot-plug replays.** Let no event land between the two steps of the notifier while
a status is kept. Once an event has come after the resume, the status processed last is that of the
newest one, and nothing is kept that could be replayed after it. Without one, once no work is queued, it
is the kept status, and nothing is kept any more. -/
theorem deferredHpd_replays (status : ConnectorStatus) {steps : List Step}
    (hapart : Meets step Apart steps (initial status))
    (hover : (runFrom step steps (initial status)).bridge.deferHpdUntilResume = false) :
    (live steps ≠ [] → Settled (runFrom step steps (initial status)) ∧
      (runFrom step steps (initial status)).processed.getLast? = (live steps).getLast?) ∧
    (Quiescent (runFrom step steps (initial status)) →
      Settled (runFrom step steps (initial status)) ∧
      (runFrom step steps (initial status)).processed.getLast? =
        (live steps).getLast?.or (kept (deferred steps))) := by
  have hinitial : Deferring (initial status) := ⟨rfl, rfl, rfl, rfl⟩
  obtain ⟨hresumed, hout, hpend⟩ := hinitial.run hapart hover
  have hstored : stored (initial status) = none := rfl
  rw [hstored, foldl_keep_none] at hout
  constructor
  · intro hlive
    have hp : (runFrom step steps (initial status)).bridge.deferredHpdPending = false :=
      Bool.eq_false_iff.2 fun hp => hlive (hpend hp)
    rw [outcome, hp] at hout
    refine ⟨hresumed.settled hp, hout.trans ?_⟩
    rw [List.getLast?_eq_some_getLast hlive, Option.some_or]
  · intro hq
    have hp : (runFrom step steps (initial status)).bridge.deferredHpdPending = false := by
      refine Bool.eq_false_iff.2 fun hp => ?_
      rcases hresumed.pending hp with hwork | htests
      · exact absurd (hq.work.symm.trans hwork) nofun
      · exact absurd (hq.notifier.symm.trans htests) nofun
    rw [outcome, hp] at hout
    exact ⟨hresumed.settled hp, hout⟩

/-- A display is plugged in and out before the first resume. -/
def unplugged : List Step :=
  [.notify .connected, .notify .disconnected, .pmNotifier .postSuspend, .testAndSchedule, .work]

theorem unplugged_replays : Settled (runFrom step unplugged (initial .unknown)) ∧
    (runFrom step unplugged (initial .unknown)).processed.getLast? = some .connected := by
  have hapart : Meets step Apart unplugged (initial .unknown) :=
    ⟨fun _ _ => nofun, fun _ _ => nofun, nofun, nofun, nofun, trivial⟩
  exact (deferredHpd_replays .unknown hapart rfl).2 ⟨rfl, rfl, rfl⟩

/-- The replay does not tell that it was unplugged. -/
theorem unplugged_not_truth : ¬ ReplaysTruth (initial .unknown) unplugged := by
  intro h
  have hlast := h ⟨rfl, rfl, rfl⟩
  exact absurd hlast (by decide)

/-- An event between the two steps of the notifier is overtaken by the kept status. -/
example : (runFrom step [.notify .connected, .pmNotifier .postSuspend, .notify .disconnected,
    .testAndSchedule, .work] (initial .unknown)).processed = [.disconnected, .connected] := by
  decide

end Gts9Wifi.Display
