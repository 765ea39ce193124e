import Gts9Wifi.Lib.Runs
import Gts9Wifi.Pen.Wez01

/-!
# Palm rejection and the silence timer

While the pen is in range the touchscreen is silenced, and a timer ends that when the digitizer falls
silent. The driver stops the timer with `timer_shutdown_sync`, after which it can never be armed
again: the invariant that the timer runs while proximity is set is broken by exactly one kind of
step, an in-range frame after the timer has been shut down.
-/

namespace Gts9Wifi.Pen

open Driver

/-! ## Vocabulary -/

/-- While proximity is set, the silence timer runs. -/
def TimesOut (w : Wez01) : Prop := w.penProximity = true → w.proxTimer = .armed

instance (w : Wez01) : Decidable (TimesOut w) := inferInstanceAs (Decidable (_ → _))

/-- A coordinate packet with the pen in range. -/
def inRange (data : Packet) : Bool := data 0 &&& 0x0f = pktCoord ∧ data 0 &&& rdy ≠ 0

/-- An in-range frame is delivered after the timer has been shut down. -/
def Late (e : Event) (w : Wez01) : Prop :=
  ∃ data, e = .irq (some data) ∧ inRange data = true ∧ w.irqDisabled = 0 ∧ w.proxTimer = .shutdown

/-! ## What the functions do to proximity and the timer -/

@[simp] theorem leaveRange_penProximity (w : Wez01) : (leaveRange w).penProximity = false := by
  unfold leaveRange
  by_cases hp : w.penProximity = true
  · rw [if_pos hp]
    split <;> rfl
  · rw [if_neg hp]
    exact Bool.eq_false_iff.2 hp

theorem timesOut_leaveRange (w : Wez01) : TimesOut (leaveRange w) := by
  intro hp
  rw [leaveRange_penProximity] at hp
  exact nomatch hp

/-- An interrupt is idle, ends proximity or starts it. -/
theorem irqHandler_cases (recv : Option Packet) (w : Wez01) :
    irqHandler recv w = w ∨
      irqHandler recv w = leaveRange { w with proxTimer := .shutdown } ∨
      ∃ data, recv = some data ∧ inRange data = true ∧
        (irqHandler recv w).penProximity = true ∧
        (irqHandler recv w).proxTimer = w.proxTimer.mod := by
  cases recv with
  | none => exact .inl rfl
  | some data =>
    by_cases hpkt : data 0 &&& 0x0f = pktCoord
    · by_cases hrdy : data 0 &&& rdy = 0
      · refine .inr (.inl ?_)
        simp only [irqHandler, hpkt, hrdy, ne_eq, not_true_eq_false, ↓reduceIte]
      · refine .inr (.inr ⟨data, rfl, ?_, ?_⟩)
        · simp only [inRange, hpkt, hrdy, ne_eq, not_false_eq_true, and_self, decide_true]
        · simp only [irqHandler, hpkt, hrdy, ne_eq, not_true_eq_false, ↓reduceIte, and_self]
    · refine .inl ?_
      simp only [irqHandler, hpkt, ne_eq, not_false_eq_true, ↓reduceIte]

theorem irqHandler_of_inRange {data : Packet} (h : inRange data = true) (w : Wez01) :
    (irqHandler (some data) w).penProximity = true ∧
      (irqHandler (some data) w).proxTimer = w.proxTimer.mod := by
  simp only [inRange, ne_eq, decide_eq_true_eq] at h
  simp only [irqHandler, h, ne_eq, not_true_eq_false, ↓reduceIte, and_self]

/-- When the silence timer expires, proximity ends. -/
theorem expire_clears {w : Wez01} (h : TimesOut w) : (step .expire w).penProximity = false := by
  show (if w.proxTimer = .armed then leaveRange { w with proxTimer := .idle } else w).penProximity = _
  by_cases harmed : w.proxTimer = .armed
  · rw [if_pos harmed]
    exact leaveRange_penProximity _
  · rw [if_neg harmed]
    by_contra hp
    exact harmed (h (Bool.not_eq_false _ |>.mp hp))

/-- The touchscreen is heard again. -/
theorem expire_ends_suppression {w : Wez01} (h : TimesOut w) :
    shouldSuppressTouch (step .expire w) = false := by
  unfold shouldSuppressTouch
  rw [expire_clears h, Bool.and_false]

/-! ## Steps and runs -/

/-- A step keeps the invariant unless it is a late frame, which breaks it. -/
theorem timesOut_step_iff {w : Wez01} (hw : TimesOut w) (e : Event) :
    ¬ Late e w ↔ TimesOut (step e w) := by
  cases e with
  | irq recv =>
    show _ ↔ TimesOut (if w.irqDisabled = 0 then irqHandler recv w else w)
    by_cases hirq : w.irqDisabled = 0
    · rw [if_pos hirq]
      by_cases hin : ∃ data, recv = some data ∧ inRange data = true
      · obtain ⟨data, rfl, hdata⟩ := hin
        obtain ⟨hprox, htimer⟩ := irqHandler_of_inRange hdata w
        have hlate : Late (.irq (some data)) w ↔ w.proxTimer = .shutdown := by
          constructor
          · rintro ⟨_, -, -, -, h⟩
            exact h
          · intro h
            exact ⟨data, rfl, hdata, hirq, h⟩
        unfold TimesOut
        rw [hlate, hprox, htimer, Timer.mod_eq_armed_iff]
        exact ⟨fun h _ => h, fun h => h rfl⟩
      · have hlate : ¬ Late (.irq recv) w := by
          rintro ⟨data, hrecv, hdata, -, -⟩
          cases hrecv
          exact hin ⟨data, rfl, hdata⟩
        refine iff_of_true hlate ?_
        rcases irqHandler_cases recv w with h | h | ⟨data, hrecv, hdata, -, -⟩
        · rw [h]
          exact hw
        · rw [h]
          exact timesOut_leaveRange _
        · exact absurd ⟨data, hrecv, hdata⟩ hin
    · rw [if_neg hirq]
      refine iff_of_true ?_ hw
      rintro ⟨_, -, -, h, -⟩
      exact hirq h
  | expire =>
    refine iff_of_true (fun h => nomatch h.choose_spec.1) ?_
    intro hp
    rw [expire_clears hw] at hp
    exact nomatch hp
  | suspend =>
    refine iff_of_true (fun h => nomatch h.choose_spec.1) ?_
    exact timesOut_leaveRange _
  | resume => exact iff_of_true (fun h => nomatch h.choose_spec.1) hw
  | calibrate c => exact iff_of_true (fun h => nomatch h.choose_spec.1) hw

/-- **Palm rejection times out.** Over every sequence of interrupts, expiries, suspends and resumes
from the probed driver, proximity has a running timer in every state precisely when no in-range
frame is delivered once the timer has been shut down. -/
theorem proximity_times_out_iff (maxX : BitVec 16) (events : List Event) :
    (∀ pre, pre <+: events → TimesOut (runFrom step pre (.probed maxX))) ↔
      Meets step (fun e w => ¬ Late e w) events (.probed maxX) := by
  have h0 : TimesOut (.probed maxX) := fun h => nomatch h
  exact meets_iff_prefix (J := TimesOut) (fun e w _ hw => timesOut_step_iff hw e)
    (meets_true events _) h0

/-- A coordinate packet that has nothing but its first byte. -/
def coordPacket (flags : BitVec 8) : Packet := fun i => if i = 0 then flags ||| pktCoord else 0

/-- The pen comes, leaves and comes back: the second time nothing will end its proximity. -/
theorem second_session_never_times_out :
    ¬ TimesOut (runFrom step [.irq (some (coordPacket rdy)), .irq (some (coordPacket 0)),
      .irq (some (coordPacket rdy))] (.probed 14752)) := by
  intro h
  exact absurd (h rfl) (by decide)

end Gts9Wifi.Pen
