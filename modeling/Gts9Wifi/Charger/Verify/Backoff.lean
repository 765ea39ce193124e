import Gts9Wifi.Charger.Verify.HandBack

/-!
# How far the pump driver backs off

`sm5440_backoff` counts failures and lengthens the delay with them, and a complete healthy poll
clears the count. A successful `sm5440_start` clears it as well. So the count is the number of
failures since the last healthy poll precisely as long as no start succeeds with failures on the
books: a pump that starts and fails its first poll, again and again, is retried at the shortest
delay for ever.
-/

namespace Gts9Wifi.Charger.Sm5440

open Driver

/-! ## Vocabulary -/

/-- The fast-charge switch is on. -/
def FastChargeOn (s : State) : Prop := s.mem.primary = true ∧ s.mem.bat.fastCharge = true

/-- A pass while the pump is off, up to the verdict of `sm5440_eligible`. -/
def untilStart : Code Bool := do
  store cancelDelayedWork
  let _ ← load
  let _ ← Sm5714.fastChargeEnabled
  eligible

/-- The same, and the `sm5440_start` that follows. -/
def tryStart : Code (Except Errno Unit) := do
  let _ ← untilStart
  start.run

/-- What the `sm5440_start` of a pass returns. -/
def startResult (ι : Nat → Input) (s : State) : Except Errno Unit := (tryStart.run board ι s).1

/-- Every pass finds fast charging on and, if the pump is off, the battery eligible. -/
def Wanted : PumpStep → State → Prop
  | .call .work ι, s =>
    FastChargeOn s ∧ (s.mem.dc.active = false → (untilStart.run board ι s).1 = true)
  | _, _ => True

/-- What a step says about the pump. -/
inductive Verdict
  | failure | healthy | silent
deriving DecidableEq

/-- A pass fails if its start does, or if it stops a running pump; it is a complete healthy poll if
the pump keeps running. -/
def verdict : PumpStep → State → Verdict
  | .call .work ι, s =>
    if s.mem.dc.active then
      if (pumpStep (.call .work ι) s).mem.dc.active then .healthy else .failure
    else
      match startResult ι s with
      | .ok () => .silent
      | .error _ => .failure
  | _, _ => .silent

/-- Failures since the last complete healthy poll. -/
def Verdict.count : Verdict → Nat → Nat
  | .failure, k => k + 1
  | .healthy, _ => 0
  | .silent, k => k

/-- A step, with the failures counted beside it. -/
def countedStep (l : PumpStep) (p : State × Nat) : State × Nat :=
  (pumpStep l p.1, (verdict l p.1).count p.2)

/-- The count in the driver is the number of failures, up to `SM5440_MAX_FAILS`. -/
def Escalated (p : State × Nat) : Prop := p.1.mem.dc.fails = min p.2 maxFails

/-- After a failure that is at least the fifth, the next pass is queued with the quiet delay. The PM
notifier owns the queue while the system is suspending. -/
def QuietAfter (l : PumpStep) (p : State × Nat) : Prop :=
  verdict l p.1 = .failure → maxFails ≤ (countedStep l p).2 → p.1.mem.dc.suspending = false →
    (countedStep l p).1.mem.dc.pending = some quietRetryMs

/-- The back-off escalates along the run. -/
def Escalates (steps : List PumpStep) (p : State × Nat) : Prop :=
  (∀ pre, pre <+: steps → Escalated (runFrom countedStep pre p)) ∧
    Meets countedStep QuietAfter steps p

/-- A start attempted with failures on the books fails. -/
def StaysDown : PumpStep → State → Prop
  | .call .work ι, s => s.mem.dc.active = false → 0 < s.mem.dc.fails → startResult ι s ≠ .ok ()
  | _, _ => True

/-! ## What each function does to the books -/

/-- The count after `sm5440_backoff`. -/
def bump (n : Nat) : Nat := if n < maxFails then n + 1 else n

theorem bump_min (k : Nat) : bump (min k maxFails) = min (k + 1) maxFails := by
  unfold bump maxFails
  split <;> omega

section

variable {α : Type} {s : State} {b active : Bool} {n d : Nat} {q : Bool} {p : Option Nat}

theorem wp_keepsBook {c : Code α} (hc : Issues KeepsBook c) {B : Bool × Nat × Bool × Option Nat}
    (hs : book s.mem.dc = B) :
    wp (fun _ => True) (Monitor.idle board) c (fun _ _ s' => book s'.mem.dc = B) () s := by
  refine hc.wp (W := board) (M := Monitor.idle board) (J := fun _ s' => book s'.mem.dc = B)
    (fun o ho i _ s' _ hs' => ⟨trivial, ?_⟩) hs
  exact (ho.frame i s').trans hs'

theorem setDirectCharge_book (hs : book s.mem.dc = (active, n, q, p)) :
    wp (fun _ => True) (Monitor.idle board) (Sm5714.setDirectCharge b).seq
      (fun _ _ s' => book s'.mem.dc = (active, n, q, p)) () s := by
  rw [setDirectCharge_seq, wp_bind]
  refine wp_enter fun i => ?_
  exact wp_keepsBook ((setDirectChargeBody_onSm5714 b).mono fun _ => OnSm5714.keepsBook) hs

theorem restoreSwitching_book (hs : book s.mem.dc = (active, n, q, p)) :
    wp (fun _ => True) (Monitor.idle board) restoreSwitching
      (fun _ _ s' => book s'.mem.dc = (false, n, q, p)) () s := by
  unfold restoreSwitching
  rw [wp_bind]
  refine wp_enter fun i => ?_
  have hs₀ : book (s.settle i).mem.dc = (active, n, q, p) := hs
  apply wp_seq (wp_keepsBook (updateBits_keepsBook _ _ _) hs₀)
  intro _ _ s₁ hs₁
  apply wp_seq (wp_keepsBook (updateBits_keepsBook _ _ _) hs₁)
  intro _ _ s₂ hs₂
  apply wp_seq (wp_keepsBook (updateBits_keepsBook _ _ _) hs₂)
  intro _ _ s₃ hs₃
  apply wp_seq (wp_keepsBook ((psyAttempts_negotiates _ _ _).mono fun _ => Negotiates.keepsBook) hs₃)
  intro _ _ s₄ hs₄
  apply wp_seq (setDirectCharge_book hs₄)
  intro _ _ s₅ hs₅
  rw [wp_bind]
  refine wp_store (wp_store ?_)
  exact congrArg (fun B : Bool × Nat × Bool × Option Nat => (false, B.2)) hs₅

theorem backoff_book (hs : book s.mem.dc = (active, n, q, p)) :
    wp (fun _ => True) (Monitor.idle board) backoff
      (fun d _ s' => book s'.mem.dc = (active, bump n, q, p) ∧ d = backoffMs (bump n)) () s := by
  obtain ⟨rfl, rfl, rfl, rfl⟩ : s.mem.dc.active = active ∧ s.mem.dc.fails = n ∧
      s.mem.dc.suspending = q ∧ s.mem.dc.pending = p := by simpa [book] using hs
  unfold backoff
  apply wp_load_seq
  dsimp only
  rw [wp_bind]
  exact wp_store ⟨rfl, rfl⟩

/-- A pass with a running pump either finds it healthy, or stops it and backs off. -/
def Polled (n : Nat) (q : Bool) (p : Option Nat) (d : Nat) (s : State) : Prop :=
  book s.mem.dc = (true, 0, q, p) ∨
    book s.mem.dc = (false, bump n, q, p) ∧ d = backoffMs (bump n)

theorem restore_backoff_book (hs : book s.mem.dc = (active, n, q, p)) :
    wp (fun _ => True) (Monitor.idle board) (restoreSwitching >>= fun _ => backoff)
      (fun d _ s' => Polled n q p d s') () s := by
  apply wp_seq (restoreSwitching_book hs)
  intro _ _ s₁ hs₁
  exact wp_mono (backoff_book hs₁) fun d _ s' h => .inr h

theorem logged_restore_book (hs : book s.mem.dc = (active, n, q, p)) :
    wp (fun _ => True) (Monitor.idle board)
      (logFaults >>= fun _ => restoreSwitching >>= fun _ => backoff)
      (fun d _ s' => Polled n q p d s') () s := by
  apply wp_seq (wp_keepsBook (logFaults_looks.mono fun _ => Looks.keepsBook) hs)
  intro _ _ s₁ hs₁
  exact restore_backoff_book hs₁

theorem workMonitor_book (hs : book s.mem.dc = (true, n, q, p)) :
    wp (fun _ => True) (Monitor.idle board) workMonitor (fun d _ s' => Polled n q p d s') () s := by
  unfold workMonitor
  apply wp_seq (wp_keepsBook (measure_looks.mono fun _ => Looks.keepsBook) hs)
  intro r _ s₁ hs₁
  refine wp_ite (fun _ => ?_) fun _ => logged_restore_book hs₁
  apply wp_seq (wp_keepsBook (updateBits_keepsBook _ _ _) hs₁)
  intro r _ s₂ hs₂
  cases r with
  | error e => exact restore_backoff_book hs₂
  | ok _ =>
    dsimp only
    rw [wp_bind]
    refine wp_store (.inl ?_)
    exact congrArg (fun B : Bool × Nat × Bool × Option Nat => (B.1, 0, B.2.2)) hs₂

theorem workActive_book (hfast : FastChargeOn s) (hs : book s.mem.dc = (true, n, q, p)) :
    wp (fun _ => True) (Monitor.idle board) workActive (fun d _ s' => Polled n q p d s') () s := by
  unfold workActive Sm5714.fastChargeEnabled
  rw [wp_bind]
  apply wp_load_seq
  refine wp_ite (fun hoff => ?_) fun _ => ?_
  · exact absurd (by simp [hfast.1, hfast.2]) hoff
  apply wp_load_seq
  dsimp only
  rw [wp_bind]
  apply wp_store
  refine wp_ite (fun _ => ?_) fun _ => workMonitor_book hs
  rw [wp_bind]
  apply wp_store
  refine wp_seq (wp_keepsBook renegotiatePps_keepsBook hs) ?_
  intro r _ s₁ hs₁
  cases r with
  | error e => exact logged_restore_book hs₁
  | ok _ => exact workMonitor_book hs₁

/-- A start that is attempted with the pump off leaves the driver active precisely if it succeeds. -/
theorem start_book (hs : book s.mem.dc = (false, n, q, p)) :
    wp (fun _ => True) (Monitor.idle board) start.run
      (fun r _ s' => book s'.mem.dc = (r.isOk, n, q, p)) () s := by
  unfold start
  apply wp_run_seq (wp_keepsBook ((psyGetNonneg_looks _ _).mono fun _ => Looks.keepsBook) hs)
  · intro e _ s₁ hs₁
    exact hs₁
  intro batteryUv _ s₁ hs₁
  apply wp_run_seq (setDirectCharge_book hs₁)
  · intro e _ s₂ hs₂
    exact hs₂
  intro _ _ s₂ hs₂
  apply wp_run_attempt_seq (wp_keepsBook (startPump_keepsBook batteryUv) hs₂)
  intro r _ s₃ hs₃
  cases r with
  | error e =>
    dsimp only
    rw [wp_run_bind, wp_run_lift]
    exact restoreSwitching_book hs₃
  | ok point =>
    dsimp only
    rw [wp_run_lift]
    exact wp_store (congrArg (fun B : Bool × Nat × Bool × Option Nat => (true, B.2)) hs₃)

end

/-! ## One pass -/

/-- The end of a pass: queue the next one. -/
def requeue (delay : Nat) : Code Unit := do
  if ¬ (← load).dc.suspending then
    store (schedule delay)

/-- The delay after an `sm5440_start`. -/
def startDelay : Except Errno Unit → Code Nat
  | .ok () => do
    store (Direct.setFails 0)
    return pollMs
  | .error _ => backoff

/-- A pass while the pump is off, after its `sm5440_start`. -/
def concludeStart (r : Except Errno Unit) : Code Unit := startDelay r >>= requeue

theorem run_load_bind {β : Type} (f : Mem → Code β) (ι : Nat → Input) (s : State) :
    (load >>= f).run board ι s = (f s.mem).run board (fun n => ι (n + 1)) s := rfl

theorem run_store_bind {β : Type} (g : Mem → Mem) (f : Unit → Code β) (ι : Nat → Input) (s : State) :
    (store g >>= f).run board ι s = (f ()).run board (fun n => ι (n + 1)) (s.setMem g) := rfl

/-- A wanted pass while the pump is off is its attempt to start, and the conclusion from it. -/
theorem work_run_idle {ι : Nat → Input} {s : State} (hfast : FastChargeOn s)
    (hoff : s.mem.dc.active = false) (helig : (untilStart.run board ι s).1 = true) :
    work.run board ι s = (tryStart >>= concludeStart).run board ι s := by
  have hswitch : (s.mem.primary && s.mem.bat.fastCharge) = true := by simp [hfast.1, hfast.2]
  unfold untilStart Sm5714.fastChargeEnabled at helig
  simp only [bind_assoc, pure_bind] at helig
  rw [run_store_bind, run_load_bind, run_load_bind] at helig
  unfold work workPass workIdle tryStart untilStart Sm5714.fastChargeEnabled concludeStart requeue
  simp only [bind_assoc, pure_bind]
  rw [run_store_bind, run_load_bind, run_store_bind, run_load_bind, run_load_bind]
  rw [if_neg (by simp [cancelDelayedWork, hoff])]
  simp only [bind_assoc]
  rw [run_load_bind, if_neg (by simp [cancelDelayedWork, hswitch])]
  simp only [bind_assoc]
  rw [Prog.run_bind, if_neg (by simpa using helig), bind_assoc, Prog.run_bind (p := eligible)]
  rfl

section

variable {ι : Nat → Input} {s : State}

theorem requeue_book {active : Bool} {n : Nat} {q : Bool} (hs : book s.mem.dc = (active, n, q, none))
    (d : Nat) :
    wp (fun _ => True) (Monitor.idle board) (requeue d)
      (fun _ _ s' => book s'.mem.dc = (active, n, q, if q then none else some d)) () s := by
  obtain ⟨rfl, rfl, rfl, hp⟩ : s.mem.dc.active = active ∧ s.mem.dc.fails = n ∧
      s.mem.dc.suspending = q ∧ s.mem.dc.pending = none := by simpa [book] using hs
  unfold requeue
  apply wp_load_seq
  refine wp_ite (fun hq => wp_store ?_) fun hq => ?_
  · simp [book, schedule, hq, hp]
  · rw [wp_pure, if_pos (by simpa using hq)]
    exact hs

/-- A pass while the pump runs: it is healthy and clears the count, or it adds one to it. -/
theorem work_active (hfast : FastChargeOn s) (hon : s.mem.dc.active = true) :
    (∃ p, book (pumpStep (.call .work ι) s).mem.dc = (true, 0, s.mem.dc.suspending, p)) ∨
      book (pumpStep (.call .work ι) s).mem.dc = (false, bump s.mem.dc.fails, s.mem.dc.suspending,
        if s.mem.dc.suspending then none else some (backoffMs (bump s.mem.dc.fails))) := by
  have hwork : wp (fun _ => True) (Monitor.idle board) work (fun _ _ s' =>
      (∃ p, book s'.mem.dc = (true, 0, s.mem.dc.suspending, p)) ∨
        book s'.mem.dc = (false, bump s.mem.dc.fails, s.mem.dc.suspending,
          if s.mem.dc.suspending then none else some (backoffMs (bump s.mem.dc.fails)))) () s := by
    unfold work workPass
    rw [wp_bind]
    refine wp_store ?_
    rw [wp_bind]
    apply wp_load_seq
    rw [if_pos (show (s.setMem cancelDelayedWork).mem.dc.active = true from hon)]
    have hs : book (s.setMem cancelDelayedWork).mem.dc =
        (true, s.mem.dc.fails, s.mem.dc.suspending, none) := by
      simp [book, cancelDelayedWork, hon]
    refine wp_mono (workActive_book hfast hs) ?_
    intro d _ s' hpolled
    rcases hpolled with hgood | ⟨hbad, rfl⟩
    · exact wp_mono (requeue_book hgood d) fun _ _ _ h => .inl ⟨_, h⟩
    · exact wp_mono (requeue_book hbad _) fun _ _ _ h => .inr h
  exact (wp_sound hwork ι fun _ _ => trivial).2

theorem tryStart_book (hoff : s.mem.dc.active = false) :
    wp (fun _ => True) (Monitor.idle board) tryStart (fun r _ s' =>
      book s'.mem.dc = (r.isOk, s.mem.dc.fails, s.mem.dc.suspending, none)) () s := by
  unfold tryStart untilStart
  simp only [bind_assoc]
  rw [wp_bind]
  apply wp_store
  apply wp_load_seq
  have hs : book (s.setMem cancelDelayedWork).mem.dc =
      (false, s.mem.dc.fails, s.mem.dc.suspending, none) := by
    simp [book, cancelDelayedWork, hoff]
  refine wp_seq (wp_keepsBook (fastChargeEnabled_looks.mono fun _ => Looks.keepsBook) hs) ?_
  intro _ _ s₁ hs₁
  apply wp_seq (wp_keepsBook (eligible_looks.mono fun _ => Looks.keepsBook) hs₁)
  intro _ _ s₂ hs₂
  exact start_book hs₂

/-- A successful start clears the count, a failed one adds to it. -/
theorem concludeStart_book (r : Except Errno Unit) {n : Nat} {q : Bool} :
    book s.mem.dc = (r.isOk, n, q, none) →
      wp (fun _ => True) (Monitor.idle board) (concludeStart r) (fun _ _ s' => book s'.mem.dc =
        match r with
        | .ok () => (true, 0, q, if q then none else some pollMs)
        | .error _ => (false, bump n, q, if q then none else some (backoffMs (bump n)))) () s := by
  intro hs
  cases r with
  | ok _ =>
    unfold concludeStart startDelay
    simp only [bind_assoc, pure_bind]
    rw [wp_bind]
    refine wp_store (requeue_book ?_ pollMs)
    exact congrArg (fun B : Bool × Nat × Bool × Option Nat => (B.1, 0, B.2.2)) hs
  | error e =>
    unfold concludeStart startDelay
    apply wp_seq (backoff_book hs)
    intro d _ s₁ hs₁
    obtain ⟨hs₁, rfl⟩ := hs₁
    exact requeue_book hs₁ _

/-- A wanted pass while the pump is off comes down to its start. -/
theorem work_idle (hfast : FastChargeOn s) (hoff : s.mem.dc.active = false)
    (helig : (untilStart.run board ι s).1 = true) :
    book (pumpStep (.call .work ι) s).mem.dc =
      match startResult ι s with
      | .ok () => (true, 0, s.mem.dc.suspending,
          if s.mem.dc.suspending then none else some pollMs)
      | .error _ => (false, bump s.mem.dc.fails, s.mem.dc.suspending,
          if s.mem.dc.suspending then none else some (backoffMs (bump s.mem.dc.fails))) := by
  have hbook := (wp_sound (tryStart_book hoff) ι fun _ _ => trivial).2
  show book (work.run board ι s).2.mem.dc = _
  rw [work_run_idle hfast hoff helig, Prog.run_bind]
  exact (wp_sound (concludeStart_book _ hbook) _ fun _ _ => trivial).2

end

/-! ## Runs -/

theorem suspendPrepare_fails (s : State) (ι : Nat → Input) :
    (suspendPrepare.run board ι s).2.mem.dc.fails = s.mem.dc.fails := by
  have hprep : wp (fun _ => True) (Monitor.idle board) suspendPrepare
      (fun _ _ s' => s'.mem.dc.fails = s.mem.dc.fails) () s := by
    unfold suspendPrepare
    rw [wp_bind]
    refine wp_store ?_
    rw [wp_bind]
    refine wp_store (wp_load_seq ?_)
    refine wp_ite (fun _ => ?_) fun _ => rfl
    refine wp_seq (wp_keepsBook (updateBits_keepsBook _ _ _) (B := (s.mem.dc.active, s.mem.dc.fails, true, none)) rfl) ?_
    intro _ _ s₁ hs₁
    refine wp_mono (restoreSwitching_book hs₁) fun _ _ s' hs' => ?_
    exact congrArg (fun B : Bool × Nat × Bool × Option Nat => B.2.1) hs'
  exact (wp_sound hprep ι fun _ _ => trivial).2

theorem cancelWork_fails (s : State) (ι : Nat → Input) :
    (cancelWork.run board ι s).2.mem.dc.fails = s.mem.dc.fails := by
  have hcancel : wp (fun _ => True) (Monitor.idle board) cancelWork
      (fun _ _ s' => s'.mem.dc.fails = s.mem.dc.fails) () s := by
    unfold cancelWork
    rw [wp_bind]
    refine wp_store (wp_load_seq ?_)
    refine wp_ite (fun _ => ?_) fun _ => rfl
    refine wp_mono (restoreSwitching_book (s := s.setMem cancelDelayedWork) rfl) fun _ _ s' hs' => ?_
    exact congrArg (fun B : Bool × Nat × Bool × Option Nat => B.2.1) hs'
  exact (wp_sound hcancel ι fun _ _ => trivial).2

/-- What a wanted step does to the count, by what it says about the pump. -/
theorem pumpStep_fails {l : PumpStep} {s : State} (hl : Wanted l s) :
    match verdict l s with
    | .failure => (pumpStep l s).mem.dc.fails = bump s.mem.dc.fails ∧
        (s.mem.dc.suspending = false →
          (pumpStep l s).mem.dc.pending = some (backoffMs (bump s.mem.dc.fails)))
    | .healthy => (pumpStep l s).mem.dc.fails = 0
    | .silent => StaysDown l s ∧ (pumpStep l s).mem.dc.fails = s.mem.dc.fails ∨
        ∃ ι, l = .call .work ι ∧ s.mem.dc.active = false ∧ startResult ι s = .ok () ∧
          (pumpStep l s).mem.dc.fails = 0 := by
  cases l with
  | elsewhere f hf => exact .inl ⟨trivial, congrArg Direct.fails (hf.driver s)⟩
  | call c ι =>
    cases c with
    | suspendPrepare => exact .inl ⟨trivial, suspendPrepare_fails s ι⟩
    | postSuspend => exact .inl ⟨trivial, rfl⟩
    | cancelWork => exact .inl ⟨trivial, cancelWork_fails s ι⟩
    | work =>
      obtain ⟨hfast, helig⟩ := hl
      cases hactive : s.mem.dc.active with
      | true =>
        rcases work_active (ι := ι) hfast hactive with ⟨p, hgood⟩ | hbad
        · simp only [book, Prod.mk.injEq] at hgood
          simp [verdict, hactive, hgood]
        · simp only [book, Prod.mk.injEq] at hbad
          simp only [verdict, hactive, hbad, if_true, if_false, Bool.false_eq_true, true_and]
          intro hq
          simp [hq]
      | false =>
        have hbook := work_idle hfast hactive (helig hactive)
        cases hr : startResult ι s with
        | ok _ =>
          simp only [hr, book, Prod.mk.injEq] at hbook
          simp only [verdict, hactive, hr, Bool.false_eq_true, if_false]
          exact .inr ⟨ι, rfl, trivial, hr, hbook.2.1⟩
        | error e =>
          simp only [hr, book, Prod.mk.injEq] at hbook
          simp only [verdict, hactive, hr, hbook, Bool.false_eq_true, if_false, true_and]
          intro hq
          simp [hq]

theorem fails_eq_zero_iff {p : State × Nat} (hp : Escalated p) :
    p.1.mem.dc.fails = 0 ↔ p.2 = 0 := by
  unfold Escalated maxFails at hp
  omega

/-- A pass that fails, or finds the pump healthy, has not cleared the count by a start. -/
theorem staysDown_of_verdict {l : PumpStep} {s : State} (h : verdict l s ≠ .silent) :
    StaysDown l s := by
  cases l with
  | elsewhere f hf => trivial
  | call c ι =>
    cases c with
    | work =>
      intro hoff _ hok
      simp [verdict, hoff, hok] at h
    | _ => trivial

/-- From counted failures, a wanted step goes to counted failures precisely if no start succeeds with
failures on the books. -/
theorem countedStep_escalated {l : PumpStep} {p : State × Nat} (hl : Wanted l p.1)
    (hp : Escalated p) : StaysDown l p.1 ↔ Escalated (countedStep l p) := by
  have hstep := pumpStep_fails hl
  unfold Escalated countedStep
  cases hv : verdict l p.1 with
  | failure =>
    simp only [hv] at hstep
    have hdown : StaysDown l p.1 := staysDown_of_verdict (by simp [hv])
    simp only [hdown, true_iff, Verdict.count]
    rw [hstep.1, hp, bump_min]
  | healthy =>
    simp only [hv] at hstep
    have hdown : StaysDown l p.1 := staysDown_of_verdict (by simp [hv])
    simp only [hdown, true_iff, Verdict.count]
    rw [hstep, Nat.zero_min]
  | silent =>
    simp only [hv] at hstep
    rcases hstep with ⟨hdown, hsame⟩ | ⟨ι, rfl, hoff, hok, hzero⟩
    · simp only [hdown, true_iff, Verdict.count]
      rw [hsame, hp]
    · have hiff := fails_eq_zero_iff hp
      have hdown : StaysDown (.call .work ι) p.1 ↔ p.1.mem.dc.fails = 0 := by
        simp [StaysDown, hoff, hok]
      rw [hdown, hiff]
      simp only [Verdict.count, hzero, maxFails]
      omega

theorem backoffMs_of_maxFails {n : Nat} (h : maxFails ≤ n) : backoffMs n = quietRetryMs :=
  if_pos h

theorem countedStep_quiet {l : PumpStep} {p : State × Nat} (hl : Wanted l p.1) (hp : Escalated p) :
    QuietAfter l p := by
  intro hv hcount hq
  have hstep := pumpStep_fails hl
  simp only [hv] at hstep
  unfold countedStep at hcount ⊢
  simp only [hv, Verdict.count] at hcount
  rw [hstep.2 hq, hp, bump_min, backoffMs_of_maxFails (by omega)]

/-- **The back-off escalates as long as the pump stays down.** In a run of wanted passes, the PM
notifier, the removal and changes elsewhere, in any order and with any accesses failing: the count of
the driver is the number of failures since the last complete healthy poll, up to five, and from the
fifth on the next attempt waits for the quiet delay, if and only if every start attempted with
failures on the books fails. -/
theorem backoff_escalates {steps : List PumpStep} {s : State} (h0 : s.mem.dc.fails = 0)
    (hrun : Meets pumpStep Wanted steps s) :
    Escalates steps (s, 0) ↔ Meets pumpStep StaysDown steps s := by
  have hproj : ∀ C, Meets countedStep (fun l p => C l p.1) steps (s, 0) ↔ Meets pumpStep C steps s :=
    fun C => meets_proj (f := Prod.fst) (C := C) (fun _ _ => rfl) steps (s, 0)
  have hwanted := (hproj Wanted).2 hrun
  have hcount : Escalated (s, 0) := h0
  have hexact := meets_iff_prefix (C := fun l p => StaysDown l p.1) (J := Escalated)
    (fun l p hl hp => countedStep_escalated hl hp) hwanted hcount
  constructor
  · intro h
    exact (hproj StaysDown).1 (hexact.1 h.1)
  · intro h
    have hdown := (hproj StaysDown).2 h
    refine ⟨hexact.2 hdown, ?_⟩
    exact Meets.imp (J := Escalated)
      (fun l p hp hl => ⟨(countedStep_escalated hl.1 hp).1 hl.2, countedStep_quiet hl.1 hp⟩) hcount
      (hwanted.and hdown)

/-- The board as probed, with fast charging switched on. -/
def fastChargeBoard : State := State.probed.setMem (Sm5714.Battery.setFastCharge true)

/-- A pass on an eligible battery whose start fails, the pack voltage being unreadable. -/
def failedStartPass : PumpStep := .call .work fun n => match n with
  | 3 => { val := 1 }
  | 4 => { val := 50 }
  | 5 => { val := 250 }
  | 6 => { val := 3800000 }
  | _ => { fault := some .eio }

/-- Five starts fail in a row. -/
theorem backoff_escalates_failed_starts :
    Escalates (List.replicate 5 failedStartPass) (fastChargeBoard, 0) := by
  refine (backoff_escalates rfl ?_).2 ?_
  · exact ⟨⟨⟨rfl, rfl⟩, fun _ => rfl⟩, ⟨⟨rfl, rfl⟩, fun _ => rfl⟩, ⟨⟨rfl, rfl⟩, fun _ => rfl⟩,
      ⟨⟨rfl, rfl⟩, fun _ => rfl⟩, ⟨⟨rfl, rfl⟩, fun _ => rfl⟩, trivial⟩
  · exact ⟨fun _ _ h => (nomatch h), fun _ _ h => (nomatch h), fun _ _ h => (nomatch h),
      fun _ _ h => (nomatch h), fun _ _ h => (nomatch h), trivial⟩

/-- The pump starts, and its first poll finds no VBUS. -/
def startAndFail : List PumpStep := [startPass, .call .work (inputs [])]

/-- Five times over, the pump starts and fails its first poll. That makes five failures without a
healthy poll, and the driver has counted one. -/
theorem cycling_never_quiet :
    fastChargeBoard.mem.dc.fails = 0 ∧
      Meets pumpStep Wanted (List.replicate 5 startAndFail).flatten fastChargeBoard ∧
      (runFrom countedStep (List.replicate 5 startAndFail).flatten (fastChargeBoard, 0)).2 = 5 ∧
      (runFrom countedStep (List.replicate 5 startAndFail).flatten
        (fastChargeBoard, 0)).1.mem.dc.fails = 1 ∧
      (runFrom countedStep (List.replicate 5 startAndFail).flatten
        (fastChargeBoard, 0)).1.mem.dc.pending = some 4000 ∧
      ¬ Escalates (List.replicate 5 startAndFail).flatten (fastChargeBoard, 0) := by
  have hfails : (runFrom countedStep (List.replicate 5 startAndFail).flatten
      (fastChargeBoard, 0)).1.mem.dc.fails = 1 := rfl
  have hcount : (runFrom countedStep (List.replicate 5 startAndFail).flatten
      (fastChargeBoard, 0)).2 = 5 := rfl
  refine ⟨rfl, ?_, hcount, hfails, rfl, fun h => ?_⟩
  · exact ⟨⟨⟨rfl, rfl⟩, fun _ => rfl⟩, ⟨⟨rfl, rfl⟩, fun h => (nomatch h)⟩,
      ⟨⟨rfl, rfl⟩, fun _ => rfl⟩, ⟨⟨rfl, rfl⟩, fun h => (nomatch h)⟩,
      ⟨⟨rfl, rfl⟩, fun _ => rfl⟩, ⟨⟨rfl, rfl⟩, fun h => (nomatch h)⟩,
      ⟨⟨rfl, rfl⟩, fun _ => rfl⟩, ⟨⟨rfl, rfl⟩, fun h => (nomatch h)⟩,
      ⟨⟨rfl, rfl⟩, fun _ => rfl⟩, ⟨⟨rfl, rfl⟩, fun h => (nomatch h)⟩, trivial⟩
  · have hall := h.1 _ (List.prefix_refl _)
    unfold Escalated at hall
    rw [hfails, hcount] at hall
    exact absurd hall (by decide)

end Gts9Wifi.Charger.Sm5440
