import Gts9Wifi.Touch.Fts1ba90a
import Mathlib.Data.Set.Basic

/-!
# How events are batched

The handler ends a frame after every interrupt, and the input core then releases each slot that the
frame did not report. So what survives is what the last batch says, and not what the stream says: a
finger that is down and not mentioned in the last batch is released. The two agree precisely if the
last batch mentions every finger that is still down.
-/

namespace Gts9Wifi.Touch

open Driver

/-! ## What events say about slots -/

/-- What a coordinate event that is accepted says about slot `i`: a finger is down, or not. -/
def Ev.tells (ev : Ev) (i : Nat) : Option Bool :=
  if ev.eid = 0 ∧ ev.field = i ∧ i < maxFingers then
    if ev.ttype = 5 then some false
    else if ev.ttype = 0 ∨ ev.ttype = 3 ∨ ev.ttype = 6 then
      if ev.action = 3 then some false
      else if ev.action = 1 ∨ ev.action = 2 then some true
      else none
    else none
  else none

/-- What the last accepted event about slot `i` says. -/
def lastSaid (events : List Ev) (i : Nat) : Option Bool :=
  (events.filterMap fun ev => ev.tells i).getLast?

/-- The slots whose last accepted event is a press or a move of a reportable touch type. -/
def held (events : List Ev) : Set Nat := { i | lastSaid events i = some true }

theorem lastSaid_append (l l' : List Ev) (i : Nat) :
    lastSaid (l ++ l') i = (lastSaid l' i).or (lastSaid l i) := by
  unfold lastSaid
  rw [List.filterMap_append, List.getLast?_append]

theorem lastSaid_cons (ev : Ev) (l : List Ev) (i : Nat) :
    lastSaid (ev :: l) i = (lastSaid l i).or (ev.tells i) := by
  have hone : lastSaid [ev] i = ev.tells i := by
    unfold lastSaid
    cases h : ev.tells i <;> simp [h]
  rw [← hone]
  exact lastSaid_append [ev] l i

theorem lastSaid_ne_none_iff {events : List Ev} {i : Nat} :
    lastSaid events i ≠ none ↔ ∃ ev ∈ events, ev.tells i ≠ none := by
  unfold lastSaid
  rw [ne_eq, List.getLast?_eq_none_iff, List.filterMap_eq_nil_iff]
  simp

/-! ## Runs of the handler -/

/-- The events one run of the handler reads, if its first read succeeds. -/
def readBatch (ι : Nat → Input) : Option (List Ev) :=
  (readEvents.run.run touch ι .probed).1.toOption

/-- Successive runs of the handler. -/
def runIrqs : List (Nat → Input) → State → State
  | [], s => s
  | ι :: rest, s => runIrqs rest (irqHandler.run touch ι s).2

/-- The batches of successive runs. -/
def batches (irqs : List (Nat → Input)) : List (List Ev) := irqs.filterMap readBatch

/-- The slots the input core holds active. -/
def activeSlots (s : State) : Set Nat := { i | s.input.active i = true }

/-- No pen is in range during the run. -/
def PenAway (ι : Nat → Input) : Prop := ∀ n, (ι n).flag = false

/-! ## What the handler does to the slots -/

/-- The slots after reports that say `said`: what was not mentioned is as before. -/
def Heard (said : Nat → Option Bool) (t t' : Slots) : Prop :=
  ∀ i, t'.active i = (said i).getD (t.active i) ∧ t'.used i = (t.used i || (said i).isSome)

theorem Heard.silent (t : Slots) : Heard (fun _ => none) t t := fun i => ⟨rfl, by simp⟩

theorem Heard.trans {f g : Nat → Option Bool} {t t' t'' : Slots} (h : Heard f t t')
    (h' : Heard g t' t'') : Heard (fun i => (g i).or (f i)) t t'' := by
  intro i
  obtain ⟨ha, hu⟩ := h i
  obtain ⟨ha', hu'⟩ := h' i
  rw [ha', hu', ha, hu]
  cases hg : g i <;> simp [hg]

/-- One report about the current slot. -/
theorem heard_reportSlot (t : Slots) (k : Nat) (active : Bool) :
    Heard (fun i => if i = k then some active else none) t
      ({ t with slot := k }.reportSlot active) := by
  intro i
  unfold Slots.reportSlot
  dsimp only
  split <;> simp

section Specs

variable {A : Event touch → Prop} {s : State}

theorem wp_mtSlot_seq {β : Type} {k : Nat} {f : Unit → Code β} {Q : β → Unit → State → Prop}
    (h : wp A (Monitor.idle touch) (f ()) Q () { s with input := { s.input with slot := k } }) :
    wp A (Monitor.idle touch) (mtSlot k >>= f) Q () s :=
  (wp_bind _ _ _ _ _).2 (wp_perform_of_ignores fun _ _ => h)

theorem wp_mtReportSlot_seq {β : Type} {active : Bool} {f : Unit → Code β}
    {Q : β → Unit → State → Prop}
    (h : wp A (Monitor.idle touch) (f ()) Q () { s with input := s.input.reportSlot active }) :
    wp A (Monitor.idle touch) (mtReportSlot active >>= f) Q () s :=
  (wp_bind _ _ _ _ _).2 (wp_perform_of_ignores fun _ _ => h)

theorem wp_report {r : Report} {Q : Unit → Unit → State → Prop} (h : Q () () s) :
    wp A (Monitor.idle touch) (report r) Q () s :=
  wp_perform_of_ignores fun _ _ => h

theorem wp_report_seq {β : Type} {r : Report} {f : Unit → Code β} {Q : β → Unit → State → Prop}
    (h : wp A (Monitor.idle touch) (f ()) Q () s) :
    wp A (Monitor.idle touch) (report r >>= f) Q () s :=
  (wp_bind _ _ _ _ _).2 (wp_report h)

/-- An event only says something about its own slot. -/
theorem tells_of_field {ev : Ev} {x : Option Bool} (hx : ev.tells ev.field = x) :
    ev.tells = fun i => if i = ev.field then x else none := by
  funext i
  split
  · next h =>
    rw [h]
    exact hx
  · next h => exact if_neg fun hi => h hi.2.1.symm

/-- An event is reported as it says. -/
theorem reportTouch_spec (ev : Ev) :
    wp A (Monitor.idle touch) (reportTouch ev) (fun _ _ s' => Heard ev.tells s.input s'.input) () s := by
  have hnone : ev.tells = (fun _ => none) → Heard ev.tells s.input s.input := by
    intro h
    rw [h]
    exact Heard.silent _
  unfold reportTouch
  refine wp_ite (fun h0 => hnone ?_) fun h0 => ?_
  · funext i
    exact if_neg fun hi => h0 hi.1
  have h0 : ev.eid = 0 := by simpa using h0
  dsimp only
  refine wp_ite (fun hk => hnone ?_) fun hk => ?_
  · funext i
    refine if_neg fun hi => ?_
    omega
  have hk : ev.field < maxFingers := by omega
  have htells : ev.tells ev.field = if ev.ttype = 5 then some false
      else if ev.ttype = 0 ∨ ev.ttype = 3 ∨ ev.ttype = 6 then
        if ev.action = 3 then some false
        else if ev.action = 1 ∨ ev.action = 2 then some true
        else none
      else none := if_pos ⟨h0, rfl, hk⟩
  refine wp_ite (fun hpalm => ?_) fun hpalm => ?_
  · rw [tells_of_field (htells.trans (if_pos hpalm))]
    exact wp_mtSlot_seq (wp_mtReportSlot_seq (heard_reportSlot _ _ _))
  rw [if_neg hpalm] at htells
  refine wp_ite (fun htype => hnone ?_) fun htype => ?_
  · rw [tells_of_field (htells.trans (if_neg htype))]
    funext i
    exact ite_self _
  rw [if_pos (not_not.1 htype)] at htells
  refine wp_mtSlot_seq ?_
  refine wp_ite (fun hrelease => ?_) fun hrelease => ?_
  · rw [tells_of_field (htells.trans (if_pos hrelease))]
    exact wp_mtReportSlot_seq (heard_reportSlot _ _ _)
  rw [if_neg hrelease] at htells
  refine wp_ite (fun haction => ?_) fun haction => ?_
  · rw [tells_of_field (htells.trans (if_neg haction))]
    intro i
    simp
  · rw [tells_of_field (htells.trans (if_pos (not_not.1 haction)))]
    refine wp_mtReportSlot_seq ?_
    refine wp_report_seq (wp_report_seq (wp_report_seq (wp_report ?_)))
    exact heard_reportSlot _ _ _

theorem reportWake_spec :
    wp A (Monitor.idle touch) reportWake (fun _ _ s' => s' = s) () s := by
  unfold reportWake
  exact wp_report_seq (wp_report_seq (wp_report_seq (wp_report rfl)))

/-- A gesture says nothing about a slot. -/
theorem says_of_doubleTap {ev : Ev} (h : isDoubleTap ev = true) : ev.tells = fun _ => none := by
  have heid : ev.eid = 2 := by
    simp only [isDoubleTap, Bool.and_eq_true, decide_eq_true_eq] at h
    exact h.1.1.1
  funext i
  refine if_neg fun hi => ?_
  rw [heid] at hi
  exact absurd hi.1 (by decide)

/-- The operation meets no pen in range. -/
def MeetsNoPen (e : Event touch) : Prop := e.input.flag = false

/-- The loop over a batch, with no pen in range. -/
theorem reportEvents_spec (events : List Ev) :
    wp MeetsNoPen (Monitor.idle touch) (reportEvents events)
      (fun _ _ s' => Heard (lastSaid events) s.input s'.input) () s := by
  induction events generalizing s with
  | nil => exact Heard.silent _
  | cons ev rest ih =>
    have hcons : lastSaid (ev :: rest) = fun i => (lastSaid rest i).or (ev.tells i) :=
      funext fun i => lastSaid_cons ev rest i
    rw [hcons]
    unfold reportEvents
    refine wp_ite (fun htap => ?_) fun _ => ?_
    · apply wp_seq reportWake_spec
      intro _ _ s₁ hs₁
      subst hs₁
      refine wp_mono ih fun _ _ s' h => ?_
      rw [says_of_doubleTap htap]
      simpa using h
    · rw [wp_bind]
      refine wp_perform_of_ignores fun i hi => ?_
      have hflag : i.flag = false := hi
      simp only [handle, hflag]
      apply wp_seq (reportTouch_spec ev)
      intro _ _ s₁ h₁
      refine wp_mono ih fun _ _ s' h => ?_
      exact h₁.trans h

/-- The handler after its reads: the batch is reported, and the frame ended. -/
def reportBatch (events : List Ev) : Code Unit := do
  reportEvents events
  if ¬ (← shouldSuppressTouch) then
    mtSyncFrame
    report .sync

theorem reportBatch_spec (hs : ∀ i, s.input.used i = false) (events : List Ev) :
    wp MeetsNoPen (Monitor.idle touch) (reportBatch events) (fun _ _ s' =>
      ∀ i, (s'.input.active i = true ↔ lastSaid events i = some true) ∧
        s'.input.used i = false) () s := by
  unfold reportBatch
  apply wp_seq (reportEvents_spec events)
  intro _ _ s₁ h₁
  rw [wp_bind]
  refine wp_perform_of_ignores fun i hi => ?_
  have hflag : i.flag = false := hi
  simp only [handle, hflag, Bool.false_eq_true, not_false_eq_true, if_true]
  rw [wp_bind]
  refine wp_perform_of_ignores fun j _ => wp_report fun k => ⟨?_, rfl⟩
  obtain ⟨ha, hu⟩ := h₁ k
  simp only [handle, Slots.syncFrame, ha, hu, hs k]
  cases lastSaid events k <;> simp

end Specs

/-! ## Runs -/

/-- Reads over I2C. -/
def Reads : Op → Prop
  | .i2cRead _ _ => True
  | _ => False

/-- What reads return does not depend on the state, and they do not change it. -/
theorem run_of_reads {α : Type} {p : Code α} (hp : Issues Reads p) (ι : Nat → Input) (s s' : State) :
    p.run touch ι s = ((p.run touch ι s').1, s) := by
  induction p generalizing ι with
  | ret a => rfl
  | call o k ih =>
    obtain ⟨ho, hk⟩ := hp
    cases o with
    | i2cRead cmd len => exact ih _ (hk _) _
    | _ => exact ho.elim

theorem readEvents_reads : Issues Reads readEvents.run := by
  unfold readEvents
  refine Issues.run_bind ⟨trivial, fun _ => trivial⟩ fun buf => ?_
  dsimp only
  split
  · refine Issues.run_bind (Issues.run_attempt ⟨trivial, fun _ => trivial⟩) fun r => ?_
    split <;> trivial
  · trivial

/-- One run of the handler, at the start of a frame. -/
theorem irqHandler_run {ι : Nat → Input} (hpen : PenAway ι) {s : State}
    (hs : ∀ i, s.input.used i = false) :
    (∀ i, (irqHandler.run touch ι s).2.input.used i = false) ∧
      match readBatch ι with
      | some batch => activeSlots (irqHandler.run touch ι s).2 = held batch
      | none => (irqHandler.run touch ι s).2 = s := by
  have hread := run_of_reads readEvents_reads ι s .probed
  obtain ⟨k, hirq, herror, hok⟩ : ∃ k, irqHandler = readEvents.run >>= k ∧
      (∀ e, k (.error e) = return ()) ∧ ∀ events, k (.ok events) = reportBatch events :=
    ⟨_, rfl, fun _ => rfl, fun _ => rfl⟩
  rw [hirq, Prog.run_bind, hread]
  unfold readBatch
  cases hr : (readEvents.run.run touch ι .probed).1 with
  | error e =>
    rw [herror]
    exact ⟨hs, rfl⟩
  | ok events =>
    rw [hok]
    have hbatch := (wp_sound (reportBatch_spec hs events)
      (fun n => ι (n + (readEvents.run.trace touch ι s).length)) fun e he => by
        obtain ⟨n, hn⟩ := Prog.exists_input_of_mem_trace he
        unfold MeetsNoPen
        rw [hn]
        exact hpen _).2
    exact ⟨fun i => (hbatch i).2, Set.ext fun i => (hbatch i).1⟩

/-- After any number of runs, the active slots are those the last batch holds. -/
theorem runIrqs_active {irqs : List (Nat → Input)} (hpen : ∀ ι ∈ irqs, PenAway ι) {s : State}
    (hs : ∀ i, s.input.used i = false) :
    activeSlots (runIrqs irqs s) =
      match (batches irqs).getLast? with
      | some batch => held batch
      | none => activeSlots s := by
  induction irqs generalizing s with
  | nil => rfl
  | cons ι irqs ih =>
    obtain ⟨hused, hactive⟩ := irqHandler_run (hpen ι List.mem_cons_self) hs
    have hrest := ih (fun ι' h => hpen ι' (List.mem_cons_of_mem _ h)) hused
    show activeSlots (runIrqs irqs _) = _
    rw [hrest]
    unfold batches
    rw [List.filterMap_cons]
    cases hb : readBatch ι with
    | none =>
      simp only [hb] at hactive ⊢
      rw [hactive]
    | some batch =>
      simp only [hb] at hactive ⊢
      rw [List.getLast?_cons]
      cases hl : (irqs.filterMap readBatch).getLast? with
      | none => simpa [hl] using hactive
      | some last => simp

/-- The last batch mentions every finger that is still down. -/
def MentionsHeld (l : List (List Ev)) : Prop :=
  ∀ i ∈ held l.flatten, ∃ ev ∈ l.getLastD [], ev.tells i ≠ none

/-- **Batching changes what is active** unless the last batch mentions every finger that is down. For
every sequence of handler runs without a pen in range, whatever their reads return: the slots left
active are those whose last accepted event in the whole stream is a press or a move, if and only if
each of them has an accepted event in the last batch. -/
theorem active_eq_held_iff {irqs : List (Nat → Input)} (hpen : ∀ ι ∈ irqs, PenAway ι) :
    activeSlots (runIrqs irqs .probed) = held (batches irqs).flatten ↔
      MentionsHeld (batches irqs) := by
  rw [runIrqs_active hpen (fun _ => rfl)]
  generalize batches irqs = l
  rcases List.eq_nil_or_concat l with rfl | ⟨init, last, rfl⟩
  · refine iff_of_true ?_ fun i hi => (nomatch hi)
    ext i
    exact iff_of_false Bool.false_ne_true fun h => (nomatch h)
  rw [List.concat_eq_append]
  have hheld : ∀ i, i ∈ held (init ++ [last]).flatten ↔
      (lastSaid last i).or (lastSaid init.flatten i) = some true := by
    intro i
    unfold held
    rw [List.flatten_concat, Set.mem_ofPred_eq, lastSaid_append]
  unfold MentionsHeld
  simp only [List.getLast?_concat, List.getLastD_concat, ← lastSaid_ne_none_iff]
  constructor
  · intro h i hi
    rw [← h] at hi
    have hlast : lastSaid last i = some true := hi
    simp [hlast]
  · intro h
    ext i
    rw [hheld]
    cases hlast : lastSaid last i with
    | none =>
      refine iff_of_false (fun hi => ?_) fun hi => ?_
      · exact nomatch hlast.symm.trans hi
      · exact h i ((hheld i).2 (by rw [hlast]; exact hi)) hlast
    | some x => simp [held, hlast]

/-- A press in slot 0, with one more event in the FIFO, and a status event. -/
def pressBuffer : Buffer := fun k => if k = 0 then 0x40 else if k = 7 then 1 else 0
def statusBuffer : Buffer := fun k => if k = 0 then 0x01 else 0

/-- One interrupt reads both events. -/
def together : List (Nat → Input) :=
  [fun n => if n = 0 then { data := pressBuffer } else { data := statusBuffer }]

/-- The second read of the first interrupt fails, and the next one finds the status event. -/
def apart : List (Nat → Input) :=
  [fun n => if n = 0 then { data := pressBuffer } else if n = 1 then { fault := some .eio } else {},
    fun _ => { data := statusBuffer }]

theorem penAway_together : ∀ ι ∈ together, PenAway ι := by
  intro ι hι n
  rw [List.mem_singleton.1 hι]
  dsimp only
  split <;> rfl

theorem active_eq_held_together :
    activeSlots (runIrqs together .probed) = held (batches together).flatten := by
  refine (active_eq_held_iff penAway_together).2 fun i hi => ?_
  have hone : batches together = [[eventAt pressBuffer 0, eventAt statusBuffer 0]] := rfl
  rw [hone] at hi ⊢
  refine lastSaid_ne_none_iff.1 fun hnone => ?_
  exact nomatch hnone.symm.trans hi

/-- The same two events, and a finger that is down after the one partition and not after the
other. -/
theorem batching_drops_finger :
    (batches together).flatten = (batches apart).flatten ∧
      (∀ ι ∈ apart, PenAway ι) ∧
      0 ∈ activeSlots (runIrqs together .probed) ∧
      activeSlots (runIrqs apart .probed) ≠ held (batches apart).flatten := by
  refine ⟨rfl, ?_, rfl, fun h => ?_⟩
  · intro ι hι n
    simp only [apart, List.mem_cons, List.not_mem_nil, or_false] at hι
    rcases hι with rfl | rfl
    · dsimp only
      split
      · rfl
      · split <;> rfl
    · rfl
  · have hdown : 0 ∈ held (batches apart).flatten := rfl
    rw [← h] at hdown
    have hup : (runIrqs apart .probed).input.active 0 = false := rfl
    exact absurd (hup.symm.trans hdown) (by decide)

end Gts9Wifi.Touch
