import Gts9Wifi.Typec.Ps5169
import Gts9Wifi.Lib.Runs

/-!
# What the last programming step determines

Each mode writes the registers it needs, in the sequences of the vendor's driver, and leaves the rest
to the safe state in between. Two histories that end in the same mode therefore leave the same
contents in all registers but those that the mode does not write, and these keep what they held.
-/

namespace Gts9Wifi.Typec.Ps5169

open Driver

/-! ## Vocabulary -/

/-- The chip once `hw_init` has returned. -/
def Initialised (s : State) : Prop :=
  ∃ (raw : State) (inputs : Nat → Input) (ids : BitVec 8 × BitVec 8),
    hwInit.run.run board inputs raw = (.ok ids, s)

/-- Every step of the run succeeds. -/
def AllSucceed (ls : List Step) (s : State) : Prop := Meets step (fun l s => l.result s = .ok ()) ls s

/-- The same orientation, mode, SVID and role. -/
structure SameConfig (s s' : State) : Prop where
  orientation : s.ctx.orientation = s'.ctx.orientation
  mode : s.ctx.mode = s'.ctx.mode
  svid : s.ctx.svid = s'.ctx.svid
  role : s.role = s'.role

/-- Calls and changes of the role, and a last call. -/
structure History where
  before : List Step
  call : Call
  inputs : Nat → Input

namespace History

def steps (h : History) : List Step := h.before ++ [.call h.call h.inputs]

/-- The state before the last call, and after it. -/
def start (h : History) (s : State) : State := runFrom step h.before s
def finish (h : History) (s : State) : State := runFrom step h.steps s

end History

/-- The registers of the other modes that a programming step does not write. -/
def untouched (ps : Ctx) : List (BitVec 8) :=
  if ps.orientation = .none then []
  else match ps.mode with
    | .usb => [0xa1]
    | .dpC | .dpE => [regUsbDirection, 0x8d, 0x90]
    | _ => []

/-! ## What a call writes -/

/-- The registers after these writes. -/
def applyWrites (l : List Write) (regs : Regs) : Regs :=
  l.foldl (fun m w => Function.update m w.1 w.2) regs

/-- The writes of `ps5169_program`. -/
def planned (ps : Ctx) (role : UsbRole) : Except Errno (List Write) :=
  if ps.orientation = .none ∨ ps.mode = .safe then .ok safeSequence
  else modeSequence ps (if ps.roleSwitch then role else .none)

theorem applyWrites_of_notMem {l : List Write} {r : BitVec 8} (h : r ∉ l.map Prod.fst) (regs : Regs) :
    applyWrites l regs r = regs r := by
  induction l generalizing regs with
  | nil => rfl
  | cons w l ih =>
    rw [List.map_cons, List.mem_cons, not_or] at h
    rw [applyWrites, List.foldl_cons, ← applyWrites, ih h.2, Function.update_of_ne h.1]

/-- A register that is written does not depend on what was there. -/
theorem applyWrites_of_mem {l : List Write} {r : BitVec 8} (h : r ∈ l.map Prod.fst) (regs regs' : Regs) :
    applyWrites l regs r = applyWrites l regs' r := by
  induction l generalizing regs regs' with
  | nil => exact nomatch h
  | cons w l ih =>
    rw [applyWrites, applyWrites, List.foldl_cons, List.foldl_cons, ← applyWrites, ← applyWrites]
    by_cases hl : r ∈ l.map Prod.fst
    · exact ih hl _ _
    · have hr : r = w.1 := (List.mem_cons.1 h).resolve_right hl
      rw [applyWrites_of_notMem hl, applyWrites_of_notMem hl, hr, Function.update_self,
        Function.update_self]

section Specs

variable {A : Event board → Prop} {s : State}

/-- A refused operation ends the call, an accepted one goes on. -/
theorem wp_regmapWrite_seq {α : Type} {reg value : BitVec 8} {f : Unit → Code α}
    {Q : Except Errno α → Unit → State → Prop} (herr : ∀ e, Q (.error e) () s)
    (hok : wp A (Monitor.idle board) (f ()).run Q () { s with regs := Function.update s.regs reg value }) :
    wp A (Monitor.idle board) (regmapWrite reg value >>= f).run Q () s := by
  refine (wp_run_bind _ _ _ _ _).2 fun i _ => ⟨trivial, ?_⟩
  cases hf : i.fault with
  | some e =>
    simp only [handle, hf]
    exact herr e
  | none =>
    simp only [handle, hf]
    exact hok

theorem wp_typecSwitchSet_seq {o : Orientation} {f : Unit → Code Unit}
    {Q : Except Errno Unit → Unit → State → Prop} (herr : ∀ e, Q (.error e) () s)
    (hok : wp A (Monitor.idle board) (f ()).run Q () s) :
    wp A (Monitor.idle board) (typecSwitchSet o >>= f).run Q () s := by
  refine (wp_run_bind _ _ _ _ _).2 fun i _ => ⟨trivial, ?_⟩
  cases hf : i.fault with
  | some e =>
    simp only [handle, Input.answer, hf]
    exact herr e
  | none =>
    simp only [handle, Input.answer, hf]
    exact hok

theorem wp_typecMuxSet {alt : Option (BitVec 32)} {mode : Mode}
    {Q : Except Errno Unit → Unit → State → Prop} (h : ∀ r, Q r () s) :
    wp A (Monitor.idle board) (typecMuxSet alt mode).run Q () s :=
  fun _ _ => ⟨trivial, h _⟩

theorem wp_load_seq {α : Type} {f : Ctx → Code α} {Q : Except Errno α → Unit → State → Prop}
    (h : wp A (Monitor.idle board) (f s.ctx).run Q () s) :
    wp A (Monitor.idle board) (load >>= f).run Q () s :=
  (wp_run_bind _ _ _ _ _).2 fun _ _ => ⟨trivial, h⟩

theorem wp_store_seq {α : Type} {g : Ctx → Ctx} {f : Unit → Code α}
    {Q : Except Errno α → Unit → State → Prop}
    (h : wp A (Monitor.idle board) (f ()).run Q () (s.setCtx g)) :
    wp A (Monitor.idle board) (store g >>= f).run Q () s :=
  (wp_run_bind _ _ _ _ _).2 fun _ _ => ⟨trivial, h⟩

theorem writeSequence_spec (l : List Write) :
    wp A (Monitor.idle board) (writeSequence l).run (fun r _ s' => s'.ctx = s.ctx ∧ s'.role = s.role ∧
      (r = .ok () → s'.regs = applyWrites l s.regs)) () s := by
  induction l generalizing s with
  | nil => exact ⟨rfl, rfl, fun _ => rfl⟩
  | cons w l ih =>
    rw [writeSequence]
    apply wp_regmapWrite_seq
    · exact fun e => ⟨rfl, rfl, fun h => nomatch h⟩
    · exact @ih { s with regs := Function.update s.regs w.1 w.2 }

theorem program_spec :
    wp A (Monitor.idle board) program.run (fun r _ s' => s'.ctx = s.ctx ∧ s'.role = s.role ∧
      (r = .ok () → ∃ l, planned s.ctx s.role = .ok l ∧ s'.regs = applyWrites l s.regs)) () s := by
  have hwrites : ∀ l, planned s.ctx s.role = .ok l →
      wp A (Monitor.idle board) (writeSequence l).run (fun r _ s' => s'.ctx = s.ctx ∧ s'.role = s.role ∧
        (r = .ok () → ∃ l, planned s.ctx s.role = .ok l ∧ s'.regs = applyWrites l s.regs)) () s := by
    intro l hl
    refine wp_mono (writeSequence_spec l) ?_
    rintro r _ s' ⟨hctx, hrole, hregs⟩
    exact ⟨hctx, hrole, fun hr => ⟨l, hl, hregs hr⟩⟩
  unfold program
  apply wp_load_seq
  by_cases hsafe : s.ctx.orientation = .none ∨ s.ctx.mode = .safe
  · rw [if_pos hsafe]
    exact hwrites _ (if_pos hsafe)
  · rw [if_neg hsafe, wp_run_bind]
    have hrole : wp A (Monitor.idle board) (currentRole s.ctx).run
        (fun r _ s' => s' = s ∧ r = .ok (if s.ctx.roleSwitch then s.role else .none)) () s := by
      unfold currentRole
      cases s.ctx.roleSwitch with
      | false => exact ⟨rfl, rfl⟩
      | true => exact fun _ _ => ⟨trivial, rfl, rfl⟩
    refine wp_mono hrole ?_
    rintro r _ s' ⟨rfl, rfl⟩
    have hplan : planned s'.ctx s'.role = _ := if_neg hsafe
    cases hseq : modeSequence s'.ctx (if s'.ctx.roleSwitch then s'.role else .none) with
    | error e =>
      simp only [hseq]
      exact ⟨rfl, rfl, fun h => nomatch h⟩
    | ok l =>
      simp only [hseq]
      exact hwrites l (hplan.trans hseq)

/-- What a call that succeeds has written. -/
theorem call_spec (c : Call) :
    wp A (Monitor.idle board) c.code.run (fun r _ s' => s'.ctx.roleSwitch = s.ctx.roleSwitch ∧
      s'.role = s.role ∧ (r = .ok () → ∃ l, planned s'.ctx s'.role = .ok l ∧
        s'.regs = applyWrites l s.regs)) () s := by
  cases c with
  | switchSet o =>
    rw [Call.code, switchSet]
    apply wp_typecSwitchSet_seq
    · exact fun e => ⟨rfl, rfl, fun h => nomatch h⟩
    apply wp_store_seq
    refine wp_mono program_spec ?_
    rintro r _ s' ⟨hctx, hrole, hregs⟩
    rw [hctx, hrole]
    exact ⟨rfl, rfl, hregs⟩
  | retimerSet alt mode =>
    rw [Call.code, retimerSet]
    apply wp_store_seq
    rw [wp_run_bind]
    refine wp_mono program_spec ?_
    rintro r _ s' ⟨hctx, hrole, hregs⟩
    cases r with
    | error e =>
      rw [hctx, hrole]
      exact ⟨rfl, rfl, fun h => nomatch h⟩
    | ok _ =>
      apply wp_typecMuxSet
      rw [hctx, hrole]
      exact fun r => ⟨rfl, rfl, fun _ => hregs rfl⟩

/-- Reading changes nothing. -/
theorem wp_regmapRead_seq {α : Type} {reg : BitVec 8} {f : BitVec 8 → Code α}
    {Q : Except Errno α → Unit → State → Prop} (herr : ∀ e, Q (.error e) () s)
    (hok : ∀ v, wp A (Monitor.idle board) (f v).run Q () s) :
    wp A (Monitor.idle board) (regmapRead reg >>= f).run Q () s := by
  refine (wp_run_bind _ _ _ _ _).2 fun i _ => ⟨trivial, ?_⟩
  cases hf : i.fault with
  | some e =>
    simp only [handle, Input.answer, hf]
    exact herr e
  | none =>
    simp only [handle, Input.answer, hf]
    exact hok _

theorem hwInit_spec :
    wp A (Monitor.idle board) hwInit.run (fun r _ s' => ∀ ids, r = .ok ids →
      ∃ regs, s'.regs = applyWrites (initSequence s.ctx) regs) () s := by
  unfold hwInit
  apply wp_load_seq
  apply wp_regmapWrite_seq
  · exact fun e ids h => nomatch h
  apply wp_regmapWrite_seq
  · exact fun e ids h => nomatch h
  rw [wp_run_bind]
  refine wp_mono (writeSequence_spec _) ?_
  rintro r _ s' ⟨-, -, hregs⟩
  cases r with
  | error e => exact fun ids h => nomatch h
  | ok _ =>
    apply wp_regmapRead_seq
    · exact fun e ids h => nomatch h
    intro id1
    apply wp_regmapRead_seq
    · exact fun e ids h => nomatch h
    exact fun id2 ids _ => ⟨_, hregs rfl⟩

end Specs

/-! ## What a programming step leaves -/

/-- The registers that depend on the mode. -/
def modeRegs : List (BitVec 8) := [regMode, 0xa0, 0xa1, regUsbDirection, 0x8d, 0x90]

/-- The safe state sets all of them, and the equalizers. -/
theorem map_fst_safeSequence : safeSequence.map Prod.fst = regEq0 :: regEq1 :: modeRegs := rfl

section Planned

variable {ps : Ctx} {role : UsbRole} {l : List Write}

/-- Which registers a step writes in each mode, and which it does not. -/
theorem planned_cases (h : planned ps role = .ok l) :
    l = safeSequence ∧ untouched ps = [] ∨
    l.map Prod.fst = [regMode, 0xa0, regUsbDirection, 0x8d, 0x90] ∧ untouched ps = [0xa1] ∨
    l.map Prod.fst = [regMode, 0xa0, 0xa1] ∧ untouched ps = [regUsbDirection, 0x8d, 0x90] ∨
    l.map Prod.fst = modeRegs ∧ untouched ps = [] := by
  unfold planned at h
  split at h
  next hsafe =>
    refine .inl ⟨(Except.ok.inj h).symm, ?_⟩
    rcases hsafe with ho | hm
    · simp [untouched, ho]
    · simp [untouched, hm]
  next hsafe =>
    have huntouched : ∀ regs, (match ps.mode with
        | .usb => [0xa1]
        | .dpC | .dpE => [regUsbDirection, 0x8d, 0x90]
        | _ => []) = regs → untouched ps = regs :=
      fun regs h => (if_neg fun ho => hsafe (.inl ho)).trans h
    unfold modeSequence at h
    cases hm : ps.mode with
    | safe | dpA | dpB | other n =>
      rw [hm] at h
      exact nomatch h
    | usb =>
      rw [hm] at h
      obtain rfl := Except.ok.inj h
      exact .inr (.inl ⟨rfl, huntouched _ (by rw [hm])⟩)
    | dpC | dpE =>
      simp only [hm] at h
      split at h
      · exact nomatch h
      · obtain rfl := Except.ok.inj h
        exact .inr (.inr (.inl ⟨rfl, huntouched _ (by rw [hm])⟩))
    | dpD | dpF =>
      simp only [hm] at h
      split at h
      · exact nomatch h
      · obtain rfl := Except.ok.inj h
        exact .inr (.inr (.inr ⟨rfl, huntouched _ (by rw [hm])⟩))

theorem notMem_of_mem_untouched (h : planned ps role = .ok l) {r : BitVec 8} (hr : r ∈ untouched ps) :
    r ∉ l.map Prod.fst := by
  rcases planned_cases h with ⟨-, hu⟩ | ⟨hl, hu⟩ | ⟨hl, hu⟩ | ⟨-, hu⟩
  · rw [hu] at hr
    exact nomatch hr
  · rw [hu, List.mem_singleton] at hr
    rw [hl, hr]
    decide
  · rw [hu] at hr
    rw [hl]
    revert r
    decide
  · rw [hu] at hr
    exact nomatch hr

theorem mem_or_mem_untouched (h : planned ps role = .ok l) {r : BitVec 8} (hr : r ∈ modeRegs) :
    r ∈ l.map Prod.fst ∨ r ∈ untouched ps := by
  rcases planned_cases h with ⟨rfl, -⟩ | ⟨hl, hu⟩ | ⟨hl, hu⟩ | ⟨hl, -⟩
  · rw [map_fst_safeSequence]
    exact .inl (List.mem_cons_of_mem _ (List.mem_cons_of_mem _ hr))
  · rw [hl, hu]
    simp only [modeRegs, List.mem_cons, List.not_mem_nil, or_false] at hr ⊢
    tauto
  · rw [hl, hu]
    simp only [modeRegs, List.mem_cons, List.not_mem_nil, or_false] at hr ⊢
    tauto
  · rw [hl]
    exact .inl hr

/-- The other registers are only set to what `hw_init` has set them to. -/
theorem applyWrites_of_notMem_modeRegs (h : planned ps role = .ok l) {regs : Regs} {r : BitVec 8}
    (hr : r ∉ modeRegs) (h0 : regs regEq0 = 0x20) (h1 : regs regEq1 = 0x06) :
    applyWrites l regs r = regs r := by
  by_cases hmem : r ∈ l.map Prod.fst
  · rcases planned_cases h with ⟨rfl, -⟩ | ⟨hl, -⟩ | ⟨hl, -⟩ | ⟨hl, -⟩
    · have heq : r = regEq0 ∨ r = regEq1 := by
        rw [map_fst_safeSequence, List.mem_cons, List.mem_cons] at hmem
        exact hmem.imp_right fun h => h.resolve_right hr
      rcases heq with rfl | rfl
      · rw [h0]
        rfl
      · rw [h1]
        rfl
    all_goals
      rw [hl] at hmem
      refine absurd ?_ hr
      simp only [modeRegs, List.mem_cons, List.not_mem_nil, or_false] at hmem ⊢
      tauto
  · exact applyWrites_of_notMem hmem regs

end Planned

/-! ## Whole histories -/

/-- What a call that succeeds leaves. -/
theorem step_call_spec {c : Call} {inputs : Nat → Input} {s : State}
    (hok : (Step.call c inputs).result s = .ok ()) :
    ∃ l, planned (step (.call c inputs) s).ctx (step (.call c inputs) s).role = .ok l ∧
      (step (.call c inputs) s).regs = applyWrites l s.regs := by
  have hspec : wp (fun _ => True) (Monitor.idle board) c.code.run _ () s := call_spec c
  exact (wp_sound hspec inputs fun _ _ => trivial).2.2.2 hok

theorem roleSwitch_step (l : Step) (s : State) : (step l s).ctx.roleSwitch = s.ctx.roleSwitch := by
  cases l with
  | roleChange role => rfl
  | call c inputs =>
    have hspec : wp (fun _ => True) (Monitor.idle board) c.code.run _ () s := call_spec c
    exact (wp_sound hspec inputs fun _ _ => trivial).2.1

theorem roleSwitch_runFrom (ls : List Step) (s : State) :
    (runFrom step ls s).ctx.roleSwitch = s.ctx.roleSwitch := by
  induction ls generalizing s with
  | nil => rfl
  | cons l ls ih => exact (ih (step l s)).trans (roleSwitch_step l s)

theorem Initialised.eq0_eq1 {s : State} (h : Initialised s) :
    s.regs regEq0 = 0x20 ∧ s.regs regEq1 = 0x06 := by
  obtain ⟨raw, inputs, ids, hrun⟩ := h
  have hspec : wp (fun _ => True) (Monitor.idle board) hwInit.run _ () raw := hwInit_spec
  have hend := (wp_sound hspec inputs fun _ _ => trivial).2
  rw [hrun] at hend
  obtain ⟨regs, hregs⟩ := hend ids rfl
  rw [hregs]
  exact ⟨rfl, rfl⟩

/-- The registers that do not depend on the mode stay as they were initialised. -/
theorem AllSucceed.frame {ls : List Step} {s : State} (h : AllSucceed ls s) (h0 : s.regs regEq0 = 0x20)
    (h1 : s.regs regEq1 = 0x06) {r : BitVec 8} (hr : r ∉ modeRegs) :
    (runFrom step ls s).regs r = s.regs r := by
  have hstep : ∀ l s, Step.result l s = .ok () → s.regs regEq0 = 0x20 → s.regs regEq1 = 0x06 →
      ∀ r ∉ modeRegs, (step l s).regs r = s.regs r := by
    intro l s hok h0 h1 r hr
    cases l with
    | roleChange role => rfl
    | call c inputs =>
      obtain ⟨seq, hplan, hregs⟩ := step_call_spec hok
      rw [hregs]
      exact applyWrites_of_notMem_modeRegs hplan hr h0 h1
  induction ls generalizing s with
  | nil => rfl
  | cons l ls ih =>
    have hsame := hstep l s h.1 h0 h1
    exact (ih h.2 ((hsame _ (by decide)).trans h0) ((hsame _ (by decide)).trans h1)).trans (hsame r hr)

theorem AllSucceed.last {ls : List Step} {l : Step} {s : State} (h : AllSucceed (ls ++ [l]) s) :
    AllSucceed ls s ∧ l.result (runFrom step ls s) = .ok () := by
  induction ls generalizing s with
  | nil => exact ⟨trivial, h.1⟩
  | cons l' ls ih => exact ⟨⟨h.1, (ih h.2).1⟩, (ih h.2).2⟩

theorem planned_congr {ps ps' : Ctx} {role : UsbRole} (ho : ps.orientation = ps'.orientation)
    (hm : ps.mode = ps'.mode) (hs : ps.svid = ps'.svid) (hr : ps.roleSwitch = ps'.roleSwitch) :
    planned ps role = planned ps' role := by
  simp only [planned, modeSequence, ho, hm, hs, hr]

/-- The last call of a history has written what its mode needs. -/
theorem History.finish_spec {h : History} {s : State} (hok : AllSucceed h.steps s) :
    ∃ l, planned (h.finish s).ctx (h.finish s).role = .ok l ∧
      (h.finish s).regs = applyWrites l (h.start s).regs := by
  rw [History.finish, History.steps, runFrom_append]
  exact step_call_spec hok.last.2

/-- **Two histories that end in the same programming step** leave the same contents in all registers
except those that the mode does not write, which keep what they held. -/
theorem programming_determines {s : State} (hinit : Initialised s) {h h' : History}
    (hok : AllSucceed h.steps s) (hok' : AllSucceed h'.steps s)
    (hsame : SameConfig (h.finish s) (h'.finish s)) :
    (∀ r ∈ untouched (h.finish s).ctx, (h.finish s).regs r = (h.start s).regs r) ∧
      ∀ r, (r ∉ untouched (h.finish s).ctx ∨ (h.start s).regs r = (h'.start s).regs r) →
        (h.finish s).regs r = (h'.finish s).regs r := by
  obtain ⟨h0, h1⟩ := hinit.eq0_eq1
  obtain ⟨l, hplan, hregs⟩ := h.finish_spec hok
  obtain ⟨l', hplan', hregs'⟩ := h'.finish_spec hok'
  have hl : l = l' := by
    have hswitch : (h.finish s).ctx.roleSwitch = (h'.finish s).ctx.roleSwitch :=
      (roleSwitch_runFrom _ _).trans (roleSwitch_runFrom _ _).symm
    rw [← hsame.role, ← planned_congr hsame.orientation hsame.mode hsame.svid hswitch] at hplan'
    exact Except.ok.inj (hplan.symm.trans hplan')
  subst hl
  rw [hregs, hregs']
  refine ⟨fun r hr => applyWrites_of_notMem (notMem_of_mem_untouched hplan hr) _, fun r hr => ?_⟩
  by_cases hmem : r ∈ l.map Prod.fst
  · exact applyWrites_of_mem hmem _ _
  · rw [applyWrites_of_notMem hmem, applyWrites_of_notMem hmem]
    rcases hr with hr | hr
    · -- not a register of any mode
      have hother : r ∉ modeRegs := fun hmode => (mem_or_mem_untouched hplan hmode).elim hmem hr
      exact (hok.last.1.frame h0 h1 hother).trans (hok'.last.1.frame h0 h1 hother).symm
    · exact hr

def noFault : Nat → Input := fun _ => {}

/-- A chip that was all zeros before `hw_init`. -/
def rawChip : State := ⟨probeCtx true none none none none, fun _ => 0, .device⟩
def freshChip : State := (hwInit.run.run board noFault rawChip).2

theorem initialised_freshChip : Initialised freshChip := ⟨rawChip, noFault, (0, 0), rfl⟩

/-- The plug is turned, and then it carries USB, or the other way round. -/
def turnedFirst : History := ⟨[.call (.switchSet .normal) noFault], .retimerSet none .usb, noFault⟩
def usbFirst : History := ⟨[.call (.retimerSet none .usb) noFault], .switchSet .normal, noFault⟩

theorem usb_either_way :
    (turnedFirst.finish freshChip).regs regUsbDirection = (usbFirst.finish freshChip).regs regUsbDirection := by
  have hok : AllSucceed turnedFirst.steps freshChip := ⟨rfl, rfl, trivial⟩
  have hok' : AllSucceed usbFirst.steps freshChip := ⟨rfl, rfl, trivial⟩
  have hsame : SameConfig (turnedFirst.finish freshChip) (usbFirst.finish freshChip) :=
    ⟨rfl, rfl, rfl, rfl⟩
  exact (programming_determines initialised_freshChip hok hok' hsame).2 _ (.inl (by decide))

/-- DisplayPort on all lanes, right after the plug is turned and after USB. -/
def dpFirst : History :=
  ⟨[.call (.switchSet .normal) noFault], .retimerSet (some usbTypecDpSid) .dpC, noFault⟩
def dpAfterUsb : History :=
  ⟨[.call (.switchSet .normal) noFault, .call (.retimerSet none .usb) noFault],
    .retimerSet (some usbTypecDpSid) .dpC, noFault⟩

/-- Register 0x8d still shows whether there was USB before. -/
theorem dp_after_usb_differs :
    Initialised freshChip ∧ AllSucceed dpFirst.steps freshChip ∧ AllSucceed dpAfterUsb.steps freshChip ∧
      SameConfig (dpFirst.finish freshChip) (dpAfterUsb.finish freshChip) ∧
      (dpFirst.finish freshChip).regs 0x8d ≠ (dpAfterUsb.finish freshChip).regs 0x8d :=
  ⟨initialised_freshChip, ⟨rfl, rfl, trivial⟩, ⟨rfl, rfl, rfl, trivial⟩, ⟨rfl, rfl, rfl, rfl⟩, by decide⟩

end Gts9Wifi.Typec.Ps5169
