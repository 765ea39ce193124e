import Gts9Wifi.Charger.Verify.Otg
import Gts9Wifi.Lib.Runs

/-!
# Handing the MUIC back

The OTG paths put the MUIC into its manual position and hand it back to automatic switching, and
`otg_active` is all that a later call knows of that. The disable path clears the flag before it hands
the MUIC back, and the enable path drops the results of its rollback, so an access that fails there
leaves the MUIC manual with the flag clear, and the next disable call sees nothing to do.

`Careful` says which failures of a call are harmless, from the outcomes of its accesses to the two
switch registers alone. Along calls that are careful, a clear flag means an automatic MUIC; a call
that is not careful leaves a board on which the next disable call returns 0 with the MUIC manual.
-/

namespace Gts9Wifi.Charger.Sm5714

open Driver

/-! ## The accesses to the switch -/

/-- For an access to `MANUAL_SW` or `CNTL` of the MUIC, whether it failed. -/
def muicFault (e : Event board) : Option Bool :=
  match e.op with
  | .muicRead r | .muicWrite r _ => if r = .deviceType1 then none else some e.input.fault.isSome
  | _ => none

/-- Which accesses to the switch failed, in order. -/
def muicFaults (tr : List (Event board)) : List Bool := tr.filterMap muicFault

abbrev muicMonitor : Monitor board := .records muicFault

instance : muicMonitor.Ignores Op.load := Monitor.ignores_records fun _ _ => rfl
instance (f : Mem → Mem) : muicMonitor.Ignores (Op.store f) :=
  Monitor.ignores_records fun _ _ => rfl
instance (r : ChgReg) : muicMonitor.Ignores (Op.chgRead r) :=
  Monitor.ignores_records fun _ _ => rfl
instance (r : ChgReg) (v : BitVec 8) : muicMonitor.Ignores (Op.chgWrite r v) :=
  Monitor.ignores_records fun _ _ => rfl

/-- The policy never touches the switch. -/
theorem Charging.muicFault_eq_none {o : Op} (h : Charging o) (i : Input) (s : State) :
    muicFault ⟨o, i, s⟩ = none := by
  cases o with
  | muicRead r => exact if_pos h
  | muicWrite r v => exact h.elim
  | _ => rfl

section

variable {A : Event board → Prop} {m : List Bool} {s : State}

theorem wp_switchRead {r : MuicReg} (hr : r ≠ .deviceType1)
    {Q : Except Errno (BitVec 8) → List Bool → State → Prop}
    (he : ∀ e, Q (.error e) (m ++ [true]) s) (hok : Q (.ok (s.muic r)) (m ++ [false]) s) :
    wp A muicMonitor (muicRead r).run Q m s := by
  refine (wp_perform _ _ _ _).2 fun i _ => ⟨trivial, ?_⟩
  have hstatus : r.isStatus = false := by cases r <;> first | rfl | exact absurd rfl hr
  cases hf : i.fault with
  | some e => simpa [handle, answer_some hf, muicFault, hr, hf] using he e
  | none => simpa [handle, answer_none hf, muicFault, hr, hf, hstatus] using hok

theorem wp_switchWrite {r : MuicReg} {v : BitVec 8} (hr : r ≠ .deviceType1)
    {Q : Except Errno Unit → List Bool → State → Prop}
    (he : ∀ e, Q (.error e) (m ++ [true]) s) (hok : Q (.ok ()) (m ++ [false]) (s.setMuic r v)) :
    wp A muicMonitor (muicWrite r v).run Q m s := by
  refine (wp_perform _ _ _ _).2 fun i _ => ⟨trivial, ?_⟩
  cases hf : i.fault with
  | some e => simpa [handle, answer_some hf, apply_some hf, muicFault, hr, hf] using he e
  | none => simpa [handle, answer_none hf, apply_none hf, muicFault, hr, hf] using hok

end

/-! ## The two paths -/

/-- The MUIC switches by itself: no manual path, BC 1.2 detection on. -/
structure MuicAutomatic (s : State) : Prop where
  manual : s.muic .manualSw &&& manualSwManual = 0
  path : s.muic .manualSw &&& manualSwPathMask = 0
  bc12 : s.muic .cntl &&& muicBc12off = 0

theorem MuicAutomatic.congr {s s' : State} (h : s'.muic = s.muic) :
    MuicAutomatic s' ↔ MuicAutomatic s := by
  constructor
  · rintro ⟨h1, h2, h3⟩
    rw [h] at h1 h2 h3
    exact ⟨h1, h2, h3⟩
  · rintro ⟨h1, h2, h3⟩
    exact ⟨by rw [h]; exact h1, by rw [h]; exact h2, by rw [h]; exact h3⟩

theorem muicAutomatic_setMem (s : State) (f : Mem → Mem) :
    MuicAutomatic (s.setMem f) ↔ MuicAutomatic s :=
  MuicAutomatic.congr (setMem_muic s f)

/-- BC 1.2 detection is off, as the OTG path leaves it. -/
def Bc12Off (s : State) : Prop := s.muic .cntl &&& muicBc12off ≠ 0

theorem MuicAutomatic.not_bc12Off {s : State} (h : MuicAutomatic s) : ¬ Bc12Off s :=
  fun hoff => hoff h.bc12

theorem Bc12Off.congr {s s' : State} (h : s'.muic .cntl = s.muic .cntl) : Bc12Off s' ↔ Bc12Off s := by
  unfold Bc12Off
  rw [h]

/-- Cleared bits are clear. -/
theorem clear_and_eq_zero {m k : BitVec 8} (h : ~~~m &&& k = 0) (x : BitVec 8) :
    x &&& ~~~m &&& k = 0 := by
  rw [BitVec.and_assoc, h]
  exact BitVec.and_zero

/-- Bits that are clear stay clear when others are cleared. -/
theorem and_clear_eq_zero {k : BitVec 8} {x : BitVec 8} (h : x &&& k = 0) (m : BitVec 8) :
    x &&& ~~~m &&& k = 0 := by
  rw [BitVec.and_assoc, BitVec.and_comm (~~~m), ← BitVec.and_assoc, h]
  exact BitVec.zero_and

theorem or_and_ne_zero (x : BitVec 8) : (x ||| muicBc12off) &&& muicBc12off ≠ 0 := by
  intro h
  have hbit := congrArg (fun v : BitVec 8 => v[1]) h
  simp [muicBc12off] at hbit

/-- What handing the MUIC back does when its accesses fail as in `back`: all of it if none failed;
otherwise BC 1.2 detection stays as it was, and nothing automatic becomes manual. -/
structure GivesBack (s : State) (back : List Bool) (r : Except Errno Unit) (s' : State) : Prop where
  mem : s'.mem = s.mem
  clean : true ∉ back → r = .ok () ∧ MuicAutomatic s'
  lost : true ∈ back → r ≠ .ok () ∧ s'.muic .cntl = s.muic .cntl
  keeps : MuicAutomatic s → MuicAutomatic s'

section

variable {A : Event board → Prop} {m : List Bool} {s : State}

@[simp] theorem setMuic_muic (s : State) (r r' : MuicReg) (v : BitVec 8) :
    (s.setMuic r v).muic r' = if r' = r then v else s.muic r' := by
  simp only [State.setMuic, Function.update_apply]

theorem muicSetOtgPath_false_spec :
    wp A muicMonitor (muicSetOtgPath false).run
      (fun r m' s' => ∃ back, m' = m ++ back ∧ GivesBack s back r s') m s := by
  unfold muicSetOtgPath
  simp only [Bool.false_eq_true, ↓reduceIte]
  rw [wp_run_bind]
  refine wp_switchRead MuicReg.noConfusion (fun e => ⟨[true], rfl, ?_⟩) ?_
  · exact ⟨rfl, fun h => by simp at h, fun _ => ⟨(nomatch ·), rfl⟩, id⟩
  dsimp only
  rw [wp_run_bind]
  refine wp_switchWrite MuicReg.noConfusion (fun e => ⟨[false, true], by simp, ?_⟩) ?_
  · exact ⟨rfl, fun h => by simp at h, fun _ => ⟨(nomatch ·), rfl⟩, id⟩
  -- from here on the switch has left its manual position
  have hkeeps : MuicAutomatic s → MuicAutomatic (s.setMuic .manualSw
      (s.muic .manualSw &&& ~~~(manualSwManual ||| manualSwPathMask))) := fun h => by
    refine ⟨?_, ?_, h.bc12⟩
    · exact and_clear_eq_zero h.manual _
    · exact and_clear_eq_zero h.path _
  dsimp only
  rw [wp_run_bind]
  refine wp_switchRead MuicReg.noConfusion (fun e => ⟨[false, false, true], by simp, ?_⟩) ?_
  · exact ⟨rfl, fun h => by simp at h, fun _ => ⟨(nomatch ·), rfl⟩, hkeeps⟩
  dsimp only
  refine wp_switchWrite MuicReg.noConfusion (fun e => ⟨[false, false, false, true], by simp, ?_⟩) ?_
  · exact ⟨rfl, fun h => by simp at h, fun _ => ⟨(nomatch ·), rfl⟩, hkeeps⟩
  refine ⟨[false, false, false, false], by simp, ?_⟩
  have hauto : MuicAutomatic ((s.setMuic .manualSw
      (s.muic .manualSw &&& ~~~(manualSwManual ||| manualSwPathMask))).setMuic .cntl
      (s.muic .cntl &&& ~~~muicBc12off)) := by
    refine ⟨?_, ?_, ?_⟩
    · exact clear_and_eq_zero (by decide) _
    · exact clear_and_eq_zero (by decide) _
    · exact clear_and_eq_zero (by decide) _
  exact ⟨rfl, fun _ => ⟨rfl, hauto⟩, fun h => by simp at h, fun _ => hauto⟩

end

/-- Which failures of an enable call's accesses leave the MUIC as it should be: the first four set it
up, and after the first of them that fails the call goes back, first restoring `CNTL` if it had been
written, then handing the MUIC back in four accesses. -/
def Recovers : List Bool → Prop
  | false :: false :: true :: restore :: back => restore = false ∨ true ∉ back
  | false :: false :: false :: true :: restore :: back => restore = false ∨ true ∉ back
  | false :: false :: false :: false :: back => true ∉ back
  | _ => True

section

variable {A : Event board → Prop} {m : List Bool} {s : State}

/-- Taking the OTG path fails with the MUIC untouched, or it leaves BC 1.2 detection off, and then
it depends on the hand-back whether the call recovers. -/
theorem muicSetOtgPath_true_spec :
    wp A muicMonitor (muicSetOtgPath true).run (fun r m' s' => ∃ l, m' = m ++ l ∧ s'.mem = s.mem ∧
      ((∃ e, r = .error e) ∧ s'.muic = s.muic ∧ (∀ back, Recovers (l ++ back)) ∨
        Bc12Off s' ∧ ∀ back, Recovers (l ++ back) ↔ true ∉ back)) m s := by
  unfold muicSetOtgPath
  simp only [↓reduceIte]
  rw [wp_run_bind]
  refine wp_switchRead MuicReg.noConfusion (fun e => ⟨[true], rfl, rfl, .inl ⟨⟨e, rfl⟩, rfl, ?_⟩⟩) ?_
  · exact fun _ => trivial
  dsimp only
  rw [wp_run_bind]
  refine wp_switchWrite MuicReg.noConfusion
    (fun e => ⟨[false, true], by simp, rfl, .inl ⟨⟨e, rfl⟩, rfl, ?_⟩⟩) ?_
  · exact fun _ => trivial
  -- BC 1.2 detection is off now
  have hoff : Bc12Off (s.setMuic .cntl (s.muic .cntl ||| muicBc12off)) := by
    unfold Bc12Off
    rw [setMuic_muic, if_pos rfl]
    exact or_and_ne_zero _
  have hrestored : ((s.setMuic .cntl (s.muic .cntl ||| muicBc12off)).setMuic .cntl
      (s.muic .cntl)).muic = s.muic := by
    funext r
    rw [setMuic_muic, setMuic_muic]
    split
    · next h => rw [h]
    · rfl
  -- the way back, after the accesses `l` with the last of them failing
  have hback : ∀ (e : Errno) (l : List Bool),
      (∀ restore back, Recovers (l ++ restore :: back) ↔ restore = false ∨ true ∉ back) →
      wp A muicMonitor (do
          let _ ← attempt (muicWrite .cntl (s.muic .cntl))
          throw e : Fallible Unit).run
        (fun r m' s' => ∃ l, m' = m ++ l ∧ s'.mem = s.mem ∧
          ((∃ e, r = .error e) ∧ s'.muic = s.muic ∧ (∀ back, Recovers (l ++ back)) ∨
            Bc12Off s' ∧ ∀ back, Recovers (l ++ back) ↔ true ∉ back))
        (m ++ l) (s.setMuic .cntl (s.muic .cntl ||| muicBc12off)) := by
    intro e l hl
    rw [wp_run_bind, wp_run_attempt]
    refine wp_switchWrite MuicReg.noConfusion (fun e' => ?_) ?_
    · refine ⟨l ++ [true], by simp, rfl, .inr ⟨hoff, fun back => ?_⟩⟩
      rw [List.append_assoc]
      exact (hl true back).trans (or_iff_right (nomatch ·))
    · refine ⟨l ++ [false], by simp, rfl, .inl ⟨⟨e, rfl⟩, hrestored, fun back => ?_⟩⟩
      rw [List.append_assoc]
      exact (hl false back).2 (.inl rfl)
  dsimp only
  rw [wp_run_bind, wp_run_attempt, wp_run_bind]
  refine wp_switchRead MuicReg.noConfusion (fun e => ?_) ?_
  · have h := hback e [false, false, true] fun _ _ => Iff.rfl
    simpa using h
  dsimp only
  refine wp_switchWrite MuicReg.noConfusion (fun e => ?_) ?_
  · have h := hback e [false, false, false, true] fun _ _ => Iff.rfl
    simpa using h
  · refine ⟨[false, false, false, false], by simp, rfl, .inr ⟨hoff, fun back => Iff.rfl⟩⟩

/-! ## The calls -/

/-- A rollback that starts with BC 1.2 detection off recovers the MUIC if none of it fails. -/
theorem GivesBack.automatic_iff {s s' : State} {back : List Bool} {r : Except Errno Unit}
    (h : GivesBack s back r s') (hoff : Bc12Off s) : MuicAutomatic s' ↔ true ∉ back := by
  refine ⟨fun hauto hmem => ?_, fun hmem => (h.clean hmem).2⟩
  exact hauto.not_bc12Off ((Bc12Off.congr (h.lost hmem).2).2 hoff)

/-- The enable section sets the flag with BC 1.2 detection off, or it fails, and the MUIC it found
automatic is automatic again precisely when its accesses recover. -/
theorem otgEnableSection_spec :
    wp A muicMonitor otgEnableSection.run (fun r m' s' => ∃ l, m' = m ++ l ∧
      match r with
      | .ok () => Recovers l ∧ s'.mem = Battery.setOtgActive true s.mem ∧ Bc12Off s'
      | .error _ => s'.mem = s.mem ∧ (MuicAutomatic s → (MuicAutomatic s' ↔ Recovers l))) m s := by
  -- the four steps leave the MUIC as it was, or with BC 1.2 detection off
  have hsteps : wp A muicMonitor (do
      muicSetOtgPath true
      chgUpdateBits .cntl1 cntl1Enq4fet 0
      chgUpdateBits .bstcntl1 bstcntl1OtgMask bstcntl15v1900ma
      chgUpdateBits .cntl2 cntl2ModeMask cntl2UsbOtg : Fallible Unit).run
      (fun r m' s' => ∃ l, m' = m ++ l ∧ s'.mem = s.mem ∧
        ((∃ e, r = .error e) ∧ s'.muic = s.muic ∧ (∀ back, Recovers (l ++ back)) ∨
          Bc12Off s' ∧ ∀ back, Recovers (l ++ back) ↔ true ∉ back)) m s := by
    apply wp_run_seq muicSetOtgPath_true_spec
    · rintro e m' s' ⟨l, hm, hmem, ⟨-, h⟩ | h⟩
      · exact ⟨l, hm, hmem, .inl ⟨⟨e, rfl⟩, h⟩⟩
      · exact ⟨l, hm, hmem, .inr h⟩
    rintro ⟨⟩ m' s' ⟨l, hm, hmem, ⟨⟨e, he⟩, -⟩ | ⟨hoff, hl⟩⟩
    · cases he
    rw [wp_run_bind]
    refine wp_chgUpdateBits rfl (fun _ _ => ⟨l, hm, hmem, .inr ⟨hoff, hl⟩⟩) ?_
    dsimp only
    rw [wp_run_bind]
    refine wp_chgUpdateBits rfl (fun _ _ => ⟨l, hm, hmem, .inr ⟨hoff, hl⟩⟩) ?_
    dsimp only
    refine wp_chgUpdateBits rfl (fun _ _ => ?_) ?_
    · exact ⟨l, hm, hmem, .inr ⟨hoff, hl⟩⟩
    · exact ⟨l, hm, hmem, .inr ⟨hoff, hl⟩⟩
  unfold otgEnableSection
  apply wp_run_attempt_seq hsteps
  rintro (e | ⟨⟩) m' s' ⟨l, rfl, hmem, hr⟩
  · dsimp only
    apply wp_run_attempt_seq muicSetOtgPath_false_spec
    rintro r m' s'' ⟨back, rfl, hback⟩
    refine ⟨l ++ back, List.append_assoc _ _ _, hback.mem.trans hmem, fun hauto => ?_⟩
    rcases hr with ⟨-, hmuic, hl⟩ | ⟨hoff, hl⟩
    · exact iff_of_true (hback.keeps ((MuicAutomatic.congr hmuic).2 hauto)) (hl back)
    · exact (hback.automatic_iff hoff).trans (hl back).symm
  · rcases hr with ⟨⟨e, he⟩, -⟩ | ⟨hoff, hl⟩
    · cases he
    dsimp only
    rw [wp_run_lift]
    refine wp_store ⟨l, rfl, ?_, ?_, hoff⟩
    · have h := hl []
      rw [List.append_nil] at h
      exact h.2 List.not_mem_nil
    · rw [setMem_mem, hmem]

/-- The disable section stops before it clears the flag, or hands the MUIC back. -/
theorem otgDisableSection_spec :
    wp A muicMonitor otgDisableSection.run (fun r m' s' =>
      (∃ e, r = .error e) ∧ m' = m ∧ s' = s ∨
        ∃ s₁ back, GivesBack s₁ back r s' ∧ m' = m ++ back ∧
          s₁.mem = Battery.setOtgActive false s.mem ∧ s₁.muic = s.muic) m s := by
  unfold otgDisableSection
  rw [wp_run_bind]
  refine wp_chgUpdateBits rfl (fun _ e => .inl ⟨⟨e, rfl⟩, rfl, rfl⟩) ?_
  dsimp only
  apply wp_run_store_seq
  refine wp_mono muicSetOtgPath_false_spec ?_
  rintro r m' s' ⟨back, hm, hback⟩
  exact .inr ⟨_, back, hback, hm, rfl, rfl⟩

/-- The policy leaves the switch and the flag alone. -/
theorem wp_muic_charging {α : Type} {p : Code α} (h : Issues Charging p) :
    wp A muicMonitor p (fun _ m' s' => m' = m ∧ s'.muic = s.muic ∧
      s'.mem.bat.otgActive = s.mem.bat.otgActive) m s := by
  refine h.wp (M := muicMonitor) (J := fun m' s' => m' = m ∧ s'.muic = s.muic ∧
    s'.mem.bat.otgActive = s.mem.bat.otgActive) (fun o ho i m' s' _ hs' => ?_) ⟨rfl, rfl, rfl⟩
  obtain ⟨hm, hmuic, hflag⟩ := hs'
  obtain ⟨-, hotg, -, hsame⟩ := ho.frame i s'
  refine ⟨trivial, ?_, hsame.trans hmuic, hotg.trans hflag⟩
  simp only [ho.muicFault_eq_none, Option.toList_none, List.append_nil, hm]

end

/-- A disable call has nothing to do: the driver is there and the flag is clear. -/
def NothingToDo (s : State) : Prop := s.mem.primary = true ∧ s.mem.bat.otgActive = false

/-- What `set_otg(true)` does to the flag and the MUIC when its accesses to the switch fail as in
`l`. -/
inductive Enables (s : State) (l : List Bool) (s' : State) : Prop
  | refused (flag : s'.mem.bat.otgActive = s.mem.bat.otgActive)
      (bound : s'.mem.primary = s.mem.primary) (muic : s'.muic = s.muic) (none : l = [])
  | enabled (flag : s'.mem.bat.otgActive = true) (bc12 : Bc12Off s') (recovers : Recovers l)
  | rolledBack (was : NothingToDo s) (idle : NothingToDo s')
      (automatic : MuicAutomatic s → (MuicAutomatic s' ↔ Recovers l))

/-- What `set_otg(false)` does. -/
inductive Disables (s : State) (l : List Bool) (r : Except Errno Unit) (s' : State) : Prop
  | idle (flag : s'.mem.bat.otgActive = s.mem.bat.otgActive)
      (bound : s'.mem.primary = s.mem.primary) (muic : s'.muic = s.muic) (none : l = [])
      (early : r = .ok () ↔ NothingToDo s)
  | handedBack (was : s.mem.bat.otgActive = true) (flag : s'.mem.bat.otgActive = false)
      (clean : true ∉ l) (automatic : MuicAutomatic s')
  | lost (was : s.mem.bat.otgActive = true) (idle : NothingToDo s') (fault : true ∈ l)
      (failed : r ≠ .ok ()) (cntl : s'.muic .cntl = s.muic .cntl)

section

variable {A : Event board → Prop} {s : State}

/-- Reading the cable changes nothing. -/
theorem wp_muic_getOnlineRaw :
    wp A muicMonitor getOnlineRaw.run (fun _ m' s' => m' = ([] : List Bool) ∧ s' = s)
      ([] : List Bool) s := by
  unfold getOnlineRaw
  rw [wp_run_bind]
  exact wp_chgRead (fun _ _ _ _ => ⟨rfl, rfl⟩) fun _ _ _ => ⟨rfl, rfl⟩

theorem setOtg_true_spec :
    wp A muicMonitor (setOtg true).seq (fun _ m' s' => Enables s m' s') ([] : List Bool) s := by
  apply wp_setOtg_true
  · exact fun _ => .refused rfl rfl rfl rfl
  · exact fun _ => .refused rfl rfl rfl rfl
  intro hbound hflag
  unfold otgEnable
  apply wp_thread_load
  split
  · exact .refused rfl rfl rfl rfl
  apply Thread.wp_seq_interruptible wp_muic_getOnlineRaw
  rintro online m' s' ⟨rfl, rfl⟩
  match online with
  | .error e => exact .refused rfl rfl rfl rfl
  | .ok true => exact .refused rfl rfl rfl rfl
  | .ok false =>
    dsimp only
    rw [Thread.seq_atomic]
    refine wp_mono otgEnableSection_spec ?_
    rintro r m' s' ⟨l, rfl, hr⟩
    cases r with
    | error e =>
      obtain ⟨hmem, hauto⟩ := hr
      have hidle : NothingToDo (s'.setMem (setGlobalLock false)) := by
        unfold NothingToDo
        rw [setMem_mem, hmem]
        exact ⟨hbound, hflag⟩
      refine .rolledBack ⟨hbound, hflag⟩ hidle fun h => ?_
      exact (muicAutomatic_setMem _ _).trans (hauto ((muicAutomatic_setMem _ _).2 h))
    | ok _ =>
      obtain ⟨hl, hmem, hoff⟩ := hr
      refine .enabled ?_ hoff hl
      rw [setMem_mem, hmem]
      rfl

theorem setOtg_false_spec :
    wp A muicMonitor (setOtg false).seq (fun r m' s' => Disables s m' r s') ([] : List Bool) s := by
  apply wp_setOtg_false
  · intro hp
    refine .idle rfl rfl rfl rfl (iff_of_false (nomatch ·) fun h => ?_)
    exact absurd (hp.symm.trans h.1) Bool.false_ne_true
  · exact fun hp hflag => .idle rfl rfl rfl rfl (iff_of_true rfl ⟨hp, hflag⟩)
  intro hbound hwas
  have hbusy : ¬ NothingToDo s := fun h => absurd (h.2.symm.trans hwas) Bool.false_ne_true
  unfold otgDisable
  apply Thread.wp_seq_atomic otgDisableSection_spec
  rintro r m' s' (⟨⟨e, rfl⟩, rfl, rfl⟩ | ⟨s₁, back, hback, hm, hmem, hmuic⟩)
  · exact .idle rfl rfl rfl rfl (iff_of_false (nomatch ·) hbusy)
  obtain rfl : back = m' := hm.symm
  have hidle : NothingToDo s' := by
    unfold NothingToDo
    rw [hback.mem, hmem]
    exact ⟨hbound, rfl⟩
  by_cases hfault : true ∈ back
  · obtain ⟨herr, hcntl⟩ := hback.lost hfault
    rcases r with e | ⟨⟩
    · exact .lost hwas hidle hfault (nomatch ·) (hcntl.trans (congrFun hmuic _))
    · exact absurd rfl herr
  · obtain ⟨rfl, hauto⟩ := hback.clean hfault
    dsimp only
    apply Thread.wp_seq_interruptible
      (wp_muic_charging (getOnlineRaw_quiet.mono fun _ h => h.reads.harmless.charging))
    rintro online m' s'' ⟨rfl, hmuic', hotg'⟩
    have hauto' : MuicAutomatic (s''.setMem (setGlobalLock false)) :=
      (muicAutomatic_setMem _ _).2 ((MuicAutomatic.congr hmuic').2 hauto)
    have hclear : s''.mem.bat.otgActive = false := hotg'.trans hidle.2
    match online with
    | .error e => exact .handedBack hwas hclear hfault hauto'
    | .ok false => exact .handedBack hwas hclear hfault hauto'
    | .ok true =>
      -- charging is restored, which touches neither the switch nor the flag
      refine wp_mono (p := configureCharging.run) (wp_muic_charging configureCharging_charging) ?_
      rintro _ _ _ ⟨rfl, hmuic, hotg⟩
      exact .handedBack hwas (hotg.trans hclear) hfault ((MuicAutomatic.congr hmuic).2 hauto')

end

/-! ## Runs -/

/-- A call of `sm5714_battery_set_otg` and what its accesses meet. -/
structure OtgCall where
  active : Bool
  inputs : Nat → Input

/-- The value the call returns and the board it leaves. -/
def OtgCall.run (c : OtgCall) (s : State) : Except Errno Unit × State :=
  (setOtg c.active).seq.run board c.inputs s

/-- The accesses of the call. -/
def OtgCall.trace (c : OtgCall) (s : State) : List (Event board) :=
  (setOtg c.active).seq.trace board c.inputs s

def otgStep (c : OtgCall) (s : State) : State := (c.run s).2

/-- A disable call that returns 0 has handed the MUIC back. -/
def HandsBack (c : OtgCall) (s : State) : Prop :=
  c.active = false → (c.run s).1 = .ok () → MuicAutomatic (otgStep c s)

/-- None of the call's accesses to the switch fails that matters: on disabling none at all, on
enabling none that keeps the call from going all the way back. -/
def Careful (c : OtgCall) (s : State) : Prop :=
  if c.active then Recovers (muicFaults (c.trace s)) else true ∉ muicFaults (c.trace s)

/-- Where a disable call has nothing to do, the MUIC is automatic. -/
def Settled (s : State) : Prop := NothingToDo s → MuicAutomatic s

/-- While the flag is set, BC 1.2 detection is off. -/
def SetBc12Off (s : State) : Prop := s.mem.bat.otgActive = true → Bc12Off s

section

variable {c : OtgCall} {s : State}

theorem otgCall_enables (h : c.active = true) :
    Enables s (muicFaults (c.trace s)) (otgStep c s) := by
  obtain ⟨active, ι⟩ := c
  obtain rfl : active = true := h
  have hspec := (wp_sound (setOtg_true_spec (A := fun _ => True) (s := s)) ι fun _ _ => trivial).2
  rwa [Monitor.after_records] at hspec

theorem otgCall_disables (h : c.active = false) :
    Disables s (muicFaults (c.trace s)) (c.run s).1 (otgStep c s) := by
  obtain ⟨active, ι⟩ := c
  obtain rfl : active = false := h
  have hspec := (wp_sound (setOtg_false_spec (A := fun _ => True) (s := s)) ι fun _ _ => trivial).2
  rwa [Monitor.after_records] at hspec

theorem Settled.congr {s' : State} (h : Settled s)
    (hflag : s'.mem.bat.otgActive = s.mem.bat.otgActive) (hbound : s'.mem.primary = s.mem.primary)
    (hmuic : s'.muic = s.muic) : Settled s' := by
  rintro ⟨hp, hf⟩
  exact (MuicAutomatic.congr hmuic).2 (h ⟨hbound.symm.trans hp, hflag.symm.trans hf⟩)

/-- In a settled state no disable call returns 0 with the MUIC manual, and only there. -/
theorem settled_iff_handsBack : Settled s ↔ ∀ ι, HandsBack ⟨false, ι⟩ s := by
  constructor
  · intro h ι _ hret
    cases otgCall_disables (c := ⟨false, ι⟩) (s := s) rfl with
    | idle flag bound muic none early => exact (MuicAutomatic.congr muic).2 (h (early.1 hret))
    | handedBack was flag clean automatic => exact automatic
    | lost was idle fault failed cntl => exact absurd hret failed
  · intro h hidle
    have hback := h (inputs []) rfl
    cases otgCall_disables (c := ⟨false, inputs []⟩) (s := s) rfl with
    | idle flag bound muic none early =>
      exact (MuicAutomatic.congr muic).1 (hback (early.2 hidle))
    | handedBack was flag clean automatic => exact absurd (hidle.2.symm.trans was) Bool.false_ne_true
    | lost was idle fault failed cntl => exact absurd (hidle.2.symm.trans was) Bool.false_ne_true

/-- A careful call keeps the board settled. -/
theorem settled_otgStep (h : Settled s) (hc : Careful c s) : Settled (otgStep c s) := by
  unfold Careful at hc
  cases hactive : c.active with
  | true =>
    rw [if_pos hactive] at hc
    cases otgCall_enables (s := s) hactive with
    | refused flag bound muic none => exact h.congr flag bound muic
    | enabled flag bc12 recovers =>
      exact fun hidle => absurd (hidle.2.symm.trans flag) Bool.false_ne_true
    | rolledBack was idle automatic => exact fun _ => (automatic (h was)).2 hc
  | false =>
    rw [if_neg (ne_true_of_eq_false hactive)] at hc
    cases otgCall_disables (s := s) hactive with
    | idle flag bound muic none early => exact h.congr flag bound muic
    | handedBack was flag clean automatic => exact fun _ => automatic
    | lost was idle fault failed cntl => exact absurd fault hc

/-- Whatever fails, BC 1.2 detection is off while the flag is set. -/
theorem setBc12Off_otgStep (h : SetBc12Off s) : SetBc12Off (otgStep c s) := by
  intro hset
  cases hactive : c.active with
  | true =>
    cases otgCall_enables (s := s) hactive with
    | refused flag bound muic none =>
      exact (Bc12Off.congr (congrFun muic _)).2 (h (flag.symm.trans hset))
    | enabled flag bc12 recovers => exact bc12
    | rolledBack was idle automatic => exact absurd (idle.2.symm.trans hset) Bool.false_ne_true
  | false =>
    cases otgCall_disables (s := s) hactive with
    | idle flag bound muic none early =>
      exact (Bc12Off.congr (congrFun muic _)).2 (h (flag.symm.trans hset))
    | handedBack was flag clean automatic => exact absurd (flag.symm.trans hset) Bool.false_ne_true
    | lost was idle fault failed cntl => exact absurd (idle.2.symm.trans hset) Bool.false_ne_true

/-- Only careful calls keep the board settled. -/
theorem careful_of_settled (h : Settled s) (hset : SetBc12Off s) (h' : Settled (otgStep c s)) :
    Careful c s := by
  unfold Careful
  cases hactive : c.active with
  | true =>
    rw [if_pos rfl]
    cases otgCall_enables (s := s) hactive with
    | refused flag bound muic none =>
      rw [none]
      trivial
    | enabled flag bc12 recovers => exact recovers
    | rolledBack was idle automatic => exact (automatic (h was)).1 (h' idle)
  | false =>
    rw [if_neg Bool.false_ne_true]
    cases otgCall_disables (s := s) hactive with
    | idle flag bound muic none early =>
      rw [none]
      exact List.not_mem_nil
    | handedBack was flag clean automatic => exact clean
    | lost was idle fault failed cntl =>
      have hoff : Bc12Off (otgStep c s) := (Bc12Off.congr cntl).2 (hset was)
      exact absurd hoff (h' idle).not_bc12Off

end

/-- **Handing the MUIC back.** From an automatic MUIC, with any accesses failing in calls that are
careful, every `set_otg(false)` that returns 0 has handed the MUIC back. With the boost off at the
start this is exact: all calls are careful precisely when at no point of the run a further
`set_otg(false)`, whatever its accesses meet, returns 0 with the MUIC not handed back. -/
theorem setOtg_hands_back (calls : List OtgCall) (s : State) (h : MuicAutomatic s) :
    (Meets otgStep Careful calls s → Meets otgStep HandsBack calls s) ∧
      (s.mem.bat.otgActive = false →
        (Meets otgStep Careful calls s ↔
          ∀ pre, pre <+: calls → ∀ ι, HandsBack ⟨false, ι⟩ (runFrom otgStep pre s))) := by
  have hsettled : Settled s := fun _ => h
  constructor
  · refine Meets.imp (J := Settled) (fun c s hs hc => ⟨settled_otgStep hs hc, ?_⟩) hsettled
    obtain ⟨active, ι⟩ := c
    intro hactive
    obtain rfl : active = false := hactive
    exact settled_iff_handsBack.1 hs ι rfl
  · intro hflag
    have hset : SetBc12Off s := fun hset => absurd (hflag.symm.trans hset) Bool.false_ne_true
    have hstep : ∀ c s, True → Settled s ∧ SetBc12Off s →
        (Careful c s ↔ Settled (otgStep c s) ∧ SetBc12Off (otgStep c s)) := fun c s _ hs =>
      ⟨fun hc => ⟨settled_otgStep hs.1 hc, setBc12Off_otgStep hs.2⟩,
        fun h' => careful_of_settled hs.1 hs.2 h'.1⟩
    have hexact := meets_iff_prefix hstep (meets_true calls s) ⟨hsettled, hset⟩
    rw [← hexact]
    refine forall_congr' fun pre => forall_congr' fun hpre => ?_
    rw [← settled_iff_handsBack]
    refine and_iff_left ?_
    exact runFrom_keeps (J := SetBc12Off) (fun c s hs => setBc12Off_otgStep hs) pre hset

/-- Enable; disable, with the first MUIC access failing; disable again. -/
def lostHandBack : List OtgCall :=
  [⟨true, inputs []⟩, ⟨false, inputs [{}, {}, {}, {}, {}, {}, { fault := some .eio }]⟩,
    ⟨false, inputs []⟩]

/-- Enable, with the read of `MANUAL_SW` and both steps of the way back failing; disable. -/
def lostRollback : List OtgCall :=
  [⟨true, inputs [{}, {}, {}, {}, {}, {}, {}, { fault := some .eio }, { fault := some .eio },
    { fault := some .eio }]⟩, ⟨false, inputs []⟩]

/-- The last call of each run returns 0 without touching the MUIC: in the first the switch is still
manual, in the second BC 1.2 detection is still off. -/
theorem muic_not_handed_back :
    MuicAutomatic .probed ∧ ¬ Meets otgStep HandsBack lostHandBack .probed ∧
      ¬ Meets otgStep HandsBack lostRollback .probed := by
  refine ⟨⟨rfl, rfl, rfl⟩, fun h => ?_, fun h => ?_⟩
  · have hmanual := (h.2.2.1 rfl rfl).manual
    exact absurd hmanual (by decide)
  · have hbc12 := (h.2.1 rfl rfl).bc12
    exact absurd hbc12 (by decide)

/-- An enable call whose write to `MANUAL_SW` fails and which goes all the way back, with the last
access of the hand-back failing; a second one that succeeds; disable. -/
def carefulCalls : List OtgCall :=
  [⟨true, inputs [{}, {}, {}, {}, {}, {}, {}, {}, { fault := some .eio }, {}, {}, {}, {},
    { fault := some .eio }]⟩, ⟨true, inputs []⟩, ⟨false, inputs []⟩]

theorem setOtg_hands_back_carefulCalls :
    Meets otgStep HandsBack carefulCalls .probed ∧
      MuicAutomatic (runFrom otgStep carefulCalls .probed) := by
  have hcareful : Meets otgStep Careful carefulCalls .probed :=
    ⟨Or.inl rfl, List.not_mem_nil, show true ∉ [false, false, false, false] by decide, trivial⟩
  have h := (setOtg_hands_back carefulCalls .probed ⟨rfl, rfl, rfl⟩).1 hcareful
  exact ⟨h, h.2.2.1 rfl rfl⟩

end Gts9Wifi.Charger.Sm5714
