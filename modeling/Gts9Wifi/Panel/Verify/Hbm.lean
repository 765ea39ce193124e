import Gts9Wifi.Panel.Verify.Fod

/-!
# High-brightness mode and its watchdog

Packets may be refused at any point. The driver clears its flags and stops the watchdog whether or
not the panel obeyed, so the panel can be left in the fingerprint's high-brightness mode with nothing
to end it. This module says exactly when: the sequence that leaves the mode is refused its key or its
dimming write, or the panel is switched on again after such a refusal.
-/

namespace Gts9Wifi.Panel

open Driver

/-! ## Vocabulary -/

/-- The last effective write to 0x53 was the high-brightness one. -/
def InHbm (s : State) : Prop := s.regs dimming = hbmDimming

/-- A panel that is on and in high-brightness mode has a watchdog pending. -/
def HbmGuarded (s : State) : Prop :=
  s.ctx.prepared = true → s.ctx.enabled = true → InHbm s → s.ctx.fodWatchdog.isSome = true

/-- The panel refuses the packet. -/
def Refused (e : Event panel) : Prop :=
  match e.op with
  | .transfer _ => e.input.fault ≠ none
  | _ => False

/-- The panel is in high-brightness mode and refuses the key or the dimming write that leaves it. -/
def Stuck (e : Event panel) : Prop :=
  match e.op with
  | .transfer p => (p = level0Unlock ∨ p = .dcs dimming normalDimming) ∧ e.input.fault ≠ none ∧
      InHbm e.pre
  | _ => False

/-- What a step must not do: get stuck in high-brightness mode while the panel is on, or switch the
panel on while it is in high-brightness mode. -/
def LeavesHbm (l : Step) (s : State) : Prop :=
  match l.call with
  | .fodModeStore _ | .fodWatchdog => ∀ e ∈ l.trace s, ¬ Stuck e
  | .enable => s.ctx.prepared = true → s.ctx.enabled = false → InHbm s → ∃ e ∈ l.trace s, Refused e
  | _ => True

/-- What the flags say of each other and of the panel, whatever is refused. -/
structure Flags (s : State) : Prop where
  circle : s.ctx.fodCircle = true → s.ctx.fodMode = true
  mode : s.ctx.fodMode = true → s.ctx.prepared = true ∧ s.ctx.enabled = true ∧ InHbm s
  watchdog : s.ctx.fodWatchdog.isSome = s.ctx.fodMode
  enabled : s.ctx.enabled = true → s.ctx.prepared = true

/-! ## Packets that may be refused -/

/-- The command a packet sets, if it sets one. -/
def Packet.sets : Packet → Option (BitVec 8)
  | .dcs cmd _ => some cmd
  | .generic (cmd :: _) => some cmd
  | _ => none

/-- Packets that neither open the level-0 key nor set the dimming. -/
def Inert (p : Packet) : Prop := p ≠ level0Unlock ∧ p.sets ≠ some dimming

instance : DecidablePred Inert := fun _ => inferInstanceAs (Decidable (_ ∧ _))

theorem inert_brightness (params : List (BitVec 8)) : Inert (.dcs brightness params) := by
  refine ⟨fun h => ?_, ?_⟩
  · exact absurd (congrArg Packet.sets h) (show some brightness ≠ some 0xf0 by decide)
  · show some brightness ≠ some dimming
    decide

theorem accept_dimming {p : Packet} (h : p.sets ≠ some dimming) (s : State) :
    (s.accept p).regs dimming = s.regs dimming := by
  unfold State.accept
  split
  · next cmd params =>
    exact Function.update_of_ne (fun hc => h (congrArg some hc.symm)) _ _
  · next cmd params =>
    exact Function.update_of_ne (fun hc => h (congrArg some hc.symm)) _ _
  · rfl

theorem not_stuck_of_inert {p : Packet} (h : Inert p) (i : Input) (s : State) :
    ¬ Stuck ⟨.transfer p, i, s⟩ := by
  rintro ⟨rfl | rfl, -⟩
  · exact h.1 rfl
  · exact h.2 rfl

instance : (Monitor.seen Stuck).Ignores Op.load :=
  ⟨fun _ _ _ => trivial, fun _ _ _ => or_false _⟩

instance (f : Ctx → Ctx) : (Monitor.seen Stuck).Ignores (Op.store f) :=
  ⟨fun _ _ _ => trivial, fun _ _ _ => or_false _⟩

instance (v : Bool) : (Monitor.seen Stuck).Ignores (Op.setReset v) :=
  ⟨fun _ _ _ => trivial, fun _ _ _ => or_false _⟩

instance (l : List Supply) : (Monitor.seen Stuck).Ignores (Op.regulatorDisable l) :=
  ⟨fun _ _ _ => trivial, fun _ _ _ => or_false _⟩

theorem multi_error (e : Errno) (l : List Packet) : multi (.error e) l = pure (.error e) := by
  cases l <;> rfl

section Rules

variable {A : Event panel → Prop} {P : Event panel → Prop} {m : Prop} {s : State}

theorem wp_transfer_seen {p : Packet} {Q : Ret → Prop → State → Prop}
    (herr : ∀ i e, i.fault = some e → Q (.error e) (m ∨ P ⟨.transfer p, i, s⟩) s)
    (hok : ∀ i, i.fault = none → Q (.ok ()) (m ∨ P ⟨.transfer p, i, s⟩) (s.accept p)) :
    wp A (Monitor.seen P) (transfer p) Q m s := by
  refine (wp_perform _ _ _ _).2 fun i _ => ⟨trivial, ?_⟩
  cases hf : i.fault with
  | some e => simpa only [handle, hf] using herr i e hf
  | none => simpa only [handle, hf] using hok i hf

theorem wp_transfer_inert {p : Packet} (hp : Inert p) :
    wp A (Monitor.seen Stuck) (transfer p) (fun _ m' s' =>
      m' = m ∧ s'.ctx = s.ctx ∧ s'.regs dimming = s.regs dimming) m s := by
  have hm : ∀ i, (m ∨ Stuck ⟨.transfer p, i, s⟩) = m := fun i =>
    propext (or_iff_left (not_stuck_of_inert hp i s))
  refine wp_transfer_seen (fun i e _ => ⟨hm i, rfl, rfl⟩) fun i _ => ?_
  exact ⟨hm i, accept_ctx s p, accept_dimming hp.2 s⟩

theorem multi_inert {l : List Packet} (hl : ∀ p ∈ l, Inert p) (r : Ret) :
    wp A (Monitor.seen Stuck) (multi r l) (fun _ m' s' =>
      m' = m ∧ s'.ctx = s.ctx ∧ s'.regs dimming = s.regs dimming) m s := by
  induction l generalizing r m s with
  | nil => cases r <;> exact ⟨rfl, rfl, rfl⟩
  | cons p l ih =>
    cases r with
    | error e => exact ⟨rfl, rfl, rfl⟩
    | ok _ =>
      unfold multi
      apply wp_seq (wp_transfer_inert (hl p List.mem_cons_self))
      intro r m₁ s₁ h₁
      obtain ⟨rfl, hctx₁, hdim₁⟩ := h₁
      refine wp_mono (ih (fun q hq => hl q (List.mem_cons_of_mem _ hq)) r) ?_
      intro _ m₂ s₂ h₂
      obtain ⟨hm₂, hctx₂, hdim₂⟩ := h₂
      exact ⟨hm₂, hctx₂.trans hctx₁, hdim₂.trans hdim₁⟩

/-- Leaving the mode gets stuck precisely if it is still on afterwards. -/
theorem writeFodLocked_false_stuck :
    wp A (Monitor.seen Stuck) (writeFodLocked false) (fun _ m' s' =>
      s'.ctx = s.ctx ∧ (m' ↔ m ∨ InHbm s')) m s := by
  unfold writeFodLocked
  apply wp_load_seq
  simp only [Bool.false_eq_true, if_false, leaveFod, underKey, List.cons_append, List.nil_append]
  unfold multi
  rw [wp_bind]
  refine wp_transfer_seen (fun i e he => ?_) fun i he => ?_
  · simp [multi, Stuck, he]
  have hm₁ : (m ∨ Stuck ⟨.transfer level0Unlock, i, s⟩) = m := by simp [Stuck, he]
  have hdim₁ : (s.accept level0Unlock).regs dimming = s.regs dimming := accept_dimming (by decide) s
  rw [hm₁]
  unfold multi
  rw [wp_bind]
  refine wp_transfer_seen (fun j e hj => ?_) fun j hj => ?_
  · simp [multi, Stuck, hj, InHbm, hdim₁]
  have hm₂ : (m ∨ Stuck ⟨.transfer (.dcs dimming normalDimming), j, s.accept level0Unlock⟩) = m := by
    simp [Stuck, hj]
  rw [hm₂]
  have hrest : ∀ p ∈ [Packet.dcs brightness (brightnessParams s.ctx.userBrightness), level0Lock],
      Inert p := by
    simp only [List.forall_mem_cons]
    exact ⟨inert_brightness _, by decide, fun _ h => (nomatch h)⟩
  refine wp_mono (multi_inert hrest _) ?_
  intro _ m₃ s₃ h₃
  obtain ⟨rfl, hctx, hdim⟩ := h₃
  have hleft : ¬ InHbm s₃ := by
    unfold InHbm
    rw [hdim]
    exact show normalDimming ≠ hbmDimming by decide
  exact ⟨by rw [hctx, accept_ctx, accept_ctx], by simp [hleft]⟩

/-- Entering the mode never gets stuck, and if every packet is accepted the mode is on. -/
theorem writeFodLocked_true_stuck (hs : ¬ InHbm s) :
    wp A (Monitor.seen Stuck) (writeFodLocked true) (fun r m' s' =>
      s'.ctx = s.ctx ∧ m' = m ∧ (r = .ok () → InHbm s')) m s := by
  unfold writeFodLocked
  apply wp_load_seq
  simp only [if_true, enterFod, underKey, List.cons_append, List.nil_append]
  unfold multi
  rw [wp_bind]
  have hm₁ : ∀ i, (m ∨ Stuck ⟨.transfer level0Unlock, i, s⟩) = m := fun i => by simp [Stuck, hs]
  refine wp_transfer_seen (fun i e he => ?_) fun i he => ?_
  · rw [hm₁]
    exact ⟨rfl, rfl, fun h => (by cases h)⟩
  rw [hm₁]
  unfold multi
  rw [wp_bind]
  have hm₂ : ∀ j s', (m ∨ Stuck ⟨.transfer (.dcs dimming hbmDimming), j, s'⟩) = m := fun j s' => by
    simp [Stuck, level0Unlock, dimming, hbmDimming, normalDimming]
  refine wp_transfer_seen (fun j e hj => ?_) fun j hj => ?_
  · rw [hm₂]
    exact ⟨accept_ctx s _, rfl, fun h => (by cases h)⟩
  rw [hm₂]
  refine wp_mono (multi_inert (by decide) _) ?_
  intro _ m₃ s₃ h₃
  obtain ⟨rfl, hctx, hdim⟩ := h₃
  refine ⟨by rw [hctx, accept_ctx, accept_ctx], rfl, fun _ => ?_⟩
  unfold InHbm
  rw [hdim]
  rfl

theorem writeFodCircleLocked_stuck (b : Bool) :
    wp A (Monitor.seen Stuck) (writeFodCircleLocked b) (fun _ m' s' =>
      m' = m ∧ s'.ctx = s.ctx ∧ s'.regs dimming = s.regs dimming) m s := by
  unfold writeFodCircleLocked
  have hdraw : ∀ p ∈ [Packet.generic [0xf1, 0x5a, 0x5a],
      .generic [0x7a, 0x05, 0x00, 0x00, if b then 0x00 else 0x02]], Inert p := by
    cases b <;> decide
  apply wp_seq (multi_inert hdraw _)
  intro r m₁ s₁ h₁
  obtain ⟨rfl, hctx₁, hdim₁⟩ := h₁
  apply wp_seq (wp_transfer_inert (by decide))
  intro r' m₂ s₂ h₂
  obtain ⟨hm₂, hctx₂, hdim₂⟩ := h₂
  exact ⟨hm₂, hctx₂.trans hctx₁, hdim₂.trans hdim₁⟩

theorem leaveCircle_stuck :
    wp A (Monitor.seen Stuck) leaveCircle (fun _ m' s' =>
      m' = m ∧ s'.ctx = { s.ctx with fodCircle := false } ∧
        s'.regs dimming = s.regs dimming) m s := by
  unfold leaveCircle
  apply wp_load_seq
  refine wp_ite (fun _ => ?_) fun hoff => ?_
  · apply wp_seq (writeFodCircleLocked_stuck false)
    intro r m₁ s₁ h₁
    obtain ⟨rfl, hctx, hdim⟩ := h₁
    refine wp_store_seq ⟨rfl, ?_, hdim⟩
    simp [State.setCtx, Ctx.setFodCircle, hctx]
  · have hfalse : s.ctx.fodCircle = false := by simpa using hoff
    refine ⟨rfl, ?_, rfl⟩
    rw [← hfalse]

/-- The cleanup clears the flags whatever the panel does. If the mode was on, it gets stuck precisely
if the mode still is. -/
theorem fodCleanupLocked_stuck :
    wp A (Monitor.seen Stuck) fodCleanupLocked (fun _ m' s' =>
      s'.ctx = { s.ctx with fodCircle := false, fodMode := false } ∧
        (s.ctx.fodMode = true → (m' ↔ m ∨ InHbm s'))) m s := by
  unfold fodCleanupLocked leaveMode
  apply wp_seq leaveCircle_stuck
  intro r m₁ s₁ h₁
  obtain ⟨rfl, hctx₁, hdim⟩ := h₁
  rw [wp_bind]
  apply wp_load_seq
  refine wp_ite (fun hon => ?_) fun hoff => ?_
  · apply wp_seq writeFodLocked_false_stuck
    intro r' m₂ s₂ h₂
    obtain ⟨hctx₂, hm₂⟩ := h₂
    refine wp_store_seq ⟨?_, fun _ => hm₂⟩
    simp [State.setCtx, Ctx.setFodMode, hctx₂, hctx₁]
  · have hfalse : s.ctx.fodMode = false := by simpa [hctx₁] using hoff
    refine ⟨?_, fun hon => absurd (hon.symm.trans hfalse) (by decide)⟩
    rw [hctx₁, ← hfalse]

end Rules

/-! ## The calls that can leave the mode on -/

section Calls

variable {A : Event panel → Prop} {s : State}

theorem flags_off (hm : s.ctx.fodMode = false) (hc : s.ctx.fodCircle = false)
    (hw : s.ctx.fodWatchdog = none) (he : s.ctx.enabled = true → s.ctx.prepared = true) :
    Flags s where
  circle h := absurd (hc.symm.trans h) (by decide)
  mode h := absurd (hm.symm.trans h) (by decide)
  watchdog := by simp [hw, hm]
  enabled := he

theorem flags_on (hm : s.ctx.fodMode = true) (hp : s.ctx.prepared = true)
    (he : s.ctx.enabled = true) (hw : s.ctx.fodWatchdog = some fodWatchdogMs) (hh : InHbm s) :
    Flags s where
  circle _ := hm
  mode _ := ⟨hp, he, hh⟩
  watchdog := by simp [hw, hm]
  enabled _ := hp

/-- Outside fingerprint mode there is no circle and no watchdog. -/
theorem Flags.off (hf : Flags s) (hm : s.ctx.fodMode = false) :
    s.ctx.fodCircle = false ∧ s.ctx.fodWatchdog = none := by
  refine ⟨?_, ?_⟩
  · cases hc : s.ctx.fodCircle with
    | false => rfl
    | true => exact absurd ((hf.circle hc).symm.trans hm) (by decide)
  · have hw := hf.watchdog
    rw [hm] at hw
    simpa using hw

theorem Flags.enabled_off (hf : Flags s) (hp : s.ctx.prepared = false) : s.ctx.enabled = false := by
  cases hon : s.ctx.enabled with
  | false => rfl
  | true => exact absurd ((hf.enabled hon).symm.trans hp) (by decide)

/-- A panel that is not on is not in fingerprint mode. -/
theorem Flags.mode_off (hf : Flags s) (he : s.ctx.enabled = false) : s.ctx.fodMode = false := by
  cases hon : s.ctx.fodMode with
  | false => rfl
  | true => exact absurd ((hf.mode hon).2.1.symm.trans he) (by decide)

/-- The watchdog is set by the flags, so updating it changes nothing they say. -/
theorem Flags.rearm (hf : Flags s) :
    Flags (s.setCtx (Ctx.setWatchdog
      (if s.ctx.fodMode || s.ctx.fodCircle then some fodWatchdogMs else none))) where
  circle := hf.circle
  mode := hf.mode
  watchdog := by
    cases hm : s.ctx.fodMode with
    | true => simp [State.setCtx, Ctx.setWatchdog, hm]
    | false => simp [State.setCtx, Ctx.setWatchdog, hm, (hf.off hm).1]
  enabled := hf.enabled

/-- A panel in high-brightness mode that is guarded is in fingerprint mode. -/
theorem HbmGuarded.mode (hg : HbmGuarded s) (hf : Flags s) (hp : s.ctx.prepared = true)
    (he : s.ctx.enabled = true) (hh : InHbm s) : s.ctx.fodMode = true := by
  rw [← hf.watchdog]
  exact hg hp he hh

theorem HbmGuarded.rearm (hg : HbmGuarded s) (hf : Flags s) :
    HbmGuarded (s.setCtx (Ctx.setWatchdog
      (if s.ctx.fodMode || s.ctx.fodCircle then some fodWatchdogMs else none))) := by
  intro hp he hh
  have hm := hg.mode hf hp he hh
  simp [State.setCtx, Ctx.setWatchdog, hm]

/-- With the panel on and the watchdog stopped, being guarded is not being in the mode. -/
theorem hbmGuarded_iff (hp : s.ctx.prepared = true) (he : s.ctx.enabled = true)
    (hw : s.ctx.fodWatchdog = none) : HbmGuarded s ↔ ¬ InHbm s := by
  simp [HbmGuarded, hp, he, hw]

/-- A call that ends with the flags off and the panel on. -/
theorem off_guarded (hm : s.ctx.fodMode = false) (hc : s.ctx.fodCircle = false)
    (hw : s.ctx.fodWatchdog = none) (hp : s.ctx.prepared = true) (he : s.ctx.enabled = true)
    {m : Prop} (hstuck : m ↔ False ∨ InHbm s) : Flags s ∧ (¬ m ↔ HbmGuarded s) := by
  refine ⟨flags_off hm hc hw fun _ => hp, ?_⟩
  rw [hbmGuarded_iff hp he hw, hstuck, false_or]

theorem fodModeStore_stuck (hf : Flags s) (hg : HbmGuarded s) (parsed : Except Errno Bool) :
    wp A (Monitor.seen Stuck) (fodModeStore parsed) (fun _ m' s' =>
      Flags s' ∧ (¬ m' ↔ HbmGuarded s')) False s := by
  have hsame : Flags s ∧ (¬ False ↔ HbmGuarded s) := ⟨hf, by simp [hg]⟩
  unfold fodModeStore
  cases parsed with
  | error e => exact hsame
  | ok enable =>
    dsimp only
    apply wp_load_seq
    refine wp_ite (fun _ => hsame) fun hready => ?_
    obtain ⟨hp, he⟩ : s.ctx.prepared = true ∧ s.ctx.enabled = true := by simpa using hready
    refine wp_ite (fun _ => ?_) fun hne => ?_
    · rw [wp_bind]
      exact updateFodWatchdogLocked_spec ⟨hf.rearm, iff_of_true id (hg.rearm hf)⟩
    cases enable with
    | true =>
      have hm : s.ctx.fodMode = false := by simpa using hne
      have hout : ¬ InHbm s := fun hh => hne (hg.mode hf hp he hh)
      obtain ⟨hc, hw⟩ := hf.off hm
      rw [if_pos rfl]
      apply wp_seq (writeFodLocked_true_stuck hout)
      intro r m₁ s₁ h₁
      obtain ⟨hctx₁, rfl, hin⟩ := h₁
      cases r with
      | error e =>
        dsimp only
        apply wp_seq writeFodLocked_false_stuck
        intro r' m₂ s₂ h₂
        obtain ⟨hctx₂, hm₂⟩ := h₂
        have hctx : s₂.ctx = s.ctx := hctx₂.trans hctx₁
        exact off_guarded (by rw [hctx, hm]) (by rw [hctx, hc]) (by rw [hctx, hw])
          (by rw [hctx, hp]) (by rw [hctx, he]) hm₂
      | ok _ =>
        refine wp_store_seq ?_
        rw [wp_bind]
        refine updateFodWatchdogLocked_spec ⟨flags_on ?_ ?_ ?_ ?_ (hin rfl),
          iff_of_true id fun _ _ _ => ?_⟩
        · simp [State.setCtx, Ctx.setWatchdog, Ctx.setFodMode]
        · simp [State.setCtx, Ctx.setWatchdog, Ctx.setFodMode, hctx₁, hp]
        · simp [State.setCtx, Ctx.setWatchdog, Ctx.setFodMode, hctx₁, he]
        · simp [State.setCtx, Ctx.setWatchdog, Ctx.setFodMode]
        · simp [State.setCtx, Ctx.setWatchdog, Ctx.setFodMode]
    | false =>
      have hm : s.ctx.fodMode = true := by simpa using hne
      rw [if_neg (by decide)]
      apply wp_seq fodCleanupLocked_stuck
      intro r m₁ s₁ h₁
      obtain ⟨hctx, hm₁⟩ := h₁
      rw [wp_bind]
      refine updateFodWatchdogLocked_spec (off_guarded ?_ ?_ ?_ ?_ ?_ (hm₁ hm))
      · simp [State.setCtx, Ctx.setWatchdog, hctx]
      · simp [State.setCtx, Ctx.setWatchdog, hctx]
      · simp [State.setCtx, Ctx.setWatchdog, hctx]
      · simp [State.setCtx, Ctx.setWatchdog, hctx, hp]
      · simp [State.setCtx, Ctx.setWatchdog, hctx, he]

theorem fodWatchdog_stuck (hf : Flags s) (hg : HbmGuarded s) :
    wp A (Monitor.seen Stuck) Call.fodWatchdog.code (fun _ m' s' =>
      Flags s' ∧ (¬ m' ↔ HbmGuarded s')) False s := by
  unfold Call.code cancelWatchdog fodWatchdogWork
  apply wp_load_seq
  refine wp_ite (fun hpending => ?_) fun _ => ⟨hf, iff_of_true id hg⟩
  -- a pending watchdog means that the mode is on, so the cleanup is the branch taken
  have hm : s.ctx.fodMode = true := hf.watchdog.symm.trans hpending
  obtain ⟨hp, he, hin⟩ := hf.mode hm
  refine wp_store_seq (wp_load_seq ?_)
  rw [if_pos (by simp [State.setCtx, Ctx.setWatchdog, hp, he])]
  refine wp_seq fodCleanupLocked_stuck ?_
  intro r m₁ s₁ h₁
  obtain ⟨hctx, hm₁⟩ := h₁
  refine off_guarded ?_ ?_ ?_ ?_ ?_ (hm₁ hm)
  · rw [hctx]
  · rw [hctx]
  · rw [hctx]
    rfl
  · rw [hctx]
    exact hp
  · rw [hctx]
    exact he

instance : (Monitor.seen Refused).Ignores Op.load :=
  ⟨fun _ _ _ => trivial, fun _ _ _ => or_false _⟩

instance (f : Ctx → Ctx) : (Monitor.seen Refused).Ignores (Op.store f) :=
  ⟨fun _ _ _ => trivial, fun _ _ _ => or_false _⟩

/-- A sequence of packets succeeds precisely if none is refused. -/
theorem multi_refused {l : List Packet} (hl : ∀ p ∈ l, p.sets ≠ some dimming) {m : Prop} :
    wp A (Monitor.seen Refused) (multi (.ok ()) l) (fun r m' s' =>
      s'.ctx = s.ctx ∧ s'.regs dimming = s.regs dimming ∧ (m' ↔ m ∨ r ≠ .ok ())) m s := by
  induction l generalizing m s with
  | nil => exact ⟨rfl, rfl, by simp⟩
  | cons p l ih =>
    unfold multi
    rw [wp_bind]
    refine wp_transfer_seen (fun i e he => ?_) fun i he => ?_
    · rw [multi_error]
      exact ⟨rfl, rfl, by simp [Refused, he]⟩
    · have hm : (m ∨ Refused ⟨.transfer p, i, s⟩) = m := by simp [Refused, he]
      rw [hm]
      refine wp_mono (ih fun q hq => hl q (List.mem_cons_of_mem _ hq)) ?_
      intro r m' s' h
      obtain ⟨hctx, hdim, hm'⟩ := h
      refine ⟨hctx.trans (accept_ctx s p), hdim.trans (accept_dimming ?_ s), hm'⟩
      exact hl p List.mem_cons_self

theorem enable_refused (hf : Flags s) (hg : HbmGuarded s) :
    wp A (Monitor.seen Refused) enable (fun _ m' s' =>
      Flags s' ∧ ((s.ctx.prepared = true → s.ctx.enabled = false → InHbm s → m') ↔
        HbmGuarded s')) False s := by
  unfold enable
  apply wp_load_seq
  refine wp_ite (fun hoff => ⟨hf, iff_of_true (fun hp => absurd hp hoff) hg⟩) fun hprep => ?_
  have hp : s.ctx.prepared = true := by simpa using hprep
  refine wp_ite (fun hon => ⟨hf, iff_of_true (fun _ h => ?_) hg⟩) fun hoff => ?_
  · exact absurd (hon.symm.trans h) (by decide)
  have he : s.ctx.enabled = false := by simpa using hoff
  have hm : s.ctx.fodMode = false := hf.mode_off he
  obtain ⟨hc, hw⟩ := hf.off hm
  apply wp_seq (multi_refused (by decide))
  intro r m₁ s₁ h₁
  obtain ⟨hctx, hdim, hm₁⟩ := h₁
  cases r with
  | error e =>
    refine ⟨flags_off (by rw [hctx, hm]) (by rw [hctx, hc]) (by rw [hctx, hw])
      (by rw [hctx]; exact hf.enabled), iff_of_true (fun _ _ _ => by simp [hm₁]) ?_⟩
    intro _ hon
    rw [hctx, he] at hon
    exact absurd hon (by decide)
  | ok _ =>
    refine wp_store_seq ⟨flags_off ?_ ?_ ?_ ?_, ?_⟩
    · simp [State.setCtx, Ctx.setEnabled, hctx, hm]
    · simp [State.setCtx, Ctx.setEnabled, hctx, hc]
    · simp [State.setCtx, Ctx.setEnabled, hctx, hw]
    · simp [State.setCtx, Ctx.setEnabled, hctx, hp]
    · have hnot : ¬ m₁ := by simp [hm₁]
      rw [hbmGuarded_iff (by simp [State.setCtx, Ctx.setEnabled, hctx, hp])
        (by simp [State.setCtx, Ctx.setEnabled]) (by simp [State.setCtx, Ctx.setEnabled, hctx, hw])]
      have hin : InHbm (s₁.setCtx (Ctx.setEnabled true)) ↔ InHbm s := by
        unfold InHbm
        rw [← hdim]
        exact Iff.rfl
      simp [hp, he, hnot, hin]

end Calls

/-! ## The other calls -/

/-- The flags of the driver. -/
def flags (c : Ctx) : Bool × Bool × Bool × Bool × Option Nat :=
  (c.prepared, c.enabled, c.fodMode, c.fodCircle, c.fodWatchdog)

/-- Operations that leave the flags alone. -/
def KeepsFlags : Op → Prop
  | .store f => ∀ c, flags (f c) = flags c
  | _ => True

theorem KeepsFlags.frame {o : Op} (h : KeepsFlags o) (i : Input) (s : State) :
    flags (handle o i s).2.ctx = flags s.ctx := by
  cases o with
  | store f => exact h s.ctx
  | transfer p => cases hf : i.fault <;> simp [handle, hf]
  | regulatorEnable l => cases hf : i.fault <;> simp [handle, hf, State.addUse]
  | _ => rfl

theorem multi_keepsFlags (r : Ret) (l : List Packet) : Issues KeepsFlags (multi r l) := by
  induction l generalizing r with
  | nil => cases r <;> trivial
  | cons p l ih =>
    cases r with
    | error e => trivial
    | ok _ => exact ⟨trivial, fun r => ih r⟩

theorem powerOn_keepsFlags : Issues KeepsFlags powerOn := by
  unfold powerOn
  refine Issues.bind ⟨trivial, fun _ => trivial⟩ fun r => ?_
  split
  · trivial
  · refine Issues.bind ⟨trivial, fun _ => trivial⟩ fun r => ?_
    split
    · exact ⟨trivial, fun _ => trivial⟩
    · trivial

theorem readId_keepsFlags (cmd : BitVec 8) : Issues KeepsFlags (readId cmd) := by
  unfold readId
  refine Issues.bind ⟨trivial, fun _ => trivial⟩ fun r => ?_
  split <;> trivial

theorem on_keepsFlags : Issues KeepsFlags on := by
  unfold on
  refine (multi_keepsFlags _ _).bind fun err => ?_
  refine (readId_keepsFlags _).bind fun id0 => (readId_keepsFlags _).bind fun id1 => ?_
  refine (readId_keepsFlags _).bind fun id2 => ?_
  refine Issues.bind ⟨fun _ => rfl, fun _ => trivial⟩ fun _ => ?_
  refine (multi_keepsFlags _ _).bind fun err => ?_
  refine Issues.bind ⟨trivial, fun _ => trivial⟩ fun moduleInfo => ?_
  refine (multi_keepsFlags _ _).bind fun err => ?_
  refine Issues.bind ⟨fun _ => rfl, fun _ => trivial⟩ fun _ => ?_
  exact Issues.bind ⟨trivial, fun _ => trivial⟩ fun c => multi_keepsFlags _ _

section Others

variable {A : Event panel → Prop} {s : State}

theorem wp_keepsFlags {α : Type} {p : Code α} (hp : Issues KeepsFlags p)
    {F : Bool × Bool × Bool × Bool × Option Nat} (hs : flags s.ctx = F) :
    wp A (Monitor.idle panel) p (fun _ _ s' => flags s'.ctx = F) () s := by
  refine hp.wp (W := panel) (M := Monitor.idle panel) (J := fun _ s' => flags s'.ctx = F)
    (fun o ho i _ s' _ hs' => ⟨trivial, ?_⟩) hs
  exact (ho.frame i s').trans hs'

/-- A panel that is off: no mode, no circle, no watchdog, and guarded whatever it shows. -/
theorem flags_dark {p : Bool} (hs : flags s.ctx = (p, false, false, false, none)) :
    Flags s ∧ HbmGuarded s := by
  simp only [flags, Prod.mk.injEq] at hs
  obtain ⟨hp, he, hm, hc, hw⟩ := hs
  refine ⟨flags_off hm hc hw (by simp [he]), fun _ hon => ?_⟩
  exact absurd (he.symm.trans hon) (by decide)

theorem prepare_guarded (hf : Flags s) (hg : HbmGuarded s) :
    wp A (Monitor.idle panel) prepare (fun _ _ s' => Flags s' ∧ HbmGuarded s') () s := by
  unfold prepare
  apply wp_load_seq
  refine wp_ite (fun _ => ⟨hf, hg⟩) fun hoff => ?_
  have hp : s.ctx.prepared = false := by simpa using hoff
  have he : s.ctx.enabled = false := hf.enabled_off hp
  have hm : s.ctx.fodMode = false := hf.mode_off he
  obtain ⟨hc, hw⟩ := hf.off hm
  have hdark : flags s.ctx = (false, false, false, false, none) := by
    simp [flags, hp, he, hm, hc, hw]
  apply wp_seq (wp_keepsFlags powerOn_keepsFlags hdark)
  intro r _ s₁ h₁
  cases r with
  | error e => exact flags_dark h₁
  | ok _ =>
    apply wp_seq (wp_keepsFlags (p := resetPanel)
      ⟨trivial, fun _ => ⟨trivial, fun _ => ⟨trivial, fun _ => trivial⟩⟩⟩ h₁)
    intro _ _ s₂ h₂
    apply wp_seq (wp_keepsFlags on_keepsFlags h₂)
    intro r _ s₃ h₃
    cases r with
    | error e =>
      dsimp only
      apply wp_seq (wp_keepsFlags (p := setReset false) ⟨trivial, fun _ => trivial⟩ h₃)
      intro _ _ s₄ h₄
      apply wp_seq (wp_keepsFlags (p := regulatorDisable _) ⟨trivial, fun _ => trivial⟩ h₄)
      intro _ _ s₅ h₅
      exact flags_dark h₅
    | ok _ =>
      refine wp_store_seq (flags_dark (p := true) ?_)
      simp only [flags, Prod.mk.injEq] at h₃
      simp [flags, State.setCtx, Ctx.setPrepared, h₃]

theorem disable_guarded (hf : Flags s) {m : Prop} :
    wp A (Monitor.seen Stuck) disable (fun _ _ s' => Flags s' ∧ HbmGuarded s') m s := by
  unfold disable disableLocked cancelWatchdog
  rw [wp_bind]
  apply wp_load_seq
  refine wp_ite (fun hoff => wp_store_seq ?_) fun _ => ?_
  · have he : s.ctx.enabled = false := by simpa using hoff
    have hm := hf.mode_off he
    refine flags_dark (p := s.ctx.prepared) ?_
    simp [flags, State.setCtx, Ctx.setWatchdog, he, hm, (hf.off hm).1]
  · apply wp_seq fodCleanupLocked_stuck
    intro r m₁ s₁ h₁
    obtain ⟨hctx₁, -⟩ := h₁
    apply wp_seq (multi_inert (by decide) _)
    intro r' m₂ s₂ h₂
    obtain ⟨-, hctx₂, -⟩ := h₂
    refine wp_store_seq (wp_store_seq (flags_dark (p := s.ctx.prepared) ?_))
    simp [flags, State.setCtx, Ctx.setWatchdog, Ctx.setEnabled, hctx₂, hctx₁]

theorem unprepare_guarded (hf : Flags s) {m : Prop} :
    wp A (Monitor.seen Stuck) unprepare (fun _ _ s' => Flags s' ∧ HbmGuarded s') m s := by
  unfold unprepare unprepareLocked cancelWatchdog sleepIn
  rw [wp_bind]
  apply wp_load_seq
  refine wp_ite (fun hoff => wp_store_seq ?_) fun _ => ?_
  · have hp : s.ctx.prepared = false := by simpa using hoff
    have he : s.ctx.enabled = false := hf.enabled_off hp
    have hm := hf.mode_off he
    refine flags_dark (p := false) ?_
    simp [flags, State.setCtx, Ctx.setWatchdog, hp, he, hm, (hf.off hm).1]
  · apply wp_seq fodCleanupLocked_stuck
    intro r m₁ s₁ h₁
    obtain ⟨hctx₁, -⟩ := h₁
    apply wp_seq (multi_inert (by decide) _)
    intro r' m₂ s₂ h₂
    obtain ⟨-, hctx₂, -⟩ := h₂
    refine wp_store_seq (wp_store_seq ?_)
    rw [wp_bind]
    refine wp_setReset ?_
    rw [wp_bind]
    refine wp_regulatorDisable (wp_store_seq (flags_dark (p := false) ?_))
    simp [flags, State.setCtx, State.addUse, Ctx.setWatchdog, Ctx.setEnabled, Ctx.setPrepared, hctx₂,
      hctx₁]

/-- What keeps the flags and the dimming keeps the panel guarded. -/
theorem guarded_frame {s' : State} (hf : Flags s) (hg : HbmGuarded s)
    (hflags : flags s'.ctx = flags s.ctx) (hdim : s'.regs dimming = s.regs dimming) :
    Flags s' ∧ HbmGuarded s' := by
  simp only [flags, Prod.mk.injEq] at hflags
  obtain ⟨hp, he, hm, hc, hw⟩ := hflags
  have hin : InHbm s' ↔ InHbm s := by
    unfold InHbm
    rw [hdim]
  refine ⟨⟨?_, ?_, ?_, ?_⟩, ?_⟩
  · rw [hc, hm]
    exact hf.circle
  · rw [hp, he, hm, hin]
    exact hf.mode
  · rw [hw, hm]
    exact hf.watchdog
  · rw [hp, he]
    exact hf.enabled
  · unfold HbmGuarded
    rw [hp, he, hw, hin]
    exact hg

theorem blUpdate_guarded (hf : Flags s) (hg : HbmGuarded s) (value : Nat) {m : Prop} :
    wp A (Monitor.seen Stuck) (blUpdate value) (fun _ _ s' => Flags s' ∧ HbmGuarded s') m s := by
  unfold blUpdate writeBrightnessLocked
  refine wp_store_seq (wp_load_seq (wp_ite (fun _ => ?_) fun _ => ⟨⟨hf.1, hf.2, hf.3, hf.4⟩, hg⟩))
  refine wp_mono (wp_transfer_inert (inert_brightness _)) ?_
  intro r m₁ s₁ h₁
  obtain ⟨-, hctx, hdim⟩ := h₁
  refine guarded_frame hf hg ?_ hdim
  rw [hctx]
  rfl

theorem fodCircleStore_guarded (hf : Flags s) (hg : HbmGuarded s) (parsed : Except Errno Bool)
    {m : Prop} :
    wp A (Monitor.seen Stuck) (fodCircleStore parsed) (fun _ _ s' => Flags s' ∧ HbmGuarded s')
      m s := by
  unfold fodCircleStore
  cases parsed with
  | error e => exact ⟨hf, hg⟩
  | ok enable =>
    dsimp only
    apply wp_load_seq
    refine wp_ite (fun _ => ⟨hf, hg⟩) fun _ => wp_ite (fun _ => ⟨hf, hg⟩) fun hallowed => ?_
    refine wp_ite (fun _ => ?_) fun hne => ?_
    · rw [wp_bind]
      exact updateFodWatchdogLocked_spec ⟨hf.rearm, hg.rearm hf⟩
    apply wp_seq (writeFodCircleLocked_stuck enable)
    intro r m₁ s₁ h₁
    obtain ⟨-, hctx₁, hdim₁⟩ := h₁
    obtain ⟨hf₁, hg₁⟩ := guarded_frame hf hg (by rw [hctx₁]) hdim₁
    cases r with
    | ok _ =>
      have henable : enable = true → s₁.ctx.fodMode = true := by
        intro h
        rw [hctx₁]
        simpa [h] using hallowed
      have hf₂ : Flags (s₁.setCtx (Ctx.setFodCircle enable)) :=
        ⟨henable, hf₁.mode, hf₁.watchdog, hf₁.enabled⟩
      have hg₂ : HbmGuarded (s₁.setCtx (Ctx.setFodCircle enable)) := hg₁
      refine wp_store_seq ?_
      rw [wp_bind]
      exact updateFodWatchdogLocked_spec ⟨hf₂.rearm, hg₂.rearm hf₂⟩
    | error e =>
      dsimp only
      split
      · apply wp_seq (writeFodCircleLocked_stuck false)
        intro r' m₂ s₂ h₂
        obtain ⟨-, hctx₂, hdim₂⟩ := h₂
        obtain ⟨hf₂, hg₂⟩ := guarded_frame hf₁ hg₁ (by rw [hctx₂]) hdim₂
        rw [wp_bind]
        exact updateFodWatchdogLocked_spec ⟨hf₂.rearm, hg₂.rearm hf₂⟩
      · rw [wp_bind]
        exact updateFodWatchdogLocked_spec ⟨hf₁.rearm, hg₁.rearm hf₁⟩

end Others

/-! ## Runs -/

/-- The flags are as they should be, and the panel is guarded. -/
def Sound (s : State) : Prop := Flags s ∧ HbmGuarded s

theorem sound_of_wp {M : Monitor panel} {m : M.St} {l : Step} {s : State}
    (h : wp (fun _ => True) M l.call.code (fun _ _ s' => Flags s' ∧ HbmGuarded s') m s) :
    Sound (step l s) :=
  (wp_sound h l.inputs fun _ _ => trivial).2

/-- What a monitor has seen when the step is over, said of the step's trace. -/
theorem flags_of_seen {P : Event panel → Prop} {l : Step} {s : State} {G : Prop → State → Prop}
    (h : wp (fun _ => True) (Monitor.seen P) l.call.code (fun _ m' s' => Flags s' ∧ G m' s') False s) :
    Flags (step l s) ∧ G (∃ e ∈ l.trace s, P e) (step l s) := by
  have hend := (wp_sound h l.inputs fun _ _ => trivial).2
  have hseen : (Monitor.seen P).after False (l.call.code.trace panel l.inputs s) =
      ∃ e ∈ l.trace s, P e := by
    rw [Monitor.after_seen, false_or]
    rfl
  rwa [hseen] at hend

/-- One step from a sound state: the flags stay as they should be, and the panel stays guarded
precisely if the step leaves the mode. -/
theorem step_sound {l : Step} {s : State} (hs : Sound s) :
    Flags (step l s) ∧ (LeavesHbm l s ↔ HbmGuarded (step l s)) := by
  obtain ⟨hf, hg⟩ := hs
  have hothers : Sound (step l s) → LeavesHbm l s →
      Flags (step l s) ∧ (LeavesHbm l s ↔ HbmGuarded (step l s)) :=
    fun h hl => ⟨h.1, iff_of_true hl h.2⟩
  obtain ⟨c, ι⟩ := l
  cases c with
  | prepare => exact hothers (sound_of_wp (wp_void (prepare_guarded hf hg))) trivial
  | disable => exact hothers (sound_of_wp (wp_void (disable_guarded (m := False) hf))) trivial
  | unprepare => exact hothers (sound_of_wp (wp_void (unprepare_guarded (m := False) hf))) trivial
  | blUpdate value =>
    exact hothers (sound_of_wp (wp_void (blUpdate_guarded (m := False) hf hg value))) trivial
  | fodCircleStore parsed =>
    exact hothers (sound_of_wp (wp_void (fodCircleStore_guarded (m := False) hf hg parsed))) trivial
  | enable =>
    exact flags_of_seen (l := ⟨.enable, ι⟩)
      (G := fun m' s' => (s.ctx.prepared = true → s.ctx.enabled = false → InHbm s → m') ↔ HbmGuarded s')
      (wp_void (enable_refused hf hg))
  | fodModeStore parsed =>
    obtain ⟨hf', hiff⟩ := flags_of_seen (l := ⟨.fodModeStore parsed, ι⟩)
      (G := fun m' s' => ¬ m' ↔ HbmGuarded s') (wp_void (fodModeStore_stuck hf hg parsed))
    exact ⟨hf', by simpa [LeavesHbm] using hiff⟩
  | fodWatchdog =>
    obtain ⟨hf', hiff⟩ := flags_of_seen (l := ⟨.fodWatchdog, ι⟩)
      (G := fun m' s' => ¬ m' ↔ HbmGuarded s') (fodWatchdog_stuck hf hg)
    exact ⟨hf', by simpa [LeavesHbm] using hiff⟩

theorem sound_probed : Sound .probed := flags_dark (p := false) rfl

/-- **High-brightness mode is guarded precisely as far as it is left.** In a run of the DRM callbacks,
the fingerprint controls, the backlight and the watchdog, in any order and with any packets refused:
in every state, a panel that is on and in high-brightness mode has a watchdog pending, if and only if
no step of the run gets stuck leaving the mode while the panel is on, and none switches a panel on
that is in the mode. -/
theorem hbm_guarded_iff {steps : List Step} :
    (∀ pre, pre <+: steps → HbmGuarded (runFrom step pre .probed)) ↔
      Meets step LeavesHbm steps .probed := by
  have hstep : ∀ l s, True → Sound s → (LeavesHbm l s ↔ Sound (step l s)) := by
    intro l s _ hs
    obtain ⟨hf, hiff⟩ := step_sound (l := l) hs
    rw [hiff]
    exact (and_iff_right hf).symm
  rw [← meets_iff_prefix hstep (meets_true steps .probed) sound_probed]
  constructor
  · intro hg pre hpre
    refine ⟨?_, hg pre hpre⟩
    exact inv_of_prefix (J := HbmGuarded) (K := Flags)
      (fun l s hg hf => (step_sound ⟨hf, hg⟩).1) sound_probed.1 hg pre hpre
  · exact fun hs pre hpre => (hs pre hpre).2

/-- The brightness write that follows the dimming one is refused, and so is the key of the sequence
that should restore the panel. -/
def refusedEntry : Step := ⟨.fodModeStore (.ok true), fun n => match n with
  | 4 | 6 => { fault := some .eio }
  | _ => {}⟩

/-- `fod_mode` is set, and the panel refuses two packets: it stays in high-brightness mode, and nothing
will end it. -/
theorem hbm_left_unguarded :
    ¬ ∀ pre, pre <+: [⟨.prepare, fun _ => {}⟩, ⟨.enable, fun _ => {}⟩, refusedEntry] →
      HbmGuarded (runFrom step pre .probed) := by
  intro h
  have hlast := h _ (List.prefix_refl _)
  exact absurd (hlast rfl rfl rfl) (by decide)

end Gts9Wifi.Panel
