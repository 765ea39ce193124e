import Gts9Wifi.Panel.Ana38407
import Gts9Wifi.Lib.Runs

/-!
# Fingerprint mode and brightness agree

As long as the panel accepts every packet, the driver's flags say what the panel shows: in
fingerprint mode the high-brightness setting, with the watchdog running, and otherwise, while the
panel is prepared, the brightness the desktop last asked for. Supplies may fail to come up, and the
callbacks may come in any order.
-/

namespace Gts9Wifi.Panel

open Driver

/-! ## Rules for the operations -/

section Rules

variable {A : Event panel → Prop} {M : Monitor panel} {m : M.St} {s : State}

theorem wp_load_seq [M.Ignores Op.load] {β : Type} {f : Ctx → Code β} {Q : β → M.St → State → Prop}
    (h : wp A M (f s.ctx) Q m s) : wp A M (load >>= f) Q m s :=
  (wp_bind _ _ _ _ _).2 (wp_perform_of_ignores fun _ _ => h)

theorem wp_store {f : Ctx → Ctx} [M.Ignores (Op.store f)] {Q : Unit → M.St → State → Prop}
    (h : Q () m (s.setCtx f)) : wp A M (store f) Q m s :=
  wp_perform_of_ignores fun _ _ => h

theorem wp_store_seq {f : Ctx → Ctx} [M.Ignores (Op.store f)] {β : Type} {g : Unit → Code β}
    {Q : β → M.St → State → Prop} (h : wp A M (g ()) Q m (s.setCtx f)) :
    wp A M (store f >>= g) Q m s :=
  (wp_bind _ _ _ _ _).2 (wp_store h)

theorem wp_dcsRead {cmd : BitVec 8} {len : Nat} [M.Ignores (Op.dcsRead cmd len)]
    {Q : Except Errno (List (BitVec 8)) → M.St → State → Prop} (h : ∀ r, Q r m s) :
    wp A M (dcsRead cmd len) Q m s :=
  wp_perform_of_ignores fun i _ => h (i.answer (i.data.take len))

theorem wp_regulatorEnable {l : List Supply} [M.Ignores (Op.regulatorEnable l)]
    {Q : Ret → M.St → State → Prop} (herr : ∀ e, Q (.error e) m s)
    (hok : Q (.ok ()) m (s.addUse l 1)) : wp A M (regulatorEnable l) Q m s := by
  refine wp_perform_of_ignores fun i _ => ?_
  cases hf : i.fault with
  | some e => simpa only [handle, hf] using herr e
  | none => simpa only [handle, hf] using hok

theorem wp_regulatorDisable {l : List Supply} [M.Ignores (Op.regulatorDisable l)]
    {Q : Unit → M.St → State → Prop} (h : Q () m (s.addUse l (-1))) :
    wp A M (regulatorDisable l) Q m s :=
  wp_perform_of_ignores fun _ _ => h

theorem wp_setReset {v : Bool} [M.Ignores (Op.setReset v)] {Q : Unit → M.St → State → Prop}
    (h : Q () m { s with reset := v }) : wp A M (setReset v) Q m s :=
  wp_perform_of_ignores fun _ _ => h

theorem updateFodWatchdogLocked_spec [∀ f, M.Ignores (Op.store f)] [M.Ignores Op.load]
    {Q : Unit → M.St → State → Prop}
    (h : Q () m (s.setCtx (Ctx.setWatchdog
      (if s.ctx.fodMode || s.ctx.fodCircle then some fodWatchdogMs else none)))) :
    wp A M updateFodWatchdogLocked Q m s := by
  unfold updateFodWatchdogLocked
  apply wp_load_seq
  split
  · next hon => exact wp_store (by rwa [if_pos hon] at h)
  · next hoff => exact wp_store (by rwa [if_neg hoff] at h)

/-- The supplies touch neither the driver's structure nor the panel. -/
theorem powerOn_spec [∀ l, M.Ignores (Op.regulatorEnable l)] [∀ l, M.Ignores (Op.regulatorDisable l)]
    {Q : Ret → M.St → State → Prop}
    (h : ∀ r s', s'.ctx = s.ctx → s'.regs = s.regs → Q r m s') : wp A M powerOn Q m s := by
  unfold powerOn
  rw [wp_bind]
  refine wp_regulatorEnable (fun e => h _ _ rfl rfl) ?_
  dsimp only
  rw [wp_bind]
  refine wp_regulatorEnable (fun e => ?_) (h _ _ rfl rfl)
  dsimp only
  rw [wp_bind]
  exact wp_regulatorDisable (h _ _ rfl rfl)

theorem readId_spec {cmd : BitVec 8} [M.Ignores (Op.dcsRead cmd 1)]
    {Q : BitVec 8 → M.St → State → Prop} (h : ∀ b, Q b m s) : wp A M (readId cmd) Q m s := by
  unfold readId
  rw [wp_bind]
  refine wp_dcsRead fun r => ?_
  split <;> exact h _

end Rules

/-! ## What packets do to the panel -/

/-- The panel after the packets `l`. -/
def sent (l : List Packet) (s : State) : State := l.foldl State.accept s

@[simp] theorem accept_ctx (s : State) (p : Packet) : (s.accept p).ctx = s.ctx := by
  unfold State.accept
  split <;> rfl

@[simp] theorem sent_ctx (l : List Packet) (s : State) : (sent l s).ctx = s.ctx := by
  induction l generalizing s with
  | nil => rfl
  | cons p l ih => exact (ih _).trans (accept_ctx s p)

/-- The dimming control and the brightness the panel holds. -/
def Shows (dim bright : List (BitVec 8)) (s : State) : Prop :=
  s.regs dimming = dim ∧ s.regs brightness = bright

theorem shows_enterFod (s : State) :
    Shows hbmDimming (brightnessParams fodBrightness) (sent enterFod s) := ⟨rfl, rfl⟩

theorem shows_leaveFod (u : BitVec 16) (s : State) :
    Shows normalDimming (brightnessParams u) (sent (leaveFod u) s) := ⟨rfl, rfl⟩

theorem shows_powerOnSetting (u : BitVec 16) (s : State) :
    Shows normalDimming (brightnessParams u) (sent (powerOnSetting u) s) := ⟨rfl, rfl⟩

/-- The panel shows the brightness the driver remembers. -/
def Normal (s : State) : Prop := Shows normalDimming (brightnessParams s.ctx.userBrightness) s

/-- The panel shows the fingerprint setting. -/
def Hbm (s : State) : Prop := Shows hbmDimming (brightnessParams fodBrightness) s

/-! ## The invariant -/

/-- What the flags say about each other, the watchdog and the panel. -/
structure Consistent (s : State) : Prop where
  circle : s.ctx.fodCircle = true → s.ctx.fodMode = true
  mode : s.ctx.fodMode = true →
    s.ctx.prepared = true ∧ s.ctx.enabled = true ∧ s.ctx.fodWatchdog.isSome = true
  hbm : s.ctx.prepared = true → s.ctx.fodMode = true → Hbm s
  normal : s.ctx.prepared = true → s.ctx.fodMode = false → Normal s

/-- The packet, if there is one, is accepted. -/
def DsiWorks (e : Event panel) : Prop :=
  match e.op with
  | .transfer _ => e.input.fault = none
  | _ => True

section Accepted

variable {s : State}

theorem wp_transfer {p : Packet} {Q : Ret → Unit → State → Prop} (h : Q (.ok ()) () (s.accept p)) :
    wp DsiWorks (Monitor.idle panel) (transfer p) Q () s := by
  refine wp_perform_of_ignores fun i hi => ?_
  have hf : i.fault = none := hi
  simpa only [handle, hf] using h

theorem wp_multi {l : List Packet} {Q : Ret → Unit → State → Prop} (h : Q (.ok ()) () (sent l s)) :
    wp DsiWorks (Monitor.idle panel) (multi (.ok ()) l) Q () s := by
  induction l generalizing s with
  | nil => exact h
  | cons p l ih =>
    unfold multi
    rw [wp_bind]
    exact wp_transfer (ih h)

theorem writeFodLocked_spec (b : Bool) :
    wp DsiWorks (Monitor.idle panel) (writeFodLocked b) (fun r _ s' =>
      r = .ok () ∧ s' = sent (if b then enterFod else leaveFod s.ctx.userBrightness) s) () s := by
  unfold writeFodLocked
  exact wp_load_seq (wp_multi ⟨rfl, rfl⟩)

/-- The circle is drawn by packets that touch neither the dimming nor the brightness. -/
theorem writeFodCircleLocked_spec (b : Bool) :
    wp DsiWorks (Monitor.idle panel) (writeFodCircleLocked b) (fun r _ s' =>
      r = .ok () ∧ s'.ctx = s.ctx ∧ s'.regs dimming = s.regs dimming ∧
        s'.regs brightness = s.regs brightness) () s := by
  unfold writeFodCircleLocked
  rw [wp_bind]
  refine wp_multi ?_
  rw [wp_bind]
  refine wp_transfer ?_
  exact ⟨rfl, by simp, rfl, rfl⟩

theorem leaveCircle_spec :
    wp DsiWorks (Monitor.idle panel) leaveCircle (fun r _ s' =>
      r = .ok () ∧ s'.ctx = { s.ctx with fodCircle := false } ∧ s'.regs dimming = s.regs dimming ∧
        s'.regs brightness = s.regs brightness) () s := by
  unfold leaveCircle
  apply wp_load_seq
  refine wp_ite (fun _ => ?_) fun hoff => ?_
  · apply wp_seq (writeFodCircleLocked_spec false)
    intro r _ s₁ h₁
    obtain ⟨rfl, hctx, hdim, hbright⟩ := h₁
    refine wp_store_seq ⟨rfl, ?_, hdim, hbright⟩
    simp [State.setCtx, Ctx.setFodCircle, hctx]
  · have hfalse : s.ctx.fodCircle = false := by simpa using hoff
    refine ⟨rfl, ?_, rfl, rfl⟩
    rw [← hfalse]

theorem leaveMode_spec :
    wp DsiWorks (Monitor.idle panel) leaveMode (fun r _ s' =>
      r = .ok () ∧ s'.ctx = { s.ctx with fodMode := false } ∧
        (s.ctx.fodMode = true → Normal s') ∧
        (s.ctx.fodMode = false → s'.regs = s.regs)) () s := by
  unfold leaveMode
  apply wp_load_seq
  refine wp_ite (fun hon => ?_) fun hoff => ?_
  · apply wp_seq (writeFodLocked_spec false)
    intro r _ s₁ h₁
    obtain ⟨rfl, rfl⟩ := h₁
    refine wp_store_seq ⟨rfl, ?_, fun _ => ⟨rfl, ?_⟩, fun hoff => ?_⟩
    · simp [State.setCtx, Ctx.setFodMode]
    · simpa [Ctx.setFodMode, State.setCtx] using (shows_leaveFod s.ctx.userBrightness s).2
    · exact absurd (hon.symm.trans hoff) (by decide)
  · have hfalse : s.ctx.fodMode = false := by simpa using hoff
    refine ⟨rfl, ?_, fun hon => absurd hon hoff, fun _ => rfl⟩
    rw [← hfalse]

/-- Leaving fingerprint mode, from a panel that shows the normal brightness unless it is on. -/
theorem fodCleanupLocked_spec
    (hs : s.ctx.prepared = true → s.ctx.fodMode = false → Normal s) :
    wp DsiWorks (Monitor.idle panel) fodCleanupLocked (fun r _ s' =>
      r = .ok () ∧ s'.ctx = { s.ctx with fodCircle := false, fodMode := false } ∧
        (s.ctx.prepared = true → Normal s')) () s := by
  unfold fodCleanupLocked
  apply wp_seq leaveCircle_spec
  intro r _ s₁ h₁
  obtain ⟨rfl, hctx₁, hdim, hbright⟩ := h₁
  apply wp_seq leaveMode_spec
  intro r _ s₂ h₂
  obtain ⟨rfl, hctx₂, hleft, hkept⟩ := h₂
  have hmode : s₁.ctx.fodMode = s.ctx.fodMode := by rw [hctx₁]
  refine ⟨rfl, by rw [hctx₂, hctx₁], fun hp => ?_⟩
  cases hon : s.ctx.fodMode with
  | true => exact hleft (hmode.trans hon)
  | false =>
    obtain ⟨hd, hb⟩ := hs hp hon
    have hregs := hkept (hmode.trans hon)
    refine ⟨?_, ?_⟩
    · rw [hregs, hdim, hd]
    · rw [hregs, hbright, hb, hctx₂, hctx₁]

theorem consistent_off (hm : s.ctx.fodMode = false) (hc : s.ctx.fodCircle = false)
    (hn : s.ctx.prepared = true → Normal s) : Consistent s where
  circle h := absurd (hc.symm.trans h) (by decide)
  mode h := absurd (hm.symm.trans h) (by decide)
  hbm _ h := absurd (hm.symm.trans h) (by decide)
  normal hp _ := hn hp

/-- Prepared, enabled and in fingerprint mode, with the watchdog running. -/
theorem consistent_on (hp : s.ctx.prepared = true) (he : s.ctx.enabled = true)
    (hw : s.ctx.fodWatchdog.isSome = true) (hm : s.ctx.fodMode = true) (hh : Hbm s) :
    Consistent s where
  circle _ := hm
  mode _ := ⟨hp, he, hw⟩
  hbm _ _ := hh
  normal _ h := absurd (hm.symm.trans h) (by decide)

/-- Fingerprint mode is off unless the panel is prepared and enabled. -/
theorem Consistent.mode_off (hs : Consistent s)
    (h : ¬ (s.ctx.prepared = true ∧ s.ctx.enabled = true)) : s.ctx.fodMode = false := by
  cases hon : s.ctx.fodMode with
  | false => rfl
  | true => exact absurd ⟨(hs.mode hon).1, (hs.mode hon).2.1⟩ h

theorem Consistent.circle_off (hs : Consistent s) (hm : s.ctx.fodMode = false) :
    s.ctx.fodCircle = false := by
  cases hon : s.ctx.fodCircle with
  | false => rfl
  | true => exact absurd ((hs.circle hon).symm.trans hm) (by decide)

/-- The flags that the watchdog's update leaves alone. -/
theorem Consistent.rearm (hs : Consistent s) :
    Consistent (s.setCtx (Ctx.setWatchdog
      (if s.ctx.fodMode || s.ctx.fodCircle then some fodWatchdogMs else none))) where
  circle := hs.circle
  mode h := by
    have hm : s.ctx.fodMode = true := h
    obtain ⟨hp, he, -⟩ := hs.mode hm
    exact ⟨hp, he, by simp [State.setCtx, Ctx.setWatchdog, hm]⟩
  hbm := hs.hbm
  normal := hs.normal

/-- The watchdog does not matter outside fingerprint mode. -/
theorem Consistent.setWatchdog (hs : Consistent s) (hm : s.ctx.fodMode = false) (d : Option Nat) :
    Consistent (s.setCtx (Ctx.setWatchdog d)) where
  circle := hs.circle
  mode h := absurd (hm.symm.trans h) (by decide)
  hbm := hs.hbm
  normal := hs.normal

theorem on_spec :
    wp DsiWorks (Monitor.idle panel) on (fun r _ s' =>
      r = .ok () ∧ (∃ id cellId, s'.ctx = { s.ctx with id := id, cellId := cellId }) ∧
        Normal s') () s := by
  unfold on
  rw [wp_bind]
  refine wp_multi ?_
  rw [wp_bind]
  refine readId_spec fun id0 => ?_
  rw [wp_bind]
  refine readId_spec fun id1 => ?_
  rw [wp_bind]
  refine readId_spec fun id2 => ?_
  refine wp_store_seq ?_
  rw [wp_bind]
  refine wp_multi ?_
  rw [wp_bind]
  refine wp_dcsRead fun info => ?_
  rw [wp_bind]
  refine wp_multi (wp_store_seq (wp_load_seq (wp_multi ?_)))
  refine ⟨rfl, ⟨[id0, id1, id2], cellIdOf info, ?_⟩, ?_⟩
  · simp [State.setCtx]
  · unfold Normal
    rw [sent_ctx]
    exact shows_powerOnSetting _ _

/-! ## The calls -/

/-- The brightness that was last asked for, after a call. -/
def Call.requested : Call → BitVec 16 → BitVec 16
  | .blUpdate value, _ => clampBrightness value
  | _, u => u

/-- The flags agree with the panel, and the driver remembers `u`. -/
def Remembers (u : BitVec 16) (s : State) : Prop := Consistent s ∧ s.ctx.userBrightness = u

theorem prepare_spec (hs : Consistent s) :
    wp DsiWorks (Monitor.idle panel) prepare
      (fun _ _ s' => Remembers s.ctx.userBrightness s') () s := by
  unfold prepare
  apply wp_load_seq
  refine wp_ite (fun _ => ⟨hs, rfl⟩) fun hoff => ?_
  have hp : s.ctx.prepared = false := by simpa using hoff
  -- an unprepared panel is not in fingerprint mode
  have hm : s.ctx.fodMode = false := hs.mode_off (by simp [hp])
  have hc : s.ctx.fodCircle = false := hs.circle_off hm
  rw [wp_bind]
  refine powerOn_spec fun r s₁ hctx hregs => ?_
  cases r with
  | error e =>
    refine ⟨consistent_off (by rw [hctx, hm]) (by rw [hctx, hc]) fun h => ?_, by rw [hctx]⟩
    rw [hctx, hp] at h
    exact absurd h (by decide)
  | ok _ =>
    unfold resetPanel
    simp only [bind_assoc]
    rw [wp_bind]
    refine wp_setReset ?_
    rw [wp_bind]
    refine wp_setReset ?_
    rw [wp_bind]
    refine wp_setReset ?_
    refine wp_seq on_spec ?_
    intro r _ s₂ h₂
    obtain ⟨rfl, ⟨id, cellId, hctx₂⟩, hn⟩ := h₂
    simp only [hctx] at hctx₂
    refine wp_store_seq ⟨consistent_off ?_ ?_ fun _ => hn, ?_⟩
    · simp [State.setCtx, Ctx.setPrepared, hctx₂, hm]
    · simp [State.setCtx, Ctx.setPrepared, hctx₂, hc]
    · simp [State.setCtx, Ctx.setPrepared, hctx₂]

theorem enable_spec (hs : Consistent s) :
    wp DsiWorks (Monitor.idle panel) enable
      (fun _ _ s' => Remembers s.ctx.userBrightness s') () s := by
  unfold enable
  apply wp_load_seq
  refine wp_ite (fun _ => ⟨hs, rfl⟩) fun hprep => ?_
  refine wp_ite (fun _ => ⟨hs, rfl⟩) fun hoff => ?_
  rw [wp_bind]
  refine wp_multi (wp_store_seq ?_)
  have hm : s.ctx.fodMode = false := hs.mode_off fun h => hoff h.2
  refine ⟨⟨?_, ?_, ?_, ?_⟩, by simp [State.setCtx, Ctx.setEnabled]⟩
  · simpa [State.setCtx, Ctx.setEnabled] using hs.circle
  · simp [State.setCtx, Ctx.setEnabled, hm]
  · simp [State.setCtx, Ctx.setEnabled, hm]
  · intro hp hm'
    have hn := hs.normal (by simpa [State.setCtx, Ctx.setEnabled] using hp) hm
    unfold Normal
    simp only [State.setCtx, Ctx.setEnabled, sent_ctx]
    exact hn

theorem disable_spec (hs : Consistent s) :
    wp DsiWorks (Monitor.idle panel) disable
      (fun _ _ s' => Remembers s.ctx.userBrightness s') () s := by
  unfold disable disableLocked cancelWatchdog
  rw [wp_bind]
  apply wp_load_seq
  refine wp_ite (fun hoff => wp_store_seq ?_) fun _ => ?_
  · have hm : s.ctx.fodMode = false := hs.mode_off fun h => hoff h.2
    exact ⟨hs.setWatchdog hm none, rfl⟩
  · apply wp_seq (fodCleanupLocked_spec hs.normal)
    intro r _ s₁ h₁
    obtain ⟨rfl, hctx, hn⟩ := h₁
    rw [wp_bind]
    refine wp_multi (wp_store_seq (wp_store_seq ⟨consistent_off ?_ ?_ fun hp => ?_, ?_⟩))
    · simp [State.setCtx, Ctx.setEnabled, Ctx.setWatchdog, hctx]
    · simp [State.setCtx, Ctx.setEnabled, Ctx.setWatchdog, hctx]
    · unfold Normal
      simp only [State.setCtx, Ctx.setEnabled, Ctx.setWatchdog, sent_ctx]
      exact hn (by simpa [State.setCtx, Ctx.setEnabled, Ctx.setWatchdog, hctx] using hp)
    · simp [State.setCtx, Ctx.setEnabled, Ctx.setWatchdog, hctx]

theorem unprepare_spec (hs : Consistent s) :
    wp DsiWorks (Monitor.idle panel) unprepare
      (fun _ _ s' => Remembers s.ctx.userBrightness s') () s := by
  unfold unprepare unprepareLocked cancelWatchdog sleepIn
  rw [wp_bind]
  apply wp_load_seq
  refine wp_ite (fun hoff => wp_store_seq ?_) fun _ => ?_
  · have hm : s.ctx.fodMode = false := hs.mode_off fun h => hoff h.1
    exact ⟨hs.setWatchdog hm none, rfl⟩
  · apply wp_seq (fodCleanupLocked_spec hs.normal)
    intro r _ s₁ h₁
    obtain ⟨rfl, hctx, -⟩ := h₁
    rw [wp_bind]
    refine wp_multi (wp_store_seq (wp_store_seq ?_))
    rw [wp_bind]
    refine wp_setReset ?_
    rw [wp_bind]
    refine wp_regulatorDisable (wp_store_seq ⟨consistent_off ?_ ?_ fun hp => ?_, ?_⟩)
    · simp [State.setCtx, State.addUse, Ctx.setEnabled, Ctx.setPrepared, Ctx.setWatchdog, hctx]
    · simp [State.setCtx, State.addUse, Ctx.setEnabled, Ctx.setPrepared, Ctx.setWatchdog, hctx]
    · simp [State.setCtx, State.addUse, Ctx.setEnabled, Ctx.setPrepared, Ctx.setWatchdog] at hp
    · simp [State.setCtx, State.addUse, Ctx.setEnabled, Ctx.setPrepared, Ctx.setWatchdog, hctx]

theorem blUpdate_spec (hs : Consistent s) (value : Nat) :
    wp DsiWorks (Monitor.idle panel) (blUpdate value)
      (fun _ _ s' => Remembers (clampBrightness value) s') () s := by
  unfold blUpdate writeBrightnessLocked
  refine wp_store_seq (wp_load_seq (wp_ite (fun hsend => ?_) fun hkeep => ?_))
  · obtain ⟨hp, hm⟩ : s.ctx.prepared = true ∧ s.ctx.fodMode = false := by
      simpa [State.setCtx] using hsend
    refine wp_transfer ⟨consistent_off ?_ ?_ fun _ => ⟨(hs.normal hp hm).1, rfl⟩, rfl⟩
    · exact hm
    · exact hs.circle_off hm
  · -- in fingerprint mode, or unprepared, the value is only remembered
    refine ⟨⟨hs.circle, hs.mode, hs.hbm, fun hp hm => ?_⟩, rfl⟩
    exact absurd (by simpa [State.setCtx] using ⟨hp, hm⟩) hkeep

theorem fodModeStore_spec (hs : Consistent s) (parsed : Except Errno Bool) :
    wp DsiWorks (Monitor.idle panel) (fodModeStore parsed)
      (fun _ _ s' => Remembers s.ctx.userBrightness s') () s := by
  unfold fodModeStore
  cases parsed with
  | error e => exact ⟨hs, rfl⟩
  | ok enable =>
    dsimp only
    apply wp_load_seq
    refine wp_ite (fun _ => ⟨hs, rfl⟩) fun hready => ?_
    obtain ⟨hp, he⟩ : s.ctx.prepared = true ∧ s.ctx.enabled = true := by simpa using hready
    refine wp_ite (fun _ => ?_) fun hne => ?_
    · rw [wp_bind]
      exact updateFodWatchdogLocked_spec ⟨hs.rearm, rfl⟩
    cases enable with
    | true =>
      rw [if_pos rfl]
      apply wp_seq (writeFodLocked_spec true)
      intro r _ s₁ h₁
      obtain ⟨rfl, rfl⟩ := h₁
      refine wp_store_seq ?_
      rw [wp_bind]
      refine updateFodWatchdogLocked_spec ⟨consistent_on ?_ ?_ ?_ ?_ ?_, ?_⟩
      · simpa [State.setCtx, Ctx.setFodMode, Ctx.setWatchdog] using hp
      · simpa [State.setCtx, Ctx.setFodMode, Ctx.setWatchdog] using he
      · simp [State.setCtx, Ctx.setFodMode, Ctx.setWatchdog]
      · simp [State.setCtx, Ctx.setFodMode, Ctx.setWatchdog]
      · exact shows_enterFod s
      · simp [State.setCtx, Ctx.setFodMode, Ctx.setWatchdog]
    | false =>
      rw [if_neg (by decide)]
      apply wp_seq (fodCleanupLocked_spec hs.normal)
      intro r _ s₁ h₁
      obtain ⟨rfl, hctx, hn⟩ := h₁
      rw [wp_bind]
      have hoff : Consistent s₁ := consistent_off (by rw [hctx]) (by rw [hctx]) fun _ => hn hp
      exact updateFodWatchdogLocked_spec ⟨hoff.rearm, by simp [State.setCtx, Ctx.setWatchdog, hctx]⟩

/-- Packets that touch neither dimming nor brightness keep what the flags say. -/
theorem Consistent.frame (hs : Consistent s) {s' : State} (hctx : s'.ctx = s.ctx)
    (hdim : s'.regs dimming = s.regs dimming) (hbright : s'.regs brightness = s.regs brightness) :
    Consistent s' := by
  refine ⟨?_, ?_, ?_, ?_⟩
  · rw [hctx]
    exact hs.circle
  · rw [hctx]
    exact hs.mode
  · unfold Hbm Shows
    rw [hctx, hdim, hbright]
    exact hs.hbm
  · unfold Normal Shows
    rw [hctx, hdim, hbright]
    exact hs.normal

/-- The circle is set while fingerprint mode is on, or cleared. -/
theorem Consistent.setFodCircle (hs : Consistent s) {b : Bool} (hb : b = true → s.ctx.fodMode = true) :
    Consistent (s.setCtx (Ctx.setFodCircle b)) :=
  ⟨hb, hs.mode, hs.hbm, hs.normal⟩

theorem fodCircleStore_spec (hs : Consistent s) (parsed : Except Errno Bool) :
    wp DsiWorks (Monitor.idle panel) (fodCircleStore parsed)
      (fun _ _ s' => Remembers s.ctx.userBrightness s') () s := by
  unfold fodCircleStore
  cases parsed with
  | error e => exact ⟨hs, rfl⟩
  | ok enable =>
    dsimp only
    apply wp_load_seq
    refine wp_ite (fun _ => ⟨hs, rfl⟩) fun _ => ?_
    refine wp_ite (fun _ => ⟨hs, rfl⟩) fun hallowed => ?_
    refine wp_ite (fun _ => ?_) fun hne => ?_
    · rw [wp_bind]
      exact updateFodWatchdogLocked_spec ⟨hs.rearm, rfl⟩
    apply wp_seq (writeFodCircleLocked_spec enable)
    intro r _ s₁ h₁
    obtain ⟨rfl, hctx, hdim, hbright⟩ := h₁
    have hs₁ := hs.frame hctx hdim hbright
    have henable : enable = true → s₁.ctx.fodMode = true := by
      intro h
      rw [hctx]
      simpa [h] using hallowed
    refine wp_store_seq ?_
    rw [wp_bind]
    refine updateFodWatchdogLocked_spec ⟨(hs₁.setFodCircle henable).rearm, ?_⟩
    simp [State.setCtx, Ctx.setFodCircle, Ctx.setWatchdog, hctx]

theorem fodWatchdog_spec (hs : Consistent s) :
    wp DsiWorks (Monitor.idle panel) Call.fodWatchdog.code
      (fun _ _ s' => Remembers s.ctx.userBrightness s') () s := by
  unfold Call.code cancelWatchdog fodWatchdogWork
  apply wp_load_seq
  refine wp_ite (fun _ => ?_) fun _ => ⟨hs, rfl⟩
  refine wp_store_seq (wp_load_seq (wp_ite (fun _ => ?_) fun hoff => ?_))
  · refine wp_seq (fodCleanupLocked_spec hs.normal) ?_
    intro r _ s₁ h₁
    obtain ⟨rfl, hctx, hn⟩ := h₁
    refine ⟨consistent_off (by rw [hctx]) (by rw [hctx]) fun hp => hn ?_, by rw [hctx]; rfl⟩
    rw [hctx] at hp
    exact hp
  · have hm : s.ctx.fodMode = false :=
      hs.mode_off (by simpa [State.setCtx, Ctx.setWatchdog] using hoff)
    refine wp_store_seq (wp_store ⟨consistent_off rfl rfl fun hp => ?_, rfl⟩)
    exact hs.normal hp hm

/-- Every call keeps what the flags say about the panel, and the driver remembers the brightness that
was last asked for. -/
theorem code_spec (c : Call) (hs : Consistent s) :
    wp DsiWorks (Monitor.idle panel) c.code
      (fun _ _ s' => Remembers (c.requested s.ctx.userBrightness) s') () s := by
  cases c with
  | prepare => exact wp_void (prepare_spec hs)
  | enable => exact wp_void (enable_spec hs)
  | disable => exact wp_void (disable_spec hs)
  | unprepare => exact wp_void (unprepare_spec hs)
  | fodModeStore parsed => exact wp_void (fodModeStore_spec hs parsed)
  | fodCircleStore parsed => exact wp_void (fodCircleStore_spec hs parsed)
  | blUpdate value => exact wp_void (blUpdate_spec hs value)
  | fodWatchdog => exact fodWatchdog_spec hs

end Accepted

/-! ## Runs -/

/-- The brightness that was last asked for in a run, `ANA38407_MAX_BRIGHTNESS` before the first
request. -/
def lastRequested (steps : List Step) : BitVec 16 :=
  steps.foldl (fun u l => l.call.requested u) maxBrightness

/-- The value handed over by the backlight core, which refuses values above the maximum. -/
theorem clampBrightness_toNat {value : Nat} (h : value < 2 ^ 16) :
    (clampBrightness value).toNat = min value 2047 := by
  have hv : (BitVec.ofNat 16 value).toNat = value := by
    rw [BitVec.toNat_ofNat]
    exact Nat.mod_eq_of_lt h
  have hmax : maxBrightness.toNat = 2047 := rfl
  unfold clampBrightness
  split
  · next hlt =>
    rw [BitVec.lt_def, hv, hmax] at hlt
    rw [hv]
    omega
  · next hge =>
    rw [BitVec.lt_def, hv, hmax] at hge
    rw [hmax]
    omega

theorem step_remembers {l : Step} {s : State} (hdsi : ∀ e ∈ l.trace s, DsiWorks e)
    (hs : Consistent s) : Remembers (l.call.requested s.ctx.userBrightness) (step l s) :=
  (wp_sound (code_spec l.call hs) l.inputs hdsi).2

theorem run_remembers {steps : List Step} {s : State}
    (hdsi : Meets step (fun l s => ∀ e ∈ l.trace s, DsiWorks e) steps s) (hs : Consistent s) :
    Remembers (steps.foldl (fun u l => l.call.requested u) s.ctx.userBrightness)
      (runFrom step steps s) := by
  induction steps generalizing s with
  | nil => exact ⟨hs, rfl⟩
  | cons l steps ih =>
    obtain ⟨hl, hsteps⟩ := hdsi
    obtain ⟨hs', hu⟩ := step_remembers hl hs
    have h := ih hsteps hs'
    rw [hu] at h
    exact h

/-- **Fingerprint mode and brightness agree.** In every state reached by the DRM callbacks, the
fingerprint controls, the backlight and the watchdog, in any order, with every DSI packet accepted:
the circle is only on in fingerprint mode, fingerprint mode is only on while the panel is prepared and
enabled and the watchdog is running, and a prepared panel shows the fingerprint setting in fingerprint
mode and else the brightness last asked for. -/
theorem fod_agrees {steps : List Step}
    (hdsi : Meets step (fun l s => ∀ e ∈ l.trace s, DsiWorks e) steps .probed) :
    Remembers (lastRequested steps) (runFrom step steps .probed) :=
  run_remembers hdsi (consistent_off rfl rfl fun h => (nomatch h))

/-- Inputs without a fault. -/
theorem dsiWorks_of_inputs {steps : List Step} (h : ∀ l ∈ steps, ∀ n, (l.inputs n).fault = none)
    (s : State) : Meets step (fun l s => ∀ e ∈ l.trace s, DsiWorks e) steps s := by
  induction steps generalizing s with
  | nil => trivial
  | cons l steps ih =>
    refine ⟨fun e he => ?_, ih (fun l' hl' => h l' (List.mem_cons_of_mem _ hl')) _⟩
    obtain ⟨n, hn⟩ := Prog.exists_input_of_mem_trace he
    have hfault : e.input.fault = none := by
      rw [hn]
      exact h l List.mem_cons_self n
    unfold DsiWorks
    split
    · exact hfault
    · trivial

/-- A fingerprint is read with the circle on, the desktop asks for 100 in between, and the watchdog
ends it. -/
def sampleRun : List Step :=
  [⟨.prepare, fun _ => {}⟩, ⟨.enable, fun _ => {}⟩, ⟨.blUpdate 500, fun _ => {}⟩,
    ⟨.fodModeStore (.ok true), fun _ => {}⟩, ⟨.fodCircleStore (.ok true), fun _ => {}⟩,
    ⟨.blUpdate 100, fun _ => {}⟩, ⟨.fodWatchdog, fun _ => {}⟩]

theorem fod_agrees_sampleRun :
    lastRequested sampleRun = 100 ∧ Remembers 100 (runFrom step sampleRun .probed) := by
  refine ⟨rfl, fod_agrees (dsiWorks_of_inputs (fun l hl n => ?_) _)⟩
  simp only [sampleRun, List.mem_cons, List.not_mem_nil, or_false] at hl
  rcases hl with rfl | rfl | rfl | rfl | rfl | rfl | rfl <;> rfl

end Gts9Wifi.Panel
