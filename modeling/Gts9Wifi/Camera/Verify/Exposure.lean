import Gts9Wifi.Camera.Verify.Power

/-!
# The exposure and the frame

A new `VBLANK` moves the range of the exposure before its own register is written, and nothing is
undone if a write is lost. As long as none of the writes made for a `VBLANK` is lost, the exposure
register fits the frame-length register and the range is the one for the current `VBLANK`; the first
one that is lost breaks one or the other. Writes lost for an exposure do no harm.
-/

namespace Gts9Wifi.Camera

open Driver

/-! ## Vocabulary -/

/-- The exposure is shorter than the frame by the margin. -/
def ExposureFits (s : State) : Prop := s.regs regExposure ≤ s.regs regFrameLength - exposureMargin

/-- The exposure's range is the one for the current `VBLANK`. -/
def RangeFollows (s : State) : Prop := (s.sensor.control .exposure).maximum =
  s.sensor.variant.height + (s.sensor.control .vblank).cur - exposureMargin

/-- Setting a control of a sensor that streams, the exposure fits all the time; while the sensor
streams it fits between calls; and the range follows. -/
structure Keeps (tables : Tables) (l : Step) (s : State) : Prop where
  during : (∃ c v, l.call = .userSet c v) → s.sensor.streaming = true →
    ∀ e ∈ l.trace tables s, ExposureFits e.pre
  after : (step tables l s).sensor.streaming = true → ExposureFits (step tables l s)
  range : RangeFollows (step tables l s)

/-- A register write that does not get through. -/
def Lost (e : Event camera) : Prop :=
  match e.op with
  | .i2cMasterSend _ _ => e.input.lost = true
  | _ => False

/-- No write is lost that is made for a `VBLANK` while the sensor streams. -/
def Delivered (tables : Tables) (l : Step) (s : State) : Prop :=
  (∃ v, l.call = .userSet .vblank v) → s.sensor.streaming = true → ∀ e ∈ l.trace tables s, ¬ Lost e

/-! ## The controls -/

/-- The controls are in step: the exposure's range is the one for `VBLANK`, and both values are in
their ranges. -/
structure InStep (s : State) : Prop where
  vmin : (s.sensor.control .vblank).minimum = vblankOf s.sensor.variant
  vmax : (s.sensor.control .vblank).maximum = frameLengthMax - s.sensor.variant.height
  vblank_ge : vblankOf s.sensor.variant ≤ (s.sensor.control .vblank).cur
  vblank_le : (s.sensor.control .vblank).cur ≤ frameLengthMax - s.sensor.variant.height
  emin : (s.sensor.control .exposure).minimum = exposureMin
  emax : RangeFollows s
  exposure_ge : exposureMin ≤ (s.sensor.control .exposure).cur
  exposure_le : (s.sensor.control .exposure).cur ≤ (s.sensor.control .exposure).maximum
  asked_ge : exposureMin ≤ (s.sensor.control .exposure).val

/-- The registers hold what the controls say. -/
structure Tracks (s : State) : Prop where
  frameLength : s.regs regFrameLength = s.sensor.variant.height + (s.sensor.control .vblank).cur
  exposure : s.regs regExposure = (s.sensor.control .exposure).cur

/-- Both, the second while the sensor streams. -/
def Consistent (s : State) : Prop := InStep s ∧ (s.sensor.streaming = true → Tracks s)

theorem Variant.bounds (v : Variant) :
    vblankOf v = v.frameLength - v.height ∧ (v.height : Int) + 100 ≤ v.frameLength ∧
      v.frameLength ≤ frameLengthMax := by
  cases v <;> decide

theorem InStep.congr {s s' : State} (h : InStep s) (hvar : s'.sensor.variant = s.sensor.variant)
    (hv : s'.sensor.control .vblank = s.sensor.control .vblank)
    (he : s'.sensor.control .exposure = s.sensor.control .exposure) : InStep s' := by
  obtain ⟨h1, h2, h3, h4, h5, h6, h7, h8, h9⟩ := h
  unfold RangeFollows at h6
  rw [← hvar, ← hv, ← he] at *
  exact ⟨h1, h2, h3, h4, h5, h6, h7, h8, h9⟩

theorem Tracks.congr {s s' : State} (h : Tracks s) (hvar : s'.sensor.variant = s.sensor.variant)
    (hv : s'.sensor.control .vblank = s.sensor.control .vblank)
    (he : s'.sensor.control .exposure = s.sensor.control .exposure)
    (hframe : s'.regs regFrameLength = s.regs regFrameLength)
    (hexp : s'.regs regExposure = s.regs regExposure) : Tracks s' := by
  refine ⟨?_, ?_⟩
  · rw [hframe, hvar, hv]
    exact h.frameLength
  · rw [hexp, he]
    exact h.exposure

theorem exposureFits_of_tracks {s : State} (h : InStep s) (ht : Tracks s) : ExposureFits s := by
  have hle := h.exposure_le
  have hmax := h.emax
  unfold RangeFollows at hmax
  unfold ExposureFits
  rw [ht.frameLength, ht.exposure]
  omega

/-- The registers do not fit, or the range does not follow. -/
theorem Consistent.keeps {s : State} (h : Consistent s) :
    (s.sensor.streaming = true → ExposureFits s) ∧ RangeFollows s :=
  ⟨fun hs => exposureFits_of_tracks h.1 (h.2 hs), h.1.emax⟩

/-! ## Rules -/

/-- Accepts an operation that meets an exposure that does not fit never, or, if lost writes are an
excuse, only once a write was lost. -/
abbrev fitMonitor (excuse : Bool) : Monitor camera :=
  Monitor.precedes (fun e => excuse = true ∧ Lost e) fun e => ¬ ExposureFits e.pre

/-- Whatever the environment answers, the code is accepted from `(m, s)` on, and ends with `Q`. -/
def Sets {α : Type} (excuse : Bool) (x : Code α) (m : Prop) (s : State)
    (Q : Except Errno α → Prop → State → Prop) : Prop :=
  wp (fun _ => True) (fitMonitor excuse) x.run Q m s

section Rules

variable {α β : Type} {b : Bool} {m : Prop} {s : State} {x : Code α}

theorem Sets.mono {Q R : Except Errno α → Prop → State → Prop} (h : Sets b x m s Q)
    (hQR : ∀ r m' s', Q r m' s' → R r m' s') : Sets b x m s R :=
  wp_mono h hQR

theorem Sets.seq {f : α → Code β} {P : Except Errno α → Prop → State → Prop}
    {Q : Except Errno β → Prop → State → Prop} (h : Sets b x m s P)
    (herr : ∀ e m' s', P (.error e) m' s' → Q (.error e) m' s')
    (hok : ∀ a m' s', P (.ok a) m' s' → Sets b (f a) m' s' Q) : Sets b (x >>= f) m s Q :=
  wp_run_seq h herr hok

theorem Sets.attempt_seq {f : Except Errno α → Code β} {P : Except Errno α → Prop → State → Prop}
    {Q : Except Errno β → Prop → State → Prop} (h : Sets b x m s P)
    (hf : ∀ r m' s', P r m' s' → Sets b (f r) m' s' Q) : Sets b (attempt x >>= f) m s Q :=
  wp_run_attempt_seq h hf

theorem sets_load_seq {f : Sensor → Code β} {Q : Except Errno β → Prop → State → Prop}
    (hfit : ¬ ExposureFits s → m) (h : Sets b (f s.sensor) m s Q) : Sets b (load >>= f) m s Q := by
  refine (wp_run_bind _ _ _ _ _).2 fun i _ => ⟨hfit, ?_⟩
  have hm : (m ∨ b = true ∧ Lost ⟨.load, i, s⟩) = m := by simp [Lost]
  simp only [hm]
  exact h

theorem sets_setControl_seq {c : Ctrl} {g : Control → Control} {f : Unit → Code β}
    {Q : Except Errno β → Prop → State → Prop} (hfit : ¬ ExposureFits s → m)
    (h : Sets b (f ()) m (s.setSensor fun d => d.setControl c g) Q) :
    Sets b (setControl c g >>= f) m s Q := by
  refine (wp_run_bind _ _ _ _ _).2 fun i _ => ⟨hfit, ?_⟩
  have hm : (m ∨ b = true ∧ Lost ⟨.setControl c g, i, s⟩) = m := by simp [Lost]
  simp only [hm]
  exact h

theorem sets_setControl {c : Ctrl} {g : Control → Control}
    {Q : Except Errno Unit → Prop → State → Prop} (hfit : ¬ ExposureFits s → m)
    (h : Q (.ok ()) m (s.setSensor fun d => d.setControl c g)) : Sets b (setControl c g) m s Q := by
  refine fun i _ => ⟨hfit, ?_⟩
  have hm : (m ∨ b = true ∧ Lost ⟨.setControl c g, i, s⟩) = m := by simp [Lost]
  simp only [hm]
  exact h

/-- A register is written, or the write is lost. -/
theorem sets_writeReg {reg : Nat} {value : Int} {Q : Except Errno Unit → Prop → State → Prop}
    (hfit : ¬ ExposureFits s → m) (herr : ∀ e, Q (.error e) (m ∨ b = true) s)
    (hok : Q (.ok ()) m (s.setReg reg value)) : Sets b (writeReg reg value) m s Q := by
  refine (wp_run_bind _ _ _ _ _).2 fun i _ => ⟨hfit, ?_⟩
  cases hl : i.lost with
  | true =>
    have hm : (m ∨ b = true ∧ Lost ⟨.i2cMasterSend reg value, i, s⟩) = (m ∨ b = true) := by
      simp [Lost, hl]
    simp only [hm, handle, hl, if_true]
    cases hf : i.fault with
    | some e =>
      simp only [Input.answer, hf]
      exact herr e
    | none =>
      have hcount : ¬ i.count = 4 := by simpa [Input.lost, hf] using hl
      simp only [Input.answer, hf]
      show wp _ _ (if i.count = 4 then pure () else throw .eio : Code Unit).run _ _ _
      rw [if_neg hcount]
      exact herr .eio
  | false =>
    have hm : (m ∨ b = true ∧ Lost ⟨.i2cMasterSend reg value, i, s⟩) = m := by simp [Lost, hl]
    obtain ⟨hf, hcount⟩ : i.fault = none ∧ i.count = 4 := by simpa [Input.lost] using hl
    simp only [hm, handle, hl, Input.answer, hf, hcount]
    exact hok

end Rules

/-! ## The state, field by field -/

section Fields

variable (s : State) (f : Sensor → Sensor) (c c' : Ctrl) (g : Control → Control) (reg : Nat)
  (value : Int)

@[simp] theorem setSensor_regs : (s.setSensor f).regs = s.regs := rfl
@[simp] theorem setReg_sensor : (s.setReg reg value).sensor = s.sensor := rfl

@[simp] theorem setReg_regs (reg' : Nat) :
    (s.setReg reg value).regs reg' = if reg' = reg then value % 2 ^ 16 else s.regs reg' := by
  simp [State.setReg, Function.update_apply]

@[simp] theorem setControl_control (d : Sensor) :
    (d.setControl c g).control c' = if c' = c then g (d.control c) else d.control c' := by
  simp [Sensor.setControl, Function.update_apply]

@[simp] theorem setControl_variant (d : Sensor) : (d.setControl c g).variant = d.variant := rfl
@[simp] theorem setControl_streaming (d : Sensor) : (d.setControl c g).streaming = d.streaming := rfl

end Fields

/-! ## Setting a control -/

section Setting

variable {b : Bool} {m : Prop} {s : State}

/-- The register that a control is written to, and what is written. -/
def ctrlReg (d : Sensor) : Ctrl → Nat × Int
  | .exposure => (regExposure, (d.control .exposure).val)
  | .analogueGain => (regAnalogueGain, (d.control .analogueGain).val % 256)
  | .vblank => (regFrameLength, u32 (d.variant.height + (d.control .vblank).val))

/-- While the sensor does not stream, nothing is written. -/
theorem writeCtrl_sets {c : Ctrl} {Q : Except Errno Unit → Prop → State → Prop}
    (hfit : ¬ ExposureFits s → m) (hoff : s.sensor.streaming = false → Q (.ok ()) m s)
    (hlost : s.sensor.streaming = true → ∀ e, Q (.error e) (m ∨ b = true) s)
    (hok : s.sensor.streaming = true →
      Q (.ok ()) m (s.setReg (ctrlReg s.sensor c).1 (ctrlReg s.sensor c).2)) :
    Sets b (writeCtrl c) m s Q := by
  unfold writeCtrl
  refine sets_load_seq hfit ?_
  cases hs : s.sensor.streaming with
  | false => exact hoff hs
  | true =>
    cases c <;> exact sets_writeReg hfit (hlost hs) (hok hs)

/-- A value that has changed is applied and then kept. -/
theorem tryOrSet_sets {c : Ctrl} {x : Code Unit} {Q : Except Errno Unit → Prop → State → Prop}
    (hfit : ¬ ExposureFits s → m)
    (hsame : (s.sensor.control c).val = (s.sensor.control c).cur → Q (.ok ()) m s)
    (hmoved : (s.sensor.control c).val ≠ (s.sensor.control c).cur → Sets b x m s fun r m' s' =>
      match r with
      | .ok _ => (¬ ExposureFits s' → m') ∧
          Q (.ok ()) m' (s'.setSensor fun d => d.setControl c Control.commit)
      | .error e => Q (.error e) m' s') :
    Sets b (tryOrSet c x) m s Q := by
  unfold tryOrSet
  refine sets_load_seq hfit ?_
  split
  · next h => exact hsame h
  next h =>
  refine (hmoved h).seq (fun _ _ _ h' => h') ?_
  exact fun _ m' s' h' => sets_setControl h'.1 h'.2

theorem clamp_bounds {lo hi : Int} (h : lo ≤ hi) (v : Int) : lo ≤ clamp v lo hi ∧ clamp v lo hi ≤ hi := by
  unfold clamp
  split_ifs <;> omega

theorem clamp_of_ge {v lo hi : Int} (h : lo ≤ v) : clamp v lo hi = min v hi := by
  unfold clamp
  split_ifs <;> omega

/-- What becomes of the exposure when its range follows `VBLANK`. -/
inductive Brought (s : State) (m : Prop) (s' : State) : Prop → Prop
  | kept (hle : (s.sensor.control .exposure).cur ≤ (s'.sensor.control .exposure).maximum)
      (hcur : (s'.sensor.control .exposure).cur = (s.sensor.control .exposure).cur)
      (hreg : s'.regs regExposure = s.regs regExposure) : Brought s m s' m
  | lowered (hlt : (s'.sensor.control .exposure).maximum < (s.sensor.control .exposure).cur)
      (hcur : (s'.sensor.control .exposure).cur = (s'.sensor.control .exposure).maximum)
      (hreg : s.sensor.streaming = true →
        s'.regs regExposure = (s'.sensor.control .exposure).maximum) : Brought s m s' m
  | lost (hlt : (s'.sensor.control .exposure).maximum < (s.sensor.control .exposure).cur)
      (hstreaming : s.sensor.streaming = true)
      (hreg : s'.regs regExposure = s.regs regExposure) {m' : Prop} (hm' : m') : Brought s m s' m'

/-- The exposure has the range for the `VBLANK` that is being set. -/
structure Followed (s : State) (m : Prop) (s' : State) (m' : Prop) : Prop where
  variant : s'.sensor.variant = s.sensor.variant
  streaming : s'.sensor.streaming = s.sensor.streaming
  vblank : s'.sensor.control .vblank = s.sensor.control .vblank
  emin : (s'.sensor.control .exposure).minimum = exposureMin
  emax : (s'.sensor.control .exposure).maximum =
    s.sensor.variant.height + (s.sensor.control .vblank).val - exposureMargin
  asked : exposureMin ≤ (s'.sensor.control .exposure).val
  frameLength : s'.regs regFrameLength = s.regs regFrameLength
  brought : Brought s m s' m'

/-- The value that is being set for `VBLANK` is in its range. -/
def Asked (s : State) : Prop := vblankOf s.sensor.variant ≤ (s.sensor.control .vblank).val ∧
  (s.sensor.control .vblank).val ≤ frameLengthMax - s.sensor.variant.height

section Ranged

/-! The exposure with its new range, before and after the value it was clamped to is kept. -/

variable {M d : Int} {s₁ : State} {m' : Prop}
  (hM : (s.sensor.variant.height : Int) + (s.sensor.control .vblank).val - exposureMargin = M)
  (hge : exposureMin ≤ (s.sensor.control .exposure).cur) (hM4 : exposureMin ≤ M)
  (hs : s₁.sensor = s.sensor.setControl .exposure (Control.setRange exposureMin M d))
  (hframe : s₁.regs regFrameLength = s.regs regFrameLength)
include hM hge hM4 hs hframe

theorem followed_ranged (hb : Brought s m s₁ m') : Followed s m s₁ m' where
  variant := by simp [hs]
  streaming := by simp [hs]
  vblank := by simp [hs]
  emin := by simp [hs, Control.setRange]
  emax := by simp [hs, Control.setRange, hM]
  asked := by
    simp only [hs, setControl_control, if_true, Control.setRange, clamp_of_ge hge]
    omega
  frameLength := hframe
  brought := hb

theorem followed_lowered (hlt : M < (s.sensor.control .exposure).cur)
    (hreg : s.sensor.streaming = true → s₁.regs regExposure = M) :
    Followed s m (s₁.setSensor fun d => d.setControl .exposure Control.commit) m where
  variant := by simp [hs]
  streaming := by simp [hs]
  vblank := by simp [hs]
  emin := by simp [hs, Control.setRange, Control.commit]
  emax := by simp [hs, Control.setRange, Control.commit, hM]
  asked := by
    simp only [setSensor_sensor, hs, setControl_control, if_true, Control.setRange, Control.commit,
      clamp_of_ge hge]
    omega
  frameLength := hframe
  brought := by
    refine .lowered ?_ ?_ fun hon => ?_
    · simpa [hs, Control.setRange, Control.commit] using hlt
    · simp only [setSensor_sensor, hs, setControl_control, if_true, Control.setRange, Control.commit,
        clamp_of_ge hge]
      omega
    · simpa [hs, Control.setRange, Control.commit] using hreg hon

end Ranged

theorem followVblank_sets (hb : m ∨ b = true) (hin : InStep s) (hv : Asked s)
    (hfit : ¬ ExposureFits s → m)
    (hreg : s.sensor.streaming = true → ¬ m →
      s.regs regExposure = (s.sensor.control .exposure).cur) :
    Sets b followVblank m s fun r m' s' => r = .ok () ∧ Followed s m s' m' := by
  obtain ⟨hvb, hlow, hhigh⟩ := s.sensor.variant.bounds
  obtain ⟨hv1, hv2⟩ := hv
  have hmax : u32 (s.sensor.variant.height + (s.sensor.control .vblank).val - exposureMargin) =
      s.sensor.variant.height + (s.sensor.control .vblank).val - exposureMargin := by
    unfold u32
    simp only [frameLengthMax, exposureMargin] at *
    omega
  unfold followVblank
  refine sets_load_seq hfit ?_
  dsimp only
  rw [hmax]
  have hasked := hin.asked_ge
  generalize hM : (s.sensor.variant.height : Int) + (s.sensor.control .vblank).val - exposureMargin = M
  have hM4 : exposureMin ≤ M := by
    simp only [frameLengthMax, exposureMargin, exposureMin] at *
    omega
  refine Sets.attempt_seq (P := fun r m' s' => Followed s m s' m') ?_ fun r m' s' h => ⟨rfl, h⟩
  unfold modifyRange
  rw [if_neg (by omega)]
  refine sets_setControl_seq hfit ?_
  have hge := hin.exposure_ge
  have hmod : M % 2 ^ 16 = M := by
    simp only [frameLengthMax, exposureMargin, exposureMin] at *
    omega
  refine tryOrSet_sets hfit (fun hsame => ?_) fun hmoved => ?_
  · have hkept : (s.sensor.control .exposure).cur ≤ M := by
      simp only [setSensor_sensor, setControl_control, if_true, Control.setRange, clamp_of_ge hge] at hsame
      omega
    refine followed_ranged hM hge hM4 rfl rfl (.kept ?_ ?_ rfl)
    · simpa [Control.setRange] using hkept
    · simp [Control.setRange]
  · have hlt : M < (s.sensor.control .exposure).cur := by
      simp only [setSensor_sensor, setControl_control, if_true, Control.setRange, clamp_of_ge hge] at hmoved
      omega
    have hval : clamp (s.sensor.control .exposure).cur exposureMin M = M := by
      rw [clamp_of_ge hge]
      omega
    refine writeCtrl_sets hfit (fun hoff => ⟨hfit, ?_⟩) (fun hon e => ?_) fun hon => ⟨fun hnot => ?_, ?_⟩
    · refine followed_lowered hM hge hM4 rfl rfl hlt fun hon => ?_
      exact absurd (hon.symm.trans hoff) (by decide)
    · have hon' : s.sensor.streaming = true := hon
      refine followed_ranged hM hge hM4 rfl rfl (.lost ?_ hon' ?_ hb)
      · simpa [Control.setRange] using hlt
      · rfl
    · -- the register is lowered with the range, so it still fits
      by_contra hm
      have htrack := hreg hon hm
      have hfits : ExposureFits s := not_not.1 fun h => hm (hfit h)
      refine hnot ?_
      have hreg' : regFrameLength ≠ regExposure := by decide
      unfold ExposureFits at hfits ⊢
      simp only [ctrlReg, Control.setRange, hval, hmod, hreg', setReg_regs, setSensor_sensor,
        setSensor_regs, setControl_control, if_true, if_false]
      omega
    · refine followed_lowered hM hge hM4 rfl ?_ hlt fun _ => ?_
      · simp [ctrlReg, regExposure, regFrameLength]
      · simp only [ctrlReg, Control.setRange, hval, hmod, setReg_regs, setSensor_sensor,
          setSensor_regs, setControl_control, if_true]

/-- Asking for a `VBLANK` changes nothing yet. -/
theorem Consistent.request_vblank (h : Consistent s) (v : Int) :
    Consistent (s.setSensor fun d => d.setControl .vblank (Control.request v)) ∧
      Asked (s.setSensor fun d => d.setControl .vblank (Control.request v)) := by
  obtain ⟨h, ht⟩ := h
  have hclamp := clamp_bounds (Int.le_trans h.vblank_ge h.vblank_le) v
  refine ⟨⟨⟨?_, ?_, ?_, ?_, ?_, ?_, ?_, ?_, ?_⟩, fun hs => ⟨?_, ?_⟩⟩, ?_⟩
  · simpa [Control.request] using h.vmin
  · simpa [Control.request] using h.vmax
  · simpa [Control.request] using h.vblank_ge
  · simpa [Control.request] using h.vblank_le
  · simpa using h.emin
  · simpa [RangeFollows, Control.request] using h.emax
  · simpa using h.exposure_ge
  · simpa using h.exposure_le
  · simpa using h.asked_ge
  · simpa [Control.request] using (ht hs).frameLength
  · simpa using (ht hs).exposure
  · simpa [Asked, Control.request, h.vmin, h.vmax] using hclamp

/-- No write has been lost and all is well, or one has, the sensor having streamed, and something is
wrong. -/
def Verdict (streaming : Bool) (m m' : Prop) (s : State) : Prop :=
  m' = m ∧ Consistent s ∨ m' ∧ streaming = true ∧ s.sensor.streaming = true ∧
    ¬ (ExposureFits s ∧ RangeFollows s)

theorem Consistent.fits (h : Consistent s) (hm : s.sensor.streaming = false → m) :
    ¬ ExposureFits s → m := by
  intro hnot
  cases hs : s.sensor.streaming with
  | false => exact hm hs
  | true => exact absurd (exposureFits_of_tracks h.1 (h.2 hs)) hnot

/-- A `VBLANK` that is not taken over leaves the range behind. -/
theorem Followed.not_rangeFollows {s' : State} {m' : Prop} (h : Followed s m s' m')
    (hmoved : (s.sensor.control .vblank).val ≠ (s.sensor.control .vblank).cur) : ¬ RangeFollows s' := by
  unfold RangeFollows
  rw [h.emax, h.vblank, h.variant]
  omega

/-- A `VBLANK` that is taken over, the exposure having been brought into the range. -/
theorem Followed.inStep {s' : State} {m' : Prop} (h : Followed s m s' m') (hin : InStep s)
    (hv : Asked s) (hge : exposureMin ≤ (s'.sensor.control .exposure).cur)
    (hle : (s'.sensor.control .exposure).cur ≤ (s'.sensor.control .exposure).maximum) :
    InStep (s'.setSensor fun d => d.setControl .vblank Control.commit) := by
  refine ⟨?_, ?_, ?_, ?_, ?_, ?_, ?_, ?_, ?_⟩
  · simpa [Control.commit, h.vblank, h.variant] using hin.vmin
  · simpa [Control.commit, h.vblank, h.variant] using hin.vmax
  · simpa [Control.commit, h.vblank, h.variant] using hv.1
  · simpa [Control.commit, h.vblank, h.variant] using hv.2
  · simpa using h.emin
  · simpa [RangeFollows, Control.commit, h.vblank, h.variant] using h.emax
  · simpa using hge
  · simpa using hle
  · simpa using h.asked

/-- A write that is lost from now on is an excuse if it was before. -/
theorem Followed.excused {s' : State} {m' : Prop} (h : Followed s m s' m') (hb : m ∨ b = true) :
    m' ∨ b = true := by
  cases h.brought with
  | lost _ _ _ hm' => exact .inl hm'
  | _ => exact hb

/-- The exposure still fits, or a write was lost. -/
theorem Followed.fits {s' : State} {m' : Prop} (h : Followed s m s' m') (hs : Consistent s)
    (hm : s.sensor.streaming = false → m) : ¬ ExposureFits s' → m' := by
  intro hnot
  cases h.brought with
  | lost _ _ _ hm' => exact hm'
  | kept _ _ hreg =>
    refine hs.fits hm fun hfits => hnot ?_
    unfold ExposureFits
    rw [hreg, h.frameLength]
    exact hfits
  | lowered hlt _ hreg =>
    cases hon : s.sensor.streaming with
    | false => exact hm hon
    | true =>
      have hfits := exposureFits_of_tracks hs.1 (hs.2 hon)
      refine absurd ?_ hnot
      unfold ExposureFits at hfits ⊢
      rw [(hs.2 hon).exposure] at hfits
      rw [hreg hon, h.frameLength]
      omega

/-- The exposure is in its range and its register says so, or the register holds too much. -/
theorem Followed.outcome {s' : State} {m' : Prop} (h : Followed s m s' m') (hs : Consistent s)
    (hv : Asked s) :
    m' = m ∧ exposureMin ≤ (s'.sensor.control .exposure).cur ∧
        (s'.sensor.control .exposure).cur ≤ (s'.sensor.control .exposure).maximum ∧
        (s.sensor.streaming = true → s'.regs regExposure = (s'.sensor.control .exposure).cur) ∨
      m' ∧ s.sensor.streaming = true ∧
        (s'.sensor.control .exposure).maximum < s'.regs regExposure := by
  have hge := hs.1.exposure_ge
  cases h.brought with
  | kept hle hcur hreg =>
    refine .inl ⟨rfl, by omega, by omega, fun hon => ?_⟩
    rw [hreg, hcur]
    exact (hs.2 hon).exposure
  | lowered hlt hcur hreg =>
    obtain ⟨hvb, hlow, -⟩ := s.sensor.variant.bounds
    have hmax := h.emax
    have hv1 := hv.1
    refine .inl ⟨rfl, ?_, by omega, fun hon => ?_⟩
    · simp only [exposureMargin, exposureMin] at *
      omega
    · rw [hreg hon, hcur]
  | lost hlt hon hreg hm' =>
    refine .inr ⟨hm', hon, ?_⟩
    rw [hreg, (hs.2 hon).exposure]
    exact hlt

/-- Writing the frame length for a `VBLANK` in its range. -/
theorem setReg_vblank (hv : Asked s) :
    let s' := s.setReg (ctrlReg s.sensor .vblank).1 (ctrlReg s.sensor .vblank).2
    s'.sensor = s.sensor ∧
      s'.regs regFrameLength = s.sensor.variant.height + (s.sensor.control .vblank).val ∧
      s'.regs regExposure = s.regs regExposure := by
  obtain ⟨hvb, hlow, hhigh⟩ := s.sensor.variant.bounds
  obtain ⟨hv1, hv2⟩ := hv
  refine ⟨rfl, ?_, ?_⟩
  · simp only [setReg_regs, ctrlReg, if_true, u32, frameLengthMax] at *
    omega
  · simp [ctrlReg, regExposure, regFrameLength]

/-- A `VBLANK` that differs from the current one is applied. -/
theorem setCtrl_vblank_sets (hb : m ∨ b = true) (h : Consistent s) (hv : Asked s)
    (hmoved : (s.sensor.control .vblank).val ≠ (s.sensor.control .vblank).cur)
    (hm : s.sensor.streaming = false → m) :
    Sets b (setCtrl .vblank) m s fun r m' s' =>
      match r with
      | .ok _ => (¬ ExposureFits s' → m') ∧
          Verdict s.sensor.streaming m m' (s'.setSensor fun d => d.setControl .vblank Control.commit)
      | .error _ => Verdict s.sensor.streaming m m' s' := by
  have hfit := h.fits hm
  unfold setCtrl onlyIf
  rw [if_pos rfl]
  refine (followVblank_sets hb h.1 hv hfit fun hs _ => (h.2 hs).exposure).seq ?_ ?_
  · exact fun _ _ _ hr => nomatch hr.1
  rintro - m₂ s₂ ⟨-, hfol⟩
  have hv₂ : Asked s₂ := by
    unfold Asked
    rw [hfol.variant, hfol.vblank]
    exact hv
  refine writeCtrl_sets (hfol.fits h hm) (fun hoff => ⟨hfol.fits h hm, ?_⟩) (fun hon e => ?_)
    fun hon => ?_
  · -- nothing was written
    rcases hfol.outcome h hv with ⟨rfl, hge, hle, -⟩ | ⟨-, hon, -⟩
    · refine .inl ⟨rfl, hfol.inStep h.1 hv hge hle, fun hon => ?_⟩
      exact absurd (hon.symm.trans hoff) (by decide)
    · rw [hfol.streaming] at hoff
      exact absurd (hon.symm.trans hoff) (by decide)
  · have hon' : s.sensor.streaming = true := hfol.streaming ▸ hon
    exact .inr ⟨hfol.excused hb, hon', hon, fun hgood => hfol.not_rangeFollows hmoved hgood.2⟩
  · obtain ⟨hsensor, hframe, hkeep⟩ := setReg_vblank hv₂
    generalize s₂.setReg _ _ = s₃ at hsensor hframe hkeep ⊢
    rw [hfol.variant, hfol.vblank] at hframe
    have hmax := hfol.emax
    rcases hfol.outcome h hv with ⟨rfl, hge, hle, hexp⟩ | ⟨hlost, hon', hexp⟩
    · have hexp' := hexp (hfol.streaming ▸ hon)
      refine ⟨fun hnot => absurd ?_ hnot, .inl ⟨rfl, ?_, fun _ => ⟨?_, ?_⟩⟩⟩
      · unfold ExposureFits
        omega
      · exact (hfol.inStep h.1 hv hge hle).congr (by simp [hsensor]) (by simp [hsensor]) (by simp [hsensor])
      · simpa [hsensor, Control.commit, hfol.variant, hfol.vblank] using hframe
      · simpa [hsensor] using hkeep.trans hexp'
    · refine ⟨fun _ => hlost, .inr ⟨hlost, hon', by simpa [hsensor] using hon, fun hgood => ?_⟩⟩
      have hfits : s₃.regs regExposure ≤ s₃.regs regFrameLength - exposureMargin := hgood.1
      omega

theorem userSet_vblank_sets (h : Consistent s) (hm : s.sensor.streaming = false → m) (v : Int) :
    Sets true (userSet .vblank v) m s fun _ m' s' => Verdict s.sensor.streaming m m' s' := by
  unfold userSet
  refine sets_setControl_seq (h.fits hm) ?_
  obtain ⟨h₁, hv⟩ := h.request_vblank v
  exact tryOrSet_sets (h₁.fits hm) (fun _ => .inl ⟨rfl, h₁⟩) fun hmoved =>
    setCtrl_vblank_sets (.inr rfl) h₁ hv hmoved hm

/-- The exposure's controls after a change that leaves its range. -/
theorem InStep.set_exposure (h : InStep s) {g : Control → Control}
    (hmin : (g (s.sensor.control .exposure)).minimum = (s.sensor.control .exposure).minimum)
    (hmax : (g (s.sensor.control .exposure)).maximum = (s.sensor.control .exposure).maximum)
    (hval : exposureMin ≤ (g (s.sensor.control .exposure)).val)
    (hge : exposureMin ≤ (g (s.sensor.control .exposure)).cur)
    (hle : (g (s.sensor.control .exposure)).cur ≤ (s.sensor.control .exposure).maximum) :
    InStep (s.setSensor fun d => d.setControl .exposure g) := by
  refine ⟨?_, ?_, ?_, ?_, ?_, ?_, ?_, ?_, ?_⟩
  · simpa using h.vmin
  · simpa using h.vmax
  · simpa using h.vblank_ge
  · simpa using h.vblank_le
  · simpa [hmin] using h.emin
  · simpa [RangeFollows, hmax] using h.emax
  · simpa using hge
  · simpa [hmax] using hle
  · simpa using hval

/-- A control other than `VBLANK` is applied by writing its register. -/
theorem setCtrl_of_ne {c : Ctrl} (hc : c ≠ .vblank) : setCtrl c = writeCtrl c := by
  unfold setCtrl onlyIf
  rw [if_neg hc, pure_bind]

/-- The exposure that is being set is in its range. -/
def ExposureAsked (s : State) : Prop := exposureMin ≤ (s.sensor.control .exposure).val ∧
  (s.sensor.control .exposure).val ≤ (s.sensor.control .exposure).maximum

/-- Asking for an exposure changes nothing yet. -/
theorem Consistent.request_exposure (h : Consistent s) (v : Int) :
    Consistent (s.setSensor fun d => d.setControl .exposure (Control.request v)) ∧
      ExposureAsked (s.setSensor fun d => d.setControl .exposure (Control.request v)) := by
  obtain ⟨h, ht⟩ := h
  have hclamp := clamp_bounds (Int.le_trans h.exposure_ge h.exposure_le) v
  rw [← h.emin] at hclamp
  refine ⟨⟨h.set_exposure rfl rfl ?_ h.exposure_ge h.exposure_le, fun hs => ⟨?_, ?_⟩⟩, ?_⟩
  · rw [← h.emin]
    exact hclamp.1
  · simpa using (ht hs).frameLength
  · simpa [Control.request] using (ht hs).exposure
  · unfold ExposureAsked
    rw [← h.emin]
    simpa [Control.request] using hclamp

theorem userSet_exposure_sets (h : Consistent s) (hm : s.sensor.streaming = false → m) (v : Int) :
    Sets b (userSet .exposure v) m s fun _ _ s' => Consistent s' := by
  unfold userSet
  refine sets_setControl_seq (h.fits hm) ?_
  obtain ⟨h₁, hge, hle⟩ := h.request_exposure v
  have hm₁ : (s.setSensor fun d => d.setControl .exposure (Control.request v)).sensor.streaming = false →
      m := hm
  generalize s.setSensor (fun d => d.setControl .exposure (Control.request v)) = s₁ at *
  have hcommit : InStep (s₁.setSensor fun d => d.setControl .exposure Control.commit) :=
    h₁.1.set_exposure rfl rfl hge hge hle
  rw [setCtrl_of_ne (by decide)]
  refine tryOrSet_sets (h₁.fits hm₁) (fun _ => h₁) fun _ => ?_
  refine writeCtrl_sets (h₁.fits hm₁) (fun hoff => ⟨h₁.fits hm₁, hcommit, fun hon => ?_⟩)
    (fun _ _ => h₁) fun hon => ?_
  · exact absurd (hon.symm.trans hoff) (by decide)
  · have hmax := h₁.1.emax
    have hframe := (h₁.2 hon).frameLength
    have hmod : (s₁.sensor.control .exposure).val % 2 ^ 16 = (s₁.sensor.control .exposure).val := by
      have hvb := h₁.1.vblank_le
      simp only [RangeFollows, exposureMin, exposureMargin, frameLengthMax] at *
      omega
    refine ⟨fun hnot => absurd ?_ hnot, hcommit.congr rfl rfl rfl, fun _ => ⟨?_, ?_⟩⟩
    · unfold RangeFollows at hmax
      simp only [ExposureFits, ctrlReg, setReg_regs, if_true, hmod]
      rw [if_neg (by decide)]
      omega
    · simpa [ctrlReg, regExposure, regFrameLength] using hframe
    · simpa [ctrlReg, Control.commit] using hmod

/-- The gain has nothing to do with all this. -/
theorem userSet_gain_sets (h : Consistent s) (hm : s.sensor.streaming = false → m) (v : Int) :
    Sets b (userSet .analogueGain v) m s fun _ _ s' => Consistent s' := by
  have hset : ∀ {s : State} (g : Control → Control), Consistent s →
      Consistent (s.setSensor fun d => d.setControl .analogueGain g) := by
    intro s g hs
    refine ⟨hs.1.congr rfl (by simp) (by simp), fun hon => ?_⟩
    exact (hs.2 hon).congr rfl (by simp) (by simp) rfl rfl
  have hreg : ∀ {s : State} (value : Int), Consistent s → Consistent (s.setReg regAnalogueGain value) := by
    intro s value hs
    refine ⟨hs.1.congr rfl rfl rfl, fun hon => (hs.2 hon).congr rfl rfl rfl ?_ ?_⟩
    · simp [regAnalogueGain, regFrameLength]
    · simp [regAnalogueGain, regExposure]
  unfold userSet
  refine sets_setControl_seq (h.fits hm) ?_
  have h₁ := hset (Control.request v) h
  rw [setCtrl_of_ne (by decide)]
  refine tryOrSet_sets (h₁.fits hm) (fun _ => h₁) fun _ => ?_
  refine writeCtrl_sets (h₁.fits hm) (fun _ => ⟨h₁.fits hm, hset _ h₁⟩) (fun _ _ => h₁) fun _ => ?_
  exact ⟨(hreg _ h₁).fits hm, hset _ (hreg _ h₁)⟩

end Setting

/-! ## Starting and stopping -/

/-- Operations that leave the controls and the streaming flag alone. -/
def Plain : Op → Prop
  | .setStreaming _ | .setControl _ _ => False
  | _ => True

theorem OnBus.plain {o : Op} (h : OnBus o) : Plain o := by
  cases o <;> trivial

theorem Plain.frame {o : Op} (h : Plain o) (i : Input) (s : State) :
    (handle o i s).2.sensor.variant = s.sensor.variant ∧
      (handle o i s).2.sensor.control = s.sensor.control ∧
      (handle o i s).2.sensor.streaming = s.sensor.streaming := by
  cases o with
  | setStreaming _ | setControl _ _ => exact h.elim
  | regulatorBulkEnable | clkPrepareEnable | gpiodGet =>
    cases hf : i.fault <;> simp [handle, hf]
  | gpiodGetOptional =>
    cases hf : i.fault
    · simp only [handle, hf]
      split <;> simp
    · simp [handle, hf]
  | i2cMasterSend reg value =>
    simp only [handle]
    split <;> simp
  | _ => simp [handle]

theorem onlyIf_plain {c : Prop} [Decidable c] {x : Code Unit} (hx : Issues Plain x.run) :
    Issues Plain (onlyIf c x).run := by
  unfold onlyIf
  split
  · exact hx
  · trivial

theorem disableSupplies_plain : Issues Plain disableSupplies.run :=
  Issues.run_bind (Issues.run_attempt ⟨trivial, fun _ => trivial⟩) fun _ => trivial

theorem releaseEnable_plain : Issues Plain releaseEnable.run := by
  unfold releaseEnable
  refine Issues.run_bind ⟨trivial, fun _ => trivial⟩ fun sensor => ?_
  refine Issues.run_bind (onlyIf_plain ⟨trivial, fun _ => trivial⟩) fun _ => ?_
  exact Issues.run_bind ⟨trivial, fun _ => trivial⟩ fun _ => disableSupplies_plain

theorem startClock_plain : Issues Plain startClock.run := by
  unfold startClock
  refine Issues.run_bind ⟨trivial, fun _ => trivial⟩ fun sensor => ?_
  refine Issues.run_bind (onlyIf_plain ⟨trivial, fun _ => trivial⟩) fun _ => ?_
  refine Issues.run_bind (Issues.run_attempt ⟨trivial, fun _ => trivial⟩) fun r => ?_
  split
  · exact ⟨trivial, fun _ => trivial⟩
  refine Issues.run_bind (onlyIf_plain ⟨trivial, fun _ => trivial⟩) fun _ => ?_
  refine Issues.run_bind ⟨trivial, fun _ => trivial⟩ fun _ => ?_
  refine Issues.run_bind ⟨trivial, fun _ => trivial⟩ fun _ => ?_
  exact Issues.run_bind releaseEnable_plain fun _ => trivial

theorem powerOn_plain : Issues Plain powerOn.run := by
  unfold powerOn
  refine Issues.run_bind ⟨trivial, fun _ => trivial⟩ fun _ => ?_
  refine Issues.run_bind (Issues.run_attempt ⟨trivial, fun _ => trivial⟩) fun r => ?_
  split
  · refine Issues.run_bind ⟨trivial, fun _ => trivial⟩ fun _ => ?_
    exact Issues.run_bind disableSupplies_plain fun _ => trivial
  refine Issues.run_bind ⟨trivial, fun _ => trivial⟩ fun _ => ?_
  refine Issues.run_bind (Issues.run_attempt ⟨trivial, fun _ => trivial⟩) fun r => ?_
  split
  · refine Issues.run_bind ⟨trivial, fun _ => trivial⟩ fun _ => ?_
    exact Issues.run_bind releaseEnable_plain fun _ => trivial
  · exact Issues.run_bind ⟨trivial, fun _ => trivial⟩ fun _ => startClock_plain

theorem powerOff_plain : Issues Plain powerOff.run := by
  unfold powerOff
  refine Issues.run_bind ⟨trivial, fun _ => trivial⟩ fun sensor => ?_
  split
  · trivial
  refine Issues.run_bind ⟨trivial, fun _ => trivial⟩ fun _ => ?_
  refine Issues.run_bind ⟨trivial, fun _ => trivial⟩ fun _ => ?_
  refine Issues.run_bind (onlyIf_plain ⟨trivial, fun _ => trivial⟩) fun _ => ?_
  refine Issues.run_bind ⟨trivial, fun _ => trivial⟩ fun _ => ?_
  refine Issues.run_bind ⟨trivial, fun _ => trivial⟩ fun _ => ?_
  refine Issues.run_bind (onlyIf_plain ⟨trivial, fun _ => trivial⟩) fun _ => ?_
  exact Issues.run_bind ⟨trivial, fun _ => trivial⟩ fun _ => disableSupplies_plain

/-- The controls are in step and the sensor streams or not; nothing is asked of the registers. -/
def Still (streaming : Bool) (m : Prop) (s : State) : Prop :=
  m ∧ InStep s ∧ s.sensor.streaming = streaming

section Streaming

variable {b : Bool} {m : Prop} {s : State} {streaming : Bool}

/-- What `Plain` code leaves alone. -/
structure SameControls (s s' : State) : Prop where
  variant : s'.sensor.variant = s.sensor.variant
  control : s'.sensor.control = s.sensor.control
  streaming : s'.sensor.streaming = s.sensor.streaming

theorem sets_of_plain {α : Type} {x : Code α} (hx : Issues Plain x.run) (hm : m) :
    Sets b x m s fun _ m' s' => m' ∧ SameControls s s' := by
  refine hx.wp (W := camera) (M := fitMonitor b) (J := fun m' s' => m' ∧ SameControls s s')
    (fun o ho i m' s' _ hs' => ⟨fun _ => hs'.1, .inl hs'.1, ?_⟩) ⟨hm, rfl, rfl, rfl⟩
  obtain ⟨hvar, hcon, hstr⟩ := ho.frame i s'
  obtain ⟨-, h1, h2, h3⟩ := hs'
  exact ⟨hvar.trans h1, hcon.trans h2, hstr.trans h3⟩

theorem sets_plain_seq {α β : Type} {x : Code α} {f : α → Code β}
    {Q : Except Errno β → Prop → State → Prop} (hx : Issues Plain x.run) (hm : m)
    (hs : s.sensor.streaming = false) (herr : ∀ e m' s', Q (.error e) m' s')
    (hok : ∀ a m' s', m' → s'.sensor.streaming = false → Sets b (f a) m' s' Q) :
    Sets b (x >>= f) m s Q :=
  (sets_of_plain hx hm).seq (fun e m' s' _ => herr e m' s') fun a m' s' h =>
    hok a m' s' h.1 (h.2.streaming.trans hs)

theorem Still.of_plain {α : Type} {x : Code α} (hx : Issues Plain x.run) (h : Still streaming m s) :
    Sets b x m s fun _ m' s' => Still streaming m' s' := by
  refine (sets_of_plain hx h.1).mono ?_
  rintro _ m' s' ⟨hm', hvar, hcon, hstr⟩
  exact ⟨hm', h.2.1.congr hvar (congrFun hcon _) (congrFun hcon _), hstr.trans h.2.2⟩

theorem Still.seq {α β : Type} {x : Code α} {f : α → Code β}
    {Q : Except Errno β → Prop → State → Prop} (h : Still streaming m s) (hx : Issues Plain x.run)
    (herr : ∀ e m' s', Still streaming m' s' → Q (.error e) m' s')
    (hok : ∀ a m' s', Still streaming m' s' → Sets b (f a) m' s' Q) : Sets b (x >>= f) m s Q :=
  (h.of_plain hx).seq (fun e m' s' => herr e m' s') fun a m' s' => hok a m' s'

theorem Still.attempt_seq {α β : Type} {x : Code α} {f : Except Errno α → Code β}
    {Q : Except Errno β → Prop → State → Prop} (h : Still streaming m s) (hx : Issues Plain x.run)
    (hf : ∀ r m' s', Still streaming m' s' → Sets b (f r) m' s' Q) : Sets b (attempt x >>= f) m s Q :=
  (h.of_plain hx).attempt_seq hf

theorem sets_setStreaming_seq {β : Type} {on : Bool} {f : Unit → Code β}
    {Q : Except Errno β → Prop → State → Prop} (h : Still streaming m s)
    (hf : ∀ m' s', Still on m' s' → Sets b (f ()) m' s' Q) : Sets b (setStreaming on >>= f) m s Q := by
  refine (wp_run_bind _ _ _ _ _).2 fun i _ => ⟨fun _ => h.1, ?_⟩
  exact hf _ _ ⟨.inl h.1, h.2.1.congr rfl rfl rfl, rfl⟩

theorem Control.commit_of_eq {c : Control} (h : c.val = c.cur) : c.commit = c := by
  obtain ⟨_, _, _, val, cur⟩ := c
  cases h
  rfl

/-- Setting a control to the value it has. -/
theorem Still.restore (h : Still streaming m s) (c : Ctrl) :
    Still streaming m (s.setSensor fun d => d.setControl c Control.restore) := by
  obtain ⟨hm, hin, hstr⟩ := h
  refine ⟨hm, ?_, hstr⟩
  cases c with
  | analogueGain => exact hin.congr rfl (by simp) (by simp)
  | exposure => exact hin.set_exposure rfl rfl hin.exposure_ge hin.exposure_ge hin.exposure_le
  | vblank =>
    refine ⟨?_, ?_, ?_, ?_, ?_, ?_, ?_, ?_, ?_⟩
    · simpa [Control.restore] using hin.vmin
    · simpa [Control.restore] using hin.vmax
    · simpa [Control.restore] using hin.vblank_ge
    · simpa [Control.restore] using hin.vblank_le
    · simpa using hin.emin
    · simpa [RangeFollows, Control.restore] using hin.emax
    · simpa using hin.exposure_ge
    · simpa using hin.exposure_le
    · simpa using hin.asked_ge

/-- The current `VBLANK` is applied once more: the range stays, and the frame length is written. -/
theorem setCtrl_vblank_again (h : Still true m s)
    (hval : (s.sensor.control .vblank).val = (s.sensor.control .vblank).cur) :
    Sets b (setCtrl .vblank) m s fun r m' s' => Still true m' s' ∧ (r = .ok () →
      s'.regs regFrameLength = s'.sensor.variant.height + (s'.sensor.control .vblank).cur) := by
  obtain ⟨hm, hin, hstr⟩ := h
  have hv : Asked s := by
    unfold Asked
    rw [hval]
    exact ⟨hin.vblank_ge, hin.vblank_le⟩
  unfold setCtrl onlyIf
  rw [if_pos rfl]
  refine (followVblank_sets (.inl hm) hin hv (fun _ => hm) fun _ hnot => absurd hm hnot).seq ?_ ?_
  · exact fun _ _ _ hr => nomatch hr.1
  rintro - m₂ s₂ ⟨-, hfol⟩
  have hmax : (s₂.sensor.control .exposure).maximum = (s.sensor.control .exposure).maximum := by
    rw [hfol.emax, hin.emax, hval]
  have hle := hin.exposure_le
  have h₂ : Still true m₂ s₂ := by
    cases hfol.brought with
    | lowered hlt _ _ => omega
    | lost hlt _ _ _ => omega
    | kept hle' hcur hreg =>
      refine ⟨hm, (hfol.inStep hin hv ?_ ?_).congr rfl ?_ (by simp), hfol.streaming.trans hstr⟩
      · rw [hcur]
        exact hin.exposure_ge
      · omega
      · simp [hfol.vblank, Control.commit_of_eq hval]
  have hv₂ : Asked s₂ := by
    unfold Asked
    rw [hfol.variant, hfol.vblank]
    exact hv
  refine writeCtrl_sets (fun _ => h₂.1) (fun hoff => ?_) (fun _ e => ?_) fun _ => ?_
  · exact absurd (h₂.2.2.symm.trans hoff) (by decide)
  · exact ⟨⟨.inl h₂.1, h₂.2⟩, fun hr => nomatch hr⟩
  · obtain ⟨hsensor, hframe, -⟩ := setReg_vblank hv₂
    generalize s₂.setReg _ _ = s₃ at hsensor hframe ⊢
    refine ⟨⟨h₂.1, h₂.2.1.congr (by rw [hsensor]) (by rw [hsensor]) (by rw [hsensor]), ?_⟩, fun _ => ?_⟩
    · rw [hsensor]
      exact h₂.2.2
    · rw [hframe, hsensor, hfol.vblank, hval]

theorem InStep.exposure_mod (h : InStep s) :
    (s.sensor.control .exposure).cur % 2 ^ 16 = (s.sensor.control .exposure).cur := by
  have h1 := h.exposure_ge
  have h2 := h.exposure_le
  have h3 := h.emax
  have h4 := h.vblank_le
  simp only [RangeFollows, exposureMin, exposureMargin, frameLengthMax] at *
  omega

/-- The current exposure is written. -/
theorem setupExposure_sets (h : Still true m s)
    (hval : (s.sensor.control .exposure).val = (s.sensor.control .exposure).cur)
    (hframe : s.regs regFrameLength = s.sensor.variant.height + (s.sensor.control .vblank).cur) :
    Sets b (writeCtrl .exposure) m s fun r m' s' => Still true m' s' ∧ (r = .ok () → Tracks s') := by
  refine writeCtrl_sets (fun _ => h.1) (fun hoff => ?_) (fun _ e => ?_) fun _ => ?_
  · exact absurd (h.2.2.symm.trans hoff) (by decide)
  · exact ⟨⟨.inl h.1, h.2⟩, fun hr => nomatch hr⟩
  · refine ⟨⟨h.1, h.2.1.congr rfl rfl rfl, h.2.2⟩, fun _ => ⟨?_, ?_⟩⟩
    · simpa [ctrlReg, regExposure, regFrameLength] using hframe
    · simpa [ctrlReg, hval] using h.2.1.exposure_mod

/-- The controls as they are when the stream starts. -/
theorem handlerSetup_sets (h : Still true m s) :
    Sets b (handlerSetup [.vblank, .exposure, .analogueGain]) m s fun r m' s' =>
      Still true m' s' ∧ (r = .ok () → Tracks s') := by
  refine sets_setControl_seq (fun _ => h.1) ?_
  refine (setCtrl_vblank_again (h.restore .vblank) (by simp [Control.restore])).seq ?_ ?_
  · exact fun e m' s' h' => ⟨h'.1, fun hr => nomatch hr⟩
  rintro ⟨⟩ m₁ s₁ ⟨h₁, hframe⟩
  refine sets_setControl_seq (fun _ => h₁.1) ?_
  rw [setCtrl_of_ne (by decide)]
  refine Sets.seq (setupExposure_sets (h₁.restore .exposure) (by simp [Control.restore]) ?_) ?_ ?_
  · simpa using hframe rfl
  · exact fun e m' s' h' => ⟨h'.1, fun hr => nomatch hr⟩
  rintro ⟨⟩ m₂ s₂ ⟨h₂, htracks⟩
  refine sets_setControl_seq (fun _ => h₂.1) ?_
  rw [setCtrl_of_ne (by decide)]
  have h₃ := h₂.restore .analogueGain
  have ht₃ : Tracks (s₂.setSensor fun d => d.setControl .analogueGain Control.restore) :=
    (htracks rfl).congr rfl (by simp) (by simp) rfl rfl
  generalize s₂.setSensor (fun d => d.setControl .analogueGain Control.restore) = s₃ at h₃ ht₃ ⊢
  refine Sets.seq (P := fun r m' s' => Still true m' s' ∧ (r = .ok () → Tracks s')) ?_ ?_ ?_
  · refine writeCtrl_sets (fun _ => h₃.1) (fun _ => ⟨h₃, fun _ => ht₃⟩)
      (fun _ e => ⟨⟨.inl h₃.1, h₃.2⟩, fun hr => nomatch hr⟩) fun _ => ⟨?_, fun _ => ?_⟩
    · exact ⟨h₃.1, h₃.2.1.congr rfl rfl rfl, h₃.2.2⟩
    · refine ht₃.congr rfl rfl rfl ?_ ?_
      · simp [ctrlReg, regAnalogueGain, regFrameLength]
      · simp [ctrlReg, regAnalogueGain, regExposure]
  · exact fun e m' s' h' => ⟨h'.1, fun hr => nomatch hr⟩
  · exact fun _ m' s' h' => ⟨h'.1, fun _ => h'.2 rfl⟩

/-- The stream starts with the registers as the controls say. -/
theorem setup_sets (h : Still true m s) :
    Sets b (do
      handlerSetup [.vblank, .exposure, .analogueGain]
      writeReg regModeSelect modeStreaming) m s fun r m' s' =>
        Still true m' s' ∧ (r = .ok () → Tracks s') := by
  refine (handlerSetup_sets h).seq ?_ ?_
  · exact fun e m' s' h' => ⟨h'.1, fun hr => nomatch hr⟩
  rintro ⟨⟩ m₁ s₁ ⟨h₁, htracks⟩
  refine sets_writeReg (fun _ => h₁.1) (fun e => ⟨⟨.inl h₁.1, h₁.2⟩, fun hr => nomatch hr⟩)
    ⟨⟨h₁.1, h₁.2.1.congr rfl rfl rfl, h₁.2.2⟩, fun _ => ?_⟩
  refine (htracks rfl).congr rfl rfl rfl ?_ ?_
  · simp [regModeSelect, regFrameLength]
  · simp [regModeSelect, regExposure]

/-- A register that is read leaves the state as it is. -/
theorem debugRead_sets (reg : Nat) (hm : m) :
    Sets b (debugRead reg) m s fun r m' s' => r = .ok () ∧ m' ∧ s' = s := by
  have hread : Issues (fun o => ∃ reg, o = Op.i2cTransfer reg) (readReg reg).run := by
    unfold readReg
    refine Issues.run_bind ⟨⟨reg, rfl⟩, fun _ => trivial⟩ fun r => ?_
    dsimp only
    split <;> trivial
  have hsets : Sets b (readReg reg) m s fun _ m' s' => m' ∧ s' = s := by
    refine hread.wp (W := camera) (M := fitMonitor b) (J := fun m' s' => m' ∧ s' = s) ?_ ⟨hm, rfl⟩
    rintro _ ⟨reg, rfl⟩ i m' s' - ⟨hm', rfl⟩
    exact ⟨fun _ => hm', .inl hm', rfl⟩
  exact hsets.attempt_seq fun r m' s' h => ⟨rfl, h⟩

/-- A start that succeeds leaves the registers as the controls say, and one that fails does not leave
the sensor streaming. -/
theorem startStreaming_sets (tables : Tables) (h : Still false m s) :
    Sets b (startStreaming tables) m s fun r m' s' => Still (r matches .ok _) m' s' ∧
      (r = .ok () → Tracks s') := by
  have hfail : ∀ e m' s', Still false m' s' → Still ((.error e : Except Errno Unit) matches .ok _) m' s' ∧
      ((.error e : Except Errno Unit) = .ok () → Tracks s') := fun e m' s' h' => ⟨h', fun hr => nomatch hr⟩
  unfold startStreaming
  refine h.seq ⟨trivial, fun _ => trivial⟩ hfail fun sensor m₁ s₁ h₁ => ?_
  refine h₁.seq ((writeTable_onBus _).mono fun _ => OnBus.plain) hfail fun _ m₂ s₂ h₂ => ?_
  refine h₂.seq ((writeTable_onBus _).mono fun _ => OnBus.plain) hfail fun _ m₃ s₃ h₃ => ?_
  refine h₃.seq ((debugRead_onBus _).mono fun _ => OnBus.plain) hfail fun _ m₄ s₄ h₄ => ?_
  refine h₄.seq ((debugRead_onBus _).mono fun _ => OnBus.plain) hfail fun _ m₅ s₅ h₅ => ?_
  refine h₅.seq ((debugRead_onBus _).mono fun _ => OnBus.plain) hfail fun _ m₆ s₆ h₆ => ?_
  refine sets_setStreaming_seq h₆ fun m₇ s₇ h₇ => ?_
  refine (setup_sets h₇).attempt_seq ?_
  rintro (e | ⟨⟩) m₈ s₈ ⟨h₈, htracks⟩
  · exact sets_setStreaming_seq h₈ fun m₉ s₉ h₉ => ⟨h₉, fun hr => nomatch hr⟩
  · refine (debugRead_sets regModeSelect h₈.1).seq (fun e _ _ h => nomatch h.1) ?_
    rintro - m₉ _ ⟨-, hm₉, rfl⟩
    refine (debugRead_sets regModeSelect hm₉).mono ?_
    rintro _ m' _ ⟨rfl, hm', rfl⟩
    exact ⟨⟨hm', h₈.2⟩, fun _ => htracks rfl⟩

theorem Still.consistent (h : Still false m s) : Consistent s :=
  ⟨h.2.1, fun hs => absurd (h.2.2.symm.trans hs) (by decide)⟩

theorem setStream_sets (tables : Tables) (enable : Bool) (h : Consistent s) (hm : m) :
    Sets b (setStream tables enable) m s fun _ _ s' => Consistent s' := by
  unfold setStream
  refine sets_load_seq (fun _ => hm) ?_
  split
  · exact h
  split
  · next hne hen =>
    have hoff : Still false m s := ⟨hm, h.1, by simpa [hen] using hne⟩
    refine hoff.seq powerOn_plain (fun _ _ _ h' => h'.consistent) fun _ m₁ s₁ h₁ => ?_
    refine (startStreaming_sets tables h₁).attempt_seq ?_
    rintro (e | ⟨⟩) m₂ s₂ ⟨h₂, htracks⟩
    · exact Still.seq h₂ powerOff_plain (fun _ _ _ h' => h'.consistent) fun _ _ _ h' => h'.consistent
    · exact ⟨h₂.2.1, fun _ => htracks rfl⟩
  · next hne hen =>
    have hon : Still true m s := ⟨hm, h.1, by simpa [hen] using hne⟩
    refine hon.attempt_seq ((writeReg_onBus _ _).mono fun _ => OnBus.plain) fun ret m₁ s₁ h₁ => ?_
    refine sets_setStreaming_seq h₁ fun m₂ s₂ h₂ => ?_
    refine h₂.seq powerOff_plain (fun _ _ _ h' => h'.consistent) fun _ m₃ s₃ h₃ => ?_
    cases ret <;> exact h₃.consistent

/-- The controls are made for the variant. -/
theorem initControls_sets (hm : m) (hs : s.sensor.streaming = false) :
    Sets b initControls m s fun _ m' s' => Still false m' s' := by
  unfold initControls
  refine sets_load_seq (fun _ => hm) ?_
  refine sets_setControl_seq (fun _ => hm) (sets_setControl_seq (fun _ => hm)
    (sets_setControl_seq (fun _ => hm) ?_))
  obtain ⟨hvb, hlow, hhigh⟩ := s.sensor.variant.bounds
  refine Still.of_plain ⟨trivial, fun _ => trivial⟩ ⟨hm, ?_, hs⟩
  refine ⟨?_, ?_, ?_, ?_, ?_, ?_, ?_, ?_, ?_⟩ <;>
    simp only [setSensor_sensor, setControl_control, setControl_variant, if_true, reduceCtorEq, if_false,
      newStd, RangeFollows]
  all_goals
    simp only [exposureMin, exposureMargin, frameLengthMax] at *
    omega

theorem register_sets (hm : m) (hs : s.sensor.streaming = false) :
    Sets b register m s fun r m' s' => m' ∧ (r = .ok () → Still false m' s') := by
  unfold register
  have hstep : ∀ p, Issues Plain (probeStep p).run := fun p => ⟨trivial, fun _ => trivial⟩
  refine (sets_of_plain (identify_onBus.mono fun _ => OnBus.plain) hm).seq ?_ ?_
  · exact fun _ _ _ h' => ⟨h'.1, fun hr => nomatch hr⟩
  rintro - m₁ s₁ ⟨hm₁, hsame⟩
  have hfail : ∀ e m' s', Still false m' s' →
      m' ∧ ((.error e : Except Errno Unit) = .ok () → Still false m' s') :=
    fun _ _ _ h' => ⟨h'.1, fun hr => nomatch hr⟩
  refine (initControls_sets hm₁ (hsame.streaming.trans hs)).seq hfail fun _ m₂ s₂ h₂ => ?_
  refine h₂.seq (hstep _) hfail fun _ m₃ s₃ h₃ => ?_
  refine h₃.seq (hstep _) hfail fun _ m₄ s₄ h₄ => ?_
  refine h₄.seq (hstep _) hfail fun _ m₅ s₅ h₅ => ?_
  exact (h₅.of_plain (hstep _)).mono fun _ _ _ h' => ⟨h'.1, fun _ => h'⟩

/-- A probe that succeeds leaves the controls in step. -/
theorem probe_sets (hm : m) (hs : s.sensor.streaming = false) :
    Sets b probe m s fun r _ s' => r = .ok () → Consistent s' := by
  have hstep : ∀ p, Issues Plain (probeStep p).run := fun p => ⟨trivial, fun _ => trivial⟩
  unfold probe
  refine sets_plain_seq (hstep _) hm hs (fun _ _ _ hr => nomatch hr) fun _ m₁ s₁ hm₁ hs₁ => ?_
  refine sets_plain_seq (hstep _) hm₁ hs₁ (fun _ _ _ hr => nomatch hr) fun _ m₂ s₂ hm₂ hs₂ => ?_
  refine sets_plain_seq (hstep _) hm₂ hs₂ (fun _ _ _ hr => nomatch hr) fun _ m₃ s₃ hm₃ hs₃ => ?_
  refine sets_plain_seq (hstep _) hm₃ hs₃ (fun _ _ _ hr => nomatch hr) fun _ m₄ s₄ hm₄ hs₄ => ?_
  refine sets_plain_seq powerOn_plain hm₄ hs₄ (fun _ _ _ hr => nomatch hr) fun _ m₅ s₅ hm₅ hs₅ => ?_
  refine (register_sets hm₅ hs₅).attempt_seq ?_
  rintro (e | ⟨⟩) m₆ s₆ ⟨hm₆, h₆⟩
  · refine (sets_of_plain powerOff_plain hm₆).seq (fun _ _ _ _ hr => nomatch hr) ?_
    exact fun _ _ _ _ hr => nomatch hr
  · exact (h₆ rfl).seq powerOff_plain (fun _ _ _ _ hr => nomatch hr) fun _ _ _ h₇ _ => h₇.consistent

end Streaming

/-! ## Runs -/

section Runs

variable {α : Type} {b : Bool} {x : Code α} {m : Prop} {s : State}
  {Q : Except Errno α → Prop → State → Prop}

theorem Sets.sound (h : Sets b x m s Q) (ι : Nat → Input) :
    Q (x.run.run camera ι s).1 (m ∨ ∃ e ∈ x.run.trace camera ι s, b = true ∧ Lost e)
      (x.run.run camera ι s).2 := by
  have hafter : (fitMonitor b).after m (x.run.trace camera ι s) ↔
      m ∨ ∃ e ∈ x.run.trace camera ι s, b = true ∧ Lost e := Monitor.after_seen
  have hQ := (wp_sound h ι fun _ _ => trivial).2
  rw [propext hafter] at hQ
  exact hQ

/-- Unless a write is lost that is an excuse, the exposure fits all the time. -/
theorem Sets.fits (h : Sets b x False s Q) (ι : Nat → Input)
    (hnot : ¬ ∃ e ∈ x.run.trace camera ι s, b = true ∧ Lost e) :
    ∀ e ∈ x.run.trace camera ι s, ExposureFits e.pre := by
  intro e he
  obtain ⟨pre, post, htr⟩ := List.append_of_mem he
  by_contra hmis
  obtain hF | ⟨e', he', hlost⟩ :=
    Monitor.exists_of_safe_precedes (wp_sound h ι fun _ _ => trivial).1 htr hmis
  · exact hF
  · exact hnot ⟨e', by rw [htr]; exact List.mem_append_left _ he', hlost⟩

end Runs

/-- A call that sets a control other than `VBLANK`, or starts or stops the stream. -/
theorem keeps_of_not_vblank (tables : Tables) {l : Step} {s : State} (h : Consistent s)
    (hl : ∀ v, l.call ≠ .userSet .vblank v) :
    Consistent (step tables l s) ∧ Keeps tables l s := by
  obtain ⟨call, ι⟩ := l
  cases call with
  | setStream enable =>
    have hafter : Consistent (step tables ⟨.setStream enable, ι⟩ s) :=
      (setStream_sets (b := false) tables enable h trivial).sound ι
    refine ⟨hafter, ?_, hafter.keeps.1, hafter.keeps.2⟩
    rintro ⟨c, v, hcall⟩
    cases hcall
  | userSet c v =>
    have hsets : ∀ m, (s.sensor.streaming = false → m) →
        Sets false (userSet c v) m s fun _ _ s' => Consistent s' := by
      intro m hm
      cases c with
      | vblank => exact absurd rfl (hl v)
      | exposure => exact userSet_exposure_sets h hm v
      | analogueGain => exact userSet_gain_sets h hm v
    have hafter : Consistent (step tables ⟨.userSet c v, ι⟩ s) :=
      (hsets True fun _ => trivial).sound ι
    refine ⟨hafter, fun _ hon => ?_, hafter.keeps.1, hafter.keeps.2⟩
    refine (hsets False fun hoff => ?_).fits ι ?_
    · exact absurd (hon.symm.trans hoff) (by decide)
    · rintro ⟨_, _, hb, -⟩
      cases hb

/-- A call that sets `VBLANK`. -/
theorem keeps_vblank_iff (tables : Tables) {s : State} (h : Consistent s) (v : Int) (ι : Nat → Input) :
    (Keeps tables ⟨.userSet .vblank v, ι⟩ s ↔ Delivered tables ⟨.userSet .vblank v, ι⟩ s) ∧
      (Delivered tables ⟨.userSet .vblank v, ι⟩ s →
        Consistent (step tables ⟨.userSet .vblank v, ι⟩ s)) := by
  cases hon : s.sensor.streaming with
  | false =>
    have hafter : Consistent (step tables ⟨.userSet .vblank v, ι⟩ s) := by
      rcases (userSet_vblank_sets h (m := True) (fun _ => trivial) v).sound ι with hok | ⟨-, hs, -⟩
      · exact hok.2
      · exact absurd (hs.symm.trans hon) (by decide)
    refine ⟨iff_of_true ⟨fun _ hs => ?_, hafter.keeps.1, hafter.keeps.2⟩ fun _ hs => ?_, fun _ => hafter⟩
    · exact absurd (hs.symm.trans hon) (by decide)
    · exact absurd (hs.symm.trans hon) (by decide)
  | true =>
    have hsets := userSet_vblank_sets h (m := False)
      (fun hoff => absurd (hon.symm.trans hoff) (by decide)) v
    have hsound := hsets.sound ι
    by_cases hlost : ∃ e ∈ (userSet .vblank v).run.trace camera ι s, Lost e
    · have hnot : ¬ Delivered tables ⟨.userSet .vblank v, ι⟩ s := by
        obtain ⟨e, he, hl⟩ := hlost
        exact fun hd => hd ⟨v, rfl⟩ hon e he hl
      refine ⟨iff_of_false (fun hk => ?_) hnot, fun hd => absurd hd hnot⟩
      rcases hsound with ⟨hm, -⟩ | ⟨-, -, hs, hbad⟩
      · obtain ⟨e, he, hl⟩ := hlost
        exact hm ▸ .inr ⟨e, he, rfl, hl⟩
      · exact hbad ⟨hk.after hs, hk.range⟩
    · have hnone : ¬ ∃ e ∈ (userSet .vblank v).run.trace camera ι s, true = true ∧ Lost e :=
        fun ⟨e, he, _, hl⟩ => hlost ⟨e, he, hl⟩
      have hafter : Consistent (step tables ⟨.userSet .vblank v, ι⟩ s) := by
        rcases hsound with ⟨-, hok⟩ | ⟨hm, -⟩
        · exact hok
        · exact absurd hm (not_or_intro id hnone)
      refine ⟨iff_of_true ⟨fun _ _ => hsets.fits ι hnone, hafter.keeps.1, hafter.keeps.2⟩ ?_,
        fun _ => hafter⟩
      exact fun _ _ e he hl => hlost ⟨e, he, hl⟩

/-- **Over any calls after a probe, the exposure fits the frame and its range follows `VBLANK`,
precisely if no register write is lost that is made for a `VBLANK`.** -/
theorem exposure_fits_iff (tables : Tables) (variant : Variant) (hasEnable : Bool) (ι : Nat → Input)
    (hprobe : (probe.run.run camera ι (unprobed variant hasEnable)).1 = .ok ()) (calls : List Step) :
    Meets (step tables) (Keeps tables) calls (probed variant hasEnable ι) ↔
      Meets (step tables) (Delivered tables) calls (probed variant hasEnable ι) := by
  have hstart : Consistent (probed variant hasEnable ι) :=
    (probe_sets (b := false) (m := True) trivial rfl).sound ι hprobe
  have hstep : ∀ l s, Consistent s → (Keeps tables l s ↔ Delivered tables l s) ∧
      (Delivered tables l s → Consistent (step tables l s)) := by
    intro l s hs
    by_cases hl : ∃ v, l.call = .userSet .vblank v
    · obtain ⟨call, κ⟩ := l
      obtain ⟨v, rfl⟩ := hl
      exact keeps_vblank_iff tables hs v κ
    · obtain ⟨hafter, hkeeps⟩ := keeps_of_not_vblank tables hs fun v hv => hl ⟨v, hv⟩
      exact ⟨iff_of_true hkeeps fun hv => absurd hv hl, fun _ => hafter⟩
  constructor
  · refine Meets.imp (J := Consistent) (fun l s hs hk => ?_) hstart
    have hd := (hstep l s hs).1.1 hk
    exact ⟨(hstep l s hs).2 hd, hd⟩
  · refine Meets.imp (J := Consistent) (fun l s hs hd => ?_) hstart
    exact ⟨(hstep l s hs).2 hd, (hstep l s hs).1.2 hd⟩

/-- The sensor answers with its model. -/
def identified : Nat → Input := fun _ => { count := 2, value := modelId }

/-- The stream starts, `VBLANK` is set, with its writes failing or not, and then a long exposure. -/
def longExposure (lost : Option Errno) : List Step :=
  [⟨.setStream true, fun _ => {}⟩, ⟨.userSet .vblank 1000, fun _ => { fault := lost }⟩,
    ⟨.userSet .exposure 4092, fun _ => {}⟩]

theorem fits_longExposure : Meets (step ⟨[], fun _ => []⟩) (Keeps ⟨[], fun _ => []⟩)
    (longExposure none) (probed .rear true identified) := by
  refine (exposure_fits_iff ⟨[], fun _ => []⟩ .rear true identified rfl (longExposure none)).2 ?_
  refine ⟨fun ⟨_, h⟩ => ?_, fun _ _ e he => ?_, fun ⟨_, h⟩ => ?_, trivial⟩
  · cases h
  · obtain ⟨n, hn⟩ := Prog.exists_input_of_mem_trace he
    unfold Lost
    rw [hn]
    split
    · simp [Input.lost]
    · exact id
  · cases h

/-- The frame length is not written, but the exposure for it is. -/
theorem misfits_longExposure : ¬ Meets (step ⟨[], fun _ => []⟩) (Keeps ⟨[], fun _ => []⟩)
    (longExposure (some .eio)) (probed .rear true identified) := by
  intro h
  have hfits := h.2.2.1.after rfl
  revert hfits
  unfold ExposureFits
  decide

end Gts9Wifi.Camera
