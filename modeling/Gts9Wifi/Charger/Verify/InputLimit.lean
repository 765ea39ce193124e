import Gts9Wifi.Charger.Verify.Sm5714

/-!
# The programmed currents and the contract

The two current encoders round down, so a register never decodes to more than the current it was
computed from. A contract of at least 500 mA is an upper bound of the input limit; a smaller one is
ignored, and the MUIC classification decides instead, with at least 500 mA.
-/

namespace Gts9Wifi.Charger.Sm5714

open Driver

/-- The input limit a `VBUSCNTL` code stands for, in mA. -/
def inputMaOf (reg : BitVec 8) : Nat := 100 + 25 * reg.toNat

/-- The fast-charge current a `CHGCNTL2` code stands for, in uA. -/
def fastUaOf (reg : BitVec 8) : Nat := 109375 + 15625 * (reg.toNat - 7)

/-- The limit is written in steps of 25 mA. -/
theorem inputMaOf_reg {ma : Nat} (h : 100 ≤ ma) (h' : ma ≤ 3000) :
    inputMaOf (inputCurrentReg ma) = 100 + 25 * ((ma - 100) / 25) := by
  unfold inputMaOf inputCurrentReg
  have hmod : (ma + 2 ^ 32 - 100) % 2 ^ 32 = ma - 100 := by omega
  have hlt : min ((ma - 100) / 25) 0x7f < 2 ^ 8 := by omega
  rw [hmod, BitVec.toNat_ofNat, Nat.mod_eq_of_lt hlt]
  omega

theorem inputMaOf_reg_le {ma : Nat} (h : 100 ≤ ma) (h' : ma ≤ 3000) :
    inputMaOf (inputCurrentReg ma) ≤ ma := by
  rw [inputMaOf_reg h h']
  omega

theorem inputMaOf_reg_ge {ma : Nat} (h : 500 ≤ ma) (h' : ma ≤ 3000) :
    500 ≤ inputMaOf (inputCurrentReg ma) := by
  rw [inputMaOf_reg (by omega) h']
  omega

theorem fastUaOf_reg_le {ma : Nat} (h : 110 ≤ ma) (h' : ma ≤ 3150) :
    fastUaOf (fastCurrentReg ma) ≤ ma * 1000 := by
  unfold fastUaOf fastCurrentReg
  have hmod : ma * 1000 % 2 ^ 32 = ma * 1000 := by omega
  have hlt : min (max (7 + (ma * 1000 - 109375) / 15625) 0x07) 0xe0 < 2 ^ 8 := by omega
  rw [hmod, if_neg (by omega), BitVec.toNat_ofNat, Nat.mod_eq_of_lt hlt]
  omega

/-! ## What is decided -/

section Decided

variable (mv ma : Nat) (usbType : UsbType) (fast : Bool) (thermal : ThermalState)

theorem fastMa_bounds :
    110 ≤ (chargeCurrents mv ma usbType fast thermal).2 ∧
      (chargeCurrents mv ma usbType fast thermal).2 ≤ 3150 ∧
      (fast = false → (chargeCurrents mv ma usbType fast thermal).2 ≤ 2800) ∧
      (thermal = .reduced → (chargeCurrents mv ma usbType fast thermal).2 ≤ 2100) := by
  unfold chargeCurrents
  cases fast <;> cases usbType <;> cases thermal <;>
    simp only [reduceCtorEq, ↓reduceIte, Bool.false_eq_true] <;> split <;> simp

variable {mv ma}

/-- A contract of 500 mA or more bounds the input current, which stays in the encoder's range. -/
theorem inputMa_of_contract (hmv : 5000 ≤ mv) (hma : 500 ≤ ma) :
    (chargeCurrents mv ma usbType fast thermal).1 ≤ ma ∧
      500 ≤ (chargeCurrents mv ma usbType fast thermal).1 ∧
      (chargeCurrents mv ma usbType fast thermal).1 ≤ 3000 := by
  unfold chargeCurrents
  simp only [ge_iff_le, hmv, hma, and_self, ↓reduceIte]
  cases fast
  · simp only [Bool.false_eq_true, ↓reduceIte]
    split <;> omega
  · simp only [↓reduceIte]
    omega

variable (mv) in
/-- A smaller contract is ignored. -/
theorem inputMa_of_small (hma : ma < 500) :
    500 ≤ (chargeCurrents mv ma usbType fast thermal).1 ∧
      (chargeCurrents mv ma usbType fast thermal).1 ≤ 3000 := by
  unfold chargeCurrents
  rw [if_neg (by omega)]
  cases usbType <;> simp

end Decided

/-! ## The programmed limits -/

/-- The charger is programmed within the contract `ma` and the thermal band. -/
structure WithinContract (ma : Nat) (s : State) : Prop where
  input : inputMaOf (s.chg .vbuscntl) ≤ ma
  fast : fastUaOf (s.chg .chgcntl2) ≤ 3150000
  stock : s.mem.bat.fastCharge = false → fastUaOf (s.chg .chgcntl2) ≤ 2800000
  reduced : s.mem.bat.thermalState = .reduced → fastUaOf (s.chg .chgcntl2) ≤ 2100000

/-- What `Configured` says about the two limits, once the thermal state is not `STOP`. -/
theorem Configured.limits_of_ne_stop {s s' : State} {l : List Int} (hc : Configured s s' l)
    (hstop : s'.mem.bat.thermalState ≠ .stop) :
    s'.mem.bat.fastCharge = s.mem.bat.fastCharge ∧ ∃ usbType,
      s'.chg .vbuscntl = inputCurrentReg (chargeCurrents s.mem.bat.typecMv s.mem.bat.typecMa usbType
        s.mem.bat.fastCharge s'.mem.bat.thermalState).1 ∧
      s'.chg .chgcntl2 = fastCurrentReg (chargeCurrents s.mem.bat.typecMv s.mem.bat.typecMa usbType
        s.mem.bat.fastCharge s'.mem.bat.thermalState).2 := by
  have hth : thermalAfter l s.mem.bat.thermalState = s'.mem.bat.thermalState := by
    rw [hc.mem]
    rfl
  refine ⟨by rw [hc.mem]; rfl, ?_⟩
  rw [← hth] at hstop ⊢
  exact hc.limits hstop

/-- **A successful `sm5714_configure_charging` under an accepted contract respects it precisely when
the contract grants at least 500 mA**, whatever the MUIC, the thermal state and the setting. -/
theorem configureCharging_within_contract_iff {mv ma : Nat} (hacc : contractInRange mv ma = true)
    (hmv : 0 < mv) (s : State) (hs : s.mem.bat.typecMv = mv)
    (hs' : s.mem.bat.typecMa = ma) (ι : Nat → Input)
    (hret : (configureCharging.run.run board ι s).1 = .ok ())
    (hstop : (configureCharging.run.run board ι s).2.mem.bat.thermalState ≠ .stop) :
    WithinContract ma (configureCharging.run.run board ι s).2 ↔ 500 ≤ ma := by
  have hspec := (wp_sound (configureCharging_spec (A := fun _ => True) (m := []) (s := s)) ι
    fun _ _ => trivial).2
  rw [hret] at hspec
  obtain ⟨l, -, hc⟩ := hspec
  generalize (configureCharging.run.run board ι s).2 = s' at hstop hc
  obtain ⟨hfc, usbType, hin, hfast⟩ := hc.limits_of_ne_stop hstop
  rw [hs, hs'] at hin hfast
  obtain ⟨h1, h2, h3, h4⟩ :=
    fastMa_bounds mv ma usbType s.mem.bat.fastCharge s'.mem.bat.thermalState
  have hua := fastUaOf_reg_le h1 h2
  simp only [contractInRange, Bool.not_or, Bool.and_eq_true, Bool.not_eq_true',
    decide_eq_false_iff_not] at hacc
  constructor
  · intro hw
    by_contra hlt
    have hsmall := inputMa_of_small mv usbType s.mem.bat.fastCharge s'.mem.bat.thermalState
      (Nat.lt_of_not_le hlt)
    have h500 := inputMaOf_reg_ge hsmall.1 hsmall.2
    rw [← hin] at h500
    exact hlt (Nat.le_trans h500 hw.input)
  · intro h500
    obtain ⟨hle, hge, hmax⟩ := inputMa_of_contract usbType s.mem.bat.fastCharge
      s'.mem.bat.thermalState (by omega : 5000 ≤ mv) h500
    refine ⟨?_, ?_, fun hf => ?_, fun hr => ?_⟩
    · rw [hin]
      exact Nat.le_trans (inputMaOf_reg_le (by omega) hmax) hle
    · rw [hfast]
      omega
    · rw [hfast]
      have := h3 (hfc ▸ hf)
      omega
    · rw [hfast]
      have := h4 hr
      omega

/-- A cable in, a dedicated charger on the MUIC, 25.0 C. -/
def pluggedDcp : Nat → Input :=
  inputs [{}, {}, { byte := 0x01 }, {}, { byte := 0x04 }, {}, {}, { val := 25000 }]

/-- The probed board under a contract of `mv`, `ma`. -/
def contracted (mv ma : Nat) : State := State.probed.setMem (Battery.setTypec mv ma)

theorem configureCharging_within_contract_1500 :
    WithinContract 1500 (configureCharging.run.run board pluggedDcp (contracted 5000 1500)).2 :=
  (configureCharging_within_contract_iff (rfl : contractInRange 5000 1500 = true) (by decide)
    (contracted 5000 1500) rfl rfl pluggedDcp rfl (by decide)).2 (by decide)

/-- An accepted contract of 400 mA, under which a dedicated charger is loaded with 1.8 A. -/
theorem small_contract_exceeded :
    contractInRange 5000 400 = true ∧
      (configureCharging.run.run board pluggedDcp (contracted 5000 400)).1 = .ok () ∧
      (configureCharging.run.run board pluggedDcp (contracted 5000 400)).2.mem.bat.thermalState ≠
        .stop ∧
      ¬ WithinContract 400 (configureCharging.run.run board pluggedDcp (contracted 5000 400)).2 := by
  refine ⟨rfl, rfl, by decide, fun h => ?_⟩
  have hinput : 1800 ≤ 400 := h.input
  exact absurd hinput (by decide)

end Gts9Wifi.Charger.Sm5714
