import Gts9Wifi.Charger.Verify.Sm5714

/-!
# The float voltage

The vendor's codes are not evenly spaced: four steps of 50 mV, two of 100 mV, then 58 of 10 mV.
`sm5714_batreg_offset` picks a piece by comparison and divides inside it. Between 3.70 V and 4.63 V
it is the upper adjoint of the table (`le_batregOffset_iff`), so that it never asks for more than it
was given, and no code it passes over would have done.
-/

namespace Gts9Wifi.Charger.Sm5714

open Driver

/-- The voltage a code of `CHGCNTL4[5:0]` stands for, in mV: 3.70-3.85 V in 50 mV steps, 3.90/4.00 V,
then 4.05-4.62 V in 10 mV steps. -/
def batregMvOf (code : Nat) : Nat :=
  if code ≤ 3 then 3700 + 50 * code
  else if code ≤ 5 then 3900 + 100 * (code - 4)
  else 4050 + 10 * (code - 6)

/-! ## The encoding -/

/-- The code as a number: none of the four quotients is cut by the width of a register. -/
theorem toNat_batregOffset (uv : Nat) : (batregOffset uv).toNat =
    if uv / 1000 ≤ 3700 then 0
    else if uv / 1000 < 3900 then (uv / 1000 - 3700) / 50
    else if uv / 1000 < 4050 then (uv / 1000 - 3900) / 100 + 4
    else if uv / 1000 < 4630 then (uv / 1000 - 4050) / 10 + 6
    else 21 := by
  simp only [batregOffset]
  split
  · rfl
  split
  · rw [BitVec.toNat_ofNat, Nat.mod_eq_of_lt (by omega)]
  split
  · rw [BitVec.toNat_ofNat, Nat.mod_eq_of_lt (by omega)]
  split
  · rw [BitVec.toNat_ofNat, Nat.mod_eq_of_lt (by omega)]
  · rfl

theorem batregOffset_lt (uv : Nat) : (batregOffset uv).toNat < 64 := by
  rw [toNat_batregOffset]
  split
  · omega
  split
  · omega
  split
  · omega
  split <;> omega

/-- The field holds the whole code. -/
theorem batregOffset_and_mask (uv : Nat) : batregOffset uv &&& batregMask = batregOffset uv := by
  have hlt := batregOffset_lt uv
  have hmask : batregMask.toNat = 2 ^ 6 - 1 := rfl
  apply BitVec.eq_of_toNat_eq
  rw [BitVec.toNat_and, hmask, Nat.and_two_pow_sub_one_eq_mod]
  omega

section Adjoint

variable {uv : Nat}

/-- A code is reached precisely by the voltages that are at least its own. -/
theorem le_batregOffset_iff {k : Nat} (hlo : 3700000 ≤ uv) (hhi : uv < 4630000) (hk : k < 64) :
    k ≤ (batregOffset uv).toNat ↔ batregMvOf k * 1000 ≤ uv := by
  -- the code only depends on the whole millivolts, and so does the comparison
  have hmv : batregMvOf k * 1000 ≤ uv ↔ batregMvOf k ≤ uv / 1000 := by omega
  rw [hmv, toNat_batregOffset, batregMvOf]
  have hlo' : 3700 ≤ uv / 1000 := by omega
  have hhi' : uv / 1000 < 4630 := by omega
  generalize uv / 1000 = mv at hlo' hhi'
  split
  · split
    · omega
    split <;> omega
  split
  · split
    · omega
    split <;> omega
  split
  · split
    · omega
    split <;> omega
  · split
    · omega
    split <;> omega

theorem batregMvOf_batregOffset_le (hlo : 3700000 ≤ uv) (hhi : uv < 4630000) :
    batregMvOf (batregOffset uv).toNat * 1000 ≤ uv :=
  (le_batregOffset_iff hlo hhi (batregOffset_lt uv)).1 (Nat.le_refl _)

theorem lt_batregMvOf {k : Nat} (hlo : 3700000 ≤ uv) (hhi : uv < 4630000) (hk : k < 64)
    (hlt : (batregOffset uv).toNat < k) : uv < batregMvOf k * 1000 := by
  rw [← Nat.not_le, ← le_batregOffset_iff hlo hhi hk]
  exact Nat.not_le.2 hlt

theorem batregOffset_mono {uv' : Nat} (hlo : 3700000 ≤ uv) (hle : uv ≤ uv') (hhi : uv' < 4630000) :
    (batregOffset uv).toNat ≤ (batregOffset uv').toNat := by
  rw [le_batregOffset_iff (by omega) hhi (batregOffset_lt uv)]
  calc batregMvOf (batregOffset uv).toNat * 1000 ≤ uv := batregMvOf_batregOffset_le hlo (by omega)
    _ ≤ uv' := hle

/-- Out of range, the default of the chip. -/
theorem batregMvOf_out_of_range (h : 4630000 ≤ uv) : batregMvOf (batregOffset uv).toNat = 4200 := by
  rw [toNat_batregOffset, if_neg (by omega), if_neg (by omega), if_neg (by omega), if_neg (by omega)]
  rfl

end Adjoint

/-! ## The register -/

/-- What `sm5714_set_float_voltage` can have done to the board when it returns `r`. -/
structure FloatSet (s : State) (r : Except Errno Unit) (s' : State) : Prop where
  only : s' = s.setChg .chgcntl4 (s'.chg .chgcntl4)
  rest : s'.chg .chgcntl4 &&& ~~~batregMask = s.chg .chgcntl4 &&& ~~~batregMask
  failed : ∀ e, r = .error e → s' = s
  field : r = .ok () → s.mem.bat.floatUv ≠ 0 →
    s'.chg .chgcntl4 &&& batregMask = batregOffset s.mem.bat.floatUv

theorem setFloatVoltage_floatSet {A : Event board → Prop} {m : Unit} {s : State} :
    wp A (Monitor.idle board) setFloatVoltage.run (fun r _ s' => FloatSet s r s') m s := by
  unfold setFloatVoltage
  apply wp_run_load_seq
  dsimp only
  split
  · next hzero =>
    exact ⟨(setChg_self s _).symm, rfl, fun _ h => (nomatch h), fun _ h => absurd hzero h⟩
  · refine wp_chgUpdateBits rfl (fun _ e => ?_) ?_
    · exact ⟨(setChg_self s _).symm, rfl, fun _ _ => rfl, fun h => nomatch h⟩
    · constructor
      · rw [setChg_chg, if_pos rfl]
      · rw [setChg_chg, if_pos rfl, maskedUpdate_and_not_mask]
      · exact fun _ h => nomatch h
      · intro _ _
        rw [setChg_chg, if_pos rfl, maskedUpdate_and_mask, batregOffset_and_mask]

/-- **The programmed float voltage is never above the one that was asked for.** The code fits its field
and, from 3.70 V to below 4.63 V, is the largest one whose voltage is not above the given one; above
that range it is the chip's 4.20 V. Whatever the bus does, `sm5714_set_float_voltage` leaves the other
bits of the register alone. -/
theorem floatVoltage_sound :
    (∀ uv, (batregOffset uv).toNat < 64) ∧
    (∀ uv, 3700000 ≤ uv → uv < 4630000 → batregMvOf (batregOffset uv).toNat * 1000 ≤ uv ∧
      ∀ k < 64, (batregOffset uv).toNat < k → uv < batregMvOf k * 1000) ∧
    (∀ uv uv', 3700000 ≤ uv → uv ≤ uv' → uv' < 4630000 →
      (batregOffset uv).toNat ≤ (batregOffset uv').toNat) ∧
    (∀ uv, 4630000 ≤ uv → batregMvOf (batregOffset uv).toNat = 4200) ∧
    ∀ (ι : Nat → Input) (s : State),
      FloatSet s (setFloatVoltage.run.run board ι s).1 (setFloatVoltage.run.run board ι s).2 := by
  refine ⟨batregOffset_lt, ?_, ?_, fun uv h => batregMvOf_out_of_range h, ?_⟩
  · intro uv hlo hhi
    exact ⟨batregMvOf_batregOffset_le hlo hhi, fun k hk hlt => lt_batregMvOf hlo hhi hk hlt⟩
  · intro uv uv' hlo hle hhi
    exact batregOffset_mono hlo hle hhi
  · intro ι s
    have hset := setFloatVoltage_floatSet (A := fun _ => True) (m := ()) (s := s)
    exact (wp_sound hset ι fun _ _ => trivial).2

end Gts9Wifi.Charger.Sm5714
