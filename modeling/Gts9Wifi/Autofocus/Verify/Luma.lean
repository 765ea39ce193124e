import Mathlib.Algebra.Order.BigOperators.Ring.Finset
import Mathlib.Order.Interval.Finset.Nat
import Gts9Wifi.Autofocus.Frame

/-!
# The brightness of a packed frame

A frame of 10-bit samples in the MIPI RAW10 format: four samples in five bytes, the upper eight bits of
each in a byte of its own, the lower two of all four in the fifth byte. `mean_luma` takes them for the
lower eight bits and the upper two. So a sample counts for its upper bits and 256 times its lower ones
instead of four times its upper bits and the lower ones, and a sum is right only if the errors in it
cancel.
-/

namespace Gts9Wifi.Autofocus

/-! ## Packed frames -/

/-- The samples by row and column. -/
abbrev Image := Nat → Nat → BitVec 10

def high (v : BitVec 10) : Nat := v.toNat / 4
def low (v : BitVec 10) : Nat := v.toNat % 4

/-- The frame of an image. The end of each row is not used. -/
def pack (img : Image) (unused : Frame) : Frame := fun a =>
  let y := a / stride
  let k := a % stride
  let px (j : Nat) := img y (k / 5 * 4 + j)
  if valid ≤ k then unused a
  else if k % 5 < 4 then .ofNat 8 (high (px (k % 5)))
  else .ofNat 8 (low (px 0) + low (px 1) * 4 + low (px 2) * 16 + low (px 3) * 64)

/-- What the sampled rows add up to. -/
def total (f : BitVec 10 → Nat) (img : Image) : Nat :=
  ∑ y ∈ Finset.range height with 24 ∣ y, ∑ x ∈ Finset.range width, f (img y x)

theorem high_lt (v : BitVec 10) : high v < 256 := by
  unfold high
  omega

theorem low_lt (v : BitVec 10) : low v < 4 := by
  unfold low
  omega

section Pack

variable (img : Image) (unused : Frame) (y : Nat)

/-- The fifth byte of a group. -/
def lowByte (px : Nat → BitVec 10) : Nat :=
  low (px 0) + low (px 1) * 4 + low (px 2) * 16 + low (px 3) * 64

theorem pack_row {k : Nat} (hk : k < valid) :
    (pack img unused (y * stride + k)).toNat
      = if k % 5 < 4 then high (img y (k / 5 * 4 + k % 5))
        else lowByte fun j => img y (k / 5 * 4 + j) := by
  have hs : k < stride := Nat.lt_trans hk (by decide)
  have hy : (y * stride + k) / stride = y := by
    rw [Nat.add_comm, Nat.add_mul_div_right _ _ (by decide), Nat.div_eq_of_lt hs, Nat.zero_add]
  have hm : (y * stride + k) % stride = k := by
    rw [Nat.add_comm, Nat.add_mul_mod_self_right, Nat.mod_eq_of_lt hs]
  simp only [pack, hy, hm, if_neg (Nat.not_le_of_lt hk)]
  split
  · exact Nat.mod_eq_of_lt (high_lt _)
  · have h (j : Nat) := low_lt (img y (k / 5 * 4 + j))
    have := h 0
    have := h 1
    have := h 2
    have := h 3
    exact Nat.mod_eq_of_lt (by omega)

variable {g : Nat} (hg : g < valid / 5)
include hg

theorem group_lt {i : Nat} (hi : i < 5) : g * 5 + i < valid := by
  have hv : valid = valid / 5 * 5 := rfl
  omega

theorem pack_high {j : Nat} (hj : j < 4) :
    (pack img unused (y * stride + g * 5 + j)).toNat = high (img y (g * 4 + j)) := by
  have hd : (g * 5 + j) / 5 = g := by omega
  have hm : (g * 5 + j) % 5 = j := by omega
  rw [Nat.add_assoc, pack_row img unused y (group_lt hg (by omega)), hd, hm, if_pos hj]

theorem pack_low :
    (pack img unused (y * stride + g * 5 + 4)).toNat = lowByte fun j => img y (g * 4 + j) := by
  have hd : (g * 5 + 4) / 5 = g := by omega
  have hm : (g * 5 + 4) % 5 = 4 := by omega
  rw [Nat.add_assoc, pack_row img unused y (group_lt hg (by omega)), hd, hm, if_neg (by decide)]

end Pack

/-! ## What a sample counts for -/

/-- A sample with its bits in the wrong place. -/
def misread (v : BitVec 10) : Nat := high v + 256 * low v

theorem lowBits : ∀ b < 256,
    (b &&& 0x03) <<< 8 = (b % 4) <<< 8 ∧ (b &&& 0x0c) <<< 6 = (b / 4 % 4) <<< 8
      ∧ (b &&& 0x30) <<< 4 = (b / 16 % 4) <<< 8 ∧ (b &&& 0xc0) <<< 2 = (b / 64) <<< 8 := by
  decide +kernel

theorem or_shift {m : Nat} (l : Nat) (h : m < 256) : m ||| l <<< 8 = m + 256 * l := by
  rw [Nat.or_comm, ← Nat.shiftLeft_add_eq_or_of_lt h, Nat.shiftLeft_eq]
  omega

theorem groupSum_eq {b : Nat → Nat} (px : Nat → BitVec 10) (hb : ∀ j < 4, b j = high (px j))
    (h4 : b 4 = lowByte px) :
    groupSum b = ∑ j ∈ Finset.range 4, misread (px j) := by
  have h (j : Nat) := low_lt (px j)
  have := h 0
  have := h 1
  have := h 2
  have := h 3
  obtain ⟨e0, e1, e2, e3⟩ := lowBits (b 4) (by unfold lowByte at h4; omega)
  have l0 : b 4 % 4 = low (px 0) := by unfold lowByte at h4; omega
  have l1 : b 4 / 4 % 4 = low (px 1) := by unfold lowByte at h4; omega
  have l2 : b 4 / 16 % 4 = low (px 2) := by unfold lowByte at h4; omega
  have l3 : b 4 / 64 = low (px 3) := by unfold lowByte at h4; omega
  rw [groupSum, e0, e1, e2, e3, l0, l1, l2, l3, hb 0 (by decide), hb 1 (by decide), hb 2 (by decide),
    hb 3 (by decide), or_shift _ (high_lt _), or_shift _ (high_lt _), or_shift _ (high_lt _),
    or_shift _ (high_lt _)]
  simp [Finset.sum_range_succ, misread]

/-! ## The loops -/

/-- A loop that adds to a sum and a count. -/
theorem foldl_sum {α M : Type*} [AddCommMonoid M] {step : M × Nat → α → M × Nat} {f : α → M} {c : α → Nat}
    (h : ∀ acc a, step acc a = (acc.1 + f a, acc.2 + c a)) (l : List α) (acc : M × Nat) :
    l.foldl step acc = (acc.1 + (l.map f).sum, acc.2 + (l.map c).sum) := by
  induction l generalizing acc with
  | nil => simp
  | cons a l ih => simp [ih, h, add_assoc]

/-- Two nested loops that count `c` each time. -/
theorem foldl_foldl_sum {α β M : Type*} [AddCommMonoid M] {step : α → M × Nat → β → M × Nat}
    {f : α → β → M} {c : Nat} (h : ∀ a acc b, step a acc b = (acc.1 + f a b, acc.2 + c)) (l : List α)
    (m : List β) :
    l.foldl (fun acc a => m.foldl (step a) acc) (0, 0)
      = ((l.map fun a => (m.map (f a)).sum).sum, l.length * (m.length * c)) := by
  rw [foldl_sum fun acc a => foldl_sum (h a) m acc]
  simp

theorem mem_indices {lo hi step i : Nat} (hs : 0 < step) :
    i ∈ indices lo hi step ↔ ∃ k, i = lo + step * k ∧ i < hi := by
  simp only [indices, List.mem_range']
  constructor
  · rintro ⟨k, hk, rfl⟩
    refine ⟨k, rfl, ?_⟩
    have := (Nat.lt_div_iff_mul_lt hs).mp hk
    rw [Nat.mul_comm] at this
    omega
  · rintro ⟨k, rfl, hk⟩
    refine ⟨k, (Nat.lt_div_iff_mul_lt hs).mpr ?_, rfl⟩
    rw [Nat.mul_comm]
    omega

theorem sum_indices {M : Type*} [AddCommMonoid M] (lo hi : Nat) {step : Nat} (hs : 0 < step) (f : Nat → M) :
    ((indices lo hi step).map f).sum = ∑ i ∈ Finset.Ico lo hi with step ∣ i - lo, f i := by
  have hnd : (indices lo hi step).Nodup := List.nodup_range' step hs
  rw [← List.sum_toFinset f hnd]
  congr 1
  ext i
  rw [List.mem_toFinset, mem_indices hs, Finset.mem_filter, Finset.mem_Ico]
  constructor
  · rintro ⟨k, rfl, hk⟩
    exact ⟨⟨by omega, hk⟩, k, by omega⟩
  · rintro ⟨⟨hlo, hhi⟩, k, hk⟩
    exact ⟨k, by omega, hhi⟩

theorem sum_range_groups {M : Type*} [AddCommMonoid M] (n : Nat) (f : Nat → M) :
    ∑ g ∈ Finset.range n, ∑ j ∈ Finset.range 4, f (g * 4 + j) = ∑ x ∈ Finset.range (n * 4), f x := by
  induction n with
  | zero => simp
  | succ n ih => rw [Finset.sum_range_succ, ih, Nat.succ_mul, Finset.sum_range_add]

theorem lumaSum_pack (img : Image) (unused : Frame) :
    (lumaSum (pack img unused)).1 = total misread img := by
  have hgroup (y g : Nat) (hg : g < valid / 5) :
      groupSum (fun i => (pack img unused (y * stride + g * 5 + i)).toNat)
        = ∑ j ∈ Finset.range 4, misread (img y (g * 4 + j)) :=
    groupSum_eq (fun j => img y (g * 4 + j)) (fun j hj => pack_high img unused y hg hj)
      (pack_low img unused y hg)
  have hrow (y : Nat) :
      ((indices 0 (valid / 5) 1).map fun g =>
        groupSum fun i => (pack img unused (y * stride + g * 5 + i)).toNat).sum
        = ∑ x ∈ Finset.range width, misread (img y x) := by
    rw [sum_indices 0 _ (by decide), show width = valid / 5 * 4 from rfl, ← sum_range_groups]
    simp only [one_dvd, Finset.filter_true, Nat.Ico_zero_eq_range]
    exact Finset.sum_congr rfl fun g hg => hgroup y g (Finset.mem_range.mp hg)
  rw [lumaSum, foldl_foldl_sum (fun _ _ _ => rfl), sum_indices 0 _ (by decide)]
  simp only [hrow, Nat.Ico_zero_eq_range, Nat.sub_zero]
  rfl

/-! ## The result -/

theorem total_add (f g : BitVec 10 → Nat) (img : Image) :
    total (fun v => f v + g v) img = total f img + total g img := by
  simp only [total, Finset.sum_add_distrib]

theorem total_mul (a : Nat) (f : BitVec 10 → Nat) (img : Image) :
    total (fun v => a * f v) img = a * total f img := by
  simp only [total, Finset.mul_sum]

/-- **The sum is that of the samples if and only if the upper bits of the sampled rows add up to 85 times
their lower bits.** -/
theorem lumaSum_exact_iff (img : Image) (unused : Frame) :
    (lumaSum (pack img unused)).1 = total BitVec.toNat img ↔ total high img = 85 * total low img := by
  have hcode : total misread img = total high img + 256 * total low img := by
    rw [← total_mul, ← total_add]
    rfl
  have hv : BitVec.toNat = fun v : BitVec 10 => 4 * high v + low v := by
    funext v
    exact (Nat.div_add_mod v.toNat 4).symm
  have hsample : total BitVec.toNat img = 4 * total high img + total low img := by
    rw [← total_mul, ← total_add, hv]
  rw [lumaSum_pack, hcode, hsample]
  generalize total high img = h
  generalize total low img = l
  omega

/-- A frame in which every sample is 4: each of them counts for 1. -/
theorem lumaSum_four :
    (lumaSum (pack (fun _ _ => 4) fun _ => 0)).1 ≠ total BitVec.toNat fun _ _ => 4 := by
  rw [lumaSum_pack]
  apply Nat.ne_of_lt
  refine Finset.sum_lt_sum_of_nonempty ⟨0, by simp [height]⟩ fun y _ => ?_
  refine Finset.sum_lt_sum_of_nonempty ⟨0, by simp [width]⟩ fun x _ => ?_
  show misread 4 < (4 : BitVec 10).toNat
  decide

end Gts9Wifi.Autofocus
