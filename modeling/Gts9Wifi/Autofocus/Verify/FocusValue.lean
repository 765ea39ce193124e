import Mathlib.Tactic.Linarith
import Mathlib.Tactic.NormNum
import Gts9Wifi.Autofocus.Verify.Luma

/-!
# The focus value of a packed frame

The contrast of a picture is that of its pixels: 8 by 6 blocks of 516 by 516 pixels, in each the mean
square of the step from a pixel to the next over every fourth row, and of these the mean of the 12
largest. `focus_value` counts its blocks in pixels but reads bytes. Of a row it reads the first 4128 of
5160 bytes, so that the last fifth of the picture does not count, and among them every fifth byte, with
the lower bits of four pixels, counts as a pixel. The blocks of bytes depend on these bits whatever the
picture is: with all of them 0, all 1 and all 3 such a byte is 0, 85 and 255, and the square of its step
to the next byte is strictly convex.
-/

namespace Gts9Wifi.Autofocus

open Driver

/-! ## The contrast of a picture -/

/-- The places of the blocks, row by row. -/
def grid : List (Nat × Nat) :=
  (List.range gh).flatMap fun gy => (List.range gw).map fun gx => (gx, gy)

/-- Every fourth row of a block, and the pixels of a row that have a next one in the block. -/
def blockRows (b : Nat × Nat) : Finset Nat :=
  {y ∈ Finset.Ico (b.2 * 516) (b.2 * 516 + 516) | 4 ∣ y - b.2 * 516}

def blockPairs (b : Nat × Nat) : Finset Nat :=
  Finset.Ico (b.1 * 516) (b.1 * 516 + 515)

/-- The mean square of the steps in a block. -/
def energy (px : Nat → Nat → Nat) (b : Nat × Nat) : Rat :=
  (∑ y ∈ blockRows b, ∑ x ∈ blockPairs b, ((px y (x + 1) : Rat) - px y x) ^ 2) / (129 * 515)

def contrast (px : Nat → Nat → Nat) : Rat :=
  largestSum 12 (grid.map (energy px)) / 12

/-- The focus value of a packed frame is the contrast of the picture. -/
def MatchesReference (img : Image) (unused : Frame) : Prop :=
  focusValue (pack img unused) = contrast (fun y x => high (img y x))

/-- No other lower bits and unused bytes make it another one. -/
def IgnoresLowBits (img : Image) (unused : Frame) : Prop :=
  ∀ img' unused', (∀ y x, high (img' y x) = high (img y x)) →
    focusValue (pack img' unused') = focusValue (pack img unused)

def Measures (img : Image) (unused : Frame) : Prop :=
  MatchesReference img unused ∧ IgnoresLowBits img unused

/-! ## The contrast of the bytes -/

/-- A row as `focus_value` reads it. -/
def byteAt (data : Frame) (y x : Nat) : Nat :=
  (data (y * stride + x)).toNat

theorem blockSum_eq (data : Frame) (b : Nat × Nat) :
    blockSum data (b.1 * 516) (b.2 * 516) 516 516
      = (∑ y ∈ blockRows b, ∑ x ∈ blockPairs b, ((byteAt data y (x + 1) : Int) - byteAt data y x) ^ 2,
        129 * 515) := by
  have hlen (lo : Nat) : (indices lo (lo + 516) 4).length = 129 := by
    simp only [indices, List.length_range']
    omega
  have hlen' (lo : Nat) : (indices lo (lo + 516 - 1) 1).length = 515 := by
    simp only [indices, List.length_range']
    omega
  rw [blockSum, foldl_foldl_sum (fun _ _ _ => rfl), sum_indices _ _ (by decide), hlen, hlen']
  simp only [sum_indices _ _ Nat.one_pos, one_dvd, Finset.filter_true, ← pow_two]
  rfl

theorem blockFv_eq (data : Frame) (b : Nat × Nat) :
    blockFv data (b.1 * 516) (b.2 * 516) 516 516 = energy (byteAt data) b := by
  rw [blockFv, blockSum_eq]
  simp only [energy]
  push_cast
  norm_num

/-- `focus_value` is the contrast of the bytes. -/
theorem focusValue_eq (data : Frame) : focusValue data = contrast (byteAt data) := by
  have hblocks : blocks data = grid.map (energy (byteAt data)) := by
    simp only [grid, List.map_flatMap, List.map_map]
    exact List.flatMap_congr fun gy _ => List.map_congr_left fun gx _ => blockFv_eq data (gx, gy)
  rw [focusValue, hblocks]
  rfl

/-- What the contrast depends on. -/
theorem contrast_congr {px px' : Nat → Nat → Nat} (h : ∀ y, ∀ x < width, px y x = px' y x) :
    contrast px = contrast px' := by
  have hgrid : ∀ b ∈ grid, energy px b = energy px' b := by
    intro b hb
    have hb1 : b.1 < 8 := by
      simp only [grid, List.mem_flatMap, List.mem_map, List.mem_range] at hb
      obtain ⟨gy, -, gx, hgx, rfl⟩ := hb
      exact hgx
    have hw : width = 8 * 516 := rfl
    unfold energy
    congr 1
    refine Finset.sum_congr rfl fun y _ => Finset.sum_congr rfl fun x hx => ?_
    have hx := Finset.mem_Ico.mp hx
    rw [h y x (by omega), h y (x + 1) (by omega)]
  rw [contrast, contrast, List.map_congr_left hgrid]

/-! ## The last fifth -/

/-- The columns from 3303 on stand in bytes that are not read. -/
theorem focusValue_congr {img img' : Image} (unused unused' : Frame)
    (h : ∀ y, ∀ x < 3303, img y x = img' y x) :
    focusValue (pack img unused) = focusValue (pack img' unused') := by
  rw [focusValue_eq, focusValue_eq]
  refine contrast_congr fun y x hx => ?_
  have hx : x < 4128 := hx
  have hv : x < valid := Nat.lt_trans hx (by decide)
  rw [byteAt, byteAt, pack_row img unused y hv, pack_row img' unused' y hv]
  split
  · rw [h y _ (by omega)]
  · unfold lowByte
    simp only [h y (x / 5 * 4 + 0) (by omega), h y (x / 5 * 4 + 1) (by omega),
      h y (x / 5 * 4 + 2) (by omega), h y (x / 5 * 4 + 3) (by omega)]

/-! ## The lower bits -/

/-- The picture with other lower bits, the same everywhere. -/
def withLow (l : Nat) (img : Image) : Image := fun y x => .ofNat 10 (high (img y x) * 4 + l)

section WithLow

variable {l : Nat} (hl : l < 4) (img : Image) (unused : Frame) (y x : Nat)
include hl

theorem high_withLow : high (withLow l img y x) = high (img y x) := by
  have := high_lt (img y x)
  simp only [high, withLow, BitVec.toNat_ofNat] at this ⊢
  omega

theorem low_withLow : low (withLow l img y x) = l := by
  have := high_lt (img y x)
  simp only [low, withLow, BitVec.toNat_ofNat] at this ⊢
  omega

theorem byteAt_withLow (hx : x < width) :
    byteAt (pack (withLow l img) unused) y x
      = if x % 5 < 4 then high (img y (x / 5 * 4 + x % 5)) else 85 * l := by
  have hv : x < valid := Nat.lt_trans hx (by decide)
  rw [byteAt, pack_row _ _ _ hv, high_withLow hl]
  simp only [lowByte, low_withLow hl]
  split
  · rfl
  · omega

end WithLow

/-! ## Convexity -/

/-- A row of bytes in which every fifth one is `85 * l`. -/
def mixed (px : Nat → Nat → Nat) (l y x : Nat) : Nat :=
  if x % 5 < 4 then px y x else 85 * l

def square (px : Nat → Nat → Nat) (l y x : Nat) : Rat :=
  ((mixed px l y (x + 1) : Rat) - mixed px l y x) ^ 2

section Convex

variable (px : Nat → Nat → Nat)

theorem square_lt (y : Nat) {x : Nat} (hx : x % 5 = 4) :
    3 * square px 1 y x < 2 * square px 0 y x + square px 3 y x := by
  have hx' : (x + 1) % 5 < 4 := by omega
  simp only [square, mixed, hx, hx', if_true]
  norm_num
  linarith

theorem square_le (y x : Nat) :
    3 * square px 1 y x ≤ 2 * square px 0 y x + square px 3 y x := by
  by_cases hx : x % 5 = 4
  · exact (square_lt px y hx).le
  · have hx4 : x % 5 < 4 := by omega
    by_cases hx' : (x + 1) % 5 < 4
    · simp only [square, mixed, hx4, hx', if_true]
      linarith
    · simp only [square, mixed, hx4, hx', if_true, if_false]
      push_cast
      nlinarith

/-- Every block has such a byte. -/
theorem energy_lt (b : Nat × Nat) :
    3 * energy (mixed px 1) b < 2 * energy (mixed px 0) b + energy (mixed px 3) b := by
  have hsum : ∑ y ∈ blockRows b, ∑ x ∈ blockPairs b, 3 * square px 1 y x
      < ∑ y ∈ blockRows b, ∑ x ∈ blockPairs b, (2 * square px 0 y x + square px 3 y x) := by
    apply Finset.sum_lt_sum
    · intro y _
      exact Finset.sum_le_sum fun x _ => square_le px y x
    · refine ⟨b.2 * 516, by simp [blockRows], ?_⟩
      apply Finset.sum_lt_sum
      · intro x _
        exact square_le px _ x
      · refine ⟨b.1 * 516 + (4 - b.1 * 516 % 5), ?_, square_lt px _ (by omega)⟩
        rw [blockPairs, Finset.mem_Ico]
        omega
  simp only [Finset.sum_add_distrib, ← Finset.mul_sum] at hsum
  simp only [energy]
  simp only [square] at hsum
  linarith

/-- The contrast cannot be the same for all lower bits. -/
theorem contrast_lt :
    3 * contrast (mixed px 1) < 2 * contrast (mixed px 0) + contrast (mixed px 3) := by
  obtain ⟨s, hs, hlen, hsum⟩ := exists_largestSum (energy (mixed px 1)) (k := 12) (l := grid) (by decide)
  have hle (l : Nat) : (s.map (energy (mixed px l))).sum ≤ largestSum 12 (grid.map (energy (mixed px l))) := by
    obtain ⟨t, ht, hsub⟩ := hs
    have hmap : (s.map (energy (mixed px l))).Subperm (grid.map (energy (mixed px l))) :=
      ⟨t.map _, ht.map _, hsub.map _⟩
    have := sum_le_largestSum hmap
    rwa [List.length_map, hlen] at this
  have hlt : (s.map fun b => 3 * energy (mixed px 1) b).sum
      < (s.map fun b => 2 * energy (mixed px 0) b + energy (mixed px 3) b).sum := by
    apply List.sum_lt_sum_of_ne_nil
    · rintro rfl
      simp at hlen
    · exact fun b _ => energy_lt px b
  rw [List.sum_map_add, List.sum_map_mul_left, List.sum_map_mul_left] at hlt
  have h0 := hle 0
  have h3 := hle 3
  simp only [contrast]
  linarith

end Convex

/-! ## The result -/

theorem focusValue_withLow {l : Nat} (hl : l < 4) (img : Image) (unused : Frame) :
    focusValue (pack (withLow l img) unused)
      = contrast (mixed (fun y x => high (img y (x / 5 * 4 + x % 5))) l) := by
  rw [focusValue_eq]
  exact contrast_congr fun y x hx => byteAt_withLow hl img unused y x hx

/-- Whatever the picture, some lower bits make its focus value another one than `v`. -/
theorem exists_focusValue_ne (img : Image) (unused : Frame) (v : Rat) :
    ∃ l < 4, focusValue (pack (withLow l img) unused) ≠ v := by
  by_contra hall
  have heq {l : Nat} (hl : l < 4) :
      contrast (mixed (fun y x => high (img y (x / 5 * 4 + x % 5))) l) = v := by
    rw [← focusValue_withLow hl img unused]
    by_contra hne
    exact hall ⟨l, hl, hne⟩
  have hlt := contrast_lt fun y x => high (img y (x / 5 * 4 + x % 5))
  rw [heq (by decide), heq (by decide), heq (by decide)] at hlt
  linarith

theorem not_ignoresLowBits (img : Image) (unused : Frame) : ¬IgnoresLowBits img unused := by
  intro hlow
  obtain ⟨l, hl, hne⟩ := exists_focusValue_ne img unused (focusValue (pack img unused))
  exact hne (hlow _ _ fun y x => high_withLow hl img y x)

/-- With the same upper bits and some lower ones, the focus value is not that of the reference. -/
theorem exists_not_matchesReference (img : Image) (unused : Frame) :
    ∃ img', (∀ y x, high (img' y x) = high (img y x)) ∧ ¬MatchesReference img' unused := by
  obtain ⟨l, hl, hne⟩ := exists_focusValue_ne img unused (contrast fun y x => high (img y x))
  have hhigh : (fun y x => high (withLow l img y x)) = fun y x => high (img y x) := by
    funext y x
    exact high_withLow hl img y x
  refine ⟨withLow l img, fun y x => high_withLow hl img y x, fun hmatch => hne ?_⟩
  rw [← hhigh]
  exact hmatch

/-- **The focus value of no frame measures the picture.** It never ignores the lower bits; with some of
them it is not the contrast of the picture, whatever the picture is; and the columns from 3303 on do not
count. -/
theorem never_measures (img : Image) (unused : Frame) :
    ¬Measures img unused ∧ ¬IgnoresLowBits img unused ∧
      (∃ img', (∀ y x, high (img' y x) = high (img y x)) ∧ ¬MatchesReference img' unused) ∧
      ∀ img' unused', (∀ y, ∀ x < 3303, img' y x = img y x) →
        focusValue (pack img' unused') = focusValue (pack img unused) :=
  ⟨fun h => not_ignoresLowBits img unused h.2, not_ignoresLowBits img unused,
    exists_not_matchesReference img unused,
    fun _ unused' h => focusValue_congr unused' unused h⟩

theorem energy_nonneg (px : Nat → Nat → Nat) (b : Nat × Nat) : 0 ≤ energy px b :=
  div_nonneg (Finset.sum_nonneg fun _ _ => Finset.sum_nonneg fun _ _ => sq_nonneg _) (by norm_num)

theorem contrast_dark : contrast (fun _ _ => 0) = 0 := by
  have henergy : energy (fun _ _ => 0) = fun _ => 0 := by
    funext b
    simp [energy]
  obtain ⟨s, -, -, hsum⟩ :=
    exists_largestSum (fun _ : Nat × Nat => (0 : Rat)) (k := 12) (l := grid) (by decide)
  rw [contrast, henergy, hsum]
  simp

/-- The first twelve blocks are not above the twelve largest. -/
theorem contrast_pos {px : Nat → Nat → Nat} {b : Nat × Nat} (hb : b ∈ grid.take 12)
    (h : 0 < energy px b) : 0 < contrast px := by
  have hle : ((grid.take 12).map (energy px)).sum ≤ largestSum 12 (grid.map (energy px)) :=
    sum_le_largestSum ((List.take_sublist 12 grid).map (energy px)).subperm
  have hsum : energy px b ≤ ((grid.take 12).map (energy px)).sum := by
    refine List.single_le_sum ?_ _ (List.mem_map_of_mem hb)
    rw [List.forall_mem_map]
    exact fun c _ => energy_nonneg px c
  exact div_pos (h.trans_le (hsum.trans hle)) (by norm_num)

/-- A dark picture with one bright line, in column 4000. -/
def line : Image := fun _ x => if x = 4000 then 1023 else 0

/-- The line is not seen. -/
theorem focusValue_line :
    focusValue (pack line fun _ => 0) = 0
      ∧ focusValue (pack line fun _ => 0) < contrast (fun y x => high (line y x)) := by
  have hdark : focusValue (pack line fun _ => 0) = 0 := by
    have hbyte : byteAt (pack (fun _ _ => 0) fun _ => 0) = fun _ _ => 0 := by
      funext y x
      simp [byteAt, pack, high, low]
    calc focusValue (pack line fun _ => 0)
        = focusValue (pack (fun _ _ => 0) fun _ => 0) :=
          focusValue_congr _ _ fun y x hx => if_neg (by omega)
      _ = 0 := by rw [focusValue_eq, hbyte, contrast_dark]
  refine ⟨hdark, hdark ▸ contrast_pos (b := (7, 0)) (by decide) (div_pos ?_ (by norm_num))⟩
  refine Finset.sum_pos' (fun y _ => Finset.sum_nonneg fun x _ => sq_nonneg _) ⟨0, by simp [blockRows], ?_⟩
  refine Finset.sum_pos' (fun x _ => sq_nonneg _) ⟨3999, by simp [blockPairs], ?_⟩
  simp [line, high]

end Gts9Wifi.Autofocus
