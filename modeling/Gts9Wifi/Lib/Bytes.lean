import Mathlib.Algebra.GroupWithZero.Nat
import Mathlib.Data.List.Basic

/-!
# Flat images of bytes

A file or a partition as the list of its bytes: reading a section, overwriting one in place, the
numbers inside, and the search for a pattern from the end. `slice_overwrite_of_disjoint` and
`slice_overwrite_within` are the two facts everything else about layouts rests on.
-/

namespace Driver

abbrev Bytes := List UInt8

/-! ## Sections -/

/-- `len` bytes at `off`, or as many as there are. -/
def slice (b : Bytes) (off len : Nat) : Bytes := (b.drop off).take len

/-- The image with `data` written at `off`. -/
def overwrite (b : Bytes) (off : Nat) (data : Bytes) : Bytes :=
  b.take off ++ data ++ b.drop (off + data.length)

theorem getElem?_slice (b : Bytes) (off len i : Nat) :
    (slice b off len)[i]? = if i < len then b[off + i]? else none := by
  unfold slice
  rw [List.getElem?_take, List.getElem?_drop]

theorem length_slice {b : Bytes} {off len : Nat} (h : off + len ≤ b.length) :
    (slice b off len).length = len := by
  unfold slice
  rw [List.length_take, List.length_drop]
  omega

/-- Two sections agree if they agree byte by byte. -/
theorem slice_eq_slice_iff {b b' : Bytes} {off off' len : Nat} :
    slice b off len = slice b' off' len ↔ ∀ i < len, b[off + i]? = b'[off' + i]? := by
  constructor
  · intro h i hi
    have hget := congrArg (fun l => l[i]?) h
    rwa [getElem?_slice, getElem?_slice, if_pos hi, if_pos hi] at hget
  · intro h
    apply List.ext_getElem?
    intro i
    rw [getElem?_slice, getElem?_slice]
    by_cases hi : i < len
    · rw [if_pos hi, if_pos hi, h i hi]
    · rw [if_neg hi, if_neg hi]

theorem slice_append_left {a b : Bytes} {off len : Nat} (h : off + len ≤ a.length) :
    slice (a ++ b) off len = slice a off len := by
  rw [slice_eq_slice_iff]
  intro i hi
  exact List.getElem?_append_left (by omega)

/-- The section behind `a`. -/
theorem slice_append_middle {a b c : Bytes} {off len : Nat} (ha : a.length = off)
    (hb : b.length = len) : slice (a ++ (b ++ c)) off len = b := by
  subst ha hb
  unfold slice
  rw [List.drop_left, List.take_left]

theorem length_overwrite {b : Bytes} {off : Nat} {data : Bytes} (h : off + data.length ≤ b.length) :
    (overwrite b off data).length = b.length := by
  unfold overwrite
  rw [List.length_append, List.length_append, List.length_take, List.length_drop]
  omega

theorem getElem?_overwrite {b : Bytes} {off : Nat} {data : Bytes}
    (h : off + data.length ≤ b.length) (i : Nat) :
    (overwrite b off data)[i]? =
      if i < off then b[i]? else if i < off + data.length then data[i - off]? else b[i]? := by
  unfold overwrite
  have hlen : (b.take off).length = off := by
    rw [List.length_take]
    omega
  by_cases hlow : i < off
  · rw [if_pos hlow, List.append_assoc, List.getElem?_append_left (by omega), List.getElem?_take,
      if_pos hlow]
  · rw [if_neg hlow, List.append_assoc, List.getElem?_append_right (by omega), hlen]
    by_cases hmid : i < off + data.length
    · rw [if_pos hmid, List.getElem?_append_left (by omega)]
    · rw [if_neg hmid, List.getElem?_append_right (by omega), List.getElem?_drop]
      congr 1
      omega

theorem slice_overwrite_of_disjoint {b : Bytes} {off : Nat} {data : Bytes}
    (h : off + data.length ≤ b.length) {off' len : Nat}
    (hd : off' + len ≤ off ∨ off + data.length ≤ off') :
    slice (overwrite b off data) off' len = slice b off' len := by
  rw [slice_eq_slice_iff]
  intro i hi
  rw [getElem?_overwrite h]
  by_cases hlow : off' + i < off
  · rw [if_pos hlow]
  · rw [if_neg hlow, if_neg (by omega)]

/-- A section of what was written. -/
theorem slice_overwrite_within {b : Bytes} {off : Nat} {data : Bytes}
    (h : off + data.length ≤ b.length) {k len : Nat} (hk : k + len ≤ data.length) :
    slice (overwrite b off data) (off + k) len = slice data k len := by
  rw [slice_eq_slice_iff]
  intro i hi
  rw [getElem?_overwrite h, if_neg (by omega), if_pos (by omega)]
  congr 1
  omega

theorem slice_overwrite_self {b : Bytes} {off : Nat} {data rest : Bytes}
    (h : off + (data ++ rest).length ≤ b.length) :
    slice (overwrite b off (data ++ rest)) off data.length = data := by
  have hle : 0 + data.length ≤ (data ++ rest).length := by
    rw [List.length_append]
    omega
  calc slice (overwrite b off (data ++ rest)) off data.length
      = slice (data ++ rest) 0 data.length := slice_overwrite_within h hle
    _ = data := List.take_left

theorem slice_overwrite_all {b : Bytes} {off : Nat} {data : Bytes}
    (h : off + data.length ≤ b.length) :
    slice (overwrite b off data) off data.length = data := by
  have hself : slice (overwrite b off (data ++ [])) off data.length = data :=
    slice_overwrite_self (by rwa [List.append_nil])
  rwa [List.append_nil] at hself

theorem slice_slice {b : Bytes} {off len off' len' : Nat} (h : off' + len' ≤ len) :
    slice (slice b off len) off' len' = slice b (off + off') len' := by
  rw [slice_eq_slice_iff]
  intro i hi
  rw [getElem?_slice, if_pos (by omega), Nat.add_assoc]

theorem slice_drop (b : Bytes) (off off' len : Nat) :
    slice (b.drop off) off' len = slice b (off + off') len := by
  unfold slice
  rw [List.drop_drop]

/-- What is written inside a section is written in the section. -/
theorem slice_overwrite_inside {b data : Bytes} {off len k : Nat}
    (h : k + data.length ≤ (slice b off len).length) :
    slice (overwrite b (off + k) data) off len = overwrite (slice b off len) k data := by
  have hlen : (slice b off len).length = min len (b.length - off) := by
    simp [slice]
  have hfits : off + k + data.length ≤ b.length ∨ data = [] := by
    cases data with
    | nil => exact .inr rfl
    | cons x data =>
      rw [List.length_cons] at h ⊢
      exact .inl (by omega)
  rcases hfits with hfits | rfl
  · apply List.ext_getElem?
    intro i
    rw [getElem?_slice, getElem?_overwrite hfits, getElem?_overwrite h, getElem?_slice]
    by_cases hi : i < len
    · rw [if_pos hi, if_pos hi]
      by_cases hlow : i < k
      · rw [if_pos (by omega), if_pos hlow]
      · rw [if_neg (by omega), if_neg hlow]
        by_cases hmid : i < k + data.length
        · rw [if_pos (by omega), if_pos hmid]
          congr 1
          omega
        · rw [if_neg (by omega), if_neg hmid]
    · rw [if_neg hi, if_neg hi, if_neg (by omega), if_neg (by omega)]
  · simp [overwrite]

/-- A section is the same behind `d` zeros precisely when it is all zeros itself. -/
theorem slice_zeros_append_eq_iff {b : Bytes} {d len : Nat} (hd : 0 < d) (hlen : len ≤ b.length) :
    slice (List.replicate d 0 ++ b) 0 len = slice b 0 len ↔ ∀ x ∈ slice b 0 len, x = 0 := by
  have hshift : ∀ i, (List.replicate d 0 ++ b)[i]? = if i < d then some 0 else b[i - d]? := by
    intro i
    by_cases hi : i < d
    · rw [if_pos hi, List.getElem?_append_left (by rw [List.length_replicate]; exact hi),
        List.getElem?_replicate_of_lt hi]
    · rw [if_neg hi, List.getElem?_append_right (by rw [List.length_replicate]; omega),
        List.length_replicate]
  have hall : (∀ x ∈ slice b 0 len, x = 0) ↔ ∀ i < len, b[i]? = some 0 := by
    constructor
    · intro h i hi
      have hb : i < b.length := by omega
      have hget : (slice b 0 len)[i]? = b[i]? := by
        rw [getElem?_slice, if_pos hi, Nat.zero_add]
      rw [List.getElem?_eq_getElem hb] at hget ⊢
      rw [h _ (List.mem_of_getElem? hget)]
    · intro h x hx
      obtain ⟨i, hi⟩ := List.mem_iff_getElem?.1 hx
      rw [getElem?_slice, Nat.zero_add] at hi
      split at hi
      · next hlt => exact (Option.some.inj ((h i hlt).symm.trans hi)).symm
      · cases hi
  rw [hall, slice_eq_slice_iff]
  simp only [Nat.zero_add, hshift]
  constructor
  · -- each byte equals the one `d` before it, and the first `d` are zero
    intro h i
    induction i using Nat.strongRecOn with
    | ind i ih =>
      intro hi
      rw [← h i hi]
      by_cases hid : i < d
      · rw [if_pos hid]
      · rw [if_neg hid, ih (i - d) (by omega) (by omega)]
  · intro h i hi
    rw [h i hi]
    by_cases hid : i < d
    · rw [if_pos hid]
    · rw [if_neg hid, h (i - d) (by omega)]

/-! ## Little-endian numbers -/

/-- The number whose little-endian digits are these bytes. -/
def leNat (b : Bytes) : Nat := b.foldr (fun x n => x.toNat + 256 * n) 0

/-- The little-endian 32-bit number at `off`. -/
def le32 (b : Bytes) (off : Nat) : Nat := leNat (slice b off 4)

def packLe32 (n : Nat) : Bytes :=
  [UInt8.ofNat n, UInt8.ofNat (n / 256), UInt8.ofNat (n / 65536), UInt8.ofNat (n / 16777216)]

theorem length_packLe32 (n : Nat) : (packLe32 n).length = 4 := rfl

theorem leNat_packLe32 {n : Nat} (h : n < 2 ^ 32) : leNat (packLe32 n) = n := by
  simp only [leNat, packLe32, List.foldr_cons, List.foldr_nil, UInt8.toNat_ofNat']
  omega

theorem le32_append_middle {a c : Bytes} {n off : Nat} (ha : a.length = off) (hn : n < 2 ^ 32) :
    le32 (a ++ (packLe32 n ++ c)) off = n := by
  unfold le32
  rw [slice_append_middle ha (length_packLe32 n), leNat_packLe32 hn]

/-! ## Big-endian numbers -/

/-- The big-endian 32-bit number at `off`. -/
def readBe32 (b : Bytes) (off : Nat) : Nat := leNat (slice b off 4).reverse

def packBe32 (n : Nat) : Bytes := (packLe32 n).reverse

theorem length_packBe32 (n : Nat) : (packBe32 n).length = 4 := rfl

/-- A number that was stored in place is read back. -/
theorem readBe32_overwrite {b : Bytes} {off n : Nat} (h : off + 4 ≤ b.length) (hn : n < 2 ^ 32) :
    readBe32 (overwrite b off (packBe32 n)) off = n := by
  have hself : slice (overwrite b off (packBe32 n)) off 4 = packBe32 n := slice_overwrite_all h
  rw [readBe32, hself, packBe32, List.reverse_reverse, leNat_packLe32 hn]

/-! ## Searching from the end -/

/-- `pat` stands at offset `i`. -/
def Stands (b pat : Bytes) (i : Nat) : Prop := slice b i pat.length = pat

instance (b pat : Bytes) (i : Nat) : Decidable (Stands b pat i) :=
  inferInstanceAs (Decidable (_ = _))

/-- The last of the first `n` offsets at which `pat` stands. -/
def rfindBelow (b pat : Bytes) : Nat → Option Nat
  | 0 => none
  | n + 1 => if Stands b pat n then some n else rfindBelow b pat n

/-- `b.rfind(pat, 0, stop)`, for a pattern that is not empty. -/
def rfind (b pat : Bytes) (stop : Nat) : Option Nat := rfindBelow b pat (stop + 1 - pat.length)

theorem Stands.le_length {b pat : Bytes} {i : Nat} (h : Stands b pat i) (hpos : pat ≠ []) :
    i + pat.length ≤ b.length := by
  have hlen := congrArg List.length h
  have hpat := List.length_pos_iff.2 hpos
  simp only [slice, List.length_take, List.length_drop] at hlen
  omega

theorem Stands.byte {b pat : Bytes} {i : Nat} (h : Stands b pat i) {k : Nat} (hk : k < pat.length) :
    b[i + k]? = pat[k]? := by
  have hget := congrArg (fun l => l[k]?) h
  simp only [getElem?_slice] at hget
  rwa [if_pos hk] at hget

theorem rfindBelow_eq_some_iff {b pat : Bytes} {n i : Nat} :
    rfindBelow b pat n = some i ↔ i < n ∧ Stands b pat i ∧ ∀ j, i < j → j < n → ¬ Stands b pat j := by
  induction n with
  | zero => simp [rfindBelow]
  | succ n ih =>
    unfold rfindBelow
    by_cases hn : Stands b pat n
    · rw [if_pos hn, Option.some.injEq]
      constructor
      · rintro rfl
        exact ⟨by omega, hn, fun j h1 h2 => by omega⟩
      · rintro ⟨hlt, -, hlast⟩
        by_contra hne
        exact hlast n (by omega) (by omega) hn
    · rw [if_neg hn, ih]
      constructor
      · rintro ⟨hlt, hi, hlast⟩
        refine ⟨by omega, hi, fun j h1 h2 => ?_⟩
        rcases Nat.lt_succ_iff_lt_or_eq.1 h2 with h2 | rfl
        · exact hlast j h1 h2
        · exact hn
      · rintro ⟨hlt, hi, hlast⟩
        have hne : i ≠ n := by
          rintro rfl
          exact hn hi
        exact ⟨by omega, hi, fun j h1 h2 => hlast j h1 (by omega)⟩

theorem rfindBelow_eq_none_iff {b pat : Bytes} {n : Nat} :
    rfindBelow b pat n = none ↔ ∀ j < n, ¬ Stands b pat j := by
  induction n with
  | zero => simp [rfindBelow]
  | succ n ih =>
    unfold rfindBelow
    by_cases hn : Stands b pat n
    · rw [if_pos hn]
      exact iff_of_false (fun h => nomatch h) fun h => h n (Nat.lt_succ_self n) hn
    · rw [if_neg hn, ih]
      constructor
      · intro h j hj
        rcases Nat.lt_succ_iff_lt_or_eq.1 hj with hj | rfl
        · exact h j hj
        · exact hn
      · exact fun h j hj => h j (by omega)

/-- The search finds the last place that ends by `stop`. -/
theorem rfind_eq_some_iff {b pat : Bytes} {stop i : Nat} :
    rfind b pat stop = some i ↔ i + pat.length ≤ stop ∧ Stands b pat i ∧
      ∀ j, i < j → j + pat.length ≤ stop → ¬ Stands b pat j := by
  unfold rfind
  rw [rfindBelow_eq_some_iff]
  constructor
  · rintro ⟨hlt, hi, hlast⟩
    exact ⟨by omega, hi, fun j h1 h2 => hlast j h1 (by omega)⟩
  · rintro ⟨hle, hi, hlast⟩
    exact ⟨by omega, hi, fun j h1 h2 => hlast j h1 (by omega)⟩

theorem rfind_eq_none_iff {b pat : Bytes} {stop : Nat} :
    rfind b pat stop = none ↔ ∀ j, j + pat.length ≤ stop → ¬ Stands b pat j := by
  unfold rfind
  rw [rfindBelow_eq_none_iff]
  constructor
  · exact fun h j hj => h j (by omega)
  · exact fun h j hj => h j (by omega)

/-- The next search begins further down. -/
theorem rfind_lt {b pat : Bytes} {stop i : Nat} (h : rfind b pat stop = some i) (hpos : pat ≠ []) :
    i < stop := by
  have hle := (rfind_eq_some_iff.1 h).1
  have hpat := List.length_pos_iff.2 hpos
  omega

end Driver
