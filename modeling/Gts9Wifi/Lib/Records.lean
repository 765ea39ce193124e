import Gts9Wifi.Lib.Bytes

/-!
# Lists of padded records

A record is a number and a body. It is written as the number, the length of the body, the body, and
zeros up to a multiple of four. A strict reader goes on while more than a bare header is left, so it
returns every record but a last one without a body (`decodeRecords_encodeRecords`). Nothing else is
lost: two lists that are written the same are the same (`encodeRecords_inj`).
-/

namespace Driver

abbrev Record := UInt32 × Bytes

/-- `n` rounded up to a multiple of four. -/
def align4 (n : Nat) : Nat := (n + 3) / 4 * 4

def encodeRecord (r : Record) : Bytes :=
  packLe32 r.1.toNat ++ packLe32 r.2.length ++ r.2 ++ List.replicate (align4 r.2.length - r.2.length) 0

def encodeRecords : List Record → Bytes
  | [] => []
  | r :: l => encodeRecord r ++ encodeRecords l

/-- The strict reader. -/
def decodeRecords (buf : Bytes) : List Record :=
  if 8 < buf.length then
    (UInt32.ofNat (le32 buf 0), slice buf 8 (le32 buf 4)) ::
      decodeRecords (buf.drop (8 + align4 (le32 buf 4)))
  else []
termination_by buf.length
decreasing_by
  rw [List.length_drop]
  omega

/-- All records but a last one without a body. -/
def kept : List Record → List Record
  | [] => []
  | [r] => if r.2 = [] then [] else [r]
  | r :: r' :: l => r :: kept (r' :: l)

/-! ## One record -/

theorem le_align4 (n : Nat) : n ≤ align4 n := by
  unfold align4
  omega

theorem align4_eq_zero_iff {n : Nat} : align4 n = 0 ↔ n = 0 := by
  unfold align4
  omega

theorem length_encodeRecord (r : Record) : (encodeRecord r).length = 8 + align4 r.2.length := by
  have hle := le_align4 r.2.length
  simp only [encodeRecord, List.length_append, length_packLe32, List.length_replicate]
  omega

theorem toNat_lt (r : Record) : r.1.toNat < 2 ^ 32 := r.1.toNat_lt

section

variable {r : Record} {rest : Bytes}

theorem encodeRecord_append : encodeRecord r ++ rest = packLe32 r.1.toNat ++ (packLe32 r.2.length ++
    (r.2 ++ (List.replicate (align4 r.2.length - r.2.length) 0 ++ rest))) := by
  simp only [encodeRecord, List.append_assoc]

/-- The number, the length and the body are read back, whatever follows. -/
theorem le32_encodeRecord_zero : le32 (encodeRecord r ++ rest) 0 = r.1.toNat := by
  rw [encodeRecord_append]
  exact le32_append_middle (a := []) rfl (toNat_lt r)

variable (hr : r.2.length < 2 ^ 32)
include hr

theorem le32_encodeRecord_four : le32 (encodeRecord r ++ rest) 4 = r.2.length := by
  rw [encodeRecord_append]
  exact le32_append_middle rfl hr

theorem slice_encodeRecord :
    slice (encodeRecord r ++ rest) 8 (le32 (encodeRecord r ++ rest) 4) = r.2 := by
  rw [le32_encodeRecord_four hr, encodeRecord_append, ← List.append_assoc]
  exact slice_append_middle rfl rfl

theorem drop_encodeRecord :
    (encodeRecord r ++ rest).drop (8 + align4 (le32 (encodeRecord r ++ rest) 4)) = rest := by
  rw [le32_encodeRecord_four hr, ← length_encodeRecord]
  exact List.drop_left

theorem decodeRecords_encodeRecord (hlen : 8 < (encodeRecord r ++ rest).length) :
    decodeRecords (encodeRecord r ++ rest) = r :: decodeRecords rest := by
  rw [decodeRecords, if_pos hlen, le32_encodeRecord_zero, slice_encodeRecord hr,
    drop_encodeRecord hr, UInt32.ofNat_toNat]

end

/-! ## Lists of records -/

theorem encodeRecords_cons_ne_nil (r : Record) (l : List Record) : encodeRecords (r :: l) ≠ [] := by
  intro h
  have hlen := congrArg List.length h
  simp only [encodeRecords, List.length_append, length_encodeRecord, List.length_nil] at hlen
  omega

theorem encodeRecords_eq_nil_iff {l : List Record} : encodeRecords l = [] ↔ l = [] := by
  cases l with
  | nil => exact iff_of_true rfl rfl
  | cons r l => exact iff_of_false (encodeRecords_cons_ne_nil r l) (List.cons_ne_nil r l)

theorem length_encodeRecords_cons (r : Record) (l : List Record) :
    (encodeRecords (r :: l)).length = 8 + align4 r.2.length + (encodeRecords l).length := by
  rw [encodeRecords, List.length_append, length_encodeRecord]

/-- What is written of a record is part of what is written of the list. -/
theorem length_le_of_mem {l : List Record} {r : Record} (h : r ∈ l) :
    r.2.length ≤ (encodeRecords l).length := by
  induction l with
  | nil => exact nomatch h
  | cons r' l ih =>
    rw [length_encodeRecords_cons]
    rcases List.mem_cons.1 h with rfl | h
    · have hle := le_align4 r.2.length
      omega
    · have hle := ih h
      omega

theorem kept_eq_self_iff {l : List Record} : kept l = l ↔ ∀ r ∈ l.getLast?, r.2 ≠ [] := by
  induction l with
  | nil => simp [kept]
  | cons r l ih =>
    cases l with
    | nil => by_cases hr : r.2 = [] <;> simp [kept, hr]
    | cons r' l => simp [kept, ih, List.getLast?_cons_cons]

/-- The reader only loses a record, so what it returns tells whether it has. -/
theorem kept_eq_self_of_length {l : List Record} (h : (kept l).length = l.length) : kept l = l := by
  induction l with
  | nil => rfl
  | cons r l ih =>
    cases l with
    | nil =>
      by_cases hr : r.2 = []
      · simp [kept, hr] at h
      · simp [kept, hr]
    | cons r' l =>
      have htail : (kept (r' :: l)).length = (r' :: l).length := by simpa [kept] using h
      rw [kept, ih htail]

/-- **What a strict reader returns of a list of records.** -/
theorem decodeRecords_encodeRecords {l : List Record} (h : ∀ r ∈ l, r.2.length < 2 ^ 32) :
    decodeRecords (encodeRecords l) = kept l := by
  induction l with
  | nil =>
    rw [decodeRecords]
    rfl
  | cons r l ih =>
    have hr := h r List.mem_cons_self
    have hl := ih fun r' hr' => h r' (List.mem_cons_of_mem _ hr')
    have hlen := length_encodeRecords_cons r l
    cases l with
    | nil =>
      by_cases hempty : r.2 = []
      · -- a bare header is left
        have hshort : ¬ 8 < (encodeRecords [r]).length := by
          rw [hlen, hempty]
          decide
        rw [decodeRecords, if_neg hshort, kept, if_pos hempty]
      · have hpos : align4 r.2.length ≠ 0 := by
          rw [ne_eq, align4_eq_zero_iff, List.length_eq_zero_iff]
          exact hempty
        rw [encodeRecords, decodeRecords_encodeRecord hr (by rw [← encodeRecords]; omega), hl, kept,
          kept, if_neg hempty]
    | cons r' l =>
      have hmore := length_encodeRecords_cons r' l
      rw [encodeRecords, decodeRecords_encodeRecord hr (by rw [← encodeRecords]; omega), hl, kept]

theorem encodeRecord_append_inj {r r' : Record} {rest rest' : Bytes} (hr : r.2.length < 2 ^ 32)
    (hr' : r'.2.length < 2 ^ 32) (h : encodeRecord r ++ rest = encodeRecord r' ++ rest') :
    r = r' ∧ rest = rest' := by
  have hid : r.1.toNat = r'.1.toNat := by
    have hread : le32 (encodeRecord r ++ rest) 0 = r.1.toNat := le32_encodeRecord_zero
    rw [← hread, h, le32_encodeRecord_zero]
  have hbody : r.2 = r'.2 := by
    have hread : slice (encodeRecord r ++ rest) 8 (le32 (encodeRecord r ++ rest) 4) = r.2 :=
      slice_encodeRecord hr
    rw [← hread, h, slice_encodeRecord hr']
  have hrec : r = r' := Prod.ext (UInt32.toNat_inj.1 hid) hbody
  subst hrec
  exact ⟨rfl, List.append_cancel_left h⟩

/-- Lists that are written the same are the same. -/
theorem encodeRecords_inj {l l' : List Record} (h : ∀ r ∈ l, r.2.length < 2 ^ 32)
    (h' : ∀ r ∈ l', r.2.length < 2 ^ 32) (heq : encodeRecords l = encodeRecords l') : l = l' := by
  induction l generalizing l' with
  | nil => exact (encodeRecords_eq_nil_iff.1 heq.symm).symm
  | cons r l ih =>
    cases l' with
    | nil => exact absurd heq (encodeRecords_cons_ne_nil r l)
    | cons r' l' =>
      obtain ⟨rfl, hrest⟩ := encodeRecord_append_inj (h r List.mem_cons_self)
        (h' r' List.mem_cons_self) heq
      rw [ih (fun s hs => h s (List.mem_cons_of_mem _ hs))
        (fun s hs => h' s (List.mem_cons_of_mem _ hs)) hrest]

end Driver
