import Mathlib.Data.List.Induction
import Mathlib.Data.Nat.ModEq
import Gts9Wifi.SecLog.SecLog

/-!
# The ring holds the end of the log

The index is a 32-bit number, so it wraps. Where the size of the ring does not divide `2 ^ 32`, the
write after that does not go on where the last one ended. What was written before is then out of
place until the ring is full again, so the ring holds the end of the log precisely when this has
happened, whatever the text is.
-/

namespace Gts9Wifi.SecLog

open Driver

/-! ## Vocabulary -/

/-- The whole text. -/
def concat (texts : List Text) : Bytes := texts.flatMap (·.bytes)

/-- Reading backwards from the index gives the end of the text, and `previous_index` is current. -/
def KeepsTail (log : SecLogHeader) (texts : List Text) : Prop :=
  ∃ log', texts.foldl write (some log) = some log' ∧
    (let k := min (concat texts).length log'.data.length
     (ringBackwards log'.data (log'.index.toNat % log'.data.length) k).reverse =
       ((concat texts).drop ((concat texts).length - k)).map some) ∧
    log'.previousIndex = log'.index

/-- By how much writes of these lengths move the index of a ring of size `n`. -/
def moved (n : Nat) (counts : List UInt32) : Nat := (counts.map fun c => min c.toNat n).sum

def totalCount (counts : List UInt32) : Nat := (counts.map UInt32.toNat).sum

/-- The index wraps with `count`, and no more after that. -/
structure LastWrap (n : Nat) (before : List UInt32) (count : UInt32) (after : List UInt32) : Prop where
  wraps : 2 ^ 32 ≤ moved n before % 2 ^ 32 + min count.toNat n
  clean : moved n (before ++ [count]) % 2 ^ 32 + moved n after < 2 ^ 32

/-- Wrapping does no harm, or a full ring was written since. And `previous_index` was written at all, or
is right anyway because the probe found the index at zero. -/
structure Refilled (n : Nat) (oldIndex : UInt32) (counts : List UInt32) : Prop where
  refilled : n ∣ 2 ^ 32 ∨ ∀ before count after, counts = before ++ count :: after →
    LastWrap n before count after → n ≤ totalCount after
  current : oldIndex = 0 ∨ ∃ c ∈ counts, c ≠ 0

/-! ## One write -/

section

variable {log : SecLogHeader} {t : Text}

theorem Text.toNat_count (t : Text) : t.count.toNat = t.bytes.length := by
  rw [Text.count, UInt32.toNat_ofNat', Nat.mod_eq_of_lt t.fits]

theorem Text.count_eq_zero_iff : t.count = 0 ↔ t.bytes = [] := by
  rw [← UInt32.toNat_inj, Text.toNat_count]
  exact List.length_eq_zero_iff

theorem write_of_count_eq_zero (h : t.count = 0) : log.write t = log := if_pos (.inl h)

variable (hsize : 0 < log.data.length)
include hsize

theorem write_of_count_ne_zero (h : t.count ≠ 0) :
    log.write t =
      { log with
        data := ringPut log.data (log.index.toNat % log.data.length)
          (t.bytes.drop (t.bytes.length - log.data.length))
        index := log.index + UInt32.ofNat (min t.bytes.length log.data.length)
        previousIndex := log.index + UInt32.ofNat (min t.bytes.length log.data.length) } := by
  have hcut : (t.bytes.drop (t.bytes.length - log.data.length)).length =
      min t.bytes.length log.data.length := by
    rw [List.length_drop]
    omega
  simp only [SecLogHeader.write, if_neg (not_or.2 ⟨h, Nat.ne_of_gt hsize⟩), hcut]

theorem write_data_length : (log.write t).data.length = log.data.length := by
  by_cases h : t.count = 0
  · rw [write_of_count_eq_zero h]
  · rw [write_of_count_ne_zero hsize h]
    exact length_ringPut (Nat.mod_lt _ hsize) (by rw [List.length_drop]; omega)

theorem write_index : (log.write t).index.toNat =
    (log.index.toNat + min t.count.toNat log.data.length) % 2 ^ 32 := by
  have hlt := log.index.toNat_lt
  by_cases h : t.count = 0
  · rw [write_of_count_eq_zero h, h]
    simp [Nat.mod_eq_of_lt hlt]
  · rw [write_of_count_ne_zero hsize h, Text.toNat_count, UInt32.toNat_add, UInt32.toNat_ofNat',
      Nat.add_mod_mod]

/-- What was held is held with the text behind it, unless the index wraps badly. -/
theorem write_holdsLast {text : Bytes} {k : Nat}
    (h : HoldsLast log.data log.index.toNat text k)
    (hwrap : log.data.length ∣ 2 ^ 32 ∨ log.index.toNat + min t.count.toNat log.data.length < 2 ^ 32) :
    HoldsLast (log.write t).data (log.write t).index.toNat (text ++ t.bytes) (k + t.bytes.length) := by
  have hmod : (log.index.toNat + min t.count.toNat log.data.length) % log.data.length =
      (log.write t).index.toNat % log.data.length := by
    rw [write_index hsize]
    rcases hwrap with hdvd | hlt
    · rw [Nat.mod_mod_of_dvd _ hdvd]
    · rw [Nat.mod_eq_of_lt hlt]
  by_cases hc : t.count = 0
  · rw [write_of_count_eq_zero hc, Text.count_eq_zero_iff.1 hc, List.append_nil]
    exact h
  · have hput : HoldsLast _ _ (text ++ t.bytes) _ := h.put_cut hsize
    have hdata : (log.write t).data = ringPut log.data (log.index.toNat % log.data.length)
        (t.bytes.drop (t.bytes.length - log.data.length)) := by
      rw [write_of_count_ne_zero hsize hc]
    rw [← hdata, ← Text.toNat_count] at hput
    rw [← Text.toNat_count]
    apply holdsLast_of_mod_eq hput
    rw [write_data_length hsize, hmod]

/-- A slot gets its byte from the text, or keeps it. -/
theorem write_slot {d : Nat} (hd : d < log.data.length) :
    (log.write t).data[(log.index.toNat + d) % log.data.length]? =
      if d < min t.bytes.length log.data.length then
        t.bytes[t.bytes.length - log.data.length + d]?
      else log.data[(log.index.toNat + d) % log.data.length]? := by
  have hcut : (t.bytes.drop (t.bytes.length - log.data.length)).length =
      min t.bytes.length log.data.length := by
    rw [List.length_drop]
    omega
  by_cases hc : t.count = 0
  · rw [write_of_count_eq_zero hc, Text.count_eq_zero_iff.1 hc]
    simp
  · rw [write_of_count_ne_zero hsize hc, getElem?_ringPut _ hsize (by omega) hd, hcut,
      List.getElem?_drop]

/-- A byte that is not in the text does not get into the ring. -/
theorem write_slot_ne {x : UInt8} {slot : Nat} (hslot : slot < log.data.length)
    (h : log.data[slot]? ≠ some x)
    (htext : ∀ d, (log.index.toNat + d) % log.data.length = slot → d < log.data.length →
      t.bytes[t.bytes.length - log.data.length + d]? ≠ some x) :
    (log.write t).data[slot]? ≠ some x := by
  obtain ⟨d, hd, rfl⟩ := exists_slot log.index.toNat hslot
  rw [write_slot hsize hd]
  split
  · exact htext d rfl hd
  · exact h

end

/-! ## All writes -/

/-- The log after these writes. -/
def SecLogHeader.writes (log : SecLogHeader) (texts : List Text) : SecLogHeader :=
  texts.foldl SecLogHeader.write log

theorem foldl_write (log : SecLogHeader) (texts : List Text) :
    texts.foldl write (some log) = some (log.writes texts) := by
  induction texts generalizing log with
  | nil => rfl
  | cons t texts ih => exact ih (log.write t)

theorem keepsTail_iff {log : SecLogHeader} {texts : List Text} :
    KeepsTail log texts ↔
      HoldsLast (log.writes texts).data (log.writes texts).index.toNat (concat texts)
        (concat texts).length ∧ (log.writes texts).previousIndex = (log.writes texts).index := by
  unfold KeepsTail
  simp only [foldl_write, Option.some.injEq, exists_eq_left', ringBackwards_eq_iff rfl]

theorem writes_append (log : SecLogHeader) (texts texts' : List Text) :
    log.writes (texts ++ texts') = (log.writes texts).writes texts' := List.foldl_append

@[simp] theorem moved_nil (n : Nat) : moved n [] = 0 := rfl

@[simp] theorem moved_cons (n : Nat) (c : UInt32) (counts : List UInt32) :
    moved n (c :: counts) = min c.toNat n + moved n counts := rfl

@[simp] theorem moved_append (n : Nat) (counts counts' : List UInt32) :
    moved n (counts ++ counts') = moved n counts + moved n counts' := by
  simp [moved]

/-- Where less than the ring is written, nothing is cut. -/
theorem moved_eq_totalCount {n : Nat} {counts : List UInt32} (h : totalCount counts ≤ n) :
    moved n counts = totalCount counts := by
  induction counts with
  | nil => rfl
  | cons c counts ih =>
    simp only [moved_cons, totalCount, List.map_cons, List.sum_cons] at ih h ⊢
    rw [ih (by omega)]
    omega

theorem concat_cons (t : Text) (texts : List Text) : concat (t :: texts) = t.bytes ++ concat texts :=
  List.flatMap_cons

theorem concat_append (texts texts' : List Text) :
    concat (texts ++ texts') = concat texts ++ concat texts' := List.flatMap_append

theorem length_concat (texts : List Text) :
    (concat texts).length = totalCount (texts.map Text.count) := by
  induction texts with
  | nil => rfl
  | cons t texts ih =>
    rw [concat_cons, List.length_append, ih, List.map_cons, ← Text.toNat_count]
    rfl

section

variable {n : Nat} {log : SecLogHeader} {texts : List Text} (hn : log.data.length = n) (hpos : 0 < n)
include hn hpos

theorem writes_data_length : (log.writes texts).data.length = n := by
  induction texts generalizing log with
  | nil => exact hn
  | cons t texts ih => exact ih ((write_data_length (by omega)).trans hn)

theorem writes_index : (log.writes texts).index.toNat =
    (log.index.toNat + moved n (texts.map Text.count)) % 2 ^ 32 := by
  induction texts generalizing log with
  | nil => exact (Nat.mod_eq_of_lt log.index.toNat_lt).symm
  | cons t texts ih =>
    have hwrite : (log.write t).index.toNat = _ := write_index (by omega)
    rw [SecLogHeader.writes, List.foldl_cons, ← SecLogHeader.writes,
      ih ((write_data_length (by omega)).trans hn), hwrite, hn, Nat.mod_add_mod, List.map_cons,
      moved_cons, Nat.add_assoc]

/-- Without a harmful wrap the whole text is added to what is held. -/
theorem writes_holdsLast {text : Bytes} {k : Nat} (h : HoldsLast log.data log.index.toNat text k)
    (hwrap : n ∣ 2 ^ 32 ∨ log.index.toNat + moved n (texts.map Text.count) < 2 ^ 32) :
    HoldsLast (log.writes texts).data (log.writes texts).index.toNat (text ++ concat texts)
      (k + (concat texts).length) := by
  induction texts generalizing log text k with
  | nil =>
    rw [concat, List.flatMap_nil, List.append_nil]
    exact h
  | cons t texts ih =>
    simp only [List.map_cons, moved_cons] at hwrap
    have hsize : 0 < log.data.length := by omega
    have hstep := write_holdsLast hsize (t := t) h (by rw [hn]; omega)
    have hrest := ih ((write_data_length hsize).trans hn) hstep (by
      rw [write_index hsize, hn]
      rcases hwrap with hdvd | hlt
      · exact .inl hdvd
      · rw [Nat.mod_eq_of_lt (by omega)]
        omega)
    rw [concat_cons, List.length_append, ← List.append_assoc, ← Nat.add_assoc]
    exact hrest

theorem writes_slot_ne {x : UInt8} {slot : Nat} (hslot : slot < n) (h : log.data[slot]? ≠ some x)
    (htexts : ∀ t ∈ texts, x ∉ t.bytes) : (log.writes texts).data[slot]? ≠ some x := by
  induction texts generalizing log with
  | nil => exact h
  | cons t texts ih =>
    have hsize : 0 < log.data.length := by omega
    refine ih ((write_data_length hsize).trans hn) ?_ fun t' ht' => htexts t' (List.mem_cons_of_mem _ ht')
    refine write_slot_ne hsize (by omega) h fun d _ _ hx => ?_
    exact htexts t List.mem_cons_self (List.mem_of_getElem? hx)

/-- `previous_index` is current as soon as something was written. -/
theorem writes_previousIndex :
    (log.writes texts).previousIndex = (log.writes texts).index ↔
      log.previousIndex = log.index ∨ ∃ c ∈ texts.map Text.count, c ≠ 0 := by
  induction texts generalizing log with
  | nil => simp [SecLogHeader.writes]
  | cons t texts ih =>
    have hsize : 0 < log.data.length := by omega
    rw [SecLogHeader.writes, List.foldl_cons, ← SecLogHeader.writes,
      ih ((write_data_length hsize).trans hn)]
    by_cases hc : t.count = 0
    · simp [write_of_count_eq_zero hc, hc]
    · simp [write_of_count_ne_zero hsize hc, hc]

end

/-! ## The last wrap -/

/-- The index never wraps, or there is a last time. -/
theorem exists_lastWrap (n : Nat) (counts : List UInt32) :
    moved n counts < 2 ^ 32 ∨ ∃ before count after, counts = before ++ count :: after ∧
      LastWrap n before count after := by
  induction counts using List.reverseRecOn with
  | nil => exact .inl (Nat.two_pow_pos 32)
  | append_singleton counts c ih =>
    by_cases hwrap : 2 ^ 32 ≤ moved n counts % 2 ^ 32 + min c.toNat n
    · refine .inr ⟨counts, c, [], rfl, hwrap, ?_⟩
      exact Nat.mod_lt _ (by decide)
    · rcases ih with hlt | ⟨before, count, after, rfl, hlast⟩
      · rw [Nat.mod_eq_of_lt hlt] at hwrap
        left
        simp only [moved_append, moved_cons, moved_nil]
        omega
      · refine .inr ⟨before, count, after ++ [c], by simp, hlast.wraps, ?_⟩
        have hclean := hlast.clean
        simp only [moved_append, moved_cons, moved_nil] at hwrap hclean ⊢
        omega

/-- A byte that is not found before the end is found at the end only. -/
theorem eq_last_of_getElem? {l : Bytes} {x : UInt8} {i : Nat} (hx : x ∉ l.dropLast)
    (h : l[i]? = some x) : i = l.length - 1 := by
  have hlt : i < l.length := (List.getElem?_eq_some_iff.1 h).1
  by_contra hne
  apply hx
  apply List.mem_of_getElem? (i := i)
  rw [List.getElem?_dropLast, if_pos (by omega), h]

/-- Counted from the end of the text, the last byte of `t` comes behind the texts after it. -/
theorem getElem?_reverse_concat (texts₁ texts₂ : List Text) {t : Text} (hlen : 0 < t.bytes.length) :
    (concat (texts₁ ++ t :: texts₂)).reverse[(concat texts₂).length]? = t.bytes.getLast? := by
  rw [concat_append, concat_cons, List.reverse_append, List.reverse_append, List.append_assoc,
    List.getElem?_append_right (by rw [List.length_reverse]), List.length_reverse, Nat.sub_self,
    List.getElem?_append_left (by rwa [List.length_reverse]), List.getElem?_reverse hlen, Nat.sub_zero,
    List.getLast?_eq_getElem?]

/-- The place behind a harmful wrap is not the place behind the text. -/
theorem dvd_of_mod_eq {n i : Nat} (hi : 2 ^ 32 ≤ i)
    (heq : (i - 1) % n = (i - 2 ^ 32 + (n - 1)) % n) (hpos : 0 < n) : n ∣ 2 ^ 32 := by
  have hnext : i - 2 ^ 32 + 2 ^ 32 ≡ i - 2 ^ 32 + n [MOD n] := by
    have hsucc : i - 1 + 1 ≡ i - 2 ^ 32 + (n - 1) + 1 [MOD n] := Nat.ModEq.add_right 1 heq
    rwa [show i - 1 + 1 = i - 2 ^ 32 + 2 ^ 32 by omega,
      show i - 2 ^ 32 + (n - 1) + 1 = i - 2 ^ 32 + n by omega] at hsucc
  have hzero : 2 ^ 32 ≡ 0 [MOD n] := hnext.add_left_cancel'.trans (by simp [Nat.ModEq])
  exact Nat.modEq_zero_iff_dvd.1 hzero

section

variable {n : Nat} {log : SecLogHeader} (hn : log.data.length = n) (hpos : 0 < n)
  (hstart : log.index.toNat = 0)
include hn hpos hstart

/-- A ring that was refilled since the last wrap holds the end of the text. -/
theorem holdsLast_of_refilled {texts : List Text}
    (h : n ∣ 2 ^ 32 ∨ ∀ before count after, texts.map Text.count = before ++ count :: after →
      LastWrap n before count after → n ≤ totalCount after) :
    HoldsLast (log.writes texts).data (log.writes texts).index.toNat (concat texts)
      (concat texts).length := by
  have hnothing : ∀ log : SecLogHeader, ∀ text, HoldsLast log.data log.index.toNat text 0 :=
    fun log text i hi => absurd hi (Nat.not_lt_zero i)
  have hall : n ∣ 2 ^ 32 ∨ moved n (texts.map Text.count) < 2 ^ 32 →
      HoldsLast (log.writes texts).data (log.writes texts).index.toNat (concat texts)
        (concat texts).length := by
    intro hwrap
    have hrun := writes_holdsLast hn hpos (hnothing log []) (by rwa [hstart, Nat.zero_add])
    rwa [List.nil_append, Nat.zero_add] at hrun
  rcases h with hdvd | hrefilled
  · exact hall (.inl hdvd)
  · rcases exists_lastWrap n (texts.map Text.count) with hlt | ⟨before, count, after, heq, hlast⟩
    · exact hall (.inr hlt)
    · -- only what was written after the last wrap counts, and it fills the ring
      have hfull := hrefilled before count after heq hlast
      obtain ⟨texts₁, texts', rfl, hbefore, hrest⟩ := List.map_eq_append_iff.1 heq
      obtain ⟨t, texts₂, rfl, hcount, hafter⟩ := List.map_eq_cons_iff.1 hrest
      have hdata : (log.writes (texts₁ ++ [t])).data.length = n := writes_data_length hn hpos
      have hclean : n ∣ 2 ^ 32 ∨ (log.writes (texts₁ ++ [t])).index.toNat +
          moved n (texts₂.map Text.count) < 2 ^ 32 := by
        right
        rw [writes_index hn hpos, hstart, Nat.zero_add, hafter, List.map_append, hbefore, List.map_cons,
          hcount]
        exact hlast.clean
      have hrun := writes_holdsLast hdata hpos (hnothing _ (concat (texts₁ ++ [t]))) hclean
      rw [← writes_append, ← concat_append, List.append_assoc, List.singleton_append] at hrun
      refine hrun.full ?_ _
      rwa [writes_data_length hn hpos, Nat.zero_add, length_concat, hafter]

/-- Behind a wrap the index counts what was written since. -/
theorem writes_index_of_lastWrap {texts₁ texts₂ : List Text} {t : Text}
    (hlast : LastWrap n (texts₁.map Text.count) t.count (texts₂.map Text.count))
    (hshort : (concat texts₂).length < n) :
    (log.writes (texts₁ ++ t :: texts₂)).index.toNat =
      moved n ((texts₁ ++ [t]).map Text.count) % 2 ^ 32 + (concat texts₂).length := by
  have hclean := hlast.clean
  rw [length_concat] at hshort ⊢
  have hafter := moved_eq_totalCount (Nat.le_of_lt hshort)
  rw [writes_index hn hpos, hstart]
  simp only [List.map_append, List.map_cons, List.map_nil, moved_append, moved_cons, moved_nil]
    at hclean ⊢
  omega

/-- Behind a harmful wrap the last byte before it is not in the slot that the index now gives it. -/
theorem writes_slot_ne_of_wrap {texts₁ texts₂ : List Text} {t : Text} {x : UInt8}
    (hdvd : ¬ n ∣ 2 ^ 32) (hwraps : 2 ^ 32 ≤ moved n (texts₁.map Text.count) % 2 ^ 32 + min t.count.toNat n)
    (hx₁ : ∀ t' ∈ texts₁, x ∉ t'.bytes) (hx : x ∉ t.bytes.dropLast) (hx₂ : ∀ t' ∈ texts₂, x ∉ t'.bytes)
    (hold : log.data[(moved n ((texts₁ ++ [t]).map Text.count) % 2 ^ 32 + (n - 1)) % n]? ≠ some x) :
    (log.writes (texts₁ ++ t :: texts₂)).data[
      (moved n ((texts₁ ++ [t]).map Text.count) % 2 ^ 32 + (n - 1)) % n]? ≠ some x := by
  have hdata : (log.writes texts₁).data.length = n := writes_data_length hn hpos
  have hdata' : ((log.writes texts₁).write t).data.length = n :=
    (write_data_length (by omega)).trans hdata
  have hwrapped : moved n ((texts₁ ++ [t]).map Text.count) % 2 ^ 32 =
      moved n (texts₁.map Text.count) % 2 ^ 32 + min t.count.toNat n - 2 ^ 32 := by
    have hlt := t.count.toNat_lt
    simp only [List.map_append, List.map_cons, List.map_nil, moved_append, moved_cons, moved_nil]
    omega
  rw [writes_append]
  refine writes_slot_ne hdata' hpos (Nat.mod_lt _ hpos) ?_ hx₂
  refine write_slot_ne (by omega) (by rw [hdata]; exact Nat.mod_lt _ hpos)
    (writes_slot_ne hn hpos (Nat.mod_lt _ hpos) hold hx₁) fun d hd hdn hbyte => ?_
  -- it could only come from the last byte of `t`, but that goes to another slot
  have hend := eq_last_of_getElem? hx hbyte
  have hcount := t.toNat_count
  rw [hdata] at hd hdn hend
  rw [writes_index hn hpos, hstart, Nat.zero_add] at hd
  refine hdvd (dvd_of_mod_eq hwraps ?_ hpos)
  rw [show moved n (texts₁.map Text.count) % 2 ^ 32 + min t.count.toNat n - 1 =
    moved n (texts₁.map Text.count) % 2 ^ 32 + d by omega, hd, hwrapped]

/-- After a harmful wrap the last byte before it is out of place: where it should be, a byte that is not
in the rest of the text is not found. -/
theorem not_holdsLast_of_wrap {texts₁ texts₂ : List Text} {t : Text} {x : UInt8}
    (hdvd : ¬ n ∣ 2 ^ 32)
    (hlast : LastWrap n (texts₁.map Text.count) t.count (texts₂.map Text.count))
    (hshort : (concat texts₂).length < n) (htail : t.bytes.getLast? = some x)
    (hx₁ : ∀ t' ∈ texts₁, x ∉ t'.bytes) (hx : x ∉ t.bytes.dropLast) (hx₂ : ∀ t' ∈ texts₂, x ∉ t'.bytes)
    (hold : log.data[(moved n ((texts₁ ++ [t]).map Text.count) % 2 ^ 32 + (n - 1)) % n]? ≠ some x) :
    ¬ HoldsLast (log.writes (texts₁ ++ t :: texts₂)).data
      (log.writes (texts₁ ++ t :: texts₂)).index.toNat (concat (texts₁ ++ t :: texts₂))
      (concat (texts₁ ++ t :: texts₂)).length := by
  have hlen : 0 < t.bytes.length := List.length_pos_of_mem (List.mem_of_getLast? htail)
  intro h
  apply writes_slot_ne_of_wrap hn hpos hstart hdvd hlast.wraps hx₁ hx hx₂ hold
  rw [← htail, ← getElem?_reverse_concat texts₁ texts₂ hlen,
    ← h (concat texts₂).length, writes_index_of_lastWrap hn hpos hstart hlast hshort,
    writes_data_length hn hpos]
  · congr 2
    omega
  · rw [concat_append, concat_cons, List.length_append, List.length_append]
    omega
  · rwa [writes_data_length hn hpos]

end

/-! ## The whole run -/

theorem probe_eq_ok_iff {r : ReservedMem} {allocated : Bool} {unmapped : Option Errno}
    {log : SecLogHeader} :
    probe (.reserved r) allocated unmapped = .ok log ↔
      headerSize < r.size ∧ allocated = true ∧ unmapped = none ∧ r.memory.start = log := by
  unfold probe
  by_cases hsize : r.size ≤ headerSize
  · simp [hsize, throw, throwThe, MonadExceptOf.throw]
  · cases allocated <;> cases unmapped <;>
      simp [hsize, Nat.lt_of_not_le hsize, throw, throwThe, MonadExceptOf.throw, pure, Except.pure]

/-- A text of one and the same byte. -/
def fill (m : UInt8) (count : UInt32) : Text :=
  ⟨List.replicate count.toNat m, by rw [List.length_replicate]; exact count.toNat_lt⟩

theorem count_fill (m : UInt8) (count : UInt32) : (fill m count).count = count := by
  rw [← UInt32.toNat_inj, Text.toNat_count]
  exact List.length_replicate

theorem map_count_fill (m : UInt8) (counts : List UInt32) :
    (counts.map (fill m)).map Text.count = counts := by
  induction counts with
  | nil => rfl
  | cons c counts ih => rw [List.map_cons, List.map_cons, ih, count_fill]

/-- The same with another byte at its end. -/
def fillMarked (m : UInt8) (count : UInt32) (x : UInt8) (h : 0 < count.toNat) : Text :=
  ⟨List.replicate (count.toNat - 1) m ++ [x], by
    have hlt := count.toNat_lt
    rw [List.length_append, List.length_replicate, List.length_singleton]
    omega⟩

theorem count_fillMarked {m : UInt8} {count : UInt32} {x : UInt8} (h : 0 < count.toNat) :
    (fillMarked m count x h).count = count := by
  rw [← UInt32.toNat_inj, Text.toNat_count]
  simp only [fillMarked, List.length_append, List.length_replicate, List.length_singleton]
  omega

theorem getLast?_fillMarked {m : UInt8} {count : UInt32} {x : UInt8} (h : 0 < count.toNat) :
    (fillMarked m count x h).bytes.getLast? = some x := List.getLast?_concat

theorem notMem_fill {m x : UInt8} (h : x ≠ m) (count : UInt32) : x ∉ (fill m count).bytes :=
  fun hmem => h (List.eq_of_mem_replicate hmem)

theorem notMem_dropLast_fillMarked {m : UInt8} {count : UInt32} {x : UInt8} (h : 0 < count.toNat)
    (hx : x ≠ m) : x ∉ (fillMarked m count x h).bytes.dropLast := by
  rw [fillMarked, List.dropLast_concat]
  exact fun hmem => hx (List.eq_of_mem_replicate hmem)

/-- Without a refill, some text is not held. -/
theorem exists_not_holdsLast {n : Nat} {log : SecLogHeader} (hn : log.data.length = n) (hpos : 0 < n)
    (hstart : log.index.toNat = 0) {before after : List UInt32} {count : UInt32} (hdvd : ¬ n ∣ 2 ^ 32)
    (hlast : LastWrap n before count after) (hshort : totalCount after < n) :
    ∃ texts : List Text, texts.map Text.count = before ++ count :: after ∧
      ¬ HoldsLast (log.writes texts).data (log.writes texts).index.toNat (concat texts)
        (concat texts).length := by
  have hcount : 0 < count.toNat := by
    have hwraps := hlast.wraps
    have hlt := Nat.mod_lt (moved n before) (Nat.two_pow_pos 32)
    omega
  -- the text is all `m`, the byte that stands where `m + 1` will be expected
  obtain ⟨m, hm⟩ : ∃ m, log.data[(moved n (before ++ [count]) % 2 ^ 32 + (n - 1)) % n]? = some m :=
    ⟨_, List.getElem?_eq_getElem (by rw [hn]; exact Nat.mod_lt _ hpos)⟩
  have hmx : m + 1 ≠ m := by simp
  refine ⟨before.map (fill m) ++ fillMarked m count (m + 1) hcount :: after.map (fill m), ?_, ?_⟩
  · rw [List.map_append, List.map_cons, map_count_fill, map_count_fill, count_fillMarked]
  · apply not_holdsLast_of_wrap hn hpos hstart (x := m + 1) hdvd
    · rwa [map_count_fill, map_count_fill, count_fillMarked]
    · rwa [length_concat, map_count_fill]
    · exact getLast?_fillMarked hcount
    · exact List.forall_mem_map.2 fun c _ => notMem_fill hmx c
    · exact notMem_dropLast_fillMarked hcount hmx
    · exact List.forall_mem_map.2 fun c _ => notMem_fill hmx c
    · rw [List.map_append, map_count_fill, List.map_cons, List.map_nil, count_fillMarked, hm]
      simp

/-- **The ring holds the end of the log, whatever its text, precisely when it was refilled since the
index wrapped.** -/
theorem keepsTail_iff_refilled {r : ReservedMem} {allocated : Bool} {unmapped : Option Errno}
    {log : SecLogHeader} (hprobe : probe (.reserved r) allocated unmapped = .ok log)
    (counts : List UInt32) :
    (∀ texts : List Text, texts.map Text.count = counts → KeepsTail log texts) ↔
      Refilled (r.size - headerSize) r.memory.index counts := by
  obtain ⟨hsize, -, -, rfl⟩ := probe_eq_ok_iff.1 hprobe
  have hn : r.memory.start.data.length = r.size - headerSize := r.covers
  have hpos : 0 < r.size - headerSize := Nat.sub_pos_of_lt hsize
  have hcurrent : ∀ texts : List Text,
      (r.memory.start.writes texts).previousIndex = (r.memory.start.writes texts).index ↔
        r.memory.index = 0 ∨ ∃ c ∈ texts.map Text.count, c ≠ 0 :=
    fun texts => writes_previousIndex hn hpos
  constructor
  · intro h
    constructor
    · by_contra hnot
      simp only [not_or, not_forall, Nat.not_le] at hnot
      obtain ⟨hdvd, before, count, after, rfl, hlast, hshort⟩ := hnot
      obtain ⟨texts, hcounts, hlost⟩ := exists_not_holdsLast hn hpos rfl hdvd hlast hshort
      exact hlost (keepsTail_iff.1 (h texts hcounts)).1
    · have hprev := (hcurrent _).1 (keepsTail_iff.1 (h _ (map_count_fill 0 counts))).2
      rwa [map_count_fill] at hprev
  · rintro ⟨hrefilled, hwritten⟩ texts rfl
    exact keepsTail_iff.2 ⟨holdsLast_of_refilled hn hpos rfl hrefilled, (hcurrent texts).2 hwritten⟩

/-- A reservation with zeros in it. -/
def zeroed (size : Nat) : ReservedMem :=
  ⟨size, ⟨0, 0, 0, 0, List.replicate (size - headerSize) 0⟩, List.length_replicate⟩

theorem keepsTail_zeroed : KeepsTail (zeroed 20).memory.start [fill 97 3, fill 98 7] := by
  have hprobe : probe (.reserved (zeroed 20)) true none = .ok (zeroed 20).memory.start := rfl
  refine (keepsTail_iff_refilled hprobe [3, 7]).2 ⟨.inl ?_, .inr ⟨3, ?_, ?_⟩⟩ _ rfl
  · decide
  · decide
  · decide

/-- On the device the ring has 2097136 bytes. Four million pieces of text with 1024 bytes each, `b` the
last byte of the last of them and `a` all others. -/
def longLog : List Text :=
  List.replicate 4194303 (fill 97 1024) ++ [fillMarked 97 1024 98 (by decide)]

theorem moved_replicate (n k : Nat) (c : UInt32) :
    moved n (List.replicate k c) = k * min c.toNat n := by
  simp [moved]

/-- The `b` is not the byte before the index. -/
theorem longLog_lost : ¬ KeepsTail (zeroed 2097152).memory.start longLog := by
  intro h
  have hcounts : (List.replicate 4194303 (fill 97 1024)).map Text.count = List.replicate 4194303 1024 := by
    rw [List.map_replicate, count_fill]
  have hmoved : moved 2097136 (List.replicate 4194303 1024) = 4194303 * 1024 := moved_replicate _ _ _
  refine not_holdsLast_of_wrap (n := 2097136) (x := 98) List.length_replicate (by decide) rfl (by decide)
    ⟨?_, ?_⟩ (by decide) (getLast?_fillMarked _) ?_ (notMem_dropLast_fillMarked _ (by decide)) ?_ ?_
    (keepsTail_iff.1 h).1
  · rw [hcounts, hmoved, count_fillMarked]
    decide
  · rw [hcounts, moved_append, hmoved, count_fillMarked]
    decide
  · intro t ht
    rw [List.eq_of_mem_replicate ht]
    exact notMem_fill (by decide) 1024
  · exact fun t ht => nomatch ht
  · intro hx
    exact absurd (List.eq_of_mem_replicate (List.mem_of_getElem? hx)) (by decide)

end Gts9Wifi.SecLog
