import Gts9Wifi.Lib.Bytes

/-!
# A ring of bytes

Text is written round a buffer of fixed size at an index that only grows, reduced modulo the size. The
slot `d` behind an index is `(index + d) % n`, so a write moves its text to the slots behind the index
(`getElem?_ringPut`), and the last bytes of everything that was written stand before it
(`HoldsLast.put`). All that matters of an index is its remainder.
-/

namespace Driver

/-- `text`, which is no longer than the ring, from `pos` on and round to the start. -/
def ringPut (ring : Bytes) (pos : Nat) (text : Bytes) : Bytes :=
  let first := min text.length (ring.length - pos)
  let ring := overwrite ring pos (text.take first)
  if first ≠ text.length then overwrite ring 0 (text.drop first) else ring

/-- The `k` bytes before `pos`, read backwards. -/
def ringBackwards (ring : Bytes) (pos k : Nat) : List (Option UInt8) :=
  (List.range k).map fun i => ring[(pos + (ring.length - 1 - i)) % ring.length]?

/-- Reading backwards from an index gives the last `k` bytes of `text`, as far as the ring goes. -/
def HoldsLast (ring : Bytes) (index : Nat) (text : Bytes) (k : Nat) : Prop :=
  ∀ i, i < k → i < ring.length →
    ring[(index + (ring.length - 1 - i)) % ring.length]? = text.reverse[i]?

/-! ## Writing -/

theorem mod_of_lt_two_mul {a n : Nat} (h : a < 2 * n) : a % n = if a < n then a else a - n := by
  by_cases ha : a < n
  · rw [if_pos ha, Nat.mod_eq_of_lt ha]
  · rw [if_neg ha, Nat.mod_eq_sub_mod (by omega), Nat.mod_eq_of_lt (by omega)]

theorem ringPut_of_le {ring text : Bytes} {pos : Nat} (h : text.length ≤ ring.length - pos) :
    ringPut ring pos text = overwrite ring pos text := by
  simp [ringPut, Nat.min_eq_left h]

theorem ringPut_of_lt {ring text : Bytes} {pos : Nat} (h : ring.length - pos < text.length) :
    ringPut ring pos text = overwrite (overwrite ring pos (text.take (ring.length - pos))) 0
      (text.drop (ring.length - pos)) := by
  simp [ringPut, Nat.min_eq_right (Nat.le_of_lt h), Nat.ne_of_lt h]

section

variable {ring text : Bytes} {pos : Nat} (hpos : pos < ring.length) (hlen : text.length ≤ ring.length)
include hpos hlen

/-- The size stays, and this is where a slot gets its byte from. -/
theorem ringPut_spec : (ringPut ring pos text).length = ring.length ∧ ∀ d < ring.length,
    (ringPut ring pos text)[(pos + d) % ring.length]? =
      if d < text.length then text[d]? else ring[(pos + d) % ring.length]? := by
  by_cases hround : ring.length - pos < text.length
  · have hfirst : pos + (text.take (ring.length - pos)).length ≤ ring.length := by
      rw [List.length_take]
      omega
    have hsecond : 0 + (text.drop (ring.length - pos)).length ≤
        (overwrite ring pos (text.take (ring.length - pos))).length := by
      rw [length_overwrite hfirst, List.length_drop]
      omega
    rw [ringPut_of_lt hround]
    refine ⟨(length_overwrite hsecond).trans (length_overwrite hfirst), fun d hd => ?_⟩
    rw [getElem?_overwrite hsecond, getElem?_overwrite hfirst, mod_of_lt_two_mul (by omega)]
    simp only [List.length_drop, List.length_take, List.getElem?_drop, List.getElem?_take]
    split_ifs <;> first | omega | rfl | (congr 1; omega)
  · have hfits : pos + text.length ≤ ring.length := by omega
    rw [ringPut_of_le (Nat.le_of_not_lt hround)]
    refine ⟨length_overwrite hfits, fun d hd => ?_⟩
    rw [getElem?_overwrite hfits, mod_of_lt_two_mul (by omega)]
    split_ifs <;> first | omega | rfl | (congr 1; omega)

theorem length_ringPut : (ringPut ring pos text).length = ring.length := (ringPut_spec hpos hlen).1

end

/-- Slots are counted from an index. -/
theorem getElem?_ringPut {ring text : Bytes} (index : Nat) (hring : 0 < ring.length)
    (hlen : text.length ≤ ring.length) {d : Nat} (hd : d < ring.length) :
    (ringPut ring (index % ring.length) text)[(index + d) % ring.length]? =
      if d < text.length then text[d]? else ring[(index + d) % ring.length]? := by
  have hslot := (ringPut_spec (Nat.mod_lt index hring) hlen).2 d hd
  rwa [Nat.mod_add_mod] at hslot

/-- Each slot is one of those behind an index. -/
theorem exists_slot {n slot : Nat} (index : Nat) (hslot : slot < n) : ∃ d < n, slot = (index + d) % n := by
  have hlt := Nat.mod_lt index (Nat.zero_lt_of_lt hslot)
  refine ⟨(slot + (n - index % n)) % n, Nat.mod_lt _ (Nat.zero_lt_of_lt hslot), ?_⟩
  rw [Nat.add_mod_mod, ← Nat.mod_add_mod, show index % n + (slot + (n - index % n)) = slot + n by omega,
    Nat.add_mod_right, Nat.mod_eq_of_lt hslot]

/-! ## Reading back -/

/-- There is nothing beyond a full ring. -/
theorem HoldsLast.full {ring text : Bytes} {index k : Nat} (h : HoldsLast ring index text k)
    (hk : ring.length ≤ k) (k' : Nat) : HoldsLast ring index text k' :=
  fun i _ hring => h i (Nat.lt_of_lt_of_le hring hk) hring

theorem holdsLast_of_mod_eq {ring text : Bytes} {index index' k : Nat}
    (h : HoldsLast ring index text k) (heq : index % ring.length = index' % ring.length) :
    HoldsLast ring index' text k := by
  intro i hi hring
  rw [← Nat.mod_add_mod, ← heq, Nat.mod_add_mod]
  exact h i hi hring

/-- **A write adds its text to what is held.** -/
theorem HoldsLast.put {ring text new : Bytes} {index k : Nat} (h : HoldsLast ring index text k)
    (hring : 0 < ring.length) (hlen : new.length ≤ ring.length) :
    HoldsLast (ringPut ring (index % ring.length) new) (index + new.length) (text ++ new)
      (k + new.length) := by
  intro i hi hn
  rw [length_ringPut (Nat.mod_lt index hring) hlen] at hn ⊢
  rw [List.reverse_append]
  by_cases hnew : i < new.length
  · -- the slot is inside what was written
    have hslot : (index + new.length + (ring.length - 1 - i)) % ring.length =
        (index + (new.length - 1 - i)) % ring.length := by
      rw [← Nat.add_mod_right (index + (new.length - 1 - i))]
      congr 1
      omega
    rw [hslot, getElem?_ringPut index hring hlen (by omega), if_pos (by omega),
      List.getElem?_append_left (by rw [List.length_reverse]; exact hnew),
      List.getElem?_reverse hnew]
  · have hslot : index + new.length + (ring.length - 1 - i) =
        index + (ring.length - 1 - (i - new.length)) := by omega
    rw [hslot, getElem?_ringPut index hring hlen (by omega), if_neg (by omega),
      List.getElem?_append_right (by rw [List.length_reverse]; omega), List.length_reverse]
    exact h (i - new.length) (by omega) (by omega)

/-- Text that is too long is cut at the front. Everything the ring holds then is new. -/
theorem HoldsLast.put_cut {ring text new : Bytes} {index k : Nat} (h : HoldsLast ring index text k)
    (hring : 0 < ring.length) :
    HoldsLast (ringPut ring (index % ring.length) (new.drop (new.length - ring.length)))
      (index + min new.length ring.length) (text ++ new) (k + new.length) := by
  have hcut : (new.drop (new.length - ring.length)).length = min new.length ring.length := by
    rw [List.length_drop]
    omega
  have hput : HoldsLast _ _ (text ++ new.drop (new.length - ring.length)) _ := h.put hring (by omega)
  rw [hcut] at hput
  intro i hi hn
  have hn' : i < ring.length := by
    rwa [length_ringPut (Nat.mod_lt index hring) (by omega)] at hn
  rw [hput i (by omega) hn]
  by_cases hle : new.length ≤ ring.length
  · rw [Nat.sub_eq_zero_of_le hle, List.drop_zero]
  · rw [List.reverse_append, List.reverse_append, List.reverse_drop, List.getElem?_append_left,
      List.getElem?_append_left, List.getElem?_take_of_lt]
    · omega
    · rw [List.length_reverse]
      omega
    · rw [List.length_take, List.length_reverse]
      omega

/-- Reading as many bytes backwards as were written, or as the ring has. -/
theorem ringBackwards_eq_iff {ring text : Bytes} {index k : Nat} (hk : k = min text.length ring.length) :
    (ringBackwards ring (index % ring.length) k).reverse = (text.drop (text.length - k)).map some ↔
      HoldsLast ring index text text.length := by
  have hback : (ringBackwards ring (index % ring.length) k).length = k := by simp [ringBackwards]
  have hbyte : ∀ i < k, (ringBackwards ring (index % ring.length) k)[i]? =
      some ring[(index + (ring.length - 1 - i)) % ring.length]? := by
    intro i hi
    simp [ringBackwards, hi]
  have hlast : ∀ i < k, ((text.reverse.take k).map some)[i]? = some text.reverse[i]? := by
    intro i hi
    rw [List.getElem?_map, List.getElem?_take_of_lt hi,
      List.getElem?_eq_getElem (by rw [List.length_reverse]; omega)]
    rfl
  rw [List.reverse_eq_iff, ← List.map_reverse, List.reverse_drop,
    show text.length - (text.length - k) = k by omega]
  constructor
  · intro h i hi hring
    have hget := congrArg (fun l => l[i]?) h
    simp only [hbyte i (by omega), hlast i (by omega), Option.some.injEq] at hget
    exact hget
  · intro h
    apply List.ext_getElem?
    intro i
    by_cases hi : i < k
    · rw [hbyte i hi, hlast i hi, h i (by omega) (by omega)]
    · rw [List.getElem?_eq_none (by omega), List.getElem?_eq_none]
      rw [List.length_map, List.length_take]
      omega

end Driver
