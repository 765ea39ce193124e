import Gts9Wifi.Lib.Ring
import Mathlib.Data.List.Rotate

/-!
# A ring as a queue

A queue in a ring is the bytes from an index on, round the end. Indices only grow, and their
remainders are where the bytes stand. A write at the end of the queue adds to it and leaves what is in
it alone, as long as the ring is not overrun.
-/

namespace Driver

/-- The `n` bytes from index `i` on. -/
def ringGet (ring : Bytes) (i n : Nat) : Bytes := (ring.rotate i).take n

variable {ring text : Bytes} {i m n : Nat}

theorem length_ringGet (hn : n ≤ ring.length) : (ringGet ring i n).length = n := by
  rw [ringGet, List.length_take, List.length_rotate, Nat.min_eq_left hn]

theorem getElem?_ringGet (hn : n ≤ ring.length) {d : Nat} (hd : d < n) :
    (ringGet ring i n)[d]? = ring[(i + d) % ring.length]? := by
  rw [ringGet, List.getElem?_take_of_lt hd, List.getElem?_rotate (Nat.lt_of_lt_of_le hd hn), Nat.add_comm]

theorem ringGet_mod : ringGet ring (i % ring.length) n = ringGet ring i n := by
  rw [ringGet, List.rotate_mod, ringGet]

/-- A queue is its front and its rest. -/
theorem ringGet_add (h : m + n ≤ ring.length) :
    ringGet ring i (m + n) = ringGet ring i m ++ ringGet ring (i + m) n := by
  have hm : m ≤ ring.length := Nat.le_of_add_right_le h
  have hn : n ≤ ring.length := Nat.le_trans (Nat.le_add_left n m) h
  refine List.ext_getElem? fun d => ?_
  by_cases hd : d < m + n
  · rw [getElem?_ringGet h hd]
    by_cases hdm : d < m
    · rw [List.getElem?_append_left (by rwa [length_ringGet hm]), getElem?_ringGet hm hdm]
    · rw [List.getElem?_append_right (by rw [length_ringGet hm]; omega), length_ringGet hm,
        getElem?_ringGet hn (by omega)]
      congr 2
      omega
  · rw [List.getElem?_eq_none (by rw [length_ringGet h]; omega),
      List.getElem?_eq_none (by rw [List.length_append, length_ringGet hm, length_ringGet hn]; omega)]

theorem take_ringGet (h : m ≤ n) : (ringGet ring i n).take m = ringGet ring i m := by
  rw [ringGet, List.take_take, Nat.min_eq_left h, ringGet]

theorem drop_ringGet (h : m + n ≤ ring.length) : (ringGet ring i (m + n)).drop m = ringGet ring (i + m) n := by
  rw [ringGet_add h]
  exact List.drop_left' (length_ringGet (Nat.le_of_add_right_le h))

/-- The bytes from a place in the ring on, in two pieces where they go round. -/
theorem ringGet_eq_pieces (hi : i < ring.length) (hn : n ≤ ring.length) :
    ringGet ring i n = slice ring i (min n (ring.length - i)) ++
      slice ring 0 (n - min n (ring.length - i)) := by
  unfold ringGet slice
  rw [List.rotate_eq_drop_append_take (Nat.le_of_lt hi), List.take_append, List.length_drop, List.drop_zero]
  by_cases h : n ≤ ring.length - i
  · rw [Nat.min_eq_left h, Nat.sub_eq_zero_of_le h, Nat.sub_self, List.take_zero, List.take_zero]
  · have hround : n - (ring.length - i) ≤ i := by omega
    have hfirst : (ring.drop i).take n = ring.drop i :=
      List.take_of_length_le (by rw [List.length_drop]; omega)
    have hsecond : (ring.drop i).take (ring.length - i) = ring.drop i :=
      List.take_of_length_le (by rw [List.length_drop])
    rw [Nat.min_eq_right (by omega), hfirst, hsecond, List.take_take, Nat.min_eq_left hround]

/-- What was written is there. -/
theorem ringGet_ringPut (hring : 0 < ring.length) (hlen : text.length ≤ ring.length) :
    ringGet (ringPut ring (i % ring.length) text) i text.length = text := by
  have hput := length_ringPut (Nat.mod_lt i hring) hlen
  refine List.ext_getElem? fun d => ?_
  by_cases hd : d < text.length
  · rw [getElem?_ringGet (by rwa [hput]) hd, hput, getElem?_ringPut i hring hlen (by omega), if_pos hd]
  · rw [List.getElem?_eq_none (by rw [length_ringGet (by rwa [hput])]; omega),
      List.getElem?_eq_none (Nat.le_of_not_lt hd)]

/-- A write at the end of a queue leaves what is in it alone. -/
theorem ringGet_ringPut_front (hring : 0 < ring.length) (h : m + text.length ≤ ring.length) :
    ringGet (ringPut ring ((i + m) % ring.length) text) i m = ringGet ring i m := by
  have hlen : text.length ≤ ring.length := Nat.le_trans (Nat.le_add_left _ m) h
  have hm : m ≤ ring.length := Nat.le_of_add_right_le h
  have hput := length_ringPut (Nat.mod_lt (i + m) hring) hlen
  refine List.ext_getElem? fun d => ?_
  by_cases hd : d < m
  · rw [getElem?_ringGet (by rwa [hput]) hd, getElem?_ringGet hm hd, hput]
    -- the slot is one of those behind the text, counted from the end of the queue
    have hslot : (i + d) % ring.length = (i + m + (ring.length - m + d)) % ring.length := by
      rw [← Nat.add_mod_right (i + d)]
      congr 1
      omega
    rw [hslot, getElem?_ringPut (i + m) hring hlen (by omega), if_neg (by omega)]
  · rw [List.getElem?_eq_none (by rw [length_ringGet (by rwa [hput])]; omega),
      List.getElem?_eq_none (by rw [length_ringGet hm]; omega)]

end Driver
