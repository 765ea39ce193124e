import Mathlib.Data.List.Basic

/-!
# A list in pieces

What is too long for one message is sent in pieces of the same size, the last of which may be
shorter. Put together again they are the list.
-/

namespace Driver

variable {α : Type} {n : Nat} {l : List α}

/-- The `k`-th piece of `n` elements. -/
def piece (n : Nat) (l : List α) (k : Nat) : List α := (l.drop (n * k)).take n

/-- How many pieces there are. -/
def pieceCount (n : Nat) (l : List α) : Nat := (l.length + n - 1) / n

theorem lt_pieceCount_iff (hn : 0 < n) {k : Nat} : k < pieceCount n l ↔ n * k < l.length := by
  unfold pieceCount
  rw [Nat.lt_iff_add_one_le, Nat.le_div_iff_mul_le hn, Nat.add_mul, Nat.mul_comm k n]
  omega

/-- The first pieces are the front of the list. -/
theorem flatten_map_piece (k : Nat) : ((List.range k).map (piece n l)).flatten = l.take (n * k) := by
  induction k with
  | zero => simp
  | succ k ih =>
    rw [List.range_succ, List.map_append, List.flatten_append, ih, Nat.mul_succ, List.take_add]
    simp [piece]

/-- **Nothing is lost.** -/
theorem flatten_pieces (hn : 0 < n) :
    ((List.range (pieceCount n l)).map (piece n l)).flatten = l := by
  have hall : l.length ≤ n * pieceCount n l :=
    Nat.le_of_not_lt fun h => Nat.lt_irrefl _ ((lt_pieceCount_iff hn).2 h)
  rw [flatten_map_piece, List.take_of_length_le hall]

/-- A list over the first numbers, from one of them on. -/
theorem drop_map_range {β : Type} (f : Nat → β) {k m : Nat} (h : k < m) :
    ((List.range m).map f).drop k = f k :: ((List.range m).map f).drop (k + 1) := by
  rw [List.drop_eq_getElem_cons (by simpa using h)]
  simp

end Driver
