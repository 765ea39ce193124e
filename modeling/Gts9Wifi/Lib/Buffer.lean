import Mathlib.Data.List.Basic

/-!
# Filling an array from its start

An array of a fixed size of which a part at the start has been written is the list of what has been
written. A store outside of the array fails.
-/

namespace Driver

variable {α β : Type}

/-- `buf[n++] = a`, in an array of `size`. -/
def push (size : Nat) (buf : List α) (a : α) : Option (List α) :=
  if buf.length < size then some (buf ++ [a]) else none

/-- `for (p = s; *p && n < stop; p++) buf[n++] = *p;`, in an array of `size`. -/
def pushAll (size stop : Nat) : List α → List α → Option (List α)
  | buf, [] => some buf
  | buf, a :: s =>
    if buf.length < stop then (push size buf a).bind fun buf => pushAll size stop buf s else some buf

variable {size stop : Nat} {buf s : List α} {a : α}

theorem push_of_lt (h : buf.length < size) : push size buf a = some (buf ++ [a]) := if_pos h

theorem push_bind {f : List α → Option β} (h : buf.length < size) :
    (push size buf a >>= f) = f (buf ++ [a]) := by
  rw [push_of_lt h]
  rfl

/-- A loop that stops inside of the array writes what there is room for. -/
theorem pushAll_eq (h : stop ≤ size) :
    pushAll size stop buf s = some (buf ++ s.take (stop - buf.length)) := by
  induction s generalizing buf with
  | nil => simp [pushAll]
  | cons a s ih =>
    unfold pushAll
    by_cases hlt : buf.length < stop
    · rw [if_pos hlt, push_of_lt (by omega), Option.bind_some, ih]
      obtain ⟨k, hk⟩ : ∃ k, stop - buf.length = k + 1 := ⟨stop - buf.length - 1, by omega⟩
      have hrest : stop - (buf ++ [a]).length = k := by
        simp only [List.length_append, List.length_singleton]
        omega
      rw [hk, hrest, List.take_succ_cons, List.append_assoc, List.singleton_append]
    · rw [if_neg hlt, show stop - buf.length = 0 by omega, List.take_zero, List.append_nil]

theorem pushAll_bind {f : List α → Option β} (h : stop ≤ size) :
    (pushAll size stop buf s >>= f) = f (buf ++ s.take (stop - buf.length)) := by
  rw [pushAll_eq h]
  rfl

end Driver
