import Mathlib.Algebra.Group.Int.Defs
import Mathlib.Algebra.Group.Nat.Defs

/-!
# Small kernel idioms

Error numbers, the masked register update that every `*_update_bits` helper performs, the rounding
and clamping macros, with the C reading of each (division truncates towards zero), and the state of
a `struct timer_list`.
-/

namespace Driver

/-- A kernel error number. A failing function returns its negation. -/
structure Errno where
  num : Nat
  pos : 0 < num
deriving DecidableEq

namespace Errno

def eperm : Errno := ⟨1, by decide⟩
def enoent : Errno := ⟨2, by decide⟩
def eio : Errno := ⟨5, by decide⟩
def enxio : Errno := ⟨6, by decide⟩
def e2big : Errno := ⟨7, by decide⟩
def ebadf : Errno := ⟨9, by decide⟩
def eagain : Errno := ⟨11, by decide⟩
def enomem : Errno := ⟨12, by decide⟩
def eacces : Errno := ⟨13, by decide⟩
def efault : Errno := ⟨14, by decide⟩
def ebusy : Errno := ⟨16, by decide⟩
def exdev : Errno := ⟨18, by decide⟩
def enodev : Errno := ⟨19, by decide⟩
def einval : Errno := ⟨22, by decide⟩
def emfile : Errno := ⟨24, by decide⟩
def enotty : Errno := ⟨25, by decide⟩
def enospc : Errno := ⟨28, by decide⟩
def erofs : Errno := ⟨30, by decide⟩
def erange : Errno := ⟨34, by decide⟩
def enolink : Errno := ⟨67, by decide⟩
def eopnotsupp : Errno := ⟨95, by decide⟩
def etimedout : Errno := ⟨110, by decide⟩
def ehostdown : Errno := ⟨112, by decide⟩
def eprobeDefer : Errno := ⟨517, by decide⟩

/-- The negative `int` a failing function returns. -/
def toInt (e : Errno) : Int := -e.num

/-- A negative `int` read as an error. -/
def ofNeg (v : Int) (h : v < 0) : Errno := ⟨v.natAbs, Int.natAbs_pos.2 (Int.ne_of_lt h)⟩

end Errno

/-- `(old & ~mask) | (val & mask)`. -/
def maskedUpdate {w : Nat} (mask val old : BitVec w) : BitVec w :=
  (old &&& ~~~mask) ||| (val &&& mask)

/-- Inside the mask the new value is written. -/
theorem maskedUpdate_and_mask {w : Nat} (mask val old : BitVec w) :
    maskedUpdate mask val old &&& mask = val &&& mask := by
  ext i hi
  simp only [maskedUpdate, BitVec.getElem_and, BitVec.getElem_or, BitVec.getElem_not]
  cases mask[i] <;> simp

/-- Outside the mask nothing changes. -/
theorem maskedUpdate_and_not_mask {w : Nat} (mask val old : BitVec w) :
    maskedUpdate mask val old &&& ~~~mask = old &&& ~~~mask := by
  ext i hi
  simp only [maskedUpdate, BitVec.getElem_and, BitVec.getElem_or, BitVec.getElem_not]
  cases mask[i] <;> simp

/-- `DIV_ROUND_UP(n, d)`. -/
def divRoundUp (n d : Nat) : Nat := (n + d - 1) / d

/-- `DIV_ROUND_CLOSEST(x, d)` for a signed `x` and a positive `d`. -/
def divRoundClosest (x d : Int) : Int :=
  if 0 < x then (x + d / 2).tdiv d else (x - d / 2).tdiv d

/-- `clamp(val, lo, hi)`; the bounds need not be in order. -/
def clamp (val lo hi : Int) : Int := if val ≥ hi then hi else if val ≤ lo then lo else val

/-! ## Timers -/

/-- A `struct timer_list`. Once shut down it can no longer be armed. -/
inductive Timer
  | idle | armed | shutdown
deriving DecidableEq

namespace Timer

/-- `mod_timer`, which does nothing to a timer that has been shut down. -/
def mod : Timer → Timer
  | .shutdown => .shutdown
  | _ => .armed

theorem mod_eq_armed_iff {t : Timer} : t.mod = .armed ↔ t ≠ .shutdown := by
  cases t <;> decide

end Timer

end Driver
