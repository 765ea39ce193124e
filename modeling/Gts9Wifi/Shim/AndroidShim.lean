import Gts9Wifi.Lib.Buffer

/-!
# The log lines of the Android shim

`gts9u-android-shim.c`: `vformat`, through which every log line of the vendor daemons goes, and the
functions that put a line together and write it to stderr. A text is the list of its characters without
the closing NUL, and `NULL` is `none`. A `va_list` is the list of its 64-bit slots; what is not in it
cannot be taken, and a string can only be printed from an address where there is one.
-/

namespace Gts9Wifi.Shim

open Driver

/-! ## The formatter -/

/-- A slot of the `va_list`: a number of up to 64 bits, or an address. The bits above a narrower number
are whatever the caller left there. -/
abbrev Slot := BitVec 64

/-- The strings in memory, by their address. -/
abbrev Memory := Slot → Option (List Char)

/-- What the formatter does one after the other. -/
inductive Event
  | arg (c : Char) (v : Slot)
  | put (c : Char)
deriving DecidableEq

/-- `struct outbuf`: what stands in the buffer, and how much fits before `end`. `tape` is for the
proofs: every character given to `oput`, and every argument taken, with the letter it is taken for. -/
structure Outbuf where
  text : List Char
  room : Nat
  tape : List Event
deriving DecidableEq

def oput (o : Outbuf) (c : Char) : Outbuf where
  text := if o.text.length < o.room then o.text ++ [c] else o.text
  room := o.room
  tape := o.tape ++ [.put c]

def oputs (o : Outbuf) (s : Option (List Char)) : Outbuf :=
  (s.getD "(null)".toList).foldl oput o

/-- `(char)(d < 10 ? '0' + d : 'a' + (int)d - 10)` -/
def digit (d : Nat) : Char :=
  Char.ofNat (if d < 10 then '0'.toNat + d else 'a'.toNat + d - 10)

/-- The loop of `ounum` that fills `tmp`. A base below 2 is not used. -/
def digits (base v : Nat) : List Char :=
  if v = 0 ∨ base < 2 then []
  else digit (v % base) :: digits base (v / base)
termination_by v
decreasing_by exact Nat.div_lt_self (by omega) (by omega)

def ounum (o : Outbuf) (v : BitVec 64) (base : Nat) (neg : Bool) : Outbuf :=
  let o := if neg then oput o '-' else o
  let tmp := if v = 0 then ['0'] else digits base v.toNat
  tmp.reverse.foldl oput o

/-- The buffer and the rest of the `va_list`. -/
structure State where
  o : Outbuf
  ap : List Slot
deriving DecidableEq

/-- `__builtin_va_arg`, for the conversion `c`. -/
def vaArg (c : Char) (s : State) : Option (Slot × State) :=
  match s.ap with
  | [] => none
  | v :: ap => some (v, ⟨{ s.o with tape := s.o.tape ++ [.arg c v] }, ap⟩)

/-- The argument of `oputs` for an address. -/
def string (mem : Memory) (v : Slot) : Option (Option (List Char)) :=
  if v = 0 then some none else (mem v).map some

/-- The characters between `%` and the conversion that are passed by. -/
def skipped (c : Char) : Bool :=
  c = '-' ∨ c = '+' ∨ c = ' ' ∨ c = '#' ∨ c = '0' ∨ ('1' ≤ c ∧ c ≤ '9') ∨ c = '.'

/-- The `switch`. A pointer is taken before its `0x` is printed, which nobody can tell. -/
def convert (mem : Memory) (c : Char) (s : State) : Option State :=
  match c with
  | 's' => do
    let (v, s) ← vaArg c s
    return { s with o := oputs s.o (← string mem v) }
  | 'd' | 'i' => do
    let (v, s) ← vaArg c s
    if v.toInt < 0 then return { s with o := ounum s.o (-v) 10 true }
    else return { s with o := ounum s.o v 10 false }
  | 'u' => do
    let (v, s) ← vaArg c s
    return { s with o := ounum s.o v 10 false }
  | 'x' => do
    let (v, s) ← vaArg c s
    return { s with o := ounum s.o v 16 false }
  | 'p' => do
    let (v, s) ← vaArg c s
    return { s with o := ounum (oputs s.o (some "0x".toList)) v 16 false }
  | 'c' => do
    let (v, s) ← vaArg c s
    return { s with o := oput s.o (Char.ofNat (v.toNat % 256)) }
  | _ => return { s with o := oput (oput s.o '%') c }

/-- The loop over the format. -/
def scan (mem : Memory) : List Char → State → Option State
  | [], s => some s
  | c :: fmt, s =>
    if c ≠ '%' then scan mem fmt { s with o := oput s.o c }
    else if fmt.head? = some '%' then scan mem fmt.tail { s with o := oput s.o '%' }
    else
      match _h : fmt.dropWhile skipped with
      | [] => some s -- `case '\0'`, which ends the loop as well
      | d :: rest =>
        match convert mem d s with
        | none => none
        | some s => scan mem rest s
termination_by fmt => fmt.length
decreasing_by
  · simp
  · simp only [List.length_tail, List.length_cons]
    omega
  · have := (List.dropWhile_suffix (l := fmt) skipped).length_le
    simp only [_h, List.length_cons] at this ⊢
    omega

def vformat (mem : Memory) (dstlen : Nat) (fmt : Option (List Char)) (ap : List Slot) :
    Option State :=
  let s : State := ⟨⟨[], dstlen - 1, []⟩, ap⟩
  match fmt with
  | none => some { s with o := oputs s.o (some "(null)".toList) }
  | some fmt => scan mem fmt s

/-- `*o.p = '\0'`, in the array of `size` characters that the buffer is. -/
def Outbuf.close (o : Outbuf) (size : Nat) : Option (List Char) := push size o.text '\x00'

/-! ## Lines

Each function returns what it gives to `sys_write`, or `none` after a store outside of its array. -/

def logBuf : Nat := 1024

def emit (tag text : Option (List Char)) : Option (List Char) := do
  let line ← push logBuf [] '['
  let line ← pushAll logBuf (logBuf - 6) line (tag.getD [])
  let line ← push logBuf line ']'
  let line ← push logBuf line ' '
  let line ← pushAll logBuf (logBuf - 2) line (text.getD [])
  push logBuf line '\n'

def wakeLog (what : List Char) (id : Option (List Char)) : Option (List Char) := do
  let buf ← pushAll 96 (96 - 2) [] "[wakelock] ".toList
  let buf ← pushAll 96 (96 - 2) buf what
  let buf ← push 96 buf ' '
  let buf ← pushAll 96 (96 - 2) buf (id.getD [])
  push 96 buf '\n'

/-- An array read as a string. -/
def cString (b : List Char) : List Char := b.takeWhile (· ≠ '\x00')

/-- What `vm_log` leaves in `b`, and the line it emits of it. -/
def vmLog (msg name : Option (List Char)) (val : BitVec 64) (hasVal : Bool) :
    Option (List Char × List Char) := do
  let o := oputs ⟨[], 160 - 1, []⟩ msg
  let o := match name with
    | none => o
    | some name => oputs (oput o ' ') (some name)
  let o :=
    if hasVal then ounum (oput o ' ') (if val.toInt < 0 then -val else val) 10 (val.toInt < 0) else o
  let b ← o.close 160
  let line ← emit (some "vmmem".toList) (some (cString b))
  return (b, line)

end Gts9Wifi.Shim
