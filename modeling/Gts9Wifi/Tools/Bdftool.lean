import Gts9Wifi.Lib.Records

/-!
# The board file tool

`bdftool.py` on a `board-2.bin`: a header, and information elements that are lists of entries in
turn. Elements and entries are padded records, read by two loops with one and the same test. The text
that `swap` prints is left out.
-/

namespace Gts9Wifi.Tools.Bdftool

open Driver

/-- How the tool ends early: its assertion, its own exit, and a number that `struct.pack` refuses. -/
inductive Exit
  | badMagic
  | structError
  | noEntriesMatched
deriving DecidableEq

def Exit.message : Exit → Option String
  | .badMagic => some "bad magic"
  | .structError => none
  | .noEntriesMatched => some "no entries matched"

/-- `QCA-ATH11K-BOARD` and a zero. -/
def magic : Bytes :=
  [0x51, 0x43, 0x41, 0x2d, 0x41, 0x54, 0x48, 0x31, 0x31, 0x4b, 0x2d, 0x42, 0x4f, 0x41, 0x52, 0x44, 0]

def magicLen : Nat := align4 magic.length

/-- An entry, and an information element. -/
abbrev Sub := Record
abbrev Ie := UInt32 × List Sub

/-! ## Reading and writing -/

/-- The outer loop, and the inner one on the body of each element. -/
def parse (data : Bytes) : Except Exit (Bytes × List Ie) :=
  if data.take magic.length ≠ magic then throw .badMagic
  else return (data.take magicLen, (decodeRecords (data.drop magicLen)).map fun r =>
    (r.1, decodeRecords r.2))

/-- `struct.pack("<II", id, n)`. -/
def packHead (id : UInt32) (n : Nat) : Except Exit Bytes :=
  if n < 2 ^ 32 then return packLe32 id.toNat ++ packLe32 n else throw .structError

/-- The loop over the entries of an element, and the one over the elements. -/
def serializeRecords : List Record → Except Exit Bytes
  | [] => return []
  | (id, body) :: l => do
    let head ← packHead id body.length
    let rest ← serializeRecords l
    return head ++ body ++ List.replicate (align4 body.length - body.length) 0 ++ rest

def serialize (rawHeader : Bytes) (top : List Ie) : Except Exit Bytes := do
  let elements ← top.mapM fun ie => return (ie.1, ← serializeRecords ie.2)
  return rawHeader ++ (← serializeRecords elements)

/-! ## Names -/

def hexDigit (n : Nat) : Char := Char.ofNat (if n < 10 then 48 + n else 87 + n)

def backslash : Char := Char.ofNat 92

/-- One byte in the text of `repr`, between these quotes. -/
def reprByte (quote b : UInt8) : List Char :=
  if b = quote ∨ b = 92 then [backslash, Char.ofNat b.toNat]
  else if b = 9 then [backslash, 't']
  else if b = 10 then [backslash, 'n']
  else if b = 13 then [backslash, 'r']
  else if b < 32 ∨ 127 ≤ b then [backslash, 'x', hexDigit (b.toNat / 16), hexDigit (b.toNat % 16)]
  else [Char.ofNat b.toNat]

/-- `repr` of a `bytes`. Single quotes, unless there is one inside and no double one. -/
def reprBytes (b : Bytes) : List Char :=
  let quote : UInt8 := if b.contains 39 && !b.contains 34 then 34 else 39
  'b' :: Char.ofNat quote.toNat :: b.flatMap (reprByte quote) ++ [Char.ofNat quote.toNat]

/-- `sbody.decode("ascii")`, and its `repr` where that fails. -/
def nameText (body : Bytes) : List Char :=
  if body.all (· < 128) then body.map fun b => Char.ofNat b.toNat else reprBytes body

/-- Only the first name entry counts. -/
def subToName (sub : List Sub) : Option (List Char) :=
  (sub.find? fun e => e.1 = 0).map fun e => nameText e.2

def variantMark : List Char := [',', 'v', 'a', 'r', 'i', 'a', 'n', 't', '=']

/-- `name.split(",variant=")[0]`. -/
def baseName : List Char → List Char
  | [] => []
  | c :: cs => if variantMark <+: c :: cs then [] else c :: baseName cs

/-- `name == target or name.split(",variant=")[0] == target`. -/
def nameMatches (target name : List Char) : Bool := name = target || baseName name = target

/-! ## Swapping -/

/-- A name to look for, and the contents of the payload file. -/
abbrev Pair := List Char × Bytes

/-- The new entries: every data entry carries the payload. -/
def swapData (payload : Bytes) (sub : List Sub) : List Sub :=
  sub.map fun e => if e.1 = 1 then (e.1, payload) else e

/-- The loop over the pairs, for an element with this name. -/
def swapPairs (name : List Char) : List Pair → List Sub → List Sub × Nat
  | [], sub => (sub, 0)
  | (target, payload) :: pairs, sub =>
    if nameMatches target name then
      let (sub', n) := swapPairs name pairs (swapData payload sub)
      (sub', n + 1)
    else swapPairs name pairs sub

/-- One round of the loop over the elements, with the number of swaps. -/
def swapIe (pairs : List Pair) (ie : Ie) : Ie × Nat :=
  match subToName ie.2 with
  | none => (ie, 0)
  | some name => ((ie.1, (swapPairs name pairs ie.2).1), (swapPairs name pairs ie.2).2)

/-- `swap`, up to the bytes that are written. -/
def swap (data : Bytes) (pairs : List Pair) : Except Exit Bytes := do
  let (rawHeader, top) ← parse data
  let swapped := top.map (swapIe pairs)
  if (swapped.map Prod.snd).sum = 0 then
    throw .noEntriesMatched
  serialize rawHeader (swapped.map Prod.fst)

end Gts9Wifi.Tools.Bdftool
