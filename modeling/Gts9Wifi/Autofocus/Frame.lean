import Mathlib.Algebra.Order.Ring.Rat
import Gts9Wifi.Lib.Largest

/-!
# What the autofocus measures in a frame

`gts9wifi-autofocus.c`: the mean brightness for the exposure and the focus value for the lens. A frame
is the buffer the camera has filled, byte by byte from its start. The sums are of whole numbers that a
`double` holds exactly; the quotients are taken as rational numbers.
-/

namespace Gts9Wifi.Autofocus

open Driver

abbrev Frame := Nat → BitVec 8

def width : Nat := 4128
def height : Nat := 3096
def stride : Nat := 5168
def valid : Nat := 5160

/-- `for (i = lo; i < hi; i += step)` -/
def indices (lo hi step : Nat) : List Nat :=
  List.range' lo ((hi - lo + step - 1) / step) step

/-! ## The brightness -/

/-- The four samples of a group of five bytes, as `mean_luma` puts them together. -/
def groupSum (b : Nat → Nat) : Nat :=
  (b 0 ||| ((b 4 &&& 0x03) <<< 8)) + (b 1 ||| ((b 4 &&& 0x0c) <<< 6))
    + (b 2 ||| ((b 4 &&& 0x30) <<< 4)) + (b 3 ||| ((b 4 &&& 0xc0) <<< 2))

/-- `sum` and `n` of `mean_luma` after its loops. -/
def lumaSum (data : Frame) : Nat × Nat :=
  (indices 0 height 24).foldl (fun acc y =>
    (indices 0 (valid / 5) 1).foldl (fun (sum, n) g =>
      (sum + groupSum fun i => (data (y * stride + g * 5 + i)).toNat, n + 4)) acc) (0, 0)

def meanLuma (data : Frame) : Rat :=
  let (sum, n) := lumaSum data
  if n = 0 then 0 else sum / n

/-! ## The focus value -/

def gw : Nat := 8
def gh : Nat := 6
def gwTop : Nat := 12

/-- `sum` and `n` of `block_fv` after its loops. -/
def blockSum (data : Frame) (x0 y0 w h : Nat) : Int × Nat :=
  (indices y0 (y0 + h) 4).foldl (fun acc y =>
    (indices x0 (x0 + w - 1) 1).foldl (fun (sum, n) x =>
      let d : Int := (data (y * stride + (x + 1))).toNat - (data (y * stride + x)).toNat
      (sum + d * d, n + 1)) acc) (0, 0)

def blockFv (data : Frame) (x0 y0 w h : Nat) : Rat :=
  let (sum, n) := blockSum data x0 y0 w h
  if n = 0 then 0 else sum / n

/-- `blocks`, row by row. -/
def blocks (data : Frame) : List Rat :=
  let bw := width / gw
  let bh := height / gh
  (List.range gh).flatMap fun gy => (List.range gw).map fun gx =>
    blockFv data (gx * bw) (gy * bh) bw bh

/-- `qsort` with `cmp_desc`, and the loop over the first blocks. -/
def focusValue (data : Frame) : Rat :=
  ((sortDown (blocks data)).take gwTop).sum / gwTop

end Gts9Wifi.Autofocus
