import Mathlib.Order.WithBot

/-!
# The search for the focus

`gts9wifi-autofocus.c`: the coarse sweep and the fine pass of `main`, on a scene that stands still and
with probes that succeed. A focus value is taken from any ordered type; the -1 before the first probe is
`⊥` and the 1e30 is `⊤`. What becomes of the two ends of the curve in the test for contrast is a
parameter. The messages are left out.
-/

namespace Gts9Wifi.Autofocus

def focusMin : Int := 0
def focusMax : Int := 1023

structure Sample (V : Type*) where
  pos : Int
  fv : WithBot V

/-- Where the lens is, and what it was probed at so far. -/
structure Camera where
  lens : Int
  probed : List Int

variable {V : Type*} [LinearOrder V]

def setFocus (cam : Camera) (pos : Int) : Camera :=
  let pos := if pos < focusMin then focusMin else pos
  let pos := if pos > focusMax then focusMax else pos
  { cam with lens := pos }

/-- The value comes from where the lens is, the sample says what was asked for. -/
def probe (scene : Int → V) (cam : Camera) (pos : Int) : Camera × Sample V :=
  let cam := setFocus cam pos
  ({ cam with probed := cam.probed ++ [pos] }, ⟨pos, scene cam.lens⟩)

/-- `for (pos = lo; pos <= hi; pos += step)` -/
def positions (lo hi step : Int) : List Int :=
  (List.range ((hi - lo) / step + 1).toNat).map fun (i : Nat) => lo + step * i

/-- The coarse sweep, with the best sample and the worst value. -/
def sweep (scene : Int → V) (cam : Camera) : Camera × Sample V × WithTop (WithBot V) :=
  (positions focusMin focusMax 128).foldl (fun (cam, best, worst) pos =>
    let (cam, s) := probe scene cam pos
    (cam, if best.fv < s.fv then s else best, if s.fv < worst then (s.fv : WithTop _) else worst))
    (cam, ⟨-1, ⊥⟩, ⊤)

/-- The `for` loop of the fine pass, with `local`. -/
def pass (scene : Int → V) (cam : Camera) (best : Sample V) (step : Int) : Camera × Sample V :=
  (positions (best.pos - step) (best.pos + step) (step / 2)).foldl (fun (cam, near) pos =>
    if pos < focusMin ∨ pos > focusMax ∨ pos = best.pos then (cam, near)
    else
      let (cam, s) := probe scene cam pos
      (cam, if near.fv < s.fv then s else near)) (cam, best)

/-- The fine pass. -/
def finePass (scene : Int → V) : Nat → Camera → Sample V → Int → Option (Camera × Sample V)
  | fuel, cam, best, step =>
    if step < 4 then some (cam, best)
    else
      match fuel with
      | 0 => none
      | fuel + 1 =>
        let (cam, near) := pass scene cam best step
        if best.fv < near.fv then finePass scene fuel cam near step
        else finePass scene fuel cam best (step / 2)

/-- From the sweep to where the lens is left. -/
def search (flat : WithBot V → WithTop (WithBot V) → Bool) (scene : Int → V) (fuel : Nat)
    (cam : Camera) : Option Camera :=
  let (cam, best, worst) := sweep scene cam
  if flat best.fv worst then some (setFocus cam best.pos)
  else (finePass scene fuel cam best 128).map fun (cam, best) => setFocus cam best.pos

end Gts9Wifi.Autofocus
