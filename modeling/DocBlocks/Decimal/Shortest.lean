import DocBlocks.Decimal.Double
import DocBlocks.Text.Basic

/-!
# The Shortest Decimal of a Double

A double is shown with the fewest decimal digits that read back as the same number, and of
several decimals with so few digits by the one nearest to it. The decimals that read back
are those of the interval that reaches halfway to the neighbours on either side, its ends
included if the double is one that ties are rounded to.

The decimals with a given last place form a grid. If any of its points lies in the interval,
then so does one of the two neighbours of the double on the grid; so it is enough to look at
those two, on one grid after the other, the coarsest first.
-/

namespace DocBlocks

/-- A decimal: `digits` times ten to the power `exponent`. -/
structure Decimal where
  digits : Nat
  exponent : Int
  deriving DecidableEq, Repr

namespace Decimal

/-! ### Digits -/

/-- Two numbers whose quotient is a number of quarter units, divided by ten to the power
`k`. -/
def ratio (quarters : Nat) (k : Int) : Nat × Nat :=
  if 0 ≤ k then (quarters, 4 * Double.one * powTen k.toNat)
  else (quarters * powTen (-k).toNat, 4 * Double.one)

/-- The lower end of the interval that reads back as a double, in quarters of a unit. At a
power of two the numbers below lie twice as close as those above. -/
def lowerEnd (x : Double) : Nat :=
  let step := Double.spacing x
  if 1 < step && x == step * powTwo 52 then 4 * x - step else 4 * x - 2 * step

/-- The upper end of that interval. -/
def upperEnd (x : Double) : Nat := 4 * x + 2 * Double.spacing x

/-- Whether a point of the grid of last place `k` reads back as a double. -/
def readsBack (x : Double) (k : Int) (point : Nat) : Bool :=
  let (low, unit) := ratio (lowerEnd x) k
  let (high, _) := ratio (upperEnd x) k
  if (x / Double.spacing x) % 2 == 0 then low ≤ point * unit && point * unit ≤ high
  else low < point * unit && point * unit < high

/-- The nearer of the neighbours of a double on the grid of last place `k` that read back. -/
def onGrid? (x : Double) (k : Int) : Option Nat :=
  let (value, unit) := ratio (4 * x) k
  let below := value / unit
  match readsBack x k below, readsBack x k (below + 1) with
  | false, false => none
  | true, false => some below
  | false, true => some (below + 1)
  | true, true => some (Double.divEven value unit)

/-- Looks at `count` grids from the one of last place `k` on, each ten times as fine as the
one before. -/
def shortestFrom (x : Double) : Nat → Int → Decimal
  | 0, k => ⟨0, k⟩
  | count + 1, k =>
    match onGrid? x k with
    | some digits => ⟨digits, k⟩
    | none => shortestFrom x count (k - 1)

/-- The shortest decimal of a double other than zero. All doubles lie below ten to the power
310, and each has a decimal with last place -324 or an earlier one. -/
def shortest (x : Double) : Decimal := shortestFrom x 640 310

/-! ### Text -/

/-- An integer in decimal digits. -/
def integerText (n : Int) : Text :=
  if n < 0 then '-' :: Nat.toDigits 10 n.natAbs else Nat.toDigits 10 n.natAbs

/-- An integer in decimal digits with a sign before them, be it negative or not. -/
def signedText (n : Int) : Text :=
  (if n < 0 then '-' else '+') :: Nat.toDigits 10 n.natAbs

/-- A decimal as text. It is written in positions, with at least one digit on either side of
the point, from `0.00001` up to sixteen digits before the point; otherwise with one digit
before the point and a signed power of ten, where a point with nothing behind it is left
out. -/
def text (d : Decimal) : Text :=
  let digits := Nat.toDigits 10 d.digits
  let whole : Int := digits.length + d.exponent
  if 0 ≤ d.exponent && whole ≤ 16 then
    digits ++ List.replicate d.exponent.toNat '0' ++ ['.', '0']
  else if 0 < whole && whole ≤ 16 then
    digits.take whole.toNat ++ '.' :: digits.drop whole.toNat
  else if -5 < whole && whole ≤ 0 then
    ['0', '.'] ++ List.replicate (-whole).toNat '0' ++ digits
  else
    let fraction := if digits.length = 1 then [] else '.' :: digits.drop 1
    digits.take 1 ++ fraction ++ 'e' :: signedText (whole - 1)

/-- A double as text. -/
def doubleText (negative : Bool) (x : Double) : Text :=
  let sign := if negative then ['-'] else []
  sign ++ if x = 0 then ['0', '.', '0'] else (shortest x).text

end Decimal

end DocBlocks
