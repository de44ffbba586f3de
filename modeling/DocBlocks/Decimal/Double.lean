/-!
# Double-Precision Magnitudes

A finite double-precision number without its sign is a whole multiple of the smallest
positive one, which is `2 ^ (-1074)`. So it is given here by a natural number, its count of
these units, and arithmetic on it is exact arithmetic followed by one rounding.

Rounding keeps 53 binary digits, or all digits down to one unit if there are fewer; it goes
to the nearest number of that kind and, of two that are equally near, to the one whose last
binary digit is zero.
-/

namespace DocBlocks

/-- A finite double-precision number without its sign, in units of `2 ^ (-1074)`. -/
abbrev Double := Nat

/-- Two to a power. -/
def powTwo (n : Nat) : Nat := 1 <<< n

/-- Ten to a power. -/
def powTen (n : Nat) : Nat := Nat.pow 10 n

namespace Double

/-- How many units make one. -/
def one : Nat := powTwo 1074

/-- The quotient, rounded to the nearest natural number and to the even one of two. -/
def divEven (n d : Nat) : Nat :=
  let q := n / d
  let r := n % d
  if 2 * r < d || (2 * r == d && q % 2 == 0) then q else q + 1

/-- The distance from a double to the next greater one, given its whole part in units. -/
def spacing (units : Nat) : Nat := powTwo (units.log2 + 1 - 53)

/-- The double nearest to `n / d` units. -/
def round (n d : Nat) : Double :=
  let step := spacing (n / d)
  divEven n (d * step) * step

/-- The double nearest to a natural number. -/
def ofNat (n : Nat) : Double := round (n * one) 1

/-- The product of two doubles. -/
def mul (x y : Double) : Double := round (x * y) one

/-- The quotient of two doubles. -/
def div (x y : Double) : Double := round (x * one) y

/-- Whether rounding has left the range of finite numbers, which ends below `2 ^ 1024`. -/
def isInfinite (x : Double) : Bool := one * powTwo 1024 ≤ x

/-- `significand` times ten to the given power, by at most one multiplication or by
divisions. The factors are the powers of ten up to the greatest that is finite; a more
negative power is taken in several divisions, which stop when nothing is left. `rounds`
bounds their number: three lead from any 64-bit significand to zero. The answer is `none` if
the number is too great. -/
def scale (x : Double) : Nat → Int → Option Double
  | 0, _ => some 0
  | rounds + 1, power =>
    if power.natAbs ≤ 308 then
      if 0 ≤ power then
        let product := mul x (ofNat (powTen power.natAbs))
        if isInfinite product then none else some product
      else some (div x (ofNat (powTen power.natAbs)))
    else if x = 0 then some 0
    else if 0 ≤ power then none
    else scale (div x (ofNat (powTen 308))) rounds (power + 308)

/-- The double that a significand and a power of ten stand for. -/
def ofDecimal (significand : Nat) (power : Int) : Option Double :=
  scale (ofNat significand) 4 power

end Double

end DocBlocks
