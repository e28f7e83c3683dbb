import EventModel.Number.Binary

/-!
# Shortest decimal digits of a binary number

A finite number of a binary format is read back from a decimal if the decimal lies in the interval
of reals that round to the number. `shortest` finds the fewest significant digits of such a decimal
and, among the decimals with so many digits, the one nearest to the number; a tie goes up.

All comparisons are between natural numbers: the number is `numerator / denominator`, and so are the
ends of its interval.
-/

namespace EventModel.Decimal

/-- A positive decimal `0.d₁d₂… * 10 ^ point`, its first digit not zero. -/
structure Digits where
  digits : List Char
  point : Int
  deriving DecidableEq, Repr

/-- A number with the interval of reals that round to it, over one denominator. -/
structure Interval where
  lower : Nat
  value : Nat
  upper : Nat
  denominator : Nat
  closed : Bool
  deriving DecidableEq, Repr

/-- The interval of a finite number that is not zero. Below a power of two the next number is half
as far away; an end belongs to the interval if the significand is even. -/
def Interval.ofBits (f : BinaryFormat) (bits : Nat) : Interval :=
  let e := f.exponent bits
  let m := f.fraction bits
  let significand := if e = 0 then m else 2 ^ f.fractionBits + m
  let closeBelow := decide (m = 0 ∧ 1 < e)
  let unit := f.bias + f.fractionBits
  let up := 2 ^ (max e 1 - unit)
  let down := 2 ^ (unit - max e 1)
  { lower := (4 * significand - (if closeBelow then 1 else 2)) * up
    value := 4 * significand * up
    upper := (4 * significand + 2) * up
    denominator := 4 * down
    closed := significand % 2 = 0 }

/-- `c * 10 ^ e` lies in the interval. -/
def Interval.holds (i : Interval) (c : Nat) (e : Int) : Bool :=
  let point := c * 10 ^ e.toNat * i.denominator
  let scale := 10 ^ (-e).toNat
  if i.closed then i.lower * scale ≤ point && point ≤ i.upper * scale
  else i.lower * scale < point && point < i.upper * scale

/-- The integer below `value / 10 ^ e`, and whether the integer above is at least as near. -/
def Interval.neighbour (i : Interval) (e : Int) : Nat × Bool :=
  let n := i.value * 10 ^ (-e).toNat
  let d := i.denominator * 10 ^ e.toNat
  (n / d, decide (2 * (n % d) ≥ d))

/-- The exponent `p` with `10 ^ (p - 1) ≤ value < 10 ^ p`, for a number below one found by at most
`fuel` multiplications by ten. -/
def pointBelowOne (value denominator : Nat) : Nat → Int
  | 0 => 0
  | fuel + 1 =>
    if denominator ≤ 10 * value then 0
    else pointBelowOne (10 * value) denominator fuel - 1

def Interval.point (i : Interval) : Int :=
  let whole := i.value / i.denominator
  if whole = 0 then pointBelowOne i.value i.denominator 1100
  else (Nat.toDigits 10 whole).length

/-- The digits of `c * 10 ^ e` without trailing zeros. -/
def Digits.ofScaled (c : Nat) (e : Int) : Digits :=
  let ds := Nat.toDigits 10 c
  { digits := (ds.reverse.dropWhile (· == '0')).reverse, point := ds.length + e }

/-- The decimal with `n` digits, if one lies in the interval. -/
def Interval.withDigits (i : Interval) (n : Nat) : Option Digits :=
  let e := i.point - n
  let (below, nearerAbove) := i.neighbour e
  match i.holds below e, i.holds (below + 1) e with
  | true, true => some (Digits.ofScaled (if nearerAbove then below + 1 else below) e)
  | true, false => some (Digits.ofScaled below e)
  | false, true => some (Digits.ofScaled (below + 1) e)
  | false, false => none

/-- The shortest digits of a finite number that is not zero; seventeen digits always suffice. -/
def shortest (f : BinaryFormat) (bits : Nat) : Digits :=
  let i := Interval.ofBits f bits
  ((List.range 17).findSome? fun n => i.withDigits (n + 1)).getD ⟨['0'], 1⟩

/-- How a number is written: positional from `10 ^ -4` to below `10 ^ 16`, always with a fraction;
else with an exponent and without a needless fraction. -/
def Digits.text (d : Digits) : String :=
  let n := d.digits.length
  if d.point < -3 ∨ 16 < d.point then
    let exponent := toString (d.point - 1)
    match d.digits with
    | [] => ""
    | [c] => String.ofList [c] ++ "e" ++ exponent
    | c :: rest => String.ofList (c :: '.' :: rest) ++ "e" ++ exponent
  else if d.point ≤ 0 then
    String.ofList (['0', '.'] ++ List.replicate (-d.point).toNat '0' ++ d.digits)
  else
    let whole := d.point.toNat
    if whole < n then String.ofList (d.digits.take whole ++ '.' :: d.digits.drop whole)
    else String.ofList (d.digits ++ List.replicate (whole - n) '0' ++ ['.', '0'])

/-- The text of a number of a binary format. -/
def text (f : BinaryFormat) (bits : Nat) : String :=
  let minus := if f.sign bits = 1 then "-" else ""
  if f.isNaN bits then "NaN"
  else if f.exponent bits = f.topExponent then minus ++ "inf"
  else if f.exponent bits = 0 ∧ f.fraction bits = 0 then minus ++ "0.0"
  else minus ++ (shortest f bits).text

end EventModel.Decimal

namespace EventModel

/-- The shortest text of a number of single precision. -/
def Binary32.text (x : Binary32) : String :=
  Decimal.text .binary32 x.bits.toNat

/-- The shortest text of a number of double precision. -/
def Binary64.text (x : Binary64) : String :=
  Decimal.text .binary64 x.bits.toNat

end EventModel
