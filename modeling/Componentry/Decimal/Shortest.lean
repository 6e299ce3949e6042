/-
The shortest decimal of a number: the fewest digits that read back as it, and of those the nearest to it.

Every real number between the two midpoints around a number is read as it, the midpoints too if its mantissa is even.
A grid of decimals with a given number of digits has a point in that interval if one of the number's two neighbours on
the grid is in it, so the first grid with such a neighbour gives the digits.
-/
import Componentry.Decimal.Binary64

namespace Componentry

/-- how a decimal is laid out: the points positions written without an exponent, and the exponent's least digits -/
structure DecimalLayout where
  leastPoint : Int
  greatestPoint : Int
  exponentDigits : Nat

namespace Shortest

/-- the largest power of ten that is not above a fraction -/
def magnitude (num den : Nat) : Int :=
  let below (p : Int) : Bool := powerOfTen p.toNat * den ≤ num * powerOfTen (-p).toNat
  let guess := Int.fdiv (((num.log2 : Int) - den.log2) * 30103) 100000
  if below (guess + 1) then guess + 1
  else if below guess then guess
  else guess - 1

/-- the numbers that read back, in quarters of the last place: the number, its interval and whether the ends count -/
structure Interval where
  low : Nat
  value : Nat
  high : Nat
  ends : Bool

/-- the interval of a mantissa; it is narrower below a power of two -/
def interval (mantissa : Nat) (exponent : Int) : Interval :=
  let narrow := 2 * mantissa = Binary64.mantissaLimit ∧ Binary64.minExponent < exponent
  { low := 4 * mantissa - (if narrow then 1 else 2)
    value := 4 * mantissa
    high := 4 * mantissa + 2
    ends := mantissa % 2 = 0 }

/-- the point of the grid of `10 ^ place` that reads back and is nearest, if one does -/
def onGrid? (i : Interval) (exponent place : Int) : Option Nat :=
  let up := powerOfTwo (exponent - 2).toNat * powerOfTen (-place).toNat
  let unit := powerOfTwo (2 - exponent).toNat * powerOfTen place.toNat
  let value := i.value * up
  let inside (d : Nat) : Bool :=
    if i.ends then i.low * up ≤ d * unit && d * unit ≤ i.high * up
    else i.low * up < d * unit && d * unit < i.high * up
  let d := value / unit
  match inside d, inside (d + 1) with
  | true, true =>
    let twice := 2 * (value % unit)
    some (if unit < twice ∨ (twice = unit ∧ d % 2 = 1) then d + 1 else d)
  | true, false => some d
  | false, true => some (d + 1)
  | false, false => none

/-- the coarsest grid with a point that reads back, the counts of digits tried in order -/
def search (i : Interval) (exponent top : Int) : List Nat → Nat × Int
  | [] => (0, 0)
  | count :: more =>
    let place := top - count + 1
    match onGrid? i exponent place with
    | some d => (d, place)
    | none => search i exponent top more

/-- the shortest decimal of a positive number: an integer and the power of ten it is scaled by -/
def decimal (mantissa : Nat) (exponent : Int) : Nat × Int :=
  let top := magnitude (mantissa * powerOfTwo exponent.toNat) (powerOfTwo (-exponent).toNat)
  search (interval mantissa exponent) exponent top ((List.range 17).map (· + 1))

/-- a text without the zeros at its end -/
def withoutTrailingZeros (t : Text) : Text := (t.reverse.dropWhile (· = '0')).reverse

/-- digits laid out with their point after the first `point` of them; a whole number keeps one zero after the point -/
def positional (digits : Text) (point : Int) : Text :=
  if point ≤ 0 then "0.".toList ++ List.replicate (-point).toNat '0' ++ digits
  else
    let whole := digits.take point.toNat
    let part := digits.drop point.toNat
    whole ++ List.replicate (point.toNat - whole.length) '0' ++ ['.'] ++ (if part = [] then ['0'] else part)

/-- digits laid out with their point after the first, and an exponent -/
def scientific (layout : DecimalLayout) (digits : Text) (point : Int) : Text :=
  let e := point - 1
  let shown := Text.ofNat e.natAbs
  digits.take 1 ++ (if digits.length = 1 then [] else '.' :: digits.drop 1) ++ ['e', if e < 0 then '-' else '+'] ++
    List.replicate (layout.exponentDigits - shown.length) '0' ++ shown

/-- a positive number in its layout -/
def magnitudeText (layout : DecimalLayout) (mantissa : Nat) (exponent : Int) : Text :=
  let (d, place) := decimal mantissa exponent
  let shown := Text.ofNat d
  let digits := withoutTrailingZeros shown
  let point : Int := shown.length + place
  if layout.leastPoint ≤ point ∧ point ≤ layout.greatestPoint then positional digits point
  else scientific layout digits point

end Shortest

/-- the text of a number -/
def Binary64.text (layout : DecimalLayout) : Binary64 → Text
  | .nan => "nan".toList
  | .infinite negative => (if negative then ['-'] else []) ++ "inf".toList
  | .finite negative m e =>
    (if negative then ['-'] else []) ++ (if m = 0 then "0.0".toList else Shortest.magnitudeText layout m e)

end Componentry
