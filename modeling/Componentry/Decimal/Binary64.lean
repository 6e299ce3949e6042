/-
Binary floating point numbers with 53 significant bits, as exact fractions.

A finite number is a sign, a mantissa and a power of two. `nearest` rounds any fraction to the number next to it, a
fraction in the middle of two going to the one with the even mantissa; reading and arithmetic are exact fractions
rounded once.
-/
import Componentry.Decimal.Digits

namespace Componentry

/-- a number: `mantissa * 2 ^ exponent` with a sign, or one of the values that are none -/
inductive Binary64 where
  | nan
  | infinite (negative : Bool)
  | finite (negative : Bool) (mantissa : Nat) (exponent : Int)
  deriving DecidableEq

namespace Binary64

/-- the least exponent -/
def minExponent : Int := -1074

/-- the greatest exponent -/
def maxExponent : Int := 971

/-- the number of mantissas -/
def mantissaLimit : Nat := powerOfTwo 53

/-- zero with a sign -/
def zero (negative : Bool) : Binary64 := .finite negative 0 minExponent

/-- the whole number nearest to a fraction, the even one of two -/
def roundDiv (num den : Nat) : Nat :=
  let q := num / den
  let twice := 2 * (num % den)
  if den < twice ∨ (twice = den ∧ q % 2 = 1) then q + 1 else q

/-- a fraction in units of a power of two -/
def inUnits (num den : Nat) (exponent : Int) : Nat × Nat :=
  (num * powerOfTwo (-exponent).toNat, den * powerOfTwo exponent.toNat)

/-- the exponent at which a fraction has a mantissa of full length, or the least one -/
def exponentFor (num den : Nat) : Int :=
  let guess := (num.log2 : Int) - den.log2 - 53
  let (n, d) := inUnits num den guess
  max minExponent (if n < mantissaLimit * d then guess else guess + 1)

/-- the number nearest to a fraction -/
def nearest (negative : Bool) (num den : Nat) : Binary64 :=
  if num = 0 then zero negative
  else
    let exponent := exponentFor num den
    let (n, d) := inUnits num den exponent
    let m := roundDiv n d
    let (m, exponent) := if m = mantissaLimit then (m / 2, exponent + 1) else (m, exponent)
    if maxExponent < exponent then .infinite negative else .finite negative m exponent

/-- the number nearest to `n * 10 ^ e`; exponents far outside the range are decided without computing the power -/
def ofDecimal (negative : Bool) (n : Nat) (e : Int) : Binary64 :=
  let size : Int := (Nat.toDigits 10 n).length + e
  if n = 0 ∨ size < -400 then zero negative
  else if 400 < size then .infinite negative
  else nearest negative (n * powerOfTen e.toNat) (powerOfTen (-e).toNat)

/-- the same magnitude with the other sign -/
def neg : Binary64 → Binary64
  | .nan => .nan
  | .infinite s => .infinite (!s)
  | .finite s m e => .finite (!s) m e

/-- a finite number as a signed fraction with a power of two below -/
def fraction (negative : Bool) (m : Nat) (e : Int) : Int × Nat :=
  let n : Int := m * powerOfTwo e.toNat
  (if negative then -n else n, powerOfTwo (-e).toNat)

/-- the number nearest to a sum -/
def add : Binary64 → Binary64 → Binary64
  | .nan, _ | _, .nan => .nan
  | .infinite s, .infinite s' => if s = s' then .infinite s else .nan
  | .infinite s, _ | _, .infinite s => .infinite s
  | .finite s m e, .finite s' m' e' =>
    let (n, d) := fraction s m e
    let (n', d') := fraction s' m' e'
    let sum := n * d' + n' * d
    if sum = 0 then zero (s && s') else nearest (sum < 0) sum.natAbs (d * d')

/-- the number nearest to a product -/
def mul : Binary64 → Binary64 → Binary64
  | .nan, _ | _, .nan => .nan
  | .infinite s, .infinite s' => .infinite (s ≠ s')
  | .infinite s, .finite s' m _ | .finite s' m _, .infinite s => if m = 0 then .nan else .infinite (s ≠ s')
  | .finite s m e, .finite s' m' e' =>
    let (n, d) := fraction false m e
    let (n', d') := fraction false m' e'
    nearest (s ≠ s') (n * n').natAbs (d * d')

/-- the number nearest to a whole number, unless that is beyond all finite numbers -/
def ofNat? (n : Nat) : Option Binary64 :=
  match nearest false n 1 with
  | .finite s m e => some (.finite s m e)
  | _ => none

/-- whether a finite number is the given whole number -/
def isWhole (x : Binary64) (n : Int) : Bool :=
  match x with
  | .finite s m e =>
    let (num, den) := fraction s m e
    num = n * den
  | _ => false

/-- numbers that count as the same: a zero has no sign -/
def same (x y : Binary64) : Bool :=
  match x, y with
  | .finite s m e, .finite s' m' e' => m = m' && e = e' && (s = s' || m = 0)
  | x, y => x = y

/-! ## Reading -/

/-- the exponent part of a decimal: nothing, or a letter and a signed whole number -/
def exponentPart? : Text → Option Int
  | [] => some 0
  | c :: rest =>
    if c ≠ 'e' ∧ c ≠ 'E' then none
    else
      let (negative, digits) := Digits.signed rest
      (Digits.value? 10 digits).map fun n => if negative then -(n : Int) else n

/-- an unsigned decimal: digits with a point among them, then the exponent part -/
def decimal? (negative : Bool) (t : Text) : Option Binary64 :=
  let digit := Digit.isOf 10
  let whole := t.takeWhile digit
  let rest := t.dropWhile digit
  let (part, rest) := match rest with
    | '.' :: rest => (rest.takeWhile digit, rest.dropWhile digit)
    | _ => ([], rest)
  if whole = [] ∧ part = [] then none
  else (exponentPart? rest).map fun e => ofDecimal negative (Digits.value 10 (whole ++ part)) (e - part.length)

/-- the number a text writes in decimal or by name, blanks around it allowed -/
def ofText? (t : Text) : Option Binary64 :=
  let (negative, rest) := Digits.signed (Digits.bare t)
  let word := rest.map Char.toLower
  if word = "inf".toList ∨ word = "infinity".toList then some (.infinite negative)
  else if word = "nan".toList then some .nan
  else decimal? negative rest

end Binary64

end Componentry
