/-
Digits: the value of a character as a digit, and of a run of digits in a base.
-/
import Componentry.Text.Blank

namespace Componentry

/-- a power of two -/
def powerOfTwo (n : Nat) : Nat := Nat.pow 2 n

/-- a power of ten -/
def powerOfTen (n : Nat) : Nat := Nat.pow 10 n

namespace Digit

/-- the value of a digit or letter, letters of either case counting from ten -/
def value? (c : Char) : Option Nat :=
  let n := c.toNat
  if 48 ≤ n ∧ n ≤ 57 then some (n - 48)
  else if 97 ≤ n ∧ n ≤ 122 then some (n - 87)
  else if 65 ≤ n ∧ n ≤ 90 then some (n - 55)
  else none

/-- whether a character is a digit of a base -/
def isOf (base : Nat) (c : Char) : Bool :=
  match value? c with
  | some v => v < base
  | none => false

/-- the zeros beyond ASCII; the digits from one to nine follow each of them -/
def zeros : List Nat :=
  [0x660, 0x6F0, 0x7C0, 0x966, 0x9E6, 0xA66, 0xAE6, 0xB66, 0xBE6, 0xC66, 0xCE6, 0xD66, 0xDE6, 0xE50, 0xED0, 0xF20,
   0x1040, 0x1090, 0x17E0, 0x1810, 0x1946, 0x19D0, 0x1A80, 0x1A90, 0x1B50, 0x1BB0, 0x1C40, 0x1C50, 0xA620, 0xA8D0,
   0xA900, 0xA9D0, 0xA9F0, 0xAA50, 0xABF0, 0xFF10, 0x104A0, 0x10D30, 0x11066, 0x110F0, 0x11136, 0x111D0, 0x112F0,
   0x11450, 0x114D0, 0x11650, 0x116C0, 0x11730, 0x118E0, 0x11950, 0x11C50, 0x11D50, 0x11DA0, 0x16A60, 0x16AC0,
   0x16B50, 0x1D7CE, 0x1D7D8, 0x1D7E2, 0x1D7EC, 0x1D7F6, 0x1E140, 0x1E2F0, 0x1E950, 0x1FBF0]

/-- a character of a number in ASCII, if it is a decimal digit of some script or a blank -/
def inAscii (c : Char) : Char :=
  if c.toNat < 128 then c
  else match zeros.find? fun z => z ≤ c.toNat && c.toNat < z + 10 with
    | some z => Char.ofNat (48 + (c.toNat - z))
    | none => if Text.isBlank c then ' ' else c

end Digit

namespace Digits

/-- the blanks that may stand around a number -/
def isMargin (c : Char) : Bool := [9, 10, 11, 12, 13, 32].contains c.toNat

/-- a number in ASCII, without the blanks around it -/
def bare (t : Text) : Text :=
  (((t.map Digit.inAscii).dropWhile isMargin).reverse.dropWhile isMargin).reverse

/-- the number that digits write, most significant first -/
def value (base : Nat) (t : Text) : Nat := t.foldl (fun n c => base * n + (Digit.value? c).getD 0) 0

/-- the number that a text writes if it consists of digits of a base, at least one -/
def value? (base : Nat) (t : Text) : Option Nat :=
  if t ≠ [] ∧ t.all (Digit.isOf base) then some (value base t) else none

/-- a sign in front, if there is one, and what follows it -/
def signed (t : Text) : Bool × Text :=
  match t with
  | '-' :: rest => (true, rest)
  | '+' :: rest => (false, rest)
  | _ => (false, t)

/-- the letter that announces a base after a zero -/
def mark? : Nat → Option Char
  | 2 => some 'b'
  | 8 => some 'o'
  | 16 => some 'x'
  | _ => none

/-- the digits after a zero and the mark of the base, if they are there -/
def unmarked (base : Nat) (t : Text) : Text :=
  match t with
  | '0' :: c :: rest => if mark? base = some c.toLower then rest else t
  | _ => t

/-- a number before it is known whether it is one: its sign, its digits, and whether nothing else follows them -/
structure Run where
  negative : Bool
  digits : Text
  closed : Bool

/-- the digits of a base that a text begins with; blanks around them, a sign and the mark of the base are allowed -/
def run (base : Nat) (t : Text) : Run :=
  let (negative, rest) := signed (bare t)
  let body := unmarked base rest
  let digits := body.takeWhile (Digit.isOf base)
  ⟨negative, digits, digits.length = body.length⟩

/-- the whole number that digits of a base write, if there is at least one and nothing else -/
def Run.whole? (base : Nat) (r : Run) : Option Int :=
  if r.closed ∧ r.digits ≠ [] then
    let n : Int := value base r.digits
    some (if r.negative then -n else n)
  else none

end Digits

end Componentry
