/-
The values that scalars write, by kind.
-/
import Componentry.Text.Lower
import Componentry.Yaml.Node
import Componentry.Yaml.Value

namespace Componentry.Yaml.Scalar

/-- the flag that a word means, in any letter case -/
def flag (t : Text) : Except Fault Value :=
  let word := Text.lower t
  if ["yes", "true", "on"].any (·.toList = word) then .ok (.flag true)
  else if ["no", "false", "off"].any (·.toList = word) then .ok (.flag false)
  else .error (.noFlag word)

/-- a number without its underscores -/
def compact (t : Text) : Text := t.filter (· ≠ '_')

/-- the greatest number of decimal digits that are read -/
def digitLimit : Nat := 4300

/-- the whole number that a text writes in a base -/
def wholeIn (base : Nat) (t : Text) : Except Fault Int :=
  let run := Digits.run base t
  if base = 10 ∧ digitLimit < run.digits.length then .error (.tooManyDigits run.digits.length)
  else match run.whole? base with
    | some n => .ok n
    | none => .error (.noWhole base t)

/-- parts of sixtieths as one number, the last part counting single -/
def inSixtieths (parts : List Int) : Int := parts.foldl (fun n p => n * 60 + p) 0

/-- the whole number after a sign: binary after `0b`, hexadecimal after `0x`, octal after another `0` -/
def unsignedWhole (t : Text) : Except Fault Int :=
  match t with
  | [] => .error .noDigits
  | ['0'] => .ok 0
  | '0' :: 'b' :: rest => wholeIn 2 rest
  | '0' :: 'x' :: rest => wholeIn 16 rest
  | '0' :: _ => wholeIn 8 t
  | _ => if t.contains ':' then inSixtieths <$> (Text.splitAt ':' t).mapM (wholeIn 10) else wholeIn 10 t

/-- a whole number; underscores in it do not count -/
def whole (t : Text) : Except Fault Value :=
  let digits := compact t
  if digits = [] then .error .noDigits
  else
    let (negative, rest) := Digits.signed digits
    (unsignedWhole rest).map fun n => .whole (if negative then -n else n)

/-- the decimal that a text writes -/
def pointed (t : Text) : Except Fault Binary64 :=
  match Binary64.ofText? t with
  | some x => .ok x
  | none => .error (.noDecimal t)

/-- parts of sixtieths, the last one first, added up from the given sum and weight on; every step is rounded -/
def sumSixtieths (sum : Binary64) (weight : Nat) : List Binary64 → Except Fault Binary64
  | [] => .ok sum
  | part :: more =>
    match Binary64.ofNat? weight with
    | some w => sumSixtieths (sum.add (part.mul w)) (weight * 60) more
    | none => .error .tooManySixtieths

/-- the decimal after a sign: infinite, in parts of sixtieths, or plain -/
def unsignedDecimal (t : Text) : Except Fault Binary64 :=
  if t = ".inf".toList then .ok (.infinite false)
  else if t.contains ':' then
    ((Text.splitAt ':' t).mapM pointed).bind fun parts => sumSixtieths (.zero false) 1 parts.reverse
  else pointed t

/-- a decimal with a sign; the one that is no number is the node's own -/
def signedDecimal (node : Nat) (negative : Bool) (x : Binary64) : Value :=
  if x = .nan then .noNumber (some node) else .decimal (if negative then x.neg else x)

/-- a decimal; underscores in it do not count. `.nan` is the same for all nodes. -/
def decimal (node : Nat) (t : Text) : Except Fault Value :=
  let digits := Text.lower (compact t)
  if digits = [] then .error .noDigits
  else
    let (negative, rest) := Digits.signed digits
    if rest = ".nan".toList then .ok (.noNumber none)
    else (unsignedDecimal rest).map (signedDecimal node negative)

/-! ## Bytes in sixty-four letters -/

/-- the six bits that a letter stands for -/
def sixBits? (c : Char) : Option Nat :=
  if Text.isCapital c then some (c.toNat - 65)
  else if Text.isLower c then some (c.toNat - 71)
  else if Text.isDigit c then some (c.toNat + 4)
  else if c = '+' then some 62
  else if c = '/' then some 63
  else none

/-- the bytes that letters write, three for four letters; what is no letter is skipped, and `=` fills up the last
four. `held` are the bits of the letters read since the last full byte, `place` their count of letters, and `pads` the
signs since the last letter. -/
def bytesFrom (place held pads : Nat) : Text → Option (List UInt8)
  | [] => if place = 0 then some [] else none
  | c :: rest =>
    if c = '=' then
      if 2 ≤ place then (if 4 ≤ place + pads + 1 then some [] else bytesFrom place held (pads + 1) rest)
      else bytesFrom place held pads rest
    else match sixBits? c with
      | none => bytesFrom place held pads rest
      | some v =>
        let all := held * 64 + v
        match place with
        | 0 => bytesFrom 1 v 0 rest
        | 1 => (bytesFrom 2 (all % 16) 0 rest).map (UInt8.ofNat (all / 16) :: ·)
        | 2 => (bytesFrom 3 (all % 4) 0 rest).map (UInt8.ofNat (all / 4) :: ·)
        | _ => (bytesFrom 0 0 0 rest).map (UInt8.ofNat all :: ·)

/-- bytes; only ASCII may stand in them -/
def bytes (t : Text) : Except Fault Value :=
  if t.any fun c => 127 < c.toNat then .error .malformed
  else match bytesFrom 0 0 0 t with
    | some b => .ok (.bytes b)
    | none => .error .malformed

/-- the value of a node of a kind, which is a scalar with the given text -/
def value (node : Nat) (tag : Tag) (t : Text) : Except Fault Value :=
  match tag with
  | .null => .ok .null
  | .flag => flag t
  | .whole => whole t
  | .decimal => decimal node t
  | .binary => bytes t
  | .time => (Timestamp.ofText t).map .time
  | .text => .ok (.text t)
  | _ => .error .malformed

end Componentry.Yaml.Scalar
