/-
Quoted scalars.

In single quotes a quote is written twice and all else stands for itself; in double quotes a backslash introduces an
escape. In both a line break is folded into one space, or into the empty lines after it, and the blanks around it are
dropped; a double-quoted line may also end in a backslash, which joins it to the next. Texts hold no lone surrogates: an
escape of one is read as the replacement character U+FFFD.
-/
import Componentry.Yaml.Scalar.Plain
import Componentry.Yaml.Fault
import Componentry.Decimal.Digits

namespace Componentry.Yaml.Quoted

/-- the characters that stand for another one after a backslash -/
def escapes : List (Char × Char) :=
  [('0', '\x00'), ('a', '\x07'), ('b', '\x08'), ('t', '\t'), ('\t', '\t'), ('n', '\n'), ('v', '\x0B'), ('f', '\x0C'),
   ('r', '\r'), ('e', '\x1B'), (' ', ' '), ('"', '"'), ('\\', '\\'), ('/', '/'), ('N', '\u0085'), ('_', '\u00A0'),
   ('L', '\u2028'), ('P', '\u2029')]

/-- the number of hexadecimal digits after a backslash and a letter -/
def codeLength? (c : Char) : Option Nat := [('x', 2), ('u', 4), ('U', 8)].lookup c

/-- the empty lines after a line break, and what follows the blanks after them; none at a line that separates
documents -/
def blankLines (atStart : Bool) (t : Text) : Option (Text × Text) :=
  if atStart && separatesDocuments t then none
  else match t with
    | '\r' :: '\n' :: rest => (blankLines true rest).map fun r => ('\n' :: r.1, r.2)
    | [] => some ([], [])
    | c :: rest =>
      if isSpace c then blankLines false rest
      else if isBreak c then
        (blankLines true rest).map fun r => ((if c = '\u2028' ∨ c = '\u2029' then c else '\n') :: r.1, r.2)
      else some ([], c :: rest)

/-- blanks and line breaks between two pieces, as they are read, and what follows them -/
def gap (t : Text) : Except Fault (Text × Text) :=
  let after := t.dropWhile isSpace
  match lineBreak? after with
  | none => .ok (t.takeWhile isSpace, after)
  | some (first, rest) =>
    match blankLines true rest with
    | none => .error .malformed
    | some (breaks, rest) => .ok (Plain.fold first breaks, rest)

/-- the character with a code; a code that is kept for halves of characters stands for the replacement character -/
def character (code : Nat) : Except Fault Char :=
  if 0x10FFFF < code then .error (.noCharacter code)
  else if 0xD800 ≤ code ∧ code < 0xE000 then .ok '\uFFFD'
  else .ok (Char.ofNat code)

/-- what an escape stands for, after its backslash, and what follows it -/
def escape (t : Text) : Except Fault (Text × Text) :=
  match t with
  | [] => .error .unfinished
  | c :: rest =>
    match escapes.lookup c, codeLength? c with
    | some d, _ => .ok ([d], rest)
    | none, some n =>
      let digits := rest.take n
      if !digits.all (Digit.isOf 16) then .error .malformed
      else if digits.length < n then .error .unfinished
      else (character (Digits.value 16 digits)).map fun d => ([d], rest.drop n)
    | none, none =>
      match lineBreak? t with
      | none => .error .malformed
      | some (_, rest) =>
        match blankLines true rest with
        | none => .error .malformed
        | some r => .ok r

/-- the next piece inside quotes and what follows it, or nothing at the closing quote -/
def piece (double : Bool) (t : Text) : Except Fault (Option Text × Text) :=
  match t with
  | [] => .error .unfinished
  | c :: rest =>
    if isSpace c || isBreak c then (gap t).map fun r => (some r.1, r.2)
    else if double then
      if c = '"' then .ok (none, rest)
      else if c = '\\' then (escape rest).map fun r => (some r.1, r.2)
      else .ok (some [c], rest)
    else if c = '\'' then
      match rest with
      | '\'' :: rest => .ok (some ['\''], rest)
      | _ => .ok (none, rest)
    else .ok (some [c], rest)

/-- the pieces up to the closing quote, and what follows it; `fuel` bounds their number -/
def pieces (double : Bool) : Nat → Text → Except Fault (Text × Text)
  | 0, _ => .error .malformed
  | fuel + 1, t =>
    match piece double t with
    | .error f => .error f
    | .ok (none, rest) => .ok ([], rest)
    | .ok (some p, rest) => (pieces double fuel rest).map fun r => (p ++ r.1, r.2)

/-- a quoted scalar after its opening quote, and what follows the closing one -/
def read (double : Bool) (t : Text) : Except Fault (Text × Text) := pieces double (t.length + 1) t

end Componentry.Yaml.Quoted
