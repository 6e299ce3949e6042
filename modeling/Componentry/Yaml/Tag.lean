/-
Tags: the kind of value that a node writes.

A plain scalar without a tag has the kind that its spelling shows, decided by the forms below; every other scalar is a
text.
-/
import Componentry.Yaml.Character
import Componentry.Decimal.Digits

namespace Componentry.Yaml

/-- the kinds of nodes -/
inductive Tag where
  | null
  | flag
  | whole
  | decimal
  | binary
  | time
  | text
  | sequence
  | mapping
  | set
  | ordered
  | pairs
  | merge
  | value
  | unknown
  deriving DecidableEq

namespace Tag

/-- what the tags of the language start with -/
def stem : Text := "tag:yaml.org,2002:".toList

/-- the tags of the language by name -/
def named : List (String × Tag) :=
  [("null", .null), ("bool", .flag), ("int", .whole), ("float", .decimal), ("binary", .binary), ("timestamp", .time),
   ("str", .text), ("seq", .sequence), ("map", .mapping), ("set", .set), ("omap", .ordered), ("pairs", .pairs),
   ("merge", .merge), ("value", .value)]

/-- the tag that a text spells in full -/
def ofText (t : Text) : Tag :=
  if stem.isPrefixOf t then
    match named.find? fun n => n.1.toList = t.drop stem.length with
    | some (_, tag) => tag
    | none => .unknown
  else .unknown

/-- whether nodes of a kind hold other nodes, and so are filled after they were met -/
def isCollection : Tag → Bool
  | .sequence | .mapping | .set | .ordered | .pairs => true
  | _ => false

/-! ## The forms of plain scalars -/

/-- one of the spellings -/
def isWord (words : List String) (t : Text) : Bool := words.any (·.toList = t)

/-- the spellings of a flag -/
def flagWords : List String :=
  ["yes", "Yes", "YES", "no", "No", "NO", "true", "True", "TRUE", "false", "False", "FALSE", "on", "On", "ON", "off",
   "Off", "OFF"]

/-- a text without a sign in front -/
def unsigned (t : Text) : Text := (Digits.signed t).2

/-- whether all characters are digits of a kind or underscores -/
def isSpaced (digit : Char → Bool) (t : Text) : Bool := t.all fun c => digit c || c = '_'

/-- a digit and any digits and underscores -/
def isDigits (t : Text) : Bool := t.head?.any Text.isDigit && isSpaced Text.isDigit t

/-- a count of sixtieths: one digit, or two below 60 -/
def isSixtieth : Text → Bool
  | [c] => Text.isDigit c
  | [c, d] => '0' ≤ c && c ≤ '5' && Text.isDigit d
  | _ => false

/-- whether a text has the form of a whole number: binary, octal after `0`, hexadecimal, decimal, or in parts of
sixtieths -/
def isWhole (t : Text) : Bool :=
  match unsigned t with
  | '0' :: 'b' :: rest => rest ≠ [] && rest.all fun c => c = '0' || c = '1' || c = '_'
  | '0' :: 'x' :: rest => rest ≠ [] && isSpaced (Digit.isOf 16) rest
  | '0' :: rest => isSpaced (Digit.isOf 8) rest
  | rest =>
    match Text.splitAt ':' rest with
    | first :: parts => first.head?.any (· ≠ '0') && isDigits first && parts.all isSixtieth
    | [] => false

/-- an exponent: nothing, or a letter, a sign and digits -/
def isExponent : Text → Bool
  | [] => true
  | e :: sign :: digits => (e = 'e' || e = 'E') && (sign = '-' || sign = '+') && digits ≠ [] && digits.all Text.isDigit
  | _ => false

/-- what follows the point of a decimal: digits and underscores, then an exponent -/
def isFraction (t : Text) : Bool :=
  isExponent (t.dropWhile fun c => Text.isDigit c || c = '_')

/-- whether an unsigned text is a decimal: digits on both sides of a point, with an exponent unless the whole part
has parts of sixtieths -/
def isPointed (t : Text) : Bool :=
  match t.dropWhile (· ≠ '.') with
  | '.' :: after =>
    match Text.splitAt ':' (t.takeWhile (· ≠ '.')) with
    | [] => false
    | [first] => isDigits first && isFraction after
    | first :: parts => isDigits first && parts.all isSixtieth && isSpaced Text.isDigit after
  | _ => false

/-- whether a text has the form of a decimal: always with a point -/
def isDecimal (t : Text) : Bool :=
  isPointed (unsigned t) || isWord [".inf", ".Inf", ".INF"] (unsigned t) || isWord [".nan", ".NaN", ".NAN"] t ||
  (match t with
  | '.' :: c :: rest => Text.isDigit c && isFraction rest
  | _ => false)

/-- the kind of a spelling without the line break at its end -/
def ofSpelling (isTime : Text → Bool) (t : Text) : Tag :=
  if isWord flagWords t then .flag
  else if isDecimal t then .decimal
  else if isWhole t then .whole
  else if t = "<<".toList then .merge
  else if isWord ["~", "null", "Null", "NULL", ""] t then .null
  else if isTime t then .time
  else if t = ['='] then .value
  else if isWord ["!", "&", "*"] t then .unknown
  else .text

/-- the kind that a spelling shows; one line break at its end does not matter, unless nothing else is there -/
def ofPlain (isTime : Text → Bool) (t : Text) : Tag :=
  if t = ['\n'] then .text
  else match t.reverse with
    | '\n' :: before => ofSpelling isTime before.reverse
    | _ => ofSpelling isTime t

end Tag

end Componentry.Yaml
