/-
The tokens of a YAML text, and the reading of those that are written as words: anchors, tags and directives.
-/
import Componentry.Yaml.Character
import Componentry.Yaml.Fault
import Componentry.Decimal.Digits
import Componentry.Text.Utf8

namespace Componentry.Yaml

/-- the tokens; the starts and ends of blocks come from the indentation. A text that cannot be read on has an
`unreadable` token where that is noticed. -/
inductive Token where
  | version (major : Nat)
  | handle (name stem : Text)
  | reserved
  | documentStart
  | documentEnd
  | blockSequence
  | blockMapping
  | blockEnd
  | flowSequence
  | flowSequenceEnd
  | flowMapping
  | flowMappingEnd
  | entry
  | separator
  | key
  | value
  | anchor (name : Text)
  | alias (name : Text)
  | tag (handle : Option Text) (suffix : Text)
  | scalar (text : Text) (plain : Bool)
  | unreadable (fault : Fault)
  deriving DecidableEq

namespace Token

/-- the name after `&` or `*`, and what follows it -/
def name? (t : Text) : Option (Text × Text) :=
  let name := t.takeWhile isNameChar
  let rest := t.drop name.length
  let follows (c : Char) : Bool := isSpace c || isBreak c || "?:,]\x7d%@`".toList.contains c
  if name ≠ [] ∧ endsOr follows rest then some (name, rest) else none

/-! ## Tags -/

/-- the text of the bytes that escapes wrote -/
def flush (bytes : List UInt8) (rest : Text × Text) : Option (Text × Text) :=
  match Utf8.decode bytes with
  | .ok t => some (t ++ rest.1, rest.2)
  | .error _ => none

/-- the characters of a tag in front, and what follows them; `%` and two hexadecimal digits write a byte -/
def tagCharsFrom (bytes : List UInt8) : Text → Option (Text × Text)
  | '%' :: a :: b :: rest =>
    if Digit.isOf 16 a && Digit.isOf 16 b then tagCharsFrom (bytes ++ [UInt8.ofNat (Digits.value 16 [a, b])]) rest
    else none
  | '%' :: _ => none
  | c :: rest =>
    if isTagChar c then (tagCharsFrom [] rest).bind fun r => flush bytes (c :: r.1, r.2)
    else flush bytes ([], c :: rest)
  | [] => flush bytes ([], [])

/-- the characters of a tag in front, at least one, and what follows them -/
def tagChars? (t : Text) : Option (Text × Text) :=
  match tagCharsFrom [] t with
  | some ([], _) => none
  | r => r

/-- the handle in front, from its `!` to the next one, and what follows it; before a space it is `!` alone -/
def tagHandle? (t : Text) : Option (Text × Text) :=
  match t with
  | '!' :: rest =>
    if rest.head? = some ' ' then some (['!'], rest)
    else
      let name := rest.takeWhile isNameChar
      match rest.drop name.length with
      | '!' :: after => some ('!' :: name ++ ['!'], after)
      | _ => none
  | _ => none

/-- a handle and the characters after it -/
def handled? (t : Text) : Option (Token × Text) :=
  match tagHandle? t with
  | none => none
  | some (h, rest) => (tagChars? rest).map fun r => (tag (some h) r.1, r.2)

/-- a tag after its `!`, before it is known how it ends: in angle brackets, a `!` alone, or with a handle -/
def openTag? (t : Text) : Option (Token × Text) :=
  match t with
  | '<' :: rest =>
    match tagChars? rest with
    | some (name, '>' :: after) => some (tag none name, after)
    | _ => none
  | _ =>
    if endsWord t then some (tag none ['!'], t)
    else if (t.takeWhile fun c => !(c = ' ' || isBreak c)).contains '!' then handled? ('!' :: t)
    else (tagChars? t).map fun r => (tag (some ['!']) r.1, r.2)

/-- a tag after its `!`, and what follows it -/
def tag? (t : Text) : Option (Token × Text) :=
  match openTag? t with
  | some (token, rest) => if endsField rest then some (token, rest) else none
  | none => none

/-- why a word cannot be read: it is unfinished if nothing ends it -/
def wordFault (t : Text) : Fault := if t.any fun c => isSpace c || isBreak c then .malformed else .unfinished

/-! ## Directives -/

/-- why a line cannot be read: it is unfinished if nothing ends it -/
def lineFault (t : Text) : Fault := if t.any isBreak then .malformed else .unfinished

/-- the greatest number of digits in a version -/
def digitLimit : Nat := 4300

/-- a number in a version, and what follows it -/
def versionNumber (t : Text) : Except Fault (Nat × Text) :=
  let digits := t.takeWhile Text.isDigit
  if digitLimit < digits.length then .error (.tooManyDigits digits.length)
  else match Digits.value? 10 digits with
    | some n => .ok (n, t.drop digits.length)
    | none => .error (lineFault t)

/-- two numbers with a point between them -/
def versionNumbers (t : Text) : Except Fault (Token × Text) :=
  (versionNumber (skipSpaces t)).bind fun (major, rest) =>
    match rest with
    | '.' :: rest =>
      (versionNumber rest).bind fun (_, rest) =>
        if endsField rest then .ok (version major, rest) else .error (lineFault rest)
    | _ => .error (lineFault rest)

/-- a handle and what it stands for -/
def handleMeaning? (t : Text) : Option (Token × Text) :=
  match tagHandle? (skipSpaces t) with
  | some (name, ' ' :: rest) =>
    match tagChars? (skipSpaces rest) with
    | some (stem, rest) => if endsField rest then some (handle name stem, rest) else none
    | none => none
  | _ => none

/-- what a directive says after its name -/
def directiveMeaning (name t : Text) : Except Fault (Token × Text) :=
  if name = "YAML".toList then versionNumbers t
  else if name = "TAG".toList then
    match handleMeaning? t with
    | some r => .ok r
    | none => .error (lineFault t)
  else .ok (reserved, skipLine t)

/-- a directive after its `%`, and what follows its line; one with an unknown name is skipped -/
def directive (t : Text) : Except Fault (Token × Text) :=
  let name := t.takeWhile isNameChar
  let rest := t.drop name.length
  if name = [] ∨ !endsField rest then .error (lineFault t)
  else (directiveMeaning name rest).bind fun (token, after) =>
    match skipIgnored? after with
    | some next => .ok (token, next)
    | none => .error (lineFault after)

end Token

end Componentry.Yaml
