/-
The tokens of a text, in order.

A token that can be a key is marked until its `:` is found or can no longer come: on another line, or more than 1024
characters on. When the `:` is found the key token, and the start of a mapping if it is indented further, are put in
front of the marked token. Reading never fails as a whole: where it cannot go on it leaves an `unreadable` token, in
front of the first marked token, since that one was not settled either.
-/
import Componentry.Yaml.Scalar.Block
import Componentry.Yaml.Scalar.Quoted
import Componentry.Yaml.Token

namespace Componentry.Yaml

/-- a place in a text -/
structure Position where
  line : Nat
  column : Nat
  index : Nat
  deriving DecidableEq

/-- the place after a character -/
def Position.step (p : Position) (c : Char) : Position :=
  if isBreak c then ⟨p.line + 1, 0, p.index + 1⟩
  else if c = byteOrderMark then ⟨p.line, p.column, p.index + 1⟩
  else ⟨p.line, p.column + 1, p.index + 1⟩

/-- a token that can be a key: its number, its place, and whether it must be one -/
structure KeyMark where
  token : Nat
  place : Position
  required : Bool

/-- the state of reading: what is left, the tokens so far (the last one first), the indentation and those around it,
whether the next token can be a key, and the marks of this pair of brackets and of those around it -/
structure Lexer where
  rest : Text
  place : Position
  tokens : List Token
  indent : Int
  outerIndents : List Int
  keyAllowed : Bool
  mark : Option KeyMark
  outerMarks : List (Option KeyMark)

namespace Lexer

/-- the start of a text -/
def start (t : Text) : Lexer := ⟨t, ⟨0, 0, 0⟩, [], -1, [], true, none, []⟩

/-- whether the place is inside brackets -/
def inFlow (s : Lexer) : Bool := s.outerMarks ≠ []

/-- the column of the place -/
def column (s : Lexer) : Int := s.place.column

/-- the state with what is left made shorter -/
def goTo (s : Lexer) (rest : Text) : Lexer :=
  { s with
    rest := rest
    place := (s.rest.take (s.rest.length - rest.length)).foldl Position.step s.place }

/-- the state with one more token -/
def emit (s : Lexer) (token : Token) : Lexer := { s with tokens := token :: s.tokens }

/-- the tokens with some put in front of the one with a number -/
def insertTokens (s : Lexer) (number : Nat) (tokens : List Token) : Lexer :=
  let later := s.tokens.length - number
  { s with tokens := s.tokens.take later ++ tokens.reverse ++ s.tokens.drop later }

/-! ## Marks -/

/-- whether a mark is too far back -/
def isStale (s : Lexer) (m : KeyMark) : Bool := m.place.line ≠ s.place.line || 1024 < s.place.index - m.place.index

/-- the marks that still hold -/
def marks (s : Lexer) : List KeyMark := (s.mark :: s.outerMarks).filterMap fun m => m.filter fun k => !s.isStale k

/-- the state without the marks that are too far back; one that had to become a key is a fault -/
def dropStale (s : Lexer) : Except Fault Lexer :=
  let lost (m : Option KeyMark) : Bool := m.any fun k => s.isStale k && k.required
  if (s.mark :: s.outerMarks).any lost then .error .malformed
  else
    let held (m : Option KeyMark) : Option KeyMark := m.filter fun k => !s.isStale k
    .ok { s with mark := held s.mark, outerMarks := s.outerMarks.map held }

/-- the state without the mark of this pair of brackets -/
def dropMark (s : Lexer) : Except Fault Lexer :=
  if s.mark.any (·.required) then .error .malformed else .ok { s with mark := none }

/-- the state with a mark for the next token, if that can be a key -/
def setMark (s : Lexer) : Except Fault Lexer :=
  if s.keyAllowed then
    s.dropMark.map fun s =>
      { s with mark := some ⟨s.tokens.length, s.place, !s.inFlow && s.indent = s.column⟩ }
  else .ok s

/-! ## Indentation -/

/-- the indentations left when only those up to a column stay: the innermost, those around it, and how many blocks
end -/
def unwind (column indent : Int) : List Int → Int × List Int × Nat
  | [] => (indent, [], 0)
  | outer :: more =>
    if column < indent then
      let (i, is, n) := unwind column outer more
      (i, is, n + 1)
    else (indent, outer :: more, 0)

/-- the blocks that are indented further than a column are ended; brackets ignore the indentation -/
def endBlocks (s : Lexer) (column : Int) : Lexer :=
  if s.inFlow then s
  else
    let (indent, outer, n) := unwind column s.indent s.outerIndents
    { s with indent := indent, outerIndents := outer, tokens := List.replicate n .blockEnd ++ s.tokens }

/-- whether a block starts at a column -/
def startsBlock (s : Lexer) (column : Int) : Bool := !s.inFlow && s.indent < column

/-- the state inside a block that starts at a column -/
def indented (s : Lexer) (column : Int) : Lexer :=
  { s with indent := column, outerIndents := s.indent :: s.outerIndents }

/-! ## Between tokens -/

/-- spaces, comments and line breaks in front are skipped; after a line break a key can come, but not in brackets -/
def skipBlank : Nat → Lexer → Lexer
  | 0, s => s
  | fuel + 1, s =>
    let rest := skipSpaces s.rest
    let rest := match rest with
      | '#' :: _ => skipLine rest
      | _ => rest
    match lineBreak? rest with
    | none => s.goTo rest
    | some (_, after) =>
      let next := s.goTo after
      skipBlank fuel { next with keyAllowed := next.keyAllowed || !next.inFlow }

/-- the place of the next token -/
def toNext (s : Lexer) : Lexer :=
  match s.rest with
  | c :: rest =>
    let s := if s.place.index = 0 ∧ c = byteOrderMark then s.goTo rest else s
    skipBlank (s.rest.length + 1) s
  | [] => s

/-! ## Tokens -/

/-- a token of a fixed length -/
def advance (s : Lexer) (length : Nat) (token : Token) : Lexer := (s.goTo (s.rest.drop length)).emit token

/-- a directive or a line that separates documents: all blocks end -/
def atDocument (s : Lexer) (read : Lexer → Except Fault Lexer) : Except Fault Lexer :=
  (s.endBlocks (-1)).dropMark.bind fun s => read { s with keyAllowed := false }

/-- a directive -/
def directive (s : Lexer) : Except Fault Lexer :=
  (Token.directive (s.rest.drop 1)).map fun (token, rest) => (s.goTo rest).emit token

/-- an opening bracket -/
def openFlow (s : Lexer) (token : Token) : Except Fault Lexer :=
  s.setMark.map fun s =>
    { s.advance 1 token with keyAllowed := true, mark := none, outerMarks := s.mark :: s.outerMarks }

/-- a closing bracket; there must be an open one -/
def closeFlow (s : Lexer) (token : Token) : Except Fault Lexer :=
  match s.outerMarks with
  | [] => .error .malformed
  | outer :: more => .ok { s.advance 1 token with keyAllowed := false, mark := outer, outerMarks := more }

/-- a comma -/
def separator (s : Lexer) : Except Fault Lexer :=
  s.dropMark.map fun s => { s.advance 1 .separator with keyAllowed := true }

/-- a sign at which a block can start: a key must be allowed there, except in brackets -/
def blockSign (s : Lexer) (start : Token) : Except Fault Lexer :=
  if !s.inFlow && !s.keyAllowed then .error .malformed
  else .ok (if s.startsBlock s.column then (s.indented s.column).emit start else s)

/-- the `-` of an entry -/
def entry (s : Lexer) : Except Fault Lexer :=
  (s.blockSign .blockSequence).bind fun s =>
  s.dropMark.map fun s => { s.advance 1 .entry with keyAllowed := true }

/-- the `?` of a key -/
def explicitKey (s : Lexer) : Except Fault Lexer :=
  (s.blockSign .blockMapping).bind fun s =>
  s.dropMark.map fun s => { s.advance 1 .key with keyAllowed := !s.inFlow }

/-- the `:` of a value: the marked token is the key, and if there is none the key is empty or was written with `?` -/
def value (s : Lexer) : Except Fault Lexer :=
  match s.mark with
  | some m =>
    let column : Int := m.place.column
    let s := if s.startsBlock column then (s.indented column).insertTokens m.token [.blockMapping, .key]
      else s.insertTokens m.token [.key]
    .ok { s.advance 1 .value with keyAllowed := false, mark := none }
  | none =>
    (s.blockSign .blockMapping).map fun s => { s.advance 1 .value with keyAllowed := !s.inFlow }

/-- a token that can be a key -/
def markable (s : Lexer) (read : Lexer → Except Fault Lexer) : Except Fault Lexer :=
  s.setMark.bind fun s => read { s with keyAllowed := false }

/-- an anchor or alias -/
def name (s : Lexer) (token : Text → Token) : Except Fault Lexer :=
  match Token.name? (s.rest.drop 1) with
  | none => .error (Token.wordFault (s.rest.drop 1))
  | some (n, rest) => .ok ((s.goTo rest).emit (token n))

/-- a tag -/
def tag (s : Lexer) : Except Fault Lexer :=
  match Token.tag? (s.rest.drop 1) with
  | none => .error (Token.wordFault (s.rest.drop 1))
  | some (token, rest) => .ok ((s.goTo rest).emit token)

/-- a block scalar -/
def block (s : Lexer) (folded : Bool) : Except Fault Lexer :=
  s.dropMark.bind fun s =>
    match Block.read? folded s.indent (s.rest.drop 1) with
    | none => .error .malformed
    | some (text, rest) => .ok { (s.goTo rest).emit (.scalar text false) with keyAllowed := true }

/-- a quoted scalar -/
def quoted (s : Lexer) (double : Bool) : Except Fault Lexer :=
  (Quoted.read double (s.rest.drop 1)).map fun r => (s.goTo r.2).emit (.scalar r.1 false)

/-- a plain scalar; if a line break came last, a key can follow -/
def plain (s : Lexer) : Except Fault Lexer :=
  let r := Plain.read s.inFlow (s.indent + 1) s.rest
  .ok { (s.goTo r.rest).emit (.scalar r.text true) with keyAllowed := r.crossed }

/-- whether a plain scalar can start with a character, given what follows it -/
def startsPlain (flow : Bool) (c : Char) (rest : Text) : Bool :=
  !(isSpace c || isBreak c || "-?:,[]\x7b\x7d#&*!|>'\"%@`".toList.contains c) ||
  (!endsWord rest && (c = '-' || (!flow && (c = '?' || c = ':'))))

/-- the next token, which starts with `c` -/
def token (s : Lexer) (c : Char) (after : Text) : Except Fault Lexer :=
  let sign := endsWord after
  if c = '%' ∧ s.place.column = 0 then s.atDocument directive
  else if s.place.column = 0 ∧ separatesDocuments (c :: after) then
    s.atDocument fun s => .ok (s.advance 3 (if c = '-' then .documentStart else .documentEnd))
  else if c = '[' then s.openFlow .flowSequence
  else if c = '\x7b' then s.openFlow .flowMapping
  else if c = ']' then s.closeFlow .flowSequenceEnd
  else if c = '\x7d' then s.closeFlow .flowMappingEnd
  else if c = ',' then s.separator
  else if c = '-' ∧ sign then s.entry
  else if c = '?' ∧ (s.inFlow ∨ sign) then s.explicitKey
  else if c = ':' ∧ (s.inFlow ∨ sign) then s.value
  else if c = '*' then s.markable fun s => s.name .alias
  else if c = '&' then s.markable fun s => s.name .anchor
  else if c = '!' then s.markable tag
  else if c = '|' ∧ !s.inFlow then s.block false
  else if c = '>' ∧ !s.inFlow then s.block true
  else if c = '\'' then s.markable fun s => s.quoted false
  else if c = '"' then s.markable fun s => s.quoted true
  else if startsPlain s.inFlow c after then s.markable plain
  else .error .malformed

/-- the state after the next token, and whether there was one -/
def next (s : Lexer) : Except Fault (Lexer × Bool) :=
  s.toNext.dropStale.bind fun s =>
    let s := s.endBlocks s.column
    match s.rest with
    | [] => (s.endBlocks (-1)).dropMark.map fun s => (s, false)
    | c :: after => (s.token c after).map fun s => (s, true)

/-- the number of the first token that is still marked, or of the next one -/
def unsettled (s : Lexer) : Nat := (s.marks.map (·.token)).foldl min s.tokens.length

/-- the tokens of a text that cannot be read on, given why -/
def blocked (s : Lexer) (f : Fault) : List Token := (s.insertTokens s.unsettled [.unreadable f]).tokens.reverse

/-- the tokens from a state on; `fuel` bounds their number. If the text stops for some reason, a token that reaches its
end cannot be read. -/
def run (stop : Option Fault) : Nat → Lexer → List Token
  | 0, s => s.tokens.reverse
  | fuel + 1, s =>
    match s.next, stop with
    | .error .unfinished, some f => s.blocked f
    | .error .unfinished, none => s.blocked .malformed
    | .error f, _ => s.blocked f
    | .ok (next, _), some f => if next.rest = [] then s.blocked f else run stop fuel next
    | .ok (next, true), none => run stop fuel next
    | .ok (next, false), none => next.tokens.reverse

end Lexer

/-- the tokens of a text that ends or, for some reason, stops -/
def Token.ofText (t : Text) (stop : Option Fault) : List Token := Lexer.run stop (t.length + 1) (.start t)

end Componentry.Yaml
