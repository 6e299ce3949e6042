/-
Markup: texts in which words in square brackets are tags, an opening one such as `[bold]` or a closing one such as
`[/bold]` or `[/]`.

What is shown of such a text is the text without its tags. A backslash in front of a tag makes it plain text, two of
them are one backslash; a backslash in front of any other opening bracket is dropped. A closing tag must have an opening
one that it closes, or nothing of the text can be shown. The words of a tag are a style, and are compared by their
spelling, short names for one word apart; what follows a `=` in them, or is in parentheses behind an `@`, is not looked at.
-/
import Componentry.Slug
import Componentry.Text.Blank
import Componentry.Text.Lower

namespace Componentry.Console

/-- a closing tag that closes nothing: its words, and where it stands in the text -/
structure Markup.Fault where
  words : Text
  position : Nat
  deriving DecidableEq

namespace Markup

/-- a part of a text: plain, or a tag by its words and its place -/
inductive Piece where
  | plain (t : Text)
  | tag (words : Text) (position : Nat)

/-! ## Pieces -/

/-- whether a tag can begin with a character -/
def startsTag (c : Char) : Bool := Text.isLower c || c = '#' || c = '/' || c = '@'

/-- the words of the tag that a text begins with, and what follows it -/
def tag? : Text → Option (Text × Text)
  | '[' :: t =>
    if t.head?.any startsTag then
      let words := t.takeWhile fun c => c ≠ '[' && c ≠ ']'
      match t.drop words.length with
      | ']' :: rest => some (words, rest)
      | _ => none
    else none
  | _ => none

/-- what a tag is after some backslashes: plain text if their number is odd -/
def afterSlashes (slashes : Nat) (words : Text) (position : Nat) : List Piece :=
  .plain (List.replicate (slashes / 2) '\\') ::
    [if slashes % 2 = 1 then .plain (['['] ++ words ++ [']']) else .tag words (position + slashes)]

/-- the pieces of a text at a position after some plain text, given in reverse; `fuel` bounds the number of steps -/
def piecesFrom : Nat → Nat → Text → Text → List Piece
  | 0, _, before, t => [.plain (before.reverse ++ t)]
  | _ + 1, _, before, [] => [.plain before.reverse]
  | fuel + 1, position, before, c :: rest =>
    let slashes := ((c :: rest).takeWhile (· = '\\')).length
    let next := (c :: rest).drop slashes
    match tag? next with
    | some (words, after) =>
      .plain before.reverse ::
        (afterSlashes slashes words position ++ piecesFrom fuel (position + slashes + words.length + 2) [] after)
    | none =>
      let size := slashes + 1
      piecesFrom fuel (position + size) (((c :: rest).take size).reverse ++ before) (next.drop 1)

/-- the pieces of a text -/
def pieces (t : Text) : List Piece := piecesFrom (t.length + 1) 0 [] t

/-! ## Plain text -/

/-- a text without the backslashes that stand in front of an opening bracket -/
def unslashed : Text → Text
  | [] => []
  | '\\' :: '[' :: rest => '[' :: unslashed rest
  | c :: rest => c :: unslashed rest

/-- the characters that are never shown: bell, backspace, vertical tab, form feed and carriage return -/
def isControl (c : Char) : Bool := [7, 8, 11, 12, 13].contains c.toNat

/-- what is shown of plain text -/
def shownPlain (t : Text) : Text := (unslashed t).filter fun c => !isControl c

/-! ## Tags -/

/-- the styles that have a short name -/
def shortNames : List (Text × Text) :=
  [(['b'], "bold".toList), (['d'], "dim".toList), (['i'], "italic".toList), (['u'], "underline".toList),
   ("uu".toList, "underline2".toList), (['r'], "reverse".toList), (['c'], "conceal".toList),
   (['s'], "strike".toList), (['o'], "overline".toList)]

/-- the name of a style in one spelling -/
def styleName (name : Text) : Text :=
  let plain := Text.lower (Text.trim name)
  (shortNames.lookup plain).getD plain

/-- the name in the words of a tag: what stands in front of the first `=` -/
def nameOf (words : Text) : Text := words.takeWhile (· ≠ '=')

/-- the opening tags that are left after a tag, the last one first, or none if it closes nothing -/
def afterTag? (opened : List Text) (words : Text) : Option (List Text) :=
  match nameOf words with
  | '/' :: name =>
    let closed := Text.trim name
    if closed = [] then opened.tail?
    else if opened.contains (styleName closed) then some (opened.erase (styleName closed)) else none
  | name => some (styleName name :: opened)

/-- the wording of a fault -/
def Fault.message (f : Fault) : Text :=
  let closed := Text.trim ((nameOf f.words).drop 1)
  "closing tag '[".toList ++ (if closed = [] then ['/'] else f.words) ++ "]' at position ".toList ++
    Text.ofNat f.position ++ (if closed = [] then " has nothing to close" else " doesn't match any open tag").toList

/-- what is shown of pieces, under the tags that are open -/
def shownPieces (opened : List Text) : List Piece → Except Fault Text
  | [] => .ok []
  | .plain t :: rest => (shownPieces opened rest).map (shownPlain t ++ ·)
  | .tag words position :: rest =>
    match afterTag? opened words with
    | some left => shownPieces left rest
    | none => .error ⟨words, position⟩

/-- what is shown of a text with markup -/
def shown (t : Text) : Except Fault Text := shownPieces [] (pieces t)

/-- a text between an opening tag and the closing one -/
def inStyle (style : String) (t : Text) : Text :=
  ['['] ++ style.toList ++ [']'] ++ t ++ "[/".toList ++ style.toList ++ [']']

end Markup

end Componentry.Console
