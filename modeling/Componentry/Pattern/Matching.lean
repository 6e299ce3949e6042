/-
Matching: the ways a pattern can match at a cursor, the preferred one first, and the matches in a text from left to
right.
-/
import Componentry.Pattern.Basic

namespace Componentry

/-- a place in a text, seen from inside: the character before it, what follows, and the parts kept so far -/
structure Cursor where
  before : Option Char
  rest : Text
  kept : List (Group × Text)

namespace Cursor

/-- the cursor at the start of a text -/
def start (t : Text) : Cursor := ⟨none, t, []⟩

/-- whether the cursor stands between a word character and something else -/
def atWordEdge (k : Cursor) : Bool := k.before.any Text.isWordChar != k.rest.head?.any Text.isWordChar

/-- whether a line starts at the cursor; if lines do not count, only the text does -/
def atLineStart (byLine : Bool) (k : Cursor) : Bool :=
  match k.before with
  | none => true
  | some c => byLine && c = '\n'

/-- whether a line ends at the cursor; if lines do not count, the text ends here or after one more line feed -/
def atLineEnd (byLine : Bool) (k : Cursor) : Bool :=
  match k.rest with
  | [] => true
  | c :: rest => c = '\n' && (byLine || rest = [])

/-- the cursor after a given text, if it follows here -/
def past (k : Cursor) : Text → Option Cursor
  | [] => some k
  | c :: t =>
    match k.rest with
    | [] => none
    | d :: rest => if c = d then past ⟨some d, rest, k.kept⟩ t else none

/-- the cursors after zero, one, two, … characters of a set -/
def run (s : CharSet) (before : Option Char) (kept : List (Group × Text)) : Text → List Cursor
  | [] => [⟨before, [], kept⟩]
  | c :: rest => ⟨before, c :: rest, kept⟩ :: if s.has c then run s (some c) kept rest else []

/-- the characters between a cursor and a later one -/
def upTo (k later : Cursor) : Text := k.rest.take (k.rest.length - later.rest.length)

/-- a part kept so far -/
def part? (k : Cursor) (g : Group) : Option Text := k.kept.lookup g

end Cursor

namespace Pattern

/-- the cursors at which a match from a cursor can end, the preferred one first -/
def ends (byLine : Bool) : Pattern → Cursor → List Cursor
  | .text t, k => (k.past t).toList
  | .set s, k =>
    match k.rest with
    | [] => []
    | c :: rest => if s.has c then [⟨some c, rest, k.kept⟩] else []
  | .many s oneAtLeast greedy, k =>
    let all := Cursor.run s k.before k.kept k.rest
    let all := if oneAtLeast then all.tail else all
    if greedy then all.reverse else all
  | .option p, k => p.ends byLine k ++ [k]
  | .kept g p, k => (p.ends byLine k).map fun e => ⟨e.before, e.rest, (g, k.upTo e) :: e.kept⟩
  | .again g, k => (k.part? g).elim [] fun t => (k.past t).toList
  | .wordEdge, k => if k.atWordEdge then [k] else []
  | .lineStart, k => if k.atLineStart byLine then [k] else []
  | .lineEnd, k => if k.atLineEnd byLine then [k] else []
  | .ahead p, k => if (p.ends byLine k).isEmpty then [] else [k]
  | .andThen p q, k => (p.ends byLine k).flatMap (q.ends byLine)

end Pattern

/-- a match: where it starts and stops, and the parts it keeps -/
structure Occurrence where
  start : Nat
  stop : Nat
  kept : List (Group × Text)

namespace Occurrence

/-- a part the match keeps -/
def part? (m : Occurrence) (g : Group) : Option Text := m.kept.lookup g

/-- the matched text -/
def textIn (m : Occurrence) (content : Text) : Text := Text.slice content m.start m.stop

end Occurrence

namespace Pattern

/-- the matches that start at a cursor: the preferred one, and if that is empty also the first that is not -/
def here (p : Pattern) (byLine : Bool) (k : Cursor) (position : Nat) : List Occurrence :=
  let found (e : Cursor) : Occurrence := ⟨position, position + (k.rest.length - e.rest.length), e.kept⟩
  match p.ends byLine k with
  | [] => []
  | e :: more =>
    if e.rest.length < k.rest.length then [found e]
    else found e :: (more.find? fun e => e.rest.length < k.rest.length).toList.map found

/-- the matches from a position on, the next `skip` characters being part of a match already found -/
def scan (p : Pattern) (byLine : Bool) (before : Option Char) (position : Nat) (skip : Nat) : Text → List Occurrence
  | [] => p.here byLine ⟨before, [], []⟩ position
  | c :: rest =>
    match skip with
    | skip + 1 => scan p byLine (some c) (position + 1) skip rest
    | 0 =>
      let found := p.here byLine ⟨before, c :: rest, []⟩ position
      let stop := (found.getLast?.map (·.stop)).getD position
      found ++ scan p byLine (some c) (position + 1) (stop - (position + 1)) rest

/-- all matches in a text from left to right, none overlapping another -/
def occurrences (p : Pattern) (byLine : Bool) (t : Text) : List Occurrence := p.scan byLine none 0 0 t

/-- the first match in a text -/
def first? (p : Pattern) (byLine : Bool) (t : Text) : Option Occurrence := (p.occurrences byLine t).head?

/-- whether a text starts with a match -/
def startsIn (p : Pattern) (t : Text) : Bool := !(p.ends false (.start t)).isEmpty

end Pattern

end Componentry
