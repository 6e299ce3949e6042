/-
Plain scalars: text without quotes.

A plain scalar is runs of characters with gaps between them. A gap inside a line is kept; a line break in it is folded
into one space, and the empty lines after it are kept instead. It ends at a comment, at `: `, at a line that is not
indented enough or separates documents, and inside brackets also at the characters that structure them.
-/
import Componentry.Yaml.Character

namespace Componentry.Yaml.Plain

/-- the characters that structure text in brackets -/
def isFlowMark (c : Char) : Bool := ",[]\x7b\x7d".toList.contains c

/-- whether a run ends before a character, given what follows it -/
def endsRun (flow : Bool) (c : Char) (rest : Text) : Bool :=
  isSpace c || isBreak c || (c = ':' && (endsWord rest || (flow && endsOr isFlowMark rest))) ||
  (flow && (isFlowMark c || c = '?'))

/-- the run of characters in front, and what follows it -/
def run (flow : Bool) : Text → Text × Text
  | [] => ([], [])
  | c :: rest =>
    if endsRun flow c rest then ([], c :: rest)
    else
      let (more, after) := run flow rest
      (c :: more, after)

/-- what stands between two runs: how it is read, whether it holds a line break, and the column it ends at if so;
nothing can follow one that stops at a line that separates documents -/
structure Gap where
  text : Text
  crosses : Bool
  column : Nat
  final : Bool
  rest : Text

/-- the empty lines and the indentation after a line break: the breaks, the column reached, what follows, and whether
a line that separates documents comes next -/
def blankLines (column : Nat) : Text → Text × Nat × Text × Bool
  | '\r' :: '\n' :: rest => brokenBy '\n' rest (blankLines 0 rest)
  | [] => ([], column, [], false)
  | c :: rest =>
    if c = ' ' then blankLines (column + 1) rest
    else if isBreak c then
      brokenBy (if c = '\u2028' ∨ c = '\u2029' then c else '\n') rest (blankLines 0 rest)
    else ([], column, c :: rest, false)
where
  /-- a break before lines that were read, unless the next one separates documents -/
  brokenBy (c : Char) (rest : Text) (lines : Text × Nat × Text × Bool) : Text × Nat × Text × Bool :=
    if separatesDocuments rest then ([c], 0, rest, true) else (c :: lines.1, lines.2)

/-- how a line break followed by the breaks of empty lines is read -/
def fold (first : Char) (breaks : Text) : Text :=
  if first ≠ '\n' then first :: breaks else if breaks = [] then [' '] else breaks

/-- the gap in front of a text -/
def gap (t : Text) : Gap :=
  let after := skipSpaces t
  match lineBreak? after with
  | none => ⟨t.takeWhile (· = ' '), false, 0, false, after⟩
  | some (first, rest) =>
    if separatesDocuments rest then ⟨[], true, 0, true, rest⟩
    else
      let (breaks, column, rest, final) := blankLines 0 rest
      ⟨fold first breaks, true, column, final, rest⟩

/-- whether the scalar ends after a gap -/
def Gap.ends (g : Gap) (flow : Bool) (indent : Int) : Bool :=
  g.final || g.text = [] || g.rest.head? = some '#' || (!flow && g.crosses && g.column < indent)

/-- a plain scalar: its text, whether a line break came last, and what follows -/
structure Reading where
  text : Text
  crossed : Bool
  rest : Text

/-- the runs from here on, each after the gap before it; `fuel` bounds their number -/
def more (flow : Bool) (indent : Int) : Nat → Gap → Reading
  | 0, before => ⟨[], before.crosses, before.rest⟩
  | fuel + 1, before =>
    let (word, after) := run flow before.rest
    if word = [] then ⟨[], before.crosses, before.rest⟩
    else
      let next := gap after
      let tail := if next.ends flow indent then ⟨[], next.crosses, next.rest⟩ else more flow indent fuel next
      { tail with text := before.text ++ word ++ tail.text }

/-- the plain scalar in front of a text; its lines are indented by at least `indent` -/
def read (flow : Bool) (indent : Int) (t : Text) : Reading := more flow indent (t.length + 1) ⟨[], false, 0, false, t⟩

end Componentry.Yaml.Plain
