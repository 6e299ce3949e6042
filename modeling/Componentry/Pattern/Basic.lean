/-
Patterns: the small language in which the insertion points of a file are described, with its written form.
-/
import Componentry.Text.Word
import Componentry.Text.Blank

namespace Componentry

/-- a set of characters -/
inductive CharSet where
  | blank
  | any
  | only (c : Char)
  | oneOf (orBlank : Bool) (chars : Text)
  | noneOf (chars : Text)
  deriving DecidableEq

/-- the parts of a match that are kept: the quote around a name, an import's source, a link's target -/
inductive Group where
  | quote
  | source
  | key
  deriving DecidableEq

/-- a pattern; a repeat is over single characters, and takes as many as it can or as few as it can -/
inductive Pattern where
  | text (t : Text)
  | set (s : CharSet)
  | many (s : CharSet) (oneAtLeast greedy : Bool)
  | option (p : Pattern)
  | kept (g : Group) (p : Pattern)
  | again (g : Group)
  | wordEdge
  | lineStart
  | lineEnd
  | ahead (p : Pattern)
  | andThen (p q : Pattern)
  deriving DecidableEq

namespace CharSet

/-- whether a character is in the set -/
def has : CharSet → Char → Bool
  | .blank, c => Text.isBlank c
  | .any, _ => true
  | .only d, c => c = d
  | .oneOf orBlank chars, c => (orBlank && Text.isBlank c) || chars.contains c
  | .noneOf chars, c => !chars.contains c

/-- a character inside a written set -/
def spell (c : Char) : Text :=
  if c = '\n' then ['\\', 'n'] else if c = '\r' then ['\\', 'r'] else if c = '\t' then ['\\', 't'] else [c]

/-- the written form of a set -/
def render : CharSet → Text
  | .blank => ['\\', 's']
  | .any => "[\\s\\S]".toList
  | .only c => spell c
  | .oneOf orBlank chars => '[' :: (if orBlank then ['\\', 's'] else []) ++ chars.flatMap spell ++ [']']
  | .noneOf chars => ['[', '^'] ++ chars.flatMap spell ++ [']']

end CharSet

namespace Pattern

instance : HAppend Pattern Pattern Pattern := ⟨andThen⟩

/-- the characters that stand for themselves only after a backslash -/
def specials : Text := "\t\n\x0b\x0c\r #$&()*+-.?[\\]^\x7b|\x7d~".toList

/-- a text as a pattern that matches nothing else -/
def escape (t : Text) : Text := t.flatMap fun c => if specials.contains c then ['\\', c] else [c]

/-- whether a pattern is a single character long, so that a sign after it needs no brackets -/
def isSingle : Pattern → Bool
  | .text [_] => true
  | .set _ => true
  | _ => false

/-- how a kept part is opened -/
def opening : Group → Text
  | .quote => ['(']
  | .source => "(?P<source>".toList
  | .key => "(?P<key>".toList

/-- the written form of a pattern -/
def render : Pattern → Text
  | .text t => escape t
  | .set s => s.render
  | .many s oneAtLeast greedy => s.render ++ [if oneAtLeast then '+' else '*'] ++ (if greedy then [] else ['?'])
  | .option p => if p.isSingle then p.render ++ ['?'] else "(?:".toList ++ p.render ++ [')', '?']
  | .kept g p => opening g ++ p.render ++ [')']
  | .again _ => ['\\', '1']
  | .wordEdge => ['\\', 'b']
  | .lineStart => ['^']
  | .lineEnd => ['$']
  | .ahead p => "(?=".toList ++ p.render ++ [')']
  | .andThen p q => p.render ++ q.render

/-- whether a match of the pattern keeps a part -/
def keeps (g : Group) : Pattern → Bool
  | .option p => p.keeps g
  | .kept h p => h = g || p.keeps g
  | .ahead p => p.keeps g
  | .andThen p q => p.keeps g || q.keeps g
  | _ => false

end Pattern

end Componentry
