/-
Reading a script character by character: the text that is left, the line, and the token that was read last.

A backslash at the end of a line joins it to the next one everywhere but between single quotes.
-/
import Componentry.Shell.Script

namespace Componentry.Shell

/-- what a redirection sign asks for, before its word is read -/
inductive Arrow where
  | file (opening : Opening)
  | copy
  | document (untabbed : Bool)
  deriving DecidableEq

/-- the smallest pieces of a script -/
inductive Token where
  | stop
  | newline
  | semicolon
  | ampersand
  | both
  | either
  | bar
  | opened
  | closed
  | branchEnd
  | arrow (stream : Nat) (a : Arrow)
  | word (w : Word)
  | keyword (t : Text)

/-- the words with a meaning of their own where a command starts -/
def keywords : List Text :=
  ["!", "case", "do", "done", "elif", "else", "esac", "fi", "for", "if", "in", "then", "until", "while", "\x7b",
    "\x7d"].map (·.toList)

/-- the keywords that end the commands inside another command -/
def enders : List Text := ["do", "done", "elif", "else", "esac", "fi", "then", "\x7d"].map (·.toList)

/-- whether a token is a keyword -/
def Token.isKeyword (t : Token) (k : String) : Bool :=
  match t with
  | .keyword w => w = k.toList
  | _ => false

/-- whether a token ends the commands inside another command -/
def Token.isEnd : Token → Bool
  | .stop | .closed | .branchEnd => true
  | .keyword k => enders.contains k
  | _ => false

/-- a script that cannot be read: the line and the words for it -/
structure Malformed where
  line : Nat
  words : Text

/-- a text in the script that a redirection waits for: its number, the line that ends it, whether tabs in front of its
lines are dropped, and whether it is taken as it is -/
structure Awaited where
  number : Nat
  mark : Text
  untabbed : Bool
  exact : Bool

/-- a text that is read in place of a name: how much of the script is left after it, and whether a blank ends it -/
structure Standing where
  name : Text
  after : Nat
  endsBlank : Bool

/-- a script being read, with the names that other texts are read for, and those of the texts that are not over yet -/
structure Reader where
  rest : Text
  line : Nat
  last : Token
  held : Bool
  awaited : List Awaited
  documents : List (Nat × Word)
  issued : Nat
  aliases : List (Text × Text)
  standing : List Standing

/-- a step of reading a script -/
abbrev Reading := StateT Reader (Except Malformed)

namespace Reader

/-- a script from its first character -/
def ofText (t : Text) (documents : List (Nat × Word)) (issued : Nat) : Reader :=
  ⟨t, 1, .newline, false, [], documents, issued, [], []⟩

/-- the words that name a token -/
def nameOf : Token → Text
  | .stop => "end of file".toList
  | .newline => "newline".toList
  | .semicolon => "\";\"".toList
  | .ampersand => "\"&\"".toList
  | .both => "\"&&\"".toList
  | .either => "\"||\"".toList
  | .bar => "\"|\"".toList
  | .opened => "\"(\"".toList
  | .closed => "\")\"".toList
  | .branchEnd => "\";;\"".toList
  | .arrow .. => "redirection".toList
  | .word _ => "word".toList
  | .keyword t => '"' :: t ++ ['"']

/-- stops with words about the line reached -/
def refuse {α : Type} (words : Text) : Reading α := do throw ⟨(← get).line, words⟩

/-- stops because of the last token -/
def unexpected {α : Type} : Reading α := do refuse (nameOf (← get).last ++ " unexpected".toList)

/-- stops because of the last token where another one has to stand -/
def expected {α : Type} (t : Token) : Reading α := do
  refuse (nameOf (← get).last ++ " unexpected (expecting ".toList ++ nameOf t ++ [')'])

/-- how many lines are joined here, and the text after that -/
def joined : Text → Nat × Text
  | '\\' :: '\n' :: rest => let (n, left) := joined rest; (n + 1, left)
  | t => (0, t)

/-- the next character, with lines joined in front of it -/
def peek : Reading (Option Char) :=
  modifyGet fun r => let (n, left) := joined r.rest; (left.head?, { r with rest := left, line := r.line + n })

/-- goes over one character -/
def skip : Reading Unit :=
  modify fun r => { r with rest := r.rest.tail, line := if r.rest.head? = some '\n' then r.line + 1 else r.line }

/-- goes over one character, which does not count as the end of a line -/
def pass : Reading Unit := modify fun r => { r with rest := r.rest.tail }

/-- goes over the next character if it is the given one, lines joined in front of it -/
def took (c : Char) : Reading Bool := do
  if (← peek) = some c then skip; return true else return false

/-- the longest run of characters of a kind, lines joined in it; the fuel is the length of the text -/
def run (kind : Char → Bool) : Nat → Reading Text
  | 0 => return []
  | fuel + 1 => do
    match ← peek with
    | some c => if kind c then skip; return c :: (← run kind fuel) else return []
    | none => return []

/-- the characters before a mark that is there to end them, without joining lines -/
def through (mark : Char) (missing : Text) : Reading Text := do
  let r ← get
  let inside := r.rest.takeWhile (· ≠ mark)
  modify fun r =>
    { r with rest := r.rest.drop inside.length, line := r.line + (inside.filter (· = '\n')).length }
  if r.rest.length = inside.length then refuse missing
  skip
  return inside

/-- an inner text read on its own from a line on, after which the outer one goes on where it was -/
def within {α : Type} (t : Text) (line : Nat) (inner : Reading α) : Reading α := do
  let outer ← get
  set { outer with rest := t, line := line, held := false, standing := [] }
  let a ← inner
  modify fun r => { r with rest := outer.rest, line := outer.line, held := false, standing := outer.standing }
  return a

/-- keeps the last token for the next one who asks -/
def hold : Reading Unit := modify fun r => { r with held := true }

end Reader

end Componentry.Shell
