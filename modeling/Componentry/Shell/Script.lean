/-
Shell scripts: words made of parts that are expanded when they are used, redirections, and commands put together from
other commands.

A shell works on bytes. Its texts hold one character for each byte, so that lengths, patterns and cuts count bytes.
-/
import Componentry.Text.Utf8

namespace Componentry.Shell

/-- a text with one character for each byte of its encoding -/
def spread (t : Text) : Text := (Utf8.encode t).map fun b => Char.ofNat b.toNat

/-- the bytes of a text that has one character for each of them -/
def bytesOf (t : Text) : List UInt8 := t.map fun c => UInt8.ofNat c.toNat

/-- bytes as a text with one character for each of them -/
def ofBytes (bytes : List UInt8) : Text := bytes.map fun b => Char.ofNat b.toNat

/-- the text that bytes encode; bytes that encode none stay as they are -/
def gathered (t : Text) : Text :=
  match Utf8.decode (bytesOf t) with
  | .ok text => text
  | .error _ => t

/-- what an expansion does about a variable that is missing -/
inductive Remedy where
  | use
  | replace
  | assign
  | fail
  deriving DecidableEq

/-- how a redirection opens its file; a forced output replaces a file whatever the options say -/
inductive Opening where
  | input
  | output
  | forced
  | appending
  | both
  deriving DecidableEq

mutual

/-- a part of a word: characters outside quotes, characters that stand for themselves, parts between double quotes, a
variable, the output of commands, or the value of an arithmetic expression -/
inductive Part where
  | bare (t : Text)
  | exact (t : Text)
  | quotes (parts : List Part)
  | variable (name : Text) (change : Change)
  | output (commands : Command)
  | number (parts : List Part)

/-- what becomes of a variable's value: it is taken as it is, its length is, a remedy applies where it is missing (or
empty, if `empty` is set), a piece that matches a pattern is cut off, or the expansion makes no sense -/
inductive Change where
  | keep
  | length
  | remedy (r : Remedy) (empty : Bool) (word : List Part)
  | cut (atEnd longest : Bool) (pattern : List Part)
  | senseless

/-- a stream sent to or taken from a file, from another stream, or from a text in the script, given by its number -/
inductive Redirection where
  | file (stream : Nat) (opening : Opening) (path : List Part)
  | copy (stream : Nat) (source : List Part)
  | document (stream number : Nat)

/-- a command, with the line it stands on where messages may name it -/
inductive Command where
  | nothing
  | simple (line : Nat) (assignments : List (Text × List Part)) (words : List (List Part))
      (redirections : List Redirection)
  | inverted (c : Command)
  | piped (cs : List Command)
  | ifOk (a b : Command)
  | ifFailed (a b : Command)
  | next (a b : Command)
  | background (line : Nat) (c : Command)
  | redirected (line : Nat) (c : Command) (redirections : List Redirection)
  | subshell (line : Nat) (c : Command) (redirections : List Redirection)
  | choice (condition yes no : Command)
  | loop (whileOk : Bool) (condition body : Command)
  | each (line : Nat) (name : Text) (words : List (List Part)) (body : Command)
  | select (line : Nat) (word : List Part) (branches : List (List (List Part) × Command))
  | define (name : Text) (body : Command)

end

/-- a word of a script -/
abbrev Word := List Part

instance : Inhabited Command := ⟨.nothing⟩

/-- a command that does something -/
def Command.isSome : Command → Bool
  | .nothing => false
  | _ => true

/-- a command and then another -/
def Command.followedBy (a b : Command) : Command := if a.isSome then .next a b else b

/-! ## Names -/

/-- whether a character can start a variable's name -/
def startsName (c : Char) : Bool := c.isAlpha || c == '_'

/-- whether a character can go on in a variable's name -/
def inName (c : Char) : Bool := c.isAlphanum || c == '_'

/-- whether a text is a variable's name -/
def isName (t : Text) : Bool := t.head?.any startsName && t.all inName

/-- the parameters that have one character for a name and are no digit -/
def isSpecial (c : Char) : Bool := "!@*#?$-".toList.contains c

/-- the builtin commands whose failure ends a script, and whose names no function can have -/
def specials : List Text :=
  [".", ":", "break", "continue", "eval", "exec", "exit", "export", "local", "readonly", "return", "set", "shift",
    "times", "trap", "unset"].map (·.toList)

end Componentry.Shell
