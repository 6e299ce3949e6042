/-
Wrapping: a text as the lines it takes in a number of cells.

Words are kept whole where they fit. A word that is longer than a line goes on in the next one (`fold`) or is cut short
with an ellipsis (`ellipsis`). Blanks that stand beyond the end of a line are dropped.
-/
import Componentry.Text.Blank
import Componentry.Text.Width

namespace Componentry.Console

/-- what becomes of a word that is longer than a line -/
inductive Overflow where
  | fold
  | ellipsis
  deriving DecidableEq

namespace Wrapping

/-- the cells between two tab stops -/
def tabStop : Nat := 8

/-- the pieces between tabs, each with blanks up to a tab stop after it; at least one blank stands for a tab -/
def joinAtStops (position : Nat) : List Text → Text
  | [] => []
  | [last] => last
  | piece :: rest =>
    let blank := piece ++ [' ']
    let reached := position + Text.width blank
    let next := (reached + (tabStop - 1)) / tabStop * tabStop
    blank ++ List.replicate (next - reached) ' ' ++ joinAtStops next rest

/-- a line with blanks instead of its tabs -/
def expandTabs (line : Text) : Text := joinAtStops 0 (Text.splitAt '\t' line)

/-- a word at the beginning of a text, with all blanks around it, and what follows -/
def firstWord (t : Text) : Text × Text :=
  let lead := t.takeWhile Text.isBlank
  let body := (t.dropWhile Text.isBlank).takeWhile (!Text.isBlank ·)
  let rest := (t.dropWhile Text.isBlank).dropWhile (!Text.isBlank ·)
  (lead ++ body ++ rest.takeWhile Text.isBlank, rest.dropWhile Text.isBlank)

/-- the words of a text, each with the blanks after it; `fuel` bounds their number -/
def wordsFrom : Nat → Text → List Text
  | 0, _ => []
  | fuel + 1, t =>
    if t.all Text.isBlank then []
    else
      let (word, rest) := firstWord t
      word :: wordsFrom fuel rest

/-- the words of a text, each with the blanks after it and the first one with those before it -/
def words (t : Text) : List Text := wordsFrom t.length t

/-- lines that are full, the line that is being filled, and the cells it takes -/
structure Filling where
  full : List Text
  line : Text
  used : Nat

/-- a new line that begins with a piece -/
def Filling.startLine (s : Filling) (piece : Text) : Filling :=
  ⟨if s.line = [] then s.full else s.full ++ [s.line], piece, Text.width piece⟩

/-- one more word, in the line that is being filled if it fits there -/
def Filling.place (overflow : Overflow) (cells : Nat) (s : Filling) (word : Text) : Filling :=
  let length := Text.width (Text.trimEnd word)
  if s.used + length ≤ cells then ⟨s.full, s.line ++ word, s.used + Text.width word⟩
  else if length ≤ cells ∨ overflow = .ellipsis then s.startLine word
  else (Text.chop cells word).foldl Filling.startLine s

/-- a line broken between words; one without words stays as it is -/
def broken (overflow : Overflow) (cells : Nat) (line : Text) : List Text :=
  match words line with
  | [] => [line]
  | ws =>
    let s := ws.foldl (Filling.place overflow cells) ⟨[], [], 0⟩
    s.full ++ [s.line]

/-- a line without the blanks at its end that stand beyond a number of characters -/
def trimBeyond (size : Nat) (line : Text) : Text :=
  line.take (line.length - min (line.length - size) (line.length - (Text.trimEnd line).length))

/-- a line cut to a number of cells -/
def cut (overflow : Overflow) (cells : Nat) (line : Text) : Text :=
  if Text.width line ≤ cells then line
  else match overflow with
    | .fold => Text.crop cells line
    | .ellipsis => Text.crop (cells - 1) line ++ ['…']

end Wrapping

open Wrapping in
/-- the lines a text takes in a number of cells -/
def wrap (overflow : Overflow) (cells : Nat) (t : Text) : List Text :=
  (Text.splitAt '\n' t).flatMap fun line =>
    (broken overflow cells (expandTabs line)).map fun piece => cut overflow cells (trimBeyond cells piece)

end Componentry.Console
