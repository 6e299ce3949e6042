/-
White space: which characters count as blank, trimming, and the words of a text.

A character is blank if it has the Unicode white space property or is one of the four separators U+001C to U+001F.
-/
import Componentry.Text.Basic

namespace Componentry.Text

/-- the blank characters as ranges of code points -/
def blankTable : List (Nat × Nat) :=
  [(0x9, 0xD), (0x1C, 0x20), (0x85, 0x85), (0xA0, 0xA0), (0x1680, 0x1680), (0x2000, 0x200A), (0x2028, 0x2029),
   (0x202F, 0x202F), (0x205F, 0x205F), (0x3000, 0x3000)]

/-- whether a character is white space -/
def isBlank (c : Char) : Bool := inRanges blankTable c

/-- the text without its leading blanks -/
def trimStart (t : Text) : Text := t.dropWhile isBlank

/-- the text without its trailing blanks -/
def trimEnd (t : Text) : Text := (t.reverse.dropWhile isBlank).reverse

/-- the text without its leading and trailing blanks -/
def trim (t : Text) : Text := trimEnd (trimStart t)

/-- the leading blanks of a text -/
def indentation (t : Text) : Text := t.takeWhile isBlank

/-- the maximal runs of characters that are not blank -/
def words : Text → List Text
  | [] => []
  | c :: rest =>
    if isBlank c then words rest
    else match rest, words rest with
      | d :: _, w :: ws => if isBlank d then [c] :: w :: ws else (c :: w) :: ws
      | _, ws => [c] :: ws

end Componentry.Text
