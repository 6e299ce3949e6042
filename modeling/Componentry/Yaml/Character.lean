/-
The characters of a YAML text by their use: line breaks, blanks, the characters of names and tags, and the lines that
separate documents.
-/
import Componentry.Slug

namespace Componentry.Yaml

/-- the characters that may stand in a YAML text at all -/
def isAllowed (c : Char) : Bool :=
  Text.inRanges [(0x9, 0xA), (0xD, 0xD), (0x20, 0x7E), (0x85, 0x85), (0xA0, 0xD7FF), (0xE000, 0xFFFD),
    (0x10000, 0x10FFFF)] c

/-- the mark that may stand at the very beginning and takes no column -/
def byteOrderMark : Char := '\uFEFF'

/-- the characters that end a line -/
def isBreak (c : Char) : Bool := ['\n', '\r', '\u0085', '\u2028', '\u2029'].contains c

/-- space and tab -/
def isSpace (c : Char) : Bool := c = ' ' || c = '\t'

/-- the characters of anchors, directives and tag handles -/
def isNameChar (c : Char) : Bool :=
  Text.isLower c || Text.isCapital c || Text.isDigit c || c = '-' || c = '_'

/-- the characters of tags -/
def isTagChar (c : Char) : Bool :=
  Text.isLower c || Text.isCapital c || Text.isDigit c || "-;/?:@&=+$,_.!~*'()[]%".toList.contains c

/-- whether a text ends here, or goes on with a character of a kind -/
def endsOr (kind : Char → Bool) : Text → Bool
  | [] => true
  | c :: _ => kind c

/-- whether a word ends here: at a space, a tab, a line break or the end -/
def endsWord (t : Text) : Bool := endsOr (fun c => isSpace c || isBreak c) t

/-- whether a field ends here: at a space, a line break or the end -/
def endsField (t : Text) : Bool := endsOr (fun c => c = ' ' || isBreak c) t

/-- the line break in front, as it is read, and what follows it -/
def lineBreak? : Text → Option (Char × Text)
  | '\r' :: '\n' :: rest => some ('\n', rest)
  | c :: rest =>
    if c = '\n' ∨ c = '\r' ∨ c = '\u0085' then some ('\n', rest)
    else if isBreak c then some (c, rest)
    else none
  | [] => none

/-- the text without the line break in front -/
def afterBreak (t : Text) : Text :=
  match lineBreak? t with
  | some (_, rest) => rest
  | none => t

/-- whether a line that starts here separates documents -/
def separatesDocuments (t : Text) : Bool :=
  (t.take 3 = ['-', '-', '-'] || t.take 3 = ['.', '.', '.']) && endsWord (t.drop 3)

/-- the text without the spaces in front -/
def skipSpaces (t : Text) : Text := t.dropWhile (· = ' ')

/-- the text from the next line break on -/
def skipLine (t : Text) : Text := t.dropWhile fun c => !isBreak c

/-- the text after the rest of a line that may hold a comment only -/
def skipIgnored? (t : Text) : Option Text :=
  let rest := skipSpaces t
  let rest := match rest with
    | '#' :: _ => skipLine rest
    | _ => rest
  if endsOr isBreak rest then some (afterBreak rest) else none

end Componentry.Yaml
