/-
Lines: the line ending a text uses, and the lines of a text.
-/
import Componentry.Text.Blank

namespace Componentry

/-- the two line endings a file may use -/
inductive Newline where
  | lf
  | crlf
  deriving DecidableEq

/-- the characters of a line ending -/
def Newline.text : Newline → Text
  | .lf => ['\n']
  | .crlf => ['\r', '\n']

/-- a file uses CRLF as soon as one CRLF occurs in it -/
def Newline.ofContent (content : Text) : Newline :=
  if Text.holds ['\r', '\n'] content then .crlf else .lf

namespace Text

/-- every CRLF shortened to LF; a CR that stands alone stays -/
def foldNewlines : Text → Text
  | [] => []
  | '\r' :: '\n' :: rest => '\n' :: foldNewlines rest
  | c :: rest => c :: foldNewlines rest

/-- a text written with LF or CRLF, in the given line ending -/
def withNewline (newline : Newline) (t : Text) : Text :=
  (foldNewlines t).flatMap fun c => if c = '\n' then newline.text else [c]

/-- the characters that end a line -/
def isLineBreak (c : Char) : Bool :=
  inRanges [(0xA, 0xD), (0x1C, 0x1E), (0x85, 0x85), (0x2028, 0x2029)] c

/-- the lines of a text without their ends; CRLF ends one line, and nothing follows a final line end -/
def lines : Text → List Text
  | [] => []
  | '\r' :: '\n' :: rest => [] :: lines rest
  | c :: rest =>
    if isLineBreak c then [] :: lines rest
    else match lines rest with
      | [] => [[c]]
      | line :: more => (c :: line) :: more

/-- every line ending (CRLF, CR or LF) read as LF -/
def universalNewlines : Text → Text
  | [] => []
  | '\r' :: '\n' :: rest => '\n' :: universalNewlines rest
  | '\r' :: rest => '\n' :: universalNewlines rest
  | c :: rest => c :: universalNewlines rest

/-- what follows the last LF, or the whole text -/
def lastLine (t : Text) : Text := (t.reverse.takeWhile (· ≠ '\n')).reverse

end Text

end Componentry
