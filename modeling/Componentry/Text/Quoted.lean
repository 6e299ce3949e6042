/-
Quoted text, as it stands in messages.

A text is quoted with `'`, or with `"` if it holds a `'` and no `"`. Inside, the quote and the backslash take a
backslash, line feed, carriage return and tab have letters, and every other unprintable character is written by its
code point in two, four or eight hexadecimal digits.
-/
import Componentry.Text.Printable

namespace Componentry.Text

/-- the quote a text is put in -/
def quoteFor (t : Text) : Char := if t.contains '\'' && !t.contains '"' then '"' else '\''

/-- a character inside a text quoted with `quote` -/
def escaped (quote c : Char) : Text :=
  if c = quote ∨ c = '\\' then ['\\', c]
  else if c = '\n' then ['\\', 'n']
  else if c = '\r' then ['\\', 'r']
  else if c = '\t' then ['\\', 't']
  else if isPrintable c then [c]
  else if c.toNat < 0x100 then ['\\', 'x'] ++ hex 2 c.toNat
  else if c.toNat < 0x10000 then ['\\', 'u'] ++ hex 4 c.toNat
  else ['\\', 'U'] ++ hex 8 c.toNat

/-- a text in quotes -/
def quoted (t : Text) : Text :=
  let quote := quoteFor t
  quote :: t.flatMap (escaped quote) ++ [quote]

/-- bytes in quotes: ASCII as in a text, every other byte by two hexadecimal digits -/
def quotedBytes (bytes : List UInt8) : Text :=
  let quote := quoteFor (bytes.map fun b => Char.ofNat b.toNat)
  let byte (b : UInt8) : Text :=
    if b.toNat < 128 then escaped quote (Char.ofNat b.toNat) else ['\\', 'x'] ++ hex 2 b.toNat
  'b' :: quote :: bytes.flatMap byte ++ [quote]

end Componentry.Text
