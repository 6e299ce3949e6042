/-
The sources of YAML: texts, and the bytes of files.

A source is read in pieces of a fixed number of characters, the first two of them together, and for every piece bytes
are taken in blocks until there are enough of them. Characters that may not stand in a text, and bytes that are none,
count as soon as their piece is needed, and not before: what stands in front of that piece can be read. How deeply a
source is nested is not limited here.
-/
import Componentry.Decimal.Binary64
import Componentry.Text.Lines
import Componentry.Yaml.Character
import Componentry.Yaml.Fault

namespace Componentry.Yaml

/-- what of a text can be read, and why it cannot be read on, if it cannot -/
structure Source where
  text : Text
  stop : Option Fault

namespace Source

/-- the number of characters in a piece -/
def pieceSize : Nat := 4096

/-- the characters in front of the piece with a number; the first two pieces are one -/
def lengthBefore (piece : Nat) : Nat := if piece ≤ 1 then 0 else pieceSize * piece

/-- a text in which something cannot be read after a number of characters -/
def stopped (t : Text) (position : Nat) (f : Fault) : Source := ⟨t.take (lengthBefore (position / pieceSize)), some f⟩

/-- a text, whose characters must all be allowed -/
def ofText (t : Text) : Source :=
  match t.findIdx? fun c => !isAllowed c with
  | some i => stopped t i .malformed
  | none => ⟨t, none⟩

/-- a text that is followed by bytes that are none; a character that is not allowed counts if its piece comes before -/
def before (t : Text) (f : Utf8.Fault) : Source :=
  match t.findIdx? fun c => !isAllowed c with
  | some i =>
    if lengthBefore (i / pieceSize) < lengthBefore (t.length / pieceSize) then stopped t i .malformed
    else stopped t t.length (.undecodable f)
  | none => stopped t t.length (.undecodable f)

/-! ## Blocks of bytes -/

/-- the least number of bytes in a block -/
def blockSize : Nat := 8192

/-- the whole part of a number -/
def wholePart : Binary64 → Nat
  | .finite false m e => m * powerOfTwo e.toNat / powerOfTwo (-e).toNat
  | _ => 0

/-- how reading goes on: the bytes left, a character that was begun, whether a CR is held back because a LF may follow,
the characters so far in reverse and their number, and how many bytes and characters the last block had -/
structure Progress where
  bytes : List UInt8
  state : Utf8.State
  held : Bool
  chars : Text
  count : Nat
  lastBytes : Nat
  lastChars : Nat

namespace Progress

/-- the number of bytes in the next block: as many as the characters that are missing in the piece will need if they
are like those of the last block -/
def nextSize (p : Progress) : Nat :=
  let missing := pieceSize - p.count % pieceSize
  let ratio := Binary64.nearest false (max p.lastBytes p.lastChars) p.lastChars
  max blockSize (if p.lastChars = 0 then missing else wholePart (ratio.mul (.nearest false missing 1)))

/-- the characters of a block after its line endings are read as LF, and whether a CR is held back -/
def settle (held : Bool) (chars : Text) : Text × Bool :=
  if chars = [] then ([], held)
  else
    let all := if held then '\r' :: chars else chars
    if all.getLast? = some '\r' then (Text.universalNewlines all.dropLast, true)
    else (Text.universalNewlines all, false)

/-- the characters so far, one that is held back too -/
def all (p : Progress) : Text := ((if p.held then ['\n'] else []) ++ p.chars).reverse

/-- reading block after block; `fuel` bounds their number -/
def run : Nat → Progress → Source
  | 0, p => ofText p.all
  | fuel + 1, p =>
    let (state, start) := p.state.rebase
    if p.bytes.isEmpty then
      match Utf8.decodeFrom start state [] with
      | .ok _ => ofText p.all
      | .error f => before p.chars.reverse f
    else
      let size := p.nextSize
      let block := p.bytes.take size
      match Utf8.decodePart start state block with
      | .error f => before p.chars.reverse f
      | .ok (chars, state) =>
        let (settled, held) := settle p.held chars
        run fuel ⟨p.bytes.drop size, state, held, settled.reverse ++ p.chars, p.count + settled.length, block.length,
          settled.length⟩

end Progress

/-- the bytes of a file -/
def ofBytes (bytes : List UInt8) : Source :=
  Progress.run (bytes.length / blockSize + 2) ⟨bytes, .between, false, [], 0, 0, 0⟩

end Source

end Componentry.Yaml
