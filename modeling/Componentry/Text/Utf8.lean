/-
UTF-8: the bytes of a text, the text of bytes, and the exact place where bytes stop being UTF-8.

A faulty sequence is reported by its longest start that could still have become a character, at least one byte. Bytes can
come in blocks, and a sequence that is cut by the end of a block counts from its beginning in the next one. Texts are made
of characters, so no text has half of a surrogate pair in it.
-/
import Componentry.Text.Basic

namespace Componentry

/-- why bytes are not UTF-8 -/
inductive Utf8.Reason where
  | startByte
  | continuationByte
  | endOfData
  deriving DecidableEq

/-- bytes that are not UTF-8: the first byte of the faulty sequence, its place, its length and what is wrong -/
structure Utf8.Fault where
  byte : UInt8
  position : Nat
  length : Nat
  reason : Utf8.Reason
  deriving DecidableEq

namespace Utf8

/-- the wording of a reason -/
def Reason.text : Reason → Text
  | .startByte => "invalid start byte".toList
  | .continuationByte => "invalid continuation byte".toList
  | .endOfData => "unexpected end of data".toList

/-- the wording of a fault -/
def Fault.message (f : Fault) : Text :=
  "'utf-8' codec can't decode byte".toList ++
  (if f.length = 1 then
    " 0x".toList ++ Text.hex 2 f.byte.toNat ++ " in position ".toList ++ Text.ofNat f.position
  else
    "s in position ".toList ++ Text.ofNat f.position ++ "-".toList ++ Text.ofNat (f.position + f.length - 1)) ++
  ": ".toList ++ f.reason.text

/-- the bytes of one character -/
def encodeChar (c : Char) : List UInt8 :=
  let n := c.toNat
  if n < 0x80 then [UInt8.ofNat n]
  else if n < 0x800 then [UInt8.ofNat (0xC0 + n / 64), UInt8.ofNat (0x80 + n % 64)]
  else if n < 0x10000 then
    [UInt8.ofNat (0xE0 + n / 4096), UInt8.ofNat (0x80 + n / 64 % 64), UInt8.ofNat (0x80 + n % 64)]
  else
    [UInt8.ofNat (0xF0 + n / 262144), UInt8.ofNat (0x80 + n / 4096 % 64), UInt8.ofNat (0x80 + n / 64 % 64),
     UInt8.ofNat (0x80 + n % 64)]

/-- the bytes of a text -/
def encode (t : Text) : List UInt8 := t.flatMap encodeChar

/-- what a byte at the start of a character announces: the number of bytes that follow, the bits of the character
that it carries, and the range of the byte after it -/
structure Lead where
  more : Nat
  bits : Nat
  low : Nat
  high : Nat

/-- the meaning of a first byte; none for a byte that starts no character -/
def lead? (b : UInt8) : Option Lead :=
  let n := b.toNat
  if n < 0x80 then some ⟨0, n, 0x80, 0xBF⟩
  else if n < 0xC2 then none
  else if n < 0xE0 then some ⟨1, n - 0xC0, 0x80, 0xBF⟩
  else if n = 0xE0 then some ⟨2, 0, 0xA0, 0xBF⟩
  else if n = 0xED then some ⟨2, 0xD, 0x80, 0x9F⟩
  else if n < 0xF0 then some ⟨2, n - 0xE0, 0x80, 0xBF⟩
  else if n = 0xF0 then some ⟨3, 0, 0x90, 0xBF⟩
  else if n < 0xF4 then some ⟨3, n - 0xF0, 0x80, 0xBF⟩
  else if n = 0xF4 then some ⟨3, 4, 0x80, 0x8F⟩
  else none

/-- between characters, or inside one: its first byte and place, the bytes read and still owed, the bits so far and
the range of the next byte; or behind the first two bytes of a surrogate, which is no character, where a block was cut -/
inductive State where
  | between
  | inside (first : UInt8) (position read owed bits low high : Nat)
  | surrogate (first : UInt8) (position : Nat)

/-- reading one byte at a place: the character it completes, if any, and the state after it -/
def step (position : Nat) (state : State) (b : UInt8) : Except Fault (Option Char × State) :=
  match state with
  | .between =>
    match lead? b with
    | none => .error ⟨b, position, 1, .startByte⟩
    | some l =>
      if l.more = 0 then .ok (some (Char.ofNat l.bits), .between)
      else .ok (none, .inside b position 1 l.more l.bits l.low l.high)
  | .inside first start read owed bits low high =>
    if low ≤ b.toNat ∧ b.toNat ≤ high then
      let bits := bits * 64 + b.toNat % 64
      if owed = 1 then .ok (some (Char.ofNat bits), .between)
      else .ok (none, .inside first start (read + 1) (owed - 1) bits 0x80 0xBF)
    else .error ⟨first, start, read, .continuationByte⟩
  | .surrogate first start => .error ⟨first, start, 1, .continuationByte⟩

/-- reading all bytes from a place and state on -/
def decodeFrom (position : Nat) (state : State) : List UInt8 → Except Fault Text
  | [] =>
    match state with
    | .between => .ok []
    | .inside first start read _ _ _ _ => .error ⟨first, start, read, .endOfData⟩
    | .surrogate first start => .error ⟨first, start, 1, .continuationByte⟩
  | b :: rest =>
    match step position state b with
    | .error fault => .error fault
    | .ok (c, next) =>
      match decodeFrom (position + 1) next rest with
      | .error fault => .error fault
      | .ok t => .ok (match c with | some c => c :: t | none => t)

/-- the text of bytes -/
def decode (bytes : List UInt8) : Except Fault Text := decodeFrom 0 .between bytes

/-! ## Bytes that come in blocks -/

/-- the state at the start of a block: a character begun in an earlier block counts as its beginning. The second part
is the place of the next byte. -/
def State.rebase : State → State × Nat
  | .between => (.between, 0)
  | .inside first _ read owed bits low high => (.inside first 0 read owed bits low high, read)
  | .surrogate first _ => (.surrogate first 0, 2)

/-- the state at the end of a block whose last byte is the second one of a surrogate -/
def State.cut? (state : State) (last : UInt8) : Option State :=
  match state with
  | .inside first start 1 _ _ _ _ =>
    if first = 0xED ∧ 0xA0 ≤ last.toNat ∧ last.toNat ≤ 0xBF then some (.surrogate first start) else none
  | _ => none

/-- reading the bytes of a block, after which more may come: the characters that they complete, and the state. A
surrogate that the end of the block cuts off is refused only after it. -/
def decodePart (position : Nat) (state : State) : List UInt8 → Except Fault (Text × State)
  | [] => .ok ([], state)
  | b :: rest =>
    match step position state b with
    | .error fault =>
      match rest, state.cut? b with
      | [], some cut => .ok ([], cut)
      | _, _ => .error fault
    | .ok (c, next) =>
      match decodePart (position + 1) next rest with
      | .error fault => .error fault
      | .ok (t, last) => .ok (match c with | some c => c :: t | none => t, last)

end Utf8

end Componentry
