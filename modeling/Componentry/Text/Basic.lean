/-
Texts as lists of characters, and the operations on them that the rest of the library shares: finding a piece,
splitting at a separator, joining, and the table look-ups behind the character classes.
-/
namespace Componentry

/-- a text, one entry per code point -/
abbrev Text := List Char

namespace Text

/-- what holds of all characters of a text is decided by a look at the text, not at all characters there are -/
instance (priority := high) decidableForallMem (t : Text) (p : Char → Prop) [DecidablePred p] :
    Decidable (∀ c ∈ t, p c) := List.decidableBAll p t

/-- and so is what holds of one of them -/
instance (priority := high) decidableExistsMem (t : Text) (p : Char → Prop) [DecidablePred p] :
    Decidable (∃ c ∈ t, p c) := List.decidableBEx p t

/-- whether a text is one of several -/
instance (priority := high) decidableMem (t : Text) (ts : List Text) : Decidable (t ∈ ts) :=
  List.instDecidableMemOfLawfulBEq t ts

/-- whether a code point lies in one of the ranges of a table (both ends included) -/
def inRanges (table : List (Nat × Nat)) (c : Char) : Bool :=
  table.any fun r => r.1 ≤ c.toNat && c.toNat ≤ r.2

/-- the position of the first occurrence of `piece` -/
def indexOf? (piece : Text) : Text → Option Nat
  | [] => if piece = [] then some 0 else none
  | c :: rest => if piece.isPrefixOf (c :: rest) then some 0 else (indexOf? piece rest).map (· + 1)

/-- the position of the first occurrence of `piece` at or after `start` -/
def indexFrom? (piece t : Text) (start : Nat) : Option Nat :=
  (indexOf? piece (t.drop start)).map (· + start)

/-- whether `piece` occurs in the text -/
def holds (piece t : Text) : Bool := (indexOf? piece t).isSome

/-- the part of a text between two positions -/
def slice (t : Text) (start stop : Nat) : Text := (t.take stop).drop start

/-- the pieces between the occurrences of a separator; a text without one is a single piece -/
def splitAt (sep : Char) : Text → List Text
  | [] => [[]]
  | c :: rest =>
    if c = sep then [] :: splitAt sep rest
    else match splitAt sep rest with
      | [] => [[c]]
      | piece :: pieces => (c :: piece) :: pieces

/-- the pieces with a separator between each two -/
def join (sep : Text) : List Text → Text
  | [] => []
  | [piece] => piece
  | piece :: pieces => piece ++ sep ++ join sep pieces

/-- every occurrence of one character exchanged for another -/
def swap (old new : Char) (t : Text) : Text := t.map fun c => if c = old then new else c

/-- the decimal digits of a number -/
def ofNat (n : Nat) : Text := Nat.toDigits 10 n

/-- the decimal digits of an integer, after a minus sign if it is negative -/
def ofInt : Int → Text
  | .ofNat n => ofNat n
  | .negSucc n => '-' :: ofNat (n + 1)

/-- `digits` hexadecimal digits of a number, lower case, zeros in front -/
def hex (digits n : Nat) : Text :=
  let d := Nat.toDigits 16 n
  List.replicate (digits - d.length) '0' ++ d

/-- the order of texts by code point -/
def before (a b : Text) : Bool := decide (a < b)

/-- texts in code point order, equal ones kept in their order -/
def sorted (ts : List Text) : List Text := ts.mergeSort fun a b => !before b a

end Text

end Componentry
