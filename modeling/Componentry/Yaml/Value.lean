/-
The values that a YAML text can write, and how they are quoted in messages.

Collections are kept once and referred to by the number of their node, so that a value can hold itself; in a message
such an inner occurrence is written as three dots in brackets.
-/
import Componentry.Decimal.Shortest
import Componentry.Yaml.Timestamp

namespace Componentry.Yaml

/-- a value; a record keeps its entries in the order in which their keys came first. A decimal that is no number is
told from others by the node it was written in, except that `.nan` is one and the same everywhere. -/
inductive Value where
  | null
  | flag (value : Bool)
  | whole (value : Int)
  | decimal (value : Binary64)
  | noNumber (node : Option Nat)
  | text (value : Text)
  | bytes (value : List UInt8)
  | time (value : Timestamp)
  | list (items : List Value)
  | pair (first second : Value)
  | record (entries : List (Value × Value))
  | set (members : List Value)
  | shared (number : Nat)
  deriving Inhabited

/-- what a text writes: its value, and what the collections hold, by the numbers of their nodes -/
structure Contents where
  root : Value
  shared : Array Value

namespace Value

/-- decimals in messages: an exponent of at least two digits below a ten-thousandth and from 10^16 on -/
def layout : DecimalLayout := ⟨-3, 16, 2⟩

/-- the value of a flag or whole number as a number -/
def whole? : Value → Option Int
  | .flag b => some (if b then 1 else 0)
  | .whole n => some n
  | _ => none

/-- whether two values are the same key; a flag is the number 0 or 1, and a decimal can be a whole number -/
def same (a b : Value) : Bool :=
  match a, b with
  | .null, .null => true
  | .text s, .text t => s = t
  | .bytes s, .bytes t => s = t
  | .time s, .time t => s.same t
  | .decimal x, .decimal y => x.same y
  | .noNumber m, .noNumber n => m = n
  | .decimal x, v | v, .decimal x => v.whole?.any x.isWhole
  | a, b => a.whole?.isSome && a.whole? = b.whole?

/-- entries with one more; a key that is there keeps its place and its spelling and takes the new value -/
def put (entries : List (Value × Value)) (key value : Value) : List (Value × Value) :=
  if entries.any (·.1.same key) then entries.map fun e => if e.1.same key then (e.1, value) else e
  else entries ++ [(key, value)]

/-- the size of a table for some members: the least power of two above twice their number, and eight for up to four -/
def tableSize (count : Nat) : Nat := if count < 5 then 8 else Nat.pow 2 (Nat.log2 (2 * count) + 1)

/-- the place of a whole number in a table before any other number takes it -/
def slot (size : Nat) (n : Int) : Int := (if n = -1 then -2 else Int.tmod n (Nat.pow 2 61 - 1 : Nat)) % size

/-- members of a set in the order in which they are listed: whole numbers by their places in a table, and all others as
they came -/
def arranged (members : List Value) : List Value :=
  match members.mapM whole? with
  | some _ =>
    let place (v : Value) : Int := slot (tableSize members.length) (v.whole?.getD 0)
    members.mergeSort fun a b => place a ≤ place b
  | none => members

/-! ## Messages -/

/-- what brackets the items of a collection -/
def bracketed (start stop : String) (items : List Text) : Text :=
  start.toList ++ Text.join ", ".toList items ++ stop.toList

mutual

/-- a value in a message, given how the collections it refers to are written -/
def quotedWith (shared : Nat → Text) : Value → Text
  | .null => "None".toList
  | .flag b => (if b then "True" else "False").toList
  | .whole n => Text.ofInt n
  | .decimal x => x.text layout
  | .noNumber _ => "nan".toList
  | .text t => Text.quoted t
  | .bytes b => Text.quotedBytes b
  | .time t => t.quoted
  | .list items => bracketed "[" "]" (quotedItems shared items)
  | .pair a b => bracketed "(" ")" [quotedWith shared a, quotedWith shared b]
  | .record entries => bracketed "\x7b" "\x7d" (quotedEntries shared entries)
  | .set [] => "set()".toList
  | .set members => bracketed "\x7b" "\x7d" (quotedItems shared members)
  | .shared n => shared n

/-- the items of a collection -/
def quotedItems (shared : Nat → Text) : List Value → List Text
  | [] => []
  | v :: rest => quotedWith shared v :: quotedItems shared rest

/-- the entries of a record -/
def quotedEntries (shared : Nat → Text) : List (Value × Value) → List Text
  | [] => []
  | (k, v) :: rest => (quotedWith shared k ++ ": ".toList ++ quotedWith shared v) :: quotedEntries shared rest

end

/-- a collection that is being written already -/
def ellipsis : Value → Text
  | .record _ => "\x7b...\x7d".toList
  | .set _ => "set(...)".toList
  | _ => "[...]".toList

/-- a value as plain text: a text itself, a time by its parts, and all else as in messages -/
def plain : Value → Text
  | .text t => t
  | .time t => t.text
  | v => quotedWith (fun _ => []) v

end Value

/-- the greatest number of digits of a whole number in a message -/
def writtenDigits : Nat := 4300

namespace Contents

/-- what a value is; a number with no value cannot occur -/
def resolve (c : Contents) : Value → Value
  | .shared n => c.shared.getD n .null
  | v => v

/-- a value in a message; `within` are the collections around it that are being written, and `fuel` bounds how many
can be -/
def quotedWithin (c : Contents) : Nat → List Nat → Value → Text
  | 0, _, v => Value.quotedWith (fun n => Value.ellipsis (c.resolve (.shared n))) v
  | fuel + 1, within, v =>
    v.quotedWith fun n =>
      if within.contains n then Value.ellipsis (c.resolve (.shared n))
      else c.quotedWithin fuel (n :: within) (c.resolve (.shared n))

/-- a value in a message -/
def quoted (c : Contents) (v : Value) : Text := c.quotedWithin c.shared.size [] v

/-! ## Numbers that are too long for a message -/

/-- the values that a collection holds -/
def children (c : Contents) (v : Value) : List Value :=
  match c.resolve v with
  | .list items | .set items => items.flatMap fun item =>
    match item with
    | .pair a b => [a, b]
    | v => [v]
  | .record entries => entries.flatMap fun e => [e.1, e.2]
  | _ => []

/-- the number of all places in all collections -/
def places (c : Contents) : Nat := c.shared.foldl (fun n v => n + (c.children v).length) 0

/-- whether one of some values, or of those that they hold, is a whole number of more digits than can be written;
`seen` are collections that were looked into, and `fuel` bounds the number of values -/
def anyUnwritable (c : Contents) : Nat → List Nat → List Value → Bool
  | 0, _, _ => false
  | _ + 1, _, [] => false
  | fuel + 1, seen, .whole n :: rest => powerOfTen writtenDigits ≤ n.natAbs || anyUnwritable c fuel seen rest
  | fuel + 1, seen, .shared n :: rest =>
    if seen.contains n then anyUnwritable c fuel seen rest
    else anyUnwritable c fuel (n :: seen) (c.children (.shared n) ++ rest)
  | fuel + 1, seen, _ :: rest => anyUnwritable c fuel seen rest

/-- whether a value cannot be written in a message, because of a whole number in it -/
def isUnwritable (c : Contents) (v : Value) : Bool := c.anyUnwritable (c.places + 2) [] [v]

end Contents

end Componentry.Yaml
