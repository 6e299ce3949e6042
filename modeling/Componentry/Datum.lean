/-
Unchecked data, and the reading of records whose fields have fixed kinds.

A record is read field by field. All faults are gathered, in the order of the fields, before anything is built.
-/
import Componentry.Text.Basic

namespace Componentry

/-- a value of unknown shape; of a number it only matters whether it is whole -/
inductive Datum where
  | null
  | flag (value : Bool)
  | whole (value : Int)
  | fraction
  | text (value : Text)
  | list (items : List Datum)
  | record (fields : List (Text × Datum))
  deriving Inhabited

/-- a record of unchecked fields -/
abbrev Fields := List (Text × Datum)

/-- what can be wrong with one field -/
inductive FieldFault where
  | missing
  | notText
  | notFlag
  | unreadableFlag
  | notList
  | notPath
  | notStatus
  | rejected (reason : Text)
  deriving DecidableEq

/-- a step from a record to the value at fault: a field or a position in a list -/
inductive Place where
  | field (name : Text)
  | item (index : Nat)
  deriving DecidableEq

/-- a fault and where it is -/
structure FieldError where
  place : List Place
  fault : FieldFault
  deriving DecidableEq

/-- the wording of a fault -/
def FieldFault.message : FieldFault → Text
  | .missing => "Field required".toList
  | .notText => "Input should be a valid string".toList
  | .notFlag => "Input should be a valid boolean".toList
  | .unreadableFlag => "Input should be a valid boolean, unable to interpret input".toList
  | .notList => "Input should be a valid list".toList
  | .notPath => "Input is not a valid path for <class 'pathlib.Path'>".toList
  | .notStatus => "Input should be 'updated', 'unchanged', 'skipped' or 'failed'".toList
  | .rejected reason => "Value error, ".toList ++ reason

/-- a value read from unchecked data, or everything that is wrong with it -/
inductive Checked (α : Type) where
  | ok (value : α)
  | faulty (errors : List FieldError)

namespace Checked

/-- the faults found -/
def errors {α : Type} : Checked α → List FieldError
  | .ok _ => []
  | .faulty es => es

/-- a function applied to a value, both checked: faults of either side are kept, the function's first -/
def both {α β : Type} : Checked (α → β) → Checked α → Checked β
  | .ok f, .ok a => .ok (f a)
  | f, a => .faulty (f.errors ++ a.errors)

instance : Applicative Checked where
  pure := .ok
  seq f a := both f (a ())

end Checked

namespace Datum

/-- a kind of field: how a value of it is read at a place -/
abbrev Reader (α : Type) := List Place → Datum → Checked α

/-- a single fault at a place -/
def refuse {α : Type} (place : List Place) (fault : FieldFault) : Checked α := .faulty [⟨place, fault⟩]

/-- a text; nothing else is turned into one -/
def readText : Reader Text
  | _, .text t => .ok t
  | place, _ => refuse place .notText

/-- a text that a check accepts -/
def readCheckedText (check : Text → Option Text) : Reader Text
  | place, .text t =>
    match check t with
    | some reason => refuse place (.rejected reason)
    | none => .ok t
  | place, _ => refuse place .notText

/-- a text or nothing -/
def readOptionalText : Reader (Option Text)
  | _, .null => .ok none
  | _, .text t => .ok (some t)
  | place, _ => refuse place .notText

/-- the text of a path -/
def readPathText : Reader Text
  | _, .text t => .ok t
  | place, _ => refuse place .notPath

/-- the words for a flag, in any letter case -/
def flagWord? (t : Text) : Option Bool :=
  let word := t.map Char.toLower
  if ["1", "on", "t", "true", "y", "yes"].any (·.toList = word) then some true
  else if ["0", "off", "f", "false", "n", "no"].any (·.toList = word) then some false
  else none

/-- whether a whole number fits in 64 bits -/
def fits (n : Int) : Bool := -9223372036854775808 ≤ n && n < 9223372036854775808

/-- a flag, one of its words, or the number 0 or 1 -/
def readFlag : Reader Bool
  | _, .flag b => .ok b
  | place, .whole n =>
    if n = 0 then .ok false
    else if n = 1 then .ok true
    else if fits n then refuse place .unreadableFlag
    else refuse place .notFlag
  | place, .text t =>
    match flagWord? t with
    | some b => .ok b
    | none => refuse place .unreadableFlag
  | place, _ => refuse place .notFlag

/-- a list of texts; every item that is none is at fault -/
def readTexts : Reader (List Text)
  | place, .list items =>
    (items.zipIdx.map fun (item, i) => readText (place ++ [.item i]) item).foldr
      (fun item rest => List.cons <$> item <*> rest) (.ok [])
  | place, _ => refuse place .notList

end Datum

namespace Fields

/-- a field that must be there -/
def required {α : Type} (fields : Fields) (name : Text) (read : Datum.Reader α) : Checked α :=
  match fields.lookup name with
  | some d => read [.field name] d
  | none => Datum.refuse [.field name] .missing

/-- a field that has a value of its own when it is absent -/
def optional {α : Type} (fields : Fields) (name : Text) (read : Datum.Reader α) (absent : α) : Checked α :=
  match fields.lookup name with
  | some d => read [.field name] d
  | none => .ok absent

/-- a record with some fields replaced or added -/
def override (fields newer : Fields) : Fields := newer ++ fields

end Fields

end Componentry
