/-
What a settings file may hold: which keys, and what kind of value under each.

Of several faults one is reported: keys that do not belong first, all of them; otherwise a value that does not fit
before an item of a list, and of two at the same depth the one whose place comes last: keys go by code point, items by
position.
-/
import Componentry.Datum
import Componentry.Yaml.Value

namespace Componentry.Settings

open Yaml

/-- the kinds of values in a settings file; a text or list of texts may not be empty -/
inductive Kind where
  | text
  | texts
  | flag
  deriving DecidableEq

/-- the keys of a settings file and the kinds of their values -/
def schema : List (Text × Kind) :=
  [("components_dir", .text), ("docs_dir", .text), ("index_file", .text), ("router_file", .text),
   ("navigation_file", .text), ("pages_dir", .text), ("tag_prefix", .text), ("css_prefix", .text),
   ("components_list_name", .text), ("route_children_key", .text), ("navigation_element", .text),
   ("format_command", .texts), ("format_enabled", .flag)].map fun (name, kind) => (String.toList name, kind)

/-- why a file does not fit: keys that do not belong, a value of another kind, or an empty one -/
inductive Misfit where
  | extra (keys : List Value)
  | kind (place : List Place) (value : Value) (wanted : Text)
  | empty (place : List Place) (value : Value)

/-- where a file does not fit -/
def Misfit.place : Misfit → List Place
  | .extra _ => []
  | .kind place .. => place
  | .empty place _ => place

/-- the wording of a misfit -/
def Misfit.message (c : Contents) : Misfit → Text
  | .extra keys =>
    "Additional properties are not allowed (".toList ++ Text.join ", ".toList (keys.map c.quoted) ++
    (if keys.length = 1 then " was" else " were").toList ++ " unexpected)".toList
  | .kind _ value wanted => c.quoted value ++ " is not of type ".toList ++ Text.quoted wanted
  | .empty _ value => c.quoted value ++ " should be non-empty".toList

/-- the last item of a list that is no text -/
def itemMisfit? (place : List Place) (items : List Value) : Option Misfit :=
  (items.zipIdx.filterMap fun (item, i) =>
    match item with
    | .text _ => none
    | v => some (.kind (place ++ [.item i]) v "string".toList)).getLast?

/-- why a value is not of a kind -/
def Kind.misfit? (c : Contents) (kind : Kind) (name : Text) (value : Value) : Option Misfit :=
  let place := [Place.field name]
  match kind, c.resolve value with
  | .text, .text [] => some (.empty place value)
  | .text, .text _ => none
  | .text, _ => some (.kind place value "string".toList)
  | .texts, .list [] => some (.empty place value)
  | .texts, .list items => itemMisfit? place items
  | .texts, _ => some (.kind place value "array".toList)
  | .flag, .flag _ => none
  | .flag, _ => some (.kind place value "boolean".toList)

/-- the kind of value under a key -/
def kindOf? (key : Value) : Option Kind :=
  match key with
  | .text name => schema.lookup name
  | _ => none

/-- the keys that do not belong, in the order of their texts -/
def extraKeys (entries : List (Value × Value)) : List Value :=
  ((entries.map (·.1)).filter fun k => (kindOf? k).isNone).mergeSort fun a b => !Text.before b.plain a.plain

/-- the misfits under the keys that belong -/
def keyMisfits (c : Contents) (entries : List (Value × Value)) : List (Text × Misfit) :=
  entries.filterMap fun (key, value) =>
    match key, kindOf? key with
    | .text name, some kind => (kind.misfit? c name value).map fun m => (name, m)
    | _, _ => none

/-- how far a misfit lies inside the file -/
def Misfit.depth (m : Misfit) : Nat := m.place.length

/-- the one of two misfits that is reported: the outer one, or at the same depth the one under the later key -/
def reported (a b : Text × Misfit) : Text × Misfit :=
  if b.2.depth < a.2.depth ∨ (b.2.depth = a.2.depth ∧ Text.before a.1 b.1) then b else a

/-- why entries do not fit, if they do not -/
def misfit? (c : Contents) (entries : List (Value × Value)) : Option Misfit :=
  let extra := extraKeys entries
  if extra.isEmpty then
    match keyMisfits c entries with
    | [] => none
    | first :: more => some (more.foldl reported first).2
  else some (.extra extra)

/-- whether the wording of a misfit cannot be written: a key that does not belong, or a value under one that does, is or
holds a whole number of too many digits -/
def isUnwritable (c : Contents) (entries : List (Value × Value)) : Bool :=
  entries.any fun (key, value) => c.isUnwritable (if (kindOf? key).isNone then key else value)

/-- a value of a settings file as unchecked data -/
def datum (c : Contents) (value : Value) : Datum :=
  match c.resolve value with
  | .flag b => .flag b
  | .text t => .text t
  | .list items => .list (items.map fun item =>
    match item with
    | .text t => .text t
    | _ => .null)
  | _ => .null

/-- the fields of a settings file that fits -/
def fileFields (c : Contents) (entries : List (Value × Value)) : Fields :=
  entries.filterMap fun (key, value) =>
    match key with
    | .text name => some (name, datum c value)
    | _ => none

end Componentry.Settings
