/-
The full wording of a failure to load settings, as it stands on the screen: the faults of the fields one after the
other, each with the value that was given and a page that says more.
-/
import Componentry.Settings.Loading

namespace Componentry.Settings

namespace Report

/-- as many characters from the beginning of a text as fit in a number of bytes -/
def fitting : Nat → Text → Text
  | _, [] => []
  | bytes, c :: rest =>
    let size := (Utf8.encodeChar c).length
    if size ≤ bytes then c :: fitting (bytes - size) rest else []

/-- a text of more than 50 bytes, with dots in place of its middle -/
def shortened (t : Text) : Text :=
  if (Utf8.encode t).length ≤ 50 then t
  else fitting 25 t ++ "...".toList ++ (fitting 24 t.reverse).reverse

/-- where a fault is -/
def placeText (place : List Place) : Text :=
  Text.join ['.'] (place.map fun p => match p with
    | .field name => name
    | .item index => Text.ofNat index)

/-- the text that was given for a field -/
def givenText (fields : Fields) : List Place → Text
  | .field name :: _ =>
    match fields.lookup name with
    | some (.text t) => t
    | _ => []
  | _ => []

/-- the page that says more about refused values -/
def page : Text := "https:".toList ++ "//errors.pydantic.dev/2.14/v/value_error".toList

/-- the lines about one fault -/
def lines (fields : Fields) (e : FieldError) : List Text :=
  [placeText e.place,
    "  ".toList ++ e.fault.message ++ " [type=value_error, input_value=".toList ++
      shortened (Text.quoted (givenText fields e.place)) ++ ", input_type=str]".toList,
    "    For further information visit ".toList ++ page]

/-- the lines about all faults, under their number -/
def text (fields : Fields) (errors : List FieldError) : Text :=
  let head := Text.ofNat errors.length ++ " validation error".toList ++
    (if errors.length = 1 then [] else ['s']) ++ " for ScaffoldConfig".toList
  Text.join ['\n'] (head :: errors.flatMap (lines fields))

end Report

/-- the full wording of a failure -/
def Failure.fullMessage (f : Failure) : Text :=
  match f with
  | .faulty _ fields errors => f.message ++ ": ".toList ++ Report.text fields errors
  | _ => f.message

end Componentry.Settings
