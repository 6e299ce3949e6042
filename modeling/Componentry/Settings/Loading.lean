/-
The settings of a library, from the settings file at its root and the values that override it.

A file is not needed. If there is one it must fit the schema even where it is overridden; the root is always the one
asked for. How deeply the collections of a file can be nested depends on the call stack, which is a parameter.
-/
import Componentry.FileTree.Texts
import Componentry.Settings
import Componentry.Settings.Discovery
import Componentry.Settings.Schema
import Componentry.Text.Lines
import Componentry.Yaml.Value.Reading

namespace Componentry.Settings

/-- why there are no settings; the first four end the program at once -/
inductive Failure where
  | unseen (trouble : FileTree.Trouble)
  | undecodable (fault : Utf8.Fault)
  | unsound (fault : Yaml.Fault)
  | unwritable
  | unreadable (path : Path) (trouble : FileTree.Trouble)
  | malformed (path : Path)
  | noMapping (path : Path)
  | unfitting (path : Path) (contents : Yaml.Contents) (misfit : Misfit)
  | faulty (path : Path) (fields : Fields) (errors : List FieldError)

namespace Failure

/-- whether the failure is one of the settings, and not one that ends the program at once -/
def isHandled : Failure → Bool
  | .unseen _ | .undecodable _ | .unsound _ | .unwritable => false
  | _ => true

/-- the wording of a failure -/
def message : Failure → Text
  | .unseen t => t.message
  | .undecodable f => f.message
  | .unsound f => f.message
  | .unwritable =>
    "Exceeds the limit (".toList ++ Text.ofNat Yaml.writtenDigits ++ " digits) for integer string conversion; ".toList ++
    "use sys.set_int_max_str_digits() to increase the limit".toList
  | .unreadable path t => "Failed to read ".toList ++ path.text ++ ": ".toList ++ t.message
  | .malformed path => "Failed to parse ".toList ++ path.name
  | .noMapping path => path.name ++ " must contain a mapping".toList
  | .unfitting _ c misfit => "Schema validation failed: ".toList ++ misfit.message c
  | .faulty .. => "Configuration validation failed".toList

end Failure

/-- the settings file of a library -/
def filePath (root : Path) : Path := root.child fileName

/-- what a settings file says -/
def readContents (path : Path) (bytes : Bytes) : Except Failure Yaml.Contents :=
  match (Yaml.Source.ofBytes bytes).read with
  | .ok c => .ok c
  | .error .malformed | .error .unfinished => .error (.malformed path)
  | .error (.undecodable f) => .error (.undecodable f)
  | .error f => .error (.unsound f)

/-- the entries of what a settings file says; nothing at all counts as no entries -/
def entries (path : Path) (c : Yaml.Contents) : Except Failure (List (Yaml.Value × Yaml.Value)) :=
  match c.resolve c.root with
  | .null => .ok []
  | .record entries => .ok entries
  | _ => .error (.noMapping path)

/-- the fields of a settings file, once it fits -/
def fitting (path : Path) (c : Yaml.Contents) : Except Failure Fields :=
  (entries path c).bind fun entries =>
    if isUnwritable c entries then .error .unwritable
    else match misfit? c entries with
    | some m => .error (.unfitting path c m)
    | none => .ok (fileFields c entries)

/-- the fields of the settings file of a library, none if there is no file -/
def readFields (t : FileTree) (path : Path) : Except Failure Fields :=
  match t.isPresent path with
  | .error e => .error (.unseen e)
  | .ok false => .ok []
  | .ok true =>
    match t.read path with
    | .error e => .error (.unreadable path e)
    | .ok bytes => (readContents path bytes).bind (fitting path)

/-- the settings of the library at a root -/
def load (t : FileTree) (root : Path) (overrides : Fields) : Except Failure Settings :=
  let path := filePath root
  (readFields t path).bind fun fields =>
    let given := (fields.override overrides).override [("root".toList, .text root.text)]
    match Settings.ofFields given with
    | .ok s => .ok { s with root := root }
    | .faulty errors => .error (.faulty path given errors)

/-! ## The call stack -/

/-- whether a byte begins a collection or an entry of one: a bracket, a brace, a hyphen, a question mark or a colon -/
def isMark (b : UInt8) : Bool := [0x5B, 0x7B, 0x2D, 0x3F, 0x3A].contains b

/-- a call stack: the files for which it is too short, when they are read or what they say is checked, and a number of
levels that it has room for. A level is a collection, or one that is merged into another or stands for a scalar, and
takes a mark of its own. -/
structure Stack where
  overflows : Bytes → Bool
  room : Nat
  fits : ∀ bytes, overflows bytes = true → room < bytes.countP isMark

/-- a call stack that is never too short -/
def Stack.unbounded : Stack := ⟨fun _ => false, 0, by simp⟩

/-- the settings of the library at a root, loaded on a call stack -/
def loadOn (stack : Stack) (t : FileTree) (root : Path) (overrides : Fields) : Except Failure Settings :=
  match t.read (filePath root) with
  | .ok bytes => if stack.overflows bytes then .error (.unsound .endless) else load t root overrides
  | .error _ => load t root overrides

end Componentry.Settings
