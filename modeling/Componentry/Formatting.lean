/-
The formatter: an external command run in a directory after a component is created.

The commands that can be found are `sh`, `true` and `false`. Any other name is looked up and not found, and a path
into the tree leads to no program, whatever is there.
-/
import Componentry.Creation
import Componentry.Shell.Running
import Componentry.Text.Lines

namespace Componentry.Formatting

/-- a command that can be run -/
inductive Program where
  | shell (name : Text)
  | always (code : Nat)

/-- the commands that can be found by name -/
def named? (name : Text) : Option Program :=
  match String.ofList name with
  | "sh" => some (.shell "/usr/bin/sh".toList)
  | "true" => some (.always 0)
  | "false" => some (.always 1)
  | _ => none

/-- the command that a path leads to outside the tree -/
def placed? (path : Text) : Option Program :=
  ["/usr/bin/", "/bin/"].findSome? fun d =>
    if d.toList.isPrefixOf path then
      (named? (path.drop d.length)).map fun
        | .shell _ => .shell path
        | p => p
    else none

/-- the program that a command leads to, or why it cannot be started -/
def program (tree : FileTree) (command : Text) : Except FileTree.Cause Program :=
  match if command.contains '/' then placed? command else named? command with
  | some p => .ok p
  | none =>
    if command.contains '/' then
      match tree.lookSpelled command with
      | .ok _ => .error .denied
      | .error cause => .error cause
    else if command = [] then .error .denied
    else if (Utf8.encode command).length > FileTree.nameLimit then .error .nameTooLong
    else .error .noEntry

/-- what a program leaves when it is run with words -/
def start (tree : FileTree) (p : Program) (words : List Text) : Shell.Ended :=
  match p with
  | .always code => ⟨tree, [], [], Int.ofNat code⟩
  | .shell name => Shell.run tree name words

/-- the text a stream carried, every line ending read as a line feed -/
def streamText (bytes : Bytes) : Except Utf8.Fault Text := (Utf8.decode bytes).map Text.universalNewlines

/-- how a command that ended is judged -/
def judge (command : List Text) (ended : Shell.Ended) : Option (Stop FormatFault) :=
  match streamText ended.out, streamText ended.err with
  | .error f, _ | _, .error f => some (.escaped (.undecodable f))
  | .ok _, .ok err => if ended.code = 0 then none else some (.handled (.exited command ended.code (Text.trim err)))

/-- runs a command in a directory -/
def run : Formatter := fun command dir tree =>
  match command with
  | [] => (tree, some (.handled .empty))
  | name :: words =>
    let refuse (cause : FileTree.Cause) (path : Text) : FileTree × Option (Stop FormatFault) :=
      let t : FileTree.Trouble := ⟨cause, path, none⟩
      (tree, some (if t.isSystem then .handled (.notStarted command t) else .escaped (.trouble t)))
    if command.any (·.contains '\x00') then refuse .nulCharacter name
    else match tree.locate dir with
      | .error cause => refuse cause dir.text
      | .ok l =>
        match tree.get? l with
        | none => refuse .noEntry dir.text
        | some (.file _) => refuse .notDirectory dir.text
        | some .dir =>
          match program { tree with current := l } name with
          | .error cause => refuse cause name
          | .ok p =>
            let ended := start { tree with current := l } p words
            ({ ended.tree with current := tree.current }, judge command ended)

end Componentry.Formatting
