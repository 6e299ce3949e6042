/-
Reading and replacing text files, line endings kept as they are, with failures that name the file.
-/
import Componentry.FileTree.Access

namespace Componentry

/-- something that no part of a run handles: it ends the run at once and leaves the tree as it is -/
inductive Escape where
  | trouble (t : FileTree.Trouble)
  | undecodable (f : Utf8.Fault)
  | noSuchGroup
  deriving DecidableEq

/-- the wording of what ends a run at once -/
def Escape.message : Escape → Text
  | .trouble t => t.message
  | .undecodable f => f.message
  | .noSuchGroup => "no such group".toList

/-- a step that did not go through: for a reason that its caller handles, or not -/
inductive Stop (ε : Type) where
  | handled (reason : ε)
  | escaped (escape : Escape)

/-- what was done to a file when it failed -/
inductive FileFailure.Doing where
  | reading
  | writing
  | creating
  deriving DecidableEq

/-- why it failed: the system refused, or the bytes are no text -/
inductive FileFailure.Reason where
  | refused (t : FileTree.Trouble)
  | undecodable (f : Utf8.Fault)
  deriving DecidableEq

/-- a failure at a file -/
structure FileFailure where
  doing : FileFailure.Doing
  path : Path
  reason : FileFailure.Reason
  deriving DecidableEq

namespace FileFailure

/-- the verb of a failure -/
def Doing.verb : Doing → Text
  | .reading => "read".toList
  | .writing => "write".toList
  | .creating => "create".toList

/-- the wording of a reason -/
def Reason.message : Reason → Text
  | .refused t => t.message
  | .undecodable f => f.message

/-- the wording of a failure -/
def message (f : FileFailure) : Text :=
  "Failed to ".toList ++ f.doing.verb ++ [' '] ++ f.path.text ++ ": ".toList ++ f.reason.message

/-- a refused access as a failure at a file; only the system's refusals are handled -/
def stop (doing : Doing) (path : Path) (t : FileTree.Trouble) : Stop FileFailure :=
  if t.isSystem then .handled ⟨doing, path, .refused t⟩ else .escaped (.trouble t)

end FileFailure

namespace FileTree

/-- the text of a file -/
def readText (t : FileTree) (p : Path) : Except (Stop FileFailure) Text :=
  match t.read p with
  | .error e => .error (FileFailure.stop .reading p e)
  | .ok bytes =>
    match Utf8.decode bytes with
    | .error f => .error (.handled ⟨.reading, p, .undecodable f⟩)
    | .ok text => .ok text

/-- the tree with a file's text replaced in one move, and what went wrong if it was not -/
def replaceText (t : FileTree) (p : Path) (text : Text) : FileTree × Option (Stop FileFailure) :=
  match t.replace p (Utf8.encode text) with
  | (after, none) => (after, none)
  | (after, some e) => (after, some (FileFailure.stop .writing p e))

end FileTree

end Componentry
