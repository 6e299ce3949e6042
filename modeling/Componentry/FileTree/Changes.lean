/-
What changed between two file trees.
-/
import Componentry.FileTree.Basic

namespace Componentry.FileTree

/-- the differences between two trees below a directory: files with their new content, or none where one is gone, and
the directories added and removed, all by their names below that directory -/
structure Changes where
  files : List (Text × Option Bytes)
  dirsAdded : List Text
  dirsRemoved : List Text

/-- the content of a file -/
def content? (t : FileTree) (l : Location) : Option Bytes :=
  match t.get? l with
  | some (.file content) => some content
  | _ => none

/-- the locations of a tree below a directory, as seen from there -/
def below (t : FileTree) (base : Location) : List Location :=
  t.entries.filterMap fun (l, _) => if base.isPrefixOf l ∧ l ≠ base then some (l.drop base.length) else none

/-- the name of a location below a directory -/
def nameOf (l : Location) : Text := Text.join ['/'] l

/-- the changes below a directory from one tree to another -/
def changes (base : Location) (old new : FileTree) : Changes where
  files := ((old.below base ++ new.below base).eraseDups.filter fun l =>
      old.content? (base ++ l) ≠ new.content? (base ++ l)).map fun l => (nameOf l, new.content? (base ++ l))
  dirsAdded := Text.sorted (((new.below base).filter fun l =>
      new.get? (base ++ l) = some .dir ∧ old.get? (base ++ l) ≠ some .dir).map nameOf)
  dirsRemoved := Text.sorted (((old.below base).filter fun l =>
      old.get? (base ++ l) = some .dir ∧ new.get? (base ++ l) ≠ some .dir).map nameOf)

end Componentry.FileTree
