/-
Finding the root of a component library: the nearest directory upward that holds one of the marker files.
-/
import Componentry.FileTree.Access

namespace Componentry.Settings

/-- the file with a library's settings -/
def fileName : Text := "kgscaffold.yaml".toList

/-- the files that mark the root of a library -/
def markers : List Text := ["pnpm-workspace.yaml".toList, fileName]

/-- whether a directory holds one of some files -/
def holdsAny (t : FileTree) (dir : Path) : List Text → Except FileTree.Trouble Bool
  | [] => .ok false
  | name :: names =>
    match t.isPresent (dir.child name) with
    | .error e => .error e
    | .ok true => .ok true
    | .ok false => holdsAny t dir names

/-- the first of some directories that holds a marker -/
def firstMarked (t : FileTree) : List Path → Except FileTree.Trouble (Option Path)
  | [] => .ok none
  | dir :: dirs =>
    match holdsAny t dir markers with
    | .error e => .error e
    | .ok true => .ok (some dir)
    | .ok false => firstMarked t dirs

/-- the nearest marked directory from a path upward, as it reads from the root -/
def discoverRoot (t : FileTree) (start : Path) : Except FileTree.Trouble (Option Path) :=
  let nearest := t.absolute start
  if (start.names ++ t.current).any (·.contains '\x00') then .error (FileTree.troubleAt start .nulCharacter)
  else firstMarked t (nearest :: nearest.ancestors.reverse)

end Componentry.Settings
