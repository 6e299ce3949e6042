/-
The journal of a run: the files and directories it made and the texts it replaced, so that they can be undone.

Directories are put down by the outermost one that was missing, texts by the one found first.
-/
import Componentry.FileTree.Texts

namespace Componentry

/-- what a run did to the tree so far -/
structure Journal where
  files : List Path
  dirs : List Path
  savedTexts : List (Path × Text)

namespace Journal

/-- nothing done yet -/
def empty : Journal := ⟨[], [], []⟩

/-- a created file put down -/
def addFile (j : Journal) (p : Path) : Journal := { j with files := j.files ++ [p] }

/-- a created directory put down, if there was one -/
def addDir (j : Journal) (p : Option Path) : Journal := { j with dirs := j.dirs ++ p.toList }

/-- a replaced text put down, unless an earlier one of the same file is there -/
def saveText (j : Journal) (p : Path) (text : Text) : Journal :=
  if (j.savedTexts.lookup p).isSome then j else { j with savedTexts := j.savedTexts ++ [(p, text)] }

/-- texts back in their files; one that cannot be put back stays as it is -/
def restore (t : FileTree) (savedTexts : List (Path × Text)) : FileTree :=
  savedTexts.foldl (fun t (p, text) => (t.replaceText p text).1) t

/-- the tree with everything undone that can be: texts first, then files and directories, the last made first -/
def undo (j : Journal) (t : FileTree) : FileTree :=
  j.dirs.reverse.foldl FileTree.removeTree (j.files.reverse.foldl FileTree.unlink (restore t j.savedTexts))

end Journal

namespace FileTree

/-- the outermost of some paths that leads to nothing; all of them are looked at -/
def firstMissing (t : FileTree) : List Path → Except Trouble (Option Path)
  | [] => .ok none
  | p :: ps =>
    match t.isPresent p with
    | .error e => .error e
    | .ok here =>
      match t.firstMissing ps with
      | .error e => .error e
      | .ok inner => .ok (if here then inner else some p)

end FileTree

end Componentry
