/-
Access to the file tree by paths: looking up, reading, creating, replacing and removing, with the reason when the
system refuses.

A path is walked component by component; every component but the last must be a directory, `..` goes up, and names and
paths have a greatest length in bytes.
-/
import Componentry.FileTree.Basic
import Componentry.Path
import Componentry.Text.Quoted
import Componentry.Text.Utf8

namespace Componentry

/-- why an access is refused -/
inductive FileTree.Cause where
  | noEntry
  | denied
  | busy
  | occupied
  | notDirectory
  | isDirectory
  | nameTooLong
  | nulCharacter
  deriving DecidableEq

/-- a refused access: the reason, the path, and for a move the target -/
structure FileTree.Trouble where
  cause : FileTree.Cause
  path : Text
  target : Option Text
  deriving DecidableEq

namespace FileTree

/-- the system's number and words for a reason; a NUL character never gets as far as the system -/
def Cause.system? : Cause → Option (Nat × Text)
  | .noEntry => some (2, "No such file or directory".toList)
  | .denied => some (13, "Permission denied".toList)
  | .busy => some (16, "Device or resource busy".toList)
  | .occupied => some (17, "File exists".toList)
  | .notDirectory => some (20, "Not a directory".toList)
  | .isDirectory => some (21, "Is a directory".toList)
  | .nameTooLong => some (36, "File name too long".toList)
  | .nulCharacter => none

/-- the wording of a refused access -/
def Trouble.message (e : Trouble) : Text :=
  match e.cause.system? with
  | none => "embedded null byte".toList
  | some (number, words) =>
    "[Errno ".toList ++ Text.ofNat number ++ "] ".toList ++ words ++ ": ".toList ++ Text.quoted e.path ++
    (match e.target with | some target => " -> ".toList ++ Text.quoted target | none => [])

/-- whether the system refused, and not the check before it -/
def Trouble.isSystem (e : Trouble) : Bool := e.cause ≠ .nulCharacter

/-- a refused access at a path -/
def troubleAt (p : Path) (cause : Cause) : Trouble := ⟨cause, p.text, none⟩

/-- the greatest number of bytes in a component -/
def nameLimit : Nat := 255

/-- the number of bytes that a whole path must stay below -/
def pathLimit : Nat := 4096

/-! ## Walking -/

/-- one component further -/
def enter (t : FileTree) (here : Location) (name : Text) : Except Cause Location :=
  match t.get? here with
  | none => .error .noEntry
  | some (.file _) => .error .notDirectory
  | some .dir =>
    if name = ['.', '.'] then .ok here.dropLast
    else if (Utf8.encode name).length > nameLimit then .error .nameTooLong
    else .ok (here ++ [name])

/-- all components of a list, from a location on -/
def walk (t : FileTree) (here : Location) : List Text → Except Cause Location
  | [] => .ok here
  | name :: names =>
    match t.enter here name with
    | .error cause => .error cause
    | .ok next => walk t next names

/-- where a path starts -/
def origin (t : FileTree) (p : Path) : Location := if p.anchor = .here then t.current else []

/-- the location a path leads to; its last component need not be there -/
def locate (t : FileTree) (p : Path) : Except Cause Location :=
  if p.names.any (·.contains '\x00') then .error .nulCharacter
  else if (Utf8.encode p.text).length ≥ pathLimit then .error .nameTooLong
  else t.walk (t.origin p) p.names

/-! ## Looking -/

/-- what a path leads to -/
def look (t : FileTree) (p : Path) : Except Cause Entry :=
  match t.locate p with
  | .error cause => .error cause
  | .ok l =>
    match t.get? l with
    | none => .error .noEntry
    | some e => .ok e

/-- whether a spelled path asks for a directory, by a slash or a dot at its end -/
def asksForDir (spelled : Text) : Bool :=
  let last := (spelled.reverse.takeWhile (· ≠ '/')).reverse
  last.length < spelled.length && (last = [] || last = ['.'])

/-- what a path leads to as it is spelled -/
def lookSpelled (t : FileTree) (spelled : Text) : Except Cause Entry :=
  match t.look (.ofText spelled) with
  | .error cause => .error cause
  | .ok (.file content) => if asksForDir spelled then .error .notDirectory else .ok (.file content)
  | .ok .dir => if spelled = [] then .error .noEntry else .ok .dir

/-- the names in a directory -/
def namesIn (t : FileTree) (l : Location) : List Text :=
  t.entries.filterMap fun (m, _) => if m.dropLast = l then m.getLast? else none

/-- whether a path leads to something; only some reasons count as an answer -/
def isPresent (t : FileTree) (p : Path) : Except Trouble Bool :=
  match t.look p with
  | .ok _ => .ok true
  | .error .noEntry | .error .notDirectory | .error .nulCharacter => .ok false
  | .error cause => .error (troubleAt p cause)

/-- whether a path leads to a directory -/
def leadsToDir (t : FileTree) (p : Path) : Bool :=
  match t.look p with
  | .ok .dir => true
  | _ => false

/-- whether a path leads to a file -/
def leadsToFile (t : FileTree) (p : Path) : Bool :=
  match t.look p with
  | .ok (.file _) => true
  | _ => false

/-- the bytes of a file -/
def read (t : FileTree) (p : Path) : Except Trouble Bytes :=
  match t.look p with
  | .ok (.file content) => .ok content
  | .ok .dir => .error (troubleAt p .isDirectory)
  | .error cause => .error (troubleAt p cause)

/-! ## Creating -/

/-- a location that a path leads to and that holds nothing yet -/
def vacant (t : FileTree) (p : Path) : Except Trouble Location :=
  match t.locate p with
  | .error cause => .error (troubleAt p cause)
  | .ok l => if (t.get? l).isSome then .error (troubleAt p .occupied) else .ok l

/-- the tree with a new directory -/
def makeDir (t : FileTree) (p : Path) : Except Trouble FileTree := (t.vacant p).map fun l => t.set l .dir

/-- the tree with a new file -/
def createFile (t : FileTree) (p : Path) (content : Bytes) : Except Trouble FileTree :=
  (t.vacant p).map fun l => t.set l (.file content)

/-- a new directory is as good as one that is there -/
def settleDir (t : FileTree) (p : Path) : FileTree × Option Trouble :=
  match t.makeDir p with
  | .ok made => (made, none)
  | .error e => if e.cause ≠ .noEntry ∧ t.leadsToDir p then (t, none) else (t, some e)

/-- makes a directory, and the missing ones above it first; directories made before a refusal stay.
The components are given in reverse order. -/
def makeDirsAt (t : FileTree) (anchor : Path.Anchor) : List Text → FileTree × Option Trouble
  | [] => t.settleDir ⟨anchor, []⟩
  | name :: above =>
    let p : Path := ⟨anchor, (name :: above).reverse⟩
    match t.settleDir p with
    | (same, none) => (same, none)
    | (same, some e) =>
      if e.cause = .noEntry then
        match same.makeDirsAt anchor above with
        | (partly, some e) => (partly, some e)
        | (ready, none) => ready.settleDir p
      else (same, some e)

/-- makes a directory, and the missing ones above it first -/
def makeDirs (t : FileTree) (p : Path) : FileTree × Option Trouble := t.makeDirsAt p.anchor p.names.reverse

/-! ## Replacing -/

/-- a path as it reads from the root, `..` taken away by its spelling -/
def absolute (t : FileTree) (p : Path) : Path :=
  match p.anchor with
  | .here => ⟨.root, Path.collapse (t.current ++ p.names)⟩
  | anchor => ⟨anchor, Path.collapse p.names⟩

/-- the temporary file next to a path -/
def temporary (t : FileTree) (p : Path) : Path :=
  let dir := t.absolute p.parent
  ⟨dir.anchor, dir.names ++ [['.'] ++ p.name ++ ['.'] ++ t.token ++ ".tmp".toList]⟩

/-- a path that cannot be moved onto, because it names no entry of a directory -/
def isPinned (p : Path) : Bool := p.names.isEmpty || p.name = ['.', '.']

/-- moves a file onto a path, instead of what was there -/
def rename (t : FileTree) (source target : Path) : Except Trouble FileTree :=
  let refuse (cause : Cause) : Except Trouble FileTree := .error ⟨cause, source.text, some target.text⟩
  match t.locate source, t.locate target with
  | .error cause, _ => refuse cause
  | _, .error cause => refuse cause
  | .ok l, .ok m =>
    if isPinned target then refuse .busy
    else match t.get? l, t.get? m with
      | some (.file content), some (.file _) => .ok ((t.remove l).set m (.file content))
      | some (.file content), none => .ok ((t.remove l).set m (.file content))
      | some (.file _), some .dir => refuse .isDirectory
      | some .dir, _ => refuse .isDirectory
      | none, _ => refuse .noEntry

/-- the tree without a file; a path that leads to none is left alone -/
def unlink (t : FileTree) (p : Path) : FileTree :=
  match t.locate p with
  | .error _ => t
  | .ok l =>
    match t.get? l with
    | some (.file _) => t.remove l
    | _ => t

/-- the tree without a directory and all below it; a path that leads to none is left alone -/
def removeTree (t : FileTree) (p : Path) : FileTree :=
  match t.locate p with
  | .error _ => t
  | .ok l => if t.get? l = some .dir then t.removeBelow l else t

/-- what a file system step leaves behind: the tree, and the reason if it was refused -/
abbrev Attempt := FileTree × Option Trouble

/-- replaces a file in one move: the content goes to a temporary file next to it, which is then moved over it; where the
system refuses that, the temporary file is taken away again -/
def replace (t : FileTree) (p : Path) (content : Bytes) : Attempt :=
  let temp := t.temporary p
  match t.createFile temp content with
  | .error e => (t, some e)
  | .ok written =>
    match written.isPresent p with
    | .error e => (written.unlink temp, some e)
    | .ok _ =>
      match written.rename temp p with
      | .error e => (if e.isSystem then written.unlink temp else written, some e)
      | .ok moved => (moved, none)

end FileTree

end Componentry
