/-
Paths, kept in normal form: repeated slashes, `.` components and a trailing slash are gone, `..` stays, and two leading
slashes differ from one.
-/
import Componentry.Text.Basic

namespace Componentry

/-- where a path starts: at the current directory, at the root, or at the root spelled with two slashes -/
inductive Path.Anchor where
  | here
  | root
  | doubleRoot
  deriving DecidableEq

/-- a path: its start and its components -/
structure Path where
  anchor : Path.Anchor
  names : List Text
  deriving DecidableEq

namespace Path

/-- the slashes an anchor is written with -/
def Anchor.text : Anchor → Text
  | .here => []
  | .root => ['/']
  | .doubleRoot => ['/', '/']

/-- exactly two leading slashes are an anchor of their own -/
def anchorOf (t : Text) : Anchor :=
  match (t.takeWhile (· = '/')).length with
  | 0 => .here
  | 2 => .doubleRoot
  | _ => .root

/-- whether a piece between slashes is a component -/
def isName (piece : Text) : Bool := piece ≠ [] && piece ≠ ['.']

/-- the path a text spells -/
def ofText (t : Text) : Path := ⟨anchorOf t, (Text.splitAt '/' t).filter isName⟩

/-- the text of a path; the empty path is `.` -/
def text (p : Path) : Text :=
  if p.anchor = .here ∧ p.names = [] then ['.'] else p.anchor.text ++ Text.join ['/'] p.names

/-- a path taken from a directory; an anchored path stands for itself -/
def append (dir p : Path) : Path :=
  if p.anchor = .here then ⟨dir.anchor, dir.names ++ p.names⟩ else p

instance : Append Path := ⟨append⟩

/-- a path with one more spelled part -/
def child (dir : Path) (t : Text) : Path := dir ++ ofText t

/-- the path without its last component -/
def parent (p : Path) : Path := ⟨p.anchor, p.names.dropLast⟩

/-- every proper ancestor, the outermost first -/
def ancestors (p : Path) : List Path := (List.range p.names.length).map fun n => ⟨p.anchor, p.names.take n⟩

/-- the last component, empty if there is none -/
def name (p : Path) : Text := p.names.getLast?.getD []

/-- the path as seen from a directory that it lies in -/
def relativeTo? (p dir : Path) : Option Path :=
  if p.anchor = dir.anchor ∧ dir.names.isPrefixOf p.names then
    some ⟨.here, p.names.drop dir.names.length⟩
  else none

/-- `..` taken away together with the component before it, without a look at the directories -/
def collapse (names : List Text) : List Text :=
  names.foldl (fun kept name => if name = ['.', '.'] then kept.dropLast else kept ++ [name]) []

end Path

end Componentry
