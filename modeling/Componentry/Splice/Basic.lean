/-
What the four splices share: why one can fail, and when a fragment counts as present already.
-/
import Componentry.Pattern.Matching
import Componentry.Pattern.Anchors
import Componentry.Text.Lines
import Componentry.Text.Quoted

namespace Componentry

/-- why a fragment cannot be spliced in: the insertion point is missing, or there are several -/
inductive Splice.Fault where
  | noList (anchor : Pattern)
  | manyLists (anchor : Pattern) (count : Nat)
  | noImport (anchor : Pattern)
  | manyBlocks (anchor : Pattern) (count : Nat)
  | noCollection (anchor : Pattern)
  | manyCollections (anchor : Pattern) (count : Nat)
  | openCollection (anchor : Pattern)
  | noSuchGroup
  deriving DecidableEq

namespace Splice

/-- the wording of a fault -/
def Fault.message : Fault → Text
  | .noList a => "No list found for anchor ".toList ++ Text.quoted a.render
  | .manyLists a n => "Anchor ".toList ++ Text.quoted a.render ++ " matches ".toList ++ Text.ofNat n ++ " lists".toList
  | .noImport _ => "No import statement found".toList
  | .manyBlocks _ n => "Import statements form ".toList ++ Text.ofNat n ++ " separate blocks".toList
  | .noCollection a => "No collection found for anchor ".toList ++ Text.quoted a.render
  | .manyCollections a n =>
    "Anchor ".toList ++ Text.quoted a.render ++ " matches ".toList ++ Text.ofNat n ++ " collections".toList
  | .openCollection a => "Collection opened by ".toList ++ Text.quoted a.render ++ " is never closed".toList
  | .noSuchGroup => "no such group".toList

/-- the insertion point at fault -/
def Fault.anchor? : Fault → Option Pattern
  | .noList a | .manyLists a _ | .noImport a | .manyBlocks a _ | .noCollection a | .manyCollections a _
  | .openCollection a => some a
  | .noSuchGroup => none

/-- the number of insertion points, where there are several -/
def Fault.count? : Fault → Option Nat
  | .manyLists _ n | .manyBlocks _ n | .manyCollections _ n => some n
  | _ => none

/-- a text with its white space, quotes and separators evened out -/
def evened (t : Text) : Text :=
  Text.join [' '] (Text.words (t.map fun c => if c = '"' then '\'' else if c = ',' ∨ c = ';' then ' ' else c))

/-- whether a fragment stands in a text, up to white space, quotes and separators -/
def isPresent (fragment content : Text) : Bool :=
  !(evened fragment).isEmpty && Text.holds (evened fragment) (evened content)

/-- a text with a piece put in at a position -/
def insertAt (content : Text) (position : Nat) (piece : Text) : Text :=
  content.take position ++ piece ++ content.drop position

/-- an optional pattern, an empty one being none -/
def given? (p : Option Pattern) : Option Pattern := p.filter fun p => !p.render.isEmpty

end Splice

end Componentry
