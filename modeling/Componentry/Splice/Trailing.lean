/-
Splicing a fragment in after the last element of a kind.

Without any such element there is nothing to line the fragment up with, and the text stays as it is.
-/
import Componentry.Splice.Basic

namespace Componentry.Splice

/-- what a text points at, by the first match of a key pattern -/
def targetOf? (key : Pattern) (t : Text) : Option Text := (key.first? false t).bind (·.part? .key)

/-- what the elements of a text point at -/
def targets (anchor key : Pattern) (content : Text) : List Text :=
  (anchor.occurrences false content).filterMap fun m => targetOf? key (m.textIn content)

/-- a text with a fragment after its last element; an element with the same target counts as the fragment -/
def afterLast (anchor : Pattern) (key : Option Pattern) (content fragment : Text) : Except Fault Text :=
  match (anchor.occurrences false content).getLast? with
  | none => .ok content
  | some last =>
    let inserted := insertAt content last.stop (Text.withNewline (.ofContent content) fragment)
    match (given? key).filter fun key => (key.first? false fragment).isSome with
    | some key =>
      if !key.keeps .key then .error .noSuchGroup
      else if (targetOf? key fragment).any ((targets anchor key content).contains ·) then .ok content
      else .ok inserted
    | none => if isPresent fragment content then .ok content else .ok inserted

end Componentry.Splice
