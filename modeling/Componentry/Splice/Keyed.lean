/-
Splicing a fragment into the collection that follows a key.

The collection is the only one the anchor opens, and ends at the first closer after it.
-/
import Componentry.Splice.Basic

namespace Componentry.Splice

/-- a collection body with a fragment after its last child, and a comma between the two if there is none -/
def appendChild (body fragment : Text) : Text :=
  let filled := Text.trimEnd body
  let comma := if !filled.isEmpty && filled.getLast? ≠ some ',' then [','] else []
  filled ++ comma ++ fragment ++ body.drop filled.length

/-- a text with a fragment added to the one collection an anchor opens; a fragment that is present stays alone -/
def intoCollection (anchor : Pattern) (closer content fragment : Text) : Except Fault Text :=
  match anchor.occurrences false content with
  | [] => .error (.noCollection anchor)
  | [m] =>
    match Text.indexFrom? closer content m.stop with
    | none => .error (.openCollection anchor)
    | some close =>
      let body := Text.slice content m.stop close
      if isPresent fragment body then .ok content
      else
        let fragment := Text.withNewline (.ofContent content) fragment
        .ok (content.take m.stop ++ appendChild body fragment ++ content.drop close)
  | found => .error (.manyCollections anchor found.length)

end Componentry.Splice
