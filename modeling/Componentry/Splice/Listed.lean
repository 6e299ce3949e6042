/-
Splicing an entry into a delimited list.

The list is the only one whose head matches the anchor. The entry goes after the last item, on a line of its own if
the items stand that way, and a trailing comma is kept if there was one.
-/
import Componentry.Splice.Basic

namespace Componentry.Splice

/-- a list in a text: where its body starts and where its closer stands -/
structure ListSpan where
  start : Nat
  close : Nat
  deriving DecidableEq

/-- the lists an anchor opens; one whose closer is followed by the rejected pattern is none -/
def listSpans (content : Text) (anchor : Pattern) (closer : Text) (reject : Option Pattern) : List ListSpan :=
  (anchor.occurrences false content).filterMap fun m =>
    match Text.indexFrom? closer content m.stop with
    | none => none
    | some close =>
      if (given? reject).any (·.startsIn (content.drop (close + closer.length))) then none
      else some ⟨m.stop, close⟩

/-- the items of a list body -/
def items (body : Text) : List Text := ((Text.splitAt ',' body).map Text.trim).filter (!·.isEmpty)

/-- whether the items of a body start on a line of their own -/
def isStacked (body : Text) : Bool :=
  match body.dropWhile fun c => c = ' ' || c = '\t' with
  | '\n' :: _ => true
  | '\r' :: '\n' :: _ => true
  | _ => false

/-- a list body with an entry after its last item -/
def appendEntry (newline : Newline) (body entry : Text) : Text :=
  let filled := Text.trimEnd body
  let tail := body.drop filled.length
  let hasComma := filled.getLast? = some ','
  if filled.isEmpty then
    let pad := if !body.isEmpty && !body.contains '\n' then [' '] else []
    pad ++ entry ++ pad
  else if isStacked body then
    let indent := Text.indentation (Text.lastLine filled)
    if hasComma then filled ++ newline.text ++ indent ++ entry ++ [','] ++ tail
    else filled ++ [','] ++ newline.text ++ indent ++ entry ++ tail
  else if hasComma then filled ++ [' '] ++ entry ++ [','] ++ tail
  else filled ++ [',', ' '] ++ entry ++ tail

/-- a text with an entry added to the one list an anchor opens; an entry listed already stays alone -/
def intoList (anchor : Pattern) (closer : Text) (reject : Option Pattern) (content entry : Text) : Except Fault Text :=
  match listSpans content anchor closer reject with
  | [] => .error (.noList anchor)
  | [span] =>
    let body := Text.slice content span.start span.close
    if (items body).contains entry then .ok content
    else .ok (content.take span.start ++ appendEntry (.ofContent content) body entry ++ content.drop span.close)
  | spans => .error (.manyLists anchor spans.length)

end Componentry.Splice
