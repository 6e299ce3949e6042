/-
The value of a document.

A node has its value as soon as it is met, but a collection is met empty and filled later: after all collections that
were met before it. So of several faults the one on the outermost level counts, and of those the first. A mapping is
merged before it is filled.
-/
import Componentry.Yaml.Node.Merging
import Componentry.Yaml.Node.Reading
import Componentry.Yaml.Source
import Componentry.Yaml.Value.Scalar

namespace Componentry.Yaml

namespace Document

/-- the text of a node as a scalar; a mapping with a `=` key stands for the scalar under it, and `fuel` bounds how
often that happens -/
def scalarText (d : Document) : Nat → Nat → Except Fault Text
  | 0, _ => .error .endless
  | fuel + 1, n =>
    match d.node n with
    | .scalar _ t => .ok t
    | .mapping .. =>
      match (d.entriesOf n).find? fun e => d.tagOf e.1 = .value with
      | some e => d.scalarText fuel e.2
      | none => .error .malformed
    | .sequence .. => .error .malformed

/-- the value of a node that is no collection; a time must be written as a scalar -/
def scalarValue (d : Document) (n : Nat) : Except Fault Value :=
  (d.scalarText (d.nodes.size + 1) n).bind fun t =>
    match d.node n with
    | .mapping .time _ => .error .composedTime
    | node => Scalar.value n node.tag t

end Document

/-- a document on the way to its value: the values of the nodes met so far, what the collections hold that were
filled, and the collections that are to be filled next, the last one first -/
structure Filling where
  document : Document
  values : Array (Option Value)
  filled : Array Value
  waiting : List Nat

namespace Filling

/-- a document of which nothing is met yet -/
def start (d : Document) : Filling :=
  ⟨d, Array.replicate d.nodes.size none, Array.replicate d.nodes.size .null, []⟩

/-- a node is met for the first time -/
def meetNew (s : Filling) (n : Nat) : Except Fault (Filling × Value) :=
  if (s.document.tagOf n).isCollection then
    .ok ({ s with values := s.values.setIfInBounds n (some (.shared n)), waiting := n :: s.waiting }, .shared n)
  else (s.document.scalarValue n).map fun v => ({ s with values := s.values.setIfInBounds n (some v) }, v)

/-- a node is met -/
def meet (s : Filling) (n : Nat) : Except Fault (Filling × Value) :=
  match s.values.getD n none with
  | some v => .ok (s, v)
  | none => s.meetNew n

/-- a node is met as a key, which cannot be a collection -/
def meetKey (s : Filling) (n : Nat) : Except Fault (Filling × Value) :=
  (s.meet n).bind fun (s, v) =>
    match v with
    | .shared _ => .error .malformed
    | v => .ok (s, v)

/-! ## What collections hold -/

/-- a collection holds a value -/
def hold (s : Filling) (n : Nat) (v : Value) : Filling := { s with filled := s.filled.setIfInBounds n v }

/-- the values of some nodes, in order, given how one of them is met -/
def meetAll (meet : Filling → Nat → Except Fault (Filling × Value)) (s : Filling) (items : List Nat) :
    Except Fault (Filling × List Value) :=
  let step (acc : Filling × List Value) (item : Nat) : Except Fault (Filling × List Value) :=
    (meet acc.1 item).map fun (s, v) => (s, v :: acc.2)
  (items.foldlM step (s, [])).map fun (acc : Filling × List Value) => (acc.1, acc.2.reverse)

/-- the entry of a mapping that has just one -/
def pairOf? (d : Document) (n : Nat) : Option (Nat × Nat) :=
  match d.node n, d.entriesOf n with
  | .mapping .., [e] => some e
  | _, _ => none

/-- the values of the entry of a mapping with one entry, as a pair -/
def meetPair (s : Filling) (n : Nat) : Except Fault (Filling × Value) :=
  match pairOf? s.document n with
  | none => .error .malformed
  | some (key, value) =>
    (s.meet key).bind fun (s, k) => (s.meet value).map fun (s, v) => (s, .pair k v)

/-- an entry whose key and value are met -/
def meetEntry (acc : Filling × List (Value × Value)) (e : Nat × Nat) : Except Fault (Filling × List (Value × Value)) :=
  (acc.1.meetKey e.1).bind fun (s, k) => (s.meet e.2).map fun (s, v) => (s, Value.put acc.2 k v)

/-- the values of the entries of a mapping, once it is merged -/
def meetEntries (s : Filling) (n : Nat) : Except Fault (Filling × List (Value × Value)) :=
  match s.document.node n with
  | .mapping .. => (s.document.merged n).bind fun d => (d.entriesOf n).foldlM meetEntry ({ s with document := d }, [])
  | _ => .error .malformed

/-- a collection is filled -/
def fill (s : Filling) (n : Nat) : Except Fault Filling :=
  match s.document.tagOf n, s.document.node n with
  | .sequence, .sequence _ items => (meetAll meet s items).map fun (s, vs) => s.hold n (.list vs)
  | .ordered, .sequence _ items | .pairs, .sequence _ items =>
    (meetAll meetPair s items).map fun (s, vs) => s.hold n (.list vs)
  | .mapping, _ => (s.meetEntries n).map fun (s, es) => s.hold n (.record es)
  | .set, _ => (s.meetEntries n).map fun (s, es) => s.hold n (.set (Value.arranged (es.map (·.1))))
  | _, _ => .error .malformed

/-- all collections are filled, level after level; `fuel` bounds the number of levels -/
def fillAll : Nat → Filling → Except Fault Filling
  | 0, s => .ok s
  | fuel + 1, s =>
    if s.waiting.isEmpty then .ok s
    else (s.waiting.reverse.foldlM fill { s with waiting := [] }).bind (fillAll fuel)

end Filling

/-- the value of a document and of its collections -/
def Document.contents (d : Document) : Except Fault Contents :=
  ((Filling.start d).meet d.root).bind fun (s, v) =>
    (Filling.fillAll (d.nodes.size + 1) s).map fun s => ⟨v, s.filled⟩

/-- the value that a source writes; an empty text writes none, which counts as null -/
def Source.read (s : Source) : Except Fault Contents :=
  match Document.ofText s.text s.stop with
  | .error f => .error f
  | .ok none => .ok ⟨.null, #[]⟩
  | .ok (some d) => d.contents

/-- the value that a text writes -/
def read (t : Text) : Except Fault Contents := (Source.ofText t).read

end Componentry.Yaml
