/-
Merging: a mapping takes over the entries of the mappings under its `<<` keys.

The entries are looked at in order. One under `<<` is taken out, the mappings it names are merged themselves, and their
entries are put in front of all others in the end: those of a sequence of mappings with the last mapping first. A `=`
key is a text from then on. Since a mapping can name itself, entries are read from its list as it is at that moment.
-/
import Componentry.Yaml.Fault
import Componentry.Yaml.Node

namespace Componentry.Yaml.Document

/-- the document with a node as a text -/
def asText (d : Document) (n : Nat) : Document := { d with nodes := d.nodes.setIfInBounds n ((d.node n).withTag .text) }

/-- the document without an entry of a mapping -/
def dropEntry (d : Document) (n index : Nat) : Document :=
  match d.node n with
  | .mapping _ l => { d with lists := d.lists.setIfInBounds l ((d.list l).eraseIdx index) }
  | _ => d

/-- the document with a new list of entries for a mapping: some entries in front of those it has -/
def putInFront (d : Document) (n : Nat) (entries : List (Nat × Nat)) : Document :=
  match d.node n with
  | .mapping tag l =>
    { d with nodes := d.nodes.setIfInBounds n (.mapping tag d.lists.size), lists := d.lists.push (entries ++ d.list l) }
  | _ => d

/-- the first entry from an index on whose key is `<<` or `=`: its index, key and value -/
def special? (d : Document) (n index : Nat) : Option (Nat × Nat × Nat) :=
  (((d.entriesOf n).zipIdx.drop index).find? fun e => d.tagOf e.1.1 = .merge ∨ d.tagOf e.1.1 = .value).map
    fun e => (e.2, e.1)

mutual

/-- the document with a mapping merged; the first `index` entries are done and `taken` is what was taken over. Every
step takes out a `<<` entry or makes a `=` a text, so `fuel` need not exceed their number by much. -/
def mergedFrom : Nat → Document → Nat → Nat → List (Nat × Nat) → Except Fault Document
  | 0, _, _, _, _ => .error .malformed
  | fuel + 1, d, n, index, taken =>
    match d.special? n index with
    | none => .ok (if taken = [] then d else d.putInFront n taken)
    | some (i, key, value) =>
      if d.tagOf key = .merge then
        match takenOver fuel (d.dropEntry n i) value with
        | .error f => .error f
        | .ok (d, more) => mergedFrom fuel d n i (taken ++ more)
      else mergedFrom fuel (d.asText key) n (i + 1) taken

/-- the entries that a node under `<<` stands for, in the document with its mappings merged -/
def takenOver : Nat → Document → Nat → Except Fault (Document × List (Nat × Nat))
  | 0, _, _ => .error .malformed
  | fuel + 1, d, value =>
    match d.node value with
    | .mapping .. => (mergedFrom fuel d value 0 []).map fun d => (d, d.entriesOf value)
    | .sequence _ items =>
      let step (acc : Document × List Nat) (item : Nat) : Except Fault (Document × List Nat) :=
        match acc.1.node item with
        | .mapping .. => (mergedFrom fuel acc.1 item 0 []).map fun d => (d, d.listOf item ++ acc.2)
        | _ => .error .malformed
      (items.foldlM step (d, [])).map fun (acc : Document × List Nat) => (acc.1, acc.2.flatMap acc.1.list)
    | .scalar .. => .error .malformed

end

/-- the document with a mapping merged -/
def merged (d : Document) (n : Nat) : Except Fault Document := mergedFrom (3 * d.size + 3) d n 0 []

end Componentry.Yaml.Document
