/-
The nodes of a YAML document.

Every node has a number, and items and entries are given by the numbers of nodes. So an alias is the node itself, and a
node can stand inside itself. The entries of mappings are kept in lists with numbers of their own, since merging gives a
mapping another list while the old one may still be looked at.
-/
import Componentry.Yaml.Tag

namespace Componentry.Yaml

/-- a node: a tag and what it is written as; a mapping has the number of its list of entries -/
inductive Node where
  | scalar (tag : Tag) (text : Text)
  | sequence (tag : Tag) (items : List Nat)
  | mapping (tag : Tag) (list : Nat)

/-- the tag of a node -/
def Node.tag : Node → Tag
  | .scalar tag _ | .sequence tag _ | .mapping tag _ => tag

/-- a node with another tag -/
def Node.withTag (tag : Tag) : Node → Node
  | .scalar _ text => .scalar tag text
  | .sequence _ items => .sequence tag items
  | .mapping _ list => .mapping tag list

/-- a document: the number of its node, all nodes, and the lists of entries, each entry a key and a value -/
structure Document where
  root : Nat
  nodes : Array Node
  lists : Array (List (Nat × Nat))

namespace Document

/-- a node by its number; one with no node cannot occur -/
def node (d : Document) (n : Nat) : Node := d.nodes.getD n (.scalar .null [])

/-- the kind of a node -/
def tagOf (d : Document) (n : Nat) : Tag := (d.node n).tag

/-- a list of entries by its number -/
def list (d : Document) (l : Nat) : List (Nat × Nat) := d.lists.getD l []

/-- the number of the list of a mapping; any other node has none -/
def listOf (d : Document) (n : Nat) : List Nat :=
  match d.node n with
  | .mapping _ l => [l]
  | _ => []

/-- the entries of a mapping, in their list; any other node has no entries -/
def entriesOf (d : Document) (n : Nat) : List (Nat × Nat) := (d.listOf n).flatMap d.list

/-- the number of all entries -/
def size (d : Document) : Nat := d.lists.foldl (fun n entries => n + entries.length) 0

end Document

end Componentry.Yaml
