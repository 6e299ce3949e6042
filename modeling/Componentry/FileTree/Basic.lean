/-
The file tree a command works on: directories and files below one root, seen as a partial map from locations to
entries.

`get?` is the view. `set`, `remove` and `removeBelow` are the only ways to change a tree; what each does to the view is
said once, in the lemmas at the end, and nothing else looks inside.
-/
import Componentry.Text.Basic

namespace Componentry

/-- a file's content -/
abbrev Bytes := List UInt8

/-- a place below the root, by the names on the way to it -/
abbrev Location := List Text

/-- what a location holds -/
inductive Entry where
  | file (content : Bytes)
  | dir
  deriving DecidableEq

/-- a file tree, the directory that relative paths start at, and the random part of the next temporary name -/
structure FileTree where
  current : Location
  token : Text
  entries : List (Location × Entry)

namespace FileTree

/-- what a location holds; the root is always a directory -/
def get? (t : FileTree) (l : Location) : Option Entry := if l = [] then some .dir else t.entries.lookup l

/-- the tree with an entry at a location, instead of what was there -/
def set (t : FileTree) (l : Location) (e : Entry) : FileTree :=
  { t with entries := (l, e) :: t.entries.filter fun x => x.1 ≠ l }

/-- the tree without a location -/
def remove (t : FileTree) (l : Location) : FileTree := { t with entries := t.entries.filter fun x => x.1 ≠ l }

/-- the tree without a location and everything below it -/
def removeBelow (t : FileTree) (l : Location) : FileTree :=
  { t with entries := t.entries.filter fun x => !l.isPrefixOf x.1 }

/-- whether two trees hold the same at every location -/
def Same (t u : FileTree) : Prop := ∀ l, t.get? l = u.get? l

/-- the locations that lead to a location, the root left out -/
def ancestorsOf (l : Location) : List Location := (List.range l.length).map l.take |>.drop 1

/-- the tree with a directory at a location and on the way to it -/
def withDir (t : FileTree) (l : Location) : FileTree :=
  (ancestorsOf l ++ [l]).foldl (fun t d => if (t.get? d).isSome then t else t.set d .dir) t

/-- the tree with a file at a location and directories on the way to it -/
def withFile (t : FileTree) (l : Location) (content : Bytes) : FileTree :=
  (t.withDir l.dropLast).set l (.file content)

/-! ## The view -/

theorem lookup_filter_ne (es : List (Location × Entry)) (l m : Location) :
    (es.filter fun x => x.1 ≠ l).lookup m = if m = l then none else es.lookup m := by
  induction es with
  | nil => simp
  | cons x es ih => grind

theorem get?_set (t : FileTree) {l : Location} (m : Location) (e : Entry) (h : l ≠ []) :
    (t.set l e).get? m = if m = l then some e else t.get? m := by
  have := lookup_filter_ne t.entries l m
  grind [get?, set]

theorem get?_remove (t : FileTree) {l : Location} (m : Location) (h : l ≠ []) :
    (t.remove l).get? m = if m = l then none else t.get? m := by
  have := lookup_filter_ne t.entries l m
  grind [get?, remove]

theorem lookup_filter_below (es : List (Location × Entry)) (l m : Location) :
    (es.filter fun x => !l.isPrefixOf x.1).lookup m = if l <+: m then none else es.lookup m := by
  induction es with
  | nil => simp
  | cons x es ih =>
    by_cases h : l.isPrefixOf x.1 = true <;> grind [List.isPrefixOf_iff_prefix]

theorem get?_removeBelow (t : FileTree) {l : Location} (m : Location) (h : l ≠ []) :
    (t.removeBelow l).get? m = if l <+: m then none else t.get? m := by
  have := lookup_filter_below t.entries l m
  by_cases hm : m = []
  · subst hm; simp [get?, h]
  · simp only [get?, hm, if_false]; exact this

end FileTree

end Componentry
