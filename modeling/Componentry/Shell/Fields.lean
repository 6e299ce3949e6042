/-
Fields: an expanded word cut where expansions outside quotes left separators.

Blanks among the separators count as one, and are dropped at the start of a field; any other separator ends a field of
its own, perhaps an empty one. Quoted characters and those of the script are never separators.
-/
import Componentry.Shell.Glob

namespace Componentry.Shell.Fields

/-- the separators where none are set -/
def usual : Text := [' ', '\t', '\n']

/-- what a glyph is to the splitting of fields -/
inductive Role where
  | content
  | blank
  | separator
  | firm
  deriving DecidableEq

/-- the role of a glyph among given separators -/
def role (separators : Text) : Glyph → Role
  | .gap true => .firm
  | .gap false => .blank
  | .loose c => if separators.contains c then (if usual.contains c then .blank else .separator) else .content
  | _ => .content

/-- what follows a separator: blanks, and after a blank one other separator, belong to it as well -/
def past (separators : Text) (blank : Bool) : List Glyph → List Glyph
  | [] => []
  | g :: rest =>
    match role separators g with
    | .blank => past separators blank rest
    | .separator => if blank then past separators false rest else g :: rest
    | _ => g :: rest

theorem length_past_le (separators : Text) (blank : Bool) (gs : List Glyph) :
    (past separators blank gs).length ≤ gs.length := by
  fun_induction past separators blank gs <;> grind

/-- the fields of an expanded word, from the glyphs of the field begun, in reverse, on; `owed` says that a field is due
even if it is empty -/
def split (separators : Text) (begun : List Glyph) (owed : Bool) : List Glyph → List (List Glyph)
  | [] => if begun.isEmpty && !owed then [] else [begun.reverse]
  | g :: rest =>
    match role separators g with
    | .content => split separators (g :: begun) owed rest
    | .firm => begun.reverse :: split separators [] true rest
    | .blank =>
      if begun.isEmpty && !owed then split separators [] false rest
      else begun.reverse :: split separators [] false (past separators true rest)
    | .separator => begun.reverse :: split separators [] false (past separators false rest)
termination_by gs => gs.length
decreasing_by
  all_goals simp only [List.length_cons]
  all_goals first
    | omega
    | exact Nat.lt_succ_of_le (length_past_le ..)

/-- the texts of the fields of an expanded word, names put in for patterns if `named` is set -/
def texts (tree : FileTree) (separators : Text) (named : Bool) (gs : List Glyph) : List Text :=
  (split separators [] false gs).flatMap fun field => if named then Glob.paths tree field else [textOf field]

/-! ## Reading a line into variables -/

/-- the first `count` fields of a line, of which the last is all that is left without the blanks at its end. A character
comes with whether it is quoted. -/
def shared (separators : Text) : Nat → List Glyph → List Text
  | 0, _ => []
  | 1, gs =>
    let blank (g : Glyph) : Bool := role separators g == .blank
    let whole := ((gs.dropWhile blank).reverse.dropWhile blank).reverse
    match split separators [] false whole with
    | [] => [[]]
    | [field] => [textOf field]
    | _ => [textOf whole]
  | count + 2, gs =>
    let start := gs.dropWhile fun g => role separators g == .blank
    let field := start.takeWhile fun g => role separators g == .content
    let rest := match start.drop field.length with
      | [] => []
      | g :: rest => past separators (role separators g == .blank) rest
    textOf field :: shared separators (count + 1) rest

end Componentry.Shell.Fields
