/-
Patterns of the shell: `*`, `?` and brackets where they are not quoted, matched against names and values.

`matches` says whether a pattern covers a whole text; the longest and shortest pieces it covers at either end come from
it. A pattern of names is expanded directory by directory.
-/
import Componentry.Shell.State

namespace Componentry.Shell

/-- a character of an expanded word: outside quotes in the script, quoted, or from an expansion outside quotes; or an
empty quotation, or a gap between the values of all arguments, which is firm between double quotes -/
inductive Glyph where
  | plain (c : Char)
  | exact (c : Char)
  | loose (c : Char)
  | mark
  | gap (firm : Bool)
  deriving DecidableEq

/-- the character of a glyph -/
def Glyph.char? : Glyph → Option Char
  | .plain c | .exact c | .loose c => some c
  | .mark | .gap _ => none

/-- the text of glyphs -/
def textOf (gs : List Glyph) : Text := gs.filterMap Glyph.char?

namespace Glob

/-- what a bracket holds: characters from one to another, or the characters of a class -/
inductive Range where
  | span (first last : Char)
  | kind (name : Text)

/-- a piece of a pattern -/
inductive Piece where
  | char (c : Char)
  | one
  | any
  | set (inverted : Bool) (ranges : List Range)

/-- a pattern -/
abbrev Pattern := List Piece

/-- a character with whether it is quoted -/
abbrev Sign := Char × Bool

/-- whether a character belongs to a class -/
def inKind (name : Text) (c : Char) : Bool :=
  let printed := 33 ≤ c.toNat && c.toNat < 127
  match String.ofList name with
  | "alpha" => c.isAlpha
  | "digit" => c.isDigit
  | "alnum" => c.isAlphanum
  | "upper" => c.isUpper
  | "lower" => c.isLower
  | "space" => c == ' ' || ('\t' ≤ c && c ≤ '\r')
  | "blank" => c == ' ' || c == '\t'
  | "punct" => printed && !c.isAlphanum
  | "graph" => printed
  | "print" => printed || c == ' '
  | "cntrl" => c.toNat < 32 || c.toNat == 127
  | "xdigit" => c.isDigit || ('a' ≤ c && c ≤ 'f') || ('A' ≤ c && c ≤ 'F')
  | _ => false

/-- whether a range holds a character -/
def Range.holds (c : Char) : Range → Bool
  | .span first last => first ≤ c && c ≤ last
  | .kind name => inKind name c

/-- a class between `[:` and `:]`, and what follows it -/
def kind? (signs : List Sign) : Option (Text × List Sign) :=
  match signs with
  | (':', false) :: rest =>
    let name := rest.takeWhile fun s => s.1.isAlpha
    match rest.drop name.length with
    | (':', false) :: (']', false) :: left => some (name.map (·.1), left)
    | _ => none
  | _ => none

/-- the ranges of a bracket and what follows it, none if nothing closes it; the fuel is the number of signs -/
def ranges? : Nat → Bool → List Sign → Option (List Range × List Sign)
  | 0, _, _ => none
  | _, _, [] => none
  | fuel + 1, first, s :: rest =>
    if s = (']', false) && !first then some ([], rest)
    else
      match if s = ('[', false) then kind? rest else none with
      | some (name, left) => (ranges? fuel false left).map fun (rs, left) => (.kind name :: rs, left)
      | none =>
        match rest with
        | ('-', false) :: last :: left =>
          if last = (']', false) then
            (ranges? fuel false rest).map fun (rs, left) => (.span s.1 s.1 :: rs, left)
          else (ranges? fuel false left).map fun (rs, left) => (.span s.1 last.1 :: rs, left)
        | rest => (ranges? fuel false rest).map fun (rs, left) => (.span s.1 s.1 :: rs, left)

/-- the pattern that signs spell; the fuel is their number -/
def ofSigns : Nat → List Sign → Pattern
  | 0, _ => []
  | _, [] => []
  | fuel + 1, ('*', false) :: rest => .any :: ofSigns fuel rest
  | fuel + 1, ('?', false) :: rest => .one :: ofSigns fuel rest
  | fuel + 1, ('[', false) :: rest =>
    let (inverted, inside) := match rest with
      | ('!', false) :: inside => (true, inside)
      | inside => (false, inside)
    match ranges? (inside.length + 1) true inside with
    | some (rs, left) => .set inverted rs :: ofSigns fuel left
    | none => .char '[' :: ofSigns fuel rest
  | fuel + 1, ('\\', false) :: (c, _) :: rest => .char c :: ofSigns fuel rest
  | fuel + 1, (c, _) :: rest => .char c :: ofSigns fuel rest

/-- the pattern of an expanded word -/
def ofGlyphs (gs : List Glyph) : Pattern :=
  let signs := gs.filterMap fun
    | .plain c | .loose c => some (c, false)
    | .exact c => some (c, true)
    | .mark | .gap _ => none
  ofSigns signs.length signs

/-- whether a pattern covers a text from end to end -/
def covers : Pattern → Text → Bool
  | [], t => t.isEmpty
  | .any :: rest, [] => covers rest []
  | .any :: rest, c :: t => covers rest (c :: t) || covers (.any :: rest) t
  | .char _ :: _, [] | .one :: _, [] | .set .. :: _, [] => false
  | .char d :: rest, c :: t => c == d && covers rest t
  | .one :: rest, _ :: t => covers rest t
  | .set inverted rs :: rest, c :: t => (rs.any (Range.holds c) != inverted) && covers rest t
termination_by p t => (p.length, t.length)

/-- a text without the piece at one end that a pattern covers, the longest or the shortest one -/
def cut (p : Pattern) (atEnd longest : Bool) (t : Text) : Text :=
  let lengths := List.range (t.length + 1)
  let order := if longest then lengths.reverse else lengths
  match order.find? fun n => covers p (if atEnd then t.drop (t.length - n) else t.take n) with
  | some n => if atEnd then t.take (t.length - n) else t.drop n
  | none => t

/-! ## Names -/

/-- whether an expanded word asks for names by a pattern -/
def isOpen (gs : List Glyph) : Bool :=
  gs.any fun
    | .plain c | .loose c => c == '*' || c == '?' || c == '['
    | _ => false

/-- the glyphs between slashes -/
def components : List Glyph → List (List Glyph)
  | [] => [[]]
  | g :: rest =>
    if g.char? = some '/' then [] :: components rest
    else match components rest with
      | [] => [[g]]
      | c :: cs => (g :: c) :: cs

/-- the names that a component matches in a directory; names that start with a dot only if the component does -/
def namesFor (tree : FileTree) (dir : Text) (component : List Glyph) : List Text :=
  let p := ofGlyphs component
  let dotted := (textOf component).head? = some '.'
  match tree.locate (.ofText (gathered dir)) with
  | .error _ => []
  | .ok l =>
    if tree.get? l ≠ some .dir then []
    else
      let names := (tree.namesIn l).map spread ++ if dotted then [['.'], ['.', '.']] else []
      names.filter fun n => (dotted || n.head? ≠ some '.') && covers p n

/-- the paths that components match below a path that is there -/
def pathsFrom (tree : FileTree) (sofar : Text) : List (List Glyph) → List Text
  | [] => [sofar]
  | component :: rest =>
    let slash : Text := if rest.isEmpty then [] else ['/']
    if isOpen component then
      (namesFor tree (if sofar.isEmpty then ['.'] else sofar) component).flatMap fun n =>
        pathsFrom tree (sofar ++ n ++ slash) rest
    else
      let path := sofar ++ textOf component
      if rest.isEmpty then
        match tree.lookSpelled (gathered (if path.isEmpty then ['.'] else path)) with
        | .ok _ => [path]
        | .error _ => []
      else pathsFrom tree (path ++ slash) rest

/-- the paths that an expanded word stands for: those it matches in order, or its own text -/
def paths (tree : FileTree) (gs : List Glyph) : List Text :=
  if !isOpen gs then [textOf gs]
  else
    let found := Text.sorted (pathsFrom tree [] (components gs))
    if found.isEmpty then [textOf gs] else found

end Glob

end Componentry.Shell
