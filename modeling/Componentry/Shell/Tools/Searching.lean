/-
Searching: the lines of files that an expression matches.
-/
import Componentry.Shell.Tools.Regular
import Componentry.Shell.Tools.Basic

namespace Componentry.Shell.Tools.Searching

/-- how lines are searched: for which expression, and what a match has to fill -/
structure Search where
  expression : Regular
  folded : Bool
  words : Bool
  lines : Bool

/-- whether a match from a place to another counts -/
def Search.accepts (s : Search) (p q : Regular.Place) : Bool :=
  (!s.lines || (p.before.isNone && q.rest.isEmpty)) &&
    (!s.words || (!p.before.any Regular.inWord && !q.rest.head?.any Regular.inWord))

/-- the matches of a line that count, from left to right, with a character to go over after an empty one; the fuel is
the length of the line -/
def Search.found (s : Search) : Nat → Option Char → Text → List Text
  | 0, _, _ => []
  | fuel + 1, before, t =>
    let p : Regular.Place := ⟨before, t, []⟩
    match Regular.longest ((Regular.ends s.folded s.expression p).filter (s.accepts p)) with
    | some q =>
      let text := t.take (t.length - q.rest.length)
      if text.isEmpty then
        match t with
        | [] => [[]]
        | c :: rest => [] :: s.found fuel (some c) rest
      else text :: s.found fuel q.before q.rest
    | none =>
      match t with
      | [] => []
      | c :: rest => s.found fuel (some c) rest

/-- whether a line counts -/
def Search.holds (s : Search) (line : Text) : Bool := !(s.found (line.length + 1) none line).isEmpty

/-- the lines of a text with their numbers, those that count or those that do not -/
def Search.select (s : Search) (inverted : Bool) (t : Text) : List (Nat × Text) :=
  let ls := linesOf t
  ((List.range ls.length).zip ls).filterMap fun (i, l) => if s.holds l != inverted then some (i + 1, l) else none

/-- the files below a directory in order; the fuel bounds how deep they lie -/
def filesBelow (tree : FileTree) : Nat → Text → List Text
  | 0, _ => []
  | fuel + 1, path =>
    match tree.lookSpelled (gathered path), tree.locate (.ofText (gathered path)) with
    | .ok .dir, .ok l =>
      (Text.sorted ((tree.namesIn l).map spread)).flatMap fun n => filesBelow tree fuel (inside path n)
    | _, _ => [path]

/-- what is asked of each file -/
def report (s : Search) (r : Request) (titled : Bool) (path t : Text) : Run Bool := do
  let chosen := s.select (r.has 'v') t
  let chosen := match (r.value? 'm').bind number? with
    | some n => chosen.take n
    | none => chosen
  let shown := if path = ['-'] then "(standard input)".toList else path
  let title := if titled then shown ++ [':'] else []
  if r.has 'q' then pure ()
  else if r.has 'l' then print (if chosen.isEmpty then [] else shown ++ ['\n'])
  else if r.has 'L' then print (if chosen.isEmpty then shown ++ ['\n'] else [])
  else if r.has 'c' then print (title ++ Text.ofNat chosen.length ++ ['\n'])
  else
    for (n, l) in chosen do
      let title := title ++ if r.has 'n' then Text.ofNat n ++ [':'] else []
      if r.has 'o' then
        for m in s.found (l.length + 1) none l do
          if !m.isEmpty && !r.has 'v' then print (title ++ m ++ ['\n'])
      else print (title ++ l ++ ['\n'])
  return !chosen.isEmpty

/-- searches the files of a request -/
def search (s : Search) (r : Request) (paths : List Text) : Run Nat := do
  let below := r.has 'r' || r.has 'R'
  let tree := (← get).tree
  let all := if paths.isEmpty then (if below then [['.']] else [['-']]) else paths
  let all := if below then all.flatMap fun p =>
      if p = ['-'] then [p] else (filesBelow tree 64 p).map fun f => if paths.isEmpty then f.drop 2 else f
    else all
  let titled := !r.has 'h' && (r.has 'H' || below || all.length > 1)
  let mut found := false
  let mut broken := false
  for path in all do
    match ← inputOf path with
    | .ok t =>
      let here ← report s r titled path t
      found := found || here
    | .error cause =>
      if !r.has 's' then warn (path ++ ": ".toList ++ because cause)
      broken := true
  return if broken && !(found && r.has 'q') then 2 else if found then 0 else 1

/-- `grep`, the spelling of its expressions being given where its name says so -/
def grep (spelling : Option Char) : Tool := withOptions 2
  ⟨"EFGPivwxclLqsnHhorRaIyz", "efmABC", [("quiet", 'q'), ("ignore-case", 'i'), ("invert-match", 'v'), ("count", 'c'),
    ("line-number", 'n'), ("recursive", 'r'), ("fixed-strings", 'F'), ("extended-regexp", 'E'), ("regexp", 'e'),
    ("files-with-matches", 'l'), ("only-matching", 'o'), ("word-regexp", 'w'), ("line-regexp", 'x'),
    ("no-messages", 's'), ("silent", 'q')], true⟩ fun r => do
    let given := (r.options.filter fun o => o.1 = 'e').map (·.2)
    match if given.isEmpty then r.operands.head?.toList else given with
    | [] =>
      say "Usage: grep [OPTION]... PATTERNS [FILE]...".toList
      say "Try 'grep --help' for more information.".toList
      return 2
    | patterns =>
      let fixed := r.has 'F' || spelling = some 'F'
      let extended := r.has 'E' || r.has 'P' || spelling = some 'E'
      let each (t : Text) : Regular.Reads Regular := if fixed then .ok (Regular.literal t) else Regular.ofText extended t
      match (patterns.flatMap (Text.splitAt '\n')).mapM each with
      | .error words =>
        warn words.toList
        return 2
      | .ok es =>
        let e := match es with
          | [] => Regular.nothing
          | e :: rest => rest.foldl .either e
        let s : Search := ⟨e, r.has 'i' || r.has 'y', r.has 'w', r.has 'x'⟩
        search s r (if given.isEmpty then r.operands.drop 1 else r.operands)

end Componentry.Shell.Tools.Searching
