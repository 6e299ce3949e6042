/-
Regular expressions as `grep` and `sed` read them, in their basic and their extended spelling.

`ends` gives every way an expression can match at a place, and `first?` the match that starts first and is the longest
of those.
-/
import Componentry.Shell.Glob

namespace Componentry.Shell

/-- a regular expression; the groups are numbered from one, and a repeat without an upper bound goes on as it can -/
inductive Regular where
  | nothing
  | char (c : Char)
  | any
  | set (inverted : Bool) (ranges : List Glob.Range)
  | start
  | stop
  | edge (before after : Option Bool)
  | group (n : Nat) (e : Regular)
  | again (n : Nat)
  | next (a b : Regular)
  | either (a b : Regular)
  | many (least : Nat) (most : Option Nat) (e : Regular)

namespace Regular

/-! ## Matching -/

/-- a place in a text: the character before it, what follows, and what the groups matched so far -/
structure Place where
  before : Option Char
  rest : Text
  groups : List (Nat × Text)

/-- the place after the next character, if it is of a kind -/
def Place.past (p : Place) (kind : Char → Bool) : List Place :=
  match p.rest with
  | c :: rest => if kind c then [⟨some c, rest, p.groups⟩] else []
  | [] => []

/-- the place after a text, letter case left aside if `folded` is set -/
def Place.over (p : Place) (folded : Bool) : Text → List Place
  | [] => [p]
  | c :: t =>
    match p.rest with
    | d :: rest =>
      if c = d || (folded && c.toLower = d.toLower) then Place.over ⟨some d, rest, p.groups⟩ folded t else []
    | [] => []

/-- whether a character belongs to a word -/
def inWord (c : Char) : Bool := c.isAlphanum || c == '_'

/-- a step taken as often as it can be within bounds, most often first; the fuel bounds how often -/
def repeated (step : Place → List Place) : Nat → Nat → Option Nat → Place → List Place
  | 0, least, _, p => if least = 0 then [p] else []
  | fuel + 1, least, most, p =>
    let more := if most = some 0 then [] else
      ((step p).filter fun q => least > 0 || q.rest.length < p.rest.length).flatMap fun q =>
        repeated step fuel (least - 1) (most.map (· - 1)) q
    more ++ if least = 0 then [p] else []

/-- the places where a match from a place can end -/
def ends (folded : Bool) : Regular → Place → List Place
  | .nothing, p => [p]
  | .char c, p => p.past fun d => c = d || (folded && c.toLower = d.toLower)
  | .any, p => p.past fun _ => true
  | .set inverted ranges, p =>
    let held (c : Char) : Bool := ranges.any (Glob.Range.holds c)
    p.past fun c => (held c || (folded && (held c.toLower || held c.toUpper))) != inverted
  | .start, p => if p.before.isNone || p.before = some '\n' then [p] else []
  | .stop, p => if p.rest.isEmpty || p.rest.head? = some '\n' then [p] else []
  | .edge before after, p =>
    let fits (wanted : Option Bool) (c : Option Char) : Bool := wanted.all fun w => w == c.any inWord
    let here := match before, after with
      | none, none => p.before.any inWord != p.rest.head?.any inWord
      | before, after => fits before p.before && fits after p.rest.head?
    if here then [p] else []
  | .group n e, p =>
    (ends folded e p).map fun q =>
      { q with groups := (n, p.rest.take (p.rest.length - q.rest.length)) :: q.groups.filter fun g => g.1 ≠ n }
  | .again n, p =>
    match p.groups.lookup n with
    | some t => p.over folded t
    | none => []
  | .next a b, p => (ends folded a p).flatMap (ends folded b)
  | .either a b, p => ends folded a p ++ ends folded b p
  | .many least most e, p => repeated (ends folded e) (p.rest.length + least + 1) least most p

/-- the longest of the places, the earlier one of equal ones -/
def longest : List Place → Option Place
  | [] => none
  | p :: ps =>
    match longest ps with
    | some q => if q.rest.length < p.rest.length then some q else some p
    | none => some p

/-- the first match at or after a place: what comes before it, its text, and the place after it -/
def first? (e : Regular) (folded : Bool) (before : Option Char) (t : Text) : Option (Text × Text × Place) :=
  match longest (ends folded e ⟨before, t, []⟩) with
  | some q => some ([], t.take (t.length - q.rest.length), q)
  | none =>
    match t with
    | [] => none
    | c :: rest => (first? e folded (some c) rest).map fun (skipped, m) => (c :: skipped, m)

/-! ## Reading -/

/-- what is wrong with an expression -/
abbrev Reads (α : Type) := Except String α

/-- a bracket with its ranges and what follows it -/
def bracket (t : Text) : Reads (Regular × Text) :=
  let (inverted, inside) := match t with
    | '^' :: rest => (true, rest)
    | t => (false, t)
  match Glob.ranges? (inside.length + 1) true (inside.map fun c => (c, false)) with
  | some (rs, left) => .ok (.set inverted rs, left.map (·.1))
  | none => .error "Unmatched [, [^, [:, [., or [="

/-- the bounds between braces, and what follows the digits and the comma -/
def bounds (t : Text) : Nat × Option Nat × Text :=
  let a := t.takeWhile Char.isDigit
  let least := (number? a).getD 0
  match t.drop a.length with
  | ',' :: rest =>
    let b := rest.takeWhile Char.isDigit
    (least, number? b, rest.drop b.length)
  | rest => (least, some least, rest)

/-- the expression a letter after a backslash stands for -/
def letter? : Char → Option Regular
  | 'n' => some (.char '\n')
  | 't' => some (.char '\t')
  | 'r' => some (.char '\r')
  | 'w' => some (.set false [.kind "alnum".toList, .span '_' '_'])
  | 'W' => some (.set true [.kind "alnum".toList, .span '_' '_'])
  | 's' => some (.set false [.kind "space".toList])
  | 'S' => some (.set true [.kind "space".toList])
  | 'b' => some (.edge none none)
  | '<' => some (.edge (some false) (some true))
  | '>' => some (.edge (some true) (some false))
  | _ => none

/-- a sign of an expression, the same in both spellings -/
inductive Sign where
  | char (c : Char)
  | single (e : Regular)
  | caret
  | dollar
  | open
  | close
  | bar
  | bound (least : Nat) (most : Option Nat)

/-- the signs of an expression; the fuel is its length -/
def signs (extended : Bool) : Nat → Text → Reads (List Sign)
  | 0, _ | _, [] => .ok []
  | fuel + 1, '\\' :: rest => do
    match rest with
    | [] => .error "Trailing backslash"
    | c :: rest =>
      if c = '\x7b' && !extended then
        let (least, most, left) := bounds rest
        match left with
        | '\\' :: '\x7d' :: left => return .bound least most :: (← signs extended fuel left)
        | _ => .error "Unmatched \\\x7b"
      else
        let sign := match c, extended with
          | '(', false => .open
          | ')', false => .close
          | '|', false => .bar
          | '+', false => .bound 1 none
          | '?', false => .bound 0 (some 1)
          | c, _ =>
            if c.isDigit && c ≠ '0' then .single (.again (c.toNat - '0'.toNat))
            else match letter? c with
              | some e => .single e
              | none => .char c
        return sign :: (← signs extended fuel rest)
  | fuel + 1, '[' :: rest => do
    let (e, left) ← bracket rest
    return .single e :: (← signs extended fuel left)
  | fuel + 1, c :: rest => do
    match c, extended with
    | '.', _ => return .single .any :: (← signs extended fuel rest)
    | '*', _ => return .bound 0 none :: (← signs extended fuel rest)
    | '^', _ => return .caret :: (← signs extended fuel rest)
    | '$', _ => return .dollar :: (← signs extended fuel rest)
    | '(', true => return .open :: (← signs extended fuel rest)
    | ')', true => return .close :: (← signs extended fuel rest)
    | '|', true => return .bar :: (← signs extended fuel rest)
    | '+', true => return .bound 1 none :: (← signs extended fuel rest)
    | '?', true => return .bound 0 (some 1) :: (← signs extended fuel rest)
    | '\x7b', true =>
      let (least, most, left) := bounds rest
      match left with
      | '\x7d' :: left => return .bound least most :: (← signs extended fuel left)
      | _ => return .char c :: (← signs extended fuel rest)
    | c, _ => return .char c :: (← signs extended fuel rest)

mutual

/-- alternatives, with the number of groups opened so far, up to a parenthesis that closes a group -/
def alternatives (extended : Bool) : Nat → Nat → List Sign → Reads (Regular × Nat × List Sign)
  | 0, n, ss => .ok (.nothing, n, ss)
  | fuel + 1, n, ss => do
    let (a, n, left) ← sequence extended fuel n true .nothing ss
    match left with
    | .bar :: rest =>
      let (b, n, left) ← alternatives extended fuel n rest
      return (.either a b, n, left)
    | left => return (a, n, left)

/-- pieces one after the other; `first` says that none came before -/
def sequence (extended : Bool) : Nat → Nat → Bool → Regular → List Sign → Reads (Regular × Nat × List Sign)
  | 0, n, _, sofar, ss => .ok (sofar, n, ss)
  | fuel + 1, n, first, sofar, ss => do
    match ss with
    | [] | .bar :: _ | .close :: _ => return (sofar, n, ss)
    | s :: rest =>
      let (piece, n, rest) ← match s with
        | .open => do
          let number := n + 1
          let (inside, n, left) ← alternatives extended fuel number rest
          match left with
          | .close :: left => pure (Regular.group number inside, n, left)
          | _ => .error "Unmatched ( or \\("
        | .caret => pure (if extended || first then .start else .char '^', n, rest)
        | .dollar =>
          let last := match rest with
            | [] | .bar :: _ | .close :: _ => true
            | _ => false
          pure (if extended || last then .stop else .char '$', n, rest)
        | .bound least most =>
          let spelled := if least = 1 then '+' else if most = some 1 then '?' else '*'
          pure (.char spelled, n, rest)
        | .char c => pure (.char c, n, rest)
        | .single e => pure (e, n, rest)
        | .bar | .close => pure (.nothing, n, rest)
      let anchored := match s, first with
        | .caret, true => !extended
        | _, _ => false
      if anchored then sequence extended fuel n true (.next sofar piece) rest
      else
        let (piece, rest) := bounded piece rest
        sequence extended fuel n false (.next sofar piece) rest

/-- a piece with the repeats that follow it -/
def bounded (piece : Regular) : List Sign → Regular × List Sign
  | .bound least most :: rest => bounded (.many least most piece) rest
  | rest => (piece, rest)

end

/-- the expression that a text spells -/
def ofText (extended : Bool) (t : Text) : Reads Regular := do
  let ss ← signs extended (t.length + 1) t
  let (e, _, left) ← alternatives extended (4 * ss.length + 4) 0 ss
  match left with
  | [] => return e
  | _ => .error "Unmatched ) or \\)"

/-- the expression that only a given text matches -/
def literal (t : Text) : Regular := t.foldr (fun c e => .next (.char c) e) .nothing

end Regular

end Componentry.Shell
