/-
Editing streams of lines: the commands of a `sed` script run on each line in turn.

A script is read into commands with addresses; an `Editor` holds the line worked on, the lines still to come and what is
written so far.
-/
import Componentry.Shell.Tools.Regular
import Componentry.Shell.Tools.Streams

namespace Componentry.Shell.Tools.Editing

/-- a line that an address points at; an expression that is left out is the last one used -/
inductive Address where
  | line (n : Nat)
  | last
  | pattern (e : Regular) (folded : Bool)
  | step (first by_ : Nat)
  | count (n : Nat)

/-- the lines a command is for: all, one address's, or those from one to another; a range has a number of its own -/
inductive Extent where
  | all
  | one (a : Address)
  | range (number : Nat) (a b : Address)

/-- what an exchange puts in for a match -/
inductive Filler where
  | char (c : Char)
  | group (n : Nat)

/-- what a command does -/
inductive Action where
  | exchange (e : Regular) (folded : Bool) (by_ : List Filler) (nth : Nat) (all shown : Bool)
  | delete
  | deleteFirst
  | show
  | showFirst
  | quit (code : Nat) (silent : Bool)
  | append (t : Text)
  | insert (t : Text)
  | replace (t : Text)
  | map (pairs : List (Char × Char))
  | number
  | next
  | join
  | keep
  | keepMore
  | recall
  | recallMore
  | swap

/-- the commands of a script -/
inductive Step where
  | act (extent : Extent) (inverted : Bool) (a : Action)
  | block (extent : Extent) (inverted : Bool) (steps : List Step)

/-! ## Reading -/

/-- a script being read: what is left of it, how many ranges it has so far, and how expressions are spelled -/
structure Draft where
  rest : Text
  size : Nat
  ranges : Nat
  extended : Bool

/-- a step of reading a script; a failure has the words and the number of characters read by then -/
abbrev Reading := StateT Draft (Except (String × Nat))

/-- stops with words -/
def refuse {α : Type} (words : String) : Reading α := do
  let d ← get
  throw (words, d.size - d.rest.length)

/-- the next character, gone over -/
def take : Reading (Option Char) := modifyGet fun d => (d.rest.head?, { d with rest := d.rest.tail })

/-- goes over characters of a kind -/
def skipWhile (kind : Char → Bool) : Reading Unit := modify fun d => { d with rest := d.rest.dropWhile kind }

/-- the digits here as a number -/
def natural : Reading (Option Nat) := do
  let digits := (← get).rest.takeWhile Char.isDigit
  modify fun d => { d with rest := d.rest.drop digits.length }
  return number? digits

/-- the text up to a mark that no backslash quotes; the mark itself loses its backslash. In an expression, which starts
with `inside` at zero, a mark between brackets does not count: `inside` is one right after the opening bracket and two
later. The fuel is the length of the text. -/
def upTo (mark : Char) : Nat → Option Nat → Text → Option (Text × Text)
  | 0, _, _ | _, _, [] => none
  | fuel + 1, inside, '\\' :: c :: rest =>
    let quotes := inside.getD 0 = 0
    if quotes then
      (upTo mark fuel inside rest).map fun (t, left) => (if c = mark then c :: t else '\\' :: c :: t, left)
    else (upTo mark fuel (some 2) (c :: rest)).map fun (t, left) => ('\\' :: t, left)
  | fuel + 1, inside, c :: rest =>
    if c = mark && inside.getD 0 = 0 then some ([], rest)
    else
      let next := match inside, c with
        | none, _ => none
        | some 0, '[' => some 1
        | some 0, _ => some 0
        | some 1, '^' => some 1
        | some 2, ']' => some 0
        | some _, _ => some 2
      (upTo mark fuel next rest).map fun (t, left) => (c :: t, left)

/-- the text up to a mark, gone over with it -/
def delimited (mark : Char) (isExpression : Bool) (missing : String) : Reading Text := do
  let d ← get
  match upTo mark (d.rest.length + 1) (if isExpression then some 0 else none) d.rest with
  | some (t, left) =>
    set { d with rest := left }
    return t
  | none =>
    set { d with rest := [] }
    refuse missing

/-- the expression a text spells -/
def expression (t : Text) : Reading Regular := do
  match Regular.ofText (← get).extended t with
  | .ok e => return e
  | .error words => refuse words

/-- an address, if one stands here -/
def address : Reading (Option Address) := do
  match (← get).rest with
  | '$' :: _ =>
    let _ ← take
    return some .last
  | '/' :: _ =>
    let _ ← take
    let t ← delimited '/' true "unterminated address regex"
    let e ← expression t
    let folded := (← get).rest.head? = some 'I'
    if folded then let _ ← take
    return some (.pattern e folded)
  | '\\' :: mark :: _ =>
    let _ ← take
    let _ ← take
    let e ← expression (← delimited mark true "unterminated address regex")
    return some (.pattern e false)
  | c :: _ =>
    if c.isDigit then
      let n := (← natural).getD 0
      if (← get).rest.head? = some '~' then
        let _ ← take
        return some (.step n ((← natural).getD 0))
      else return some (.line n)
    else return none
  | [] => return none

/-- the lines of a command -/
def extent : Reading Extent := do
  match ← address with
  | none => return .all
  | some a =>
    skipWhile (· = ' ')
    if (← get).rest.head? = some ',' then
      let _ ← take
      skipWhile (· = ' ')
      let b ← if (← get).rest.head? = some '+' then do
          let _ ← take
          pure (some (Address.count ((← natural).getD 0)))
        else address
      match b with
      | some b =>
        let n := (← get).ranges
        modify fun d => { d with ranges := n + 1 }
        return .range n a b
      | none => refuse "unexpected `,'"
    else return .one a

/-- what a text puts in for a match; the fuel is its length -/
def fillers : Nat → Text → List Filler
  | 0, _ | _, [] => []
  | fuel + 1, '\\' :: c :: rest =>
    let first : Filler := if c.isDigit then .group (c.toNat - '0'.toNat)
      else if c = 'n' then .char '\n' else if c = 't' then .char '\t' else if c = 'r' then .char '\r' else .char c
    first :: fillers fuel rest
  | fuel + 1, '&' :: rest => .group 0 :: fillers fuel rest
  | fuel + 1, c :: rest => .char c :: fillers fuel rest

/-- the flags of an exchange: letters and a number -/
def flags : Nat → Text → Nat → Reading (Text × Nat)
  | 0, letters, nth => return (letters, nth)
  | fuel + 1, letters, nth => do
    match (← get).rest with
    | c :: _ =>
      if "gpiIm".toList.contains c then
        let _ ← take
        flags fuel (c :: letters) nth
      else if c.isDigit then flags fuel letters ((← natural).getD 1)
      else if " \t;\n\x7d#".toList.contains c then return (letters, nth)
      else
        let _ ← take
        refuse "unknown option to `s'"
    | [] => return (letters, nth)

/-- the text after `a`, `i` or `c`: up to the end of its line, a backslash taking the next line in -/
def textLine : Reading Text := do
  skipWhile fun c => c = ' ' || c = '\t'
  match (← get).rest with
  | '\\' :: '\n' :: rest => modify fun d => { d with rest := rest }
  | '\\' :: rest => modify fun d => { d with rest := rest.dropWhile fun c => c = ' ' }
  | _ => pure ()
  if (← get).rest.isEmpty then refuse "expected \\ after `a', `c' or `i'"
  let rec line : Nat → Text → Text × Text
    | 0, _ | _, [] => ([], [])
    | fuel + 1, '\\' :: c :: rest => let (t, left) := line fuel rest; (c :: t, left)
    | fuel + 1, c :: rest => if c = '\n' then ([], rest) else let (t, left) := line fuel rest; (c :: t, left)
  let d ← get
  let (t, left) := line (d.rest.length + 1) d.rest
  set { d with rest := left }
  return t ++ ['\n']

/-- what stands after a command that takes nothing: its end -/
def ended : Reading Unit := do
  skipWhile fun c => c = ' ' || c = '\t'
  match (← get).rest with
  | [] | '\n' :: _ | ';' :: _ | '\x7d' :: _ | '#' :: _ => return
  | _ =>
    let _ ← take
    refuse "extra characters after command"

/-- what a letter does -/
def action (c : Char) : Reading Action := do
  let plain (a : Action) : Reading Action := do ended; return a
  match c with
  | 's' =>
    let mark := (← take).getD '\n'
    let missing := "unterminated `s' command"
    let pattern ← delimited mark true missing
    let new ← delimited mark false missing
    let (letters, nth) ← flags 8 [] 1
    ended
    let e ← expression pattern
    return .exchange e (letters.any fun c => c = 'i' || c = 'I') (fillers (new.length + 1) new) nth
      (letters.contains 'g') (letters.contains 'p')
  | 'y' =>
    let mark := (← take).getD '\n'
    let missing := "unterminated `y' command"
    let old ← delimited mark false missing
    let new ← delimited mark false missing
    ended
    let old := (unescaped (old.length + 1) old).map (·.1)
    let new := (unescaped (new.length + 1) new).map (·.1)
    if old.length ≠ new.length then refuse "strings for `y' command are different lengths"
    return .map (old.zip new)
  | 'd' => plain .delete
  | 'D' => plain .deleteFirst
  | 'p' => plain .show
  | 'P' => plain .showFirst
  | 'q' => do
    skipWhile (· = ' ')
    plain (.quit ((← natural).getD 0) false)
  | 'Q' => do
    skipWhile (· = ' ')
    plain (.quit ((← natural).getD 0) true)
  | 'a' => return .append (← textLine)
  | 'i' => return .insert (← textLine)
  | 'c' => return .replace (← textLine)
  | '=' => plain .number
  | 'n' => plain .next
  | 'N' => plain .join
  | 'h' => plain .keep
  | 'H' => plain .keepMore
  | 'g' => plain .recall
  | 'G' => plain .recallMore
  | 'x' => plain .swap
  | c => refuse ("unknown command: `" ++ c.toString ++ "'")

/-- the commands of a script, up to a closing brace or the end; the fuel is its length -/
def steps : Nat → Reading (List Step)
  | 0 => return []
  | fuel + 1 => do
    skipWhile fun c => " \t\n;".toList.contains c
    match (← get).rest with
    | [] => return []
    | '\x7d' :: _ => return []
    | '#' :: _ =>
      skipWhile (· ≠ '\n')
      steps fuel
    | _ =>
      let e ← extent
      skipWhile fun c => c = ' ' || c = '\t'
      let inverted := (← get).rest.head? = some '!'
      if inverted then skipWhile fun c => c = '!' || c = ' '
      match ← take with
      | none => refuse "missing command"
      | some '\x7b' =>
        let inside ← steps fuel
        match ← take with
        | some '\x7d' =>
          ended
          return .block e inverted inside :: (← steps fuel)
        | _ => throw ("unmatched `\x7b'", 0)
      | some c =>
        let a ← action c
        return .act e inverted a :: (← steps fuel)

/-- the commands that a script spells -/
def read (extended : Bool) (t : Text) : Except (String × Nat) (List Step) := do
  let (found, d) ← (steps (t.length + 1)).run ⟨t, t.length, 0, extended⟩
  match d.rest with
  | [] => return found
  | _ => .error ("unexpected `\x7d'", d.size - d.rest.length + 1)

/-! ## Running -/

/-- a stream of lines being edited: whether lines are written of themselves, the line worked on and whether it ends, its
number, the lines still to come, the text kept aside, what is written, what is written after the line, the ranges that
are open with the line they end at, and the status if the script has quit -/
structure Editor where
  quiet : Bool
  line : Text
  ends : Bool
  number : Nat
  coming : List (Text × Bool)
  aside : Text
  out : Text
  after : Text
  opened : List (Nat × Nat)
  code : Option Nat

/-- how a cycle goes on after a command -/
inductive Flow where
  | on
  | dropped
  | restart

/-- the editor with the line written, as if asked for -/
def Editor.write (e : Editor) (t : Text) : Editor := { e with out := e.out ++ t ++ if e.ends then ['\n'] else [] }

/-- whether an address points at the line -/
def Address.points (e : Editor) : Address → Bool
  | .line n => e.number = n
  | .last => e.coming.isEmpty
  | .pattern x folded => (x.first? folded none e.line).isSome
  | .step first by_ => if by_ = 0 then e.number = first else e.number ≥ first && (e.number - first) % by_ = 0
  | .count _ => false

/-- whether a command is for the line, and the editor with the ranges that are open then -/
def Extent.holds (e : Editor) : Extent → Bool × Editor
  | .all => (true, e)
  | .one a => (a.points e, e)
  | .range n a b =>
    let closed : Editor := { e with opened := e.opened.filter fun o => o.1 ≠ n }
    let isEnd (last : Nat) : Bool := match b with
      | .line m => e.number ≥ m
      | .count _ => e.number ≥ last
      | b => b.points e
    match e.opened.lookup n with
    | some last =>
      match b with
      | .line m => if e.number > m then (false, closed) else (true, if isEnd last then closed else e)
      | _ => (true, if isEnd last then closed else e)
    | none =>
      if a.points e then
        let last := match b with | .count m => e.number + m | _ => 0
        let passed : Bool := match b with
          | .line m => m ≤ e.number
          | .count m => m = 0
          | _ => false
        (true, if passed then e else { e with opened := (n, last) :: e.opened })
      else (false, e)

/-- the text that fillers make of a match -/
def filled (fs : List Filler) (whole : Text) (groups : List (Nat × Text)) : Text :=
  fs.flatMap fun
    | .char c => [c]
    | .group 0 => whole
    | .group n => (groups.lookup n).getD []

/-- a text with matches exchanged, from the `nth` on, and whether any was; the fuel is its length -/
def exchanged (x : Regular) (folded : Bool) (fs : List Filler) (all : Bool) :
    Nat → Nat → Bool → Option Char → Text → Text × Bool
  | 0, _, _, _, t => (t, false)
  | fuel + 1, nth, touching, before, t =>
    match x.first? folded before t with
    | none => (t, false)
    | some (skipped, whole, p) =>
      if whole.isEmpty && touching && skipped.isEmpty then
        match t with
        | [] => ([], false)
        | c :: rest =>
          let (more, done) := exchanged x folded fs all fuel nth false (some c) rest
          (c :: more, done)
      else
        let here := if nth ≤ 1 then filled fs whole p.groups else whole
        if nth ≤ 1 && !all then (skipped ++ here ++ p.rest, true)
        else
          let last := if whole.isEmpty then (skipped.getLast?).or before else p.before
          if whole.isEmpty then
            match p.rest with
            | [] => (skipped ++ here, nth ≤ 1)
            | c :: rest =>
              let (more, done) := exchanged x folded fs all fuel (nth - 1) false (some c) rest
              (skipped ++ here ++ c :: more, done || nth ≤ 1)
          else
            let (more, done) := exchanged x folded fs all fuel (nth - 1) true last p.rest
            (skipped ++ here ++ more, done || nth ≤ 1)

/-- the editor at the next line, what was put off being written before it -/
def Editor.advance (e : Editor) : Option Editor :=
  match e.coming with
  | [] => none
  | (l, ends) :: rest =>
    some { e with
      line := l, ends := ends, number := e.number + 1, coming := rest, out := e.out ++ e.after, after := [] }

/-- the first line of the text worked on -/
def Editor.firstLine (e : Editor) : Text := e.line.takeWhile (· ≠ '\n')

/-- carries out what a command does -/
def Action.run (e : Editor) (a : Action) : Editor × Flow :=
  match a with
  | .exchange x folded fs nth all shown =>
    let (t, done) := exchanged x folded fs all (e.line.length + 2) nth false none e.line
    let e := { e with line := t }
    (if done && shown then e.write t else e, .on)
  | .delete => (e, .dropped)
  | .deleteFirst =>
    if e.line.contains '\n' then ({ e with line := e.line.drop (e.firstLine.length + 1) }, .restart) else (e, .dropped)
  | .show => (e.write e.line, .on)
  | .showFirst => ({ e with out := e.out ++ e.firstLine ++ ['\n'] }, .on)
  | .quit code silent =>
    let e := if silent || e.quiet then e else e.write e.line
    ({ e with code := some code, coming := [] }, .dropped)
  | .append t => ({ e with after := e.after ++ t }, .on)
  | .insert t => ({ e with out := e.out ++ t }, .on)
  | .replace t => ({ e with out := e.out ++ t }, .dropped)
  | .map pairs => ({ e with line := e.line.map fun c => (pairs.lookup c).getD c }, .on)
  | .number => ({ e with out := e.out ++ Text.ofNat e.number ++ ['\n'] }, .on)
  | .next =>
    match e.coming with
    | [] => ({ (if e.quiet then e else e.write e.line) with code := some 0 }, .dropped)
    | _ =>
      let e := if e.quiet then e else e.write e.line
      ((e.advance).getD e, .on)
  | .join =>
    match e.advance with
    | none => ({ (if e.quiet then e else e.write e.line) with code := some 0 }, .dropped)
    | some f => ({ f with line := e.line ++ '\n' :: f.line }, .on)
  | .keep => ({ e with aside := e.line }, .on)
  | .keepMore => ({ e with aside := e.aside ++ '\n' :: e.line }, .on)
  | .recall => ({ e with line := e.aside }, .on)
  | .recallMore => ({ e with line := e.line ++ '\n' :: e.aside }, .on)
  | .swap => ({ e with line := e.aside, aside := e.line }, .on)

mutual

/-- carries out one command if it is for the line -/
def Step.run (e : Editor) : Step → Editor × Flow
  | .act extent inverted a =>
    let (holds, e) := extent.holds e
    if holds != inverted then
      match a, extent with
      | .replace t, .range n _ _ =>
        if (e.opened.lookup n).isSome && !inverted then (e, .dropped) else (Action.replace t).run e
      | a, _ => a.run e
    else (e, .on)
  | .block extent inverted steps =>
    let (holds, e) := extent.holds e
    if holds != inverted then runAll e steps else (e, .on)

/-- carries out commands one after the other, as far as the cycle goes on -/
def runAll (e : Editor) : List Step → Editor × Flow
  | [] => (e, .on)
  | s :: rest =>
    match s.run e with
    | (e, .on) => runAll e rest
    | other => other

end

/-- one cycle after the other, until no line is left; the fuel bounds how many -/
def cycles (steps : List Step) : Nat → Editor → Editor
  | 0, e => e
  | fuel + 1, e =>
    let (e, flow) := runAll e steps
    match flow with
    | .restart => cycles steps fuel { e with out := e.out ++ e.after, after := [] }
    | flow =>
      let e := match flow with
        | .on => if e.quiet then e else e.write e.line
        | _ => e
      let e := { e with out := e.out ++ e.after, after := [] }
      if e.code.isSome then e
      else match e.advance with
        | some e => cycles steps fuel e
        | none => e

/-- the lines of a text, with whether they end -/
def ending (t : Text) : List (Text × Bool) :=
  (pieces t).map fun l => if l.getLast? = some '\n' then (l.dropLast, true) else (l, false)

/-- what a script makes of a text, and the status if it quits -/
def edited (steps : List Step) (quiet : Bool) (t : Text) : Text × Option Nat :=
  match ending t with
  | [] => ([], none)
  | (l, ends) :: rest =>
    let e := cycles steps (2 * t.length + 8) ⟨quiet, l, ends, 1, rest, [], [], [], [], none⟩
    (e.out, e.code)

def sed : Tool := fun words => do
  let own : Options :=
    ⟨"nErsuz", "ef", [("quiet", 'n'), ("silent", 'n'), ("regexp-extended", 'E'), ("expression", 'e')], true⟩
  let isPlace (w : Text) : Bool := "-i".toList.isPrefixOf w || "--in-place".toList.isPrefixOf w
  let inPlace := words.find? isPlace
  let ending : Text := match inPlace with
    | some ('-' :: 'i' :: more) => more
    | some w => (w.dropWhile (· ≠ '=')).drop 1
    | none => []
  withOptions 1 own (fun r => do
    let given := (r.options.filter fun o => o.1 = 'e').map (·.2)
    let (script, files) := if given.isEmpty then (r.operands.head?, r.operands.drop 1)
      else (some (Text.join ['\n'] given), r.operands)
    match script with
    | none =>
      let form := " [OPTION]... \x7bscript-only-if-no-other-script\x7d [input-file]...".toList
      say ("Usage: ".toList ++ (← get).called ++ form)
      return 1
    | some script =>
      match read (r.has 'E' || r.has 'r') script with
      | .error (words, n) =>
        warn ("-e expression #1, char ".toList ++ Text.ofNat n ++ ": ".toList ++ words.toList)
        return 1
      | .ok steps =>
        let mut code := 0
        let mut all : Text := []
        let missing (path : Text) (cause : FileTree.Cause) : Text :=
          if cause = .isDirectory then
            if inPlace.isSome then "couldn't edit ".toList ++ path ++ ": not a regular file".toList
            else "read error on ".toList ++ path ++ ": Is a directory".toList
          else "can't read ".toList ++ path ++ ": ".toList ++ because cause
        for path in (if files.isEmpty then [['-']] else files) do
          match ← inputOf path with
          | .error cause =>
            warn (missing path cause)
            code := if cause = .isDirectory then 4 else 2
          | .ok t =>
            if inPlace.isSome then
              let (out, left) := edited steps (r.has 'n') t
              match ← placeFor path with
              | .ok l =>
                if !ending.isEmpty then
                  match ← placeFor (path ++ ending) with
                  | .ok m => change (·.set m (.file (bytesOf t)))
                  | .error _ => pure ()
                change (·.set l (.file (bytesOf out)))
              | .error _ => pure ()
              code := left.getD code
            else if r.has 's' then
              let (out, left) := edited steps (r.has 'n') t
              print out
              code := left.getD code
            else all := all ++ t
        if inPlace.isNone && !r.has 's' then
          let (out, left) := edited steps (r.has 'n') all
          print out
          code := left.getD code
        return code) (words.filter fun w => !isPlace w)

end Componentry.Shell.Tools.Editing
