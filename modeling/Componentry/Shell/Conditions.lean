/-
Conditions: what `test` and `[` say about texts, numbers and files.

Words are looked at by their positions, since what a word means depends on the words next to it: an operator in the
place of an operand is an operand.
-/
import Componentry.Shell.Arithmetic

namespace Componentry.Shell.Conditions

/-- the kinds of words -/
inductive Kind where
  | unary
  | binary
  | inversion
  | conjunction
  | disjunction
  | opened
  | closed
  | operand
  | missing
  deriving DecidableEq

/-- the operators with one operand -/
def unaries : List Text :=
  ["-r", "-w", "-x", "-e", "-f", "-d", "-c", "-b", "-p", "-u", "-g", "-k", "-s", "-t", "-z", "-n", "-h", "-O", "-G",
    "-L", "-S"].map (·.toList)

/-- the operators with two operands -/
def binaries : List Text :=
  ["=", "!=", "<", ">", "-eq", "-ne", "-ge", "-gt", "-le", "-lt", "-nt", "-ot", "-ef"].map (·.toList)

/-- the kind of a word on its own -/
def kindOf (t : Text) : Kind :=
  if unaries.contains t then .unary
  else if binaries.contains t then .binary
  else match String.ofList t with
    | "!" => .inversion
    | "-a" => .conjunction
    | "-o" => .disjunction
    | "(" => .opened
    | ")" => .closed
    | _ => .operand

/-- the kind of the word at a position -/
def kindAt (words : Array Text) (i : Nat) : Kind :=
  match words[i]? with
  | none => .missing
  | some t =>
    match kindOf t with
    | .unary =>
      match words[i + 1]?, words[i + 2]? with
      | none, _ => .operand
      | some next, some _ => if kindOf next = .binary then .operand else .unary
      | some _, none => .unary
    | .opened => if words[i + 1]?.isNone then .operand else .opened
    | k => k

/-- what is wrong with a condition -/
abbrev Judgement := Except Text

/-- a whole number -/
def number (t : Text) : Judgement Int :=
  match Expression.signed? t with
  | some (n, left) =>
    if left.all Expression.isSpace && n.natAbs < Expression.greatest then .ok n
    else .error ("Illegal number: ".toList ++ t)
  | none => .error ("Illegal number: ".toList ++ t)

/-- the location that a path leads to, if something is there -/
def location? (s : State) (path : Text) : Option Location :=
  match s.tree.lookSpelled (gathered path), s.tree.locate (.ofText (gathered path)) with
  | .ok _, .ok l => some l
  | _, _ => none

/-- an operator with one operand -/
def one (s : State) (operator operand : Text) : Judgement Bool :=
  let entry := s.tree.lookSpelled (gathered operand)
  match String.ofList operator with
  | "-z" => .ok operand.isEmpty
  | "-n" => .ok (!operand.isEmpty)
  | "-t" => (number operand).map fun _ => false
  | "-f" => .ok (match entry with | .ok (.file _) => true | _ => false)
  | "-d" => .ok (match entry with | .ok .dir => true | _ => false)
  | "-x" => .ok (match entry with
    | .ok .dir => true
    | .ok (.file _) => (location? s operand).any s.runnable.contains
    | .error _ => false)
  | "-c" => .ok (operand = "/dev/null".toList)
  | "-s" => .ok (match entry with | .ok (.file content) => !content.isEmpty | .ok .dir => true | _ => false)
  | "-e" | "-r" | "-w" | "-O" | "-G" => .ok (match entry with | .ok _ => true | _ => false)
  | _ => .ok false

/-- an operator between two operands -/
def two (s : State) (a operator b : Text) : Judgement Bool := do
  let compared (holds : Int → Int → Bool) : Judgement Bool := do return holds (← number a) (← number b)
  match String.ofList operator with
  | "=" => return a = b
  | "!=" => return a ≠ b
  | "<" => return Text.before a b
  | ">" => return Text.before b a
  | "-eq" => compared (· == ·)
  | "-ne" => compared (· != ·)
  | "-ge" => compared fun m n => decide (m ≥ n)
  | "-gt" => compared fun m n => decide (m > n)
  | "-le" => compared fun m n => decide (m ≤ n)
  | "-lt" => compared fun m n => decide (m < n)
  | "-ef" => return (location? s a).isSome && location? s a = location? s b
  | _ => return (location? s a).isSome && (location? s b).isNone && operator = "-nt".toList

mutual

/-- conditions of which one has to hold, from a position on, with the position of the last word looked at -/
def anyOf (s : State) (words : Array Text) : Nat → Nat → Kind → Judgement (Bool × Nat)
  | 0, i, _ => .ok (false, i)
  | fuel + 1, i, k => do
    let (a, i) ← allOf s words fuel i k
    if kindAt words (i + 1) = .disjunction then
      let (b, i) ← anyOf s words fuel (i + 2) (kindAt words (i + 2))
      return (a || b, i)
    else return (a, i)

/-- conditions of which all have to hold -/
def allOf (s : State) (words : Array Text) : Nat → Nat → Kind → Judgement (Bool × Nat)
  | 0, i, _ => .ok (false, i)
  | fuel + 1, i, k => do
    let (a, i) ← single s words fuel i k
    if kindAt words (i + 1) = .conjunction then
      let (b, i) ← allOf s words fuel (i + 2) (kindAt words (i + 2))
      return (a && b, i)
    else return (a, i)

/-- a condition without conjunctions -/
def single (s : State) (words : Array Text) : Nat → Nat → Kind → Judgement (Bool × Nat)
  | 0, i, _ => .ok (false, i)
  | fuel + 1, i, k => do
    match k with
    | .inversion =>
      let next := kindAt words (i + 1)
      let (a, i) ← single s words fuel (if next = .missing then i else i + 1) next
      return (!a, i)
    | .missing => return (false, i)
    | .opened =>
      let next := kindAt words (i + 1)
      if next = .closed then return (false, i + 1)
      else
        let (a, i) ← anyOf s words fuel (i + 1) next
        if kindAt words (i + 1) = .closed then return (a, i + 1)
        else .error "closing paren expected".toList
    | .unary =>
      match words[i]?, words[i + 1]? with
      | some operator, some operand => return (← one s operator operand, i + 1)
      | _, _ => .error ((words[i]?).getD [] ++ ": argument expected".toList)
    | _ =>
      if kindAt words (i + 1) = .binary then
        match words[i]?, words[i + 1]?, words[i + 2]? with
        | some a, some operator, some b => return (← two s a operator b, i + 2)
        | _, _, _ => .error ((words[i + 1]?).getD [] ++ ": argument expected".toList)
      else return (((words[i]?).getD []) ≠ [], i)

end

/-- whether the words of a condition hold -/
def holds (s : State) : List Text → Judgement Bool
  | [] => .ok false
  | first :: rest =>
    let words := (first :: rest).toArray
    let judge (words : Array Text) (k : Kind) : Judgement Bool := do
      let (a, i) ← anyOf s words (4 * words.size + 8) 0 k
      match words[i]?, words[i + 1]? with
      | some t, some _ => .error ((if t.isEmpty then [] else t ++ ": ".toList) ++ "unexpected operator".toList)
      | _, _ => return a
    if words.size = 3 ∧ (words[1]?.map kindOf) = some .binary then judge words .operand
    else if words.size = 3 ∨ words.size = 4 then
      if first = ['('] ∧ rest.getLast? = some [')'] then
        judge rest.dropLast.toArray (kindAt rest.dropLast.toArray 0)
      else if first = ['!'] then (holds s rest).map (!·)
      else judge words (kindAt words 0)
    else judge words (kindAt words 0)

end Componentry.Shell.Conditions
