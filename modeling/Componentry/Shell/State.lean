/-
The state of a running shell: the file tree, what its streams are open on, its variables, and how a run can be cut
short.

A subshell works on the same tree and the same channels, and on a copy of everything else.
-/
import Componentry.FileTree.Access
import Componentry.Shell.Script

namespace Componentry.Shell

/-- what a stream is open on: a file at a position, a text to be read, a text being written, or nothing at all -/
inductive Channel where
  | file (l : Location) (position : Nat) (opening : Opening)
  | source (left : Text)
  | sink (written : Text)
  | nowhere

/-- a variable: its value if it has one, whether commands get to see it, and whether it must stay as it is -/
structure Variable where
  value : Option Text
  exported : Bool
  fixed : Bool

/-- the state of a shell. `name` is the name it gives itself, `called` the name its last command was called by, `label`
the builtin command it works for, `line` the line it works on, `loops` how many loops it is in, `bound` what the
variables of the functions it is in were before, `given` the status of the last command whose output was used, `traps`
what it runs when a signal comes or, at zero, when it is over, `background` the status of the last command it did not
wait for, and `runnable` the files that were made commands. `process` is its number, `apart` says that it is a copy of the
shell that has this number, `elders` are the numbers of the shells that wait for it, and `due` holds the signals that were
sent, with the numbers of those that they were sent to. `aliases` are the names that other texts are read for, `scan` is
where `getopts` goes on: the number of an argument, and the place inside the one before it where letters are left. `mask`
is what files are made without. -/
structure State where
  tree : FileTree
  channels : Array Channel
  documents : List (Nat × Word)
  issued : Nat
  streams : List (Nat × Nat)
  bindings : List (Text × Variable)
  functions : List (Text × Command)
  arguments : List Text
  name : Text
  called : Text
  label : Option Text
  line : Nat
  status : Nat
  given : Nat
  options : Text
  loops : Nat
  bound : List (List (Text × Option Variable))
  traps : List (Nat × Text)
  background : Option Nat
  runnable : List Location
  process : Nat
  apart : Bool
  elders : List Nat
  due : List (Nat × Nat)
  aliases : List (Text × Text)
  scan : Nat × Option Nat
  mask : Nat

/-- why a run is cut short: the shell is over, a command failed in a way that ends a script, loops are left or go on
with their next turn, a function returns, or a signal ends the shell -/
inductive Halt where
  | over
  | failed
  | unwound (levels : Nat) (again : Bool)
  | returned
  | killed (signal : Nat)

/-- a step of a shell -/
abbrev Run := ExceptT Halt (StateM State)

/-- a number as the shell reads it: digits, with blanks around them -/
def number? (t : Text) : Option Nat :=
  let blank (c : Char) : Bool := c == ' ' || ('\t' ≤ c && c ≤ '\r')
  let digits := (t.dropWhile blank).takeWhile Char.isDigit
  if digits.isEmpty || !((t.dropWhile blank).drop digits.length).all blank then none
  else some (digits.foldl (fun n c => n * 10 + (c.toNat - '0'.toNat)) 0)

namespace State

/-- the value of a variable -/
def value? (s : State) (name : Text) : Option Text := (s.bindings.lookup name).bind (·.value)

/-- whether an option is on -/
def isOn (s : State) (option : Char) : Bool := s.options.contains option

/-- the state with a variable -/
def put (s : State) (name : Text) (v : Variable) : State :=
  { s with bindings := (name, v) :: s.bindings.filter fun x => x.1 ≠ name }

/-- the state without a variable -/
def drop (s : State) (name : Text) : State := { s with bindings := s.bindings.filter fun x => x.1 ≠ name }

/-- the state with a variable's value -/
def assign (s : State) (name value : Text) : State :=
  let v := (s.bindings.lookup name).getD ⟨none, s.isOn 'a', false⟩
  let s := s.put name { v with value := some value }
  if name = "OPTIND".toList then { s with scan := (number? value |>.getD 1, none) } else s

/-- the variables that a command gets to see -/
def exported (s : State) : List (Text × Text) :=
  s.bindings.filterMap fun (n, v) => if v.exported then v.value.map fun t => (n, t) else none

/-- the channel of a stream -/
def channel? (s : State) (stream : Nat) : Option Nat := s.streams.lookup stream

/-- the state with a stream on a channel, or closed -/
def connect (s : State) (stream : Nat) (channel : Option Nat) : State :=
  { s with streams := channel.toList.map (fun c => (stream, c)) ++ s.streams.filter fun x => x.1 ≠ stream }

/-- the state with a new channel, and its number -/
def opened (s : State) (c : Channel) : State × Nat := ({ s with channels := s.channels.push c }, s.channels.size)

/-- what is left of a copy of the state when it is done: the tree and the channels, while all else is as before -/
def after (s copy : State) : State :=
  { s with
    tree := { copy.tree with current := s.tree.current }
    channels := copy.channels
    documents := copy.documents
    issued := copy.issued
    runnable := copy.runnable
    due := copy.due }

/-- the state in which a signal is caught by a command, or by none -/
def catching (s : State) (signal : Nat) (action : Option Text) : State :=
  { s with traps := action.toList.map (fun t => (signal, t)) ++ s.traps.filter fun x => x.1 ≠ signal }

end State

/-! ## Writing and reading -/

/-- bytes put into a content at a position, zeros before them where it is too short -/
def overwrite (content : Bytes) (position : Nat) (bytes : Bytes) : Bytes :=
  content.take position ++ List.replicate (position - content.length) 0 ++ bytes ++
    content.drop (position + bytes.length)

/-- writes a text to a stream; whether the stream takes it -/
def write (stream : Nat) (t : Text) : Run Bool := do
  let s ← get
  match (s.channel? stream).bind fun n => s.channels[n]?.map fun c => (n, c) with
  | none => return false
  | some (n, c) =>
    match c with
    | .nowhere => return true
    | .sink written =>
      set { s with channels := s.channels.set! n (.sink (written ++ t)) }
      return true
    | .file l position opening =>
      if opening = .input then return t.isEmpty
      else
        match s.tree.get? l with
        | some (.file content) =>
          let start := if opening = .appending then content.length else position
          set { s with
            tree := if t.isEmpty then s.tree else s.tree.set l (.file (overwrite content start (bytesOf t)))
            channels := s.channels.set! n (.file l (start + t.length) opening) }
          return true
        | _ => return true
    | .source _ => return t.isEmpty

/-- what a channel still has to be read -/
def State.readable (s : State) : Channel → Option Text
  | .nowhere => some []
  | .source left => some left
  | .sink _ => none
  | .file l position opening =>
    match s.tree.get? l with
    | some (.file content) =>
      if opening = .output || opening = .forced || opening = .appending then none else some (ofBytes (content.drop position))
    | some .dir => none
    | none => some []

/-- a channel with some characters read from it -/
def Channel.past (count : Nat) : Channel → Channel
  | .source left => .source (left.drop count)
  | .file l position opening => .file l (position + count) opening
  | c => c

/-- what a stream still has to be read, without reading it -/
def pending (stream : Nat) : Run (Option Text) := do
  let s ← get
  return ((s.channel? stream).bind fun n => s.channels[n]?).bind s.readable

/-- goes over characters of a stream -/
def consume (stream count : Nat) : Run Unit :=
  modify fun s =>
    match s.channel? stream with
    | some n => { s with channels := s.channels.modify n (Channel.past count) }
    | none => s

/-- reads all that a stream still has -/
def readAll (stream : Nat) : Run (Option Text) := do
  let t ← pending stream
  consume stream (t.getD []).length
  return t

/-! ## Messages -/

/-- a message of the shell, with its name, the line and the builtin command it works for -/
def complain (words : Text) : Run Unit := do
  let s ← get
  let label := match s.label with | some l => l ++ ": ".toList | none => []
  let _ ← write 2 (s.name ++ ": ".toList ++ Text.ofNat s.line ++ ": ".toList ++ label ++ words ++ ['\n'])

/-- fails with a message, as what ends a script does -/
def fail {α : Type} (words : Text) : Run α := do
  complain words
  modify fun s => { s with status := 2 }
  throw .failed

/-- a text between single quotes, as a script can hold it -/
def singleQuoted (t : Text) : Text :=
  '\'' :: t.flatMap (fun c => if c = '\'' then "'\"'\"'".toList else [c]) ++ ['\'']

/-- the greatest number that counts can have -/
def greatestCount : Nat := 2147483647

/-- a count, or a failure with a message -/
def count (t : Text) : Run Nat := do
  match number? t with
  | some n => if n ≤ greatestCount then return n else fail ("Illegal number: ".toList ++ t)
  | none => fail ("Illegal number: ".toList ++ t)

/-- gives a variable a value, if that is allowed -/
def assign (name value : Text) : Run Unit := do
  let s ← get
  if ((s.bindings.lookup name).map (·.fixed)).getD false then fail (name ++ ": is read only".toList)
  else set (s.assign name value)

end Componentry.Shell
