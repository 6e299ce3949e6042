/-
The commands and their options.

Options in front of the command belong to the program, those after it to the command. A long option takes its value
after `=` or as the next argument; a short one takes the rest of its argument or the next one, and short ones without a
value can be written together. `--` ends the options.
-/
import Componentry.FileTree.Access

namespace Componentry.Console

/-- what an option asks for -/
inductive Switch where
  | version
  | verbose
  | unformatted
  | root (text : Text)
  deriving DecidableEq

/-- how an option is written: by itself or with a value -/
inductive Option.Form where
  | alone (switch : Switch)
  | valued (switch : Text → Switch)

/-- the options of the program or of a command, by their spellings -/
abbrev Options := List (Text × Option.Form)

namespace Options

/-- the options of the program -/
def program : Options :=
  [("--version".toList, .alone .version), ("--verbose".toList, .alone .verbose), ("-v".toList, .alone .verbose)]

/-- the options of the command that makes a component -/
def component : Options :=
  [("--root".toList, .valued .root), ("-r".toList, .valued .root), ("--no-format".toList, .alone .unformatted)]

/-- short options written together; the second part are the arguments after them -/
def readShort (options : Options) : Text → List Text → Option (List Switch × List Text)
  | [], rest => some ([], rest)
  | c :: more, rest =>
    match options.lookup ['-', c] with
    | some (.alone s) => (readShort options more rest).map fun r => (s :: r.1, r.2)
    | some (.valued f) =>
      if more ≠ [] then some ([f more], rest)
      else match rest with
        | value :: rest => some ([f value], rest)
        | [] => none
    | none => none

/-- the value in a long option after its `=`, if it has one -/
def splitValue (arg : Text) : Text × Option Text :=
  match arg.dropWhile (· ≠ '=') with
  | '=' :: value => (arg.takeWhile (· ≠ '='), some value)
  | _ => (arg, none)

/-- one argument with options; the second part are the arguments after it -/
def readOne (options : Options) (arg : Text) (rest : List Text) : Option (List Switch × List Text) :=
  let (name, value) := splitValue arg
  match if name.take 2 = ['-', '-'] then options.lookup name else none, value, rest with
  | some (.alone s), none, rest => some ([s], rest)
  | some (.alone _), some _, _ => none
  | some (.valued f), some v, rest => some ([f v], rest)
  | some (.valued f), none, v :: rest => some ([f v], rest)
  | some (.valued _), none, [] => none
  | none, _, rest => if arg.take 2 = ['-', '-'] then none else readShort options (arg.drop 1) rest

/-- the options among arguments, and the other arguments. Unless `mixed`, options end at the first other argument. -/
def read (options : Options) (mixed : Bool) : Nat → List Text → Option (List Switch × List Text)
  | 0, args => some ([], args)
  | _ + 1, [] => some ([], [])
  | fuel + 1, arg :: rest =>
    if arg = ['-', '-'] then some ([], rest)
    else if arg.head? = some '-' ∧ 1 < arg.length then
      (readOne options arg rest).bind fun (switches, rest) =>
        (read options mixed fuel rest).map fun r => (switches ++ r.1, r.2)
    else if mixed then (read options mixed fuel rest).map fun r => (r.1, arg :: r.2)
    else some ([], arg :: rest)

/-- the options among all arguments, and the other arguments -/
def readAll (options : Options) (mixed : Bool) (args : List Text) : Option (List Switch × List Text) :=
  read options mixed args.length args

end Options

/-- a command; the root of the library is the one given or, if none is, one that is to be found -/
inductive Command where
  | version
  | component (root : Option Path) (formatted : Bool)

/-- why arguments spell no command: they break its rules, or they name what the system cannot look up -/
inductive Refusal where
  | usage
  | unusable (trouble : FileTree.Trouble)

namespace Command

/-- the root given last -/
def rootText? (switches : List Switch) : Option Text :=
  (switches.filterMap fun s => match s with
    | .root t => some t
    | _ => none).getLast?

/-- the root that a text names; a path that leads to a file is none -/
def checkRoot (t : FileTree) (text : Text) : Except Refusal Path :=
  let root := Path.ofText text
  if text.contains '\x00' then .error (.unusable (FileTree.troubleAt root .nulCharacter))
  else if t.leadsToFile root then .error .usage
  else .ok root

/-- the command that makes a component -/
def ofComponentArgs (t : FileTree) (args : List Text) : Except Refusal Command :=
  match Options.component.readAll true args with
  | none => .error .usage
  | some (switches, others) =>
    ((rootText? switches).mapM (checkRoot t)).bind fun root =>
      if others = [] then .ok (.component root (!switches.contains .unformatted)) else .error .usage

/-- the command that arguments spell, if they spell one; a call for the version comes before any command -/
def ofArgs (t : FileTree) (args : List Text) : Except Refusal Command :=
  match Options.program.readAll false args with
  | none => .error .usage
  | some (switches, rest) =>
    if switches.contains .version then .ok .version
    else match rest with
      | [] => .error .usage
      | name :: args =>
        if name = "component".toList then ofComponentArgs t args
        else if name = "version".toList then
          match Options.readAll [] true args with
          | some ([], []) => .ok .version
          | _ => .error .usage
        else .error .usage

end Command

end Componentry.Console
