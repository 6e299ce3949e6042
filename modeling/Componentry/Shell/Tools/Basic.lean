/-
What the commands outside the shell have in common: options, messages, and the files they read.

Such a command takes the words after its name and gives its status. It changes the tree and the streams, and nothing
else of the shell.
-/
import Componentry.Shell.State

namespace Componentry.Shell.Tools

/-- a command outside the shell -/
abbrev Tool := List Text → Run Nat

/-- a line for the error stream -/
def say (t : Text) : Run Unit := do
  let _ ← write 2 (t ++ ['\n'])

/-- a text for the standard output -/
def print (t : Text) : Run Unit := do
  let _ ← write 1 t

/-- a text between typographic quotes -/
def marked (t : Text) : Text := spread ['‘'] ++ t ++ spread ['’']

/-- a text as a script can hold it, always between quotes -/
def quoted (t : Text) : Text :=
  if t.contains '\'' && !t.any "\"$\\`".toList.contains then '"' :: t ++ ['"']
  else '\'' :: t.flatMap (fun c => if c = '\'' then "'\\''".toList else [c]) ++ ['\'']

/-- a text as a script can hold it, between quotes if it needs them -/
def spelled (t : Text) : Text :=
  let safe (c : Char) : Bool := c.isAlphanum || "%+,-./:=@_^]\x7b\x7d".toList.contains c || c.toNat > 127
  if t.isEmpty || !t.all safe then quoted t else t

/-- the words of a reason -/
def because (cause : FileTree.Cause) : Text := ((cause.system?).map (·.2)).getD []

/-- a message of a command, after the name it was called by -/
def warn (words : Text) : Run Unit := do say ((← get).called ++ ": ".toList ++ words)

/-- where to look for help about a command -/
def hint : Run Text := do return "Try '".toList ++ (← get).called ++ " --help' for more information.".toList

/-- a command that was called wrongly: a message, a hint, and its status -/
def misused (status : Nat) (words : Text) : Run Nat := do
  warn words
  say (← hint)
  return status

/-! ## Options -/

/-- the options of a command: letters without and with a value, and names that stand for letters -/
structure Options where
  plain : String
  valued : String
  named : List (String × Char)
  mixed : Bool

/-- what options were given, with their values, and the other words -/
structure Request where
  options : List (Char × Text)
  operands : List Text

/-- whether an option was given -/
def Request.has (r : Request) (c : Char) : Bool := r.options.any fun o => o.1 = c

/-- the value of an option that was given last -/
def Request.value? (r : Request) (c : Char) : Option Text := (r.options.reverse.lookup c)

/-- a request with one more option in front -/
def Request.with (r : Request) (c : Char) (value : Text) : Request := { r with options := (c, value) :: r.options }

/-- the letters of a word as options, and whether the last of them waits for its value; or the letter that is none -/
def Options.letters (o : Options) : Text → Except Char (List (Char × Text) × Option Char)
  | [] => .ok ([], none)
  | c :: rest =>
    if o.valued.toList.contains c then
      if rest.isEmpty then .ok ([], some c) else .ok ([(c, rest)], none)
    else if o.plain.toList.contains c then (o.letters rest).map fun (found, waits) => ((c, []) :: found, waits)
    else .error c

/-- words as a request, or what is wrong with them -/
def Options.read (o : Options) : List Text → Except Text Request
  | [] => .ok ⟨[], []⟩
  | w :: rest =>
    match w with
    | ['-', '-'] => .ok ⟨[], rest⟩
    | '-' :: '-' :: name =>
      let key := name.takeWhile (· ≠ '=')
      let value := name.drop (key.length + 1)
      match o.named.find? fun n => key.isPrefixOf n.1.toList with
      | none => .error ("unrecognized option '".toList ++ w ++ ['\''])
      | some (full, c) =>
        if o.valued.toList.contains c && key.length = name.length then
          match rest with
          | [] => .error ("option '--".toList ++ full.toList ++ "' requires an argument".toList)
          | v :: rest => (o.read rest).map (·.with c v)
        else (o.read rest).map (·.with c value)
    | '-' :: c :: more =>
      match o.letters (c :: more) with
      | .error d => .error ("invalid option -- '".toList ++ [d, '\''])
      | .ok (found, none) => (o.read rest).map fun r => { r with options := found ++ r.options }
      | .ok (found, some d) =>
        match rest with
        | [] => .error ("option requires an argument -- '".toList ++ [d, '\''])
        | v :: rest => (o.read rest).map fun r => { r with options := found ++ (d, v) :: r.options }
    | w =>
      if o.mixed then (o.read rest).map fun r => { r with operands := w :: r.operands }
      else .ok ⟨[], w :: rest⟩

/-- a command that starts with its options; a wrong one ends it with a status -/
def withOptions (status : Nat) (o : Options) (act : Request → Run Nat) : Tool := fun words => do
  match o.read words with
  | .error words => misused status words
  | .ok r => act r

/-! ## Files -/

/-- the content of a file -/
def contentOf (path : Text) : Run (Except FileTree.Cause Text) := do
  match (← get).tree.lookSpelled (gathered path) with
  | .ok (.file content) => return .ok (ofBytes content)
  | .ok .dir => return .error .isDirectory
  | .error cause => return .error cause

/-- the content of a file, or of the standard input where that is named -/
def inputOf (path : Text) : Run (Except FileTree.Cause Text) := do
  if ["-", "/dev/stdin", "/dev/fd/0"].any (·.toList = path) then
    match ← readAll 0 with
    | some t => return .ok t
    | none => return .error .isDirectory
  else contentOf path

/-- does something with the content of each file, `-` being the standard input, which is the only one where none are
named. A file that cannot be read gets a message, and the status is then the one given. -/
def eachInput (paths : List Text) (status : Nat) (message : Text → FileTree.Cause → Text)
    (act : Text → Text → Run Unit) : Run Nat := do
  let mut code := 0
  for path in (if paths.isEmpty then [['-']] else paths) do
    match ← inputOf path with
    | .ok t => act path t
    | .error cause =>
      warn (message path cause)
      code := status
  return code

/-- the lines of a text, without their ends -/
def linesOf (t : Text) : List Text :=
  let ls := Text.splitAt '\n' t
  if ls.getLast? = some [] then ls.dropLast else ls

/-- lines as a text, each with its end -/
def ofLines (ls : List Text) : Text := ls.flatMap (· ++ ['\n'])

/-- the location a path leads to, under which a file can be made -/
def placeFor (path : Text) : Run (Except FileTree.Cause Location) := do
  let tree := (← get).tree
  if path.isEmpty then return .error .noEntry
  match tree.locate (.ofText (gathered path)) with
  | .error cause => return .error cause
  | .ok l =>
    match tree.get? l with
    | some .dir => return .error .isDirectory
    | some (.file _) => return if FileTree.asksForDir path then .error .notDirectory else .ok l
    | none => return if FileTree.asksForDir path then .error .isDirectory else .ok l

/-- changes the tree -/
def change (f : FileTree → FileTree) : Run Unit := modify fun s => { s with tree := f s.tree }

/-- a path without the slashes at its end -/
def trimmed (path : Text) : Text :=
  let t := (path.reverse.dropWhile (· = '/')).reverse
  if t.isEmpty && !path.isEmpty then ['/'] else t

/-- the last component of a path -/
def baseName (path : Text) : Text :=
  let t := trimmed path
  if t = ['/'] then t else (t.reverse.takeWhile (· ≠ '/')).reverse

/-- the path without its last component -/
def dirName (path : Text) : Text :=
  let t := trimmed path
  let above := (t.reverse.dropWhile (· ≠ '/')).reverse
  if above.isEmpty then (if t = ['/'] then t else ['.']) else trimmed above

/-- a name in a directory, as a path -/
def inside (dir name : Text) : Text := if dir.getLast? = some '/' then dir ++ name else dir ++ '/' :: name

end Componentry.Shell.Tools
