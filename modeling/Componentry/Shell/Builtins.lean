/-
The builtin commands that need nothing run: they print, test, and change the state of the shell.

Each takes the words after its name and gives its status. A failure ends the command, and with a special one the script.
-/
import Componentry.Shell.Conditions
import Componentry.Shell.Expansion
import Componentry.Shell.Printing
import Componentry.Shell.Signals

namespace Componentry.Shell.Builtins

/-- the words after the options of a command that has options of one letter; an option it does not have is a failure -/
def options (allowed : Text) (sofar : Text) : List Text → Run (Text × List Text)
  | [] => return (sofar, [])
  | w :: rest =>
    match w with
    | ['-', '-'] => return (sofar, rest)
    | '-' :: c :: more =>
      match (c :: more).find? fun d => !allowed.contains d with
      | some d => fail ("Illegal option -".toList ++ [d])
      | none => options allowed (sofar ++ c :: more) rest
    | _ => return (sofar, w :: rest)

/-- prints to the standard output; a stream that takes nothing is a problem of the command -/
def print (t : Text) : Run Nat := do
  if ← write 1 t then return 0
  else
    let label := ((← get).label).getD []
    complain (label ++ ": I/O error".toList)
    return 1

/-! ## Printing and testing -/

def printf (words : List Text) : Run Nat := do
  let (_, words) ← options [] [] words
  match words with
  | [] => fail "usage: printf format [arg ...]".toList
  | format :: rest =>
    let (out, problems, status) := Printing.printed format rest
    for p in problems do complain p
    let written ← print out
    return if status = 0 then written else status

/-- `test`, and `[` with the bracket that closes it -/
def test (bracket : Bool) (words : List Text) : Run Nat := do
  let s ← get
  if bracket && words.getLast? ≠ some [']'] then fail "missing ]".toList
  match Conditions.holds s (if bracket then words.dropLast else words) with
  | .ok true => return 0
  | .ok false => return 1
  | .error problem => fail problem

/-! ## Directories -/

/-- the path of a location -/
def pathOf (l : Location) : Text := '/' :: spread (Text.join ['/'] l)

def pwd (words : List Text) : Run Nat := do
  let _ ← options "LP".toList [] words
  print (pathOf (← get).tree.current ++ ['\n'])

def cd (words : List Text) : Run Nat := do
  let (_, words) ← options "LP".toList [] words
  let s ← get
  let back := words.head? = some ['-']
  let target := if back then s.value? "OLDPWD".toList
    else match words.head? with
      | some w => some w
      | none => s.value? "HOME".toList
  match target with
  | none | some [] => return 0
  | some target =>
    match s.tree.lookSpelled (gathered target), s.tree.locate (.ofText (gathered target)) with
    | .ok .dir, .ok l =>
      let before := pathOf s.tree.current
      set { s with tree := { s.tree with current := l } }
      modify fun s => (s.put "OLDPWD".toList ⟨some before, true, false⟩).put "PWD".toList ⟨some (pathOf l), true, false⟩
      if back then print (pathOf l ++ ['\n']) else return 0
    | _, _ => fail ("can't cd to ".toList ++ target)

/-! ## Variables -/

/-- the name and the value of a word that may assign -/
def named (w : Text) : Text × Option Text :=
  let name := w.takeWhile (· ≠ '=')
  (name, (w.drop name.length).head?.map fun _ => w.drop (name.length + 1))

/-- the name and the value of a word, or a failure if the name is none -/
def checked (w : Text) : Run (Text × Option Text) := do
  let (name, value) := named w
  if isName name then return (name, value) else fail (name ++ ": bad variable name".toList)

/-- the lines that would give variables their values again -/
def listing (word : Text) (vs : List (Text × Variable)) : Text :=
  (vs.mergeSort fun a b => !Text.before b.1 a.1).flatMap fun (name, v) =>
    word ++ name ++ (match v.value with | some t => '=' :: singleQuoted t | none => []) ++ ['\n']

/-- `export` and `readonly`: marks variables, or lists the marked ones -/
def marking (word : String) (marked : Variable → Bool) (mark : Variable → Variable) (words : List Text) : Run Nat := do
  let (chosen, words) ← options ['p'] [] words
  if words.isEmpty || chosen.contains 'p' then
    print (listing (word ++ " ").toList ((← get).bindings.filter fun x => marked x.2))
  else
    for w in words do
      let (name, value) ← checked w
      match value with
      | some t => assign name t
      | none => pure ()
      let s ← get
      set (s.put name (mark ((s.bindings.lookup name).getD ⟨none, false, false⟩)))
    return 0

/-- remembers what a variable was before the function that runs now -/
def bind (name : Text) : Run Unit :=
  modify fun s =>
    match s.bound with
    | [] => s
    | frame :: frames =>
      if (frame.lookup name).isSome then s
      else { s with bound := ((name, s.bindings.lookup name) :: frame) :: frames }

def localVariables (words : List Text) : Run Nat := do
  if (← get).bound.isEmpty then fail "not in a function".toList
  for w in words do
    let (name, value) ← checked w
    if (((← get).bindings.lookup name).map (·.fixed)).getD false then fail (name ++ ": is read only".toList)
    bind name
    match value with
    | some t => assign name t
    | none => pure ()
  return 0

def unset (words : List Text) : Run Nat := do
  let (chosen, words) ← options "fv".toList [] words
  for w in words do
    let s ← get
    if chosen.contains 'f' then set { s with functions := s.functions.filter fun x => x.1 ≠ w }
    else if !isName w then fail (w ++ ": bad variable name".toList)
    else if ((s.bindings.lookup w).map (·.fixed)).getD false then fail (w ++ ": is read only".toList)
    else set (s.drop w)
  return 0

/-! ## Options and arguments -/

/-- the options of a shell by letter and name -/
def optionNames : List (Char × String) :=
  [('e', "errexit"), ('f', "noglob"), ('I', "ignoreeof"), ('i', "interactive"), ('m', "monitor"), ('n', "noexec"),
    ('s', "stdin"), ('x', "xtrace"), ('v', "verbose"), ('V', "vi"), ('E', "emacs"), ('C', "noclobber"),
    ('a', "allexport"), ('b', "notify"), ('u', "nounset"), ('p', "privileged"), ('\x01', "nolog"), ('\x02', "debug")]

/-- the state with an option on or off; the letters stand against the order of the options -/
def State.turn (s : State) (on : Bool) (option : Char) : State :=
  let chosen := if on then option :: s.options else s.options.filter (· ≠ option)
  { s with options := (optionNames.map (·.1)).reverse.filter chosen.contains }

/-- turns an option on or off by its letter -/
def turn (on : Bool) (letter : Char) : Run Unit := do
  if (optionNames.lookup letter).isSome && letter.toNat > 2 then modify fun s => State.turn s on letter
  else fail ("Illegal option -".toList ++ [letter])

/-- turns an option on or off by its name -/
def turnNamed (on : Bool) (name : Text) : Run Unit := do
  match optionNames.find? fun o => o.2.toList = name with
  | some (letter, _) => modify fun s => State.turn s on letter
  | none => fail ("Illegal option -o ".toList ++ name)

/-- the options as a table -/
def optionTable (s : State) : Text :=
  "Current option settings\n".toList ++ optionNames.flatMap fun (letter, name) =>
    let name := name.toList
    name ++ List.replicate (16 - name.length) ' ' ++ (if s.isOn letter then "on\n" else "off\n").toList

/-- turns the options of a word on or off, with the words for options that are named; gives the words that are left -/
def turnAll (on : Bool) : Text → List Text → Run (List Text)
  | [], rest => return rest
  | 'o' :: letters, rest => do
    match rest with
    | [] =>
      let _ ← print (optionTable (← get))
      turnAll on letters []
    | name :: rest =>
      turnNamed on name
      turnAll on letters rest
  | c :: letters, rest => do
    turn on c
    turnAll on letters rest

/-- the options at the start of words, and the words that follow, if any do; the fuel is the number of words -/
def settings : Nat → List Text → Run (Option (List Text))
  | 0, _ => return none
  | _, [] => return none
  | fuel + 1, w :: rest => do
    match w with
    | ['-', '-'] => return some rest
    | ['-'] =>
      modify fun s => State.turn (State.turn s false 'x') false 'v'
      return if rest.isEmpty then none else some rest
    | '-' :: letters => settings fuel (← turnAll true letters rest)
    | '+' :: letters => settings fuel (← turnAll false letters rest)
    | _ => return some (w :: rest)

def setting (words : List Text) : Run Nat := do
  if words.isEmpty then print (listing [] ((← get).bindings.filter fun x => x.2.value.isSome))
  else
    match ← settings words.length words with
    | some rest => modify fun s => { s with arguments := rest, scan := (1, none) }
    | none => pure ()
    return 0

def shift (words : List Text) : Run Nat := do
  let n ← match words with
    | [] => pure 1
    | w :: _ => count w
  if n > (← get).arguments.length then fail "can't shift that many".toList
  modify fun s => { s with arguments := s.arguments.drop n }
  return 0

/-! ## Reading -/

/-- the characters of a line with their quoting, and how many were read; the line ends at a newline that no backslash
quotes. The last value says whether it ended. -/
def lineGlyphs (raw : Bool) : Text → List Glyph × Nat × Bool
  | [] => ([], 0, false)
  | '\n' :: _ => ([], 1, true)
  | '\\' :: c :: rest =>
    if raw then
      let (gs, n, ended) := lineGlyphs raw (c :: rest)
      (.loose '\\' :: gs, n + 1, ended)
    else
      let (gs, n, ended) := lineGlyphs raw rest
      (if c = '\n' then gs else .exact c :: gs, n + 2, ended)
  | c :: rest =>
    let (gs, n, ended) := lineGlyphs raw rest
    (if c = '\\' && !raw then gs else .loose c :: gs, n + 1, ended)

def read (words : List Text) : Run Nat := do
  let rec names : List Text → Run (Bool × List Text)
    | ['-', 'r'] :: rest => do return (true, (← names rest).2)
    | ['-', 'p'] :: _ :: rest => names rest
    | ['-', '-'] :: rest => return (false, rest)
    | ('-' :: c :: more) :: rest => do
      match (c :: more).find? (· ≠ 'r') with
      | some d => fail ("Illegal option -".toList ++ [d])
      | none => return (true, (← names rest).2)
    | rest => return (false, rest)
  let (raw, names) ← names words
  if names.isEmpty then fail "arg count".toList
  let (gs, n, ended) := lineGlyphs raw ((← pending 0).getD [])
  consume 0 n
  let values := Fields.shared (Expansion.separators (← get)) names.length gs
  for (name, value) in names.zip values do
    if !isName name then fail (name ++ ": bad variable name".toList)
    assign name value
  return if ended then 0 else 1

/-! ## Leaving -/

def exit (words : List Text) : Run Nat := do
  match words with
  | [] => pure ()
  | w :: _ =>
    let n ← count w
    modify fun s => { s with status := n }
  throw .over

def goBack (words : List Text) : Run Nat := do
  match words with
  | [] => pure ()
  | w :: _ =>
    let n ← count w
    modify fun s => { s with status := n }
  throw .returned

/-- `break` and `continue` -/
def unwind (again : Bool) (words : List Text) : Run Nat := do
  let n ← match words with
    | [] => pure 1
    | w :: _ => count w
  if n = 0 then fail ("Illegal number: ".toList ++ words.headD [])
  let loops := (← get).loops
  if loops = 0 then return 0
  modify fun s => { s with status := 0 }
  throw (.unwound (min n loops) again)

/-! ## Names of commands -/

/-- the builtin commands that functions can take the place of -/
def regulars : List Text :=
  ["[", "alias", "bg", "cd", "chdir", "command", "echo", "false", "fg", "getopts", "hash", "jobs", "kill", "printf",
    "pwd", "read", "test", "true", "type", "ulimit", "umask", "unalias", "wait"].map (·.toList)

/-- the words with a meaning of their own -/
def reserved : List Text :=
  ["!", "case", "do", "done", "elif", "else", "esac", "fi", "for", "if", "in", "then", "until", "while", "\x7b",
    "\x7d"].map (·.toList)

/-- waits for commands in the background, which are over by then -/
def wait (words : List Text) : Run Nat := do
  match words with
  | [] => return 0
  | w :: _ =>
    let n ← count w
    match (← get).background with
    | some status => return if n = (← get).process + 1 then status else 127
    | none => return 127

/-! ## Names for texts -/

/-- the place of a name among those for texts, by which they are listed -/
def placeOf (name : Text) : Nat := (name.foldl (fun n c => n + c.toNat) ((name.headD '\x00').toNat * 16)) % 39

/-- a name for a text as it is listed -/
def aliasLine (a : Text × Text) : Text := a.1 ++ '=' :: singleQuoted a.2 ++ ['\n']

def addAliases (words : List Text) : Run Nat := do
  if words.isEmpty then
    return ← print (((← get).aliases.mergeSort fun a b => placeOf a.1 ≤ placeOf b.1).flatMap aliasLine)
  let mut code := 0
  for w in words do
    let name := w.take 1 ++ (w.drop 1).takeWhile (· ≠ '=')
    let s ← get
    match w.drop name.length, s.aliases.lookup name with
    | _ :: value, none => set { s with aliases := s.aliases ++ [(name, value)] }
    | _ :: value, some _ =>
      let changed (a : Text × Text) : Text × Text := if a.1 = name then (name, value) else a
      set { s with aliases := s.aliases.map changed }
    | [], some value => let _ ← print (aliasLine (name, value))
    | [], none =>
      let _ ← write 2 ("alias: ".toList ++ name ++ " not found\n".toList)
      code := 1
  return code

def dropAliases (words : List Text) : Run Nat := do
  let (chosen, words) ← options ['a'] [] words
  if chosen.contains 'a' then
    modify fun s => { s with aliases := [] }
    return 0
  let mut code := 0
  for name in words do
    let s ← get
    if (s.aliases.lookup name).isSome then set { s with aliases := s.aliases.filter (·.1 ≠ name) }
    else
      let _ ← write 2 ("unalias: ".toList ++ name ++ " not found\n".toList)
      code := 1
  return code

/-! ## Options of a script -/

/-- what a look at the next option finds: the letter that the variable gets, the value that goes with it if there is any
change of it, whether the options are over, and where to go on -/
structure Found where
  letter : Char
  value : Option (Option Text)
  finished : Bool
  next : Nat × Option Nat
  complaint : Option Text

/-- the next option among arguments: `spec` holds the letters, with a colon after those that have a value and one in front
if nothing is to be complained about -/
def nextOption (spec : Text) (args : List Text) (scan : Nat × Option Nat) : Found :=
  let (index, place) := scan
  let left : Text := match place with
    | some n => if index ≤ 1 then [] else ((args[index - 2]?).getD []).drop n
    | none => []
  let quiet := spec.head? = some ':'
  let fresh : Option (Text × Nat) := match args[index - 1]? with
    | some ('-' :: c :: rest) => some (c :: rest, index + 1)
    | _ => none
  match if left.isEmpty then fresh else some (left, index) with
  | none | some ([], _) => ⟨'?', none, true, (index, none), none⟩
  | some (c :: rest, index) =>
    if left.isEmpty && c = '-' && rest.isEmpty then ⟨'?', none, true, (index, none), none⟩
    else
      let here : Option Nat :=
        if rest.isEmpty then none else some (((args[index - 2]?).getD []).length - rest.length)
      let rec known : Text → Option Bool
        | [] => none
        | d :: spec =>
          if d = c then some (spec.head? = some ':')
          else match spec with
            | ':' :: spec => known spec
            | spec => known spec
      match known spec with
      | none =>
        if quiet then ⟨'?', some (some [c]), false, (index, here), none⟩
        else ⟨'?', some none, false, (index, here), some ("Illegal option -".toList ++ [c])⟩
      | some false => ⟨c, some (some []), false, (index, here), none⟩
      | some true =>
        if !rest.isEmpty then ⟨c, some (some rest), false, (index, none), none⟩
        else match args[index - 1]? with
          | some value => ⟨c, some (some value), false, (index + 1, none), none⟩
          | none =>
            if quiet then ⟨':', some (some [c]), false, (index, none), none⟩
            else ⟨'?', some none, false, (index, none), some ("No arg for -".toList ++ c :: " option".toList)⟩

def getopts (words : List Text) : Run Nat := do
  let (_, words) ← options [] [] words
  match words with
  | spec :: name :: args =>
    let s ← get
    let args := if args.isEmpty then s.arguments else args
    let found := nextOption spec args (if s.scan.1 > args.length + 1 then (1, none) else s.scan)
    match found.complaint with
    | some words => let _ ← write 2 (words ++ ['\n'])
    | none => pure ()
    match found.value with
    | some (some value) => assign "OPTARG".toList value
    | some none => modify fun s => s.drop "OPTARG".toList
    | none => pure ()
    assign "OPTIND".toList (Text.ofNat found.next.1)
    modify fun s => { s with scan := found.next }
    if !isName name then fail (name ++ ": bad variable name".toList)
    assign name [found.letter]
    return if found.finished then 1 else 0
  | _ => fail "Usage: getopts optstring var [arg...]".toList

/-! ## What files are made without -/

/-- the digits of a mask: what the owner, the group and the others are denied -/
def octal (mask : Nat) : List Nat := [mask / 64 % 8, mask / 8 % 8, mask % 8]

/-- a mask from a mode in words, one clause after the other: who, and what is added, removed or set -/
def masked? (mask : Nat) (mode : Text) : Option Nat :=
  (Text.splitAt ',' mode).foldl (fun mask clause => mask.bind fun mask =>
    let who := clause.takeWhile "ugoa".toList.contains
    match clause.drop who.length with
    | sign :: what =>
      if !"+-=".toList.contains sign || !what.all "rwxXst".toList.contains then none
      else
        let bit (c : Char) : Nat := if c = 'r' then 4 else if c = 'w' then 2 else if c = 'x' then 1 else 0
        let bits := what.foldl (fun n c => n ||| bit c) 0
        let at? (c : Char) (denied : Nat) : Nat :=
          if who.isEmpty || who.contains c || who.contains 'a' then
            if sign = '+' then denied &&& (7 - bits) else if sign = '-' then denied ||| bits else 7 - bits
          else denied
        some (match octal mask with
          | [u, g, o] => at? 'u' u * 64 + at? 'g' g * 8 + at? 'o' o
          | _ => mask)
    | [] => none) (some mask)

def umask (words : List Text) : Run Nat := do
  let (chosen, words) ← options ['S'] [] words
  let mask := (← get).mask
  match words with
  | [] =>
    let granted (n : Nat) : Text :=
      (if n &&& 4 = 0 then ['r'] else []) ++ (if n &&& 2 = 0 then ['w'] else []) ++ if n &&& 1 = 0 then ['x'] else []
    if chosen.contains 'S' then
      print (Text.join [','] ((['u', 'g', 'o'].zip (octal mask)).map fun (c, n) => c :: '=' :: granted n) ++ ['\n'])
    else print ('0' :: (octal mask).flatMap Text.ofNat ++ ['\n'])
  | mode :: _ =>
    if (mode.headD ' ').isDigit then
      if !mode.all (fun c => '0' ≤ c && c ≤ '7') then fail ("Illegal number: ".toList ++ mode)
      let n := mode.foldl (fun n c => n * 8 + (c.toNat - '0'.toNat)) 0
      modify fun s => { s with mask := n % 512 }
    else
      match masked? mask mode with
      | some n => modify fun s => { s with mask := n }
      | none => fail ("Illegal mode: ".toList ++ mode)
    return 0

/-- commands in the background are over by the time they are asked for -/
def jobless (words : List Text) : Run Nat := do
  match words with
  | [] => fail "No current job".toList
  | w :: _ => fail ("No such job: ".toList ++ w)

/-- a builtin command by its name, with the words after it -/
def run? (name : Text) : Option (List Text → Run Nat) :=
  match String.ofList name with
  | ":" | "true" | "jobs" | "ulimit" => some fun _ => return 0
  | "false" => some fun _ => return 1
  | "echo" => some fun words => print (Printing.echoed words)
  | "printf" => some printf
  | "test" => some (test false)
  | "[" => some (test true)
  | "pwd" => some pwd
  | "cd" | "chdir" => some cd
  | "export" => some (marking "export" (·.exported) fun v => { v with exported := true })
  | "readonly" => some (marking "readonly" (·.fixed) fun v => { v with fixed := true })
  | "local" => some localVariables
  | "unset" => some unset
  | "set" => some setting
  | "shift" => some shift
  | "read" => some read
  | "exit" => some exit
  | "return" => some goBack
  | "break" => some (unwind false)
  | "continue" => some (unwind true)
  | "trap" => some fun words => do Signals.trap (← options [] [] words).2
  | "kill" => some Signals.kill
  | "wait" => some wait
  | "umask" => some umask
  | "alias" => some addAliases
  | "unalias" => some dropAliases
  | "getopts" => some getopts
  | "bg" | "fg" => some jobless
  | "times" => some fun _ => print "0m0.000000s 0m0.000000s\n0m0.000000s 0m0.000000s\n".toList
  | _ => none

end Componentry.Shell.Builtins
