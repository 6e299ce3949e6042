/-
Running scripts: commands put together from others, redirections, functions, pipelines and subshells.

Every step runs on fuel, which bounds how deeply steps are nested in each other; a script that uses it up is over.
`launch` runs a shell from the words it is called with.
-/
import Componentry.Shell.Script.Reading
import Componentry.Shell.Tools

namespace Componentry.Shell

/-- runs something and says why it was cut short, if it was -/
def attempt (act : Run Unit) : Run (Option Halt) :=
  tryCatch (do act; return none) fun h => return some h

/-- gives the status that commands have left -/
def status : Run Nat := do return (← get).status

/-- leaves a status -/
def leave (n : Nat) : Run Unit := modify fun s => { s with status := n }

/-! ## Redirections -/

/-- a redirection with its words expanded -/
inductive Redirected where
  | file (stream : Nat) (opening : Opening) (path : Text)
  | copy (stream source : Nat)
  | close (stream : Nat)
  | text (stream : Nat) (w : Word)

/-- the reason a file cannot be opened -/
def openWords (missing : String) : FileTree.Cause → Text
  | .noEntry | .notDirectory => missing.toList
  | cause => Tools.because cause

/-- opens a file; a file that output goes to is emptied unless the output is added to it -/
def openFile (opening : Opening) (path : Text) : Run (Except Text Channel) := do
  if path = "/dev/null".toList then return .ok .nowhere
  let s ← get
  let cannot (words : String) (cause : FileTree.Cause) : Except Text Channel :=
    let missing := if opening = .input then "No such file" else "Directory nonexistent"
    .error (words.toList ++ path ++ ": ".toList ++ openWords missing cause)
  if opening = .input then
    match s.tree.lookSpelled (gathered path), s.tree.locate (.ofText (gathered path)) with
    | .ok _, .ok l => return .ok (.file l 0 .input)
    | .error cause, _ | .ok _, .error cause => return cannot "cannot open " cause
  else
    match ← Tools.placeFor path with
    | .error cause =>
      return cannot "cannot create " (if FileTree.asksForDir path && cause = .notDirectory then .isDirectory else cause)
    | .ok l =>
      let there := (s.tree.get? l).isSome
      if opening = .output && s.isOn 'C' && there then return cannot "cannot create " .occupied
      else
        if !there || opening = .output || opening = .forced then
          set { s with tree := s.tree.set l (.file []) }
        return .ok (.file l 0 opening)

/-- carries out redirections from left to right, texts in the script being expanded on the way; one that cannot be carried
out ends them with a message -/
def redirect (output : Command → Run Text) : List Redirected → Run Bool
  | [] => return true
  | .close stream :: rest => do
    modify fun s => s.connect stream none
    redirect output rest
  | .copy stream source :: rest => do
    match (← get).channel? source with
    | some c =>
      modify fun s => s.connect stream (some c)
      redirect output rest
    | none =>
      complain (Text.ofNat source ++ ": Bad file descriptor".toList)
      return false
  | .text stream w :: rest => do
    let expanded ← tryCatch (some <$> Expansion.document output w) fun h => do
      match h with
      | .failed => return none
      | h => throw h
    match expanded with
    | none => return false
    | some t =>
      let (s, n) := (← get).opened (.source t)
      set (s.connect stream (some n))
      redirect output rest
  | .file stream opening path :: rest => do
    let again := [("/dev/stdin", 0), ("/dev/stdout", 1), ("/dev/stderr", 2)].find? fun d => d.1.toList = path
    match again with
    | some (_, source) =>
      let c := (← get).channel? source
      modify fun s => s.connect stream c
      redirect output rest
    | none =>
      match ← openFile opening path with
      | .ok c =>
        let (s, n) := (← get).opened c
        set (s.connect stream (some n))
        redirect output rest
      | .error words =>
        complain words
        return false

/-- the words of redirections, expanded -/
def expanded (output : Command → Run Text) : List Redirection → Run (List Redirected)
  | [] => return []
  | r :: rest => do
    let first : Redirected ← match r with
      | .file stream opening path => pure (.file stream opening (← Expansion.text output path))
      | .document stream n =>
        match (← get).documents.lookup n with
        | some w => pure (.text stream w)
        | none => pure (.text stream [])
      | .copy stream source =>
        match ← Expansion.text output source with
        | ['-'] => pure (.close stream)
        | [c] => if c.isDigit then pure (.copy stream (c.toNat - '0'.toNat)) else fail "Syntax error: Bad fd number".toList
        | _ => fail "Syntax error: Bad fd number".toList
    return first :: (← expanded output rest)

/-- runs something with redirections, after which the streams are as before; whether they could be carried out -/
def withStreams (output : Command → Run Text) (rs : List Redirected) (act : Run Unit) : Run Bool := do
  let before := (← get).streams
  if ← redirect output rs then
    let halt ← attempt act
    modify fun s => { s with streams := before }
    match halt with
    | some h => throw h
    | none => return true
  else
    modify fun s => { s with streams := before }
    return false

/-! ## What a name stands for -/

/-- what a command's name stands for -/
inductive Meaning where
  | nothing
  | builtin (special : Bool)
  | function (body : Command)
  | outside

/-- the builtin commands that run others -/
def movers : List Text := ["eval", ".", "exec", "command", "type", "hash"].map (·.toList)

/-- what the first word of a command stands for; `plain` leaves functions out -/
def meaning (s : State) (plain : Bool) : List Text → Meaning
  | [] => .nothing
  | name :: _ =>
    if specials.contains name then .builtin true
    else match if plain then none else s.functions.lookup name with
      | some body => .function body
      | none => if (Builtins.run? name).isSome || movers.contains name then .builtin false else .outside

/-- the directories where commands are looked up if nothing else is said -/
def directories : Text := "/usr/local/bin:/usr/local/sbin:/usr/sbin:/usr/bin:/sbin:/bin".toList

/-- words without `command` in front, whether it was there, and whether commands are then looked up in the usual
directories -/
def uncommanded : List Text → Bool × Bool × List Text
  | w :: rest =>
    if w = "command".toList then
      match rest with
      | ['-', '-'] :: rest => let (_, usual, words) := uncommanded rest; (true, usual, words)
      | ['-', 'p'] :: rest => let (_, _, words) := uncommanded rest; (true, true, words)
      | ('-' :: c :: more) :: rest => (false, false, w :: ('-' :: c :: more) :: rest)
      | rest => let (_, usual, words) := uncommanded rest; (true, usual, words)
    else (false, false, w :: rest)
  | [] => (false, false, [])

/-- a program outside the shell: a command by its name, or a script at a path -/
inductive Program where
  | named (name : Text)
  | script (path content : Text)

/-- the program at a path -/
def programAt (s : State) (path : Text) : Except FileTree.Cause Program :=
  match Tools.nameIn? path with
  | some name =>
    if Tools.isKnown name then .ok (.named name)
    else if name.all (· = '.') && name.length < 3 then .error .denied
    else if name.length > FileTree.nameLimit then .error .nameTooLong
    else .error .noEntry
  | none =>
    match s.tree.lookSpelled (gathered path), s.tree.locate (.ofText (gathered path)) with
    | .ok (.file content), .ok l => if s.runnable.contains l then .ok (.script path (ofBytes content)) else .error .denied
    | .ok _, _ => .error .denied
    | .error cause, _ => .error cause

/-- the paths that a name without a slash can stand for -/
def candidates (s : State) (name : Text) : List Text :=
  (Text.splitAt ':' ((s.value? "PATH".toList).getD "/dev/null".toList)).map fun dir =>
    if dir.isEmpty then name else dir ++ '/' :: name

/-- the first program among the paths that a name can stand for, with its path -/
def search (s : State) (name : Text) : Except FileTree.Cause (Text × Program) :=
  (candidates s name).foldl (fun found path =>
    match found, programAt s path with
    | .ok p, _ => .ok p
    | .error _, .ok p => .ok (path, p)
    | .error cause, .error .noEntry | .error cause, .error .notDirectory => .error cause
    | .error _, .error cause => .error cause) (.error .noEntry)

/-- the program that a name or path leads to, or the status and the words for why there is none -/
def program (s : State) (name : Text) : Except (Nat × Text) Program :=
  if name.contains '/' then
    match programAt s name with
    | .ok p => .ok p
    | .error cause => .error (if cause = .denied then 126 else 127, openWords "not found" cause)
  else
    match search s name with
    | .ok (_, p) => .ok p
    | .error cause => .error (127, openWords "not found" cause)

/-- the program that a name leads to if it is looked up in the usual directories -/
def programUsually (s : State) (name : Text) : Except (Nat × Text) Program :=
  program (s.put "PATH".toList ⟨some directories, false, false⟩) name

/-- what a name stands for, in the words of `type`, or in short; none for nothing -/
def described (s : State) (full : Bool) (name : Text) : Option Text :=
  let say (words : String) : Option Text := some (if full then name ++ words.toList else name)
  if Builtins.reserved.contains name then say " is a shell keyword"
  else if let some t := s.aliases.lookup name then
    some (if full then name ++ " is an alias for ".toList ++ t
      else "alias ".toList ++ name ++ '=' :: singleQuoted t)
  else if specials.contains name then say " is a special shell builtin"
  else if (s.functions.lookup name).isSome then say " is a shell function"
  else if (Builtins.run? name).isSome || movers.contains name then say " is a shell builtin"
  else
    let found (path : Text) : Option Text := some (if full then name ++ " is ".toList ++ path else path)
    if name.contains '/' then
      match s.tree.lookSpelled (gathered name) with
      | .ok _ => found name
      | .error _ => if (Tools.nameIn? name).any Tools.isKnown then found name else none
    else match search s name with
      | .ok (path, _) => found path
      | .error _ => none

/-- says what names stand for -/
def tell (full : Bool) (names : List Text) : Run Nat := do
  let mut code := 0
  for name in names do
    match described (← get) full name with
    | some t => let _ ← write 1 (t ++ ['\n'])
    | none =>
      if full then let _ ← write 1 (name ++ ": not found\n".toList)
      code := 127
  return code

/-- says which names stand for nothing -/
def missing (names : List Text) : Run Nat := do
  let mut code := 0
  for name in names do
    let s ← get
    if !name.contains '/' && (described s false name).isNone then
      match search s name with
      | .ok _ => pure ()
      | .error cause =>
        complain (name ++ ": ".toList ++ openWords "not found" cause)
        code := 1
  return code

/-- the variables that a shell starts with -/
def inherited (s : State) : List (Text × Variable) :=
  s.exported.map fun (name, value) => (name, ⟨some value, true, false⟩)

/-- the variables that every shell has -/
def initial : List (Text × Variable) :=
  [("IFS", " \t\n"), ("OPTIND", "1"), ("PS1", "# "), ("PS2", "> "), ("PS4", "+ ")].map fun (name, value) =>
    (name.toList, ⟨some value.toList, false, false⟩)

/-- the words between blanks of a text, quotes and backslashes read; the fuel is its length -/
def argumentsOf : Nat → Option Text → Text → List Text
  | 0, word, _ | _, word, [] => (word.map List.reverse).toList
  | fuel + 1, word, c :: rest =>
    if c = ' ' || c = '\t' || c = '\n' then (word.map List.reverse).toList ++ argumentsOf fuel none rest
    else if c = '\'' || c = '"' then
      let inside := rest.takeWhile (· ≠ c)
      argumentsOf fuel (some (inside.reverse ++ word.getD [])) (rest.drop (inside.length + 1))
    else match c, rest with
      | '\\', d :: rest => argumentsOf fuel (some (d :: word.getD [])) rest
      | c, rest => argumentsOf fuel (some (c :: word.getD [])) rest

/-! ## Commands -/

/-- part of a turn of a loop: whether it was cut short, and then whether the loop goes on with the next turn -/
def turn (act : Run Unit) : Run (Option Bool) := do
  match ← attempt act with
  | none => return none
  | some (.unwound levels again) =>
    if levels ≤ 1 then return some again
    else
      modify fun s => { s with loops := s.loops - 1 }
      throw (.unwound (levels - 1) again)
  | some h => throw h

/-- gives the variables bound last what they were before -/
def release : Run Unit :=
  modify fun s =>
    match s.bound with
    | [] => s
    | frame :: frames =>
      let restored := frame.foldl (fun (s : State) (name, v) =>
        match v with
        | some v => s.put name v
        | none => s.drop name) s
      { restored with bound := frames }

mutual

/-- runs a command; `tested` says that its failure is looked at by another one -/
def eval : Nat → Bool → Command → Run Unit
  | 0, _, _ => throw .over
  | fuel + 1, tested, c => do
    let s ← get
    let check : Run Unit := do
      let s ← get
      if s.isOn 'e' && !tested && s.status ≠ 0 then throw .over
    if s.isOn 'n' then return
    match c with
    | .nothing => return
    | .simple line assignments words rs =>
      simple fuel tested line assignments words rs
      check
    | .inverted c =>
      eval fuel true c
      leave (if (← status) = 0 then 1 else 0)
    | .piped cs =>
      piped fuel none cs
      check
    | .ifOk a b =>
      eval fuel true a
      if (← status) = 0 then eval fuel tested b
    | .ifFailed a b =>
      eval fuel true a
      if (← status) ≠ 0 then eval fuel tested b
    | .next a b =>
      eval fuel tested a
      eval fuel tested b
    | .background line c =>
      modify fun s => { s with line := line }
      enclosed fuel (eval fuel false c)
      let n ← status
      modify fun s => { s with background := some n, status := 0 }
    | .redirected line c rs =>
      modify fun s => { s with line := line }
      let rs ← expanded (outputOf fuel) rs
      if !(← withStreams (outputOf fuel) rs (eval fuel tested c)) then
        leave 2
        check
    | .subshell line c rs =>
      modify fun s => { s with line := line }
      let rs ← expanded (outputOf fuel) rs
      enclosed fuel do
        if !(← withStreams (outputOf fuel) rs (eval fuel tested c)) then leave 2
      check
    | .choice condition yes no =>
      eval fuel true condition
      if (← status) = 0 then
        if yes.isSome then eval fuel tested yes
      else if no.isSome then eval fuel tested no
      else leave 0
    | .loop whileOk condition body =>
      modify fun s => { s with loops := s.loops + 1 }
      repeated fuel tested whileOk condition body 0
      modify fun s => { s with loops := s.loops - 1 }
    | .each line name words body =>
      modify fun s => { s with line := line }
      let values ← Expansion.allFields (outputOf fuel) words
      modify fun s => { s with loops := s.loops + 1 }
      leave 0
      forEach fuel tested name values body
      modify fun s => { s with loops := s.loops - 1 }
    | .select line word branches =>
      modify fun s => { s with line := line }
      let t ← Expansion.text (outputOf fuel) word
      leave 0
      select fuel tested t branches
    | .define name body =>
      modify fun s => { s with functions := (name, body) :: s.functions.filter fun x => x.1 ≠ name, status := 0 }
    heed fuel

/-- looks for signals that have come: each is caught by a command, or ends the shell, or does nothing -/
def heed : Nat → Run Unit
  | 0 => return
  | fuel + 1 => do
    let s ← get
    if s.apart then return
    match s.due.find? fun d => d.1 = s.process with
    | none => return
    | some (process, signal) =>
      set { s with due := s.due.erase (process, signal) }
      match if Signals.canBeCaught signal then s.traps.lookup signal else none with
      | some action =>
        script fuel false false action
        leave s.status
      | none => if !Signals.isHarmless signal then throw (.killed signal)
      heed fuel

/-- the turns of a loop while its condition holds, or until it does; the status is that of the last turn -/
def repeated : Nat → Bool → Bool → Command → Command → Nat → Run Unit
  | 0, _, _, _, _, _ => throw .over
  | fuel + 1, tested, whileOk, condition, body, last => do
    match ← turn (eval fuel true condition) with
    | some true => repeated fuel tested whileOk condition body last
    | some false => leave 0
    | none =>
      if ((← status) = 0) != whileOk then leave last
      else
        match ← turn (eval fuel tested body) with
        | some false => pure ()
        | _ => repeated fuel tested whileOk condition body (← status)

/-- the turns of a loop over values -/
def forEach : Nat → Bool → Text → List Text → Command → Run Unit
  | 0, _, _, _, _ => throw .over
  | _ + 1, _, _, [], _ => return
  | fuel + 1, tested, name, value :: rest, body => do
    assign name value
    match ← turn (eval fuel tested body) with
    | some false => return
    | _ => forEach fuel tested name rest body

/-- the first branch that has a pattern which covers a text -/
def select : Nat → Bool → Text → List (List Word × Command) → Run Unit
  | 0, _, _, _ => throw .over
  | _ + 1, _, _, [] => return
  | fuel + 1, tested, t, (patterns, body) :: rest => do
    let mut covered := false
    for w in patterns do
      if !covered then covered := Glob.covers (← Expansion.pattern (outputOf fuel) w) t
    if covered then eval fuel tested body else select fuel tested t rest

/-- runs something on a copy of the shell, of which only the status comes back; a shell that a signal ends is spoken of -/
def enclosed : Nat → Run Unit → Run Unit
  | 0, _ => throw .over
  | fuel + 1, act => do
    let before ← get
    set { before with traps := before.traps.filter (·.2.isEmpty), apart := true }
    match ← attempt act with
    | some (.killed signal) =>
      let copy ← get
      set { before.after copy with status := 128 + signal }
      match Signals.words? signal with
      | some words => let _ ← write 2 (words ++ ['\n'])
      | none => pure ()
    | _ =>
      sayFarewell fuel
      let copy ← get
      set { before.after copy with status := copy.status }

/-- runs what a shell runs when it is over; its status does not count unless it leaves itself -/
def sayFarewell : Nat → Run Unit
  | 0 => return
  | fuel + 1 => do
    let s ← get
    match s.traps.lookup 0 with
    | none => return
    | some action =>
      set (s.catching 0 none)
      match ← attempt (script fuel false false action) with
      | some .over => return
      | some (.killed signal) => throw (.killed signal)
      | _ => leave s.status

/-- what a command writes -/
def outputOf : Nat → Command → Run Text
  | 0, _ => throw .over
  | fuel + 1, c => do
    let before ← get
    let (s, n) := before.opened (.sink [])
    set s
    enclosed fuel do
      modify fun s => s.connect 1 (some n)
      eval fuel false c
    let s ← get
    set { s with given := s.status, status := before.status }
    match s.channels[n]? with
    | some (.sink t) => return t
    | _ => return []

/-- commands of which each reads what the one before has written -/
def piped : Nat → Option Text → List Command → Run Unit
  | 0, _, _ => throw .over
  | _ + 1, _, [] => return
  | fuel + 1, input, c :: rest => do
    let s ← get
    let (s, source) := s.opened (.source (input.getD []))
    let (s, sink) := s.opened (.sink [])
    set s
    enclosed fuel do
      if input.isSome then modify fun s => s.connect 0 (some source)
      if !rest.isEmpty then modify fun s => s.connect 1 (some sink)
      eval fuel false c
    if !rest.isEmpty then
      match (← get).channels[sink]? with
      | some (.sink t) => piped fuel (some t) rest
      | _ => piped fuel (some []) rest

/-- the fields of a command's words; after the name of a command that marks variables, a word that assigns is one -/
def commandWords : Nat → List Text → List Word → Run (List Text)
  | 0, _, _ => throw .over
  | _ + 1, found, [] => return found
  | fuel + 1, found, w :: rest => do
    let marking := (uncommanded found).2.2.head?.any ["export".toList, "readonly".toList, "local".toList].contains
    match if marking then Reader.assignment? w else none with
    | some (name, value) =>
      let t ← Expansion.text (outputOf fuel) value
      commandWords fuel (found ++ [name ++ '=' :: t]) rest
    | none => commandWords fuel (found ++ (← Expansion.fields (outputOf fuel) w)) rest

/-- a simple command: its words are expanded, then its redirections carried out, then its variables assigned -/
def simple : Nat → Bool → Nat → List (Text × Word) → List Word → List Redirection → Run Unit
  | 0, _, _, _, _, _ => throw .over
  | fuel + 1, tested, line, assignments, words, rs => do
    modify fun s => { s with line := line, given := 0 }
    let all ← commandWords fuel [] words
    let (plain, usual, words) := uncommanded all
    let means := meaning (← get) plain words
    let special := match means with | .builtin special => special && !plain | _ => false
    let before := (← get).streams
    let rs ← expanded (outputOf fuel) rs
    if !(← redirect (outputOf fuel) rs) then
      modify fun s => { s with streams := before, status := 2 }
      if special then throw .failed else return
    let kept := special || words.isEmpty
    if !kept then modify fun s => { s with bound := [] :: s.bound }
    let mut traced : List Text := []
    for (name, w) in assignments do
      let t ← Expansion.text (outputOf fuel) w
      traced := traced ++ [name ++ '=' :: t]
      if !kept then Builtins.bind name
      assign name t
      if !kept then
        modify fun s => s.put name { (s.bindings.lookup name).getD ⟨none, true, false⟩ with exported := true }
    if (← get).isOn 'x' then
      let now := (← get).streams
      modify fun s => { s with streams := before }
      let _ ← write 2 ("+ ".toList ++ Text.join [' '] (traced ++ all) ++ ['\n'])
      modify fun s => { s with streams := now }
    let halt ← attempt (match means, words with
      | .nothing, _ => do leave (← get).given
      | .builtin _, name :: args => builtin fuel tested special name args
      | .function body, _ :: args => call fuel tested args body
      | .outside, name :: args => outside fuel usual name args
      | _, [] => leave 0)
    if !kept then release
    let lasting := words = ["exec".toList] && halt.isNone
    if !lasting then modify fun s => { s with streams := before }
    match halt with
    | some h => throw h
    | none => return

/-- runs a function with arguments -/
def call : Nat → Bool → List Text → Command → Run Unit
  | 0, _, _, _ => throw .over
  | fuel + 1, tested, args, body => do
    let before ← get
    set { before with arguments := args, loops := 0, bound := [] :: before.bound, scan := (1, none) }
    let halt ← attempt (eval fuel tested body)
    release
    modify fun s => { s with arguments := before.arguments, loops := before.loops, scan := before.scan }
    match halt with
    | none | some .returned => return
    | some h => throw h

/-- runs a builtin command; its failure ends the script only if it is special -/
def builtin : Nat → Bool → Bool → Text → List Text → Run Unit
  | 0, _, _, _, _ => throw .over
  | fuel + 1, tested, special, name, args => do
    let label := (← get).label
    modify fun s => { s with label := some name }
    let halt ← attempt (match String.ofList name with
      | "eval" => script fuel tested false (Text.join [' '] args)
      | "." => source fuel args
      | "exec" => replaced fuel args
      | "command" => do
        match args with
        | ['-', 'v'] :: names => leave (← tell false (names.take 1))
        | ['-', 'V'] :: names => leave (← tell true (names.take 1))
        | ('-' :: c :: _) :: _ => fail ("Illegal option -".toList ++ [c])
        | _ => leave 0
      | "type" => do leave (← tell true args)
      | "hash" => do leave (← missing args)
      | _ => do
        match Builtins.run? name with
        | some run => leave (← run args)
        | none => leave 0)
    modify fun s => { s with label := label }
    match halt with
    | none => return
    | some .failed => if special then throw .failed else return
    | some h => throw h

/-- runs the script in a file as part of this one -/
def source : Nat → List Text → Run Unit
  | 0, _ => throw .over
  | fuel + 1, args => do
    match args with
    | [] => return
    | path :: _ =>
      let s ← get
      let isFile (path : Text) : Bool := match s.tree.lookSpelled (gathered path) with
        | .ok (.file _) => true
        | _ => false
      let path ← if path.contains '/' then pure path
        else match (candidates s path).find? isFile with
          | some found => pure found
          | none => fail (path ++ ": not found".toList)
      match ← openFile .input path with
      | .error words => fail words
      | .ok channel =>
        let text := ((← get).readable channel).getD []
        let label := (← get).label
        modify fun s => { s with label := some path }
        let halt ← attempt (script fuel false true text)
        modify fun s => { s with label := label }
        match halt with
        | none | some .returned => return
        | some h => throw h

/-- runs a program in place of this shell -/
def replaced : Nat → List Text → Run Unit
  | 0, _ => throw .over
  | fuel + 1, args => do
    match args with
    | [] => leave 0
    | name :: args =>
      match program (← get) name with
      | .ok p =>
        modify fun s => s.catching 0 none
        perform fuel name p args
        heed fuel
        throw .over
      | .error (n, words) =>
        complain (name ++ ": ".toList ++ words)
        leave n
        throw .over

/-- runs a command outside the shell, looked up in the usual directories or where the shell says -/
def outside : Nat → Bool → Text → List Text → Run Unit
  | 0, _, _, _ => throw .over
  | fuel + 1, usual, name, args => do
    let s ← get
    match if usual then programUsually s name else program s name with
    | .ok p => perform fuel name p args
    | .error (n, words) =>
      complain (name ++ ": ".toList ++ words)
      leave n

/-- runs a program -/
def perform : Nat → Text → Program → List Text → Run Unit
  | 0, _, _, _ => throw .over
  | fuel + 1, spelled, p, args => do
    match p with
    | .script path content =>
      let first := content.takeWhile (· ≠ '\n')
      let options := if "#!".toList.isPrefixOf first then
          ((argumentsOf first.length none (first.drop 2)).drop 1).filter fun w => w ≠ "sh".toList
        else []
      enclosed fuel (launch fuel path (options ++ path :: args))
    | .named name =>
      let before := (← get).called
      modify fun s => { s with called := spelled }
      match Tools.find? name with
      | some tool => leave (← tool args)
      | none =>
        match String.ofList name with
        | "sh" | "dash" => enclosed fuel (launch fuel spelled args)
        | "env" => enclosed fuel (inEnvironment fuel args)
        | "which" => leave (← Tools.which args)
        | "xargs" =>
          let t := (← readAll 0).getD []
          let args := args.filter fun w => w ≠ ['-', '0'] && w ≠ ['-', 'r']
          let words := argumentsOf t.length none (t.map fun c => if c = '\x00' then '\n' else c)
          match args with
          | [] => runOther fuel false ("echo".toList :: words)
          | args => runOther fuel false (args ++ words)
          let n ← status
          if 0 < n && n < 126 then leave 123
        | _ => runOther fuel true args
      modify fun s => { s with called := before }

/-- runs a program for another one, which says so if there is none, its name being marked or not -/
def runOther : Nat → Bool → List Text → Run Unit
  | 0, _, _ => throw .over
  | fuel + 1, marked, args => do
    match args with
    | [] => leave 0
    | name :: args =>
      let s ← get
      let found := if (s.value? "PATH".toList).isSome then program s name else programUsually s name
      match found with
      | .ok p => perform fuel name p args
      | .error (n, _) =>
        let words := if n = 126 then Tools.because .denied else Tools.because .noEntry
        Tools.warn ((if marked then Tools.marked name else name) ++ ": ".toList ++ words)
        leave n

/-- changes the variables that commands get to see, and runs a command or lists them -/
def inEnvironment : Nat → List Text → Run Unit
  | 0, _ => throw .over
  | fuel + 1, args => do
    match args with
    | ['-', 'i'] :: rest | ['-'] :: rest =>
      modify fun s => { s with bindings := [] }
      inEnvironment fuel rest
    | ['-', 'u'] :: name :: rest =>
      modify fun s => s.drop name
      inEnvironment fuel rest
    | ['-', '-'] :: rest => inEnvironment fuel rest
    | [] =>
      let vs := (← get).exported
      let _ ← write 1 (vs.flatMap fun (name, value) => name ++ '=' :: value ++ ['\n'])
      leave 0
    | w :: rest =>
      if w.contains '=' then
        let (name, value) := Builtins.named w
        modify fun s => s.put name ⟨value, true, false⟩
        inEnvironment fuel rest
      else runOther fuel true (w :: rest)

/-- runs the text of a script, the status being zero if it holds no command; one from a file is shown as it is read if
an option asks for it -/
def script : Nat → Bool → Bool → Text → Run Unit
  | 0, _, _, _ => throw .over
  | fuel + 1, tested, fromFile, t => lines fuel tested fromFile (Reader.ofText t [] 0) false

/-- runs the logical lines of a script one after the other -/
def lines : Nat → Bool → Bool → Reader → Bool → Run Unit
  | 0, _, _, _, _ => throw .over
  | fuel + 1, tested, fromFile, before, ran => do
    let s ← get
    let shown (t : Text) : Run Unit := do
      if fromFile && s.isOn 'v' then let _ ← write 2 t
    match Reader.line?.run { before with documents := s.documents, issued := s.issued, aliases := s.aliases } with
    | .error m =>
      shown before.rest
      modify fun s => { s with line := m.line }
      fail ("Syntax error: ".toList ++ m.words)
    | .ok (c, r) =>
      shown (before.rest.take (before.rest.length - r.rest.length))
      modify fun s => { s with documents := r.documents, issued := r.issued }
      match c with
      | none => if !ran then leave 0
      | some c =>
        if c.isSome then eval fuel tested c
        lines fuel tested fromFile r (ran || c.isSome)

/-- runs a shell from the words after its name, in place of what the state holds of another one -/
def launch : Nat → Text → List Text → Run Unit
  | 0, _, _ => throw .over
  | fuel + 1, name, words => do
    modify fun s =>
      { s with
        bindings := initial ++ inherited s
        functions := []
        arguments := []
        name := name
        label := none
        line := 0
        status := 0
        options := []
        loops := 0
        bound := []
        traps := s.traps.filter (·.2.isEmpty)
        background := none
        process := s.process + 2
        apart := false
        elders := s.process :: s.elders
        aliases := []
        scan := (1, none) }
    let halt ← attempt do
      let rec split : Nat → Bool → List Text → Run (Bool × List Text)
        | 0, given, rest => return (given, rest)
        | _, given, [] => return (given, [])
        | n + 1, given, w :: rest =>
          match w with
          | ['-'] | ['-', '-'] => return (given, rest)
          | '-' :: letters => do
            let left ← Builtins.turnAll true (letters.filter fun c => c ≠ 'c' && c ≠ 'l') rest
            split n (given || letters.contains 'c') left
          | '+' :: letters => do
            let left ← Builtins.turnAll false letters rest
            split n given left
          | _ => return (given, w :: rest)
      let (given, rest) ← split words.length false words
      if given then
        match rest with
        | [] => fail "-c requires an argument".toList
        | text :: rest =>
          match rest with
          | [] => pure ()
          | other :: args => modify fun s => { s with name := other, arguments := args }
          modify fun s => { s with line := 1 }
          script fuel false false text
      else
        let s ← get
        match rest with
        | [] => script fuel false true ((← readAll 0).getD [])
        | path :: args =>
          if s.isOn 's' then
            set { s with arguments := rest }
            script fuel false true ((← readAll 0).getD [])
          else
            match ← openFile .input path with
            | .error words => fail words
            | .ok channel =>
              modify fun s => { s with name := path, arguments := args, line := 1 }
              script fuel false true (((← get).readable channel).getD [])
    match halt with
    | some (.killed signal) => throw (.killed signal)
    | _ => sayFarewell fuel

end

/-! ## Shells from outside -/

/-- what a command leaves: the tree, what it wrote to both streams, and its status, which is negative where a signal ended
it -/
structure Ended where
  tree : FileTree
  out : Bytes
  err : Bytes
  code : Int

/-- how deeply the steps of a shell may be nested -/
def depth : Nat := 100000

/-- the variables that a shell gets to see -/
def environment (tree : FileTree) : List (Text × Variable) :=
  [("HOME", "/root".toList), ("LANG", "C.UTF-8".toList),
    ("PATH", directories),
    ("PWD", Builtins.pathOf tree.current)].map fun (name, value) => (name.toList, ⟨some value, true, false⟩)

/-- runs a shell on a tree, with the name it gives itself and the words it is called with -/
def run (tree : FileTree) (name : Text) (words : List Text) : Ended :=
  let start : State :=
    ⟨tree, #[.source [], .sink [], .sink []], [], 0, [(0, 0), (1, 1), (2, 2)], environment tree, [], [], spread name, [],
      none, 0, 0, 0, [], 0, [], [], none, [], 4240, false, [], [], [], (1, none), 18⟩
  let (halt, s) := (launch depth (spread name) (words.map spread)).run.run start
  let written (n : Nat) : Bytes := match s.channels[n]? with
    | some (.sink t) => bytesOf t
    | _ => []
  let code : Int := match halt with
    | .error (.killed signal) => -signal
    | _ => s.status % 256
  ⟨{ s.tree with current := tree.current }, written 1, written 2, code⟩

end Componentry.Shell
