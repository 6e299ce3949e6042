/-
The commands outside the shell by their names, and where they are found.
-/
import Componentry.Shell.Builtins
import Componentry.Shell.Tools.Editing
import Componentry.Shell.Tools.Files
import Componentry.Shell.Tools.Searching
import Componentry.Shell.Tools.Streams

namespace Componentry.Shell.Tools

/-- words with blanks between them, escapes read only after `-e`, one line unless `-n` is given -/
def echo : Tool := fun words => do
  let rec split : List Text → Bool × Bool × List Text
    | ('-' :: c :: more) :: rest =>
      if (c :: more).all "neE".toList.contains then
        let (escapes, bare, left) := split rest
        (escapes || (c :: more).contains 'e', bare || (c :: more).contains 'n', left)
      else (false, false, ('-' :: c :: more) :: rest)
    | rest => (false, false, rest)
  let (escapes, bare, words) := split words
  let (t, on) := if escapes then Printing.spoken words else (Text.join [' '] words, true)
  print (t ++ if bare || !on then [] else ['\n'])
  return 0

/-- what a mode says about running a file, if it says anything; none if it is no mode -/
def runs? (mode : Text) : Option (Option Bool) :=
  match number? mode with
  | some n =>
    if mode.all fun c => '0' ≤ c && c ≤ '7' then some (some (n / 100 % 10 % 2 = 1)) else none
  | none =>
    let clauses := Text.splitAt ',' mode
    let one? (t : Text) : Option (Option Bool) :=
      match t.dropWhile "ugoa".toList.contains with
      | sign :: rest =>
        if !"+-=".toList.contains sign || !rest.all "rwxXst".toList.contains then none
        else if sign = '=' then some (some (rest.contains 'x'))
        else if rest.contains 'x' then some (some (sign = '+'))
        else some none
      | [] => none
    clauses.foldl (fun found t => match found, one? t with
      | some before, some now => some (now.or before)
      | _, _ => none) (some none)

def chmod : Tool := fun words => do
  let words := words.filter fun w => !(["-R", "-v", "-f", "-c", "--"].any (·.toList = w))
  match words with
  | [] => misused 1 "missing operand".toList
  | [mode] => misused 1 ("missing operand after ".toList ++ marked mode)
  | mode :: paths =>
    match runs? mode with
    | none => misused 1 ("invalid mode: ".toList ++ marked mode)
    | some change =>
      forEach paths fun path => do
        match ← entryAt path, ← locationOf path with
        | .error cause, _ => refuse ("cannot access ".toList ++ quoted path ++ ": ".toList ++ because cause)
        | .ok (.file _), some l =>
          match change with
          | some on => modify fun s =>
            { s with runnable := if on then l :: s.runnable else s.runnable.filter (· ≠ l) }
          | none => pure ()
          return true
        | .ok _, _ => return true

def cmp : Tool := withOptions 2 ⟨"bls", "in", [("silent", 's'), ("quiet", 's')], true⟩ fun r => do
  match r.operands with
  | [] =>
    let called := (← get).called
    warn ("missing operand after '".toList ++ called ++ ['\''])
    warn (← hint)
    return 2
  | first :: rest =>
    let second := rest.headD ['-']
    match ← inputOf first, ← inputOf second with
    | .error cause, _ =>
      warn (about first cause)
      return 2
    | _, .error cause =>
      warn (about second cause)
      return 2
    | .ok a, .ok b =>
      let same := ((a.zip b).takeWhile fun (c, d) => c = d).length
      if a = b then return 0
      else
        let line := Text.ofNat (((a.take same).filter (· = '\n')).length + 1)
        if r.has 's' then pure ()
        else if same < a.length && same < b.length then
          print (first ++ ' ' :: second ++ " differ: byte ".toList ++ Text.ofNat (same + 1) ++ ", line ".toList ++ line ++
            ['\n'])
        else
          let shorter := "EOF on ".toList ++ if a.length < b.length then first else second
          if same = 0 then warn (shorter ++ " which is empty".toList)
          else warn (shorter ++ " after byte ".toList ++ Text.ofNat same ++ ", line ".toList ++
            Text.ofNat ((a.take same).filter (· = '\n')).length)
        return 1

def printenv : Tool := fun words => do
  let vs := (← get).exported
  match words with
  | [] =>
    print (vs.flatMap fun (name, value) => name ++ '=' :: value ++ ['\n'])
    return 0
  | names =>
    let mut code := 0
    for name in names do
      match vs.lookup name with
      | some value => print (value ++ ['\n'])
      | none => code := 1
    return code

/-- a command outside the shell by its name -/
def find? (name : Text) : Option Tool :=
  match String.ofList name with
  | "true" | "sleep" | "sync" => some fun _ => return 0
  | "false" => some fun _ => return 1
  | "echo" => some echo
  | "printf" => some Builtins.printf
  | "test" => some (Builtins.test false)
  | "[" => some (Builtins.test true)
  | "pwd" => some Builtins.pwd
  | "kill" => some Signals.kill
  | "cat" => some cat
  | "tee" => some tee
  | "head" => some head
  | "tail" => some tail
  | "wc" => some wc
  | "sort" => some sort
  | "uniq" => some uniq
  | "tr" => some tr
  | "cut" => some cut
  | "rev" => some rev
  | "tac" => some tac
  | "basename" => some basename
  | "dirname" => some dirname
  | "seq" => some seq
  | "cp" => some cp
  | "mv" => some mv
  | "rm" => some rm
  | "mkdir" => some mkdir
  | "rmdir" => some rmdir
  | "touch" => some touch
  | "ls" => some ls
  | "chmod" => some chmod
  | "cmp" => some cmp
  | "grep" => some (Searching.grep none)
  | "egrep" => some (Searching.grep (some 'E'))
  | "fgrep" => some (Searching.grep (some 'F'))
  | "sed" => some Editing.sed
  | "printenv" => some printenv
  | _ => none

/-- the commands outside the shell that run other commands -/
def runners : List Text := ["env", "sh", "dash", "which", "xargs", "nice", "nohup"].map (·.toList)

/-- the directory that commands are found in -/
def directory : Text := "/usr/bin/".toList

/-- the name of a command by a path into the directory that commands are found in -/
def nameIn? (path : Text) : Option Text :=
  [directory, "/bin/".toList].findSome? fun d =>
    if d.isPrefixOf path && !(path.drop d.length).contains '/' then some (path.drop d.length) else none

/-- whether a name is that of a command outside the shell -/
def isKnown (name : Text) : Bool := (find? name).isSome || runners.contains name

def which : Tool := fun words => do
  let mut code := 0
  for name in words.filter fun w => w ≠ "-a".toList do
    if isKnown name then print (directory ++ name ++ ['\n'])
    else if (nameIn? name).any isKnown then print (name ++ ['\n'])
    else code := 1
  return code

end Componentry.Shell.Tools
