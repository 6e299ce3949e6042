/-
Reading the commands of a script, one logical line at a time: what stands on a line is read as a whole before any of it
runs, and what follows it is not read yet.
-/
import Componentry.Shell.Script.Words

namespace Componentry.Shell.Reader

/-- a word that is bare characters from end to end -/
def bare? : Word → Option Text
  | [.bare t] => some t
  | _ => none

/-- the number of steps that suffices for reading what is left -/
def steps : Reading Nat := do return 8 * (← get).rest.length + 64

/-- goes over blanks and comments; the fuel is the length of the text -/
def blanks : Nat → Reading Unit
  | 0 => return
  | fuel + 1 => do
    match ← peek with
    | some ' ' | some '\t' => skip; blanks fuel
    | some '#' =>
      modify fun r => { r with rest := r.rest.dropWhile (· ≠ '\n') }
      blanks fuel
    | _ => return

/-- the sign of a redirection, after the stream in front of it -/
def arrow (stream : Option Nat) : Reading Token := do
  if ← took '>' then
    let stream := stream.getD 1
    if ← took '>' then return .arrow stream (.file .appending)
    else if ← took '|' then return .arrow stream (.file .forced)
    else if ← took '&' then return .arrow stream .copy
    else return .arrow stream (.file .output)
  else
    skip
    let stream := stream.getD 0
    if ← took '<' then return .arrow stream (.document (← took '-'))
    else if ← took '&' then return .arrow stream .copy
    else if ← took '>' then return .arrow stream (.file .both)
    else return .arrow stream (.file .input)

/-- the stream that a word in front of a redirection sign names -/
def stream? : Word → Option (Option Nat)
  | [] => some none
  | [.bare [c]] => if c.isDigit then some (some (c.toNat - '0'.toNat)) else none
  | _ => none

/-- the next token of the text -/
def scan (commands : Reading Command) : Reading Token := do
  blanks ((← get).rest.length + 1)
  match ← peek with
  | none =>
    readDocuments commands
    return .stop
  | some '\n' =>
    skip
    readDocuments commands
    return .newline
  | some '&' => skip; return if ← took '&' then .both else .ampersand
  | some '|' => skip; return if ← took '|' then .either else .bar
  | some ';' => skip; return if ← took ';' then .branchEnd else .semicolon
  | some '(' => skip; return .opened
  | some ')' => skip; return .closed
  | some _ =>
    let w ← parts commands (← steps) .bare []
    match ← peek, stream? w with
    | some '<', some stream | some '>', some stream => arrow stream
    | _, _ => return .word w

/-- the texts that are not over yet, read in place of names -/
def unfinished : Reading (List Standing) :=
  modifyGet fun r =>
    let now := r.standing.filter fun s => s.after < r.rest.length
    (now, { r with standing := now })

/-- the next token of the text, or the next one of the text that a name stands for. A name stands for another text where
a command starts (`first`), and after a text that ends with a blank, but not inside its own text; a word that is a
keyword (`keyed`) is no such name. The fuel bounds how many names follow each other. -/
def scanFor (commands : Reading Command) (first keyed : Bool) : Nat → Reading Token
  | 0 => scan commands
  | fuel + 1 => do
    if (← get).aliases.isEmpty then scan commands
    else
      let before ← unfinished
      blanks ((← get).rest.length + 1)
      let now ← unfinished
      let t ← scan commands
      match t with
      | .word w =>
        match bare? w with
        | none => return t
        | some name =>
          let apt := first || (now.length < before.length && (before.take (before.length - now.length)).any (·.endsBlank))
          if !apt || now.any (·.name = name) || (keyed && keywords.contains name) then return t
          else match (← get).aliases.lookup name with
            | none => return t
            | some value =>
              let ends := value.getLast?.any fun c => c = ' ' || c = '\t'
              modify fun r =>
                { r with rest := value ++ r.rest, standing := ⟨name, r.rest.length, ends⟩ :: r.standing }
              scanFor commands first keyed fuel
      | t => return t

/-- goes over newlines; the fuel is the length of the text -/
def pastNewlines (next : Reading Token) : Nat → Token → Reading Token
  | 0, t => return t
  | fuel + 1, t =>
    match t with
    | .newline => do pastNewlines next fuel (← next)
    | t => return t

/-- the next token: one that was held, or the next of the text; newlines are gone over if `past` is set, and a word can
be a keyword if `keyed` is -/
def token (commands : Reading Command) (keyed past : Bool) : Reading Token := do
  let r ← get
  let next := scanFor commands keyed keyed (r.aliases.length + r.rest.length + 1)
  let t ← if r.held then pure r.last else next
  modify fun r => { r with held := false }
  let t ← if past then pastNewlines next ((← get).rest.length + 2) t else pure t
  let t := match t with
    | .word w =>
      match bare? w with
      | some k => if keyed && keywords.contains k then .keyword k else t
      | none => t
    | t => t
  modify fun r => { r with last := t }
  return t

/-- the redirection of a sign, with the word that follows it -/
def redirection (commands : Reading Command) (stream : Nat) (a : Arrow) : Reading Redirection := do
  match a with
  | .document untabbed =>
    blanks ((← get).rest.length + 1)
    match ← peek with
    | none => let _ ← token commands false false; unexpected
    | some c =>
      if endsWord c then
        let _ ← token commands false false
        unexpected
      else
        let (text, exact) ← mark ((← get).rest.length + 1) none
        let n := (← get).issued
        modify fun r => { r with awaited := r.awaited ++ [⟨n, text, untabbed, exact⟩], issued := n + 1 }
        return .document stream n
  | a =>
    match ← token commands false false, a with
    | .word w, .copy => return .copy stream w
    | .word w, .file opening => return .file stream opening w
    | _, _ => unexpected

/-- a word that assigns to a variable: the name, and the word for the value -/
def assignment? : Word → Option (Text × Word)
  | .bare t :: rest =>
    let name := t.takeWhile (· ≠ '=')
    match t.drop name.length with
    | _ :: value => if isName name then some (name, if value.isEmpty then rest else .bare value :: rest) else none
    | [] => none
  | _ => none

/-- a command with redirections of its own -/
def redirected (line : Nat) (c : Command) (rs : List Redirection) : Command :=
  if rs.isEmpty then c
  else match c with
    | .subshell line inner _ => .subshell line inner rs
    | c => .redirected line c rs

/-- what the commands inside another command end with: anything where nothing else is asked for -/
inductive Extent where
  | line
  | some
  | any
  deriving DecidableEq

mutual

/-- commands one after the other. On one line they end with the line; inside another command newlines separate them as
well, and they end with a token that ends such commands, which is held. -/
def list : Nat → Extent → Command → Reading Command
  | 0, _, _ => refuse "Script too long".toList
  | fuel + 1, extent, sofar => do
    let commands := list fuel .any .nothing
    let t ← token commands true (extent != .line)
    match t with
    | .newline => return sofar
    | .stop =>
      hold
      return sofar
    | t =>
      hold
      if t.isEnd && (extent == .any || (extent == .some && sofar.isSome)) then return sofar
      else
        let line := (← get).line
        let c ← andOr fuel
        let t ← token commands false false
        let c := match t with | .ampersand => .background line c | _ => c
        let sofar := sofar.followedBy c
        match t with
        | .stop => hold; return sofar
        | .newline => hold; list fuel extent sofar
        | .ampersand | .semicolon => list fuel extent sofar
        | _ =>
          if extent == .line then unexpected
          else
            hold
            return sofar

/-- pipelines of which each runs as the one before ended -/
def andOr : Nat → Reading Command
  | 0 => refuse "Script too long".toList
  | fuel + 1 => do
    let first ← pipeline fuel false
    moreAndOr fuel first

/-- the pipelines after `&&` and `||` -/
def moreAndOr : Nat → Command → Reading Command
  | 0, _ => refuse "Script too long".toList
  | fuel + 1, sofar => do
    match ← token (list fuel .any .nothing) false false with
    | .both => moreAndOr fuel (.ifOk sofar (← pipeline fuel true))
    | .either => moreAndOr fuel (.ifFailed sofar (← pipeline fuel true))
    | _ =>
      hold
      return sofar

/-- commands of which each reads what the one before writes -/
def pipeline : Nat → Bool → Reading Command
  | 0, _ => refuse "Script too long".toList
  | fuel + 1, past => do
    let t ← token (list fuel .any .nothing) true past
    let inverted := t.isKeyword "!"
    if !inverted then hold
    let first ← command fuel false
    let rest ← morePiped fuel
    let c := if rest.isEmpty then first else .piped (first :: rest)
    return if inverted then .inverted c else c

/-- the commands after `|` -/
def morePiped : Nat → Reading (List Command)
  | 0 => refuse "Script too long".toList
  | fuel + 1 => do
    match ← token (list fuel .any .nothing) false false with
    | .bar =>
      let c ← command fuel true
      return c :: (← morePiped fuel)
    | _ =>
      hold
      return []

/-- a single command with its redirections -/
def command : Nat → Bool → Reading Command
  | 0, _ => refuse "Script too long".toList
  | fuel + 1, past => do
    let commands := list fuel .any .nothing
    let inside := list fuel .some .nothing
    let need (k : String) : Reading Unit := do
      if !(← token commands true false).isKeyword k then expected (.keyword k.toList)
    let t ← token commands true past
    let line := (← get).line
    let closing (c : Command) : Reading Command := do
      return redirected line c (← redirections fuel)
    match t with
    | .word _ | .arrow .. =>
      hold
      simple fuel line [] [] []
    | .opened =>
      let c ← inside
      match ← token commands false false with
      | .closed => closing (.subshell line c [])
      | _ => expected .closed
    | .keyword k =>
      match String.ofList k with
      | "\x7b" =>
        let c ← inside
        need "\x7d"
        closing c
      | "if" =>
        let c ← branches fuel
        need "fi"
        closing c
      | "while" | "until" =>
        let condition ← inside
        need "do"
        let body ← inside
        need "done"
        closing (.loop (k = "while".toList) condition body)
      | "for" =>
        match ← token commands false false with
        | .word w =>
          match bare? w with
          | some name =>
            if !isName name then refuse "Bad for loop variable".toList
            let t ← token commands true true
            let words ← if t.isKeyword "in" then
                let words ← someWords fuel
                match (← get).last with
                | .newline | .semicolon => pure words
                | _ => unexpected
              else
                match t with
                | .semicolon => pure ()
                | _ => hold
                pure [[.quotes [.variable ['@'] .keep]]]
            if !(← token commands true true).isKeyword "do" then expected (.keyword "do".toList)
            let body ← inside
            need "done"
            closing (.each line name words body)
          | none => refuse "Bad for loop variable".toList
        | _ => refuse "Bad for loop variable".toList
      | "case" =>
        match ← token commands false false with
        | .word w =>
          if !(← token commands true true).isKeyword "in" then expected (.keyword "in".toList)
          let cases ← cases fuel
          closing (.select line w cases)
        | _ => expected (.word [])
      | _ => unexpected
    | _ => unexpected

/-- what follows `if` or `elif`, up to the keyword that ends it, which is held -/
def branches : Nat → Reading Command
  | 0 => refuse "Script too long".toList
  | fuel + 1 => do
    let commands := list fuel .any .nothing
    let condition ← list fuel .some .nothing
    if !(← token commands true false).isKeyword "then" then expected (.keyword "then".toList)
    let yes ← list fuel .some .nothing
    let t ← token commands true false
    if t.isKeyword "elif" then return .choice condition yes (← branches fuel)
    else if t.isKeyword "else" then return .choice condition yes (← list fuel .some .nothing)
    else
      hold
      return .choice condition yes .nothing

/-- the branches of a `case`, `esac` included -/
def cases : Nat → Reading (List (List Word × Command))
  | 0 => refuse "Script too long".toList
  | fuel + 1 => do
    let commands := list fuel .any .nothing
    let t ← token commands true true
    if t.isKeyword "esac" then return []
    else
      let t ← match t with
        | .opened => token commands false false
        | t => pure t
      let patterns ← patterns fuel t
      let body ← list fuel .any .nothing
      let t ← token commands true true
      if t.isKeyword "esac" then return [(patterns, body)]
      else match t with
        | .branchEnd => return (patterns, body) :: (← cases fuel)
        | _ => expected .branchEnd

/-- the patterns of a branch from a token on, and the parenthesis that ends them -/
def patterns : Nat → Token → Reading (List Word)
  | 0, _ => refuse "Script too long".toList
  | fuel + 1, t => do
    let w : Word := match t with
      | .word w => w
      | .keyword k => [.bare k]
      | _ => []
    match ← token (list fuel .any .nothing) false false with
    | .bar =>
      let t ← token (list fuel .any .nothing) false false
      return w :: (← patterns fuel t)
    | .closed => return [w]
    | _ => expected .closed

/-- words up to another token, which is gone over -/
def someWords : Nat → Reading (List Word)
  | 0 => refuse "Script too long".toList
  | fuel + 1 => do
    match ← token (list fuel .any .nothing) false false with
    | .word w => return w :: (← someWords fuel)
    | _ => return []

/-- the redirections after a command -/
def redirections : Nat → Reading (List Redirection)
  | 0 => refuse "Script too long".toList
  | fuel + 1 => do
    let commands := list fuel .any .nothing
    match ← token commands true false with
    | .arrow stream a =>
      let r ← redirection commands stream a
      return r :: (← redirections fuel)
    | _ =>
      hold
      return []

/-- a simple command, or the definition of a function; what is gathered so far stands in reverse -/
def simple : Nat → Nat → List (Text × Word) → List Word → List Redirection → Reading Command
  | 0, _, _, _, _ => refuse "Script too long".toList
  | fuel + 1, line, assignments, words, rs => do
    let commands := list fuel .any .nothing
    let finish : Reading Command := do
      hold
      return .simple line assignments.reverse words.reverse rs.reverse
    if words.isEmpty && !(← get).held then
      let t ← scanFor commands true false (← steps)
      modify fun r => { r with last := t, held := true }
    match ← token commands false false with
    | .word w =>
      match if words.isEmpty then assignment? w else none with
      | some a => simple fuel line (a :: assignments) words rs
      | none => simple fuel line assignments (w :: words) rs
    | .arrow stream a =>
      let r ← redirection commands stream a
      simple fuel line assignments words (r :: rs)
    | .opened =>
      match assignments, words, rs with
      | [], [w], [] =>
        match ← token commands false false with
        | .closed =>
          match bare? w with
          | some name =>
            if !isName name || specials.contains name then refuse "Bad function name".toList
            return .define name (← command fuel true)
          | none => refuse "Bad function name".toList
        | _ => expected .closed
      | _, _, _ => finish
    | _ => finish

end

/-- the commands of the next logical line, or none at the end of the script -/
def line? : Reading (Option Command) := do
  let n ← steps
  let c ← list n .line .nothing
  match c.isSome, (← get).last, (← get).held with
  | false, .stop, true => return none
  | _, _, _ => return some c

end Componentry.Shell.Reader
