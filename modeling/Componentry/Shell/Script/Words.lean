/-
Reading words: quotes, expansions, and the text that stands between the lines of a script.

How a character reads depends on the place it stands at. Commands inside a word are read by the function that is given
for them, so that words are read without knowing how commands are.
-/
import Componentry.Shell.Reader

namespace Componentry.Shell.Reader

/-- the places of a word: outside quotes, in braces there, between double quotes, in braces between them (and then
perhaps between quotes once more), in an arithmetic expression inside some parentheses, and in a text of its own -/
inductive Place where
  | bare
  | braces
  | quotes
  | quotedBraces (again document : Bool)
  | arithmetic (depth : Nat)
  | document

/-- whether single and double quotes have their meaning and a backslash quotes every character -/
def Place.isOpen : Place → Bool
  | .bare | .braces => true
  | _ => false

/-- the place of the word in braces that starts here, the pattern of a cut being read as outside quotes -/
def Place.inBraces (p : Place) (pattern : Bool) : Place :=
  if pattern || p.isOpen then .braces else .quotedBraces false (match p with | .document => true | _ => false)

/-- the words for a place that the script ends in; some places may end with it -/
def Place.missing? : Place → Option Text
  | .bare | .document => none
  | .braces | .quotedBraces _ true => some "Missing '\x7d'".toList
  | .quotes | .quotedBraces _ false => some "Unterminated quoted string".toList
  | .arithmetic _ => some "Missing '))'".toList

/-- whether a backslash between double quotes quotes a character -/
def Place.quotes? (p : Place) (c : Char) : Bool :=
  "\\`$".toList.contains c ||
    match p with
    | .quotedBraces .. => c == '"' || c == '}'
    | .document => false
    | _ => c == '"'

/-- the characters that end a word outside quotes -/
def endsWord (c : Char) : Bool := " \t\n;&|<>()".toList.contains c

/-- characters gathered in reverse, as a part in front of others -/
def flush (gathered : Text) (parts : List Part) : List Part :=
  if gathered.isEmpty then parts else .bare gathered.reverse :: parts

/-- the commands between back quotes: a backslash in front of a backslash, a dollar sign or a back quote is dropped, and
between double quotes also one in front of a double quote; the fuel is the length of the text -/
def backquoted (isOpen : Bool) : Nat → Reading Text
  | 0 => refuse "EOF in backquote substitution".toList
  | fuel + 1 => do
    match ← peek with
    | none => refuse "EOF in backquote substitution".toList
    | some '`' => skip; return []
    | some '\\' =>
      skip
      let r ← get
      match r.rest with
      | [] => refuse "EOF in backquote substitution".toList
      | c :: _ =>
        skip
        let inside ← backquoted isOpen fuel
        return if "\\`$".toList.contains c || (!isOpen && c == '"') then c :: inside else '\\' :: c :: inside
    | some c =>
      skip
      return c :: (← backquoted isOpen fuel)

/-- what a cut's sign, or a remedy's, makes of the word that follows it in braces -/
inductive Operator where
  | whole
  | remedy (r : Remedy) (empty : Bool)
  | cut (atEnd longest : Bool)
  | unknown

/-- the remedy a character stands for -/
def remedy? : Char → Option Remedy
  | '-' => some .use
  | '+' => some .replace
  | '=' => some .assign
  | '?' => some .fail
  | _ => none

/-- the operator after a name in braces; a closing brace is gone over as well. A newline that stands for an operator does
not count as the end of a line. -/
def operator : Reading Operator := do
  let c ← peek
  pass
  match c with
  | some '}' => return .whole
  | some ':' =>
    let d ← peek
    pass
    return ((d.bind remedy?).map (Operator.remedy · true)).getD .unknown
  | some '%' => return .cut true (← took '%')
  | some '#' => return .cut false (← took '#')
  | some c => return ((remedy? c).map (Operator.remedy · false)).getD .unknown
  | none => return .unknown

/-- what names the variable in braces, and whether its length is asked for; none if nothing names one -/
def braceName (fuel : Nat) : Reading (Option (Text × Bool)) := do
  match ← peek with
  | none | some '}' => return none
  | some c =>
    if startsName c then return some (← run inName fuel, false)
    else if c.isDigit then return some (← run (·.isDigit) fuel, false)
    else
      pass
      if c ≠ '#' then return if isSpecial c then some ([c], false) else none
      else match ← peek with
        | none => return some (['#'], false)
        | some d =>
          if startsName d then return some (← run inName fuel, true)
          else if d.isDigit then return some (← run (·.isDigit) fuel, true)
          else
            let r ← get
            match (joined r.rest.tail).2.head?, d with
            | some '}', '}' => return some (['#'], false)
            | some '}', d =>
              skip
              return if isSpecial d then some ([d], true) else none
            | _, _ => return some (['#'], false)

mutual

/-- the parts of a word at a place, with the characters gathered in front of them. The end of the place is gone over,
except outside quotes. Each step goes over a character or into a place, and the fuel counts the steps. -/
def parts (commands : Reading Command) : Nat → Place → Text → Reading (List Part)
  | 0, _, _ => refuse "Word too long".toList
  | fuel + 1, place, sofar => do
    let literal (c : Char) : Reading (List Part) := do skip; parts commands fuel place (c :: sofar)
    let part (p : Part) : Reading (List Part) := do return flush sofar (p :: (← parts commands fuel place []))
    match ← peek with
    | none =>
      match place.missing? with
      | some words => refuse words
      | none => return flush sofar []
    | some '\\' =>
      skip
      let r ← get
      match r.rest with
      | [] => part (.exact ['\\'])
      | c :: _ =>
        skip
        part (.exact (if place.isOpen || place.quotes? c then [c] else ['\\', c]))
    | some '$' =>
      skip
      match ← dollar commands fuel place with
      | some p => part p
      | none => parts commands fuel place ('$' :: sofar)
    | some '`' =>
      skip
      let inside ← backquoted place.isOpen ((← get).rest.length + 1)
      part (.output (← within inside 1 commands))
    | some c =>
      match place, c with
      | .bare, c =>
        if endsWord c then return flush sofar []
        else if c = '\'' then
          skip
          part (.exact (← through '\'' "Unterminated quoted string".toList))
        else if c = '"' then
          skip
          part (.quotes (← parts commands fuel .quotes []))
        else literal c
      | .braces, '}' | .quotes, '"' | .quotedBraces false _, '}' =>
        skip
        return flush sofar []
      | .braces, '\'' =>
        skip
        part (.exact (← through '\'' "Unterminated quoted string".toList))
      | .braces, '"' =>
        skip
        part (.quotes (← parts commands fuel .quotes []))
      | .quotedBraces again document, '"' =>
        skip
        parts commands fuel (.quotedBraces (!again) document) sofar
      | .arithmetic depth, '(' =>
        skip
        parts commands fuel (.arithmetic (depth + 1)) (c :: sofar)
      | .arithmetic (depth + 1), ')' =>
        skip
        parts commands fuel (.arithmetic depth) (c :: sofar)
      | .arithmetic 0, ')' =>
        skip
        if ← took ')' then return flush sofar [] else parts commands fuel place (c :: sofar)
      | _, c => literal c

/-- the expansion after a dollar sign, if one follows -/
def dollar (commands : Reading Command) : Nat → Place → Reading (Option Part)
  | 0, _ => refuse "Word too long".toList
  | fuel + 1, place => do
    match ← peek with
    | none => return none
    | some '(' =>
      skip
      if ← took '(' then return some (.number (← parts commands fuel (.arithmetic 0) []))
      else
        let inside ← commands
        match (← get).last with
        | .closed =>
          modify fun r => { r with held := false }
          return some (.output inside)
        | _ => expected .closed
    | some '{' =>
      skip
      let length := (← get).rest.length + 1
      match ← braceName length with
      | none =>
        let _ ← parts commands fuel (place.inBraces false) []
        return some (.variable [] .senseless)
      | some (name, true) =>
        if ← took '}' then return some (.variable name .length)
        else
          let _ ← parts commands fuel (place.inBraces false) []
          return some (.variable name .senseless)
      | some (name, false) =>
        match ← operator with
        | .whole => return some (.variable name .keep)
        | .remedy r empty =>
          return some (.variable name (.remedy r empty (← parts commands fuel (place.inBraces false) [])))
        | .cut atEnd longest =>
          return some (.variable name (.cut atEnd longest (← parts commands fuel (place.inBraces true) [])))
        | .unknown =>
          let _ ← parts commands fuel (place.inBraces false) []
          return some (.variable name .senseless)
    | some c =>
      if startsName c then return some (.variable (← run inName ((← get).rest.length + 1)) .keep)
      else if c.isDigit || isSpecial c then
        skip
        return some (.variable [c] .keep)
      else return none

end

/-! ## Texts in a script -/

/-- the lines of a text before the one that ends it, and what follows; `untabbed` drops the tabs in front of each line.
The fuel is the number of characters. -/
def documentLines (mark : Text) (untabbed : Bool) : Nat → Text → Text × Text
  | 0, t => ([], t)
  | _, [] => ([], [])
  | fuel + 1, t =>
    let t := if untabbed then t.dropWhile (· = '\t') else t
    let line := t.takeWhile (· ≠ '\n')
    let after := t.drop line.length
    if line = mark then ([], after.tail)
    else match after with
      | [] => (line, [])
      | c :: rest => let (more, left) := documentLines mark untabbed fuel rest; (line ++ c :: more, left)

/-- the texts that redirections wait for, read from the start of a line on -/
def readDocuments (commands : Reading Command) : Reading Unit := do
  let r ← get
  set { r with awaited := [] }
  for a in r.awaited do
    let r ← get
    let (text, left) := documentLines a.mark a.untabbed (r.rest.length + 1) r.rest
    let word ← if a.exact then pure [.exact text]
      else within text r.line (parts commands (2 * text.length + 2) .document [])
    modify fun now =>
      let gone := r.rest.take (r.rest.length - left.length)
      { now with
        rest := left
        line := r.line + (gone.filter (· = '\n')).length
        documents := (a.number, word) :: now.documents }

/-- the characters of the line that ends a text in the script, and whether any of them is quoted; expansions have no
meaning in it. The fuel is the length of the text. -/
def mark : Nat → Option Char → Reading (Text × Bool)
  | 0, _ => return ([], false)
  | fuel + 1, quote => do
    match ← peek, quote with
    | none, some _ => refuse "Unterminated quoted string".toList
    | none, none => return ([], false)
    | some '\\', quote =>
      skip
      let r ← get
      match r.rest with
      | [] => return (['\\'], true)
      | c :: _ =>
        skip
        let (more, _) ← mark fuel quote
        return (if quote.isNone || "\\`$\"".toList.contains c then c :: more else '\\' :: c :: more, true)
    | some '"', some _ =>
      skip
      let (more, _) ← mark fuel none
      return (more, true)
    | some '"', none =>
      skip
      let (more, _) ← mark fuel (some '"')
      return (more, true)
    | some '\'', none =>
      skip
      let inside ← through '\'' "Unterminated quoted string".toList
      let (more, _) ← mark fuel none
      return (inside ++ more, true)
    | some c, quote =>
      if quote.isNone && endsWord c then return ([], false)
      else
        skip
        let (more, quoted) ← mark fuel quote
        return (c :: more, quoted)

end Componentry.Shell.Reader
