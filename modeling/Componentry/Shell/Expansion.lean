/-
Expansion: what the parts of a word become when a command runs.

The output of commands inside a word is had from a function that is given for it, so that words are expanded without
knowing how commands run.
-/
import Componentry.Shell.Arithmetic
import Componentry.Shell.Fields

namespace Componentry.Shell.Expansion

/-- how parts are expanded: between double quotes or not, whether characters of the script can separate fields, and
whether the word is cut into fields at all -/
structure Mode where
  quoted : Bool
  loose : Bool
  fields : Bool

/-- characters of the script in a mode -/
def Mode.bare (m : Mode) (t : Text) : List Glyph :=
  t.map fun c => if m.quoted then .exact c else if m.loose then .loose c else .plain c

/-- characters of an expansion in a mode -/
def Mode.result (m : Mode) (t : Text) : List Glyph := t.map fun c => if m.quoted then .exact c else .loose c

/-- the separators of fields -/
def separators (s : State) : Text := (s.value? "IFS".toList).getD Fields.usual

/-- the arguments, side by side -/
def arguments (m : Mode) (name : Text) (s : State) : List Glyph :=
  if m.fields && (!m.quoted || name = ['@']) then
    let each (a : Text) : List Glyph := if m.quoted then .mark :: m.result a else m.result a
    match s.arguments with
    | [] => []
    | a :: rest => each a ++ rest.flatMap fun a => .gap m.quoted :: each a
  else
    let between := match s.value? "IFS".toList with
      | none => [' ']
      | some ifs => ifs.take 1
    m.result (Text.join between s.arguments)

/-- the value of a parameter -/
def value? (s : State) (name : Text) : Option Text :=
  match name with
  | ['#'] => some (Text.ofNat s.arguments.length)
  | ['?'] => some (Text.ofNat s.status)
  | ['$'] => some (Text.ofNat s.process)
  | ['!'] => s.background.map fun _ => Text.ofNat (s.process + 1)
  | ['-'] => some s.options
  | ['@'] | ['*'] => if s.arguments.isEmpty then none else some (Text.join [' '] s.arguments)
  | ['0'] => some s.name
  | c :: rest =>
    if c.isDigit then (s.arguments[((number? (c :: rest)).getD 0) - 1]?) else s.value? name
  | [] => none

/-- a parameter's value in a mode -/
def glyphs (m : Mode) (s : State) (name : Text) : List Glyph :=
  if name = ['@'] || name = ['*'] then arguments m name s else m.result ((value? s name).getD [])

/-- whether a parameter without a value is an error -/
def isMissed (s : State) (name : Text) : Bool :=
  s.isOn 'u' && name ≠ ['@'] && name ≠ ['*'] && (value? s name).isNone

/-- fails where a parameter has no value and may not -/
def need (name : Text) : Run Unit := do
  if isMissed (← get) name then fail (name ++ ": parameter not set".toList)

/-- a text without the newlines at its end -/
def chomped (t : Text) : Text := (t.reverse.dropWhile (· = '\n')).reverse

mutual

/-- a part of a word, expanded -/
def part (output : Command → Run Text) (m : Mode) : Part → Run (List Glyph)
  | .bare t => return m.bare t
  | .exact t => return if t.isEmpty then [.mark] else t.map .exact
  | .quotes [.variable ['@'] .keep] => do return arguments { m with quoted := true } ['@'] (← get)
  | .quotes ps => do return .mark :: (← parts output { m with quoted := true } ps)
  | .variable name change => changed output m name change
  | .output c => do return m.result (chomped (← output c))
  | .number ps => do
    let t := textOf (← parts output ⟨true, false, false⟩ ps)
    return m.result (Text.ofInt (← Expression.ofText t))

/-- parts of a word, expanded one after the other -/
def parts (output : Command → Run Text) (m : Mode) : List Part → Run (List Glyph)
  | [] => return []
  | p :: ps => do
    let first ← part output m p
    return first ++ (← parts output m ps)

/-- a variable with what becomes of its value -/
def changed (output : Command → Run Text) (m : Mode) (name : Text) : Change → Run (List Glyph)
  | .senseless => fail "Bad substitution".toList
  | .keep => do
    need name
    return glyphs m (← get) name
  | .length => do
    need name
    return m.result (Text.ofNat ((value? (← get) name).getD []).length)
  | .remedy r empty word => do
    let s ← get
    let missing := match value? s name with
      | none => true
      | some t => empty && t.isEmpty
    match r, missing with
    | .replace, true => return []
    | .replace, false | .use, true => parts output { m with loose := !m.quoted } word
    | .use, false | .assign, false | .fail, false => return glyphs m s name
    | .assign, true =>
      let t := textOf (← parts output { m with fields := false } word)
      if !isName name then fail (name ++ ": bad variable name".toList)
      assign name t
      return m.result t
    | .fail, true =>
      let words ← if word.isEmpty then
          pure (if empty then "parameter not set or null".toList else "parameter not set".toList)
        else do pure (textOf (← parts output { m with fields := false } word))
      fail (name ++ ": ".toList ++ words)
  | .cut atEnd longest pattern => do
    need name
    let p := Glob.ofGlyphs (← parts output ⟨false, false, false⟩ pattern)
    let s ← get
    if m.fields && (name = ['@'] || name = ['*']) then
      return arguments m name { s with arguments := s.arguments.map (Glob.cut p atEnd longest) }
    else return m.result (Glob.cut p atEnd longest ((value? s name).getD []))

end

/-- the home directory in place of a tilde at the start of a word -/
def homed (s : State) (w : Word) : Word :=
  match w with
  | .bare ('~' :: t) :: rest =>
    if (t.isEmpty && rest.isEmpty) || t.head? = some '/' then
      match s.value? "HOME".toList with
      | some home => .exact home :: .bare t :: rest
      | none => w
    else w
  | w => w

/-- the fields of a word -/
def fields (output : Command → Run Text) (w : Word) : Run (List Text) := do
  let gs ← parts output ⟨false, false, true⟩ (homed (← get) w)
  let s ← get
  return Fields.texts s.tree (separators s) (!s.isOn 'f') gs

/-- the fields of words -/
def allFields (output : Command → Run Text) (ws : List Word) : Run (List Text) := do
  let mut found := []
  for w in ws do
    found := found ++ (← fields output w)
  return found

/-- a word as a single text -/
def text (output : Command → Run Text) (w : Word) : Run Text := do
  return textOf (← parts output ⟨false, false, false⟩ (homed (← get) w))

/-- a text in the script, as between double quotes -/
def document (output : Command → Run Text) (w : Word) : Run Text := do
  return textOf (← parts output ⟨true, false, false⟩ w)

/-- a word as a pattern -/
def pattern (output : Command → Run Text) (w : Word) : Run Glob.Pattern := do
  return Glob.ofGlyphs (← parts output ⟨false, false, false⟩ (homed (← get) w))

end Componentry.Shell.Expansion
