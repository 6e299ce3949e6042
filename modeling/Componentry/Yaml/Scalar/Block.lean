/-
Block scalars: indented lines after `|` or `>`.

The header may give the indentation and say what happens to the line breaks at the end: by default one is kept, `-`
drops it and `+` keeps them all. After `>` a line break between two lines that start with no blank is folded into a
space, or into the empty lines after it.
-/
import Componentry.Yaml.Scalar.Plain

namespace Componentry.Yaml.Block

/-- what happens to the line breaks at the end -/
inductive Ending where
  | clip
  | strip
  | keep
  deriving DecidableEq

/-- what a header says -/
structure Header where
  ending : Ending
  indent : Option Nat

/-- the sign for the line breaks at the end -/
def ending? : Char → Option Ending
  | '+' => some .keep
  | '-' => some .strip
  | _ => none

/-- the digit for the indentation; it is not zero -/
def indent? (c : Char) : Option Nat := if Text.isDigit c ∧ c ≠ '0' then some (c.toNat - 48) else none

/-- the signs of a header in either order, and what follows them; none at a zero -/
def header? (t : Text) : Option (Header × Text) :=
  match t with
  | [] => some (⟨.clip, none⟩, [])
  | c :: rest =>
    match ending? c with
    | some e =>
      match rest with
      | d :: after => if d = '0' then none else
        match indent? d with
        | some n => some (⟨e, some n⟩, after)
        | none => some (⟨e, none⟩, rest)
      | [] => some (⟨e, none⟩, [])
    | none =>
      if c = '0' then none
      else match indent? c with
        | none => some (⟨.clip, none⟩, t)
        | some n =>
          match rest with
          | d :: after =>
            match ending? d with
            | some e => some (⟨e, some n⟩, after)
            | none => some (⟨.clip, some n⟩, rest)
          | [] => some (⟨.clip, some n⟩, [])

/-- empty lines: their breaks, the column reached on the line after them, the widest indentation seen, and what
follows. No more than `limit` spaces of a line are taken. -/
structure Blank where
  breaks : Text
  column : Nat
  widest : Nat
  rest : Text

/-- a break before empty lines -/
def Blank.after (c : Char) (b : Blank) : Blank := { b with breaks := c :: b.breaks }

/-- the empty lines in front, and the indentation of the line after them -/
def blankLines (limit : Option Nat) (column widest : Nat) : Text → Blank
  | '\r' :: '\n' :: rest => (blankLines limit 0 widest rest).after '\n'
  | [] => ⟨[], column, widest, []⟩
  | c :: rest =>
    if c = ' ' ∧ (limit.all (column < ·)) then blankLines limit (column + 1) (max widest (column + 1)) rest
    else if isBreak c then
      (blankLines limit 0 widest rest).after (if c = '\u2028' ∨ c = '\u2029' then c else '\n')
    else ⟨[], column, widest, c :: rest⟩

/-- the line breaks at the end -/
def Ending.apply (ending : Ending) (last breaks : Text) : Text :=
  match ending with
  | .clip => last
  | .strip => []
  | .keep => last ++ breaks

/-- the lines of a block with a fixed indentation: `joint` stands before the next line, `last` is the break of the
line before and `blank` what came after it. The second part is what follows the block. -/
def body (folded : Bool) (ending : Ending) (indent : Nat) : Nat → Text → Text → Blank → Text × Text
  | 0, _, last, blank => (ending.apply last blank.breaks, blank.rest)
  | fuel + 1, joint, last, blank =>
    if blank.column = indent ∧ blank.rest ≠ [] then
      let line := blank.rest.takeWhile fun c => !isBreak c
      let after := skipLine blank.rest
      let last := (lineBreak? after).map (·.1) |>.toList
      let next := blankLines (some indent) 0 0 (afterBreak after)
      let solid (t : Text) : Bool := !(t.head?.any isSpace)
      let folds := folded && last = ['\n'] && solid blank.rest && solid next.rest
      let joint' := if folds then (if next.breaks = [] then [' '] else []) else last
      let (more, rest) := body folded ending indent fuel joint' last next
      (joint ++ blank.breaks ++ line ++ more, rest)
    else (ending.apply last blank.breaks, blank.rest)

/-- a block scalar after its sign, and what follows it; `parent` is the indentation around it -/
def read? (folded : Bool) (parent : Int) (t : Text) : Option (Text × Text) :=
  match header? t with
  | none => none
  | some (header, rest) =>
    if !endsField rest then none
    else match skipIgnored? rest with
      | none => none
      | some rest =>
        let least := (max 1 (parent + 1)).toNat
        let (indent, blank) := match header.indent with
          | some n => (least + n - 1, blankLines (some (least + n - 1)) 0 0 rest)
          | none =>
            let blank := blankLines none 0 0 rest
            (max least blank.widest, blank)
        some (body folded header.ending indent (t.length + 1) [] [] blank)

end Componentry.Yaml.Block
