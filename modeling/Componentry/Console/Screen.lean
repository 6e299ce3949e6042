/-
The screen: what is shown of texts and tables with markup, in lines of a fixed number of cells.

Screens differ in the markup that they take, and a screen may refuse whatever it cannot show. What it refuses is not shown
at all, and neither is anything after it; the usual screen refuses texts and tables with a faulty tag.
-/
import Componentry.Console.Markup
import Componentry.Console.Table

namespace Componentry.Console

/-- the cells of a line -/
def screenWidth : Nat := 1000

/-- what is printed in one go: a text with markup, or a table with markup in its cells -/
inductive Block where
  | text (markup : Text)
  | table (t : Table)

/-- all texts of a table, one column after the other -/
def Table.texts (t : Table) : List Text :=
  (List.range t.heads.length).flatMap fun i => t.heads.getD i [] :: t.rows.map fun row => row.getD i []

/-- a table without the markup in its cells; the fault that is met first is the one further to the left -/
def Table.shown (t : Table) : Except Markup.Fault Table :=
  (t.texts.mapM Markup.shown).bind fun _ =>
    (t.heads.mapM Markup.shown).bind fun heads =>
      (t.rows.mapM fun (row : List Text) => row.mapM Markup.shown).map fun rows => ⟨t.title, heads, rows⟩

namespace Block

/-- the lines of a block without its markup -/
def shown : Block → Except Markup.Fault Text
  | .text markup => (Markup.shown markup).map fun t => (wrap .fold screenWidth t).flatMap fun line => line ++ ['\n']
  | .table t => t.shown.map fun t => t.text screenWidth

end Block

/-- why a screen refuses a block, in words -/
structure Screen.Refusal where
  message : Text

/-- a screen: the lines that it shows of a block, or why it refuses the block -/
abbrev Screen := Block → Except Screen.Refusal Text

namespace Screen

/-- the usual screen -/
def usual : Screen := fun b => b.shown.mapError fun f => ⟨f.message⟩

/-- the lines that a screen shows of blocks, up to the first that it refuses -/
def shownAll (screen : Screen) : List Block → Text × Option Refusal
  | [] => ([], none)
  | b :: rest =>
    match screen b with
    | .error refusal => ([], some refusal)
    | .ok t =>
      let (more, refusal) := shownAll screen rest
      (t ++ more, refusal)

end Screen

end Componentry.Console
