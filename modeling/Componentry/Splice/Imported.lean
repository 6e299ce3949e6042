/-
Splicing a statement in after the import block.

The block is the run of import statements with nothing between them but blank lines and line comments.
-/
import Componentry.Splice.Basic

namespace Componentry.Splice

/-- whether a line may stand between two imports of one block -/
def isBlockGap (line : Text) : Bool :=
  (Text.trim line).isEmpty || "//".toList.isPrefixOf (Text.trim line)

/-- whether a match belongs to the block of the match before it -/
def sameBlock (content : Text) (previous next : Occurrence) : Bool :=
  (Text.lines (Text.slice content previous.stop next.start)).all isBlockGap

/-- the number of blocks that matches form -/
def blockCount (content : Text) (found : List Occurrence) : Nat :=
  ((found.zip found.tail).filter fun (a, b) => !sameBlock content a b).length + 1

/-- the source a statement imports from -/
def sourceOf? (statement : Text) : Option Text :=
  (Pattern.statementSource.first? false (Text.trim statement)).bind (·.part? .source)

/-- the sources of the imports in a text -/
def sources (anchor : Pattern) (content : Text) : List Text :=
  (anchor.occurrences true content).filterMap (·.part? .source)

/-- a text with a statement after its import block; a source imported already is not imported again -/
def afterImports (anchor : Pattern) (content statement : Text) : Except Fault Text :=
  let found := anchor.occurrences true content
  match found.getLast? with
  | none => .error (.noImport anchor)
  | some last =>
    if blockCount content found > 1 then .error (.manyBlocks anchor (blockCount content found))
    else
      let newline := Newline.ofContent content
      let inserted := insertAt content last.stop (newline.text ++ Text.withNewline newline statement)
      match sourceOf? statement with
      | some source =>
        if !anchor.keeps .source then .error .noSuchGroup
        else if (sources anchor content).contains source then .ok content
        else .ok inserted
      | none => if isPresent statement content then .ok content else .ok inserted

end Componentry.Splice
