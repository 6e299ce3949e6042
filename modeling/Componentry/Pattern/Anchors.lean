/-
The insertion points of the edited files, as patterns.
-/
import Componentry.Pattern.Basic

namespace Componentry.Pattern

/-- a quoted text that is kept; the closing quote repeats the opening one -/
def quotedPart (g : Group) (inside : CharSet) : Pattern :=
  kept .quote (set (.oneOf false ['\'', '"'])) ++ kept g (many inside true true) ++ again .quote

/-- one import statement, over several lines if need be, that ends its line -/
def importStatement : Pattern :=
  lineStart ++ text "import".toList ++ many .blank true true ++
  option (many (.noneOf [';', '\'', '"']) false false ++ wordEdge ++ text "from".toList ++ many .blank false true) ++
  quotedPart .source (.noneOf ['\'', '"', '\r', '\n']) ++ option (text [';']) ++
  many (.oneOf false [' ', '\t']) false true ++ ahead (option (set (.only '\r')) ++ lineEnd)

/-- the source of an import statement that stands alone -/
def statementSource : Pattern :=
  quotedPart .source (.noneOf ['\'', '"', '\r', '\n']) ++ option (text [';']) ++ many .blank false true ++ lineEnd

/-- the target of a navigation link -/
def linkTarget : Pattern :=
  wordEdge ++ text "to=".toList ++ quotedPart .key (.noneOf ['\'', '"'])

/-- one complete element of a given tag, up to its first closing tag -/
def element (tag : Text) : Pattern :=
  text ('<' :: tag) ++ ahead (set (.oneOf true ['/', '>'])) ++ many .any false false ++
  text ("</".toList ++ tag ++ ['>'])

/-- the head of a constant list of a given name, up to its bracket -/
def constantList (name : Text) : Pattern :=
  wordEdge ++ text "const".toList ++ many .blank true true ++ text name ++ wordEdge ++
  many (.noneOf ['=', '\n']) false true ++ text ['='] ++ many .blank false true ++ text ['[']

/-- the head of an export list, up to its brace -/
def exportList : Pattern :=
  wordEdge ++ text "export".toList ++ many .blank false true ++ text ['\x7b']

/-- what follows the brace of a list that exports from elsewhere -/
def fromClause : Pattern :=
  many .blank false true ++ text "from".toList ++ wordEdge

/-- a key with the bracket of its list -/
def keyedList (key : Text) : Pattern :=
  wordEdge ++ text key ++ many .blank false true ++ text [':'] ++ many .blank false true ++ text ['[']

end Componentry.Pattern
