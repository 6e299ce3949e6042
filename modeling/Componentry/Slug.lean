/-
Slugs, the lower case names of components, and the names derived from them.
-/
import Componentry.Text.Blank
import Componentry.Text.Upper

namespace Componentry

namespace Text

/-- the text without one line feed at its end; a name's check looks at the name up to there -/
def chomp (t : Text) : Text := if t.getLast? = some '\n' then t.dropLast else t

/-- a small ASCII letter -/
def isLower (c : Char) : Bool := 'a' ≤ c && c ≤ 'z'

/-- a capital ASCII letter -/
def isCapital (c : Char) : Bool := 'A' ≤ c && c ≤ 'Z'

/-- an ASCII digit -/
def isDigit (c : Char) : Bool := '0' ≤ c && c ≤ '9'

end Text

namespace Slug

open Text

/-- the characters of a slug: small letters, digits and hyphens -/
def isSlugChar (c : Char) : Bool := isLower c || isDigit c || c = '-'

/-- whether a text is a slug -/
def isValid (slug : Text) : Bool := !(chomp slug).isEmpty && (chomp slug).all isSlugChar

/-- why a text cannot name a component -/
inductive Problem where
  | empty
  | foreignCharacter
  | hyphensOnly
  deriving DecidableEq

/-- the wording of a problem -/
def Problem.message : Problem → Text
  | .empty => "Component name must not be empty".toList
  | .foreignCharacter => "Component name may only contain lowercase letters, digits and hyphens".toList
  | .hyphensOnly => "Component name must contain a letter or digit".toList

/-- what is wrong with a slug, if anything -/
def problem? (slug : Text) : Option Problem :=
  if slug = [] then some .empty
  else if !isValid slug then some .foreignCharacter
  else if slug.all (· = '-') then some .hyphensOnly
  else none

/-- a segment with its first character in upper case -/
def capitalised : Text → Text
  | [] => []
  | c :: rest => upper c ++ rest

/-- the hyphen-separated segments, capitalised and joined -/
def pascal (slug : Text) : Text := (splitAt '-' slug).flatMap capitalised

/-- the tag of a component: a token in front of its pascal name -/
def tag (tagPrefix slug : Text) : Text := tagPrefix ++ pascal slug

/-- the CSS class of a component: a token, a hyphen and the slug -/
def cssClass (cssPrefix slug : Text) : Text := cssPrefix ++ '-' :: slug

end Slug

namespace Title

/-- a title needs a character that is not blank -/
def isBlank (title : Text) : Bool := title.all Text.isBlank

/-- the wording for a blank title -/
def blankMessage : Text := "Component title must not be empty".toList

/-- what is wrong with a title, if anything -/
def problem? (title : Text) : Option Text := if isBlank title then some blankMessage else none

end Title

end Componentry
