/-
Components: a slug, a title and the two name tokens. Every other name of a component is derived from its slug.
-/
import Componentry.Datum
import Componentry.Slug

namespace Componentry

/-- the token in front of a component's tag unless another one is set -/
def defaultTagPrefix : Text := "Kg".toList

/-- the token in front of a component's CSS class unless another one is set -/
def defaultCssPrefix : Text := "kg".toList

/-- a component to be created -/
structure Component where
  slug : Text
  title : Text
  tagPrefix : Text
  cssPrefix : Text
  deriving DecidableEq

namespace Component

/-- the name a component is imported and exported by -/
def pascalName (c : Component) : Text := Slug.pascal c.slug

/-- the name a component is registered by -/
def tagName (c : Component) : Text := Slug.tag c.tagPrefix c.slug

/-- the CSS class of a component's root element -/
def cssClass (c : Component) : Text := Slug.cssClass c.cssPrefix c.slug

/-- the component a record describes: slug and title are checked, the title is trimmed -/
def ofFields (fields : Fields) : Checked Component :=
  Component.mk <$>
    fields.required "slug".toList (Datum.readCheckedText fun t => (Slug.problem? t).map (·.message)) <*>
    (Text.trim <$> fields.required "title".toList (Datum.readCheckedText Title.problem?)) <*>
    fields.optional "tag_prefix".toList Datum.readText defaultTagPrefix <*>
    fields.optional "css_prefix".toList Datum.readText defaultCssPrefix

end Component

end Componentry
