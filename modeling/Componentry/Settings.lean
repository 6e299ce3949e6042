/-
The settings of a component library: where its files are, and how its registered names are spelled.
-/
import Componentry.Component
import Componentry.Path

namespace Componentry

/-- the layout and naming of a component library -/
structure Settings where
  root : Path
  componentsDir : Path
  docsDir : Path
  indexFile : Text
  routerFile : Text
  navigationFile : Text
  pagesDir : Text
  tagPrefix : Text
  cssPrefix : Text
  componentsListName : Text
  routeChildrenKey : Text
  navigationElement : Text
  formatCommand : List Text
  formatEnabled : Bool
  deriving DecidableEq

namespace Settings

open Text

/-- a tag token starts with a capital and goes on with letters and digits -/
def isTagPrefix (t : Text) : Bool :=
  match chomp t with
  | [] => false
  | c :: rest => isCapital c && rest.all fun d => isCapital d || isLower d || isDigit d

/-- a CSS token starts with a small letter and goes on with small letters, digits and hyphens -/
def isCssPrefix (t : Text) : Bool :=
  match chomp t with
  | [] => false
  | c :: rest => isLower c && rest.all Slug.isSlugChar

/-- what is wrong with a tag token, if anything -/
def tagPrefixProblem? (t : Text) : Option Text :=
  if isTagPrefix t then none else some "Tag prefix must be PascalCase (e.g., Kg)".toList

/-- what is wrong with a CSS token, if anything -/
def cssPrefixProblem? (t : Text) : Option Text :=
  if isCssPrefix t then none else some "CSS prefix must be lowercase (e.g., kg)".toList

/-- the settings that hold for a library at a root unless others are given -/
def standard (root : Path) : Settings where
  root := root
  componentsDir := .ofText "packages/components/src".toList
  docsDir := .ofText "packages/docs/src".toList
  indexFile := "index.ts".toList
  routerFile := "router.ts".toList
  navigationFile := "components/SideNav.vue".toList
  pagesDir := "pages".toList
  tagPrefix := defaultTagPrefix
  cssPrefix := defaultCssPrefix
  componentsListName := "components".toList
  routeChildrenKey := "children".toList
  navigationElement := "router-link".toList
  formatCommand := ["pnpm".toList, "format".toList]
  formatEnabled := true

/-- a path field -/
def readPath : Datum.Reader Path := fun place d => Path.ofText <$> Datum.readPathText place d

/-- the settings a record describes; only the root must be given, and unknown fields do not matter -/
def ofFields (fields : Fields) : Checked Settings :=
  let std := standard ⟨.here, []⟩
  let text (name : String) (absent : Text) := fields.optional name.toList Datum.readText absent
  Settings.mk <$>
    fields.required "root".toList readPath <*>
    fields.optional "components_dir".toList readPath std.componentsDir <*>
    fields.optional "docs_dir".toList readPath std.docsDir <*>
    text "index_file" std.indexFile <*>
    text "router_file" std.routerFile <*>
    text "navigation_file" std.navigationFile <*>
    text "pages_dir" std.pagesDir <*>
    fields.optional "tag_prefix".toList (Datum.readCheckedText tagPrefixProblem?) std.tagPrefix <*>
    fields.optional "css_prefix".toList (Datum.readCheckedText cssPrefixProblem?) std.cssPrefix <*>
    text "components_list_name" std.componentsListName <*>
    text "route_children_key" std.routeChildrenKey <*>
    text "navigation_element" std.navigationElement <*>
    fields.optional "format_command".toList Datum.readTexts std.formatCommand <*>
    fields.optional "format_enabled".toList Datum.readFlag std.formatEnabled

/-- the sources of the component package -/
def componentsPath (s : Settings) : Path := s.root ++ s.componentsDir

/-- the sources of the documentation site -/
def docsPath (s : Settings) : Path := s.root ++ s.docsDir

/-- the file that exports every component -/
def indexPath (s : Settings) : Path := s.componentsPath.child s.indexFile

/-- the route table of the documentation site -/
def routerPath (s : Settings) : Path := s.docsPath.child s.routerFile

/-- the navigation bar of the documentation site -/
def navigationPath (s : Settings) : Path := s.docsPath.child s.navigationFile

/-- the directory of a component's sources -/
def componentDir (s : Settings) (slug : Text) : Path := s.componentsPath.child slug

/-- the directory of a component's documentation page -/
def docDir (s : Settings) (slug : Text) : Path := (s.docsPath.child s.pagesDir).child slug

end Settings

end Componentry
