/-
Listings: the hand-kept files that name every component, and the fragments a new component adds to them.

A listing is a path and a few steps, each an insertion point and a fragment. Applying it to the text of its file is
pure; only the index is fatal, because a component that is not exported cannot be used.
-/
import Componentry.Settings
import Componentry.Splice.Listed
import Componentry.Splice.Imported
import Componentry.Splice.Keyed
import Componentry.Splice.Trailing

namespace Componentry

/-- the ways to splice a fragment in at an anchor: four that are provided, and any other that depends on texts alone -/
inductive Splice where
  | listed (closer : Text) (reject : Option Pattern)
  | imported
  | keyed (closer : Text)
  | trailing (key : Option Pattern)
  | own (edit : Pattern → Text → Text → Except Splice.Fault Text)

/-- a text with a fragment spliced in at an anchor -/
def Splice.apply : Splice → Pattern → Text → Text → Except Splice.Fault Text
  | .listed closer reject, anchor, content, fragment => Splice.intoList anchor closer reject content fragment
  | .imported, anchor, content, fragment => Splice.afterImports anchor content fragment
  | .keyed closer, anchor, content, fragment => Splice.intoCollection anchor closer content fragment
  | .trailing key, anchor, content, fragment => Splice.afterLast anchor key content fragment
  | .own edit, anchor, content, fragment => edit anchor content fragment

namespace Listing

/-- one insertion point and the fragment that goes there -/
structure Step where
  description : Text
  splice : Splice
  anchor : Pattern
  fragment : Component → Text

/-- a step that failed, by its description, and why -/
structure Failure where
  step : Text
  fault : Splice.Fault

/-- a text after a step -/
def Step.apply (step : Step) (content : Text) (c : Component) : Except Splice.Fault Text :=
  step.splice.apply step.anchor content (step.fragment c)

/-- whether the anchor of a step occurs in a text -/
def Step.isAnchored (step : Step) (content : Text) : Bool := (step.anchor.first? true content).isSome

/-- a text after all steps in order, or the first step that fails -/
def applySteps (content : Text) (c : Component) : List Step → Except Failure Text
  | [] => .ok content
  | step :: steps =>
    match step.apply content c with
    | .error fault => .error ⟨step.description, fault⟩
    | .ok next => applySteps next c steps

end Listing

/-- a file that lists every component -/
structure Listing where
  name : Text
  path : Path
  steps : List Listing.Step
  fatal : Bool

namespace Listing

/-- the text of a listing's file with a component added -/
def apply (l : Listing) (content : Text) (c : Component) : Except Failure Text := applySteps content c l.steps

/-- the import of a component -/
def importFragment (c : Component) : Text :=
  "import \x7b ".toList ++ c.pascalName ++ " \x7d from './".toList ++ c.slug ++ ['\'']

/-- the entry of a component in a list -/
def entryFragment (c : Component) : Text := c.pascalName

/-- the route to a component's page -/
def routeFragment (pagesDir : Text) (c : Component) : Text :=
  "\n      \x7b\n        path: '".toList ++ c.slug ++ "',\n        name: '".toList ++ c.pascalName ++
  "',\n        component: () => import('./".toList ++ pagesDir ++ ['/'] ++ c.slug ++
  "/index.md')\n      \x7d,".toList

/-- the link to a component's page -/
def navigationFragment (tag : Text) (c : Component) : Text :=
  "\n        <".toList ++ tag ++ " to=\"/components/".toList ++ c.slug ++
  "\" class=\"nav-item\" active-class=\"active\">\n          ".toList ++ c.pascalName ++ [' '] ++ c.title ++
  "\n        </".toList ++ tag ++ ['>']

/-- the step that imports a component -/
def importStep : Step where
  description := "import statement".toList
  splice := .imported
  anchor := .importStatement
  fragment := importFragment

/-- the step that adds a component to the constant list of a given name -/
def arrayStep (name : Text) : Step where
  description := name ++ " array".toList
  splice := .listed [']'] none
  anchor := .constantList name
  fragment := entryFragment

/-- the step that exports a component -/
def exportStep : Step where
  description := "export list".toList
  splice := .listed ['\x7d'] (some .fromClause)
  anchor := .exportList
  fragment := entryFragment

/-- the step that adds the route to a component's page under a given key -/
def routeStep (key pagesDir : Text) : Step where
  description := "route ".toList ++ key
  splice := .keyed [']']
  anchor := .keyedList key
  fragment := routeFragment pagesDir

/-- the step that links a component's page after the last element of a given tag -/
def linkStep (tag : Text) : Step where
  description := "last ".toList ++ tag
  splice := .trailing (some .linkTarget)
  anchor := .element tag
  fragment := navigationFragment tag

/-- the export index of a library -/
def index (s : Settings) : Listing where
  name := "index".toList
  path := s.indexPath
  steps := [importStep, arrayStep s.componentsListName, exportStep]
  fatal := true

/-- the route table of a library -/
def router (s : Settings) : Listing where
  name := "router".toList
  path := s.routerPath
  steps := [routeStep s.routeChildrenKey s.pagesDir]
  fatal := false

/-- the navigation bar of a library -/
def navigation (s : Settings) : Listing where
  name := "navigation".toList
  path := s.navigationPath
  steps := [linkStep s.navigationElement]
  fatal := false

/-- the listings of a library, in the order in which they are updated -/
def all (s : Settings) : List Listing := [index s, router s, navigation s]

end Listing

end Componentry
