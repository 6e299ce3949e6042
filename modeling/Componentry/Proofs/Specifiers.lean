/-
Where the specifiers in generated text lead.

A generated text refers to another file by a specifier: a path that starts at the directory of the file it is written
into. The index gets `./<slug>`, the route table `./<pages>/<slug>/index.md`, the module `./src/<Name>.vue`. The settings
place those files by paths of their own, so the two must agree. `Path.resolve` follows a specifier the way a bundler
does, on the components alone: `..` takes the component before it away.

- `import_resolves_iff`, `page_resolves_iff`: the first two specifiers lead to the component and to its page exactly if
  the file they are written into sits where they take it to sit: in the sources, and where the pages directory starts.
- `part_resolves`: the third leads to the source of the component whatever the settings are.
- `bare_resolves`: with a bare file name for the index and the route table, and a relative pages directory, they do.
- `specifiers_resolve_iff`: the three together, about the texts and the artifacts of a component.
-/
import Componentry.Listing
import Componentry.Proofs.Artifact
import Componentry.Proofs.Pattern.Statements

namespace Componentry

/-! ## Paths without a look at the directories -/

namespace Path

/-- the components kept so far and one more: `..` goes back over the last one. With none to go back over it stays, unless
the path is anchored: nothing is above a root. -/
def climb (anchor : Anchor) (kept : List Text) (name : Text) : List Text :=
  if name ≠ ['.', '.'] then kept ++ [name]
  else
    match kept.getLast? with
    | none => if anchor = .here then [name] else []
    | some last => if last = ['.', '.'] then kept ++ [name] else kept.dropLast

/-- the path with every `..` taken away together with the component before it -/
def normal (p : Path) : Path := ⟨p.anchor, p.names.foldl (climb p.anchor) []⟩

/-- where a specifier leads that is written into a file of a directory -/
def resolve (dir : Path) (specifier : Text) : Path := (dir.child specifier).normal

theorem foldl_climb_of_plain {rest : List Text} (h : ['.', '.'] ∉ rest) (anchor : Anchor) (kept : List Text) :
    rest.foldl (climb anchor) kept = kept ++ rest := by
  induction rest generalizing kept with
  | nil => simp
  | cons name rest ih =>
    rw [List.mem_cons, not_or] at h
    obtain ⟨hname, hrest⟩ := h
    rw [List.foldl_cons, climb, if_pos (Ne.symm hname), ih hrest, List.append_assoc, List.singleton_append]

/-- components that go up nowhere stay as they are -/
theorem normal_append_plain (anchor : Anchor) (names : List Text) {rest : List Text} (h : ['.', '.'] ∉ rest) :
    normal ⟨anchor, names ++ rest⟩ = ⟨anchor, (normal ⟨anchor, names⟩).names ++ rest⟩ := by
  simp only [normal, List.foldl_append, foldl_climb_of_plain h]

/-- two paths with the same plain end are the same exactly if what is before it is -/
theorem normal_append_inj {a b : Anchor} {xs ys rest : List Text} (h : ['.', '.'] ∉ rest) :
    normal ⟨a, xs ++ rest⟩ = normal ⟨b, ys ++ rest⟩ ↔ normal ⟨a, xs⟩ = normal ⟨b, ys⟩ := by
  rw [normal_append_plain a xs h, normal_append_plain b ys h]
  constructor
  · intro heq
    obtain ⟨rfl, hnames⟩ := Path.mk.inj heq
    have hxs : (normal ⟨a, xs⟩).names = (normal ⟨a, ys⟩).names := List.append_cancel_right hnames
    exact Path.mk.injEq .. ▸ ⟨rfl, hxs⟩
  · intro heq
    obtain ⟨rfl, -⟩ := Path.mk.inj heq
    rw [heq]

/-! ## Spelled paths -/

theorem ofText_names_append (a b : Text) : (ofText (a ++ '/' :: b)).names = (ofText a).names ++ (ofText b).names := by
  simp only [ofText, Text.splitAt_append_sep, List.filter_append]

/-- a specifier starts at the directory it is written into, whatever comes after its dot -/
theorem ofText_dot (t : Text) : ofText (['.', '/'] ++ t) = ⟨.here, (ofText t).names⟩ := by
  have hnames : (ofText (['.'] ++ '/' :: t)).names = (ofText t).names := by
    rw [ofText_names_append]
    rfl
  rw [← hnames]
  rfl

theorem resolve_dot (dir : Path) (t : Text) :
    dir.resolve (['.', '/'] ++ t) = normal ⟨dir.anchor, dir.names ++ (ofText t).names⟩ := by
  rw [resolve, child, ofText_dot]
  rfl

end Path

/-! ## The three specifiers -/

namespace Specifier

open Index

/-- the specifier of a component's page, as the route table has it -/
def page (pagesDir : Text) (c : Component) : Text :=
  ['.', '/'] ++ (pagesDir ++ '/' :: (c.slug ++ '/' :: "index.md".toList))

/-- the specifier of a component's source, as its module has it -/
def part (c : Component) : Text := ['.', '/'] ++ ("src".toList ++ '/' :: (c.pascalName ++ ".vue".toList))

/-- the route to a page imports it by its specifier -/
theorem routeFragment_eq (pagesDir : Text) (c : Component) : ∃ before after,
    Listing.routeFragment pagesDir c = before ++ "import('".toList ++ page pagesDir c ++ "')".toList ++ after := by
  have hopen : "',\n        component: () => import('./".toList =
      "',\n        component: () => ".toList ++ ("import('".toList ++ ['.', '/']) := by decide
  have hclose : "/index.md')\n      \x7d,".toList =
      '/' :: "index.md".toList ++ ("')".toList ++ "\n      \x7d,".toList) := by decide
  refine ⟨"\n      \x7b\n        path: '".toList ++ c.slug ++ "',\n        name: '".toList ++ c.pascalName ++
    "',\n        component: () => ".toList, "\n      \x7d,".toList, ?_⟩
  unfold Listing.routeFragment
  rw [hopen, hclose, page]
  simp only [List.append_assoc, List.cons_append, List.nil_append]

/-- a module starts with the import of its source by its specifier -/
theorem moduleBody_eq (c : Component) : ∃ after,
    Artifact.moduleBody c = "import ".toList ++ c.pascalName ++ " from '".toList ++ part c ++ "'\n".toList ++ after := by
  have hopen : " from './src/".toList = " from '".toList ++ (['.', '/'] ++ ("src".toList ++ ['/'])) := by decide
  have hclose : ".vue'\nimport type \x7b App, Plugin \x7d from 'vue'\n\n".toList =
      ".vue".toList ++ ("'\n".toList ++ "import type \x7b App, Plugin \x7d from 'vue'\n\n".toList) := by decide
  unfold Artifact.moduleBody
  rw [hopen, hclose, part]
  simp only [List.append_assoc, List.cons_append, List.nil_append]
  exact ⟨_, rfl⟩

section Resolving

variable (s : Settings) {c : Component} (h : Slug.problem? c.slug = none)
include h

/-- the import in the index leads to the component exactly if the index sits in the sources -/
theorem import_resolves_iff : s.indexPath.parent.resolve (sourceOf c) = (s.componentDir c.slug).normal ↔
    s.indexPath.parent.normal = s.componentsPath.normal := by
  obtain ⟨hslash, hname, hup⟩ := Slug.isName_slug h
  have hrest : ['.', '.'] ∉ [c.slug] := by simpa using hup.symm
  rw [sourceOf, Path.resolve_dot, Path.ofText_name hslash hname, Settings.componentDir, Path.child_name hslash hname]
  exact Path.normal_append_inj hrest

/-- the import in the route table leads to the page exactly if the pages directory is the same directory from where the
route table sits as it is from the sources of the site -/
theorem page_resolves_iff :
    s.routerPath.parent.resolve (page s.pagesDir c) = ((s.docDir c.slug).child "index.md".toList).normal ↔
      s.routerPath.parent.resolve (['.', '/'] ++ s.pagesDir) = (s.docsPath.child s.pagesDir).normal := by
  obtain ⟨hslash, hname, hup⟩ := Slug.isName_slug h
  have hmd : '/' ∉ "index.md".toList ∧ Path.isName "index.md".toList = true := by decide
  have hrest : ['.', '.'] ∉ [c.slug, "index.md".toList] := by
    simp only [List.mem_cons, List.not_mem_nil, or_false, not_or]
    exact ⟨hup.symm, by decide⟩
  have hnames : (Path.ofText (s.pagesDir ++ '/' :: (c.slug ++ '/' :: "index.md".toList))).names =
      (Path.ofText s.pagesDir).names ++ [c.slug, "index.md".toList] := by
    rw [Path.ofText_names_append, Path.ofText_names_append, Path.ofText_name hslash hname,
      Path.ofText_name hmd.1 hmd.2, List.singleton_append]
  have hpage : (s.docDir c.slug).child "index.md".toList = ⟨(s.docsPath.child s.pagesDir).anchor,
      (s.docsPath.child s.pagesDir).names ++ [c.slug, "index.md".toList]⟩ := by
    rw [Settings.docDir, Path.child_name hslash hname, Path.child_name hmd.1 hmd.2, List.append_assoc,
      List.singleton_append]
  rw [page, Path.resolve_dot, hnames, hpage, ← List.append_assoc, Path.resolve_dot]
  exact Path.normal_append_inj hrest

/-- a module leads to the source of its component, wherever the component is -/
theorem part_resolves (dir : Path) : (dir.child "index.ts".toList).parent.resolve (part c) =
    ((dir.child "src".toList).child (c.pascalName ++ ".vue".toList)).normal := by
  obtain ⟨hslash, hname⟩ : '/' ∉ c.pascalName ++ ".vue".toList ∧ Path.isName (c.pascalName ++ ".vue".toList) = true :=
    Slug.isName_source h
  rw [Path.parent_child_name (by decide) (by decide), part, Path.resolve_dot, Path.ofText_names_append,
    Path.ofText_name hslash hname, Path.child_name hslash hname, Path.child_name (by decide) (by decide),
    List.append_assoc]
  rfl

end Resolving

/-! ## Settings -/

/-- with bare names for the index and the route table, and a relative pages directory, the specifiers in these two files
lead to the component and to its page -/
theorem bare_resolves {s : Settings} {c : Component} (h : Slug.problem? c.slug = none)
    (hindex : '/' ∉ s.indexFile ∧ Path.isName s.indexFile = true)
    (hrouter : '/' ∉ s.routerFile ∧ Path.isName s.routerFile = true)
    (hpages : (Path.ofText s.pagesDir).anchor = .here) :
    s.indexPath.parent.resolve (sourceOf c) = (s.componentDir c.slug).normal ∧
      s.routerPath.parent.resolve (page s.pagesDir c) = ((s.docDir c.slug).child "index.md".toList).normal := by
  have hi : s.indexPath.parent = s.componentsPath := Path.parent_child_name hindex.1 hindex.2
  have hr : s.routerPath.parent = s.docsPath := Path.parent_child_name hrouter.1 hrouter.2
  refine ⟨(import_resolves_iff s h).2 (by rw [hi]), (page_resolves_iff s h).2 ?_⟩
  rw [hr, Path.resolve_dot, Path.child]
  change _ = (Path.append s.docsPath (Path.ofText s.pagesDir)).normal
  rw [Path.append, if_pos hpages]

/-- Where the three specifiers of a component lead, as they stand in the import the index gets, in the route the route
table gets and in the component's module. -/
theorem specifiers_resolve_iff (s : Settings) {c : Component} (h : Slug.IsName c.slug) :
    ∃ sourceFile moduleFile pageFile, Artifact.all s c = [sourceFile, moduleFile, pageFile] ∧
      (Splice.sourceOf? (Listing.importFragment c) = some (sourceOf c) ∧
        (s.indexPath.parent.resolve (sourceOf c) = (s.componentDir c.slug).normal ↔
          s.indexPath.parent.normal = s.componentsPath.normal)) ∧
      ((∃ before after, Listing.routeFragment s.pagesDir c =
          before ++ "import('".toList ++ page s.pagesDir c ++ "')".toList ++ after) ∧
        (s.routerPath.parent.resolve (page s.pagesDir c) = pageFile.path.normal ↔
          s.routerPath.parent.resolve (['.', '/'] ++ s.pagesDir) = (s.docsPath.child s.pagesDir).normal)) ∧
      ((∃ after, moduleFile.body =
          "import ".toList ++ c.pascalName ++ " from '".toList ++ part c ++ "'\n".toList ++ after) ∧
        moduleFile.path.parent.resolve (part c) = sourceFile.path.normal) :=
  ⟨_, _, _, rfl, ⟨sourceOf?_importFragment h, import_resolves_iff s h.problem?_eq_none⟩,
    ⟨routeFragment_eq s.pagesDir c, page_resolves_iff s h.problem?_eq_none⟩,
    moduleBody_eq c, part_resolves h.problem?_eq_none (s.componentDir c.slug)⟩

/-- a component to follow the specifiers of -/
def card : Component := ⟨"card".toList, "Card".toList, defaultTagPrefix, defaultCssPrefix⟩

/-- in the standard layout the index leads to the component, and the route table to its page -/
theorem specifiers_resolve_standard : Slug.IsName card.slug ∧
    let s := Settings.standard ⟨.here, ["repo".toList]⟩
    s.indexPath.parent.resolve (sourceOf card) = (s.componentDir card.slug).normal ∧
      s.routerPath.parent.resolve (page s.pagesDir card) = ((s.docDir card.slug).child "index.md".toList).normal := by
  have hname : Slug.IsName card.slug := by decide
  obtain ⟨_, _, pageFile, hall, ⟨-, himport⟩, ⟨-, hpage⟩, -⟩ :=
    specifiers_resolve_iff (Settings.standard ⟨.here, ["repo".toList]⟩) hname
  obtain rfl : _ = pageFile := (List.cons.inj (List.cons.inj (List.cons.inj hall).2).2).1
  exact ⟨hname, himport.2 (by decide), hpage.2 (by decide)⟩

/-- An index or a route table in a directory of its own, and pages at an anchored path: settings that are accepted, and
specifiers that lead elsewhere. -/
theorem specifiers_not_resolved :
    let repo := Settings.standard ⟨.here, ["repo".toList]⟩
    let nested := { repo with indexFile := "lib/index.ts".toList, routerFile := "router/index.ts".toList }
    let anchored := { repo with pagesDir := "/srv/pages".toList }
    (Settings.ofFields [("root".toList, .text "repo".toList), ("index_file".toList, .text "lib/index.ts".toList),
        ("router_file".toList, .text "router/index.ts".toList)] = .ok nested ∧
      nested.indexPath.parent.resolve (sourceOf card) = .ofText "repo/packages/components/src/lib/card".toList ∧
      (nested.componentDir card.slug).normal = .ofText "repo/packages/components/src/card".toList ∧
      nested.routerPath.parent.resolve (page nested.pagesDir card) =
        .ofText "repo/packages/docs/src/router/pages/card/index.md".toList ∧
      ((nested.docDir card.slug).child "index.md".toList).normal =
        .ofText "repo/packages/docs/src/pages/card/index.md".toList) ∧
    (Settings.ofFields [("root".toList, .text "repo".toList), ("pages_dir".toList, .text "/srv/pages".toList)] =
        .ok anchored ∧
      anchored.routerPath.parent.resolve (page anchored.pagesDir card) =
        .ofText "repo/packages/docs/src/srv/pages/card/index.md".toList ∧
      ((anchored.docDir card.slug).child "index.md".toList).normal = .ofText "/srv/pages/card/index.md".toList) := by
  refine ⟨⟨rfl, ?_, ?_, ?_, ?_⟩, rfl, ?_, ?_⟩ <;> decide

end Specifier

end Componentry
