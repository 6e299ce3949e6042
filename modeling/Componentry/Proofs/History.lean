/-
Components that are there stay as they are, whatever requests come after them.

A library in the standard layout answers requests one after the other, each in the tree that the one before left
(`answer`, `later`). Slugs and titles are arbitrary; a run may be done, fail and undo what it did, or let something escape.
- `run_keeps`: whatever its end, a run leaves alone what it finds, except for the files of listings. Whichever
  listings there are, and on whichever plain paths.
- `later_keeps`: so does every sequence of runs.
- `done_taken`: a run that is done leaves its component's directory.
- `done_apart`: its new files are no listings' files (`done_created`: those that it reports).
- `Taken.refused`: where the directory of a component is there, a request for the same slug is turned down.

Main result: `history_undamaged`.
-/
import Componentry.Proofs.Completing
import Componentry.Proofs.Restoring

namespace Componentry

/-! ## The standard layout -/

/-- a path with components added -/
def Path.below (p : Path) (names : List Text) : Path := ⟨p.anchor, p.names ++ names⟩

theorem Path.append_here (p : Path) (names : List Text) : p ++ (⟨.here, names⟩ : Path) = p.below names := rfl

theorem FileTree.place_below (t : FileTree) (p : Path) (names : List Text) :
    t.place (p.below names) = t.place p ++ names := (List.append_assoc _ _ _).symm

namespace Settings

/-- the standard layout at a root that goes up nowhere; names are arbitrary -/
structure IsStandard (s : Settings) : Prop where
  root : s.root.IsPlain
  componentsDir : s.componentsDir = .ofText "packages/components/src".toList
  docsDir : s.docsDir = .ofText "packages/docs/src".toList
  indexFile : s.indexFile = "index.ts".toList
  routerFile : s.routerFile = "router.ts".toList
  navigationFile : s.navigationFile = "components/SideNav.vue".toList
  pagesDir : s.pagesDir = "pages".toList

theorem standard_isStandard {root : Path} (h : root.IsPlain) : (standard root).IsStandard :=
  ⟨h, rfl, rfl, rfl, rfl, rfl, rfl⟩

section

variable {s : Settings} (h : s.IsStandard)
include h

theorem IsStandard.isPlain : s.IsPlain := by
  refine ⟨h.root, ?_, ?_, ?_⟩
  · rw [h.componentsDir]
    decide
  · rw [h.docsDir]
    decide
  · rw [h.pagesDir]
    decide

theorem IsStandard.componentsPath :
    s.componentsPath = s.root.below ["packages".toList, "components".toList, "src".toList] := by
  have hdir : Path.ofText "packages/components/src".toList =
      ⟨.here, ["packages".toList, "components".toList, "src".toList]⟩ := by decide
  rw [Settings.componentsPath, h.componentsDir, hdir, Path.append_here]

theorem IsStandard.docsPath : s.docsPath = s.root.below ["packages".toList, "docs".toList, "src".toList] := by
  have hdir : Path.ofText "packages/docs/src".toList =
      ⟨.here, ["packages".toList, "docs".toList, "src".toList]⟩ := by decide
  rw [Settings.docsPath, h.docsDir, hdir, Path.append_here]

/-- where the listings are, from the root -/
theorem IsStandard.listings : (Listing.all s).map (·.path) =
    [s.root.below ["packages".toList, "components".toList, "src".toList, "index.ts".toList],
     s.root.below ["packages".toList, "docs".toList, "src".toList, "router.ts".toList],
     s.root.below ["packages".toList, "docs".toList, "src".toList, "components".toList, "SideNav.vue".toList]] := by
  have hindex : s.indexPath = s.root.below ["packages".toList, "components".toList, "src".toList, "index.ts".toList] := by
    rw [indexPath, h.componentsPath, h.indexFile, Path.child_name (by decide) (by decide)]
    simp only [Path.below, List.append_assoc, List.cons_append, List.nil_append]
  have hrouter : s.routerPath = s.root.below ["packages".toList, "docs".toList, "src".toList, "router.ts".toList] := by
    rw [routerPath, h.docsPath, h.routerFile, Path.child_name (by decide) (by decide)]
    simp only [Path.below, List.append_assoc, List.cons_append, List.nil_append]
  have hnav : s.navigationPath = s.root.below
      ["packages".toList, "docs".toList, "src".toList, "components".toList, "SideNav.vue".toList] := by
    have hfile : Path.ofText "components/SideNav.vue".toList =
        ⟨.here, ["components".toList, "SideNav.vue".toList]⟩ := by decide
    rw [navigationPath, h.docsPath, h.navigationFile, Path.child, hfile, Path.append_here]
    simp only [Path.below, List.append_assoc, List.cons_append, List.nil_append]
  rw [← hindex, ← hrouter, ← hnav]
  rfl

theorem IsStandard.listing_isPlain : ∀ k ∈ Listing.all s, k.path.IsPlain ∧ k.path.anchor = s.root.anchor := by
  intro k hk
  have hpath : k.path ∈ (Listing.all s).map (·.path) := List.mem_map_of_mem hk
  rw [h.listings] at hpath
  have hplain : ∀ {names}, ['.', '.'] ∉ names → (s.root.below names).IsPlain := fun hn hup =>
    (List.mem_append.1 hup).elim h.root hn
  simp only [List.mem_cons, List.not_mem_nil, or_false] at hpath
  rcases hpath with hp | hp | hp <;> rw [hp] <;> exact ⟨hplain (by decide), rfl⟩

/-- where the artifacts of a component are, from the root -/
theorem IsStandard.artifacts {c : Component} (hc : Slug.problem? c.slug = none) :
    (Artifact.all s c).map (·.path) =
      [s.root.below ["packages".toList, "components".toList, "src".toList, c.slug, "src".toList,
          c.pascalName ++ ".vue".toList],
       s.root.below ["packages".toList, "components".toList, "src".toList, c.slug, "index.ts".toList],
       s.root.below ["packages".toList, "docs".toList, "src".toList, "pages".toList, c.slug, "index.md".toList]] := by
  have hpages : s.docsPath.child s.pagesDir =
      s.root.below ["packages".toList, "docs".toList, "src".toList, "pages".toList] := by
    rw [h.docsPath, h.pagesDir, Path.child_name (by decide) (by decide)]
    simp only [Path.below, List.append_assoc, List.cons_append, List.nil_append]
  rw [Artifact.all_paths s hc, hpages, h.componentsPath]
  simp only [Path.below, List.append_assoc, List.cons_append, List.nil_append]

theorem IsStandard.componentDir {slug : Text} (hslug : Slug.problem? slug = none) :
    s.componentDir slug = s.root.below ["packages".toList, "components".toList, "src".toList, slug] := by
  obtain ⟨hslash, hname, -⟩ := Slug.isName_slug hslug
  rw [Settings.componentDir, h.componentsPath, Path.child_name hslash hname]
  simp only [Path.below, List.append_assoc, List.cons_append, List.nil_append]

/-- what is neither of the listings' names from the root is not where a listing is -/
theorem IsStandard.place_notMem (t : FileTree) {names : List Text}
    (hindex : names ≠ ["packages".toList, "components".toList, "src".toList, "index.ts".toList])
    (hrouter : names ≠ ["packages".toList, "docs".toList, "src".toList, "router.ts".toList])
    (hnav : names ≠ ["packages".toList, "docs".toList, "src".toList, "components".toList, "SideNav.vue".toList]) :
    t.place (s.root.below names) ∉ (Listing.all s).map fun k => t.place k.path := by
  rw [show ((Listing.all s).map fun k => t.place k.path) = ((Listing.all s).map (·.path)).map t.place by simp,
    h.listings]
  simp only [List.map_cons, List.map_nil, FileTree.place_below, List.mem_cons, List.append_cancel_left_eq,
    List.not_mem_nil, or_false, not_or]
  exact ⟨hindex, hrouter, hnav⟩

theorem IsStandard.artifact_notMem (t : FileTree) {c : Component} (hc : Slug.problem? c.slug = none) {a : Artifact}
    (ha : a ∈ Artifact.all s c) : t.place a.path ∉ (Listing.all s).map fun k => t.place k.path := by
  have hpath : a.path ∈ (Artifact.all s c).map (·.path) := List.mem_map_of_mem ha
  rw [h.artifacts hc] at hpath
  simp only [List.mem_cons, List.not_mem_nil, or_false] at hpath
  rcases hpath with hp | hp | hp <;> rw [hp] <;> apply h.place_notMem t <;> simp

theorem IsStandard.componentDir_notMem (t : FileTree) {slug : Text} (hslug : Slug.problem? slug = none) :
    t.place (s.componentDir slug) ∉ (Listing.all s).map fun k => t.place k.path := by
  have hindex : slug ≠ "index.ts".toList := by
    rintro rfl
    exact Slug.dot_notMem hslug (by decide)
  rw [h.componentDir hslug]
  refine h.place_notMem t ?_ ?_ ?_
  · simpa using hindex
  · simp
  · simp

end

end Settings

namespace Creation

open FileTree

/-! ## One run -/

/-- a tree in which everything is still there that was in another, and holds the same, except at the given places -/
structure Keeps (places : List Location) (t u : FileTree) : Prop where
  sound : u.Sound
  current : u.current = t.current
  keeps : ∀ l e, l ∉ places → t.get? l = some e → u.get? l = some e

theorem Keeps.of_grows {places : List Location} {t u : FileTree} (h : Grows t u) : Keeps places t u :=
  ⟨h.sound, h.current, fun l e _ => h.keeps l e⟩

theorem Keeps.trans {places : List Location} {t u v : FileTree} (h : Keeps places t u) (k : Keeps places u v) :
    Keeps places t v :=
  ⟨k.sound, k.current.trans h.current, fun l e hl ht => k.keeps l e hl (h.keeps l e hl ht)⟩

theorem Keeps.of_differs {places : List Location} {t u : FileTree} (ht : t.Sound) (h : DiffersAt places t u) :
    Keeps places t u :=
  ⟨h.alike.sound ht, h.alike.current, fun l _ hl => (h.rest l hl).trans⟩

/-- what a plain path leads to is still there, and the path still leads to it -/
theorem Keeps.look {places : List Location} {t u : FileTree} (h : Keeps places t u) {p : Path} (hp : p.IsPlain)
    (hout : t.place p ∉ places) {e : Entry} (hl : t.look p = .ok e) : u.look p = .ok e := by
  obtain ⟨l, hloc, hget⟩ := look_ok.1 hl
  obtain rfl : l = t.place p := locate_plain hp hloc
  have hkept := h.keeps _ _ hout hget
  exact look_ok.2 ⟨_, h.sound.locate_of_entry h.current hp hloc hkept, hkept⟩

section

variable {s : Settings} {t : FileTree} {slug : Text}

/-- Whatever its end, a run leaves alone what it finds, except for the files of listings. -/
theorem run_keeps (hs : s.IsPlain) {ls : List Listing} (hls : ∀ l ∈ ls, l.path.IsPlain ∧ l.path.anchor = s.root.anchor)
    (ht : t.Sound) (slug title : Text) :
    Keeps (ls.map fun l => t.place l.path) t (run s ls none t slug title).tree := by
  have hmade := (begun_made ht (requested s slug title)).createArtifacts (Artifact.all s (requested s slug title))
  -- the listings change their own files alone, and find what the artifacts left
  have hlisted : ∀ {made after ending}, createArtifacts (begun t (requested s slug title))
      (Artifact.all s (requested s slug title)) = (made, none) →
      updateListings (enter made .mutatingRegistries) (requested s slug title) ls = (after, ending) →
      Keeps (ls.map fun l => t.place l.path) t after.tree := by
    intro made after ending created listed
    rw [created] at hmade
    have hgrows := hmade.records.grows
    have hframe := updateListings_frame (enter made .mutatingRegistries) (requested s slug title) fun l hl => (hls l hl).1
    rw [listed] at hframe
    simp only [enter_tree, place_congr hgrows.current] at hframe
    exact (Keeps.of_grows hgrows).trans (.of_differs hgrows.sound hframe)
  have hend := run_ending s ls none t slug title
  generalize run s ls none t slug title = r at hend ⊢
  cases hend with
  | turnedDown | lookEscaped => exact .of_grows (.refl ht)
  | uncreated accepted stopped =>
    rw [stopped] at hmade
    exact .of_grows (hmade.undo_grows ht)
  | fileEscaped accepted stopped =>
    rw [stopped] at hmade
    exact .of_grows hmade.records.grows
  | unlisted accepted created stopped => exact .of_grows (unlisted_undo hs hls ht accepted created stopped).2
  | listingEscaped accepted created stopped => exact hlisted created stopped
  | finished accepted created listed =>
    have hkeeps := hlisted created listed
    exact hkeeps

/-- the directory of a component with a slug is there -/
structure Taken (s : Settings) (t : FileTree) (slug : Text) : Prop where
  valid : Slug.problem? slug = none
  there : t.look (s.componentDir slug) = .ok .dir

/-- where the directory of a component is there, a request for the same slug is turned down -/
theorem Taken.refused (h : Taken s t slug) (ls : List Listing) (f : Option Formatter) (title : Text) :
    ∃ v, (run s ls f t slug title).verdict = .ok v ∧ v.history = turnedDownCourse ∧ v.phase = .failed ∧
      (run s ls f t slug title).tree = t := by
  have hpresent : t.isPresent (s.componentDir slug) = .ok true := by
    unfold isPresent
    rw [h.there]
  have hinvalid : ∃ invalid, validate s t slug title = .error (.handled invalid) := by
    unfold validate
    simp only [h.valid, firstTaken, places, hpresent]
    split_ifs
    · exact ⟨_, rfl⟩
    · exact ⟨_, rfl⟩
  obtain ⟨invalid, hinvalid⟩ := hinvalid
  unfold run
  rw [hinvalid]
  exact ⟨_, rfl, rfl, rfl, rfl⟩

end

/-! ## Requests one after the other -/

/-- what is asked for: a slug and a title -/
structure Request where
  slug : Text
  title : Text

/-- the report of a request to a library with the default listings and no formatter -/
def answer (s : Settings) (t : FileTree) (q : Request) : Report := run s (Listing.all s) none t q.slug q.title

/-- the tree after some requests -/
def later (s : Settings) (t : FileTree) (qs : List Request) : FileTree := qs.foldl (fun t q => (answer s t q).tree) t

/-- whether a run came to its end -/
def Report.IsDone (r : Report) : Prop := r.verdict.toOption.map (·.phase) = some .done

instance (r : Report) : Decidable r.IsDone := inferInstanceAs (Decidable (_ = _))

theorem Report.IsDone.verdict {r : Report} (h : r.IsDone) : ∃ v, r.verdict = .ok v ∧ v.phase = .done := by
  obtain ⟨v, hv, hphase⟩ := Option.map_eq_some_iff.1 h
  exact ⟨v, r.verdict_ok hv, hphase⟩

/-- the slugs of the requests that are done, in order -/
def doneSlugs (s : Settings) (t : FileTree) : List Request → List Text
  | [] => []
  | q :: qs =>
    let r := answer s t q
    if r.IsDone then q.slug :: doneSlugs s r.tree qs else doneSlugs s r.tree qs

section

variable {s : Settings} (hs : s.IsStandard) {t : FileTree} (ht : t.Sound)

include hs ht

theorem answer_keeps (q : Request) : Keeps ((Listing.all s).map fun k => t.place k.path) t (answer s t q).tree :=
  run_keeps hs.isPlain hs.listing_isPlain ht q.slug q.title

/-- what is there outside the listings is still there, and holds the same, after any requests -/
theorem later_keeps (qs : List Request) : Keeps ((Listing.all s).map fun k => t.place k.path) t (later s t qs) := by
  induction qs generalizing t with
  | nil => exact .of_grows (.refl ht)
  | cons q qs ih =>
    have hfirst := answer_keeps hs ht q
    have hrest := ih hfirst.sound
    simp only [place_congr hfirst.current] at hrest
    exact hfirst.trans hrest

theorem Taken.later {slug : Text} (h : Taken s t slug) (qs : List Request) : Taken s (later s t qs) slug :=
  ⟨h.valid, (later_keeps hs ht qs).look (hs.isPlain.componentDir h.valid) (hs.componentDir_notMem t h.valid) h.there⟩

/-- a run that is done has made its artifacts, and changed the files of listings alone since then -/
theorem done_made {q : Request} {v : Verdict} (h : (answer s t q).verdict = .ok v) (hd : v.phase = .done) :
    ∃ made, Furnished t (Artifact.all s (requested s q.slug q.title)) made ∧
      DiffersAt ((Listing.all s).map fun k => t.place k.path) made.tree (answer s t q).tree ∧
      Slug.problem? q.slug = none ∧ v.created = (Artifact.all s (requested s q.slug q.title)).map (·.path) := by
  obtain ⟨made, after, accepted, created, listed, hrun⟩ := run_done h hd
  obtain ⟨hmade, -⟩ := created_furnished hs.isPlain ht accepted created
  have hframe := updateListings_frame (enter made .mutatingRegistries) (requested s q.slug q.title)
    fun k hk => (hs.listing_isPlain k hk).1
  rw [listed] at hframe
  simp only [enter_tree, place_congr hmade.grows.current] at hframe
  have htree : (answer s t q).tree = after.tree := by
    rw [answer, hrun]
    rfl
  rw [answer, hrun] at h
  obtain ⟨_, -, rfl⟩ := verdict_of_finished created listed h
  exact ⟨made, hmade, htree ▸ hframe, (validate_ok accepted).1, rfl⟩

/-- the directory of its component is there after a run that is done -/
theorem done_taken {q : Request} {v : Verdict} (h : (answer s t q).verdict = .ok v) (hd : v.phase = .done) :
    Taken s (answer s t q).tree q.slug := by
  obtain ⟨made, hmade, hframe, hvalid, -⟩ := done_made hs ht h hd
  -- the module lies in the directory of the component
  have hmodule : ⟨(s.componentDir q.slug).child "index.ts".toList, Artifact.moduleBody (requested s q.slug q.title)⟩ ∈
      Artifact.all s (requested s q.slug q.title) := by
    simp [Artifact.all, requested]
  have hparent := look_parent (by rw [Path.child_name (by decide) (by decide)]; simp)
    (hframe.alike.locate.2 (hmade.leads _ hmodule))
  rw [Path.parent_child_name (by decide) (by decide)] at hparent
  exact ⟨hvalid, hparent⟩

/-- the files that it reports as created are there, and none is where a listing is -/
theorem done_created {q : Request} {v : Verdict} (h : (answer s t q).verdict = .ok v) (hd : v.phase = .done) {p : Path}
    (hp : p ∈ v.created) : p.IsPlain ∧ t.place p ∉ ((Listing.all s).map fun k => t.place k.path) ∧
      ∃ bytes, (answer s t q).tree.look p = .ok (.file bytes) := by
  obtain ⟨made, hmade, hframe, hvalid, hcreated⟩ := done_made hs ht h hd
  rw [hcreated] at hp
  obtain ⟨a, ha, rfl⟩ := List.mem_map.1 hp
  have hout := hs.artifact_notMem t hvalid ha
  have hfile := (hframe.rest _ hout).trans (hmade.files a ha).2
  exact ⟨Artifact.all_isPlain hs.isPlain hvalid a ha, hout, _,
    look_ok.2 ⟨_, hframe.alike.locate.2 (hmade.leads a ha), hfile⟩⟩

/-- nor is any other new file -/
theorem done_apart {q : Request} {v : Verdict} (h : (answer s t q).verdict = .ok v) (hd : v.phase = .done)
    {l : Location} {bytes : Bytes} (hn : t.get? l = none) (hl : (answer s t q).tree.get? l = some (.file bytes)) :
    l ∉ (Listing.all s).map fun k => t.place k.path := by
  intro hmem
  obtain ⟨made, hmade, hframe, hvalid, -⟩ := done_made hs ht h hd
  have hthere : made.tree.get? l ≠ none := by
    intro hnone
    rw [(hframe.alike.none l).2 hnone] at hl
    simp at hl
  have hnotdir : made.tree.get? l ≠ some .dir := by
    intro hdir
    rw [(hframe.alike.dir l).2 hdir] at hl
    simp at hl
  -- it was there before the listings, but it is no artifact
  have hkept := hmade.others l fun a ha heq => hs.artifact_notMem t hvalid ha (heq ▸ hmem)
  cases hm : made.tree.get? l with
  | none => exact hthere hm
  | some e =>
    cases e with
    | dir => exact hnotdir hm
    | file b => simp [content?, hm, hn] at hkept

/-- a slug whose directory is there is never done -/
theorem Taken.notMem_doneSlugs {slug : Text} (h : Taken s t slug) (qs : List Request) : slug ∉ doneSlugs s t qs := by
  induction qs generalizing t with
  | nil => simp [doneSlugs]
  | cons q qs ih =>
    have hkeeps := answer_keeps hs ht q
    have hrest := ih hkeeps.sound (h.later hs ht [q])
    unfold doneSlugs
    simp only
    split_ifs with hdone
    · rw [List.mem_cons, not_or]
      refine ⟨?_, hrest⟩
      rintro rfl
      obtain ⟨v, hv, hphase⟩ := Report.IsDone.verdict hdone
      obtain ⟨u, hu, -, hfailed, -⟩ := h.refused (Listing.all s) none q.title
      obtain rfl : v = u := Except.ok.inj (hv.symm.trans hu)
      simp [hphase] at hfailed
    · exact hrest

/-- no slug is done twice -/
theorem doneSlugs_nodup (qs : List Request) : (doneSlugs s t qs).Nodup := by
  induction qs generalizing t with
  | nil => simp [doneSlugs]
  | cons q qs ih =>
    have hkeeps := answer_keeps hs ht q
    unfold doneSlugs
    simp only
    split_ifs with hdone
    · obtain ⟨v, hv, hphase⟩ := Report.IsDone.verdict hdone
      have htaken := done_taken hs ht hv hphase
      exact List.nodup_cons.2 ⟨htaken.notMem_doneSlugs hs hkeeps.sound qs, ih hkeeps.sound⟩
    · exact ih hkeeps.sound

/-- what holds in a tree `u` that some requests have led to since a request was done in a tree `t` -/
structure Undamaged (s : Settings) (t : FileTree) (q : Request) (u : FileTree) : Prop where
  /-- the same slug is turned down, and nothing changes -/
  again : ∀ title, ∃ v, (answer s u ⟨q.slug, title⟩).verdict = .ok v ∧ v.history = turnedDownCourse ∧
    v.phase = .failed ∧ (answer s u ⟨q.slug, title⟩).tree = u
  /-- every file that was new is there, and holds the same bytes -/
  files : ∀ l bytes, t.get? l = none → (answer s t q).tree.get? l = some (.file bytes) → u.get? l = some (.file bytes)
  /-- so is every file that was reported as created, by its path -/
  created : ∀ v, (answer s t q).verdict = .ok v → ∀ p ∈ v.created, ∃ bytes,
    (answer s t q).tree.look p = .ok (.file bytes) ∧ u.look p = .ok (.file bytes)

theorem undamaged {q : Request} (h : (answer s t q).IsDone) (after : List Request) :
    Undamaged s t q (later s (answer s t q).tree after) := by
  obtain ⟨v, hv, hphase⟩ := Report.IsDone.verdict h
  have htaken := done_taken hs ht hv hphase
  have hfirst := answer_keeps hs ht q
  have hrest := later_keeps hs hfirst.sound after
  have hplaces : ∀ p, (answer s t q).tree.place p = t.place p := place_congr hfirst.current
  refine ⟨fun title => (htaken.later hs hfirst.sound after).refused _ _ title, fun l bytes hn hl => ?_,
    fun v' hv' p hp => ?_⟩
  · refine hrest.keeps l _ ?_ hl
    simpa only [hplaces] using done_apart hs ht hv hphase hn hl
  · obtain rfl : v = v' := Except.ok.inj (hv.symm.trans hv')
    obtain ⟨hplain, hout, bytes, hlook⟩ := done_created hs ht hv hphase hp
    exact ⟨bytes, hlook, hrest.look hplain (by simpa only [hplaces] using hout) hlook⟩

/-- **Components are never damaged.** In the standard layout, whatever requests are made one after the other: no slug is
done twice, and from the first time it is done its files stay as they are, and it is turned down. -/
theorem history_undamaged : (∀ qs, (doneSlugs s t qs).Nodup) ∧
    ∀ before q, (answer s (later s t before) q).IsDone → ∀ after,
      Undamaged s (later s t before) q (later s t (before ++ q :: after)) := by
  refine ⟨doneSlugs_nodup hs ht, fun before q hdone after => ?_⟩
  have hlater : later s t (before ++ q :: after) = later s (answer s (later s t before) q).tree after := by
    simp only [later, List.foldl_append, List.foldl_cons]
  rw [hlater]
  exact undamaged hs (later_keeps hs ht before).sound hdone after

end

/-- a component, the same once more, and one whose directories are made and taken back because its source's name is
too long -/
theorem history_undamaged_rollback :
    let s := Settings.standard (.ofText "repo".toList)
    let dirs := [["repo"], ["repo", "packages"], ["repo", "packages", "components"],
      ["repo", "packages", "components", "src"]]
    let t : FileTree := ⟨[], ['0'], (dirs.map fun d => (d.map (·.toList), .dir)) ++
      [(["repo", "packages", "components", "src", "index.ts"].map (·.toList),
        .file (Utf8.encode "import A from 'a'\nconst components = [A]\nexport \x7b A \x7d\n".toList))]⟩
    let card : Request := ⟨"card".toList, "Card".toList⟩
    let long : Request := ⟨List.replicate 252 'a', "Long".toList⟩
    s.IsStandard ∧ t.Sound ∧ (answer s t card).IsDone ∧
      (answer s (later s t [card, card]) long).phases? = some uncreatedCourse ∧
      (doneSlugs s t [card, card, long]).Nodup ∧ Undamaged s t card (later s t [card, card, long]) := by
  intro s dirs t card long
  have hs : s.IsStandard := Settings.standard_isStandard (by decide)
  have ht : t.Sound := .of_entries (by decide +kernel) (by decide +kernel)
  have hdone : (answer s t card).IsDone := by decide +kernel
  obtain ⟨hnodup, hundamaged⟩ := history_undamaged hs ht
  exact ⟨hs, ht, hdone, by decide +kernel, hnodup _, hundamaged [] card hdone [card, long]⟩

end Creation

end Componentry
