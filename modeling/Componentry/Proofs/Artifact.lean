/-
Where the artifacts of a component go.

- `Artifact.all_isPlain`: the paths of artifacts go up nowhere, unless the settings do.
- `Artifact.all_place`: an artifact goes into one of the two directories of its component.
-/
import Componentry.Artifact
import Componentry.Proofs.FileTree.Plain
import Componentry.Proofs.FileTree.Refusing
import Componentry.Proofs.Slug

namespace Componentry

/-! ## Plain paths -/

namespace Path

theorem mem_append_names {dir p : Path} {n : Text} (h : n ∈ (dir ++ p).names) : n ∈ dir.names ∨ n ∈ p.names := by
  change n ∈ (Path.append dir p).names at h
  unfold Path.append at h
  split_ifs at h
  · exact List.mem_append.1 h
  · exact Or.inr h

/-- the components of a spelled path are parts of its text -/
theorem mem_ofText {t n : Text} (h : n ∈ (ofText t).names) : n.Sublist t :=
  (Text.mem_splitAt (List.mem_filter.1 h).1).1

theorem IsPlain.append {dir p : Path} (hd : dir.IsPlain) (hp : p.IsPlain) : (dir ++ p).IsPlain :=
  fun h => (mem_append_names h).elim hd hp

/-- a text with a single dot spells no way up -/
theorem isPlain_ofText {t : Text} (h : t.count '.' ≤ 1) : (ofText t).IsPlain := by
  intro hup
  have := (mem_ofText hup).count_le '.'
  rw [show (['.', '.'] : Text).count '.' = 2 from rfl] at this
  omega

theorem IsPlain.child {dir : Path} (hd : dir.IsPlain) {t : Text} (h : (ofText t).IsPlain) : (dir.child t).IsPlain :=
  hd.append h

theorem IsPlain.parent {p : Path} (h : p.IsPlain) : p.parent.IsPlain :=
  fun hup => h (List.dropLast_subset _ hup)

end Path

namespace Settings

/-- settings whose paths go up nowhere -/
structure IsPlain (s : Settings) : Prop where
  root : s.root.IsPlain
  componentsDir : s.componentsDir.IsPlain
  docsDir : s.docsDir.IsPlain
  pagesDir : (Path.ofText s.pagesDir).IsPlain

end Settings

theorem Slug.dot_notMem {slug : Text} (h : Slug.problem? slug = none) : '.' ∉ slug := fun hd => by
  rcases Slug.mem_slug h hd with hd | hd <;> exact absurd hd (by decide)

theorem Slug.dot_notMem_pascal {slug : Text} (h : Slug.problem? slug = none) : '.' ∉ Slug.pascal slug := fun hd => by
  rcases Slug.mem_pascal h hd with hd | hd <;> exact absurd hd (by decide)

theorem Slug.isPlain_ofText {slug : Text} (h : Slug.problem? slug = none) : (Path.ofText slug).IsPlain :=
  Path.isPlain_ofText (by
    rw [List.count_eq_zero_of_not_mem (Slug.dot_notMem h)]
    omega)

theorem Settings.IsPlain.componentDir {s : Settings} (hs : s.IsPlain) {slug : Text} (h : Slug.problem? slug = none) :
    (s.componentDir slug).IsPlain :=
  (hs.root.append hs.componentsDir).child (Slug.isPlain_ofText h)

/-- the paths of artifacts go up nowhere, unless the settings do -/
theorem Artifact.all_isPlain {s : Settings} (hs : s.IsPlain) {c : Component} (hc : Slug.problem? c.slug = none) :
    ∀ a ∈ Artifact.all s c, a.path.IsPlain := by
  have hname : (Path.ofText (c.pascalName ++ ".vue".toList)).IsPlain := Path.isPlain_ofText (by
    rw [List.count_append, Component.pascalName, List.count_eq_zero_of_not_mem (Slug.dot_notMem_pascal hc)]
    decide)
  have hdir : (s.componentDir c.slug).IsPlain := hs.componentDir hc
  have hdoc : (s.docDir c.slug).IsPlain :=
    ((hs.root.append hs.docsDir).child hs.pagesDir).child (Slug.isPlain_ofText hc)
  intro a ha
  simp only [Artifact.all, List.mem_cons, List.not_mem_nil, or_false] at ha
  rcases ha with rfl | rfl | rfl
  · exact (hdir.child (Path.isPlain_ofText (by decide))).child hname
  · exact hdir.child (Path.isPlain_ofText (by decide))
  · exact hdoc.child (Path.isPlain_ofText (by decide))

/-! ## Names of artifacts -/

namespace Path

theorem anchorOf_of_notMem {t : Text} (h : '/' ∉ t) : anchorOf t = .here := by
  have htake : t.takeWhile (· = '/') = [] := by
    cases t with
    | nil => rfl
    | cons c t => simp_all [eq_comm]
  simp [anchorOf, htake]

theorem child_of_notMem {dir : Path} {t : Text} (h : '/' ∉ t) :
    dir.child t = ⟨dir.anchor, dir.names ++ (ofText t).names⟩ := by
  change Path.append dir (ofText t) = _
  simp [Path.append, ofText, anchorOf_of_notMem h]

/-- a text without slashes spells the one component that it is -/
theorem ofText_name {t : Text} (hslash : '/' ∉ t) (ht : isName t = true) : ofText t = ⟨.here, [t]⟩ := by
  rw [ofText, anchorOf_of_notMem hslash, Text.splitAt_of_notMem hslash, List.filter_cons_of_pos ht, List.filter_nil]

theorem child_name {dir : Path} {t : Text} (hslash : '/' ∉ t) (ht : isName t = true) :
    dir.child t = ⟨dir.anchor, dir.names ++ [t]⟩ := by
  rw [child, ofText_name hslash ht]
  rfl

/-- a file under a bare name sits in the directory itself -/
theorem parent_child_name {dir : Path} {t : Text} (hslash : '/' ∉ t) (ht : isName t = true) :
    (dir.child t).parent = dir := by
  rw [child_name hslash ht, parent, List.dropLast_concat]

end Path

/-- a slug is a single component -/
theorem Slug.isName_slug {slug : Text} (h : Slug.problem? slug = none) :
    '/' ∉ slug ∧ Path.isName slug = true ∧ slug ≠ ['.', '.'] := by
  have hslash : '/' ∉ slug := fun hs => by
    rcases Slug.mem_slug h hs with hs | hs <;> exact absurd hs (by decide)
  have hne : slug ≠ [] := by
    rintro rfl
    simp [Slug.problem?] at h
  have hdot : ∀ rest, slug ≠ '.' :: rest := by
    rintro rest rfl
    exact Slug.dot_notMem h List.mem_cons_self
  exact ⟨hslash, by simp [Path.isName, hne, hdot], hdot _⟩

theorem Slug.nul_notMem_pascal {slug : Text} (h : Slug.problem? slug = none) {c : Char} (hc : c = '\x00' ∨ c = '/') :
    c ∉ Slug.pascal slug := fun hd => by
  rcases hc with rfl | rfl <;> rcases Slug.mem_pascal h hd with hd | hd <;> exact absurd hd (by decide)

/-- and so is the name of its source -/
theorem Slug.isName_source {slug : Text} (h : Slug.problem? slug = none) :
    '/' ∉ Slug.pascal slug ++ ".vue".toList ∧ Path.isName (Slug.pascal slug ++ ".vue".toList) = true := by
  refine ⟨?_, ?_⟩
  · rw [List.mem_append, not_or]
    exact ⟨Slug.nul_notMem_pascal h (Or.inr rfl), by decide⟩
  · have hmem : 'v' ∈ Slug.pascal slug ++ ".vue".toList := List.mem_append_right _ (by decide)
    have hdot : Slug.pascal slug ++ ".vue".toList ≠ ['.'] := by
      intro heq
      rw [heq] at hmem
      exact absurd hmem (by decide)
    simp only [Path.isName, List.ne_nil_of_mem hmem, hdot, ne_eq, not_false_eq_true, decide_true, Bool.and_self]

/-- the paths of artifacts, below the sources and below the pages -/
theorem Artifact.all_paths (s : Settings) {c : Component} (hc : Slug.problem? c.slug = none) :
    (Artifact.all s c).map (·.path) =
      [⟨s.componentsPath.anchor, s.componentsPath.names ++ [c.slug, "src".toList, c.pascalName ++ ".vue".toList]⟩,
       ⟨s.componentsPath.anchor, s.componentsPath.names ++ [c.slug, "index.ts".toList]⟩,
       ⟨(s.docsPath.child s.pagesDir).anchor, (s.docsPath.child s.pagesDir).names ++ [c.slug, "index.md".toList]⟩] := by
  obtain ⟨hslash, hname, -⟩ := Slug.isName_slug hc
  obtain ⟨hslash', hname'⟩ := Slug.isName_source hc
  have hvue : ∀ dir : Path, dir.child (c.pascalName ++ ".vue".toList) =
      ⟨dir.anchor, dir.names ++ [c.pascalName ++ ".vue".toList]⟩ := fun dir => Path.child_name hslash' hname'
  have hsrc : ∀ dir : Path, dir.child "src".toList = ⟨dir.anchor, dir.names ++ ["src".toList]⟩ :=
    fun dir => Path.child_name (by decide) (by decide)
  have hindex : ∀ dir : Path, dir.child "index.ts".toList = ⟨dir.anchor, dir.names ++ ["index.ts".toList]⟩ :=
    fun dir => Path.child_name (by decide) (by decide)
  have hpage : ∀ dir : Path, dir.child "index.md".toList = ⟨dir.anchor, dir.names ++ ["index.md".toList]⟩ :=
    fun dir => Path.child_name (by decide) (by decide)
  simp only [Artifact.all, List.map_cons, List.map_nil, Settings.componentDir, Settings.docDir,
    Path.child_name hslash hname, hvue, hsrc, hindex, hpage, List.append_assoc, List.cons_append, List.nil_append]

/-- an artifact goes into one of the directories of its component, under names without NUL characters -/
theorem Artifact.all_place {s : Settings} {c : Component} (hc : Slug.problem? c.slug = none) {a : Artifact}
    (ha : a ∈ Artifact.all s c) : ∃ dir ∈ [s.componentDir c.slug, s.docDir c.slug], ∃ rest, rest ≠ [] ∧
      (∀ n ∈ rest, '\x00' ∉ n) ∧
      a.path = ⟨dir.anchor, dir.names ++ rest⟩ := by
  have hname : ∀ n ∈ (Path.ofText (c.pascalName ++ ".vue".toList)).names, '\x00' ∉ n := by
    intro n hn h0
    rcases List.mem_append.1 ((Path.mem_ofText hn).subset h0) with h0 | h0
    · exact Slug.nul_notMem_pascal hc (Or.inl rfl) h0
    · exact absurd h0 (by decide)
  have hslash : '/' ∉ c.pascalName ++ ".vue".toList := (Slug.isName_source hc).1
  simp only [Artifact.all, List.mem_cons, List.not_mem_nil, or_false] at ha
  rcases ha with rfl | rfl | rfl
  · refine ⟨s.componentDir c.slug, by simp,
      "src".toList :: (Path.ofText (c.pascalName ++ ".vue".toList)).names, by simp, ?_, ?_⟩
    · intro n hn
      rcases List.mem_cons.1 hn with rfl | hn
      · decide
      · exact hname n hn
    · rw [Path.child_of_notMem hslash, Path.child_of_notMem (by decide)]
      simp [Path.ofText, Text.splitAt, Path.isName]
  · refine ⟨s.componentDir c.slug, by simp, ["index.ts".toList], by simp, by decide, ?_⟩
    rw [Path.child_of_notMem (by decide)]
    rfl
  · refine ⟨s.docDir c.slug, by simp, ["index.md".toList], by simp, by decide, ?_⟩
    rw [Path.child_of_notMem (by decide)]
    rfl

theorem Path.hasNul_of_place {dir : Path} {rest : List Text} (h : ∀ n ∈ rest, '\x00' ∉ n) :
    Path.HasNul ⟨dir.anchor, dir.names ++ rest⟩ ↔ dir.HasNul := by
  constructor
  · rintro ⟨n, hn, h0⟩
    rcases List.mem_append.1 hn with hn | hn
    · exact ⟨n, hn, h0⟩
    · exact absurd h0 (h n hn)
  · rintro ⟨n, hn, h0⟩
    exact ⟨n, List.mem_append_left _ hn, h0⟩

/-- an artifact's path has a NUL character exactly if its parent has one -/
theorem Artifact.hasNul_parent {s : Settings} {c : Component} (hc : Slug.problem? c.slug = none) {a : Artifact}
    (ha : a ∈ Artifact.all s c) : a.path.parent.HasNul ↔ a.path.HasNul := by
  obtain ⟨dir, -, rest, hne, hrest, hp⟩ := Artifact.all_place hc ha
  have hparent : a.path.parent = ⟨dir.anchor, dir.names ++ rest.dropLast⟩ := by
    rw [hp, Path.parent, List.dropLast_append_of_ne_nil hne]
  rw [hparent, hp, Path.hasNul_of_place hrest, Path.hasNul_of_place fun n hn => hrest n (List.dropLast_subset _ hn)]

end Componentry
