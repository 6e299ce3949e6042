/-
The record that settings are read from, field by field.

- `Checked.seq_eq_ok`, `Checked.map_eq_ok`: a value that is put together from checked parts comes of parts that are all
  right.
- `Settings.ofFields_eq_ok`: settings are those of a record exactly if each of them is read from its own field, or stands
  for one that is absent.
- `Settings.Describes.ofFields_tagPrefix`, `Settings.Describes.ofFields_cssPrefix`: a token in front of such a record is
  accepted exactly if it passes its check, and nothing else changes.
-/
import Mathlib.Tactic
import Componentry.Settings

namespace Componentry

namespace Checked

variable {α β : Type} {b : β} {a : Checked α}

theorem seq_eq_ok {f : Checked (α → β)} : f <*> a = .ok b ↔ ∃ g x, f = .ok g ∧ a = .ok x ∧ g x = b := by
  constructor
  · intro h
    cases f with
    | faulty es => cases a <;> cases h
    | ok g =>
      cases a with
      | faulty es => cases h
      | ok x => exact ⟨g, x, rfl, rfl, Checked.ok.inj h⟩
  · rintro ⟨g, x, rfl, rfl, rfl⟩
    rfl

theorem map_eq_ok {f : α → β} : f <$> a = .ok b ↔ ∃ x, a = .ok x ∧ f x = b := by
  constructor
  · intro h
    cases a with
    | faulty es => cases h
    | ok x => exact ⟨x, rfl, Checked.ok.inj h⟩
  · rintro ⟨x, rfl, rfl⟩
    rfl

end Checked

namespace Datum

variable {place : List Place} {d : Datum}

theorem readText_eq_ok {t : Text} : readText place d = .ok t ↔ d = .text t := by
  unfold readText
  split <;> simp_all [refuse]

theorem readPathText_eq_ok {t : Text} : readPathText place d = .ok t ↔ d = .text t := by
  unfold readPathText
  split <;> simp_all [refuse]

/-- items that are read as texts, one after the other, are texts -/
theorem foldr_readText_eq_ok {read : Datum × Nat → Checked Text}
    (hread : ∀ p, ∃ place, read p = readText place p.1) {items : List (Datum × Nat)} {ts : List Text} :
    (items.map read).foldr (fun item rest => List.cons <$> item <*> rest) (.ok []) = .ok ts ↔
      items.map Prod.fst = ts.map .text := by
  induction items generalizing ts with
  | nil => simp [eq_comm]
  | cons p items ih =>
    obtain ⟨place, hp⟩ := hread p
    simp only [List.map_cons, List.foldr_cons, Checked.seq_eq_ok, Checked.map_eq_ok, ih, hp, readText_eq_ok]
    constructor
    · rintro ⟨_, ts, ⟨t, hitem, rfl⟩, hitems, rfl⟩
      rw [hitem, hitems, List.map_cons]
    · intro h
      cases ts with
      | nil => simp at h
      | cons t ts =>
        obtain ⟨hitem, hitems⟩ := List.cons.inj h
        exact ⟨_, ts, ⟨t, hitem, rfl⟩, hitems, rfl⟩

/-- a list of texts is read if each of its items is -/
theorem readTexts_eq_ok {ts : List Text} : readTexts place d = .ok ts ↔ d = .list (ts.map .text) := by
  cases d with
  | list items =>
    unfold readTexts
    refine Iff.trans (foldr_readText_eq_ok ?_) ?_
    · exact fun p => ⟨place ++ [.item p.2], rfl⟩
    · rw [List.zipIdx_map_fst, list.injEq]
  | _ => simp [readTexts, refuse]

/-- a text is read if its check finds nothing -/
theorem readCheckedText_eq_ok_iff {check : Text → Option Text} {u : Text} :
    readCheckedText check place d = .ok u ↔ d = .text u ∧ check u = none := by
  unfold readCheckedText
  split
  · rename_i t
    split
    · rename_i reason h
      simp only [refuse, reduceCtorEq, text.injEq, false_iff, not_and]
      rintro rfl
      simp [h]
    · rename_i h
      simp only [Checked.ok.injEq, text.injEq]
      exact ⟨fun heq => ⟨heq, heq ▸ h⟩, And.left⟩
  · rename_i h
    simpa [refuse] using fun ht => absurd ht (h u)

theorem readCheckedText_eq_ok {check : Text → Option Text} {t u : Text} :
    readCheckedText check place (.text t) = .ok u ↔ check t = none ∧ u = t := by
  rw [readCheckedText_eq_ok_iff, text.injEq]
  constructor
  · rintro ⟨rfl, h⟩
    exact ⟨h, rfl⟩
  · rintro ⟨h, rfl⟩
    exact ⟨rfl, h⟩

/-- a flag is also read from the numbers 0 and 1, and from its words -/
theorem readFlag_eq_ok {b : Bool} : readFlag place d = .ok b ↔
    d = .flag b ∨ d = .whole (if b then 1 else 0) ∨ ∃ t, d = .text t ∧ flagWord? t = some b := by
  cases d with
  | flag b' => simp [readFlag]
  | whole n =>
    unfold readFlag
    by_cases h0 : n = 0
    · cases b <;> simp [h0]
    · by_cases h1 : n = 1
      · cases b <;> simp [h1]
      · have hrefused : (if fits n then refuse place .unreadableFlag else refuse place .notFlag) ≠ Checked.ok b := by
          split_ifs <;> simp [refuse]
        cases b <;> simpa [h0, h1] using hrefused
  | text t =>
    unfold readFlag
    cases h : flagWord? t <;> simp [refuse, h]
  | _ => simp [readFlag, refuse]

end Datum

namespace Fields

variable {α : Type} {fields fields' : Fields} {name other : Text} {d : Datum} {read : Datum.Reader α} {absent : α}

/-- what is read of a field depends on what the record has there -/
theorem required_congr (h : fields'.lookup name = fields.lookup name) :
    fields'.required name read = fields.required name read := by
  rw [required, required, h]

theorem optional_congr (h : fields'.lookup name = fields.lookup name) :
    fields'.optional name read absent = fields.optional name read absent := by
  rw [optional, optional, h]

/-- a field in front of a record is that field and no other -/
theorem optional_cons_self : Fields.optional ((name, d) :: fields) name read absent = read [.field name] d := by
  rw [optional, List.lookup_cons_self]

theorem lookup_cons_of_ne (h : other ≠ name) : List.lookup other ((name, d) :: fields) = fields.lookup other := by
  rw [List.lookup_cons, beq_false_of_ne h]

end Fields

namespace Settings

variable {fields : Fields} {s : Settings} {t : Text}

/-- a record that describes settings: each of them is read from its field, or is the standard one if that is absent -/
structure Describes (fields : Fields) (s : Settings) : Prop where
  root : fields.required "root".toList readPath = .ok s.root
  componentsDir : fields.optional "components_dir".toList readPath (standard ⟨.here, []⟩).componentsDir =
    .ok s.componentsDir
  docsDir : fields.optional "docs_dir".toList readPath (standard ⟨.here, []⟩).docsDir = .ok s.docsDir
  indexFile : fields.optional "index_file".toList Datum.readText (standard ⟨.here, []⟩).indexFile = .ok s.indexFile
  routerFile : fields.optional "router_file".toList Datum.readText (standard ⟨.here, []⟩).routerFile = .ok s.routerFile
  navigationFile : fields.optional "navigation_file".toList Datum.readText (standard ⟨.here, []⟩).navigationFile =
    .ok s.navigationFile
  pagesDir : fields.optional "pages_dir".toList Datum.readText (standard ⟨.here, []⟩).pagesDir = .ok s.pagesDir
  tagPrefix : fields.optional "tag_prefix".toList (Datum.readCheckedText tagPrefixProblem?)
    (standard ⟨.here, []⟩).tagPrefix = .ok s.tagPrefix
  cssPrefix : fields.optional "css_prefix".toList (Datum.readCheckedText cssPrefixProblem?)
    (standard ⟨.here, []⟩).cssPrefix = .ok s.cssPrefix
  componentsListName : fields.optional "components_list_name".toList Datum.readText
    (standard ⟨.here, []⟩).componentsListName = .ok s.componentsListName
  routeChildrenKey : fields.optional "route_children_key".toList Datum.readText
    (standard ⟨.here, []⟩).routeChildrenKey = .ok s.routeChildrenKey
  navigationElement : fields.optional "navigation_element".toList Datum.readText
    (standard ⟨.here, []⟩).navigationElement = .ok s.navigationElement
  formatCommand : fields.optional "format_command".toList Datum.readTexts (standard ⟨.here, []⟩).formatCommand =
    .ok s.formatCommand
  formatEnabled : fields.optional "format_enabled".toList Datum.readFlag (standard ⟨.here, []⟩).formatEnabled =
    .ok s.formatEnabled

/-- **settings are read from a record exactly if it describes them** -/
theorem ofFields_eq_ok : ofFields fields = .ok s ↔ Describes fields s := by
  simp only [ofFields, Checked.seq_eq_ok, Checked.map_eq_ok]
  constructor
  · rintro ⟨_, _, ⟨_, _, ⟨_, _, ⟨_, _, ⟨_, _, ⟨_, _, ⟨_, _, ⟨_, _, ⟨_, _, ⟨_, _, ⟨_, _, ⟨_, _, ⟨_, _, ⟨_, h1, rfl⟩, h2,
      rfl⟩, h3, rfl⟩, h4, rfl⟩, h5, rfl⟩, h6, rfl⟩, h7, rfl⟩, h8, rfl⟩, h9, rfl⟩, h10, rfl⟩, h11, rfl⟩, h12, rfl⟩, h13,
      rfl⟩, h14, rfl⟩
    exact ⟨h1, h2, h3, h4, h5, h6, h7, h8, h9, h10, h11, h12, h13, h14⟩
  · intro h
    exact ⟨_, _, ⟨_, _, ⟨_, _, ⟨_, _, ⟨_, _, ⟨_, _, ⟨_, _, ⟨_, _, ⟨_, _, ⟨_, _, ⟨_, _, ⟨_, _, ⟨_, _, ⟨_, h.root, rfl⟩,
      h.componentsDir, rfl⟩, h.docsDir, rfl⟩, h.indexFile, rfl⟩, h.routerFile, rfl⟩, h.navigationFile, rfl⟩,
      h.pagesDir, rfl⟩, h.tagPrefix, rfl⟩, h.cssPrefix, rfl⟩, h.componentsListName, rfl⟩, h.routeChildrenKey, rfl⟩,
      h.navigationElement, rfl⟩, h.formatCommand, rfl⟩, h.formatEnabled, rfl⟩

theorem tagPrefixProblem?_eq_none : tagPrefixProblem? t = none ↔ isTagPrefix t = true := by
  unfold tagPrefixProblem?
  split_ifs with h <;> simp [h]

theorem cssPrefixProblem?_eq_none : cssPrefixProblem? t = none ↔ isCssPrefix t = true := by
  unfold cssPrefixProblem?
  split_ifs with h <;> simp [h]

/-- **a record that differs from such a record in the two tokens is accepted exactly if these can be read** -/
theorem Describes.ofFields_eq_ok_iff {fields' : Fields} {s' : Settings} (h : Describes fields s)
    (hsame : ∀ name, name ≠ "tag_prefix".toList → name ≠ "css_prefix".toList → fields'.lookup name = fields.lookup name) :
    ofFields fields' = .ok s' ↔ ∃ t u,
      fields'.optional "tag_prefix".toList (Datum.readCheckedText tagPrefixProblem?)
        (standard ⟨.here, []⟩).tagPrefix = .ok t ∧
      fields'.optional "css_prefix".toList (Datum.readCheckedText cssPrefixProblem?)
        (standard ⟨.here, []⟩).cssPrefix = .ok u ∧ s' = { s with tagPrefix := t, cssPrefix := u } := by
  have hwith : ∀ t u, fields'.optional "tag_prefix".toList (Datum.readCheckedText tagPrefixProblem?)
      (standard ⟨.here, []⟩).tagPrefix = .ok t → fields'.optional "css_prefix".toList
      (Datum.readCheckedText cssPrefixProblem?) (standard ⟨.here, []⟩).cssPrefix = .ok u →
      Describes fields' { s with tagPrefix := t, cssPrefix := u } := fun t u ht hu =>
    { root := (Fields.required_congr (hsame _ (by decide) (by decide))).trans h.root
      componentsDir := (Fields.optional_congr (hsame _ (by decide) (by decide))).trans h.componentsDir
      docsDir := (Fields.optional_congr (hsame _ (by decide) (by decide))).trans h.docsDir
      indexFile := (Fields.optional_congr (hsame _ (by decide) (by decide))).trans h.indexFile
      routerFile := (Fields.optional_congr (hsame _ (by decide) (by decide))).trans h.routerFile
      navigationFile := (Fields.optional_congr (hsame _ (by decide) (by decide))).trans h.navigationFile
      pagesDir := (Fields.optional_congr (hsame _ (by decide) (by decide))).trans h.pagesDir
      tagPrefix := ht
      cssPrefix := hu
      componentsListName := (Fields.optional_congr (hsame _ (by decide) (by decide))).trans h.componentsListName
      routeChildrenKey := (Fields.optional_congr (hsame _ (by decide) (by decide))).trans h.routeChildrenKey
      navigationElement := (Fields.optional_congr (hsame _ (by decide) (by decide))).trans h.navigationElement
      formatCommand := (Fields.optional_congr (hsame _ (by decide) (by decide))).trans h.formatCommand
      formatEnabled := (Fields.optional_congr (hsame _ (by decide) (by decide))).trans h.formatEnabled }
  constructor
  · intro h'
    have hread := ofFields_eq_ok.1 h'
    have hsame := ofFields_eq_ok.2 (hwith _ _ hread.tagPrefix hread.cssPrefix)
    exact ⟨_, _, hread.tagPrefix, hread.cssPrefix, Checked.ok.inj (h'.symm.trans hsame)⟩
  · rintro ⟨t, u, ht, hu, rfl⟩
    exact ofFields_eq_ok.2 (hwith t u ht hu)

/-- a tag token in front of such a record is accepted exactly if it passes its check, and nothing else changes -/
theorem Describes.ofFields_tagPrefix {s' : Settings} (h : Describes fields s) :
    ofFields (("tag_prefix".toList, .text t) :: fields) = .ok s' ↔
      isTagPrefix t = true ∧ s' = { s with tagPrefix := t } := by
  have hne : "css_prefix".toList ≠ "tag_prefix".toList := by decide
  have hcss := (Fields.optional_congr (Fields.lookup_cons_of_ne (d := .text t) hne)).trans h.cssPrefix
  rw [h.ofFields_eq_ok_iff fun _ htag _ => Fields.lookup_cons_of_ne htag, Fields.optional_cons_self, hcss]
  simp only [Datum.readCheckedText_eq_ok, tagPrefixProblem?_eq_none, Checked.ok.injEq]
  constructor
  · rintro ⟨_, _, ⟨ht, rfl⟩, rfl, rfl⟩
    exact ⟨ht, rfl⟩
  · rintro ⟨ht, rfl⟩
    exact ⟨t, s.cssPrefix, ⟨ht, rfl⟩, rfl, rfl⟩

/-- and so is a CSS token -/
theorem Describes.ofFields_cssPrefix {s' : Settings} (h : Describes fields s) :
    ofFields (("css_prefix".toList, .text t) :: fields) = .ok s' ↔
      isCssPrefix t = true ∧ s' = { s with cssPrefix := t } := by
  have hne : "tag_prefix".toList ≠ "css_prefix".toList := by decide
  have htag := (Fields.optional_congr (Fields.lookup_cons_of_ne (d := .text t) hne)).trans h.tagPrefix
  rw [h.ofFields_eq_ok_iff fun _ _ hcss => Fields.lookup_cons_of_ne hcss, Fields.optional_cons_self, htag]
  simp only [Datum.readCheckedText_eq_ok, cssPrefixProblem?_eq_none, Checked.ok.injEq]
  constructor
  · rintro ⟨_, _, rfl, ⟨ht, rfl⟩, rfl⟩
    exact ⟨ht, rfl⟩
  · rintro ⟨ht, rfl⟩
    exact ⟨s.tagPrefix, t, rfl, ⟨ht, rfl⟩, rfl⟩

end Settings

end Componentry
