/-
Which settings come of a settings file, and of the values that override it.

A file passes two checks, the schema and the reading of a record, and they agree on the kind of each value; so nothing in a
file is turned into anything else. An overriding value passes the second one alone.
- `Mapping.misfit?_eq_none_iff`: the schema accepts a mapping exactly if its entries fit.
- `Mapping.Fits.isUnwritable`: no wording is needed for a mapping that fits.
- `Mapping.Fits.load_eq_ok_iff`: the settings that come of a mapping that fits, one by one.

Overriding values are data as JSON has it: no bytes, and no paths that are not texts. The call stack is taken to be long
enough for every file, also for one whose values have to be quoted through aliases about a thousand collections deep; by
`loadOn_eq_load` the same holds on a shorter one for files that have no more marks than it has room for.

Main result: `load_mapping_iff`.
-/
import Componentry.Proofs.Listing
import Componentry.Proofs.Loading
import Componentry.Proofs.Records

namespace Componentry.Settings

open Yaml

/-! ## What a schema accepts -/

/-- what a settings file says: a mapping, and what its collections hold -/
structure Mapping where
  contents : Contents
  entries : List (Value × Value)

/-- a value is of a kind, and not empty -/
def Kind.Fits (c : Contents) (v : Value) : Kind → Prop
  | .text => ∃ t, c.resolve v = .text t ∧ t ≠ []
  | .texts => ∃ ts : List Text, c.resolve v = .list (ts.map .text) ∧ ts ≠ []
  | .flag => ∃ b, c.resolve v = .flag b

/-- every key is one of the schema, and the value under it is of its kind -/
def Mapping.Fits (m : Mapping) : Prop :=
  ∀ e ∈ m.entries, ∃ name kind, e.1 = .text name ∧ (name, kind) ∈ schema ∧ kind.Fits m.contents e.2

theorem exists_map_text_iff {items : List Value} :
    (∃ ts : List Text, items = ts.map .text) ↔ ∀ v ∈ items, ∃ t, v = .text t := by
  have hrange := congrArg (items ∈ ·) (Set.range_list_map Value.text)
  simpa [eq_comm] using hrange

theorem itemMisfit?_eq_none_iff {place : List Place} {items : List Value} :
    itemMisfit? place items = none ↔ ∃ ts : List Text, items = ts.map .text := by
  rw [exists_map_text_iff, itemMisfit?, List.getLast?_eq_none_iff, List.filterMap_eq_nil_iff, List.forall_mem_zipIdx,
    List.forall_mem_iff_forall_getElem]
  refine forall_congr' fun i => forall_congr' fun hi => ?_
  cases items[i] <;> simp

/-- a value has no fault under a key exactly if it is of the kind of the key -/
theorem Kind.misfit?_eq_none_iff {c : Contents} {kind : Kind} {name : Text} {v : Value} :
    kind.misfit? c name v = none ↔ kind.Fits c v := by
  unfold Kind.misfit? Kind.Fits
  generalize c.resolve v = r
  cases kind with
  | text =>
    cases r with
    | text t => cases t <;> simp
    | _ => simp
  | texts =>
    cases r with
    | list items =>
      cases items with
      | nil => simp
      | cons first items =>
        rw [itemMisfit?_eq_none_iff]
        refine exists_congr fun ts => ?_
        cases ts <;> simp
    | _ => simp
  | flag => cases r <;> simp

theorem kindOf?_eq_some_iff {key : Value} {kind : Kind} :
    kindOf? key = some kind ↔ ∃ name, key = .text name ∧ (name, kind) ∈ schema := by
  have hlookup : ∀ p ∈ schema, schema.lookup p.1 = some p.2 := by decide
  unfold kindOf?
  split
  · rename_i name
    simp only [Value.text.injEq, exists_eq_left']
    refine ⟨fun h => ?_, hlookup (name, kind)⟩
    obtain ⟨before, after, hcut, -⟩ := List.lookup_eq_some_iff.1 h
    exact hcut ▸ List.mem_append_right before List.mem_cons_self
  · rename_i hkey
    simp only [reduceCtorEq, false_iff, not_exists, not_and]
    exact fun name hname => absurd hname (hkey name)

/-- **the schema accepts a mapping exactly if its entries fit** -/
theorem Mapping.misfit?_eq_none_iff {m : Mapping} : misfit? m.contents m.entries = none ↔ m.Fits := by
  have hextra : (extraKeys m.entries).isEmpty = true ↔ ∀ e ∈ m.entries, kindOf? e.1 ≠ none := by
    simp only [List.isEmpty_iff, List.eq_nil_iff_forall_not_mem, extraKeys, List.mem_mergeSort, List.mem_filter,
      List.mem_map, Option.isNone_iff_eq_none]
    exact ⟨fun h e he hnone => h e.1 ⟨⟨e, he, rfl⟩, hnone⟩, fun h k ⟨⟨e, he, hk⟩, hnone⟩ => h e he (hk ▸ hnone)⟩
  simp only [misfit?]
  split_ifs with hkeys
  · have hkeys := hextra.1 hkeys
    have hnone : keyMisfits m.contents m.entries = [] ↔ m.Fits := by
      rw [keyMisfits, List.filterMap_eq_nil_iff]
      refine forall₂_congr fun (key, v) he => ?_
      obtain ⟨kind, hkind⟩ := Option.ne_none_iff_exists'.1 (hkeys _ he)
      obtain ⟨name, rfl, hmem⟩ := kindOf?_eq_some_iff.1 hkind
      simp only at hkind
      simp only [hkind, Option.map_eq_none_iff, Kind.misfit?_eq_none_iff]
      constructor
      · exact fun hfits => ⟨name, kind, rfl, hmem, hfits⟩
      · rintro ⟨name', kind', hname, hmem', hfits⟩
        obtain rfl := Option.some.inj (hkind.symm.trans (kindOf?_eq_some_iff.2 ⟨name', hname, hmem'⟩))
        exact hfits
    rw [← hnone]
    split <;> simp [*]
  · refine iff_of_false (by simp) fun hfits => hkeys (hextra.2 fun e he hnone => ?_)
    obtain ⟨name, kind, hname, hmem, -⟩ := hfits e he
    rw [kindOf?_eq_some_iff.2 ⟨name, hname, hmem⟩] at hnone
    simp at hnone

/-- a value that is of a kind holds no number -/
theorem Kind.Fits.isUnwritable {c : Contents} {v : Value} {kind : Kind} (h : kind.Fits c v) : c.isUnwritable v = false := by
  rw [Bool.eq_false_iff]
  intro hlong
  obtain ⟨n, hquotes, -⟩ := Contents.isUnwritable_iff.1 hlong
  have hnumber : v ≠ .whole n := by
    rintro rfl
    cases kind <;> simp [Kind.Fits, Contents.resolve] at h
  have htexts : ∀ w ∈ c.children v, ∃ t, w = .text t := by
    cases kind with
    | text =>
      obtain ⟨t, ht, -⟩ := h
      simp [Contents.children, ht]
    | texts =>
      obtain ⟨ts, hts, -⟩ := h
      simpa [Contents.children, hts, eq_comm] using fun w t _ hw => ⟨t, hw⟩
    | flag =>
      obtain ⟨b, hb⟩ := h
      simp [Contents.children, hb]
  cases hquotes.holds with
  | self => exact hnumber rfl
  | inside child holds =>
    obtain ⟨t, rfl⟩ := htexts _ child
    cases holds with
    | inside child _ => simp [Contents.children, Contents.resolve] at child

/-- so no wording is needed that cannot be written -/
theorem Mapping.Fits.isUnwritable {m : Mapping} (h : m.Fits) : isUnwritable m.contents m.entries = false := by
  rw [Settings.isUnwritable, List.any_eq_false]
  rintro ⟨key, v⟩ he
  obtain ⟨name, kind, hname, hmem, hfits⟩ := h _ he
  simp [kindOf?_eq_some_iff.2 ⟨name, hname, hmem⟩, hfits.isUnwritable]

/-! ## How a setting is taken -/

/-- how a setting is taken: from an overriding value, which may be turned into one of its kind, and from a value in the
file, which is taken as it is -/
structure Taking (α : Type) where
  coerced : Datum → α → Prop
  written : Value → α → Prop

namespace Taking

/-- a text -/
def text : Taking Text where
  coerced d t := d = .text t
  written v t := v = .text t

/-- a text that a check accepts -/
def checked (accepts : Text → Bool) : Taking Text where
  coerced d t := d = .text t ∧ accepts t = true
  written v t := v = .text t ∧ accepts t = true

/-- a text that is taken as a path -/
def path : Taking Path where
  coerced d p := ∃ t, d = .text t ∧ Path.ofText t = p
  written v p := ∃ t, v = .text t ∧ Path.ofText t = p

/-- a list of texts -/
def texts : Taking (List Text) where
  coerced d ts := d = .list (ts.map .text)
  written v ts := v = .list (ts.map .text)

/-- a flag; one that overrides can also be the number 0 or 1, or a word -/
def flag : Taking Bool where
  coerced d b := d = .flag b ∨ d = .whole (if b then 1 else 0) ∨ ∃ t, d = .text t ∧ Datum.flagWord? t = some b
  written v b := v = .flag b

/-- a field is read as a setting is taken, and of a value that fits it is read as that is written -/
structure Reads {α : Type} (k : Taking α) (read : Datum.Reader α) (kind : Kind) : Prop where
  coerced : ∀ place d a, read place d = .ok a ↔ k.coerced d a
  agrees : ∀ c v a, kind.Fits c v → (k.coerced (datum c v) a ↔ k.written (c.resolve v) a)

theorem datum_eq_text {c : Contents} {v : Value} {t : Text} : datum c v = .text t ↔ c.resolve v = .text t := by
  unfold datum
  cases c.resolve v <;> simp

theorem text_reads : text.Reads Datum.readText .text where
  coerced _ _ _ := Datum.readText_eq_ok
  agrees _ _ _ _ := datum_eq_text

theorem checked_reads {accepts : Text → Bool} {problem? : Text → Option Text}
    (h : ∀ t, problem? t = none ↔ accepts t = true) : (checked accepts).Reads (Datum.readCheckedText problem?) .text where
  coerced _ _ t := by rw [Datum.readCheckedText_eq_ok_iff, h, checked]
  agrees _ _ _ _ := and_congr_left' datum_eq_text

theorem tag_reads : (checked isTagPrefix).Reads (Datum.readCheckedText tagPrefixProblem?) .text :=
  checked_reads fun _ => tagPrefixProblem?_eq_none

theorem css_reads : (checked isCssPrefix).Reads (Datum.readCheckedText cssPrefixProblem?) .text :=
  checked_reads fun _ => cssPrefixProblem?_eq_none

theorem path_reads : path.Reads readPath .text where
  coerced _ _ _ := by simp only [readPath, Checked.map_eq_ok, Datum.readPathText_eq_ok, path]
  agrees _ _ _ _ := exists_congr fun _ => and_congr_left' datum_eq_text

theorem texts_reads : texts.Reads Datum.readTexts .texts where
  coerced _ _ _ := Datum.readTexts_eq_ok
  agrees c v ts h := by
    obtain ⟨ts', hts, -⟩ := h
    have hdatum : datum c v = .list (ts'.map .text) := by simp [datum, hts]
    have hmap : Function.Injective (List.map Datum.text) := List.map_injective_iff.2 fun _ _ => Datum.text.inj
    have hmap' : Function.Injective (List.map Value.text) := List.map_injective_iff.2 fun _ _ => Value.text.inj
    simp only [texts, hdatum, hts, Datum.list.injEq, Value.list.injEq, hmap.eq_iff, hmap'.eq_iff]

theorem flag_reads : flag.Reads Datum.readFlag .flag where
  coerced _ _ _ := Datum.readFlag_eq_ok
  agrees c v b h := by
    obtain ⟨b', hb⟩ := h
    simp [flag, datum, hb]

end Taking

/-! ## The value of a setting -/

namespace Mapping

/-- the value under a key -/
def under (m : Mapping) (name : Text) : Option Value :=
  m.entries.findSome? fun e => match e.1 with
    | .text key => if key = name then some e.2 else none
    | _ => none

/-- the value of a setting: the overriding one, or else the one in the file, or else the standard one -/
inductive Gives {α : Type} (m : Mapping) (overrides : Fields) (name : Text) (k : Taking α) (standard : α) : α → Prop
  | overriding {d : Datum} {a : α} (given : overrides.lookup name = some d) (taken : k.coerced d a) :
    Gives m overrides name k standard a
  | filed {v : Value} {a : α} (free : overrides.lookup name = none) (given : m.under name = some v)
      (taken : k.written (m.contents.resolve v) a) : Gives m overrides name k standard a
  | absent (free : overrides.lookup name = none) (missing : m.under name = none) :
    Gives m overrides name k standard standard

variable {m : Mapping} {overrides : Fields} {name : Text}

theorem mem_of_under {v : Value} (h : m.under name = some v) : (.text name, v) ∈ m.entries := by
  obtain ⟨⟨key, w⟩, he, hkey⟩ := List.exists_of_findSome?_eq_some h
  split at hkey
  · rename_i text htext
    split_ifs at hkey with hname
    obtain rfl : w = v := Option.some.inj hkey
    rw [← hname, ← show key = .text text from htext]
    exact he
  · simp at hkey

/-- what the record of a file has under a name -/
theorem lookup_fileFields :
    (fileFields m.contents m.entries).lookup name = (m.under name).map (datum m.contents) := by
  unfold fileFields under
  induction m.entries with
  | nil => rfl
  | cons e entries ih =>
    obtain ⟨key, v⟩ := e
    rw [List.filterMap_cons, List.findSome?_cons]
    cases key with
    | text key =>
      by_cases hname : key = name
      · simp [hname]
      · simpa [hname, List.lookup_cons, beq_false_of_ne (Ne.symm hname)] using ih
    | _ => exact ih

/-- under a key of the schema, a mapping that fits has a value of its kind -/
theorem Fits.kind (h : m.Fits) {v : Value} {kind : Kind} (hname : schema.lookup name = some kind)
    (hv : m.under name = some v) : kind.Fits m.contents v := by
  obtain ⟨name', kind', hname', hmem, hfits⟩ := h _ (mem_of_under hv)
  have hkind : kindOf? (.text name) = some kind' := kindOf?_eq_some_iff.2 ⟨name', hname', hmem⟩
  obtain rfl : kind = kind' := Option.some.inj (hname.symm.trans hkind)
  exact hfits

/-- **a setting is read from a mapping that fits, below the values that override it, as the value it has** -/
theorem Fits.optional_eq_ok (h : m.Fits) {α : Type} {k : Taking α} {read : Datum.Reader α} {kind : Kind}
    (hk : k.Reads read kind) (hname : schema.lookup name = some kind) {root : Datum} {standard a : α} :
    Fields.optional (("root".toList, root) :: (overrides ++ fileFields m.contents m.entries)) name read standard = .ok a ↔
      m.Gives overrides name k standard a := by
  have hroot : name ≠ "root".toList := by
    have hnone : schema.lookup "root".toList = none := by decide
    rintro rfl
    rw [hnone] at hname
    simp at hname
  rw [Fields.optional, Fields.lookup_cons_of_ne hroot, List.lookup_append, lookup_fileFields]
  cases hover : overrides.lookup name with
  | some d =>
    rw [Option.some_or]
    constructor
    · exact fun hread => .overriding hover ((hk.coerced _ _ _).1 hread)
    · rintro (⟨hgiven, htaken⟩ | ⟨hfree, -⟩ | ⟨hfree, -⟩)
      · obtain rfl := Option.some.inj (hover.symm.trans hgiven)
        exact (hk.coerced _ _ _).2 htaken
      · simp [hover] at hfree
      · simp [hover] at hfree
  | none =>
    rw [Option.none_or]
    cases hv : m.under name with
    | some v =>
      rw [Option.map_some]
      have hagrees := (hk.coerced [.field name] (datum m.contents v) a).trans (hk.agrees _ _ _ (h.kind hname hv))
      constructor
      · exact fun hread => .filed hover hv (hagrees.1 hread)
      · rintro (⟨hgiven, -⟩ | ⟨-, hgiven, htaken⟩ | ⟨-, hmissing⟩)
        · simp [hover] at hgiven
        · obtain rfl := Option.some.inj (hv.symm.trans hgiven)
          exact hagrees.2 htaken
        · simp [hv] at hmissing
    | none =>
      rw [Option.map_none]
      constructor
      · intro hread
        obtain rfl := Checked.ok.inj hread
        exact .absent hover hv
      · rintro (⟨hgiven, -⟩ | ⟨-, hgiven, -⟩ | -)
        · simp [hover] at hgiven
        · simp [hv] at hgiven
        · rfl

end Mapping

/-- the settings that a mapping gives, below the values that override it and above the standard settings -/
structure Merged (m : Mapping) (overrides : Fields) (std s : Settings) : Prop where
  root : s.root = std.root
  componentsDir : m.Gives overrides "components_dir".toList .path std.componentsDir s.componentsDir
  docsDir : m.Gives overrides "docs_dir".toList .path std.docsDir s.docsDir
  indexFile : m.Gives overrides "index_file".toList .text std.indexFile s.indexFile
  routerFile : m.Gives overrides "router_file".toList .text std.routerFile s.routerFile
  navigationFile : m.Gives overrides "navigation_file".toList .text std.navigationFile s.navigationFile
  pagesDir : m.Gives overrides "pages_dir".toList .text std.pagesDir s.pagesDir
  tagPrefix : m.Gives overrides "tag_prefix".toList (.checked isTagPrefix) std.tagPrefix s.tagPrefix
  cssPrefix : m.Gives overrides "css_prefix".toList (.checked isCssPrefix) std.cssPrefix s.cssPrefix
  componentsListName : m.Gives overrides "components_list_name".toList .text std.componentsListName s.componentsListName
  routeChildrenKey : m.Gives overrides "route_children_key".toList .text std.routeChildrenKey s.routeChildrenKey
  navigationElement : m.Gives overrides "navigation_element".toList .text std.navigationElement s.navigationElement
  formatCommand : m.Gives overrides "format_command".toList .texts std.formatCommand s.formatCommand
  formatEnabled : m.Gives overrides "format_enabled".toList .flag std.formatEnabled s.formatEnabled

/-- the record that settings are read from describes them exactly if the mapping gives them, but for the root -/
theorem Mapping.Fits.describes_iff {m : Mapping} (h : m.Fits) {overrides : Fields} {root : Path} {s : Settings} :
    Describes (("root".toList, .text root.text) :: (overrides ++ fileFields m.contents m.entries)) s ↔
      s.root = .ofText root.text ∧ Merged m overrides (standard root) { s with root := root } := by
  have hroot : Fields.required (("root".toList, .text root.text) :: (overrides ++ fileFields m.contents m.entries))
      "root".toList readPath = .ok s.root ↔ s.root = .ofText root.text := by
    rw [Fields.required, List.lookup_cons_self]
    exact ⟨fun hread => (Checked.ok.inj hread).symm, fun hread => congrArg Checked.ok hread.symm⟩
  constructor
  · intro hread
    exact ⟨hroot.1 hread.root,
      { root := rfl
        componentsDir := (h.optional_eq_ok Taking.path_reads (by decide)).1 hread.componentsDir
        docsDir := (h.optional_eq_ok Taking.path_reads (by decide)).1 hread.docsDir
        indexFile := (h.optional_eq_ok Taking.text_reads (by decide)).1 hread.indexFile
        routerFile := (h.optional_eq_ok Taking.text_reads (by decide)).1 hread.routerFile
        navigationFile := (h.optional_eq_ok Taking.text_reads (by decide)).1 hread.navigationFile
        pagesDir := (h.optional_eq_ok Taking.text_reads (by decide)).1 hread.pagesDir
        tagPrefix := (h.optional_eq_ok Taking.tag_reads (by decide)).1 hread.tagPrefix
        cssPrefix := (h.optional_eq_ok Taking.css_reads (by decide)).1 hread.cssPrefix
        componentsListName := (h.optional_eq_ok Taking.text_reads (by decide)).1 hread.componentsListName
        routeChildrenKey := (h.optional_eq_ok Taking.text_reads (by decide)).1 hread.routeChildrenKey
        navigationElement := (h.optional_eq_ok Taking.text_reads (by decide)).1 hread.navigationElement
        formatCommand := (h.optional_eq_ok Taking.texts_reads (by decide)).1 hread.formatCommand
        formatEnabled := (h.optional_eq_ok Taking.flag_reads (by decide)).1 hread.formatEnabled }⟩
  · rintro ⟨hpath, hm⟩
    exact
      { root := hroot.2 hpath
        componentsDir := (h.optional_eq_ok Taking.path_reads (by decide)).2 hm.componentsDir
        docsDir := (h.optional_eq_ok Taking.path_reads (by decide)).2 hm.docsDir
        indexFile := (h.optional_eq_ok Taking.text_reads (by decide)).2 hm.indexFile
        routerFile := (h.optional_eq_ok Taking.text_reads (by decide)).2 hm.routerFile
        navigationFile := (h.optional_eq_ok Taking.text_reads (by decide)).2 hm.navigationFile
        pagesDir := (h.optional_eq_ok Taking.text_reads (by decide)).2 hm.pagesDir
        tagPrefix := (h.optional_eq_ok Taking.tag_reads (by decide)).2 hm.tagPrefix
        cssPrefix := (h.optional_eq_ok Taking.css_reads (by decide)).2 hm.cssPrefix
        componentsListName := (h.optional_eq_ok Taking.text_reads (by decide)).2 hm.componentsListName
        routeChildrenKey := (h.optional_eq_ok Taking.text_reads (by decide)).2 hm.routeChildrenKey
        navigationElement := (h.optional_eq_ok Taking.text_reads (by decide)).2 hm.navigationElement
        formatCommand := (h.optional_eq_ok Taking.texts_reads (by decide)).2 hm.formatCommand
        formatEnabled := (h.optional_eq_ok Taking.flag_reads (by decide)).2 hm.formatEnabled }

/-! ## Loading a mapping -/

/-- a mapping is what the settings file of a library says -/
structure Says (t : FileTree) (root : Path) (m : Mapping) : Prop where
  file : ∃ bytes, t.read (filePath root) = .ok bytes ∧ readContents (filePath root) bytes = .ok m.contents
  mapping : entries (filePath root) m.contents = .ok m.entries

section

variable {t : FileTree} {root : Path} {m : Mapping} {overrides : Fields} {s : Settings}

theorem Says.readFields_eq (h : Says t root m) : readFields t (filePath root) =
    if isUnwritable m.contents m.entries then .error .unwritable
    else match misfit? m.contents m.entries with
    | some misfit => .error (.unfitting (filePath root) m.contents misfit)
    | none => .ok (fileFields m.contents m.entries) := by
  obtain ⟨bytes, hfile, hread⟩ := h.file
  have hfields : readFields t (filePath root) = fitting (filePath root) m.contents := by
    simp [readFields, isPresent_of_read hfile, hfile, hread, Except.bind]
  rw [hfields]
  cases hmisfit : misfit? m.contents m.entries <;> simp [fitting, h.mapping, Except.bind, hmisfit]

/-- **the settings that come of a mapping that fits are those it gives** -/
theorem Mapping.Fits.load_eq_ok_iff (hm : m.Fits) (h : Says t root m) :
    load t root overrides = .ok s ↔ Merged m overrides (standard root) s := by
  have hfields : readFields t (filePath root) = .ok (fileFields m.contents m.entries) := by
    rw [h.readFields_eq, hm.isUnwritable, Mapping.misfit?_eq_none_iff.2 hm]
    rfl
  have hload : load t root overrides = .ok s ↔ ∃ s',
      ofFields (("root".toList, .text root.text) :: (overrides ++ fileFields m.contents m.entries)) = .ok s' ∧
        { s' with root := root } = s := by
    simp only [load, hfields, Except.bind, Fields.override, List.singleton_append]
    cases ofFields (("root".toList, .text root.text) :: (overrides ++ fileFields m.contents m.entries)) <;> simp
  rw [hload]
  constructor
  · rintro ⟨s', hs', rfl⟩
    exact (hm.describes_iff.1 (ofFields_eq_ok.1 hs')).2
  · intro hs
    obtain rfl : s.root = root := hs.root
    exact ⟨{ s with root := .ofText s.root.text }, ofFields_eq_ok.2 (hm.describes_iff.2 ⟨rfl, hs⟩), rfl⟩

/-- a record that cannot be read is refused, whatever overrides it -/
theorem load_of_readFields_error {f : Failure} (h : readFields t (filePath root) = .error f) :
    load t root overrides = .error f := by
  rw [load, h]
  rfl

/-- what does not fit is not read, and that is reported unless its wording cannot be written -/
theorem Says.readFields_error (h : Says t root m) (hm : ¬m.Fits) : ∃ f, readFields t (filePath root) = .error f ∧
    (f.isHandled = true ↔ isUnwritable m.contents m.entries = false) := by
  obtain ⟨misfit, hmisfit⟩ := Option.ne_none_iff_exists'.1 (mt Mapping.misfit?_eq_none_iff.1 hm)
  rw [h.readFields_eq, hmisfit]
  cases hlong : isUnwritable m.contents m.entries with
  | true => exact ⟨_, rfl, by simp [Failure.isHandled]⟩
  | false => exact ⟨_, rfl, by simp [Failure.isHandled]⟩

theorem Mapping.Fits.isHandled_of_load (hm : m.Fits) (h : Says t root m) {f : Failure}
    (hload : load t root overrides = .error f) : f.isHandled = true := by
  rw [load, h.readFields_eq, hm.isUnwritable, Mapping.misfit?_eq_none_iff.2 hm] at hload
  simp only [Except.bind, Bool.false_eq_true, if_false] at hload
  split at hload
  · simp at hload
  · rw [← Except.error.inj hload]
    rfl

/-- a mapping that fits, and whose tokens are accepted -/
structure Mapping.Conforms (m : Mapping) : Prop where
  fits : m.Fits
  tagPrefix : ∀ v t, m.under "tag_prefix".toList = some v → m.contents.resolve v = .text t → isTagPrefix t = true
  cssPrefix : ∀ v t, m.under "css_prefix".toList = some v → m.contents.resolve v = .text t → isCssPrefix t = true

theorem Mapping.exists_gives {α : Type} {k : Taking α} {name : Text} (std : α)
    (h : ∀ v, m.under name = some v → ∃ a, k.written (m.contents.resolve v) a) : ∃ a, m.Gives [] name k std a := by
  cases hv : m.under name with
  | none => exact ⟨std, .absent rfl hv⟩
  | some v =>
    obtain ⟨a, ha⟩ := h v hv
    exact ⟨a, .filed rfl hv ha⟩

/-- a token that a mapping gives is accepted -/
theorem Mapping.Gives.accepted {accepts : Text → Bool} {name std t u : Text} {v : Value}
    (h : m.Gives [] name (.checked accepts) std t) (hv : m.under name = some v)
    (hu : m.contents.resolve v = .text u) : accepts u = true := by
  obtain ⟨hgiven, -⟩ | ⟨-, hgiven, htext, haccepts⟩ | ⟨-, hmissing⟩ := h
  · simp at hgiven
  · obtain rfl := Option.some.inj (hv.symm.trans hgiven)
    obtain rfl := Value.text.inj (hu.symm.trans htext)
    exact haccepts
  · simp [hv] at hmissing

/-- **a mapping gives settings of its own exactly if it conforms** -/
theorem Mapping.Fits.exists_merged_iff (hm : m.Fits) {std : Settings} : (∃ s, Merged m [] std s) ↔ m.Conforms := by
  constructor
  · rintro ⟨s, hs⟩
    exact ⟨hm, fun _ _ => hs.tagPrefix.accepted, fun _ _ => hs.cssPrefix.accepted⟩
  · intro h
    have htext : ∀ name std, schema.lookup name = some .text → ∃ t, m.Gives [] name .text std t := by
      refine fun name std hname => Mapping.exists_gives std fun v hv => ?_
      obtain ⟨t, ht, -⟩ := hm.kind hname hv
      exact ⟨t, ht⟩
    have hpath : ∀ name std, schema.lookup name = some .text → ∃ p, m.Gives [] name .path std p := by
      refine fun name std hname => Mapping.exists_gives std fun v hv => ?_
      obtain ⟨t, ht, -⟩ := hm.kind hname hv
      exact ⟨.ofText t, t, ht, rfl⟩
    have htoken : ∀ name std accepts, schema.lookup name = some .text →
        (∀ v t, m.under name = some v → m.contents.resolve v = .text t → accepts t = true) →
        ∃ t, m.Gives [] name (.checked accepts) std t := by
      refine fun name std accepts hname haccepts => Mapping.exists_gives std fun v hv => ?_
      obtain ⟨t, ht, -⟩ := hm.kind hname hv
      exact ⟨t, ht, haccepts v t hv ht⟩
    obtain ⟨componentsDir, h1⟩ := hpath "components_dir".toList std.componentsDir (by decide)
    obtain ⟨docsDir, h2⟩ := hpath "docs_dir".toList std.docsDir (by decide)
    obtain ⟨indexFile, h3⟩ := htext "index_file".toList std.indexFile (by decide)
    obtain ⟨routerFile, h4⟩ := htext "router_file".toList std.routerFile (by decide)
    obtain ⟨navigationFile, h5⟩ := htext "navigation_file".toList std.navigationFile (by decide)
    obtain ⟨pagesDir, h6⟩ := htext "pages_dir".toList std.pagesDir (by decide)
    obtain ⟨tagPrefix, h7⟩ := htoken "tag_prefix".toList std.tagPrefix isTagPrefix (by decide) h.tagPrefix
    obtain ⟨cssPrefix, h8⟩ := htoken "css_prefix".toList std.cssPrefix isCssPrefix (by decide) h.cssPrefix
    obtain ⟨componentsListName, h9⟩ := htext "components_list_name".toList std.componentsListName (by decide)
    obtain ⟨routeChildrenKey, h10⟩ := htext "route_children_key".toList std.routeChildrenKey (by decide)
    obtain ⟨navigationElement, h11⟩ := htext "navigation_element".toList std.navigationElement (by decide)
    obtain ⟨formatCommand, h12⟩ : ∃ ts, m.Gives [] "format_command".toList .texts std.formatCommand ts := by
      refine Mapping.exists_gives std.formatCommand fun v hv => ?_
      obtain ⟨ts, hts, -⟩ := hm.kind (show schema.lookup _ = some .texts by decide) hv
      exact ⟨ts, hts⟩
    obtain ⟨formatEnabled, h13⟩ : ∃ b, m.Gives [] "format_enabled".toList .flag std.formatEnabled b := by
      refine Mapping.exists_gives std.formatEnabled fun v hv => ?_
      obtain ⟨b, hb⟩ := hm.kind (show schema.lookup _ = some .flag by decide) hv
      exact ⟨b, hb⟩
    exact ⟨⟨std.root, componentsDir, docsDir, indexFile, routerFile, navigationFile, pagesDir, tagPrefix, cssPrefix,
      componentsListName, routeChildrenKey, navigationElement, formatCommand, formatEnabled⟩,
      ⟨rfl, h1, h2, h3, h4, h5, h6, h7, h8, h9, h10, h11, h12, h13⟩⟩

/-- settings that are loaded where there is a file come of a mapping -/
theorem exists_says_of_load (hload : load t root overrides = .ok s) (hfile : t.isPresent (filePath root) = .ok true) :
    ∃ m, Says t root m := by
  simp only [load, readFields, hfile] at hload
  cases hread : t.read (filePath root) with
  | error e => simp [hread, Except.bind] at hload
  | ok bytes =>
    cases hcontents : readContents (filePath root) bytes with
    | error f => simp [hread, hcontents, Except.bind] at hload
    | ok c =>
      cases hentries : entries (filePath root) c with
      | error f => simp [hread, hcontents, fitting, hentries, Except.bind] at hload
      | ok es => exact ⟨⟨c, es⟩, ⟨bytes, hread, hcontents⟩, hentries⟩

/-- **What a settings file comes to.** Without overriding values, a mapping is accepted exactly if it conforms; the
settings are those that it gives, below the values that override it; if it does not fit the schema it is refused whatever
overrides it; and every refusal is reported unless it would quote a number of too many digits. -/
theorem load_mapping_iff (h : Says t root m) :
    ((∃ s, load t root [] = .ok s) ↔ m.Conforms) ∧
      (∀ overrides s, load t root overrides = .ok s ↔ m.Fits ∧ Merged m overrides (standard root) s) ∧
      (¬m.Fits → ∃ f, ∀ overrides, load t root overrides = .error f) ∧
      (∀ overrides f, load t root overrides = .error f →
        (f.isHandled = true ↔ isUnwritable m.contents m.entries = false)) ∧
      (isUnwritable m.contents m.entries = true → ∃ e ∈ m.entries, ∃ v n, (v = e.1 ∨ v = e.2) ∧
        m.contents.Holds v (.whole n) ∧ powerOfTen writtenDigits ≤ n.natAbs) := by
  have hload : ∀ overrides s, load t root overrides = .ok s ↔ m.Fits ∧ Merged m overrides (standard root) s := by
    intro overrides s
    by_cases hm : m.Fits
    · rw [hm.load_eq_ok_iff h, and_iff_right hm]
    · obtain ⟨f, hf, -⟩ := h.readFields_error hm
      simp [load_of_readFields_error hf, hm]
  refine ⟨?_, hload, ?_, ?_, exists_of_isUnwritable⟩
  · simp only [hload, exists_and_left]
    exact ⟨fun ⟨hm, hs⟩ => hm.exists_merged_iff.1 hs, fun hm => ⟨hm.fits, hm.fits.exists_merged_iff.2 hm⟩⟩
  · intro hm
    obtain ⟨f, hf, -⟩ := h.readFields_error hm
    exact ⟨f, fun overrides => load_of_readFields_error hf⟩
  · intro overrides f hf
    by_cases hm : m.Fits
    · exact iff_of_true (hm.isHandled_of_load h hf) hm.isUnwritable
    · obtain ⟨g, hg, hhandled⟩ := h.readFields_error hm
      obtain rfl : g = f := Except.error.inj ((load_of_readFields_error hg).symm.trans hf)
      exact hhandled

end

/-- a file whose flag is overridden by a word, below a root that is overridden in vain -/
theorem load_mapping_overridden :
    let t : FileTree := ⟨[], ['0'], [(["repo".toList], .dir), (["repo".toList, "kgscaffold.yaml".toList],
      .file (Utf8.encode "components_dir: libs//ui/./src\ntag_prefix: Ui\nformat_enabled: true\n".toList))]⟩
    let root := Path.ofText "repo".toList
    let overrides : Fields := [("format_enabled".toList, .text "Off".toList), ("root".toList, .text "other".toList)]
    let s := { standard root with
      componentsDir := .ofText "libs/ui/src".toList, tagPrefix := "Ui".toList, formatEnabled := false }
    ∃ m, Says t root m ∧ m.Conforms ∧ load t root overrides = .ok s ∧ Merged m overrides (standard root) s := by
  intro t root overrides s
  have hload : load t root overrides = .ok s := Listing.ok_of_toOption (by decide +kernel)
  have hown : (load t root []).toOption.isSome = true := by decide +kernel
  obtain ⟨own, hown⟩ := Option.isSome_iff_exists.1 hown
  obtain ⟨m, hm⟩ := exists_says_of_load hload rfl
  obtain ⟨haccepted, hmerged, -⟩ := load_mapping_iff hm
  exact ⟨m, hm, haccepted.1 ⟨own, Listing.ok_of_toOption hown⟩, hload, ((hmerged overrides s).1 hload).2⟩

/-- a number of 4335 digits, written with 3600 hexadecimal ones, where a text should be -/
theorem load_mapping_raises :
    ¬∀ (t : FileTree) (root : Path) (m : Mapping) (f : Failure), Says t root m → load t root [] = .error f →
      f.isHandled = true := by
  intro hall
  obtain ⟨t, bytes, hfile, hread⟩ : ∃ (t : FileTree) (bytes : Bytes), t.read (filePath (.ofText "repo".toList)) = .ok bytes ∧
      ((readContents (filePath (.ofText "repo".toList)) bytes).toOption.bind fun c =>
        (entries (filePath (.ofText "repo".toList)) c).toOption.map fun es => isUnwritable c es) = some true :=
    ⟨⟨[], ['0'], [(["repo".toList], .dir), (["repo".toList, "kgscaffold.yaml".toList],
      .file (Utf8.encode ("index_file: 0x".toList ++ List.replicate 3600 'f' ++ ['\n'])))]⟩, _, rfl, by decide +kernel⟩
  obtain ⟨c, hcontents, hread⟩ := Option.bind_eq_some_iff.1 hread
  obtain ⟨es, hentries, hlong⟩ := Option.map_eq_some_iff.1 hread
  have hm : Says t (.ofText "repo".toList) ⟨c, es⟩ :=
    { file := ⟨bytes, hfile, Listing.ok_of_toOption hcontents⟩
      mapping := Listing.ok_of_toOption hentries }
  have hload : load t (.ofText "repo".toList) [] = .error .unwritable := by
    refine load_of_readFields_error ?_
    rw [hm.readFields_eq, if_pos hlong]
  exact absurd (hall _ _ _ _ hm hload) (by simp [Failure.isHandled])

end Componentry.Settings
