/-
What is left of a run that fails.

- `creating_failed_same_iff`: a run that fails while it makes files leaves the tree as it was exactly if each directory it
  made lies at or below one that its journal holds; other than directories it never leaves anything. The journal
  holds a directory only once its path is made in full, so a refusal half way leaves directories
  (`creating_failed_not_same`). It never does on plain paths whose names fit.
-/
import Componentry.Proofs.Creation
import Componentry.Proofs.FileTree.Plain

namespace Componentry.Creation

open FileTree

/-! ## Files -/

/-- everything new is taken away by undoing -/
def Undoable (t : FileTree) (w : Work) : Prop :=
  ∀ l, t.get? l = none → w.tree.get? l ≠ none → w.journal.Covers w.tree l

theorem begun_undoable (t : FileTree) (c : Component) : Undoable t (begun t c) :=
  fun _ hn hl => absurd hn hl

/-- a directory that could be made on a plain path is taken away by undoing, with all that was made on the way -/
theorem makeParent_undoable {t : FileTree} {w ready : Work} (h : Made t w) (hu : Undoable t w) {p : Path}
    (hp : p.parent.IsPlain) (hr : makeParent w p = (ready, none)) : Undoable t ready := by
  have hs := h.records.grows.sound
  have hdeep := Deepens.makeDirs hs p.parent
  have hprep := makeParent_preparing w p
  rw [hr] at hprep
  cases hprep with
  | ready asked making =>
    have hlook := look_makeDirs hs (p := p.parent) (by rw [making])
    rw [making] at hdeep hlook
    intro l hn hl
    cases hw : w.tree.get? l with
    | some e => exact ((hu l hn (by simp [hw])).grow hdeep.toGrows).addDir _
    | none =>
      have hon := makeDirs_plain hs hp hw (by rw [making]; exact hl)
      obtain ⟨d, hdm, m, hlead, hml⟩ := hdeep.toGrows.made_below_missing hs hp asked hlook hw hon
      refine Or.inr ⟨d, ?_, m, hdeep.locate hlead, hml⟩
      simp [Journal.addDir, Option.mem_def.1 hdm]

/-- a directory that is refused on a plain path with names that fit leaves nothing new -/
theorem makeParent_refused {t : FileTree} {w partly : Work} (h : Made t w) {p : Path} (hp : p.parent.IsPlain)
    (hfit : ∀ n ∈ p.parent.names, (Utf8.encode n).length ≤ nameLimit) {e : Trouble}
    (hr : makeParent w p = (partly, some e)) : partly = w := by
  have hprep := makeParent_preparing w p
  rw [hr] at hprep
  cases hprep with
  | unasked => rfl
  | @refused _ partly _ _ making =>
    have hback := makeDirs_refused h.records.grows.sound hp hfit (by rw [making])
    rw [making] at hback
    obtain rfl : partly = w.tree := hback
    rfl

theorem createArtifact_undoable {t : FileTree} {w : Work} (h : Made t w) (hu : Undoable t w) {a : Artifact}
    (hp : a.path.parent.IsPlain)
    (hok : (createArtifact w a).2 = none ∨ ∀ n ∈ a.path.parent.names, (Utf8.encode n).length ≤ nameLimit) :
    Undoable t (createArtifact w a).1 := by
  have hmade := h.makeParent a.path
  have hfiling := createArtifact_filing w a
  generalize createArtifact w a = result at hfiling hok ⊢
  cases hfiling with
  | stranded prepared =>
    simp only [reduceCtorEq, false_or] at hok
    rw [makeParent_refused h hp hok prepared]
    exact hu
  | refused prepared => exact makeParent_undoable h hu hp prepared
  | @made ready tree prepared creating =>
    have hready := makeParent_undoable h hu hp prepared
    rw [prepared] at hmade
    obtain ⟨l, hl, hn, rfl⟩ := createFile_ok creating
    have hne : l ≠ [] := by rintro rfl; simp at hn
    have hg : Grows ready.tree (ready.tree.set l (.file (Utf8.encode a.body))) :=
      .set hmade.records.grows.sound hl hn _
    intro m hmn hmc
    simp only [get?_set ready.tree m _ hne] at hmc
    by_cases hml : m = l
    · exact Or.inl ⟨a.path, by simp [Journal.addFile], hml ▸ hg.locate hl⟩
    · rw [if_neg hml] at hmc
      exact ((hready m hmn hmc).grow hg).addFile _

theorem createArtifacts_undoable {t : FileTree} {w : Work} (h : Made t w) (hu : Undoable t w) (as : List Artifact)
    (hp : ∀ a ∈ as, a.path.parent.IsPlain)
    (hok : (createArtifacts w as).2 = none ∨
      ∀ a ∈ as, ∀ n ∈ a.path.parent.names, (Utf8.encode n).length ≤ nameLimit) :
    Undoable t (createArtifacts w as).1 := by
  induction as generalizing w with
  | nil => exact hu
  | cons a as ih =>
    have hmade := h.createArtifact a
    have hstep := createArtifact_undoable h hu (hp a List.mem_cons_self)
    rcases createArtifacts_cons w a with ⟨next, hc, heq⟩ | ⟨next, e, hc, heq⟩
    · rw [hc] at hmade hstep
      rw [heq] at hok ⊢
      refine ih hmade (hstep (Or.inl rfl)) (fun b hb => hp b (List.mem_cons_of_mem _ hb)) ?_
      exact hok.imp id fun hfit b hb => hfit b (List.mem_cons_of_mem _ hb)
    · rw [hc] at hstep
      rw [heq] at hok ⊢
      simp only [reduceCtorEq, false_or] at hok
      exact hstep (Or.inr (hok a List.mem_cons_self))

/-- undoing leaves what was there -/
theorem Made.undo_keeps {t : FileTree} {w : Work} (h : Made t w) (ht : t.Sound) {l : Location} {e : Entry}
    (hl : t.get? l = some e) : (w.journal.undo w.tree).get? l = some e := by
  rw [(h.undo l).2 (h.records.not_covers ht hl)]
  exact h.records.grows.keeps l e hl

/-- undoing leaves a sound tree -/
theorem Made.undo_grows {t : FileTree} {w : Work} (h : Made t w) (ht : t.Sound) :
    Grows t (w.journal.undo w.tree) := by
  have hstart : (w.journal.undo w.tree).current = w.tree.current ∧ (w.journal.undo w.tree).token = w.tree.token := by
    unfold Journal.undo
    rw [h.texts]
    have hfiles := Journal.foldl_start Journal.unlink_start w.journal.files.reverse w.tree
    have hdirs := Journal.foldl_start Journal.removeTree_start w.journal.dirs.reverse
      (w.journal.files.reverse.foldl unlink w.tree)
    exact ⟨hdirs.1.trans hfiles.1, hdirs.2.trans hfiles.2⟩
  have hgrows := h.records.grows
  have hcur : (w.journal.undo w.tree).current = t.current := hstart.1.trans hgrows.current
  refine ⟨hcur, hstart.2.trans hgrows.token, fun l e hl => h.undo_keeps ht hl, fun l e hl => ?_, ?_⟩
  · have hout : ¬w.journal.Covers w.tree l := by
      intro hc
      rw [(h.undo l).1 hc] at hl
      simp at hl
    rw [(h.undo l).2 hout] at hl
    have hdir := hgrows.sound.hung l e hl
    rw [(h.undo _).2, hdir]
    -- a journal that covers a directory covers what is in it
    rintro (⟨f, hf, hfl⟩ | ⟨d, hd, m, hm, hml⟩)
    · obtain ⟨m, c, hm, hfile, -⟩ := h.records.files f hf
      rw [hfl] at hm
      rw [← Except.ok.inj hm, hdir] at hfile
      simp at hfile
    · exact hout (Or.inr ⟨d, hd, m, hm, hml.trans l.dropLast_prefix⟩)
  · rw [hcur]
    exact h.undo_keeps ht ht.based

/-- undoing leaves the tree as it was exactly if it takes everything new away -/
theorem Made.undo_same_iff {t : FileTree} {w : Work} (h : Made t w) (ht : t.Sound) :
    Same (w.journal.undo w.tree) t ↔ Undoable t w := by
  constructor
  · intro hsame l hn hl
    by_contra hc
    exact hl (((h.undo l).2 hc).symm.trans ((hsame l).trans hn))
  · intro hu l
    cases hl : t.get? l with
    | some e => exact h.undo_keeps ht hl
    | none =>
      by_cases hw : w.tree.get? l = none
      · by_cases hc : w.journal.Covers w.tree l
        · exact (h.undo l).1 hc
        · rw [(h.undo l).2 hc, hw]
      · exact (h.undo l).1 (hu l hl hw)

/-- files are always in the journal, so only directories can be left over -/
theorem Made.undoable_iff {t : FileTree} {w : Work} (h : Made t w) :
    Undoable t w ↔ ∀ l, t.get? l = none → w.tree.get? l = some .dir →
      ∃ d ∈ w.journal.dirs, ∃ m, w.tree.locate d = .ok m ∧ m <+: l := by
  constructor
  · intro hu l hn hl
    rcases hu l hn (by simp [hl]) with ⟨g, hg, hgl⟩ | hd
    · obtain ⟨m, b, hm, hb, -⟩ := h.records.files g hg
      rw [hgl] at hm
      rw [← Except.ok.inj hm, hl] at hb
      simp at hb
    · exact hd
  · intro hd l hn hl
    cases he : w.tree.get? l with
    | none => exact absurd he hl
    | some e =>
      cases e with
      | dir => exact Or.inr (hd l hn he)
      | file b => exact Or.inl (h.files l b hn he)

theorem Made.undo_leaves_dirs {t : FileTree} {w : Work} (h : Made t w) (ht : t.Sound) (l : Location) :
    (w.journal.undo w.tree).get? l = t.get? l ∨
      t.get? l = none ∧ (w.journal.undo w.tree).get? l = some .dir := by
  cases hl : t.get? l with
  | some e => exact Or.inl (h.undo_keeps ht hl)
  | none =>
    by_cases hc : w.journal.Covers w.tree l
    · exact Or.inl ((h.undo l).1 hc)
    · rw [(h.undo l).2 hc]
      cases he : w.tree.get? l with
      | none => exact Or.inl rfl
      | some e =>
        cases e with
        | dir => exact Or.inr ⟨rfl, rfl⟩
        | file b => exact absurd (Or.inl (h.files l b hl he)) hc

/-- a failed file creation, by the work at the point of failure -/
theorem creating_failed {s : Settings} {ls : List Listing} {f : Option Formatter} {t : FileTree} {slug title : Text}
    (h : (run s ls f t slug title).phases? = some [.collectingInput, .validating, .creatingFiles, .failed]) :
    (run s ls f t slug title).tree =
      (createArtifacts (begun t (requested s slug title)) (Artifact.all s (requested s slug title))).1.journal.undo
        (createArtifacts (begun t (requested s slug title)) (Artifact.all s (requested s slug title))).1.tree := by
  obtain ⟨v, hv, hh⟩ := phases?_some h
  rcases run_returns hv with ⟨hh', -⟩ | ⟨w, failure, -, hc, -, htree⟩ | ⟨_, _, _, _, -, -, -, hh', -⟩ |
    ⟨_, _, -, -, -, hh'⟩
  · simp [hh] at hh'
  · rw [htree, hc]
  · simp [hh] at hh'
  · simp [hh] at hh'

/-- **A run that fails while it makes files.** The tree is as it was exactly if each directory that was made lies at or
below one in the journal. Whatever was there is as it was, and what is left over are directories. On plain paths whose
names fit nothing is left over. -/
theorem creating_failed_same_iff (s : Settings) (ls : List Listing) (f : Option Formatter) {t : FileTree} (ht : t.Sound)
    (slug title : Text)
    (h : (run s ls f t slug title).phases? = some [.collectingInput, .validating, .creatingFiles, .failed]) :
    let c := requested s slug title
    let w := (createArtifacts (begun t c) (Artifact.all s c)).1
    (Same (run s ls f t slug title).tree t ↔ ∀ l, t.get? l = none → w.tree.get? l = some .dir →
      ∃ d ∈ w.journal.dirs, ∃ m, w.tree.locate d = .ok m ∧ m <+: l) ∧
    (∀ l, (run s ls f t slug title).tree.get? l = t.get? l ∨
      t.get? l = none ∧ (run s ls f t slug title).tree.get? l = some .dir) ∧
    ((∀ a ∈ Artifact.all s c, a.path.parent.IsPlain ∧
      ∀ n ∈ a.path.parent.names, (Utf8.encode n).length ≤ nameLimit) → Same (run s ls f t slug title).tree t) := by
  have hw := (begun_made ht (requested s slug title)).createArtifacts (Artifact.all s (requested s slug title))
  have hu := createArtifacts_undoable (begun_made ht (requested s slug title))
    (begun_undoable t (requested s slug title)) (Artifact.all s (requested s slug title))
  simp only [creating_failed h]
  generalize createArtifacts (begun t (requested s slug title)) (Artifact.all s (requested s slug title)) = made
    at hw hu ⊢
  refine ⟨(hw.undo_same_iff ht).trans hw.undoable_iff, hw.undo_leaves_dirs ht, fun hfit => ?_⟩
  exact (hw.undo_same_iff ht).2 (hu (fun a ha => (hfit a ha).1) (Or.inr fun a ha => (hfit a ha).2))

/-- a file where a directory should be: the run fails, and nothing is left over -/
theorem creating_failed_same_iff_file_in_the_way :
    let s := Settings.standard (.ofText "repo".toList)
    let t : FileTree := ⟨[], ['0'], [(["repo".toList], .dir), (["repo".toList, "packages".toList], .file [])]⟩
    let r := run s (Listing.all s) none t "card".toList "Card".toList
    t.Sound ∧ r.phases? = some [.collectingInput, .validating, .creatingFiles, .failed] ∧ Same r.tree t := by
  intro s t r
  have ht : t.Sound := .of_entries (by decide) (by decide)
  have hr : r.phases? = some [.collectingInput, .validating, .creatingFiles, .failed] := by decide +kernel
  exact ⟨ht, hr, (creating_failed_same_iff s _ none ht _ _ hr).2.2 (by decide +kernel)⟩

/-- a slug that is too long below directories that are missing: they are made one by one, and stay when the slug's own
directory is refused -/
theorem creating_failed_not_same :
    let s := Settings.standard (.ofText "repo".toList)
    let t : FileTree := ⟨[], ['0'], [(["repo".toList], .dir)]⟩
    let r := run s (Listing.all s) none t (List.replicate 256 'a') "Card".toList
    t.Sound ∧ r.phases? = some [.collectingInput, .validating, .creatingFiles, .failed] ∧ ¬Same r.tree t := by
  intro s t r
  refine ⟨.of_entries (by decide) (by decide), by decide +kernel, fun h => ?_⟩
  have hmade : r.tree.get? ["repo".toList, "packages".toList] = some .dir := by decide +kernel
  rw [h] at hmade
  exact absurd hmade (by decide)

end Componentry.Creation
