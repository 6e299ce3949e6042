/-
What is left of a run that fails at a listing.

- `Listed.updateListings`: while listings are updated, the journal holds for each file that was rewritten the text it had
  before the first time, and can put it back.
- `listing_failed_same`: a run that fails at a listing leaves the tree as it was, whatever the listings are.
-/
import Componentry.Proofs.Artifact
import Componentry.Proofs.FileTree.Replacing
import Componentry.Proofs.Rollback

namespace Componentry

open FileTree

/-! ## Putting texts back -/

namespace Journal

/-- a text that stood in a file which can be replaced -/
def Original (t : FileTree) (p : Path) (text : Text) : Prop :=
  Replaceable t p ∧ ∃ m, t.locate p = .ok m ∧ t.get? m = some (.file (Utf8.encode text))

/-- a tree that differs from another only in files whose texts are saved is that tree once they are put back -/
theorem restore_same {t u : FileTree} {saved : List (Path × Text)} (hs : ∀ x ∈ saved, Original t x.1 x.2)
    (ha : Alike t u) (hrest : ∀ l, (∀ x ∈ saved, t.locate x.1 ≠ .ok l) → u.get? l = t.get? l) :
    Same (restore u saved) t ∧ (restore u saved).current = t.current ∧ (restore u saved).token = t.token := by
  induction saved generalizing u with
  | nil => exact ⟨fun l => hrest l (by simp), ha.current, ha.token⟩
  | cons x saved ih =>
    obtain ⟨hrep, m, hm, htext⟩ := hs x List.mem_cons_self
    obtain ⟨v, m', hv, hm', hcur, htok, hget⟩ := (hrep.alike ha).replaceText x.2
    obtain rfl : m' = m := Except.ok.inj ((ha.locate.1 hm').symm.trans hm)
    have hstep : restore u (x :: saved) = restore v saved := by simp [restore, hv]
    rw [hstep]
    refine ih (fun y hy => hs y (List.mem_cons_of_mem _ hy)) ⟨hcur.trans ha.current, htok.trans ha.token, ?_, ?_⟩ ?_
    · intro l
      rw [hget]
      split_ifs with hl
      · simp [hl, htext]
      · exact ha.dir l
    · intro l
      rw [hget]
      split_ifs with hl
      · simp [hl, htext]
      · exact ha.none l
    · intro l hl
      rw [hget]
      split_ifs with hlm
      · rw [hlm, htext]
      · refine hrest l fun y hy => ?_
        rcases List.mem_cons.1 hy with rfl | hy
        · rw [hm]
          exact fun heq => hlm (Except.ok.inj heq).symm
        · exact hl y hy

end Journal

theorem FileTree.Grows.of_same {t u : FileTree} (ht : t.Sound) (h : Same u t) (hc : u.current = t.current)
    (hk : u.token = t.token) : Grows t u := by
  refine ⟨hc, hk, fun l e hl => (h l).trans hl, fun l e hl => ?_, ?_⟩
  · rw [h] at hl ⊢
    exact ht.hung l e hl
  · rw [hc, h]
    exact ht.based

namespace Creation

/-! ## Updating listings -/

/-- where a run stands that made its files by `made` and has updated some listings since: only files whose original
texts are saved hold anything else, and each saved path is a plain one from the given start -/
structure Listed (a : Path.Anchor) (made w : Work) : Prop where
  files : w.journal.files = made.journal.files
  dirs : w.journal.dirs = made.journal.dirs
  alike : Alike made.tree w.tree
  saved : ∀ x ∈ w.journal.savedTexts, Journal.Original made.tree x.1 x.2
  plain : ∀ x ∈ w.journal.savedTexts, x.1.IsPlain ∧ x.1.anchor = a
  rest : ∀ l, (∀ x ∈ w.journal.savedTexts, made.tree.locate x.1 ≠ .ok l) → w.tree.get? l = made.tree.get? l

theorem Listed.start {made : Work} (h : made.journal.savedTexts = []) (a : Path.Anchor) : Listed a made made :=
  ⟨rfl, rfl, .refl _, by simp [h], by simp [h], fun _ _ => rfl⟩

/-- plain paths from one start that lead to one location are one path -/
theorem eq_of_locate {t : FileTree} {p q : Path} {l : Location} (hp : p.IsPlain) (hq : q.IsPlain)
    (ha : p.anchor = q.anchor) (hpl : t.locate p = .ok l) (hql : t.locate q = .ok l) : p = q := by
  have h := (locate_plain hp hpl).symm.trans (locate_plain hq hql)
  have ho : t.origin p = t.origin q := by simp only [origin, ha]
  rw [ho] at h
  cases p
  cases q
  simp only [Path.mk.injEq]
  exact ⟨ha, List.append_cancel_left h⟩

/-- a text read from a file and replaced there is saved, if it is the first of that file -/
theorem Listed.replaced {a : Path.Anchor} {made w : Work} (h : Listed a made w) {p : Path} (hp : p.IsPlain)
    (ha : p.anchor = a) {content updated : Text} (hread : w.tree.readText p = .ok content) {after : FileTree}
    (hrep : w.tree.replaceText p updated = (after, none)) :
    Listed a made { w with tree := after, journal := w.journal.saveText p content } := by
  obtain ⟨m, hm, hold⟩ := readText_iff.1 hread
  have hable := replaceable_of_replaceText hrep
  obtain ⟨u, m', hu, hm', hcur, htok, hget⟩ := hable.replaceText updated
  obtain rfl : u = after := by
    rw [hrep] at hu
    exact (Prod.mk.inj hu).1.symm
  obtain rfl : m = m' := Except.ok.inj (hm.symm.trans hm')
  have hmade : made.tree.locate p = .ok m := h.alike.locate.1 hm
  have halike : Alike w.tree u := by
    refine ⟨hcur, htok, fun l => ?_, fun l => ?_⟩ <;> rw [hget] <;> split_ifs with hl <;> simp [hl, hold]
  unfold Journal.saveText
  split_ifs with hlook
  · -- the file was rewritten before: its first text is saved already
    obtain ⟨text, hx⟩ : ∃ text, (p, text) ∈ w.journal.savedTexts := by
      obtain ⟨text, ht⟩ := Option.isSome_iff_exists.1 hlook
      obtain ⟨before, rest, hsplit, -⟩ := List.lookup_eq_some_iff.1 ht
      exact ⟨text, by simp [hsplit]⟩
    refine ⟨h.files, h.dirs, h.alike.trans halike, h.saved, h.plain, fun l hl => ?_⟩
    simp only
    rw [hget, if_neg, h.rest l hl]
    rintro rfl
    exact hl _ hx hmade
  · have hfirst : ∀ x ∈ w.journal.savedTexts, made.tree.locate x.1 ≠ .ok m := by
      intro x hx hxm
      obtain ⟨hxp, hxa⟩ := h.plain x hx
      obtain rfl := eq_of_locate hxp hp (hxa.trans ha.symm) hxm hmade
      simp only [Option.not_isSome_iff_eq_none, List.lookup_eq_none_iff] at hlook
      simpa using hlook x hx
    refine ⟨h.files, h.dirs, h.alike.trans halike, fun x hx => ?_, fun x hx => ?_, fun l hl => ?_⟩
    · rcases List.mem_append.1 hx with hx | hx
      · exact h.saved x hx
      · obtain rfl := List.mem_singleton.1 hx
        exact ⟨hable.alike h.alike.symm, m, hmade, (h.rest m hfirst).symm.trans hold⟩
    · rcases List.mem_append.1 hx with hx | hx
      · exact h.plain x hx
      · obtain rfl := List.mem_singleton.1 hx
        exact ⟨hp, ha⟩
    · simp only
      rw [hget, if_neg]
      · exact h.rest l fun x hx => hl x (List.mem_append_left _ hx)
      · rintro rfl
        exact hl (p, content) (List.mem_append_right _ (by simp)) hmade

/-- a tree that holds the same, as a replacement leaves it that is refused -/
theorem Listed.refused {a : Path.Anchor} {made w : Work} (h : Listed a made w) {u : FileTree} (hs : Same u w.tree)
    (hc : u.current = w.tree.current) (ht : u.token = w.tree.token) : Listed a made { w with tree := u } :=
  ⟨h.files, h.dirs, h.alike.trans (.of_same hc ht hs), h.saved, h.plain, fun l hl => (hs l).trans (h.rest l hl)⟩

/-- one listing updated, or not -/
theorem Listed.updateListing {a : Path.Anchor} {made w : Work} (h : Listed a made w) (c : Component) {l : Listing}
    (hp : l.path.IsPlain) (ha : l.path.anchor = a) : Listed a made (updateListing w c l).1 := by
  have hu := updateListing_update w c l
  generalize Creation.updateListing w c l = x at hu ⊢
  cases hu with
  | unread | unspliced | resting => exact h
  | refused hread _ _ hrep =>
    obtain ⟨hs, hc, ht⟩ := replaceText_refused (noNul_of_readText hread) hrep
    exact h.refused hs hc ht
  | replaced hread _ _ hrep => exact h.replaced hp ha hread hrep

/-- the verdict of a work does not matter to the tree and the journal -/
theorem Listed.noted {a : Path.Anchor} {made w : Work} (h : Listed a made w) (v : Verdict) :
    Listed a made { w with verdict := v } :=
  ⟨h.files, h.dirs, h.alike, h.saved, h.plain, h.rest⟩

/-- listings updated, up to a fatal one that fails -/
theorem Listed.updateListings {a : Path.Anchor} {made w : Work} (h : Listed a made w) (c : Component)
    {ls : List Listing} (hls : ∀ l ∈ ls, l.path.IsPlain ∧ l.path.anchor = a) :
    Listed a made (updateListings w c ls).1 := by
  induction ls generalizing w with
  | nil => exact h
  | cons l ls ih =>
    obtain ⟨hp, ha⟩ := hls l List.mem_cons_self
    have hstep := h.updateListing c hp ha
    have hrest := fun {w : Work} (hw : Listed a made w) => ih hw fun k hk => hls k (List.mem_cons_of_mem _ hk)
    unfold Creation.updateListings
    cases hu : Creation.updateListing w c l with
    | mk after result =>
      rw [hu] at hstep
      cases result with
      | ok o => exact hrest (hstep.noted _)
      | error stop =>
        cases stop with
        | escaped e => exact hstep
        | handled failure =>
          simp only
          split_ifs
          · exact hstep.noted _
          · exact hrest ((hstep.noted _).noted _)

/-! ## Undoing -/

theorem Made.of_same {t u : FileTree} {w : Work} (h : Made t w) (hs : Same u w.tree)
    (hc : u.current = w.tree.current) (hk : u.token = w.tree.token) : Made t { w with tree := u } := by
  have hg : Grows w.tree u := .of_same h.records.grows.sound hs hc hk
  refine ⟨h.records.grow hg, h.texts, fun l c hn hl => ?_⟩
  rw [hs] at hl
  obtain ⟨f, hf, hfl⟩ := h.files l c hn hl
  exact ⟨f, hf, hg.locate hfl⟩

/-- files made and listings updated: undoing puts the texts back first, and then takes away what was made -/
theorem Listed.undo_eq {t : FileTree} {a : Path.Anchor} {made w : Work} (hm : Made t made) (h : Listed a made w) :
    ∃ u, Same u made.tree ∧ Grows made.tree u ∧ Made t { made with tree := u } ∧
      w.journal.undo w.tree = made.journal.undo u := by
  obtain ⟨hs, hc, hk⟩ := Journal.restore_same h.saved h.alike h.rest
  refine ⟨_, hs, .of_same hm.records.grows.sound hs hc hk, hm.of_same hs hc hk, ?_⟩
  unfold Journal.undo
  rw [h.files, h.dirs, hm.texts]
  rfl

/-- so nothing is left of a run that made all its files -/
theorem Listed.undo_same {t : FileTree} (ht : t.Sound) {a : Path.Anchor} {made w : Work} (hm : Made t made)
    (hu : Undoable t made) (h : Listed a made w) :
    Same (w.journal.undo w.tree) t ∧ Grows t (w.journal.undo w.tree) := by
  obtain ⟨u, hs, hg, hback, heq⟩ := h.undo_eq hm
  rw [heq]
  refine ⟨(hback.undo_same_iff ht).2 fun l hn hl => ?_, hback.undo_grows ht⟩
  exact (hu l hn (by rwa [← hs l])).grow hg

/-- a run that has made its files and stops at its listings undoes all -/
theorem unlisted_undo {s : Settings} (hs : s.IsPlain) {ls : List Listing}
    (hls : ∀ l ∈ ls, l.path.IsPlain ∧ l.path.anchor = s.root.anchor) {t : FileTree} (ht : t.Sound) {slug title : Text}
    (accepted : validate s t slug title = .ok (requested s slug title)) {made after : Work} {ending : ListingsEnd}
    (created : createArtifacts (begun t (requested s slug title)) (Artifact.all s (requested s slug title)) =
      (made, none))
    (stopped : updateListings (enter made .mutatingRegistries) (requested s slug title) ls = (after, ending)) :
    Same (after.journal.undo after.tree) t ∧ Grows t (after.journal.undo after.tree) := by
  have hplain := Artifact.all_isPlain hs (c := requested s slug title) (validate_ok accepted).1
  have hmade := (begun_made ht (requested s slug title)).createArtifacts (Artifact.all s (requested s slug title))
  have hundo := createArtifacts_undoable (begun_made ht (requested s slug title))
    (begun_undoable t (requested s slug title)) (Artifact.all s (requested s slug title))
    (fun a ha => (hplain a ha).parent) (Or.inl (by rw [created]))
  rw [created] at hmade hundo
  have hstart : Listed s.root.anchor made (enter made .mutatingRegistries) :=
    (Listed.start hmade.texts s.root.anchor).noted _
  have hlisted := hstart.updateListings (requested s slug title) hls
  rw [stopped] at hlisted
  exact hlisted.undo_same ht hmade hundo

/-- **A run that fails at a listing.** For any listings on plain paths below the root, in any order and with any
strategies, the tree is as it was: every file that was rewritten has its bytes back, and what was made is gone. -/
theorem listing_failed_same {s : Settings} (hs : s.IsPlain) {ls : List Listing}
    (hls : ∀ l ∈ ls, l.path.IsPlain ∧ l.path.anchor = s.root.anchor) (f : Option Formatter) {t : FileTree}
    (ht : t.Sound) (slug title : Text)
    (h : (run s ls f t slug title).phases? =
      some [.collectingInput, .validating, .creatingFiles, .mutatingRegistries, .failed]) :
    Same (run s ls f t slug title).tree t := by
  obtain ⟨v, hv, hh⟩ := phases?_some h
  rcases run_returns hv with ⟨hh', -⟩ | ⟨_, _, -, -, hh', -⟩ | ⟨made, after, l, failure, hvalid, hc, hu, -, htree⟩ |
    ⟨_, _, -, -, -, hh'⟩
  · simp [hh] at hh'
  · simp [hh] at hh'
  · rw [htree]
    exact (unlisted_undo hs hls ht hvalid hc hu).1
  · simp [hh] at hh'

/-- two listings that share a file and rewrite it one after the other, and a third that fails for good -/
theorem listing_failed_same_shared_file :
    let s := Settings.standard (.ofText "repo".toList)
    let t : FileTree := ⟨[], ['0'], [(["repo".toList], .dir), (["repo".toList, "list.ts".toList], .file [0x61, 0x0A])]⟩
    let step (edit : Text → Except Splice.Fault Text) : Listing.Step :=
      ⟨[], .own fun _ content _ => edit content, .exportList, Listing.entryFragment⟩
    let listing (fatal : Bool) (edit : Text → Except Splice.Fault Text) : Listing :=
      ⟨"list".toList, .ofText "repo/list.ts".toList, [step edit], fatal⟩
    let ls := [listing true fun content => .ok (content ++ ['b']), listing false fun content => .ok (content ++ ['c']),
      listing true fun _ => .error (.noList .exportList)]
    let r := run s ls none t "card".toList "Card".toList
    s.IsPlain ∧ (∀ l ∈ ls, l.path.IsPlain ∧ l.path.anchor = s.root.anchor) ∧ t.Sound ∧
      r.phases? = some [.collectingInput, .validating, .creatingFiles, .mutatingRegistries, .failed] ∧
      (r.verdict.toOption.map fun v => v.outcomes.map (·.status)) = some [.updated, .updated, .failed] ∧
      Same r.tree t := by
  intro s t step listing ls r
  have hs : s.IsPlain := ⟨by decide, by decide, by decide, by decide⟩
  have hls : ∀ l ∈ ls, l.path.IsPlain ∧ l.path.anchor = s.root.anchor := by decide
  have ht : t.Sound := .of_entries (by decide) (by decide)
  have hr : r.phases? = some [.collectingInput, .validating, .creatingFiles, .mutatingRegistries, .failed] := by
    decide +kernel
  exact ⟨hs, hls, ht, hr, by decide +kernel, listing_failed_same hs hls none ht _ _ hr⟩

end Creation

end Componentry
