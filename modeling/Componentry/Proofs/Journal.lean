/-
What undoing a journal takes away.

The directories in a journal were made one after the other, each in a tree that the run had come to by then (`Stacked`).
The last made goes first, so that every path still leads where it led when it was put down:
- `get?_removeDirs`: undoing the directories takes away what lies at or below one of them, and nothing else.
- `get?_unlinkFiles`: undoing the files takes away these files, and nothing else.
- `get?_undo`: a journal without texts takes away what it covers, and nothing else.
-/
import Componentry.Proofs.FileTree.Walking

namespace Componentry

open FileTree

namespace Journal

/-! ## Directories made one after the other -/

/-- directories with their locations, the last made first: each held nothing in the tree before it was made, and is a
directory in the tree after -/
inductive Stacked (t : FileTree) : FileTree → List (Path × Location) → Prop where
  | base {v : FileTree} (grown : Grows t v) : Stacked t v []
  | push {u v : FileTree} {d : Path} {l : Location} {earlier : List (Path × Location)} (before : Stacked t u earlier)
      (grown : Grows u v) (leads : u.locate d = .ok l) (missing : u.get? l = none) (made : v.get? l = some .dir) :
      Stacked t v ((d, l) :: earlier)

theorem Stacked.grow {t v w : FileTree} {ds : List (Path × Location)} (h : Stacked t v ds) (hw : Grows v w) :
    Stacked t w ds := by
  cases h with
  | base grown => exact .base (grown.trans hw)
  | push before grown leads missing made => exact .push before (grown.trans hw) leads missing (hw.keeps _ _ made)

theorem Stacked.grows {t v : FileTree} {ds : List (Path × Location)} (h : Stacked t v ds) : Grows t v := by
  induction h with
  | base grown => exact grown
  | push _ grown _ _ _ ih => exact ih.trans grown

/-- every directory put down leads to its location still, and held nothing at the start -/
theorem Stacked.leads {t v : FileTree} {ds : List (Path × Location)} (h : Stacked t v ds) {x : Path × Location}
    (hx : x ∈ ds) : v.locate x.1 = .ok x.2 ∧ t.get? x.2 = none := by
  induction h with
  | base _ => simp at hx
  | push before grown leads missing _ ih =>
    rcases List.mem_cons.1 hx with rfl | hx
    · exact ⟨grown.locate leads, before.grows.get?_none missing⟩
    · exact ⟨grown.locate (ih hx).1, (ih hx).2⟩

/-- the tree without a directory that a path leads to -/
theorem removeTree_eq {t : FileTree} {p : Path} {l : Location} (hp : t.locate p = .ok l) (hl : t.get? l = some .dir) :
    t.removeTree p = t.removeBelow l := by
  simp [removeTree, hp, hl]

/-- undoing directories takes away what lies at or below one of them. `w` is what is left of `v` when later steps are
undone: all directories of `v` are there. -/
theorem get?_removeDirs {t v w : FileTree} {ds : List (Path × Location)} (h : Stacked t v ds)
    (hc : w.current = v.current) (hdirs : ∀ l, v.get? l = some .dir → w.get? l = some .dir) (m : Location) :
    ((∃ x ∈ ds, x.2 <+: m) → ((ds.map Prod.fst).foldl removeTree w).get? m = none) ∧
      ((∀ x ∈ ds, ¬x.2 <+: m) → ((ds.map Prod.fst).foldl removeTree w).get? m = w.get? m) := by
  induction h generalizing w with
  | base _ => simp
  | @push u v d l earlier before grown leads missing made ih =>
    have hne : l ≠ [] := by rintro rfl; simp at missing
    have hlead : w.locate d = .ok l := locate_mono hc hdirs (grown.locate leads)
    have heq : w.removeTree d = w.removeBelow l := removeTree_eq hlead (hdirs l made)
    -- the directories of the tree before `d` was made are untouched by its removal
    have hkept : ∀ k, u.get? k = some .dir → (w.removeBelow l).get? k = some .dir := by
      intro k hk
      have hout : ¬l <+: k := by
        intro hlk
        rw [before.grows.sound.none_below missing hlk] at hk
        simp at hk
      rw [get?_removeBelow w k hne, if_neg hout]
      exact hdirs k (grown.keeps k _ hk)
    obtain ⟨hgone, hsame⟩ := ih (w := w.removeBelow l) (hc.trans grown.current) hkept
    simp only [List.map_cons, List.foldl_cons, heq]
    refine ⟨fun ⟨x, hx, hxm⟩ => ?_, fun hall => ?_⟩
    · by_cases hearly : ∃ y ∈ earlier, y.2 <+: m
      · exact hgone hearly
      · rw [hsame fun y hy hym => hearly ⟨y, hy, hym⟩, get?_removeBelow w m hne]
        rcases List.mem_cons.1 hx with rfl | hx
        · exact if_pos hxm
        · exact absurd ⟨x, hx, hxm⟩ hearly
    · rw [hsame fun y hy => hall y (List.mem_cons_of_mem _ hy), get?_removeBelow w m hne,
        if_neg (hall _ List.mem_cons_self)]

/-! ## Files -/

/-- removals leave where relative paths start and the next temporary name alone -/
theorem unlink_start (t : FileTree) (p : Path) : (t.unlink p).current = t.current ∧ (t.unlink p).token = t.token := by
  unfold FileTree.unlink
  split
  · exact ⟨rfl, rfl⟩
  · split <;> exact ⟨rfl, rfl⟩

theorem removeTree_start (t : FileTree) (p : Path) :
    (t.removeTree p).current = t.current ∧ (t.removeTree p).token = t.token := by
  unfold FileTree.removeTree
  split
  · exact ⟨rfl, rfl⟩
  · split_ifs <;> exact ⟨rfl, rfl⟩

theorem foldl_start {step : FileTree → Path → FileTree}
    (h : ∀ t p, (step t p).current = t.current ∧ (step t p).token = t.token) (ps : List Path) (t : FileTree) :
    (ps.foldl step t).current = t.current ∧ (ps.foldl step t).token = t.token := by
  induction ps generalizing t with
  | nil => exact ⟨rfl, rfl⟩
  | cons p ps ih => exact ⟨(ih _).1.trans (h t p).1, (ih _).2.trans (h t p).2⟩

/-- taking a file away changes its location only -/
theorem get?_unlink {t : FileTree} {p : Path} {l : Location} (hp : t.locate p = .ok l)
    (hl : t.get? l ≠ some .dir) (m : Location) : (t.unlink p).get? m = if m = l then none else t.get? m := by
  have hne : l ≠ [] := by rintro rfl; simp at hl
  unfold FileTree.unlink
  rw [hp]
  simp only
  cases hg : t.get? l with
  | none =>
    simp only
    split_ifs with hm
    · rw [hm, hg]
    · rfl
  | some e =>
    cases e with
    | dir => exact absurd hg hl
    | file c => exact get?_remove t m hne

/-- undoing files takes away these files and nothing else -/
theorem get?_unlinkFiles {v w : FileTree} {files : List Path}
    (hfiles : ∀ f ∈ files, ∃ l c, v.locate f = .ok l ∧ v.get? l = some (.file c))
    (hc : w.current = v.current) (hdirs : ∀ l, v.get? l = some .dir ↔ w.get? l = some .dir) :
    (files.foldl unlink w).current = v.current ∧
    (∀ l, v.get? l = some .dir → (files.foldl unlink w).get? l = some .dir) ∧
    ∀ m, ((∃ f ∈ files, v.locate f = .ok m) → (files.foldl unlink w).get? m = none) ∧
      ((∀ f ∈ files, v.locate f ≠ .ok m) → (files.foldl unlink w).get? m = w.get? m) := by
  induction files generalizing w with
  | nil => exact ⟨hc, fun l hl => (hdirs l).1 hl, by simp⟩
  | cons f files ih =>
    obtain ⟨l, c, hf, hl⟩ := hfiles f List.mem_cons_self
    have hwf : w.locate f = .ok l := locate_mono hc (fun k hk => (hdirs k).1 hk) hf
    have hwl : w.get? l ≠ some .dir := fun hd => by rw [(hdirs l).2 hd] at hl; simp at hl
    have hget := get?_unlink hwf hwl
    have hdirs' : ∀ k, v.get? k = some .dir ↔ (w.unlink f).get? k = some .dir := by
      intro k
      rw [hget k, hdirs k]
      split_ifs with hk
      · simp [hk, hwl]
      · rfl
    obtain ⟨hcur, hkeep, hall⟩ := ih (fun g hg => hfiles g (List.mem_cons_of_mem _ hg))
      ((unlink_start w f).1.trans hc) hdirs'
    refine ⟨hcur, hkeep, fun m => ⟨fun ⟨g, hg, hgm⟩ => ?_, fun hnot => ?_⟩⟩
    · simp only [List.foldl_cons]
      by_cases hmore : ∃ g ∈ files, v.locate g = .ok m
      · exact (hall m).1 hmore
      · rw [(hall m).2 fun g' hg' he => hmore ⟨g', hg', he⟩, hget m]
        rcases List.mem_cons.1 hg with rfl | hg
        · rw [hf] at hgm
          exact if_pos (Except.ok.inj hgm).symm
        · exact absurd ⟨g, hg, hgm⟩ hmore
    · simp only [List.foldl_cons]
      rw [(hall m).2 fun g hg => hnot g (List.mem_cons_of_mem _ hg), hget m, if_neg]
      rintro rfl
      exact hnot f List.mem_cons_self hf

/-! ## The whole journal -/

/-- a location that undoing takes away: a file put down, or at or below a directory put down -/
def Covers (j : Journal) (v : FileTree) (m : Location) : Prop :=
  (∃ f ∈ j.files, v.locate f = .ok m) ∨ ∃ d ∈ j.dirs, ∃ l, v.locate d = .ok l ∧ l <+: m

theorem Covers.grow {j : Journal} {u v : FileTree} {m : Location} (h : j.Covers u m) (hv : Grows u v) :
    j.Covers v m := by
  rcases h with ⟨f, hf, hfm⟩ | ⟨d, hd, l, hl, hlm⟩
  · exact Or.inl ⟨f, hf, hv.locate hfm⟩
  · exact Or.inr ⟨d, hd, l, hv.locate hl, hlm⟩

theorem Covers.addDir {j : Journal} {v : FileTree} {m : Location} (h : j.Covers v m) (d : Option Path) :
    (j.addDir d).Covers v m := by
  rcases h with hf | ⟨d', hd, h⟩
  · exact Or.inl hf
  · exact Or.inr ⟨d', List.mem_append_left _ hd, h⟩

theorem Covers.addFile {j : Journal} {v : FileTree} {m : Location} (h : j.Covers v m) (f : Path) :
    (j.addFile f).Covers v m := by
  rcases h with ⟨f', hf, h⟩ | hd
  · exact Or.inl ⟨f', List.mem_append_left _ hf, h⟩
  · exact Or.inr hd

/-- the journal of a run that began at `t` and stands at `v`: every file put down is new, and so is every directory -/
structure Records (t v : FileTree) (j : Journal) : Prop where
  dirs : ∃ ds, ds.map Prod.fst = j.dirs.reverse ∧ Stacked t v ds
  files : ∀ f ∈ j.files, ∃ l c, v.locate f = .ok l ∧ v.get? l = some (.file c) ∧ t.get? l = none

theorem Records.grows {t v : FileTree} {j : Journal} (h : Records t v j) : Grows t v := by
  obtain ⟨ds, -, hs⟩ := h.dirs
  exact hs.grows

theorem Records.start {t : FileTree} (h : t.Sound) : Records t t .empty :=
  ⟨⟨[], rfl, .base (.refl h)⟩, by simp [Journal.empty]⟩

theorem Records.grow {t u v : FileTree} {j : Journal} (h : Records t u j) (hv : Grows u v) : Records t v j := by
  obtain ⟨ds, hds, hs⟩ := h.dirs
  refine ⟨⟨ds, hds, hs.grow hv⟩, fun f hf => ?_⟩
  obtain ⟨l, c, hl, hg, hn⟩ := h.files f hf
  exact ⟨l, c, hv.locate hl, hv.keeps _ _ hg, hn⟩

/-- a directory that was missing is put down once it is made -/
theorem Records.addDir {t u v : FileTree} {j : Journal} (h : Records t u j) (hv : Grows u v) {d : Path} {l : Location}
    (hd : u.locate d = .ok l) (hn : u.get? l = none) (hm : v.get? l = some .dir) :
    Records t v (j.addDir (some d)) := by
  obtain ⟨ds, hds, hs⟩ := h.dirs
  refine ⟨⟨(d, l) :: ds, by simp [Journal.addDir, hds], .push hs hv hd hn hm⟩, (h.grow hv).files⟩

/-- a file is put down as it is created -/
theorem Records.addFile {t u : FileTree} {j : Journal} (h : Records t u j) {f : Path} {l : Location}
    (hf : u.locate f = .ok l) (hn : u.get? l = none) (c : Bytes) : Records t (u.set l (.file c)) (j.addFile f) := by
  have hg : Grows u (u.set l (.file c)) := .set h.grows.sound hf hn _
  have hne : l ≠ [] := by rintro rfl; simp at hn
  refine ⟨(h.grow hg).dirs, fun g hgm => ?_⟩
  rcases List.mem_append.1 hgm with hgm | hgm
  · exact (h.grow hg).files g hgm
  · rw [List.mem_singleton.1 hgm]
    exact ⟨l, c, hg.locate hf, by simp [get?_set u l _ hne], h.grows.get?_none hn⟩

/-- what is covered was not there at the start -/
theorem Records.not_covers {t v : FileTree} {j : Journal} (h : Records t v j) (ht : t.Sound) {m : Location} {e : Entry}
    (hm : t.get? m = some e) : ¬j.Covers v m := by
  rintro (⟨f, hf, hfm⟩ | ⟨d, hd, l, hl, hlm⟩)
  · obtain ⟨l, c, hl, -, hnone⟩ := h.files f hf
    rw [hfm] at hl
    rw [Except.ok.inj hl, hnone] at hm
    simp at hm
  · obtain ⟨ds, hds, hs⟩ := h.dirs
    obtain ⟨x, hx, rfl⟩ := List.mem_map.1 (hds ▸ List.mem_reverse.2 hd)
    obtain ⟨hlead, hnone⟩ := hs.leads hx
    rw [hl] at hlead
    rw [ht.none_below (Except.ok.inj hlead ▸ hnone) hlm] at hm
    simp at hm

/-- undoing files and directories takes away what the journal covers, and nothing else -/
theorem Records.get?_undo {t v : FileTree} {j : Journal} (h : Records t v j) (m : Location) :
    (j.Covers v m → (j.dirs.reverse.foldl removeTree (j.files.reverse.foldl unlink v)).get? m = none) ∧
      (¬j.Covers v m → (j.dirs.reverse.foldl removeTree (j.files.reverse.foldl unlink v)).get? m = v.get? m) := by
  obtain ⟨ds, hds, hs⟩ := h.dirs
  have hfiles : ∀ f ∈ j.files.reverse, ∃ l c, v.locate f = .ok l ∧ v.get? l = some (.file c) := by
    intro f hf
    obtain ⟨l, c, hl, hg, -⟩ := h.files f (List.mem_reverse.1 hf)
    exact ⟨l, c, hl, hg⟩
  obtain ⟨hcur, hkeep, hun⟩ := get?_unlinkFiles hfiles rfl fun l => Iff.rfl
  obtain ⟨hgone, hsame⟩ := get?_removeDirs hs hcur hkeep m
  have hcover : (∃ d ∈ j.dirs, ∃ l, v.locate d = .ok l ∧ l <+: m) ↔ ∃ x ∈ ds, x.2 <+: m := by
    constructor
    · rintro ⟨d, hd, l, hl, hlm⟩
      obtain ⟨x, hx, rfl⟩ := List.mem_map.1 (hds ▸ List.mem_reverse.2 hd)
      rw [(hs.leads hx).1] at hl
      exact ⟨x, hx, Except.ok.inj hl ▸ hlm⟩
    · rintro ⟨x, hx, hxm⟩
      exact ⟨x.1, List.mem_reverse.1 (hds ▸ List.mem_map_of_mem hx), x.2, (hs.leads hx).1, hxm⟩
  rw [← hds]
  constructor
  · rintro (⟨f, hf, hfm⟩ | hd)
    · by_cases hd : ∃ x ∈ ds, x.2 <+: m
      · exact hgone hd
      · rw [hsame fun x hx hxm => hd ⟨x, hx, hxm⟩]
        exact (hun m).1 ⟨f, List.mem_reverse.2 hf, hfm⟩
    · exact hgone (hcover.1 hd)
  · intro hnot
    rw [hsame fun x hx hxm => hnot (Or.inr (hcover.2 ⟨x, hx, hxm⟩))]
    exact (hun m).2 fun f hf hfm => hnot (Or.inl ⟨f, List.mem_reverse.1 hf, hfm⟩)

end Journal

end Componentry
