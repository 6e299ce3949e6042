/-
What updating listings does to the tree, and what its outcomes say about it.

- `updateListings_frame`: directories stay, and so does every file that is no listing's.
- `Truthful`: an outcome tells what became of its listing's file.
- `Passed.truthful`: so does the outcome of every listing that is passed, as long as the file holds what it held at first
  when the listing's turn comes, and keeps what the listing leaves.
-/
import Componentry.Proofs.Creation
import Componentry.Proofs.FileTree.Plain
import Componentry.Proofs.FileTree.Replacing
import Componentry.FileTree.Changes

namespace Componentry.Creation

open FileTree

/-! ## What stays -/

/-- two trees with their directories and files at the same places, which differ in what is at the given places alone -/
structure DiffersAt (places : List Location) (t u : FileTree) : Prop where
  alike : Alike t u
  rest : ∀ m, m ∉ places → u.get? m = t.get? m

theorem DiffersAt.refl (places : List Location) (t : FileTree) : DiffersAt places t t := ⟨.refl t, fun _ _ => rfl⟩

theorem DiffersAt.trans {places more : List Location} {t u v : FileTree} (h : DiffersAt places t u)
    (k : DiffersAt more u v) : DiffersAt (places ++ more) t v := by
  refine ⟨h.alike.trans k.alike, fun m hm => ?_⟩
  rw [List.mem_append, not_or] at hm
  exact (k.rest m hm.2).trans (h.rest m hm.1)

theorem content?_congr {t u : FileTree} {l : Location} (h : u.get? l = t.get? l) : u.content? l = t.content? l := by
  simp only [content?, h]

/-- more directories are no more contents -/
theorem content?_deepens {t u : FileTree} (h : Deepens t u) (l : Location) : u.content? l = t.content? l := by
  cases ht : t.get? l with
  | some e => exact content?_congr ((h.keeps l e ht).trans ht.symm)
  | none =>
    cases hu : u.get? l with
    | none => exact content?_congr (hu.trans ht.symm)
    | some e =>
      obtain rfl := h.fresh l e ht hu
      simp [content?, ht, hu]

theorem DiffersAt.content? {places : List Location} {t u : FileTree} (h : DiffersAt places t u) {m : Location}
    (hm : m ∉ places) : u.content? m = t.content? m :=
  content?_congr (h.rest m hm)

section

variable {w : Work} {c : Component} {l : Listing}

/-- a text that is replaced changes the file that it was read from, and nothing else -/
theorem replaceText_differs {t after : FileTree} {p : Path} (hp : p.IsPlain) {content updated : Text}
    (hread : t.readText p = .ok content) (hrep : t.replaceText p updated = (after, none)) :
    DiffersAt [t.place p] t after ∧ after.get? (t.place p) = some (.file (Utf8.encode updated)) := by
  obtain ⟨m, hm, hold⟩ := readText_iff.1 hread
  obtain rfl : m = t.place p := locate_plain hp hm
  obtain ⟨u, m', hu, hm', hcur, htok, hget⟩ := (replaceable_of_replaceText hrep).replaceText updated
  obtain rfl : u = after := (Prod.mk.inj (hu.symm.trans hrep)).1
  obtain rfl : m' = t.place p := Except.ok.inj (hm'.symm.trans hm)
  refine ⟨⟨⟨hcur, htok, fun l => ?_, fun l => ?_⟩, fun m hm => ?_⟩, by rw [hget, if_pos rfl]⟩
  · rw [hget]
    split_ifs with hl <;> simp [hl, hold]
  · rw [hget]
    split_ifs with hl <;> simp [hl, hold]
  · rw [hget, if_neg (by simpa using hm)]

/-- a listing changes its own file alone -/
theorem updateListing_frame (w : Work) (c : Component) (hp : l.path.IsPlain) :
    DiffersAt [w.tree.place l.path] w.tree (updateListing w c l).1.tree := by
  have h := updateListing_update w c l
  generalize updateListing w c l = r at h
  cases h with
  | unread | unspliced | resting => exact .refl _ _
  | refused read applied changed replaced =>
    obtain ⟨hs, hc, ht⟩ := replaceText_refused (noNul_of_readText read) replaced
    exact ⟨.of_same hc ht hs, fun m _ => hs m⟩
  | replaced read applied changed replaced => exact (replaceText_differs hp read replaced).1

/-- listings change their own files alone -/
theorem updateListings_frame (w : Work) (c : Component) {ls : List Listing} (hls : ∀ l ∈ ls, l.path.IsPlain) :
    DiffersAt (ls.map fun l => w.tree.place l.path) w.tree (updateListings w c ls).1.tree := by
  induction ls generalizing w with
  | nil => exact .refl _ _
  | cons l ls ih =>
    have hfirst := updateListing_frame w c (hls l List.mem_cons_self)
    have hrest := fun (next : Work) (hnext : next.tree = (updateListing w c l).1.tree) => by
      have := ih next fun k hk => hls k (List.mem_cons_of_mem _ hk)
      rw [hnext] at this
      simp only [place_congr hfirst.alike.current] at this
      exact hfirst.trans this
    rcases updateListings_cons w c l with ⟨o, next, hpassed, heq⟩ | ⟨failure, -, -, heq⟩ | ⟨e, -, heq⟩
    · rw [heq]
      exact hrest next hpassed.tree
    · rw [heq]
      exact hfirst.trans (.refl (ls.map fun l => w.tree.place l.path) _)
    · rw [heq]
      exact hfirst.trans (.refl (ls.map fun l => w.tree.place l.path) _)

/-! ## What outcomes say -/

/-- an outcome tells what became of the file of a listing between the trees `t` and `r`, where `u` is the tree in which
the listing's turn came -/
structure Truthful (t u r : FileTree) (c : Component) (l : Listing) (o : Outcome) : Prop where
  /-- the file is as it was, or has been through all steps -/
  content : r.content? (t.place l.path) = t.content? (t.place l.path) ∨ ∃ text updated,
    t.readText l.path = .ok text ∧ l.apply text c = .ok updated ∧
      r.content? (t.place l.path) = some (Utf8.encode updated)
  updated : o.status = .updated ↔ r.content? (t.place l.path) ≠ t.content? (t.place l.path)
  unchanged : o.status = .unchanged ↔
    ∃ text, t.readText l.path = .ok text ∧ l.apply text c = .ok text ∧ l.steps.all (·.isAnchored text) = true
  skipped : o.status = .skipped ↔
    ∃ text, t.readText l.path = .ok text ∧ l.apply text c = .ok text ∧ ¬l.steps.all (·.isAnchored text) = true
  /-- the file could not be read, a step failed, or the new text was not written -/
  failed : o.status = .failed ↔ (∀ text, t.readText l.path ≠ .ok text) ∨
    (∃ text failure, t.readText l.path = .ok text ∧ l.apply text c = .error failure) ∨
    ∃ text updated, t.readText l.path = .ok text ∧ l.apply text c = .ok updated ∧ updated ≠ text ∧
      (u.replaceText l.path updated).2 ≠ none

/-- a plain path is read alike in two sound trees that hold the same at its place -/
theorem readText_congr {t u : FileTree} (ht : t.Sound) (hu : u.Sound) (hc : u.current = t.current) {p : Path}
    (hp : p.IsPlain) (h : u.content? (t.place p) = t.content? (t.place p)) (text : Text) :
    u.readText p = .ok text ↔ t.readText p = .ok text := by
  have hfile : ∀ {v : FileTree} {b : Bytes}, v.get? (t.place p) = some (.file b) ↔ v.content? (t.place p) = some b := by
    intro v b
    cases hv : v.get? (t.place p) with
    | none => simp [content?, hv]
    | some e => cases e <;> simp [content?, hv]
  rw [readText_iff, readText_iff]
  constructor
  · rintro ⟨m, hm, hg⟩
    obtain rfl : m = t.place p := (locate_plain hp hm).trans (place_congr hc p)
    have hg' := hfile.2 (h ▸ hfile.1 hg)
    exact ⟨_, ht.locate_of_entry hc.symm hp hm hg', hg'⟩
  · rintro ⟨m, hm, hg⟩
    obtain rfl : m = t.place p := locate_plain hp hm
    have hg' := hfile.2 (h.symm ▸ hfile.1 hg)
    exact ⟨_, hu.locate_of_entry hc hp hm hg', hg'⟩

/-- the outcome of a listing that is passed tells what became of its file -/
theorem Passed.truthful {t r : FileTree} {o : Outcome} {next : Work} (h : Passed w c l o next) (ht : t.Sound)
    (hw : w.tree.Sound) (hc : w.tree.current = t.current) (hp : l.path.IsPlain)
    (hbefore : w.tree.content? (t.place l.path) = t.content? (t.place l.path))
    (hafter : r.content? (t.place l.path) = next.tree.content? (t.place l.path)) : Truthful t w.tree r c l o := by
  have hread : ∀ text, t.readText l.path = .ok text ↔ w.tree.readText l.path = .ok text := fun text =>
    (readText_congr ht hw hc hp hbefore text).symm
  have hplace : w.tree.place l.path = t.place l.path := place_congr hc l.path
  obtain ⟨hresult, htree, -⟩ := h
  rw [htree] at hafter
  have hu := updateListing_update w c l
  generalize updateListing w c l = r' at hu hresult hafter
  cases hu with
  | unread read =>
    obtain ⟨failure, -, -, rfl⟩ := hresult.resolve_left (by simp)
    have hsame : r.content? (t.place l.path) = t.content? (t.place l.path) := hafter.trans hbefore
    constructor <;> simp [outcome, hread, read, hsame]
  | unspliced read applied =>
    obtain ⟨failure, -, -, rfl⟩ := hresult.resolve_left (by split_ifs <;> simp)
    have hsame : r.content? (t.place l.path) = t.content? (t.place l.path) := hafter.trans hbefore
    constructor <;> simp [outcome, hread, read, applied, hsame]
  | @resting content read applied =>
    obtain rfl := Except.ok.inj (hresult.resolve_right (by simp))
    have hsame : r.content? (t.place l.path) = t.content? (t.place l.path) := hafter.trans hbefore
    rw [restingOutcome_status]
    cases hall : l.steps.all (·.isAnchored content) <;>
      constructor <;> simp [outcome, hread, read, applied, hsame, hall, -List.all_eq_true, -List.all_eq_false]
  | @refused content updated after stop read applied changed replaced =>
    obtain ⟨failure, -, -, rfl⟩ := hresult.resolve_left (by simp)
    have hsame : r.content? (t.place l.path) = t.content? (t.place l.path) :=
      (hafter.trans (content?_congr ((replaceText_refused (noNul_of_readText read) replaced).1 _))).trans hbefore
    constructor <;> simp [outcome, hread, read, applied, changed, replaced, hsame]
  | @replaced content updated after read applied changed replaced =>
    obtain rfl := Except.ok.inj (hresult.resolve_right (by simp))
    have hnew : r.content? (t.place l.path) = some (Utf8.encode updated) := by
      have := (replaceText_differs hp read replaced).2
      rw [hplace] at this
      rw [hafter]
      simp [content?, this]
    have hold : t.content? (t.place l.path) = some (Utf8.encode content) := by
      obtain ⟨m, hm, hg⟩ := readText_iff.1 read
      rw [locate_plain hp hm] at hg
      have : w.tree.get? (t.place l.path) = some (.file (Utf8.encode content)) := hplace ▸ hg
      rw [← hbefore]
      simp [content?, this]
    have hne : Utf8.encode updated ≠ Utf8.encode content := fun h => changed (Utf8.encode_injective h)
    constructor <;> simp [outcome, hread, read, applied, changed, replaced, hnew, hold, hne]

end

end Componentry.Creation
