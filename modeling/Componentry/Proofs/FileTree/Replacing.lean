/-
Replacing a file in one move.

- `refusal_of_replace`: a replacement that is refused leaves the tree as it was, and no temporary file remains, unless the
  path has a NUL character.
- `Replaceable.replace`: one that is not changes the content of its file and nothing else.
- `Replaceable.alike`: whether it is refused is decided by where the directories and the files are, and never by what the
  files hold. So a text can be put back wherever it could be replaced.
-/
import Componentry.Proofs.FileTree.Refusing
import Componentry.Proofs.Text.Utf8

namespace Componentry.FileTree

/-! ## Trees that differ in what their files hold -/

/-- two trees with their directories and files at the same places -/
structure Alike (t u : FileTree) : Prop where
  current : u.current = t.current
  token : u.token = t.token
  dir : ∀ l, u.get? l = some .dir ↔ t.get? l = some .dir
  none : ∀ l, u.get? l = none ↔ t.get? l = none

theorem Alike.refl (t : FileTree) : Alike t t := ⟨rfl, rfl, fun _ => Iff.rfl, fun _ => Iff.rfl⟩

theorem Alike.symm {t u : FileTree} (h : Alike t u) : Alike u t :=
  ⟨h.current.symm, h.token.symm, fun l => (h.dir l).symm, fun l => (h.none l).symm⟩

theorem Alike.trans {t u v : FileTree} (h : Alike t u) (k : Alike u v) : Alike t v :=
  ⟨k.current.trans h.current, k.token.trans h.token, fun l => (k.dir l).trans (h.dir l),
    fun l => (k.none l).trans (h.none l)⟩

theorem Alike.of_same {t u : FileTree} (hc : u.current = t.current) (ht : u.token = t.token) (h : Same u t) :
    Alike t u :=
  ⟨hc, ht, fun l => by rw [h l], fun l => by rw [h l]⟩

theorem Alike.sound {t u : FileTree} (h : Alike t u) (ht : t.Sound) : u.Sound := by
  refine ⟨fun l e hl => (h.dir _).2 ?_, by rw [h.current]; exact (h.dir _).2 ht.based⟩
  cases hg : t.get? l with
  | none =>
    rw [(h.none l).2 hg] at hl
    simp at hl
  | some f => exact ht.hung l f hg

/-- a path leads to the same location in alike trees, or to none in both -/
theorem Alike.locate {t u : FileTree} (h : Alike t u) {p : Path} {l : Location} :
    u.locate p = .ok l ↔ t.locate p = .ok l :=
  ⟨locate_mono h.current.symm fun m => (h.dir m).1, locate_mono h.current fun m => (h.dir m).2⟩

theorem temporary_congr {t u : FileTree} (hc : u.current = t.current) (ht : u.token = t.token) (p : Path) :
    u.temporary p = t.temporary p := by
  simp only [temporary, absolute, hc, ht]

theorem isPresent_of_locate {t : FileTree} {p : Path} {m : Location} (h : t.locate p = .ok m) :
    ∃ here, t.isPresent p = .ok here := by
  cases hg : t.get? m with
  | none => exact ⟨false, by simp [isPresent, look, h, hg]⟩
  | some e => exact ⟨true, by simp [isPresent, look, h, hg]⟩

/-! ## Replacing -/

/-- room for the temporary file next to a path: its own path leads to a place, and nothing is there -/
def HasRoom (t : FileTree) (p : Path) : Prop := ∃ l, t.locate (t.temporary p) = .ok l ∧ t.get? l = none

/-- a path whose file can be replaced: it is no directory, and there is room for the temporary file -/
structure Replaceable (t : FileTree) (p : Path) : Prop where
  room : t.HasRoom p
  target : ∃ m, t.locate p = .ok m ∧ t.get? m ≠ some .dir
  free : isPinned p = false

/-- whether a file can be replaced does not depend on what the files hold -/
theorem Replaceable.alike {t u : FileTree} {p : Path} (h : Replaceable t p) (k : Alike t u) : Replaceable u p := by
  obtain ⟨⟨l, hl, hn⟩, ⟨m, hm, hd⟩, hp⟩ := h
  refine ⟨⟨l, ?_, (k.none l).2 hn⟩, ⟨m, k.locate.2 hm, fun hx => hd ((k.dir m).1 hx)⟩, hp⟩
  rw [temporary_congr k.current k.token]
  exact k.locate.2 hl

section Written

variable {t : FileTree} {l : Location} {c : Bytes} (hn : t.get? l = none)

include hn

/-- the temporary file is in nobody's way -/
theorem get?_written (m : Location) :
    (t.set l (.file c)).get? m = if m = l then some (.file c) else t.get? m :=
  get?_set t m _ (by rintro rfl; simp at hn)

theorem dir_written (m : Location) : (t.set l (.file c)).get? m = some .dir ↔ t.get? m = some .dir := by
  rw [get?_written hn]
  split_ifs with hm <;> simp [hm, hn]

theorem locate_written {p : Path} {m : Location} : (t.set l (.file c)).locate p = .ok m ↔ t.locate p = .ok m :=
  ⟨locate_mono (set_current t l _).symm fun k => (dir_written hn k).1,
    locate_mono (set_current t l _) fun k => (dir_written hn k).2⟩

/-- the temporary file taken away again -/
theorem unlink_written {p : Path} (hp : t.locate p = .ok l) :
    Same ((t.set l (.file c)).unlink p) t ∧ ((t.set l (.file c)).unlink p).current = t.current ∧
      ((t.set l (.file c)).unlink p).token = t.token := by
  have hfile : (t.set l (.file c)).get? l = some (.file c) := by simp [get?_written hn]
  have hne : l ≠ [] := by rintro rfl; simp at hn
  have heq : (t.set l (.file c)).unlink p = (t.set l (.file c)).remove l := by
    simp only [unlink, (locate_written hn).2 hp, hfile]
  rw [heq]
  refine ⟨fun m => ?_, rfl, rfl⟩
  rw [get?_remove _ m hne, get?_written hn]
  split_ifs with hm
  · rw [hm, hn]
  · rfl

end Written

/-- a refused replacement: what it leaves, and why it was refused -/
inductive Refusal (t : FileTree) (p : Path) (c : Bytes) : FileTree → Trouble → Prop where
  /-- the system refuses: the tree is as it was -/
  | system {u : FileTree} {e : Trouble} (same : Same u t) (current : u.current = t.current) (token : u.token = t.token)
      (asked : ¬(t.temporary p).HasNul) (whole : p.HasNul → ¬t.HasRoom p) (system : e.isSystem = true) :
    Refusal t p c u e
  /-- the path of the temporary file does not get as far as the system -/
  | unasked {e : Trouble} (nul : (t.temporary p).HasNul) (system : e.isSystem = false) : Refusal t p c t e
  /-- the temporary file is made, the path itself does not get as far as the system, and the temporary file stays -/
  | stranded {e : Trouble} {l : Location} (nul : p.HasNul) (place : t.locate (t.temporary p) = .ok l)
      (free : t.get? l = none) (system : e.isSystem = false) : Refusal t p c (t.set l (.file c)) e

theorem rename_of_nul {t : FileTree} {source target : Path} {l : Location} (hs : t.locate source = .ok l)
    (ht : target.HasNul) : t.rename source target = .error ⟨.nulCharacter, source.text, some target.text⟩ := by
  simp only [rename, hs, locate_nul.2 ht]

theorem isSystem_iff {e : Trouble} : e.isSystem = true ↔ e.cause ≠ .nulCharacter := by simp [Trouble.isSystem]

/-- what refuses a replacement, and what that leaves -/
theorem refusal_of_replace {t u : FileTree} {p : Path} {c : Bytes} {e : Trouble} (h : t.replace p c = (u, some e)) :
    Refusal t p c u e := by
  unfold replace createFile at h
  cases hv : t.vacant (t.temporary p) with
  | error f =>
    simp only [hv, Except.map, Prod.mk.injEq, Option.some.injEq] at h
    obtain ⟨rfl, rfl⟩ := h
    by_cases hnul : (t.temporary p).HasNul
    · obtain rfl : f = _ := Except.error.inj (hv.symm.trans (vacant_of_nul hnul))
      exact .unasked hnul rfl
    · refine .system (fun _ => rfl) rfl rfl hnul ?_ (isSystem_iff.2 (vacant_cause hnul hv))
      rintro - ⟨l, hl, hn⟩
      simp [vacant, hl, hn] at hv
  | ok l =>
    obtain ⟨hl, hn⟩ := vacant_ok hv
    have hasked : ¬(t.temporary p).HasNul := fun hnul => by simp [locate_nul.2 hnul] at hl
    obtain ⟨hsame, hcur, htok⟩ := unlink_written (c := c) hn hl
    simp only [hv, Except.map] at h
    cases hpres : (t.set l (.file c)).isPresent p with
    | error f =>
      simp only [hpres, Prod.mk.injEq, Option.some.injEq] at h
      obtain ⟨rfl, rfl⟩ := h
      obtain ⟨hlong, hf⟩ := isPresent_error_iff.1 hpres
      refine .system hsame hcur htok hasked (fun hnul => ?_) (isSystem_iff.2 (by simp [hf, troubleAt]))
      simp [look_nul.2 hnul] at hlong
    | ok here =>
      simp only [hpres] at h
      cases hr : (t.set l (.file c)).rename (t.temporary p) p with
      | error f =>
        simp only [hr, Prod.mk.injEq, Option.some.injEq] at h
        obtain ⟨hu, rfl⟩ := h
        by_cases hnul : p.HasNul
        · obtain rfl : f = _ := Except.error.inj (hr.symm.trans (rename_of_nul ((locate_written hn).2 hl) hnul))
          exact hu ▸ .stranded hnul hl hn rfl
        · have hf := isSystem_iff.2 (rename_cause hasked hnul hr)
          rw [if_pos hf] at hu
          exact hu ▸ .system hsame hcur htok hasked (fun hx => absurd hx hnul) hf
      | ok moved => simp [hr] at h

/-- a replacement that is refused leaves the tree as it was, if the path has no NUL character -/
theorem replace_refused {t u : FileTree} {p : Path} {c : Bytes} {e : Trouble} (hp : ¬p.HasNul)
    (h : t.replace p c = (u, some e)) : Same u t ∧ u.current = t.current ∧ u.token = t.token := by
  cases refusal_of_replace h with
  | system same current token => exact ⟨same, current, token⟩
  | unasked => exact ⟨fun _ => rfl, rfl, rfl⟩
  | stranded nul => exact absurd nul hp

/-- a replacement that can be made changes the content of its file and nothing else -/
theorem Replaceable.replace {t : FileTree} {p : Path} (h : Replaceable t p) (c : Bytes) :
    ∃ u m, t.replace p c = (u, none) ∧ t.locate p = .ok m ∧ u.current = t.current ∧ u.token = t.token ∧
      ∀ x, u.get? x = if x = m then some (.file c) else t.get? x := by
  obtain ⟨⟨l, hl, hn⟩, ⟨m, hm, hd⟩, hp⟩ := h
  have hw : ∀ {q k}, (t.set l (.file c)).locate q = .ok k ↔ t.locate q = .ok k := locate_written hn
  have hlne : l ≠ [] := by rintro rfl; simp at hn
  have hmne : m ≠ [] := by rintro rfl; simp at hd
  have hvacant : t.vacant (t.temporary p) = .ok l := by simp [vacant, hl, hn]
  have hcreate : t.createFile (t.temporary p) c = .ok (t.set l (.file c)) := by simp [createFile, hvacant, Except.map]
  obtain ⟨here, hhere⟩ := isPresent_of_locate (hw.2 hm)
  have hfile : (t.set l (.file c)).get? l = some (.file c) := by simp [get?_written hn]
  have hrename : (t.set l (.file c)).rename (t.temporary p) p =
      .ok (((t.set l (.file c)).remove l).set m (.file c)) := by
    have hmd : (t.set l (.file c)).get? m ≠ some .dir := fun hx => hd ((dir_written hn m).1 hx)
    simp only [rename, hw.2 hl, hw.2 hm, hp, Bool.false_eq_true, if_false, hfile]
    cases hg : (t.set l (.file c)).get? m with
    | none => rfl
    | some e =>
      cases e with
      | file b => rfl
      | dir => exact absurd hg hmd
  refine ⟨((t.set l (.file c)).remove l).set m (.file c), m, ?_, hm, rfl, rfl, fun x => ?_⟩
  · simp only [FileTree.replace, hcreate, hhere, hrename]
  · rw [get?_set _ x _ hmne, get?_remove _ x hlne, get?_written hn]
    by_cases hx : x = l <;> simp [hx, hn]

/-- what goes through could be made -/
theorem replaceable_of_replace {t u : FileTree} {p : Path} {c : Bytes} (h : t.replace p c = (u, none)) :
    Replaceable t p := by
  unfold FileTree.replace createFile at h
  cases hv : t.vacant (t.temporary p) with
  | error f => simp [hv, Except.map] at h
  | ok l =>
    obtain ⟨hl, hn⟩ := vacant_ok hv
    simp only [hv, Except.map] at h
    cases hpres : (t.set l (.file c)).isPresent p with
    | error f => simp [hpres] at h
    | ok here =>
      simp only [hpres] at h
      cases hr : (t.set l (.file c)).rename (t.temporary p) p with
      | error f => simp [hr] at h
      | ok moved =>
        unfold rename at hr
        simp only [(locate_written hn).2 hl] at hr
        cases hm : (t.set l (.file c)).locate p with
        | error f => simp [hm] at hr
        | ok m =>
          simp only [hm] at hr
          split_ifs at hr with hpin
          refine ⟨⟨l, hl, hn⟩, ⟨m, (locate_written hn).1 hm, fun hd => ?_⟩, by simpa using hpin⟩
          rw [(dir_written hn m).2 hd, show (t.set l (.file c)).get? l = some (.file c) by simp [get?_written hn]] at hr
          simp at hr

/-! ## Texts -/

/-- a text is read from the file that holds its bytes -/
theorem readText_iff {t : FileTree} {p : Path} {text : Text} :
    t.readText p = .ok text ↔ ∃ m, t.locate p = .ok m ∧ t.get? m = some (.file (Utf8.encode text)) := by
  constructor
  · intro h
    unfold readText FileTree.read at h
    cases hl : t.look p with
    | error c => simp [hl] at h
    | ok e =>
      cases e with
      | dir => simp [hl] at h
      | file bytes =>
        simp only [hl] at h
        cases hd : Utf8.decode bytes with
        | error f => simp [hd] at h
        | ok decoded =>
          simp only [hd, Except.ok.injEq] at h
          subst h
          obtain ⟨m, hm, hg⟩ := look_ok.1 hl
          exact ⟨m, hm, by rw [hg, Utf8.encode_of_decode hd]⟩
  · rintro ⟨m, hm, hg⟩
    simp only [readText, FileTree.read, look_ok.2 ⟨m, hm, hg⟩, Utf8.decode_encode]

theorem noNul_of_readText {t : FileTree} {p : Path} {text : Text} (h : t.readText p = .ok text) : ¬p.HasNul := by
  obtain ⟨m, hm, -⟩ := readText_iff.1 h
  exact fun hnul => by simp [locate_nul.2 hnul] at hm

theorem replaceText_refused {t u : FileTree} {p : Path} {text : Text} {stop : Stop FileFailure} (hp : ¬p.HasNul)
    (h : t.replaceText p text = (u, some stop)) : Same u t ∧ u.current = t.current ∧ u.token = t.token := by
  unfold replaceText at h
  cases hr : t.replace p (Utf8.encode text) with
  | mk after refused =>
    cases refused with
    | none => simp [hr] at h
    | some e =>
      simp only [hr, Prod.mk.injEq] at h
      exact h.1 ▸ replace_refused hp hr

theorem replaceable_of_replaceText {t u : FileTree} {p : Path} {text : Text} (h : t.replaceText p text = (u, none)) :
    Replaceable t p := by
  unfold replaceText at h
  cases hr : t.replace p (Utf8.encode text) with
  | mk after refused =>
    cases refused with
    | none => exact replaceable_of_replace hr
    | some e => simp [hr] at h

theorem Replaceable.replaceText {t : FileTree} {p : Path} (h : Replaceable t p) (text : Text) :
    ∃ u m, t.replaceText p text = (u, none) ∧ t.locate p = .ok m ∧ u.current = t.current ∧ u.token = t.token ∧
      ∀ x, u.get? x = if x = m then some (.file (Utf8.encode text)) else t.get? x := by
  obtain ⟨u, m, hr, hrest⟩ := h.replace (Utf8.encode text)
  exact ⟨u, m, by simp only [FileTree.replaceText, hr], hrest⟩

/-- where relative paths start, and how temporary files are named, stays in any case -/
theorem replaceText_current (t : FileTree) (p : Path) (text : Text) :
    (t.replaceText p text).1.current = t.current ∧ (t.replaceText p text).1.token = t.token := by
  unfold FileTree.replaceText
  cases hr : t.replace p (Utf8.encode text) with
  | mk after refused =>
    cases refused with
    | none =>
      obtain ⟨u, m, hu, -, hcur, htok, -⟩ := (replaceable_of_replace hr).replace (Utf8.encode text)
      rw [hr] at hu
      exact (Prod.mk.inj hu).1 ▸ ⟨hcur, htok⟩
    | some e =>
      cases refusal_of_replace hr with
      | system _ current token => exact ⟨current, token⟩
      | unasked => exact ⟨rfl, rfl⟩
      | stranded => exact ⟨rfl, rfl⟩

end Componentry.FileTree
