/-
Replacing a text is all or nothing, and loses nothing.

The text goes to a temporary file, which is moved over the file. Either can be refused, and then the file is to be as it
was and the temporary one gone.
- `AllOrNothing`: the outcomes that keep this promise. The file holds the text and is read as the text, and nothing else
  is different; or the failure is one of writing this file, and nothing is different.
- `replaceText_allOrNothing_iff`: the promise is kept exactly if the system comes to see every path that it has to; a path
  with a NUL character it never sees, and a temporary file that was made by then stays behind. A text put back where it was
  read from leaves the tree as it was, whether it goes through or not.
-/
import Componentry.Proofs.FileTree.Replacing

namespace Componentry.FileTree

variable {t : FileTree} {p : Path} {text : Text}

/-- an outcome of replacing the text of a file that is all or nothing -/
inductive AllOrNothing (t : FileTree) (p : Path) (text : Text) : FileTree × Option (Stop FileFailure) → Prop where
  | all {u : FileTree} {m : Location} (place : t.locate p = .ok m) (file : u.get? m = some (.file (Utf8.encode text)))
      (rest : ∀ l, l ≠ m → u.get? l = t.get? l) (reads : u.readText p = .ok text) : AllOrNothing t p text (u, none)
  | nothing {u : FileTree} {e : Trouble} (same : Same u t) :
    AllOrNothing t p text (u, some (.handled ⟨.writing, p, .refused e⟩))

theorem AllOrNothing.not_escaped {r : FileTree × Option (Stop FileFailure)} (h : AllOrNothing t p text r) (e : Escape) :
    r.2 ≠ some (.escaped e) := by
  cases h <;> simp

/-! ## Going through -/

theorem Replaceable.noNul (h : Replaceable t p) : ¬p.HasNul := by
  obtain ⟨m, hm, -⟩ := h.target
  exact fun hnul => by simp [locate_nul.2 hnul] at hm

/-- what goes through is all: the text is there and is read again -/
theorem Replaceable.allOrNothing (h : Replaceable t p) (text : Text) :
    AllOrNothing t p text (t.replaceText p text) := by
  obtain ⟨m₀, hm₀, hdir⟩ := h.target
  obtain ⟨u, m, hu, hm, hcur, -, hget⟩ := h.replaceText text
  obtain rfl : m₀ = m := Except.ok.inj (hm₀.symm.trans hm)
  have hfile : u.get? m₀ = some (.file (Utf8.encode text)) := by rw [hget, if_pos rfl]
  have hkeeps : ∀ l, t.get? l = some .dir → u.get? l = some .dir := by
    intro l hl
    rw [hget, if_neg, hl]
    rintro rfl
    exact hdir hl
  rw [hu]
  exact .all hm hfile (fun l hl => by rw [hget, if_neg hl])
    (readText_iff.2 ⟨m₀, locate_mono hcur hkeeps hm, hfile⟩)

/-! ## Putting a text back -/

/-- a path that is pinned leads to a directory, if to anything -/
theorem Sound.dir_of_isPinned (ht : t.Sound) {m : Location} (hm : t.locate p = .ok m) (hp : isPinned p = true) :
    t.get? m = some .dir := by
  have hwalk := walk_of_locate hm
  unfold isPinned at hp
  rw [Bool.or_eq_true, List.isEmpty_iff, decide_eq_true_eq] at hp
  rcases hp with hnil | hup
  · rw [hnil] at hwalk
    rw [← Except.ok.inj hwalk]
    exact ht.origin p
  · obtain ⟨names, hnames⟩ : ∃ names, p.names = names ++ [['.', '.']] := by
      unfold Path.name at hup
      cases hlast : p.names.getLast? with
      | none => simp [hlast] at hup
      | some n =>
        obtain ⟨names, h⟩ := List.getLast?_eq_some_iff.1 hlast
        rw [hlast] at hup
        exact ⟨names, by rw [h, show n = ['.', '.'] from hup]⟩
    -- the last step leads up from a directory, and what that hangs in is one
    rw [hnames, walk_append] at hwalk
    cases hhere : t.walk (t.origin p) names with
    | error c => simp [hhere, Except.bind] at hwalk
    | ok here =>
      simp only [hhere, Except.bind, walk] at hwalk
      cases hnext : t.enter here ['.', '.'] with
      | error c => simp [hnext] at hwalk
      | ok next =>
        rw [hnext] at hwalk
        obtain ⟨hdir, -⟩ := enter_ok hnext
        have hm' : here.dropLast = m := by simpa [enter, hdir, Except.ok.inj hwalk] using hnext
        exact hm' ▸ ht.hung _ _ hdir

/-- a file that is read can be replaced where there is room for the temporary one -/
theorem replaceable_iff_of_readText (ht : t.Sound) (h : t.readText p = .ok text) : Replaceable t p ↔ t.HasRoom p := by
  obtain ⟨m, hm, hfile⟩ := readText_iff.1 h
  refine ⟨fun k => k.room, fun hroom => ⟨hroom, ⟨m, hm, by simp [hfile]⟩, ?_⟩⟩
  by_contra hp
  rw [Bool.not_eq_false] at hp
  simp [ht.dir_of_isPinned hm hp] at hfile

/-- a text that is put back leaves the tree as it was -/
theorem replaceText_readText (ht : t.Sound) (h : t.readText p = .ok text) :
    Same (t.replaceText p text).1 t ∧ ((t.replaceText p text).2 = none ↔ t.HasRoom p) := by
  rw [← replaceable_iff_of_readText ht h]
  obtain ⟨m, hm, hfile⟩ := readText_iff.1 h
  cases hr : t.replaceText p text with
  | mk u stop =>
    cases stop with
    | none =>
      have hable := replaceable_of_replaceText hr
      obtain ⟨v, m', hv, hm', -, -, hget⟩ := hable.replaceText text
      obtain rfl : u = v := (Prod.mk.inj (hr.symm.trans hv)).1
      obtain rfl : m = m' := Except.ok.inj (hm.symm.trans hm')
      refine ⟨fun l => ?_, by simpa using hable⟩
      rw [hget]
      split_ifs with hl
      · rw [hl, hfile]
      · rfl
    | some s =>
      refine ⟨(replaceText_refused (noNul_of_readText h) hr).1, by simp, fun hable => ?_⟩
      obtain ⟨v, m', hv, -⟩ := hable.replaceText text
      simp [hr] at hv

/-! ## The promise -/

/-- **Replacing a text is all or nothing, exactly if the system comes to see the paths.** A path with a NUL character
breaks the promise where the path of the temporary file has it too, or where there is room for that file; there it stays
behind. A text that is put back where it was read from leaves the tree as it was, and goes through where there is room for
the temporary file. -/
theorem replaceText_allOrNothing_iff (ht : t.Sound) (hn : t.Spelled) (p : Path) (text : Text) :
    (AllOrNothing t p text (t.replaceText p text) ↔ ¬(p.HasNul ∧ ((t.temporary p).HasNul ∨ t.HasRoom p))) ∧
    (p.HasNul → t.HasRoom p → ∃ u e l, t.replaceText p text = (u, some (.escaped e)) ∧
      t.locate (t.temporary p) = .ok l ∧ t.get? l = none ∧ u.get? l = some (.file (Utf8.encode text)) ∧
      ∀ m, m ≠ l → u.get? m = t.get? m) ∧
    (∀ old, t.readText p = .ok old →
      Same (t.replaceText p old).1 t ∧ ((t.replaceText p old).2 = none ↔ t.HasRoom p)) := by
  refine ⟨?_, fun hnul hroom => ?_, fun old hold => replaceText_readText ht hold⟩
  · cases hr : t.replace p (Utf8.encode text) with
    | mk u refused =>
      cases refused with
      | none =>
        have hable := replaceable_of_replace hr
        exact ⟨fun _ hnul => hable.noNul hnul.1, fun _ => hable.allOrNothing text⟩
      | some e =>
        have hstop : t.replaceText p text = (u, some (FileFailure.stop .writing p e)) := by
          simp only [replaceText, hr]
        rw [hstop, FileFailure.stop]
        cases refusal_of_replace hr with
        | system same _ _ asked whole system =>
          rw [if_pos system]
          refine ⟨fun _ hnul => ?_, fun _ => .nothing same⟩
          exact hnul.2.elim asked (whole hnul.1)
        | unasked nul system =>
          rw [if_neg (by simp [system])]
          refine ⟨fun h => absurd rfl (h.not_escaped _), fun h => absurd ⟨?_, Or.inl nul⟩ h⟩
          by_contra hp
          exact temporary_noNul hn hp nul
        | @stranded _ l nul place free system =>
          rw [if_neg (by simp [system])]
          exact ⟨fun h => absurd rfl (h.not_escaped _), fun h => absurd ⟨nul, Or.inr ⟨l, place, free⟩⟩ h⟩
  · cases hr : t.replace p (Utf8.encode text) with
    | mk u refused =>
      cases refused with
      | none => exact absurd hnul (replaceable_of_replace hr).noNul
      | some e =>
        cases refusal_of_replace hr with
        | system _ _ _ _ whole => exact absurd hroom (whole hnul)
        | unasked nul =>
          obtain ⟨l, hl, -⟩ := hroom
          simp [locate_nul.2 nul] at hl
        | @stranded _ l _ place free system =>
          refine ⟨t.set l (.file (Utf8.encode text)), .trouble e, l, ?_, place, free, ?_, ?_⟩
          · simp [replaceText, hr, FileFailure.stop, system]
          · rw [get?_written free, if_pos rfl]
          · intro m hm
            rw [get?_written free, if_neg hm]

/-- a text with a mark at its start goes into a file, is refused by a directory, and is put back -/
theorem replaceText_allOrNothing_marked :
    let file : Path := .ofText "repo/index.ts".toList
    let dir : Path := .ofText "repo".toList
    let old : Text := '\ufeff' :: "a\r\nb\n".toList
    let t : FileTree := ⟨[], ['0'], [(["repo".toList], .dir),
      (["repo".toList, "index.ts".toList], .file (Utf8.encode old))]⟩
    t.Sound ∧ t.Spelled ∧ t.readText file = .ok old ∧
      AllOrNothing t file "c\r".toList (t.replaceText file "c\r".toList) ∧ (t.replaceText file "c\r".toList).2 = none ∧
      AllOrNothing t dir "c\r".toList (t.replaceText dir "c\r".toList) ∧ (t.replaceText dir "c\r".toList).2 ≠ none ∧
      Same (t.replaceText file old).1 t := by
  intro file dir old t
  have ht : t.Sound := .of_entries (by decide) (by decide)
  have hn : t.Spelled := ⟨by decide, by decide⟩
  have hread : t.readText file = .ok old :=
    readText_iff.2 ⟨["repo".toList, "index.ts".toList], by decide +kernel, by decide⟩
  have hfile := replaceText_allOrNothing_iff ht hn file "c\r".toList
  have hdir := replaceText_allOrNothing_iff ht hn dir "c\r".toList
  refine ⟨ht, hn, hread, hfile.1.2 fun h => absurd h.1 (by decide), ?_,
    hdir.1.2 fun h => absurd h.1 (by decide), ?_, (hfile.2.2 old hread).1⟩
  · rfl
  · decide

/-- a path with a NUL character is refused by no system, and where it reads as one without, the temporary file stays -/
theorem replaceText_not_allOrNothing :
    let t : FileTree := ⟨[], ['0'], [(["repo".toList], .dir)]⟩
    let nul : Path := .ofText "repo/a\x00b".toList
    let hidden : Path := .ofText "repo/a\x00b/../x".toList
    t.Sound ∧ t.Spelled ∧ ¬AllOrNothing t nul "t".toList (t.replaceText nul "t".toList) ∧
      ¬AllOrNothing t hidden "t".toList (t.replaceText hidden "t".toList) ∧
      (t.replaceText hidden "t".toList).1.get? ["repo".toList, ".x.0.tmp".toList] = some (.file (Utf8.encode "t".toList)) ∧
      ¬Same (t.replaceText hidden "t".toList).1 t := by
  intro t nul hidden
  have hnul : (t.replaceText nul "t".toList).2 = some (.escaped (.trouble (troubleAt (t.temporary nul) .nulCharacter))) :=
    rfl
  have hhidden : (t.replaceText hidden "t".toList).2 =
      some (.escaped (.trouble ⟨.nulCharacter, (t.temporary hidden).text, some hidden.text⟩)) := rfl
  have hleft : (t.replaceText hidden "t".toList).1.get? ["repo".toList, ".x.0.tmp".toList] =
      some (.file (Utf8.encode "t".toList)) := by decide +kernel
  refine ⟨.of_entries (by decide) (by decide), ⟨by decide, by decide⟩, fun h => h.not_escaped _ hnul,
    fun h => h.not_escaped _ hhidden, hleft, fun h => ?_⟩
  have hbefore : t.get? ["repo".toList, ".x.0.tmp".toList] = none := by decide
  rw [h, hbefore] at hleft
  simp at hleft

end Componentry.FileTree
