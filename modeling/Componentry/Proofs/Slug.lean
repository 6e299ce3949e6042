/-
The characters of slugs and of the names derived from them.

- `mem_slug`: a slug that is accepted has small letters, digits and hyphens, and at most a line feed at its end.
- `mem_pascal`: its pascal name has letters and digits, and at most the same line feed.
- `IsName.pascal_eq`: of slug characters alone, the name has letters and digits alone, and starts with no small letter.
-/
import Componentry.Proofs.Text.Pieces
import Componentry.Slug
import Componentry.Text.Word

namespace Componentry

namespace Text

/-- a fact about ASCII by a look at every character -/
theorem ascii_all {P : Char → Prop} (h : ∀ n < 128, P (Char.ofNat n)) {c : Char} (hc : c.toNat < 128) : P c := by
  have := h c.toNat hc
  rwa [Char.ofNat_toNat] at this

end Text

namespace Slug

open Text

/-- a letter or digit of ASCII -/
def isNameChar (c : Char) : Bool := isLower c || isCapital c || isDigit c

/-- a slug that is accepted has slug characters, and at most a line feed at its end -/
theorem mem_slug {slug : Text} (h : problem? slug = none) {c : Char} (hc : c ∈ slug) :
    isSlugChar c = true ∨ c = '\n' := by
  have hv : (chomp slug).all isSlugChar = true := by
    unfold problem? at h
    split_ifs at h with h0 h1
    simp only [isValid, Bool.not_eq_true', Bool.not_eq_false, Bool.and_eq_true] at h1
    exact h1.2
  unfold chomp at hv
  split_ifs at hv with hend
  · obtain ⟨front, rfl⟩ := List.getLast?_eq_some_iff.1 hend
    rw [List.dropLast_concat] at hv
    rcases List.mem_append.1 hc with hc | hc
    · exact Or.inl (List.all_eq_true.1 hv c hc)
    · exact Or.inr (List.mem_singleton.1 hc)
  · exact Or.inl (List.all_eq_true.1 hv c hc)

theorem ascii_of_slugChar {c : Char} (h : isSlugChar c = true ∨ c = '\n') : c.toNat < 128 := by
  rcases h with h | rfl
  · simp only [isSlugChar, isLower, isDigit, Bool.or_eq_true, Bool.and_eq_true, decide_eq_true_eq] at h
    rcases h with (⟨-, h⟩ | ⟨-, h⟩) | rfl
    · exact Nat.lt_of_le_of_lt (show c.toNat ≤ 'z'.toNat from h) (by decide)
    · exact Nat.lt_of_le_of_lt (show c.toNat ≤ '9'.toNat from h) (by decide)
    · decide
  · decide

/-- the upper case of a slug character is a letter or digit, and no small letter -/
theorem upper_isSlugChar {c : Char} (h : isSlugChar c = true) (hc : c ≠ '-') :
    ∃ d, upper c = [d] ∧ isNameChar d = true ∧ isLower d = false := by
  have hall : ∀ n < 128, isSlugChar (Char.ofNat n) = true → Char.ofNat n ≠ '-' →
      isNameChar (Char.ofNat n).toUpper = true ∧ isLower (Char.ofNat n).toUpper = false := by decide +kernel
  have hascii := ascii_of_slugChar (Or.inl h)
  have hup := ascii_all (P := fun c => isSlugChar c = true → c ≠ '-' →
    isNameChar c.toUpper = true ∧ isLower c.toUpper = false) hall hascii h hc
  exact ⟨c.toUpper, by rw [upper, if_pos hascii], hup⟩

theorem upper_slugChar {c : Char} (h : isSlugChar c = true ∨ c = '\n') (hc : c ≠ '-') {d : Char} (hd : d ∈ upper c) :
    isNameChar d = true ∨ d = '\n' := by
  rcases h with h | rfl
  · obtain ⟨u, hu, hname, -⟩ := upper_isSlugChar h hc
    rw [hu, List.mem_singleton] at hd
    exact Or.inl (hd ▸ hname)
  · exact Or.inr (by simpa [upper] using hd)

theorem isNameChar_of_isSlugChar {c : Char} (h : isSlugChar c = true) (hc : c ≠ '-') : isNameChar c = true := by
  simp only [isSlugChar, isNameChar, Bool.or_eq_true, decide_eq_true_eq] at h ⊢
  tauto

theorem ascii_of_isNameChar {c : Char} (h : isNameChar c = true) : c.toNat < 128 := by
  simp only [isNameChar, isLower, isCapital, isDigit, Bool.or_eq_true, Bool.and_eq_true, decide_eq_true_eq] at h
  rcases h with (⟨-, h⟩ | ⟨-, h⟩) | ⟨-, h⟩
  · exact Nat.lt_of_le_of_lt (show c.toNat ≤ 'z'.toNat from h) (by decide)
  · exact Nat.lt_of_le_of_lt (show c.toNat ≤ 'Z'.toNat from h) (by decide)
  · exact Nat.lt_of_le_of_lt (show c.toNat ≤ '9'.toNat from h) (by decide)

theorem isBlank_of_isNameChar {c : Char} (h : isNameChar c = true) : isBlank c = false :=
  ascii_all (P := fun c => isNameChar c = true → isBlank c = false) (by decide +kernel) (ascii_of_isNameChar h) h

theorem isWordChar_of_isNameChar {c : Char} (h : isNameChar c = true) : isWordChar c = true :=
  ascii_all (P := fun c => isNameChar c = true → isWordChar c = true) (by decide +kernel) (ascii_of_isNameChar h) h

theorem isNameChar_of_isLower {c : Char} (h : isLower c = true) : isNameChar c = true := by simp [isNameChar, h]

theorem isBlank_of_isSlugChar {c : Char} (h : isSlugChar c = true) : isBlank c = false := by
  by_cases hc : c = '-'
  · rw [hc]
    decide
  · exact isBlank_of_isNameChar (isNameChar_of_isSlugChar h hc)

/-- a pascal name has letters and digits, and at most the line feed of its slug -/
theorem mem_pascal {slug : Text} (h : problem? slug = none) {d : Char} (hd : d ∈ pascal slug) :
    isNameChar d = true ∨ d = '\n' := by
  obtain ⟨piece, hp, hd⟩ := List.mem_flatMap.1 hd
  obtain ⟨hsub, hsep⟩ := mem_splitAt hp
  cases piece with
  | nil => simp [capitalised] at hd
  | cons c rest =>
    simp only [List.mem_cons, not_or] at hsep
    have hslug : ∀ x ∈ c :: rest, isSlugChar x = true ∨ x = '\n' := fun x hx => mem_slug h (hsub.subset hx)
    rcases List.mem_append.1 hd with hd | hd
    · exact upper_slugChar (hslug c List.mem_cons_self) (Ne.symm hsep.1) hd
    · refine (hslug d (List.mem_cons_of_mem _ hd)).imp_left fun hx => isNameChar_of_isSlugChar hx ?_
      rintro rfl
      exact hsep.2 hd

/-- a slug that can be written in an index: slug characters alone, and one of them a letter or digit -/
structure IsName (slug : Text) : Prop where
  chars : ∀ c ∈ slug, isSlugChar c = true
  visible : ∃ c ∈ slug, c ≠ '-'

instance (slug : Text) : Decidable (IsName slug) :=
  decidable_of_iff (_ ∧ _) ⟨fun ⟨h1, h2⟩ => ⟨h1, h2⟩, fun h => ⟨h.1, h.2⟩⟩

/-- such a slug is accepted -/
theorem IsName.problem?_eq_none {slug : Text} (h : IsName slug) : problem? slug = none := by
  obtain ⟨hchars, c, hc, hne⟩ := h
  have hlast : slug.getLast? ≠ some '\n' := fun hl =>
    absurd (hchars _ (List.mem_of_getLast? hl)) (by decide)
  have hchomp : chomp slug = slug := if_neg hlast
  have hvalid : isValid slug = true := by
    rw [isValid, hchomp]
    simpa [List.ne_nil_of_mem hc] using hchars
  have hall : slug.all (· = '-') = false := by
    rw [List.all_eq_false]
    exact ⟨c, hc, by simpa using hne⟩
  simp [problem?, List.ne_nil_of_mem hc, hvalid, hall]

/-- the pieces of a slug, capitalised and joined -/
theorem flatMap_capitalised {pieces : List Text} (hchars : ∀ piece ∈ pieces, ∀ c ∈ piece, isSlugChar c = true ∧ c ≠ '-')
    (hne : ∃ piece ∈ pieces, piece ≠ []) : ∃ d rest, pieces.flatMap capitalised = d :: rest ∧ isLower d = false ∧
      isNameChar d = true := by
  induction pieces with
  | nil => simp at hne
  | cons piece pieces ih =>
    cases piece with
    | nil =>
      obtain ⟨piece, hp, hpne⟩ := hne
      obtain ⟨d, rest, h, hd⟩ := ih (fun q hq => hchars q (List.mem_cons_of_mem _ hq))
        ⟨piece, (List.mem_cons.1 hp).resolve_left hpne, hpne⟩
      exact ⟨d, rest, by simpa [capitalised] using h, hd⟩
    | cons c piece =>
      obtain ⟨hslug, hc⟩ := hchars _ List.mem_cons_self c List.mem_cons_self
      obtain ⟨d, hup, hname, hlow⟩ := upper_isSlugChar hslug hc
      exact ⟨d, piece ++ pieces.flatMap capitalised, by simp [capitalised, hup], hlow, hname⟩

/-- its pascal name has letters and digits alone, and starts with no small letter -/
theorem IsName.pascal_eq {slug : Text} (h : IsName slug) :
    (∃ d rest, pascal slug = d :: rest ∧ isLower d = false ∧ isNameChar d = true) ∧
      ∀ d ∈ pascal slug, isNameChar d = true := by
  have hpieces : ∀ piece ∈ splitAt '-' slug, ∀ c ∈ piece, isSlugChar c = true ∧ c ≠ '-' := by
    intro piece hp c hc
    obtain ⟨hsub, hsep⟩ := mem_splitAt hp
    exact ⟨h.chars c (hsub.subset hc), fun heq => hsep (heq ▸ hc)⟩
  constructor
  · obtain ⟨c, hc, hne⟩ := h.visible
    obtain ⟨piece, hp, hin⟩ := exists_mem_splitAt hc hne
    exact flatMap_capitalised hpieces ⟨piece, hp, List.ne_nil_of_mem hin⟩
  · intro d hd
    obtain ⟨piece, hp, hd⟩ := List.mem_flatMap.1 hd
    cases piece with
    | nil => simp [capitalised] at hd
    | cons c rest =>
      rcases List.mem_append.1 hd with hd | hd
      · obtain ⟨hslug, hc⟩ := hpieces _ hp c List.mem_cons_self
        obtain ⟨u, hu, hname, -⟩ := upper_isSlugChar hslug hc
        rw [hu, List.mem_singleton] at hd
        exact hd ▸ hname
      · obtain ⟨hslug, hd'⟩ := hpieces _ hp d (List.mem_cons_of_mem _ hd)
        exact isNameChar_of_isSlugChar hslug hd'

end Slug

end Componentry
