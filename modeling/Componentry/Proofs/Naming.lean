/-
Which slugs have the same pascal name, and how a name starts.

A pascal name shows a hyphen of its slug by a capital alone, so a hyphen that no small letter follows is lost, and so is
one at the start, where every name has a capital.
- `plain`: a slug without the hyphens that are lost.
- `spaced_pascal`: that much of a slug can be read off its name.
- `upper_cases`: how a character is written at the start of a name.

Main results: `pascal_eq_iff` and `pascal_starts_iff`, how a name starts.
-/
import Componentry.Proofs.Slug

namespace Componentry.Slug

open Text

/-- a slug without the hyphens that no small letter follows -/
def tidied : Text → Text
  | [] => []
  | c :: rest => if c = '-' ∧ rest.head?.any isLower = false then tidied rest else c :: tidied rest

/-- a slug without the hyphens that its name does not show: those at its start, and those that no small letter follows -/
def plain (slug : Text) : Text := tidied (slug.dropWhile (· = '-'))

/-- the pascal name of a slug, read character by character: one at the start or behind a hyphen is written in upper case -/
def cased (start : Bool) : Text → Text
  | [] => []
  | c :: rest => if c = '-' then cased true rest else (if start then upper c else [c]) ++ cased false rest

/-- a name with every capital written as a hyphen and the small letter -/
def spaced (name : Text) : Text := name.flatMap fun c => if isCapital c then ['-', c.toLower] else [c]

/-! ## Characters -/

section Character

variable {c : Char} {s : Text} {start : Bool}

theorem spaced_append (a b : Text) : spaced (a ++ b) = spaced a ++ spaced b := List.flatMap_append

/-- a small letter in upper case is read back behind a hyphen -/
theorem spaced_upper (h : isLower c = true) : spaced (upper c) = ['-', c] := by
  have hascii := ascii_of_isNameChar (isNameChar_of_isLower h)
  have hall : isLower c = true → isCapital c.toUpper = true ∧ c.toUpper.toLower = c :=
    ascii_all (P := fun c => isLower c = true → isCapital c.toUpper = true ∧ c.toUpper.toLower = c)
      (by decide +kernel) hascii
  obtain ⟨hcapital, hlower⟩ := hall h
  simp [upper, hascii, spaced, hcapital, hlower]

/-- what is no small letter has no upper case -/
theorem upper_eq (h : isSlugChar c = true ∨ c = '\n') (hlow : isLower c = false) : upper c = [c] := by
  have hascii := ascii_of_slugChar h
  have hall : (isSlugChar c = true ∨ c = '\n') → isLower c = false → c.toUpper = c :=
    ascii_all (P := fun c => (isSlugChar c = true ∨ c = '\n') → isLower c = false → c.toUpper = c)
      (by decide +kernel) hascii
  rw [upper, if_pos hascii, hall h hlow]

/-- a slug has no capitals -/
theorem spaced_singleton (h : isSlugChar c = true ∨ c = '\n') : spaced [c] = [c] := by
  have hall : (isSlugChar c = true ∨ c = '\n') → isCapital c = false :=
    ascii_all (P := fun c => (isSlugChar c = true ∨ c = '\n') → isCapital c = false) (by decide +kernel)
      (ascii_of_slugChar h)
  simp [spaced, hall h]

theorem tidied_cons (hc : c ≠ '-') (rest : Text) : tidied (c :: rest) = c :: tidied rest := by
  rw [tidied, if_neg fun h : c = '-' ∧ _ => hc h.1]

/-- the hyphen before anything but a small letter is lost -/
theorem cased_start (hs : ∀ c ∈ s, isSlugChar c = true ∨ c = '\n') (hlow : s.head?.any isLower = false) :
    cased start s = cased true s := by
  cases s with
  | nil => rfl
  | cons c s =>
    have hupper := upper_eq (hs c List.mem_cons_self) (by simpa using hlow)
    by_cases hc : c = '-'
    · simp [cased, hc]
    · cases start <;> simp [cased, hc, hupper]

end Character

/-! ## Names -/

section Name

variable {s t : Text}

/-- the pascal name comes piece by piece, and so character by character -/
theorem pascal_eq_cased (s : Text) : pascal s = cased true s := by
  have hpieces : ∀ s, ∃ first pieces, splitAt '-' s = first :: pieces ∧
      cased true s = capitalised first ++ pieces.flatMap capitalised ∧
      cased false s = first ++ pieces.flatMap capitalised := by
    intro s
    induction s with
    | nil => exact ⟨[], [], rfl, rfl, rfl⟩
    | cons c s ih =>
      obtain ⟨first, pieces, hsplit, htrue, hfalse⟩ := ih
      by_cases hc : c = '-'
      · subst hc
        refine ⟨[], first :: pieces, by rw [splitAt_cons_self, hsplit], ?_, ?_⟩ <;>
          simp [cased, htrue, capitalised]
      · obtain ⟨first', pieces', hsplit', hcons⟩ := splitAt_cons hc s
        obtain ⟨rfl, rfl⟩ := List.cons.inj (hsplit'.symm.trans hsplit)
        refine ⟨c :: first', pieces', hcons, ?_, ?_⟩ <;> simp [cased, hc, hfalse, capitalised]
  obtain ⟨first, pieces, hsplit, htrue, -⟩ := hpieces s
  rw [pascal, hsplit, List.flatMap_cons, htrue]

theorem cased_dropWhile (s : Text) : cased true (s.dropWhile (· = '-')) = cased true s := by
  induction s with
  | nil => rfl
  | cons c s ih =>
    by_cases hc : c = '-'
    · simpa [hc, cased] using ih
    · simp [hc]

/-- the hyphens that no small letter follows make no difference -/
theorem cased_tidied (hs : ∀ c ∈ s, isSlugChar c = true ∨ c = '\n') (start : Bool) :
    cased start (tidied s) = cased start s := by
  induction s generalizing start with
  | nil => rfl
  | cons c s ih =>
    have hs' := fun d hd => hs d (List.mem_cons_of_mem c hd)
    unfold tidied
    split_ifs with hc
    · obtain ⟨rfl, hlow⟩ := hc
      rw [ih hs', cased, if_pos rfl, cased_start hs' hlow]
    · simp only [cased, ih hs']

/-- all other hyphens can be read off the name -/
theorem spaced_cased (hs : ∀ c ∈ s, isSlugChar c = true ∨ c = '\n') : spaced (cased false s) = tidied s ∧
    ∀ c rest, s = c :: rest → c ≠ '-' → spaced (cased true s) = (if isLower c then ['-'] else []) ++ tidied s := by
  induction s with
  | nil => exact ⟨rfl, nofun⟩
  | cons c s ih =>
    have hs' := fun d hd => hs d (List.mem_cons_of_mem c hd)
    have hchar := hs c List.mem_cons_self
    obtain ⟨hinner, hstart⟩ := ih hs'
    constructor
    · by_cases hc : c = '-'
      · subst hc
        rw [cased, if_pos rfl, tidied]
        by_cases hlow : s.head?.any isLower = false
        · rw [if_pos ⟨rfl, hlow⟩, ← hinner, ← cased_start hs' hlow]
        · rw [if_neg fun h : _ ∧ _ => hlow h.2]
          cases s with
          | nil => simp at hlow
          | cons d s =>
            have hd : isLower d = true := by simpa using hlow
            have hne : d ≠ '-' := by
              rintro rfl
              exact absurd hd (by decide)
            rw [hstart d s rfl hne, if_pos hd]
            rfl
      · rw [cased, if_neg hc, tidied_cons hc, spaced_append, hinner]
        simp [spaced_singleton hchar]
    · rintro d rest heq hd
      obtain ⟨rfl, rfl⟩ := List.cons.inj heq
      rw [cased, if_neg hd, tidied_cons hd, spaced_append, hinner, if_pos rfl]
      by_cases hlow : isLower c = true
      · simp [spaced_upper hlow, hlow]
      · rw [Bool.not_eq_true] at hlow
        simp [upper_eq hchar hlow, spaced_singleton hchar, hlow]

theorem mem_dropWhile (hs : ∀ c ∈ s, isSlugChar c = true ∨ c = '\n') :
    ∀ c ∈ s.dropWhile (· = '-'), isSlugChar c = true ∨ c = '\n' :=
  fun c hc => hs c ((List.dropWhile_sublist _).subset hc)

/-- hyphens in front are dropped to the last one -/
theorem ne_of_dropWhile {c : Char} {rest : Text} (h : s.dropWhile (· = '-') = c :: rest) : c ≠ '-' := by
  have := List.head?_dropWhile_not (· = '-') s
  simpa [h] using this

/-- **a pascal name tells the plain form of its slug** -/
theorem spaced_pascal (hs : ∀ c ∈ s, isSlugChar c = true ∨ c = '\n') :
    (spaced (pascal s)).dropWhile (· = '-') = plain s := by
  rw [pascal_eq_cased, ← cased_dropWhile, plain]
  have hs' := mem_dropWhile hs
  cases hdrop : s.dropWhile (· = '-') with
  | nil => rfl
  | cons c rest =>
    have hc := ne_of_dropWhile hdrop
    rw [hdrop] at hs'
    rw [(spaced_cased hs').2 c rest rfl hc, tidied_cons hc]
    split_ifs <;> simp [hc]

/-- and has no more of it -/
theorem pascal_plain (hs : ∀ c ∈ s, isSlugChar c = true ∨ c = '\n') : pascal (plain s) = pascal s := by
  rw [pascal_eq_cased, pascal_eq_cased, plain, cased_tidied (mem_dropWhile hs), cased_dropWhile]

/-- **slugs that are accepted have the same pascal name exactly if their plain forms are the same** -/
theorem pascal_eq_iff (hs : problem? s = none) (ht : problem? t = none) : pascal s = pascal t ↔ plain s = plain t := by
  have hs' := fun c (hc : c ∈ s) => mem_slug hs hc
  have ht' := fun c (hc : c ∈ t) => mem_slug ht hc
  constructor
  · intro h
    rw [← spaced_pascal hs', ← spaced_pascal ht', h]
  · intro h
    rw [← pascal_plain hs', ← pascal_plain ht', h]

/-! ## How a name starts -/

/-- the upper case of a slug character is a capital if that is a letter, and the digit itself if it is one -/
theorem upper_cases {c : Char} (h : isSlugChar c = true) (hc : c ≠ '-') :
    ∃ d, upper c = [d] ∧ (isCapital d = true ∨ isDigit d = true) ∧
      (isLower d = true ∨ isCapital d = true ↔ isLower c = true) := by
  have hall : ∀ n < 128, isSlugChar (Char.ofNat n) = true → Char.ofNat n ≠ '-' →
      (isCapital (Char.ofNat n).toUpper = true ∨ isDigit (Char.ofNat n).toUpper = true) ∧
        (isLower (Char.ofNat n).toUpper = true ∨ isCapital (Char.ofNat n).toUpper = true ↔
          isLower (Char.ofNat n) = true) := by decide +kernel
  have hascii := ascii_of_slugChar (Or.inl h)
  have hup := ascii_all (P := fun c => isSlugChar c = true → c ≠ '-' →
    (isCapital c.toUpper = true ∨ isDigit c.toUpper = true) ∧
      (isLower c.toUpper = true ∨ isCapital c.toUpper = true ↔ isLower c = true)) hall hascii h hc
  exact ⟨c.toUpper, by rw [upper, if_pos hascii], hup⟩

/-- the first character of a slug that is no hyphen -/
theorem IsName.exists_dropWhile (h : IsName s) :
    ∃ c rest, s.dropWhile (· = '-') = c :: rest ∧ isSlugChar c = true ∧ c ≠ '-' := by
  cases hdrop : s.dropWhile (· = '-') with
  | nil =>
    obtain ⟨c, hc, hne⟩ := h.visible
    exact absurd (by simpa using List.dropWhile_eq_nil_iff.1 hdrop c hc) hne
  | cons c rest =>
    have hmem : c ∈ s := (List.dropWhile_sublist _).subset (hdrop ▸ List.mem_cons_self)
    exact ⟨c, rest, rfl, h.chars c hmem, ne_of_dropWhile hdrop⟩

/-- **a name is of letters and digits, at least one of them, and starts with a capital or a digit; it starts with a
letter exactly if the first character of the slug that is no hyphen is one** -/
theorem pascal_starts_iff (h : IsName s) : (∀ d ∈ pascal s, isNameChar d = true) ∧
    ∃ d rest, pascal s = d :: rest ∧ (isCapital d = true ∨ isDigit d = true) ∧
      (isLower d = true ∨ isCapital d = true ↔ (s.dropWhile (· = '-')).head?.any isLower = true) := by
  obtain ⟨c, rest, hdrop, hchar, hne⟩ := h.exists_dropWhile
  obtain ⟨d, hupper, hstart, hletter⟩ := upper_cases hchar hne
  refine ⟨h.pascal_eq.2, d, cased false rest, ?_, hstart, ?_⟩
  · rw [pascal_eq_cased, ← cased_dropWhile, hdrop, cased, if_neg hne, if_pos rfl, hupper]
    rfl
  · rw [hdrop, hletter]
    rfl

/-- with hyphens in front, before a letter and before a digit -/
theorem pascal_starts_iff_hyphens :
    IsName "--date-2".toList ∧ IsName "-2-date".toList ∧
      (∃ rest, pascal "--date-2".toList = 'D' :: rest) ∧
      ¬∃ d rest, pascal "-2-date".toList = d :: rest ∧ (isLower d = true ∨ isCapital d = true) := by
  have hletter : IsName "--date-2".toList := by decide +kernel
  have hdigit : IsName "-2-date".toList := by decide +kernel
  obtain ⟨-, d, rest, hname, -, -⟩ := pascal_starts_iff hletter
  obtain ⟨-, d', rest', hname', -, hiff⟩ := pascal_starts_iff hdigit
  have hD : (pascal "--date-2".toList).head? = some 'D' := by decide +kernel
  refine ⟨hletter, hdigit, ⟨rest, ?_⟩, ?_⟩
  · rw [hname] at hD ⊢
    rw [Option.some.inj hD]
  · rintro ⟨x, more, hx, hxletter⟩
    obtain rfl : d' = x := (List.cons.inj (hname'.symm.trans hx)).1
    exact absurd (hiff.1 hxletter) (by decide +kernel)

/-- a slug that starts with a digit has a name that does -/
theorem pascal_starts_with_digit :
    IsName "3d-view".toList ∧ problem? "3d-view".toList = none ∧ pascal "3d-view".toList = "3dView".toList ∧
      ¬∃ d rest, pascal "3d-view".toList = d :: rest ∧ (isLower d = true ∨ isCapital d = true) := by
  have hname : pascal "3d-view".toList = '3' :: "dView".toList := by decide +kernel
  refine ⟨by decide +kernel, by decide +kernel, hname, ?_⟩
  rintro ⟨d, rest, hd, hletter⟩
  obtain rfl : '3' = d := (List.cons.inj (hname.symm.trans hd)).1
  exact absurd hletter (by decide)

end Name

end Componentry.Slug
