/-
What words a text shows.

No number is written with spaces in it, and a date has a hyphen before its first space. So a plain scalar that begins
with a word and a space is a text.
- `space_notMem_of_isWhole`, `space_notMem_of_isDecimal`: the forms of numbers.
- `not_isSpelling_of_word`: dates and times.

Main result: `ofPlain_of_word`.
-/
import Componentry.Proofs.Yaml.Entries
import Componentry.Proofs.Yaml.Spelling

namespace Componentry.Yaml.Tag

variable {t : Text}

theorem notMem_of_isSpaced {digit : Char → Bool} {c : Char} (hdigit : digit c = false) (hc : c ≠ '_')
    (h : isSpaced digit t = true) : c ∉ t := by
  intro hmem
  have := List.all_eq_true.1 h c hmem
  simp [hdigit, hc] at this

/-! ## Numbers -/

/-- parts of sixtieths are digits alone -/
theorem space_notMem_of_parts {first : Text} {parts : List Text} (hsplit : Text.splitAt ':' t = first :: parts)
    (hfirst : isDigits first = true) (hparts : parts.all isSixtieth = true) : ' ' ∉ t := by
  intro hmem
  obtain ⟨piece, hpiece, hspace⟩ := Text.exists_mem_splitAt hmem (show ' ' ≠ ':' by decide)
  have hdigits : isDigits piece = true := by
    rw [hsplit] at hpiece
    rcases List.mem_cons.1 hpiece with rfl | hpiece
    · exact hfirst
    · exact Scalar.isDigits_of_isSixtieth (List.all_eq_true.1 hparts piece hpiece)
  unfold isDigits at hdigits
  exact notMem_of_isSpaced (by decide) (by decide) (Bool.and_eq_true_iff.1 hdigits).2 hspace

theorem space_notMem_of_unsigned (h : ' ' ∉ unsigned t) : ' ' ∉ t := by
  unfold unsigned Digits.signed at h
  split at h <;> simpa using h

/-- a whole number has no spaces -/
theorem space_notMem_of_isWhole (h : isWhole t = true) : ' ' ∉ t := by
  refine space_notMem_of_unsigned ?_
  unfold isWhole at h
  split at h
  · rename_i rest heq
    rw [heq]
    simp only [Bool.and_eq_true, List.all_eq_true] at h
    intro hmem
    have := h.2 ' ' (by simpa using hmem)
    simp at this
  · rename_i rest heq
    rw [heq]
    have := notMem_of_isSpaced (c := ' ') (by decide) (by decide) (Bool.and_eq_true_iff.1 h).2
    simpa using this
  · rename_i rest _ _ heq
    rw [heq]
    have := notMem_of_isSpaced (c := ' ') (by decide) (by decide) h
    simpa using this
  · split at h
    · rename_i hsplit
      simp only [Bool.and_eq_true] at h
      exact space_notMem_of_parts hsplit h.1.2 h.2
    · simp at h

theorem space_notMem_of_isFraction (h : isFraction t = true) : ' ' ∉ t := by
  have hsplit : (t.takeWhile fun c => Text.isDigit c || c = '_') ++ (t.dropWhile fun c => Text.isDigit c || c = '_') = t :=
    List.takeWhile_append_dropWhile
  intro hmem
  rw [← hsplit, List.mem_append] at hmem
  rcases hmem with hmem | hmem
  · exact absurd (List.mem_takeWhile_imp hmem) (by decide)
  · unfold isFraction at h
    generalize (t.dropWhile fun c => Text.isDigit c || c = '_') = rest at h hmem
    unfold isExponent at h
    split at h
    · simp at hmem
    · rename_i e sign digits
      simp only [Bool.and_eq_true, Bool.or_eq_true, decide_eq_true_eq] at h
      obtain ⟨⟨⟨he, hsign⟩, -⟩, hdigits⟩ := h
      simp only [List.mem_cons] at hmem
      rcases hmem with rfl | rfl | hmem
      · simp at he
      · simp at hsign
      · exact absurd (List.all_eq_true.1 hdigits _ hmem) (by decide)
    · simp at h

theorem space_notMem_of_isPointed (h : isPointed t = true) : ' ' ∉ t := by
  have hsplit : (t.takeWhile (· ≠ '.')) ++ (t.dropWhile (· ≠ '.')) = t := List.takeWhile_append_dropWhile
  intro hmem
  rw [← hsplit, List.mem_append] at hmem
  unfold isPointed at h
  split at h
  · rename_i after hafter
    rw [hafter] at hmem
    have hpoint : ' ' ∈ t.takeWhile (· ≠ '.') ∨ ' ' ∈ after := by simpa using hmem
    split at h
    · simp at h
    · rename_i first hparts
      obtain ⟨hfirst, hfraction⟩ := Bool.and_eq_true_iff.1 h
      rcases hpoint with hpoint | hpoint
      · exact space_notMem_of_parts hparts hfirst rfl hpoint
      · exact space_notMem_of_isFraction hfraction hpoint
    · rename_i first parts _ hparts
      simp only [Bool.and_eq_true] at h
      rcases hpoint with hpoint | hpoint
      · exact space_notMem_of_parts hparts h.1.1 h.1.2 hpoint
      · exact notMem_of_isSpaced (by decide) (by decide) h.2 hpoint
  · simp at h

theorem notMem_of_isWord {words : List String} {c : Char} (hwords : ∀ w ∈ words, c ∉ w.toList)
    (h : isWord words t = true) : c ∉ t := by
  obtain ⟨w, hw, heq⟩ := List.any_eq_true.1 h
  rw [← of_decide_eq_true heq]
  exact hwords w hw

/-- a decimal has no spaces -/
theorem space_notMem_of_isDecimal (h : isDecimal t = true) : ' ' ∉ t := by
  unfold isDecimal at h
  simp only [Bool.or_eq_true] at h
  rcases h with ((h | h) | h) | h
  · exact space_notMem_of_unsigned (space_notMem_of_isPointed h)
  · exact space_notMem_of_unsigned (notMem_of_isWord (by decide) h)
  · exact notMem_of_isWord (by decide) h
  · split at h
    · rename_i c rest
      obtain ⟨hc, hrest⟩ := Bool.and_eq_true_iff.1 h
      have hne : c ≠ ' ' := by
        rintro rfl
        exact absurd hc (by decide)
      simp [hne.symm, space_notMem_of_isFraction hrest]
    · simp at h

/-! ## Texts -/

/-- a word and a space do not begin a date: where its first hyphen would be, the word goes on, or the space is there -/
theorem not_isSpelling_of_word {word rest : Text} (hword : ∀ c ∈ word, Slug.isNameChar c = true) :
    Timestamp.isSpelling (word ++ ' ' :: rest) = false := by
  have hhyphen : ∀ n, Timestamp.after? '-' 1 2 (word.drop n ++ ' ' :: rest) = none := by
    intro n
    unfold Timestamp.after?
    cases hdrop : word.drop n with
    | nil => rfl
    | cons c more =>
      have hc := hword c ((List.drop_suffix n word).subset (hdrop ▸ List.mem_cons_self))
      simp [ne_of_isNameChar hc (d := '-') (by decide)]
  have hdigits : ((word ++ ' ' :: rest).takeWhile Text.isDigit).length ≤ word.length := by
    rw [List.takeWhile_append]
    split_ifs
    · simp [show Text.isDigit ' ' = false by decide]
    · exact (List.takeWhile_prefix _).length_le
  have hread : Timestamp.read? (word ++ ' ' :: rest) = none := by
    unfold Timestamp.read? Timestamp.number?
    simp only
    generalize hd : ((word ++ ' ' :: rest).takeWhile Text.isDigit).take 4 = d
    have hlength : d.length ≤ word.length := by
      rw [← hd]
      exact (List.take_prefix _ _).length_le.trans hdigits
    by_cases hfour : 4 ≤ d.length
    · simp only [if_pos hfour, List.drop_append_of_le_length hlength, hhyphen]
    · simp only [if_neg hfour]
  unfold Timestamp.isSpelling
  rw [hread]

/-- a spelling that begins with a word and a space shows a text -/
theorem ofPlain_of_word {word rest : Text} (hword : ∀ c ∈ word, Slug.isNameChar c = true)
    (hlast : (word ++ ' ' :: rest).getLast? ≠ some '\n') :
    ofPlain Timestamp.isSpelling (word ++ ' ' :: rest) = .text := by
  have hspace : ' ' ∈ word ++ ' ' :: rest := by simp
  have htime : Timestamp.isSpelling (word ++ ' ' :: rest) = false := not_isSpelling_of_word hword
  rw [Scalar.ofPlain_eq hlast]
  generalize word ++ ' ' :: rest = t at hspace htime
  unfold ofSpelling
  have hwords : ∀ {words : List String}, (∀ w ∈ words, ' ' ∉ w.toList) → isWord words t = false := fun h =>
    Bool.eq_false_iff.2 fun hword => notMem_of_isWord h hword hspace
  have hdecimal : isDecimal t = false := Bool.eq_false_iff.2 fun h => space_notMem_of_isDecimal h hspace
  have hwhole : isWhole t = false := Bool.eq_false_iff.2 fun h => space_notMem_of_isWhole h hspace
  have hmerge : t ≠ "<<".toList := by
    rintro rfl
    simp at hspace
  have hvalue : t ≠ ['='] := by
    rintro rfl
    simp at hspace
  rw [hwords (by decide), hdecimal, hwhole, if_neg hmerge, hwords (by decide), htime, if_neg hvalue, hwords (by decide)]
  simp

end Componentry.Yaml.Tag
