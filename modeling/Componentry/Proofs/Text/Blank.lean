/-
What trimming takes away from a text, and what it leaves.
-/
import Mathlib.Tactic
import Mathlib.Data.List.TakeWhile
import Componentry.Text.Blank

namespace Componentry.Text

/-- a text of white space -/
def Blanks (t : Text) : Prop := ∀ c ∈ t, isBlank c = true

theorem blanks_nil : Blanks [] := by simp [Blanks]

theorem blanks_append {a b : Text} : Blanks (a ++ b) ↔ Blanks a ∧ Blanks b := List.forall_mem_append

/-- a text that is empty or ends in something visible -/
def Filled (t : Text) : Prop := ∀ c, t.getLast? = some c → isBlank c = false

/-! ## Trimming at the end -/

theorem trimEnd_append_blanks {t b : Text} (hb : Blanks b) : trimEnd (t ++ b) = trimEnd t := by
  unfold trimEnd
  rw [List.reverse_append, List.dropWhile_append_of_pos (by simpa [Blanks] using hb)]

theorem trimEnd_of_filled {t : Text} (ht : Filled t) : trimEnd t = t := by
  unfold trimEnd
  rcases List.eq_nil_or_concat t with rfl | ⟨t, c, rfl⟩
  · rfl
  · have hc := ht c (by simp)
    simp [hc]

theorem trimEnd_filled_append {t b : Text} (ht : Filled t) (hb : Blanks b) : trimEnd (t ++ b) = t := by
  rw [trimEnd_append_blanks hb, trimEnd_of_filled ht]

/-- a text is its trimmed part with white space behind it -/
theorem exists_trimEnd (t : Text) : ∃ b, t = trimEnd t ++ b ∧ Blanks b ∧ Filled (trimEnd t) := by
  refine ⟨(t.reverse.takeWhile isBlank).reverse, ?_, ?_, ?_⟩
  · unfold trimEnd
    rw [← List.reverse_append, List.takeWhile_append_dropWhile, List.reverse_reverse]
  · intro c hc
    exact List.mem_takeWhile_imp (List.mem_reverse.1 hc)
  · intro c hc
    unfold trimEnd at hc
    rw [List.getLast?_reverse] at hc
    have := List.head?_dropWhile_not isBlank t.reverse
    rw [hc] at this
    simpa using this

/-- a text that ends in what can be seen does not end in a blank, also behind a text that does not -/
theorem getLast?_append_ne {a b : Text} {c : Char} (ha : a.getLast? ≠ some c) (hb : Filled b) (hc : isBlank c = true) :
    (a ++ b).getLast? ≠ some c := by
  rw [List.getLast?_append]
  cases hlast : b.getLast? with
  | none => simpa using ha
  | some d =>
    rintro heq
    obtain rfl := Option.some.inj heq
    exact absurd (hb _ hlast) (by simp [hc])

theorem trimEnd_eq_nil_iff {t : Text} : trimEnd t = [] ↔ Blanks t := by
  constructor
  · intro h
    obtain ⟨b, ht, hb, -⟩ := exists_trimEnd t
    rw [h, List.nil_append] at ht
    exact ht ▸ hb
  · intro h
    simpa [trimEnd] using trimEnd_append_blanks (t := []) h

/-! ## Trimming on both sides -/

theorem trimStart_blanks_append {b t : Text} (hb : Blanks b) : trimStart (b ++ t) = trimStart t := by
  unfold trimStart
  rw [List.dropWhile_append_of_pos hb]

theorem trimStart_cons {c : Char} {t : Text} (hc : isBlank c = false) : trimStart (c :: t) = c :: t := by
  simp [trimStart, hc]

theorem trim_of_visible {t : Text} (hhead : ∀ c, t.head? = some c → isBlank c = false) (hlast : Filled t) :
    trim t = t := by
  unfold trim
  cases t with
  | nil => rfl
  | cons c t => rw [trimStart_cons (hhead c rfl), trimEnd_of_filled hlast]

theorem trimStart_eq_nil_iff {t : Text} : trimStart t = [] ↔ Blanks t := List.dropWhile_eq_nil_iff

theorem trim_append_blanks {t b : Text} (hb : Blanks b) : trim (t ++ b) = trim t := by
  unfold trim
  by_cases ht : Blanks t
  · rw [trimStart_eq_nil_iff.2 (blanks_append.2 ⟨ht, hb⟩), trimStart_eq_nil_iff.2 ht]
  · have hstart : trimStart (t ++ b) = trimStart t ++ b := by
      have hne : ¬(t.dropWhile isBlank).isEmpty = true := by
        rw [List.isEmpty_iff]
        exact fun h => ht (trimStart_eq_nil_iff.1 h)
      unfold trimStart
      rw [List.dropWhile_append, if_neg hne]
    rw [hstart, trimEnd_append_blanks hb]

theorem trim_blanks_append {b t : Text} (hb : Blanks b) : trim (b ++ t) = trim t := by
  unfold trim
  rw [trimStart_blanks_append hb]

theorem trim_blanks {b : Text} (hb : Blanks b) : trim b = [] := by
  simpa [trim, trimStart, trimEnd] using trim_append_blanks (t := []) hb

/-- trimming makes no text blank, and no blank text visible -/
theorem blanks_trim {t : Text} : Blanks (trim t) ↔ Blanks t := by
  constructor
  · intro h
    obtain ⟨b, hstart, hb, -⟩ := exists_trimEnd (trimStart t)
    have hblanks : Blanks (trimStart t) := hstart ▸ blanks_append.2 ⟨h, hb⟩
    have hlead : Blanks (t.takeWhile isBlank) := fun c hc => List.mem_takeWhile_imp hc
    rw [← List.takeWhile_append_dropWhile (p := isBlank) (l := t)]
    exact blanks_append.2 ⟨hlead, hblanks⟩
  · intro h
    rw [trim_blanks h]
    exact blanks_nil

theorem filled_trim (t : Text) : Filled (trim t) := by
  obtain ⟨b, -, -, h⟩ := exists_trimEnd (trimStart t)
  exact h

end Componentry.Text
