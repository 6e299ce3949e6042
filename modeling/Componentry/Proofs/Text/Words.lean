/-
The words of a text that is put together from parts.

- `words_append`: they are those of the parts, if white space or nothing is at the cut.
- `words_visible`: a text with no white space is one word.
- `join_append`: joined words, cut in two.
- `exists_mem_words`: the visible characters of a text are those of its words.
-/
import Componentry.Proofs.Text.Blank

namespace Componentry.Text

variable {c d : Char} {a b t : Text}

theorem words_blank_cons (hc : isBlank c = true) (t : Text) : words (c :: t) = words t := by
  conv_lhs => unfold words
  rw [if_pos hc]

/-- a visible character before white space is a word -/
theorem words_visible_blank (hc : isBlank c = false) (ht : t.head?.all isBlank = true) :
    words (c :: t) = [c] :: words t := by
  conv_lhs => unfold words
  rw [if_neg (by simp [hc])]
  cases t with
  | nil => rfl
  | cons d t =>
    have hd : isBlank d = true := by simpa using ht
    cases words (d :: t) with
    | nil => rfl
    | cons w ws => exact if_pos hd

theorem words_ne_nil (hc : isBlank c = false) (t : Text) : words (c :: t) ≠ [] := by
  unfold words
  rw [if_neg (by simp [hc])]
  split
  · split_ifs <;> simp
  · simp

/-- before a visible character it goes into the word of that -/
theorem words_visible_visible (hc : isBlank c = false) (hd : isBlank d = false) (t : Text) :
    ∃ w ws, words (d :: t) = w :: ws ∧ words (c :: d :: t) = (c :: w) :: ws := by
  obtain ⟨w, ws, hw⟩ := List.exists_cons_of_ne_nil (words_ne_nil hd t)
  refine ⟨w, ws, hw, ?_⟩
  conv_lhs => unfold words
  rw [if_neg (by simp [hc]), hw]
  exact if_neg (by simp [hd])

/-- the words of a text are those of its parts, if the second one starts with white space or is empty -/
theorem words_append (hb : b.head?.all isBlank = true) : words (a ++ b) = words a ++ words b := by
  induction a with
  | nil => rfl
  | cons c a ih =>
    by_cases hc : isBlank c = true
    · rw [List.cons_append, words_blank_cons hc, words_blank_cons hc, ih]
    · rw [Bool.not_eq_true] at hc
      cases a with
      | nil => rw [List.cons_append, List.nil_append, words_visible_blank hc hb, words_visible_blank hc rfl]; rfl
      | cons d a =>
        by_cases hd : isBlank d = true
        · rw [List.cons_append, words_visible_blank hc (by simpa using hd),
            words_visible_blank hc (by simpa using hd), ih]
          rfl
        · rw [Bool.not_eq_true] at hd
          obtain ⟨w, ws, h1, h2⟩ := words_visible_visible hc hd a
          obtain ⟨w', ws', h1', h2'⟩ := words_visible_visible hc hd (a ++ b)
          rw [List.cons_append, h1', h1, List.cons_append, List.cons.injEq] at ih
          rw [List.cons_append, List.cons_append, h2', h2, ih.1, ih.2, List.cons_append]

theorem words_blanks (hb : Blanks b) : words b = [] := by
  induction b with
  | nil => rfl
  | cons c b ih =>
    rw [words_blank_cons (hb c List.mem_cons_self), ih fun d hd => hb d (List.mem_cons_of_mem _ hd)]

theorem words_append_blanks (hb : Blanks b) (a : Text) : words (a ++ b) = words a := by
  have hhead : b.head?.all isBlank = true := by
    cases b with
    | nil => rfl
    | cons c b => exact hb c List.mem_cons_self
  rw [words_append hhead, words_blanks hb, List.append_nil]

/-- a text with no white space is one word -/
theorem words_visible (hne : t ≠ []) (ht : ∀ c ∈ t, isBlank c = false) : words t = [t] := by
  induction t with
  | nil => exact absurd rfl hne
  | cons c t ih =>
    have hc := ht c List.mem_cons_self
    cases t with
    | nil => rw [words_visible_blank hc rfl]; rfl
    | cons d t =>
      obtain ⟨w, ws, h1, h2⟩ := words_visible_visible hc (ht d (by simp)) t
      rw [ih (by simp) fun x hx => ht x (List.mem_cons_of_mem _ hx), List.cons.injEq] at h1
      rw [h2, ← h1.1, ← h1.2]

/-- the words behind a character depend on the words that follow, and on whether white space does -/
theorem words_cons_congr {x y : Text} (hwords : words x = words y) (hhead : x.head?.all isBlank = y.head?.all isBlank)
    (c : Char) : words (c :: x) = words (c :: y) := by
  by_cases hc : isBlank c = true
  · rw [words_blank_cons hc, words_blank_cons hc, hwords]
  · rw [Bool.not_eq_true] at hc
    by_cases hx : x.head?.all isBlank = true
    · rw [words_visible_blank hc hx, words_visible_blank hc (hhead ▸ hx), hwords]
    · cases x with
      | nil => simp at hx
      | cons d x =>
        cases y with
        | nil => simp at hhead hx; simp [hx] at hhead
        | cons d' y =>
          have hd : isBlank d = false := by simpa using hx
          have hd' : isBlank d' = false := by simpa [hd] using hhead.symm
          obtain ⟨w, ws, h1, h2⟩ := words_visible_visible hc hd x
          obtain ⟨w', ws', h1', h2'⟩ := words_visible_visible hc hd' y
          rw [h1, h1', List.cons.injEq] at hwords
          rw [h2, h2', hwords.1, hwords.2]

/-! ## Joined words -/

theorem join_cons {sep w : Text} {ws : List Text} (h : ws ≠ []) : join sep (w :: ws) = w ++ sep ++ join sep ws := by
  obtain ⟨v, vs, rfl⟩ := List.exists_cons_of_ne_nil h
  rfl

theorem join_append {sep : Text} {ws vs : List Text} (hw : ws ≠ []) (hv : vs ≠ []) :
    join sep (ws ++ vs) = join sep ws ++ sep ++ join sep vs := by
  induction ws with
  | nil => exact absurd rfl hw
  | cons w ws ih =>
    by_cases h : ws = []
    · subst h
      rw [List.singleton_append, join_cons hv]
      rfl
    · rw [List.cons_append, join_cons (by simp [h]), join_cons h, ih h]
      simp

/-! ## Characters -/

/-- the visible characters of a text are those of its words -/
theorem exists_mem_words (hc : isBlank c = false) : (∃ w ∈ words t, c ∈ w) ↔ c ∈ t := by
  induction t with
  | nil => simp [words]
  | cons d t ih =>
    by_cases hd : isBlank d = true
    · have hne : c ≠ d := by
        rintro rfl
        simp [hc] at hd
      rw [words_blank_cons hd, ih, List.mem_cons, or_iff_right hne]
    · rw [Bool.not_eq_true] at hd
      cases t with
      | nil =>
        rw [words_visible_blank hd (by simp)]
        simp [words]
      | cons x t =>
        by_cases hx : isBlank x = true
        · rw [words_visible_blank hd (by simpa using hx), List.mem_cons, ← ih]
          simp
        · obtain ⟨w, ws, h1, h2⟩ := words_visible_visible hd (by simpa using hx) t
          rw [h1] at ih
          rw [h2, List.mem_cons, ← ih]
          simp [or_assoc]

theorem mem_join_iff {sep : Text} (hc : c ∉ sep) {ws : List Text} : c ∈ join sep ws ↔ ∃ w ∈ ws, c ∈ w := by
  induction ws with
  | nil => simp [join]
  | cons w ws ih =>
    by_cases h : ws = []
    · subst h
      simp [join]
    · rw [join_cons h]
      simp [hc, ih]

end Componentry.Text
