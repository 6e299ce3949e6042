/-
When a fragment counts as present in a text.

- `tokens`: the words of a text whose quotes and separators are evened out; a line ending does not matter to them
  (`tokens_withNewline`), and they are those of its parts (`tokens_append`).
- `infix_append_cons_iff`: a needle that has a sign at its start alone does not straddle what starts with that sign.
- `isPresent_append`: so a fragment is present in a text with another fragment behind it exactly if it is present before,
  or is the start of that one.
-/
import Componentry.Proofs.Text.Words
import Componentry.Proofs.Text.Newlines
import Componentry.Splice.Basic

namespace Componentry.Splice

open Text

/-- a character with quotes and separators evened out -/
def evenChar (c : Char) : Char := if c = '"' then '\'' else if c = ',' ∨ c = ';' then ' ' else c

/-- the words of a text with its quotes and separators evened out -/
def tokens (t : Text) : List Text := words (t.map evenChar)

theorem evened_eq (t : Text) : evened t = join [' '] (tokens t) := rfl

/-- white space or a separator -/
def isGap (c : Char) : Bool := isBlank (evenChar c)

variable {a b t w : Text}

/-- a text that is cut before white space or a separator -/
theorem tokens_append (hb : b.head?.all isGap = true) : tokens (a ++ b) = tokens a ++ tokens b := by
  have hhead : (b.map evenChar).head?.all isBlank = true := by
    cases b with
    | nil => rfl
    | cons c b => exact hb
  rw [tokens, List.map_append, words_append hhead, tokens, tokens]

theorem tokens_append_gaps (hb : ∀ c ∈ b, isGap c = true) : tokens (a ++ b) = tokens a := by
  have hblanks : Blanks (b.map evenChar) := by
    intro c hc
    obtain ⟨d, hd, rfl⟩ := List.mem_map.1 hc
    exact hb d hd
  rw [tokens, List.map_append, words_append_blanks hblanks, tokens]

theorem tokens_gap_cons {c : Char} (hc : isGap c = true) (t : Text) : tokens (c :: t) = tokens t := by
  rw [tokens, List.map_cons, words_blank_cons hc, tokens]

theorem isGap_of_isBlank {c : Char} (h : isBlank c = true) : isGap c = true := by
  have hsign : ∀ y, isBlank y = false → c ≠ y := by
    rintro y hy rfl
    simp [h] at hy
  rw [isGap, evenChar, if_neg (hsign '"' (by decide)),
    if_neg (not_or.2 ⟨hsign ',' (by decide), hsign ';' (by decide)⟩), h]

/-- a word in which there is nothing to even out -/
structure IsPlain (w : Text) : Prop where
  ne_nil : w ≠ []
  chars : ∀ c ∈ w, isBlank c = false ∧ evenChar c = c

/-- such a word behind white space is one token -/
theorem IsPlain.tokens (hw : IsPlain w) : tokens (' ' :: w) = [w] := by
  have hmap : w.map evenChar = w := by
    conv_rhs => rw [← List.map_id w]
    exact List.map_congr_left fun c hc => (hw.chars c hc).2
  rw [Splice.tokens, List.map_cons, hmap, words_blank_cons (by decide),
    words_visible hw.ne_nil fun c hc => (hw.chars c hc).1]

/-- the line ending does not matter -/
theorem tokens_withNewline (newline : Newline) (t : Text) : tokens (withNewline newline t) = tokens t := by
  have hfeed : ∀ x : Text, words ((newline.text ++ x).map evenChar) = words (x.map evenChar) ∧
      ((newline.text ++ x).map evenChar).head?.all isBlank = true := by
    intro x
    cases newline with
    | lf => exact ⟨words_blank_cons (by decide) _, rfl⟩
    | crlf => exact ⟨(words_blank_cons (by decide) _).trans (words_blank_cons (by decide) _), rfl⟩
  have hall : words ((withNewline newline t).map evenChar) = words (t.map evenChar) ∧
      ((withNewline newline t).map evenChar).head?.all isBlank = (t.map evenChar).head?.all isBlank := by
    induction t using foldNewlines.induct with
    | case1 => exact ⟨rfl, rfl⟩
    | case2 rest ih =>
      rw [withNewline_return_feed, (hfeed _).1, (hfeed _).2, ih.1]
      exact ⟨((words_blank_cons (by decide) _).trans (words_blank_cons (by decide) _)).symm, rfl⟩
    | case3 c rest hne ih =>
      by_cases hc : c = '\n'
      · subst hc
        rw [withNewline_feed, (hfeed _).1, (hfeed _).2, ih.1]
        exact ⟨(words_blank_cons (by decide) _).symm, rfl⟩
      · have hstart : c = '\r' → rest.head? ≠ some '\n' := fun hc hhead => by
          obtain ⟨r, rfl⟩ := List.head?_eq_some_iff.1 hhead
          exact hne r hc rfl
        rw [withNewline_cons hc hstart, List.map_cons, List.map_cons]
        exact ⟨words_cons_congr ih.1 ih.2 _, rfl⟩
  exact hall.1

/-! ## Needles -/

/-- a needle that has a sign at its start alone, and no white space at its end, stands in a joined text before the sign
or at it -/
theorem infix_append_cons_iff {x : Char} {r h r' : Text} (hr : x ∉ r) (hlast : (x :: r).getLast? ≠ some ' ')
    (hr' : x ∉ r') (hx : x ≠ ' ') : x :: r <:+: h ++ ' ' :: x :: r' ↔ x :: r <:+: h ∨ r <+: r' := by
  constructor
  · intro hin
    rcases infix_append_cons_cases hin with hin | hin | ⟨w1, w2, hw, -, hw2⟩
    · exact Or.inl hin
    · rcases List.infix_cons_iff.1 hin with hin | hin
      · exact Or.inr (List.cons_prefix_cons.1 hin).2
      · exact absurd (hin.subset List.mem_cons_self) hr'
    · -- the needle has the space in it, and its sign is not seen again, so it ends there
      cases w1 with
      | nil => exact absurd (List.cons.inj hw).1 hx
      | cons y w1 =>
        obtain ⟨rfl, rfl⟩ := List.cons.inj hw
        cases w2 with
        | nil => exact absurd (by rw [hw, List.getLast?_concat]) hlast
        | cons y' w2 =>
          obtain ⟨rfl, -⟩ := List.cons_prefix_cons.1 hw2
          exact absurd (by simp) hr
  · rintro (⟨s, q, rfl⟩ | ⟨q, rfl⟩)
    · exact ⟨s, q ++ ' ' :: x :: r', by simp⟩
    · exact ⟨h ++ [' '], q, by simp⟩

/-! ## Presence -/

theorem evened_append (hb : b.head?.all isGap = true) (ha : tokens a ≠ []) (hne : tokens b ≠ []) :
    evened (a ++ b) = evened a ++ ' ' :: evened b := by
  rw [evened_eq, tokens_append hb, join_append ha hne, evened_eq, evened_eq, List.append_assoc, List.singleton_append]

theorem isPresent_iff {fragment content : Text} :
    isPresent fragment content = true ↔ evened fragment ≠ [] ∧ evened fragment <:+: evened content := by
  rw [isPresent, Bool.and_eq_true, Bool.not_eq_true', List.isEmpty_eq_false_iff, holds_iff]
  simp only [List.IsInfix, eq_comm]

/-- a visible character that nothing is evened out to stays -/
theorem mem_evened {c : Char} (hc : isBlank c = false) (heven : ∀ d, evenChar d = c ↔ d = c) : c ∈ evened t ↔ c ∈ t := by
  have hspace : c ∉ [' '] := by
    rintro hm
    rw [List.mem_singleton.1 hm] at hc
    exact absurd hc (by decide)
  rw [evened_eq, mem_join_iff hspace, tokens, exists_mem_words hc, List.mem_map]
  simp [heven]

/-- what is present brings no such character that is not there -/
theorem mem_of_isPresent {c : Char} {fragment content : Text} (h : isPresent fragment content = true)
    (hc : isBlank c = false) (heven : ∀ d, evenChar d = c ↔ d = c) (hm : c ∈ fragment) : c ∈ content := by
  obtain ⟨-, hin⟩ := isPresent_iff.1 h
  exact (mem_evened hc heven).1 (hin.subset ((mem_evened hc heven).2 hm))

/-- presence is a matter of words -/
theorem isPresent_congr (h : tokens a = tokens b) (fragment : Text) : isPresent fragment a = isPresent fragment b := by
  rw [isPresent, isPresent, evened_eq a, evened_eq b, h]

/-- **a fragment is present with another one behind exactly if it is present before, or is the start of that one** -/
theorem isPresent_append {x : Char} {r r' fragment content child : Text} (hfragment : evened fragment = x :: r)
    (hchild : evened child = x :: r') (hr : x ∉ r) (hlast : (x :: r).getLast? ≠ some ' ') (hr' : x ∉ r') (hx : x ≠ ' ')
    (hcut : child.head?.all isGap = true) :
    isPresent fragment (content ++ child) = true ↔ isPresent fragment content = true ∨ r <+: r' := by
  have hne : tokens child ≠ [] := by
    intro hnil
    simp [evened_eq, hnil, join] at hchild
  rw [isPresent_iff, isPresent_iff, hfragment]
  simp only [ne_eq, List.cons_ne_nil, not_false_eq_true, true_and]
  by_cases hcontent : tokens content = []
  · have hevened : evened content = [] := by rw [evened_eq, hcontent]; rfl
    rw [evened_eq, tokens_append hcut, hcontent, List.nil_append, ← evened_eq, hchild, hevened,
      List.infix_nil, List.infix_cons_iff, List.cons_prefix_cons]
    simp only [true_and, List.cons_ne_nil, false_or, or_iff_left_iff_imp]
    exact fun h => absurd (h.subset List.mem_cons_self) hr'
  · rw [evened_append hcut hcontent hne, hchild, infix_append_cons_iff hr hlast hr' hx]

end Componentry.Splice
