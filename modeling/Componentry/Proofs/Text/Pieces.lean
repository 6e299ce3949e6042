/-
How a text comes apart: at the first character of a kind, around a character, at the first occurrence of a piece, and
between separators.
-/
import Mathlib.Tactic
import Componentry.Proofs.Text.Blank
import Componentry.Text.Lines

namespace Componentry.Text

/-! ## Cuts -/

/-- where a text is cut at the first character of a kind -/
theorem append_cons_unique {P : Char → Prop} {a a' b b' : Text} {x x' : Char} (ha : ∀ c ∈ a, ¬P c) (hx : P x)
    (ha' : ∀ c ∈ a', ¬P c) (hx' : P x') (h : a ++ x :: b = a' ++ x' :: b') : a = a' ∧ x = x' ∧ b = b' := by
  induction a generalizing a' with
  | nil =>
    cases a' with
    | nil => exact ⟨rfl, List.cons.inj h⟩
    | cons d a' =>
      obtain rfl : x = d := (List.cons.inj h).1
      exact absurd hx (ha' _ List.mem_cons_self)
  | cons c a ih =>
    cases a' with
    | nil =>
      obtain rfl : c = x' := (List.cons.inj h).1
      exact absurd hx' (ha _ List.mem_cons_self)
    | cons d a' =>
      obtain ⟨rfl, htail⟩ := List.cons.inj h
      obtain ⟨rfl, hrest⟩ := ih (fun y hy => ha y (List.mem_cons_of_mem _ hy))
        (fun y hy => ha' y (List.mem_cons_of_mem _ hy)) htail
      exact ⟨rfl, hrest⟩

/-- where a text is cut at the first occurrence of a character -/
theorem append_cons_unique_of_notMem {a a' b b' : Text} {x : Char} (ha : x ∉ a) (ha' : x ∉ a')
    (h : a ++ x :: b = a' ++ x :: b') : a = a' ∧ b = b' := by
  obtain ⟨h1, -, h2⟩ := append_cons_unique (P := (· = x)) (fun c hc e => ha (e ▸ hc)) rfl
    (fun c hc e => ha' (e ▸ hc)) rfl h
  exact ⟨h1, h2⟩

/-- a part without a character ends before it -/
theorem cut_before {z m b c : Text} {x : Char} (h : z ++ m = b ++ x :: c) (hz : x ∉ z) :
    ∃ b', b = z ++ b' ∧ m = b' ++ x :: c := by
  rcases List.append_eq_append_iff.1 h with ⟨r, hr, hm⟩ | ⟨r, rfl, hr⟩
  · exact ⟨r, hr, hm⟩
  · cases r with
    | nil => exact ⟨[], by simp, by simpa using hr.symm⟩
    | cons d r =>
      obtain ⟨rfl, -⟩ := List.cons.inj hr
      exact absurd (by simp) hz

/-- a character that is in neither outer part is in the middle -/
theorem cut_between {p q a b c : Text} {x : Char} (h : p ++ x :: q = a ++ b ++ c) (ha : x ∉ a) (hc : x ∉ c) :
    ∃ b1 b2, b = b1 ++ x :: b2 ∧ p = a ++ b1 ∧ q = b2 ++ c := by
  rw [List.append_assoc] at h
  obtain ⟨p', rfl, hp⟩ := cut_before h.symm ha
  rcases List.append_eq_append_iff.1 hp with ⟨r, -, hr⟩ | ⟨r, rfl, hr⟩
  · exact absurd (by simp [hr]) hc
  · cases r with
    | nil => exact absurd (show x ∈ [] ++ c from hr ▸ List.mem_cons_self) hc
    | cons d r =>
      obtain ⟨rfl, hq⟩ := List.cons.inj hr
      exact ⟨p', r, rfl, rfl, hq⟩

/-- a part of a text stands before a character, behind it, or has it at that place -/
theorem infix_append_cons_cases {w a b : Text} {x : Char} (h : w <:+: a ++ x :: b) :
    w <:+: a ∨ w <:+: b ∨ ∃ w1 w2, w = w1 ++ x :: w2 ∧ w1 <:+ a ∧ w2 <+: b := by
  obtain ⟨s, r, h⟩ := h
  rcases List.append_eq_append_iff.1 h with ⟨e, rfl, -⟩ | ⟨e, hsw, hrest⟩
  · exact Or.inl ⟨s, e, rfl⟩
  · cases e with
    | nil => exact Or.inl ⟨s, [], by simpa using hsw⟩
    | cons d e =>
      obtain ⟨rfl, rfl⟩ := List.cons.inj hrest
      rcases List.append_eq_append_iff.1 hsw with ⟨f, rfl, rfl⟩ | ⟨f, -, hf⟩
      · exact Or.inr (Or.inr ⟨f, e, rfl, ⟨s, rfl⟩, ⟨r, rfl⟩⟩)
      · cases f with
        | nil => exact Or.inr (Or.inr ⟨[], e, by simpa using hf.symm, List.nil_suffix, ⟨r, rfl⟩⟩)
        | cons d f =>
          obtain ⟨rfl, rfl⟩ := List.cons.inj hf
          exact Or.inr (Or.inl ⟨f, r, by simp⟩)

/-- a part without a character stands before or behind it -/
theorem infix_of_append_cons {w a b : Text} {x : Char} (h : w <:+: a ++ x :: b) (hw : x ∉ w) : w <:+: a ∨ w <:+: b := by
  rcases infix_append_cons_cases h with h | h | ⟨w1, w2, rfl, -⟩
  · exact Or.inl h
  · exact Or.inr h
  · exact absurd (by simp) hw

/-- a part with a character in front alone stands before that character or from it on -/
theorem infix_of_append_sign {w a b : Text} {x : Char} (h : x :: w <:+: a ++ x :: b) (hw : x ∉ w) :
    x :: w <:+: a ∨ x :: w <:+: x :: b := by
  rcases infix_append_cons_cases h with h | h | ⟨w1, w2, hcut, -, h⟩
  · exact Or.inl h
  · exact Or.inr (List.infix_cons h)
  · cases w1 with
    | nil =>
      obtain ⟨-, rfl⟩ := List.cons.inj hcut
      exact Or.inr (List.cons_prefix_cons.2 ⟨rfl, h⟩).isInfix
    | cons d w1 => exact absurd (by rw [(List.cons.inj hcut).2]; simp) hw

/-- a part stands behind what its first character is not in -/
theorem infix_of_append_left {w a b : Text} {x : Char} (h : x :: w <:+: a ++ b) (ha : x ∉ a) : x :: w <:+: b := by
  induction a with
  | nil => exact h
  | cons d a ih =>
    rw [List.mem_cons, not_or] at ha
    rcases List.infix_cons_iff.1 h with h | h
    · exact absurd (List.cons_prefix_cons.1 h).1 ha.1
    · exact ih h ha.2

/-- a part stands before what its last character is not in -/
theorem infix_of_append_right {w a b : Text} {x : Char} (h : w ++ [x] <:+: a ++ b) (hb : x ∉ b) : w ++ [x] <:+: a := by
  rw [← List.reverse_infix] at h ⊢
  rw [List.reverse_append, List.reverse_append] at h
  rw [List.reverse_append]
  exact infix_of_append_left h (by simpa using hb)

/-- what ends a text ends its last part, if that is not empty -/
theorem any_getLast?_of_append {p : Char → Bool} {a b : Text} (h : (a ++ b).getLast?.any p = false) :
    b.getLast?.any p = false := by
  rw [List.getLast?_append] at h
  cases hl : b.getLast? with
  | none => rfl
  | some c => simpa [hl] using h

/-! ## Finding -/

theorem indexOf?_singleton {c : Char} {t : Text} {n : Nat} :
    indexOf? [c] t = some n ↔ ∃ a b, t = a ++ c :: b ∧ c ∉ a ∧ n = a.length := by
  induction t generalizing n with
  | nil => simp [indexOf?]
  | cons d t ih =>
    by_cases hd : c = d
    · subst hd
      have hzero : indexOf? [c] (c :: t) = some 0 := by simp [indexOf?]
      rw [hzero]
      constructor
      · rintro h
        exact ⟨[], t, rfl, by simp, by simpa using h.symm⟩
      · rintro ⟨a, b, h, ha, rfl⟩
        cases a with
        | nil => rfl
        | cons x a =>
          obtain ⟨rfl, -⟩ := List.cons.inj h
          exact absurd List.mem_cons_self ha
    · have hstep : indexOf? [c] (d :: t) = (indexOf? [c] t).map (· + 1) := by simp [indexOf?, hd]
      rw [hstep, Option.map_eq_some_iff]
      constructor
      · rintro ⟨m, hm, rfl⟩
        obtain ⟨a, b, rfl, ha, rfl⟩ := ih.1 hm
        exact ⟨d :: a, b, rfl, by simp [hd, ha], rfl⟩
      · rintro ⟨a, b, h, ha, rfl⟩
        cases a with
        | nil => exact absurd (List.cons.inj h).1.symm hd
        | cons x a =>
          obtain ⟨rfl, rfl⟩ := List.cons.inj h
          exact ⟨a.length, ih.2 ⟨a, b, rfl, fun hm => ha (List.mem_cons_of_mem _ hm), rfl⟩, rfl⟩

/-- where a character is found from a position on -/
theorem indexFrom?_singleton {c : Char} {x t : Text} {n : Nat} :
    indexFrom? [c] (x ++ t) x.length = some n ↔ ∃ a b, t = a ++ c :: b ∧ c ∉ a ∧ n = x.length + a.length := by
  unfold indexFrom?
  rw [List.drop_left, Option.map_eq_some_iff]
  constructor
  · rintro ⟨m, hm, rfl⟩
    obtain ⟨a, b, ht, ha, rfl⟩ := indexOf?_singleton.1 hm
    exact ⟨a, b, ht, ha, Nat.add_comm _ _⟩
  · rintro ⟨a, b, ht, ha, rfl⟩
    exact ⟨a.length, indexOf?_singleton.2 ⟨a, b, ht, ha, rfl⟩, Nat.add_comm _ _⟩

/-- a piece occurs in a text -/
theorem holds_iff {piece t : Text} : holds piece t = true ↔ ∃ a b, t = a ++ piece ++ b := by
  unfold holds
  induction t with
  | nil =>
    simp only [indexOf?]
    split_ifs with h
    · simp [h]
    · simp only [Option.isSome_none, Bool.false_eq_true, false_iff]
      rintro ⟨a, b, hab⟩
      simp only [List.append_assoc] at hab
      obtain ⟨-, hab⟩ := List.append_eq_nil_iff.1 hab.symm
      exact h (List.append_eq_nil_iff.1 hab).1
  | cons c t ih =>
    simp only [indexOf?]
    split_ifs with h
    · obtain ⟨b, hb⟩ := List.isPrefixOf_iff_prefix.1 h
      simpa using ⟨[], b, by simpa using hb.symm⟩
    · rw [Option.isSome_map, ih]
      constructor
      · rintro ⟨a, b, rfl⟩
        exact ⟨c :: a, b, rfl⟩
      · rintro ⟨a, b, hab⟩
        cases a with
        | nil => exact absurd (List.isPrefixOf_iff_prefix.2 ⟨b, by simpa using hab.symm⟩) h
        | cons d a =>
          obtain ⟨rfl, rfl⟩ := List.cons.inj hab
          exact ⟨a, b, rfl⟩

/-! ## Line endings -/

/-- a CRLF occurs in a text -/
def HasCrlf (t : Text) : Prop := ∃ a b, t = a ++ '\r' :: '\n' :: b

theorem ofContent_eq_crlf_iff {t : Text} : Newline.ofContent t = .crlf ↔ HasCrlf t := by
  have hiff : holds ['\r', '\n'] t = true ↔ HasCrlf t := by
    rw [holds_iff]
    simp [HasCrlf]
  unfold Newline.ofContent
  split_ifs with h <;> simp [← hiff, h]

/-- a CRLF that is not cut in two is in one of the parts -/
theorem hasCrlf_append {a b : Text} (h : a.getLast? ≠ some '\r' ∨ b.head? ≠ some '\n') :
    HasCrlf (a ++ b) ↔ HasCrlf a ∨ HasCrlf b := by
  constructor
  · rintro ⟨x, y, hxy⟩
    rcases List.append_eq_append_iff.1 hxy with ⟨d, rfl, hd⟩ | ⟨d, rfl, hd⟩
    · exact Or.inr ⟨d, y, hd⟩
    · match d, hd with
      | [], hd => exact Or.inr ⟨[], y, hd.symm⟩
      | [c], hd =>
        obtain ⟨rfl, rfl⟩ := List.cons.inj hd
        simp at h
      | c :: c' :: d, hd =>
        simp only [List.cons_append, List.cons.injEq] at hd
        obtain ⟨rfl, rfl, -⟩ := hd
        exact Or.inl ⟨x, d, rfl⟩
  · rintro (⟨x, y, rfl⟩ | ⟨x, y, rfl⟩)
    · exact ⟨x, y ++ b, by simp⟩
    · exact ⟨a ++ x, y, by simp⟩

theorem HasCrlf.of_infix {b t : Text} (h : HasCrlf b) (ht : b <:+: t) : HasCrlf t := by
  obtain ⟨x, y, rfl⟩ := h
  obtain ⟨a, c, rfl⟩ := ht
  exact ⟨a ++ x, y ++ c, by simp⟩

theorem not_hasCrlf_of_notMem {t : Text} (h : '\n' ∉ t) : ¬HasCrlf t := by
  rintro ⟨a, b, rfl⟩
  simp at h

/-! ## Splitting -/

theorem splitAt_cons_self (sep : Char) (t : Text) : splitAt sep (sep :: t) = [] :: splitAt sep t := by
  rw [splitAt, if_pos rfl]

/-- what is no separator goes into the first piece -/
theorem splitAt_cons {sep c : Char} (hc : c ≠ sep) (t : Text) : ∃ first pieces,
    splitAt sep t = first :: pieces ∧ splitAt sep (c :: t) = (c :: first) :: pieces := by
  induction t generalizing c with
  | nil => exact ⟨[], [], rfl, by simp [splitAt, hc]⟩
  | cons d t ih =>
    by_cases hd : d = sep
    · subst hd
      exact ⟨[], splitAt d t, splitAt_cons_self d t, by rw [splitAt, if_neg hc, splitAt_cons_self]⟩
    · obtain ⟨first, pieces, -, h⟩ := ih hd
      exact ⟨d :: first, pieces, h, by rw [splitAt, if_neg hc, h]⟩

theorem splitAt_of_notMem {sep : Char} {t : Text} (h : sep ∉ t) : splitAt sep t = [t] := by
  induction t with
  | nil => rfl
  | cons c t ih =>
    rw [List.mem_cons, not_or] at h
    simp [splitAt, ih h.2, Ne.symm h.1]

/-- a piece between separators is a part of the text, and no separator is in it -/
theorem mem_splitAt {sep : Char} {t piece : Text} (h : piece ∈ splitAt sep t) : piece.Sublist t ∧ sep ∉ piece := by
  induction t generalizing piece with
  | nil =>
    obtain rfl : piece = [] := by simpa [splitAt] using h
    exact ⟨List.nil_sublist _, by simp⟩
  | cons c rest ih =>
    by_cases hc : c = sep
    · subst hc
      rw [splitAt_cons_self] at h
      rcases List.mem_cons.1 h with rfl | h
      · exact ⟨List.nil_sublist _, by simp⟩
      · exact ⟨(ih h).1.cons c, (ih h).2⟩
    · obtain ⟨first, pieces, hrest, hsplit⟩ := splitAt_cons hc rest
      rw [hsplit] at h
      rw [hrest] at ih
      rcases List.mem_cons.1 h with rfl | h
      · obtain ⟨hsub, hsep⟩ := ih List.mem_cons_self
        exact ⟨hsub.cons_cons c, by simp [Ne.symm hc, hsep]⟩
      · obtain ⟨hsub, hsep⟩ := ih (List.mem_cons_of_mem _ h)
        exact ⟨hsub.cons c, hsep⟩

/-- behind the first piece the text ends or a separator stands -/
theorem splitAt_eq_cons {sep : Char} {t first : Text} {pieces : List Text} (h : splitAt sep t = first :: pieces) :
    (t = first ∧ pieces = []) ∨ ∃ rest, t = first ++ sep :: rest ∧ pieces = splitAt sep rest := by
  induction t generalizing first with
  | nil =>
    obtain ⟨rfl, rfl⟩ := List.cons.inj h
    exact Or.inl ⟨rfl, rfl⟩
  | cons c t ih =>
    by_cases hc : c = sep
    · subst hc
      rw [splitAt_cons_self] at h
      obtain ⟨rfl, rfl⟩ := List.cons.inj h
      exact Or.inr ⟨t, rfl, rfl⟩
    · obtain ⟨first', pieces', hrest, hsplit⟩ := splitAt_cons hc t
      obtain ⟨rfl, rfl⟩ := List.cons.inj (hsplit.symm.trans h)
      rcases ih hrest with ⟨rfl, rfl⟩ | ⟨rest, rfl, rfl⟩
      · exact Or.inl ⟨rfl, rfl⟩
      · exact Or.inr ⟨rest, rfl, rfl⟩

/-- a piece stands between two separators, or at an end of the text -/
theorem exists_of_mem_splitAt {sep : Char} {t piece : Text} (h : piece ∈ splitAt sep t) : ∃ l r, t = l ++ piece ++ r ∧
    (l = [] ∨ l.getLast? = some sep) ∧ (r = [] ∨ r.head? = some sep) := by
  generalize hpieces : splitAt sep t = pieces at h
  induction pieces generalizing t with
  | nil => simp at h
  | cons first pieces ih =>
    rcases splitAt_eq_cons hpieces with ⟨rfl, rfl⟩ | ⟨rest, rfl, hrest⟩
    · obtain rfl := List.mem_singleton.1 h
      exact ⟨[], [], by simp, Or.inl rfl, Or.inl rfl⟩
    · rcases List.mem_cons.1 h with rfl | h
      · exact ⟨[], sep :: rest, by simp, Or.inl rfl, Or.inr rfl⟩
      · obtain ⟨l, r, rfl, hl, hr⟩ := ih hrest.symm h
        refine ⟨first ++ sep :: l, r, by simp, Or.inr ?_, hr⟩
        rcases hl with rfl | hl <;> simp [List.getLast?_append, List.getLast?_cons, *]

/-- every character that is no separator is in one of the pieces -/
theorem exists_mem_splitAt {sep c : Char} {t : Text} (hc : c ∈ t) (hne : c ≠ sep) : ∃ piece ∈ splitAt sep t, c ∈ piece := by
  induction t with
  | nil => simp at hc
  | cons d rest ih =>
    by_cases hd : d = sep
    · subst hd
      obtain ⟨piece, hp, hin⟩ := ih ((List.mem_cons.1 hc).resolve_left hne)
      exact ⟨piece, by rw [splitAt_cons_self]; exact List.mem_cons_of_mem _ hp, hin⟩
    · obtain ⟨first, pieces, hrest, hsplit⟩ := splitAt_cons hd rest
      rw [hrest] at ih
      rw [hsplit]
      rcases List.mem_cons.1 hc with rfl | hc
      · exact ⟨c :: first, List.mem_cons_self, List.mem_cons_self⟩
      · obtain ⟨piece, hp, hin⟩ := ih hc
        rcases List.mem_cons.1 hp with rfl | hp
        · exact ⟨d :: piece, List.mem_cons_self, List.mem_cons_of_mem _ hin⟩
        · exact ⟨piece, List.mem_cons_of_mem _ hp, hin⟩

/-- a separator separates -/
theorem splitAt_append_sep (sep : Char) (a b : Text) : splitAt sep (a ++ sep :: b) = splitAt sep a ++ splitAt sep b := by
  induction a with
  | nil => exact splitAt_cons_self sep b
  | cons c a ih =>
    by_cases hc : c = sep
    · subst hc
      rw [List.cons_append, splitAt_cons_self, splitAt_cons_self, ih, List.cons_append]
    · obtain ⟨first, pieces, hrest, hsplit⟩ := splitAt_cons hc a
      obtain ⟨first', pieces', hrest', hsplit'⟩ := splitAt_cons hc (a ++ sep :: b)
      rw [hrest, hrest', List.cons_append] at ih
      rw [List.cons_append, hsplit, hsplit', (List.cons.inj ih).1, (List.cons.inj ih).2, List.cons_append]

/-- what is no separator goes into the last piece -/
theorem splitAt_append_of_notMem {sep : Char} {b : Text} (hb : sep ∉ b) (t : Text) :
    ∃ pieces last, splitAt sep t = pieces ++ [last] ∧ splitAt sep (t ++ b) = pieces ++ [last ++ b] := by
  induction t with
  | nil => exact ⟨[], [], rfl, by simpa using splitAt_of_notMem hb⟩
  | cons c t ih =>
    obtain ⟨pieces, last, h1, h2⟩ := ih
    by_cases hc : c = sep
    · exact ⟨[] :: pieces, last, by simp [splitAt, hc, h1], by simp [splitAt, hc, h2]⟩
    · cases pieces with
      | nil => exact ⟨[], c :: last, by simp [splitAt, hc, h1], by simp [splitAt, hc, h2]⟩
      | cons first pieces => exact ⟨(c :: first) :: pieces, last, by simp [splitAt, hc, h1], by simp [splitAt, hc, h2]⟩

/-- a text without separators stands in front of the first piece -/
theorem splitAt_append_left {sep : Char} {a t first : Text} {pieces : List Text} (ha : sep ∉ a)
    (h : splitAt sep t = first :: pieces) : splitAt sep (a ++ t) = (a ++ first) :: pieces := by
  induction a with
  | nil => exact h
  | cons c a ih =>
    rw [List.mem_cons, not_or] at ha
    obtain ⟨first', pieces', hrest, hsplit⟩ := splitAt_cons (Ne.symm ha.1) (a ++ t)
    obtain ⟨rfl, rfl⟩ := List.cons.inj (hrest.symm.trans (ih ha.2))
    exact hsplit

/-- the pieces with a separator behind each are the text with one behind it -/
theorem flatMap_splitAt (sep : Char) (t : Text) : (splitAt sep t).flatMap (· ++ [sep]) = t ++ [sep] := by
  induction t with
  | nil => rfl
  | cons c t ih =>
    by_cases hc : c = sep
    · subst hc
      rw [splitAt_cons_self, List.flatMap_cons, ih]
      rfl
    · obtain ⟨first, pieces, hrest, hsplit⟩ := splitAt_cons hc t
      rw [hsplit, List.flatMap_cons, List.cons_append, List.cons_append, List.cons_append, ← ih, hrest, List.flatMap_cons]

end Componentry.Text
