/-
What a text says about components: the statements that import them and the sources in quotes.

- `Mentions`: the name of a component is a word of the text, or its source stands there in quotes.
- `mentions_of_source`, `mentions_of_item`: imports and list items are mentions.
- `fragment_of_step`, `fragment_of_import`: the statement that imports a component stays when another one is registered.
- `quoted_of_step`, `quoted_of_import`: and no other source comes into quotes.
-/
import Componentry.Proofs.Splice.Holding

namespace Componentry

open Text

namespace Index

variable {kind : ListKind} {t t' s : Text} {c d : Component} {q : Char}

/-! ## Mentions -/

/-- a text that mentions a component: its name stands there as a word, or its source in quotes -/
def Mentions (t : Text) (c : Component) : Prop :=
  (∃ a b, t = a ++ c.pascalName ++ b ∧ a.getLast?.any isWordChar = false ∧ b.head?.any isWordChar = false) ∨
    ∃ q, IsQuote q ∧ q :: sourceOf c ++ [q] <:+: t

/-- a text without the name and the source of a component does not mention it -/
theorem not_mentions (hname : ¬c.pascalName <:+: t) (hsource : ¬sourceOf c <:+: t) : ¬Mentions t c := by
  rintro (⟨a, b, rfl, -⟩ | ⟨q, -, a, b, rfl⟩)
  · exact hname ⟨a, b, rfl⟩
  · exact hsource ⟨a ++ [q], [q] ++ b, by simp⟩

/-- the sources of imports stand in quotes -/
theorem quoted_of_mem_sources (h : s ∈ sources t) : ∃ q, IsQuote q ∧ q :: s ++ [q] <:+: t := by
  obtain ⟨o, ho, hs⟩ := List.mem_filterMap.1 h
  obtain ⟨u, v, e, more, rfl, he, rfl⟩ := Pattern.occurrences_sound importStatement_advances ho
  obtain ⟨m, q, source, rest, hv, hm, -, -, rfl⟩ := mem_ends_importStatement.1 (by rw [he]; exact List.mem_cons_self)
  obtain rfl : source = s := by simpa [Pattern.found, Occurrence.part?] using hs
  obtain ⟨w, mid, semi, bl, rfl, -, -, -, hq, -⟩ := hm
  simp only at hv
  subst hv
  exact ⟨q, hq, u ++ ['i', 'm', 'p', 'o', 'r', 't'] ++ w ++ mid, semi ++ bl ++ rest, by simp⟩

theorem mentions_of_source (h : sourceOf c ∈ sources t) : Mentions t c := Or.inr (quoted_of_mem_sources h)

/-- an item of a text is a word of its own -/
theorem word_of_mem_items {n body : Text} (h : n ∈ Splice.items body) : ∃ a b, body = a ++ n ++ b ∧
    a.getLast?.any isWordChar = false ∧ b.head?.any isWordChar = false := by
  obtain ⟨piece, hpiece, rfl⟩ := List.mem_map.1 (List.mem_of_mem_filter h)
  obtain ⟨l, r, rfl, hl, hr⟩ := exists_of_mem_splitAt hpiece
  obtain ⟨tail, htail, hblank, -⟩ := exists_trimEnd (trimStart piece)
  have hlead : Blanks (piece.takeWhile isBlank) := fun x hx => List.mem_takeWhile_imp hx
  have hsplit : piece = piece.takeWhile isBlank ++ (trim piece ++ tail) := by
    rw [trim, ← htail, trimStart, List.takeWhile_append_dropWhile]
  refine ⟨l ++ piece.takeWhile isBlank, tail ++ r, ?_, ?_, ?_⟩
  · conv_lhs => rw [hsplit]
    simp
  · rw [List.getLast?_append]
    cases hlast : (piece.takeWhile isBlank).getLast? with
    | some x => simpa using isWordChar_of_isBlank (hlead x (List.mem_of_getLast? hlast))
    | none =>
      rcases hl with rfl | hl
      · rfl
      · simp only [hl, Option.none_or, Option.any_some]
        decide
  · cases tail with
    | cons x tail => simpa using isWordChar_of_isBlank (hblank x List.mem_cons_self)
    | nil =>
      rcases hr with rfl | hr
      · rfl
      · simp only [List.nil_append, hr, Option.any_some]
        decide

theorem mentions_of_item {x body rest : Text} (hlist : IsList kind x body rest)
    (h : c.pascalName ∈ Splice.items body) : Mentions (x ++ body ++ kind.closer :: rest) c := by
  obtain ⟨a, b, rfl, ha, hb⟩ := word_of_mem_items h
  obtain ⟨y, rfl⟩ := hlist.opens.ends
  refine Or.inl ⟨y ++ [kind.opener] ++ a, b ++ kind.closer :: rest, by simp, ?_, ?_⟩
  · rw [List.getLast?_append]
    cases hlast : a.getLast? with
    | some z => simpa [hlast] using ha
    | none =>
      cases kind <;>
        simp [ListKind.opener] <;> decide
  · cases b with
    | cons z b => simpa using hb
    | nil => cases kind <;> simp [ListKind.closer] <;> decide

/-! ## Entries -/

/-- what an entry does to a text: it takes the place of white space behind a joint, or comes with one -/
theorem exists_entry (hc : Slug.IsName c.slug) (h : kind.step.apply t c = .ok t') : t' = t ∨
    ∃ f w z tail rest, t = f ++ w ++ tail ++ kind.closer :: rest ∧ t' = f ++ z ++ tail ++ kind.closer :: rest ∧
      Blanks (w ++ tail) ∧ Inert z ∧ (z.head? = some ',' ∨ ∃ f0 j, f = f0 ++ [j] ∧ IsJoint j) ∧
      (kind = .exports → ¬IsFromClause rest) := by
  obtain ⟨x, body, rest, rfl, hlist, -, rfl⟩ := exists_list_of_step h
  by_cases hin : c.pascalName ∈ Splice.items body
  · exact Or.inl (by rw [entered, if_pos hin])
  by_cases hblank : Blanks body
  · have hinert := (appendEntry_empty hblank (inert_pascalName hc) (isName_pascalName hc)
      (.ofContent (x ++ body ++ kind.closer :: rest))).1
    obtain ⟨y, rfl⟩ := hlist.opens.ends
    exact Or.inr ⟨_, body, _, [], rest, by simp, by rw [entered, if_neg hin]; simp, by simpa using hblank, hinert,
      Or.inr ⟨y, _, rfl, isJoint_opener kind⟩, hlist.own⟩
  · obtain ⟨s, rfl, rfl, hs, rfl, hbody⟩ := exists_filled_slot hlist.opens hlist.body hblank
    obtain ⟨z, hz, hentered⟩ :=
      hs.entered (fits_nil (.ofContent (s.lead ++ s.body [] ++ s.kind.closer :: rest)) s.filled) hc
    have hne : s.filled ≠ [] := fun h => hblank (trimEnd_eq_nil_iff.1 (hbody ▸ h))
    rw [← hentered]
    rcases hz.joint with rfl | hcomma | h | hlast
    · exact Or.inl rfl
    · exact Or.inr ⟨s.lead ++ s.filled, [], z, s.tail, rest, by simp [Slot.body], by simp [Slot.body],
        by simpa using hs.tail, hz.inert, Or.inl hcomma, hlist.own⟩
    · exact absurd h hne
    · obtain ⟨f, hf⟩ := List.getLast?_eq_some_iff.1 hlast
      exact Or.inr ⟨s.lead ++ s.filled, [], z, s.tail, rest, by simp [Slot.body], by simp [Slot.body],
        by simpa using hs.tail, hz.inert, Or.inr ⟨s.lead ++ f, ',', by simp [hf], Or.inl rfl⟩, hlist.own⟩

/-- a source in quotes that is there with an entry was there without it -/
theorem quoted_of_step (hc : Slug.IsName c.slug) (h : kind.step.apply t c = .ok t') (hq : IsQuote q)
    (hs : ∀ x ∈ s, ¬IsJoint x) (hin : q :: s ++ [q] <:+: t') : q :: s ++ [q] <:+: t := by
  rcases exists_entry hc h with rfl | ⟨f, w, z, tail, rest, rfl, rfl, -, hz, hjoint, -⟩
  · exact hin
  have hnot : ∀ j, IsJoint j → j ∉ q :: s ++ [q] := by
    intro j hj hm
    simp only [List.cons_append, List.mem_cons, List.mem_append, List.not_mem_nil, or_false] at hm
    rcases hm with rfl | hm | rfl
    · exact not_isQuote_of_isJoint hj hq
    · exact hs j hm hj
    · exact not_isQuote_of_isJoint hj hq
  have hquote : q ∉ z := hz.no_quote hq
  have hbefore : ∀ {a}, q :: s ++ [q] <:+: a → a <:+: f → q :: s ++ [q] <:+: f ++ w ++ tail ++ kind.closer :: rest :=
    fun h ha => (h.trans ha).trans ⟨[], w ++ tail ++ kind.closer :: rest, by simp⟩
  have hbehind : ∀ {i}, q ∉ i → q :: s ++ [q] <:+: i ++ (tail ++ kind.closer :: rest) →
      q :: s ++ [q] <:+: f ++ w ++ tail ++ kind.closer :: rest := fun hi h =>
    (infix_of_append_left h hi).trans ⟨f ++ w, [], by simp⟩
  rcases hjoint with hcomma | ⟨f0, j, rfl, hj⟩
  · obtain ⟨i, rfl⟩ := List.head?_eq_some_iff.1 hcomma
    have hplace : q :: s ++ [q] <:+: f ++ ',' :: (i ++ (tail ++ kind.closer :: rest)) := by simpa using hin
    rcases infix_of_append_cons hplace (hnot _ (Or.inl rfl)) with h | h
    · exact hbefore h (List.infix_refl f)
    · exact hbehind (fun hm => hquote (List.mem_cons_of_mem _ hm)) h
  · have hplace : q :: s ++ [q] <:+: f0 ++ j :: (z ++ (tail ++ kind.closer :: rest)) := by simpa using hin
    rcases infix_of_append_cons hplace (hnot j hj) with h | h
    · exact hbefore h ⟨[], [j], by simp⟩
    · exact hbehind hquote h

/-- the statement that imports a component stays when an entry is added -/
theorem fragment_of_step (hd : Slug.IsName d.slug) (hc : Slug.IsName c.slug) (h : kind.step.apply t c = .ok t')
    (hin : Listing.importFragment d <:+: t) : Listing.importFragment d <:+: t' := by
  rcases exists_entry hc h with rfl | ⟨f, w, z, tail, rest, rfl, rfl, hblank, -, -, hown⟩
  · exact hin
  have hends : Listing.importFragment d = (['i', 'm', 'p', 'o', 'r', 't', ' ', '\x7b', ' '] ++ d.pascalName ++
      [' ', '\x7d', ' ', 'f', 'r', 'o', 'm', ' ', '\''] ++ sourceOf d) ++ ['\''] := by
    rw [importFragment_eq]
    simp
  have hbefore : Listing.importFragment d <:+: f ++ (w ++ tail) →
      Listing.importFragment d <:+: f ++ z ++ tail ++ kind.closer :: rest := by
    intro h
    rw [hends] at h ⊢
    exact (infix_of_append_right h fun hm => absurd (hblank _ hm) (by decide)).trans
      ⟨[], z ++ tail ++ kind.closer :: rest, by simp⟩
  rw [List.append_assoc f] at hin
  rcases infix_append_cons_cases hin with h | h | ⟨w1, w2, hw, -, r, rfl⟩
  · exact hbefore h
  · exact h.trans ⟨f ++ z ++ tail ++ [kind.closer], [], by simp⟩
  · -- the closer is the brace of the statement, and what follows it names a source
    obtain ⟨a, b, hline, ha, hb, hfrom⟩ := importLine_brace hd .lf
    have hline' : importLine .lf d = '\n' :: w1 ++ kind.closer :: w2 := by
      rw [importLine, hw]
      simp [Newline.text]
    cases kind with
    | components =>
      have hbracket : ']' ∉ importLine .lf d := (bracket_notMem_importLine hd).2
      exact absurd (by rw [hline']; simp [ListKind.closer]) hbracket
    | exports =>
      obtain ⟨b1, b2, hcut, -, rfl⟩ := cut_between (p := '\n' :: w1) (q := w2) (b := ['\x7d'])
        (by rw [List.append_assoc, List.singleton_append, ← hline, hline']; rfl) ha hb
      obtain ⟨-, rfl⟩ : b1 = [] ∧ b2 = [] := by
        cases b1 with
        | nil => exact ⟨rfl, (List.cons.inj hcut).2.symm⟩
        | cons x b1 => simp at hcut
      exact absurd (hfrom r) (hown rfl)

/-! ## Imports -/

/-- what has no line break stands before the end of a line or behind it -/
theorem infix_of_endsLine {w a V : Text} (hw : IsUnbroken w) (hV : EndsLine V) (h : w <:+: a ++ V) :
    w <:+: a ∨ w <:+: V := by
  cases V with
  | nil => exact Or.inl (by simpa using h)
  | cons x V =>
    have hx : x ∉ w := by
      rcases hV.head with h | h | h
      · simp at h
      · obtain rfl : x = '\n' := by simpa using h
        exact hw.noFeed
      · obtain rfl : x = '\r' := by simpa using h
        exact hw.noReturn
    exact (infix_of_append_cons h hx).imp_right fun h => h.trans (List.suffix_cons x V).isInfix

theorem isUnbroken_importFragment (hd : Slug.IsName d.slug) : IsUnbroken (Listing.importFragment d) := by
  obtain ⟨hr, hn⟩ := break_notMem_importFragment hd
  exact ⟨by rw [importFragment_eq]; simp, hr, hn⟩

/-- the statement that imports a component stays when another import is added -/
theorem fragment_of_import (hd : Slug.IsName d.slug) (hc : Slug.IsName c.slug)
    (h : Listing.importStep.apply t c = .ok t') (hin : Listing.importFragment d <:+: t) :
    Listing.importFragment d <:+: t' := by
  rcases exists_import hc h with rfl | ⟨u0, m, q, source, V, newline, -, hV, rfl, rfl⟩
  · exact hin
  -- the line of the last import ends where the new one is put in
  rcases infix_of_endsLine (isUnbroken_importFragment hd) hV hin with h | h
  · exact h.trans ⟨[], importLine newline c ++ V, by simp⟩
  · exact h.trans ⟨u0 ++ m ++ importLine newline c, [], by simp⟩

/-- the statement that imports a component has its source in quotes alone -/
theorem eq_of_quoted_importFragment (hc : Slug.IsName c.slug) (hq : IsQuote q) (hs : ∀ x ∈ s, ¬IsQuote x)
    (hin : q :: s ++ [q] <:+: Listing.importFragment c) : s = sourceOf c := by
  have hstart := importFragment_start hc
  rw [importFragment_eq] at hin
  generalize ['i', 'm', 'p', 'o', 'r', 't', ' ', '\x7b', ' '] ++ c.pascalName ++
    [' ', '\x7d', ' ', 'f', 'r', 'o', 'm', ' '] = start at hin hstart
  have hsource : ∀ x ∈ sourceOf c, ¬IsQuote x := fun x hx => (sourceOf_inside hc x hx).1
  have hquote : IsQuote '\'' := Or.inl rfl
  have hplace : q :: s ++ [q] <:+: start ++ '\'' :: (sourceOf c ++ ['\'']) := by simpa using hin
  rcases infix_append_cons_cases hplace with h | h | ⟨w1, w2, hw, hw1, hw2⟩
  · exact absurd hq (hstart q (h.subset (by simp)))
  · have hlen := (infix_of_append_left h fun hm => hsource q hm hq).length_le
    simp at hlen
  · -- the quotes are those of the source
    cases w1 with
    | cons x w1 =>
      obtain rfl : q = x := (List.cons.inj hw).1
      exact absurd hq (hstart q (hw1.subset List.mem_cons_self))
    | nil =>
      obtain ⟨rfl, rfl⟩ := List.cons.inj hw
      obtain ⟨r, hr⟩ := hw2
      have hr' : s ++ '\'' :: r = sourceOf c ++ ['\''] := by simpa using hr
      exact (append_cons_unique_of_notMem (fun hm => hs _ hm hquote) (fun hm => hsource _ hm hquote) hr').1

/-- a source in quotes that is there with an import is that of the import, or was there without it -/
theorem quoted_of_import (hc : Slug.IsName c.slug) (h : Listing.importStep.apply t c = .ok t') (hq : IsQuote q)
    (hs : ∀ x ∈ s, ¬IsQuote x ∧ x ≠ '\r' ∧ x ≠ '\n') (hne : s ≠ sourceOf c) (hin : q :: s ++ [q] <:+: t') :
    q :: s ++ [q] <:+: t := by
  rcases exists_import hc h with rfl | ⟨u0, m, q', source, V, newline, -, hV, rfl, rfl⟩
  · exact hin
  have hword : IsUnbroken (q :: s ++ [q]) := by
    have hbreak : ∀ x, x = '\r' ∨ x = '\n' → x ∉ q :: s ++ [q] := by
      intro x hx hm
      have hxq : x ≠ q := by
        rintro rfl
        rcases hx with rfl | rfl <;> simp [IsQuote] at hq
      simp only [List.cons_append, List.mem_cons, List.mem_append, List.not_mem_nil, or_false, hxq, false_or] at hm
      exact (not_or.2 (hs x hm).2) hx
    exact ⟨by simp, hbreak _ (Or.inl rfl), hbreak _ (Or.inr rfl)⟩
  have hends : EndsLine (importLine newline c ++ V) := by
    rw [importLine, List.append_assoc]
    exact endsLine_newline newline _
  rcases infix_of_endsLine hword hends hin with h | h
  · exact h.trans ⟨[], V, by simp⟩
  · rw [importLine, List.append_assoc] at h
    rcases infix_of_endsLine hword hV (hword.infix_append h) with h | h
    · exact absurd (eq_of_quoted_importFragment hc hq (fun x hx => (hs x hx).1) h) hne
    · exact h.trans ⟨u0 ++ m, [], by simp⟩

end Index

end Componentry
