/-
Reading a YAML text moves on in it.

Whatever is read in front of a text, what follows is a part at its end. There is one lemma for each kind of thing that is
read: gaps, the three styles of scalars, names, tags and directives.
-/
import Mathlib.Tactic
import Componentry.Yaml.Token.Stream

namespace Componentry.Yaml

/-! ## Gaps -/

theorem skipSpaces_suffix (t : Text) : skipSpaces t <:+ t := List.dropWhile_suffix _

theorem skipLine_suffix (t : Text) : skipLine t <:+ t := List.dropWhile_suffix _

theorem lineBreak?_suffix {t rest : Text} {c : Char} (h : lineBreak? t = some (c, rest)) : rest <:+ t := by
  unfold lineBreak? at h
  split at h
  · obtain ⟨-, rfl⟩ := Prod.mk.inj (Option.some.inj h)
    exact (List.suffix_cons _ _).trans (List.suffix_cons _ _)
  · split_ifs at h
    all_goals
      obtain ⟨-, rfl⟩ := Prod.mk.inj (Option.some.inj h)
      exact List.suffix_cons _ _
  · simp at h

theorem afterBreak_suffix (t : Text) : afterBreak t <:+ t := by
  unfold afterBreak
  split
  · rename_i h
    exact lineBreak?_suffix h
  · exact List.suffix_refl t

/-- a comment that may stand in front is skipped -/
theorem comment_suffix (t : Text) :
    (match t with
      | '#' :: _ => skipLine t
      | _ => t) <:+ t := by
  split
  · exact skipLine_suffix _
  · exact List.suffix_refl _

theorem skipIgnored?_suffix {t rest : Text} (h : skipIgnored? t = some rest) : rest <:+ t := by
  unfold skipIgnored? at h
  simp only at h
  split_ifs at h
  rw [← Option.some.inj h]
  exact (afterBreak_suffix _).trans ((comment_suffix _).trans (skipSpaces_suffix t))

/-! ## Plain scalars -/

namespace Plain

theorem run_suffix (flow : Bool) (t : Text) : (run flow t).2 <:+ t := by
  induction t with
  | nil => exact List.suffix_refl []
  | cons c t ih =>
    unfold run
    split_ifs
    · exact List.suffix_refl _
    · exact ih.trans (List.suffix_cons c t)

theorem brokenBy_suffix (c : Char) {rest t : Text} {lines : Text × Nat × Text × Bool} (hrest : rest <:+ t)
    (hlines : lines.2.2.1 <:+ rest) : (blankLines.brokenBy c rest lines).2.2.1 <:+ t := by
  unfold blankLines.brokenBy
  split_ifs
  · exact hrest
  · exact hlines.trans hrest

theorem blankLines_suffix (column : Nat) (t : Text) : (blankLines column t).2.2.1 <:+ t := by
  fun_induction blankLines column t with
  | case1 column rest ih =>
    exact brokenBy_suffix _ ((List.suffix_cons _ _).trans (List.suffix_cons _ _)) ih
  | case2 => exact List.suffix_refl []
  | case3 column rest _ ih => exact ih.trans (List.suffix_cons _ rest)
  | case4 column c rest _ _ _ ih => exact brokenBy_suffix _ (List.suffix_cons c rest) ih
  | case5 => exact List.suffix_refl _

theorem gap_suffix (t : Text) : (gap t).rest <:+ t := by
  unfold gap
  simp only
  split
  · exact skipSpaces_suffix t
  · rename_i c rest h
    have hrest : rest <:+ t := (lineBreak?_suffix h).trans (skipSpaces_suffix t)
    split_ifs
    · exact hrest
    · exact (blankLines_suffix 0 rest).trans hrest

theorem more_suffix (flow : Bool) (indent : Int) (fuel : Nat) (before : Gap) :
    (more flow indent fuel before).rest <:+ before.rest := by
  induction fuel generalizing before with
  | zero => exact List.suffix_refl _
  | succ fuel ih =>
    have hnext : (gap (run flow before.rest).2).rest <:+ before.rest :=
      (gap_suffix _).trans (run_suffix flow before.rest)
    unfold more
    simp only
    split_ifs
    · exact List.suffix_refl _
    · exact hnext
    · exact (ih _).trans hnext

theorem read_suffix (flow : Bool) (indent : Int) (t : Text) : (read flow indent t).rest <:+ t := more_suffix ..

end Plain

/-! ## Block scalars -/

namespace Block

theorem ending?_some {c : Char} {e : Ending} (h : ending? c = some e) : c ≠ '\n' := by
  rintro rfl
  simp [ending?] at h

theorem indent?_some {c : Char} {n : Nat} (h : indent? c = some n) : c ≠ '\n' ∧ 1 ≤ n := by
  unfold indent? at h
  split_ifs at h with hc
  obtain ⟨hdigit, hzero⟩ := hc
  simp only [Text.isDigit, Bool.and_eq_true, decide_eq_true_eq] at hdigit
  have hlow : 48 ≤ c.toNat := hdigit.1
  have hne : c.toNat ≠ 48 := fun heq => hzero (Char.toNat_inj.1 heq)
  refine ⟨?_, ?_⟩
  · rintro rfl
    simp at hlow
  · have := Option.some.inj h
    omega

/-- the signs of a header do not end the line, and the digit among them is not zero -/
theorem header?_signs {t : Text} {r : Header × Text} (h : header? t = some r) :
    (∃ signs, t = signs ++ r.2 ∧ '\n' ∉ signs) ∧ ∀ n, r.1.indent = some n → 1 ≤ n := by
  unfold header? at h
  split at h
  · rw [← Option.some.inj h]
    exact ⟨⟨[], rfl, by simp⟩, by simp⟩
  · rename_i c rest
    split at h
    · -- the sign comes first
      rename_i e he
      have hc := ending?_some he
      split at h
      · rename_i d after
        split_ifs at h
        split at h
        · rename_i n hn
          rw [← Option.some.inj h]
          exact ⟨⟨[c, d], rfl, by simp [hc.symm, (indent?_some hn).1.symm]⟩, by simpa using (indent?_some hn).2⟩
        · rw [← Option.some.inj h]
          exact ⟨⟨[c], rfl, by simpa using hc.symm⟩, by simp⟩
      · rw [← Option.some.inj h]
        exact ⟨⟨[c], rfl, by simpa using hc.symm⟩, by simp⟩
    · split_ifs at h
      split at h
      · rw [← Option.some.inj h]
        exact ⟨⟨[], rfl, by simp⟩, by simp⟩
      · -- the digit comes first
        rename_i n hn
        obtain ⟨hc, hpos⟩ := indent?_some hn
        split at h
        · rename_i d after
          split at h
          · rename_i e he
            rw [← Option.some.inj h]
            exact ⟨⟨[c, d], rfl, by simp [hc.symm, (ending?_some he).symm]⟩, by simpa using hpos⟩
          · rw [← Option.some.inj h]
            exact ⟨⟨[c], rfl, by simpa using hc.symm⟩, by simpa using hpos⟩
        · rw [← Option.some.inj h]
          exact ⟨⟨[c], rfl, by simpa using hc.symm⟩, by simpa using hpos⟩

theorem header?_suffix {t : Text} {r : Header × Text} (h : header? t = some r) : r.2 <:+ t := by
  obtain ⟨⟨signs, rfl, -⟩, -⟩ := header?_signs h
  exact List.suffix_append signs r.2

theorem blankLines_suffix (limit : Option Nat) (column widest : Nat) (t : Text) :
    (blankLines limit column widest t).rest <:+ t := by
  fun_induction blankLines limit column widest t with
  | case1 column widest rest ih => exact ih.trans ((List.suffix_cons _ _).trans (List.suffix_cons _ _))
  | case2 => exact List.suffix_refl []
  | case3 column widest c rest _ _ ih => exact ih.trans (List.suffix_cons c rest)
  | case4 column widest c rest _ _ _ ih => exact ih.trans (List.suffix_cons c rest)
  | case5 => exact List.suffix_refl _

theorem body_suffix (folded : Bool) (ending : Ending) (indent fuel : Nat) (joint last : Text) (blank : Blank) :
    (body folded ending indent fuel joint last blank).2 <:+ blank.rest := by
  induction fuel generalizing joint last blank with
  | zero => exact List.suffix_refl _
  | succ fuel ih =>
    unfold body
    simp only
    by_cases hline : blank.column = indent ∧ blank.rest ≠ []
    · rw [if_pos hline]
      exact (ih _ _ _).trans ((blankLines_suffix ..).trans ((afterBreak_suffix _).trans (skipLine_suffix _)))
    · rw [if_neg hline]

theorem read?_suffix {folded : Bool} {parent : Int} {t : Text} {r : Text × Text} (h : read? folded parent t = some r) :
    r.2 <:+ t := by
  unfold read? at h
  split at h
  · simp at h
  · rename_i header rest hheader
    split_ifs at h
    split at h
    · simp at h
    · rename_i next hnext
      rw [← Option.some.inj h]
      refine (body_suffix ..).trans (List.IsSuffix.trans ?_ ((skipIgnored?_suffix hnext).trans (header?_suffix hheader)))
      split <;> exact blankLines_suffix ..

end Block

/-! ## Quoted scalars -/

namespace Quoted

theorem blankLines_suffix {atStart : Bool} {t : Text} {r : Text × Text} (h : blankLines atStart t = some r) :
    r.2 <:+ t := by
  fun_induction blankLines atStart t generalizing r with
  | case1 => simp at h
  | case2 atStart rest _ ih =>
    obtain ⟨q, hq, rfl⟩ := Option.map_eq_some_iff.1 h
    exact (ih hq).trans ((List.suffix_cons _ _).trans (List.suffix_cons _ _))
  | case3 => rw [← Option.some.inj h]
  | case4 atStart c rest _ _ _ ih => exact (ih h).trans (List.suffix_cons c rest)
  | case5 atStart c rest _ _ _ _ ih =>
    obtain ⟨q, hq, rfl⟩ := Option.map_eq_some_iff.1 h
    exact (ih hq).trans (List.suffix_cons c rest)
  | case6 => rw [← Option.some.inj h]

theorem gap_suffix {t : Text} {r : Text × Text} (h : gap t = .ok r) : r.2 <:+ t := by
  have hafter : t.dropWhile isSpace <:+ t := List.dropWhile_suffix _
  unfold gap at h
  simp only at h
  split at h
  · rw [← Except.ok.inj h]
    exact hafter
  · rename_i hbreak
    split at h
    · simp at h
    · rename_i hlines
      rw [← Except.ok.inj h]
      exact (blankLines_suffix hlines).trans ((lineBreak?_suffix hbreak).trans hafter)

theorem escape_suffix {t : Text} {r : Text × Text} (h : escape t = .ok r) : r.2 <:+ t := by
  unfold escape at h
  split at h
  · simp at h
  · rename_i c rest
    split at h
    · rw [← Except.ok.inj h]
      exact List.suffix_cons c rest
    · rename_i n _ _
      simp only at h
      split_ifs at h
      cases hc : character (Digits.value 16 (rest.take n)) with
      | error f => simp [hc, Except.map] at h
      | ok d =>
        rw [hc] at h
        rw [← Except.ok.inj h]
        exact (List.drop_suffix n rest).trans (List.suffix_cons c rest)
    · split at h
      · simp at h
      · rename_i hbreak
        split at h
        · simp at h
        · rename_i hlines
          rw [← Except.ok.inj h]
          exact (blankLines_suffix hlines).trans (lineBreak?_suffix hbreak)

theorem piece_suffix {double : Bool} {t : Text} {r : Option Text × Text} (h : piece double t = .ok r) : r.2 <:+ t := by
  unfold piece at h
  split at h
  · simp at h
  · rename_i c rest
    split_ifs at h
    · cases hg : gap (c :: rest) with
      | error f => simp [hg, Except.map] at h
      | ok q =>
        rw [hg] at h
        rw [← Except.ok.inj h]
        exact gap_suffix hg
    · rw [← Except.ok.inj h]
      exact List.suffix_cons c rest
    · cases he : escape rest with
      | error f => simp [he, Except.map] at h
      | ok q =>
        rw [he] at h
        rw [← Except.ok.inj h]
        exact (escape_suffix he).trans (List.suffix_cons c rest)
    · rw [← Except.ok.inj h]
      exact List.suffix_cons c rest
    · split at h
      · rw [← Except.ok.inj h]
        exact (List.suffix_cons _ _).trans (List.suffix_cons _ _)
      · rw [← Except.ok.inj h]
        exact List.suffix_cons c rest
    · rw [← Except.ok.inj h]
      exact List.suffix_cons c rest

theorem pieces_suffix {double : Bool} {fuel : Nat} {t : Text} {r : Text × Text} (h : pieces double fuel t = .ok r) :
    r.2 <:+ t := by
  induction fuel generalizing t r with
  | zero => simp [pieces] at h
  | succ fuel ih =>
    unfold pieces at h
    split at h
    · simp at h
    · rename_i hpiece
      rw [← Except.ok.inj h]
      exact piece_suffix hpiece
    · rename_i p rest hpiece
      cases hp : pieces double fuel rest with
      | error f => simp [hp, Except.map] at h
      | ok q =>
        rw [hp] at h
        rw [← Except.ok.inj h]
        exact (ih hp).trans (piece_suffix hpiece)

end Quoted

/-! ## Names, tags and directives -/

namespace Token

theorem name?_suffix {t : Text} {r : Text × Text} (h : name? t = some r) : r.2 <:+ t := by
  unfold name? at h
  simp only at h
  split_ifs at h
  rw [← Option.some.inj h]
  exact List.drop_suffix _ t

theorem flush_rest {bytes : List UInt8} {rest r : Text × Text} (h : flush bytes rest = some r) : r.2 = rest.2 := by
  unfold flush at h
  split at h
  · rw [← Option.some.inj h]
  · simp at h

theorem tagCharsFrom_suffix {bytes : List UInt8} {t : Text} {r : Text × Text} (h : tagCharsFrom bytes t = some r) :
    r.2 <:+ t := by
  fun_induction tagCharsFrom bytes t generalizing r with
  | case1 bytes a b rest _ ih => exact (ih h).trans ⟨['%', a, b], rfl⟩
  | case2 => simp at h
  | case3 => simp at h
  | case4 bytes c rest _ _ _ ih =>
    obtain ⟨q, hq, hflush⟩ := Option.bind_eq_some_iff.1 h
    rw [flush_rest hflush]
    exact (ih hq).trans (List.suffix_cons c rest)
  | case5 => rw [flush_rest h]
  | case6 => rw [flush_rest h]

theorem tagChars?_suffix {t : Text} {r : Text × Text} (h : tagChars? t = some r) : r.2 <:+ t := by
  unfold tagChars? at h
  split at h
  · simp at h
  · exact tagCharsFrom_suffix h

/-- behind a handle, which begins with its own `!` -/
theorem tagHandle?_suffix {t : Text} {r : Text × Text} (h : tagHandle? t = some r) : r.2 <:+ t.tail := by
  unfold tagHandle? at h
  split at h
  · rename_i rest
    split_ifs at h
    · rw [← Option.some.inj h]
      exact List.suffix_refl rest
    · simp only at h
      split at h
      · rename_i after hafter
        rw [← Option.some.inj h]
        have hdrop : '!' :: after <:+ rest := hafter ▸ List.drop_suffix _ rest
        exact (List.suffix_cons _ after).trans hdrop
      · simp at h
  · simp at h

/-- a token that stands for something that can be read -/
def IsReadable (token : Token) : Prop := ∀ f, token ≠ .unreadable f

theorem handled?_suffix {t : Text} {r : Token × Text} (h : handled? t = some r) : r.2 <:+ t.tail ∧ r.1.IsReadable := by
  unfold handled? at h
  split at h
  · simp at h
  · rename_i handle rest hhandle
    obtain ⟨q, hq, rfl⟩ := Option.map_eq_some_iff.1 h
    exact ⟨(tagChars?_suffix hq).trans (tagHandle?_suffix hhandle), by simp [IsReadable]⟩

theorem openTag?_suffix {t : Text} {r : Token × Text} (h : openTag? t = some r) : r.2 <:+ t ∧ r.1.IsReadable := by
  unfold openTag? at h
  split at h
  · rename_i rest
    split at h
    · rename_i name after hchars
      rw [← Option.some.inj h]
      exact ⟨(List.suffix_cons _ after).trans ((tagChars?_suffix hchars).trans (List.suffix_cons _ rest)),
        by simp [IsReadable]⟩
    · simp at h
  · split_ifs at h
    · rw [← Option.some.inj h]
      exact ⟨List.suffix_refl t, by simp [IsReadable]⟩
    · exact handled?_suffix h
    · obtain ⟨q, hq, rfl⟩ := Option.map_eq_some_iff.1 h
      exact ⟨tagChars?_suffix hq, by simp [IsReadable]⟩

theorem tag?_suffix {t : Text} {r : Token × Text} (h : tag? t = some r) : r.2 <:+ t ∧ r.1.IsReadable := by
  unfold tag? at h
  split at h
  · rename_i token rest hopen
    split_ifs at h
    rw [← Option.some.inj h]
    exact openTag?_suffix hopen
  · simp at h

theorem versionNumber_suffix {t : Text} {r : Nat × Text} (h : versionNumber t = .ok r) : r.2 <:+ t := by
  unfold versionNumber at h
  simp only at h
  split_ifs at h
  split at h
  · rw [← Except.ok.inj h]
    exact List.drop_suffix _ t
  · simp at h

theorem versionNumbers_suffix {t : Text} {r : Token × Text} (h : versionNumbers t = .ok r) :
    r.2 <:+ t ∧ r.1.IsReadable := by
  unfold versionNumbers at h
  cases hmajor : versionNumber (skipSpaces t) with
  | error f => simp [hmajor, Except.bind] at h
  | ok q =>
    obtain ⟨major, rest⟩ := q
    rw [hmajor] at h
    have hrest : rest <:+ t := (versionNumber_suffix hmajor).trans (skipSpaces_suffix t)
    simp only [Except.bind] at h
    split at h
    · rename_i rest'
      cases hminor : versionNumber rest' with
      | error f => simp [hminor] at h
      | ok q =>
        rw [hminor] at h
        simp only at h
        split_ifs at h
        rw [← Except.ok.inj h]
        exact ⟨(versionNumber_suffix hminor).trans ((List.suffix_cons _ rest').trans hrest), by simp [IsReadable]⟩
    · simp at h

theorem handleMeaning?_suffix {t : Text} {r : Token × Text} (h : handleMeaning? t = some r) :
    r.2 <:+ t ∧ r.1.IsReadable := by
  unfold handleMeaning? at h
  split at h
  · rename_i name rest hhandle
    split at h
    · rename_i stem after hstem
      split_ifs at h
      rw [← Option.some.inj h]
      have hrest : ' ' :: rest <:+ t :=
        (tagHandle?_suffix hhandle).trans ((List.tail_suffix _).trans (skipSpaces_suffix t))
      exact ⟨(tagChars?_suffix hstem).trans ((skipSpaces_suffix rest).trans ((List.suffix_cons _ rest).trans hrest)),
        by simp [IsReadable]⟩
    · simp at h
  · simp at h

theorem directive_suffix {t : Text} {r : Token × Text} (h : directive t = .ok r) : r.2 <:+ t ∧ r.1.IsReadable := by
  have hmeaning : ∀ {name u q}, directiveMeaning name u = .ok q → q.2 <:+ u ∧ q.1.IsReadable := by
    intro name u q hq
    unfold directiveMeaning at hq
    split_ifs at hq
    · exact versionNumbers_suffix hq
    · split at hq
      · rename_i hhandle
        rw [← Except.ok.inj hq]
        exact handleMeaning?_suffix hhandle
      · simp at hq
    · rw [← Except.ok.inj hq]
      exact ⟨skipLine_suffix u, by simp [IsReadable]⟩
  unfold directive at h
  simp only at h
  split_ifs at h
  cases hm : directiveMeaning (t.takeWhile isNameChar) (t.drop (t.takeWhile isNameChar).length) with
  | error f => simp [hm, Except.bind] at h
  | ok q =>
    rw [hm] at h
    obtain ⟨hafter, hreadable⟩ := hmeaning hm
    simp only [Except.bind] at h
    split at h
    · rename_i next hnext
      rw [← Except.ok.inj h]
      exact ⟨(skipIgnored?_suffix hnext).trans (hafter.trans (List.drop_suffix _ t)), hreadable⟩
    · simp at h

end Token

end Componentry.Yaml
