/-
How long a scalar is: no longer than what it was read from.
- `Plain.length_read`, `Quoted.read_closed`, `Block.length_read?`: one lemma for each style. A quoted scalar is shorter
  yet, since what it was read from has its closing quote too.
-/
import Componentry.Proofs.Yaml.Advancing

namespace Componentry.Yaml

theorem length_lineBreak? {t rest : Text} {c : Char} (h : lineBreak? t = some (c, rest)) : rest.length < t.length := by
  unfold lineBreak? at h
  split at h
  · obtain ⟨-, rfl⟩ := Prod.mk.inj (Option.some.inj h)
    simp only [List.length_cons]
    omega
  · split_ifs at h
    all_goals
      obtain ⟨-, rfl⟩ := Prod.mk.inj (Option.some.inj h)
      simp
  · simp at h

theorem lineBreak?_eq_none {c : Char} {t : Text} (hc : isBreak c = false) : lineBreak? (c :: t) = none := by
  unfold lineBreak?
  split
  · rename_i heq
    obtain ⟨rfl, -⟩ := List.cons.inj heq
    exact absurd hc (by decide)
  · rename_i heq
    obtain ⟨rfl, rfl⟩ := List.cons.inj heq
    have hne : ¬(c = '\n' ∨ c = '\r' ∨ c = '\u0085') := by
      rintro (rfl | rfl | rfl) <;> exact absurd hc (by decide)
    simp [hne, hc]
  · rename_i heq
    simp at heq

theorem length_skipSpaces (t : Text) : (t.takeWhile (· = ' ')).length + (skipSpaces t).length = t.length := by
  rw [skipSpaces, ← List.length_append, List.takeWhile_append_dropWhile]

/-! ## Plain scalars -/

namespace Plain

/-- a run and what follows it are the text -/
theorem run_append (flow : Bool) (t : Text) : (run flow t).1 ++ (run flow t).2 = t := by
  induction t with
  | nil => rfl
  | cons c t ih =>
    unfold run
    split_ifs
    · rfl
    · simp only [List.cons_append, ih]

theorem length_run (flow : Bool) (t : Text) : (run flow t).1.length + (run flow t).2.length = t.length := by
  rw [← List.length_append, run_append]

/-- no character of a run ends it -/
theorem mem_run {flow : Bool} {t : Text} {c : Char} (h : c ∈ (run flow t).1) : isSpace c = false ∧ isBreak c = false := by
  induction t with
  | nil => simp [run] at h
  | cons d t ih =>
    unfold run at h
    split_ifs at h with hd
    · simp at h
    · rcases List.mem_cons.1 h with rfl | h
      · simp only [endsRun, Bool.or_eq_true, not_or, Bool.not_eq_true] at hd
        exact ⟨hd.1.1.1, hd.1.1.2⟩
      · exact ih h

theorem length_brokenBy (c : Char) {n : Nat} {rest : Text} {lines : Text × Nat × Text × Bool}
    (h : lines.1.length + lines.2.1 + lines.2.2.1.length ≤ n) (hrest : rest.length ≤ n) :
    (blankLines.brokenBy c rest lines).1.length + (blankLines.brokenBy c rest lines).2.1 +
      (blankLines.brokenBy c rest lines).2.2.1.length ≤ n + 1 := by
  unfold blankLines.brokenBy
  split_ifs
  · simpa using by omega
  · simp only [List.length_cons]
    omega

theorem length_blankLines (column : Nat) (t : Text) : (blankLines column t).1.length + (blankLines column t).2.1 +
    (blankLines column t).2.2.1.length ≤ column + t.length := by
  fun_induction blankLines column t with
  | case1 column rest ih =>
    have := length_brokenBy '\n' (n := rest.length) (by simpa using ih) le_rfl
    simp only [List.length_cons]
    omega
  | case2 => simp
  | case3 column rest _ ih =>
    simp only [List.length_cons]
    omega
  | case4 column c rest _ _ _ ih =>
    have := length_brokenBy (if c = '\u2028' ∨ c = '\u2029' then c else '\n') (n := rest.length) (by simpa using ih) le_rfl
    simp only [List.length_cons]
    omega
  | case5 => simp

theorem length_fold (first : Char) (breaks : Text) : (fold first breaks).length ≤ breaks.length + 1 := by
  unfold fold
  split_ifs with h1 h2
  · simp
  · simp
  · simp

/-- a gap is no longer than what it was read from; across a line break, the indentation is lost -/
theorem length_gap (t : Text) : (gap t).text.length + (gap t).column + (gap t).rest.length ≤ t.length := by
  have hspaces := length_skipSpaces t
  unfold gap
  simp only
  split
  · simpa using by omega
  · rename_i first rest hbreak
    have hrest := length_lineBreak? hbreak
    split_ifs
    · simpa using by omega
    · have hlines := length_blankLines 0 rest
      rcases hl : blankLines 0 rest with ⟨breaks, column, after, final⟩
      rw [hl] at hlines
      have hfold := length_fold first breaks
      simp only at hlines ⊢
      omega

/-- a gap inside a line is of spaces, and they are all of it -/
theorem gap_of_not_crosses {t : Text} (h : (gap t).crosses = false) :
    (gap t).text = t.takeWhile (· = ' ') ∧ (gap t).rest = skipSpaces t := by
  unfold gap at h ⊢
  simp only at h ⊢
  split
  · exact ⟨rfl, rfl⟩
  · rename_i hbreak
    simp only [hbreak] at h
    split_ifs at h

/-- a plain scalar is no longer than what it was read from -/
theorem length_more (flow : Bool) (indent : Int) (fuel : Nat) (before : Gap) :
    (more flow indent fuel before).text.length + (more flow indent fuel before).rest.length ≤
      before.text.length + before.rest.length := by
  induction fuel generalizing before with
  | zero => simp [more]
  | succ fuel ih =>
    have hrun := length_run flow before.rest
    have hgap := length_gap (run flow before.rest).2
    have hmore := ih (gap (run flow before.rest).2)
    unfold more
    simp only
    by_cases hword : (run flow before.rest).1 = []
    · rw [if_pos hword]
      simp
    · rw [if_neg hword]
      split_ifs
      · simp only [List.length_append, List.length_nil]
        omega
      · simp only [List.length_append]
        omega

theorem length_read (flow : Bool) (indent : Int) (t : Text) :
    (read flow indent t).text.length + (read flow indent t).rest.length ≤ t.length := by
  simpa [read] using length_more flow indent (t.length + 1) ⟨[], false, 0, false, t⟩

/-- what does not end a run is taken -/
theorem read_suffix_tail {flow : Bool} {c : Char} {t : Text} (hc : endsRun flow c t = false) (indent : Int) :
    (read flow indent (c :: t)).rest <:+ t := by
  have hrun : run flow (c :: t) = (c :: (run flow t).1, (run flow t).2) := by simp [run, hc]
  have hgap := (gap_suffix (run flow t).2).trans (run_suffix flow t)
  unfold read more
  simp only [hrun, if_neg (List.cons_ne_nil _ _)]
  split_ifs
  · exact hgap
  · exact (more_suffix ..).trans hgap

end Plain

/-! ## Quoted scalars -/

namespace Quoted

theorem length_blankLines {atStart : Bool} {t : Text} {r : Text × Text} (h : blankLines atStart t = some r) :
    r.1.length + r.2.length ≤ t.length := by
  fun_induction blankLines atStart t generalizing r with
  | case1 => simp at h
  | case2 atStart rest _ ih =>
    obtain ⟨q, hq, rfl⟩ := Option.map_eq_some_iff.1 h
    have := ih hq
    simp only [List.length_cons]
    omega
  | case3 => simp [← Option.some.inj h]
  | case4 atStart c rest _ _ _ ih =>
    have := ih h
    simp only [List.length_cons]
    omega
  | case5 atStart c rest _ _ _ _ ih =>
    obtain ⟨q, hq, rfl⟩ := Option.map_eq_some_iff.1 h
    have := ih hq
    simp only [List.length_cons]
    omega
  | case6 => simp [← Option.some.inj h]

theorem length_gap {t : Text} {r : Text × Text} (h : gap t = .ok r) : r.1.length + r.2.length ≤ t.length := by
  have hspaces : (t.takeWhile isSpace).length + (t.dropWhile isSpace).length = t.length := by
    rw [← List.length_append, List.takeWhile_append_dropWhile]
  unfold gap at h
  simp only at h
  split at h
  · rw [← Except.ok.inj h]
    exact hspaces.le
  · rename_i first rest hbreak
    have hrest := length_lineBreak? hbreak
    split at h
    · simp at h
    · rename_i breaks after hlines
      have := length_blankLines hlines
      have hfold := Plain.length_fold first breaks
      rw [← Except.ok.inj h]
      simp only at this ⊢
      omega

theorem length_escape {t : Text} {r : Text × Text} (h : escape t = .ok r) : r.1.length + r.2.length ≤ t.length := by
  unfold escape at h
  split at h
  · simp at h
  · rename_i c rest
    split at h
    · rw [← Except.ok.inj h]
      simp only [List.length_cons, List.length_nil]
      omega
    · rename_i n _ _
      simp only at h
      split_ifs at h
      cases hc : character (Digits.value 16 (rest.take n)) with
      | error f => simp [hc, Except.map] at h
      | ok d =>
        rw [hc] at h
        rw [← Except.ok.inj h]
        simp only [List.length_cons, List.length_nil, List.length_drop]
        omega
    · split at h
      · simp at h
      · rename_i hbreak
        split at h
        · simp at h
        · rename_i hlines
          rw [← Except.ok.inj h]
          exact (length_blankLines hlines).trans (length_lineBreak? hbreak).le

/-- the quote that closes a scalar -/
def mark (double : Bool) : Char := if double then '"' else '\''

/-- a piece is no longer than what it was read from, or it is the quote at the end -/
theorem piece_cases {double : Bool} {t : Text} {r : Option Text × Text} (h : piece double t = .ok r) :
    (∃ p, r.1 = some p ∧ p.length + r.2.length ≤ t.length) ∨ r.1 = none ∧ t = mark double :: r.2 := by
  unfold piece at h
  split at h
  · simp at h
  · rename_i c rest
    split_ifs at h with hspace hdouble hquote hslash hquote
    · cases hg : gap (c :: rest) with
      | error f => simp [hg, Except.map] at h
      | ok q =>
        rw [hg] at h
        rw [← Except.ok.inj h]
        exact Or.inl ⟨q.1, rfl, length_gap hg⟩
    · rw [← Except.ok.inj h]
      exact Or.inr ⟨rfl, by simp [mark, hdouble, hquote]⟩
    · cases he : escape rest with
      | error f => simp [he, Except.map] at h
      | ok q =>
        rw [he] at h
        rw [← Except.ok.inj h]
        exact Or.inl ⟨q.1, rfl, (length_escape he).trans (Nat.le_succ _)⟩
    · rw [← Except.ok.inj h]
      exact Or.inl ⟨[c], rfl, by simp [Nat.add_comm]⟩
    · split at h
      · rw [← Except.ok.inj h]
        exact Or.inl ⟨['\''], rfl, by simpa using by omega⟩
      · rw [← Except.ok.inj h]
        exact Or.inr ⟨rfl, by simp [mark, hdouble, hquote]⟩
    · rw [← Except.ok.inj h]
      exact Or.inl ⟨[c], rfl, by simp [Nat.add_comm]⟩

/-- a quoted scalar and its closing quote are no longer than what they were read from, and what follows the quote is left -/
theorem pieces_closed {double : Bool} {fuel : Nat} {t : Text} {r : Text × Text} (h : pieces double fuel t = .ok r) :
    r.1.length + r.2.length < t.length ∧ mark double :: r.2 <:+ t := by
  induction fuel generalizing t r with
  | zero => simp [pieces] at h
  | succ fuel ih =>
    unfold pieces at h
    split at h
    · simp at h
    · rename_i rest hpiece
      rw [← Except.ok.inj h]
      obtain ⟨p, hp, -⟩ | ⟨-, rfl⟩ := piece_cases hpiece
      · simp at hp
      · exact ⟨by simp, List.suffix_refl _⟩
    · rename_i p rest hpiece
      cases hp : pieces double fuel rest with
      | error f => simp [hp, Except.map] at h
      | ok q =>
        rw [hp] at h
        rw [← Except.ok.inj h]
        obtain ⟨hlength, hclosed⟩ := ih hp
        obtain ⟨p', hp', hpiece'⟩ | ⟨hnone, -⟩ := piece_cases hpiece
        · obtain rfl := Option.some.inj hp'
          refine ⟨?_, hclosed.trans (piece_suffix hpiece)⟩
          simp only [List.length_append] at hpiece' ⊢
          omega
        · simp at hnone

theorem read_closed {double : Bool} {t : Text} {r : Text × Text} (h : read double t = .ok r) :
    r.1.length + r.2.length < t.length ∧ mark double :: r.2 <:+ t := pieces_closed h

end Quoted

/-! ## Block scalars -/

namespace Block

theorem length_blankLines (limit : Option Nat) (column widest : Nat) (t : Text) :
    (blankLines limit column widest t).breaks.length + (blankLines limit column widest t).rest.length ≤ t.length := by
  fun_induction blankLines limit column widest t with
  | case1 column widest rest ih =>
    simp only [Blank.after, List.length_cons]
    omega
  | case2 => simp
  | case3 column widest c rest _ _ ih =>
    simp only [List.length_cons]
    omega
  | case4 column widest c rest _ _ _ ih =>
    simp only [Blank.after, List.length_cons]
    omega
  | case5 => simp

theorem length_apply (ending : Ending) (last breaks : Text) :
    (ending.apply last breaks).length ≤ last.length + breaks.length := by
  cases ending with
  | clip => simp [Ending.apply]
  | strip => simp [Ending.apply]
  | keep => simp [Ending.apply]

/-- a line break and what follows it -/
theorem length_afterBreak (t : Text) : ((lineBreak? t).map (·.1)).toList.length + (afterBreak t).length ≤ t.length := by
  unfold afterBreak
  split
  · rename_i rest hbreak
    have := length_lineBreak? hbreak
    simp only [hbreak, Option.map_some, Option.toList_some, List.length_singleton]
    omega
  · rename_i hbreak
    simp [hbreak]

/-- the lines of a block are no longer than what they were read from -/
theorem length_body (folded : Bool) (ending : Ending) (indent fuel : Nat) {joint last : Text}
    (hjoint : joint.length ≤ last.length) (blank : Blank) :
    (body folded ending indent fuel joint last blank).1.length +
      (body folded ending indent fuel joint last blank).2.length ≤
        last.length + blank.breaks.length + blank.rest.length := by
  induction fuel generalizing joint last blank with
  | zero =>
    have := length_apply ending last blank.breaks
    simp only [body]
    omega
  | succ fuel ih =>
    unfold body
    simp only
    by_cases hline : blank.column = indent ∧ blank.rest ≠ []
    · rw [if_pos hline]
      have hsplit : (blank.rest.takeWhile fun c => !isBreak c).length + (skipLine blank.rest).length =
          blank.rest.length := by
        rw [skipLine, ← List.length_append, List.takeWhile_append_dropWhile]
      have hbreak := length_afterBreak (skipLine blank.rest)
      have hnext := length_blankLines (some indent) 0 0 (afterBreak (skipLine blank.rest))
      generalize blankLines (some indent) 0 0 (afterBreak (skipLine blank.rest)) = next at hnext ⊢
      generalize ((lineBreak? (skipLine blank.rest)).map (·.1)).toList = last' at hbreak ⊢
      have hmore := fun (joint' : Text) (hjoint' : joint'.length ≤ last'.length) => ih hjoint' next
      simp only [List.length_append]
      split_ifs with hfolds
      · have hlast : last' = ['\n'] := by
          simp only [Bool.and_eq_true, decide_eq_true_eq] at hfolds
          exact hfolds.1.1.2
        have := hmore [' '] (by simp [hlast])
        omega
      · have := hmore [] (by simp)
        omega
      · have := hmore last' le_rfl
        omega
    · rw [if_neg hline]
      have := length_apply ending last blank.breaks
      simp only
      omega

/-- a block scalar is no longer than what it was read from -/
theorem length_read? {folded : Bool} {parent : Int} {t : Text} {r : Text × Text} (h : read? folded parent t = some r) :
    r.1.length + r.2.length ≤ t.length := by
  unfold read? at h
  split at h
  · simp at h
  · rename_i header rest hheader
    have hrest := (header?_suffix hheader).length_le
    split_ifs at h
    split at h
    · simp at h
    · rename_i next hnext
      have hnext := (skipIgnored?_suffix hnext).length_le
      rw [← Option.some.inj h]
      have hbody := fun indent blank => length_body folded header.ending indent (t.length + 1)
        (le_refl ([] : Text).length) blank
      have hblank := fun limit => length_blankLines limit 0 0 next
      simp only [List.length_nil, Nat.zero_add] at hbody
      split
      · exact (hbody _ _).trans ((hblank _).trans (hnext.trans hrest))
      · exact (hbody _ _).trans ((hblank _).trans (hnext.trans hrest))

end Block

end Componentry.Yaml
