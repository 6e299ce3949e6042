/-
Where a line begins that is not indented, scalars end.

A quoted scalar ends at its closing quote only. The others end there, unless brackets, or the lack of any block around
them, let a plain one go on.
- `Before`: such a line is still to come.
- `Before.length_read`: a plain scalar in a block does not reach the line break in front of the line.
- `Block.read?_before`: a block scalar leaves the line.
-/
import Componentry.Proofs.Text.Pieces
import Componentry.Proofs.Yaml.Extent

namespace Componentry.Yaml

/-! ## Lines that are not indented -/

/-- a text that begins with a line feed and a line `w` after some others -/
def Before (w t : Text) : Prop := ∃ u, t = u ++ '\n' :: w

/-- a line that is not indented, and not empty unless it is the last one -/
def FlushLeft (w : Text) : Prop := ∀ c, w.head? = some c → c ≠ ' ' ∧ isBreak c = false

section

variable {w t : Text}

theorem Before.suffix (h : Before w t) : w <:+ t := by
  obtain ⟨u, rfl⟩ := h
  exact ⟨u ++ ['\n'], by simp⟩

theorem Before.length_lt (h : Before w t) : w.length < t.length := by
  obtain ⟨u, rfl⟩ := h
  simp only [List.length_append, List.length_cons]
  omega

/-- the line is still there behind anything without a line feed -/
theorem Before.of_append {p : Text} (h : Before w (p ++ t)) (hp : '\n' ∉ p) : Before w t := by
  obtain ⟨u, hu⟩ := h
  obtain ⟨u', -, ht⟩ := Text.cut_before hu hp
  exact ⟨u', ht⟩

theorem Before.of_cons {c : Char} (h : Before w (c :: t)) (hc : c ≠ '\n') : Before w t :=
  Before.of_append (p := [c]) h (by simpa using hc.symm)

theorem Before.dropWhile {p : Char → Bool} (h : Before w t) (hp : p '\n' = false) : Before w (t.dropWhile p) := by
  refine .of_append (p := t.takeWhile p) (by rwa [List.takeWhile_append_dropWhile]) fun hmem => ?_
  simpa [hp] using List.mem_takeWhile_imp hmem

theorem Before.skipSpaces (h : Before w t) : Before w (skipSpaces t) := h.dropWhile (by decide)

theorem Before.skipLine (h : Before w t) : Before w (skipLine t) := h.dropWhile (by decide)

theorem Before.ne_nil (h : Before w t) : t ≠ [] := by
  obtain ⟨u, rfl⟩ := h
  simp

/-- behind a character the line is still to come, or it begins there -/
theorem Before.tail {c : Char} (h : Before w (c :: t)) : Before w t ∨ t = w := by
  obtain ⟨u, hu⟩ := h
  cases u with
  | nil => exact Or.inr (List.cons.inj hu).2
  | cons d u => exact Or.inl ⟨u, (List.cons.inj hu).2⟩

/-- behind a line break the line is still to come, or it begins there -/
theorem Before.lineBreak? {rest : Text} {c : Char} (h : Before w t) (hb : lineBreak? t = some (c, rest)) :
    Before w rest ∨ rest = w := by
  unfold Yaml.lineBreak? at hb
  split at hb
  · obtain ⟨-, rfl⟩ := Prod.mk.inj (Option.some.inj hb)
    exact (h.of_cons (by decide)).tail
  · split_ifs at hb
    all_goals
      obtain ⟨-, rfl⟩ := Prod.mk.inj (Option.some.inj hb)
      exact h.tail
  · simp at hb

theorem Before.afterBreak (h : Before w t) : Before w (afterBreak t) ∨ afterBreak t = w := by
  unfold Yaml.afterBreak
  split
  · rename_i hbreak
    exact h.lineBreak? hbreak
  · exact Or.inl h

theorem Before.skipIgnored? (h : Before w t) {rest : Text} (hr : skipIgnored? t = some rest) :
    Before w rest ∨ rest = w := by
  unfold Yaml.skipIgnored? at hr
  simp only at hr
  split_ifs at hr
  rw [← Option.some.inj hr]
  refine Before.afterBreak ?_
  split
  · exact h.skipSpaces.skipLine
  · exact h.skipSpaces

end

/-! ## Plain scalars -/

section

open Plain

variable {w t : Text}

/-- the blank lines before a line that is not indented: it is still to come, or it begins behind them -/
theorem Before.blankLines (hw : FlushLeft w) {column : Nat} (h : Before w t ∨ t = w ∧ column = 0) :
    Before w (blankLines column t).2.2.1 ∨
      (blankLines column t).2.2.1 = w ∧ ((blankLines column t).2.2.2 = true ∨ (blankLines column t).2.1 = 0) := by
  have hbroken : ∀ (c : Char) (rest : Text) {lines : Text × Nat × Text × Bool}, Before w rest ∨ rest = w →
      (Before w lines.2.2.1 ∨ lines.2.2.1 = w ∧ (lines.2.2.2 = true ∨ lines.2.1 = 0)) →
      Before w (blankLines.brokenBy c rest lines).2.2.1 ∨ (blankLines.brokenBy c rest lines).2.2.1 = w ∧
        ((blankLines.brokenBy c rest lines).2.2.2 = true ∨ (blankLines.brokenBy c rest lines).2.1 = 0) := by
    intro c rest lines hrest hlines
    unfold blankLines.brokenBy
    split_ifs
    · exact hrest.imp_right fun h => ⟨h, Or.inl rfl⟩
    · exact hlines
  fun_induction Plain.blankLines column t with
  | case1 column rest ih =>
    rcases h with h | ⟨rfl, -⟩
    · have hrest := (h.of_cons (by decide)).tail
      exact hbroken _ _ hrest (ih (hrest.imp_right fun h => ⟨h, rfl⟩))
    · exact absurd (hw '\r' rfl).2 (by decide)
  | case2 => exact h.imp_right fun h => ⟨h.1, Or.inr h.2⟩
  | case3 column rest _ ih =>
    rcases h with h | ⟨rfl, -⟩
    · exact ih (Or.inl (h.of_cons (by decide)))
    · exact absurd rfl (hw ' ' rfl).1
  | case4 column c rest _ _ hc ih =>
    rcases h with h | ⟨rfl, -⟩
    · exact hbroken _ _ h.tail (ih (h.tail.imp_right fun h => ⟨h, rfl⟩))
    · exact absurd (hw c rfl).2 (by simp [hc])
  | case5 => exact h.imp_right fun h => ⟨h.1, Or.inr h.2⟩

/-- behind a gap that a scalar in a block goes on after, the line is still to come -/
theorem Before.gap (hw : FlushLeft w) (h : Before w t) {indent : Int} (hindent : 1 ≤ indent)
    (hgoes : (Plain.gap t).ends false indent = false) : Before w (Plain.gap t).rest := by
  have hafter := h.skipSpaces
  simp only [Gap.ends, Bool.or_eq_false_iff, Bool.and_eq_false_iff, Bool.not_false, Bool.true_and,
    decide_eq_false_iff_not] at hgoes
  unfold Plain.gap at hgoes ⊢
  simp only at hgoes ⊢
  split
  · exact hafter
  · rename_i first rest hbreak
    have hrest := hafter.lineBreak? hbreak
    simp only [hbreak] at hgoes
    split_ifs at hgoes ⊢
    · simp at hgoes
    · have hlines := Before.blankLines hw (hrest.imp_right fun h => ⟨h, rfl⟩ : Before w rest ∨ rest = w ∧ 0 = 0)
      rcases hl : Plain.blankLines 0 rest with ⟨breaks, column, after, final⟩
      simp only [hl] at hlines hgoes ⊢
      refine hlines.resolve_right ?_
      -- the line would be where the scalar ends
      rintro ⟨-, rfl | rfl⟩
      · simp at hgoes
      · have hcolumn := hgoes.2.resolve_left (by simp)
        omega

/-- a run ends before it, too -/
theorem Before.run (h : Before w t) (flow : Bool) : Before w (run flow t).2 :=
  .of_append (p := (Plain.run flow t).1) (by rwa [run_append]) fun hmem => absurd (mem_run hmem).2 (by decide)

/-- in a block, the scalar does not reach the line break before it -/
theorem Before.length_more (hw : FlushLeft w) {indent : Int} (hindent : 1 ≤ indent) (fuel : Nat) (before : Gap)
    (h : Before w before.rest) : (more false indent fuel before).text.length + w.length + 1 ≤
      before.text.length + before.rest.length := by
  induction fuel generalizing before with
  | zero =>
    have := h.length_lt
    simp only [more, List.length_nil]
    omega
  | succ fuel ih =>
    have hlt := h.length_lt
    have hrun := length_run false before.rest
    have hafter := h.run false
    have hafterlt := hafter.length_lt
    unfold more
    simp only
    by_cases hword : (Plain.run false before.rest).1 = []
    · rw [if_pos hword]
      simp only [List.length_nil]
      omega
    · rw [if_neg hword]
      by_cases hends : (Plain.gap (Plain.run false before.rest).2).ends false indent = true
      · simp only [hends, if_true, List.append_nil, List.length_append]
        omega
      · have hnext := ih _ (hafter.gap hw hindent (by simpa using hends))
        have hgap := length_gap (Plain.run false before.rest).2
        rw [if_neg hends]
        simp only [List.length_append]
        omega

theorem Before.length_read (hw : FlushLeft w) (h : Before w t) {indent : Int} (hindent : 1 ≤ indent) :
    (read false indent t).text.length + w.length + 1 ≤ t.length := by
  simpa [Plain.read] using Before.length_more hw hindent (t.length + 1) ⟨[], false, 0, false, t⟩ h

end

/-! ## Block scalars -/

namespace Block

section

variable {w t : Text}

/-- where blank lines lead to before a line that is not indented: the line is still to come, or it begins there -/
def Reaches (w : Text) (column : Nat) (rest : Text) : Prop := Before w rest ∨ rest = w ∧ column = 0

theorem Reaches.blankLines (hw : FlushLeft w) {limit : Option Nat} {column : Nat} {widest : Nat}
    (h : Reaches w column t) :
    Reaches w (blankLines limit column widest t).column (blankLines limit column widest t).rest := by
  fun_induction Block.blankLines limit column widest t with
  | case1 column widest rest ih =>
    rcases h with h | ⟨rfl, -⟩
    · exact ih ((h.of_cons (by decide)).tail.imp_right fun h => ⟨h, rfl⟩)
    · exact absurd (hw '\r' rfl).2 (by decide)
  | case2 => exact h
  | case3 column widest c rest _ hc ih =>
    obtain ⟨rfl, -⟩ := hc
    rcases h with h | ⟨rfl, -⟩
    · exact ih (Or.inl (h.of_cons (by decide)))
    · exact absurd rfl (hw ' ' rfl).1
  | case4 column widest c rest _ _ hc ih =>
    rcases h with h | ⟨rfl, -⟩
    · exact ih (h.tail.imp_right fun h => ⟨h, rfl⟩)
    · exact absurd (hw c rfl).2 (by simp [hc])
  | case5 => exact h

theorem Reaches.body (hw : FlushLeft w) {folded : Bool} {ending : Ending} {indent : Nat} (hindent : 1 ≤ indent)
    {fuel : Nat} {joint last : Text} {blank : Blank} (h : Reaches w blank.column blank.rest) :
    w <:+ (body folded ending indent fuel joint last blank).2 := by
  have hend : ∀ {blank : Blank}, Reaches w blank.column blank.rest → w <:+ blank.rest := by
    rintro blank (h | ⟨h, -⟩)
    · exact h.suffix
    · rw [h]
  induction fuel generalizing joint last blank with
  | zero => exact hend h
  | succ fuel ih =>
    unfold Block.body
    simp only
    by_cases hline : blank.column = indent ∧ blank.rest ≠ []
    · -- a line of the block is indented, so it is another one
      have hbefore : Before w blank.rest := h.resolve_right fun h => by omega
      rw [if_pos hline]
      exact ih (Reaches.blankLines hw (hbefore.skipLine.afterBreak.imp_right fun h => ⟨h, rfl⟩))
    · rw [if_neg hline]
      exact hend h

/-- a block scalar ends before a line that is not indented -/
theorem read?_before (hw : FlushLeft w) (h : Before w t) {folded : Bool} {parent : Int} {r : Text × Text}
    (hr : read? folded parent t = some r) : w <:+ r.2 := by
  unfold Block.read? at hr
  split at hr
  · simp at hr
  · rename_i header rest hheader
    obtain ⟨⟨signs, rfl, hsigns⟩, hdigit⟩ := header?_signs hheader
    have hrest := h.of_append hsigns
    split_ifs at hr
    split at hr
    · simp at hr
    · rename_i next hnext
      have hreaches : Reaches w 0 next := (hrest.skipIgnored? hnext).imp_right fun h => ⟨h, rfl⟩
      have hleast : 1 ≤ (max 1 (parent + 1)).toNat := by omega
      rw [← Option.some.inj hr]
      split
      · rename_i n hn
        have := hdigit n hn
        exact Reaches.body hw (by simp only; omega) (Reaches.blankLines hw hreaches)
      · exact Reaches.body hw (le_max_of_le_left hleast) (Reaches.blankLines hw hreaches)

end

end Block

end Componentry.Yaml
