/-
Where a match can end, pattern by pattern.

A cursor that has read a piece of its text is `k.after piece rest`. Every lemma `mem_ends_*` says which pieces a pattern
reads, so that what a whole pattern matches follows by composition. Whether lines count matters only to patterns with a
line start or a line end (`occurrences_of_ignoresLines`).
-/
import Mathlib.Tactic
import Componentry.Pattern.Matching

namespace Componentry

namespace Cursor

/-- the cursor after a piece of its text, before what is left -/
def after (k : Cursor) (piece rest : Text) : Cursor := ⟨piece.getLast?.or k.before, rest, k.kept⟩

@[simp] theorem after_rest (k : Cursor) (piece rest : Text) : (k.after piece rest).rest = rest := rfl

@[simp] theorem after_kept (k : Cursor) (piece rest : Text) : (k.after piece rest).kept = k.kept := rfl

@[simp] theorem after_before (k : Cursor) (piece rest : Text) :
    (k.after piece rest).before = piece.getLast?.or k.before := rfl

theorem after_nil (k : Cursor) : k.after [] k.rest = k := rfl

theorem after_after (k : Cursor) (piece more mid rest : Text) :
    (k.after piece mid).after more rest = k.after (piece ++ more) rest := by
  simp only [after, List.getLast?_append, Option.or_assoc]

theorem after_cons (k : Cursor) (c : Char) (piece rest : Text) :
    k.after (c :: piece) rest = (k.after [c] (piece ++ rest)).after piece rest := by
  rw [after_after]
  rfl

/-- a text that follows is read whole -/
theorem past_eq_some {k e : Cursor} {t : Text} : k.past t = some e ↔ ∃ rest, k.rest = t ++ rest ∧ e = k.after t rest := by
  induction t generalizing k with
  | nil =>
    simp only [past, Option.some.injEq, List.nil_append]
    constructor
    · rintro rfl
      exact ⟨_, rfl, rfl⟩
    · rintro ⟨rest, hr, rfl⟩
      rw [← hr, after_nil]
  | cons c t ih =>
    cases hk : k.rest with
    | nil => simp [past, hk]
    | cons d rest =>
      by_cases hcd : c = d
      · subst hcd
        have hnext : k.past (c :: t) = (k.after [c] rest).past t := by simp [past, hk, after]
        rw [hnext, ih]
        simp only [after_rest, List.cons_append, List.cons.injEq, true_and]
        constructor
        · rintro ⟨rest', rfl, rfl⟩
          exact ⟨rest', rfl, (after_cons k c t rest').symm⟩
        · rintro ⟨rest', rfl, rfl⟩
          exact ⟨rest', rfl, after_cons k c t rest'⟩
      · have hnone : k.past (c :: t) = none := by simp [past, hk, hcd]
        simp [hnone, Ne.symm hcd]

theorem getLast?_cons_or (c : Char) (piece : Text) (o : Option Char) :
    (c :: piece).getLast?.or o = piece.getLast?.or (some c) := by
  rw [List.getLast?_cons]
  cases piece.getLast? <;> rfl

/-- a run reads any number of characters of its set -/
theorem mem_run {s : CharSet} {before : Option Char} {kept : List (Group × Text)} {text : Text} {e : Cursor} :
    e ∈ run s before kept text ↔
      ∃ piece rest, text = piece ++ rest ∧ (∀ c ∈ piece, s.has c = true) ∧ e = ⟨piece.getLast?.or before, rest, kept⟩ := by
  induction text generalizing before with
  | nil =>
    simp only [run, List.mem_singleton]
    constructor
    · rintro rfl
      exact ⟨[], [], rfl, by simp, rfl⟩
    · rintro ⟨piece, rest, h, -, rfl⟩
      obtain ⟨rfl, rfl⟩ := List.append_eq_nil_iff.1 h.symm
      rfl
  | cons c text ih =>
    simp only [run, List.mem_cons]
    constructor
    · rintro (rfl | h)
      · exact ⟨[], c :: text, rfl, by simp, rfl⟩
      · split_ifs at h with hc
        · obtain ⟨piece, rest, rfl, hall, rfl⟩ := ih.1 h
          exact ⟨c :: piece, rest, rfl, by simpa [hc] using hall, by rw [getLast?_cons_or]⟩
        · simp at h
    · rintro ⟨piece, rest, h, hall, rfl⟩
      cases piece with
      | nil => exact Or.inl (by simp_all)
      | cons d piece =>
        obtain ⟨rfl, rfl⟩ := List.cons.inj h
        refine Or.inr ?_
        rw [if_pos (hall c List.mem_cons_self), ih]
        exact ⟨piece, rest, rfl, fun x hx => hall x (List.mem_cons_of_mem _ hx), by rw [getLast?_cons_or]⟩

/-- all cursors of a run but the first have read something -/
theorem mem_tail_run {s : CharSet} {before : Option Char} {kept : List (Group × Text)} {text : Text} {e : Cursor} :
    e ∈ (run s before kept text).tail ↔ ∃ piece rest, text = piece ++ rest ∧ (∀ c ∈ piece, s.has c = true) ∧
      piece ≠ [] ∧ e = ⟨piece.getLast?.or before, rest, kept⟩ := by
  cases text with
  | nil =>
    simp only [run, List.tail_cons, List.not_mem_nil, false_iff]
    rintro ⟨piece, rest, h, -, hne, -⟩
    exact hne (List.append_eq_nil_iff.1 h.symm).1
  | cons c text =>
    simp only [run, List.tail_cons]
    constructor
    · intro h
      split_ifs at h with hc
      · obtain ⟨piece, rest, rfl, hall, rfl⟩ := mem_run.1 h
        exact ⟨c :: piece, rest, rfl, by simpa [hc] using hall, by simp, by rw [getLast?_cons_or]⟩
      · simp at h
    · rintro ⟨piece, rest, h, hall, hne, rfl⟩
      cases piece with
      | nil => exact absurd rfl hne
      | cons d piece =>
        obtain ⟨rfl, rfl⟩ := List.cons.inj h
        rw [if_pos (hall c List.mem_cons_self), mem_run]
        exact ⟨piece, rest, rfl, fun x hx => hall x (List.mem_cons_of_mem _ hx), by rw [getLast?_cons_or]⟩

theorem upTo_after (k : Cursor) {piece rest : Text} (h : k.rest = piece ++ rest) : k.upTo (k.after piece rest) = piece := by
  simp [upTo, h]

end Cursor

namespace Pattern

variable {byLine : Bool} {k e : Cursor}

attribute [local simp] ends

theorem mem_ends_andThen {p q : Pattern} : e ∈ (p ++ q).ends byLine k ↔ ∃ m ∈ p.ends byLine k, e ∈ q.ends byLine m :=
  List.mem_flatMap

theorem mem_ends_text {t : Text} :
    e ∈ (Pattern.text t).ends byLine k ↔ ∃ rest, k.rest = t ++ rest ∧ e = k.after t rest := by
  rw [← Cursor.past_eq_some]
  simp [Option.mem_toList]

theorem mem_ends_set {s : CharSet} :
    e ∈ (Pattern.set s).ends byLine k ↔ ∃ c rest, k.rest = c :: rest ∧ s.has c = true ∧ e = k.after [c] rest := by
  cases hk : k.rest with
  | nil => simp [hk]
  | cons c rest =>
    have hends : (Pattern.set s).ends byLine k = if s.has c then [⟨some c, rest, k.kept⟩] else [] := by
      simp only [ends, hk]
    rw [hends]
    constructor
    · intro h
      split_ifs at h with hc
      · exact ⟨c, rest, rfl, hc, List.mem_singleton.1 h⟩
      · simp at h
    · rintro ⟨d, rest', h, hd, rfl⟩
      obtain ⟨rfl, rfl⟩ := List.cons.inj h
      rw [if_pos hd]
      exact List.mem_singleton.2 rfl

theorem mem_ends_many {s : CharSet} {oneAtLeast greedy : Bool} :
    e ∈ (Pattern.many s oneAtLeast greedy).ends byLine k ↔ ∃ piece rest, k.rest = piece ++ rest ∧
      (∀ c ∈ piece, s.has c = true) ∧ (oneAtLeast = true → piece ≠ []) ∧ e = k.after piece rest := by
  cases oneAtLeast with
  | false =>
    have hmem : e ∈ (Pattern.many s false greedy).ends byLine k ↔ e ∈ Cursor.run s k.before k.kept k.rest := by
      cases greedy <;> simp
    rw [hmem, Cursor.mem_run]
    simp [Cursor.after]
  | true =>
    have hmem : e ∈ (Pattern.many s true greedy).ends byLine k ↔ e ∈ (Cursor.run s k.before k.kept k.rest).tail := by
      cases greedy <;> simp
    rw [hmem, Cursor.mem_tail_run]
    simp [Cursor.after]

theorem mem_ends_option {p : Pattern} : e ∈ (Pattern.option p).ends byLine k ↔ e ∈ p.ends byLine k ∨ e = k := by
  simp

theorem mem_ends_kept {g : Group} {p : Pattern} : e ∈ (Pattern.kept g p).ends byLine k ↔
    ∃ m ∈ p.ends byLine k, e = ⟨m.before, m.rest, (g, k.upTo m) :: m.kept⟩ := by
  simp [eq_comm]

theorem mem_ends_again {g : Group} : e ∈ (Pattern.again g).ends byLine k ↔
    ∃ t, k.part? g = some t ∧ ∃ rest, k.rest = t ++ rest ∧ e = k.after t rest := by
  cases hp : k.part? g with
  | none => simp [hp]
  | some t =>
    simp only [ends, hp, Option.elim, Option.mem_toList, Cursor.past_eq_some, Option.some.injEq]
    exact ⟨fun h => ⟨t, rfl, h⟩, fun ⟨_, ht, h⟩ => ht ▸ h⟩

theorem mem_ends_wordEdge : e ∈ Pattern.wordEdge.ends byLine k ↔ k.atWordEdge = true ∧ e = k := by
  simp only [ends]
  split_ifs with h <;> simp [h]

theorem mem_ends_lineStart : e ∈ Pattern.lineStart.ends byLine k ↔ k.atLineStart byLine = true ∧ e = k := by
  simp only [ends]
  split_ifs with h <;> simp [h]

theorem mem_ends_lineEnd : e ∈ Pattern.lineEnd.ends byLine k ↔ k.atLineEnd byLine = true ∧ e = k := by
  simp only [ends]
  split_ifs with h <;> simp [h]

theorem mem_ends_ahead {p : Pattern} :
    e ∈ (Pattern.ahead p).ends byLine k ↔ (∃ m, m ∈ p.ends byLine k) ∧ e = k := by
  simp only [ends]
  cases hp : p.ends byLine k with
  | nil => simp
  | cons m more => exact ⟨fun h => ⟨⟨m, List.mem_cons_self⟩, by simpa using h⟩, fun h => by simp [h.2]⟩

/-! ## Patterns that do not look at lines -/

/-- whether no line start and no line end is in a pattern -/
def ignoresLines : Pattern → Bool
  | .lineStart | .lineEnd => false
  | .option p | .kept _ p | .ahead p => p.ignoresLines
  | .andThen p q => p.ignoresLines && q.ignoresLines
  | .text _ | .set _ | .many _ _ _ | .again _ | .wordEdge => true

theorem ends_of_ignoresLines {p : Pattern} (h : p.ignoresLines = true) (b b' : Bool) (k : Cursor) :
    p.ends b k = p.ends b' k := by
  induction p generalizing k with
  | text | set | many | again | wordEdge => rfl
  | lineStart | lineEnd => simp [ignoresLines] at h
  | option p ih | kept g p ih | ahead p ih => simp only [ends, ih h]
  | andThen p q ihp ihq =>
    simp only [ignoresLines, Bool.and_eq_true] at h
    simp only [ends, ihp h.1, funext fun m => ihq h.2 m]

theorem here_of_ignoresLines {p : Pattern} (h : p.ignoresLines = true) (b b' : Bool) (k : Cursor) (position : Nat) :
    p.here b k position = p.here b' k position := by
  simp only [here, ends_of_ignoresLines h b b' k]

theorem scan_of_ignoresLines {p : Pattern} (h : p.ignoresLines = true) (b b' : Bool) (before : Option Char)
    (position skip : Nat) (t : Text) : p.scan b before position skip t = p.scan b' before position skip t := by
  induction t generalizing before position skip with
  | nil => exact here_of_ignoresLines h b b' _ _
  | cons c rest ih =>
    cases skip with
    | zero => simp only [scan, here_of_ignoresLines h b b', ih]
    | succ skip => exact ih _ _ _

/-- such a pattern has the same matches whether lines count or not -/
theorem occurrences_of_ignoresLines {p : Pattern} (h : p.ignoresLines = true) (b b' : Bool) (t : Text) :
    p.occurrences b t = p.occurrences b' t :=
  scan_of_ignoresLines h b b' none 0 0 t

end Pattern

end Componentry
