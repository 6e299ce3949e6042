/-
What the pattern of an import statement matches, as a text.

- `mem_ends_importStatement`: a match starts and ends a line, and keeps the source that stands between its quotes.
- `IsImport.unique`: from one place at most one text is matched.
- `IsImport.sourceOf?`: the source of a statement that stands alone is the one its match keeps.
-/
import Componentry.Proofs.Pattern.Heads
import Componentry.Proofs.Pattern.Scanning
import Componentry.Proofs.Slug
import Componentry.Proofs.Text.Pieces

namespace Componentry.Index

open Text

/-! ## Quoted parts -/

/-- the two kinds of quotes -/
def IsQuote (c : Char) : Prop := c = '\'' ∨ c = '"'

theorem mem_ends_kept_set {g : Group} {c : CharSet} {b : Bool} {k e : Cursor} :
    e ∈ (Pattern.kept g (.set c)).ends b k ↔
      ∃ x rest, k.rest = x :: rest ∧ c.has x = true ∧ e = ⟨some x, rest, (g, [x]) :: k.kept⟩ := by
  simp only [Pattern.mem_ends_kept, Pattern.mem_ends_set]
  constructor
  · rintro ⟨m, ⟨x, rest, h, hx, rfl⟩, rfl⟩
    exact ⟨x, rest, h, hx, by rw [Cursor.upTo_after k h]; rfl⟩
  · rintro ⟨x, rest, h, hx, rfl⟩
    exact ⟨_, ⟨x, rest, h, hx, rfl⟩, by rw [Cursor.upTo_after k h]; rfl⟩

theorem mem_ends_kept_many {g : Group} {c : CharSet} {b : Bool} {k e : Cursor} :
    e ∈ (Pattern.kept g (.many c true true)).ends b k ↔ ∃ piece rest, k.rest = piece ++ rest ∧
      (∀ x ∈ piece, c.has x = true) ∧ piece ≠ [] ∧ e = ⟨piece.getLast?.or k.before, rest, (g, piece) :: k.kept⟩ := by
  simp only [Pattern.mem_ends_kept, Pattern.mem_ends_many]
  constructor
  · rintro ⟨m, ⟨piece, rest, h, hx, hne, rfl⟩, rfl⟩
    exact ⟨piece, rest, h, hx, hne trivial, by rw [Cursor.upTo_after k h]; rfl⟩
  · rintro ⟨piece, rest, h, hx, hne, rfl⟩
    exact ⟨_, ⟨piece, rest, h, hx, fun _ => hne, rfl⟩, by rw [Cursor.upTo_after k h]; rfl⟩

theorem mem_ends_quotedPart {g : Group} (hg : g ≠ .quote) {inside : CharSet} {b : Bool} {k e : Cursor} :
    e ∈ (Pattern.quotedPart g inside).ends b k ↔ ∃ q part rest, k.rest = q :: part ++ q :: rest ∧ IsQuote q ∧
      part ≠ [] ∧ (∀ c ∈ part, inside.has c = true) ∧ e = ⟨some q, rest, (g, part) :: (.quote, [q]) :: k.kept⟩ := by
  have hlook : ∀ part q, ((g, part) :: (Group.quote, [q]) :: k.kept).lookup .quote = some [q] := by
    intro part q
    cases g with
    | quote => exact absurd rfl hg
    | source => rfl
    | key => rfl
  simp only [Pattern.quotedPart, Pattern.mem_ends_andThen, mem_ends_kept_set, mem_ends_kept_many,
    Pattern.mem_ends_again]
  constructor
  · rintro ⟨m2, ⟨m1, ⟨q, r1, h1, hq, rfl⟩, part, r2, h2, hpart, hne, rfl⟩, t, ht, r3, h3, rfl⟩
    simp only [Cursor.part?, hlook, Option.some.injEq] at ht
    subst ht
    simp only at h2 h3
    refine ⟨q, part, r3, by rw [h1, h2, h3]; simp, ?_, hne, hpart, rfl⟩
    simpa [CharSet.has, IsQuote] using hq
  · rintro ⟨q, part, rest, h, hq, hne, hpart, rfl⟩
    refine ⟨_, ⟨_, ⟨q, part ++ q :: rest, h, ?_, rfl⟩, part, q :: rest, rfl, hpart, hne, rfl⟩, [q], hlook part q, rest, rfl,
      rfl⟩
    simpa [CharSet.has, IsQuote] using hq

/-! ## Import statements -/

/-- what stands between `import` with its blanks and the source: nothing, or what is imported and `from` -/
def IsClause (s mid : Text) : Prop :=
  mid = [] ∨ ∃ w s', mid = w ++ ['f', 'r', 'o', 'm'] ++ s' ∧ (∀ c ∈ w, c ≠ ';' ∧ ¬IsQuote c) ∧
    (s ++ w).getLast?.any isWordChar = false ∧ Blanks s'

/-- an import statement with its quote and its source -/
def IsImport (m : Text) (q : Char) (source : Text) : Prop :=
  ∃ s mid semi bl, m = ['i', 'm', 'p', 'o', 'r', 't'] ++ s ++ mid ++ q :: source ++ q :: semi ++ bl ∧ s ≠ [] ∧
    Blanks s ∧ IsClause s mid ∧ IsQuote q ∧ source ≠ [] ∧
    (∀ c ∈ source, ¬IsQuote c ∧ c ≠ '\r' ∧ c ≠ '\n') ∧ (semi = [] ∨ semi = [';']) ∧ ∀ c ∈ bl, c = ' ' ∨ c = '\t'

/-- a text that goes on with the end of a line -/
def EndsLine (t : Text) : Prop := ∃ r, (t = r ∨ t = '\r' :: r) ∧ (r = [] ∨ r.head? = some '\n')

theorem atLineEnd_iff {k : Cursor} : k.atLineEnd true = true ↔ k.rest = [] ∨ k.rest.head? = some '\n' := by
  unfold Cursor.atLineEnd
  cases hk : k.rest <;> simp

/-- the pattern of what is imported -/
def clause : Pattern :=
  .option (.many (.noneOf [';', '\'', '"']) false false ++ Pattern.wordEdge ++ Pattern.text "from".toList ++
    Pattern.many .blank false true)

/-- the pattern of the end of a line -/
def lineEnding : Pattern := .option (.set (.only '\r')) ++ Pattern.lineEnd

theorem importStatement_eq : Pattern.importStatement = Pattern.lineStart ++ Pattern.text "import".toList ++
    Pattern.many .blank true true ++ clause ++ Pattern.quotedPart .source (.noneOf ['\'', '"', '\r', '\n']) ++
    Pattern.option (.text [';']) ++ Pattern.many (.oneOf false [' ', '\t']) false true ++
    Pattern.ahead lineEnding := rfl

theorem mem_ends_lineEnding {k : Cursor} : (∃ e, e ∈ lineEnding.ends true k) ↔ EndsLine k.rest := by
  simp only [lineEnding, Pattern.mem_ends_andThen, Pattern.mem_ends_option, Pattern.mem_ends_set,
    Pattern.mem_ends_lineEnd, atLineEnd_iff]
  constructor
  · rintro ⟨e, m, ⟨c, rest, h, hc, rfl⟩ | rfl, hend, rfl⟩
    · simp only [CharSet.has, decide_eq_true_eq] at hc
      subst hc
      exact ⟨rest, Or.inr h, hend⟩
    · exact ⟨_, Or.inl rfl, hend⟩
  · rintro ⟨r, h | h, hend⟩
    · exact ⟨k, k, Or.inr rfl, by rwa [h], rfl⟩
    · exact ⟨k.after ['\r'] r, k.after ['\r'] r, Or.inl ⟨'\r', r, h, by decide, rfl⟩, hend, rfl⟩

theorem mem_ends_clause {k e : Cursor} : e ∈ clause.ends true k ↔
    ∃ mid rest, k.rest = mid ++ rest ∧ e = k.after mid rest ∧ (mid = [] ∨ ∃ w s', mid = w ++ ['f', 'r', 'o', 'm'] ++ s' ∧
      (∀ c ∈ w, c ≠ ';' ∧ ¬IsQuote c) ∧ (w.getLast?.or k.before).any isWordChar = false ∧ Blanks s') := by
  have hset : ∀ c, (CharSet.noneOf [';', '\'', '"']).has c = true ↔ c ≠ ';' ∧ ¬IsQuote c := by
    simp [CharSet.has, IsQuote]
  simp only [clause, Pattern.mem_ends_option, Pattern.mem_ends_andThen, Pattern.mem_ends_wordEdge,
    Pattern.mem_ends_text, Pattern.mem_ends_many, hset]
  constructor
  · rintro (⟨m3, ⟨m2, ⟨m1, ⟨w, r1, h1, hw, -, rfl⟩, hedge, rfl⟩, r2, h2, rfl⟩, s', rest, h3, hs', -, rfl⟩ | rfl)
    · simp only [Cursor.after_rest] at h2 h3
      rw [Cursor.atWordEdge_before (c := 'f') h2 (by decide)] at hedge
      subst h3 h2
      exact ⟨w ++ ['f', 'r', 'o', 'm'] ++ s', rest, by simp [h1], by simp [Cursor.after_after],
        Or.inr ⟨w, s', rfl, hw, hedge, hs'⟩⟩
    · exact ⟨[], _, rfl, rfl, Or.inl rfl⟩
  · rintro ⟨mid, rest, h, rfl, rfl | ⟨w, s', rfl, hw, hedge, hs'⟩⟩
    · rw [List.nil_append] at h
      exact Or.inr (by rw [← h, Cursor.after_nil])
    · have h1 : k.rest = w ++ ("from".toList ++ (s' ++ rest)) := by
        rw [h]
        simp
      refine Or.inl ⟨_, ⟨_, ⟨_, ⟨w, _, h1, hw, by simp, rfl⟩, ?_, rfl⟩, _, rfl, rfl⟩, s', rest, rfl, hs', by simp, ?_⟩
      · rwa [Cursor.atWordEdge_before (c := 'f') rfl (by decide)]
      · simp [Cursor.after_after]

/-- a match of an import starts and ends a line, and keeps its source -/
theorem mem_ends_importStatement {k e : Cursor} : e ∈ Pattern.importStatement.ends true k ↔
    ∃ m q source rest, k.rest = m ++ rest ∧ IsImport m q source ∧ (k.before = none ∨ k.before = some '\n') ∧
      EndsLine rest ∧ e = ⟨m.getLast?.or k.before, rest, (.source, source) :: (.quote, [q]) :: k.kept⟩ := by
  have hstart : k.atLineStart true = true ↔ k.before = none ∨ k.before = some '\n' := by
    unfold Cursor.atLineStart
    cases k.before <;> simp
  have hinside : ∀ c, (CharSet.noneOf ['\'', '"', '\r', '\n']).has c = true ↔ ¬IsQuote c ∧ c ≠ '\r' ∧ c ≠ '\n' := by
    simp [CharSet.has, IsQuote, and_assoc]
  have htab : ∀ c, (CharSet.oneOf false [' ', '\t']).has c = true ↔ c = ' ' ∨ c = '\t' := by
    simp [CharSet.has]
  have hedge : ∀ (a b : Text) (o : Option Char), a ≠ [] → b.getLast?.or (a.getLast?.or o) = (a ++ b).getLast? := by
    intro a b o ha
    rw [List.getLast?_append]
    cases b.getLast? with
    | some c => rfl
    | none => simp [List.getLast?_eq_some_getLast ha]
  have hlast : ∀ (a semi bl : Text) (q : Char) (o : Option Char),
      (a ++ q :: semi ++ bl).getLast?.or o = bl.getLast?.or (semi.getLast?.or (some q)) := by
    intro a semi bl q o
    rw [List.getLast?_append, List.getLast?_append, Option.or_assoc, Option.or_assoc, Cursor.getLast?_cons_or]
  rw [importStatement_eq]
  simp only [Pattern.mem_ends_andThen, Pattern.mem_ends_ahead, mem_ends_lineEnding, mem_ends_clause,
    mem_ends_quotedPart (g := .source) (by decide), Pattern.mem_ends_lineStart, Pattern.mem_ends_many,
    Pattern.mem_ends_text, Pattern.mem_ends_option, hstart, hinside, htab]
  constructor
  · rintro ⟨m6, ⟨m5, ⟨m4, ⟨m3, ⟨m2, ⟨m1, ⟨k, ⟨hline, rfl⟩, r1, h1, rfl⟩, s, r2, h2, hs, hne, rfl⟩, mid, r3, h3, rfl,
      hmid⟩, q, source, r4, h4, hq, hsne, hsource, rfl⟩, hsemi⟩, bl, rest, h6, hbl, -, rfl⟩, hend, rfl⟩
    obtain ⟨semi, r5, hsemi', h5, rfl⟩ : ∃ semi r5, (semi = [] ∨ semi = [';']) ∧ r4 = semi ++ r5 ∧
        m5 = Cursor.after ⟨some q, r4, (.source, source) :: (.quote, [q]) :: k.kept⟩ semi r5 := by
      rcases hsemi with ⟨r5, h5, rfl⟩ | rfl
      · exact ⟨[';'], r5, Or.inr rfl, h5, rfl⟩
      · exact ⟨[], r4, Or.inl rfl, rfl, rfl⟩
    simp only [Cursor.after_rest] at h2 h3 h4 h6 hend
    simp only [Cursor.after_before, hedge s _ _ (hne trivial)] at hmid
    subst h6 h5 h4 h3 h2
    refine ⟨['i', 'm', 'p', 'o', 'r', 't'] ++ s ++ mid ++ q :: source ++ q :: semi ++ bl, q, source, rest, ?_,
      ⟨s, mid, semi, bl, rfl, hne trivial, hs, hmid, hq, hsne, hsource, hsemi', hbl⟩, hline, hend, ?_⟩
    · rw [h1]
      simp
    · rw [hlast]
      rfl
  · rintro ⟨m, q, source, rest, h, ⟨s, mid, semi, bl, rfl, hne, hs, hmid, hq, hsne, hsource, hsemi, hbl⟩, hline, hend,
      rfl⟩
    have h1 : k.rest = "import".toList ++ (s ++ (mid ++ (q :: source ++ q :: (semi ++ (bl ++ rest))))) := by
      rw [h]
      simp
    refine ⟨_, ⟨Cursor.after ⟨some q, semi ++ (bl ++ rest), (.source, source) :: (.quote, [q]) :: k.kept⟩ semi (bl ++ rest),
      ⟨_, ⟨_, ⟨_, ⟨_, ⟨_, ⟨hline, rfl⟩, _, h1, rfl⟩, s, _, rfl, hs, fun _ => hne, rfl⟩, mid, _, rfl, rfl, ?_⟩,
      q, source, _, rfl, hq, hsne, hsource, rfl⟩, ?_⟩, bl, rest, rfl, hbl, by simp, rfl⟩, hend, ?_⟩
    · rw [Cursor.after_before]
      simp only [hedge s _ _ hne]
      exact hmid
    · rcases hsemi with rfl | rfl
      · exact Or.inr rfl
      · exact Or.inl ⟨bl ++ rest, rfl, rfl⟩
    · rw [hlast]
      rfl

/-! ## At most one match -/

theorem not_isQuote_of_isBlank {c : Char} (h : isBlank c = true) : ¬IsQuote c := by
  rintro (rfl | rfl) <;> revert h <;> decide

theorem EndsLine.head {t : Text} (h : EndsLine t) : t = [] ∨ t.head? = some '\n' ∨ t.head? = some '\r' := by
  obtain ⟨r, rfl | rfl, h⟩ := h
  · exact h.imp_right Or.inl
  · exact Or.inr (Or.inr rfl)

/-- before the source of an import there is no quote -/
theorem IsClause.no_quote {s mid : Text} (h : IsClause s mid) : ∀ c ∈ mid, ¬IsQuote c := by
  have hfrom : ∀ c ∈ ['f', 'r', 'o', 'm'], ¬IsQuote c := by simp [IsQuote]
  rcases h with rfl | ⟨w, s', rfl, hw, -, hs'⟩
  · simp
  · simp only [List.forall_mem_append]
    exact ⟨⟨fun c hc => (hw c hc).2, hfrom⟩, fun c hc => not_isQuote_of_isBlank (hs' c hc)⟩

theorem no_quote_start {s mid : Text} (hs : Blanks s) (hmid : IsClause s mid) :
    ∀ c ∈ ['i', 'm', 'p', 'o', 'r', 't'] ++ s ++ mid, ¬IsQuote c := by
  have himport : ∀ c ∈ ['i', 'm', 'p', 'o', 'r', 't'], ¬IsQuote c := by simp [IsQuote]
  simp only [List.forall_mem_append]
  exact ⟨⟨himport, fun c hc => not_isQuote_of_isBlank (hs c hc)⟩, hmid.no_quote⟩

/-- the semicolon and the blanks after a source, before the end of a line -/
theorem semi_unique {semi semi' bl bl' rest rest' : Text} (hsemi : semi = [] ∨ semi = [';'])
    (hsemi' : semi' = [] ∨ semi' = [';']) (hbl : ∀ c ∈ bl, c = ' ' ∨ c = '\t') (hbl' : ∀ c ∈ bl', c = ' ' ∨ c = '\t')
    (hrest : EndsLine rest) (hrest' : EndsLine rest') (h : semi ++ (bl ++ rest) = semi' ++ (bl' ++ rest')) :
    semi = semi' ∧ bl = bl' := by
  have hstop : ∀ {r : Text}, EndsLine r → ∀ c ∈ r.head?, ¬(c = ' ' ∨ c = '\t') ∧ c ≠ ';' := by
    intro r hr c hc
    rcases hr.head with rfl | hr | hr
    · simp at hc
    · obtain rfl : '\n' = c := by simpa [hr] using hc
      decide
    · obtain rfl : '\r' = c := by simpa [hr] using hc
      decide
  have hwhile : ∀ {b r : Text}, (∀ c ∈ b, c = ' ' ∨ c = '\t') → EndsLine r →
      (b ++ r).takeWhile (fun c => c = ' ' ∨ c = '\t') = b := by
    intro b r hb hr
    rw [List.takeWhile_append_of_pos (by simpa using hb)]
    cases r with
    | nil => simp
    | cons c r =>
      obtain ⟨hsp, htab⟩ := not_or.1 (hstop hr c rfl).1
      simp [hsp, htab]
  have hno : ∀ {b r x : Text}, (∀ c ∈ b, c = ' ' ∨ c = '\t') → EndsLine r → b ++ r ≠ ';' :: x := by
    intro b r x hb hr heq
    cases b with
    | nil => exact (hstop hr ';' (by rw [show r = ';' :: x from heq]; rfl)).2 rfl
    | cons c b =>
      obtain ⟨rfl, -⟩ := List.cons.inj heq
      have := hb ';' List.mem_cons_self
      simp at this
  rcases hsemi with rfl | rfl <;> rcases hsemi' with rfl | rfl
  · exact ⟨rfl, by rw [← hwhile hbl hrest, ← hwhile hbl' hrest']; exact congrArg _ h⟩
  · exact absurd (by simpa using h) (hno (b := bl) (x := bl' ++ rest') hbl hrest)
  · exact absurd (by simpa using h.symm) (hno (b := bl') (x := bl ++ rest) hbl' hrest')
  · have h := (List.cons.inj h).2
    exact ⟨rfl, by rw [← hwhile hbl hrest, ← hwhile hbl' hrest']; exact congrArg _ h⟩

/-- from one place at most one import is matched -/
theorem IsImport.unique {m m' rest rest' source source' : Text} {q q' : Char} (hm : IsImport m q source)
    (hm' : IsImport m' q' source') (hrest : EndsLine rest) (hrest' : EndsLine rest') (h : m ++ rest = m' ++ rest') :
    m = m' ∧ q = q' ∧ source = source' := by
  obtain ⟨s, mid, semi, bl, rfl, -, hs, hmid, hq, -, hsource, hsemi, hbl⟩ := hm
  obtain ⟨t, mid', semi', bl', rfl, -, ht, hmid', hq', -, hsource', hsemi', hbl'⟩ := hm'
  simp only [List.append_assoc, List.cons_append] at h
  have h1 : (['i', 'm', 'p', 'o', 'r', 't'] ++ s ++ mid) ++ q :: (source ++ q :: (semi ++ (bl ++ rest))) =
      (['i', 'm', 'p', 'o', 'r', 't'] ++ t ++ mid') ++ q' :: (source' ++ q' :: (semi' ++ (bl' ++ rest'))) := by
    simpa only [List.append_assoc, List.cons_append] using h
  obtain ⟨hpre, rfl, h2⟩ := append_cons_unique (no_quote_start hs hmid) hq (no_quote_start ht hmid') hq' h1
  obtain ⟨rfl, -, h3⟩ := append_cons_unique (fun c hc => (hsource c hc).1) hq (fun c hc => (hsource' c hc).1) hq h2
  obtain ⟨rfl, rfl⟩ := semi_unique hsemi hsemi' hbl hbl' hrest hrest' h3
  exact ⟨by rw [hpre], rfl, rfl⟩

theorem importStatement_advances : Pattern.importStatement.Advances true := by
  intro k e he
  obtain ⟨m, q, source, rest, h, ⟨s, mid, semi, bl, rfl, -⟩, -, -, rfl⟩ := mem_ends_importStatement.1 he
  have hlen := congrArg List.length h
  simp only [List.length_append, List.length_cons] at hlen
  change rest.length < k.rest.length
  omega

/-- the match of an import at its place -/
theorem here_import {before : Option Char} {m rest source : Text} {q : Char} (hm : IsImport m q source)
    (hline : before = none ∨ before = some '\n') (hend : EndsLine rest) (position : Nat) :
    Pattern.importStatement.here true ⟨before, m ++ rest, []⟩ position =
      [⟨position, position + m.length, [(.source, source), (.quote, [q])]⟩] := by
  have hmem := (mem_ends_importStatement (k := ⟨before, m ++ rest, []⟩)).2
    ⟨m, q, source, rest, rfl, hm, hline, hend, rfl⟩
  obtain ⟨e, more, he⟩ := List.exists_cons_of_ne_nil (List.ne_nil_of_mem hmem)
  obtain ⟨m', q', source', rest', h', hm', -, hend', rfl⟩ := mem_ends_importStatement.1
    (by rw [he]; exact List.mem_cons_self)
  obtain ⟨rfl, rfl, rfl⟩ := hm.unique hm' hend hend' h'
  obtain rfl := List.append_cancel_left h'
  rw [Pattern.here_some importStatement_advances he]
  simp [Pattern.found]

theorem ends_import_eq_nil {before : Option Char} {v : Text} :
    Pattern.importStatement.ends true ⟨before, v, []⟩ = [] ↔
      (before = none ∨ before = some '\n') → ∀ m q source rest, v = m ++ rest → IsImport m q source → ¬EndsLine rest := by
  rw [List.eq_nil_iff_forall_not_mem]
  constructor
  · intro h hline m q source rest hv hm hend
    exact h _ (mem_ends_importStatement.2 ⟨m, q, source, rest, hv, hm, hline, hend, rfl⟩)
  · intro h e he
    obtain ⟨m, q, source, rest, hv, hm, hline, hend, -⟩ := mem_ends_importStatement.1 he
    exact h hline m q source rest hv hm hend

/-! ## The source of a statement -/

/-- a statement's source stands in its last quotes -/
theorem ends_statementSource {b : Bool} {k e : Cursor} (h : e ∈ Pattern.statementSource.ends b k) :
    ∃ q part rest, k.rest = q :: part ++ q :: rest ∧ IsQuote q ∧ (∀ c ∈ part, ¬IsQuote c) ∧
      e.rest.length ≤ rest.length ∧ e.kept = (.source, part) :: (.quote, [q]) :: k.kept := by
  have hinside : ∀ c, (CharSet.noneOf ['\'', '"', '\r', '\n']).has c = true → ¬IsQuote c := by
    simp +contextual [CharSet.has, IsQuote]
  simp only [Pattern.statementSource, Pattern.mem_ends_andThen, mem_ends_quotedPart (g := .source) (by decide),
    Pattern.mem_ends_option, Pattern.mem_ends_text, Pattern.mem_ends_many, Pattern.mem_ends_lineEnd] at h
  obtain ⟨m3, ⟨m2, ⟨m1, ⟨q, part, rest, hk, hq, -, hpart, rfl⟩, hsemi⟩, bl, r, hr, -, -, rfl⟩, -, rfl⟩ := h
  refine ⟨q, part, rest, hk, hq, fun c hc => hinside c (hpart c hc), ?_, ?_⟩
  · have hlen := congrArg List.length hr
    rw [List.length_append] at hlen
    rcases hsemi with ⟨r2, h2, rfl⟩ | rfl
    · have hlen2 := congrArg List.length h2
      rw [List.length_append] at hlen2
      simp only [Cursor.after_rest] at hlen hlen2 ⊢
      omega
    · simp only [Cursor.after_rest] at hlen ⊢
      omega
  · rcases hsemi with ⟨r2, -, rfl⟩ | rfl <;> rfl

theorem statementSource_advances (b : Bool) : Pattern.statementSource.Advances b := by
  intro k e he
  obtain ⟨q, part, rest, hk, -, -, hlen, -⟩ := ends_statementSource he
  have := congrArg List.length hk
  simp only [List.length_append, List.length_cons] at this
  omega

/-- a source that stands in its quotes is kept -/
theorem kept_statementSource {q : Char} {source semi : Text} (hq : IsQuote q) (hne : source ≠ [])
    (hsource : ∀ c ∈ source, ¬IsQuote c ∧ c ≠ '\r' ∧ c ≠ '\n') (hsemi : semi = [] ∨ semi = [';'])
    (before : Option Char) :
    ∃ e more, Pattern.statementSource.ends false ⟨before, q :: source ++ q :: semi, []⟩ = e :: more ∧
      e.kept = [(.source, source), (.quote, [q])] := by
  have hinside : ∀ c ∈ source, (CharSet.noneOf ['\'', '"', '\r', '\n']).has c = true := fun c hc => by
    obtain ⟨hquote, hreturn, hfeed⟩ := hsource c hc
    obtain ⟨hsingle, hdouble⟩ := not_or.1 hquote
    simp [CharSet.has, hsingle, hdouble, hreturn, hfeed]
  have hmem : ∃ e, e ∈ Pattern.statementSource.ends false ⟨before, q :: source ++ q :: semi, []⟩ := by
    simp only [Pattern.statementSource, Pattern.mem_ends_andThen, mem_ends_quotedPart (g := .source) (by decide),
      Pattern.mem_ends_option, Pattern.mem_ends_text, Pattern.mem_ends_many, Pattern.mem_ends_lineEnd]
    rcases hsemi with rfl | rfl
    · exact ⟨_, _, ⟨_, ⟨_, ⟨q, source, [], rfl, hq, hne, hinside, rfl⟩, Or.inr rfl⟩, [], [], rfl, by simp, by simp, rfl⟩,
        rfl, rfl⟩
    · exact ⟨_, _, ⟨_, ⟨_, ⟨q, source, [';'], rfl, hq, hne, hinside, rfl⟩, Or.inl ⟨[], rfl, rfl⟩⟩, [], [], rfl, by simp,
        by simp, rfl⟩, rfl, rfl⟩
  obtain ⟨e, more, he⟩ := List.exists_cons_of_ne_nil (List.ne_nil_of_mem hmem.choose_spec)
  obtain ⟨q', part, rest, hk, hq', hpart, -, hkept⟩ := ends_statementSource (by rw [he]; exact List.mem_cons_self)
  obtain ⟨rfl, hk⟩ := List.cons.inj hk
  obtain ⟨rfl, -⟩ := append_cons_unique (fun c hc => (hsource c hc).1) hq hpart hq' hk
  exact ⟨e, more, he, hkept⟩

/-- **the source of an import statement that stands alone** -/
theorem IsImport.sourceOf? {m source : Text} {q : Char} (h : IsImport m q source) :
    Splice.sourceOf? m = some source := by
  obtain ⟨s, mid, semi, bl, rfl, -, hs, hmid, hq, hne, hsource, hsemi, hbl⟩ := h
  have hbefore := no_quote_start hs hmid
  set start := ['i', 'm', 'p', 'o', 'r', 't'] ++ s ++ mid with hstart
  have htrim : Text.trim (start ++ q :: source ++ q :: semi ++ bl) = start ++ (q :: source ++ q :: semi) := by
    have hblank : Blanks bl := fun c hc => by rcases hbl c hc with rfl | rfl <;> decide
    rw [trim_append_blanks hblank, List.append_assoc, trim_of_visible]
    · intro c hc
      rw [hstart] at hc
      obtain rfl : 'i' = c := by simpa using hc
      decide
    · intro c hc
      have hlast : c = q ∨ c = ';' := by
        rcases hsemi with rfl | rfl <;> simp [List.getLast?_append, List.getLast?_cons] at hc
        · exact Or.inl hc.symm
        · exact Or.inr hc.symm
      rcases hlast with rfl | rfl
      · exact Bool.eq_false_iff.2 fun hb => not_isQuote_of_isBlank hb hq
      · decide
  -- no match starts before the quotes
  have hnone : ∀ u v, start = u ++ v → v ≠ [] → Pattern.statementSource.ends false
      ⟨u.getLast?.or none, v ++ (q :: source ++ q :: semi), []⟩ = [] := by
    intro u v huv hv
    refine List.eq_nil_iff_forall_not_mem.2 fun e he => ?_
    obtain ⟨q', part, rest, hk, hq', -⟩ := ends_statementSource he
    obtain ⟨d, v, rfl⟩ := List.exists_cons_of_ne_nil hv
    obtain rfl : d = q' := (List.cons.inj hk).1
    exact hbefore d (by rw [huv]; simp) hq'
  obtain ⟨e, more, he, hkept⟩ := kept_statementSource hq hne hsource hsemi (start.getLast?.or none)
  rw [Splice.sourceOf?, htrim, Pattern.first?, Pattern.occurrences, Pattern.scan_append_none hnone]
  rw [List.cons_append] at he ⊢
  rw [Pattern.scan_some (statementSource_advances false) he]
  simp [Pattern.found, hkept, Occurrence.part?]

/-! ## The import of a component -/

/-- the source that a component is imported from -/
def sourceOf (c : Component) : Text := ['.', '/'] ++ c.slug

theorem importFragment_eq (c : Component) : Listing.importFragment c =
    (['i', 'm', 'p', 'o', 'r', 't', ' ', '\x7b', ' '] ++ c.pascalName ++ [' ', '\x7d', ' ', 'f', 'r', 'o', 'm', ' '] ++
      '\'' :: sourceOf c ++ ['\''] : Text) := by
  have hstart : "import \x7b ".toList = ['i', 'm', 'p', 'o', 'r', 't', ' ', '\x7b', ' '] := by decide
  have hend : " \x7d from './".toList = [' ', '\x7d', ' ', 'f', 'r', 'o', 'm', ' ', '\'', '.', '/'] := by decide
  unfold Listing.importFragment
  rw [hstart, hend]
  simp only [sourceOf, List.append_assoc, List.cons_append, List.nil_append]

section Component

variable {c : Component}

theorem isName_pascalName (h : Slug.IsName c.slug) : ∀ d ∈ c.pascalName, Slug.isNameChar d = true := h.pascal_eq.2

theorem isQuote_of_isNameChar {d : Char} (h : Slug.isNameChar d = true) : ¬IsQuote d := by
  rintro (rfl | rfl) <;> revert h <;> decide

theorem sourceOf_inside (h : Slug.IsName c.slug) : ∀ d ∈ sourceOf c, ¬IsQuote d ∧ isBlank d = false := by
  have hdot : ∀ d ∈ ['.', '/'], ¬IsQuote d ∧ isBlank d = false := by
    simp only [List.forall_mem_cons, IsQuote]
    decide
  refine List.forall_mem_append.2 ⟨hdot, fun d hd => ⟨?_, Slug.isBlank_of_isSlugChar (h.chars d hd)⟩⟩
  have hslug := h.chars d hd
  rintro (rfl | rfl) <;> revert hslug <;> decide

/-- before the source of the import there is no quote -/
theorem importFragment_start (h : Slug.IsName c.slug) :
    ∀ d ∈ ['i', 'm', 'p', 'o', 'r', 't', ' ', '\x7b', ' '] ++ c.pascalName ++
      [' ', '\x7d', ' ', 'f', 'r', 'o', 'm', ' '], ¬IsQuote d := by
  have hstart : ∀ d ∈ ['i', 'm', 'p', 'o', 'r', 't', ' ', '\x7b', ' '], ¬IsQuote d := by simp [IsQuote]
  have hend : ∀ d ∈ [' ', '\x7d', ' ', 'f', 'r', 'o', 'm', ' '], ¬IsQuote d := by simp [IsQuote]
  simp only [List.forall_mem_append]
  exact ⟨⟨hstart, fun d hd => isQuote_of_isNameChar (isName_pascalName h d hd)⟩, hend⟩

/-- the import of a component is an import statement -/
theorem isImport_importFragment (h : Slug.IsName c.slug) : IsImport (Listing.importFragment c) '\'' (sourceOf c) := by
  have hspace : ∀ d ∈ ['\x7b', ' '], d ≠ ';' ∧ ¬IsQuote d := by simp [IsQuote]
  have hclose : ∀ d ∈ [' ', '\x7d', ' '], d ≠ ';' ∧ ¬IsQuote d := by simp [IsQuote]
  refine ⟨[' '], ['\x7b', ' '] ++ c.pascalName ++ [' ', '\x7d', ' '] ++ ['f', 'r', 'o', 'm'] ++ [' '], [], [], ?_, by simp,
    by simp [Blanks]; decide, Or.inr ⟨['\x7b', ' '] ++ c.pascalName ++ [' ', '\x7d', ' '], [' '], rfl, ?_, ?_, ?_⟩,
    Or.inl rfl, by simp [sourceOf], fun d hd => ⟨(sourceOf_inside h d hd).1, ?_⟩, Or.inl rfl, by simp⟩
  · rw [importFragment_eq]
    simp
  · simp only [List.forall_mem_append]
    refine ⟨⟨hspace, fun d hd => ⟨?_, isQuote_of_isNameChar (isName_pascalName h d hd)⟩⟩, hclose⟩
    have hname := isName_pascalName h d hd
    rintro rfl
    exact absurd hname (by decide)
  · rw [← List.append_assoc, List.getLast?_append]
    change isWordChar ' ' = false
    decide
  · simp [Blanks]
    decide
  · have hb := (sourceOf_inside h d hd).2
    constructor <;> rintro rfl <;> exact absurd hb (by decide)

/-- the source of the import of a component -/
theorem sourceOf?_importFragment (h : Slug.IsName c.slug) :
    Splice.sourceOf? (Listing.importFragment c) = some (sourceOf c) := (isImport_importFragment h).sourceOf?

end Component

end Componentry.Index
