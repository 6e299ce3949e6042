/-
The imports of an index: they end before its lists, and stay the only ones when the lists grow.

- `Silent.refill`: no import starts in the lists, whatever is filled in.
- `occurrences_import_append`: what follows the last import does not change which imports are found.
- `occurrences_import_insert`: an import put in behind the last one is the only one found in addition.
-/
import Componentry.Proofs.Pattern.Statements
import Componentry.Proofs.Splice.Filling

namespace Componentry.Index

open Text

/-! ## No imports in the lists -/

/-- a text in which no line starts with an import -/
def Silent (v : Text) : Prop :=
  ∀ u m q source rest, v = u ++ '\n' :: (m ++ rest) → IsImport m q source → ¬EndsLine rest

theorem IsImport.starts {m source : Text} {q : Char} (h : IsImport m q source) : ∃ m', m = 'i' :: m' := by
  obtain ⟨s, mid, semi, bl, rfl, -⟩ := h
  exact ⟨_, rfl⟩

theorem mem_tail {semi bl : Text} (hsemi : semi = [] ∨ semi = [';']) (hbl : ∀ c ∈ bl, c = ' ' ∨ c = '\t') :
    ∀ c ∈ semi ++ bl, c = ';' ∨ c = ' ' ∨ c = '\t' := by
  refine List.forall_mem_append.2 ⟨fun c hc => ?_, fun c hc => Or.inr (hbl c hc)⟩
  rcases hsemi with rfl | rfl
  · simp at hc
  · exact Or.inl (List.mem_singleton.1 hc)

/-- behind its last quote an import has a semicolon and blanks at most -/
theorem IsImport.ends {m source : Text} {q : Char} (h : IsImport m q source) :
    ∃ l tail, m = l ++ q :: tail ∧ IsQuote q ∧ ∀ c ∈ tail, c = ';' ∨ c = ' ' ∨ c = '\t' := by
  obtain ⟨s, mid, semi, bl, rfl, -, -, -, hq, -, -, hsemi, hbl⟩ := h
  exact ⟨['i', 'm', 'p', 'o', 'r', 't'] ++ s ++ mid ++ q :: source, semi ++ bl, by simp, hq, mem_tail hsemi hbl⟩

theorem not_isJoint_of_tail {c : Char} (h : c = ';' ∨ c = ' ' ∨ c = '\t') : ¬IsJoint c := by
  rcases h with rfl | rfl | rfl <;> simp [IsJoint]

/-- whether a line ends is decided before a character that ends none -/
theorem EndsLine.append_of_ne {p q : Text} {c : Char} (h : EndsLine (p ++ c :: q)) (hn : c ≠ '\n') (hr : c ≠ '\r')
    (q' : Text) : EndsLine (p ++ q') := by
  cases p with
  | nil => rcases h.head with h | h | h <;> simp_all
  | cons x p =>
    obtain ⟨r, h | h, hend⟩ := h
    · subst h
      obtain rfl : x = '\n' := by simpa using hend
      exact ⟨_, Or.inl rfl, Or.inr rfl⟩
    · obtain ⟨rfl, rfl⟩ := List.cons.inj h
      refine ⟨p ++ q', Or.inr rfl, Or.inr ?_⟩
      cases p with
      | nil => simp [hn] at hend
      | cons x p => simpa using hend

theorem endsLine_newline (newline : Newline) (t : Text) : EndsLine (newline.text ++ t) := by
  cases newline with
  | lf => exact ⟨_, Or.inl rfl, Or.inr rfl⟩
  | crlf => exact ⟨_, Or.inr rfl, Or.inr rfl⟩

theorem getLast?_newline (newline : Newline) : newline.text.getLast? = some '\n' := by
  cases newline <;> rfl

theorem EndsLine.of_append {a b : Text} (h : EndsLine (a ++ b)) : EndsLine a := by
  cases a with
  | nil => exact ⟨[], Or.inl rfl, Or.inl rfl⟩
  | cons x a =>
    obtain ⟨r, h | h, hend⟩ := h
    · subst h
      obtain rfl : x = '\n' := by simpa using hend
      exact ⟨_, Or.inl rfl, Or.inr rfl⟩
    · obtain ⟨rfl, rfl⟩ := List.cons.inj h
      refine ⟨a, Or.inr rfl, ?_⟩
      cases a with
      | nil => exact Or.inl rfl
      | cons y a => exact Or.inr (by simpa using hend)

section Refill

variable {p z w y y1 y2 : Text}

theorem not_isQuote_of_isJoint {c : Char} (h : IsJoint c) : ¬IsQuote c := by
  rcases h with rfl | rfl | rfl <;> simp [IsQuote]

theorem ne_break_of_isJoint {c : Char} (h : IsJoint c) : c ≠ '\n' ∧ c ≠ '\r' := by
  rcases h with rfl | rfl | rfl <;> decide

/-- what a filling stands for has no sign that ends a clause or a source -/
theorem Refill.inside (hz : Refill z w y) : ∀ c ∈ w, c ≠ ';' ∧ ¬IsQuote c ∧ c ≠ '\r' ∧ c ≠ '\n' := by
  obtain ⟨⟨j, i, -, hj, -, ⟨rfl, -⟩ | ⟨b, rfl, hb⟩⟩, -⟩ := hz
  · simp
  · have hjoint := Refill.isJoint_facts hj
    refine List.forall_mem_cons.2 ⟨⟨hjoint.2.2.2.2.2.2.2, not_isQuote_of_isJoint hj, (ne_break_of_isJoint hj).2,
      (ne_break_of_isJoint hj).1⟩, fun c hc => ⟨?_, ?_, (hb c hc).2.2, (hb c hc).2.1⟩⟩
    · rintro rfl
      exact absurd (hb _ hc).1 (by decide)
    · exact not_isQuote_of_isBlank (hb c hc).1

theorem Inert.no_quote {i : Text} (hi : Inert i) {q : Char} (hq : IsQuote q) : q ∉ i := by
  rcases hq with rfl | rfl <;> exact hi.notMem (by decide) (by decide) (by decide)

theorem letters_not_joint :
    (∀ c ∈ ['i', 'm', 'p', 'o', 'r', 't'], ¬IsJoint c) ∧ ∀ c ∈ ['f', 'r', 'o', 'm'], ¬IsJoint c := by
  simp [IsJoint]

/-- a clause that has a filling in it also is one with what it stands for -/
theorem IsClause.refill {s mid b : Text} (hz : Refill z w (b ++ y2)) (hs : Blanks s) (hmid : IsClause s mid)
    (heq : p ++ (z ++ b) = ['i', 'm', 'p', 'o', 'r', 't'] ++ s ++ mid) :
    ∃ mid', p ++ (w ++ b) = ['i', 'm', 'p', 'o', 'r', 't'] ++ s ++ mid' ∧ IsClause s mid' := by
  obtain ⟨j, i, rfl, hj, hi, -⟩ := hz.filling
  have hblank := (Refill.isJoint_facts hj).1
  have hstart : j ∉ ['i', 'm', 'p', 'o', 'r', 't'] ++ s := by
    rw [List.mem_append, not_or]
    exact ⟨fun hm => letters_not_joint.1 j hm hj, fun hm => by simp [hs j hm] at hblank⟩
  rcases hmid with rfl | ⟨w0, s2, rfl, hw0, hedge, hs2⟩
  · rw [List.append_nil] at heq
    exact absurd (heq ▸ by simp) hstart
  · have hend : j ∉ ['f', 'r', 'o', 'm'] ++ s2 := by
      rw [List.mem_append, not_or]
      exact ⟨fun hm => letters_not_joint.2 j hm hj, fun hm => by simp [hs2 j hm] at hblank⟩
    obtain ⟨w1, w2, rfl, rfl, hq⟩ := cut_between (p := p) (q := i ++ b) (b := w0) (by simpa using heq) hstart hend
    -- the word that ends the clause starts behind the filling
    obtain ⟨w3, rfl, rfl⟩ : ∃ w3, w2 = i ++ w3 ∧ b = w3 ++ (['f', 'r', 'o', 'm'] ++ s2) := by
      rcases List.append_eq_append_iff.1 hq with ⟨w3, hw3, hb⟩ | ⟨i2, rfl, hb⟩
      · exact ⟨w3, hw3, hb⟩
      · cases i2 with
        | nil => exact ⟨[], by simp, by simpa using hb.symm⟩
        | cons c i2 =>
          obtain rfl : 'f' = c := (List.cons.inj hb).1
          obtain ⟨d, hd, hname⟩ := hi.inner w2 'f' i2 rfl (by decide)
          have hd' := Slug.isWordChar_of_isNameChar hname
          simp [List.getLast?_append, List.getLast?_cons, hd, hd'] at hedge
    obtain ⟨c, w3, rfl⟩ : ∃ c w3', w3 = c :: w3' := by
      refine List.exists_cons_of_ne_nil ?_
      rintro rfl
      exact absurd (show isWordChar 'f' = false from hz.head_rest) (by decide)
    refine ⟨w1 ++ w ++ c :: w3 ++ ['f', 'r', 'o', 'm'] ++ s2, by simp, Or.inr ⟨_, s2, rfl, ?_, ?_, hs2⟩⟩
    · simp only [List.forall_mem_append, List.forall_mem_cons] at hw0 ⊢
      exact ⟨⟨hw0.1, fun c hc => ⟨(hz.inside c hc).1, (hz.inside c hc).2.1⟩⟩, hw0.2.2.2⟩
    · simpa [List.getLast?_append, List.getLast?_cons] using hedge

theorem Closes.not_quote {q : Char} {t : Text} (h : Closes (q :: t)) : ¬IsQuote q := by
  obtain ⟨b, d, rest, heq, hb, hd⟩ := h
  cases b with
  | nil =>
    obtain rfl : q = d := (List.cons.inj heq).1
    rcases hd with rfl | rfl <;> simp [IsQuote]
  | cons c b =>
    obtain rfl : q = c := (List.cons.inj heq).1
    exact not_isQuote_of_isBlank (hb q List.mem_cons_self)

/-- an import that reads over a filling also reads over what it stands for -/
theorem IsImport.refill {q : Char} {source : Text} (h : IsImport (p ++ (z ++ y1)) q source) (hz : Refill z w (y1 ++ y2)) :
    ∃ source', IsImport (p ++ (w ++ y1)) q source' := by
  obtain ⟨s, mid, semi, bl, heq, hne, hs, hmid, hq, hsne, hsource, hsemi, hbl⟩ := h
  obtain ⟨j, i, hi', hj, hi, -⟩ := hz.filling
  have hjq : j ≠ q := fun e => not_isQuote_of_isJoint hj (e ▸ hq)
  have hzq : q ∉ z := by
    rw [hi', List.mem_cons, not_or]
    exact ⟨Ne.symm hjq, hi.no_quote hq⟩
  set tail := semi ++ bl with htail
  have heq' : p ++ (z ++ y1) = (['i', 'm', 'p', 'o', 'r', 't'] ++ s ++ mid) ++ (q :: (source ++ q :: tail)) := by
    rw [heq, htail]
    simp
  rcases List.append_eq_append_iff.1 heq' with ⟨a, ha, hrest⟩ | ⟨a, rfl, hrest⟩
  · -- the filling stands in the clause
    obtain ⟨b, rfl, rfl⟩ := cut_before hrest hzq
    obtain ⟨mid', hstart, hmid'⟩ := IsClause.refill (b := b) (by simpa using hz) hs hmid ha.symm
    refine ⟨source, s, mid', semi, bl, ?_, hne, hs, hmid', hq, hsne, hsource, hsemi, hbl⟩
    rw [← hstart, htail]
    simp
  · -- the filling stands in the source
    obtain ⟨a, rfl⟩ : ∃ a', a = q :: a' := by
      cases a with
      | nil =>
        rw [hi'] at hrest
        exact absurd (List.cons.inj hrest).1.symm hjq
      | cons c a => exact ⟨a, by rw [(List.cons.inj hrest).1]⟩
    have hjtail : j ∉ q :: tail := by
      rw [List.mem_cons, not_or]
      exact ⟨hjq, fun hm => not_isJoint_of_tail (mem_tail hsemi hbl j hm) hj⟩
    rw [hi'] at hrest
    obtain ⟨_, a2, rfl, rfl, hback⟩ := cut_between (p := a) (q := i ++ y1) (a := []) (b := source) (c := q :: tail)
      (by simpa using (List.cons.inj hrest).2.symm) (by simp) hjtail
    obtain ⟨a3, rfl, rfl⟩ := cut_before hback (hi.no_quote hq)
    obtain ⟨c, a3, rfl⟩ : ∃ c a3', a3 = c :: a3' := by
      refine List.exists_cons_of_ne_nil ?_
      rintro rfl
      exact Closes.not_quote (by simpa using hz.closes) hq
    refine ⟨a ++ w ++ c :: a3, s, mid, semi, bl, by simp [htail], hne, hs, hmid, hq, by simp, ?_, hsemi, hbl⟩
    simp only [List.forall_mem_append, List.forall_mem_cons] at hsource ⊢
    exact ⟨⟨hsource.1, fun c hc => (hz.inside c hc).2⟩, hsource.2.2.2⟩

/-- no import ends inside a filling -/
theorem IsImport.not_in_filling {p m2 z2 source : Text} {q : Char} (h : IsImport (p ++ m2) q source) (hne : m2 ≠ []) :
    ¬Refill (m2 ++ z2) w y := by
  rintro ⟨⟨j, i, hi', hj, hi, -⟩, -⟩
  obtain ⟨l, tail, heq, hq, htail⟩ := h.ends
  obtain ⟨c, m2, rfl⟩ := List.exists_cons_of_ne_nil hne
  obtain ⟨rfl, rfl⟩ := List.cons.inj hi'
  have hqm : q ∉ c :: m2 := by
    rw [List.mem_cons, not_or]
    exact ⟨fun e => not_isQuote_of_isJoint hj (e ▸ hq), fun hm => hi.no_quote hq (List.mem_append_left _ hm)⟩
  rcases List.append_eq_append_iff.1 heq with ⟨a, -, ha⟩ | ⟨a, -, ha⟩
  · exact hqm (by rw [ha]; simp)
  · cases a with
    | nil => exact hqm (by rw [← List.nil_append (c :: m2), ← ha]; simp)
    | cons x a =>
      have hin : c ∈ tail := by
        rw [(List.cons.inj ha).2]
        simp
      exact not_isJoint_of_tail (htail c hin) hj

/-- no import starts in a text with a filling, if none does with what it stands for -/
theorem Silent.refill (h : Silent (p ++ (w ++ y))) (hz : Refill z w y) : Silent (p ++ (z ++ y)) := by
  intro u m q source rest ht hm hend
  obtain ⟨j, i, hi', hj, hi, -⟩ := hz.filling
  have hjn : j ≠ '\n' := by
    rintro rfl
    exact absurd (Refill.isJoint_facts hj).1 (by decide)
  obtain ⟨m', hm'⟩ := hm.starts
  have hrest : ∀ v, y ≠ 'i' :: v := by
    rintro v rfl
    exact absurd (show isWordChar 'i' = false from hz.head_rest) (by decide)
  -- an import behind the filling
  have hbehind : ∀ a, y = a ++ '\n' :: (m ++ rest) → False := fun a ha =>
    h (p ++ w ++ a) m q source rest (by rw [ha]; simp) hm hend
  rcases List.append_eq_append_iff.1 ht with ⟨a, rfl, ha⟩ | ⟨a, rfl, ha⟩
  · rcases List.append_eq_append_iff.1 ha with ⟨a', -, ha'⟩ | ⟨z2, rfl, ha'⟩
    · exact hbehind a' ha'
    · cases z2 with
      | nil => exact hbehind [] ha'.symm
      | cons c z2 =>
        obtain ⟨rfl, htail⟩ := List.cons.inj ha'
        rw [hm'] at htail
        cases z2 with
        | nil => exact hrest (m' ++ rest) htail.symm
        | cons c z2 =>
          obtain rfl : 'i' = c := (List.cons.inj htail).1
          cases a with
          | nil => exact hjn (List.cons.inj hi').1.symm
          | cons x a =>
            obtain ⟨d, hd, hname⟩ := hi.inner (a ++ ['\n']) 'i' z2 (by rw [← (List.cons.inj hi').2]; simp) (by decide)
            obtain rfl : '\n' = d := by simpa using hd
            exact absurd hname (by decide)
  · cases a with
    | nil =>
      rw [hi'] at ha
      exact hjn (List.cons.inj ha).1.symm
    | cons c a =>
      obtain ⟨rfl, htail⟩ := List.cons.inj ha
      -- the filling stands behind the import, or in it
      have hafter : ∀ p5, a = m ++ p5 → rest = p5 ++ (z ++ y) → False := by
        rintro p5 rfl rfl
        rw [hi'] at hend
        exact h u m q source (p5 ++ (w ++ y)) (by simp) hm
          (EndsLine.append_of_ne hend (ne_break_of_isJoint hj).1 (ne_break_of_isJoint hj).2 _)
      rcases List.append_eq_append_iff.1 htail with ⟨p5, ha, hr⟩ | ⟨m2, rfl, hm2⟩
      · exact hafter p5 ha hr
      · by_cases hne : m2 = []
        · subst hne
          exact hafter [] (by simp) (by simpa using hm2.symm)
        · rcases List.append_eq_append_iff.1 hm2 with ⟨y1, rfl, rfl⟩ | ⟨z2, rfl, -⟩
          · obtain ⟨source', himp⟩ := hm.refill hz
            exact h u _ q source' rest (by simp) himp hend
          · exact hm.not_in_filling hne hz

end Refill

/-! ## The imports that are found -/

/-- before the first quote of an import there is none, and from there on no line ends -/
theorem IsImport.split {m source : Text} {q : Char} (h : IsImport m q source) :
    ∃ l r, m = l ++ q :: r ∧ (∀ c ∈ l, ¬IsQuote c) ∧ IsQuote q ∧ ∀ c ∈ q :: r, c ≠ '\n' ∧ c ≠ '\r' := by
  obtain ⟨s, mid, semi, bl, rfl, -, hs, hmid, hq, -, hsource, hsemi, hbl⟩ := h
  have hquote : q ≠ '\n' ∧ q ≠ '\r' := by rcases hq with rfl | rfl <;> decide
  refine ⟨['i', 'm', 'p', 'o', 'r', 't'] ++ s ++ mid, source ++ q :: (semi ++ bl), by simp, no_quote_start hs hmid, hq, ?_⟩
  simp only [List.forall_mem_cons, List.forall_mem_append]
  refine ⟨hquote, fun c hc => ⟨(hsource c hc).2.2, (hsource c hc).2.1⟩, hquote, fun c hc => ?_, fun c hc => ?_⟩
  · rcases mem_tail hsemi hbl c (List.mem_append_left _ hc) with rfl | rfl | rfl <;> decide
  · rcases hbl c hc with rfl | rfl <;> decide

section Append

variable {u0 m source v u V V' : Text} {q : Char}

/-- an import that starts in a text with an import at its end ends there -/
theorem IsImport.within (hm : IsImport m q source) (hu : u0 ++ m = u ++ v) (hne : v ≠ [])
    (hline : u.getLast? = none ∨ u.getLast? = some '\n') {m' rest source' : Text} {q' : Char} (hm' : IsImport m' q' source')
    (heq : v ++ V = m' ++ rest) (hV : EndsLine V) : ∃ v', v = m' ++ v' ∧ rest = v' ++ V := by
  obtain ⟨l, r, rfl, -, hq, hr⟩ := hm.split
  -- the last import's quotes stand in the text
  obtain ⟨a, rfl⟩ : ∃ a, v = a ++ q :: r := by
    rw [← List.append_assoc] at hu
    rcases List.append_eq_append_iff.1 hu with ⟨a, rfl, ha⟩ | ⟨a, -, ha⟩
    · rcases List.eq_nil_or_concat' a with rfl | ⟨a, c, rfl⟩
      · exact ⟨[], ha.symm⟩
      · have hc : c = '\n' := by
          rcases hline with h | h
          · simp at h
          · simpa [List.getLast?_append] using h
        exact absurd hc (hr c (by rw [ha]; simp)).1
    · exact ⟨a, ha⟩
  rcases List.append_eq_append_iff.1 heq with ⟨x, hx, rfl⟩ | ⟨v', hv', hrest⟩
  · -- otherwise a line ends in the import, before its first quote
    obtain ⟨l', r', hsplit, hl', -, hr'⟩ := hm'.split
    cases x with
    | nil => exact ⟨[], by simpa using hx.symm, rfl⟩
    | cons c x =>
      have hc : c = '\n' ∨ c = '\r' := by
        rcases hV.head with h | h | h
        · simp at h
        · exact Or.inl (by simpa using h)
        · exact Or.inr (by simpa using h)
      have hcr : c ∉ q' :: r' := fun hm => by
        rcases hc with rfl | rfl
        · exact (hr' _ hm).1 rfl
        · exact (hr' _ hm).2 rfl
      obtain ⟨b1, b2, rfl, hb1, -⟩ := cut_between (p := a ++ q :: r) (q := x) (a := []) (b := l') (c := q' :: r')
        (by rw [← hx, hsplit]; rfl) (by simp) hcr
      exact absurd hq (hl' q (by rw [← List.nil_append b1, ← hb1]; simp))
  · exact ⟨v', hv', hrest⟩

/-- the imports that start in a text with an import at its end are the same whatever line follows -/
theorem ends_within (hm : IsImport m q source) (hu : u0 ++ m = u ++ v) (hne : v ≠ []) (hV : EndsLine V)
    (hV' : EndsLine V') (hline : u.getLast? = none ∨ u.getLast? = some '\n') {m' rest source' : Text} {q' : Char}
    (hm' : IsImport m' q' source') (heq : v ++ V = m' ++ rest) (hend : EndsLine rest) :
    ∃ v', v = m' ++ v' ∧ EndsLine (v' ++ V) ∧ EndsLine (v' ++ V') := by
  obtain ⟨v', rfl, rfl⟩ := hm.within hu hne hline hm' heq hV
  refine ⟨v', rfl, hend, ?_⟩
  rcases List.eq_nil_or_concat' v' with rfl | ⟨v', c, rfl⟩
  · simpa using hV'
  · have hc : c ≠ '\n' ∧ c ≠ '\r' := by
      obtain ⟨l, r, rfl, -, -, hr⟩ := hm.split
      refine hr c (List.mem_of_getLast? ?_)
      have := congrArg List.getLast? hu
      rw [List.getLast?_append, List.getLast?_append] at this
      simpa [List.getLast?_append, List.getLast?_cons] using this
    simp only [List.append_assoc, List.singleton_append] at hend ⊢
    exact EndsLine.append_of_ne hend hc.1 hc.2 _

theorem here_import_congr (hm : IsImport m q source) (hu : u0 ++ m = u ++ v) (hne : v ≠ []) (hV : EndsLine V)
    (hV' : EndsLine V') (position : Nat) :
    Pattern.importStatement.here true ⟨u.getLast?, v ++ V, []⟩ position =
      Pattern.importStatement.here true ⟨u.getLast?, v ++ V', []⟩ position := by
  -- a match in one of the two texts ends in their common part
  have hsame : ∀ {V V'}, EndsLine V → EndsLine V' →
      Pattern.importStatement.ends true ⟨u.getLast?, v ++ V, []⟩ ≠ [] →
      Pattern.importStatement.here true ⟨u.getLast?, v ++ V, []⟩ position =
        Pattern.importStatement.here true ⟨u.getLast?, v ++ V', []⟩ position := by
    intro V V' hV hV' h
    obtain ⟨e, he⟩ := List.exists_mem_of_ne_nil _ h
    obtain ⟨m', q', source', rest, heq, hm', hline, hend, -⟩ := mem_ends_importStatement.1 he
    obtain ⟨v', rfl, hend, hend'⟩ := ends_within hm hu hne hV hV' hline hm' heq hend
    rw [List.append_assoc, List.append_assoc, here_import hm' hline hend, here_import hm' hline hend']
  by_cases h : Pattern.importStatement.ends true ⟨u.getLast?, v ++ V, []⟩ = []
  · by_cases h' : Pattern.importStatement.ends true ⟨u.getLast?, v ++ V', []⟩ = []
    · rw [Pattern.here_none h, Pattern.here_none h']
    · exact (hsame hV' hV h').symm
  · exact hsame hV hV' h

/-- what follows the last import does not change which imports are found before it -/
theorem occurrences_import_append (hm : IsImport m q source) (hV : EndsLine V) :
    Pattern.importStatement.occurrences true (u0 ++ m ++ V) = Pattern.importStatement.occurrences true (u0 ++ m) ++
      Pattern.importStatement.scan true (u0 ++ m).getLast? (u0 ++ m).length 0 V := by
  have hnil : EndsLine [] := ⟨[], Or.inl rfl, Or.inl rfl⟩
  refine Pattern.occurrences_append importStatement_advances fun u v hu hne position => ?_
  have hsame := here_import_congr hm hu hne hV hnil position
  rwa [List.append_nil] at hsame

/-- no import is found in what follows the last one -/
theorem scan_silent (u0 : Text) (hm : IsImport m q source) (hV : Silent V) (position : Nat) :
    Pattern.importStatement.scan true (u0 ++ m).getLast? position 0 V = [] := by
  rw [Pattern.scan_eq_nil_iff importStatement_advances]
  rintro u v rfl
  rw [ends_import_eq_nil]
  rintro hline m' q' source' rest rfl hm' hend
  rcases List.eq_nil_or_concat' u with rfl | ⟨u, c, rfl⟩
  · obtain ⟨l, r, rfl, -, -, hr⟩ := hm.split
    rcases hline with h | h
    · simp at h
    · have hlast : (q :: r).getLast? = some '\n' := by
        simpa [List.getLast?_append, List.getLast?_cons] using h
      exact (hr _ (List.mem_of_getLast? hlast)).1 rfl
  · obtain rfl : c = '\n' := by
      rcases hline with h | h
      · simp at h
      · simpa [List.getLast?_append] using h
    exact hV u m' q' source' rest (by simp) hm' hend

/-- the imports of a text are those up to the last one -/
theorem occurrences_silent (hm : IsImport m q source) (hV : EndsLine V) (hsil : Silent V) :
    Pattern.importStatement.occurrences true (u0 ++ m ++ V) = Pattern.importStatement.occurrences true (u0 ++ m) := by
  rw [occurrences_import_append hm hV, scan_silent u0 hm hsil, List.append_nil]

/-- an import on a line of its own behind the last one is found in addition -/
theorem occurrences_import_insert (hm : IsImport m q source) (newline : Newline) {n source' : Text} {q' : Char}
    (hn : IsImport n q' source') (hV : EndsLine V) (hsil : Silent V) :
    Pattern.importStatement.occurrences true (u0 ++ m ++ (newline.text ++ n ++ V)) =
      Pattern.importStatement.occurrences true (u0 ++ m) ++
        [⟨(u0 ++ m ++ newline.text).length, (u0 ++ m ++ newline.text ++ n).length,
          [(.source, source'), (.quote, [q'])]⟩] := by
  have hends : EndsLine (newline.text ++ n ++ V) := by
    rw [List.append_assoc]
    exact endsLine_newline newline _
  obtain ⟨n', hn'⟩ := hn.starts
  -- no import starts in the line ending
  have hnone : ∀ u v, newline.text = u ++ v → v ≠ [] →
      Pattern.importStatement.ends true ⟨u.getLast?.or (u0 ++ m).getLast?, v ++ (n ++ V), []⟩ = [] := by
    intro u v huv hv
    rw [ends_import_eq_nil]
    rintro - m' q'' source'' rest heq hm' -
    obtain ⟨m', rfl⟩ := hm'.starts
    obtain ⟨c, v, rfl⟩ := List.exists_cons_of_ne_nil hv
    have hc : 'i' ∈ newline.text := by
      rw [huv, (List.cons.inj heq).1]
      simp
    cases newline <;> exact absurd hc (by decide)
  have hhere := here_import hn (Or.inr rfl) hV ((u0 ++ m).length + newline.text.length)
  have hsilent := scan_silent [] hn hsil ((u0 ++ m).length + newline.text.length + n.length)
  have hback : n.getLast?.or (some '\n') = ([] ++ n).getLast? := by
    rw [hn', List.nil_append, List.getLast?_cons]
    rfl
  rw [occurrences_import_append hm hends, List.append_assoc, Pattern.scan_append_none hnone, getLast?_newline, Option.some_or,
    Pattern.scan_append_here (by rw [hn']; simp) hhere rfl, hback, hsilent]
  simp [Nat.add_assoc]

end Append

end Componentry.Index
