/-
The lines that a plain scalar holds as they are.

In a block, a plain scalar in front of a line that is not indented holds all that stands there, or less. It holds all
exactly if nothing in there ends it and nothing is lost on the way.
- `Holds`: such a text. `holds_iff`: what may not stand in it.
- `holds_of_length`: a scalar as long as what stands there shows it.
- `read_of_holds`: such a text is read.
- `Tame.mem_read`: the characters of a scalar, where all but the signs of values and the end of the line are of a kind.
-/
import Componentry.Proofs.Yaml.Margin

namespace Componentry.Yaml.Plain

/-- a text that a plain scalar in a block can hold: no line break and no tab, no colon at the end of a word, and no
number sign behind a space -/
def Holds : Text → Prop
  | [] => True
  | c :: rest =>
    isBreak c = false ∧ c ≠ '\t' ∧ (c = ':' → endsWord rest = false) ∧ (c = ' ' → rest.head? ≠ some '#') ∧ Holds rest

section

variable {a u w : Text} {indent : Int}

theorem Holds.of_append (h : Holds (a ++ u)) : Holds u := by
  induction a with
  | nil => exact h
  | cons c a ih => exact ih h.2.2.2.2

theorem Holds.break_notMem (h : Holds u) : ∀ c ∈ u, isBreak c = false := by
  induction u with
  | nil => simp
  | cons c u ih =>
    intro d hd
    rcases List.mem_cons.1 hd with rfl | hd
    · exact h.1
    · exact ih h.2.2.2.2 d hd

/-- two characters in a row -/
theorem pair_infix_cons {a b c : Char} {t : Text} : [a, b] <:+: c :: t ↔ (c = a ∧ t.head? = some b) ∨ [a, b] <:+: t := by
  rw [List.infix_cons_iff, List.cons_prefix_cons]
  cases t with
  | nil => simp
  | cons d t => simp [eq_comm]

/-- such a text in terms of what may not stand in it -/
theorem holds_iff : Holds u ↔ (∀ c ∈ u, isBreak c = false ∧ c ≠ '\t') ∧ (¬[':', ' '] <:+: u ∧ u.getLast? ≠ some ':') ∧
    ¬[' ', '#'] <:+: u := by
  induction u with
  | nil => simp [Holds]
  | cons c u ih =>
    have hword : (∀ d ∈ u, isBreak d = false ∧ d ≠ '\t') → (endsWord u = false ↔ u ≠ [] ∧ u.head? ≠ some ' ') := by
      intro hu
      cases u with
      | nil => simp [endsWord, endsOr]
      | cons d u =>
        obtain ⟨hbreak, htab⟩ := hu d List.mem_cons_self
        simp [endsWord, endsOr, isSpace, hbreak, htab]
    have hlast : (c :: u).getLast? ≠ some ':' ↔ ¬((u = [] ∧ c = ':') ∨ u.getLast? = some ':') := not_congr <| by
      cases u with
      | nil => simp
      | cons d u => simp
    rw [Holds, ih, pair_infix_cons, pair_infix_cons, hlast, List.forall_mem_cons]
    constructor
    · rintro ⟨hbreak, htab, hcolon, hspace, hrest, ⟨hcolons, hends⟩, hsigns⟩
      refine ⟨⟨⟨hbreak, htab⟩, hrest⟩, ⟨?_, ?_⟩, ?_⟩
      · rintro (⟨rfl, h⟩ | h)
        · exact ((hword hrest).1 (hcolon rfl)).2 h
        · exact hcolons h
      · rintro (⟨rfl, rfl⟩ | h)
        · exact absurd (hcolon rfl) (by decide)
        · exact hends h
      · rintro (⟨rfl, h⟩ | h)
        · exact hspace rfl h
        · exact hsigns h
    · rintro ⟨⟨⟨hbreak, htab⟩, hrest⟩, ⟨hcolons, hends⟩, hsigns⟩
      simp only [not_or, not_and] at hcolons hends hsigns
      refine ⟨hbreak, htab, fun hc => (hword hrest).2 ⟨fun h => hends.1 h hc, hcolons.1 hc⟩, hsigns.1, hrest,
        ⟨hcolons.2, hends.2⟩, hsigns.2⟩

/-- a text that has none of the signs that matter -/
theorem holds_of_forall (h : ∀ c ∈ u, isBreak c = false ∧ c ≠ '\t' ∧ c ≠ ':' ∧ c ≠ '#') : Holds u := by
  refine holds_iff.2 ⟨fun c hc => ⟨(h c hc).1, (h c hc).2.1⟩, ⟨fun hcolon => ?_, fun hlast => ?_⟩, fun hsign => ?_⟩
  · exact (h ':' (hcolon.subset (by simp))).2.2.1 rfl
  · exact (h ':' (List.mem_of_getLast? hlast)).2.2.1 rfl
  · exact (h '#' (hsign.subset (by simp))).2.2.2 rfl

/-- a word ends at a line break, too -/
theorem endsWord_append_feed : endsWord (u ++ '\n' :: w) = endsWord u := by
  cases u <;> rfl

/-- spaces in front do no harm unless a comment follows -/
theorem holds_spaces (ha : ∀ c ∈ a, c = ' ') (hu : Holds u) (hhash : u.head? ≠ some '#') : Holds (a ++ u) := by
  induction a with
  | nil => exact hu
  | cons c a ih =>
    obtain rfl := ha c List.mem_cons_self
    refine ⟨by decide, by decide, fun h => absurd h (by decide), fun _ => ?_,
      ih fun d hd => ha d (List.mem_cons_of_mem _ hd)⟩
    cases a with
    | nil => exact hhash
    | cons d a =>
      obtain rfl := ha d (List.mem_cons_of_mem _ List.mem_cons_self)
      simp

/-! ## A scalar as long as the line -/

/-- a run in front does no harm -/
theorem holds_run {t d : Text} (ht : (run false t).2 = d ++ '\n' :: w) (hd : Holds d) : Holds ((run false t).1 ++ d) := by
  induction t with
  | nil => simp [run] at ht
  | cons c t ih =>
    unfold run at ht ⊢
    split_ifs at ht ⊢ with hc
    · exact hd
    · simp only [endsRun, isSpace, Bool.or_eq_true, decide_eq_true_eq, Bool.and_eq_true, Bool.false_eq_true, false_and,
        or_false, not_or, not_and, Bool.not_eq_true] at hc
      obtain ⟨⟨⟨hspace, htab⟩, hbreak⟩, hcolon⟩ := hc
      have htail : t = ((run false t).1 ++ d) ++ '\n' :: w := by
        conv_lhs => rw [← run_append false t, ht, ← List.append_assoc]
      refine ⟨hbreak, htab, fun h => ?_, fun h => absurd h hspace, ih ht⟩
      have hends := hcolon h
      rwa [htail, endsWord_append_feed] at hends

/-- a gap inside a line that a block goes on after is of spaces, and no comment follows them -/
theorem gap_of_goes {d : Text} (hcrosses : (gap (d ++ '\n' :: w)).crosses = false)
    (hgoes : (gap (d ++ '\n' :: w)).ends false indent = false) :
    ∃ e, d = (gap (d ++ '\n' :: w)).text ++ e ∧ (gap (d ++ '\n' :: w)).rest = e ++ '\n' :: w ∧
      (∀ c ∈ (gap (d ++ '\n' :: w)).text, c = ' ') ∧ e.head? ≠ some '#' := by
  obtain ⟨htext, hskip⟩ := gap_of_not_crosses hcrosses
  have hspaces : ∀ c ∈ (gap (d ++ '\n' :: w)).text, c = ' ' := fun c hc => by
    rw [htext] at hc
    simpa using List.mem_takeWhile_imp hc
  have hsplit : (gap (d ++ '\n' :: w)).text ++ (gap (d ++ '\n' :: w)).rest = d ++ '\n' :: w := by
    rw [htext, hskip, skipSpaces, List.takeWhile_append_dropWhile]
  obtain ⟨e, hd, he⟩ := Text.cut_before hsplit fun hmem => absurd (hspaces _ hmem) (by decide)
  refine ⟨e, hd, he, hspaces, fun hhash => ?_⟩
  obtain ⟨e', rfl⟩ := List.head?_eq_some_iff.1 hhash
  simp [Gap.ends, he] at hgoes

theorem holds_of_length_more (hw : FlushLeft w) (hindent : 1 ≤ indent) {fuel : Nat} (before : Gap)
    (hrest : before.rest = u ++ '\n' :: w)
    (h : before.text.length + u.length ≤ (more false indent fuel before).text.length) : Holds u := by
  have hnil : before.text.length + u.length ≤ 0 → Holds u := by
    intro hle
    rw [List.length_eq_zero_iff.1 (show u.length = 0 by omega)]
    trivial
  induction fuel generalizing before u with
  | zero => exact hnil (by simpa [more] using h)
  | succ fuel ih =>
    have hfeed : '\n' ∉ (run false before.rest).1 := fun hmem => absurd (mem_run hmem).2 (by decide)
    obtain ⟨d, hu, hafter⟩ := Text.cut_before ((run_append false before.rest).trans hrest) hfeed
    unfold more at h
    simp only at h
    by_cases hword : (run false before.rest).1 = []
    · rw [if_pos hword] at h
      exact hnil (by simpa using h)
    · rw [if_neg hword] at h
      rw [hu] at h ⊢
      refine holds_run hafter ?_
      by_cases hends : (gap (run false before.rest).2).ends false indent = true
      · -- the run is all there is
        simp only [hends, if_true, List.append_nil, List.length_append] at h
        rw [List.length_eq_zero_iff.1 (show d.length = 0 by omega)]
        trivial
      · rw [if_neg hends] at h
        rw [hafter] at h hends
        simp only [List.length_append] at h
        have hgoes : (gap (d ++ '\n' :: w)).ends false indent = false := by simpa using hends
        have hbefore := Before.gap hw ⟨d, rfl⟩ hindent hgoes
        have hmore := Before.length_more hw hindent fuel _ hbefore
        have hgap := length_gap (d ++ '\n' :: w)
        simp only [List.length_append, List.length_cons] at hgap
        -- across a line break, an indentation would be lost
        have hcrosses : (gap (d ++ '\n' :: w)).crosses = false := by
          simp only [Gap.ends, Bool.or_eq_false_iff, Bool.and_eq_false_iff, Bool.not_false, Bool.true_and,
            decide_eq_false_iff_not] at hgoes
          refine hgoes.2.resolve_right fun hcolumn => ?_
          omega
        obtain ⟨e, hd, he, hspaces, hhash⟩ := gap_of_goes hcrosses hgoes
        have hlength := congrArg List.length hd
        rw [List.length_append] at hlength
        rw [hd]
        refine holds_spaces hspaces (ih _ he (by omega) fun hle => ?_) hhash
        rw [List.length_eq_zero_iff.1 (show e.length = 0 by omega)]
        trivial

/-- a plain scalar in a block that is as long as what stands before the line shows what that is -/
theorem holds_of_length (hw : FlushLeft w) (hindent : 1 ≤ indent)
    (h : (read false indent (u ++ '\n' :: w)).text.length = u.length) : Holds u :=
  holds_of_length_more hw hindent ⟨[], false, 0, false, u ++ '\n' :: w⟩ rfl (by simpa [read] using h.ge)

/-! ## Reading the line -/

/-- of such a text a run takes the first word -/
theorem run_of_holds (hu : Holds u) : ∃ word d, u = word ++ d ∧ run false (u ++ '\n' :: w) = (word, d ++ '\n' :: w) ∧
    (∀ c, d.head? = some c → c = ' ') ∧ (word = [] → ∀ c, u.head? = some c → c = ' ') := by
  induction u with
  | nil => exact ⟨[], [], rfl, rfl, by simp, by simp⟩
  | cons c u ih =>
    obtain ⟨hbreak, htab, hcolon, -, hrest⟩ := hu
    by_cases hc : c = ' '
    · subst hc
      exact ⟨[], ' ' :: u, rfl, rfl, by simp, by simp⟩
    · obtain ⟨word, d, rfl, hrun, hd, -⟩ := ih hrest
      have hends : endsRun false c (word ++ d ++ '\n' :: w) = false := by
        simp only [endsRun, isSpace, hc, htab, hbreak, decide_false, Bool.false_or, Bool.false_and, Bool.or_false,
          Bool.and_eq_false_iff, decide_eq_false_iff_not, endsWord_append_feed]
        exact or_iff_not_imp_left.2 fun h => hcolon (not_not.1 h)
      refine ⟨c :: word, d, rfl, ?_, hd, by simp⟩
      rw [List.cons_append, run, hends, if_neg (by simp), hrun]

/-- in front of a line that is not indented nothing but its line break is left, and a block ends there -/
theorem gap_before (hw : FlushLeft w) (hindent : 1 ≤ indent) : (gap ('\n' :: w)).rest = w ∧
    (gap ('\n' :: w)).crosses = true ∧ (gap ('\n' :: w)).ends false indent = true := by
  have hlines : blankLines 0 w = ([], 0, w, false) := by
    cases w with
    | nil => rfl
    | cons c w =>
      obtain ⟨hspace, hbreak⟩ := hw c rfl
      unfold blankLines
      split
      · rename_i heq
        obtain ⟨rfl, -⟩ := List.cons.inj heq
        exact absurd hbreak (by decide)
      · simp_all
      · rename_i heq
        obtain ⟨rfl, rfl⟩ := List.cons.inj heq
        simp [hspace, hbreak]
  have hbreak : lineBreak? ('\n' :: w) = some ('\n', w) := by simp [lineBreak?]
  unfold gap
  simp only [show skipSpaces ('\n' :: w) = '\n' :: w from rfl, hbreak]
  by_cases hdoc : separatesDocuments w = true
  · simp [hdoc, Gap.ends]
  · have hcolumn : (0 : Int) < indent := by omega
    simp [hdoc, hlines, Gap.ends, hcolumn]

/-- a text that begins with a space begins with spaces and goes on with something else, if there is more -/
theorem exists_spaces (d : Text) :
    ∃ spaces rest, ' ' :: d = spaces ++ rest ∧ spaces ≠ [] ∧ (∀ c ∈ spaces, c = ' ') ∧ rest.head? ≠ some ' ' := by
  refine ⟨(' ' :: d).takeWhile (· = ' '), (' ' :: d).dropWhile (· = ' '), List.takeWhile_append_dropWhile.symm,
    by simp, fun c hc => by simpa using List.mem_takeWhile_imp hc, fun hhead => ?_⟩
  have := List.head?_dropWhile_not (· = ' ') (' ' :: d)
  rw [hhead] at this
  simp at this

/-- spaces inside a line are a gap -/
theorem gap_spaces {c : Char} {rest : Text} (ha : ∀ d ∈ a, d = ' ') (hc : c ≠ ' ') (hbreak : isBreak c = false) :
    gap (a ++ c :: rest) = ⟨a, false, 0, false, c :: rest⟩ := by
  have hall : ∀ x ∈ a, decide (x = ' ') = true := by simpa using ha
  have hskip : skipSpaces (a ++ c :: rest) = c :: rest := by
    rw [skipSpaces, List.dropWhile_append_of_pos hall]
    simp [hc]
  have htake : (a ++ c :: rest).takeWhile (· = ' ') = a := by
    rw [List.takeWhile_append_of_pos hall]
    simp [hc]
  have hline : lineBreak? (c :: rest) = none := lineBreak?_eq_none hbreak
  unfold gap
  simp only [hskip, htake, hline]

/-- the spaces between two words are a gap, and no block ends there -/
theorem gap_of_holds (indent : Int) {d : Text} (hd : Holds (' ' :: d)) (hlast : (' ' :: d).getLast? ≠ some ' ') :
    ∃ spaces rest, ' ' :: d = spaces ++ rest ∧ spaces ≠ [] ∧ rest ≠ [] ∧ rest.head? ≠ some ' ' ∧
      gap (' ' :: d ++ '\n' :: w) = ⟨spaces, false, 0, false, rest ++ '\n' :: w⟩ ∧
      (gap (' ' :: d ++ '\n' :: w)).ends false indent = false := by
  obtain ⟨spaces, rest, hsplit, hstart, hspaces, hhead⟩ := exists_spaces d
  have hends : spaces = spaces.dropLast ++ [' '] := by
    conv_rhs => rw [← hspaces _ (List.getLast_mem hstart), List.dropLast_append_getLast hstart]
  rw [hsplit] at hd hlast ⊢
  cases rest with
  | nil =>
    -- the line does not end in a space
    rw [List.append_nil, hends] at hlast
    exact absurd List.getLast?_concat hlast
  | cons c rest =>
    have hgap : gap (spaces ++ c :: rest ++ '\n' :: w) = ⟨spaces, false, 0, false, c :: rest ++ '\n' :: w⟩ := by
      rw [List.append_assoc]
      exact gap_spaces hspaces (by simpa using hhead) (hd.break_notMem c (by simp))
    have hhash : c ≠ '#' := by
      rw [hends, List.append_assoc] at hd
      simpa using hd.of_append.2.2.2.1 rfl
    refine ⟨spaces, c :: rest, rfl, hstart, by simp, hhead, hgap, ?_⟩
    rw [hgap]
    simp [Gap.ends, hstart, hhash]

/-- a text without spaces at its ends is read as a whole, and so are the spaces and words of it -/
theorem more_of_holds (hw : FlushLeft w) (hindent : 1 ≤ indent) {fuel : Nat} (before : Gap)
    (hrest : before.rest = u ++ '\n' :: w) (hu : Holds u) (hne : u ≠ []) (hhead : u.head? ≠ some ' ')
    (hlast : u.getLast? ≠ some ' ') (hfuel : u.length ≤ fuel) :
    more false indent fuel before = ⟨before.text ++ u, true, w⟩ := by
  induction fuel generalizing before u with
  | zero => exact absurd (List.length_eq_zero_iff.1 (Nat.le_zero.1 hfuel)) hne
  | succ fuel ih =>
    obtain ⟨word, d, rfl, hrun, hd, hempty⟩ := run_of_holds (w := w) hu
    have hword : word ≠ [] := by
      rintro rfl
      obtain ⟨c, u', rfl⟩ := List.exists_cons_of_ne_nil hne
      exact hhead (congrArg some (hempty rfl c rfl))
    unfold more
    simp only [hrest, hrun, if_neg hword]
    by_cases hnil : d = []
    · -- the last word
      subst hnil
      obtain ⟨hgap, hcrosses, hends⟩ := gap_before hw hindent
      simp [hgap, hcrosses, hends]
    · obtain ⟨c, d', rfl⟩ := List.exists_cons_of_ne_nil hnil
      obtain rfl := hd c rfl
      rw [List.getLast?_append_of_ne_nil _ (by simp)] at hlast
      obtain ⟨spaces, rest, hsplit, hstart, hne', hhead', hgap, hends⟩ := gap_of_holds (w := w) indent hu.of_append
        hlast
      rw [hgap] at hends
      rw [hsplit] at hu hlast hfuel ⊢
      rw [List.getLast?_append_of_ne_nil _ hne'] at hlast
      have hlength : rest.length ≤ fuel := by
        have := List.length_pos_iff.2 hword
        simp only [List.length_append] at hfuel
        omega
      rw [hsplit] at hgap
      rw [hgap, hends, ih _ rfl hu.of_append.of_append hne' hhead' hlast hlength]
      simp

theorem read_of_holds (hw : FlushLeft w) (hindent : 1 ≤ indent) (hu : Holds u) (hne : u ≠ [])
    (hhead : u.head? ≠ some ' ') (hlast : u.getLast? ≠ some ' ') :
    read false indent (u ++ '\n' :: w) = ⟨u, true, w⟩ :=
  more_of_holds hw hindent ⟨[], false, 0, false, u ++ '\n' :: w⟩ rfl hu hne hhead hlast (by simp; omega)

/-! ## Where only some characters stand -/

/-- a text of characters of a kind, besides the signs of values and a line feed at the end -/
def Tame (A : Char → Prop) (t : Text) : Prop :=
  ∀ c rest, c :: rest <:+ t → A c ∨ (c = ':' ∧ endsWord rest = true) ∨ (c = '\n' ∧ rest = [])

variable {A : Char → Prop} {t : Text}

theorem Tame.of_suffix (h : Tame A t) (hu : u <:+ t) : Tame A u := fun c rest hc => h c rest (hc.trans hu)

theorem Tame.cons {c : Char} (hc : A c ∨ (c = ':' ∧ endsWord t = true) ∨ (c = '\n' ∧ t = [])) (h : Tame A t) :
    Tame A (c :: t) := by
  intro d rest hd
  rcases List.suffix_cons_iff.1 hd with heq | hd
  · obtain ⟨rfl, rfl⟩ := List.cons.inj heq
    exact hc
  · exact h d rest hd

theorem Tame.append (ha : ∀ c ∈ a, A c) (h : Tame A t) : Tame A (a ++ t) := by
  induction a with
  | nil => exact h
  | cons c a ih => exact .cons (Or.inl (ha c List.mem_cons_self)) (ih fun d hd => ha d (List.mem_cons_of_mem c hd))

theorem Tame.mem_run (h : Tame A t) {c : Char} (hc : c ∈ (run false t).1) : A c := by
  induction t with
  | nil => simp [run] at hc
  | cons d t ih =>
    unfold run at hc
    split_ifs at hc with hd
    · simp at hc
    · rcases List.mem_cons.1 hc with rfl | hc
      · refine (h c t (List.suffix_refl _)).resolve_right ?_
        rintro (⟨rfl, hends⟩ | ⟨rfl, -⟩)
        · simp [endsRun, hends] at hd
        · simp [endsRun, isBreak] at hd
      · exact ih (h.of_suffix (List.suffix_cons d t)) hc

theorem Tame.mem_gap (hspace : A ' ') (hbreak : ∀ c, A c → isBreak c = false) (h : Tame A t) {c : Char}
    (hc : c ∈ (gap t).text) : A c := by
  have hafter := h.of_suffix (skipSpaces_suffix t)
  unfold gap at hc
  generalize skipSpaces t = after at hafter hc
  simp only at hc
  cases hline : lineBreak? after with
  | none =>
    simp only [hline] at hc
    have : c = ' ' := by simpa using List.mem_takeWhile_imp hc
    exact this ▸ hspace
  | some r =>
    cases after with
    | nil => simp [lineBreak?] at hline
    | cons d after =>
      rcases hafter d after (List.suffix_refl _) with hd | ⟨rfl, -⟩ | ⟨rfl, rfl⟩
      · simp [lineBreak?_eq_none (hbreak d hd)] at hline
      · simp [lineBreak?_eq_none (show isBreak ':' = false by decide)] at hline
      · -- the end of the line is read as a space
        have : c = ' ' := by simpa [lineBreak?, separatesDocuments, blankLines, fold] using hc
        exact this ▸ hspace

/-- a plain scalar of such a text has characters of the kind only -/
theorem Tame.mem_more (hspace : A ' ') (hbreak : ∀ c, A c → isBreak c = false) {fuel : Nat} (before : Gap)
    (h : Tame A before.rest) {c : Char} (hc : c ∈ (more false indent fuel before).text) : c ∈ before.text ∨ A c := by
  induction fuel generalizing before with
  | zero => simp [more] at hc
  | succ fuel ih =>
    have hafter := h.of_suffix (run_suffix false before.rest)
    unfold more at hc
    simp only at hc
    by_cases hword : (run false before.rest).1 = []
    · simp [hword] at hc
    · rw [if_neg hword] at hc
      simp only [List.mem_append] at hc
      rcases hc with (hc | hc) | hc
      · exact Or.inl hc
      · exact Or.inr (h.mem_run hc)
      · split_ifs at hc
        · simp at hc
        · exact Or.inr ((ih _ (hafter.of_suffix (gap_suffix _)) hc).elim (hafter.mem_gap hspace hbreak) id)

theorem Tame.mem_read (hspace : A ' ') (hbreak : ∀ c, A c → isBreak c = false) (h : Tame A t) {c : Char}
    (hc : c ∈ (read false indent t).text) : A c :=
  (Tame.mem_more hspace hbreak ⟨[], false, 0, false, t⟩ h hc).resolve_left (by simp)

end

end Componentry.Yaml.Plain
