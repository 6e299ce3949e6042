/-
What may stand at a place of a list without any effect on where the lists of a text open.

A filling is inert if it has names, commas and white space alone, and no small letter starts a name. Put behind a comma or
an opener, or with a comma in front, it is looked through by no head but that of a component list.
- `Opens.refill`, `IsList.refill`: a list of the text with the filling is one of the text with less in its place.
- `Sole.refill`, `Sole.refill_before`: so where there was one list, there is one.
-/
import Componentry.Proofs.Splice.Lists

namespace Componentry.Index

open Text

/-! ## Inert texts -/

/-- names, commas and white space; a small letter stands behind a letter or digit -/
structure Inert (z : Text) : Prop where
  chars : ∀ c ∈ z, Slug.isNameChar c = true ∨ c = ',' ∨ isBlank c = true
  inner : ∀ a c b, z = a ++ c :: b → isLower c = true → ∃ d, a.getLast? = some d ∧ Slug.isNameChar d = true

theorem Inert.append {a b : Text} (ha : Inert a) (hb : Inert b) : Inert (a ++ b) := by
  refine ⟨List.forall_mem_append.2 ⟨ha.chars, hb.chars⟩, fun u c v h hc => ?_⟩
  rcases List.append_eq_append_iff.1 h with ⟨w, rfl, hw⟩ | ⟨w, rfl, hw⟩
  · obtain ⟨d, hd, hname⟩ := hb.inner w c v hw hc
    exact ⟨d, by simp [hd], hname⟩
  · cases w with
    | nil =>
      obtain ⟨d, hd, -⟩ := hb.inner [] c v (by simpa using hw.symm) hc
      simp at hd
    | cons x w =>
      obtain ⟨rfl, -⟩ := List.cons.inj hw
      exact ha.inner u c w rfl hc

theorem not_isLower_of_isBlank {c : Char} (h : isBlank c = true) : isLower c = false := by
  by_contra hc
  have := Slug.isBlank_of_isNameChar (Slug.isNameChar_of_isLower (by simpa using hc))
  simp [this] at h

theorem inert_blanks {b : Text} (h : Blanks b) : Inert b :=
  ⟨fun c hc => Or.inr (Or.inr (h c hc)), fun a c b' hb hc => by
    have := not_isLower_of_isBlank (h c (by simp [hb]))
    simp [this] at hc⟩

theorem inert_comma : Inert [','] := by
  refine ⟨by simp, fun a c b h hc => ?_⟩
  obtain rfl : ',' = c := by
    cases a with
    | nil => exact (List.cons.inj h).1
    | cons d a => simp at h
  exact absurd hc (by decide)

/-- a name that starts with no small letter is inert -/
theorem inert_name {d : Char} {n : Text} (hd : isLower d = false) (hn : ∀ c ∈ d :: n, Slug.isNameChar c = true) :
    Inert (d :: n) := by
  refine ⟨fun c hc => Or.inl (hn c hc), fun a c b h hc => ?_⟩
  rcases List.eq_nil_or_concat' a with rfl | ⟨a', x, rfl⟩
  · obtain rfl : d = c := (List.cons.inj h).1
    simp [hd] at hc
  · exact ⟨x, by simp, hn x (by rw [h]; simp)⟩

/-- none of the signs that a pattern looks for is in an inert text -/
theorem Inert.notMem {z : Text} (h : Inert z) {c : Char} (hname : Slug.isNameChar c = false) (hcomma : c ≠ ',')
    (hblank : isBlank c = false) : c ∉ z := by
  intro hc
  rcases h.chars c hc with h | h | h
  · simp [hname] at h
  · exact hcomma h
  · simp [hblank] at h

theorem Inert.closer_notMem {z : Text} (h : Inert z) (kind : ListKind) : kind.closer ∉ z := by
  cases kind <;> exact h.notMem (by decide) (by decide) (by decide)

/-! ## Places in a list -/

/-- a character between the items of a list, or before the first one -/
def IsJoint (c : Char) : Prop := c = ',' ∨ c = '[' ∨ c = '\x7b'

/-- a text that goes on with the end of a list -/
def Closes (y : Text) : Prop := ∃ b d rest, y = b ++ d :: rest ∧ Blanks b ∧ (d = ']' ∨ d = '\x7d')

/-- white space within a line -/
def Calm (b : Text) : Prop := ∀ c ∈ b, isBlank c = true ∧ c ≠ '\n' ∧ c ≠ '\r'

/-- a filling behind its joint, and what it stands for: calm white space behind the joint, or no comma at all -/
structure Refill (z w y : Text) : Prop where
  filling : ∃ j i, z = j :: i ∧ IsJoint j ∧ Inert i ∧ ((w = [] ∧ j = ',') ∨ ∃ b, w = j :: b ∧ Calm b)
  closes : Closes y

/-- white space, and then no word -/
def Stops (q : Text) : Prop := ∃ b d rest, q = b ++ d :: rest ∧ Blanks b ∧ isBlank d = false ∧ isWordChar d = false

theorem isWordChar_of_isBlank {c : Char} (h : isBlank c = true) : isWordChar c = false := by
  have hall : ∀ r ∈ blankTable, ∀ k < r.2 - r.1 + 1, isWordChar (Char.ofNat (r.1 + k)) = false := by decide +kernel
  obtain ⟨r, hr, hin⟩ := List.any_eq_true.1 h
  simp only [Bool.and_eq_true, decide_eq_true_eq] at hin
  have := hall r hr (c.toNat - r.1) (by omega)
  rwa [Nat.add_sub_cancel' hin.1, Char.ofNat_toNat] at this

/-- a list that is closed by what follows exports from elsewhere regardless of it -/
theorem isFromClause_append {p q : Text} (hq : Stops q) : IsFromClause (p ++ q) ↔ IsFromClause p := by
  obtain ⟨b, d, rest, rfl, hb, hblank, hword⟩ := hq
  have hhead : (b ++ d :: rest).head?.any isWordChar = false := by
    cases b with
    | nil => simpa using hword
    | cons x b => simpa using isWordChar_of_isBlank (hb x List.mem_cons_self)
  constructor
  · rintro ⟨s, r, h, hs, hr⟩
    have hd : d ∉ s ++ ['f', 'r', 'o', 'm'] := by
      rw [List.mem_append, not_or]
      refine ⟨fun hm => by simp [hs d hm] at hblank, fun hm => ?_⟩
      have hletters : ∀ c ∈ ['f', 'r', 'o', 'm'], isWordChar c = true := by decide
      simp [hletters d hm] at hword
    rcases List.append_eq_append_iff.1 h with ⟨a, ha, hq⟩ | ⟨a, rfl, rfl⟩
    · obtain ⟨b', rfl, -⟩ := cut_before hq.symm fun hm => hd (by rw [ha]; exact List.mem_append_right _ hm)
      -- what is read of the rest is blank, and ends with a letter
      rcases List.eq_nil_or_concat' a with rfl | ⟨a, x, rfl⟩
      · exact ⟨s, [], by simpa using ha.symm, hs, rfl⟩
      · have hx : x = 'm' := by
          have := congrArg List.getLast? ha
          simpa using this.symm
        have := hb x (by simp)
        rw [hx] at this
        exact absurd this (by decide)
    · refine ⟨s, a, rfl, hs, ?_⟩
      cases a with
      | nil => rfl
      | cons x a => exact hr
  · rintro ⟨s, r, rfl, hs, hr⟩
    refine ⟨s, r ++ (b ++ d :: rest), by simp, hs, ?_⟩
    cases r with
    | nil => exact hhead
    | cons x r => exact hr

namespace Refill

variable {z w y : Text}

theorem isJoint_facts {c : Char} (h : IsJoint c) : isBlank c = false ∧ isWordChar c = false ∧ c ≠ '=' ∧
    c ≠ ']' ∧ c ≠ '\x7d' ∧ c ≠ '\'' ∧ c ≠ '"' ∧ c ≠ ';' := by
  rcases h with rfl | rfl | rfl <;> decide

theorem closes_stops (h : Closes y) : Stops y := by
  obtain ⟨b, d, rest, rfl, hb, rfl | rfl⟩ := h <;> exact ⟨b, _, rest, rfl, hb, by decide, by decide⟩

theorem stops_left (h : Refill z w y) : Stops (z ++ y) := by
  obtain ⟨⟨j, i, rfl, hj, -⟩, -⟩ := h
  exact ⟨[], j, i ++ y, rfl, blanks_nil, (isJoint_facts hj).1, (isJoint_facts hj).2.1⟩

theorem stops_right (h : Refill z w y) : Stops (w ++ y) := by
  obtain ⟨⟨j, i, rfl, hj, -, ⟨rfl, -⟩ | ⟨b, rfl, -⟩⟩, hy⟩ := h
  · exact closes_stops hy
  · exact ⟨[], j, b ++ y, rfl, blanks_nil, (isJoint_facts hj).1, (isJoint_facts hj).2.1⟩

/-- no closer is in a filling -/
theorem closer_notMem (h : Refill z w y) (kind : ListKind) : kind.closer ∉ z ∧ kind.closer ∉ w := by
  obtain ⟨⟨j, i, rfl, hj, hi, hw⟩, -⟩ := h
  have hne : kind.closer ≠ j := by
    obtain ⟨-, -, -, h1, h2, -⟩ := isJoint_facts hj
    cases kind
    · exact Ne.symm h1
    · exact Ne.symm h2
  refine ⟨by simpa [hne] using hi.closer_notMem kind, ?_⟩
  rcases hw with ⟨rfl, -⟩ | ⟨b, rfl, hb⟩
  · simp
  · simpa [hne] using (inert_blanks fun c hc => (hb c hc).1).closer_notMem kind

/-- what follows a filling, or what it stands for, starts no word -/
theorem head_right (h : Refill z w y) : (w ++ y).head?.any isWordChar = false := by
  obtain ⟨b, d, rest, heq, hb, -, hword⟩ := h.stops_right
  rw [heq]
  cases b with
  | nil => simpa using hword
  | cons x b => simpa using isWordChar_of_isBlank (hb x List.mem_cons_self)

theorem head_rest (h : Refill z w y) : y.head?.any isWordChar = false := by
  obtain ⟨b, d, rest, rfl, hb, -, hword⟩ := closes_stops h.closes
  cases b with
  | nil => simpa using hword
  | cons x b => simpa using isWordChar_of_isBlank (hb x List.mem_cons_self)

end Refill

/-! ## Heads -/

section Heads

variable {z w y y1 y2 p : Text}

/-- what a filling stands for has no sign at which the reading of a head ends -/
theorem Refill.quiet (hz : Refill z w y) : ∀ c ∈ w, c ≠ '=' ∧ c ≠ '\n' := by
  obtain ⟨j, i, -, hj, -, ⟨rfl, -⟩ | ⟨b, rfl, hb⟩⟩ := hz.filling
  · simp
  · obtain ⟨hblank, -, heq, -⟩ := Refill.isJoint_facts hj
    refine List.forall_mem_cons.2
      ⟨⟨heq, by rintro rfl; exact absurd hblank (by decide)⟩, fun c hc => ⟨?_, (hb c hc).2.1⟩⟩
    rintro rfl
    exact absurd (hb _ hc).1 (by decide)

/-- a head that reads over a joint and what is behind it also reads over another text in their place -/
theorem IsArrayHead.exchange {j : Char} {i : Text} (h : IsArrayHead (p ++ j :: i ++ y1)) (hj : IsJoint j) (hi : '=' ∉ i)
    (hw : ∀ c ∈ w, c ≠ '=' ∧ c ≠ '\n') (hhead : (w ++ y1).head?.any isWordChar = false) (hne : y1 ≠ []) :
    IsArrayHead (p ++ w ++ y1) := by
  obtain ⟨hblank, -, heq, -⟩ := Refill.isJoint_facts hj
  obtain ⟨s, g, s', hv, hs, hsb, hg, hgc, hs'⟩ := h
  obtain ⟨y1, x, rfl⟩ := (List.eq_nil_or_concat' y1).resolve_left hne
  rw [← List.append_assoc] at hv
  obtain ⟨hbody, hx⟩ := List.append_inj' hv rfl
  -- the joint, and with it what is behind it, lies between the name and the equals sign
  set start := ['c', 'o', 'n', 's', 't'] ++ s ++ ['c', 'o', 'm', 'p', 'o', 'n', 'e', 'n', 't', 's'] with hstart
  have hjs : j ∉ start := by
    have hconst : ∀ c ∈ ['c', 'o', 'n', 's', 't'], ¬IsJoint c := by simp [IsJoint]
    have hname : ∀ c ∈ ['c', 'o', 'm', 'p', 'o', 'n', 'e', 'n', 't', 's'], ¬IsJoint c := by simp [IsJoint]
    simp only [hstart, List.mem_append, not_or]
    exact ⟨⟨fun hm => hconst j hm hj, fun hm => by simp [hsb j hm] at hblank⟩, fun hm => hname j hm hj⟩
  have hje : j ∉ '=' :: s' := by
    rw [List.mem_cons, not_or]
    exact ⟨heq, fun hm => by simp [hs' j hm] at hblank⟩
  obtain ⟨g1, g2, rfl, rfl, hq⟩ := cut_between (p := p) (q := i ++ y1) (by simpa using hbody) hjs hje
  obtain ⟨g3, rfl, rfl⟩ := cut_before hq hi
  refine ⟨s, g1 ++ w ++ g3, s', by rw [hx]; simp [hstart], hs, hsb, ?_, ?_, hs'⟩
  · cases g1 with
    | cons c g1 => simpa using hg
    | nil =>
      cases w with
      | cons c w => simpa using hhead
      | nil =>
        cases g3 with
        | nil => rfl
        | cons c g3 => simpa using hhead
  · simp only [List.forall_mem_append] at hgc ⊢
    exact ⟨⟨hgc.1, hw⟩, (List.forall_mem_append.1 (List.forall_mem_cons.1 hgc.2).2).2⟩

/-- no head of an export list reads over a joint -/
theorem not_isExportHead {j : Char} {i : Text} (hj : IsJoint j) (hne : y1 ≠ []) : ¬IsExportHead (p ++ j :: i ++ y1) := by
  rintro ⟨s, hv, hs⟩
  obtain ⟨y1, x, rfl⟩ := (List.eq_nil_or_concat' y1).resolve_left hne
  rw [← List.append_assoc] at hv
  obtain ⟨hbody, -⟩ := List.append_inj' hv rfl
  have hletters : ∀ c ∈ ['e', 'x', 'p', 'o', 'r', 't'], ¬IsJoint c := by simp [IsJoint]
  have hmem : j ∈ ['e', 'x', 'p', 'o', 'r', 't'] ++ s := by
    rw [← hbody]
    simp
  rcases List.mem_append.1 hmem with hm | hm
  · exact hletters j hm hj
  · have := (Refill.isJoint_facts hj).1
    simp [hs j hm] at this

/-- where a list opens behind a joint and an inert text, one opens behind another text in their place -/
theorem Opens.exchange {kind : ListKind} {j : Char} {i : Text} (h : Opens kind (p ++ j :: i ++ y1)) (hj : IsJoint j)
    (hi : Inert i) (hw : ∀ c ∈ w, c ≠ '=' ∧ c ≠ '\n') (hhead : (w ++ y1).head?.any isWordChar = false)
    (hrest : y1.head?.any isWordChar = false) (hne : y1 ≠ []) : Opens kind (p ++ w ++ y1) := by
  obtain ⟨u, v, heq, hv, hedge⟩ := h
  obtain ⟨c, v', rfl, hlow, -⟩ := hv.starts
  have hword : isWordChar c = true := Slug.isWordChar_of_isNameChar (Slug.isNameChar_of_isLower hlow)
  -- no word starts where the rest does
  have hy : ∀ v'', y1 ≠ c :: v'' := by
    rintro v'' rfl
    simp [hword] at hrest
  rw [List.append_assoc] at heq
  rcases List.append_eq_append_iff.1 heq with ⟨u2, rfl, hu⟩ | ⟨p2, rfl, hp⟩
  · rcases List.append_eq_append_iff.1 hu with ⟨u3, rfl, h3⟩ | ⟨z2, hz2, h3⟩
    · -- the head stands in the rest
      cases u3 with
      | nil => exact absurd h3 (hy v')
      | cons d u3 =>
        refine ⟨p ++ w ++ d :: u3, c :: v', by rw [h3]; simp, hv, ?_⟩
        simpa [List.getLast?_append, List.getLast?_cons] using hedge
    · -- the head starts at the joint or behind it
      cases z2 with
      | nil => exact absurd h3.symm (hy v')
      | cons d z2 =>
        obtain rfl : c = d := (List.cons.inj h3).1
        cases u2 with
        | nil =>
          obtain rfl : j = c := (List.cons.inj hz2).1
          simp [(Refill.isJoint_facts hj).2.1] at hword
        | cons x u2 =>
          obtain ⟨d, hd, hname⟩ := hi.inner u2 c z2 (List.cons.inj hz2).2 hlow
          have hd' := Slug.isWordChar_of_isNameChar hname
          simp [List.getLast?_append, List.getLast?_cons, hd, hd'] at hedge
  · -- the head starts before the joint
    refine ⟨u, p2 ++ w ++ y1, by simp, ?_, hedge⟩
    rw [hp, ← List.append_assoc] at hv
    cases kind with
    | components => exact IsArrayHead.exchange hv hj (hi.notMem (by decide) (by decide) (by decide)) hw hhead hne
    | exports => exact absurd hv (not_isExportHead hj hne)

/-- where a list opens behind a filling, one opens behind what it stands for -/
theorem Opens.refill {kind : ListKind} (h : Opens kind (p ++ z ++ y1)) (hz : Refill z w (y1 ++ y2)) (hne : y1 ≠ []) :
    Opens kind (p ++ w ++ y1) := by
  have hright := hz.head_right
  have hrest := hz.head_rest
  obtain ⟨j, i, rfl, hj, hi, -⟩ := hz.filling
  obtain ⟨x, y1, rfl⟩ := List.exists_cons_of_ne_nil hne
  refine h.exchange hj hi hz.quiet ?_ (by simpa using hrest) hne
  cases w <;> simpa using hright

end Heads

/-! ## Lists -/

section Lists

variable {kind : ListKind} {p z w y : Text}

/-- a list whose rest has a filling is one regardless of it -/
theorem IsList.refill_rest {x body r : Text} (hz : Refill z w y) :
    IsList kind x body (r ++ (z ++ y)) ↔ IsList kind x body (r ++ (w ++ y)) := by
  have hfrom : IsFromClause (r ++ (z ++ y)) ↔ IsFromClause (r ++ (w ++ y)) := by
    rw [isFromClause_append hz.stops_left, isFromClause_append hz.stops_right]
  exact ⟨fun h => ⟨h.opens, h.body, by rw [← hfrom]; exact h.own⟩,
    fun h => ⟨h.opens, h.body, by rw [hfrom]; exact h.own⟩⟩

/-- a list that opens before a filling, or at its joint, is one with what it stands for -/
theorem exists_list_before {x x3 body rest : Text} (hz : Refill z w y) (h : IsList kind x body rest)
    (heq : x3 ++ (z ++ y) = body ++ kind.closer :: rest) :
    ∃ body' rest', x3 ++ (w ++ y) = body' ++ kind.closer :: rest' ∧ IsList kind x body' rest' := by
  obtain ⟨hclose, hclose'⟩ := hz.closer_notMem kind
  rcases List.append_eq_append_iff.1 heq with ⟨b, rfl, hb⟩ | ⟨b, rfl, hb⟩
  · -- the closer stands behind the filling
    obtain ⟨b', rfl, rfl⟩ := cut_before hb hclose
    refine ⟨x3 ++ (w ++ b'), rest, by simp, h.opens, ?_, h.own⟩
    have := h.body
    simp only [List.mem_append, not_or] at this ⊢
    exact ⟨this.1, hclose', this.2.2⟩
  · -- the closer stands before it
    cases b with
    | nil =>
      obtain ⟨b', hb', -⟩ := cut_before (z := z) (b := []) hb.symm hclose
      obtain ⟨j, i, rfl, -⟩ := hz.filling
      simp at hb'
    | cons c b =>
      obtain ⟨rfl, rfl⟩ := List.cons.inj hb
      exact ⟨body, b ++ (w ++ y), by simp, (IsList.refill_rest hz).1 h⟩

/-- the head of a list ends in a filling at its joint alone -/
theorem exists_list_at_joint {x2 z2 body rest : Text} (hz : Refill (x2 ++ z2) w y) (h : IsList kind (p ++ x2) body rest)
    (hne : x2 ≠ []) (heq : z2 ++ y = body ++ kind.closer :: rest) :
    ∃ body' rest', p ++ (w ++ y) = p ++ x2 ++ body' ++ kind.closer :: rest' ∧ IsList kind (p ++ x2) body' rest' ∧
      (p ++ x2).length ≤ (p ++ w).length := by
  obtain ⟨⟨j, i, hi, hj, hinert, hw⟩, -⟩ := hz
  obtain ⟨c, i1, rfl⟩ := List.exists_cons_of_ne_nil hne
  obtain ⟨rfl, rfl⟩ := List.cons.inj hi
  obtain ⟨u, hu⟩ := h.opens.ends
  have hopener : Slug.isNameChar kind.opener = false ∧ kind.opener ≠ ',' ∧ isBlank kind.opener = false := by
    cases kind <;> decide
  rcases List.eq_nil_or_concat' i1 with rfl | ⟨i1, x, rfl⟩
  · -- the joint is the opener
    obtain ⟨-, hc⟩ := List.append_inj' hu rfl
    obtain rfl : c = kind.opener := by simpa using hc
    obtain ⟨b, rfl, hb⟩ := hw.resolve_left fun hw => hopener.2.1 hw.2
    obtain ⟨b', rfl, rfl⟩ := cut_before heq (hinert.closer_notMem kind)
    refine ⟨b ++ b', rest, by simp, ⟨h.opens, ?_, h.own⟩, by simp⟩
    have hbody := h.body
    simp only [List.mem_append, not_or] at hbody ⊢
    exact ⟨(inert_blanks fun c hc => (hb c hc).1).closer_notMem kind, hbody.2⟩
  · rw [← List.cons_append, ← List.append_assoc] at hu
    obtain ⟨-, hc⟩ := List.append_inj' hu rfl
    obtain rfl : x = kind.opener := by simpa using hc
    exact absurd (by simp) (hinert.notMem hopener.1 hopener.2.1 hopener.2.2)

/-- a list of a text with a filling is one of the text with what it stands for -/
theorem IsList.refill {x body rest : Text} (hz : Refill z w y) (h : IsList kind x body rest)
    (ht : p ++ (z ++ y) = x ++ (body ++ kind.closer :: rest)) :
    (∃ body' rest', p ++ (w ++ y) = x ++ body' ++ kind.closer :: rest' ∧ IsList kind x body' rest' ∧
        x.length ≤ (p ++ w).length) ∨
      ∃ y1, y1 ≠ [] ∧ x = p ++ z ++ y1 ∧ y = y1 ++ body ++ kind.closer :: rest ∧
        IsList kind (p ++ w ++ y1) body rest := by
  rcases List.append_eq_append_iff.1 ht with ⟨x2, rfl, h2⟩ | ⟨x3, rfl, h3⟩
  · -- the head ends behind the start of the filling
    rcases List.append_eq_append_iff.1 h2 with ⟨y1, rfl, rfl⟩ | ⟨z2, rfl, h3⟩
    · by_cases hy1 : y1 = []
      · subst hy1
        have hne : z ≠ [] := by
          obtain ⟨j, i, rfl, -⟩ := hz.filling
          simp
        rw [List.append_nil] at h ⊢
        rw [← List.append_nil z] at hz
        exact Or.inl (exists_list_at_joint hz h hne (by simp))
      · refine Or.inr ⟨y1, hy1, by simp, by simp, ?_, h.body, h.own⟩
        exact Opens.refill (by simpa using h.opens) hz hy1
    · by_cases hx2 : x2 = []
      · subst hx2
        rw [List.append_nil] at h ⊢
        have hbody : [] ++ ([] ++ z2 ++ y) = body ++ kind.closer :: rest := h2
        obtain ⟨body', rest', heq, hlist⟩ := exists_list_before hz h hbody
        exact Or.inl ⟨body', rest', by simpa using heq, hlist, by simp⟩
      · exact Or.inl (exists_list_at_joint hz h hx2 h3.symm)
  · obtain ⟨body', rest', heq, hlist⟩ := exists_list_before hz h h3.symm
    exact Or.inl ⟨body', rest', by rw [List.append_assoc, heq]; simp, hlist, by simp⟩

/-- lists that open up to a filling alone still do, whatever it is -/
theorem Sole.refill {x : Text} (h : Sole kind (p ++ (w ++ y)) x) (hz : Refill z w y)
    (hx : x.length ≤ (p ++ w).length) : Sole kind (p ++ (z ++ y)) x := by
  intro x' body rest ht hlist
  rw [List.append_assoc] at ht
  rcases hlist.refill hz ht with ⟨body', rest', heq, hlist', -⟩ | ⟨y1, hne, -, rfl, hlist'⟩
  · exact h x' body' rest' heq hlist'
  · have := congrArg List.length (h (p ++ w ++ y1) body rest (by simp) hlist')
    have hpos := List.length_pos_of_ne_nil hne
    simp only [List.length_append] at this hx
    omega

/-- lists that open behind a filling alone still do, whatever it is -/
theorem Sole.refill_before {y0 : Text} (h : Sole kind (p ++ (w ++ y)) (p ++ w ++ y0)) (hz : Refill z w y)
    (hy0 : y0 ≠ []) : Sole kind (p ++ (z ++ y)) (p ++ z ++ y0) := by
  intro x' body rest ht hlist
  rw [List.append_assoc] at ht
  rcases hlist.refill hz ht with ⟨body', rest', heq, hlist', hlen⟩ | ⟨y1, -, rfl, rfl, hlist'⟩
  · have := congrArg List.length (h x' body' rest' heq hlist')
    have hpos := List.length_pos_of_ne_nil hy0
    rw [List.length_append] at this
    omega
  · rw [List.append_cancel_left (h (p ++ w ++ y1) body rest (by simp) hlist')]

end Lists

end Componentry.Index
