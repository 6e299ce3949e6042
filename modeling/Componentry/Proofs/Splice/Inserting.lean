/-
An import put in before the lists of an index has no effect on where they open.

A head neither starts in the import nor reads over it, and what the import's brace closes exports from elsewhere.
- `IsList.insert`: a list of the text with the import is one of the text without it.
- `Sole.insert`: so where there was one list, there is one.
-/
import Componentry.Proofs.Splice.Imports

namespace Componentry.Index

open Text

/-- the import of a component on a line of its own -/
def importLine (newline : Newline) (c : Component) : Text := newline.text ++ Listing.importFragment c

section Line

variable {newline : Newline} {c : Component}

/-- the line up to the quote, and the source -/
theorem importLine_eq (newline : Newline) (c : Component) : importLine newline c =
    newline.text ++ ['i', 'm', 'p', 'o', 'r', 't', ' ', '\x7b', ' '] ++ c.pascalName ++
      [' ', '\x7d', ' ', 'f', 'r', 'o', 'm', ' ', '\''] ++ (sourceOf c ++ ['\'']) := by
  rw [importLine, importFragment_eq]
  simp

theorem getLast?_importLine : (importLine newline c).getLast? = some '\'' := by
  rw [importLine_eq, ← List.append_assoc, List.getLast?_concat]

theorem quote_mem_importLine : '\'' ∈ importLine newline c := by
  rw [importLine_eq]
  simp

theorem name_notMem {d : Char} (h : Slug.IsName c.slug) (hd : Slug.isNameChar d = false) : d ∉ c.pascalName := fun hm => by
  simp [isName_pascalName h d hm] at hd

theorem source_notMem {d : Char} (h : Slug.IsName c.slug) (hd : d ≠ '.' ∧ d ≠ '/') (hslug : Slug.isSlugChar d = false) :
    d ∉ sourceOf c := by
  rw [sourceOf, List.mem_append, not_or]
  exact ⟨by simp [hd], fun hm => by simp [h.chars d hm] at hslug⟩

theorem bracket_notMem_importLine (h : Slug.IsName c.slug) : '[' ∉ importLine newline c ∧ ']' ∉ importLine newline c := by
  have h1 := name_notMem (d := '[') h (by decide)
  have h2 := name_notMem (d := ']') h (by decide)
  have h3 := source_notMem (d := '[') h (by decide) (by decide)
  have h4 := source_notMem (d := ']') h (by decide) (by decide)
  rw [importLine_eq]
  cases newline <;> simp [Newline.text, h1, h2, h3, h4]

/-- the brace of an import is closed once, before a clause that names a source -/
theorem importLine_brace (h : Slug.IsName c.slug) (newline : Newline) :
    ∃ a b, importLine newline c = a ++ '\x7d' :: b ∧ '\x7d' ∉ a ∧ '\x7d' ∉ b ∧ ∀ t, IsFromClause (b ++ t) := by
  have h1 := name_notMem (d := '\x7d') h (by decide)
  have h2 := source_notMem (d := '\x7d') h (by decide) (by decide)
  refine ⟨newline.text ++ ['i', 'm', 'p', 'o', 'r', 't', ' ', '\x7b', ' '] ++ c.pascalName ++ [' '],
    [' ', 'f', 'r', 'o', 'm', ' ', '\''] ++ (sourceOf c ++ ['\'']), ?_, ?_, by simp [h2], fun t => ?_⟩
  · rw [importLine_eq]
    simp
  · cases newline <;> simp [Newline.text, h1]
  · exact ⟨[' '], [' ', '\''] ++ (sourceOf c ++ ['\'']) ++ t, by simp, by simp [Blanks]; decide, by
      simp only [List.cons_append, List.head?_cons, Option.any_some]; decide⟩

/-- the only opening brace of an import follows its first word -/
theorem importLine_opener (h : Slug.IsName c.slug) {a b : Text} (heq : importLine newline c = a ++ '\x7b' :: b) :
    a = newline.text ++ ['i', 'm', 'p', 'o', 'r', 't', ' '] := by
  have h1 := name_notMem (d := '\x7b') h (by decide)
  have h2 := source_notMem (d := '\x7b') h (by decide) (by decide)
  have hline : importLine newline c = newline.text ++ ['i', 'm', 'p', 'o', 'r', 't', ' '] ++ '\x7b' ::
      ([' '] ++ c.pascalName ++ [' ', '\x7d', ' ', 'f', 'r', 'o', 'm', ' ', '\''] ++ (sourceOf c ++ ['\''])) := by
    rw [importLine_eq]
    simp
  have hcut : a ++ '\x7b' :: b = newline.text ++ ['i', 'm', 'p', 'o', 'r', 't', ' '] ++ ['\x7b'] ++
      ([' '] ++ c.pascalName ++ [' ', '\x7d', ' ', 'f', 'r', 'o', 'm', ' ', '\''] ++ (sourceOf c ++ ['\''])) := by
    rw [← heq, hline]
    simp
  obtain ⟨b1, b2, hb, rfl, -⟩ := cut_between hcut (by cases newline <;> simp [Newline.text]) (by simp [h1, h2])
  cases b1 with
  | nil => rw [List.append_nil]
  | cons x b1 => simp at hb

end Line

/-! ## Heads -/

section Heads

variable {newline : Newline} {c : Component} {p v1 : Text}

theorem quote_notMem_exportHead {v : Text} (h : IsExportHead v) : '\'' ∉ v := by
  obtain ⟨s, rfl, hs⟩ := h
  have hblank : '\'' ∉ s := fun hm => absurd (hs _ hm) (by decide)
  simp [hblank]

/-- a quote in the head of a component list stands behind its name -/
theorem IsArrayHead.quote {v a b : Text} (h : IsArrayHead v) (heq : v = a ++ '\'' :: b) :
    ∃ s g, a = ['c', 'o', 'n', 's', 't'] ++ s ++ ['c', 'o', 'm', 'p', 'o', 'n', 'e', 'n', 't', 's'] ++ g ∧ s ≠ [] ∧
      Blanks s ∧ '\n' ∉ g := by
  obtain ⟨s, g1, g2, s', rfl, -, hne, hs, -, hg, -⟩ := h.cut_inside heq (by decide) (by decide)
  exact ⟨s, g1, rfl, hne, hs, fun hm => (hg _ (List.mem_append_left _ hm)).2 rfl⟩

/-- no head reads over an import -/
theorem not_isHead_over {kind : ListKind} : ¬IsHead kind (p ++ (importLine newline c ++ v1)) := by
  intro h
  cases kind with
  | exports =>
    exact quote_notMem_exportHead h (List.mem_append_right _ (List.mem_append_left _ quote_mem_importLine))
  | components =>
    obtain ⟨n0, hn0⟩ : ∃ n0, newline.text = n0 ++ ['\n'] := by
      cases newline with
      | lf => exact ⟨[], rfl⟩
      | crlf => exact ⟨['\r'], rfl⟩
    obtain ⟨s, g, heq, -, hs, hg⟩ := IsArrayHead.quote h
      (a := p ++ n0 ++ '\n' :: (['i', 'm', 'p', 'o', 'r', 't', ' ', '\x7b', ' '] ++ c.pascalName ++
        [' ', '\x7d', ' ', 'f', 'r', 'o', 'm', ' ']))
      (b := sourceOf c ++ ['\''] ++ v1) (by rw [importLine_eq, hn0]; simp)
    -- the line ends in the white space before the name, and the name does not follow
    obtain ⟨b1, b2, rfl, -, hb⟩ := cut_between (a := ['c', 'o', 'n', 's', 't']) (b := s)
      (c := ['c', 'o', 'm', 'p', 'o', 'n', 'e', 'n', 't', 's'] ++ g) (by rw [heq]; simp) (by decide) (by simp [hg])
    cases b2 with
    | nil => exact absurd (List.cons.inj hb).1 (by decide)
    | cons x b2 =>
      obtain rfl : 'i' = x := (List.cons.inj hb).1
      exact absurd (hs 'i' (by simp)) (by decide)

theorem inert_pascalName (hc : Slug.IsName c.slug) : Inert c.pascalName := by
  obtain ⟨⟨d, rest, hd, hlow, -⟩, hall⟩ := hc.pascal_eq
  have hall : ∀ x ∈ d :: rest, Slug.isNameChar x = true := hd ▸ hall
  rw [Component.pascalName, hd]
  exact inert_name hlow hall

/-- no head starts in an import -/
theorem not_isHead_inside {kind : ListKind} (hc : Slug.IsName c.slug) {u z : Text} (heq : importLine newline c = u ++ z)
    (hne : z ≠ []) (hedge : u.getLast?.any isWordChar = false) : ¬IsHead kind (z ++ v1) := by
  intro h
  obtain ⟨z, x, rfl⟩ := (List.eq_nil_or_concat' z).resolve_left hne
  set front := newline.text ++ ['i', 'm', 'p', 'o', 'r', 't', ' ', '\x7b', ' '] ++ c.pascalName ++
    [' ', '\x7d', ' ', 'f', 'r', 'o', 'm', ' ', '\''] with hfront
  have hline : u ++ z ++ [x] = front ++ sourceOf c ++ ['\''] := by
    rw [hfront, List.append_assoc u, ← heq, importLine_eq]
    simp
  obtain ⟨hcut, hx⟩ := List.append_inj' hline rfl
  obtain rfl : x = '\'' := by simpa using hx
  cases kind with
  | exports => exact quote_notMem_exportHead h (by simp)
  | components =>
    obtain ⟨s, g, rfl, hs, hsb, -⟩ := IsArrayHead.quote h (a := z) (b := v1) (by simp)
    -- there is white space in the head, and none in the source
    obtain ⟨b, s', rfl⟩ := List.exists_cons_of_ne_nil hs
    have hsource : b ∉ sourceOf c := fun hm => by
      have := (sourceOf_inside hc b hm).2
      simp [hsb b List.mem_cons_self] at this
    rcases List.append_eq_append_iff.1 hcut with ⟨a, ha, hz⟩ | ⟨a, rfl, ha⟩
    · cases a with
      | nil => exact hsource (by rw [← List.nil_append (sourceOf c), ← hz]; simp)
      | cons d a =>
        obtain rfl : 'c' = d := (List.cons.inj hz).1
        obtain ⟨b1, b2, hname, rfl, -⟩ :=
          cut_between (hfront ▸ ha.symm) (by cases newline <;> simp [Newline.text]) (by decide)
        obtain ⟨d, hd, hd'⟩ := (inert_pascalName hc).inner b1 'c' b2 hname (by decide)
        rw [List.getLast?_append, hd, Option.some_or, Option.any_some, Slug.isWordChar_of_isNameChar hd'] at hedge
        exact absurd hedge (by decide)
    · exact hsource (by rw [ha]; simp)

/-- no head starts where a line ends -/
theorem IsHead.ne_lineEnd {kind : ListKind} {v x : Text} (h : IsHead kind v) (hx : EndsLine x) : x ≠ v := by
  obtain ⟨d, v', rfl, hlow, -⟩ := h.starts
  rintro rfl
  rcases hx.head with h | h | h
  · simp at h
  · obtain rfl : d = '\n' := by simpa using h
    exact absurd hlow (by decide)
  · obtain rfl : d = '\r' := by simpa using h
    exact absurd hlow (by decide)

/-- where a list opens behind an import, one opens there without it -/
theorem Opens.insert {kind : ListKind} {t : Text} (hc : Slug.IsName c.slug) (hv : EndsLine v1)
    (h : Opens kind (t ++ (importLine newline c ++ v1))) : Opens kind (t ++ v1) := by
  obtain ⟨u, v, heq, hhead, hedge⟩ := h
  rcases List.append_eq_append_iff.1 heq with ⟨u2, rfl, hu⟩ | ⟨p2, rfl, hp⟩
  · rcases List.append_eq_append_iff.1 hu with ⟨u3, rfl, h3⟩ | ⟨z, hz, h3⟩
    · cases u3 with
      | nil => exact absurd h3 (hhead.ne_lineEnd hv)
      | cons x u3 =>
        refine ⟨t ++ x :: u3, v, by rw [h3]; simp, hhead, ?_⟩
        simpa [List.getLast?_append, List.getLast?_cons] using hedge
    · by_cases hz0 : z = []
      · subst hz0
        exact absurd h3.symm (hhead.ne_lineEnd hv)
      · exact absurd (h3 ▸ hhead) (not_isHead_inside hc hz hz0 (any_getLast?_of_append hedge))
  · exact absurd (hp ▸ hhead) not_isHead_over

end Heads

/-! ## Lists -/

section Lists

variable {newline : Newline} {c : Component} {kind : ListKind} {u0 m source V : Text} {q : Char}

/-- what closes a list before the last import ends does not depend on what follows that import -/
theorem isFromClause_import (hm : IsImport m q source) {a b r r' : Text} (heq : u0 ++ m = a ++ '\x7d' :: b) :
    IsFromClause (b ++ r) ↔ IsFromClause (b ++ r') := by
  obtain ⟨l, tail, rfl, hq, htail⟩ := hm.ends
  have hquote : isBlank q = false ∧ isWordChar q = false ∧ '\x7d' ≠ q := by rcases hq with rfl | rfl <;> decide
  have hno : '\x7d' ∉ q :: tail := by
    rw [List.mem_cons, not_or]
    exact ⟨hquote.2.2, fun hm => by rcases htail _ hm with h | h | h <;> exact absurd h (by decide)⟩
  obtain ⟨b1, b2, -, -, rfl⟩ := cut_between (a := []) (b := u0 ++ l) (c := q :: tail) (by rw [← heq]; simp) (by simp) hno
  have hstops : ∀ t, Stops (q :: (tail ++ t)) := fun t =>
    ⟨[], q, tail ++ t, rfl, blanks_nil, hquote.1, hquote.2.1⟩
  simp only [List.append_assoc, List.cons_append]
  rw [isFromClause_append (hstops r), isFromClause_append (hstops r')]

/-- a list that opens before an import is one without it -/
theorem exists_list_before_import (hc : Slug.IsName c.slug) (hm : IsImport m q source) {x x3 body rest : Text}
    (hx : u0 ++ m = x ++ x3) (h : IsList kind x body rest)
    (heq : x3 ++ (importLine newline c ++ V) = body ++ kind.closer :: rest) :
    ∃ body' rest', x3 ++ V = body' ++ kind.closer :: rest' ∧ IsList kind x body' rest' := by
  -- a closer in the import closes a list that exports from elsewhere
  have hbehind : ∀ b, body = x3 ++ b → importLine newline c ++ V = b ++ kind.closer :: rest →
      ∃ body' rest', x3 ++ V = body' ++ kind.closer :: rest' ∧ IsList kind x body' rest' := by
    rintro b rfl hb
    have hbody := h.body
    rw [List.mem_append, not_or] at hbody
    cases kind with
    | components =>
      obtain ⟨b', rfl, rfl⟩ := cut_before hb (bracket_notMem_importLine hc).2
      rw [List.mem_append, not_or] at hbody
      exact ⟨x3 ++ b', rest, by simp, h.opens, by simp [hbody], h.own⟩
    | exports =>
      obtain ⟨a, b', hline, ha, -, hfrom⟩ := importLine_brace hc newline
      rw [hline, List.append_assoc] at hb
      obtain ⟨-, hrest⟩ := append_cons_unique_of_notMem (x := '\x7d') ha hbody.2 hb
      exact absurd (hrest ▸ hfrom V) (h.own rfl)
  rcases List.append_eq_append_iff.1 heq with ⟨b, hbody, hb⟩ | ⟨b, rfl, hb⟩
  · exact hbehind b hbody hb
  · cases b with
    | nil => exact hbehind [] (by simp) hb.symm
    | cons y b =>
      obtain ⟨rfl, rfl⟩ := List.cons.inj hb
      refine ⟨body, b ++ V, by simp, h.opens, h.body, fun hk => ?_⟩
      subst hk
      have hclause : IsFromClause (b ++ V) ↔ IsFromClause (b ++ (importLine newline c ++ V)) :=
        isFromClause_import hm (a := x ++ body) (by rw [hx]; simp [ListKind.closer])
      rw [hclause]
      exact h.own rfl

/-- no list opens in an import -/
theorem not_opens_inside (hc : Slug.IsName c.slug) {t x2 z : Text} (heq : importLine newline c = x2 ++ z) (hne : x2 ≠ []) :
    ¬Opens kind (t ++ x2) := by
  intro h
  obtain ⟨y, hy⟩ := h.ends
  obtain ⟨x2, x, rfl⟩ := (List.eq_nil_or_concat' x2).resolve_left hne
  rw [← List.append_assoc] at hy
  obtain ⟨-, hx⟩ := List.append_inj' hy rfl
  obtain rfl : x = kind.opener := by simpa using hx
  cases kind with
  | components =>
    have hmem : '[' ∈ importLine newline c := by
      rw [heq]
      simp [ListKind.opener]
    exact (bracket_notMem_importLine hc).1 hmem
  | exports =>
    obtain rfl := importLine_opener hc (a := x2) (b := z) (by rw [heq]; simp [ListKind.opener])
    obtain ⟨u, v, hv, ⟨s, rfl, hs⟩, -⟩ := h
    -- the word before the brace is another one
    have hwords : (t ++ newline.text ++ ['i', 'm', 'p', 'o', 'r', 't']) ++ [' '] =
        (u ++ ['e', 'x', 'p', 'o', 'r', 't']) ++ s := by
      rw [← List.append_cancel_right_eq _ ['\x7b']]
      simpa [ListKind.opener] using hv
    have htrim := congrArg trimEnd hwords
    rw [trimEnd_filled_append (by simp [Filled]; decide) (by simp [Blanks]; decide),
      trimEnd_filled_append (by simp [Filled]; decide) hs] at htrim
    exact absurd (List.append_inj' htrim rfl).2 (by decide)

/-- a list of a text with an import is one of the text without it -/
theorem IsList.insert (hc : Slug.IsName c.slug) (hm : IsImport m q source) (hV : EndsLine V) {x body rest : Text}
    (h : IsList kind x body rest)
    (ht : u0 ++ m ++ (importLine newline c ++ V) = x ++ (body ++ kind.closer :: rest)) :
    (∃ body' rest', u0 ++ m ++ V = x ++ body' ++ kind.closer :: rest' ∧ IsList kind x body' rest' ∧
        x.length ≤ (u0 ++ m).length) ∨
      ∃ v1, v1 ≠ [] ∧ x = u0 ++ m ++ importLine newline c ++ v1 ∧ V = v1 ++ body ++ kind.closer :: rest ∧
        IsList kind (u0 ++ m ++ v1) body rest := by
  rcases List.append_eq_append_iff.1 ht with ⟨x2, rfl, h2⟩ | ⟨x3, hx, h3⟩
  · rcases List.append_eq_append_iff.1 h2 with ⟨v1, rfl, rfl⟩ | ⟨z2, hz, h3⟩
    · by_cases hv1 : v1 = []
      · subst hv1
        rw [List.append_nil] at h
        exact absurd h.opens (not_opens_inside hc (List.append_nil _).symm (by rw [importLine_eq]; simp))
      · refine Or.inr ⟨v1, hv1, by simp, by simp, ?_, h.body, h.own⟩
        exact Opens.insert hc hV.of_append h.opens
    · by_cases hx2 : x2 = []
      · subst hx2
        rw [List.append_nil] at h ⊢
        have heq : [] ++ (importLine newline c ++ V) = body ++ kind.closer :: rest := by
          rw [hz, List.nil_append, List.nil_append, ← h3]
        obtain ⟨body', rest', heq, hlist⟩ := exists_list_before_import hc hm (List.append_nil _).symm h heq
        exact Or.inl ⟨body', rest', by rw [← List.nil_append V, heq]; simp, hlist, le_rfl⟩
      · exact absurd h.opens (not_opens_inside hc hz hx2)
  · obtain ⟨body', rest', heq, hlist⟩ := exists_list_before_import hc hm hx h h3.symm
    exact Or.inl ⟨body', rest', by rw [hx, List.append_assoc, heq]; simp, hlist, by rw [hx]; simp⟩

/-- where lists open behind the imports alone, they still do with one more import -/
theorem Sole.insert {v0 V : Text} (h : Sole kind (u0 ++ m ++ V) (u0 ++ m ++ v0)) (newline : Newline)
    (hc : Slug.IsName c.slug) (hm : IsImport m q source) (hv0 : v0 ≠ []) (hV : EndsLine V) :
    Sole kind (u0 ++ m ++ (importLine newline c ++ V)) (u0 ++ m ++ importLine newline c ++ v0) := by
  intro x body rest ht hlist
  rw [List.append_assoc x] at ht
  rcases hlist.insert hc hm hV ht with ⟨body', rest', heq, hlist', hlen⟩ | ⟨v1, -, rfl, rfl, hlist'⟩
  · have := congrArg List.length (h x body' rest' heq hlist')
    have hpos := List.length_pos_of_ne_nil hv0
    simp only [List.length_append] at this hlen
    omega
  · rw [List.append_cancel_left (h (u0 ++ m ++ v1) body rest (by simp) hlist')]

end Lists

end Componentry.Index
