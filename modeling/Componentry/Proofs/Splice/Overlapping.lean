/-
A component list whose head reads over the closer of the export list.

An entry on a line of its own ends such a head, and the component list is lost. But then no entry can have gone there
before, as the head would read over its line.
- `exists_components_beside`: an entry in the export list leaves the component list there, if the lines of an export list
  before it are those of an earlier entry.
- `Before`: an export list before the component list, with its body. It was there before the component list got an entry
  (`Before.of_step`), and before an import was added (`Before.of_import`).
-/
import Componentry.Proofs.Splice.Holding

namespace Componentry.Index

open Text

variable {t t' p z tail e : Text} {c : Component}

/-! ## Heads -/

/-- a head that reads over a brace still is one with an entry within its line before the brace -/
theorem IsArrayHead.widen {d : Text} (h : IsArrayHead (d ++ (tail ++ '\x7d' :: e))) (ht : Blanks tail)
    (hz : ∀ x ∈ z, x ≠ '=' ∧ x ≠ '\n') (hjoint : z = [] ∨ z.head? = some ',' ∨ d.getLast? = some ',') :
    IsArrayHead (d ++ z ++ (tail ++ '\x7d' :: e)) := by
  obtain ⟨s, g1, g2, s', hd, rfl, hs, hsb, hg, hgc, hs'⟩ :=
    h.cut_inside (List.append_assoc _ _ _).symm (by decide) (by decide)
  set start := ['c', 'o', 'n', 's', 't'] ++ s ++ ['c', 'o', 'm', 'p', 'o', 'n', 'e', 'n', 't', 's'] with hstart
  have hlast : start.getLast? = some 's' := by
    rw [hstart, List.getLast?_append]
    rfl
  -- what stands before the brace is the name and more
  obtain ⟨g0, rfl, rfl⟩ : ∃ g0, d = start ++ g0 ∧ g1 = g0 ++ tail := by
    rcases List.append_eq_append_iff.1 hd with ⟨k, hk, rfl⟩ | ⟨g0, rfl, rfl⟩
    · rcases List.eq_nil_or_concat' k with rfl | ⟨k, x, rfl⟩
      · exact ⟨[], by simpa using hk.symm, by simp⟩
      · rw [hk, ← List.append_assoc, List.getLast?_concat] at hlast
        obtain rfl : x = 's' := Option.some.inj hlast
        exact absurd (ht 's' (by simp)) (by decide)
    · exact ⟨g0, rfl, rfl⟩
  refine ⟨s, g0 ++ z ++ tail ++ '\x7d' :: g2, s', by simp [hstart], hs, hsb, ?_, ?_, hs'⟩
  · cases g0 with
    | cons x g0 => simpa using hg
    | nil =>
      rcases hjoint with rfl | hz' | hcomma
      · simpa using hg
      · obtain ⟨z, rfl⟩ := List.head?_eq_some_iff.1 hz'
        change isWordChar ',' = false
        decide
      · rw [List.append_nil, hlast] at hcomma
        exact absurd (Option.some.inj hcomma) (by decide)
  · simp only [List.forall_mem_append] at hgc ⊢
    exact ⟨⟨⟨hgc.1.1, hz⟩, hgc.1.2⟩, hgc.2⟩

/-- where a list opens behind a brace, one does with an entry before the brace, if that is within its line -/
theorem Opens.widen (h : Opens .components (p ++ (tail ++ '\x7d' :: e))) (ht : Blanks tail)
    (hz : ∀ x ∈ z, x ≠ '=' ∧ x ≠ '\n') (hjoint : z = [] ∨ z.head? = some ',' ∨ p.getLast? = some ',') :
    Opens .components (p ++ z ++ (tail ++ '\x7d' :: e)) := by
  obtain ⟨u, v, heq, hv, hedge⟩ := h
  have hne : tail ++ '\x7d' :: e ≠ v := by
    obtain ⟨d, v', rfl, hlow, -⟩ := hv.starts
    intro hv'
    cases tail with
    | nil =>
      obtain rfl : '\x7d' = d := (List.cons.inj hv').1
      exact absurd hlow (by decide)
    | cons x tail =>
      obtain rfl : x = d := (List.cons.inj hv').1
      simp [not_isLower_of_isBlank (ht x List.mem_cons_self)] at hlow
  rcases List.append_eq_append_iff.1 heq with ⟨a, rfl, ha⟩ | ⟨d, rfl, rfl⟩
  · -- the head stands behind the entry
    cases a with
    | nil => exact absurd ha hne
    | cons x a =>
      refine ⟨p ++ z ++ x :: a, v, by rw [ha]; simp, hv, ?_⟩
      simpa [List.getLast?_append, List.getLast?_cons] using hedge
  · refine ⟨u, d ++ z ++ (tail ++ '\x7d' :: e), by simp, IsArrayHead.widen hv ht hz ?_, hedge⟩
    rcases List.eq_nil_or_concat' d with rfl | ⟨d, x, rfl⟩
    · exact absurd rfl hne
    · simpa [List.getLast?_append] using hjoint

/-- no text ends in the name of a component list and in the line of an entry -/
theorem Inert.not_named {u s g : Text} (hz : Inert z) (hn : '\n' ∈ z) (ht : Blanks tail) (hs : s ≠ []) (hsb : Blanks s)
    (hg : '\n' ∉ g) : p ++ z ++ tail ≠
      u ++ (['c', 'o', 'n', 's', 't'] ++ s ++ ['c', 'o', 'm', 'p', 'o', 'n', 'e', 'n', 't', 's'] ++ g) := by
  intro heq
  obtain ⟨z1, z2, rfl⟩ := List.append_of_mem hn
  have hfeed : '\n' ∉ ['c', 'o', 'm', 'p', 'o', 'n', 'e', 'n', 't', 's'] ++ g := by
    rw [List.mem_append, not_or]
    exact ⟨by decide, hg⟩
  have htext : p ++ z1 ++ '\n' :: (z2 ++ tail) =
      u ++ ['c', 'o', 'n', 's', 't'] ++ s ++ (['c', 'o', 'm', 'p', 'o', 'n', 'e', 'n', 't', 's'] ++ g) := by
    simpa using heq
  obtain ⟨k0, k, hk, -, hz2⟩ := cut_between (p := p ++ z1) (a := []) (b := u ++ ['c', 'o', 'n', 's', 't'] ++ s)
    (by rw [List.nil_append]; exact htext) (by simp) hfeed
  -- the name is in the entry, behind white space
  obtain ⟨f, rfl⟩ : ∃ f, z2 = k ++ 'c' :: f := by
    rcases List.append_eq_append_iff.1 hz2 with ⟨f, rfl, hf⟩ | ⟨f, rfl, hf⟩
    · exact absurd (ht 'c' (by rw [hf]; simp)) (by decide)
    · cases f with
      | nil => exact absurd (ht 'c' (by rw [← List.nil_append tail, ← hf]; simp)) (by decide)
      | cons x f => exact ⟨f, by rw [(List.cons.inj hf).1]⟩
  obtain ⟨x, hx, hname⟩ := hz.inner (z1 ++ '\n' :: k) 'c' f (by simp) (by decide)
  obtain ⟨s, y, rfl⟩ := (List.eq_nil_or_concat' s).resolve_left hs
  have hlast : (k0 ++ '\n' :: k).getLast? = some y := by
    rw [← hk, ← List.append_assoc, List.getLast?_concat]
  rw [List.getLast?_append_of_ne_nil _ (by simp)] at hx hlast
  obtain rfl : x = y := Option.some.inj (hx.symm.trans hlast)
  have hblank := hsb x (by simp)
  rw [Slug.isBlank_of_isNameChar hname] at hblank
  exact absurd hblank (by decide)

/-- no head of a component list reads over the line of an entry and a brace -/
theorem Opens.behind_line (h : Opens .components (p ++ z ++ (tail ++ '\x7d' :: e))) (hz : Inert z) (hn : '\n' ∈ z)
    (ht : Blanks tail) : ∃ a v, e = a ++ v ∧ IsHead .components v ∧ ('\x7d' :: a).getLast?.any isWordChar = false := by
  obtain ⟨u, v, heq, hv, hedge⟩ := h
  have heq' : p ++ z ++ tail ++ '\x7d' :: e = u ++ v := by simpa using heq
  rcases List.append_eq_append_iff.1 heq' with ⟨a, rfl, ha⟩ | ⟨d, hd, rfl⟩
  · cases a with
    | nil =>
      obtain ⟨x, w, rfl, hlow, -⟩ := hv.starts
      obtain rfl : '\x7d' = x := (List.cons.inj ha).1
      exact absurd hlow (by decide)
    | cons x a =>
      obtain ⟨rfl, rfl⟩ := List.cons.inj ha
      exact ⟨a, v, rfl, hv, by simpa [List.getLast?_append, List.getLast?_cons] using hedge⟩
  · -- the brace is in the head, and so the line is before the name of the list
    obtain ⟨s, g1, g2, s', rfl, -, hs, hsb, -, hg, -⟩ := IsArrayHead.cut_inside hv rfl (by decide) (by decide)
    exact absurd hd (hz.not_named hn ht hs hsb fun hm => (hg _ (List.mem_append_left _ hm)).2 rfl)

/-! ## An export list before the component list -/

/-- an export list with a body, and behind it the component list -/
def Before (b t : Text) : Prop := ∃ x e y B r, y = x ++ (b ++ '\x7d' :: e) ∧ t = y ++ (B ++ ']' :: r) ∧
  IsList .exports x b (e ++ (B ++ ']' :: r)) ∧ IsList .components y B r

/-- what a text goes on with behind the head of a list does not decide what follows a brace before it -/
theorem isFromClause_opened {y : Text} (h : Opens .components y) (hy : y = p ++ '\x7d' :: e) (r r' : Text) :
    IsFromClause (e ++ r) ↔ IsFromClause (e ++ r') := by
  obtain ⟨w, hw⟩ := h.ends
  obtain ⟨e, rfl⟩ : ∃ e', e = e' ++ ['['] := by
    rw [hy] at hw
    rcases List.eq_nil_or_concat' e with rfl | ⟨e, d, rfl⟩
    · exact absurd (List.append_inj' hw rfl).2 (by decide)
    · obtain rfl : d = '[' := by
        simpa [List.getLast?_append, List.getLast?_cons, ListKind.opener] using congrArg List.getLast? hw
      exact ⟨e, rfl⟩
  have hstops : ∀ q, Stops ('[' :: q) := fun q => ⟨[], _, q, rfl, blanks_nil, by decide, by decide⟩
  rw [List.append_assoc, List.append_assoc, List.singleton_append, List.singleton_append, isFromClause_append (hstops r),
    isFromClause_append (hstops r')]

/-- a list that is there with one body of the component list is there with any -/
theorem IsList.before {b x y B r : Text} (h : IsList .exports x b (e ++ r)) (hlist : IsList .components y B p)
    (hy : y = x ++ (b ++ '\x7d' :: e)) (r' : Text) : IsList .exports x b (e ++ r') := by
  refine ⟨h.opens, h.body, fun hk => ?_⟩
  rw [isFromClause_opened hlist.opens (by rw [hy, List.append_assoc]) r' r]
  exact h.own hk

/-- it was there before an entry went into the component list -/
theorem Before.of_step {b : Text} (hc : Slug.IsName c.slug) (h : ListKind.components.step.apply t c = .ok t')
    (hb : Before b t') : Before b t := by
  obtain ⟨y, B, r, rfl, hlist, hsole, rfl⟩ := exists_list_of_step h
  obtain ⟨-, hsole'⟩ := hlist.entered hsole hc (.ofContent (y ++ B ++ ListKind.components.closer :: r))
  obtain ⟨x, e, y', B', r', hy, heq, hexports, hlist'⟩ := hb
  obtain rfl := hsole' y' B' r' (by rw [heq, List.append_assoc]; rfl) hlist'
  exact ⟨x, e, y', B, r, hy, by rw [List.append_assoc]; rfl, hexports.before hlist' hy _, hlist⟩

/-- and before an import was added -/
theorem Before.of_import {b : Text} (hc : Slug.IsName c.slug) (h : Listing.importStep.apply t c = .ok t')
    (hb : Before b t') : Before b t := by
  rcases exists_import hc h with rfl | ⟨u0, m, q, source, V, newline, hm, hV, rfl, rfl⟩
  · exact hb
  obtain ⟨x, e, y, B, r, rfl, heq, hexports, hlist⟩ := hb
  have hplace : u0 ++ m ++ (importLine newline c ++ V) = x ++ (b ++ '\x7d' :: (e ++ (B ++ ']' :: r))) := by
    rw [heq]
    simp
  -- where the two lists were
  rcases hexports.exports_insert hc hm hV hplace with ⟨e0, r0, hu, hr0, hexports'⟩ | ⟨v, -, rfl, hv', hexports'⟩ <;>
    rcases hlist.insert hc hm hV heq with ⟨B', r', heq', hlist', hlen⟩ | ⟨w, -, hx, hw', hlist'⟩
  · exact ⟨x, e, _, B', r', rfl, by rw [heq', List.append_assoc]; rfl, hexports.before hlist rfl _, hlist'⟩
  · have hy : u0 ++ m ++ w = x ++ (b ++ '\x7d' :: (e0 ++ w)) := by
      rw [hu]
      simp
    have hV' : u0 ++ m ++ V = u0 ++ m ++ w ++ (B ++ ']' :: r) := by
      rw [hw']
      simp [ListKind.closer]
    rw [hV', hy, List.append_assoc, List.append_cancel_left_eq, List.append_assoc, List.append_cancel_left_eq] at hr0
    obtain rfl : e0 ++ w ++ (B ++ ']' :: r) = r0 := by simpa using hr0
    exact ⟨x, e0 ++ w, _, B, r, hy, hV', hexports', hlist'⟩
  · -- the component list opens behind the export list
    simp only [List.length_append, List.length_cons] at hlen
    omega
  · have hy : w = v ++ (b ++ '\x7d' :: e) := by
      have : u0 ++ m ++ importLine newline c ++ w = u0 ++ m ++ importLine newline c ++ (v ++ (b ++ '\x7d' :: e)) := by
        rw [← hx]
        simp
      exact List.append_cancel_left this
    exact ⟨u0 ++ m ++ v, e, u0 ++ m ++ w, B, r, by rw [hy]; simp, by rw [hw']; simp [ListKind.closer], hexports', hlist'⟩

/-! ## An entry in the export list -/

/-- a body that ends in the line of an entry -/
def EndsInEntry (b : Text) : Prop := ∃ f z tail, b = f ++ z ++ tail ∧ Inert z ∧ '\n' ∈ z ∧ Blanks tail

/-- an entry behind the last item stands on a line of its own exactly if the items do -/
theorem Slot.Sound.entered_line {s : Slot} (hs : s.Sound) (hne : s.filled ≠ []) (hc : Slug.IsName c.slug)
    (hnew : c.pascalName ∉ Splice.items (s.body [])) (newline : Newline) :
    ∃ z, Fits newline s.filled z ∧ s.body z = Index.entered newline (s.body []) c.pascalName ∧
      ('\n' ∈ z ↔ Splice.isStacked (s.body []) = true) := by
  obtain ⟨z, hz, hbody⟩ := hs.entered (fits_nil newline s.filled) hc
  refine ⟨z, hz, hbody, ?_⟩
  have hnil : s.body [] = s.filled ++ s.tail := by simp [Slot.body]
  obtain ⟨gap, -, hgap, happend⟩ := Splice.appendEntry_filled newline hs.filled hne hs.tail c.pascalName
  rw [Index.entered, if_neg hnew, hnil, happend, Slot.body, List.append_cancel_right_eq,
    List.append_cancel_left_eq] at hbody
  have hname : '\n' ∉ c.pascalName := name_notMem hc (by decide)
  rw [hnil, ← hgap, hbody, Splice.joined]
  split_ifs <;> simp [hname]

/-- where a component list opens behind an export list, it does with an entry there, unless the entry's line ends its head -/
theorem Opens.entered {newline : Newline} {s : Slot} (h : Opens .components (s.lead ++ s.filled ++ (s.tail ++ '\x7d' :: e)))
    (hs : s.Sound) (hne : s.filled ≠ []) (hz : Fits newline s.filled z) (hline : '\n' ∈ z → EndsInEntry (s.body [])) :
    Opens .components (s.lead ++ s.filled ++ z ++ (s.tail ++ '\x7d' :: e)) := by
  by_cases hfeed : '\n' ∈ z
  · -- the line of an earlier entry is there already
    obtain ⟨f, z0, tail, hbody, hz0, hn0, ht0⟩ := hline hfeed
    have hplace : s.lead ++ s.filled ++ (s.tail ++ '\x7d' :: e) = s.lead ++ f ++ z0 ++ (tail ++ '\x7d' :: e) := by
      have : s.filled ++ s.tail = f ++ z0 ++ tail := by simpa [Slot.body] using hbody
      rw [← List.append_assoc, List.append_assoc s.lead, this]
      simp
    obtain ⟨a, v, rfl, hv, hedge⟩ := (hplace ▸ h).behind_line hz0 hn0 ht0
    refine ⟨s.lead ++ s.filled ++ z ++ s.tail ++ '\x7d' :: a, v, by simp, hv, ?_⟩
    rw [List.getLast?_append_of_ne_nil _ (by simp)]
    exact hedge
  · refine h.widen hs.tail (fun x hx => ⟨?_, fun hn => hfeed (hn ▸ hx)⟩) ?_
    · rintro rfl
      exact hz.inert.notMem (by decide) (by decide) (by decide) hx
    · rcases hz.joint with h | h | h | h
      · exact Or.inl h
      · exact Or.inr (Or.inl h)
      · exact absurd h hne
      · exact Or.inr (Or.inr (by rw [List.getLast?_append_of_ne_nil _ hne]; exact h))

/-- **an entry in the export list leaves the component list there, if every export list before that one with items on
lines of their own ends in the line of an entry** -/
theorem exists_components_beside {n n' : Text} (hn : HasItem .components t n) (hn' : HasItem .exports t n')
    (hc : Slug.IsName c.slug) (h : ListKind.exports.step.apply t c = .ok t')
    (hline : ∀ b, Before b t → Splice.isStacked b = true → EndsInEntry b) :
    ∃ y B r, t' = y ++ B ++ ']' :: r ∧ IsList .components y B r := by
  obtain ⟨x, body, rest, rfl, hexports, hsole, hin'⟩ := hn'
  obtain ⟨y, B, r, heq, hlist, -, -⟩ := hn
  obtain rfl := hexports.of_step hsole h
  by_cases hnew : c.pascalName ∈ Splice.items body
  · rw [entered, if_pos hnew]
    exact ⟨y, B, r, heq, hlist⟩
  have hfilled := Splice.not_blanks_of_mem_items hin'
  obtain ⟨s, hk, rfl, hs, rfl, hbody⟩ := exists_filled_slot hexports.opens hexports.body hfilled
  have hne : s.filled ≠ [] := fun h => hfilled (trimEnd_eq_nil_iff.1 (hbody ▸ h))
  obtain ⟨z, hz, hentered, hstacked⟩ :=
    hs.entered_line hne hc hnew (.ofContent (s.lead ++ s.body [] ++ ListKind.exports.closer :: rest))
  rw [← hentered]
  have hplace : ∀ v, s.lead ++ s.body v ++ ListKind.exports.closer :: rest =
      s.lead ++ s.filled ++ (v ++ (s.tail ++ '\x7d' :: rest)) := fun v => by simp [Slot.body, ListKind.closer]
  have hz' : ']' ∉ z := hz.inert.closer_notMem .components
  have hopened : ∀ f, s.lead ++ s.filled = y ++ f → f ++ (s.tail ++ '\x7d' :: rest) = B ++ ']' :: r → ∃ y B r,
      s.lead ++ s.body z ++ ListKind.exports.closer :: rest = y ++ B ++ ']' :: r ∧ IsList .components y B r := by
    intro f hf hB
    obtain ⟨B', r', heq', hlist'⟩ := hlist.over (m := s.tail ++ '\x7d' :: rest) List.not_mem_nil hz' hB
    exact ⟨y, B', r', by rw [hplace, hf, List.append_assoc y, heq', List.append_assoc], hlist'⟩
  rw [hplace, List.append_assoc y, List.nil_append] at heq
  rcases List.append_eq_append_iff.1 heq with ⟨v, rfl, hv⟩ | ⟨f, hf, hB⟩
  · by_cases hv0 : v = []
    · subst hv0
      exact hopened [] (by simp) hv
    · -- it opens behind the export list
      obtain ⟨e, rfl⟩ := hlist.opens.behind_brace hv0 hs.tail hv
      obtain rfl : rest = e ++ (B ++ ']' :: r) := by simpa [ListKind.closer] using hv
      have hb : Before (s.body []) (s.lead ++ s.body [] ++ ListKind.exports.closer :: (e ++ (B ++ ']' :: r))) := by
        refine ⟨s.lead, e, _, B, r, ?_, ?_, hexports, hlist⟩ <;> simp [Slot.body, ListKind.closer]
      have hopens := hlist.opens.entered hs hne hz fun hfeed => hline _ hb (hstacked.1 hfeed)
      exact ⟨s.lead ++ s.filled ++ z ++ (s.tail ++ '\x7d' :: e), B, r, by rw [hplace]; simp, hopens.isList hlist.body⟩
  · exact hopened f hf hB.symm

end Componentry.Index
