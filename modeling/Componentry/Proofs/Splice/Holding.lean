/-
An item that a list of an index has, while a component is registered.

- `HasItem`: there is one list of a kind, and it has the item.
- `HasItem.step`, `HasItem.beside`: an entry in that list, or in one of the other kind, leaves the item there.
- `HasItem.exports`: so does one that goes into an empty export list, if there is one component list then.
- `HasItem.cross`, `HasItem.exports_insert`: so does an import.
-/
import Componentry.Proofs.Splice.Crossing
import Componentry.Proofs.Listing

namespace Componentry.Index

open Text

/-- one list of a kind, with an item -/
def HasItem (kind : ListKind) (t n : Text) : Prop := ∃ x body rest, t = x ++ body ++ kind.closer :: rest ∧
  IsList kind x body rest ∧ Sole kind t x ∧ n ∈ Splice.items body

variable {kind other : ListKind} {t t' n : Text} {c : Component}

/-! ## An entry in the list itself -/

theorem mem_items_of_entered {newline : Newline} {body : Text} (hc : Slug.IsName c.slug) (hn : n ∈ Splice.items body) :
    n ∈ Splice.items (entered newline body c.pascalName) := by
  unfold entered
  split_ifs
  · exact hn
  · rw [Splice.items_appendEntry newline body (isName_pascalName hc) (pascalName_ne_nil hc)]
    exact List.mem_append_left _ hn

/-- a list that takes an entry has it -/
theorem hasItem_of_step (hc : Slug.IsName c.slug) (h : kind.step.apply t c = .ok t') : HasItem kind t' c.pascalName := by
  obtain ⟨x, body, rest, rfl, hlist, hsole, rfl⟩ := exists_list_of_step h
  obtain ⟨hlist', hsole'⟩ := hlist.entered hsole hc (.ofContent (x ++ body ++ kind.closer :: rest))
  exact ⟨x, _, rest, rfl, hlist', hsole', mem_items_entered hc _ _⟩

/-- and keeps its items -/
theorem HasItem.step (hn : HasItem kind t n) (hc : Slug.IsName c.slug) (h : kind.step.apply t c = .ok t') :
    HasItem kind t' n := by
  obtain ⟨x, body, rest, rfl, hlist, hsole, hin⟩ := hn
  obtain rfl := hlist.of_step hsole h
  obtain ⟨hlist', hsole'⟩ := hlist.entered hsole hc (.ofContent (x ++ body ++ kind.closer :: rest))
  exact ⟨x, _, rest, rfl, hlist', hsole', mem_items_of_entered hc hin⟩

/-! ## An entry in a list of the other kind -/

/-- **an item stays when an entry goes into a list of the other kind, if that one is not empty** -/
theorem HasItem.beside (hn : HasItem other t n) (hkind : kind ≠ other) (hcloser : kind.closer ∉ n) {n' : Text}
    (hn' : HasItem kind t n') (hc : Slug.IsName c.slug) (h : kind.step.apply t c = .ok t')
    (h' : ∃ y B r, t' = y ++ B ++ other.closer :: r ∧ IsList other y B r) : HasItem other t' n := by
  obtain ⟨x, body, rest, rfl, hlist, hsole, hin⟩ := hn'
  obtain ⟨y, B, r, heq, hother, hsole', hin'⟩ := hn
  obtain ⟨y', B', r', rfl, hother'⟩ := h'
  have hfilled := Splice.not_blanks_of_mem_items hin
  have heq' := (hlist.of_step hsole h).symm
  obtain ⟨hsole'', hitems⟩ := hlist.entered_beside hkind hc hfilled hother hother' heq hsole' heq'
  exact ⟨y', B', r', rfl, hother', heq' ▸ hsole'', hitems n hcloser hin'⟩

/-- an item of the component list stays when an entry goes into the export list, if there is one component list then -/
theorem HasItem.exports (hn : HasItem .components t n) (hcloser : '\x7d' ∉ n) (hc : Slug.IsName c.slug)
    (h : ListKind.exports.step.apply t c = .ok t')
    (h' : ∃ y B r, t' = y ++ B ++ ']' :: r ∧ IsList .components y B r ∧ Sole .components t' y) :
    HasItem .components t' n := by
  obtain ⟨x, body, rest, rfl, hlist, -, rfl⟩ := exists_list_of_step h
  obtain ⟨y, B, r, heq, hother, hsole, hin⟩ := hn
  obtain ⟨y', B', r', heq', hother', hsole'⟩ := h'
  have hin' := mem_items_entered_exports hc hcloser hlist hother hother' heq hsole heq' hsole' hin
  exact ⟨y', B', r', heq', hother', hsole', hin'⟩

/-- an export list that is found with an entry in the component list was there without it, if that list is not empty -/
theorem exists_exports_before (hn : HasItem .components t n) (hc : Slug.IsName c.slug)
    (h : ListKind.components.step.apply t c = .ok t') {x body rest : Text} (ht' : t' = x ++ body ++ '\x7d' :: rest)
    (hlist : IsList .exports x body rest) :
    ∃ x body rest, t = x ++ body ++ '\x7d' :: rest ∧ IsList .exports x body rest := by
  obtain ⟨y, B, r, rfl, hother, hsole, hin⟩ := hn
  obtain ⟨s, hk, rfl, hs, rfl, -⟩ :=
    exists_filled_slot hother.opens hother.body (Splice.not_blanks_of_mem_items hin)
  obtain ⟨z, hz, hentered⟩ := hs.entered (fits_nil (.ofContent (s.lead ++ s.body [] ++ ']' :: r)) s.filled) hc
  have heq : s.lead ++ s.body z ++ ']' :: r = x ++ body ++ '\x7d' :: rest := by
    rw [hentered, ← ht']
    exact (hother.of_step hsole h).symm
  rcases hs.refill hz (Or.inl rfl) [] r with rfl | ⟨p, z', w', hpz, hpw, hrefill⟩
  · exact ⟨x, body, rest, heq, hlist⟩
  · rw [hk] at hrefill
    simp only [List.nil_append, List.append_nil] at hpz hpw
    have hplace : p ++ (z' ++ (s.tail ++ ']' :: r)) = x ++ (body ++ '\x7d' :: rest) := by
      rw [← List.append_assoc p, ← hpz, ← List.append_assoc x, ← heq]
      simp [Slot.body]
    have hback : s.lead ++ s.body [] ++ ']' :: r = p ++ (w' ++ (s.tail ++ ']' :: r)) := by
      rw [← List.append_assoc p, ← hpw]
      simp [Slot.body]
    rcases hlist.refill hrefill hplace with ⟨body', rest', hback', hlist', -⟩ | ⟨v, -, -, hv, hlist'⟩
    · exact ⟨x, body', rest', hback.trans hback', hlist'⟩
    · have htext := congrArg (fun t => p ++ (w' ++ t)) hv
      exact ⟨p ++ w' ++ v, body, rest, hback.trans (by simpa [ListKind.closer] using htext), hlist'⟩

/-! ## An import -/

/-- what the import of a component does to a text -/
theorem exists_import (hc : Slug.IsName c.slug) (h : Listing.importStep.apply t c = .ok t') : t' = t ∨
    ∃ u0 m q source V newline, IsImport m q source ∧ EndsLine V ∧ t = u0 ++ m ++ V ∧
      t' = u0 ++ m ++ (importLine newline c ++ V) := by
  obtain ⟨u, V, rfl, hu, hV, -, -, rfl⟩ := exists_block_of_afterImports hc h
  obtain ⟨u0, m, q, source, rfl, hm⟩ := hu.last
  unfold imported
  split_ifs
  · exact Or.inl rfl
  · exact Or.inr ⟨u0, m, q, source, V, .ofContent (u0 ++ m ++ V), hm, hV, rfl, by simp⟩

/-- an item of the component list stays when an import is added -/
theorem HasItem.cross (hn : HasItem .components t n) (hquote : ∀ d ∈ n, ¬IsQuote d) (hc : Slug.IsName c.slug)
    (h : Listing.importStep.apply t c = .ok t') : HasItem .components t' n := by
  rcases exists_import hc h with rfl | ⟨u0, m, q, source, V, newline, hm, hV, rfl, rfl⟩
  · exact hn
  · obtain ⟨x, body, rest, ht, hlist, hsole, hin⟩ := hn
    rw [List.append_assoc x] at ht
    obtain ⟨x', body', rest', ht', hlist', hx, hitems⟩ := hlist.cross hc hm hV ht newline
    exact ⟨x', body', rest', by rw [ht', List.append_assoc]; rfl, hlist', hsole.cross hc hm hV hx, hitems n hquote hin⟩

theorem Crosses.injective {u line x y x' : Text} (hx : Crosses u line x x') (hy : Crosses u line y x') : x = y := by
  rcases hx with ⟨rfl, hx⟩ | ⟨v, hv, rfl, rfl⟩ <;> rcases hy with ⟨rfl, hy⟩ | ⟨w, hw, rfl, hw'⟩
  · rfl
  · have := List.length_pos_of_ne_nil hw
    simp only [hw', List.length_append] at hx
    omega
  · have := List.length_pos_of_ne_nil hv
    simp only [List.length_append] at hy
    omega
  · rw [List.append_cancel_left hw']

/-- one component list with an import was one without it -/
theorem exists_components_of_import (hc : Slug.IsName c.slug) (h : Listing.importStep.apply t c = .ok t')
    {x body rest : Text} (ht' : t' = x ++ body ++ ']' :: rest) (hlist : IsList .components x body rest)
    (hsole : Sole .components t' x) :
    ∃ y B r, t = y ++ B ++ ']' :: r ∧ IsList .components y B r ∧ Sole .components t y := by
  rcases exists_import hc h with rfl | ⟨u0, m, q, source, V, newline, hm, hV, rfl, rfl⟩
  · exact ⟨x, body, rest, ht', hlist, hsole⟩
  · obtain ⟨y, B, r, ht, hlist', hy⟩ : ∃ y B r, u0 ++ m ++ V = y ++ B ++ ']' :: r ∧ IsList .components y B r ∧
        Crosses (u0 ++ m) (importLine newline c) y x := by
      rw [List.append_assoc x] at ht'
      rcases hlist.insert hc hm hV ht' with ⟨body', rest', heq, hlist', hlen⟩ | ⟨v, hv, hx, hv', hlist'⟩
      · exact ⟨x, body', rest', heq, hlist', Or.inl ⟨rfl, hlen⟩⟩
      · refine ⟨u0 ++ m ++ v, body, rest, ?_, hlist', Or.inr ⟨v, hv, rfl, hx⟩⟩
        rw [hv']
        simp [ListKind.closer]
    refine ⟨y, B, r, ht, hlist', fun y' B' r' heq hother => ?_⟩
    -- another one would be another one with the import
    rw [List.append_assoc y'] at heq
    obtain ⟨x', body', rest', heq', hother', hy', -⟩ := hother.cross hc hm hV heq newline
    obtain rfl := hsole x' body' rest' (by rw [heq', List.append_assoc]; rfl) hother'
    exact hy'.injective hy

/-- an item of the export list stays when an import is added, if there is an export list then -/
theorem HasItem.exports_insert (hn : HasItem .exports t n) (hc : Slug.IsName c.slug)
    (h : Listing.importStep.apply t c = .ok t') {x body rest : Text} (ht' : t' = x ++ body ++ '\x7d' :: rest)
    (hlist : IsList .exports x body rest) : HasItem .exports t' n := by
  rcases exists_import hc h with rfl | ⟨u0, m, q, source, V, newline, hm, hV, rfl, rfl⟩
  · exact hn
  · obtain ⟨x0, body0, rest0, ht, hlist0, hsole, hin⟩ := hn
    -- the list was there, and so it is the one with the item
    obtain ⟨y, r, heq, hlist', hy⟩ : ∃ y r, u0 ++ m ++ V = y ++ body ++ '\x7d' :: r ∧ IsList .exports y body r ∧
        Crosses (u0 ++ m) (importLine newline c) y x := by
      rw [List.append_assoc x] at ht'
      rcases hlist.exports_insert hc hm hV ht' with ⟨e, rest', hu, heq, hlist'⟩ | ⟨v, hv, hx, hv', hlist'⟩
      · exact ⟨x, rest', by rw [heq]; simp, hlist', Or.inl ⟨rfl, by simp [hu]⟩⟩
      · exact ⟨u0 ++ m ++ v, rest, by rw [hv']; simp, hlist', Or.inr ⟨v, hv, rfl, hx⟩⟩
    obtain rfl := hsole y body r heq hlist'
    rw [ht, List.append_assoc, List.append_assoc] at heq
    obtain ⟨rfl, -⟩ := append_cons_unique_of_notMem hlist0.body hlist'.body (List.append_cancel_left heq)
    exact ⟨x, body0, rest, ht', hlist, hsole.cross hc hm hV hy, hin⟩

end Componentry.Index
