/-
Lists that have an import put into them.

No head reads over the end of an import's line, so a list opens on one side of it. A component list can go on behind the
line, and then has the new import in its body; an export list cannot, as the import's brace would close it.
- `IsList.cross`: a component list stays one, with its items.
- `IsList.exports_insert`: an export list that is found with the import was there with the same body.
-/
import Componentry.Proofs.Splice.Settling

namespace Componentry.Index

open Text

variable {newline : Newline} {c : Component} {kind : ListKind} {u0 m source V v1 : Text} {q : Char}

/-! ## Heads -/

/-- what stands behind a quote in a head is on its line, up to the equals sign -/
theorem IsHead.behind_quote {v a b : Text} (h : IsHead kind v) (hq : IsQuote q) (heq : v = a ++ q :: b) :
    ∃ g s, b = g ++ '=' :: s ∧ ∀ d ∈ g, d ≠ '=' ∧ d ≠ '\n' := by
  have hvisible : isBlank q = false := by rcases hq with rfl | rfl <;> decide
  cases kind with
  | exports =>
    obtain ⟨s, rfl, hs⟩ := h
    have hblank : q ∉ s := fun hm => not_isQuote_of_isBlank (hs q hm) hq
    have hword : q ∉ ['e', 'x', 'p', 'o', 'r', 't'] ∧ q ∉ ['\x7b'] := by rcases hq with rfl | rfl <;> decide
    have hm : q ∈ ['e', 'x', 'p', 'o', 'r', 't'] ++ s ++ ['\x7b'] := by
      rw [heq]
      simp
    rcases List.mem_append.1 hm with hm | hm
    · exact ((List.mem_append.1 hm).elim hword.1 hblank).elim
    · exact absurd hm hword.2
  | components =>
    obtain ⟨s, g1, g2, s', -, rfl, -, -, -, hg, -⟩ :=
      IsArrayHead.cut_inside h heq hvisible (by rcases hq with rfl | rfl <;> decide)
    exact ⟨g2, s' ++ ['['], by simp, fun d hd => hg d (by simp [hd])⟩

/-- the last quote of an import stands behind every list that opens before its end -/
theorem Opens.quote_behind {x x3 : Text} (h : Opens kind x) (hm : IsImport m q source) (hx : u0 ++ m = x ++ x3) :
    ∃ f q' tail, x3 = f ++ q' :: tail ∧ IsQuote q' ∧ ∀ d ∈ tail, d = ';' ∨ d = ' ' ∨ d = '\t' := by
  obtain ⟨l, tail, rfl, hq, htail⟩ := hm.ends
  obtain ⟨y, rfl⟩ := h.ends
  have hopener : ∀ d, d = ';' ∨ d = ' ' ∨ d = '\t' → d ≠ kind.opener := by
    rintro d hd rfl
    exact not_isJoint_of_tail hd (isJoint_opener kind)
  have hne : kind.opener ∉ q :: tail := by
    rw [List.mem_cons, not_or]
    refine ⟨fun h => not_isQuote_of_isJoint (isJoint_opener kind) (h ▸ hq), fun hm => hopener _ (htail _ hm) rfl⟩
  obtain ⟨-, f, -, -, hf⟩ := cut_between (p := y) (q := x3) (x := kind.opener) (a := []) (b := u0 ++ l) (c := q :: tail)
    (by simpa using hx.symm) (by simp) hne
  exact ⟨_, q, tail, hf, hq, htail⟩

/-- no head reads over the end of an import's line -/
theorem not_isHead_across {u a : Text} (hm : IsImport m q source) (hu : u0 ++ m = u ++ a) (ha : a ≠ [])
    (hv : EndsLine v1) (hne : v1 ≠ []) : ¬IsHead kind (a ++ v1) := by
  intro h
  obtain ⟨l, tail, rfl, hq, htail⟩ := hm.ends
  -- the head starts before the last quote of the import
  obtain ⟨a', rfl⟩ : ∃ a', a = a' ++ q :: tail := by
    have hu' : u0 ++ l ++ q :: tail = u ++ a := by simpa using hu
    rcases List.append_eq_append_iff.1 hu' with ⟨e, rfl, he⟩ | ⟨e, -, he⟩
    · obtain ⟨d, a, rfl⟩ := List.exists_cons_of_ne_nil ha
      obtain ⟨d', w, hw, hlow, -⟩ := h.starts
      obtain rfl : d = d' := (List.cons.inj hw).1
      cases e with
      | nil => exact ⟨[], he.symm⟩
      | cons y e =>
        have hd : d ∈ tail := by
          rw [(List.cons.inj he).2]
          simp
        rcases htail d hd with rfl | rfl | rfl <;> exact absurd hlow (by decide)
    · exact ⟨e, he⟩
  obtain ⟨g, s, heq, hg⟩ := IsHead.behind_quote (a := a') (b := tail ++ v1) h hq (by simp)
  have hequals : '=' ∉ tail := fun hm => by rcases htail _ hm with h | h | h <;> exact absurd h (by decide)
  obtain ⟨g', rfl, hv1⟩ := cut_before heq hequals
  -- behind it the line ends
  have hfeed : '\n' ∉ g' := fun hm => (hg _ (List.mem_append_right _ hm)).2 rfl
  cases g' with
  | nil => rcases hv.head with h | h | h <;> simp [hv1] at h
  | cons d g' =>
    obtain ⟨r, rfl | rfl, hr⟩ := hv
    · rcases hr with rfl | hr
      · exact hne rfl
      · rw [hv1] at hr
        exact hfeed (by simpa using Or.inl hr.symm)
    · obtain ⟨-, rfl⟩ := List.cons.inj hv1
      cases g' with
      | nil => simp at hr
      | cons y g' =>
        obtain rfl : y = '\n' := by simpa using hr
        simp at hfeed

/-- a list that opens behind an import does so whatever stands before the end of its line -/
theorem Opens.behind_import (h : Opens kind (u0 ++ m ++ v1)) (hm : IsImport m q source) (hv : EndsLine v1)
    (hne : v1 ≠ []) (w : Text) : Opens kind (w ++ v1) := by
  obtain ⟨u, v, heq, hhead, hedge⟩ := h
  rcases List.append_eq_append_iff.1 heq with ⟨a, rfl, ha⟩ | ⟨a, hu, ha⟩
  · cases a with
    | nil => exact absurd ha (hhead.ne_lineEnd hv)
    | cons x a =>
      refine ⟨w ++ x :: a, v, by rw [ha]; simp, hhead, ?_⟩
      simpa [List.getLast?_append, List.getLast?_cons] using hedge
  · by_cases ha0 : a = []
    · subst ha0
      exact absurd ha.symm (hhead.ne_lineEnd hv)
    · exact absurd (ha ▸ hhead) (not_isHead_across hm hu ha0 hv hne)

/-! ## Lists -/

/-- where a list of a text with an import in it stands in the text without it, and the other way round -/
def Crosses (u line x x' : Text) : Prop := (x' = x ∧ x.length ≤ u.length) ∨ ∃ v, v ≠ [] ∧ x = u ++ v ∧ x' = u ++ line ++ v

/-- **a component list of a text is one of the text with an import, and has its items** -/
theorem IsList.cross {x body rest : Text} (h : IsList .components x body rest) (hc : Slug.IsName c.slug)
    (hm : IsImport m q source) (hV : EndsLine V) (ht : u0 ++ m ++ V = x ++ (body ++ ']' :: rest)) (newline : Newline) :
    ∃ x' body' rest', u0 ++ m ++ (importLine newline c ++ V) = x' ++ (body' ++ ']' :: rest') ∧
      IsList .components x' body' rest' ∧ Crosses (u0 ++ m) (importLine newline c) x x' ∧
      ∀ n, (∀ d ∈ n, ¬IsQuote d) → n ∈ Splice.items body → n ∈ Splice.items body' := by
  have hline : ']' ∉ importLine newline c := (bracket_notMem_importLine hc).2
  have hbefore : ∀ x3, u0 ++ m = x ++ x3 → x3 ++ V = body ++ ']' :: rest → ∃ x' body' rest',
      u0 ++ m ++ (importLine newline c ++ V) = x' ++ (body' ++ ']' :: rest') ∧
      IsList .components x' body' rest' ∧ Crosses (u0 ++ m) (importLine newline c) x x' ∧
      ∀ n, (∀ d ∈ n, ¬IsQuote d) → n ∈ Splice.items body → n ∈ Splice.items body' := by
    intro x3 hx heq
    have hlen : x.length ≤ (u0 ++ m).length := by simp [hx]
    obtain ⟨f, q', tail, rfl, hq', htail⟩ := h.opens.quote_behind hm hx
    by_cases hclosed : ']' ∈ f ++ q' :: tail
    · -- it is closed before the import
      obtain ⟨b, e, hb, hnot⟩ := List.eq_append_cons_of_mem hclosed
      rw [hb, List.append_assoc] at heq
      obtain ⟨rfl, -⟩ := append_cons_unique_of_notMem hnot h.body heq
      exact ⟨x, b, e ++ (importLine newline c ++ V), by rw [hx, hb]; simp, h.opens.isList hnot, Or.inl ⟨rfl, hlen⟩,
        fun n _ hin => hin⟩
    · -- the import goes into one item, and so is the quote before it
      obtain ⟨b, rfl, rfl⟩ := cut_before heq hclosed
      have hb : ']' ∉ b := fun hm => h.body (List.mem_append_right _ hm)
      refine ⟨x, f ++ q' :: tail ++ (importLine newline c ++ b), rest, by rw [hx]; simp, h.opens.isList ?_,
        Or.inl ⟨rfl, hlen⟩, fun n hn hin => ?_⟩
      · exact fun hm => (List.mem_append.1 hm).elim hclosed fun hm => (List.mem_append.1 hm).elim hline hb
      · have hcomma : ',' ∉ tail := fun hm => by rcases htail _ hm with h | h | h <;> exact absurd h (by decide)
        have hvisible : isBlank q' = false ∧ q' ≠ ',' := by rcases hq' with rfl | rfl <;> decide
        have hin' : n ∈ Splice.items (f ++ ([] ++ q' :: (tail ++ b))) := by simpa using hin
        rcases mem_items_beside (fun hm => hn q' hm hq') hvisible.1 hvisible.2 (by simp) hcomma hin' with h | h
        · simpa using h (q' :: tail ++ (importLine newline c ++ b))
        · simpa using h (f ++ q' :: tail ++ importLine newline c)
  rcases List.append_eq_append_iff.1 ht with ⟨v, hx, hv⟩ | ⟨x3, hx, heq⟩
  · by_cases hv0 : v = []
    · subst hv0
      exact hbefore [] (by simpa using hx.symm) (by simpa using hv)
    · have hopens := (hx ▸ h.opens).behind_import hm (hv ▸ hV).of_append hv0 (u0 ++ m ++ importLine newline c)
      exact ⟨u0 ++ m ++ importLine newline c ++ v, body, rest, by rw [hv]; simp, hopens.isList h.body,
        Or.inr ⟨v, hv0, hx, rfl⟩, fun n _ hin => hin⟩
  · exact hbefore x3 hx heq.symm

/-- where lists open at one place alone, they do with one more import -/
theorem Sole.cross {x x' : Text} (h : Sole kind (u0 ++ m ++ V) x) (hc : Slug.IsName c.slug) (hm : IsImport m q source)
    (hV : EndsLine V) (hx : Crosses (u0 ++ m) (importLine newline c) x x') :
    Sole kind (u0 ++ m ++ (importLine newline c ++ V)) x' := by
  rcases hx with ⟨rfl, hlen⟩ | ⟨v, hv, rfl, rfl⟩
  · intro y body rest ht hlist
    rw [List.append_assoc y] at ht
    rcases hlist.insert hc hm hV ht with ⟨body', rest', heq, hlist', -⟩ | ⟨v1, hv1, -, rfl, hlist'⟩
    · exact h y body' rest' heq hlist'
    · have := congrArg List.length (h (u0 ++ m ++ v1) body rest (by simp) hlist')
      have hpos := List.length_pos_of_ne_nil hv1
      simp only [List.length_append] at this hlen
      omega
  · exact h.insert newline hc hm hv hV

/-- an export list that opens before an import is closed before it -/
theorem IsList.closed_before_import {x x3 body rest : Text} (h : IsList .exports x body rest) (hc : Slug.IsName c.slug)
    (heq : x3 ++ (importLine newline c ++ V) = body ++ '\x7d' :: rest) : ∃ e, x3 = body ++ '\x7d' :: e := by
  have hbody : '\x7d' ∉ body := h.body
  by_cases hclosed : '\x7d' ∈ x3
  · obtain ⟨b, e, rfl, hb⟩ := List.eq_append_cons_of_mem hclosed
    rw [List.append_assoc] at heq
    obtain ⟨rfl, -⟩ := append_cons_unique_of_notMem hb hbody heq
    exact ⟨e, rfl⟩
  · -- what follows its closer names a source
    obtain ⟨a, b, hline, ha, -, hfrom⟩ := importLine_brace hc newline
    rw [hline, List.append_assoc, ← List.append_assoc] at heq
    obtain ⟨-, rfl⟩ := append_cons_unique_of_notMem (by simp [hclosed, ha]) hbody heq
    exact absurd (hfrom V) (h.own rfl)

/-- **an export list of a text with an import is one of the text without it, with the same body** -/
theorem IsList.exports_insert {x body rest : Text} (h : IsList .exports x body rest) (hc : Slug.IsName c.slug)
    (hm : IsImport m q source) (hV : EndsLine V)
    (ht : u0 ++ m ++ (importLine newline c ++ V) = x ++ (body ++ '\x7d' :: rest)) :
    (∃ e rest', u0 ++ m = x ++ (body ++ '\x7d' :: e) ∧ u0 ++ m ++ V = x ++ (body ++ '\x7d' :: rest') ∧
        IsList .exports x body rest') ∨
      ∃ v, v ≠ [] ∧ x = u0 ++ m ++ importLine newline c ++ v ∧ V = v ++ (body ++ '\x7d' :: rest) ∧
        IsList .exports (u0 ++ m ++ v) body rest := by
  rcases h.insert hc hm hV ht with ⟨body', rest', heq, hlist, hlen⟩ | ⟨v, hv, hx, hV', hlist⟩
  · obtain ⟨x3, hx⟩ : ∃ x3, u0 ++ m = x ++ x3 := by
      rcases List.append_eq_append_iff.1 ht with ⟨d, rfl, -⟩ | ⟨x3, hx, -⟩
      · rw [List.length_append] at hlen
        obtain rfl : d = [] := List.length_eq_zero_iff.1 (by omega)
        exact ⟨[], by simp⟩
      · exact ⟨x3, hx⟩
    rw [hx, List.append_assoc, List.append_cancel_left_eq] at ht
    obtain ⟨e, rfl⟩ := h.closed_before_import hc ht
    have hsame : body ++ '\x7d' :: (e ++ V) = body' ++ '\x7d' :: rest' := by
      rw [hx] at heq
      simpa [ListKind.closer] using heq
    obtain ⟨rfl, rfl⟩ := append_cons_unique_of_notMem h.body hlist.body hsame
    exact Or.inl ⟨e, e ++ V, hx, by rw [hx]; simp, hlist⟩
  · exact Or.inr ⟨v, hv, hx, by simpa [ListKind.closer] using hV', hlist⟩

end Componentry.Index
