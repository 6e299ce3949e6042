/-
The lists of an index, as parts of its text.

A list of a kind is a head that opens it, a body without the closer, and a rest; an export list that exports from
elsewhere is none.
- `mem_listSpans`: the lists that are found are exactly these. Two heads that overlap end at the same place, so none is
  missed.
- `listSpans_eq_singleton_iff`: one list is found exactly if there is one place where lists open.
-/
import Componentry.Proofs.Pattern.Heads
import Componentry.Proofs.Pattern.Scanning
import Componentry.Proofs.Slug
import Componentry.Proofs.Text.Pieces

namespace Componentry.Index

open Text

/-! ## Heads -/

/-- the character at which the head of a list ends -/
def ListKind.opener : ListKind → Char
  | .components => '['
  | .exports => '\x7b'

theorem IsHead.ends {kind : ListKind} {v : Text} (h : IsHead kind v) : ∃ a, v = a ++ [kind.opener] := by
  cases kind with
  | components =>
    obtain ⟨s, g, s', rfl, -⟩ := h
    exact ⟨_, rfl⟩
  | exports =>
    obtain ⟨s, rfl, -⟩ := h
    exact ⟨_, rfl⟩

/-- a head starts with a small letter -/
theorem IsHead.starts {kind : ListKind} {v : Text} (h : IsHead kind v) :
    ∃ c w, v = c :: w ∧ isLower c = true ∧ c ≠ 'i' := by
  cases kind with
  | components =>
    obtain ⟨s, g, s', rfl, -⟩ := h
    exact ⟨'c', _, rfl, by decide, by decide⟩
  | exports =>
    obtain ⟨s, rfl, -⟩ := h
    exact ⟨'e', _, rfl, by decide, by decide⟩

theorem IsHead.ne_nil {kind : ListKind} {v : Text} (h : IsHead kind v) : v ≠ [] := by
  obtain ⟨c, w, rfl, -⟩ := h.starts
  simp

/-- a head is cut at a sign that is in it once: the equals sign, or the brace -/
theorem IsArrayHead.cut {v : Text} (h : IsArrayHead v) : ∃ a s, v = a ++ '=' :: (s ++ ['[']) ∧ '=' ∉ a ∧ Blanks s := by
  obtain ⟨s, g, s', rfl, -, hs, -, hg, hs'⟩ := h
  refine ⟨['c', 'o', 'n', 's', 't'] ++ s ++ ['c', 'o', 'm', 'p', 'o', 'n', 'e', 'n', 't', 's'] ++ g, s', by simp, ?_,
    hs'⟩
  simp only [List.mem_append, not_or]
  exact ⟨⟨⟨by decide, fun hm => absurd (hs _ hm) (by decide)⟩, by decide⟩, fun hm => (hg _ hm).1 rfl⟩

/-- a sign that is in none of its words stands in the head of a component list between the name and the equals sign -/
theorem IsArrayHead.cut_inside {v a b : Text} {x : Char} (h : IsArrayHead v) (heq : v = a ++ x :: b)
    (hvisible : isBlank x = false)
    (hx : x ∉ ['c', 'o', 'n', 's', 't'] ++ ['c', 'o', 'm', 'p', 'o', 'n', 'e', 'n', 't', 's'] ++ ['=', '[']) :
    ∃ s g1 g2 s', a = ['c', 'o', 'n', 's', 't'] ++ s ++ ['c', 'o', 'm', 'p', 'o', 'n', 'e', 'n', 't', 's'] ++ g1 ∧
      b = g2 ++ '=' :: s' ++ ['['] ∧ s ≠ [] ∧ Blanks s ∧ (g1 ++ x :: g2).head?.any isWordChar = false ∧
      (∀ c ∈ g1 ++ x :: g2, c ≠ '=' ∧ c ≠ '\n') ∧ Blanks s' := by
  obtain ⟨s, g, s', hv, hne, hs, hg, hgc, hs'⟩ := h
  have hblank : ∀ {b : Text}, Blanks b → x ∉ b := fun hb hm => by simp [hb x hm] at hvisible
  simp only [List.mem_append, not_or] at hx
  have hstart : x ∉ ['c', 'o', 'n', 's', 't'] ++ s ++ ['c', 'o', 'm', 'p', 'o', 'n', 'e', 'n', 't', 's'] := by
    simp only [List.mem_append, not_or]
    exact ⟨⟨hx.1.1, hblank hs⟩, hx.1.2⟩
  have hend : x ∉ '=' :: s' ++ ['['] := by
    obtain ⟨hequals, hopener⟩ : x ≠ '=' ∧ x ≠ '[' := by simpa using hx.2
    simp [hequals, hopener, hblank hs']
  obtain ⟨g1, g2, rfl, rfl, rfl⟩ := cut_between (by rw [← heq, hv, List.append_assoc]) hstart hend
  exact ⟨s, g1, g2, s', rfl, by simp, hne, hs, hg, hgc, hs'⟩

theorem IsExportHead.cut {v : Text} (h : IsExportHead v) : ∃ a, v = a ++ ['\x7b'] ∧ '\x7b' ∉ a := by
  obtain ⟨s, rfl, hs⟩ := h
  refine ⟨['e', 'x', 'p', 'o', 'r', 't'] ++ s, by simp, ?_⟩
  simp only [List.mem_append, not_or]
  exact ⟨by decide, fun hm => absurd (hs _ hm) (by decide)⟩

/-- two heads that overlap end at the same place -/
theorem IsHead.end_unique {kind : ListKind} {v v' w r r' : Text} (h : IsHead kind v) (h' : IsHead kind v')
    (heq : v ++ r = w ++ (v' ++ r')) (hlen : w.length < v.length) : r = r' := by
  -- the second head starts inside the first one
  obtain ⟨w', rfl, hne⟩ : ∃ w', v = w ++ w' ∧ w' ≠ [] := by
    rcases List.append_eq_append_iff.1 heq with ⟨d, rfl, -⟩ | ⟨d, rfl, -⟩
    · simp at hlen
    · exact ⟨d, rfl, by rintro rfl; simp at hlen⟩
  have hin : w' ++ r = v' ++ r' := by simpa using heq
  cases kind with
  | exports =>
    obtain ⟨a, ha, hno⟩ := IsExportHead.cut h
    obtain ⟨a', rfl, hno'⟩ := IsExportHead.cut h'
    have hw : '\x7b' ∉ w := by
      rcases List.append_eq_append_iff.1 ha with ⟨d, rfl, -⟩ | ⟨d, rfl, hd⟩
      · exact fun hm => hno (List.mem_append_left _ hm)
      · obtain ⟨rfl, -⟩ := (List.append_eq_singleton_iff.1 hd.symm).resolve_right fun hd => hne hd.2
        simpa using hno
    have hno' : '\x7b' ∉ w ++ a' := by simp [hw, hno']
    exact (append_cons_unique_of_notMem hno hno' (by rw [ha] at heq; simpa using heq)).2
  | components =>
    obtain ⟨a, s, ha, hno, hs⟩ := IsArrayHead.cut h
    obtain ⟨a', s', rfl, hno', hs'⟩ := IsArrayHead.cut h'
    obtain ⟨c, t, hc, hlow, -⟩ := h'.starts
    obtain ⟨w'', rfl⟩ : ∃ w'', w' = c :: w'' := by
      obtain ⟨d, w'', rfl⟩ := List.exists_cons_of_ne_nil hne
      rw [hc] at hin
      exact ⟨w'', by rw [(List.cons.inj hin).1]⟩
    have hw : '=' ∉ w := by
      rcases List.append_eq_append_iff.1 ha with ⟨d, rfl, -⟩ | ⟨d, rfl, hd⟩
      · exact fun hm => hno (List.mem_append_left _ hm)
      · cases d with
        | nil => simpa using hno
        | cons x d =>
          have hmem : c ∈ s ++ ['['] := by
            rw [(List.cons.inj hd).2]
            simp
          rcases List.mem_append.1 hmem with hm | hm
          · have hb := Slug.isBlank_of_isNameChar (Slug.isNameChar_of_isLower hlow)
            simp [hs c hm] at hb
          · obtain rfl := List.mem_singleton.1 hm
            exact absurd hlow (by decide)
    have hcut : a ++ '=' :: (s ++ '[' :: r) = (w ++ a') ++ '=' :: (s' ++ '[' :: r') := by
      rw [ha] at heq
      simpa using heq
    obtain ⟨-, hr⟩ := append_cons_unique_of_notMem hno (by simp [hw, hno']) hcut
    exact (append_cons_unique (P := fun c => isBlank c = false) (fun c hc => by simp [hs c hc]) (by decide)
      (fun c hc => by simp [hs' c hc]) (by decide) hr).2.2

/-! ## Lists -/

/-- a text that ends with the head of a list -/
def Opens (kind : ListKind) (x : Text) : Prop :=
  ∃ u v, x = u ++ v ∧ IsHead kind v ∧ u.getLast?.any isWordChar = false

/-- a list of a kind: the text up to its body, the body, and what follows its closer -/
structure IsList (kind : ListKind) (x body rest : Text) : Prop where
  opens : Opens kind x
  body : kind.closer ∉ body
  own : kind = .exports → ¬IsFromClause rest

/-- a component list may go on with anything behind its closer -/
theorem Opens.isList {x body rest : Text} (h : Opens .components x) (hbody : ']' ∉ body) :
    IsList .components x body rest := ⟨h, hbody, by simp⟩

theorem Opens.ends {kind : ListKind} {x : Text} (h : Opens kind x) : ∃ y, x = y ++ [kind.opener] := by
  obtain ⟨u, v, rfl, hv, -⟩ := h
  obtain ⟨a, rfl⟩ := hv.ends
  exact ⟨u ++ a, by simp⟩

theorem anchor_advances (kind : ListKind) (b : Bool) : kind.anchor.Advances b := by
  intro k e he
  obtain ⟨v, rest, hk, hv, -, rfl⟩ := mem_ends_anchor.1 he
  have hlen := congrArg List.length hk
  have hpos := List.length_pos_of_ne_nil hv.ne_nil
  rw [List.length_append] at hlen
  simp only [Cursor.after_rest]
  omega

/-- a match of an anchor is a head that is a word of its own -/
theorem head_of_mem_occurrences {kind : ListKind} {t : Text} {m : Occurrence}
    (h : m ∈ kind.anchor.occurrences false t) : ∃ u v rest, t = u ++ v ++ rest ∧ IsHead kind v ∧
      u.getLast?.any isWordChar = false ∧ m.start = u.length ∧ m.stop = (u ++ v).length := by
  obtain ⟨u, v, e, more, rfl, he, rfl⟩ := Pattern.occurrences_sound (anchor_advances kind false) h
  obtain ⟨w, rest, hk, hw, hedge, rfl⟩ := mem_ends_anchor.1 (by rw [he]; exact List.mem_cons_self)
  simp only at hk
  subst hk
  refine ⟨u, w, rest, by simp, hw, by simpa using hedge, ?_, ?_⟩ <;> simp [Pattern.found]

/-- every head is matched, as itself or by one that ends at the same place -/
theorem exists_occurrence_of_opens {kind : ListKind} {x : Text} (h : Opens kind x) (rest : Text) :
    ∃ m ∈ kind.anchor.occurrences false (x ++ rest), m.stop = x.length := by
  obtain ⟨u, v, rfl, hv, hedge⟩ := h
  have hne : kind.anchor.ends false ⟨u.getLast?, v ++ rest, []⟩ ≠ [] :=
    List.ne_nil_of_mem (mem_ends_anchor.2 ⟨v, rest, rfl, hv, hedge, rfl⟩)
  obtain ⟨m, hm, hstart, hstop⟩ := Pattern.occurrences_covers (anchor_advances kind false) hne
  rw [← List.append_assoc] at hm
  refine ⟨m, hm, ?_⟩
  obtain ⟨u', v', e, more, ht, he, rfl⟩ := Pattern.occurrences_sound (anchor_advances kind false) hm
  obtain ⟨w, rest', hk, hw, -, rfl⟩ := mem_ends_anchor.1 (by rw [he]; exact List.mem_cons_self)
  simp only at hk
  subst hk
  simp only [Pattern.found, Cursor.after_rest, List.length_append] at hstart hstop ⊢
  -- the match that covers the place starts before it and reaches over it
  obtain ⟨d, rfl⟩ : ∃ d, u = u' ++ d := by
    rcases List.append_eq_append_iff.1 (ht.symm.trans (List.append_assoc u v rest)) with ⟨d, hd, -⟩ | ⟨d, rfl, -⟩
    · exact ⟨d, hd⟩
    · exact ⟨[], by simp at hstart; simp [hstart]⟩
  have heq : w ++ rest' = d ++ (v ++ rest) := by simpa using ht.symm
  obtain rfl := hw.end_unique hv heq (by simp at hstop; omega)
  have hlen := congrArg List.length heq
  simp only [List.length_append] at hlen ⊢
  omega

theorem drop_closer (x body rest : Text) (c : Char) :
    (x ++ body ++ c :: rest).drop (x.length + body.length + [c].length) = rest := by
  rw [show x ++ body ++ c :: rest = (x ++ body ++ [c]) ++ rest by simp]
  exact List.drop_left' (by simp; omega)

/-- the lists that are found are the lists of the text -/
theorem mem_listSpans {kind : ListKind} {t : Text} {span : Splice.ListSpan} :
    span ∈ Splice.listSpans t kind.anchor [kind.closer] kind.reject ↔ ∃ x body rest,
      t = x ++ body ++ kind.closer :: rest ∧ IsList kind x body rest ∧ span = ⟨x.length, x.length + body.length⟩ := by
  have hreject : ∀ rest, (Splice.given? kind.reject).any (·.startsIn rest) = true ↔
      kind = .exports ∧ IsFromClause rest := by
    intro rest
    rw [← startsIn_fromClause]
    cases kind with
    | components => simp [ListKind.reject, Splice.given?]
    | exports =>
      have hgiven : Splice.given? (some Pattern.fromClause) = some Pattern.fromClause := by decide
      simp [ListKind.reject, hgiven]
  simp only [Splice.listSpans, List.mem_filterMap]
  constructor
  · rintro ⟨m, hm, hspan⟩
    obtain ⟨u, v, y, rfl, hv, hedge, -, hstop⟩ := head_of_mem_occurrences hm
    have hopens : Opens kind (u ++ v) := ⟨u, v, rfl, hv, hedge⟩
    rw [hstop] at hspan
    generalize u ++ v = x at *
    cases hclose : indexFrom? [kind.closer] (x ++ y) x.length with
    | none => simp [hclose] at hspan
    | some close =>
      obtain ⟨body, rest, rfl, hbody, rfl⟩ := indexFrom?_singleton.1 hclose
      rw [← List.append_assoc] at hclose ⊢
      simp only [hclose, ← List.append_assoc, drop_closer] at hspan
      split_ifs at hspan with hr
      rw [hreject, not_and] at hr
      exact ⟨x, body, rest, rfl, ⟨hopens, hbody, hr⟩, (Option.some.inj hspan).symm⟩
  · rintro ⟨x, body, rest, rfl, ⟨hopens, hbody, hown⟩, rfl⟩
    obtain ⟨m, hm, hstop⟩ := exists_occurrence_of_opens hopens (body ++ kind.closer :: rest)
    refine ⟨m, by rwa [List.append_assoc], ?_⟩
    have hclose : indexFrom? [kind.closer] (x ++ body ++ kind.closer :: rest) x.length =
        some (x.length + body.length) := by
      rw [List.append_assoc]
      exact indexFrom?_singleton.2 ⟨body, rest, rfl, hbody, rfl⟩
    have hr : ¬(Splice.given? kind.reject).any (·.startsIn rest) = true := by
      rw [hreject, not_and]
      exact hown
    simp only [hstop, hclose, drop_closer, if_neg hr]

/-- the lists that are found start one after the other -/
theorem listSpans_sorted (kind : ListKind) (t : Text) :
    (Splice.listSpans t kind.anchor [kind.closer] kind.reject).Pairwise fun a b => a.start < b.start := by
  have hsorted : (kind.anchor.occurrences false t).Pairwise fun a b => a.stop < b.stop := by
    refine (Pattern.occurrences_sorted (anchor_advances kind false) t).imp_of_mem fun {a b} _ hb hab => ?_
    obtain ⟨u, v, e, more, -, he, rfl⟩ := Pattern.occurrences_sound (anchor_advances kind false) hb
    have hlt : e.rest.length < v.length := anchor_advances kind false _ e (by rw [he]; exact List.mem_cons_self)
    simp only [Pattern.found] at hab ⊢
    omega
  refine hsorted.filterMap _ fun a b hab span hspan span' hspan' => ?_
  -- a list starts where its anchor stops
  split at hspan
  · simp at hspan
  · split at hspan'
    · simp at hspan'
    · split_ifs at hspan hspan'
      rw [← Option.some.inj hspan, ← Option.some.inj hspan']
      exact hab

/-- lists of a kind open at one place alone -/
def Sole (kind : ListKind) (t x : Text) : Prop :=
  ∀ x' body rest, t = x' ++ body ++ kind.closer :: rest → IsList kind x' body rest → x' = x

/-- one list is found exactly if it is one, and lists open there alone -/
theorem listSpans_eq_singleton_iff {kind : ListKind} {x body rest : Text} :
    Splice.listSpans (x ++ body ++ kind.closer :: rest) kind.anchor [kind.closer] kind.reject =
      [⟨x.length, x.length + body.length⟩] ↔
        IsList kind x body rest ∧ Sole kind (x ++ body ++ kind.closer :: rest) x := by
  constructor
  · intro h
    have hspan : ∀ {x' body' rest'}, x ++ body ++ kind.closer :: rest = x' ++ body' ++ kind.closer :: rest' →
        IsList kind x' body' rest' → x' = x ∧ x'.length + body'.length = x.length + body.length := by
      intro x' body' rest' ht hlist
      have hmem := mem_listSpans.2 ⟨x', body', rest', ht, hlist, rfl⟩
      rw [h, List.mem_singleton, Splice.ListSpan.mk.injEq] at hmem
      rw [List.append_assoc, List.append_assoc] at ht
      exact ⟨(List.append_inj ht hmem.1.symm).1.symm, hmem.2⟩
    refine ⟨?_, fun x' body' rest' ht hlist => (hspan ht hlist).1⟩
    obtain ⟨x', body', rest', ht, hlist, -⟩ := mem_listSpans.1 (by rw [h]; exact List.mem_singleton_self _)
    obtain ⟨rfl, hlen⟩ := hspan ht hlist
    rw [List.append_assoc, List.append_assoc, List.append_cancel_left_eq] at ht
    obtain ⟨rfl, hrest⟩ := List.append_inj ht (by omega)
    rw [(List.cons.inj hrest).2]
    exact hlist
  · rintro ⟨hlist, hsole⟩
    have hall : ∀ span ∈ Splice.listSpans (x ++ body ++ kind.closer :: rest) kind.anchor [kind.closer] kind.reject,
        span = ⟨x.length, x.length + body.length⟩ := by
      intro span hspan
      obtain ⟨x', body', rest', ht, hlist', rfl⟩ := mem_listSpans.1 hspan
      obtain rfl := hsole x' body' rest' ht hlist'
      rw [List.append_assoc, List.append_assoc, List.append_cancel_left_eq] at ht
      rw [(append_cons_unique_of_notMem hlist.body hlist'.body ht).1]
    have hsorted := listSpans_sorted kind (x ++ body ++ kind.closer :: rest)
    have hmem := mem_listSpans.2 ⟨x, body, rest, rfl, hlist, rfl⟩
    generalize Splice.listSpans (x ++ body ++ kind.closer :: rest) kind.anchor [kind.closer] kind.reject = spans
      at hall hsorted hmem
    match spans with
    | [] => simp at hmem
    | [span] => rw [hall span (by simp)]
    | a :: b :: more =>
      have hlt := (List.pairwise_cons.1 hsorted).1 b (by simp)
      rw [hall a (by simp), hall b (by simp)] at hlt
      exact absurd hlt (lt_irrefl _)

/-- the body of a list with an entry, which stays alone if it is listed -/
def entered (newline : Newline) (body entry : Text) : Text :=
  if entry ∈ Splice.items body then body else Splice.appendEntry newline body entry

/-- where one list is found, an entry goes into it and nothing else changes -/
theorem intoList_of_listSpans {anchor : Pattern} {closer : Text} {reject : Option Pattern} {x body rest : Text}
    (h : Splice.listSpans (x ++ body ++ rest) anchor closer reject = [⟨x.length, x.length + body.length⟩])
    (entry : Text) : Splice.intoList anchor closer reject (x ++ body ++ rest) entry =
      .ok (x ++ entered (.ofContent (x ++ body ++ rest)) body entry ++ rest) := by
  have hslice : slice (x ++ body ++ rest) x.length (x.length + body.length) = body := by
    rw [slice, ← List.length_append, List.take_left' rfl, List.drop_left' rfl]
  have htake : (x ++ body ++ rest).take x.length = x := by
    rw [List.append_assoc, List.take_left' rfl]
  have hdrop : (x ++ body ++ rest).drop (x.length + body.length) = rest := by
    rw [← List.length_append, List.drop_left' rfl]
  unfold Splice.intoList entered
  rw [h]
  simp only [hslice, htake, hdrop, List.contains_iff_mem]
  split_ifs with hin
  · rfl
  · rfl

/-- **so where there is one list of a kind** -/
theorem intoList_eq {kind : ListKind} {x body rest : Text} (h : IsList kind x body rest)
    (hsole : Sole kind (x ++ body ++ kind.closer :: rest) x) (entry : Text) :
    Splice.intoList kind.anchor [kind.closer] kind.reject (x ++ body ++ kind.closer :: rest) entry =
      .ok (x ++ entered (.ofContent (x ++ body ++ kind.closer :: rest)) body entry ++ kind.closer :: rest) :=
  intoList_of_listSpans (listSpans_eq_singleton_iff.2 ⟨h, hsole⟩) entry

/-- and where an entry can be added, there is one list -/
theorem exists_list_of_intoList {kind : ListKind} {t t' entry : Text}
    (h : Splice.intoList kind.anchor [kind.closer] kind.reject t entry = .ok t') : ∃ x body rest,
      t = x ++ body ++ kind.closer :: rest ∧ IsList kind x body rest ∧ Sole kind t x ∧
        t' = x ++ entered (.ofContent t) body entry ++ kind.closer :: rest := by
  cases hspans : Splice.listSpans t kind.anchor [kind.closer] kind.reject with
  | nil => simp [Splice.intoList, hspans] at h
  | cons span spans =>
    cases spans with
    | cons span' spans => simp [Splice.intoList, hspans] at h
    | nil =>
      obtain ⟨x, body, rest, rfl, -, rfl⟩ := mem_listSpans.1 (by rw [hspans]; exact List.mem_singleton_self _)
      obtain ⟨hlist, hsole⟩ := listSpans_eq_singleton_iff.1 hspans
      rw [intoList_eq hlist hsole] at h
      exact ⟨x, body, rest, rfl, hlist, hsole, (Except.ok.inj h).symm⟩

end Componentry.Index
