/-
What adding an entry does to the body of a list.

- `items_appendEntry_eq`, `items_appendEntry`: the entry is the last item, and the other items stay.
- `appendEntry_filled`, `appendEntry_blanks`: the body stays as it is up to its last item and behind it; white space alone
  gives way to the entry.
-/
import Componentry.Proofs.Splice.Filling
import Componentry.Splice.Listed

namespace Componentry

namespace Splice

open Text

/-! ## Items -/

theorem comma_notMem_blanks {b : Text} (hb : Blanks b) : ',' ∉ b := fun hm => absurd (hb _ hm) (by decide)

theorem items_append_comma (a b : Text) : items (a ++ ',' :: b) = items a ++ items b := by
  simp [items, splitAt_append_sep]

theorem items_append_blanks {b : Text} (hb : Blanks b) (t : Text) : items (t ++ b) = items t := by
  obtain ⟨pieces, last, h1, h2⟩ := splitAt_append_of_notMem (comma_notMem_blanks hb) t
  simp [items, h1, h2, trim_append_blanks hb]

theorem items_blanks_append {b : Text} (hb : Blanks b) (t : Text) : items (b ++ t) = items t := by
  induction b with
  | nil => rfl
  | cons c b ih =>
    have hc : isBlank c = true := hb c List.mem_cons_self
    have hcomma : c ≠ ',' := by
      rintro rfl
      exact absurd hc (by decide)
    have htrim : ∀ piece, trim (c :: piece) = trim piece := fun piece =>
      trim_blanks_append (b := [c]) (by simpa [Blanks] using hc)
    obtain ⟨first, pieces, h1, h2⟩ := splitAt_cons hcomma (b ++ t)
    rw [← ih fun d hd => hb d (List.mem_cons_of_mem _ hd)]
    simp only [items, List.cons_append, h1, h2, List.map_cons, htrim]

theorem items_blanks {b : Text} (hb : Blanks b) : items b = [] := by
  simp [items, splitAt_of_notMem (comma_notMem_blanks hb), trim_blanks hb]

theorem not_blanks_of_mem_items {body n : Text} (h : n ∈ items body) : ¬Blanks body := by
  intro hb
  rw [items_blanks hb] at h
  simp at h

/-- a name between blanks is one item -/
theorem items_name {b e : Text} (hb : Blanks b) (he : ∀ c ∈ e, Slug.isNameChar c = true) (hne : e ≠ []) :
    items (b ++ e) = [e] := by
  have hvisible : ∀ c ∈ e, isBlank c = false := fun c hc => Slug.isBlank_of_isNameChar (he c hc)
  have hcomma : ',' ∉ b ++ e := by
    rw [List.mem_append, not_or]
    exact ⟨comma_notMem_blanks hb, fun hm => absurd (he _ hm) (by decide)⟩
  have htrim : trim (b ++ e) = e := by
    rw [trim_blanks_append hb]
    exact trim_of_visible (fun c hc => hvisible c (List.mem_of_head? hc)) fun c hc => hvisible c (List.mem_of_getLast? hc)
  simp [items, splitAt_of_notMem hcomma, htrim, hne]

/-! ## Adding an entry -/

/-- what stands before an added entry: a space, or a line ending and an indentation -/
def IsGap (newline : Newline) (gap : Text) : Prop :=
  gap = [' '] ∨ ∃ indent, gap = newline.text ++ indent ∧ Blanks indent ∧ '\n' ∉ indent

theorem IsGap.blanks {newline : Newline} {gap : Text} (h : IsGap newline gap) : Blanks gap := by
  rcases h with rfl | ⟨indent, rfl, hb, -⟩
  · simp [Blanks]
    decide
  · refine blanks_append.2 ⟨?_, hb⟩
    cases newline <;> simp [Blanks, Newline.text] <;> decide

/-- the entry with its comma, behind the last item or behind that item's comma -/
def joined (filled gap entry : Text) : Text :=
  if filled.getLast? = some ',' then gap ++ entry ++ [','] else ',' :: gap ++ entry

theorem appendEntry_blanks (newline : Newline) {body : Text} (h : Blanks body) (entry : Text) :
    ∃ pad, (pad = [] ∨ pad = [' ']) ∧ appendEntry newline body entry = pad ++ entry ++ pad := by
  simp only [appendEntry, trimEnd_eq_nil_iff.2 h, List.isEmpty_nil, if_true]
  split_ifs
  · exact ⟨[' '], Or.inr rfl, rfl⟩
  · exact ⟨[], Or.inl rfl, rfl⟩

theorem indent_blanks (t : Text) : Blanks (indentation (lastLine t)) ∧ '\n' ∉ indentation (lastLine t) := by
  refine ⟨fun c hc => List.mem_takeWhile_imp hc, fun hm => ?_⟩
  have hline := List.mem_reverse.1 ((List.takeWhile_prefix _).subset hm)
  have := List.mem_takeWhile_imp hline
  simp at this

/-- the entry goes behind the last item, on a line of its own exactly if the items stand that way -/
theorem appendEntry_filled (newline : Newline) {filled tail : Text} (hf : Filled filled) (hne : filled ≠ [])
    (ht : Blanks tail) (entry : Text) : ∃ gap, IsGap newline gap ∧ ('\n' ∈ gap ↔ isStacked (filled ++ tail) = true) ∧
      appendEntry newline (filled ++ tail) entry = filled ++ joined filled gap entry ++ tail := by
  obtain ⟨hb, hn⟩ := indent_blanks filled
  have hfeed : '\n' ∈ newline.text ++ indentation (lastLine filled) := by cases newline <;> simp [Newline.text]
  simp only [appendEntry, trimEnd_filled_append hf ht, List.drop_left, List.isEmpty_iff, hne, if_false, joined]
  split_ifs with h1 h2 h2
  · exact ⟨_, Or.inr ⟨_, rfl, hb, hn⟩, iff_of_true hfeed h1, by simp⟩
  · exact ⟨_, Or.inr ⟨_, rfl, hb, hn⟩, iff_of_true hfeed h1, by simp⟩
  · exact ⟨_, Or.inl rfl, iff_of_false (by simp) h1, by simp⟩
  · exact ⟨_, Or.inl rfl, iff_of_false (by simp) h1, by simp⟩

/-- the items stand on lines of their own exactly if the first line of the body has none -/
theorem isStacked_iff {body : Text} : isStacked body = true ↔
    ∃ s newline rest, body = s ++ Newline.text newline ++ rest ∧ ∀ c ∈ s, c = ' ' ∨ c = '\t' := by
  constructor
  · intro h
    have hfirst := List.takeWhile_append_dropWhile (p := fun c => c = ' ' || c = '\t') (l := body)
    have hspace : ∀ c ∈ body.takeWhile fun c => c = ' ' || c = '\t', c = ' ' ∨ c = '\t' := fun c hc => by
      simpa using List.mem_takeWhile_imp hc
    unfold isStacked at h
    split at h
    · next rest hrest =>
      rw [hrest] at hfirst
      exact ⟨_, .lf, rest, by rw [List.append_assoc]; exact hfirst.symm, hspace⟩
    · next rest hrest =>
      rw [hrest] at hfirst
      exact ⟨_, .crlf, rest, by rw [List.append_assoc]; exact hfirst.symm, hspace⟩
    · exact absurd h (by decide)
  · rintro ⟨s, newline, rest, rfl, hs⟩
    rw [isStacked, List.append_assoc, List.dropWhile_append_of_pos (by simpa using hs)]
    cases newline <;> rfl

/-- how the items stand is decided before the last of them ends -/
theorem isStacked_append {filled : Text} (hf : Filled filled) (hne : filled ≠ []) {a : Text} (b : Text)
    (h : isStacked (filled ++ a) = true) : isStacked (filled ++ b) = true := by
  obtain ⟨s, newline, rest, heq, hs⟩ := isStacked_iff.1 h
  have hblank : Blanks (s ++ newline.text) := by
    refine blanks_append.2 ⟨fun c hc => ?_, by cases newline <;> simp [Blanks, Newline.text] <;> decide⟩
    rcases hs c hc with rfl | rfl <;> decide
  rcases List.append_eq_append_iff.1 heq with ⟨e, he, -⟩ | ⟨e, rfl, -⟩
  · obtain ⟨front, x, rfl⟩ := (List.eq_nil_or_concat' filled).resolve_left hne
    have hx := hblank x (by rw [he]; simp)
    rw [hf x (by simp)] at hx
    exact absurd hx (by decide)
  · exact isStacked_iff.2 ⟨s, newline, e ++ b, by simp, hs⟩

/-- **what is added stands behind the items there were** -/
theorem items_appendEntry_eq (newline : Newline) (body entry : Text) :
    items (appendEntry newline body entry) = items body ++ items entry := by
  obtain ⟨tail, hbody, ht, hf⟩ := exists_trimEnd body
  by_cases hfilled : trimEnd body = []
  · have hb : Blanks body := trimEnd_eq_nil_iff.1 hfilled
    obtain ⟨pad, hpad, happend⟩ := appendEntry_blanks newline hb entry
    have hblanks : Blanks pad := by
      rcases hpad with rfl | rfl
      · exact blanks_nil
      · simp [Blanks]
        decide
    rw [happend, items_append_blanks hblanks, items_blanks_append hblanks, items_blanks hb, List.nil_append]
  · rw [hbody]
    obtain ⟨gap, hgap, -, happend⟩ := appendEntry_filled newline hf hfilled ht entry
    rw [happend, items_append_blanks ht, items_append_blanks ht]
    unfold joined
    split_ifs with hcomma
    · obtain ⟨front, hfront⟩ := List.getLast?_eq_some_iff.1 hcomma
      rw [hfront, List.append_assoc front, List.singleton_append, items_append_comma, items_append_comma,
        items_append_comma, items_blanks_append hgap.blanks, items_blanks blanks_nil]
      simp
    · rw [List.cons_append, items_append_comma, items_blanks_append hgap.blanks]

/-- an entry that is a name is the last item then -/
theorem items_appendEntry (newline : Newline) (body : Text) {entry : Text} (he : ∀ c ∈ entry, Slug.isNameChar c = true)
    (hne : entry ≠ []) : items (appendEntry newline body entry) = items body ++ [entry] := by
  rw [items_appendEntry_eq, ← items_name blanks_nil he hne, List.nil_append]

end Splice

end Componentry
