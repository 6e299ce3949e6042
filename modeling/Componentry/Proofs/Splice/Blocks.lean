/-
The block of imports of an index, and what an import adds to it.

- `EndsBlock.insert`: behind the last import of a block, one more import is the last one of the same block.
- `EndsBlock.afterImports`: a statement goes there, unless its source is imported already.
-/
import Mathlib.Data.List.Chain
import Componentry.Proofs.Splice.Inserting
import Componentry.Proofs.Text.Newlines

namespace Componentry.Index

open Text

/-! ## Blocks -/

/-- the imports of an index -/
def imports (t : Text) : List Occurrence := Pattern.importStatement.occurrences true t

/-- imports form one block exactly if each belongs to the block of the one before it -/
theorem blockCount_le_one_iff {t : Text} {found : List Occurrence} :
    Splice.blockCount t found ≤ 1 ↔ found.IsChain fun a b => Splice.sameBlock t a b = true := by
  change _ + 1 ≤ 0 + 1 ↔ _
  rw [Nat.add_le_add_iff_right, Nat.le_zero, List.length_eq_zero_iff]
  induction found with
  | nil => simp
  | cons a found ih =>
    cases found with
    | nil => simp
    | cons b found =>
      rw [List.isChain_cons_cons, ← ih]
      cases hab : Splice.sameBlock t a b <;> simp [hab]

/-- whether two imports are of one block is decided between them -/
theorem sameBlock_append {u v : Text} {a b : Occurrence} (hb : b.start ≤ u.length) :
    Splice.sameBlock (u ++ v) a b = Splice.sameBlock u a b := by
  unfold Splice.sameBlock slice
  rw [List.take_append_of_le_length hb]

theorem start_le_of_mem_imports {t : Text} {o : Occurrence} (ho : o ∈ imports t) : o.start ≤ t.length := by
  obtain ⟨u, v, e, more, rfl, -, rfl⟩ := Pattern.occurrences_sound importStatement_advances ho
  simp [Pattern.found]

theorem blockCount_append {u v : Text} :
    Splice.blockCount (u ++ v) (imports u) ≤ 1 ↔ Splice.blockCount u (imports u) ≤ 1 := by
  rw [blockCount_le_one_iff, blockCount_le_one_iff]
  refine List.IsChain.iff_of_mem_imp fun a b _ hb => ?_
  rw [sameBlock_append (start_le_of_mem_imports hb)]

/-- a text that ends with an import, the last one of a block -/
structure EndsBlock (u : Text) : Prop where
  last : ∃ u0 m q source, u = u0 ++ m ∧ IsImport m q source
  stop : ∃ o, (imports u).getLast? = some o ∧ o.stop = u.length
  block : Splice.blockCount u (imports u) ≤ 1

/-- the sources of the imports -/
def sources (t : Text) : List Text := (imports t).filterMap (·.part? .source)

/-- the last import of a text, and what follows it -/
theorem exists_last_import {t : Text} {o : Occurrence} (h : (imports t).getLast? = some o) :
    ∃ u0 m q source v, t = u0 ++ m ++ v ∧ IsImport m q source ∧ EndsLine v ∧ o.stop = (u0 ++ m).length := by
  obtain ⟨u, v, e, more, rfl, he, rfl⟩ := Pattern.occurrences_sound importStatement_advances (List.mem_of_getLast? h)
  obtain ⟨m, q, source, rest, hv, hm, -, hend, rfl⟩ := mem_ends_importStatement.1 (by rw [he]; exact List.mem_cons_self)
  simp only at hv
  subst hv
  exact ⟨u, m, q, source, rest, by simp, hm, hend, by simp [Pattern.found]⟩

theorem start_le_stop_of_mem_imports {t : Text} {o : Occurrence} (ho : o ∈ imports t) : o.start ≤ o.stop := by
  obtain ⟨u, v, e, more, -, -, rfl⟩ := Pattern.occurrences_sound importStatement_advances ho
  simp [Pattern.found]

/-- every import ends before the last one does -/
theorem stop_le_last {t : Text} {o last : Occurrence} (hlast : (imports t).getLast? = some last) (ho : o ∈ imports t) :
    o.stop ≤ last.stop := by
  obtain ⟨front, hfront⟩ := List.getLast?_eq_some_iff.1 hlast
  have hsorted : (imports t).Pairwise fun a b => a.stop ≤ b.start :=
    Pattern.occurrences_sorted importStatement_advances t
  rw [hfront] at ho hsorted
  rcases List.mem_append.1 ho with ho | ho
  · have hle := (List.pairwise_append.1 hsorted).2.2 o ho last (List.mem_singleton_self _)
    exact hle.trans (start_le_stop_of_mem_imports (List.mem_of_getLast? hlast))
  · rw [List.mem_singleton.1 ho]

/-- no import starts behind the last one -/
theorem silent_of_last {u v : Text} {last : Occurrence} (hlast : (imports (u ++ v)).getLast? = some last)
    (hstop : last.stop = u.length) : Silent v := by
  rintro a m q source rest rfl hm hend
  have hne : Pattern.importStatement.ends true ⟨(u ++ a ++ ['\n']).getLast?, m ++ rest, []⟩ ≠ [] := by
    refine List.ne_nil_of_mem (mem_ends_importStatement.2 ⟨m, q, source, rest, rfl, hm, Or.inr ?_, hend, rfl⟩)
    simp
  obtain ⟨o, ho, -, hover⟩ := Pattern.occurrences_covers importStatement_advances hne
  have htext : u ++ a ++ ['\n'] ++ (m ++ rest) = u ++ (a ++ '\n' :: (m ++ rest)) := by simp
  have hle := stop_le_last hlast (htext ▸ ho)
  simp only [List.length_append] at hover
  omega

/-- a text whose imports form one block goes on behind the last of them without another one -/
theorem exists_block {t : Text} {o : Occurrence} (hlast : (imports t).getLast? = some o)
    (hblock : Splice.blockCount t (imports t) ≤ 1) : ∃ u v, t = u ++ v ∧ EndsBlock u ∧ EndsLine v ∧ Silent v ∧
      o.stop = u.length ∧ imports t = imports u := by
  obtain ⟨u0, m, q, source, v, rfl, hm, hv, hstop⟩ := exists_last_import hlast
  have hsil := silent_of_last hlast hstop
  have himports : imports (u0 ++ m ++ v) = imports (u0 ++ m) := occurrences_silent hm hv hsil
  rw [himports] at hlast hblock
  exact ⟨u0 ++ m, v, rfl, ⟨⟨u0, m, q, source, rfl, hm⟩, ⟨o, hlast, hstop⟩, blockCount_append.1 hblock⟩, hv, hsil, hstop,
    himports⟩

section Block

variable {newline : Newline} {c : Component} {u V : Text}

/-- it ends with a character that is neither of a word nor of a line ending -/
theorem EndsBlock.visible (hu : EndsBlock u) : ∃ x, u.getLast? = some x ∧ isWordChar x = false ∧ x ≠ '\r' := by
  obtain ⟨u0, m, q, source, rfl, hm⟩ := hu.last
  obtain ⟨l, tail, rfl, hq, htail⟩ := hm.ends
  rcases List.eq_nil_or_concat' tail with rfl | ⟨tail, x, rfl⟩
  · refine ⟨q, by simp, ?_⟩
    rcases hq with rfl | rfl <;> decide
  · refine ⟨x, by simp [List.getLast?_append, List.getLast?_cons], ?_⟩
    rcases htail x (by simp) with rfl | rfl | rfl <;> decide

/-- the imports are those up to the last one -/
theorem EndsBlock.imports_append (hu : EndsBlock u) (hV : EndsLine V) (hsil : Silent V) :
    imports (u ++ V) = imports u := by
  obtain ⟨u0, m, q, source, rfl, hm⟩ := hu.last
  exact occurrences_silent hm hV hsil

/-- **a statement goes behind the last import and nothing else changes, unless its source is imported** -/
theorem EndsBlock.afterImports (hu : EndsBlock u) (hV : EndsLine V) (hsil : Silent V) {statement source : Text}
    (hsource : Splice.sourceOf? statement = some source) :
    Splice.afterImports .importStatement (u ++ V) statement = .ok ((if source ∈ sources u then u else
      u ++ ((Newline.ofContent (u ++ V)).text ++ withNewline (.ofContent (u ++ V)) statement)) ++ V) := by
  obtain ⟨o, ho, hstop⟩ := hu.stop
  have himports : Pattern.importStatement.occurrences true (u ++ V) = imports u := hu.imports_append hV hsil
  have hblock : ¬Splice.blockCount (u ++ V) (imports u) > 1 := not_lt.2 (blockCount_append.2 hu.block)
  have hsources : Splice.sources .importStatement (u ++ V) = sources u := by rw [Splice.sources, himports, sources]
  have hkeeps : Pattern.importStatement.keeps .source = true := by decide
  unfold Splice.afterImports
  simp only [himports, ho, if_neg hblock, hsource, hkeeps, hsources, hstop, Splice.insertAt,
    List.take_left' rfl, List.drop_left' rfl, List.contains_iff_mem, Bool.not_true, Bool.false_eq_true, if_false]
  split_ifs <;> rfl

/-- behind a block every text can be put in -/
theorem EndsBlock.afterImports_ok (hu : EndsBlock u) (hV : EndsLine V) (hsil : Silent V) (statement : Text) :
    ∃ t', Splice.afterImports .importStatement (u ++ V) statement = .ok t' := by
  cases hsource : Splice.sourceOf? statement with
  | some source => exact ⟨_, hu.afterImports hV hsil hsource⟩
  | none =>
    obtain ⟨o, ho, -⟩ := hu.stop
    have himports : Pattern.importStatement.occurrences true (u ++ V) = imports u := hu.imports_append hV hsil
    have hblock : ¬Splice.blockCount (u ++ V) (imports u) > 1 := not_lt.2 (blockCount_append.2 hu.block)
    unfold Splice.afterImports
    simp only [himports, ho, if_neg hblock, hsource]
    split_ifs <;> exact ⟨_, rfl⟩

theorem EndsBlock.imports_insert (hu : EndsBlock u) (hc : Slug.IsName c.slug) (newline : Newline) :
    imports (u ++ importLine newline c) = imports u ++
      [⟨(u ++ newline.text).length, (u ++ importLine newline c).length, [(.source, sourceOf c), (.quote, ['\''])]⟩] := by
  obtain ⟨u0, m, q, source, rfl, hm⟩ := hu.last
  have hsil : Silent [] := by
    intro a m q source rest h
    simp at h
  rw [imports, importLine, ← List.append_nil (newline.text ++ _),
    occurrences_import_insert hm newline (isImport_importFragment hc) ⟨[], Or.inl rfl, Or.inl rfl⟩ hsil]
  simp [imports]

/-- **one more import is the last one of the block** -/
theorem EndsBlock.insert (hu : EndsBlock u) (hc : Slug.IsName c.slug) (newline : Newline) :
    EndsBlock (u ++ importLine newline c) := by
  refine ⟨⟨u ++ newline.text, _, _, _, by simp [importLine], isImport_importFragment hc⟩, ?_, ?_⟩
  · rw [hu.imports_insert hc]
    exact ⟨_, List.getLast?_concat .., rfl⟩
  · obtain ⟨o, ho, hstop⟩ := hu.stop
    rw [hu.imports_insert hc, blockCount_le_one_iff, List.isChain_append]
    refine ⟨blockCount_le_one_iff.1 (blockCount_append.2 hu.block), by simp, ?_⟩
    intro x hx y hy
    obtain rfl : o = x := by simpa [ho] using hx
    obtain rfl := (List.mem_singleton.1 (List.mem_of_mem_head? hy)).symm
    have hslice : slice (u ++ importLine newline c) o.stop (u ++ newline.text).length = newline.text := by
      rw [slice, hstop, importLine, ← List.append_assoc, List.take_left' rfl, List.drop_left' rfl]
    rw [Splice.sameBlock, hslice]
    cases newline <;> decide

/-- and its source the last one -/
theorem EndsBlock.sources_insert (hu : EndsBlock u) (hc : Slug.IsName c.slug) (newline : Newline) :
    sources (u ++ importLine newline c) = sources u ++ [sourceOf c] := by
  rw [sources, hu.imports_insert hc, List.filterMap_append]
  simp [sources, Occurrence.part?]

/-- the imports with that of a component, which stays alone if its source is imported -/
def imported (newline : Newline) (u : Text) (c : Component) : Text :=
  if sourceOf c ∈ sources u then u else u ++ importLine newline c

theorem break_notMem_importFragment (hc : Slug.IsName c.slug) :
    '\r' ∉ Listing.importFragment c ∧ '\n' ∉ Listing.importFragment c := by
  have h1 := name_notMem (d := '\r') hc (by decide)
  have h2 := name_notMem (d := '\n') hc (by decide)
  have h3 := source_notMem (d := '\r') hc (by decide) (by decide)
  have h4 := source_notMem (d := '\n') hc (by decide) (by decide)
  rw [importFragment_eq]
  simp [h1, h2, h3, h4]

/-- **the import of a component goes behind the last one and nothing else changes** -/
theorem afterImports_eq (hu : EndsBlock u) (hc : Slug.IsName c.slug) (hV : EndsLine V) (hsil : Silent V) :
    Splice.afterImports .importStatement (u ++ V) (Listing.importFragment c) =
      .ok (imported (.ofContent (u ++ V)) u c ++ V) := by
  obtain ⟨hr, hn⟩ := break_notMem_importFragment hc
  rw [hu.afterImports hV hsil (sourceOf?_importFragment hc), withNewline_of_notMem hr hn, imported, importLine]

/-- and where it can be added, the imports form one block -/
theorem exists_block_of_afterImports {t t' : Text} (hc : Slug.IsName c.slug)
    (h : Splice.afterImports .importStatement t (Listing.importFragment c) = .ok t') : ∃ u V, t = u ++ V ∧ EndsBlock u ∧
      EndsLine V ∧ Silent V ∧ imports t = imports u ∧ t' = imported (.ofContent t) u c ++ V := by
  cases hlast : (imports t).getLast? with
  | none =>
    rw [imports] at hlast
    simp [Splice.afterImports, hlast] at h
  | some last =>
    have hblock : Splice.blockCount t (imports t) ≤ 1 := by
      by_contra hmany
      rw [imports] at hlast hmany
      simp [Splice.afterImports, hlast, not_le.1 hmany] at h
    obtain ⟨u, V, rfl, hu, hV, hsil, -, himports⟩ := exists_block hlast hblock
    rw [afterImports_eq hu hc hV hsil] at h
    exact ⟨u, V, rfl, hu, hV, hsil, himports, (Except.ok.inj h).symm⟩

end Block

end Componentry.Index
