/-
What the import step leaves to be found by the next one.

- `importStep_found`: the imports of the result are those of the content, at the same places and with the same texts, and
  at most one more behind them: the one that was put in. They form one block, so that the step can be taken again, for
  any component, and taken again for the same one it changes nothing.

An import that is begun elsewhere and never completed does no harm: its clause ends at the first quote behind it, and
behind the last import there is no quote that completes one.
-/
import Componentry.Proofs.Splice.Blocks
import Componentry.Proofs.Splice.Elements

namespace Componentry.Index

open Text

section Found

variable {c : Component} {newline : Newline} {u V t t' : Text}

theorem stop_le_of_mem_imports {t : Text} {o : Occurrence} (ho : o ∈ imports t) : o.stop ≤ t.length := by
  obtain ⟨u, v, e, more, rfl, -, rfl⟩ := Pattern.occurrences_sound importStatement_advances ho
  simp only [Pattern.found, List.length_append]
  omega

/-- a text whose imports end with those of a block has one block -/
theorem EndsBlock.blockCount_append (hu : EndsBlock u) (hV : EndsLine V) (hsil : Silent V) :
    Splice.blockCount (u ++ V) (imports (u ++ V)) = 1 := by
  have hle : Splice.blockCount (u ++ V) (imports u) ≤ 1 := Index.blockCount_append.2 hu.block
  have hpos : 1 ≤ Splice.blockCount (u ++ V) (imports u) := Nat.le_add_left 1 _
  rw [hu.imports_append hV hsil]
  omega

/-- behind a block the step can be taken for every component -/
theorem EndsBlock.importStep (hu : EndsBlock u) (hc : Slug.IsName c.slug) (hV : EndsLine V) (hsil : Silent V) :
    Listing.importStep.apply (u ++ V) c = .ok (imported (.ofContent (u ++ V)) u c ++ V) :=
  afterImports_eq hu hc hV hsil

/-- **an import that was put in is found behind the others, and is put in once** -/
theorem importStep_found (hc : Slug.IsName c.slug) (h : Listing.importStep.apply t c = .ok t') :
    ((sourceOf c ∈ sources t ∧ t' = t) ∨
      (sourceOf c ∉ sources t ∧ ∃ o, imports t' = imports t ++ [o] ∧
        (∀ p ∈ imports t, p.textIn t' = p.textIn t) ∧
        o.textIn t' = Listing.importFragment c ∧ o.part? .source = some (sourceOf c))) ∧
    Splice.blockCount t' (imports t') = 1 ∧
    Listing.importStep.apply t' c = .ok t' ∧
    ∀ d : Component, Slug.IsName d.slug → ∃ t'', Listing.importStep.apply t' d = .ok t'' := by
  obtain ⟨u, V, rfl, hu, hV, hsil, himports, rfl⟩ := exists_block_of_afterImports hc h
  have hsources : sources (u ++ V) = sources u := by rw [sources, himports, sources]
  rw [hsources, himports]
  generalize Newline.ofContent (u ++ V) = newline
  by_cases hin : sourceOf c ∈ sources u
  · -- the source is imported already
    have hsame : imported newline u c = u := if_pos hin
    rw [hsame]
    refine ⟨Or.inl ⟨hin, rfl⟩, hu.blockCount_append hV hsil, ?_, fun d hd => ⟨_, hu.importStep hd hV hsil⟩⟩
    rw [hu.importStep hc hV hsil, imported, if_pos hin]
  · have hline : imported newline u c = u ++ importLine newline c := if_neg hin
    have hnext : EndsBlock (u ++ importLine newline c) := hu.insert hc newline
    have hlisted : sourceOf c ∈ sources (u ++ importLine newline c) := by
      rw [hu.sources_insert hc]
      simp
    rw [hline]
    set o : Occurrence := ⟨(u ++ newline.text).length, (u ++ importLine newline c).length,
      [(.source, sourceOf c), (.quote, ['\''])]⟩ with ho
    refine ⟨Or.inr ⟨hin, o, ?_, ?_, ?_, ?_⟩, hnext.blockCount_append hV hsil, ?_,
      fun d hd => ⟨_, hnext.importStep hd hV hsil⟩⟩
    · rw [hnext.imports_append hV hsil, hu.imports_insert hc]
    · intro p hp
      have hstop := stop_le_of_mem_imports hp
      rw [List.append_assoc, Listing.textIn_append hstop, Listing.textIn_append hstop]
    · have hfound := Listing.textIn_between (u ++ newline.text) (Listing.importFragment c) V
        [(.source, sourceOf c), (.quote, ['\''])]
      simpa [ho, importLine] using hfound
    · simp [ho, Occurrence.part?]
    · rw [hnext.importStep hc hV hsil, imported, if_pos hlisted]

/-- with a clause over several lines, an import that is begun in a comment and one behind that is not complete, in a text
that ends in a lone return -/
theorem importStep_found_partial :
    let t := "// import x\r\nimport \x7b\r\n  A\r\n\x7d from \"./a\"; \r\n\r\n// more\r\nimport './b'\r".toList
    let t' := ("// import x\r\nimport \x7b\r\n  A\r\n\x7d from \"./a\"; \r\n\r\n// more\r\nimport './b'" ++
      "\r\nimport \x7b DatePicker \x7d from './date-picker'\r").toList
    let c : Component := ⟨"date-picker".toList, "Title".toList, [], []⟩
    Slug.IsName c.slug ∧ Listing.importStep.apply t c = .ok t' ∧
      sources t = ["./a".toList, "./b".toList] ∧ sourceOf c ∉ sources t ∧
      (∃ o, imports t' = imports t ++ [o] ∧ o.textIn t' = Listing.importFragment c) ∧
      Listing.importStep.apply t' c = .ok t' := by
  intro t t' c
  have hc : Slug.IsName c.slug := by decide +kernel
  have hnew : sourceOf c ∉ sources t := by decide +kernel
  have happly : Listing.importStep.apply t c = .ok t' := Listing.ok_of_toOption (by decide +kernel)
  obtain ⟨hfound, -, hagain, -⟩ := importStep_found hc happly
  obtain ⟨-, o, himports, -, htext, -⟩ := hfound.resolve_left fun hold => hnew hold.1
  exact ⟨hc, happly, by decide +kernel, hnew, ⟨o, himports, htext⟩, hagain⟩

end Found

end Componentry.Index
