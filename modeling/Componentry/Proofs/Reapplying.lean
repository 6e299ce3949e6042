/-
A component that is registered in an index twice.

The second time it is looked for everywhere again, in a text with the entries of the first time. Neither list loses or
repeats an entry, and the export list is always found again. But an entry can part the block of imports, take an import
into the text of another one, or end the head of the component list or begin that of a second one.
- `importStep_again_iff`: when the imports stay as they are.
- `arrayStep_again`: when the component list stays as it is, namely when it is still the only one.

Main results: `apply_again_iff`, with an index for each of the three conditions that breaks it alone
(`apply_again_two_blocks`, `apply_again_import_twice`, `apply_again_no_array`).
-/
import Componentry.Proofs.Index
import Componentry.Proofs.Listing
import Componentry.Proofs.Splice.Settling

namespace Componentry.Index

open Text

section Again

variable {root : Path} {t t' : Text} {c : Component}

/-- the imports stay as they are exactly if they are one block and have the source of the component -/
theorem importStep_again_iff (hc : Slug.IsName c.slug) : Listing.importStep.apply t c = .ok t ↔
    Splice.blockCount t (imports t) ≤ 1 ∧ sourceOf c ∈ sources t := by
  constructor
  · intro h
    obtain ⟨u, V, rfl, hu, -, -, himports, hsame⟩ := exists_block_of_afterImports hc h
    refine ⟨by rw [himports]; exact blockCount_append.2 hu.block, ?_⟩
    rw [sources, himports]
    unfold imported at hsame
    split_ifs at hsame with hin
    · exact hin
    · -- an import has been added
      have hlen := congrArg List.length hsame
      have hquote : '\'' ∈ importLine (.ofContent (u ++ V)) c := quote_mem_importLine
      have hpos := List.length_pos_of_mem hquote
      simp only [List.length_append] at hlen
      omega
  · rintro ⟨hblock, hin⟩
    cases hlast : (imports t).getLast? with
    | none =>
      rw [sources, List.getLast?_eq_none_iff.1 hlast] at hin
      simp at hin
    | some last =>
      obtain ⟨u, V, rfl, hu, hV, hsil, -, himports⟩ := exists_block hlast hblock
      replace hin : sourceOf c ∈ sources u := by rwa [sources, himports] at hin
      have happly : Listing.importStep.apply (u ++ V) c = _ := afterImports_eq hu hc hV hsil
      rw [happly, imported, if_pos hin]

/-- a list step succeeds exactly if there is one list of its kind -/
theorem exists_step_iff {kind : ListKind} : (∃ next, kind.step.apply t c = .ok next) ↔ (spans kind t).length = 1 := by
  constructor
  · rintro ⟨next, h⟩
    obtain ⟨x, body, rest, rfl, hlist, hsole, -⟩ := exists_list_of_step h
    rw [spans, listSpans_eq_singleton_iff.2 ⟨hlist, hsole⟩, List.length_singleton]
  · intro hlength
    obtain ⟨span, hspan⟩ := List.length_eq_one_iff.1 hlength
    obtain ⟨x, body, rest, rfl, hlist, -⟩ := mem_listSpans.1 (show span ∈ spans kind t by simp [hspan])
    exact ⟨_, by rw [step_apply]; exact intoList_eq hlist (sole_of_length hlist hlength) c.pascalName⟩

/-- **after the entry has gone into the export list, the component list still has it, if there still is one** -/
theorem arrayStep_again {t₀ t₁ : Text} (hc : Slug.IsName c.slug) (harray : ListKind.components.step.apply t₀ c = .ok t₁)
    (hexport : ListKind.exports.step.apply t₁ c = .ok t) (hlength : (spans .components t).length = 1) :
    ListKind.components.step.apply t c = .ok t := by
  obtain ⟨next, h⟩ := (exists_step_iff (c := c)).2 hlength
  obtain ⟨y', B', r', rfl, hlist', hsole', -⟩ := exists_list_of_step h
  obtain ⟨y, body, r, rfl, hlist, hsole, rfl⟩ := exists_list_of_step harray
  obtain ⟨hlist, hsole⟩ := hlist.entered hsole hc (.ofContent (y ++ body ++ ListKind.components.closer :: r))
  have hin := mem_items_entered hc (.ofContent (y ++ body ++ ListKind.components.closer :: r)) body
  obtain ⟨x, body', rest, heq, hexports, -, heq'⟩ := exists_list_of_step hexport
  refine step_of_mem hlist' hsole' ?_
  exact mem_items_entered_exports hc (name_notMem hc (by decide)) hexports hlist hlist' heq.symm (heq ▸ hsole) heq'.symm
    (heq' ▸ hsole') hin

/-- **a component that has been registered changes an index no more exactly if the imports are still one block, its
source is among them, and the component list is still the only one; so it is where the lists stand apart behind the
imports and no white space in an empty list hides anything** -/
theorem apply_again_iff (hc : Slug.IsName c.slug) (h : (Listing.index (Settings.standard root)).apply t c = .ok t') :
    ((Listing.index (Settings.standard root)).apply t' c = .ok t' ↔
      Splice.blockCount t' (imports t') ≤ 1 ∧ sourceOf c ∈ sources t' ∧ (spans .components t').length = 1) ∧
    ∀ l, Indexed t l → Steady t l → (Listing.index (Settings.standard root)).apply t' c = .ok t' := by
  constructor
  · obtain ⟨t₁, -, h'⟩ := Listing.applySteps_cons.1 h
    obtain ⟨t₂, harray, h'⟩ := Listing.applySteps_cons.1 h'
    obtain ⟨t₃, hexport, h'⟩ := Listing.applySteps_cons.1 h'
    obtain rfl : t₃ = t' := Except.ok.inj h'
    constructor
    · intro hsame
      obtain ⟨himport, next, hnext, -⟩ := Listing.index_same hsame
      obtain ⟨hblock, hsource⟩ := (importStep_again_iff hc).1 himport
      exact ⟨hblock, hsource, exists_step_iff.1 ⟨next, hnext⟩⟩
    · rintro ⟨hblock, hsource, hlength⟩
      exact apply_eq ((importStep_again_iff hc).2 ⟨hblock, hsource⟩) (arrayStep_again hc harray hexport hlength)
        (step_again hc hexport)
  · intro l hl hsteady
    have hcs : ∀ d ∈ [c], Slug.IsName d.slug := by simpa using hc
    obtain ⟨hrun, f, u, z1, z2, hreached⟩ := hl.exists_reached root hsteady hcs
    rw [List.foldlM_cons, h] at hrun
    obtain rfl : t' = l.extended t [c] := Except.ok.inj hrun
    exact hreached.apply_again root hcs List.mem_cons_self

/-- an empty list over two lines, which gets its entry once -/
theorem apply_again_several_lines :
    let root : Path := .ofText "repo".toList
    let t := "import A from './a'\nconst components = [\n  A,\n]\nexport \x7b\n\x7d\n".toList
    let t' := ("import A from './a'\nimport \x7b Foo \x7d from './foo'\n" ++
      "const components = [\n  A,\n  Foo,\n]\nexport \x7bFoo\x7d\n").toList
    let l : Layout := ⟨⟨0, 19, [(.source, "./a".toList), (.quote, ['\''])]⟩,
      fun | .components => ⟨20, 40, []⟩ | .exports => ⟨48, 56, []⟩, fun | .components => 46 | .exports => 57⟩
    let c : Component := ⟨"foo".toList, "Title".toList, [], []⟩
    Slug.IsName c.slug ∧ (Listing.index (Settings.standard root)).apply t c = .ok t' ∧ Indexed t l ∧ Steady t l ∧
      (Listing.index (Settings.standard root)).apply t' c = .ok t' ∧
      Splice.blockCount t' (imports t') ≤ 1 ∧ sourceOf c ∈ sources t' ∧ (spans .components t').length = 1 := by
  intro root t t' l c
  have hc : Slug.IsName c.slug := by decide +kernel
  have h : (Listing.index (Settings.standard root)).apply t c = .ok t' := Listing.ok_of_toOption (by decide +kernel)
  have hl : Indexed t l := by decide +kernel
  have hsteady : Steady t l := by decide +kernel
  have hagain := (apply_again_iff hc h).2 l hl hsteady
  exact ⟨hc, h, hl, hsteady, hagain, (apply_again_iff hc h).1.1 hagain⟩

/-- a component list in comments between two imports: the entry stands in no comment, and parts the block -/
theorem apply_again_two_blocks :
    let root : Path := .ofText "repo".toList
    let t := ("import A from './a'\n// const components = [\n//   A,\n// ]\nimport B from './b'\n" ++
      "export \x7b A \x7d\n").toList
    let t' := ("import A from './a'\n// const components = [\n//   A,\n//,\nFoo ]\nimport B from './b'\n" ++
      "import \x7b Foo \x7d from './foo'\nexport \x7b A, Foo \x7d\n").toList
    let c : Component := ⟨"foo".toList, "Title".toList, [], []⟩
    Slug.IsName c.slug ∧ (Listing.index (Settings.standard root)).apply t c = .ok t' ∧
      Splice.blockCount t' (imports t') = 2 ∧ sourceOf c ∈ sources t' ∧ (spans .components t').length = 1 ∧
      ∀ t'', (Listing.index (Settings.standard root)).apply t' c ≠ .ok t'' := by
  intro root t t' c
  exact ⟨by decide +kernel, Listing.ok_of_toOption (by decide +kernel), by decide +kernel, by decide +kernel,
    by decide +kernel, Listing.ne_ok_of_toOption (by decide +kernel)⟩

/-- the head of the component list in quotes: the entry ends the line of the import, which is added once more -/
theorem apply_again_import_twice :
    let root : Path := .ofText "repo".toList
    let t := "import A from 'const components = ['\n]\nexport \x7b A \x7d\n".toList
    let t' := ("import A from 'const components = ['\nimport \x7b Foo \x7d from './foo', Foo\n]\n" ++
      "export \x7b A, Foo \x7d\n").toList
    let t'' := ("import A from 'const components = ['\nimport \x7b Foo \x7d from './foo'\n" ++
      "import \x7b Foo \x7d from './foo', Foo\n]\nexport \x7b A, Foo \x7d\n").toList
    let c : Component := ⟨"foo".toList, "Title".toList, [], []⟩
    Slug.IsName c.slug ∧ (Listing.index (Settings.standard root)).apply t c = .ok t' ∧
      Splice.blockCount t' (imports t') ≤ 1 ∧ sourceOf c ∉ sources t' ∧ (spans .components t').length = 1 ∧
      (Listing.index (Settings.standard root)).apply t' c = .ok t'' ∧ t'' ≠ t' := by
  intro root t t' t'' c
  exact ⟨by decide +kernel, Listing.ok_of_toOption (by decide +kernel), by decide +kernel, by decide +kernel,
    by decide +kernel, Listing.ok_of_toOption (by decide +kernel), by decide +kernel⟩

/-- an export list over several lines in the head of the component list: the line of its entry ends that head -/
theorem apply_again_no_array :
    let root : Path := .ofText "repo".toList
    let t := "import A from './a'\nexport \x7b\n  A,\n  const components \x7d = [ A ]\n".toList
    let t' := ("import A from './a'\nimport \x7b Foo \x7d from './foo'\n" ++
      "export \x7b\n  A,\n  const components,\n  Foo \x7d = [ A, Foo ]\n").toList
    let c : Component := ⟨"foo".toList, "Title".toList, [], []⟩
    Slug.IsName c.slug ∧ (Listing.index (Settings.standard root)).apply t c = .ok t' ∧
      Splice.blockCount t' (imports t') ≤ 1 ∧ sourceOf c ∈ sources t' ∧ (spans .components t').length = 0 ∧
      ∀ t'', (Listing.index (Settings.standard root)).apply t' c ≠ .ok t'' := by
  intro root t t' c
  exact ⟨by decide +kernel, Listing.ok_of_toOption (by decide +kernel), by decide +kernel, by decide +kernel,
    by decide +kernel, Listing.ne_ok_of_toOption (by decide +kernel)⟩

end Again

end Componentry.Index
