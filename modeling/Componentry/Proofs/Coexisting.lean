/-
Two components in one index.

Their slugs are told apart, but in the index it is their names that count, and a name does not tell all of its slug.
- `import_of_apply`: a component that an index does not mention is imported.
- `hasItem_of_apply`: it is in both lists.
- `hasItem_apply`, `fragment_of_apply`: it stays when one more component is registered.
- `apply_of_hasItem`: of a component whose name the lists have, the import is all that is added.

Main result: `names_clash_iff`, with two components of one name in `names_clash_hyphen`.
-/
import Componentry.Proofs.Naming
import Componentry.Proofs.Index
import Componentry.Proofs.Splice.Overlapping
import Componentry.Proofs.Splice.Mentions

namespace Componentry.Index

open Text

/-- the items of all lists of a kind -/
def listed (kind : ListKind) (t : Text) : List Text :=
  (spans kind t).flatMap fun span => Splice.items (slice t span.start span.close)

/-- the names that an import statement binds -/
def bound (statement : Text) : List Text :=
  Splice.items ((statement.dropWhile (· ≠ '\x7b')).tail.takeWhile (· ≠ '\x7d'))

variable {kind : ListKind} {root : Path} {t t' i a : Text} {c d : Component} {n : Text}

/-! ## The steps of an index -/

/-- an index takes a component step by step -/
theorem exists_stages (h : (Listing.index (Settings.standard root)).apply t c = .ok t') :
    ∃ i a, Listing.importStep.apply t c = .ok i ∧ ListKind.components.step.apply i c = .ok a ∧
      ListKind.exports.step.apply a c = .ok t' := by
  obtain ⟨i, himport, h⟩ := Listing.applySteps_cons.1 h
  obtain ⟨a, harray, h⟩ := Listing.applySteps_cons.1 h
  obtain ⟨t₀, hexport, h⟩ := Listing.applySteps_cons.1 h
  obtain rfl : t₀ = t' := Except.ok.inj h
  exact ⟨i, a, himport, harray, hexport⟩

/-! ## What is listed and bound -/

theorem mem_listed_iff : n ∈ listed kind t ↔
    ∃ x body rest, t = x ++ body ++ kind.closer :: rest ∧ IsList kind x body rest ∧ n ∈ Splice.items body := by
  have hslice : ∀ x body rest, slice (x ++ body ++ kind.closer :: rest) x.length (x.length + body.length) = body := by
    intro x body rest
    simpa using slice_append x body (kind.closer :: rest)
  rw [listed, List.mem_flatMap]
  constructor
  · rintro ⟨span, hspan, hin⟩
    obtain ⟨x, body, rest, rfl, hlist, rfl⟩ := mem_listSpans.1 hspan
    exact ⟨x, body, rest, rfl, hlist, by rwa [hslice] at hin⟩
  · rintro ⟨x, body, rest, rfl, hlist, hin⟩
    exact ⟨_, mem_listSpans.2 ⟨x, body, rest, rfl, hlist, rfl⟩, by rwa [hslice]⟩

theorem HasItem.listed (h : HasItem kind t n) : (spans kind t).length = 1 ∧ n ∈ listed kind t := by
  obtain ⟨x, body, rest, rfl, hlist, hsole, hin⟩ := h
  refine ⟨?_, mem_listed_iff.2 ⟨x, body, rest, rfl, hlist, hin⟩⟩
  rw [spans, listSpans_eq_singleton_iff.2 ⟨hlist, hsole⟩, List.length_singleton]

theorem not_listed (h : ¬Mentions t c) : c.pascalName ∉ listed kind t := fun hm => by
  obtain ⟨x, body, rest, rfl, hlist, hin⟩ := mem_listed_iff.1 hm
  exact h (mentions_of_item hlist hin)

/-- the import of a component binds its name -/
theorem bound_importFragment (hc : Slug.IsName c.slug) : bound (Listing.importFragment c) = [c.pascalName] := by
  have hbrace : ∀ x ∈ [' '] ++ c.pascalName ++ [' '], decide (x ≠ '\x7d') = true := by
    have hname : '\x7d' ∉ [' '] ++ c.pascalName ++ [' '] := by simp [name_notMem (d := '\x7d') hc (by decide)]
    exact fun x hx => decide_eq_true fun h => hname (h ▸ hx)
  have hopened : (Listing.importFragment c).dropWhile (· ≠ '\x7b') = '\x7b' :: ([' '] ++ c.pascalName ++ [' '] ++
      '\x7d' :: ([' ', 'f', 'r', 'o', 'm', ' '] ++ '\'' :: sourceOf c ++ ['\''])) := by
    rw [importFragment_eq]
    simp
  have hblank : Blanks [' '] := by
    simp only [Blanks, List.forall_mem_singleton]
    decide
  rw [bound, hopened, List.tail_cons, List.takeWhile_append_of_pos hbrace, List.takeWhile_cons_of_neg (by simp),
    List.append_nil, Splice.items_append_blanks hblank, Splice.items_name hblank (isName_pascalName hc)
      (pascalName_ne_nil hc)]

/-! ## The imports -/

/-- a component whose source is not imported is, and nothing else changes -/
theorem import_adds (hc : Slug.IsName c.slug) (hnew : sourceOf c ∉ sources t)
    (h : Listing.importStep.apply t c = .ok i) : ∃ u V newline, t = u ++ V ∧ i = u ++ importLine newline c ++ V := by
  obtain ⟨u, V, rfl, -, -, -, himports, rfl⟩ := exists_block_of_afterImports hc h
  refine ⟨u, V, .ofContent (u ++ V), rfl, ?_⟩
  rw [imported, if_neg]
  rwa [sources, himports] at hnew

/-- the import of a component names its source in quotes -/
theorem mentions_of_fragment (h : Listing.importFragment c <:+: t) : Mentions t c := by
  rw [importFragment_eq] at h
  refine Or.inr ⟨'\'', Or.inl rfl, List.IsInfix.trans ?_ h⟩
  exact ⟨_, [], by rw [List.append_nil, ← List.append_assoc]⟩

/-- a component that an index does not mention is imported -/
theorem import_of_apply (hc : Slug.IsName c.slug) (hnew : sourceOf c ∉ sources t)
    (h : (Listing.index (Settings.standard root)).apply t c = .ok t') : Listing.importFragment c <:+: t' := by
  obtain ⟨i, a, himport, harray, hexport⟩ := exists_stages h
  obtain ⟨u, V, newline, -, rfl⟩ := import_adds hc hnew himport
  have hin : Listing.importFragment c <:+: u ++ importLine newline c ++ V :=
    ⟨u ++ newline.text, V, by simp [importLine]⟩
  exact fragment_of_step hc hc hexport (fragment_of_step hc hc harray hin)

/-- the import of a component stays when one more is registered -/
theorem fragment_of_apply (hc : Slug.IsName c.slug) (hd : Slug.IsName d.slug)
    (h : (Listing.index (Settings.standard root)).apply t d = .ok t') (hin : Listing.importFragment c <:+: t) :
    Listing.importFragment c <:+: t' := by
  obtain ⟨i, a, himport, harray, hexport⟩ := exists_stages h
  exact fragment_of_step hc hd hexport (fragment_of_step hc hd harray (fragment_of_import hc hd himport hin))

/-- a component does not bring the source of another one -/
theorem source_notMem_of_apply (hc : Slug.IsName c.slug) (hd : Slug.IsName d.slug) (hne : c.slug ≠ d.slug)
    (hnew : ¬Mentions t d) (h : (Listing.index (Settings.standard root)).apply t c = .ok t') :
    sourceOf d ∉ sources t' := by
  intro hin
  obtain ⟨i, a, himport, harray, hexport⟩ := exists_stages h
  obtain ⟨q, hq, hquoted⟩ := quoted_of_mem_sources hin
  have hjoint : ∀ x ∈ sourceOf d, ¬IsJoint x := by
    rintro x hx (rfl | rfl | rfl) <;> exact source_notMem hd (by decide) (by decide) hx
  have hline : ∀ x ∈ sourceOf d, ¬IsQuote x ∧ x ≠ '\r' ∧ x ≠ '\n' := fun x hx => by
    refine ⟨(sourceOf_inside hd x hx).1, ?_, ?_⟩ <;> rintro rfl <;> exact source_notMem hd (by decide) (by decide) hx
  have hother : sourceOf d ≠ sourceOf c := fun he => hne (List.append_cancel_left he).symm
  have hquoted := quoted_of_step hc harray hq hjoint (quoted_of_step hc hexport hq hjoint hquoted)
  exact hnew (Or.inr ⟨q, hq, quoted_of_import hc himport hq hline hother hquoted⟩)

/-! ## Lines of the export list -/

theorem Before.mentions {b : Text} (h : Before b t) (hin : c.pascalName ∈ Splice.items b) : Mentions t c := by
  obtain ⟨x, e, y, B, r, rfl, rfl, hexports, -⟩ := h
  have := mentions_of_item hexports hin
  simpa [ListKind.closer] using this

/-- an export list with items on lines of their own ends in an entry when it has got one -/
theorem exists_line_of_step {b : Text} (hc : Slug.IsName c.slug) (h : ListKind.exports.step.apply t c = .ok t')
    (hb : Before b t') (hstacked : Splice.isStacked b = true) :
    EndsInEntry b ∨ Before b t ∧ c.pascalName ∈ Splice.items b := by
  obtain ⟨x, body, rest, rfl, hlist, hsole, rfl⟩ := exists_list_of_step h
  generalize Newline.ofContent (x ++ body ++ ListKind.exports.closer :: rest) = newline at hb
  have hentered := hlist.entered hsole hc newline
  -- the export list before the component list is the one that takes the entry
  obtain ⟨rfl, hbefore⟩ : b = entered newline body c.pascalName ∧
      (entered newline body c.pascalName = body → Before body (x ++ body ++ ListKind.exports.closer :: rest)) := by
    obtain ⟨x', e, y, B, r, hy, heq, hexports, hcomponents⟩ := hb
    have hplace : x ++ entered newline body c.pascalName ++ ListKind.exports.closer :: rest =
        x' ++ b ++ ListKind.exports.closer :: (e ++ (B ++ ']' :: r)) := by
      rw [heq, hy]
      simp [ListKind.closer]
    obtain rfl := hentered.2 x' b _ hplace hexports
    rw [List.append_assoc, List.append_assoc, List.append_cancel_left_eq] at hplace
    obtain ⟨rfl, rfl⟩ := append_cons_unique_of_notMem hentered.1.body hexports.body hplace
    refine ⟨rfl, fun hsame => ⟨x', e, y, B, r, by rw [hy, hsame], ?_, hsame ▸ hexports, hcomponents⟩⟩
    rw [← heq, hsame]
  by_cases hin : c.pascalName ∈ Splice.items body
  · have hsame : entered newline body c.pascalName = body := by rw [entered, if_pos hin]
    rw [hsame]
    exact Or.inr ⟨hbefore hsame, hin⟩
  by_cases hblank : Blanks body
  · -- an entry alone stands on the line of the opener
    have hfeed := (appendEntry_empty hblank (inert_pascalName hc) (isName_pascalName hc) newline).2
    rw [entered, if_neg hin] at hstacked
    obtain ⟨s, newline', r, heq, -⟩ := Splice.isStacked_iff.1 hstacked
    rw [heq] at hfeed
    cases newline' <;> simp [Newline.text] at hfeed
  · obtain ⟨s, hk, rfl, hs, rfl, hfilled⟩ := exists_filled_slot hlist.opens hlist.body hblank
    have hne : s.filled ≠ [] := fun h => hblank (trimEnd_eq_nil_iff.1 (hfilled ▸ h))
    obtain ⟨z, hz, hbody, hline⟩ := hs.entered_line hne hc hin newline
    rw [← hbody] at hstacked ⊢
    rw [Slot.body, List.append_assoc] at hstacked
    refine Or.inl ⟨s.filled, z, s.tail, rfl, hz.inert, hline.2 ?_, hs.tail⟩
    simpa [Slot.body] using Splice.isStacked_append hs.filled hne s.tail hstacked

/-- so it does when a component is registered that was not mentioned -/
theorem endsInEntry_of_apply {b : Text} (hc : Slug.IsName c.slug) (hnew : ¬Mentions t c)
    (h : (Listing.index (Settings.standard root)).apply t c = .ok t') (hb : Before b t')
    (hstacked : Splice.isStacked b = true) : EndsInEntry b := by
  obtain ⟨i, a, himport, harray, hexport⟩ := exists_stages h
  rcases exists_line_of_step hc hexport hb hstacked with hline | ⟨hb, hin⟩
  · exact hline
  · exact absurd (((hb.of_step hc harray).of_import hc himport).mentions hin) hnew

/-! ## The lists -/

/-- a list that has the name of a component takes it no more -/
theorem step_of_hasItem (hin : HasItem kind t c.pascalName) (h : kind.step.apply t c = .ok t') : t' = t := by
  obtain ⟨x, body, rest, rfl, hlist, hsole, hmem⟩ := hin
  exact Except.ok.inj (h.symm.trans (step_of_mem hlist hsole hmem))

/-- there is one component list, if there is one with an import -/
theorem exists_components (hc : Slug.IsName c.slug) (himport : Listing.importStep.apply t c = .ok i)
    (harray : ListKind.components.step.apply i c = .ok a) :
    ∃ y B r, t = y ++ B ++ ']' :: r ∧ IsList .components y B r ∧ Sole .components t y := by
  obtain ⟨y, B, r, heq, hlist, hsole, -⟩ := exists_list_of_step harray
  exact exists_components_of_import hc himport heq hlist hsole

/-- a component is in both lists, if one more can be registered -/
theorem hasItem_of_apply {t₁ t₂ : Text} (hc : Slug.IsName c.slug) (hd : Slug.IsName d.slug)
    (h : (Listing.index (Settings.standard root)).apply t c = .ok t₁)
    (h' : (Listing.index (Settings.standard root)).apply t₁ d = .ok t₂) (kind : ListKind) :
    HasItem kind t₁ c.pascalName := by
  obtain ⟨i, a, -, harray, hexport⟩ := exists_stages h
  obtain ⟨i', a', himport', harray', -⟩ := exists_stages h'
  cases kind with
  | components =>
    have hitem := hasItem_of_step hc harray
    exact hitem.exports (name_notMem hc (by decide)) hc hexport (exists_components hd himport' harray')
  | exports => exact hasItem_of_step hc hexport

/-- the items of both lists are there when the import has been added -/
theorem hasItem_import (hc : Slug.IsName c.slug) (hn : ∀ x ∈ n, Slug.isNameChar x = true)
    (hitems : ∀ kind, HasItem kind t n) (himport : Listing.importStep.apply t c = .ok i)
    (harray : ListKind.components.step.apply i c = .ok a) (hexport : ListKind.exports.step.apply a c = .ok t')
    (kind : ListKind) : HasItem kind i n := by
  have harrayItem := (hitems .components).cross (fun x hx => isQuote_of_isNameChar (hn x hx)) hc himport
  cases kind with
  | components => exact harrayItem
  | exports =>
    obtain ⟨x, body, rest, heq, hlist, -, -⟩ := exists_list_of_step hexport
    obtain ⟨x, body, rest, heq, hlist⟩ := exists_exports_before harrayItem hc harray heq hlist
    exact (hitems .exports).exports_insert hc himport heq hlist

/-- **what both lists have stays when one more component is registered, and it is in both lists too, if every export list
before the component list with items on lines of their own ends in an entry** -/
theorem hasItem_apply (hc : Slug.IsName c.slug) (hn : ∀ x ∈ n, Slug.isNameChar x = true)
    (hitems : ∀ kind, HasItem kind t n) (h : (Listing.index (Settings.standard root)).apply t c = .ok t')
    (hline : ∀ b, Before b t → Splice.isStacked b = true → EndsInEntry b) (kind : ListKind) :
    HasItem kind t' n ∧ HasItem kind t' c.pascalName := by
  have hcloser : ∀ kind : ListKind, kind.closer ∉ n := by
    intro kind hm
    cases kind <;> exact absurd (hn _ hm) (by decide)
  obtain ⟨i, a, himport, harray, hexport⟩ := exists_stages h
  have himported := hasItem_import hc hn hitems himport harray hexport
  have harrayItem := (himported .components).step hc harray
  have hexportItem : HasItem .exports a n := by
    obtain ⟨x, body, rest, heq, hlist, -, -⟩ := exists_list_of_step hexport
    exact (himported .exports).beside (by decide) (hcloser _) (himported .components) hc harray
      ⟨x, body, rest, heq, hlist⟩
  cases kind with
  | exports => exact ⟨hexportItem.step hc hexport, hasItem_of_step hc hexport⟩
  | components =>
    have hlist := exists_components_beside harrayItem hexportItem hc hexport fun b hb =>
      hline b ((hb.of_step hc harray).of_import hc himport)
    have hown := hasItem_of_step hc harray
    exact ⟨harrayItem.beside (by decide) (hcloser _) hexportItem hc hexport hlist,
      hown.beside (by decide) (name_notMem hc (by decide)) hexportItem hc hexport hlist⟩

/-- **of a component whose name both lists have, the import is all that is added** -/
theorem apply_of_hasItem (hc : Slug.IsName c.slug) (hitems : ∀ kind, HasItem kind t c.pascalName)
    (hnew : sourceOf c ∉ sources t) (h : (Listing.index (Settings.standard root)).apply t c = .ok t') :
    ∃ u V newline, t = u ++ V ∧ t' = u ++ importLine newline c ++ V := by
  obtain ⟨i, a, himport, harray, hexport⟩ := exists_stages h
  have himported := hasItem_import hc (isName_pascalName hc) hitems himport harray hexport
  obtain rfl := step_of_hasItem (himported .components) harray
  obtain rfl := step_of_hasItem (himported .exports) hexport
  exact import_adds hc hnew himport

/-! ## Two components -/

/-- **two slugs that are accepted give one name exactly if their plain forms are the same; and of two components that an
index does not mention, both are imported and in both lists after both are registered, the imports bind different names
exactly if those forms differ, and where they do not, the import is all that the second one adds** -/
theorem names_clash_iff :
    (∀ s s' : Text, Slug.problem? s = none → Slug.problem? s' = none →
      (Slug.pascal s = Slug.pascal s' ↔ Slug.plain s = Slug.plain s')) ∧
    ∀ (root : Path) (t t₁ t₂ : Text) (c d : Component), Slug.IsName c.slug → Slug.IsName d.slug → c.slug ≠ d.slug →
      ¬Mentions t c → ¬Mentions t d → (Listing.index (Settings.standard root)).apply t c = .ok t₁ →
      (Listing.index (Settings.standard root)).apply t₁ d = .ok t₂ →
      (∀ e ∈ [c, d], ¬Listing.importFragment e <:+: t ∧ Listing.importFragment e <:+: t₂) ∧
      (∀ kind, (spans kind t₂).length = 1 ∧
        ∀ e ∈ [c, d], e.pascalName ∉ listed kind t ∧ e.pascalName ∈ listed kind t₂) ∧
      (bound (Listing.importFragment c) = bound (Listing.importFragment d) ↔ Slug.plain c.slug = Slug.plain d.slug) ∧
      (Slug.plain c.slug = Slug.plain d.slug →
        ∃ u V newline, t₁ = u ++ V ∧ t₂ = u ++ importLine newline d ++ V) := by
  refine ⟨fun s s' hs hs' => Slug.pascal_eq_iff hs hs', fun root t t₁ t₂ c d hc hd hne hnewc hnewd h₁ h₂ => ?_⟩
  have hname : c.pascalName = d.pascalName ↔ Slug.plain c.slug = Slug.plain d.slug :=
    Slug.pascal_eq_iff hc.problem?_eq_none hd.problem?_eq_none
  have hsource : sourceOf d ∉ sources t₁ := source_notMem_of_apply hc hd hne hnewd h₁
  have hitem := hasItem_of_apply hc hd h₁ h₂
  refine ⟨?_, fun kind => ?_, ?_, fun hplain => ?_⟩
  · have himport : Listing.importFragment c <:+: t₁ := import_of_apply hc (fun hm => hnewc (mentions_of_source hm)) h₁
    simp only [List.forall_mem_cons, List.not_mem_nil, IsEmpty.forall_iff, implies_true, and_true]
    exact ⟨⟨fun hm => hnewc (mentions_of_fragment hm), fragment_of_apply hc hd h₂ himport⟩,
      fun hm => hnewd (mentions_of_fragment hm), import_of_apply hd hsource h₂⟩
  · obtain ⟨hitemc, hitemd⟩ :=
      hasItem_apply hd (isName_pascalName hc) hitem h₂ (fun b => endsInEntry_of_apply hc hnewc h₁) kind
    simp only [List.forall_mem_cons, List.not_mem_nil, IsEmpty.forall_iff, implies_true, and_true]
    exact ⟨hitemc.listed.1, ⟨not_listed hnewc, hitemc.listed.2⟩, not_listed hnewd, hitemd.listed.2⟩
  · rw [bound_importFragment hc, bound_importFragment hd, ← hname, List.singleton_inj]
  · exact apply_of_hasItem hd (fun kind => hname.2 hplain ▸ hitem kind) hsource h₂

/-- two components of different names in an index over several lines -/
theorem names_clash_different :
    let root : Path := .ofText "repo".toList
    let t := "import A from './a'\nconst components = [\n  A,\n]\nexport \x7b A \x7d\n".toList
    let t₁ := ("import A from './a'\nimport \x7b Card \x7d from './card'\nconst components = [\n  A,\n  Card,\n]\n" ++
      "export \x7b A, Card \x7d\n").toList
    let t₂ := ("import A from './a'\nimport \x7b Card \x7d from './card'\n" ++
      "import \x7b DatePicker \x7d from './date-picker'\n" ++
      "const components = [\n  A,\n  Card,\n  DatePicker,\n]\nexport \x7b A, Card, DatePicker \x7d\n").toList
    let c : Component := ⟨"card".toList, "Card".toList, [], []⟩
    let d : Component := ⟨"date-picker".toList, "Date".toList, [], []⟩
    Slug.IsName c.slug ∧ Slug.IsName d.slug ∧ c.slug ≠ d.slug ∧ ¬Mentions t c ∧ ¬Mentions t d ∧
      (Listing.index (Settings.standard root)).apply t c = .ok t₁ ∧
      (Listing.index (Settings.standard root)).apply t₁ d = .ok t₂ ∧
      Slug.pascal c.slug ≠ Slug.pascal d.slug ∧ bound (Listing.importFragment c) ≠ bound (Listing.importFragment d) ∧
      ∀ kind, (spans kind t₂).length = 1 ∧ c.pascalName ∈ listed kind t₂ ∧ d.pascalName ∈ listed kind t₂ := by
  intro root t t₁ t₂ c d
  have hc : Slug.IsName c.slug := by decide +kernel
  have hd : Slug.IsName d.slug := by decide +kernel
  have hne : c.slug ≠ d.slug := by decide +kernel
  have hnewc : ¬Mentions t c := not_mentions (by decide +kernel) (by decide +kernel)
  have hnewd : ¬Mentions t d := not_mentions (by decide +kernel) (by decide +kernel)
  have h₁ : (Listing.index (Settings.standard root)).apply t c = .ok t₁ := Listing.ok_of_toOption (by decide +kernel)
  have h₂ : (Listing.index (Settings.standard root)).apply t₁ d = .ok t₂ := Listing.ok_of_toOption (by decide +kernel)
  have hplain : Slug.plain c.slug ≠ Slug.plain d.slug := by decide +kernel
  obtain ⟨hslug, hindex⟩ := names_clash_iff
  obtain ⟨-, hlists, hbound, -⟩ := hindex root t t₁ t₂ c d hc hd hne hnewc hnewd h₁ h₂
  refine ⟨hc, hd, hne, hnewc, hnewd, h₁, h₂, ?_, hbound.not.2 hplain, fun kind => ?_⟩
  · exact (hslug c.slug d.slug (by decide +kernel) (by decide +kernel)).not.2 hplain
  · exact ⟨(hlists kind).1, ((hlists kind).2 c (by simp)).2, ((hlists kind).2 d (by simp)).2⟩

/-- two components of one name: a hyphen before a digit is lost -/
theorem names_clash_hyphen :
    let root : Path := .ofText "repo".toList
    let t := "import A from './a'\nconst components = [A]\nexport \x7b A \x7d\n".toList
    let t₁ := ("import A from './a'\nimport \x7b A1 \x7d from './a-1'\nconst components = [A, A1]\n" ++
      "export \x7b A, A1 \x7d\n").toList
    let t₂ := ("import A from './a'\nimport \x7b A1 \x7d from './a-1'\nimport \x7b A1 \x7d from './a1'\n" ++
      "const components = [A, A1]\nexport \x7b A, A1 \x7d\n").toList
    let c : Component := ⟨"a-1".toList, "T".toList, [], []⟩
    let d : Component := ⟨"a1".toList, "T".toList, [], []⟩
    Slug.problem? c.slug = none ∧ Slug.problem? d.slug = none ∧ c.slug ≠ d.slug ∧
      Slug.pascal c.slug = Slug.pascal d.slug ∧ ¬Mentions t c ∧ ¬Mentions t d ∧
      (Listing.index (Settings.standard root)).apply t c = .ok t₁ ∧
      (Listing.index (Settings.standard root)).apply t₁ d = .ok t₂ ∧
      bound (Listing.importFragment c) = bound (Listing.importFragment d) ∧
      ∀ kind, listed kind t = ["A".toList] ∧ listed kind t₂ = ["A".toList, "A1".toList] := by
  intro root t t₁ t₂ c d
  exact ⟨by decide +kernel, by decide +kernel, by decide +kernel, by decide +kernel,
    not_mentions (by decide +kernel) (by decide +kernel), not_mentions (by decide +kernel) (by decide +kernel),
    Listing.ok_of_toOption (by decide +kernel), Listing.ok_of_toOption (by decide +kernel), by decide +kernel,
    by decide +kernel⟩

end Componentry.Index
