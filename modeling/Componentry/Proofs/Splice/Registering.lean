/-
Components registered in an index one after the other.

- `fresh`: of a sequence of components, those that bring something new, each at its first use.
- `Open.apply`: one component adds an import and an entry to either list, unless they are there, and changes nothing else.
- `Open.run`: so does every sequence of components, each at its first use.
-/
import Componentry.Proofs.Splice.Frame

namespace Componentry.Index

open Text

/-! ## First uses -/

section Fresh

variable (key : Component → Text)

/-- the components with a key that is neither among given ones nor that of an earlier component -/
def fresh (old : List Text) : List Component → List Component
  | [] => []
  | c :: cs => if key c ∈ old then fresh old cs else c :: fresh (old ++ [key c]) cs

variable {key} {old : List Text} {cs cs' : List Component}

theorem fresh_subset {c : Component} (h : c ∈ fresh key old cs) : c ∈ cs := by
  induction cs generalizing old with
  | nil => simp [fresh] at h
  | cons d cs ih =>
    unfold fresh at h
    split_ifs at h
    · exact List.mem_cons_of_mem _ (ih h)
    · rcases List.mem_cons.1 h with rfl | h
      · exact List.mem_cons_self
      · exact List.mem_cons_of_mem _ (ih h)

/-- the new keys are those of the sequence that are not old -/
theorem mem_fresh {k : Text} : k ∈ (fresh key old cs).map key ↔ k ∈ cs.map key ∧ k ∉ old := by
  induction cs generalizing old with
  | nil => simp [fresh]
  | cons d cs ih =>
    unfold fresh
    split_ifs with hd
    · rw [ih, List.map_cons, List.mem_cons]
      constructor
      · rintro ⟨hk, hold⟩
        exact ⟨Or.inr hk, hold⟩
      · rintro ⟨rfl | hk, hold⟩
        · exact absurd hd hold
        · exact ⟨hk, hold⟩
    · rw [List.map_cons, List.mem_cons, ih, List.map_cons, List.mem_cons, List.mem_append, not_or, List.mem_singleton]
      by_cases hk : k = key d
      · simp [hk, hd]
      · simp [hk]

theorem fresh_nodup : ((fresh key old cs).map key).Nodup := by
  induction cs generalizing old with
  | nil => simp [fresh]
  | cons d cs ih =>
    unfold fresh
    split_ifs with hd
    · exact ih
    · rw [List.map_cons, List.nodup_cons, mem_fresh]
      exact ⟨fun h => h.2 (by simp), ih⟩

/-- the order of a sequence decides only the order of what is new -/
theorem fresh_perm (h : cs.Perm cs') : ((fresh key old cs).map key).Perm ((fresh key old cs').map key) := by
  rw [List.perm_ext_iff_of_nodup fresh_nodup fresh_nodup]
  intro k
  rw [mem_fresh, mem_fresh, (h.map key).mem_iff]

/-- every key of a sequence is old or new -/
theorem mem_append_fresh {c : Component} (h : c ∈ cs) : key c ∈ old ++ (fresh key old cs).map key := by
  rw [List.mem_append, mem_fresh]
  by_cases hold : key c ∈ old
  · exact Or.inl hold
  · exact Or.inr ⟨List.mem_map_of_mem h, hold⟩

end Fresh

/-- the body of a list with the entries of a sequence -/
def grown (newline : Newline) (body : Text) (cs : List Component) : Text :=
  (fresh Component.pascalName (Splice.items body) cs).foldl
    (fun body c => Splice.appendEntry newline body c.pascalName) body

section Grown

variable {newline : Newline} {body : Text} {c : Component} {cs : List Component}

theorem pascalName_ne_nil (hc : Slug.IsName c.slug) : c.pascalName ≠ [] := by
  obtain ⟨d, rest, h, -⟩ := hc.pascal_eq.1
  rw [Component.pascalName, h]
  simp

theorem grown_cons (hc : Slug.IsName c.slug) :
    grown newline body (c :: cs) = grown newline (entered newline body c.pascalName) cs := by
  unfold grown entered
  rw [fresh]
  split_ifs with h
  · rfl
  · rw [Splice.items_appendEntry newline body (isName_pascalName hc) (pascalName_ne_nil hc), List.foldl_cons]

/-- the entries of a sequence go behind the items there were, in the order of their first use -/
theorem items_grown (hcs : ∀ c ∈ cs, Slug.IsName c.slug) : Splice.items (grown newline body cs) =
    Splice.items body ++ (fresh Component.pascalName (Splice.items body) cs).map Component.pascalName := by
  unfold grown
  have hfresh : ∀ c ∈ fresh Component.pascalName (Splice.items body) cs, Slug.IsName c.slug :=
    fun c hc => hcs c (fresh_subset hc)
  generalize fresh Component.pascalName (Splice.items body) cs = new at hfresh
  induction new generalizing body with
  | nil => simp
  | cons d new ih =>
    have hd := hfresh d List.mem_cons_self
    rw [List.foldl_cons, ih fun c hc => hfresh c (List.mem_cons_of_mem _ hc),
      Splice.items_appendEntry newline body (isName_pascalName hd) (pascalName_ne_nil hd)]
    simp

end Grown

/-! ## One component -/

section Step

variable {newline : Newline} {f : Frame} {u z1 z2 : Text} {c : Component}

theorem step_apply (kind : ListKind) (t : Text) (c : Component) :
    kind.step.apply t c = Splice.intoList kind.anchor [kind.closer] kind.reject t c.pascalName := by
  cases kind <;> rfl

/-- where an entry is added, there is one list of the kind -/
theorem exists_list_of_step {kind : ListKind} {t t' : Text} (h : kind.step.apply t c = .ok t') : ∃ x body rest,
    t = x ++ body ++ kind.closer :: rest ∧ IsList kind x body rest ∧ Sole kind t x ∧
      t' = x ++ entered (.ofContent t) body c.pascalName ++ kind.closer :: rest := by
  rw [step_apply] at h
  exact exists_list_of_intoList h

/-- and where there is one list, the entry goes into it -/
theorem IsList.of_step {kind : ListKind} {x body rest t' : Text} (h : IsList kind x body rest)
    (hsole : Sole kind (x ++ body ++ kind.closer :: rest) x)
    (hstep : kind.step.apply (x ++ body ++ kind.closer :: rest) c = .ok t') :
    t' = x ++ entered (.ofContent (x ++ body ++ kind.closer :: rest)) body c.pascalName ++ kind.closer :: rest := by
  rw [step_apply, intoList_eq h hsole] at hstep
  exact (Except.ok.inj hstep).symm

/-- the import of a component -/
theorem Open.apply_import (h : Open newline f u) (hf : f.Sound) (hz1 : Fits newline f.first.filled z1)
    (hz2 : Fits newline f.second.filled z2) (hc : Slug.IsName c.slug) :
    Listing.importStep.apply (f.text u z1 z2) c = .ok (f.text (imported newline u c) z1 z2) ∧
      Open newline f (imported newline u c) := by
  constructor
  · have := afterImports_eq h.imports hc (hf.endsLine z1 z2) (h.silent z1 z2 hz1 hz2)
    have hnewline : Newline.ofContent (u ++ f.lists z1 z2) = newline := h.ofContent_eq hf hz1 hz2
    rwa [hnewline] at this
  · unfold imported
    split_ifs
    · exact h
    · exact h.insert hf hc

/-- the entry of a component in the first list -/
theorem Open.apply_first (h : Open newline f u) (hf : f.Sound) (hz1 : Fits newline f.first.filled z1)
    (hz2 : Fits newline f.second.filled z2) (hc : Slug.IsName c.slug) :
    ∃ z, Fits newline f.first.filled z ∧ f.first.body z = entered newline (f.first.body z1) c.pascalName ∧
      f.first.kind.step.apply (f.text u z1 z2) c = .ok (f.text u z z2) := by
  obtain ⟨z, hz, hbody⟩ := hf.first.entered hz1 hc
  refine ⟨z, hz, hbody, ?_⟩
  have hsole := h.first z1 z2 hz1 hz2
  have hnewline := h.ofContent_eq hf hz1 hz2
  rw [f.text_first] at hsole hnewline
  rw [step_apply, f.text_first, intoList_eq (h.isList_first hf hz1 hz2) hsole, hnewline, ← hbody, f.text_first]

/-- the entry of a component in the second list -/
theorem Open.apply_second (h : Open newline f u) (hf : f.Sound) (hz1 : Fits newline f.first.filled z1)
    (hz2 : Fits newline f.second.filled z2) (hc : Slug.IsName c.slug) :
    ∃ z, Fits newline f.second.filled z ∧ f.second.body z = entered newline (f.second.body z2) c.pascalName ∧
      f.second.kind.step.apply (f.text u z1 z2) c = .ok (f.text u z1 z) := by
  obtain ⟨z, hz, hbody⟩ := hf.second.entered hz2 hc
  refine ⟨z, hz, hbody, ?_⟩
  have hsole := h.second z1 z2 hz1 hz2
  have hnewline := h.ofContent_eq hf hz1 hz2
  rw [f.text_second] at hsole hnewline
  rw [step_apply, f.text_second, intoList_eq (hf.isList_second hz2) hsole, hnewline, ← hbody, f.text_second]

theorem apply_eq {root : Path} {t t1 t2 t3 : Text} (h1 : Listing.importStep.apply t c = .ok t1)
    (h2 : ListKind.components.step.apply t1 c = .ok t2) (h3 : ListKind.exports.step.apply t2 c = .ok t3) :
    (Listing.index (Settings.standard root)).apply t c = .ok t3 := by
  change Listing.applySteps t c [Listing.importStep, ListKind.components.step, ListKind.exports.step] = _
  simp only [Listing.applySteps, h1, h2, h3]

/-- **one component adds an import and an entry to either list, and changes nothing else** -/
theorem Open.apply (root : Path) (h : Open newline f u) (hf : f.Sound) (hz1 : Fits newline f.first.filled z1)
    (hz2 : Fits newline f.second.filled z2) (hc : Slug.IsName c.slug) :
    ∃ z1' z2', Fits newline f.first.filled z1' ∧ Fits newline f.second.filled z2' ∧
      f.first.body z1' = entered newline (f.first.body z1) c.pascalName ∧
      f.second.body z2' = entered newline (f.second.body z2) c.pascalName ∧
      (Listing.index (Settings.standard root)).apply (f.text u z1 z2) c =
        .ok (f.text (imported newline u c) z1' z2') := by
  obtain ⟨himport, h⟩ := h.apply_import hf hz1 hz2 hc
  cases hk : f.first.kind with
  | components =>
    have hk2 : f.second.kind = .exports := by
      cases hk2 : f.second.kind with
      | components => exact absurd (hk.trans hk2.symm) hf.kinds
      | exports => rfl
    obtain ⟨z1', hz1', hbody1, happly1⟩ := h.apply_first hf hz1 hz2 hc
    obtain ⟨z2', hz2', hbody2, happly2⟩ := h.apply_second hf hz1' hz2 hc
    rw [hk] at happly1
    rw [hk2] at happly2
    exact ⟨z1', z2', hz1', hz2', hbody1, hbody2, apply_eq himport happly1 happly2⟩
  | exports =>
    have hk2 : f.second.kind = .components := by
      cases hk2 : f.second.kind with
      | components => rfl
      | exports => exact absurd (hk.trans hk2.symm) hf.kinds
    obtain ⟨z2', hz2', hbody2, happly2⟩ := h.apply_second hf hz1 hz2 hc
    obtain ⟨z1', hz1', hbody1, happly1⟩ := h.apply_first hf hz1 hz2' hc
    rw [hk] at happly1
    rw [hk2] at happly2
    exact ⟨z1', z2', hz1', hz2', hbody1, hbody2, apply_eq himport happly2 happly1⟩

/-! ## Sequences of components -/

/-- the imports that a sequence of components adds -/
def importLines (newline : Newline) (old : List Text) (cs : List Component) : Text :=
  (fresh sourceOf old cs).flatMap (importLine newline)

theorem importLines_cons {cs : List Component} (hu : EndsBlock u) (hc : Slug.IsName c.slug) :
    u ++ importLines newline (sources u) (c :: cs) =
      imported newline u c ++ importLines newline (sources (imported newline u c)) cs := by
  unfold importLines imported
  rw [fresh]
  split_ifs with h
  · rfl
  · rw [hu.sources_insert hc, List.flatMap_cons, List.append_assoc]

/-- **a sequence of components adds the imports and entries that are new, each at its first use** -/
theorem Open.run (root : Path) {cs : List Component} (h : Open newline f u) (hf : f.Sound)
    (hz1 : Fits newline f.first.filled z1) (hz2 : Fits newline f.second.filled z2)
    (hcs : ∀ c ∈ cs, Slug.IsName c.slug) :
    ∃ z1' z2', Fits newline f.first.filled z1' ∧ Fits newline f.second.filled z2' ∧
      f.first.body z1' = grown newline (f.first.body z1) cs ∧ f.second.body z2' = grown newline (f.second.body z2) cs ∧
      Open newline f (u ++ importLines newline (sources u) cs) ∧
      sources (u ++ importLines newline (sources u) cs) = sources u ++ (fresh sourceOf (sources u) cs).map sourceOf ∧
      cs.foldlM (Listing.index (Settings.standard root)).apply (f.text u z1 z2) =
        .ok (f.text (u ++ importLines newline (sources u) cs) z1' z2') := by
  induction cs generalizing u z1 z2 with
  | nil =>
    refine ⟨z1, z2, hz1, hz2, rfl, rfl, ?_, ?_, ?_⟩ <;> simp [importLines, fresh]
    · exact h
    · rfl
  | cons c cs ih =>
    have hc := hcs c List.mem_cons_self
    obtain ⟨y1, y2, hy1, hy2, hb1, hb2, happly⟩ := h.apply root hf hz1 hz2 hc
    have hopen := (h.apply_import hf hz1 hz2 hc).2
    obtain ⟨z1', z2', hz1', hz2', hg1, hg2, hopen', hsources, hfold⟩ :=
      ih hopen hy1 hy2 fun d hd => hcs d (List.mem_cons_of_mem _ hd)
    rw [← importLines_cons h.imports hc] at hopen' hsources hfold
    refine ⟨z1', z2', hz1', hz2', by rw [hg1, hb1, grown_cons hc], by rw [hg2, hb2, grown_cons hc], hopen', ?_, ?_⟩
    · rw [hsources]
      unfold imported
      rw [fresh]
      split_ifs with hin
      · rfl
      · rw [h.imports.sources_insert hc]
        simp
    · rw [List.foldlM_cons, happly]
      exact hfold

/-- a component that is registered changes nothing any more -/
theorem Open.apply_again (root : Path) (h : Open newline f u) (hf : f.Sound)
    (hz1 : Fits newline f.first.filled z1) (hz2 : Fits newline f.second.filled z2) (hc : Slug.IsName c.slug)
    (hsource : sourceOf c ∈ sources u) (h1 : c.pascalName ∈ Splice.items (f.first.body z1))
    (h2 : c.pascalName ∈ Splice.items (f.second.body z2)) :
    (Listing.index (Settings.standard root)).apply (f.text u z1 z2) c = .ok (f.text u z1 z2) := by
  obtain ⟨y1, y2, -, -, hb1, hb2, happly⟩ := h.apply root hf hz1 hz2 hc
  rw [entered, if_pos h1] at hb1
  rw [entered, if_pos h2] at hb2
  rw [happly, imported, if_pos hsource]
  simp only [Frame.text, Frame.lists, Slot.text, hb1, hb2]

end Step

end Componentry.Index
