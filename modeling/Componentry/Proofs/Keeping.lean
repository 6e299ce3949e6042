/-
What a splice leaves of a text: everything that is not white space.

What is kept does not depend on what an anchor looks for, so the splices are taken here with anchors of any kind, known
by the matches they find alone; those with a pattern are among them (`toOption_apply`).
- `IsEdit`: a text with one piece exchanged for another, where nothing but white space is lost.
- `intoList_isEdit`, `afterImports_isEdit`, `intoCollection_isEdit`, `afterLast_isEdit`: what each splice does to a text.
- `IsEdit.sublist`, `applySteps_keeps`: so what is visible stays, in one step and in all of them.

Main result: `apply_keeps_visible`.
-/
import Componentry.Proofs.Listing
import Componentry.Proofs.Splice.Collections

namespace Componentry

open Text

/-! ## Anchors of any kind -/

namespace Pattern

variable {p : Pattern} {byLine : Bool}

theorem start_le_stop_of_mem_here {k : Cursor} {position : Nat} {o : Occurrence} (ho : o ∈ p.here byLine k position) :
    o.start ≤ o.stop := by
  unfold here at ho
  cases hends : p.ends byLine k with
  | nil => simp [hends] at ho
  | cons e more =>
    simp only [hends] at ho
    split_ifs at ho
    · rw [List.mem_singleton.1 ho]
      exact Nat.le_add_right _ _
    · rcases List.mem_cons.1 ho with rfl | ho
      · exact Nat.le_add_right _ _
      · obtain ⟨e', -, rfl⟩ := List.mem_map.1 ho
        exact Nat.le_add_right _ _

/-- every match lies within its text, also one of a pattern that may match nothing at all -/
theorem scan_within {before : Option Char} {position skip : Nat} {t : Text} {o : Occurrence}
    (ho : o ∈ p.scan byLine before position skip t) : o.start ≤ o.stop ∧ o.stop ≤ position + t.length := by
  induction t generalizing before position skip with
  | nil => exact ⟨start_le_stop_of_mem_here ho, stop_le_of_mem_here ho⟩
  | cons c rest ih =>
    have hlater : ∀ {skip' : Nat}, o ∈ p.scan byLine (some c) (position + 1) skip' rest →
        o.start ≤ o.stop ∧ o.stop ≤ position + (c :: rest).length := by
      intro skip' h
      obtain ⟨hle, hstop⟩ := ih h
      exact ⟨hle, by rw [List.length_cons]; omega⟩
    cases skip with
    | succ skip => exact hlater ho
    | zero =>
      rw [scan_zero] at ho
      rcases List.mem_append.1 ho with ho | ho
      · exact ⟨start_le_stop_of_mem_here ho, stop_le_of_mem_here ho⟩
      · exact hlater ho

end Pattern

namespace Splice

/-- an anchor of any kind, known by what it finds: its matches in a text, and the parts that they can keep -/
structure Anchor where
  found : Bool → Text → List Occurrence
  keeps : Group → Bool
  within : ∀ byLine t, ∀ m ∈ found byLine t, m.start ≤ m.stop ∧ m.stop ≤ t.length

namespace Anchor

/-- the anchor that a pattern is -/
def ofPattern (p : Pattern) : Anchor where
  found := p.occurrences
  keeps g := p.keeps g
  within _ t _ hm := by simpa using Pattern.scan_within (t := t) hm

/-- the lists an anchor opens; one whose closer is followed by what is rejected is none -/
def lists (a : Anchor) (closer : Text) (reject : Option (Text → Bool)) (content : Text) : List ListSpan :=
  (a.found false content).filterMap fun m =>
    match indexFrom? closer content m.stop with
    | none => none
    | some close =>
      if reject.any (· (content.drop (close + closer.length))) then none else some ⟨m.stop, close⟩

/-- a text with an entry added to the one list an anchor opens -/
def intoList (a : Anchor) (closer : Text) (reject : Option (Text → Bool)) (content entry : Text) : Option Text :=
  match a.lists closer reject content with
  | [span] =>
    let body := slice content span.start span.close
    if (items body).contains entry then some content
    else some (content.take span.start ++ appendEntry (.ofContent content) body entry ++ content.drop span.close)
  | _ => none

/-- the sources of the imports in a text -/
def sources (a : Anchor) (content : Text) : List Text := (a.found true content).filterMap (·.part? .source)

/-- a text with a statement after its import block -/
def afterImports (a : Anchor) (content statement : Text) : Option Text :=
  match (a.found true content).getLast? with
  | none => none
  | some last =>
    if blockCount content (a.found true content) > 1 then none
    else
      let newline := Newline.ofContent content
      let inserted := insertAt content last.stop (newline.text ++ withNewline newline statement)
      match sourceOf? statement with
      | some source =>
        if !a.keeps .source then none
        else if (a.sources content).contains source then some content
        else some inserted
      | none => if isPresent statement content then some content else some inserted

/-- a text with a fragment added to the one collection an anchor opens -/
def intoCollection (a : Anchor) (closer content fragment : Text) : Option Text :=
  match a.found false content with
  | [m] =>
    match indexFrom? closer content m.stop with
    | none => none
    | some close =>
      let body := slice content m.stop close
      if isPresent fragment body then some content
      else
        let fragment := withNewline (.ofContent content) fragment
        some (content.take m.stop ++ appendChild body fragment ++ content.drop close)
  | _ => none

/-- what a text points at, by the first match of a key -/
def target? (key : Anchor) (t : Text) : Option Text := (key.found false t).head?.bind (·.part? .key)

/-- what the elements of a text point at -/
def targets (a key : Anchor) (content : Text) : List Text :=
  (a.found false content).filterMap fun m => key.target? (m.textIn content)

/-- a text with a fragment after the last element an anchor finds -/
def afterLast (a : Anchor) (key : Option Anchor) (content fragment : Text) : Option Text :=
  match (a.found false content).getLast? with
  | none => some content
  | some last =>
    let inserted := insertAt content last.stop (withNewline (.ofContent content) fragment)
    match key.filter fun key => (key.found false fragment).head?.isSome with
    | some key =>
      if !key.keeps .key then none
      else if (key.target? fragment).any ((a.targets key content).contains ·) then some content
      else some inserted
    | none => if isPresent fragment content then some content else some inserted

end Anchor

/-- the four ways to splice, with any closer, any rejected text and any key -/
inductive Way where
  | listed (closer : Text) (reject : Option (Text → Bool))
  | imported
  | keyed (closer : Text)
  | trailing (key : Option Anchor)

/-- a text with a fragment spliced in at an anchor of any kind, if that is possible -/
def Way.apply : Way → Anchor → Text → Text → Option Text
  | .listed closer reject, a => a.intoList closer reject
  | .imported, a => a.afterImports
  | .keyed closer, a => a.intoCollection closer
  | .trailing key, a => a.afterLast key

/-- how a fragment is written in a text: an entry as it is, the others in the line ending of the text -/
def Way.written : Way → Text → Text → Text
  | .listed _ _, _, fragment => fragment
  | _, content, fragment => withNewline (.ofContent content) fragment

/-- the way in which a splice of the library goes about it; any other is none of the four -/
def way? : Splice → Option Way
  | .listed closer reject => some (.listed closer ((given? reject).map fun p => p.startsIn))
  | .imported => some .imported
  | .keyed closer => some (.keyed closer)
  | .trailing key => some (.trailing ((given? key).map .ofPattern))
  | .own _ => none

section Patterns

variable {p : Pattern} {content fragment : Text}

theorem lists_ofPattern (closer : Text) (reject : Option Pattern) (content : Text) :
    (Anchor.ofPattern p).lists closer ((given? reject).map fun p => p.startsIn) content =
      listSpans content p closer reject := by
  unfold Anchor.lists listSpans
  cases given? reject <;> rfl

theorem toOption_intoList (closer : Text) (reject : Option Pattern) :
    (intoList p closer reject content fragment).toOption =
      (Anchor.ofPattern p).intoList closer ((given? reject).map fun p => p.startsIn) content fragment := by
  unfold intoList Anchor.intoList
  rw [lists_ofPattern]
  rcases listSpans content p closer reject with _ | ⟨span, _ | ⟨span', spans⟩⟩
  · rfl
  · simp only []
    split_ifs <;> rfl
  · rfl

theorem toOption_afterImports :
    (afterImports p content fragment).toOption = (Anchor.ofPattern p).afterImports content fragment := by
  have hfound : (Anchor.ofPattern p).found true content = p.occurrences true content := rfl
  have hkeeps : (Anchor.ofPattern p).keeps .source = p.keeps .source := rfl
  have hsources : (Anchor.ofPattern p).sources content = sources p content := rfl
  unfold afterImports Anchor.afterImports
  simp only [hfound, hkeeps, hsources]
  cases (p.occurrences true content).getLast? with
  | none => rfl
  | some last =>
    by_cases hblocks : blockCount content (p.occurrences true content) > 1
    · simp only [hblocks, if_true]
      rfl
    · simp only [hblocks, if_false]
      cases sourceOf? fragment with
      | none => by_cases hpresent : isPresent fragment content = true <;> simp [hpresent, Except.toOption]
      | some source =>
        cases p.keeps .source with
        | false => rfl
        | true =>
          by_cases hknown : (sources p content).contains source = true
          · simp only [if_pos hknown]
            rfl
          · simp only [if_neg hknown]
            rfl

theorem toOption_intoCollection (closer : Text) :
    (intoCollection p closer content fragment).toOption = (Anchor.ofPattern p).intoCollection closer content fragment := by
  unfold intoCollection Anchor.intoCollection
  simp only [Anchor.ofPattern]
  rcases p.occurrences false content with _ | ⟨m, _ | ⟨m', more⟩⟩
  · rfl
  · cases hclose : indexFrom? closer content m.stop with
    | none =>
      simp only [hclose]
      rfl
    | some close =>
      simp only [hclose]
      split_ifs <;> rfl
  · rfl

theorem toOption_afterLast (key : Option Pattern) : (afterLast p key content fragment).toOption =
    (Anchor.ofPattern p).afterLast ((given? key).map .ofPattern) content fragment := by
  have hfound : (Anchor.ofPattern p).found false content = p.occurrences false content := rfl
  have hfilter : ((given? key).map Anchor.ofPattern).filter (fun key => (key.found false fragment).head?.isSome) =
      ((given? key).filter fun key => (key.first? false fragment).isSome).map .ofPattern := by
    cases given? key with
    | none => rfl
    | some key =>
      have hfirst : ((Anchor.ofPattern key).found false fragment).head?.isSome = (key.first? false fragment).isSome := rfl
      rw [Option.map_some, Option.filter_some, Option.filter_some, hfirst]
      split_ifs <;> rfl
  unfold afterLast Anchor.afterLast
  simp only [hfound, hfilter]
  cases (p.occurrences false content).getLast? with
  | none => rfl
  | some last =>
    cases (given? key).filter fun key => (key.first? false fragment).isSome with
    | none => by_cases hpresent : isPresent fragment content = true <;> simp [hpresent, Except.toOption]
    | some key =>
      have hkeeps : (Anchor.ofPattern key).keeps .key = key.keeps .key := rfl
      simp only [Option.map_some, hkeeps]
      cases key.keeps .key with
      | false => rfl
      | true =>
        have htargets : (Anchor.ofPattern p).targets (.ofPattern key) content = targets p key content := rfl
        have htarget : (Anchor.ofPattern key).target? fragment = targetOf? key fragment := rfl
        rw [htargets, htarget]
        by_cases hknown : (targetOf? key fragment).any ((targets p key content).contains ·) = true
        · simp only [if_pos hknown]
          rfl
        · simp only [if_neg hknown]
          rfl

/-- **the splices with a pattern are those with the anchor that the pattern is** -/
theorem toOption_apply {splice : Splice} {way : Way} (h : way? splice = some way) :
    (splice.apply p content fragment).toOption = way.apply (.ofPattern p) content fragment := by
  cases splice with
  | listed closer reject =>
    obtain rfl := Option.some.inj h
    exact toOption_intoList closer reject
  | imported =>
    obtain rfl := Option.some.inj h
    exact toOption_afterImports
  | keyed closer =>
    obtain rfl := Option.some.inj h
    exact toOption_intoCollection closer
  | trailing key =>
    obtain rfl := Option.some.inj h
    exact toOption_afterLast key
  | own edit => exact absurd h (by simp [way?])

end Patterns

/-! ## Edits -/

/-- a text with a piece in the place of what stands between two positions, which is white space at most -/
structure IsEdit (content result : Text) (i j : Nat) (piece : Text) : Prop where
  le : i ≤ j
  within : j ≤ content.length
  eq : result = content.take i ++ piece ++ content.drop j
  blanks : Blanks (slice content i j)

section Edits

variable {a : Anchor} {content fragment result piece : Text} {i j : Nat}

theorem IsEdit.insertAt {place : Nat} (h : place ≤ content.length) (piece : Text) :
    IsEdit content (insertAt content place piece) place place piece := by
  refine ⟨le_rfl, h, rfl, ?_⟩
  rw [slice, List.drop_take_self]
  exact blanks_nil

theorem IsEdit.refl (content : Text) : IsEdit content content 0 0 [] := IsEdit.insertAt (Nat.zero_le _) []

/-- **what is visible in a text stays in it, and in its order** -/
theorem IsEdit.sublist (h : IsEdit content result i j piece) :
    (content.filter (!isBlank ·)).Sublist (result.filter (!isBlank ·)) := by
  have hslice : (slice content i j).filter (!isBlank ·) = [] :=
    List.filter_eq_nil_iff.2 fun c hc => by simp [h.blanks c hc]
  rw [h.eq]
  conv_lhs => rw [← take_slice_drop content h.le]
  simp only [List.filter_append, hslice, List.append_nil]
  exact (List.sublist_append_left _ _).append (List.Sublist.refl _)

theorem indexOf?_le {closer t : Text} {n : Nat} (h : indexOf? closer t = some n) : n ≤ t.length := by
  induction t generalizing n with
  | nil =>
    rw [indexOf?] at h
    split_ifs at h
    exact (Option.some.inj h).ge
  | cons c t ih =>
    rw [indexOf?] at h
    split_ifs at h
    · exact (Option.some.inj h) ▸ Nat.zero_le _
    · obtain ⟨m, hm, rfl⟩ := Option.map_eq_some_iff.1 h
      exact Nat.succ_le_succ (ih hm)

theorem indexFrom?_le {closer t : Text} {start n : Nat} (hstart : start ≤ t.length)
    (h : indexFrom? closer t start = some n) : n ≤ t.length := by
  obtain ⟨m, hm, rfl⟩ := Option.map_eq_some_iff.1 h
  have hle := indexOf?_le hm
  rw [List.length_drop] at hle
  omega

/-- a piece behind the first part of what stands between two positions -/
theorem insertAt_slice {filled tail : Text} (hle : i ≤ j) (hj : j ≤ content.length)
    (hslice : slice content i j = filled ++ tail) (piece : Text) : i + filled.length ≤ content.length ∧
      content.take i ++ (filled ++ piece ++ tail) ++ content.drop j = insertAt content (i + filled.length) piece := by
  have hparts := take_slice_drop content hle
  have hstart : (content.take i).length = i := List.length_take_of_le (hle.trans hj)
  have hplace : (content.take i ++ filled).length = i + filled.length := by rw [List.length_append, hstart]
  rw [hslice] at hparts
  constructor
  · have hlen := congrArg List.length hparts
    simp only [List.length_append, hstart] at hlen
    omega
  · rw [← insertAt_body, hplace, hparts]

/-! ## The four splices -/

theorem infix_joined (filled gap entry : Text) : entry <:+: joined filled gap entry := by
  unfold joined
  split_ifs
  · exact ⟨gap, [','], rfl⟩
  · exact ⟨',' :: gap, [], by simp⟩

/-- the lists an anchor opens lie within the text -/
theorem Anchor.within_of_mem_lists {closer : Text} {reject : Option (Text → Bool)} {span : ListSpan}
    (h : span ∈ a.lists closer reject content) : span.start ≤ span.close ∧ span.close ≤ content.length := by
  obtain ⟨m, hm, hspan⟩ := List.mem_filterMap.1 h
  cases hclose : indexFrom? closer content m.stop with
  | none => simp [hclose] at hspan
  | some close =>
    simp only [hclose] at hspan
    split_ifs at hspan
    obtain rfl := Option.some.inj hspan
    exact ⟨le_indexFrom? hclose, indexFrom?_le (a.within _ _ m hm).2 hclose⟩

/-- an entry goes behind the last item, or in the place of white space that is all there is -/
theorem intoList_isEdit {closer : Text} {reject : Option (Text → Bool)}
    (h : a.intoList closer reject content fragment = some result) : ∃ i j piece, IsEdit content result i j piece ∧
      (i = j ∨ a.lists closer reject content = [⟨i, j⟩]) ∧ (result = content ∨ fragment <:+: piece) := by
  unfold Anchor.intoList at h
  split at h
  · rename_i span hspans
    obtain ⟨hle, hj⟩ := Anchor.within_of_mem_lists (by rw [hspans]; exact List.mem_singleton_self span)
    simp only at h
    split_ifs at h
    · obtain rfl := Option.some.inj h
      exact ⟨0, 0, [], .refl _, Or.inl rfl, Or.inl rfl⟩
    · obtain rfl := Option.some.inj h
      obtain ⟨tail, hbody, ht, hf⟩ := exists_trimEnd (slice content span.start span.close)
      by_cases hfilled : trimEnd (slice content span.start span.close) = []
      · have hblanks := trimEnd_eq_nil_iff.1 hfilled
        obtain ⟨pad, -, happend⟩ := appendEntry_blanks (.ofContent content) hblanks fragment
        rw [happend]
        exact ⟨_, _, _, ⟨hle, hj, rfl, hblanks⟩, Or.inr hspans, Or.inr ⟨pad, pad, rfl⟩⟩
      · obtain ⟨gap, -, -, happend⟩ := appendEntry_filled (.ofContent content) hf hfilled ht fragment
        obtain ⟨hplace, hinsert⟩ :=
          insertAt_slice hle hj hbody (joined (trimEnd (slice content span.start span.close)) gap fragment)
        rw [← hbody] at happend
        rw [happend, hinsert]
        exact ⟨_, _, _, .insertAt hplace _, Or.inl rfl, Or.inr (infix_joined _ _ _)⟩
  · simp at h

/-- a text that stays, or has something put in at a place -/
theorem exists_isEdit {place : Nat} (lead : Text) {written : Text} (hplace : place ≤ content.length)
    (h : result = content ∨ result = insertAt content place (lead ++ written)) : ∃ i piece,
      IsEdit content result i i piece ∧ (result = content ∨ written <:+: piece) := by
  rcases h with rfl | rfl
  · exact ⟨0, [], .refl _, Or.inl rfl⟩
  · exact ⟨place, lead ++ written, .insertAt hplace _, Or.inr (List.suffix_append _ _).isInfix⟩

/-- a statement goes behind the last match -/
theorem afterImports_isEdit (h : a.afterImports content fragment = some result) : ∃ i piece,
    IsEdit content result i i piece ∧ (result = content ∨ withNewline (.ofContent content) fragment <:+: piece) := by
  unfold Anchor.afterImports at h
  split at h
  · simp at h
  · rename_i last hlast
    refine exists_isEdit (Newline.ofContent content).text (a.within _ _ last (List.mem_of_getLast? hlast)).2 ?_
    simp only at h
    split at h
    · simp at h
    · split at h
      · split_ifs at h
        · exact Or.inl (Option.some.inj h).symm
        · exact Or.inr (Option.some.inj h).symm
      · split_ifs at h
        · exact Or.inl (Option.some.inj h).symm
        · exact Or.inr (Option.some.inj h).symm

/-- a fragment goes behind the last child -/
theorem intoCollection_isEdit {closer : Text} (h : a.intoCollection closer content fragment = some result) :
    ∃ i piece, IsEdit content result i i piece ∧
      (result = content ∨ withNewline (.ofContent content) fragment <:+: piece) := by
  unfold Anchor.intoCollection at h
  split at h
  · rename_i m hfound
    have hm := (a.within false content m (by rw [hfound]; exact List.mem_singleton_self m)).2
    split at h
    · simp at h
    · rename_i close hclose
      obtain ⟨tail, hbody, ht, hf⟩ := exists_trimEnd (slice content m.stop close)
      obtain ⟨hplace, hinsert⟩ := insertAt_slice (le_indexFrom? hclose) (indexFrom?_le hm hclose) hbody
        (separator (trimEnd (slice content m.stop close)) ++ withNewline (.ofContent content) fragment)
      refine exists_isEdit (separator (trimEnd (slice content m.stop close))) hplace ?_
      have happend := appendChild_filled hf ht (withNewline (.ofContent content) fragment)
      rw [← hbody] at happend
      simp only at h
      split_ifs at h
      · exact Or.inl (Option.some.inj h).symm
      · rw [happend, hinsert] at h
        exact Or.inr (Option.some.inj h).symm
  · simp at h

/-- a fragment goes behind the last element -/
theorem afterLast_isEdit {key : Option Anchor} (h : a.afterLast key content fragment = some result) : ∃ i piece,
    IsEdit content result i i piece ∧ (result = content ∨ withNewline (.ofContent content) fragment <:+: piece) := by
  unfold Anchor.afterLast at h
  split at h
  · obtain rfl := Option.some.inj h
    exact ⟨0, [], .refl _, Or.inl rfl⟩
  · rename_i last hlast
    refine exists_isEdit [] (a.within _ _ last (List.mem_of_getLast? hlast)).2 ?_
    simp only at h
    split at h
    · split_ifs at h
      · exact Or.inl (Option.some.inj h).symm
      · exact Or.inr (Option.some.inj h).symm
    · split_ifs at h
      · exact Or.inl (Option.some.inj h).symm
      · exact Or.inr (Option.some.inj h).symm

/-- **each way to splice exchanges white space at most for a piece with the fragment in it, and only a list of nothing
but white space loses that** -/
theorem Way.apply_isEdit {way : Way} (h : way.apply a content fragment = some result) : ∃ i j piece,
    IsEdit content result i j piece ∧
      (i = j ∨ ∃ closer reject, way = .listed closer reject ∧ a.lists closer reject content = [⟨i, j⟩]) ∧
      (result = content ∨ way.written content fragment <:+: piece) := by
  cases way with
  | listed closer reject =>
    obtain ⟨i, j, piece, hedit, hplace, hpiece⟩ := intoList_isEdit h
    exact ⟨i, j, piece, hedit, hplace.imp_right fun hlists => ⟨closer, reject, rfl, hlists⟩, hpiece⟩
  | imported =>
    obtain ⟨i, piece, hedit, hpiece⟩ := afterImports_isEdit h
    exact ⟨i, i, piece, hedit, Or.inl rfl, hpiece⟩
  | keyed closer =>
    obtain ⟨i, piece, hedit, hpiece⟩ := intoCollection_isEdit h
    exact ⟨i, i, piece, hedit, Or.inl rfl, hpiece⟩
  | trailing key =>
    obtain ⟨i, piece, hedit, hpiece⟩ := afterLast_isEdit h
    exact ⟨i, i, piece, hedit, Or.inl rfl, hpiece⟩

end Edits

end Splice

/-! ## Listings -/

namespace Listing

open Splice

/-- whether a step splices in one of the four ways, at an anchor of any kind -/
def Step.IsSpliced (step : Step) : Prop :=
  ∃ way anchor, ∀ content fragment,
    (step.splice.apply step.anchor content fragment).toOption = Way.apply way anchor content fragment

theorem Step.isSpliced_of_way? {step : Step} {way : Way} (h : way? step.splice = some way) : step.IsSpliced :=
  ⟨way, .ofPattern step.anchor, fun _ _ => toOption_apply h⟩

/-- the steps of a library's listings are of the four ways -/
theorem isSpliced_of_mem_all {s : Settings} {l : Listing} (hl : l ∈ all s) : ∀ step ∈ l.steps, step.IsSpliced := by
  have hnil : ∀ step ∈ ([] : List Step), step.IsSpliced := fun _ h => absurd h List.not_mem_nil
  simp only [all, List.mem_cons, List.not_mem_nil, or_false] at hl
  rcases hl with rfl | rfl | rfl
  · exact List.forall_mem_cons.2 ⟨Step.isSpliced_of_way? rfl, List.forall_mem_cons.2 ⟨Step.isSpliced_of_way? rfl,
      List.forall_mem_cons.2 ⟨Step.isSpliced_of_way? rfl, hnil⟩⟩⟩
  · exact List.forall_mem_cons.2 ⟨Step.isSpliced_of_way? rfl, hnil⟩
  · exact List.forall_mem_cons.2 ⟨Step.isSpliced_of_way? rfl, hnil⟩

theorem Step.apply_keeps {step : Step} (h : step.IsSpliced) {t t' : Text} {c : Component}
    (happly : step.apply t c = .ok t') :
    (t.filter (!isBlank ·)).Sublist (t'.filter (!isBlank ·)) := by
  obtain ⟨way, anchor, hway⟩ := h
  have hresult := hway t (step.fragment c)
  rw [← Step.apply, happly] at hresult
  obtain ⟨i, j, piece, hedit, -⟩ := Way.apply_isEdit hresult.symm
  exact hedit.sublist

theorem applySteps_keeps {steps : List Step} (h : ∀ step ∈ steps, step.IsSpliced) {t t' : Text} {c : Component}
    (happly : applySteps t c steps = .ok t') : (t.filter (!isBlank ·)).Sublist (t'.filter (!isBlank ·)) := by
  induction steps generalizing t with
  | nil =>
    obtain rfl : t = t' := Except.ok.inj happly
    exact List.Sublist.refl _
  | cons step steps ih =>
    obtain ⟨next, hstep, hrest⟩ := applySteps_cons.1 happly
    have hfirst := Step.apply_keeps (h step List.mem_cons_self) hstep
    exact hfirst.trans (ih (fun s hs => h s (List.mem_cons_of_mem _ hs)) hrest)

/-- **a splice at any anchor exchanges white space at most for a piece with the fragment in it, and only a list of
nothing but white space loses that; so everything visible in a text stays in every listing that is spliced** -/
theorem apply_keeps_visible :
    (∀ (way : Way) (anchor : Anchor) (content fragment result : Text),
      way.apply anchor content fragment = some result → ∃ i j inserted, i ≤ j ∧ j ≤ content.length ∧
        result = content.take i ++ inserted ++ content.drop j ∧ Blanks (slice content i j) ∧
        (i = j ∨ ∃ closer reject, way = .listed closer reject ∧ anchor.lists closer reject content = [⟨i, j⟩]) ∧
        (result = content ∨ way.written content fragment <:+: inserted)) ∧
    (∀ (splice : Splice) (way : Way), way? splice = some way → ∀ (anchor : Pattern) (content fragment : Text),
      (splice.apply anchor content fragment).toOption = way.apply (.ofPattern anchor) content fragment) ∧
    (∀ (l : Listing), (∀ step ∈ l.steps, step.IsSpliced) → ∀ (c : Component) (t t' : Text), l.apply t c = .ok t' →
      (t.filter (!isBlank ·)).Sublist (t'.filter (!isBlank ·))) := by
  refine ⟨?_, ?_, ?_⟩
  · intro way anchor content fragment result h
    obtain ⟨i, j, piece, hedit, hplace, hpiece⟩ := Way.apply_isEdit h
    exact ⟨i, j, piece, hedit.le, hedit.within, hedit.eq, hedit.blanks, hplace, hpiece⟩
  · intro splice way h anchor content fragment
    exact toOption_apply h
  · intro l hl c t t' h
    exact applySteps_keeps hl h

/-- an index whose list of constants is white space over two lines: that is lost, and nothing else -/
theorem apply_keeps_visible_blank_list :
    let l := index (Settings.standard (.ofText "repo".toList))
    let c : Component := ⟨"foo".toList, "Foo".toList, [], []⟩
    let t := "import A from './a'\nconst components = [\n]\nexport \x7b A \x7d\n".toList
    let t' := "import A from './a'\nimport \x7b Foo \x7d from './foo'\n".toList ++
      "const components = [Foo]\nexport \x7b A, Foo \x7d\n".toList
    let way := Way.listed [']'] none
    let anchor := Anchor.ofPattern (.constantList "components".toList)
    (∀ step ∈ l.steps, step.IsSpliced) ∧ l.apply t c = .ok t' ∧
      (t.filter (!isBlank ·)).Sublist (t'.filter (!isBlank ·)) ∧
      way? (.listed [']'] none) = some way ∧
      ∃ result, way.apply anchor t "Foo".toList = some result ∧ ∃ i j inserted,
        result = t.take i ++ inserted ++ t.drop j ∧ Blanks (slice t i j) ∧
        (result = t ∨ "Foo".toList <:+: inserted) := by
  intro l c t t' way anchor
  have hsteps : ∀ step ∈ l.steps, step.IsSpliced := isSpliced_of_mem_all (List.mem_cons_self)
  have happly : l.apply t c = .ok t' := ok_of_toOption (by decide +kernel)
  have hway : way? (.listed [']'] none) = some way := rfl
  have hlist : (way.apply anchor t "Foo".toList).isSome = true := by
    rw [← apply_keeps_visible.2.1 _ _ hway]
    decide +kernel
  obtain ⟨result, hresult⟩ := Option.isSome_iff_exists.1 hlist
  obtain ⟨i, j, inserted, -, -, heq, hblanks, -, hpiece⟩ := apply_keeps_visible.1 way anchor t _ result hresult
  exact ⟨hsteps, happly, apply_keeps_visible.2.2 l hsteps c t t' happly, hway, result, hresult, i, j, inserted, heq,
    hblanks, hpiece⟩

end Listing

end Componentry
