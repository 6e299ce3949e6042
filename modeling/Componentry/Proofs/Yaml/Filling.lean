/-
Why a document has no value.

A document that keeps the rules of the language has no value only if one of its scalars writes none, or a mapping that is
to be read as a scalar cannot.
- `Altered`: merging changes what mappings hold, and makes a text of what was a `=`; all else stays.
- `contents_error`: of a document without a value some node is to blame.
-/
import Componentry.Proofs.Yaml.Reading
import Componentry.Proofs.Yaml.Spelling
import Componentry.Yaml.Value.Reading

namespace Componentry.Yaml

namespace Document

/-- what keeps a document from having a value: a scalar that writes none of its kind, by itself or under the `=` of a
mapping, or a mapping of the kind of a scalar that leads to no scalar, or is to be a time. A scalar of the kind that its
spelling shows, as it is without a tag, writes a value with few exceptions. -/
inductive Unvalued (d : Document) : Fault → Prop where
  | scalar {n : Nat} {tag : Tag} {text : Text} {f : Fault} (node : d.node n = .scalar tag text)
      (none : Scalar.value n tag text = .error f)
      (lacks : tag = Tag.ofPlain Timestamp.isSpelling text → text.getLast? ≠ some '\n' → Scalar.Lacks text f) :
    Unvalued d f
  | under {n m list : Nat} {tag inner : Tag} {text : Text} {f : Fault} (node : d.node n = .mapping tag list)
      (scalar : d.node m = .scalar inner text) (none : Scalar.value n tag text = .error f) : Unvalued d f
  | endless {n list : Nat} {tag : Tag} (node : d.node n = .mapping tag list) (single : tag.isCollection = false) :
    Unvalued d .endless
  | time {n list : Nat} (node : d.node n = .mapping .time list) : Unvalued d .composedTime

/-! ## Merging -/

/-- a node after some merging -/
inductive Merged : Node → Node → Prop where
  | scalar {tag tag' : Tag} {text : Text} (tags : tag' = tag ∨ tag = .value ∧ tag' = .text) :
    Merged (.scalar tag text) (.scalar tag' text)
  | sequence {tag tag' : Tag} {items : List Nat} (tags : tag' = tag ∨ tag = .value ∧ tag' = .text) :
    Merged (.sequence tag items) (.sequence tag' items)
  | mapping {tag tag' : Tag} {list list' : Nat} (tags : tag' = tag ∨ tag = .value ∧ tag' = .text) :
    Merged (.mapping tag list) (.mapping tag' list')

theorem Merged.refl (n : Node) : Merged n n := by
  cases n with
  | scalar => exact .scalar (Or.inl rfl)
  | sequence => exact .sequence (Or.inl rfl)
  | mapping => exact .mapping (Or.inl rfl)

theorem Merged.trans {a b c : Node} (h : Merged a b) (k : Merged b c) : Merged a c := by
  have htags : ∀ {x y z : Tag}, y = x ∨ x = .value ∧ y = .text → z = y ∨ y = .value ∧ z = .text →
      z = x ∨ x = .value ∧ z = .text := by
    rintro x y z (rfl | ⟨rfl, rfl⟩) (rfl | ⟨hy, rfl⟩)
    · exact Or.inl rfl
    · exact Or.inr ⟨hy, rfl⟩
    · exact Or.inr ⟨rfl, rfl⟩
    · simp at hy
  cases h with
  | scalar ht => cases k with | scalar kt => exact .scalar (htags ht kt)
  | sequence ht => cases k with | sequence kt => exact .sequence (htags ht kt)
  | mapping ht => cases k with | mapping kt => exact .mapping (htags ht kt)

/-- a document after some merging -/
def Altered (d d' : Document) : Prop := ∀ n, Merged (d.node n) (d'.node n)

theorem Altered.refl (d : Document) : Altered d d := fun _ => .refl _

theorem Altered.trans {a b c : Document} (h : Altered a b) (k : Altered b c) : Altered a c := fun n => (h n).trans (k n)

/-- a node exchanged for another -/
theorem node_set (d : Document) (n m : Nat) (node : Node) (lists : Array (List (Nat × Nat))) :
    Document.node { d with nodes := d.nodes.setIfInBounds n node, lists := lists } m =
      if n = m ∧ n < d.nodes.size then node else d.node m := by
  simp only [Document.node, Array.getD_eq_getD_getElem?, Array.getElem?_setIfInBounds]
  by_cases hn : n = m
  · subst hn
    by_cases hlt : n < d.nodes.size
    · simp [hlt]
    · simp [hlt]
  · simp [hn]

theorem asText_altered {d : Document} {n : Nat} (h : d.tagOf n = .value) : Altered d (d.asText n) := by
  intro m
  rw [asText, node_set]
  split_ifs with hm
  · obtain ⟨rfl, -⟩ := hm
    unfold tagOf at h
    cases hn : d.node n with
    | scalar tag text =>
      rw [hn] at h
      exact .scalar (Or.inr ⟨h, rfl⟩)
    | sequence tag items =>
      rw [hn] at h
      exact .sequence (Or.inr ⟨h, rfl⟩)
    | mapping tag list =>
      rw [hn] at h
      exact .mapping (Or.inr ⟨h, rfl⟩)
  · exact .refl _

theorem dropEntry_altered (d : Document) (n index : Nat) : Altered d (d.dropEntry n index) := by
  intro m
  unfold dropEntry
  split <;> exact .refl _

theorem putInFront_altered (d : Document) (n : Nat) (entries : List (Nat × Nat)) :
    Altered d (d.putInFront n entries) := by
  unfold putInFront
  split
  · rename_i tag list hn
    intro m
    rw [node_set]
    split_ifs with hm
    · obtain ⟨rfl, -⟩ := hm
      rw [hn]
      exact .mapping (Or.inl rfl)
    · exact .refl _
  · exact .refl d

theorem special?_tag {d : Document} {n index i key value : Nat} (h : d.special? n index = some (i, key, value)) :
    d.tagOf key = .merge ∨ d.tagOf key = .value := by
  obtain ⟨e, he, heq⟩ := Option.map_eq_some_iff.1 h
  have htag := List.find?_some he
  simp only [decide_eq_true_eq] at htag
  rwa [show e.1.1 = key by rw [(Prod.mk.inj heq).2]] at htag

/-- merging alters the document, or breaks a rule -/
theorem merging (fuel : Nat) :
    (∀ d n index taken, Ends (Altered d) (· = .malformed) (mergedFrom fuel d n index taken)) ∧
      ∀ d value, Ends (fun r => Altered d r.1) (· = .malformed) (takenOver fuel d value) := by
  induction fuel with
  | zero => exact ⟨fun _ _ _ _ => rfl, fun _ _ => rfl⟩
  | succ fuel ih =>
    obtain ⟨hmerged, htaken⟩ := ih
    constructor
    · intro d n index taken
      unfold mergedFrom
      split
      · split_ifs
        · exact .refl d
        · exact putInFront_altered d n taken
      · rename_i i key value hspecial
        split_ifs with hmerge
        · have hdrop := dropEntry_altered d n i
          have htake := htaken (d.dropEntry n i) value
          split
          · rename_i f heq
            rwa [heq] at htake
          · rename_i d' more heq
            rw [heq] at htake
            exact (hmerged d' n i (taken ++ more)).mono (fun _ h => (hdrop.trans htake).trans h) fun _ h => h
        · have htext := asText_altered ((special?_tag hspecial).resolve_left hmerge)
          exact (hmerged (d.asText key) n (i + 1) taken).mono (fun _ h => htext.trans h) fun _ h => h
    · intro d value
      unfold takenOver
      split
      · exact (hmerged d value 0 []).map fun _ h => h
      · rename_i items _
        refine Ends.map (P := fun acc => Altered d acc.1) (Ends.foldlM (.refl d) fun acc item hacc _ => ?_) fun _ h => h
        split
        · exact (hmerged acc.1 item 0 []).map fun _ h => hacc.trans h
        · rfl
      · rfl

theorem merged_altered (d : Document) (n : Nat) : Ends (Altered d) (· = .malformed) (d.merged n) := (merging _).1 ..

/-! ## Scalars -/

/-- the text of a node is that of a scalar; without fuel it has none -/
theorem scalarText_ends (d : Document) (fuel n : Nat) :
    Ends (fun t => ∃ m inner, d.node m = .scalar inner t) (fun f => f = .malformed ∨ f = .endless)
      (d.scalarText fuel n) := by
  induction fuel generalizing n with
  | zero => exact Or.inr rfl
  | succ fuel ih =>
    unfold scalarText
    split
    · rename_i tag t hn
      exact ⟨n, tag, hn⟩
    · split
      · exact ih _
      · exact Or.inl rfl
    · exact Or.inl rfl

/-- a node of the kind of a scalar has a value, or is to blame for having none -/
theorem scalarValue_ends {d d' : Document} (h : Altered d d') {n : Nat} (hsingle : (d'.tagOf n).isCollection = false) :
    Ends (fun _ => True) (fun f => f = .malformed ∨ d.Unvalued f) (d'.scalarValue n) := by
  -- a text always has a value, so it does not matter that merging makes texts
  have hvalue : ∀ {tag tag' : Tag} {t : Text} {f : Fault}, tag' = tag ∨ tag = .value ∧ tag' = .text →
      Scalar.value n tag' t = .error f → Scalar.value n tag t = .error f := by
    rintro tag tag' t f (rfl | ⟨-, rfl⟩) hf
    · exact hf
    · simp [Scalar.value] at hf
  have hn := h n
  unfold tagOf at hsingle
  unfold scalarValue
  generalize hd : d.node n = x at hn
  generalize hd' : d'.node n = y at hn hsingle ⊢
  cases hn with
  | @scalar tag tag' t tags =>
    simp only [scalarText, hd', Except.bind, Node.tag]
    cases hf : Scalar.value n tag' t with
    | ok v => trivial
    | error f =>
      have hnone := hvalue tags hf
      exact Or.inr (.scalar hd hnone fun hkind hlast => Scalar.value_ofPlain_error hlast (hkind ▸ hnone))
  | sequence tags =>
    simp only [scalarText, hd', Except.bind]
    exact Or.inl rfl
  | @mapping tag tag' list list' tags =>
    have hkind : tag.isCollection = false := by
      rcases tags with rfl | ⟨rfl, -⟩
      · exact hsingle
      · rfl
    have htext := scalarText_ends d' (d'.nodes.size + 1) n
    cases ht : d'.scalarText (d'.nodes.size + 1) n with
    | error f =>
      rw [ht] at htext
      cases htext with
      | inl hf => exact Or.inl hf
      | inr hf => exact Or.inr (hf ▸ .endless hd hkind)
    | ok t =>
      rw [ht] at htext
      obtain ⟨m, inner', hm⟩ := htext
      have hm' := h m
      rw [hm] at hm'
      generalize hdm : d.node m = z at hm'
      cases hm' with
      | scalar =>
        simp only [Except.bind]
        split
        · rename_i heq
          obtain ⟨rfl, -⟩ := Node.mapping.inj heq
          obtain rfl : Tag.time = tag := by simpa using tags
          exact Or.inr (.time hd)
        · cases hf : Scalar.value n tag' t with
          | ok v => simp [Node.tag, hf, Ends]
          | error f =>
            simp only [Node.tag, hf]
            exact Or.inr (.under hd hdm (hvalue tags hf))

end Document

/-! ## Collections -/

namespace Filling

open Document

/-- a step from a document to its value: it alters the document, breaks a rule, or some node is to blame -/
abbrev Fills {α : Type} (d : Document) (filling : α → Filling) : Except Fault α → Prop :=
  Ends (fun a => Altered d (filling a).document) (fun f => f = .malformed ∨ d.Unvalued f)

variable {d : Document} {s : Filling}

theorem meet_fills (h : Altered d s.document) (n : Nat) : Fills d (·.1) (s.meet n) := by
  unfold Filling.meet
  split
  · exact h
  · unfold meetNew
    split_ifs with hkind
    · exact h
    · exact (scalarValue_ends h (by simpa using hkind)).map fun _ _ => h

theorem meetKey_fills (h : Altered d s.document) (n : Nat) : Fills d (·.1) (s.meetKey n) := by
  refine (meet_fills h n).bind fun r hs => ?_
  obtain ⟨s', v⟩ := r
  cases v with
  | shared => exact Or.inl rfl
  | _ => exact hs

theorem meetPair_fills (h : Altered d s.document) (n : Nat) : Fills d (·.1) (s.meetPair n) := by
  unfold meetPair
  split
  · exact Or.inl rfl
  · exact (meet_fills h _).bind fun _ hs => (meet_fills hs _).map fun _ hs => hs

theorem meetAll_fills {meet : Filling → Nat → Except Fault (Filling × Value)}
    (hmeet : ∀ s n, Altered d s.document → Fills d (·.1) (meet s n)) (h : Altered d s.document) (items : List Nat) :
    Fills d (·.1) (meetAll meet s items) := by
  unfold meetAll
  refine Ends.map (P := fun acc => Altered d acc.1.document) (Ends.foldlM h fun acc item hacc _ => ?_) fun _ hs => hs
  exact (hmeet acc.1 item hacc).map fun _ hs => hs

theorem meetEntry_fills {acc : Filling × List (Value × Value)} (h : Altered d acc.1.document) (e : Nat × Nat) :
    Fills d (·.1) (meetEntry acc e) :=
  (meetKey_fills h e.1).bind fun _ hs => (meet_fills hs e.2).map fun _ hs => hs

theorem meetEntries_fills (h : Altered d s.document) (n : Nat) : Fills d (·.1) (s.meetEntries n) := by
  unfold meetEntries
  split
  · refine ((merged_altered s.document n).mono (fun _ hm => h.trans hm) fun _ hf => Or.inl hf).bind fun d' hd' => ?_
    exact Ends.foldlM hd' fun acc e hacc _ => meetEntry_fills hacc e
  · exact Or.inl rfl

theorem fill_fills (h : Altered d s.document) (n : Nat) : Fills d id (s.fill n) := by
  unfold Filling.fill
  split
  · exact (meetAll_fills (fun _ _ hs => meet_fills hs _) h _).map fun _ hs => hs
  · exact (meetAll_fills (fun _ _ hs => meetPair_fills hs _) h _).map fun _ hs => hs
  · exact (meetAll_fills (fun _ _ hs => meetPair_fills hs _) h _).map fun _ hs => hs
  · exact (meetEntries_fills h n).map fun _ hs => hs
  · exact (meetEntries_fills h n).map fun _ hs => hs
  · exact Or.inl rfl

theorem fillAll_fills (fuel : Nat) (h : Altered d s.document) : Fills d id (fillAll fuel s) := by
  induction fuel generalizing s with
  | zero => exact h
  | succ fuel ih =>
    unfold fillAll
    split_ifs
    · exact h
    · refine Ends.bind (P := fun s => Altered d s.document) (Ends.foldlM h fun s n hs _ => ?_) fun s hs => ih hs
      exact fill_fills hs n

end Filling

/-- **Why a document has no value**: it breaks a rule, or some node is to blame. -/
theorem Document.contents_error {d : Document} {f : Fault} (h : d.contents = .error f) :
    f = .malformed ∨ d.Unvalued f := by
  have hends : Ends (fun _ => True) (fun f => f = .malformed ∨ d.Unvalued f) d.contents :=
    (Filling.meet_fills (s := Filling.start d) (.refl d) d.root).bind fun _ hs =>
      (Filling.fillAll_fills _ hs).map fun _ _ => trivial
  rwa [h] at hends

end Componentry.Yaml
