/-
Where the texts of a value come from.

A text in a record is the text of a scalar of the document, since no other node is read as a text, and merging moves
entries about but writes no texts.
- `Grounded`: a value that is no record, and if it is a text, that of a scalar.
- `Sound`: so far only such values were met, and records hold only such values.

Main result: `Document.contents_grounded`.
-/
import Componentry.Proofs.Yaml.Filling

namespace Componentry.Yaml

/-- a value as a node can write it that is no collection: no record, and a text only if a scalar has it -/
def Grounded (d : Document) : Value → Prop
  | .text t => ∃ n tag, d.node n = .scalar tag t
  | .record _ => False
  | _ => True

/-- a collection that holds only such values, if it is a record -/
def GroundedEntries (d : Document) : Value → Prop
  | .record entries => ∀ e ∈ entries, Grounded d e.1 ∧ Grounded d e.2
  | _ => True

/-! ## Scalars -/

/-- of the values that scalars write only texts are texts, and they are written as they are -/
theorem Scalar.value_grounded {d : Document} {n : Nat} {tag : Tag} {t : Text}
    (ht : ∃ n tag, d.node n = .scalar tag t) : Ends (Grounded d) (fun _ => True) (Scalar.value n tag t) := by
  have hmap : ∀ {α : Type} (r : Except Fault α) (f : α → Value), (∀ a, Grounded d (f a)) →
      Ends (Grounded d) (fun _ => True) (r.map f) := by
    intro α r f hf
    cases r with
    | error g => trivial
    | ok a => exact hf a
  unfold Scalar.value
  split
  · trivial
  · unfold Scalar.flag
    simp only
    split_ifs <;> trivial
  · unfold Scalar.whole
    simp only
    split
    · trivial
    · exact hmap _ _ fun _ => trivial
  · unfold Scalar.decimal
    simp only
    split_ifs
    · trivial
    · trivial
    · refine hmap _ _ fun x => ?_
      unfold signedDecimal
      split_ifs <;> trivial
  · unfold Scalar.bytes
    split_ifs
    · trivial
    · split <;> trivial
  · exact hmap _ _ fun _ => trivial
  · exact ht
  · trivial

namespace Document

/-- so does a node that is read as a scalar, also after some merging -/
theorem scalarValue_grounded {d d' : Document} (h : Altered d d') (n : Nat) :
    Ends (Grounded d) (fun _ => True) (d'.scalarValue n) := by
  refine ((scalarText_ends d' (d'.nodes.size + 1) n).mono (fun _ ht => ht) fun _ _ => trivial).bind fun t ht => ?_
  have hground : ∃ n tag, d.node n = .scalar tag t := by
    obtain ⟨m, inner, hm⟩ := ht
    have hmerged := h m
    rw [hm] at hmerged
    cases hdm : d.node m with
    | scalar tag text =>
      rw [hdm] at hmerged
      cases hmerged
      exact ⟨m, tag, hdm⟩
    | sequence tag items =>
      rw [hdm] at hmerged
      cases hmerged
    | mapping tag list =>
      rw [hdm] at hmerged
      cases hmerged
  split
  · trivial
  · exact Scalar.value_grounded hground

end Document

/-! ## Collections -/

/-- entries with one more are grounded if they and it are -/
theorem Value.put_grounded {d : Document} {entries : List (Value × Value)} {key value : Value}
    (h : ∀ e ∈ entries, Grounded d e.1 ∧ Grounded d e.2) (hkey : Grounded d key) (hvalue : Grounded d value) :
    ∀ e ∈ Value.put entries key value, Grounded d e.1 ∧ Grounded d e.2 := by
  intro e he
  unfold Value.put at he
  split_ifs at he
  · obtain ⟨e', he', rfl⟩ := List.mem_map.1 he
    split_ifs
    · exact ⟨(h e' he').1, hvalue⟩
    · exact h e' he'
  · rcases List.mem_append.1 he with he | he
    · exact h e he
    · rw [List.mem_singleton.1 he]
      exact ⟨hkey, hvalue⟩

namespace Filling

open Document

/-- a state on the way to the value of a document, in which all values are grounded -/
structure Sound (d : Document) (s : Filling) : Prop where
  document : Altered d s.document
  values : ∀ v, some v ∈ s.values → Grounded d v
  filled : ∀ v ∈ s.filled, GroundedEntries d v

variable {d : Document} {s : Filling}

theorem Sound.start (d : Document) : Sound d (.start d) := by
  refine ⟨.refl d, ?_, ?_⟩
  · simp [Filling.start, Array.mem_replicate]
  · intro v hv
    obtain ⟨-, rfl⟩ := Array.mem_replicate.1 hv
    trivial

theorem Sound.set (h : Sound d s) {n : Nat} {v : Value} (hv : Grounded d v) (waiting : List Nat) :
    Sound d { s with values := s.values.setIfInBounds n (some v), waiting := waiting } := by
  refine ⟨h.document, fun u hu => ?_, h.filled⟩
  rcases Array.mem_or_eq_of_mem_setIfInBounds hu with hu | hu
  · exact h.values u hu
  · exact Option.some.inj hu ▸ hv

theorem Sound.hold (h : Sound d s) {n : Nat} {v : Value} (hv : GroundedEntries d v) : Sound d (s.hold n v) := by
  refine ⟨h.document, h.values, fun u hu => ?_⟩
  rcases Array.mem_or_eq_of_mem_setIfInBounds hu with hu | rfl
  · exact h.filled u hu
  · exact hv

/-- a step that keeps a state sound, and the value that it comes to -/
abbrev Meets (d : Document) : Except Fault (Filling × Value) → Prop :=
  Ends (fun r => Sound d r.1 ∧ Grounded d r.2) fun _ => True

theorem meet_sound (h : Sound d s) (n : Nat) : Meets d (s.meet n) := by
  unfold Filling.meet
  split
  · rename_i v hv
    refine ⟨h, h.values v ?_⟩
    rw [Array.getD_eq_getD_getElem?] at hv
    cases hget : s.values[n]? with
    | none => simp [hget] at hv
    | some u =>
      obtain rfl : u = some v := by simpa [hget] using hv
      exact Array.mem_of_getElem? hget
  · unfold meetNew
    split_ifs
    · exact ⟨h.set (v := .shared n) trivial _, trivial⟩
    · exact (scalarValue_grounded h.document n).map fun v hv => ⟨h.set hv _, hv⟩

theorem meetKey_sound (h : Sound d s) (n : Nat) : Meets d (s.meetKey n) := by
  refine (meet_sound h n).bind fun r hr => ?_
  obtain ⟨s', v⟩ := r
  cases v with
  | shared => trivial
  | _ => exact hr

theorem meetPair_sound (h : Sound d s) (n : Nat) : Meets d (s.meetPair n) := by
  unfold meetPair
  split
  · trivial
  · exact (meet_sound h _).bind fun _ hs => (meet_sound hs.1 _).map fun _ hs => ⟨hs.1, trivial⟩

theorem meetAll_sound {meet : Filling → Nat → Except Fault (Filling × Value)}
    (hmeet : ∀ s n, Sound d s → Meets d (meet s n)) (h : Sound d s) (items : List Nat) :
    Ends (fun r => Sound d r.1) (fun _ => True) (meetAll meet s items) := by
  unfold meetAll
  refine Ends.map (P := fun acc => Sound d acc.1) (Ends.foldlM h fun acc item hacc _ => ?_) fun _ hs => hs
  exact (hmeet acc.1 item hacc).map fun _ hs => hs.1

theorem meetEntry_sound {acc : Filling × List (Value × Value)} (h : Sound d acc.1)
    (hentries : ∀ e ∈ acc.2, Grounded d e.1 ∧ Grounded d e.2) (e : Nat × Nat) :
    Ends (fun r => Sound d r.1 ∧ ∀ e ∈ r.2, Grounded d e.1 ∧ Grounded d e.2) (fun _ => True) (meetEntry acc e) :=
  (meetKey_sound h e.1).bind fun _ hk => (meet_sound hk.1 e.2).map fun _ hv =>
    ⟨hv.1, Value.put_grounded hentries hk.2 hv.2⟩

theorem meetEntries_sound (h : Sound d s) (n : Nat) :
    Ends (fun r => Sound d r.1 ∧ ∀ e ∈ r.2, Grounded d e.1 ∧ Grounded d e.2) (fun _ => True) (s.meetEntries n) := by
  unfold meetEntries
  split
  · refine ((merged_altered s.document n).mono (fun _ hm => h.document.trans hm) fun _ _ => trivial).bind fun d' hd' => ?_
    refine Ends.foldlM ⟨⟨hd', h.values, h.filled⟩, by simp⟩ fun acc e hacc _ => meetEntry_sound hacc.1 hacc.2 e
  · trivial

theorem fill_sound (h : Sound d s) (n : Nat) : Ends (Sound d) (fun _ => True) (s.fill n) := by
  unfold Filling.fill
  split
  · exact (meetAll_sound (fun _ _ hs => meet_sound hs _) h _).map fun _ hs => hs.hold trivial
  · exact (meetAll_sound (fun _ _ hs => meetPair_sound hs _) h _).map fun _ hs => hs.hold trivial
  · exact (meetAll_sound (fun _ _ hs => meetPair_sound hs _) h _).map fun _ hs => hs.hold trivial
  · exact (meetEntries_sound h n).map fun _ hs => hs.1.hold hs.2
  · exact (meetEntries_sound h n).map fun _ hs => hs.1.hold trivial
  · trivial

theorem fillAll_sound (fuel : Nat) (h : Sound d s) : Ends (Sound d) (fun _ => True) (fillAll fuel s) := by
  induction fuel generalizing s with
  | zero => exact h
  | succ fuel ih =>
    unfold fillAll
    split_ifs
    · exact h
    · have hcleared : Sound d { s with waiting := [] } := ⟨h.document, h.values, h.filled⟩
      exact Ends.bind (Ends.foldlM hcleared fun s n hs _ => fill_sound hs n) fun s hs => ih hs

end Filling

/-- **Texts of a document** that is a record: each is that of a scalar. -/
theorem Document.contents_grounded {d : Document} {c : Contents} (h : d.contents = .ok c) {entries : List (Value × Value)}
    (hroot : c.resolve c.root = .record entries) {key value : Value} (hentry : (key, value) ∈ entries) :
    Grounded d key ∧ Grounded d value := by
  have hends : Ends (fun c : Contents => Grounded d c.root ∧ ∀ v ∈ c.shared, GroundedEntries d v) (fun _ => True)
      d.contents :=
    (Filling.meet_sound (.start d) d.root).bind fun _ hv => (Filling.fillAll_sound _ hv.1).map fun _ hs => ⟨hv.2, hs.filled⟩
  rw [h] at hends
  obtain ⟨hvalue, hshared⟩ := hends
  have hrecord : GroundedEntries d (.record entries) := by
    rw [← hroot]
    unfold Contents.resolve
    split
    · rename_i n _
      rw [Array.getD_eq_getD_getElem?]
      cases hget : c.shared[n]? with
      | none => trivial
      | some u => exact hshared u (Array.mem_of_getElem? hget)
    · cases hv : c.root with
      | record entries =>
        rw [hv] at hvalue
        exact hvalue.elim
      | _ => trivial
  exact hrecord (key, value) hentry

end Componentry.Yaml
