/-
Which numbers the wording of a value needs.

A value that stands in a message is written with all that it holds, collections within collections, and a whole number
that is too long cannot be written.
- `Holds`: a value and what is in it. `Quotes`: a value and what comes up when it is written, where collections are
  referred to by their numbers only.
- `exists_closed`: a search without a find leaves collections closed under what they hold, and no long number in them.

Main result: `isUnwritable_iff`: a value cannot be written exactly if a number that is too long comes up.
-/
import Mathlib.Tactic
import Componentry.Yaml.Value

namespace Componentry.Yaml.Contents

/-- a value is another one, or holds it, directly or in what it holds -/
inductive Holds (c : Contents) : Value → Value → Prop where
  | self (v : Value) : Holds c v v
  | inside {v w x : Value} (child : w ∈ c.children v) (holds : Holds c w x) : Holds c v x

/-- what comes up when a value is written: the value, and what the collection that it refers to holds -/
inductive Quotes (c : Contents) : Value → Value → Prop where
  | self (v : Value) : Quotes c v v
  | inside {n : Nat} {w x : Value} (child : w ∈ c.children (.shared n)) (quotes : Quotes c w x) : Quotes c (.shared n) x

variable {c : Contents}

theorem Quotes.holds {v w : Value} (h : c.Quotes v w) : c.Holds v w := by
  induction h with
  | self v => exact .self v
  | inside child _ ih => exact .inside child ih

/-! ## What a search finds -/

theorem anyUnwritable_quotes {fuel : Nat} {seen : List Nat} {vs : List Value} (h : c.anyUnwritable fuel seen vs = true) :
    ∃ v ∈ vs, ∃ n, c.Quotes v (.whole n) ∧ powerOfTen writtenDigits ≤ n.natAbs := by
  fun_induction anyUnwritable c fuel seen vs with
  | case1 => simp at h
  | case2 => simp at h
  | case3 fuel seen n rest ih =>
    rw [Bool.or_eq_true, decide_eq_true_eq] at h
    cases h with
    | inl hn => exact ⟨.whole n, List.mem_cons_self, n, .self _, hn⟩
    | inr hrest =>
      obtain ⟨v, hv, hn⟩ := ih hrest
      exact ⟨v, List.mem_cons_of_mem _ hv, hn⟩
  | case4 fuel seen n rest _ ih =>
    obtain ⟨v, hv, hn⟩ := ih h
    exact ⟨v, List.mem_cons_of_mem _ hv, hn⟩
  | case5 fuel seen n rest _ ih =>
    obtain ⟨v, hv, k, hk, hlong⟩ := ih h
    cases List.mem_append.1 hv with
    | inl hchild => exact ⟨.shared n, List.mem_cons_self, k, .inside hchild hk, hlong⟩
    | inr hrest => exact ⟨v, List.mem_cons_of_mem _ hrest, k, hk, hlong⟩
  | case6 fuel seen v rest _ _ ih =>
    obtain ⟨w, hw, hn⟩ := ih h
    exact ⟨w, List.mem_cons_of_mem _ hw, hn⟩

/-! ## What a search leaves -/

/-- a value is no number that is too long, and if it refers to a collection, to one of some -/
def Fine (closed : Set Nat) : Value → Prop
  | .whole n => n.natAbs < powerOfTen writtenDigits
  | .shared n => n ∈ closed
  | _ => True

/-- collections that hold nothing but what is fine hold no number that is too long -/
theorem Quotes.fine {closed : Set Nat} (hclosed : ∀ n ∈ closed, ∀ w ∈ c.children (.shared n), Fine closed w)
    {v w : Value} (h : c.Quotes v w) (hv : Fine closed v) : Fine closed w := by
  induction h with
  | self => exact hv
  | inside child _ ih => exact ih (hclosed _ hv _ child)

/-- the number of places in the collections that are not looked into yet -/
def placesOutside (c : Contents) (seen : List Nat) : Nat :=
  ∑ i ∈ (Finset.range c.shared.size).filter (· ∉ seen), (c.children (.shared i)).length

theorem placesOutside_cons {seen : List Nat} {n : Nat} (h : n ∉ seen) :
    (c.children (.shared n)).length + c.placesOutside (n :: seen) = c.placesOutside seen := by
  by_cases hn : n < c.shared.size
  · have hmem : n ∈ (Finset.range c.shared.size).filter (· ∉ seen) := by simp [hn, h]
    have herase : ((Finset.range c.shared.size).filter (· ∉ seen)).erase n =
        (Finset.range c.shared.size).filter (· ∉ n :: seen) := by
      ext i
      simp only [Finset.mem_erase, Finset.mem_filter, List.mem_cons, not_or]
      tauto
    rw [placesOutside, placesOutside, ← herase, Finset.add_sum_erase _ (fun i => (c.children (.shared i)).length) hmem]
  · have hchildren : c.children (.shared n) = [] := by
      simp [children, resolve, Array.getD, hn]
    have hfilter : (Finset.range c.shared.size).filter (· ∉ n :: seen) =
        (Finset.range c.shared.size).filter (· ∉ seen) := by
      refine Finset.filter_congr fun i hi => ?_
      have hne : i ≠ n := fun heq => hn (heq ▸ Finset.mem_range.1 hi)
      simp [hne]
    rw [placesOutside, placesOutside, hfilter, hchildren, List.length_nil, Nat.zero_add]

/-- what a number refers to holds no more than what stands at its place -/
theorem children_shared_le {i : Nat} (hi : i < c.shared.size) :
    (c.children (.shared i)).length ≤ (c.children c.shared[i]).length := by
  have hresolve : c.resolve (.shared i) = c.shared[i] := by simp [resolve, Array.getD, hi]
  rw [children, hresolve]
  cases hv : c.shared[i] with
  | shared n => simp
  | _ => simp [children, resolve]

theorem places_eq (c : Contents) : c.places = ∑ i : Fin c.shared.size, (c.children c.shared[i]).length := by
  have hshared : c.shared.toList = List.ofFn fun i : Fin c.shared.size => c.shared[i] := List.ofFn_getElem.symm
  calc c.places
    _ = (c.shared.toList.map fun v => (c.children v).length).sum := by
      rw [places, ← Array.foldl_toList, List.sum_eq_foldl, List.foldl_map]
    _ = ∑ i : Fin c.shared.size, (c.children c.shared[i]).length := by
      rw [hshared, List.map_ofFn, List.sum_ofFn]
      rfl

theorem placesOutside_nil_le (c : Contents) : c.placesOutside [] ≤ c.places := by
  have hall : (Finset.range c.shared.size).filter (· ∉ ([] : List Nat)) = Finset.range c.shared.size := by simp
  calc c.placesOutside []
    _ = ∑ i : Fin c.shared.size, (c.children (.shared i)).length := by rw [placesOutside, hall, Finset.sum_range]
    _ ≤ ∑ i : Fin c.shared.size, (c.children c.shared[i]).length :=
      Finset.sum_le_sum fun i _ => children_shared_le i.isLt
    _ = c.places := c.places_eq.symm

/-- a search without a find leaves collections that are closed under what they hold -/
theorem exists_closed {fuel : Nat} {seen : List Nat} {vs : List Value} (h : c.anyUnwritable fuel seen vs = false)
    (hfuel : vs.length + c.placesOutside seen < fuel) : ∃ closed : Set Nat, (∀ n ∈ seen, n ∈ closed) ∧
      (∀ v ∈ vs, Fine closed v) ∧ ∀ n ∈ closed, n ∉ seen → ∀ w ∈ c.children (.shared n), Fine closed w := by
  fun_induction anyUnwritable c fuel seen vs with
  | case1 => simp at hfuel
  | case2 fuel seen => exact ⟨{n | n ∈ seen}, fun n hn => hn, by simp, fun n hn hseen => absurd hn hseen⟩
  | case3 fuel seen n rest ih =>
    rw [Bool.or_eq_false_iff, decide_eq_false_iff_not, not_le] at h
    obtain ⟨closed, hseen, hrest, hclosed⟩ := ih h.2 (by simp only [List.length_cons] at hfuel; omega)
    exact ⟨closed, hseen, List.forall_mem_cons.2 ⟨h.1, hrest⟩, hclosed⟩
  | case4 fuel seen n rest hn ih =>
    obtain ⟨closed, hseen, hrest, hclosed⟩ := ih h (by simp only [List.length_cons] at hfuel; omega)
    exact ⟨closed, hseen, List.forall_mem_cons.2 ⟨hseen n (List.contains_iff_mem.1 hn), hrest⟩, hclosed⟩
  | case5 fuel seen n rest hn ih =>
    have hnew : n ∉ seen := fun hmem => hn (List.contains_iff_mem.2 hmem)
    have hplaces := placesOutside_cons (c := c) hnew
    obtain ⟨closed, hseen, hrest, hclosed⟩ := ih h (by
      simp only [List.length_cons, List.length_append] at hfuel ⊢
      omega)
    obtain ⟨hn', hseen⟩ := List.forall_mem_cons.1 hseen
    obtain ⟨hchildren, hrest⟩ := List.forall_mem_append.1 hrest
    refine ⟨closed, hseen, List.forall_mem_cons.2 ⟨hn', hrest⟩, fun m hm hmseen => ?_⟩
    by_cases hmn : m = n
    · rwa [hmn]
    · exact hclosed m hm (by simp [hmn, hmseen])
  | case6 fuel seen v rest hwhole hshared ih =>
    obtain ⟨closed, hseen, hrest, hclosed⟩ := ih h (by simp only [List.length_cons] at hfuel; omega)
    refine ⟨closed, hseen, List.forall_mem_cons.2 ⟨?_, hrest⟩, hclosed⟩
    cases v with
    | whole n => exact absurd rfl (hwhole n)
    | shared n => exact absurd rfl (hshared n)
    | _ => trivial

/-- **a value cannot be written exactly if a whole number of too many digits comes up in it** -/
theorem isUnwritable_iff {v : Value} :
    c.isUnwritable v = true ↔ ∃ n, c.Quotes v (.whole n) ∧ powerOfTen writtenDigits ≤ n.natAbs := by
  constructor
  · intro h
    obtain ⟨w, hw, hn⟩ := anyUnwritable_quotes h
    rwa [List.mem_singleton.1 hw] at hn
  · intro hlong
    obtain ⟨n, hn, hlong⟩ := hlong
    by_contra h
    have hplaces := c.placesOutside_nil_le
    obtain ⟨closed, -, hv, hclosed⟩ := exists_closed (eq_false_of_ne_true h) (by
      simp only [List.length_singleton]
      omega)
    have hfine := hn.fine (fun n hn => hclosed n hn (by simp)) (hv v List.mem_cons_self)
    exact absurd hlong (Nat.not_le.2 hfine)

end Componentry.Yaml.Contents
