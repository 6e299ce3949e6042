/-
The elements of a text, and what more behind its last one does to them.

- `here_element`: from a place the shortest element is matched.
- `exists_last_element`: behind the last element there is no other one.
- `elements_insert`: an element that is put in there leaves those before it as they are, and is matched next, up to its
  first closing tag.
-/
import Componentry.Proofs.Listing

namespace Componentry.Listing

open Text

/-! ## The match from a place -/

/-- a tag that is told from its closing: not empty, with no slash in front and no opening sign in it -/
structure IsTag (tag : Text) : Prop where
  starts : ∃ c rest, tag = c :: rest ∧ c ≠ '/'
  plain : '<' ∉ tag

/-- the end of an element -/
def closing (tag : Text) : Text := "</".toList ++ tag ++ ['>']

/-- the elements of a text -/
def elements (tag t : Text) : List Occurrence := (Pattern.element tag).occurrences false t

variable {tag : Text} {b : Bool} {k : Cursor}

theorem run_sorted (s : CharSet) (before : Option Char) (kept : List (Group × Text)) (text : Text) :
    (Cursor.run s before kept text).Pairwise fun a b => b.rest.length ≤ a.rest.length := by
  induction text generalizing before with
  | nil => simp [Cursor.run]
  | cons c text ih =>
    rw [Cursor.run, List.pairwise_cons]
    refine ⟨fun e he => ?_, ?_⟩
    · split_ifs at he
      · obtain ⟨piece, rest, rfl, -, rfl⟩ := Cursor.mem_run.1 he
        simp
        omega
      · simp at he
    · split_ifs
      · exact ih _
      · exact List.Pairwise.nil

/-- a text is read in one way alone -/
theorem ends_text_cases (t : Text) (b : Bool) (k : Cursor) :
    (Pattern.text t).ends b k = [] ∨ ∃ rest, k.rest = t ++ rest ∧ (Pattern.text t).ends b k = [k.after t rest] := by
  rw [Pattern.ends]
  cases hpast : k.past t with
  | none => exact Or.inl rfl
  | some e =>
    obtain ⟨rest, hk, rfl⟩ := Cursor.past_eq_some.1 hpast
    exact Or.inr ⟨rest, hk, rfl⟩

/-- a shorter element is found before a longer one -/
theorem ends_element_sorted (tag : Text) (b : Bool) (k : Cursor) :
    ((Pattern.element tag).ends b k).Pairwise fun a b => b.rest.length ≤ a.rest.length := by
  -- the closing is of one length, so that the elements are ordered as what stands before it
  have hclose : ∀ ms : List Cursor, ms.Pairwise (fun a b => b.rest.length ≤ a.rest.length) →
      (ms.flatMap ((Pattern.text (closing tag)).ends b)).Pairwise fun a b => b.rest.length ≤ a.rest.length := by
    intro ms hms
    refine List.pairwise_flatMap.2 ⟨fun m _ => ?_, hms.imp fun {m m'} hle e he e' he' => ?_⟩
    · rcases ends_text_cases (closing tag) b m with h | ⟨rest, -, h⟩ <;> simp [h]
    · obtain ⟨r, hr, rfl⟩ := Pattern.mem_ends_text.1 he
      obtain ⟨r', hr', rfl⟩ := Pattern.mem_ends_text.1 he'
      rw [hr, hr'] at hle
      simpa using hle
  refine hclose _ ?_
  change List.Pairwise _ (List.flatMap _ (List.flatMap _ ((Pattern.text ('<' :: tag)).ends b k)))
  rcases ends_text_cases ('<' :: tag) b k with h | ⟨rest, -, h⟩
  · simp [h]
  · rw [h, List.flatMap_singleton, Pattern.ends]
    split_ifs
    · simp
    · rw [List.flatMap_singleton]
      exact run_sorted _ _ _ _

/-- **from a place where elements start the shortest one is matched** -/
theorem here_element {x rest : Text} (hx : IsElement tag x) (hk : k.rest = x ++ rest) (position : Nat) :
    ∃ y r, k.rest = y ++ r ∧ IsElement tag y ∧
      (∀ z r', k.rest = z ++ r' → IsElement tag z → y.length ≤ z.length) ∧
      (Pattern.element tag).here b k position = [⟨position, position + y.length, k.kept⟩] := by
  obtain ⟨e, more, hends⟩ :=
    List.exists_cons_of_ne_nil (List.ne_nil_of_mem (mem_ends_element.2 ⟨x, rest, hk, hx, rfl⟩ :
      k.after x rest ∈ (Pattern.element tag).ends b k))
  obtain ⟨y, r, hy, helement, rfl⟩ := mem_ends_element.1 (by rw [hends]; exact List.mem_cons_self)
  refine ⟨y, r, hy, helement, fun z r' hz hzelement => ?_, ?_⟩
  · have hsorted := ends_element_sorted tag b k
    have hmem : k.after z r' ∈ (Pattern.element tag).ends b k := mem_ends_element.2 ⟨z, r', hz, hzelement, rfl⟩
    rw [hends] at hsorted hmem
    have hle : r'.length ≤ r.length := by
      rcases List.mem_cons.1 hmem with heq | hmem
      · have := congrArg (fun e : Cursor => e.rest.length) heq
        simp only [Cursor.after_rest] at this
        omega
      · exact (List.pairwise_cons.1 hsorted).1 _ hmem
    have hlen := congrArg List.length (hy.symm.trans hz)
    simp only [List.length_append] at hlen
    omega
  · rw [Pattern.here_some (element_advances tag b) hends, Pattern.found, hy]
    simp

/-! ## Texts that end with a closing -/

section Closed

variable {p u v y : Text}

theorem closing_eq (tag : Text) : closing tag = '<' :: '/' :: (tag ++ ['>']) := by
  simp [closing]

/-- an element cut behind its opening -/
theorem isElement_iff {x : Text} : IsElement tag x ↔
    ∃ d body, x = ('<' :: (tag ++ [d])) ++ (body ++ closing tag) ∧ (isBlank d = true ∨ d = '/' ∨ d = '>') := by
  simp [IsElement, closing]

theorem IsElement.ends {x : Text} (h : IsElement tag x) : ∃ z, x = z ++ closing tag := by
  obtain ⟨d, body, rfl, -⟩ := isElement_iff.1 h
  exact ⟨('<' :: (tag ++ [d])) ++ body, by simp⟩

/-- an opening has one opening sign, in front -/
theorem IsTag.sign_notMem (htag : IsTag tag) {d : Char} (hd : isBlank d = true ∨ d = '/' ∨ d = '>') :
    '<' ∉ tag ++ [d] := by
  simp only [List.mem_append, htag.plain, List.mem_singleton, false_or]
  rintro rfl
  revert hd
  decide

/-- and so has a closing -/
theorem IsTag.sign_notMem_closing (htag : IsTag tag) : '<' ∉ '/' :: (tag ++ ['>']) := by
  simp [htag.plain]

/-- no element starts with a closing -/
theorem IsTag.not_isElement_closing (htag : IsTag tag) (w : Text) : ¬IsElement tag (closing tag ++ w) := by
  obtain ⟨c, rest, hc, hslash⟩ := htag.starts
  intro h
  obtain ⟨d, body, heq, -⟩ := isElement_iff.1 h
  have htail := (List.cons.inj (closing_eq tag ▸ heq)).2
  rw [hc] at htail
  exact hslash (List.cons.inj htail).1.symm

/-- an element that starts a text reaches to its first closing at least -/
theorem IsTag.length_le_of_closing (htag : IsTag tag) {x z r : Text} (hnot : ¬closing tag <:+: x)
    (h : x ++ closing tag ++ v = z ++ r) (hz : IsElement tag z) : (x ++ closing tag).length ≤ z.length := by
  obtain ⟨w, rfl⟩ := hz.ends
  rw [List.append_assoc, List.append_assoc] at h
  rcases List.append_eq_append_iff.1 h with ⟨e, rfl, -⟩ | ⟨e, rfl, he⟩
  · simp
  · rcases List.append_eq_append_iff.1 he with ⟨f, rfl, -⟩ | ⟨f, hf, hrest⟩
    · exact absurd ⟨w, f, by simp⟩ hnot
    · cases e with
      | nil => simp
      | cons d e =>
        cases f with
        | nil => exact absurd ⟨w, [], by rw [hf]; simp⟩ hnot
        | cons y f =>
          -- a closing would start behind the first place of another one
          rw [closing_eq] at hf hrest
          obtain rfl : '<' = y := (List.cons.inj hrest).1
          exact absurd (by rw [(List.cons.inj hf).2]; simp) htag.sign_notMem_closing

/-- an element that goes on behind a closing has one in it -/
theorem IsTag.isElement_of_append (htag : IsTag tag) {z a : Text} (h : IsElement tag (z ++ closing tag ++ a)) :
    IsElement tag (z ++ closing tag) := by
  obtain ⟨d, body, heq, hd⟩ := isElement_iff.1 h
  rw [List.append_assoc] at heq
  rcases List.append_eq_append_iff.1 heq with ⟨e, he, hrest⟩ | ⟨e, rfl, -⟩
  · cases e with
    | nil =>
      rw [List.append_nil] at he
      exact isElement_iff.2 ⟨d, [], by rw [← he, List.nil_append], hd⟩
    | cons x e =>
      -- the closing would start in the opening
      rw [closing_eq] at hrest
      obtain rfl : '<' = x := (List.cons.inj hrest).1
      cases z with
      | nil => exact absurd h (by simpa using htag.not_isElement_closing a)
      | cons y z =>
        exact absurd (by rw [(List.cons.inj he).2]; simp) (htag.sign_notMem hd)
  · exact isElement_iff.2 ⟨d, e, by simp, hd⟩

/-- an element starts in a text that ends with a closing only if it ends there, whatever follows -/
theorem exists_element_of_append (htag : IsTag tag) (hv : v ≠ []) (hend : u ++ v = p ++ closing tag) {x r : Text}
    (hx : IsElement tag x) (h : v ++ y = x ++ r) : ∃ x' r', v = x' ++ r' ∧ IsElement tag x' := by
  rcases List.append_eq_append_iff.1 h with ⟨a, rfl, -⟩ | ⟨a, rfl, -⟩
  · rcases List.append_eq_append_iff.1 hend with ⟨z, -, rfl⟩ | ⟨e, -, he⟩
    · exact ⟨z ++ closing tag, [], (List.append_nil _).symm, htag.isElement_of_append hx⟩
    · cases e with
      | nil =>
        rw [List.nil_append] at he
        exact absurd hx (he ▸ htag.not_isElement_closing a)
      | cons d e =>
        -- what is left of the closing has no opening sign
        obtain ⟨c, v, rfl⟩ := List.exists_cons_of_ne_nil hv
        obtain ⟨d', body, heq, -⟩ := isElement_iff.1 hx
        obtain rfl : c = '<' := (List.cons.inj heq).1
        rw [closing_eq] at he
        exact absurd (by rw [(List.cons.inj he).2]; simp) htag.sign_notMem_closing
  · exact ⟨x, a, rfl, hx⟩

/-- the match from a place of such a text is the same whatever follows -/
theorem here_element_append (htag : IsTag tag) (hv : v ≠ []) (hend : u ++ v = p ++ closing tag) (y : Text)
    (before : Option Char) (position : Nat) : (Pattern.element tag).here b ⟨before, v ++ y, []⟩ position =
      (Pattern.element tag).here b ⟨before, v, []⟩ position := by
  by_cases hx : ∃ x r, v = x ++ r ∧ IsElement tag x
  · obtain ⟨x, r, hxr, hx⟩ := hx
    obtain ⟨z, r1, h1, hz, hminz, hherez⟩ := here_element (b := b) (k := ⟨before, v, []⟩) hx hxr position
    obtain ⟨w, r2, h2, hw, hminw, hherew⟩ := here_element (b := b) (k := ⟨before, v ++ y, []⟩) hx
      (show v ++ y = x ++ (r ++ y) by simp [hxr]) position
    simp only at h1 h2 hminz hminw
    -- the shorter of the two is in the text, and so is the shortest
    have hle := hminw z (r1 ++ y) (by simp [h1]) hz
    obtain ⟨r3, h3⟩ : ∃ r3, v = w ++ r3 := by
      rcases List.append_eq_append_iff.1 h2 with ⟨a, rfl, -⟩ | ⟨a, ha, -⟩
      · have hlen := congrArg List.length h1
        simp only [List.length_append] at hlen hle
        obtain rfl : a = [] := List.length_eq_zero_iff.1 (by omega)
        exact ⟨[], by simp⟩
      · exact ⟨a, ha⟩
    rw [hherez, hherew, le_antisymm hle (hminz w r3 h3 hw)]
  · have hnil : ∀ {w : Text}, (∀ x r, w = x ++ r → ¬IsElement tag x) →
        (Pattern.element tag).here b ⟨before, w, []⟩ position = [] := by
      intro w hw
      refine Pattern.here_none (List.eq_nil_iff_forall_not_mem.2 fun e he => ?_) position
      obtain ⟨x, r, hxr, hx', -⟩ := mem_ends_element.1 he
      exact hw x r hxr hx'
    rw [hnil fun x r hxr hx' => hx (exists_element_of_append htag hv hend hx' hxr),
      hnil fun x r hxr hx' => hx ⟨x, r, hxr, hx'⟩]

/-- what follows a closing does not change the elements before it -/
theorem elements_append (htag : IsTag tag) (p y : Text) :
    elements tag (p ++ closing tag ++ y) = elements tag (p ++ closing tag) ++
      (Pattern.element tag).scan false (p ++ closing tag).getLast? (p ++ closing tag).length 0 y :=
  Pattern.occurrences_append (element_advances tag false) fun _ _ hx hv _ =>
    here_element_append htag hv hx.symm y _ _

end Closed

theorem stop_le_of_mem_elements {t : Text} {o : Occurrence} (ho : o ∈ elements tag t) : o.stop ≤ t.length := by
  obtain ⟨u, v, e, more, rfl, -, rfl⟩ := Pattern.occurrences_sound (element_advances tag false) ho
  simp only [Pattern.found, List.length_append]
  omega

theorem textIn_append {o : Occurrence} {u : Text} (h : o.stop ≤ u.length) (w : Text) :
    o.textIn (u ++ w) = o.textIn u := by
  rw [Occurrence.textIn, slice, List.take_append_of_le_length h, Occurrence.textIn, slice]

theorem textIn_between (u y w : Text) (kept : List (Group × Text)) :
    (Occurrence.mk u.length (u ++ y).length kept).textIn (u ++ y ++ w) = y := by
  rw [Occurrence.textIn, slice, List.take_left' rfl, List.drop_left' rfl]

/-! ## Behind the last element -/

theorem exists_last_element {t : Text} {m : Occurrence} (htag : IsTag tag) (h : (elements tag t).getLast? = some m) :
    ∃ p V, t = p ++ closing tag ++ V ∧ m.stop = (p ++ closing tag).length ∧
      elements tag (p ++ closing tag) = elements tag t ∧ ¬HasElement tag V := by
  obtain ⟨u, v, e, more, rfl, he, rfl⟩ :=
    Pattern.occurrences_sound (element_advances tag false) (List.mem_of_getLast? h)
  obtain ⟨x, V, hv, hx, rfl⟩ := mem_ends_element.1 (by rw [he]; exact List.mem_cons_self)
  simp only at hv
  subst hv
  obtain ⟨z, rfl⟩ := hx.ends
  have ht : u ++ (z ++ closing tag ++ V) = u ++ z ++ closing tag ++ V := by simp
  have happend := elements_append htag (u ++ z) V
  have hnil : (Pattern.element tag).scan false (u ++ z ++ closing tag).getLast? (u ++ z ++ closing tag).length 0 V =
      [] := by
    -- a match behind would be the last one, and it starts where the last one stops
    by_contra hne
    rw [ht, happend, List.getLast?_append_of_ne_nil _ hne] at h
    have hstart := (Pattern.scan_sorted (element_advances tag false) _ _ _ _).2 _ (List.mem_of_getLast? h)
    simp [Pattern.found, closing_eq] at hstart
  refine ⟨u ++ z, V, ht, ?_, ?_, scan_element_eq_nil_iff.1 hnil⟩
  · simp [Pattern.found, ← Nat.add_assoc]
  · rw [ht, happend, hnil, List.append_nil]

/-- **an element that is put in behind the last one leaves those before it as they are, and is matched next, up to its
first closing** -/
theorem elements_insert {p V lead x : Text} (htag : IsTag tag) (hV : ¬HasElement tag V) (hlead : '<' ∉ lead)
    (hx : IsElement tag x) : ∃ y r more, x = y ++ r ∧ IsElement tag y ∧
      elements tag (p ++ closing tag ++ (lead ++ x) ++ V) = elements tag (p ++ closing tag) ++
        ⟨(p ++ closing tag ++ lead).length, (p ++ closing tag ++ lead ++ y).length, []⟩ :: more ∧
      ((∀ z r', x = z ++ r' → IsElement tag z → r' = []) → more = []) := by
  obtain ⟨z, hz⟩ := hx.ends
  set u := p ++ closing tag with hu
  have hbehind : elements tag (u ++ (lead ++ x) ++ V) = elements tag (u ++ (lead ++ x)) := by
    have happend := elements_append htag (u ++ (lead ++ z)) V
    rw [show u ++ (lead ++ z) ++ closing tag = u ++ (lead ++ x) by rw [hz]; simp, scan_element_eq_nil_iff.2 hV,
      List.append_nil] at happend
    exact happend
  have hskip : (Pattern.element tag).scan false u.getLast? u.length 0 (lead ++ x) =
      (Pattern.element tag).scan false (lead.getLast?.or u.getLast?) (u.length + lead.length) 0 x := by
    refine Pattern.scan_append_none (fun a c hac hc => List.eq_nil_iff_forall_not_mem.2 fun e he => ?_) u.length
    obtain ⟨w, r, hw, ⟨d, body, rfl, -⟩, -⟩ := mem_ends_element.1 he
    obtain ⟨c', c, rfl⟩ := List.exists_cons_of_ne_nil hc
    obtain rfl : c' = '<' := (List.cons.inj hw).1
    exact hlead (by simp [hac])
  obtain ⟨y, r, hy, helement, hmin, hhere⟩ := here_element (b := false)
    (k := ⟨lead.getLast?.or u.getLast?, x, []⟩) hx (List.append_nil x).symm (u.length + lead.length)
  simp only at hy hmin
  have hyne : y ≠ [] := by
    obtain ⟨d, body, rfl, -⟩ := helement
    simp
  subst hy
  have hlen : (u ++ lead).length = u.length + lead.length := List.length_append
  have hlen' : (u ++ lead ++ y).length = u.length + lead.length + y.length := by rw [← hlen]; exact List.length_append
  refine ⟨y, r, (Pattern.element tag).scan false (y.getLast?.or (lead.getLast?.or u.getLast?))
    (u.length + lead.length + y.length) 0 r, rfl, helement, ?_, fun hall => ?_⟩
  · rw [hbehind, elements_append htag, ← hu, hskip, Pattern.scan_append_here hyne hhere rfl, hlen, hlen']
  · rw [hall y r rfl helement]
    exact Pattern.scan_nil (element_advances tag false) _ _ _

end Componentry.Listing
