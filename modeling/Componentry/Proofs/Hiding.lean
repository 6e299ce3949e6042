/-
A link that stands in a navigation, and what can hide it.

A link counts as present by what its region points at, and a region is read from the first opening on that the last one
has left. So an opening before the link that is closed nowhere before it takes the link into its own region, and what is
named there first is what the region points at.
- `unclosed`: the end of a text from the first opening on that no closing follows.
- `elements_around`: the elements of a text around one of its elements are those before it, that one with the unclosed
  end before it, and those behind it.
- `targetOf?_opening_append`: what a link points at is settled at the end of its opening.

Main result: `apply_linked_iff`, with a link that is put in a second time in `apply_hidden_link`.
-/
import Componentry.Proofs.Navigation

namespace Componentry

open Text

/-! ## Matches further on in a text -/

namespace Occurrence

/-- a match in a text with `n` more characters in front -/
def shift (n : Nat) (m : Occurrence) : Occurrence := ⟨m.start + n, m.stop + n, m.kept⟩

theorem shift_shift (m : Occurrence) (a b : Nat) : (m.shift a).shift b = m.shift (a + b) := by
  simp [shift, Nat.add_assoc]

theorem textIn_shift (m : Occurrence) (u t : Text) : (m.shift u.length).textIn (u ++ t) = m.textIn t := by
  simp [shift, textIn, slice, Nat.add_comm _ u.length, List.take_length_add_append, List.drop_length_add_append]

end Occurrence

namespace Listing

variable {tag : Text} {b : Bool}

/-- an element is matched alike wherever it stands -/
theorem here_element_shift (before : Option Char) (position : Nat) (t : Text) :
    (Pattern.element tag).here b ⟨before, t, []⟩ position =
      ((Pattern.element tag).here b ⟨none, t, []⟩ 0).map (·.shift position) := by
  by_cases hx : ∃ x r, t = x ++ r ∧ IsElement tag x
  · obtain ⟨x, r, hxr, hx⟩ := hx
    obtain ⟨y, r1, hy, hyelement, hymin, hyhere⟩ := here_element (b := b) (k := ⟨before, t, []⟩) hx hxr position
    obtain ⟨z, r2, hz, hzelement, hzmin, hzhere⟩ := here_element (b := b) (k := ⟨none, t, []⟩) hx hxr 0
    rw [hyhere, hzhere, le_antisymm (hymin z r2 hz hzelement) (hzmin y r1 hy hyelement)]
    simp [Occurrence.shift, Nat.add_comm]
  · have hnil : ∀ before position, (Pattern.element tag).here b ⟨before, t, []⟩ position = [] := by
      refine fun before position => Pattern.here_none (List.eq_nil_iff_forall_not_mem.2 fun e he => hx ?_) position
      obtain ⟨x, r, hxr, helement, -⟩ := mem_ends_element.1 he
      exact ⟨x, r, hxr, helement⟩
    rw [hnil, hnil, List.map_nil]

/-- and so are all the elements of a text -/
theorem scan_element_shift (before : Option Char) (position skip : Nat) (t : Text) :
    (Pattern.element tag).scan b before position skip t =
      ((Pattern.element tag).scan b none 0 skip t).map (·.shift position) := by
  induction t generalizing before position skip with
  | nil => simp [Pattern.scan_nil (element_advances tag b)]
  | cons c t ih =>
    have hlater : ∀ n, (Pattern.element tag).scan b (some c) (position + 1) n t =
        ((Pattern.element tag).scan b (some c) (0 + 1) n t).map (·.shift position) := by
      intro n
      rw [ih, ih (some c) (0 + 1), List.map_map]
      simp [Function.comp_def, Occurrence.shift_shift, Nat.add_comm]
    cases skip with
    | succ skip => rw [Pattern.scan_skip, Pattern.scan_skip, hlater]
    | zero =>
      rw [Pattern.scan_zero, Pattern.scan_zero, List.map_append, here_element_shift before position,
        List.getLast?_map, hlater]
      congr 3
      cases ((Pattern.element tag).here b ⟨none, c :: t, []⟩ 0).getLast? with
      | none => simp
      | some o =>
        simp only [Option.map_some, Option.getD_some, Occurrence.shift]
        omega

/-! ## Openings that are not closed -/

/-- whether an element opens at the start of a text -/
def opens (tag t : Text) : Bool :=
  ('<' :: tag).isPrefixOf t && (t.drop (tag.length + 1)).head?.any fun d => isBlank d || d = '/' || d = '>'

/-- the end of a text from the first opening on that no closing follows -/
def unclosed (tag : Text) : Text → Text
  | [] => []
  | c :: t => if opens tag (c :: t) && !holds (closing tag) t then c :: t else unclosed tag t

theorem opens_iff {t : Text} : opens tag t = true ↔
    ∃ d r, t = '<' :: (tag ++ [d]) ++ r ∧ (isBlank d = true ∨ d = '/' ∨ d = '>') := by
  simp only [opens, Bool.and_eq_true, List.isPrefixOf_iff_prefix, Option.any_eq_true, Bool.or_eq_true,
    decide_eq_true_eq, or_assoc]
  constructor
  · rintro ⟨⟨r, rfl⟩, d, hd, hsign⟩
    have hlen : tag.length + 1 = ('<' :: tag).length := rfl
    rw [hlen, List.drop_left] at hd
    obtain ⟨r, rfl⟩ : ∃ r', r = d :: r' := List.head?_eq_some_iff.1 hd
    exact ⟨d, r, by simp, hsign⟩
  · rintro ⟨d, r, rfl, hsign⟩
    exact ⟨⟨d :: r, by simp⟩, d, by simp, hsign⟩

theorem holds_closing_iff {t : Text} : holds (closing tag) t = true ↔ closing tag <:+: t :=
  holds_iff.trans ⟨fun ⟨a, b, h⟩ => ⟨a, b, h.symm⟩, fun ⟨a, b, h⟩ => ⟨a, b, h.symm⟩⟩

theorem IsTag.not_opens_closing (htag : IsTag tag) (t : Text) : opens tag (closing tag ++ t) = false := by
  refine Bool.eq_false_iff.2 fun h => ?_
  obtain ⟨c, rest, hc, hslash⟩ := htag.starts
  obtain ⟨d, r, h, -⟩ := opens_iff.1 h
  rw [closing_eq, hc] at h
  exact hslash (List.cons.inj (List.cons.inj h).2).1.symm

/-- an element starts a text exactly if one opens there and is closed behind -/
theorem starts_element_iff (htag : IsTag tag) {c : Char} {t : Text} :
    (∃ x r, c :: t = x ++ r ∧ IsElement tag x) ↔ opens tag (c :: t) = true ∧ closing tag <:+: t := by
  constructor
  · rintro ⟨x, r, h, hx⟩
    obtain ⟨d, body, rfl, hd⟩ := isElement_iff.1 hx
    refine ⟨opens_iff.2 ⟨d, body ++ closing tag ++ r, by rw [h]; simp, hd⟩, tag ++ [d] ++ body, r, ?_⟩
    rw [(List.cons.inj h).2]
    simp
  · rintro ⟨hopens, hclosing⟩
    obtain ⟨d, r, h, hd⟩ := opens_iff.1 hopens
    rw [(List.cons.inj h).2, closing_eq] at hclosing
    obtain ⟨body, rest, rfl⟩ := infix_of_append_left hclosing (htag.sign_notMem hd)
    refine ⟨_, rest, ?_, isElement_iff.2 ⟨d, body, rfl, hd⟩⟩
    rw [h, closing_eq]
    simp

/-- whether an element opens is settled before the next opening sign -/
theorem opens_of_append (htag : IsTag tag) {w x : Text} (hw : w ≠ []) (hx : x.head? = some '<')
    (h : opens tag (w ++ x) = true) : opens tag w = true := by
  obtain ⟨d, r, h, hd⟩ := opens_iff.1 h
  rcases List.append_eq_append_iff.1 h with ⟨a, ha, rfl⟩ | ⟨a, rfl, -⟩
  · cases a with
    | nil => exact opens_iff.2 ⟨d, [], by rw [ha]; simp, hd⟩
    | cons e a =>
      obtain rfl : e = '<' := by simpa using hx
      obtain ⟨c, w, rfl⟩ := List.exists_cons_of_ne_nil hw
      refine absurd ?_ (htag.sign_notMem hd)
      rw [(List.cons.inj ha).2]
      simp
  · exact opens_iff.2 ⟨d, a, rfl, hd⟩

/-- where nothing opens, nothing is unclosed -/
theorem unclosed_append_of_notMem {x : Text} (hx : '<' ∉ x) (t : Text) : unclosed tag (x ++ t) = unclosed tag t := by
  induction x with
  | nil => rfl
  | cons c x ih =>
    rw [List.mem_cons, not_or] at hx
    have hopens : opens tag (c :: (x ++ t)) = false := by
      refine Bool.eq_false_iff.2 fun h => ?_
      obtain ⟨d, r, h, -⟩ := opens_iff.1 h
      exact hx.1 (List.cons.inj h).1.symm
    rw [List.cons_append, unclosed, hopens, Bool.false_and, if_neg Bool.false_ne_true, ih hx.2]

/-- what a closing follows is closed -/
theorem unclosed_append_closing (htag : IsTag tag) (p t : Text) :
    unclosed tag (p ++ closing tag ++ t) = unclosed tag t := by
  induction p with
  | nil =>
    have hopens := htag.not_opens_closing t
    rw [closing_eq] at hopens
    rw [List.nil_append, closing_eq, List.cons_append, unclosed, ← List.cons_append, hopens, Bool.false_and,
      if_neg Bool.false_ne_true, unclosed_append_of_notMem htag.sign_notMem_closing]
  | cons c p ih =>
    have hholds : holds (closing tag) (p ++ closing tag ++ t) = true := holds_closing_iff.2 ⟨p, t, rfl⟩
    rw [List.cons_append, List.cons_append, unclosed, hholds, Bool.not_true, Bool.and_false,
      if_neg Bool.false_ne_true, ih]

/-- an unclosed end, if there is one, has an opening in front and no closing -/
theorem unclosed_cases (htag : IsTag tag) (t : Text) : unclosed tag t = [] ∨
    opens tag (unclosed tag t) = true ∧ ¬closing tag <:+: unclosed tag t := by
  induction t with
  | nil => exact Or.inl rfl
  | cons c t ih =>
    rw [unclosed]
    split_ifs with h
    · rw [Bool.and_eq_true, Bool.not_eq_true', ← Bool.not_eq_true, holds_closing_iff] at h
      refine Or.inr ⟨h.1, fun hin => (List.infix_cons_iff.1 hin).elim (fun ⟨rest, hin⟩ => ?_) h.2⟩
      rw [← hin, htag.not_opens_closing] at h
      exact Bool.false_ne_true h.1
    · exact ih

/-! ## The elements around an element -/

/-- in a text without elements the scan goes on to the unclosed end -/
theorem scan_unclosed (htag : IsTag tag) {w x : Text} (hw : ¬HasElement tag w) (hx : x.head? = some '<')
    (before : Option Char) (position : Nat) : ∃ a, w = a ++ unclosed tag w ∧
      (Pattern.element tag).scan b before position 0 (w ++ x) =
        (Pattern.element tag).scan b (a.getLast?.or before) (position + a.length) 0 (unclosed tag w ++ x) := by
  induction w generalizing before position with
  | nil => exact ⟨[], rfl, rfl⟩
  | cons c w ih =>
    by_cases hopens : opens tag (c :: w) = true
    · -- it is not closed, as there is no element
      have hclosing : holds (closing tag) w = false := by
        rw [← Bool.not_eq_true, holds_closing_iff]
        intro hin
        obtain ⟨y, r, h, hy⟩ := (starts_element_iff htag).2 ⟨hopens, hin⟩
        exact hw ⟨y, hy, [], r, by rw [h]; simp⟩
      have hall : unclosed tag (c :: w) = c :: w := by rw [unclosed, hopens, hclosing]; rfl
      exact ⟨[], by rw [hall]; rfl, by rw [hall]; rfl⟩
    · have hends : (Pattern.element tag).ends b ⟨before, c :: (w ++ x), []⟩ = [] := by
        refine List.eq_nil_iff_forall_not_mem.2 fun e he => hopens ?_
        obtain ⟨y, r, h, hy, -⟩ := mem_ends_element.1 he
        exact opens_of_append htag (List.cons_ne_nil c w) hx ((starts_element_iff htag).1 ⟨y, r, h, hy⟩).1
      have hw' : ¬HasElement tag w := fun ⟨y, hy, hin⟩ => hw ⟨y, hy, List.infix_cons hin⟩
      obtain ⟨a, ha, hscan⟩ := ih hw' (some c) (position + 1)
      have hrest : unclosed tag (c :: w) = unclosed tag w := by
        rw [unclosed, Bool.eq_false_iff.2 hopens, Bool.false_and, if_neg Bool.false_ne_true]
      refine ⟨c :: a, by rw [hrest, List.cons_append, ← ha], ?_⟩
      rw [List.cons_append, Pattern.scan_none hends, hscan, hrest, Cursor.getLast?_cons_or, List.length_cons,
        Nat.add_assoc, Nat.add_comm 1]

/-- a text up to its last element, and what follows that -/
theorem exists_elements_end (htag : IsTag tag) (u : Text) : ∃ u0 w, u = u0 ++ w ∧ ¬HasElement tag w ∧
    unclosed tag u = unclosed tag w ∧
      ∀ y, elements tag (u0 ++ y) = elements tag u ++ (Pattern.element tag).scan false u0.getLast? u0.length 0 y := by
  cases hlast : (elements tag u).getLast? with
  | none =>
    have hnil := List.getLast?_eq_none_iff.1 hlast
    refine ⟨[], u, rfl, fun h => (element_occurs_iff tag false u).2 h hnil, rfl, fun y => ?_⟩
    rw [hnil]
    rfl
  | some m =>
    obtain ⟨p, w, rfl, -, helements, hw⟩ := exists_last_element htag hlast
    refine ⟨p ++ closing tag, w, rfl, hw, unclosed_append_closing htag p w, fun y => ?_⟩
    rw [elements_append htag, helements]

/-- a text that is closed at its end and nowhere before is matched as a whole -/
theorem here_element_closed {x : Text} (htag : IsTag tag) (hx : IsElement tag (x ++ closing tag))
    (hsole : ¬closing tag <:+: x) (v : Text) (before : Option Char) (position : Nat) :
    (Pattern.element tag).here b ⟨before, x ++ closing tag ++ v, []⟩ position =
      [⟨position, position + (x ++ closing tag).length, []⟩] := by
  obtain ⟨y, r, hy, helement, hmin, hhere⟩ :=
    here_element (b := b) (k := ⟨before, x ++ closing tag ++ v, []⟩) hx rfl position
  rw [hhere, le_antisymm (hmin _ v rfl hx) (htag.length_le_of_closing hsole hy helement)]

/-- an element with an unclosed end in front is an element again, and closed at its end alone -/
theorem isElement_unclosed (htag : IsTag tag) (w : Text) {x : Text} (hx : IsElement tag ('<' :: x ++ closing tag))
    (hsole : ¬closing tag <:+: '<' :: x) : IsElement tag (unclosed tag w ++ '<' :: x ++ closing tag) ∧
      ¬closing tag <:+: unclosed tag w ++ '<' :: x := by
  rcases unclosed_cases htag w with hnil | ⟨hopens, hnot⟩
  · rw [hnil]
    exact ⟨hx, hsole⟩
  · obtain ⟨d, r, heq, hd⟩ := opens_iff.1 hopens
    refine ⟨isElement_iff.2 ⟨d, r ++ '<' :: x, by rw [heq]; simp, hd⟩, fun hin => ?_⟩
    rw [closing_eq] at hin hnot hsole
    exact (infix_of_append_sign hin htag.sign_notMem_closing).elim hnot hsole

/-- **the elements of a text around one of its elements: what is not closed before it is part of it** -/
theorem elements_around (htag : IsTag tag) {u x v : Text} (hx : IsElement tag (x ++ closing tag))
    (hsole : ¬closing tag <:+: x) : ∃ a, u = a ++ unclosed tag u ∧
      elements tag (u ++ (x ++ closing tag) ++ v) = elements tag u ++
        ⟨a.length, (u ++ (x ++ closing tag)).length, []⟩ ::
          (elements tag v).map (·.shift (u ++ (x ++ closing tag)).length) := by
  obtain ⟨x', rfl⟩ : ∃ x', x = '<' :: x' := by
    cases x with
    | nil => exact absurd hx (by simpa using htag.not_isElement_closing [])
    | cons c x =>
      obtain ⟨d, body, heq, -⟩ := isElement_iff.1 hx
      exact ⟨x, by rw [(List.cons.inj heq).1]⟩
  obtain ⟨u0, w, rfl, hw, hunclosed, helements⟩ := exists_elements_end htag u
  obtain ⟨a, ha, hscan⟩ := scan_unclosed (b := false) htag hw
    (show ('<' :: x' ++ closing tag ++ v).head? = some '<' from rfl) u0.getLast? u0.length
  obtain ⟨helement, hclosed⟩ := isElement_unclosed htag w hx hsole
  have hne : unclosed tag w ++ '<' :: x' ++ closing tag ≠ [] := by simp
  have hlength : u0.length + a.length + (unclosed tag w ++ '<' :: x' ++ closing tag).length =
      (u0 ++ w ++ ('<' :: x' ++ closing tag)).length := by
    have := congrArg List.length ha
    simp only [List.length_append] at this ⊢
    omega
  refine ⟨u0 ++ a, by rw [hunclosed, List.append_assoc, ← ha], ?_⟩
  rw [List.append_assoc, List.append_assoc u0, helements, ← List.append_assoc w, List.append_assoc w, hscan,
    ← List.append_assoc, ← List.append_assoc,
    Pattern.scan_append_here hne (here_element_closed htag helement hclosed v _ _) rfl, scan_element_shift,
    hlength, show u0.length + a.length = (u0 ++ a).length from List.length_append.symm]
  rfl

end Listing

namespace Navigation

open Listing

variable {root : Path} {c : Component} {u v body : Text}

/-- **the texts of the elements around an element: one that is not closed before it is cut off at its end** -/
theorem texts_around {x : Text} (hx : IsElement tag (x ++ closing tag)) (hsole : ¬closing tag <:+: x) :
    texts (u ++ (x ++ closing tag) ++ v) = texts u ++ (unclosed tag u ++ (x ++ closing tag)) :: texts v := by
  obtain ⟨a, ha, helements⟩ := elements_around (u := u) (v := v) isTag_tag hx hsole
  have hbefore : (elements tag u).map (·.textIn (u ++ (x ++ closing tag) ++ v)) = texts u := by
    refine List.map_congr_left fun o ho => ?_
    rw [List.append_assoc, textIn_append (stop_le_of_mem_elements ho)]
  have hhere : (Occurrence.mk a.length (u ++ (x ++ closing tag)).length []).textIn (u ++ (x ++ closing tag) ++ v) =
      unclosed tag u ++ (x ++ closing tag) := by
    have := textIn_between a (unclosed tag u ++ (x ++ closing tag)) v []
    rwa [← List.append_assoc a, ← ha] at this
  have hbehind : ((elements tag v).map (·.shift (u ++ (x ++ closing tag)).length)).map
      (·.textIn (u ++ (x ++ closing tag) ++ v)) = texts v := by
    rw [List.map_map]
    exact List.map_congr_left fun o _ => o.textIn_shift _ v
  rw [texts, helements, List.map_append, List.map_cons, hbefore, hhere, hbehind]

/-! ## The target of a link behind an opening -/

/-- before the quote that ends an opening no target is named -/
theorem exists_opening_concat (hc : Slug.IsName c.slug) : ∃ s d, opening c = s ++ [d] ++ ['"'] ∧ d ≠ '=' := by
  obtain ⟨s, d, hs⟩ := (List.eq_nil_or_concat' (linkOf c)).resolve_left (linkOf_ne_nil c)
  refine ⟨"<router-link to=\"".toList ++ s, d, ?_, ?_⟩
  · unfold opening
    rw [hs]
    simp
  · rintro rfl
    have hmem : '=' ∈ linkOf c := by simp [hs]
    rcases List.mem_append.1 hmem with h | h
    · revert h
      decide
    · exact absurd (hc.chars _ h) (by decide)

/-- a target that is named before the end of an opening ends there at the latest -/
theorem exists_target_of_append (hc : Slug.IsName c.slug) {o x w more part rest : Text} {q : Char}
    (hx : o ++ opening c = x ++ w) (hw : w ≠ []) (hpart : ∀ d ∈ part, ¬Index.IsQuote d)
    (h : w ++ more = 't' :: 'o' :: '=' :: q :: (part ++ q :: rest)) :
    ∃ rest', w = 't' :: 'o' :: '=' :: q :: (part ++ q :: rest') ∧ rest = rest' ++ more := by
  have hmatch : w ++ more = ('t' :: 'o' :: '=' :: q :: part) ++ [q] ++ rest := by rw [h]; simp
  rcases List.append_eq_append_iff.1 hmatch with ⟨a, ha, rfl⟩ | ⟨a, rfl, rfl⟩
  · rcases List.eq_nil_or_concat' a with rfl | ⟨a, z, rfl⟩
    · exact ⟨[], by rw [← List.append_nil w, ← ha]; simp, rfl⟩
    · -- the last quote of the opening would be the first one of the target, or stand in it
      obtain ⟨s, d, hs, hd⟩ := exists_opening_concat hc
      obtain ⟨w, z', rfl⟩ := (List.eq_nil_or_concat' w).resolve_left hw
      rw [hs, ← List.append_assoc, ← List.append_assoc, ← List.append_assoc] at hx
      obtain ⟨hfront, hz⟩ := List.append_inj' hx (by simp)
      obtain rfl : '"' = z' := (List.cons.inj hz).1
      have ha' : ('t' :: 'o' :: '=' :: q :: part) ++ [q] = (w ++ '"' :: a) ++ [z] := by rw [ha]; simp
      have hback := (List.append_inj' ha' (by simp)).1
      match w, hback with
      | [], hback => exact absurd (List.cons.inj hback).1 (by decide)
      | [_], hback => exact absurd (List.cons.inj (List.cons.inj hback).2).1 (by decide)
      | [_, _], hback => exact absurd (List.cons.inj (List.cons.inj (List.cons.inj hback).2).2).1 (by decide)
      | [_, _, e], hback =>
        obtain rfl : '=' = e := (List.cons.inj (List.cons.inj (List.cons.inj hback).2).2).1
        have hlast : d = '=' := by simpa using congrArg List.getLast? hfront
        exact absurd hlast hd
      | _ :: _ :: _ :: _ :: w, hback =>
        simp only [List.cons_append, List.cons.injEq] at hback
        exact absurd (Or.inr rfl) (hpart '"' (by simp [hback.2.2.2.2]))
  · exact ⟨a, by simp, rfl⟩

/-- what a place before the end of an opening names is the same whatever follows -/
theorem here_linkTarget_append (hc : Slug.IsName c.slug) {o x w : Text} (hx : o ++ opening c = x ++ w) (hw : w ≠ [])
    (more : Text) (position : Nat) : Pattern.linkTarget.here false ⟨x.getLast?, w ++ more, []⟩ position =
      Pattern.linkTarget.here false ⟨x.getLast?, w, []⟩ position := by
  have hedge : (⟨x.getLast?, w ++ more, []⟩ : Cursor).atWordEdge = (⟨x.getLast?, w, []⟩ : Cursor).atWordEdge := by
    rw [Cursor.atWordEdge, Cursor.atWordEdge, List.head?_append_of_ne_nil _ hw]
  by_cases hnamed : ∃ q part rest, w = 't' :: 'o' :: '=' :: q :: (part ++ q :: rest) ∧
      (⟨x.getLast?, w, []⟩ : Cursor).atWordEdge = true ∧ Index.IsQuote q ∧ part ≠ [] ∧ ∀ d ∈ part, ¬Index.IsQuote d
  · obtain ⟨q, part, rest, rfl, hplace, hq, hne, hpart⟩ := hnamed
    rw [hplace] at hedge
    simp only [List.cons_append, List.append_assoc] at hedge ⊢
    obtain ⟨_, hends⟩ := ends_linkTarget (b := false) hplace hq hne hpart
    obtain ⟨_, hends'⟩ := ends_linkTarget (b := false) hedge hq hne hpart
    rw [Pattern.here_some (linkTarget_advances false) hends, Pattern.here_some (linkTarget_advances false) hends']
    simp [Pattern.found]
    omega
  · rw [Pattern.here_none, Pattern.here_none]
    · refine List.eq_nil_iff_forall_not_mem.2 fun e he => hnamed ?_
      obtain ⟨q, part, rest, hk, hplace, hq, hne, hpart, -⟩ := mem_ends_linkTarget.1 he
      exact ⟨q, part, rest, hk, hplace, hq, hne, hpart⟩
    · refine List.eq_nil_iff_forall_not_mem.2 fun e he => hnamed ?_
      obtain ⟨q, part, rest, hk, hplace, hq, hne, hpart, -⟩ := mem_ends_linkTarget.1 he
      obtain ⟨rest', hw', -⟩ := exists_target_of_append hc hx hw hpart hk
      exact ⟨q, part, rest', hw', hedge ▸ hplace, hq, hne, hpart⟩

/-- an opening names a target wherever it stands -/
theorem occurrences_opening_ne_nil (hc : Slug.IsName c.slug) (o : Text) :
    Pattern.linkTarget.occurrences false (o ++ opening c) ≠ [] := by
  have hplace : (⟨(o ++ "<router-link ".toList).getLast?, 't' :: 'o' :: '=' :: '"' :: (linkOf c ++ ['"']), []⟩ :
      Cursor).atWordEdge = true := by
    rw [Cursor.atWordEdge_before (c := 't') rfl (by decide), List.getLast?_append_of_ne_nil _ (by decide)]
    change ("<router-link ".toList.getLast?).any isWordChar = false
    decide
  obtain ⟨_, hends⟩ := ends_linkTarget (b := false) hplace (Or.inr rfl) (linkOf_ne_nil c)
    fun d hd => (linkOf_facts hc d hd).1
  obtain ⟨m, hm, -⟩ := Pattern.occurrences_covers (linkTarget_advances false) (by rw [hends]; exact List.cons_ne_nil _ _)
  rw [← List.append_nil (opening c), opening_split]
  exact List.ne_nil_of_mem hm

/-- what is named first up to the end of an opening stays so whatever follows -/
theorem targetOf?_opening_append (hc : Slug.IsName c.slug) (o more : Text) :
    Splice.targetOf? .linkTarget (o ++ opening c ++ more) = Splice.targetOf? .linkTarget (o ++ opening c) := by
  rw [Splice.targetOf?, Pattern.first?, Pattern.occurrences_append (linkTarget_advances false) fun _ _ hx hw =>
    here_linkTarget_append hc hx hw more, List.head?_append_of_ne_nil _ (occurrences_opening_ne_nil hc o)]
  rfl

/-- an opening by itself points at its component -/
theorem targetOf?_opening_self (hc : Slug.IsName c.slug) :
    Splice.targetOf? .linkTarget (opening c) = some (linkOf c) := by
  simpa using targetOf?_opening hc (Or.inl rfl) []

/-! ## A link that is there -/

/-- **a component whose link stands in a navigation is put in again exactly if nothing before or behind points at it
and, from an opening that is not closed before the link, something else is named first; with all openings before the
link closed nothing changes** -/
theorem apply_linked_iff (hc : Slug.IsName c.slug) (hbody : ¬closing tag <:+: body) :
    let t := u ++ (opening c ++ body ++ closing tag) ++ v
    let apply := (Listing.navigation (Settings.standard root)).apply t c
    (apply = .ok t ↔ linkOf c ∈ links u ∨ Splice.targetOf? .linkTarget (unclosed tag u ++ opening c) = some (linkOf c) ∨
      linkOf c ∈ links v) ∧
    (unclosed tag u = [] → apply = .ok t) ∧
    (apply ≠ .ok t → ∃ m, (elements tag t).getLast? = some m ∧
      apply = .ok (Splice.insertAt t m.stop (withNewline (.ofContent t) (navigationFragment tag c)))) := by
  intro t apply
  have hlinks : linkOf c ∈ links t ↔ linkOf c ∈ links u ∨
      Splice.targetOf? .linkTarget (unclosed tag u ++ opening c) = some (linkOf c) ∨ linkOf c ∈ links v := by
    have htarget := targetOf?_opening_append hc (unclosed tag u) (body ++ closing tag)
    rw [links_eq, texts_around (isElement_link c body) fun h => hbody (closing_of_opened hc h), ← htarget, links_eq u,
      links_eq v]
    simp only [List.mem_filterMap, List.mem_append, List.mem_cons, or_and_right, exists_or, exists_eq_left,
      List.append_assoc]
  obtain ⟨m, hm⟩ : ∃ m, (elements tag t).getLast? = some m := by
    refine Option.ne_none_iff_exists'.1 fun hnone => ?_
    exact (element_occurs_iff tag false t).2 ⟨_, isElement_link c body, u, v, rfl⟩ (List.getLast?_eq_none_iff.1 hnone)
  have happly : apply = .ok (if linkOf c ∈ links t then t else
      Splice.insertAt t m.stop (withNewline (.ofContent t) (navigationFragment tag c))) := apply_eq hc hm
  have hiff : apply = .ok t ↔ linkOf c ∈ links t := by
    rw [happly]
    split_ifs with hlinked
    · simp [hlinked]
    · -- what is put in is not empty
      have hlonger : Splice.insertAt t m.stop (withNewline (.ofContent t) (navigationFragment tag c)) ≠ t := by
        intro hsame
        have hlen := congrArg List.length hsame
        rw [withNewline_fragment hc, closing_eq] at hlen
        simp only [Splice.insertAt, List.length_append, List.length_take, List.length_drop, List.length_cons] at hlen
        omega
      simpa [hlinked] using hlonger
  refine ⟨hiff.trans hlinks, fun hclosed => hiff.2 (hlinks.2 (Or.inr (Or.inl ?_))), fun hne => ⟨m, hm, ?_⟩⟩
  · rw [hclosed]
    exact targetOf?_opening_self hc
  · rw [happly, if_neg fun hlinked => hne (hiff.2 hlinked)]

/-- a link behind a self-closing one is found by another link to the same place behind it -/
theorem apply_linked_behind :
    let root : Path := .ofText "repo".toList
    let c : Component := ⟨"foo".toList, "Foo".toList, [], []⟩
    let u := "<nav>\n<router-link to='/' />\n".toList
    let body := " class=\"nav-item\">\n  Other label\n".toList
    let v := "\n<router-link class=\"nav-item\"\n to='/components/foo'/></router-link>\n</nav>\n".toList
    let t := u ++ (opening c ++ body ++ closing tag) ++ v
    Slug.IsName c.slug ∧ ¬closing tag <:+: body ∧ unclosed tag u ≠ [] ∧
      Splice.targetOf? .linkTarget (unclosed tag u ++ opening c) = some ['/'] ∧
      (Listing.navigation (Settings.standard root)).apply t c = .ok t := by
  intro root c u body v t
  have hc : Slug.IsName c.slug := by decide +kernel
  have hbody : ¬closing tag <:+: body := by decide +kernel
  exact ⟨hc, hbody, by decide +kernel, by decide +kernel,
    (apply_linked_iff hc hbody).1.2 (Or.inr (Or.inr (by decide +kernel)))⟩

/-- a self-closing link is not closed for the scan, and hides the link behind it, which is put in a second time -/
theorem apply_hidden_link :
    let root : Path := .ofText "repo".toList
    let c : Component := ⟨"foo".toList, "T".toList, [], []⟩
    let u := "<router-link to=\"/\" />\n".toList
    let t := u ++ (opening c ++ ">Foo".toList ++ closing tag) ++ ['\n']
    Slug.IsName c.slug ∧ t = "<router-link to=\"/\" />\n<router-link to=\"/components/foo\">Foo</router-link>\n".toList ∧
      ((Listing.navigation (Settings.standard root)).apply t c).toOption = some (u ++
        (opening c ++ ">Foo".toList ++ closing tag) ++ navigationFragment tag c ++ ['\n']) ∧
      (Listing.navigation (Settings.standard root)).apply t c ≠ .ok t := by
  intro root c u t
  refine ⟨by decide +kernel, by decide +kernel, by decide +kernel, fun h => ?_⟩
  have hsame := congrArg Except.toOption h
  revert hsame
  decide +kernel

end Navigation

end Componentry
