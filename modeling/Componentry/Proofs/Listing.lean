/-
What it means for a listing that its text stays as it is.

A listing whose text stays is unchanged or skipped, and skipped where a step misses its anchor. Only the navigation can
miss one: every other step fails without its anchor. So a text that stays is a text with all anchors, unless it is that
of a navigation without elements.
- `intoList_visible`, `importStep_visible`: no list step takes away anything visible, and an import adds something. So a
  text that stays was never changed on the way, although a list step can shorten a text.
- `element_occurs_iff`: an element of a kind is matched exactly if one stands in the text.

Main result: `Listing.resting_iff`.
-/
import Componentry.Listing
import Componentry.Proofs.Splice.Entries

namespace Componentry

open Text

/-! ## What is visible in a text -/

namespace Text

/-- the number of characters that are not blank -/
def visible (t : Text) : Nat := t.countP fun c => !isBlank c

theorem visible_append (a b : Text) : visible (a ++ b) = visible a + visible b := List.countP_append

theorem visible_blanks {b : Text} (h : Blanks b) : visible b = 0 :=
  List.countP_eq_zero.2 fun c hc => by simp [h c hc]

theorem take_slice_drop (t : Text) {a b : Nat} (h : a ≤ b) : t.take a ++ slice t a b ++ t.drop b = t := by
  have htake : (t.take b).take a = t.take a := by rw [List.take_take, Nat.min_eq_left h]
  rw [slice, ← htake, List.take_append_drop, List.take_append_drop]

theorem le_indexFrom? {piece t : Text} {start n : Nat} (h : indexFrom? piece t start = some n) : start ≤ n := by
  obtain ⟨m, -, rfl⟩ := Option.map_eq_some_iff.1 h
  exact Nat.le_add_left _ _

end Text

namespace Splice

/-- an entry takes nothing visible away: it goes behind the items, or in the place of white space -/
theorem appendEntry_visible (newline : Newline) (body entry : Text) :
    visible body ≤ visible (appendEntry newline body entry) := by
  obtain ⟨tail, hbody, ht, hf⟩ := exists_trimEnd body
  by_cases hfilled : trimEnd body = []
  · rw [visible_blanks (trimEnd_eq_nil_iff.1 hfilled)]
    exact Nat.zero_le _
  · rw [hbody]
    obtain ⟨gap, -, -, happend⟩ := appendEntry_filled newline hf hfilled ht entry
    rw [happend]
    simp only [visible_append]
    omega

/-- an entry goes into a list behind a match of the anchor, unless it is listed -/
theorem intoList_ok {anchor : Pattern} {closer : Text} {reject : Option Pattern} {t entry t' : Text}
    (h : intoList anchor closer reject t entry = .ok t') : ∃ m ∈ anchor.occurrences false t, ∃ close, m.stop ≤ close ∧
      (t' = t ∨ t' = t.take m.stop ++ appendEntry (.ofContent t) (slice t m.stop close) entry ++ t.drop close) := by
  unfold intoList at h
  split at h
  · simp at h
  · rename_i span hspans
    have hmem : span ∈ listSpans t anchor closer reject := by rw [hspans]; exact List.mem_singleton_self _
    obtain ⟨m, hm, hspan⟩ := List.mem_filterMap.1 hmem
    cases hclose : indexFrom? closer t m.stop with
    | none => simp [hclose] at hspan
    | some close =>
      simp only [hclose] at hspan
      split_ifs at hspan
      obtain rfl := Option.some.inj hspan
      refine ⟨m, hm, close, le_indexFrom? hclose, ?_⟩
      simp only at h
      split_ifs at h
      · exact Or.inl (Except.ok.inj h).symm
      · exact Or.inr (Except.ok.inj h).symm
  · simp at h

theorem intoList_visible {anchor : Pattern} {closer : Text} {reject : Option Pattern} {t entry t' : Text}
    (h : intoList anchor closer reject t entry = .ok t') : visible t ≤ visible t' := by
  obtain ⟨m, -, close, hle, rfl | rfl⟩ := intoList_ok h
  · exact le_rfl
  · have := appendEntry_visible (.ofContent t) (slice t m.stop close) entry
    conv_lhs => rw [← take_slice_drop t hle]
    simp only [visible_append]
    omega

/-- a statement goes behind a match of the anchor on a line of its own, unless its source is imported -/
theorem afterImports_ok {anchor : Pattern} {t statement t' : Text} (h : afterImports anchor t statement = .ok t') :
    anchor.occurrences true t ≠ [] ∧
      (t' = t ∨ ∃ position newline, t' = insertAt t position (newline.text ++ withNewline newline statement)) := by
  unfold afterImports at h
  simp only at h
  split at h
  · simp at h
  · rename_i last hlast
    refine ⟨fun hnil => by simp [hnil] at hlast, ?_⟩
    split at h
    · simp at h
    · split at h
      · split_ifs at h
        · exact Or.inl (Except.ok.inj h).symm
        · exact Or.inr ⟨_, _, (Except.ok.inj h).symm⟩
      · split_ifs at h
        · exact Or.inl (Except.ok.inj h).symm
        · exact Or.inr ⟨_, _, (Except.ok.inj h).symm⟩

theorem insertAt_append (a b piece : Text) : insertAt (a ++ b) a.length piece = a ++ piece ++ b := by
  rw [insertAt, List.take_left' rfl, List.drop_left' rfl]

theorem insertAt_body (x filled tail y piece : Text) :
    insertAt (x ++ (filled ++ tail) ++ y) (x ++ filled).length piece = x ++ (filled ++ piece ++ tail) ++ y := by
  have hcut : x ++ (filled ++ tail) ++ y = x ++ filled ++ (tail ++ y) := by simp
  rw [hcut, insertAt_append]
  simp

theorem visible_insertAt (t : Text) (position : Nat) (piece : Text) :
    visible (insertAt t position piece) = visible t + visible piece := by
  conv_rhs => rw [← List.take_append_drop position t]
  simp only [insertAt, visible_append]
  omega

end Splice

namespace Listing

open Splice

theorem applySteps_cons {t t' : Text} {c : Component} {step : Step} {steps : List Step} :
    applySteps t c (step :: steps) = .ok t' ↔ ∃ next, step.apply t c = .ok next ∧ applySteps next c steps = .ok t' := by
  rw [applySteps]
  cases step.apply t c <;> simp

/-- results are not decided to be equal, what they hold is -/
theorem ok_of_toOption {ε α : Type} {result : Except ε α} {a : α} (h : result.toOption = some a) : result = .ok a := by
  cases result with
  | error failure => simp [Except.toOption] at h
  | ok b => exact congrArg Except.ok (Option.some.inj h)

theorem ne_ok_of_toOption {result : Except Failure Text} (h : result.toOption = none) (t : Text) : result ≠ .ok t := by
  rintro rfl
  simp [Except.toOption] at h

theorem isAnchored_iff {step : Step} {t : Text} : step.isAnchored t = true ↔ step.anchor.occurrences true t ≠ [] := by
  simp [Step.isAnchored, Pattern.first?]

/-- an import leaves the text alone or adds something visible to it -/
theorem importStep_visible {t t' : Text} {c : Component} (h : importStep.apply t c = .ok t') :
    importStep.isAnchored t = true ∧ (t' = t ∨ visible t < visible t') := by
  obtain ⟨hfound, hsame | ⟨position, newline, rfl⟩⟩ := afterImports_ok h
  · exact ⟨isAnchored_iff.2 hfound, Or.inl hsame⟩
  · refine ⟨isAnchored_iff.2 hfound, Or.inr ?_⟩
    have hfirst : withNewline newline (importFragment c) =
        'i' :: withNewline newline ("mport \x7b ".toList ++ c.pascalName ++ " \x7d from './".toList ++ c.slug ++ ['\'']) :=
      rfl
    have hpos : 0 < visible (withNewline newline (importFragment c)) :=
      List.countP_pos_iff.2 ⟨'i', by rw [hfirst]; exact List.mem_cons_self, by decide⟩
    change _ < visible (insertAt t position (newline.text ++ withNewline newline (importFragment c)))
    rw [visible_insertAt, visible_append]
    omega

/-- the head of an export list outlasts the entry behind it -/
theorem exportStep_anchored {t t' : Text} {c : Component} (h : exportStep.apply t c = .ok t') :
    exportStep.isAnchored t' = true := by
  obtain ⟨m, hm, close, -, ht⟩ := intoList_ok h
  replace hm : m ∈ Index.ListKind.exports.anchor.occurrences false t := hm
  obtain ⟨u, v, rest, rfl, hv, hedge, -, hstop⟩ := Index.head_of_mem_occurrences hm
  rw [isAnchored_iff, Pattern.occurrences_of_ignoresLines (by rfl) true false]
  obtain ⟨rest', ht'⟩ : ∃ rest', t' = (u ++ v) ++ rest' := by
    rcases ht with rfl | rfl
    · exact ⟨rest, rfl⟩
    · exact ⟨_, by rw [hstop, List.take_left' rfl, List.append_assoc]⟩
  have hopens : Index.Opens .exports (u ++ v) := ⟨u, v, rfl, hv, hedge⟩
  obtain ⟨m', hm', -⟩ := Index.exists_occurrence_of_opens hopens rest'
  rw [ht']
  exact List.ne_nil_of_mem hm'

/-- a list step needs its anchor -/
theorem arrayStep_anchored {name t t' : Text} {c : Component} (h : (arrayStep name).apply t c = .ok t') :
    (arrayStep name).isAnchored t = true := by
  obtain ⟨m, hm, -⟩ := intoList_ok h
  rw [isAnchored_iff, Pattern.occurrences_of_ignoresLines (by rfl) true false]
  exact List.ne_nil_of_mem hm

/-- the imports of an index whose text stays do so at their step: no list step takes anything visible away -/
theorem index_same {s : Settings} {t : Text} {c : Component} (h : (index s).apply t c = .ok t) :
    importStep.apply t c = .ok t ∧ ∃ next, (arrayStep s.componentsListName).apply t c = .ok next ∧
      exportStep.apply next c = .ok t := by
  obtain ⟨t1, h1, h⟩ := applySteps_cons.1 h
  obtain ⟨t2, h2, h⟩ := applySteps_cons.1 h
  obtain ⟨t3, h3, h⟩ := applySteps_cons.1 h
  obtain rfl : t3 = t := Except.ok.inj h
  have hle2 : visible t1 ≤ visible t2 := intoList_visible h2
  have hle3 : visible t2 ≤ visible t3 := intoList_visible h3
  obtain ⟨-, rfl | hlt⟩ := importStep_visible h1
  · exact ⟨h1, t2, h2, h3⟩
  · omega

/-- an index whose text stays has all its anchors -/
theorem index_anchored {s : Settings} {t : Text} {c : Component} (h : (index s).apply t c = .ok t) :
    ∀ step ∈ (index s).steps, step.isAnchored t = true := by
  obtain ⟨h1, next, h2, h3⟩ := index_same h
  intro step hstep
  simp only [index, List.mem_cons, List.not_mem_nil, or_false] at hstep
  rcases hstep with rfl | rfl | rfl
  · exact (importStep_visible h1).1
  · exact arrayStep_anchored h2
  · exact exportStep_anchored h3

/-- a router that takes an entry has its anchor -/
theorem router_anchored {s : Settings} {t t' : Text} {c : Component} (h : (router s).apply t c = .ok t') :
    ∀ step ∈ (router s).steps, step.isAnchored t = true := by
  obtain ⟨t1, h1, -⟩ := applySteps_cons.1 h
  have hfound : (Pattern.keyedList s.routeChildrenKey).occurrences false t ≠ [] := by
    intro hnil
    replace h1 : intoCollection (.keyedList s.routeChildrenKey) [']'] t (routeFragment s.pagesDir c) = .ok t1 := h1
    rw [intoCollection, hnil] at h1
    simp at h1
  have hanchor : (routeStep s.routeChildrenKey s.pagesDir).anchor = Pattern.keyedList s.routeChildrenKey := rfl
  intro step hstep
  obtain rfl := List.mem_singleton.1 hstep
  rw [isAnchored_iff, hanchor, Pattern.occurrences_of_ignoresLines (p := .keyedList s.routeChildrenKey) rfl true false]
  exact hfound

/-! ## Elements -/

/-- an element of a tag: its opening, in which the tag is a word, and its first or a later closing -/
def IsElement (tag x : Text) : Prop :=
  ∃ d body, x = ('<' :: tag) ++ (d :: body) ++ ("</".toList ++ tag ++ ['>']) ∧ (isBlank d = true ∨ d = '/' ∨ d = '>')

/-- an element of a tag stands in a text -/
def HasElement (tag t : Text) : Prop := ∃ x, IsElement tag x ∧ x <:+: t

theorem mem_ends_element {b : Bool} {tag : Text} {k e : Cursor} : e ∈ (Pattern.element tag).ends b k ↔
    ∃ x rest, k.rest = x ++ rest ∧ IsElement tag x ∧ e = k.after x rest := by
  have hset : ∀ d : Char, (CharSet.oneOf true ['/', '>']).has d = true ↔ isBlank d = true ∨ d = '/' ∨ d = '>' := by
    simp [CharSet.has]
  unfold Pattern.element
  simp only [Pattern.mem_ends_andThen, Pattern.mem_ends_text, Pattern.mem_ends_ahead, Pattern.mem_ends_set,
    Pattern.mem_ends_many]
  constructor
  · rintro ⟨m1, ⟨m2, ⟨m3, ⟨r3, hk, rfl⟩, ⟨-, d, more, hd, hin, -⟩, rfl⟩, body, r1, hbody, -, -, rfl⟩, rest, hclose, rfl⟩
    simp only [Cursor.after_rest] at hd hbody hclose
    -- the closing starts with no character that may follow the tag, so something stands before it
    obtain ⟨body, rfl⟩ : ∃ body', body = d :: body' := by
      cases body with
      | nil =>
        rw [hbody, hclose] at hd
        obtain rfl : '<' = d := (List.cons.inj hd).1
        exact absurd hin (by decide)
      | cons d' body =>
        rw [hbody] at hd
        exact ⟨body, by rw [(List.cons.inj hd).1]⟩
    refine ⟨_, rest, ?_, ⟨d, body, rfl, (hset d).1 hin⟩, ?_⟩
    · rw [hk, hbody, hclose]
      simp
    · simp only [Cursor.after_after]
  · rintro ⟨x, rest, hk, ⟨d, body, rfl, hd⟩, rfl⟩
    refine ⟨_, ⟨_, ⟨_, ⟨(d :: body) ++ (("</".toList ++ tag ++ ['>']) ++ rest), by rw [hk]; simp, rfl⟩,
      ⟨_, d, _, rfl, (hset d).2 hd, rfl⟩, rfl⟩, d :: body, ("</".toList ++ tag ++ ['>']) ++ rest, rfl, by simp [CharSet.has],
      by simp, rfl⟩, rest, rfl, ?_⟩
    simp only [Cursor.after_after]

theorem element_advances (tag : Text) (b : Bool) : (Pattern.element tag).Advances b := by
  intro k e he
  obtain ⟨x, rest, hk, ⟨d, body, rfl, -⟩, rfl⟩ := mem_ends_element.1 he
  rw [hk]
  simp
  omega

/-- no element is matched exactly if none stands in the text -/
theorem scan_element_eq_nil_iff {tag : Text} {b : Bool} {before : Option Char} {position : Nat} {t : Text} :
    (Pattern.element tag).scan b before position 0 t = [] ↔ ¬HasElement tag t := by
  rw [Pattern.scan_eq_nil_iff (element_advances tag b)]
  constructor
  · rintro hnone ⟨x, hx, u, rest, rfl⟩
    have hends := hnone u (x ++ rest) (by simp)
    exact absurd hends (List.ne_nil_of_mem (mem_ends_element.2 ⟨x, rest, rfl, hx, rfl⟩))
  · rintro h u v rfl
    refine List.eq_nil_iff_forall_not_mem.2 fun e he => h ?_
    obtain ⟨x, rest, hk, hx, -⟩ := mem_ends_element.1 he
    simp only at hk
    exact ⟨x, hx, u, rest, by rw [hk, List.append_assoc]⟩

/-- an element is matched exactly if one stands in the text -/
theorem element_occurs_iff (tag : Text) (b : Bool) (t : Text) :
    (Pattern.element tag).occurrences b t ≠ [] ↔ HasElement tag t := by
  rw [Pattern.occurrences, Ne, scan_element_eq_nil_iff, not_not]

/-- a navigation without elements stays as it is -/
theorem navigation_apply_of_no_element {s : Settings} {t : Text} {c : Component}
    (h : ¬HasElement s.navigationElement t) : (navigation s).apply t c = .ok t := by
  have hnil : (Pattern.element s.navigationElement).occurrences false t = [] :=
    not_not.1 fun hne => h ((element_occurs_iff _ _ _).1 hne)
  have hstep : (linkStep s.navigationElement).apply t c = .ok t := by
    simp only [Step.apply, linkStep, Splice.apply, afterLast, hnil, List.getLast?_nil]
  exact applySteps_cons.2 ⟨t, hstep, rfl⟩

theorem navigation_anchored_iff {s : Settings} {t : Text} :
    (navigation s).steps.all (·.isAnchored t) = true ↔ HasElement s.navigationElement t := by
  have hsteps : (navigation s).steps = [linkStep s.navigationElement] := rfl
  have hanchor : (linkStep s.navigationElement).anchor = Pattern.element s.navigationElement := rfl
  rw [← element_occurs_iff s.navigationElement true t, hsteps, List.all_cons, List.all_nil, Bool.and_true,
    isAnchored_iff, hanchor]

/-- **a text stays although an anchor is missing exactly if it is that of the navigation and has no element** -/
theorem resting_iff {s : Settings} {l : Listing} (hl : l ∈ all s) (t : Text) (c : Component) :
    (l.apply t c = .ok t ∧ ¬l.steps.all (·.isAnchored t) = true) ↔ l = navigation s ∧ ¬HasElement s.navigationElement t := by
  have hname : index s ≠ navigation s ∧ router s ≠ navigation s :=
    ⟨fun h => absurd (show "index".toList = "navigation".toList from congrArg Listing.name h) (by decide),
      fun h => absurd (show "router".toList = "navigation".toList from congrArg Listing.name h) (by decide)⟩
  simp only [all, List.mem_cons, List.not_mem_nil, or_false] at hl
  rcases hl with rfl | rfl | rfl
  · simp only [hname.1, false_and, iff_false, not_and, not_not]
    exact fun h => List.all_eq_true.2 (index_anchored h)
  · simp only [hname.2, false_and, iff_false, not_and, not_not]
    exact fun h => List.all_eq_true.2 (router_anchored h)
  · rw [navigation_anchored_iff]
    exact ⟨fun h => ⟨rfl, h.2⟩, fun h => ⟨navigation_apply_of_no_element h.2, h.2⟩⟩

end Listing

end Componentry
