/-
The constant list whose name is a setting, in a text that declares it once.

- `Declaration`: a text with one `const` in it, which declares a list under a name; the declaration may have an annotation.
- `Declaration.of_head`: the anchor of the list can match there alone, and does so if the name ends in a word character.
- `Declaration.listSpans_eq`: so this list is found, or none.

Main result: `arrayStep_declared_iff`. The anchor asks for the edge of a word behind the name. Behind a dollar sign at the
end of the name there is none.
-/
import Componentry.Proofs.Splice.Entries
import Componentry.Proofs.Splice.Lists

namespace Componentry.Index

open Text

/-! ## Identifiers -/

/-- a character of an identifier -/
def isIdentifierChar (c : Char) : Bool := Slug.isNameChar c || c = '_' || c = '$'

/-- an identifier over ASCII: letters, digits, underscores and dollar signs, and no digit in front -/
structure IsIdentifier (name : Text) : Prop where
  chars : ∀ c ∈ name, isIdentifierChar c = true
  starts : ∃ c rest, name = c :: rest ∧ isDigit c = false

theorem isBlank_of_isIdentifierChar {c : Char} (h : isIdentifierChar c = true) : isBlank c = false := by
  simp only [isIdentifierChar, Bool.or_eq_true, decide_eq_true_eq] at h
  rcases h with (h | rfl) | rfl
  · exact Slug.isBlank_of_isNameChar h
  · decide
  · decide

/-- all characters of an identifier but the dollar sign are word characters -/
theorem isWordChar_iff_of_isIdentifierChar {c : Char} (h : isIdentifierChar c = true) :
    isWordChar c = true ↔ c ≠ '$' := by
  have hdollar : isWordChar '$' = false := by decide
  simp only [isIdentifierChar, Bool.or_eq_true, decide_eq_true_eq] at h
  rcases h with (h | rfl) | rfl
  · refine iff_of_true (Slug.isWordChar_of_isNameChar h) ?_
    rintro rfl
    exact absurd h (by decide)
  · decide
  · simp [hdollar]

namespace IsIdentifier

variable {name : Text}

theorem ne_nil (h : IsIdentifier name) : name ≠ [] := by
  obtain ⟨c, rest, rfl, -⟩ := h.starts
  simp

/-- an identifier ends in a word character, or in a dollar sign -/
theorem any_getLast? (h : IsIdentifier name) : name.getLast?.any isWordChar = true ↔ name.getLast? ≠ some '$' := by
  obtain ⟨front, c, rfl⟩ := (List.eq_nil_or_concat' name).resolve_left h.ne_nil
  simpa using isWordChar_iff_of_isIdentifierChar (h.chars c (by simp))

end IsIdentifier

/-! ## Declarations -/

/-- the text up to the bracket of a list that is declared under a name -/
def opening (name annotation : Text) : Text :=
  ['c', 'o', 'n', 's', 't'] ++ [' '] ++ name ++ annotation ++ " = [".toList

/-- a text goes on with `const` behind a first part, as a word of its own -/
def ConstBehind (before t : Text) : Prop :=
  ∃ after, t = before ++ (['c', 'o', 'n', 's', 't'] ++ after) ∧ before.getLast?.any isWordChar = false ∧
    after.head?.any isWordChar = false

/-- it is enough to look at the places at which a text goes on with `const` -/
theorem ConstBehind.eq_of_cuts {u before t : Text} (hbefore : before <+: t)
    (hcuts : ∀ n < t.length, ['c', 'o', 'n', 's', 't'] <+: t.drop n → (t.take n).getLast?.any isWordChar = false →
      (t.drop (n + 5)).head?.any isWordChar = false → n = before.length) (h : ConstBehind u t) : u = before := by
  obtain ⟨after, rfl, hu, hafter⟩ := h
  have hlength : u.length = before.length := by
    refine hcuts u.length (by simp) ?_ ?_ ?_
    · rw [List.drop_left' rfl]
      exact ⟨after, rfl⟩
    · rwa [List.take_left' rfl]
    · rwa [← List.append_assoc, List.drop_left' (by simp)]
  exact (List.prefix_of_prefix_length_le ⟨_, rfl⟩ hbefore hlength.le).eq_of_length hlength

/-- a text that declares a list under a name and has no other `const`; a line start is a place apart -/
structure Declaration (name : Text) where
  before : Text
  annotation : Text
  body : Text
  after : Text
  apart : before.getLast?.any isWordChar = false
  annotated : annotation = [] ∨ annotation.head? = some ':'
  simple : '=' ∉ annotation ∧ '\n' ∉ annotation
  closed : ']' ∉ body
  alone : ∀ u, ConstBehind u (before ++ opening name annotation ++ body ++ ']' :: after) → u = before

namespace Declaration

variable {name : Text} (d : Declaration name)

/-- the text up to the body of the list -/
def head : Text := d.before ++ opening name d.annotation

/-- the text with another body in the list -/
def textWith (body : Text) : Text := d.head ++ body ++ ']' :: d.after

/-- the whole text -/
def text : Text := d.textWith d.body

/-- behind the name stands a colon or a space -/
theorem head?_annotation : (d.annotation ++ [' ']).head?.any isWordChar = false := by
  rcases d.annotated with h | h
  · rw [h]
    decide
  · obtain ⟨rest, hrest⟩ := List.head?_eq_some_iff.1 h
    rw [hrest, List.cons_append, List.head?_cons, Option.any_some]
    decide

/-- the declaration has the head that the anchor looks for, if an edge of a word is behind the name -/
theorem isConstantHead (hlast : name.getLast?.any isWordChar = true) : IsConstantHead name (opening name d.annotation) := by
  refine ⟨[' '], d.annotation ++ [' '], [' '], by simp [opening], by simp, by simp [Blanks]; decide, ?_, ?_,
    by simp [Blanks]; decide⟩
  · rw [hlast, d.head?_annotation]
    decide
  · intro c hc
    rcases List.mem_append.1 hc with hc | hc
    · exact ⟨fun h => d.simple.1 (h ▸ hc), fun h => d.simple.2 (h ▸ hc)⟩
    · rw [List.mem_singleton.1 hc]
      decide

variable {d}

/-- **such a head stands nowhere else** -/
theorem of_head (hname : IsIdentifier name) {u v rest : Text} (ht : d.text = u ++ (v ++ rest))
    (hv : IsConstantHead name v) (hu : u.getLast?.any isWordChar = false) :
    u = d.before ∧ v = opening name d.annotation ∧ name.getLast?.any isWordChar = true := by
  obtain ⟨s, g, s', rfl, hne, hs, hedge, hg, hs'⟩ := hv
  -- the head starts with the one `const` there is
  obtain rfl : u = d.before := by
    refine d.alone u ⟨s ++ name ++ g ++ '=' :: s' ++ ['['] ++ rest, ?_, hu, ?_⟩
    · rw [show d.before ++ opening name d.annotation ++ d.body ++ ']' :: d.after = d.text from rfl, ht]
      simp
    · obtain ⟨b, s, rfl⟩ := List.exists_cons_of_ne_nil hne
      simpa using isWordChar_of_isBlank (hs b List.mem_cons_self)
  obtain ⟨c, more, hc, -⟩ := hname.starts
  have hvisible : isBlank c = false := isBlank_of_isIdentifierChar (hname.chars c (by rw [hc]; simp))
  -- one space up to the name, and from there on the text is cut at its first equals sign and at the bracket
  have hcut : s ++ c :: (more ++ (g ++ '=' :: (s' ++ '[' :: rest))) =
      [' '] ++ c :: (more ++ ((d.annotation ++ [' ']) ++ '=' :: ([' '] ++ '[' :: (d.body ++ ']' :: d.after)))) := by
    subst hc
    simpa [text, textWith, head, opening] using ht.symm
  obtain ⟨rfl, -, hmore⟩ := append_cons_unique (P := fun c => isBlank c = false) (fun c hc => by simp [hs c hc]) hvisible
    (by decide) hvisible hcut
  obtain ⟨rfl, hbracket⟩ := append_cons_unique_of_notMem (fun hm => (hg _ hm).1 rfl)
    (by simpa using d.simple.1) (List.append_cancel_left hmore)
  obtain ⟨rfl, -⟩ := append_cons_unique_of_notMem (fun hm => absurd (hs' _ hm) (by decide)) (by decide) hbracket
  refine ⟨rfl, by simp [opening], ?_⟩
  rw [d.head?_annotation] at hedge
  simpa using hedge

/-! ## The list that is found -/

theorem constantList_advances (hname : name ≠ []) : (Pattern.constantList name).Advances false := by
  intro k e he
  obtain ⟨v, rest, hk, ⟨s, g, s', rfl, -⟩, -, rfl⟩ := (mem_ends_constantList hname).1 he
  simp only [hk, Cursor.after_rest, List.length_append, List.length_cons]
  omega

/-- the anchor matches the declaration alone, and that exactly if the name ends in a word character -/
theorem mem_occurrences (hname : IsIdentifier name) {m : Occurrence} :
    m ∈ (Pattern.constantList name).occurrences false d.text ↔
      name.getLast?.any isWordChar = true ∧ m = ⟨d.before.length, d.head.length, []⟩ := by
  have hsound : ∀ {m}, m ∈ (Pattern.constantList name).occurrences false d.text →
      name.getLast?.any isWordChar = true ∧ m = ⟨d.before.length, d.head.length, []⟩ := by
    intro m hm
    obtain ⟨u, y, e, more, ht, he, rfl⟩ := Pattern.occurrences_sound (constantList_advances hname.ne_nil) hm
    obtain ⟨v, rest, rfl, hv, hu, rfl⟩ :=
      (mem_ends_constantList hname.ne_nil).1 (by rw [he]; exact List.mem_cons_self)
    obtain ⟨rfl, rfl, hlast⟩ := of_head hname ht hv hu
    refine ⟨hlast, ?_⟩
    simp [Pattern.found, head]
  refine ⟨hsound, ?_⟩
  rintro ⟨hlast, rfl⟩
  have hends : (Pattern.constantList name).ends false
      ⟨d.before.getLast?, opening name d.annotation ++ (d.body ++ ']' :: d.after), []⟩ ≠ [] :=
    List.ne_nil_of_mem ((mem_ends_constantList hname.ne_nil).2
      ⟨_, _, rfl, d.isConstantHead hlast, d.apart, rfl⟩)
  obtain ⟨m, hm, -⟩ := Pattern.occurrences_covers (constantList_advances hname.ne_nil) hends
  have htext : d.before ++ (opening name d.annotation ++ (d.body ++ ']' :: d.after)) = d.text := by
    simp [text, textWith, head]
  rw [htext] at hm
  rwa [(hsound hm).2] at hm

theorem before_lt_head (d : Declaration name) : d.before.length < d.head.length := by
  simp only [head, opening, List.length_append, List.length_cons]
  omega

/-- **the list is found, and no other; or none is, if the name ends in a dollar sign** -/
theorem listSpans_eq (hname : IsIdentifier name) :
    Splice.listSpans d.text (.constantList name) [']'] none =
      if name.getLast? = some '$' then [] else [⟨d.head.length, d.head.length + d.body.length⟩] := by
  have hmem : ∀ m, m ∈ (Pattern.constantList name).occurrences false d.text ↔
      name.getLast? ≠ some '$' ∧ m = ⟨d.before.length, d.head.length, []⟩ := by
    intro m
    rw [mem_occurrences hname, hname.any_getLast?]
  split_ifs with hlast
  · rw [Splice.listSpans, List.eq_nil_iff_forall_not_mem.2 fun m hm => ((hmem m).1 hm).1 hlast, List.filterMap_nil]
  · -- matches do not overlap, and this one is not empty
    have hnodup : ((Pattern.constantList name).occurrences false d.text).Nodup := by
      refine (Pattern.occurrences_sorted (constantList_advances hname.ne_nil) _).imp_of_mem fun {a b} ha _ hab => ?_
      rintro rfl
      rw [((hmem a).1 ha).2] at hab
      exact absurd d.before_lt_head (not_lt.2 hab)
    have hone : (Pattern.constantList name).occurrences false d.text = [⟨d.before.length, d.head.length, []⟩] :=
      List.perm_singleton.1 ((List.perm_ext_iff_of_nodup hnodup (List.nodup_singleton _)).2 fun m => by
        rw [hmem, List.mem_singleton, and_iff_right hlast])
    have hclose : indexFrom? [']'] d.text d.head.length = some (d.head.length + d.body.length) := by
      have htext : d.text = d.head ++ (d.body ++ ']' :: d.after) := List.append_assoc _ _ _
      rw [htext]
      exact indexFrom?_singleton.2 ⟨d.body, d.after, rfl, d.closed, rfl⟩
    simp [Splice.listSpans, hone, hclose, Splice.given?]

end Declaration

/-- **The entry of a component goes into the list under the name that is set, as the only change, unless it is one of the
items; where the name ends in a dollar sign, the list is not found.** -/
theorem arrayStep_declared_iff (s : Settings) (hname : IsIdentifier s.componentsListName)
    (d : Declaration s.componentsListName) (c : Component) :
    ((∃ t, (Listing.arrayStep s.componentsListName).apply d.text c = .ok t) ↔
        s.componentsListName.getLast? ≠ some '$') ∧
      (∀ t, (Listing.arrayStep s.componentsListName).apply d.text c = .ok t →
        (c.pascalName ∈ Splice.items d.body → t = d.text) ∧
          (c.pascalName ∉ Splice.items d.body → ∃ body, t = d.textWith body ∧
            body = Splice.appendEntry (.ofContent d.text) d.body c.pascalName ∧
              Splice.items body = Splice.items d.body ++ Splice.items c.pascalName)) ∧
      ∀ fault, (Listing.arrayStep s.componentsListName).apply d.text c = .error fault →
        fault = .noList (.constantList s.componentsListName) := by
  have hspans := d.listSpans_eq hname
  have hstep : (Listing.arrayStep s.componentsListName).apply d.text c =
      Splice.intoList (.constantList s.componentsListName) [']'] none d.text c.pascalName := rfl
  rw [hstep]
  by_cases hlast : s.componentsListName.getLast? = some '$'
  · rw [if_pos hlast] at hspans
    have herror : Splice.intoList (.constantList s.componentsListName) [']'] none d.text c.pascalName =
        .error (.noList (.constantList s.componentsListName)) := by
      rw [Splice.intoList, hspans]
    rw [herror]
    simp [hlast]
  · rw [if_neg hlast] at hspans
    have hok : Splice.intoList (.constantList s.componentsListName) [']'] none d.text c.pascalName =
        .ok (d.textWith (entered (.ofContent d.text) d.body c.pascalName)) :=
      intoList_of_listSpans hspans c.pascalName
    rw [hok]
    refine ⟨iff_of_true ⟨_, rfl⟩ hlast, ?_, by simp⟩
    rintro t ht
    obtain rfl := Except.ok.inj ht
    constructor
    · intro hin
      rw [entered, if_pos hin]
      rfl
    · intro hin
      refine ⟨_, rfl, ?_, ?_⟩
      · rw [entered, if_neg hin]
      · rw [entered, if_neg hin]
        exact Splice.items_appendEntry_eq _ _ _

/-- a list with an annotation, under a name with a dollar sign in front, in a text that has `const` in other words -/
theorem arrayStep_declared_dollar_in_front :
    let s := { Settings.standard ⟨.here, []⟩ with componentsListName := "$list_2".toList }
    let c : Component := ⟨"date-picker".toList, "Title".toList, [], []⟩
    ∃ d : Declaration s.componentsListName,
      d.text = "// constants\nconst $list_2: Plugin<[A]> = [ A, B ]\nreconst()\n".toList ∧
      IsIdentifier s.componentsListName ∧ s.componentsListName.getLast? ≠ some '$' ∧
      (Listing.arrayStep s.componentsListName).apply d.text c =
        .ok "// constants\nconst $list_2: Plugin<[A]> = [ A, B, DatePicker ]\nreconst()\n".toList := by
  intro s c
  have hname : IsIdentifier s.componentsListName := ⟨by decide, '$', _, rfl, by decide⟩
  have hlast : s.componentsListName.getLast? ≠ some '$' := by decide
  let d : Declaration s.componentsListName :=
    { before := "// constants\n".toList
      annotation := ": Plugin<[A]>".toList
      body := " A, B ".toList
      after := "\nreconst()\n".toList
      apart := by decide
      annotated := by decide
      simple := by decide
      closed := by decide
      alone := fun u hu => hu.eq_of_cuts (by decide +kernel) (by decide +kernel) }
  obtain ⟨hsome, hwhich, -⟩ := arrayStep_declared_iff s hname d c
  obtain ⟨t, ht⟩ := hsome.2 hlast
  obtain ⟨body, rfl, rfl, -⟩ := (hwhich t ht).2 (by decide +kernel)
  exact ⟨d, by decide +kernel, hname, hlast, ht.trans (congrArg Except.ok (by decide +kernel))⟩

/-- the list `items$` is not found, although it is declared -/
theorem arrayStep_not_found :
    let c : Component := ⟨"card".toList, "Card".toList, [], []⟩
    IsIdentifier "items$".toList ∧ ∃ d : Declaration "items$".toList, d.text = "const items$ = []\n".toList ∧
      (Listing.arrayStep "items$".toList).apply d.text c = .error (.noList (.constantList "items$".toList)) := by
  intro c
  refine ⟨⟨by decide, 'i', _, rfl, by decide⟩, ?_⟩
  let d : Declaration "items$".toList :=
    { before := []
      annotation := []
      body := []
      after := "\n".toList
      apart := rfl
      annotated := Or.inl rfl
      simple := by decide
      closed := by decide
      alone := fun u hu => hu.eq_of_cuts (by decide) (by decide +kernel) }
  refine ⟨d, rfl, ?_⟩
  have hnone : Splice.listSpans d.text (.constantList "items$".toList) [']'] none = [] := by decide +kernel
  have hstep : (Listing.arrayStep "items$".toList).apply d.text c =
      Splice.intoList (.constantList "items$".toList) [']'] none d.text c.pascalName := rfl
  rw [hstep, Splice.intoList, hnone]

end Componentry.Index
