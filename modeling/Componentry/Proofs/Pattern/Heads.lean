/-
What the insertion points of an index match, as texts.

- `mem_ends_constantList`: the head of a constant list is a `const` with its name up to the bracket, under any name.
- `mem_ends_anchor`: so is the head of the component list, and the head of the export list is an `export` up to the brace;
  either is a word of its own.
- `startsIn_fromClause`: what makes an export list one that exports from elsewhere.
-/
import Componentry.Proofs.Pattern.Ends
import Componentry.Proofs.Text.Blank
import Componentry.Listing

namespace Componentry

open Text

/-! ## Word edges -/

namespace Cursor

theorem atWordEdge_before {k : Cursor} {c : Char} {rest : Text} (h : k.rest = c :: rest) (hc : isWordChar c = true) :
    k.atWordEdge = true ↔ k.before.any isWordChar = false := by
  simp [atWordEdge, h, hc]

theorem atWordEdge_after {k : Cursor} {c : Char} (h : k.before = some c) (hc : isWordChar c = true) :
    k.atWordEdge = true ↔ k.rest.head?.any isWordChar = false := by
  simp [atWordEdge, h, hc]

end Cursor

namespace Index

/-- the two lists of an index -/
inductive ListKind where
  | components
  | exports
  deriving DecidableEq

namespace ListKind

/-- what opens a list -/
def anchor : ListKind → Pattern
  | components => .constantList "components".toList
  | exports => .exportList

/-- what closes a list -/
def closer : ListKind → Char
  | components => ']'
  | exports => '\x7d'

/-- what makes a list none, if it follows the closer -/
def reject : ListKind → Option Pattern
  | components => none
  | exports => some .fromClause

/-- the step that adds an entry to a list -/
def step : ListKind → Listing.Step
  | components => Listing.arrayStep "components".toList
  | exports => Listing.exportStep

end ListKind

/-- the head of the component list -/
def IsArrayHead (v : Text) : Prop :=
  ∃ s g s', v = ['c', 'o', 'n', 's', 't'] ++ s ++ ['c', 'o', 'm', 'p', 'o', 'n', 'e', 'n', 't', 's'] ++ g ++
    '=' :: s' ++ ['['] ∧ s ≠ [] ∧ Blanks s ∧ g.head?.any isWordChar = false ∧ (∀ c ∈ g, c ≠ '=' ∧ c ≠ '\n') ∧ Blanks s'

/-- the head of a constant list of a given name; where the name ends, a word starts or ends -/
def IsConstantHead (name v : Text) : Prop :=
  ∃ s g s', v = ['c', 'o', 'n', 's', 't'] ++ s ++ name ++ g ++ '=' :: s' ++ ['['] ∧ s ≠ [] ∧ Blanks s ∧
    name.getLast?.any isWordChar ≠ g.head?.any isWordChar ∧ (∀ c ∈ g, c ≠ '=' ∧ c ≠ '\n') ∧ Blanks s'

/-- the head of the export list -/
def IsExportHead (v : Text) : Prop := ∃ s, v = ['e', 'x', 'p', 'o', 'r', 't'] ++ s ++ ['\x7b'] ∧ Blanks s

/-- the head of a list -/
def IsHead : ListKind → Text → Prop
  | .components => IsArrayHead
  | .exports => IsExportHead

/-- the name of the component list ends in a letter -/
theorem isArrayHead_iff {v : Text} : IsArrayHead v ↔ IsConstantHead "components".toList v := by
  have hlast : "components".toList.getLast?.any isWordChar = true := by decide
  simp only [IsArrayHead, IsConstantHead, hlast, ne_eq, Bool.true_eq, Bool.not_eq_true]
  rfl

theorem mem_ends_constantList {name : Text} (hname : name ≠ []) {b : Bool} {k e : Cursor} :
    e ∈ (Pattern.constantList name).ends b k ↔
      ∃ v rest, k.rest = v ++ rest ∧ IsConstantHead name v ∧ k.before.any isWordChar = false ∧ e = k.after v rest := by
  -- what stands on either side of the edge behind the name
  have hbehind : ∀ (k : Cursor) (g : Text) {r : Text}, k.before = name.getLast? → k.rest = g ++ (['='] ++ r) →
      (k.atWordEdge = true ↔ name.getLast?.any isWordChar ≠ g.head?.any isWordChar) := by
    intro k g r hbefore hrest
    have hequals : isWordChar '=' = false := by decide
    rw [Cursor.atWordEdge, hbefore, hrest, bne_iff_ne]
    cases g with
    | nil => simp [hequals]
    | cons c g => rfl
  have hlast : ∀ before : Option Char, name.getLast?.or before = name.getLast? := by
    intro before
    rw [List.getLast?_eq_some_getLast hname, Option.some_or]
  simp only [Pattern.constantList, Pattern.mem_ends_andThen, Pattern.mem_ends_wordEdge, Pattern.mem_ends_text,
    Pattern.mem_ends_many]
  constructor
  · rintro ⟨m8, ⟨m7, ⟨m6, ⟨m5, ⟨m4, ⟨m3, ⟨m2, ⟨m1, ⟨hedge, rfl⟩, r1, h1, rfl⟩, s, r2, h2, hs, hne, rfl⟩, r3, h3, rfl⟩,
      hedge', rfl⟩, g, r4, h4, hg, -, rfl⟩, r5, h5, rfl⟩, s', r6, h6, hs', -, rfl⟩, rest, h7, rfl⟩
    simp only [Cursor.after_rest] at h2 h3 h4 h5 h6 h7
    subst h7 h6 h5 h4 h3 h2
    rw [Cursor.atWordEdge_before (c := 'c') h1 (by decide)] at hedge
    rw [hbehind _ g (by simp [hlast]) rfl] at hedge'
    refine ⟨_, rest, ?_, ⟨s, g, s', rfl, hne trivial, hs, hedge', ?_, hs'⟩, hedge, ?_⟩
    · rw [h1]
      simp
    · intro c hc
      simpa [CharSet.has] using hg c hc
    · simp [Cursor.after_after]
  · rintro ⟨v, rest, h, ⟨s, g, s', rfl, hne, hs, hhead, hg, hs'⟩, hedge, rfl⟩
    have h1 : k.rest = "const".toList ++ (s ++ (name ++ (g ++ (['='] ++ (s' ++ (['['] ++ rest)))))) := by
      rw [h]
      simp
    refine ⟨_, ⟨_, ⟨_, ⟨_, ⟨_, ⟨_, ⟨_, ⟨_, ⟨?_, rfl⟩, _, h1, rfl⟩, s, _, rfl, hs, fun _ => hne, rfl⟩, _, rfl, rfl⟩,
      ?_, rfl⟩, g, _, rfl, ?_, by simp, rfl⟩, _, rfl, rfl⟩, s', _, rfl, hs', by simp, rfl⟩, rest, rfl, ?_⟩
    · rwa [Cursor.atWordEdge_before (c := 'c') h1 (by decide)]
    · rwa [hbehind _ g (by simp [hlast]) rfl]
    · intro c hc
      simpa [CharSet.has] using hg c hc
    · simp [Cursor.after_after]

theorem mem_ends_exportList {b : Bool} {k e : Cursor} :
    e ∈ Pattern.exportList.ends b k ↔
      ∃ v rest, k.rest = v ++ rest ∧ IsExportHead v ∧ k.before.any isWordChar = false ∧ e = k.after v rest := by
  simp only [Pattern.exportList, Pattern.mem_ends_andThen, Pattern.mem_ends_wordEdge, Pattern.mem_ends_text,
    Pattern.mem_ends_many]
  constructor
  · rintro ⟨m3, ⟨m2, ⟨m1, ⟨hedge, rfl⟩, r1, h1, rfl⟩, s, r2, h2, hs, -, rfl⟩, rest, h3, rfl⟩
    simp only [Cursor.after_rest] at h2 h3
    subst h3 h2
    rw [Cursor.atWordEdge_before (c := 'e') h1 (by decide)] at hedge
    refine ⟨_, rest, ?_, ⟨s, rfl, hs⟩, hedge, ?_⟩
    · rw [h1]
      simp
    · simp [Cursor.after_after]
  · rintro ⟨v, rest, h, ⟨s, rfl, hs⟩, hedge, rfl⟩
    have h1 : k.rest = "export".toList ++ (s ++ (['\x7b'] ++ rest)) := by
      rw [h]
      simp
    refine ⟨_, ⟨_, ⟨_, ⟨?_, rfl⟩, _, h1, rfl⟩, s, _, rfl, hs, by simp, rfl⟩, rest, rfl, ?_⟩
    · rwa [Cursor.atWordEdge_before (c := 'e') h1 (by decide)]
    · simp [Cursor.after_after]

/-- a match of an anchor is a head that is a word of its own -/
theorem mem_ends_anchor {kind : ListKind} {b : Bool} {k e : Cursor} : e ∈ kind.anchor.ends b k ↔
    ∃ v rest, k.rest = v ++ rest ∧ IsHead kind v ∧ k.before.any isWordChar = false ∧ e = k.after v rest := by
  cases kind with
  | components =>
    simp only [IsHead, isArrayHead_iff]
    exact mem_ends_constantList (by decide)
  | exports => exact mem_ends_exportList

/-- what follows the closer of an export list that exports from elsewhere -/
def IsFromClause (t : Text) : Prop :=
  ∃ s r, t = s ++ ['f', 'r', 'o', 'm'] ++ r ∧ Blanks s ∧ r.head?.any isWordChar = false

theorem startsIn_fromClause {t : Text} : Pattern.fromClause.startsIn t = true ↔ IsFromClause t := by
  have hmem : Pattern.fromClause.startsIn t = true ↔ ∃ e, e ∈ Pattern.fromClause.ends false (.start t) := by
    unfold Pattern.startsIn
    cases Pattern.fromClause.ends false (.start t) with
    | nil => simp
    | cons e more => exact ⟨fun _ => ⟨e, List.mem_cons_self⟩, fun _ => rfl⟩
  rw [hmem]
  simp only [Pattern.fromClause, Pattern.mem_ends_andThen, Pattern.mem_ends_wordEdge, Pattern.mem_ends_text,
    Pattern.mem_ends_many]
  constructor
  · rintro ⟨e, m2, ⟨m1, ⟨s, r1, h1, hs, -, rfl⟩, r, h2, rfl⟩, hedge, rfl⟩
    simp only [Cursor.after_rest] at h2
    subst h2
    rw [Cursor.atWordEdge_after (c := 'm') (by simp) (by decide)] at hedge
    exact ⟨s, r, by simpa [Cursor.start] using h1, hs, hedge⟩
  · rintro ⟨s, r, rfl, hs, hedge⟩
    refine ⟨_, _, ⟨_, ⟨s, "from".toList ++ r, by simp [Cursor.start], hs, by simp, rfl⟩, r, rfl, rfl⟩, ?_, rfl⟩
    rwa [Cursor.atWordEdge_after (c := 'm') (by simp) (by decide)]

end Index

end Componentry
