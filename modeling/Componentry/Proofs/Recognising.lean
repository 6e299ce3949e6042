/-
The import blocks that an index may have, as they are written, and that the import step takes every one of them.

What stands between two statements is looked at line by line, and a line is more to that look than to the pattern of a
statement: any of a dozen characters ends one. So a comment may hold none of these, while white space may hold them all.
- `Statement`, `Spacer`, `Gap`, `Block`: the grammar. A statement may go over several lines, and its names may hold any
  word, also the one before the source.
- `Statement.isImport`: a statement is an import from its start to its end, and by `IsImport.unique` it is matched so.
- `Gap.allGaps`, `Gap.noInitial`: what stands between two statements parts no block and starts no import.
- `scan_followers`: behind a statement exactly the statements of the block are matched, one after the other.
- `Block.endsBlock`: a text that ends with a block is one to which an import can be added.

Main result: `Block.recognised`.
-/
import Componentry.Proofs.Splice.Blocks
import Componentry.Proofs.Splice.Elements

namespace Componentry.Index

open Text

/-! ## Statements -/

/-- what an import binds, with the word that leads to its source: names that may go over several lines -/
structure Bindings where
  names : Text
  before : Text
  behind : Text
  named : names ≠ []
  plain : ∀ c ∈ names, c ≠ ';' ∧ ¬IsQuote c
  parted : before ≠ []
  blank_before : Blanks before
  blank_behind : Blanks behind

/-- the written form of what an import binds -/
def Bindings.text (b : Bindings) : Text := b.names ++ b.before ++ ['f', 'r', 'o', 'm'] ++ b.behind

/-- an import statement, one that binds names or one that is there for its effects -/
structure Statement where
  gap : Text
  bindings : Option Bindings
  quote : Char
  source : Text
  semicolon : Bool
  trail : Text
  opened : gap ≠ []
  blank_gap : Blanks gap
  quoted : IsQuote quote
  sourced : source ≠ []
  inside : ∀ c ∈ source, ¬IsQuote c ∧ c ≠ '\r' ∧ c ≠ '\n'
  blank_trail : ∀ c ∈ trail, c = ' ' ∨ c = '\t'

namespace Statement

/-- the written form of a statement, up to the end of its line -/
def text (w : Statement) : Text :=
  ['i', 'm', 'p', 'o', 'r', 't'] ++ w.gap ++ (w.bindings.map Bindings.text).getD [] ++ w.quote :: w.source ++
    w.quote :: (if w.semicolon then [';'] else []) ++ w.trail

/-- the match of a statement that starts at a position -/
def occurrence (w : Statement) (position : Nat) : Occurrence :=
  ⟨position, position + w.text.length, [(.source, w.source), (.quote, [w.quote])]⟩

/-- **a statement is an import** -/
theorem isImport (w : Statement) : IsImport w.text w.quote w.source := by
  refine ⟨w.gap, _, _, w.trail, rfl, w.opened, w.blank_gap, ?_, w.quoted, w.sourced, w.inside, ?_, w.blank_trail⟩
  · cases w.bindings with
    | none => exact Or.inl rfl
    | some b =>
      refine Or.inr ⟨b.names ++ b.before, b.behind, rfl, ?_, ?_, b.blank_behind⟩
      · refine List.forall_mem_append.2 ⟨b.plain, fun c hc => ⟨?_, not_isQuote_of_isBlank (b.blank_before c hc)⟩⟩
        rintro rfl
        exact absurd (b.blank_before _ hc) (by decide)
      · -- the word before the source stands behind white space
        obtain ⟨front, c, hc⟩ := (List.eq_nil_or_concat' b.before).resolve_left b.parted
        rw [← List.append_assoc, hc, ← List.append_assoc, List.getLast?_concat]
        exact isWordChar_of_isBlank (b.blank_before c (by rw [hc]; simp))
  · cases w.semicolon
    · exact Or.inl rfl
    · exact Or.inr rfl

theorem text_ne_nil (w : Statement) : w.text ≠ [] := by
  simp [text]

/-- what follows a statement stands behind its last character -/
theorem getLast?_or (w : Statement) (line : Option Char) : w.text.getLast?.or line = w.text.getLast? := by
  obtain ⟨d, hd⟩ := Option.isSome_iff_exists.1 (List.getLast?_isSome.2 w.text_ne_nil)
  rw [hd, Option.some_or]

theorem sourceOf? (w : Statement) : Splice.sourceOf? w.text = some w.source := w.isImport.sourceOf?

end Statement

/-! ## What stands between two statements -/

/-- white space, also over several lines, or a line comment behind it, and the end of the line -/
structure Spacer where
  lead : Text
  comment : Option Text
  newline : Newline
  blank : Blanks lead
  unbroken : ∀ rest ∈ comment, ∀ c ∈ rest, isLineBreak c = false

/-- the written form of a comment -/
def commentText (comment : Option Text) : Text := (comment.map fun rest => '/' :: '/' :: rest).getD []

theorem Spacer.unbroken_comment (s : Spacer) {rest : Text} (h : s.comment = some rest) :
    ∀ c ∈ commentText (some rest), isLineBreak c = false :=
  List.forall_mem_cons.2 ⟨by decide, List.forall_mem_cons.2 ⟨by decide, s.unbroken rest (by rw [h]; rfl)⟩⟩

/-- the written form of a spacer -/
def Spacer.text (s : Spacer) : Text := s.lead ++ commentText s.comment ++ s.newline.text

/-- the end of a statement's line, and what stands between it and the next statement -/
structure Gap where
  newline : Newline
  spacers : List Spacer

/-- the written form of a gap -/
def Gap.text (g : Gap) : Text := g.newline.text ++ g.spacers.flatMap Spacer.text

/-- a text whose lines part no block -/
def AllGaps (t : Text) : Prop := ∀ line ∈ lines t, Splice.isBlockGap line = true

theorem allGaps_nil : AllGaps [] := by simp [AllGaps, lines]

theorem isBlockGap_cons {c : Char} (hc : isBlank c = true) (line : Text) :
    Splice.isBlockGap (c :: line) = Splice.isBlockGap line := by
  have htrim : trim (c :: line) = trim line := trim_blanks_append (b := [c]) (by simpa [Blanks] using hc)
  rw [Splice.isBlockGap, Splice.isBlockGap, htrim]

/-- the lines of a text that goes on behind a character, unless that is half of a line ending -/
theorem lines_cons {c : Char} {t : Text} (h : c = '\r' → t.head? ≠ some '\n') : lines (c :: t) =
    if isLineBreak c then [] :: lines t else (c :: (lines t).head?.getD []) :: (lines t).tail := by
  rw [lines]
  · cases lines t <;> rfl
  · rintro rest rfl rfl
    exact h rfl rfl

/-- white space parts no block, whatever lines it makes -/
theorem AllGaps.cons {c : Char} {t : Text} (hc : isBlank c = true) (ht : AllGaps t) : AllGaps (c :: t) := by
  have hnil : Splice.isBlockGap [] = true := by decide
  by_cases hhalf : c = '\r' ∧ t.head? = some '\n'
  · obtain ⟨rfl, rest, rfl⟩ : c = '\r' ∧ ∃ rest, t = '\n' :: rest := ⟨hhalf.1, List.head?_eq_some_iff.1 hhalf.2⟩
    exact ht
  · rw [AllGaps, lines_cons fun hr hn => hhalf ⟨hr, hn⟩]
    split_ifs
    · exact List.forall_mem_cons.2 ⟨hnil, ht⟩
    · refine List.forall_mem_cons.2 ⟨?_, fun line hline => ht line (List.mem_of_mem_tail hline)⟩
      rw [isBlockGap_cons hc]
      cases hlines : lines t with
      | nil => exact hnil
      | cons line more => exact ht line (by rw [hlines]; exact List.mem_cons_self)

theorem AllGaps.append {b t : Text} (hb : Blanks b) (ht : AllGaps t) : AllGaps (b ++ t) := by
  induction b with
  | nil => exact ht
  | cons c b ih => exact (ih fun d hd => hb d (List.mem_cons_of_mem _ hd)).cons (hb c List.mem_cons_self)

/-- a text without line ends is one line, whatever ends it -/
theorem lines_line {x : Text} (hx : ∀ c ∈ x, isLineBreak c = false) (newline : Newline) (t : Text) :
    lines (x ++ newline.text ++ t) = x :: lines t := by
  induction x with
  | nil => cases newline <;> rfl
  | cons c x ih =>
    obtain ⟨hc, hx⟩ := List.forall_mem_cons.1 hx
    have hreturn : c ≠ '\r' := by
      rintro rfl
      exact absurd hc (by decide)
    rw [List.cons_append, List.cons_append, lines_cons fun h => absurd h hreturn, ih hx, if_neg (by simp [hc])]
    rfl

theorem isBlockGap_comment (rest : Text) : Splice.isBlockGap ('/' :: '/' :: rest) = true := by
  obtain ⟨b, hb, hblank, -⟩ := exists_trimEnd ('/' :: '/' :: rest)
  have htrim : trim ('/' :: '/' :: rest) = trimEnd ('/' :: '/' :: rest) := by rw [trim, trimStart_cons (by decide)]
  rw [Splice.isBlockGap, htrim, Bool.or_eq_true]
  refine Or.inr ?_
  -- the slashes are not among the blanks that are trimmed
  generalize trimEnd ('/' :: '/' :: rest) = front at hb
  cases front with
  | nil => exact absurd (hblank '/' (by rw [← List.nil_append b, ← hb]; simp)) (by decide)
  | cons c front =>
    rw [List.cons_append, List.cons.injEq] at hb
    obtain ⟨rfl, htail⟩ := hb
    cases front with
    | nil => exact absurd (hblank '/' (by rw [← List.nil_append b, ← htail]; simp)) (by decide)
    | cons d front =>
      rw [List.cons_append, List.cons.injEq] at htail
      rw [← htail.1]
      rfl

theorem blanks_newline (newline : Newline) : Blanks newline.text := by
  cases newline <;> (unfold Blanks; decide)

/-- a spacer parts no block -/
theorem Spacer.allGaps (s : Spacer) {t : Text} (ht : AllGaps t) : AllGaps (s.text ++ t) := by
  rw [Spacer.text, List.append_assoc, List.append_assoc]
  refine AllGaps.append s.blank ?_
  cases hcomment : s.comment with
  | none => exact AllGaps.append (b := s.newline.text) (blanks_newline s.newline) ht
  | some rest =>
    rw [AllGaps, ← List.append_assoc, lines_line (s.unbroken_comment hcomment)]
    exact List.forall_mem_cons.2 ⟨isBlockGap_comment rest, ht⟩

/-- **what stands between two statements parts no block** -/
theorem Gap.allGaps (g : Gap) : AllGaps g.text := by
  refine AllGaps.append (blanks_newline g.newline) ?_
  induction g.spacers with
  | nil => exact allGaps_nil
  | cons s spacers ih => exact s.allGaps ih

/-! ## Texts without imports -/

/-- a text in which no line starts with the word of an import and white space, the end of its line included -/
def NoImportLine (t : Text) : Prop :=
  ∀ u c v, t = u ++ ['i', 'm', 'p', 'o', 'r', 't'] ++ c :: v → isBlank c = true → u ≠ [] ∧ u.getLast? ≠ some '\n'

/-- a text in which no line starts with the first letter of an import -/
def NoInitial (t : Text) : Prop := ∀ u v, t = u ++ 'i' :: v → u ≠ [] ∧ u.getLast? ≠ some '\n'

theorem noInitial_of_notMem {t : Text} (h : 'i' ∉ t) : NoInitial t := by
  rintro u v rfl
  exact absurd (by simp) h

theorem NoInitial.append {a b : Text} (ha : NoInitial a) (hb : NoInitial b) : NoInitial (a ++ b) := by
  intro u v h
  rcases List.append_eq_append_iff.1 h with ⟨x, rfl, hx⟩ | ⟨x, rfl, hx⟩
  · obtain ⟨hne, hlast⟩ := hb x v hx
    exact ⟨List.append_ne_nil_of_right_ne_nil _ hne, by rwa [List.getLast?_append_of_ne_nil _ hne]⟩
  · cases x with
    | nil => exact absurd rfl (hb [] v hx.symm).1
    | cons c x =>
      obtain ⟨rfl, -⟩ := List.cons.inj hx
      exact ha u x rfl

theorem NoInitial.noImportLine {t : Text} (h : NoInitial t) : NoImportLine t := by
  rintro u c v rfl -
  exact h u (['m', 'p', 'o', 'r', 't'] ++ c :: v) (by simp)

theorem initial_notMem_blanks {b : Text} (hb : Blanks b) : 'i' ∉ b := fun hm => absurd (hb _ hm) (by decide)

theorem Spacer.noInitial (s : Spacer) : NoInitial s.text := by
  have hnewline := noInitial_of_notMem (initial_notMem_blanks (blanks_newline s.newline))
  refine ((noInitial_of_notMem (initial_notMem_blanks s.blank)).append ?_).append hnewline
  cases hcomment : s.comment with
  | none => exact noInitial_of_notMem (by simp [commentText])
  | some rest =>
    have hunbroken := s.unbroken_comment hcomment
    intro u v h
    rw [h] at hunbroken
    refine ⟨?_, fun hlast => absurd (hunbroken '\n' (by simp [List.mem_of_getLast? hlast])) (by decide)⟩
    rintro rfl
    exact absurd (List.cons.inj h).1 (by decide)

/-- no import starts in what stands between two statements -/
theorem Gap.noInitial (g : Gap) : NoInitial g.text := by
  refine (noInitial_of_notMem (initial_notMem_blanks (blanks_newline g.newline))).append ?_
  induction g.spacers with
  | nil => exact noInitial_of_notMem (by simp)
  | cons s spacers ih => exact s.noInitial.append ih

/-- and the next statement starts a line -/
theorem Gap.getLast?_text (g : Gap) : g.text.getLast? = some '\n' := by
  rcases List.eq_nil_or_concat' g.spacers with hnil | ⟨spacers, s, hs⟩
  · rw [Gap.text, hnil, List.flatMap_nil, List.append_nil, getLast?_newline]
  · have htext : g.text = g.newline.text ++ spacers.flatMap Spacer.text ++ s.lead ++ commentText s.comment ++
        s.newline.text := by
      rw [Gap.text, hs, List.flatMap_append, List.flatMap_singleton, Spacer.text]
      simp
    rw [htext, List.getLast?_append, getLast?_newline]
    rfl

theorem IsImport.opens {m source : Text} {q : Char} (h : IsImport m q source) :
    ∃ c z, m = ['i', 'm', 'p', 'o', 'r', 't'] ++ [c] ++ z ∧ isBlank c = true := by
  obtain ⟨s, mid, semi, bl, rfl, hne, hs, -⟩ := h
  obtain ⟨c, s, rfl⟩ := List.exists_cons_of_ne_nil hne
  exact ⟨c, s ++ mid ++ q :: source ++ q :: semi ++ bl, by simp, hs c List.mem_cons_self⟩

theorem NoImportLine.silent {t : Text} (h : NoImportLine t) : Silent t := by
  rintro u m q source rest rfl hm -
  obtain ⟨c, z, rfl, hc⟩ := hm.opens
  exact (h (u ++ ['\n']) c (z ++ rest) (by simp) hc).2 (by simp)

/-- no import is matched from a place in lines that start none, whatever follows them -/
theorem NoImportLine.ends_eq_nil {x u v : Text} (h : NoImportLine x) (hlast : x.getLast? = some '\n') (hx : x = u ++ v)
    (hv : v ≠ []) (before : Option Char) (y : Text) :
    Pattern.importStatement.ends true ⟨u.getLast?.or before, v ++ y, []⟩ = [] := by
  rw [ends_import_eq_nil]
  rintro hline m q source rest heq hm -
  obtain ⟨c, z, rfl, hc⟩ := hm.opens
  have hend : v.getLast? = some '\n' := by rwa [hx, List.getLast?_append_of_ne_nil _ hv] at hlast
  -- the word and its white space stand in the lines, as these end in a line feed
  obtain ⟨a, rfl⟩ : ∃ a, v = ['i', 'm', 'p', 'o', 'r', 't'] ++ [c] ++ a := by
    rw [List.append_assoc _ z] at heq
    rcases List.append_eq_append_iff.1 heq with ⟨a, ha, -⟩ | ⟨a, ha, -⟩
    · rcases List.eq_nil_or_concat' a with rfl | ⟨a, d, rfl⟩
      · exact ⟨[], by rw [ha]; simp⟩
      · rw [← List.append_assoc] at ha
        have hin : '\n' ∈ ['i', 'm', 'p', 'o', 'r', 't'] := by
          rw [(List.append_inj' ha rfl).1]
          simp [List.mem_of_getLast? hend]
        exact absurd hin (by decide)
    · exact ⟨a, ha⟩
  obtain ⟨hne, hnot⟩ := h u c a (by rw [hx]; simp) hc
  obtain ⟨d, hd⟩ := Option.isSome_iff_exists.1 (List.getLast?_isSome.2 hne)
  rw [hd, Option.some_or] at hline
  rcases hline with hline | hline
  · simp at hline
  · exact hnot (hd.trans hline)

/-- the scan goes on behind lines that start no import -/
theorem NoImportLine.scan {x : Text} (h : NoImportLine x) (hlast : x.getLast? = some '\n') (before : Option Char)
    (position : Nat) (y : Text) : Pattern.importStatement.scan true before position 0 (x ++ y) =
      Pattern.importStatement.scan true (some '\n') (position + x.length) 0 y := by
  rw [Pattern.scan_append_none fun u v hx hv => h.ends_eq_nil hlast hx hv before y, hlast, Option.some_or]

/-! ## Blocks as they are written -/

/-- a block: a statement, and those that follow it -/
structure Block where
  first : Statement
  more : List (Gap × Statement)

/-- what follows a statement in its block -/
def moreText (more : List (Gap × Statement)) : Text := more.flatMap fun next => next.1.text ++ next.2.text

/-- the matches of the statements that follow a statement which ends at a position -/
def followers (position : Nat) : List (Gap × Statement) → List Occurrence
  | [] => []
  | (gap, next) :: more =>
    next.occurrence (position + gap.text.length) :: followers (position + gap.text.length + next.text.length) more

namespace Block

/-- the written form of a block -/
def text (b : Block) : Text := b.first.text ++ moreText b.more

/-- the statements of a block -/
def statements (b : Block) : List Statement := b.first :: b.more.map (·.2)

/-- the matches of the statements of a block that starts at a position -/
def places (b : Block) (position : Nat) : List Occurrence :=
  b.first.occurrence position :: followers (position + b.first.text.length) b.more

end Block

section Followers

variable {after : Text} (hafter : EndsLine after)
include hafter

theorem endsLine_moreText (more : List (Gap × Statement)) : EndsLine (moreText more ++ after) := by
  cases more with
  | nil => exact hafter
  | cons next more =>
    have htext : moreText (next :: more) ++ after = next.1.newline.text ++ (next.1.spacers.flatMap Spacer.text ++
        next.2.text ++ moreText more ++ after) := by
      simp [moreText, Gap.text]
    rw [htext]
    exact endsLine_newline _ _

/-- **behind a statement the statements of the block are matched, one after the other** -/
theorem scan_followers (hsilent : Silent after) (w : Statement) (more : List (Gap × Statement)) (position : Nat) :
    Pattern.importStatement.scan true w.text.getLast? position 0 (moreText more ++ after) = followers position more := by
  induction more generalizing w position with
  | nil => exact scan_silent [] w.isImport hsilent position
  | cons next more ih =>
    obtain ⟨gap, next⟩ := next
    have htext : moreText ((gap, next) :: more) ++ after = gap.text ++ (next.text ++ (moreText more ++ after)) := by
      simp [moreText]
    have hhere := here_import next.isImport (Or.inr rfl) (endsLine_moreText hafter more) (position + gap.text.length)
    rw [htext, gap.noInitial.noImportLine.scan gap.getLast?_text, Pattern.scan_append_here next.text_ne_nil hhere rfl,
      next.getLast?_or, ih next]
    rfl

end Followers

/-- the matches behind a statement have the texts of the statements there -/
theorem textIn_followers (x y : Text) (more : List (Gap × Statement)) :
    (followers x.length more).map (·.textIn (x ++ moreText more ++ y)) = more.map (·.2.text) := by
  induction more generalizing x with
  | nil => rfl
  | cons next more ih =>
    obtain ⟨gap, next⟩ := next
    have htext : x ++ moreText ((gap, next) :: more) ++ y = x ++ gap.text ++ next.text ++ moreText more ++ y := by
      simp [moreText]
    have hlen : x.length + gap.text.length = (x ++ gap.text).length := List.length_append.symm
    have hlen' : (x ++ gap.text).length + next.text.length = (x ++ gap.text ++ next.text).length :=
      List.length_append.symm
    rw [followers, htext, hlen, hlen', List.map_cons, ih, List.map_cons, Statement.occurrence, hlen', List.append_assoc _ _ y,
      Listing.textIn_between]

theorem sources_followers (position : Nat) (more : List (Gap × Statement)) :
    (followers position more).filterMap (·.part? .source) = more.map (·.2.source) := by
  induction more generalizing position with
  | nil => rfl
  | cons next more ih =>
    obtain ⟨gap, next⟩ := next
    rw [followers, List.filterMap_cons, ih]
    rfl

/-- **between the matches of a block stand only gaps** -/
theorem chain_followers (x y : Text) (w : Statement) (more : List (Gap × Statement)) :
    (w.occurrence x.length :: followers (x.length + w.text.length) more).IsChain fun a b =>
      Splice.sameBlock (x ++ w.text ++ moreText more ++ y) a b = true := by
  induction more generalizing x w with
  | nil => exact List.IsChain.singleton _
  | cons next more ih =>
    obtain ⟨gap, next⟩ := next
    have htext : x ++ w.text ++ moreText ((gap, next) :: more) ++ y =
        x ++ w.text ++ gap.text ++ next.text ++ moreText more ++ y := by
      simp [moreText]
    have hlen : x.length + w.text.length + gap.text.length = (x ++ w.text ++ gap.text).length := by
      simp [Nat.add_assoc]
    have hbetween : slice (x ++ w.text ++ gap.text ++ next.text ++ moreText more ++ y) (x.length + w.text.length)
        (x ++ w.text ++ gap.text).length = gap.text := by
      rw [show x.length + w.text.length = (x ++ w.text).length by simp,
        show x ++ w.text ++ gap.text ++ next.text ++ moreText more ++ y =
          x ++ w.text ++ gap.text ++ (next.text ++ moreText more ++ y) by simp]
      exact Listing.textIn_between (x ++ w.text) gap.text _ []
    rw [followers, htext, hlen]
    refine List.isChain_cons_cons.2 ⟨?_, ih (x ++ w.text ++ gap.text) next⟩
    change (lines (slice _ (x.length + w.text.length) (x ++ w.text ++ gap.text).length)).all Splice.isBlockGap = true
    rw [hbetween]
    exact List.all_eq_true.2 gap.allGaps

/-- the last match of a block ends where the block does -/
theorem getLast?_followers (w : Statement) (more : List (Gap × Statement)) (position : Nat) :
    ∃ o, (w.occurrence position :: followers (position + w.text.length) more).getLast? = some o ∧
      o.stop = position + w.text.length + (moreText more).length := by
  induction more generalizing w position with
  | nil => exact ⟨_, rfl, rfl⟩
  | cons next more ih =>
    obtain ⟨gap, next⟩ := next
    obtain ⟨o, ho, hstop⟩ := ih next (position + w.text.length + gap.text.length)
    refine ⟨o, by rw [followers, List.getLast?_cons_cons, ho], ?_⟩
    rw [hstop]
    simp [moreText]
    omega

namespace Block

variable {before after : Text} (b : Block)

/-- **the imports of a text are the statements of its block** -/
theorem imports_eq (hbefore : before = [] ∨ before.getLast? = some '\n') (hafter : EndsLine after)
    (hquiet : NoImportLine before) (hsilent : Silent after) :
    imports (before ++ b.text ++ after) = b.places before.length := by
  have hhere : ∀ line : Option Char, line = none ∨ line = some '\n' → ∀ position,
      Pattern.importStatement.scan true line position 0 (b.first.text ++ (moreText b.more ++ after)) =
        b.places position := by
    intro line hline position
    rw [Pattern.scan_append_here b.first.text_ne_nil
      (here_import b.first.isImport hline (endsLine_moreText hafter b.more) position) rfl, b.first.getLast?_or,
      scan_followers hafter hsilent]
    rfl
  rw [imports, Pattern.occurrences, text, List.append_assoc, List.append_assoc]
  rcases hbefore with rfl | hlast
  · exact hhere none (Or.inl rfl) 0
  · rw [hquiet.scan hlast, hhere _ (Or.inr rfl), Nat.zero_add]

theorem texts_places (before after : Text) :
    (b.places before.length).map (·.textIn (before ++ b.text ++ after)) = b.statements.map (·.text) := by
  have htext : before ++ b.text ++ after = before ++ b.first.text ++ moreText b.more ++ after := by simp [text]
  have hlen : before.length + b.first.text.length = (before ++ b.first.text).length := List.length_append.symm
  rw [places, statements, htext, List.map_cons, hlen, textIn_followers, List.map_cons, List.map_map,
    Statement.occurrence, hlen, List.append_assoc _ _ after, Listing.textIn_between]
  rfl

theorem sources_places (position : Nat) :
    (b.places position).filterMap (·.part? .source) = b.statements.map (·.source) := by
  rw [places, List.filterMap_cons, sources_followers, statements, List.map_cons, List.map_map]
  rfl

/-- **a text that ends with a block is one behind which an import can be put in** -/
theorem endsBlock (hbefore : before = [] ∨ before.getLast? = some '\n') (hquiet : NoImportLine before) :
    EndsBlock (before ++ b.text) := by
  have hnil : EndsLine [] := ⟨[], Or.inl rfl, Or.inl rfl⟩
  have himports : imports (before ++ b.text) = b.places before.length := by
    have := b.imports_eq hbefore hnil hquiet (noInitial_of_notMem (by simp)).noImportLine.silent
    rwa [List.append_nil] at this
  obtain ⟨o, ho, hstop⟩ := getLast?_followers b.first b.more before.length
  have hlast : (imports (before ++ b.text)).getLast? = some o := by rw [himports]; exact ho
  have hend : o.stop = (before ++ b.text).length := by
    rw [hstop]
    simp [text, Nat.add_assoc]
  refine ⟨?_, ⟨o, hlast, hend⟩, ?_⟩
  · obtain ⟨u0, m, q, source, v, heq, hm, -, hstop⟩ := exists_last_import hlast
    have hlen := congrArg List.length heq
    rw [← hend, hstop] at hlen
    obtain rfl : v = [] := List.length_eq_zero_iff.1 (by
      simp only [List.length_append] at hlen
      omega)
    exact ⟨u0, m, q, source, by rw [heq, List.append_nil], hm⟩
  · rw [himports, blockCount_le_one_iff]
    have := chain_followers before [] b.first b.more
    rwa [List.append_nil, List.append_assoc before] at this

/-- **every block that is written well is taken: from lines that start no import to lines that start none, exactly its
statements are found, with exactly their sources, every text can be put in, and a statement with another source goes
right behind the last one** -/
theorem recognised (hbefore : before = [] ∨ before.getLast? = some '\n') (hafter : EndsLine after)
    (hquiet : NoImportLine before) (hquiet' : NoImportLine after) :
    let t := before ++ b.text ++ after
    imports t = b.places before.length ∧
    (imports t).map (·.textIn t) = b.statements.map (·.text) ∧
    sources t = b.statements.map (·.source) ∧
    (∀ statement, ∃ t', Splice.afterImports .importStatement t statement = .ok t') ∧
    (∀ statement source, Splice.sourceOf? statement = some source → source ∉ b.statements.map (·.source) →
      let newline := Newline.ofContent t
      Splice.afterImports .importStatement t statement =
        .ok (before ++ b.text ++ (newline.text ++ withNewline newline statement) ++ after)) ∧
    ∀ w : Statement, Splice.sourceOf? w.text = some w.source := by
  have himports := b.imports_eq hbefore hafter hquiet hquiet'.silent
  have hends := b.endsBlock hbefore hquiet
  have hsources : sources (before ++ b.text ++ after) = b.statements.map (·.source) := by
    rw [sources, himports, sources_places]
  refine ⟨himports, by rw [himports, texts_places], hsources, fun statement =>
    hends.afterImports_ok hafter hquiet'.silent statement, fun statement source hsource hnew => ?_,
    Statement.sourceOf?⟩
  have hold : sources (before ++ b.text) = sources (before ++ b.text ++ after) := by
    rw [sources, ← hends.imports_append hafter hquiet'.silent, sources]
  rw [hends.afterImports hafter hquiet'.silent hsource, hold, hsources, if_neg hnew]

/-- names over several lines with the word before the source among them, comments that look like imports, a statement
for its effects, and all kinds of line endings -/
theorem recognised_several_lines :
    let before := "/* entry */\n".toList
    let first := "import Vue, \x7b\r\n  from as ref,\nimport\x0b\x7d from\n\"vue\";\t".toList
    let gap := "\r\n\n // import B from './b'\r\n\t\x1c //\n".toList
    let second := "import './style.css' ".toList
    let after := "\r\n\r\nexport const all = [Vue]\n".toList
    let t := before ++ (first ++ (gap ++ second)) ++ after
    let added := "import \x7b Card \x7d from './card'".toList
    (imports t).map (·.textIn t) = [first, second] ∧ sources t = ["vue".toList, "./style.css".toList] ∧
      Splice.afterImports .importStatement t added =
        .ok (before ++ (first ++ (gap ++ second)) ++ ("\r\n".toList ++ added) ++ after) := by
  intro before first gap second after t added
  obtain ⟨v, hv, hvue⟩ : ∃ v : Statement, v.text = first ∧ v.source = "vue".toList := by
    have hnames : ∀ c ∈ "Vue, \x7b\r\n  from as ref,\nimport\x0b\x7d".toList, c ≠ ';' ∧ ¬IsQuote c := by
      unfold IsQuote
      decide
    exact ⟨⟨[' '], some ⟨_, [' '], ['\n'], by decide, hnames, by decide, by unfold Blanks; decide,
      by unfold Blanks; decide⟩, '"', "vue".toList, true, ['\t'], by decide, by unfold Blanks; decide, Or.inr rfl,
      by decide, by unfold IsQuote; decide, by decide⟩, rfl, rfl⟩
  obtain ⟨g, hg⟩ : ∃ g : Gap, g.text = gap := by
    have hunbroken : ∀ c ∈ " import B from './b'".toList, isLineBreak c = false := by decide
    exact ⟨⟨.crlf, [⟨[], none, .lf, blanks_nil, by simp⟩, ⟨[' '], some _, .crlf, by unfold Blanks; decide,
      fun _ h => Option.mem_some_iff.1 h ▸ hunbroken⟩, ⟨"\t\x1c ".toList, some [], .lf, by unfold Blanks; decide,
      by simp⟩]⟩, rfl⟩
  obtain ⟨w, hw, hstyle⟩ : ∃ w : Statement, w.text = second ∧ w.source = "./style.css".toList :=
    ⟨⟨[' '], none, '\'', "./style.css".toList, false, [' '], by decide, by unfold Blanks; decide, Or.inl rfl, by decide,
      by unfold IsQuote; decide, by decide⟩, rfl, rfl⟩
  have hafter : EndsLine after := endsLine_newline .crlf "\r\nexport const all = [Vue]\n".toList
  have hbefore : before = [] ∨ before.getLast? = some '\n' := Or.inr (by decide)
  obtain ⟨-, himports, hfound, -, hadd, -⟩ := (Block.mk v [(g, w)]).recognised hbefore hafter
    (noInitial_of_notMem (by decide)).noImportLine (noInitial_of_notMem (by decide)).noImportLine
  simp only [text, moreText, statements, List.flatMap_singleton, List.map_cons, List.map_nil, hv, hg, hw, hvue,
    hstyle] at himports hfound hadd
  refine ⟨himports, hfound, ?_⟩
  have hsource : Splice.sourceOf? added = some "./card".toList := by decide +kernel
  rw [hadd added _ hsource (by decide +kernel)]
  have hnewline : Newline.ofContent t = .crlf := by decide +kernel
  rw [hnewline]
  rfl

end Block

end Componentry.Index
