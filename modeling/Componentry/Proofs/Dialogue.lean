/-
What a dialogue comes to.

The questions and the run check a request separately. Here they are shown to agree: the run gets the first name that is
well formed and free and the first title after it that is not blank, and never turns them down.
- `shownAll_problem`: what is said about an answer is shown whatever the answer was.
- `respond_name`, `respond_title`: one answer; `follow_rejected`: any number of answers that are not good.
- `follow_answered`, `follow_cut_short`: a whole dialogue.
What is shown of the run itself has markup that nobody checked, so that a component can be made and the dialogue end with
a failure all the same. Formatters may do anything, and screens may refuse anything but a mark with plain words.

Main result: `dialogue_agrees`.
-/
import Componentry.Console.Dialogue
import Componentry.Proofs.Creation
import Componentry.Proofs.Markup

namespace Componentry.Console

open Text

/-! ## One answer -/

/-- a line that is a name for a component: well formed, and with neither of its directories there -/
structure Names (t : FileTree) (s : Settings) (line : Text) : Prop where
  formed : Slug.problem? (trim line) = none
  componentFree : t.isPresent (s.componentDir (trim line)) = .ok false
  docFree : t.isPresent (s.docDir (trim line)) = .ok false

variable {machine : Machine} {t : FileTree} {s : Settings} {root : Path} {slug line : Text}

theorem firstTaken_eq_none_iff {ps : List Path} :
    Creation.firstTaken t ps = .ok none ↔ ∀ p ∈ ps, t.isPresent p = .ok false := by
  induction ps with
  | nil => simp [Creation.firstTaken]
  | cons p ps ih =>
    rw [Creation.firstTaken, List.forall_mem_cons]
    split
    · rename_i e he
      simp [he]
    · rename_i he
      simp [he]
    · rename_i he
      simp [he, ih]

/-- nothing is wrong with a name exactly if it is well formed and free -/
theorem nameProblem?_eq_none_iff : nameProblem? t s (trim line) = .ok none ↔ Names t s line := by
  have hfree : Creation.firstTaken t (Creation.places s (trim line)) = .ok none ↔
      t.isPresent (s.componentDir (trim line)) = .ok false ∧ t.isPresent (s.docDir (trim line)) = .ok false := by
    rw [firstTaken_eq_none_iff]
    simp [Creation.places]
  unfold nameProblem?
  cases hformed : Slug.problem? (trim line) with
  | some problem => exact ⟨fun h => by simp at h, fun h => absurd (hformed.symm.trans h.formed) (by simp)⟩
  | none =>
    have hmap : (Creation.firstTaken t (Creation.places s (trim line))).map (fun taken => taken.map fun _ =>
        "Component '".toList ++ trim line ++ "' already exists".toList) = .ok none ↔
          Creation.firstTaken t (Creation.places s (trim line)) = .ok none := by
      cases Creation.firstTaken t (Creation.places s (trim line)) with
      | error e => simp [Except.map]
      | ok taken => cases taken <;> simp [Except.map]
    simp only [hmap, hfree]
    exact ⟨fun h => ⟨hformed, h.1, h.2⟩, fun h => ⟨h.componentFree, h.docFree⟩⟩

/-- no opening bracket is in what is said about a name: one that is taken is well formed -/
theorem bracket_notMem_nameProblem {problem : Text} (h : nameProblem? t s slug = .ok (some problem)) : '[' ∉ problem := by
  unfold nameProblem? at h
  cases hformed : Slug.problem? slug with
  | some p =>
    rw [hformed] at h
    obtain rfl := Option.some.inj (Except.ok.inj h)
    cases p <;> decide
  | none =>
    rw [hformed] at h
    have hslug : '[' ∉ slug := by
      intro hm
      rcases Slug.mem_slug hformed hm with hm | hm
      · exact absurd hm (by decide)
      · exact absurd hm (by decide)
    have hwords : '[' ∉ "Component '".toList ∧ '[' ∉ "' already exists".toList := by decide
    cases htaken : Creation.firstTaken t (Creation.places s slug) with
    | error e => simp [htaken, Except.map] at h
    | ok taken =>
      cases taken with
      | none => simp [htaken, Except.map] at h
      | some p =>
        simp only [htaken, Except.map, Option.map_some, Except.ok.injEq, Option.some.injEq] at h
        subst h
        simp only [List.mem_append, hwords, hslug, or_self, not_false_eq_true]

theorem isBlank_iff {title : Text} : Title.isBlank title = true ↔ Blanks title := List.all_eq_true

/-- trimming makes no text blank, and no blank text visible -/
theorem isBlank_trim (title : Text) : Title.isBlank (trim title) = Title.isBlank title := by
  rw [Bool.eq_iff_iff, isBlank_iff, isBlank_iff, blanks_trim]

/-- what is said about an answer is shown -/
theorem shownAll_problem (hscreen : machine.screen.ShowsMarked) {problem : Text} (h : '[' ∉ problem) :
    (machine.screen.shownAll [problemBlock problem]).2 = none := by
  obtain ⟨shown, hshown⟩ := hscreen "red" ['✖'] (' ' :: problem) (by decide) (by decide) (by decide) (by simp [h])
  have hblock : problemBlock problem = .text (Markup.inStyle "red" ['✖'] ++ ' ' :: problem) := by simp [problemBlock]
  rw [hblock, Screen.shownAll, hshown]
  rfl

theorem showing_faultless {blocks : List Block} (h : (machine.screen.shownAll blocks).2 = none) (next : Next) :
    showing machine t blocks next = ⟨(machine.screen.shownAll blocks).1, t, next⟩ := by
  unfold showing
  split
  · rename_i heq
    rw [heq]
  · rename_i heq
    rw [heq] at h
    simp at h

theorem showing_broken {blocks : List Block} {refusal : Screen.Refusal}
    (h : (machine.screen.shownAll blocks).2 = some refusal) (next : Next) :
    (showing machine t blocks next).next = .broken refusal := by
  unfold showing
  split
  · rename_i heq
    rw [heq] at h
    simp at h
  · rename_i heq
    rw [heq] at h
    rw [Option.some.inj h]

theorem showing_tree (machine : Machine) (t : FileTree) (blocks : List Block) (next : Next) :
    (showing machine t blocks next).tree = t := by
  unfold showing
  split <;> rfl

theorem withQuestion_tree (r : Reply) : r.withQuestion.tree = r.tree := by
  unfold Reply.withQuestion
  split <;> rfl

/-- with blocks that can be shown the question is asked, and the tree stays -/
theorem asking_next {blocks : List Block} (h : (machine.screen.shownAll blocks).2 = none) (q : Question) :
    (asking machine t blocks q).next = .ask q ∧ (asking machine t blocks q).tree = t := by
  rw [asking, showing_faultless h]
  exact ⟨rfl, rfl⟩

/-- an answer to the question for a name: a name leads to the next question, any other line to the same one -/
theorem respond_name (hscreen : machine.screen.ShowsMarked) (root : Path)
    (hcheck : ∃ problem, nameProblem? t s (trim line) = .ok problem) :
    (Names t s line → (respond machine t (.name root s) line).next = .ask (.title root s (trim line))) ∧
      (¬Names t s line → (respond machine t (.name root s) line).next = .ask (.name root s)) ∧
      (respond machine t (.name root s) line).tree = t := by
  obtain ⟨problem, hproblem⟩ := hcheck
  have hnone : (machine.screen.shownAll []).2 = none := rfl
  by_cases hline : line = []
  · have hnot : ¬Names t s line := fun h => by
      have := h.formed
      rw [hline] at this
      exact absurd this (by decide)
    obtain ⟨hnext, htree⟩ := asking_next (t := t) hnone (.name root s)
    rw [respond, if_pos hline]
    exact ⟨fun h => absurd h hnot, fun _ => hnext, htree⟩
  · rw [respond, if_neg hline]
    simp only [hproblem]
    cases problem with
    | none =>
      have hnames := nameProblem?_eq_none_iff.1 hproblem
      obtain ⟨hnext, htree⟩ := asking_next (t := t) hnone (.title root s (trim line))
      exact ⟨fun _ => hnext, fun h => absurd hnames h, htree⟩
    | some problem =>
      have hnot : ¬Names t s line := fun h => by
        rw [nameProblem?_eq_none_iff.2 h] at hproblem
        simp at hproblem
      have hshown := shownAll_problem hscreen (bracket_notMem_nameProblem hproblem)
      obtain ⟨hnext, htree⟩ := asking_next (t := t) hshown (.name root s)
      exact ⟨fun h => absurd h hnot, fun _ => hnext, htree⟩

/-- an answer to the question for a title: a blank one leads to the same question, any other to the run -/
theorem respond_title (hscreen : machine.screen.ShowsMarked) :
    (Title.isBlank line = true → (respond machine t (.title root s slug) line).next = .ask (.title root s slug) ∧
      (respond machine t (.title root s slug) line).tree = t) ∧
      (Title.isBlank line = false →
        respond machine t (.title root s slug) line = finish machine t root s slug (trim line)) := by
  constructor
  · intro hblank
    by_cases hline : line = []
    · rw [respond, if_pos hline]
      exact asking_next rfl _
    · have hproblem : Title.problem? (trim line) = some Title.blankMessage := by
        rw [Title.problem?, isBlank_trim, if_pos hblank]
      have hshown : (machine.screen.shownAll [problemBlock Title.blankMessage]).2 = none :=
        shownAll_problem hscreen (by decide)
      rw [respond, if_neg hline]
      simp only [hproblem]
      exact asking_next hshown _
  · intro hvisible
    have hline : line ≠ [] := by
      rintro rfl
      simp [Title.isBlank] at hvisible
    have hproblem : Title.problem? (trim line) = none := by
      rw [Title.problem?, isBlank_trim, hvisible]
      rfl
    rw [respond, if_neg hline]
    simp only [hproblem]

/-! ## Whole dialogues -/

/-- lines that come to a name and a title: the first name among them, and the first line after it that is not blank -/
def Answered (t : FileTree) (s : Settings) (lines : List Text) (slug title : Text) : Prop :=
  ∃ before line between titled after, lines = before ++ line :: (between ++ titled :: after) ∧
    (∀ l ∈ before, ¬Names t s l) ∧ Names t s line ∧ (∀ l ∈ between, Title.isBlank l = true) ∧
    Title.isBlank titled = false ∧ slug = trim line ∧ title = trim titled

/-- every answer to the question for a name can be looked up -/
def Checkable (t : FileTree) (s : Settings) (lines : List Text) : Prop :=
  ∀ before line after, lines = before ++ line :: after → (∀ l ∈ before, ¬Names t s l) →
    ∃ problem, nameProblem? t s (trim line) = .ok problem

/-- the exit code of a dialogue that is over -/
def Next.exitCode? : Next → Option Nat
  | .ask _ => none
  | .leave code => some code
  | .broken _ | .unsettled _ | .escaped _ => some 1

variable {r : Reply} {q : Question} {lines : List Text}

theorem follow_of_ended (h : ∀ q, r.next ≠ .ask q) (lines : List Text) : follow machine r lines = r := by
  unfold follow
  split
  · exact absurd ‹_› (h _)
  · exact absurd ‹_› (h _)
  · rfl

/-- one line leads to the reply to it, with what was shown before -/
theorem follow_cons {line : Text} {tree : FileTree} {next : Next} (h : r.next = .ask q)
    (htree : (respond machine r.tree q line).tree = tree) (hnext : (respond machine r.tree q line).next = next)
    (lines : List Text) : ∃ shown, follow machine r (line :: lines) = follow machine ⟨shown, tree, next⟩ lines := by
  obtain ⟨shown, tree, next⟩ := r
  obtain rfl : next = .ask q := h
  subst htree hnext
  exact ⟨shown ++ line ++ ['\n'] ++ (respond machine tree q line).shown, rfl⟩

/-- at the end of the input a question cancels the dialogue -/
theorem follow_nil (hscreen : machine.screen.ShowsMarked) (h : r.next = .ask q) :
    (follow machine r []).next = .leave 1 ∧ (follow machine r []).tree = r.tree := by
  obtain ⟨shown, tree, next⟩ := r
  obtain rfl : next = .ask q := h
  have hshown : (machine.screen.shownAll [problemBlock "Cancelled".toList]).2 = none :=
    shownAll_problem hscreen (by decide)
  have hlast : answer machine tree q none = ⟨_, tree, .leave 1⟩ := showing_faultless hshown (.leave 1)
  simp only [follow, hlast, and_self]

/-- lines that lead back to the same question are asked about one after the other -/
theorem follow_rejected {before : List Text} (hq : r.next = .ask q)
    (h : ∀ line ∈ before, (respond machine r.tree q line).next = .ask q ∧ (respond machine r.tree q line).tree = r.tree)
    (lines : List Text) :
    ∃ shown, follow machine r (before ++ lines) = follow machine ⟨shown, r.tree, .ask q⟩ lines := by
  induction before generalizing r with
  | nil => exact ⟨r.shown, by rw [List.nil_append, ← hq]⟩
  | cons line before ih =>
    obtain ⟨hnext, htree⟩ := h line List.mem_cons_self
    obtain ⟨shown, hstep⟩ := follow_cons hq htree hnext (before ++ lines)
    obtain ⟨shown', hrest⟩ := ih (r := ⟨shown, r.tree, .ask q⟩) rfl fun l hl => h l (List.mem_cons_of_mem _ hl)
    exact ⟨shown', by rw [List.cons_append, hstep, hrest]⟩

theorem finish_ended (machine : Machine) (t : FileTree) (root : Path) (s : Settings) (slug title : Text) (q : Question) :
    (finish machine t root s slug title).next ≠ .ask q := by
  unfold finish
  split
  · simp
  · simp only
    split
    · unfold showing
      split <;> simp
    · simp

/-- what is shown before a run is shown -/
theorem shownAll_notice (hscreen : machine.screen.ShowsMarked) (s : Settings) :
    (machine.screen.shownAll (noticeBlocks s)).2 = none := by
  unfold noticeBlocks
  split_ifs
  · obtain ⟨shown, hshown⟩ := hscreen "dim" "Scaffolding and formatting...".toList [] (by decide) (by decide) (by decide)
      (by simp)
    rw [List.append_nil] at hshown
    rw [Screen.shownAll, hshown]
    rfl
  · rfl

/-- the end of a dialogue is that of its run -/
theorem finish_eq (hscreen : machine.screen.ShowsMarked) (t : FileTree) (root : Path) (s : Settings) (slug title : Text) :
    let report := Creation.run s (Listing.all s) (some machine.formatter) t slug title
    ∃ shown, finish machine t root s slug title =
      { (match report.verdict with
        | .ok v => showing machine report.tree (verdictBlocks root v) (.leave (if v.ok then 0 else 1))
        | .error e => ⟨[], report.tree, .escaped e⟩) with shown := shown } := by
  intro report
  have hnotice := shownAll_notice hscreen s
  unfold finish
  split
  · rename_i heq
    rw [heq] at hnotice
    simp at hnotice
  · exact ⟨_, rfl⟩

/-- the tree that a dialogue ends with is that of its run -/
theorem finish_tree (hscreen : machine.screen.ShowsMarked) (t : FileTree) (root : Path) (s : Settings) (slug title : Text) :
    (finish machine t root s slug title).tree =
      (Creation.run s (Listing.all s) (some machine.formatter) t slug title).tree := by
  obtain ⟨shown, hfinish⟩ := finish_eq hscreen t root s slug title
  rw [hfinish]
  simp only
  split
  · exact showing_tree _ _ _ _
  · rfl

/-- the lines up to a name lead to the question for a title -/
theorem follow_to_title (hscreen : machine.screen.ShowsMarked) {before : List Text} {line : Text}
    (hq : r.next = .ask (.name root s)) (hcheck : Checkable r.tree s (before ++ line :: lines))
    (hbefore : ∀ l ∈ before, ¬Names r.tree s l) (hline : Names r.tree s line) :
    ∃ shown, follow machine r (before ++ line :: lines) =
      follow machine ⟨shown, r.tree, .ask (.title root s (trim line))⟩ lines := by
  have hrejected : ∀ l ∈ before, (respond machine r.tree (.name root s) l).next = .ask (.name root s) ∧
      (respond machine r.tree (.name root s) l).tree = r.tree := by
    intro l hl
    obtain ⟨front, back, rfl⟩ := List.append_of_mem hl
    obtain ⟨-, hagain, htree⟩ := respond_name hscreen root (hcheck front l (back ++ line :: lines) (by simp)
      fun l' hl' => hbefore l' (List.mem_append_left _ hl'))
    exact ⟨hagain (hbefore l hl), htree⟩
  obtain ⟨shown, hfirst⟩ := follow_rejected hq hrejected (line :: lines)
  obtain ⟨hnext, -, htree⟩ := respond_name hscreen root (hcheck before line lines rfl hbefore)
  obtain ⟨shown', hthen⟩ := follow_cons (r := ⟨shown, r.tree, .ask (.name root s)⟩) rfl htree (hnext hline) lines
  exact ⟨shown', by rw [hfirst, hthen]⟩

/-- **the lines up to a name and a title lead to the run of these two** -/
theorem follow_answered (hscreen : machine.screen.ShowsMarked) {slug title : Text} (hq : r.next = .ask (.name root s))
    (hcheck : Checkable r.tree s lines) (h : Answered r.tree s lines slug title) : ∃ shown,
      follow machine r lines = { finish machine r.tree root s slug title with shown := shown } := by
  obtain ⟨before, line, between, titled, after, rfl, hbefore, hline, hbetween, htitled, rfl, rfl⟩ := h
  obtain ⟨shown, hname⟩ := follow_to_title hscreen hq hcheck hbefore hline
  obtain ⟨shown', hblank⟩ := follow_rejected (r := ⟨shown, r.tree, .ask (.title root s (trim line))⟩) rfl
    (fun l hl => (respond_title hscreen).1 (hbetween l hl)) (titled :: after)
  have hrun : respond machine r.tree (.title root s (trim line)) titled =
      finish machine r.tree root s (trim line) (trim titled) := (respond_title hscreen).2 htitled
  obtain ⟨shown'', hlast⟩ := follow_cons (r := ⟨shown', r.tree, .ask (.title root s (trim line))⟩) rfl
    (congrArg Reply.tree hrun) (congrArg Reply.next hrun) after
  refine ⟨shown'', ?_⟩
  rw [hname, hblank, hlast]
  exact follow_of_ended (r := ⟨shown'', _, _⟩) (finish_ended machine r.tree root s _ _) after

/-- a list has a first element of a kind, or none -/
theorem exists_first (P : Text → Prop) (lines : List Text) : (∀ l ∈ lines, ¬P l) ∨
    ∃ before line after, lines = before ++ line :: after ∧ (∀ l ∈ before, ¬P l) ∧ P line := by
  classical
  cases hfirst : lines.find? (fun l => decide (P l)) with
  | none => exact Or.inl fun l hl => by simpa using List.find?_eq_none.1 hfirst l hl
  | some line =>
    obtain ⟨hline, before, after, rfl, hbefore⟩ := List.find?_eq_some_iff_append.1 hfirst
    exact Or.inr ⟨before, line, after, rfl, by simpa using hbefore, by simpa using hline⟩

/-- **lines without a name and a title cancel the dialogue** -/
theorem follow_cut_short (hscreen : machine.screen.ShowsMarked) (hq : r.next = .ask (.name root s))
    (hcheck : Checkable r.tree s lines) (h : ∀ slug title, ¬Answered r.tree s lines slug title) :
    (follow machine r lines).next = .leave 1 ∧ (follow machine r lines).tree = r.tree := by
  rcases exists_first (Names r.tree s) lines with hnone | ⟨before, line, after, rfl, hbefore, hline⟩
  · have hrejected : ∀ l ∈ lines, (respond machine r.tree (.name root s) l).next = .ask (.name root s) ∧
        (respond machine r.tree (.name root s) l).tree = r.tree := by
      intro l hl
      obtain ⟨front, back, rfl⟩ := List.append_of_mem hl
      obtain ⟨-, hagain, htree⟩ := respond_name hscreen root (hcheck front l back rfl
        fun l' hl' => hnone l' (List.mem_append_left _ hl'))
      exact ⟨hagain (hnone l hl), htree⟩
    obtain ⟨shown, hall⟩ := follow_rejected hq hrejected []
    rw [List.append_nil] at hall
    rw [hall]
    exact follow_nil hscreen rfl
  · obtain ⟨shown, hname⟩ := follow_to_title hscreen hq hcheck hbefore hline
    rw [hname]
    rcases exists_first (fun l => Title.isBlank l = false) after with hblank |
      ⟨between, titled, rest, rfl, hbetween, htitled⟩
    · obtain ⟨shown', hall⟩ := follow_rejected (r := ⟨shown, r.tree, .ask (.title root s (trim line))⟩) rfl
        (fun l hl => (respond_title hscreen).1 (by simpa using hblank l hl)) []
      rw [List.append_nil] at hall
      rw [hall]
      exact follow_nil hscreen rfl
    · exact absurd ⟨before, line, between, titled, rest, rfl, hbefore, hline, fun l hl => by simpa using hbetween l hl,
        htitled, rfl, rfl⟩ (h (trim line) (trim titled))

/-! ## The run and the exit code -/

/-- a run that is asked for by a dialogue is not turned down -/
theorem validate_of_answered {slug title : Text} (h : Answered t s lines slug title) :
    Creation.validate s t slug title = .ok (Creation.requested s slug title) := by
  obtain ⟨before, line, between, titled, after, -, -, hline, -, htitled, rfl, rfl⟩ := h
  have htaken : Creation.firstTaken t (Creation.places s (trim line)) = .ok none := by
    rw [firstTaken_eq_none_iff]
    simp [Creation.places, hline.componentFree, hline.docFree]
  have hblank : Title.isBlank (trim titled) = false := (isBlank_trim titled).trans htitled
  rw [Creation.validate, hline.formed]
  simp only [hblank, htaken]
  rfl

/-- the exit code of a run is zero exactly if it is done and all that is shown of it can be shown -/
theorem finish_exitCode (hscreen : machine.screen.ShowsMarked) (t : FileTree) (root : Path) (s : Settings)
    (slug title : Text) :
    ((finish machine t root s slug title).next.exitCode? = some 0 ∨
      (finish machine t root s slug title).next.exitCode? = some 1) ∧
      ((finish machine t root s slug title).next.exitCode? = some 0 ↔
        ∃ v, (Creation.run s (Listing.all s) (some machine.formatter) t slug title).verdict = .ok v ∧ v.phase = .done ∧
          (machine.screen.shownAll (verdictBlocks root v)).2 = none) := by
  obtain ⟨shown, hfinish⟩ := finish_eq hscreen t root s slug title
  rw [hfinish]
  generalize Creation.run s (Listing.all s) (some machine.formatter) t slug title = report
  cases hverdict : report.verdict with
  | error e => simp [Next.exitCode?]
  | ok v =>
    simp only
    cases hrefused : (machine.screen.shownAll (verdictBlocks root v)).2 with
    | some refusal => simp [showing_broken hrefused, Next.exitCode?, hrefused]
    | none =>
      rw [showing_faultless hrefused]
      by_cases hdone : v.phase = .done
      · simp [Next.exitCode?, Verdict.ok, hdone, hrefused]
      · simp [Next.exitCode?, Verdict.ok, hdone]

/-- the beginning of a dialogue changes nothing -/
theorem start_tree (machine : Machine) (t : FileTree) (args : List Text) : (start machine t args).tree = t := by
  have hopening : ∀ root formatted, (opening machine t root formatted).tree = t := by
    intro root formatted
    unfold opening
    simp only
    split
    · rw [asking, withQuestion_tree, showing_tree]
    · split_ifs
      · exact showing_tree _ _ _ _
      · rfl
  unfold start
  split
  · rfl
  · rfl
  · rfl
  · exact hopening _ _
  · split
    · exact hopening _ _
    · rfl

/-- **the questions and the run agree, on any call stack, with any formatter and any screen that shows a mark with plain
words: a dialogue always ends; its run gets the first line that is a name and the first one after it that is not blank, and
does not turn them down; its exit code is zero exactly if the run is done and the screen refuses nothing that is shown of
it; and without such lines it is cancelled and the tree stays** -/
theorem dialogue_agrees {args : List Text} (hscreen : machine.screen.ShowsMarked)
    (hstart : (start machine t args).next = .ask (.name root s))
    (hcheck : Checkable t s lines) :
    let r := follow machine (start machine t args) lines
    (r.next.exitCode? = some 0 ∨ r.next.exitCode? = some 1) ∧
    (∀ slug title, Answered t s lines slug title →
      let report := Creation.run s (Listing.all s) (some machine.formatter) t slug title
      (∃ shown, r = { finish machine t root s slug title with shown := shown }) ∧ r.tree = report.tree ∧
      Creation.validate s t slug title = .ok (Creation.requested s slug title) ∧
      (∀ v, report.verdict = .ok v → v.history ≠ [.collectingInput, .validating, .failed]) ∧
      (r.next.exitCode? = some 0 ↔
        ∃ v, report.verdict = .ok v ∧ v.phase = .done ∧ (machine.screen.shownAll (verdictBlocks root v)).2 = none)) ∧
    ((∀ slug title, ¬Answered t s lines slug title) → r.next.exitCode? = some 1 ∧ r.tree = t) := by
  intro r
  have htree := start_tree machine t args
  have hcheck' : Checkable (start machine t args).tree s lines := by rwa [htree]
  refine ⟨?_, ?_, ?_⟩
  · by_cases hanswered : ∃ slug title, Answered t s lines slug title
    · obtain ⟨slug, title, h⟩ := hanswered
      obtain ⟨shown, hr⟩ := follow_answered hscreen hstart hcheck' (by rwa [htree])
      rw [show r = _ from hr]
      exact (finish_exitCode hscreen _ root s slug title).1
    · simp only [not_exists] at hanswered
      have hcut := (follow_cut_short hscreen hstart hcheck' (by rwa [htree])).1
      exact Or.inr (by rw [show r.next = _ from hcut]; rfl)
  · intro slug title h report
    obtain ⟨shown, hr⟩ := follow_answered hscreen hstart hcheck' (by rwa [htree])
    rw [htree] at hr
    have hvalid := validate_of_answered h
    refine ⟨⟨shown, hr⟩, ?_, hvalid, ?_, ?_⟩
    · rw [show r = _ from hr]
      exact finish_tree hscreen t root s slug title
    · intro v hv hturned
      rcases Creation.run_returns hv with ⟨-, -, invalid, hinvalid⟩ | ⟨w, failure, -, -, hcourse, -⟩ |
        ⟨made, after, l, failure, -, -, -, hcourse, -⟩ | ⟨made, after, -, -, -, hcourse⟩
      · rw [hvalid] at hinvalid
        simp at hinvalid
      · simp [hturned] at hcourse
      · simp [hturned] at hcourse
      · simp [hturned] at hcourse
    · rw [show r = _ from hr]
      exact (finish_exitCode hscreen t root s slug title).2
  · intro h
    obtain ⟨hnext, hleft⟩ := follow_cut_short hscreen hstart hcheck' (by rwa [htree])
    exact ⟨by rw [show r.next = _ from hnext]; rfl, hleft.trans htree⟩

/-! ## Two dialogues -/

/-- a dialogue at a root that is given, without the formatter -/
theorem start_asks {args : List Text} (hargs : Command.ofArgs t args = .ok (.component (some root) false))
    (hload : (Settings.loadOn machine.stack t root [("format_enabled".toList, .flag false)]).toOption = some s) :
    (start machine t args).next = .ask (.name root s) := by
  have hsettings := Listing.ok_of_toOption hload
  rw [start, hargs]
  simp only [opening, Bool.false_eq_true, if_false, hsettings]
  exact (asking_next rfl _).1

theorem checkable_of_all (h : ∀ line ∈ lines, (nameProblem? t s (trim line)).toOption.isSome = true) :
    Checkable t s lines := by
  intro before line after hlines _
  have hline := h line (by rw [hlines]; simp)
  cases hproblem : nameProblem? t s (trim line) with
  | error e => simp [hproblem, Except.toOption] at hline
  | ok problem => exact ⟨problem, rfl⟩

/-- a library with an index alone -/
def small : FileTree :=
  let src := ["repo".toList, "packages".toList, "components".toList, "src".toList]
  ⟨[], ['0'], [(src.take 1, .dir), (src.take 2, .dir), (src.take 3, .dir), (src, .dir), (src ++ ["index.ts".toList],
    .file (Utf8.encode "import A from './a'\nconst components = []\nexport \x7b\x7d\n".toList))]⟩

/-- a name that is not well formed, an empty line, a name with blanks around it, a blank title and a title -/
theorem dialogue_agrees_retries :
    let args := ["component".toList, "--root".toList, "repo".toList, "--no-format".toList]
    let root : Path := .ofText "repo".toList
    let s : Settings := { Settings.standard root with formatEnabled := false }
    let lines := ["Card".toList, [], " card ".toList, " ".toList, "Card".toList, "more".toList]
    (start .usual small args).next = .ask (.name root s) ∧ Checkable small s lines ∧
      Answered small s lines "card".toList "Card".toList ∧
      ∃ shown, follow .usual (start .usual small args) lines =
        { finish .usual small root s "card".toList "Card".toList with shown := shown } := by
  intro args root s lines
  have hstart : (start .usual small args).next = .ask (.name root s) := start_asks rfl (by decide +kernel)
  have hcheck : Checkable small s lines := checkable_of_all (by decide +kernel)
  have hanswered : Answered small s lines "card".toList "Card".toList := by
    refine ⟨["Card".toList, []], " card ".toList, [" ".toList], "Card".toList, ["more".toList], rfl, ?_,
      ⟨by decide, rfl, rfl⟩, by decide, by decide, by decide, by decide⟩
    exact List.forall_mem_cons.2 ⟨fun h => absurd h.formed (by decide),
      List.forall_mem_cons.2 ⟨fun h => absurd h.formed (by decide), by simp⟩⟩
  exact ⟨hstart, hcheck, hanswered, ((dialogue_agrees Screen.usual_showsMarked hstart hcheck).2.1 _ _ hanswered).1⟩

/-- the same library with its pages in a directory whose path reads like a closing tag -/
def tagged : FileTree :=
  let settings := Utf8.encode "pages_dir: 'pages/[/b]'\n".toList
  { small with entries := small.entries ++ [(["repo".toList, "kgscaffold.yaml".toList], .file settings)] }

/-- **a component is made, and the exit code is that of a failure**: the path of its page cannot be shown -/
theorem done_with_failure_code :
    let args := ["component".toList, "--root".toList, "repo".toList, "--no-format".toList]
    let root : Path := .ofText "repo".toList
    let s : Settings := { Settings.standard root with pagesDir := "pages/[/b]".toList, formatEnabled := false }
    let lines := ["card".toList, "Card".toList]
    (start .usual tagged args).next = .ask (.name root s) ∧ Checkable tagged s lines ∧
      Answered tagged s lines "card".toList "Card".toList ∧
      (∃ v, (Creation.run s (Listing.all s) (some Machine.usual.formatter) tagged "card".toList "Card".toList).verdict = .ok v ∧
        v.phase = .done) ∧
      (follow .usual (start .usual tagged args) lines).next.exitCode? = some 1 := by
  intro args root s lines
  have hstart : (start .usual tagged args).next = .ask (.name root s) := start_asks rfl (by decide +kernel)
  have hcheck : Checkable tagged s lines := checkable_of_all (by decide +kernel)
  have hanswered : Answered tagged s lines "card".toList "Card".toList :=
    ⟨[], "card".toList, [], "Card".toList, [], rfl, by simp, ⟨by decide, rfl, rfl⟩, by simp, by decide, by decide,
      by decide⟩
  have hphase : (Creation.run s (Listing.all s) (some Machine.usual.formatter) tagged "card".toList
      "Card".toList).verdict.toOption.map (·.phase) = some .done := by decide +kernel
  obtain ⟨v, hverdict, hdone⟩ := Option.map_eq_some_iff.1 hphase
  exact ⟨hstart, hcheck, hanswered, ⟨v, Creation.Report.verdict_ok _ hverdict, hdone⟩, by decide +kernel⟩

end Componentry.Console
