/-
What the steps of a run do.

- `makeParent_preparing`, `createArtifact_filing`: the three things that can become of a directory, and of an artifact.
- `updateListing_update`, `updateListings_cons`: the five things that can become of a listing, and how a run goes on from
  there.
- `exists_turn_of_passed`, `exists_turn_of_stopped`: whose turn comes among steps that are taken one after the other, for
  artifacts and for listings.
- `run_ending`: the ways in which a run can end, each with its report and with the steps that led to it.
- `createArtifacts_verdict`, `updateListings_verdict`: what the steps put on record.
- `run_returns`: a run that returns ends in one of four ways; each comes with the phases it went through, and with the
  work its tree comes from.
- `Made.createArtifacts`: the journal of the files made so far records every new file, and a new directory for every
  artifact that needed one, also where the last artifact fails half way.
-/
import Componentry.Proofs.Journal
import Componentry.Proofs.Listing
import Componentry.Creation

namespace Componentry.Creation

open FileTree

/-! ## Runs -/

/-- the component that a request asks for -/
def requested (s : Settings) (slug title : Text) : Component := ⟨slug, Text.trim title, s.tagPrefix, s.cssPrefix⟩

/-- the work of a run that has checked its request -/
def checked (t : FileTree) (c : Component) : Work :=
  let w := enter ⟨t, .empty, .fresh⟩ .validating
  { w with verdict := { w.verdict with component := some c } }

/-- the work of a run that is about to make files -/
def begun (t : FileTree) (c : Component) : Work := enter (checked t c) .creatingFiles

@[simp] theorem enter_tree (w : Work) (p : Phase) : (enter w p).tree = w.tree := rfl

@[simp] theorem begun_tree (t : FileTree) (c : Component) : (begun t c).tree = t := rfl

@[simp] theorem begun_journal (t : FileTree) (c : Component) : (begun t c).journal = .empty := rfl

/-- the phases that the verdict of a run went through, if it returned one -/
def Report.phases? (r : Report) : Option (List Phase) := r.verdict.toOption.map (·.history)

theorem Report.verdict_ok (r : Report) {v : Verdict} (h : r.verdict.toOption = some v) : r.verdict = .ok v :=
  Listing.ok_of_toOption h

theorem phases?_some {r : Report} {ps : List Phase} (h : r.phases? = some ps) :
    ∃ v, r.verdict = .ok v ∧ v.history = ps := by
  obtain ⟨v, hv, hh⟩ := Option.map_eq_some_iff.1 h
  exact ⟨v, r.verdict_ok hv, hh⟩

/-- a request that is accepted is well formed, and its directories are not there -/
theorem validate_ok {s : Settings} {t : FileTree} {slug title : Text} {c : Component}
    (h : validate s t slug title = .ok c) :
    Slug.problem? slug = none ∧ Title.isBlank title = false ∧ firstTaken t (places s slug) = .ok none ∧
      c = requested s slug title := by
  unfold validate at h
  split at h
  · simp at h
  · rename_i hs
    split_ifs at h with ht
    split at h
    · simp at h
    · simp at h
    · rename_i hf
      exact ⟨hs, by simpa using ht, hf, (Except.ok.inj h).symm⟩

/-! ## Turns -/

section Turns

variable {α : Type} {w next : Work} {a : α} {as : List α} {P : Work → α → Prop} (leads : Work → List α → Work → Prop)

/-- where the first of some steps is passed, the turn comes of it and of those that come to their turn after it; that
steps lead from one work to another is for `leads` to say -/
theorem exists_turn_of_passed (hnil : ∀ {w done}, leads w [] done ↔ w = done)
    (h : ∀ {before done}, leads w (a :: before) done ↔ leads next before done) :
    (∃ before b rest done, a :: as = before ++ b :: rest ∧ leads w before done ∧ P done b) ↔
      P w a ∨ ∃ before b rest done, as = before ++ b :: rest ∧ leads next before done ∧ P done b := by
  constructor
  · intro ⟨before, b, rest, done, hsplit, hdone, hb⟩
    cases before with
    | nil =>
      obtain ⟨rfl, rfl⟩ := List.cons.inj hsplit
      obtain rfl := hnil.1 hdone
      exact Or.inl hb
    | cons first before =>
      obtain ⟨rfl, rfl⟩ := List.cons.inj hsplit
      exact Or.inr ⟨before, b, rest, done, rfl, h.1 hdone, hb⟩
  · intro hreached
    cases hreached with
    | inl ha => exact ⟨[], a, as, w, rfl, hnil.2 rfl, ha⟩
    | inr hrest =>
      obtain ⟨before, b, rest, done, rfl, hdone, hb⟩ := hrest
      exact ⟨a :: before, b, rest, done, rfl, h.2 hdone, hb⟩

/-- where the first of some steps is not passed, the turn comes of it alone -/
theorem exists_turn_of_stopped (hnil : ∀ {w done}, leads w [] done ↔ w = done)
    (h : ∀ {before done}, ¬leads w (a :: before) done) :
    (∃ before b rest done, a :: as = before ++ b :: rest ∧ leads w before done ∧ P done b) ↔ P w a := by
  constructor
  · intro ⟨before, b, rest, done, hsplit, hdone, hb⟩
    cases before with
    | nil =>
      obtain ⟨rfl, rfl⟩ := List.cons.inj hsplit
      obtain rfl := hnil.1 hdone
      exact hb
    | cons first before =>
      obtain ⟨rfl, rfl⟩ := List.cons.inj hsplit
      exact absurd hdone h
  · intro ha
    exact ⟨[], a, as, w, rfl, hnil.2 rfl, ha⟩

end Turns

/-! ## Artifacts -/

/-- what can become of the directory of a path: those above it cannot be asked for, it is refused, or it is there -/
inductive Preparing (w : Work) (p : Path) : Work × Option Trouble → Prop where
  | unasked {e : Trouble} (asked : w.tree.firstMissing p.ancestors = .error e) : Preparing w p (w, some e)
  | refused {missing : Option Path} {partly : FileTree} {e : Trouble}
      (asked : w.tree.firstMissing p.ancestors = .ok missing)
      (making : w.tree.makeDirs p.parent = (partly, some e)) : Preparing w p ({ w with tree := partly }, some e)
  | ready {missing : Option Path} {tree : FileTree} (asked : w.tree.firstMissing p.ancestors = .ok missing)
      (making : w.tree.makeDirs p.parent = (tree, none)) :
    Preparing w p ({ w with tree := tree, journal := w.journal.addDir missing }, none)

theorem makeParent_preparing (w : Work) (p : Path) : Preparing w p (makeParent w p) := by
  unfold makeParent
  cases hm : w.tree.firstMissing p.ancestors with
  | error e => exact .unasked hm
  | ok missing =>
    simp only
    cases hd : w.tree.makeDirs p.parent with
    | mk tree refused =>
      cases refused with
      | some e => exact .refused hm hd
      | none => exact .ready hm hd

/-- what can become of an artifact: it has no directory, its file is refused, or it is made -/
inductive Filing (w : Work) (a : Artifact) : Work × Option Trouble → Prop where
  | stranded {partly : Work} {e : Trouble} (prepared : makeParent w a.path = (partly, some e)) :
    Filing w a (partly, some e)
  | refused {ready : Work} {e : Trouble} (prepared : makeParent w a.path = (ready, none))
      (creating : ready.tree.createFile a.path (Utf8.encode a.body) = .error e) : Filing w a (ready, some e)
  | made {ready : Work} {tree : FileTree} (prepared : makeParent w a.path = (ready, none))
      (creating : ready.tree.createFile a.path (Utf8.encode a.body) = .ok tree) :
    Filing w a ({ tree := tree, journal := ready.journal.addFile a.path,
                  verdict := { ready.verdict with created := ready.verdict.created ++ [a.path] } }, none)

theorem createArtifact_filing (w : Work) (a : Artifact) : Filing w a (createArtifact w a) := by
  unfold createArtifact
  cases hp : makeParent w a.path with
  | mk ready refused =>
    cases refused with
    | some e => exact .stranded hp
    | none =>
      simp only
      cases hc : ready.tree.createFile a.path (Utf8.encode a.body) with
      | error e => exact .refused hp hc
      | ok tree => exact .made hp hc

theorem makeParent_verdict {w after : Work} {p : Path} {stop : Option Trouble} (h : makeParent w p = (after, stop)) :
    after.verdict = w.verdict := by
  have hprep := makeParent_preparing w p
  rw [h] at hprep
  cases hprep <;> rfl

/-- making an artifact changes nothing in the verdict but what is created -/
theorem createArtifact_verdict {w after : Work} {a : Artifact} {stop : Option Trouble}
    (h : createArtifact w a = (after, stop)) :
    after.verdict = { w.verdict with created := w.verdict.created ++ if stop = none then [a.path] else [] } := by
  have hfiling := createArtifact_filing w a
  rw [h] at hfiling
  cases hfiling with
  | stranded prepared | refused prepared => simp [makeParent_verdict prepared]
  | made prepared => simp [makeParent_verdict prepared]

/-- the first of some artifacts is made and then come the others, or it fails and nothing more is done -/
theorem createArtifacts_cons (w : Work) (a : Artifact) :
    (∃ next, createArtifact w a = (next, none) ∧ ∀ as, createArtifacts w (a :: as) = createArtifacts next as) ∨
      ∃ next e, createArtifact w a = (next, some e) ∧
        ∀ as, createArtifacts w (a :: as) = (next, some (FileFailure.stop .creating a.path e)) := by
  cases h : createArtifact w a with
  | mk next refused =>
    cases refused with
    | none => exact .inl ⟨next, rfl, fun as => by simp only [createArtifacts, h]⟩
    | some e => exact .inr ⟨next, e, rfl, fun as => by simp only [createArtifacts, h]⟩

/-- where the first of some artifacts is made, the turn comes of it and of those that come to their turn after it -/
theorem exists_made_of_passed {w next : Work} {a : Artifact} {as : List Artifact}
    (h : ∀ as, createArtifacts w (a :: as) = createArtifacts next as) {P : Work → Artifact → Prop} :
    (∃ before b rest made, a :: as = before ++ b :: rest ∧ createArtifacts w before = (made, none) ∧ P made b) ↔
      P w a ∨ ∃ before b rest made, as = before ++ b :: rest ∧ createArtifacts next before = (made, none) ∧ P made b :=
  exists_turn_of_passed (fun w before made => createArtifacts w before = (made, none))
    (by simp [createArtifacts]) (by simp [h])

/-- where the first of some artifacts is not made, the turn comes of it alone -/
theorem exists_made_of_stopped {w : Work} {a : Artifact} {as : List Artifact}
    (h : ∀ as, (createArtifacts w (a :: as)).2 ≠ none) {P : Work → Artifact → Prop} :
    (∃ before b rest made, a :: as = before ++ b :: rest ∧ createArtifacts w before = (made, none) ∧ P made b) ↔ P w a :=
  exists_turn_of_stopped (fun w before made => createArtifacts w before = (made, none))
    (by simp [createArtifacts]) fun hmade => h _ (by rw [hmade])

/-- artifacts are on record as created, up to the first that fails -/
theorem createArtifacts_verdict {w after : Work} {as : List Artifact} {stop : Option (Stop FileFailure)}
    (h : createArtifacts w as = (after, stop)) :
    ∃ created, after.verdict = { w.verdict with created := w.verdict.created ++ created } ∧
      (stop = none → created = as.map (·.path)) := by
  induction as generalizing w with
  | nil =>
    obtain ⟨rfl, rfl⟩ := Prod.mk.inj h
    exact ⟨[], by simp, fun _ => rfl⟩
  | cons a as ih =>
    rcases createArtifacts_cons w a with ⟨next, ha, heq⟩ | ⟨next, e, ha, heq⟩
    · rw [heq] at h
      obtain ⟨created, hv, hall⟩ := ih h
      exact ⟨a.path :: created, by simp [hv, createArtifact_verdict ha], fun hstop => by rw [hall hstop]; rfl⟩
    · rw [heq] at h
      obtain ⟨rfl, rfl⟩ := Prod.mk.inj h
      exact ⟨[], by simpa using createArtifact_verdict ha, by simp⟩

/-! ## Listings -/

/-- what can become of a listing: its file cannot be read, a step fails, its text stays, its file cannot be replaced, or
it is replaced -/
inductive Update (w : Work) (c : Component) (l : Listing) : Work × Except (Stop ListingFailure) Outcome → Prop where
  | unread {stop : Stop FileFailure} (read : w.tree.readText l.path = .error stop) :
    Update w c l (w, .error (fileStop stop))
  | unspliced {content : Text} {failure : Listing.Failure} (read : w.tree.readText l.path = .ok content)
      (applied : l.apply content c = .error failure) :
    Update w c l (w, .error (if failure.fault = .noSuchGroup then .escaped .noSuchGroup else .handled (.splice failure)))
  | resting {content : Text} (read : w.tree.readText l.path = .ok content) (applied : l.apply content c = .ok content) :
    Update w c l (w, .ok (restingOutcome l content))
  | refused {content updated : Text} {after : FileTree} {stop : Stop FileFailure}
      (read : w.tree.readText l.path = .ok content) (applied : l.apply content c = .ok updated)
      (changed : updated ≠ content) (replaced : w.tree.replaceText l.path updated = (after, some stop)) :
    Update w c l ({ w with tree := after }, .error (fileStop stop))
  | replaced {content updated : Text} {after : FileTree} (read : w.tree.readText l.path = .ok content)
      (applied : l.apply content c = .ok updated) (changed : updated ≠ content)
      (replaced : w.tree.replaceText l.path updated = (after, none)) :
    Update w c l ({ w with tree := after, journal := w.journal.saveText l.path content }, .ok (outcome l .updated none))

theorem updateListing_update (w : Work) (c : Component) (l : Listing) : Update w c l (updateListing w c l) := by
  unfold updateListing
  cases hread : w.tree.readText l.path with
  | error stop => exact .unread hread
  | ok content =>
    simp only
    cases happly : l.apply content c with
    | error failure =>
      have hstep := Update.unspliced hread happly
      simp only
      split_ifs at hstep ⊢ <;> exact hstep
    | ok updated =>
      simp only
      split_ifs with hsame
      · subst hsame
        exact .resting hread happly
      · cases hrep : w.tree.replaceText l.path updated with
        | mk after refused =>
          cases refused with
          | some stop => exact .refused hread happly hsame hrep
          | none => exact .replaced hread happly hsame hrep

/-- an outcome that belongs to a listing -/
def Reports (l : Listing) (o : Outcome) : Prop := o.name = l.name ∧ o.path = l.path

/-- an outcome that ends the run: a failure at a fatal listing -/
def EndsRun (l : Listing) (o : Outcome) : Prop := o.status = .failed ∧ l.fatal = true

/-- the warning about a listing with its outcome: it failed, and the run goes on without it -/
def warning? (l : Listing) (o : Outcome) : Option Text :=
  if o.status = .failed ∧ l.fatal = false then
    some (l.name ++ " registry not updated: ".toList ++ o.message.getD [])
  else none

/-- the warnings about listings with their outcomes -/
def warnings (ls : List Listing) (os : List Outcome) : List Text := (ls.zip os).filterMap fun x => warning? x.1 x.2

@[simp] theorem warnings_nil (ls : List Listing) : warnings ls [] = [] := by simp [warnings]

@[simp] theorem warnings_cons (l : Listing) (ls : List Listing) (o : Outcome) (os : List Outcome) :
    warnings (l :: ls) (o :: os) = (warning? l o).toList ++ warnings ls os := by
  simp only [warnings, List.zip_cons_cons, List.filterMap_cons]
  cases warning? l o <;> rfl

theorem restingOutcome_status (l : Listing) (content : Text) :
    restingOutcome l content = outcome l (if l.steps.all (·.isAnchored content) then .unchanged else .skipped)
      (restingOutcome l content).message := by
  unfold restingOutcome
  split
  · rename_i step heq
    have hnot : ¬l.steps.all (·.isAnchored content) = true := by
      rw [List.all_eq_true]
      intro hall
      have hstep := List.find?_some heq
      rw [hall step (List.mem_of_find?_eq_some heq)] at hstep
      simp at hstep
    rw [if_neg hnot]
    rfl
  · rename_i heq
    have hall : l.steps.all (·.isAnchored content) = true := by
      rw [List.find?_eq_none] at heq
      simpa using heq
    rw [if_pos hall]
    rfl

/-- a listing that is through belongs to its outcome, which is no failure; the verdict is as it was -/
theorem updateListing_verdict (w : Work) (c : Component) (l : Listing) :
    (updateListing w c l).1.verdict = w.verdict ∧
      ∀ o, (updateListing w c l).2 = .ok o → Reports l o ∧ o.status ≠ .failed := by
  have h := updateListing_update w c l
  generalize updateListing w c l = r at h
  cases h with
  | unread | refused => exact ⟨rfl, by simp⟩
  | unspliced => exact ⟨rfl, by simp only; split_ifs <;> simp⟩
  | resting =>
    refine ⟨rfl, fun o ho => ?_⟩
    rw [← Except.ok.inj ho, restingOutcome_status]
    refine ⟨⟨rfl, rfl⟩, ?_⟩
    simp only [outcome]
    split_ifs <;> simp
  | replaced =>
    refine ⟨rfl, fun o ho => ?_⟩
    rw [← Except.ok.inj ho]
    exact ⟨⟨rfl, rfl⟩, by simp [outcome]⟩

/-- a listing is passed with an outcome on record: it is through, or it failed and does not matter -/
structure Passed (w : Work) (c : Component) (l : Listing) (o : Outcome) (next : Work) : Prop where
  result : (updateListing w c l).2 = .ok o ∨ ∃ failure, (updateListing w c l).2 = .error (.handled failure) ∧
    l.fatal = false ∧ o = outcome l .failed (some failure.message)
  tree : next.tree = (updateListing w c l).1.tree
  verdict : next.verdict = { w.verdict with
    outcomes := w.verdict.outcomes ++ [o], warnings := w.verdict.warnings ++ (warning? l o).toList }

theorem Passed.reports {w next : Work} {c : Component} {l : Listing} {o : Outcome} (h : Passed w c l o next) :
    Reports l o ∧ ¬EndsRun l o := by
  rcases h.result with ho | ⟨failure, -, hf, rfl⟩
  · obtain ⟨hreports, hstatus⟩ := (updateListing_verdict w c l).2 o ho
    exact ⟨hreports, fun hend => hstatus hend.1⟩
  · exact ⟨⟨rfl, rfl⟩, fun hend => absurd (hf.symm.trans hend.2) (by decide)⟩

/-- the first of some listings is passed, or fails and is fatal, or something escapes from it -/
theorem updateListings_cons (w : Work) (c : Component) (l : Listing) :
    (∃ o next, Passed w c l o next ∧ ∀ ls, updateListings w c (l :: ls) = updateListings next c ls) ∨
    (∃ failure, (updateListing w c l).2 = .error (.handled failure) ∧ l.fatal = true ∧
      ∀ ls, updateListings w c (l :: ls) =
        (addOutcome (updateListing w c l).1 (outcome l .failed (some failure.message)), .fatal l failure)) ∨
    ∃ e, (updateListing w c l).2 = .error (.escaped e) ∧
      ∀ ls, updateListings w c (l :: ls) = ((updateListing w c l).1, .escaped e) := by
  obtain ⟨hv, hok⟩ := updateListing_verdict w c l
  cases hu : updateListing w c l with
  | mk after result =>
    rw [hu] at hv hok
    replace hv : after.verdict = w.verdict := hv
    cases result with
    | ok o =>
      refine Or.inl ⟨o, addOutcome after o, ⟨Or.inl (by rw [hu]), by rw [hu]; rfl, ?_⟩,
        fun ls => by rw [updateListings, hu]⟩
      simp [addOutcome, hv, warning?, (hok o rfl).2]
    | error stop =>
      cases stop with
      | escaped e => exact Or.inr (Or.inr ⟨e, rfl, fun ls => by rw [updateListings, hu]⟩)
      | handled failure =>
        cases hf : l.fatal with
        | true => exact Or.inr (Or.inl ⟨failure, rfl, rfl, fun ls => by simp only [updateListings, hu, hf, if_true]⟩)
        | false =>
          refine Or.inl ⟨outcome l .failed (some failure.message),
            addWarning (addOutcome after (outcome l .failed (some failure.message)))
              (l.name ++ " registry not updated: ".toList ++ failure.message),
            ⟨Or.inr ⟨failure, by rw [hu], hf, rfl⟩, by rw [hu]; rfl, ?_⟩,
            fun ls => by simp only [updateListings, hu, hf, Bool.false_eq_true, if_false]⟩
          simp [addOutcome, addWarning, hv, warning?, outcome, hf]

/-- a run that gets through some listings passes the first and gets through the others -/
theorem updateListings_cons_finished {w after : Work} {c : Component} {l : Listing} {ls : List Listing}
    (h : updateListings w c (l :: ls) = (after, .finished)) :
    ∃ o next, Passed w c l o next ∧ updateListings next c ls = (after, .finished) := by
  rcases updateListings_cons w c l with ⟨o, next, hp, heq⟩ | ⟨failure, -, -, heq⟩ | ⟨e, -, heq⟩
  · exact ⟨o, next, hp, heq ls ▸ h⟩
  · simp [heq ls] at h
  · simp [heq ls] at h

/-- a run that gets through some listings gets through the first of them, and then through the others -/
theorem updateListings_append_finished {w after : Work} {c : Component} {before rest : List Listing}
    (h : updateListings w c (before ++ rest) = (after, .finished)) :
    ∃ mid, updateListings w c before = (mid, .finished) ∧ updateListings mid c rest = (after, .finished) := by
  induction before generalizing w with
  | nil => exact ⟨w, rfl, h⟩
  | cons l before ih =>
    rcases updateListings_cons w c l with ⟨o, next, -, heq⟩ | ⟨failure, -, -, heq⟩ | ⟨e, -, heq⟩
    · rw [List.cons_append, heq] at h
      obtain ⟨mid, hmid, hrest⟩ := ih h
      exact ⟨mid, (heq before).trans hmid, hrest⟩
    · simp [heq (before ++ rest)] at h
    · simp [heq (before ++ rest)] at h

/-- where the first of some listings is passed, the turn comes of it and of those that come to their turn after it -/
theorem exists_reached_of_passed {w next : Work} {c : Component} {l : Listing} {ls : List Listing}
    (h : ∀ ls, updateListings w c (l :: ls) = updateListings next c ls) {P : Work → Listing → Prop} :
    (∃ before k rest done, l :: ls = before ++ k :: rest ∧ updateListings w c before = (done, .finished) ∧ P done k) ↔
      P w l ∨
        ∃ before k rest done, ls = before ++ k :: rest ∧ updateListings next c before = (done, .finished) ∧ P done k :=
  exists_turn_of_passed (fun w before done => updateListings w c before = (done, .finished))
    (by simp [updateListings]) (by simp [h])

/-- where the first of some listings is not passed, the turn comes of it alone -/
theorem exists_reached_of_stopped {w : Work} {c : Component} {l : Listing} {ls : List Listing}
    (h : ∀ ls, (updateListings w c (l :: ls)).2 ≠ .finished) {P : Work → Listing → Prop} :
    (∃ before k rest done, l :: ls = before ++ k :: rest ∧ updateListings w c before = (done, .finished) ∧ P done k) ↔
      P w l :=
  exists_turn_of_stopped (fun w before done => updateListings w c before = (done, .finished))
    (by simp [updateListings]) fun hdone => h _ (by rw [hdone])

/-- the outcomes of listings that a run got through: each belongs to its listing, and none ends the run -/
def PassedAll : List Listing → List Outcome → Prop := List.Forall₂ fun l o => Reports l o ∧ ¬EndsRun l o

/-- the outcomes of listings up to the one that ended the run -/
def StoppedAt (l : Listing) (ls : List Listing) (os : List Outcome) : Prop :=
  ∃ before rest earlier o, ls = before ++ l :: rest ∧ os = earlier ++ [o] ∧ PassedAll before earlier ∧ Reports l o ∧
    EndsRun l o

theorem StoppedAt.cons {k l : Listing} {ls : List Listing} {o : Outcome} {os : List Outcome}
    (h : Reports l o ∧ ¬EndsRun l o) (hs : StoppedAt k ls os) : StoppedAt k (l :: ls) (o :: os) := by
  obtain ⟨before, rest, earlier, o', rfl, rfl, hall, hk⟩ := hs
  exact ⟨l :: before, rest, o :: earlier, o', rfl, rfl, .cons h hall, hk⟩

/-- listings are on record one after the other, up to a fatal one that fails, each of the others that fail with a
warning -/
theorem updateListings_verdict {w after : Work} {c : Component} {ls : List Listing} {ending : ListingsEnd}
    (h : updateListings w c ls = (after, ending)) :
    ∃ os, after.verdict = { w.verdict with
        outcomes := w.verdict.outcomes ++ os, warnings := w.verdict.warnings ++ warnings ls os } ∧
      (ending = .finished → PassedAll ls os) ∧ ∀ l failure, ending = .fatal l failure → StoppedAt l ls os := by
  induction ls generalizing w with
  | nil =>
    obtain ⟨rfl, rfl⟩ := Prod.mk.inj h
    exact ⟨[], by simp, fun _ => .nil, by simp⟩
  | cons l ls ih =>
    have hv := (updateListing_verdict w c l).1
    rcases updateListings_cons w c l with ⟨o, next, hp, heq⟩ | ⟨failure, -, hf, heq⟩ | ⟨e, -, heq⟩
    · rw [heq] at h
      obtain ⟨os, hos, hfinished, hfatal⟩ := ih h
      exact ⟨o :: os, by simp [hos, hp.verdict], fun h => .cons hp.reports (hfinished h), fun k failure h =>
        (hfatal k failure h).cons hp.reports⟩
    · rw [heq] at h
      obtain ⟨rfl, rfl⟩ := Prod.mk.inj h
      refine ⟨[outcome l .failed (some failure.message)], ?_, by simp, ?_⟩
      · simp [addOutcome, hv, warning?, hf]
      · rintro k failure' hk
        obtain ⟨rfl, -⟩ := ListingsEnd.fatal.inj hk
        exact ⟨[], ls, [], _, rfl, rfl, .nil, ⟨rfl, rfl⟩, rfl, hf⟩
    · rw [heq] at h
      obtain ⟨rfl, rfl⟩ := Prod.mk.inj h
      exact ⟨[], by simp [hv], by simp, by simp⟩

/-! ## Endings -/

/-- the ways in which a run can end, with its report: turned down, failed at a file, failed at a listing, through with
all of them, or something escaped from one of these steps -/
inductive Ending (s : Settings) (ls : List Listing) (f : Option Formatter) (t : FileTree) (slug title : Text) :
    Report → Prop where
  | turnedDown {invalid : Invalid} (refused : validate s t slug title = .error (.handled invalid)) :
    Ending s ls f t slug title
      ⟨.ok (failed (enter ⟨t, .empty, .fresh⟩ .validating).verdict invalid.message invalid.path?), t, []⟩
  | lookEscaped {e : Escape} (refused : validate s t slug title = .error (.escaped e)) :
    Ending s ls f t slug title (escape (enter ⟨t, .empty, .fresh⟩ .validating) e)
  | uncreated {w : Work} {failure : FileFailure} (accepted : validate s t slug title = .ok (requested s slug title))
      (stopped : createArtifacts (begun t (requested s slug title)) (Artifact.all s (requested s slug title)) =
        (w, some (.handled failure))) :
    Ending s ls f t slug title (undone w failure.message (some failure.path))
  | fileEscaped {w : Work} {e : Escape} (accepted : validate s t slug title = .ok (requested s slug title))
      (stopped : createArtifacts (begun t (requested s slug title)) (Artifact.all s (requested s slug title)) =
        (w, some (.escaped e))) :
    Ending s ls f t slug title (escape w e)
  | unlisted {made after : Work} {l : Listing} {failure : ListingFailure}
      (accepted : validate s t slug title = .ok (requested s slug title))
      (created : createArtifacts (begun t (requested s slug title)) (Artifact.all s (requested s slug title)) =
        (made, none))
      (stopped : updateListings (enter made .mutatingRegistries) (requested s slug title) ls =
        (after, .fatal l failure)) :
    Ending s ls f t slug title
      (undone after ("Failed to update ".toList ++ l.name ++ " registry: ".toList ++ failure.message) (some l.path))
  | listingEscaped {made after : Work} {e : Escape} (accepted : validate s t slug title = .ok (requested s slug title))
      (created : createArtifacts (begun t (requested s slug title)) (Artifact.all s (requested s slug title)) =
        (made, none))
      (stopped : updateListings (enter made .mutatingRegistries) (requested s slug title) ls = (after, .escaped e)) :
    Ending s ls f t slug title (escape after e)
  | finished {made after : Work} (accepted : validate s t slug title = .ok (requested s slug title))
      (created : createArtifacts (begun t (requested s slug title)) (Artifact.all s (requested s slug title)) =
        (made, none))
      (listed : updateListings (enter made .mutatingRegistries) (requested s slug title) ls = (after, .finished)) :
    Ending s ls f t slug title (postProcess after s f)

theorem run_of_valid {s : Settings} {ls : List Listing} {f : Option Formatter} {t : FileTree} {slug title : Text}
    {c : Component} (h : validate s t slug title = .ok c) :
    run s ls f t slug title = build (checked t c) s c ls f := by
  unfold run
  rw [h]
  rfl

theorem run_ending (s : Settings) (ls : List Listing) (f : Option Formatter) (t : FileTree) (slug title : Text) :
    Ending s ls f t slug title (run s ls f t slug title) := by
  cases hv : validate s t slug title with
  | error stop =>
    unfold run
    rw [hv]
    cases stop with
    | escaped e => exact .lookEscaped hv
    | handled invalid => exact .turnedDown hv
  | ok c =>
    obtain ⟨-, -, -, rfl⟩ := validate_ok hv
    rw [run_of_valid hv]
    unfold build
    rw [show enter (checked t (requested s slug title)) .creatingFiles = begun t (requested s slug title) from rfl]
    cases hc : createArtifacts (begun t (requested s slug title)) (Artifact.all s (requested s slug title)) with
    | mk made stop =>
      cases stop with
      | some stop =>
        cases stop with
        | escaped e => exact .fileEscaped hv hc
        | handled failure => exact .uncreated hv hc
      | none =>
        simp only [enlist]
        cases hu : updateListings (enter made .mutatingRegistries) (requested s slug title) ls with
        | mk after ending =>
          cases ending with
          | escaped e => exact .listingEscaped hv hc hu
          | fatal l failure => exact .unlisted hv hc hu
          | finished => exact .finished hv hc hu

/-- the warning about a formatter that is run on a tree: it is wanted, and complains -/
def formatterWarning? (s : Settings) (f : Option Formatter) (t : FileTree) : Option Text :=
  match f with
  | none => none
  | some format =>
    if s.formatEnabled then
      match (format s.formatCommand s.root t).2 with
      | some (.handled fault) => some ("Formatting failed, run it manually: ".toList ++ fault.message)
      | _ => none
    else none

/-- what a run that is through leaves on record: it is done, it warns if the formatter complained, and it called the
formatter once if there is one and it is wanted -/
theorem postProcess_verdict {w : Work} {s : Settings} {f : Option Formatter} {v : Verdict}
    (h : (postProcess w s f).verdict = .ok v) :
    v = { w.verdict with
      phase := .done
      history := w.verdict.history ++ [.postProcessing, .done]
      warnings := w.verdict.warnings ++ (formatterWarning? s f w.tree).toList } ∧
    (postProcess w s f).calls = if f.isSome ∧ s.formatEnabled then [(s.formatCommand, s.root)] else [] := by
  cases f with
  | none =>
    rw [← Except.ok.inj h]
    exact ⟨by simp [enter, Verdict.enter, formatterWarning?], rfl⟩
  | some format =>
    unfold postProcess at h ⊢
    simp only [formatterWarning?] at h ⊢
    cases he : s.formatEnabled with
    | false =>
      rw [he] at h
      rw [← Except.ok.inj h]
      exact ⟨by simp [enter, Verdict.enter], by simp [report]⟩
    | true =>
      rw [he] at h
      rw [enter_tree] at h ⊢
      cases hf : format s.formatCommand s.root w.tree with
      | mk after complaint =>
        simp only [Bool.not_true, Bool.false_eq_true, if_false, hf] at h
        cases complaint with
        | none =>
          rw [← Except.ok.inj h]
          exact ⟨by simp [enter, Verdict.enter], by simp⟩
        | some stop =>
          cases stop with
          | escaped e => simp at h
          | handled fault =>
            rw [← Except.ok.inj h]
            exact ⟨by simp [addWarning, enter, Verdict.enter], by simp⟩

/-- the ways in which a run can return: turned down, failed at a file, failed at a listing, or done -/
theorem run_returns {s : Settings} {ls : List Listing} {f : Option Formatter} {t : FileTree} {slug title : Text}
    {v : Verdict} (h : (run s ls f t slug title).verdict = .ok v) :
    (v.history = [.collectingInput, .validating, .failed] ∧ (run s ls f t slug title).tree = t ∧
      ∃ invalid, validate s t slug title = .error (.handled invalid)) ∨
    (∃ w failure, validate s t slug title = .ok (requested s slug title) ∧
      createArtifacts (begun t (requested s slug title)) (Artifact.all s (requested s slug title)) =
        (w, some (.handled failure)) ∧
      v.history = [.collectingInput, .validating, .creatingFiles, .failed] ∧
      (run s ls f t slug title).tree = w.journal.undo w.tree) ∨
    (∃ made after l failure, validate s t slug title = .ok (requested s slug title) ∧
      createArtifacts (begun t (requested s slug title)) (Artifact.all s (requested s slug title)) = (made, none) ∧
      updateListings (enter made .mutatingRegistries) (requested s slug title) ls = (after, .fatal l failure) ∧
      v.history = [.collectingInput, .validating, .creatingFiles, .mutatingRegistries, .failed] ∧
      (run s ls f t slug title).tree = after.journal.undo after.tree) ∨
    (∃ made after, validate s t slug title = .ok (requested s slug title) ∧
      createArtifacts (begun t (requested s slug title)) (Artifact.all s (requested s slug title)) = (made, none) ∧
      updateListings (enter made .mutatingRegistries) (requested s slug title) ls = (after, .finished) ∧
      v.history = [.collectingInput, .validating, .creatingFiles, .mutatingRegistries, .postProcessing, .done]) := by
  have hend := run_ending s ls f t slug title
  generalize run s ls f t slug title = r at h hend ⊢
  cases hend with
  | turnedDown refused =>
    rw [← Except.ok.inj h]
    exact Or.inl ⟨rfl, rfl, _, refused⟩
  | lookEscaped | fileEscaped | listingEscaped => simp [escape] at h
  | @uncreated w failure hv hc =>
    obtain ⟨_, hw, -⟩ := createArtifacts_verdict hc
    refine Or.inr (Or.inl ⟨w, failure, hv, hc, ?_, rfl⟩)
    rw [← Except.ok.inj h]
    simp [failed, Verdict.enter, Verdict.withError, hw, begun, checked, enter, Verdict.fresh]
  | @unlisted made after l failure hv hc hu =>
    obtain ⟨_, hw, -⟩ := createArtifacts_verdict hc
    obtain ⟨_, hw', -⟩ := updateListings_verdict hu
    refine Or.inr (Or.inr (Or.inl ⟨made, after, l, failure, hv, hc, hu, ?_, rfl⟩))
    rw [← Except.ok.inj h]
    simp [failed, Verdict.enter, Verdict.withError, hw, hw', begun, checked, enter, Verdict.fresh]
  | @finished made after hv hc hu =>
    obtain ⟨_, hw, -⟩ := createArtifacts_verdict hc
    obtain ⟨_, hw', -⟩ := updateListings_verdict hu
    refine Or.inr (Or.inr (Or.inr ⟨made, after, hv, hc, hu, ?_⟩))
    rw [(postProcess_verdict h).1]
    simp [Verdict.enter, hw, hw', begun, checked, enter, Verdict.fresh]

/-! ## Files -/

/-- where a run stands that began at `t` and has made some files: its journal records them, and every file that is new
is in it -/
structure Made (t : FileTree) (w : Work) : Prop where
  records : Journal.Records t w.tree w.journal
  texts : w.journal.savedTexts = []
  files : ∀ l c, t.get? l = none → w.tree.get? l = some (.file c) → ∃ f ∈ w.journal.files, w.tree.locate f = .ok l

/-- the parent of a path made, whole or in part -/
theorem Made.makeParent {t : FileTree} {w : Work} (h : Made t w) (p : Path) : Made t (makeParent w p).1 := by
  have hs := h.records.grows.sound
  have hdeep := Deepens.makeDirs hs p.parent
  have hfiles : ∀ l c, t.get? l = none → (w.tree.makeDirs p.parent).1.get? l = some (.file c) →
      ∃ f ∈ w.journal.files, (w.tree.makeDirs p.parent).1.locate f = .ok l := by
    intro l c hn hl
    obtain ⟨f, hf, hfl⟩ := h.files l c hn (hdeep.file_before hl)
    exact ⟨f, hf, hdeep.locate hfl⟩
  have hprep := makeParent_preparing w p
  generalize Creation.makeParent w p = result at hprep ⊢
  cases hprep with
  | unasked => exact h
  | refused _ making =>
    rw [making] at hdeep hfiles
    exact ⟨h.records.grow hdeep.toGrows, h.texts, hfiles⟩
  | @ready missing tree asked making =>
    have hlook := look_makeDirs hs (p := p.parent) (by rw [making])
    rw [making] at hdeep hfiles hlook
    cases missing with
    | none =>
      refine ⟨?_, h.texts, ?_⟩
      · simpa [Journal.addDir] using h.records.grow hdeep.toGrows
      · simpa [Journal.addDir] using hfiles
    | some d =>
      obtain ⟨l, hl, hn, hdir⟩ := hdeep.toGrows.firstMissing asked hlook
      exact ⟨h.records.addDir hdeep.toGrows hl hn hdir, h.texts, hfiles⟩

theorem createFile_ok {t u : FileTree} {p : Path} {c : Bytes} (h : t.createFile p c = .ok u) :
    ∃ l, t.locate p = .ok l ∧ t.get? l = none ∧ u = t.set l (.file c) := by
  unfold createFile at h
  cases hv : t.vacant p with
  | error e => simp [hv, Except.map] at h
  | ok l =>
    obtain ⟨hl, hn⟩ := vacant_ok hv
    rw [hv] at h
    exact ⟨l, hl, hn, (Except.ok.inj h).symm⟩

/-- an artifact made, whole or in part -/
theorem Made.createArtifact {t : FileTree} {w : Work} (h : Made t w) (a : Artifact) :
    Made t (createArtifact w a).1 := by
  have hp := h.makeParent a.path
  have hfiling := createArtifact_filing w a
  generalize Creation.createArtifact w a = result at hfiling ⊢
  cases hfiling with
  | stranded prepared | refused prepared =>
    rw [prepared] at hp
    exact hp
  | @made ready tree prepared creating =>
    rw [prepared] at hp
    obtain ⟨l, hl, hn, rfl⟩ := createFile_ok creating
    have hne : l ≠ [] := by rintro rfl; simp at hn
    have hg : Grows ready.tree (ready.tree.set l (.file (Utf8.encode a.body))) :=
      .set hp.records.grows.sound hl hn _
    refine ⟨hp.records.addFile hl hn _, hp.texts, fun m c hmn hmc => ?_⟩
    simp only [get?_set ready.tree m _ hne] at hmc
    split_ifs at hmc with hml
    · exact ⟨a.path, by simp [Journal.addFile], hml ▸ hg.locate hl⟩
    · obtain ⟨f, hf, hfl⟩ := hp.files m c hmn hmc
      exact ⟨f, List.mem_append_left _ hf, hg.locate hfl⟩

/-- artifacts made, up to the first that fails -/
theorem Made.createArtifacts {t : FileTree} {w : Work} (h : Made t w) (as : List Artifact) :
    Made t (createArtifacts w as).1 := by
  induction as generalizing w with
  | nil => exact h
  | cons a as ih =>
    have ha := h.createArtifact a
    rcases createArtifacts_cons w a with ⟨next, hc, heq⟩ | ⟨next, e, hc, heq⟩
    · rw [hc] at ha
      rw [heq]
      exact ih ha
    · rw [hc] at ha
      rw [heq]
      exact ha

theorem begun_made {t : FileTree} (h : t.Sound) (c : Component) : Made t (begun t c) :=
  ⟨.start h, rfl, fun l b hn hl => by rw [begun_tree, hn] at hl; simp at hl⟩

/-- undoing files and directories: what the journal covers is gone, and all else is as the work left it -/
theorem Made.undo {t : FileTree} {w : Work} (h : Made t w) (m : Location) :
    (w.journal.Covers w.tree m → (w.journal.undo w.tree).get? m = none) ∧
      (¬w.journal.Covers w.tree m → (w.journal.undo w.tree).get? m = w.tree.get? m) := by
  have := h.records.get?_undo m
  unfold Journal.undo
  rwa [h.texts]

end Componentry.Creation
