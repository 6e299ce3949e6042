/-
What the verdict of a run says about the run.

Settings, tree, request, listings and formatter are arbitrary; the run returns a verdict. A verdict is then consistent
(`Consistent`): its fields fit together, and fit what the run did.
- `history`, `phase`: a run goes through one of four courses, and is in the last phase of it;
- `component`: a request that is turned down has no component, every other has the one it asks for;
- `failed`, `done`: a failure has an error, leaves nothing created and never calls the formatter; a run that is done
  has no error, created all artifacts in order, and passed every listing in order;
- `unlisted`, `stopped`: a run that failed before its listings has no outcomes; one that failed at a listing has them up
  to a fatal one that failed;
- `warnings`: one for each listing that failed and is not fatal, then one if the formatter complained;
- `calls`: the formatter is called once if the run is done, there is a formatter and it is wanted, else never.

Main result: `run_consistent`.
-/
import Componentry.Proofs.Creation

namespace Componentry.Creation

open FileTree

/-- the phases of a request that is turned down -/
def turnedDownCourse : List Phase := [.collectingInput, .validating, .failed]

/-- the phases of a run that fails at a file -/
def uncreatedCourse : List Phase := [.collectingInput, .validating, .creatingFiles, .failed]

/-- the phases of a run that fails at a listing -/
def unlistedCourse : List Phase := [.collectingInput, .validating, .creatingFiles, .mutatingRegistries, .failed]

/-- the phases of a run that gets through -/
def doneCourse : List Phase :=
  [.collectingInput, .validating, .creatingFiles, .mutatingRegistries, .postProcessing, .done]

/-- the fields of a verdict fit together, and fit the run that left it with a report -/
structure Consistent (s : Settings) (ls : List Listing) (f : Option Formatter) (t : FileTree) (slug title : Text)
    (r : Report) (v : Verdict) : Prop where
  history : v.history ∈ [turnedDownCourse, uncreatedCourse, unlistedCourse, doneCourse]
  phase : v.history.getLast? = some v.phase
  component : v.component = if v.history = turnedDownCourse then none else some (requested s slug title)
  failed : v.phase = .failed → v.error.isSome ∧ v.created = [] ∧ r.calls = []
  done : v.phase = .done →
    v.error = none ∧ v.created = (Artifact.all s (requested s slug title)).map (·.path) ∧ PassedAll ls v.outcomes
  unlisted : v.history ∈ [turnedDownCourse, uncreatedCourse] → v.outcomes = []
  stopped : v.history = unlistedCourse → ∃ l, StoppedAt l ls v.outcomes
  /-- the formatter is given the tree that the same run leaves without a formatter -/
  warnings : v.warnings = warnings ls v.outcomes ++
    if v.phase = .done then (formatterWarning? s f (run s ls none t slug title).tree).toList else []
  calls : r.calls =
    if v.phase = .done ∧ f.isSome ∧ s.formatEnabled then [(s.formatCommand, s.root)] else []

section

variable {s : Settings} {ls : List Listing} {f : Option Formatter} {t : FileTree} {slug title : Text}

/-- a run that gets through its listings comes to the formatter -/
theorem run_finished {made after : Work} (accepted : validate s t slug title = .ok (requested s slug title))
    (created : createArtifacts (begun t (requested s slug title)) (Artifact.all s (requested s slug title)) =
      (made, none))
    (listed : updateListings (enter made .mutatingRegistries) (requested s slug title) ls = (after, .finished)) :
    run s ls f t slug title = postProcess after s f := by
  rw [run_of_valid accepted]
  unfold build
  rw [show enter (checked t (requested s slug title)) .creatingFiles = begun t (requested s slug title) from rfl, created]
  simp only [enlist, listed]

/-- a run that is done made all artifacts, got through all listings, and came to the formatter -/
theorem run_done {v : Verdict} (h : (run s ls f t slug title).verdict = .ok v) (hd : v.phase = .done) :
    ∃ made after, validate s t slug title = .ok (requested s slug title) ∧
      createArtifacts (begun t (requested s slug title)) (Artifact.all s (requested s slug title)) = (made, none) ∧
      updateListings (enter made .mutatingRegistries) (requested s slug title) ls = (after, .finished) ∧
      run s ls f t slug title = postProcess after s f := by
  have hend := run_ending s ls f t slug title
  generalize run s ls f t slug title = r at h hend ⊢
  cases hend with
  | lookEscaped | fileEscaped | listingEscaped => simp [escape] at h
  | turnedDown | uncreated | unlisted =>
    rw [← Except.ok.inj h] at hd
    simp [Creation.failed, Verdict.enter] at hd
  | finished accepted created listed => exact ⟨_, _, accepted, created, listed, rfl⟩

/-- the verdict of a run that got through its listings: they all passed, and the formatter may have complained -/
theorem verdict_of_finished {made after : Work}
    (created : createArtifacts (begun t (requested s slug title)) (Artifact.all s (requested s slug title)) =
      (made, none))
    (listed : updateListings (enter made .mutatingRegistries) (requested s slug title) ls = (after, .finished))
    {v : Verdict} (h : (postProcess after s f).verdict = .ok v) :
    ∃ os, PassedAll ls os ∧ v = ⟨some (requested s slug title), .done, doneCourse,
      (Artifact.all s (requested s slug title)).map (·.path), os,
      warnings ls os ++ (formatterWarning? s f after.tree).toList, none, none⟩ := by
  obtain ⟨_, hw, hall⟩ := createArtifacts_verdict created
  obtain ⟨os, hw', hpassed, -⟩ := updateListings_verdict listed
  refine ⟨os, hpassed rfl, ?_⟩
  rw [(postProcess_verdict h).1, hw']
  simp only [enter, hw, hall rfl]
  rfl

/-- a verdict that a run returns is consistent -/
theorem run_consistent {v : Verdict} (h : (run s ls f t slug title).verdict = .ok v) :
    Consistent s ls f t slug title (run s ls f t slug title) v := by
  have hend := run_ending s ls f t slug title
  generalize run s ls f t slug title = r at h hend ⊢
  cases hend with
  | lookEscaped | fileEscaped | listingEscaped => simp [escape] at h
  | @turnedDown invalid =>
    obtain rfl : v = ⟨none, .failed, turnedDownCourse, [], [], [], some invalid.message, invalid.path?⟩ :=
      (Except.ok.inj h).symm
    constructor <;> simp [turnedDownCourse, uncreatedCourse, unlistedCourse, doneCourse]
  | @uncreated w failure accepted stopped =>
    obtain ⟨_, hw, -⟩ := createArtifacts_verdict stopped
    obtain rfl : v = ⟨some (requested s slug title), .failed, uncreatedCourse, [], [], [], some failure.message,
        some failure.path⟩ := by
      rw [← Except.ok.inj h, hw]
      rfl
    constructor <;> simp [turnedDownCourse, uncreatedCourse, unlistedCourse, doneCourse, undone]
  | @unlisted made after l failure accepted created stopped =>
    obtain ⟨_, hw, -⟩ := createArtifacts_verdict created
    obtain ⟨os, hw', -, hfatal⟩ := updateListings_verdict stopped
    obtain rfl : v = ⟨some (requested s slug title), .failed, unlistedCourse, [], os, warnings ls os,
        some ("Failed to update ".toList ++ l.name ++ " registry: ".toList ++ failure.message), some l.path⟩ := by
      rw [← Except.ok.inj h, hw']
      simp only [enter, hw]
      rfl
    have hstop : ∃ l, StoppedAt l ls os := ⟨l, hfatal l failure rfl⟩
    constructor <;> simp [turnedDownCourse, uncreatedCourse, unlistedCourse, doneCourse, undone, hstop]
  | @finished made after accepted created listed =>
    obtain ⟨os, hpassed, rfl⟩ := verdict_of_finished created listed h
    have hcalls := (postProcess_verdict h).2
    have htree : (run s ls none t slug title).tree = after.tree := by
      rw [run_finished accepted created listed]
      rfl
    constructor <;>
      simp [turnedDownCourse, uncreatedCourse, unlistedCourse, doneCourse, hcalls, htree, hpassed]

end

/-- a listing that is rewritten, one that fails and does not matter, one whose text stays, and a formatter that
complains -/
theorem run_consistent_complaints :
    let s := Settings.standard (.ofText "repo".toList)
    let t : FileTree := ⟨[], ['0'], [(["repo".toList], .dir), (["repo".toList, "list.ts".toList], .file [0x61, 0x0A])]⟩
    let listing (fatal : Bool) (edit : Text → Except Splice.Fault Text) : Listing :=
      ⟨"list".toList, .ofText "repo/list.ts".toList, [⟨[], .own fun _ content _ => edit content, .exportList,
        Listing.entryFragment⟩], fatal⟩
    let ls := [listing true fun content => .ok (content ++ ['b']), listing false fun _ => .error (.noList .exportList),
      listing true fun content => .ok content]
    let f : Option Formatter := some fun _ _ t => (t, some (.handled .empty))
    let r := run s ls f t "card".toList "Card".toList
    ∃ v, r.verdict = .ok v ∧ v.history = doneCourse ∧
      (r.verdict.toOption.map fun v => (v.outcomes.map (·.status), v.warnings.length)) =
        some ([.updated, .failed, .skipped], 2) ∧
      r.calls.length = 1 ∧ Consistent s ls f t "card".toList "Card".toList r v := by
  intro s t listing ls f r
  obtain ⟨v, hv, hh⟩ := phases?_some (show r.phases? = some doneCourse by decide +kernel)
  exact ⟨v, hv, hh, by decide +kernel, by decide +kernel, run_consistent hv⟩

end Componentry.Creation
