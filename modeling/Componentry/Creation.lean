/-
Creating a component: its request is checked, its files are made, every listing is updated and the formatter is run.

A run ends in a verdict. A failure while files are made, or at a fatal listing, undoes what the run did; a failure at
another listing becomes a warning.
-/
import Componentry.Artifact
import Componentry.Journal
import Componentry.Listing
import Componentry.Verdict

namespace Componentry

/-- why a request is turned down -/
inductive Creation.Invalid where
  | slug (slug : Text) (problem : Slug.Problem)
  | title (slug : Text)
  | taken (slug : Text) (path : Path)
  deriving DecidableEq

/-- why a listing was not updated -/
inductive Creation.ListingFailure where
  | splice (failure : Listing.Failure)
  | file (failure : FileFailure)

/-- why a formatter failed -/
inductive FormatFault where
  | empty
  | notStarted (command : List Text) (trouble : FileTree.Trouble)
  | exited (command : List Text) (code : Int) (stderr : Text)
  | reported (message : Text)
  deriving DecidableEq

/-- a formatter: run with a command in a directory, it leaves a tree and goes through or not -/
abbrev Formatter := List Text → Path → FileTree → FileTree × Option (Stop FormatFault)

/-- the wording of a formatter's failure -/
def FormatFault.message : FormatFault → Text
  | .empty => "Formatter command is empty".toList
  | .notStarted command t =>
    "Failed to start formatter ".toList ++ Text.quoted (command.headD []) ++ ": ".toList ++ t.message
  | .exited command code _ =>
    "Formatter ".toList ++ Text.quoted (Text.join [' '] command) ++ " exited with code ".toList ++ Text.ofInt code
  | .reported message => message

namespace Creation

/-- the wording of a turned down request -/
def Invalid.message : Invalid → Text
  | .slug _ problem => problem.message
  | .title _ => Title.blankMessage
  | .taken s p => "Component '".toList ++ s ++ "' already exists at ".toList ++ p.text

/-- the slug of a turned down request -/
def Invalid.request : Invalid → Text
  | .slug s _ | .title s | .taken s _ => s

/-- the path that is in the way of a request -/
def Invalid.path? : Invalid → Option Path
  | .taken _ path => some path
  | _ => none

/-- the wording of a listing's failure -/
def ListingFailure.message : ListingFailure → Text
  | .splice failure => failure.fault.message
  | .file failure => failure.message

/-! ## Validation -/

/-- the first of some paths that leads to something -/
def firstTaken (t : FileTree) : List Path → Except FileTree.Trouble (Option Path)
  | [] => .ok none
  | p :: ps =>
    match t.isPresent p with
    | .error e => .error e
    | .ok true => .ok (some p)
    | .ok false => firstTaken t ps

/-- the directories that a component with a slug is to get -/
def places (s : Settings) (slug : Text) : List Path := [s.componentDir slug, s.docDir slug]

/-- the component of a request: slug and title are well formed, and its directories are not there yet -/
def validate (s : Settings) (t : FileTree) (slug title : Text) : Except (Stop Invalid) Component :=
  match Slug.problem? slug with
  | some problem => .error (.handled (.slug slug problem))
  | none =>
    if Title.isBlank title then .error (.handled (.title slug))
    else match firstTaken t (places s slug) with
      | .error e => .error (.escaped (.trouble e))
      | .ok (some p) => .error (.handled (.taken slug p))
      | .ok none => .ok ⟨slug, Text.trim title, s.tagPrefix, s.cssPrefix⟩

/-! ## Files -/

/-- the state of a run: the tree, the journal and the verdict so far -/
structure Work where
  tree : FileTree
  journal : Journal
  verdict : Verdict

/-- the work with the directory of a path made, the outermost missing one in the journal -/
def makeParent (w : Work) (p : Path) : Work × Option FileTree.Trouble :=
  match w.tree.firstMissing p.ancestors with
  | .error e => (w, some e)
  | .ok missing =>
    match w.tree.makeDirs p.parent with
    | (partly, some e) => ({ w with tree := partly }, some e)
    | (ready, none) => ({ w with tree := ready, journal := w.journal.addDir missing }, none)

/-- the work with an artifact made -/
def createArtifact (w : Work) (a : Artifact) : Work × Option FileTree.Trouble :=
  match makeParent w a.path with
  | (partly, some e) => (partly, some e)
  | (ready, none) =>
    match ready.tree.createFile a.path (Utf8.encode a.body) with
    | .error e => (ready, some e)
    | .ok tree =>
      ({ tree := tree, journal := ready.journal.addFile a.path,
         verdict := { ready.verdict with created := ready.verdict.created ++ [a.path] } }, none)

/-- the work with artifacts made, up to the first that fails -/
def createArtifacts (w : Work) : List Artifact → Work × Option (Stop FileFailure)
  | [] => (w, none)
  | a :: rest =>
    match createArtifact w a with
    | (partly, some e) => (partly, some (FileFailure.stop .creating a.path e))
    | (next, none) => createArtifacts next rest

/-! ## Listings -/

/-- the outcome of a listing -/
def outcome (l : Listing) (status : Status) (message : Option Text) : Outcome := ⟨l.name, l.path, status, message⟩

/-- the outcome of a listing whose text stays as it is: skipped if the anchor of a step is missing -/
def restingOutcome (l : Listing) (content : Text) : Outcome :=
  match l.steps.find? fun step => !step.isAnchored content with
  | some step =>
    outcome l .skipped (some ("No ".toList ++ step.description ++ " found, entry not added".toList))
  | none => outcome l .unchanged (some "Entry already present".toList)

/-- a listing's failure at its file -/
def fileStop : Stop FileFailure → Stop ListingFailure
  | .handled f => .handled (.file f)
  | .escaped e => .escaped e

/-- the work with a listing updated, and its outcome -/
def updateListing (w : Work) (c : Component) (l : Listing) : Work × Except (Stop ListingFailure) Outcome :=
  match w.tree.readText l.path with
  | .error stop => (w, .error (fileStop stop))
  | .ok content =>
    match l.apply content c with
    | .error failure =>
      if failure.fault = .noSuchGroup then (w, .error (.escaped .noSuchGroup))
      else (w, .error (.handled (.splice failure)))
    | .ok updated =>
      if updated = content then (w, .ok (restingOutcome l content))
      else match w.tree.replaceText l.path updated with
        | (after, some stop) => ({ w with tree := after }, .error (fileStop stop))
        | (after, none) =>
          ({ w with tree := after, journal := w.journal.saveText l.path content }, .ok (outcome l .updated none))

/-- the work with an outcome on record -/
def addOutcome (w : Work) (o : Outcome) : Work :=
  { w with verdict := { w.verdict with outcomes := w.verdict.outcomes ++ [o] } }

/-- the work with a warning on record -/
def addWarning (w : Work) (warning : Text) : Work :=
  { w with verdict := { w.verdict with warnings := w.verdict.warnings ++ [warning] } }

/-- how the update of the listings ended -/
inductive ListingsEnd where
  | finished
  | fatal (listing : Listing) (failure : ListingFailure)
  | escaped (escape : Escape)

/-- the work with listings updated, up to a fatal one that fails -/
def updateListings (w : Work) (c : Component) : List Listing → Work × ListingsEnd
  | [] => (w, .finished)
  | l :: rest =>
    match updateListing w c l with
    | (after, .error (.escaped e)) => (after, .escaped e)
    | (after, .ok o) => updateListings (addOutcome after o) c rest
    | (after, .error (.handled failure)) =>
      let noted := addOutcome after (outcome l .failed (some failure.message))
      if l.fatal then (noted, .fatal l failure)
      else updateListings
        (addWarning noted (l.name ++ " registry not updated: ".toList ++ failure.message)) c rest

/-! ## Runs -/

/-- what a run leaves: its verdict unless something escaped, the tree, and the calls of the formatter -/
structure Report where
  verdict : Except Escape Verdict
  tree : FileTree
  calls : List (List Text × Path)

/-- the work in the next phase -/
def enter (w : Work) (p : Phase) : Work := { w with verdict := w.verdict.enter p }

/-- the report of a run that ends with its verdict -/
def report (w : Work) : Report := ⟨.ok w.verdict, w.tree, []⟩

/-- the report of a run that something escaped from -/
def escape (w : Work) (e : Escape) : Report := ⟨.error e, w.tree, []⟩

/-- the verdict in its last phase, with an error on record -/
def failed (v : Verdict) (message : Text) (path : Option Path) : Verdict := (v.withError message path).enter .failed

/-- the report of a run that fails and undoes what it did -/
def undone (w : Work) (message : Text) (path : Option Path) : Report :=
  ⟨.ok (failed { w.verdict with created := [] } message path), w.journal.undo w.tree, []⟩

/-- the end of a run: the formatter, where there is one and it is wanted -/
def postProcess (w : Work) (s : Settings) (formatter : Option Formatter) : Report :=
  let w := enter w .postProcessing
  match formatter with
  | none => report (enter w .done)
  | some format =>
    if !s.formatEnabled then report (enter w .done)
    else
      let calls := [(s.formatCommand, s.root)]
      match format s.formatCommand s.root w.tree with
      | (after, none) => ⟨.ok (w.verdict.enter .done), after, calls⟩
      | (after, some (.escaped e)) => ⟨.error e, after, calls⟩
      | (after, some (.handled fault)) =>
        let warned := addWarning w ("Formatting failed, run it manually: ".toList ++ fault.message)
        ⟨.ok (warned.verdict.enter .done), after, calls⟩

/-- the part of a run after its files are made -/
def enlist (w : Work) (s : Settings) (c : Component) (listings : List Listing) (formatter : Option Formatter) :
    Report :=
  match updateListings (enter w .mutatingRegistries) c listings with
  | (after, .escaped e) => escape after e
  | (after, .fatal l failure) =>
    undone after ("Failed to update ".toList ++ l.name ++ " registry: ".toList ++ failure.message) (some l.path)
  | (after, .finished) => postProcess after s formatter

/-- the part of a run after its request is checked -/
def build (w : Work) (s : Settings) (c : Component) (listings : List Listing) (formatter : Option Formatter) : Report :=
  match createArtifacts (enter w .creatingFiles) (Artifact.all s c) with
  | (partly, some (.escaped e)) => escape partly e
  | (partly, some (.handled failure)) => undone partly failure.message (some failure.path)
  | (made, none) => enlist made s c listings formatter

/-- a run: creates a component with a slug and a title, and adds it to the listings -/
def run (s : Settings) (listings : List Listing) (formatter : Option Formatter) (t : FileTree) (slug title : Text) :
    Report :=
  let w : Work := enter ⟨t, .empty, .fresh⟩ .validating
  match validate s t slug title with
  | .error (.escaped e) => escape w e
  | .error (.handled invalid) => ⟨.ok (failed w.verdict invalid.message invalid.path?), t, []⟩
  | .ok c => build { w with verdict := { w.verdict with component := some c } } s c listings formatter

end Creation

end Componentry
