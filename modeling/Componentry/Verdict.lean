/-
The verdict of a run: the phases it went through, what it created, what became of each listing, and why it failed.

A verdict moves from phase to phase and never leaves a final one.
-/
import Componentry.Component
import Componentry.Path
import Componentry.Text.Quoted

namespace Componentry

/-- the phases of a run -/
inductive Phase where
  | collectingInput
  | validating
  | creatingFiles
  | mutatingRegistries
  | postProcessing
  | done
  | failed
  deriving DecidableEq

namespace Phase

/-- the word for a phase -/
def word : Phase → Text
  | .collectingInput => "collecting_input".toList
  | .validating => "validating".toList
  | .creatingFiles => "creating_files".toList
  | .mutatingRegistries => "mutating_registries".toList
  | .postProcessing => "post_processing".toList
  | .done => "done".toList
  | .failed => "failed".toList

/-- all phases -/
def all : List Phase :=
  [.collectingInput, .validating, .creatingFiles, .mutatingRegistries, .postProcessing, .done, .failed]

/-- the phase a word stands for -/
def ofWord? (w : Text) : Option Phase := all.find? fun p => p.word = w

/-- the wording for a word that stands for no phase -/
def unknownMessage (w : Text) : Text := Text.quoted w ++ " is not a valid RunState".toList

/-- whether a run ends in the phase -/
def isFinal (p : Phase) : Bool := p = .done || p = .failed

end Phase

/-- what became of a listing -/
inductive Status where
  | updated
  | unchanged
  | skipped
  | failed
  deriving DecidableEq

namespace Status

/-- the word for a status -/
def word : Status → Text
  | .updated => "updated".toList
  | .unchanged => "unchanged".toList
  | .skipped => "skipped".toList
  | .failed => "failed".toList

/-- the status a word stands for -/
def ofWord? (w : Text) : Option Status :=
  [Status.updated, .unchanged, .skipped, .failed].find? fun s => s.word = w

/-- a status field -/
def read : Datum.Reader Status := fun place d =>
  match d with
  | .text w =>
    match ofWord? w with
    | some s => .ok s
    | none => Datum.refuse place .notStatus
  | _ => Datum.refuse place .notStatus

end Status

/-- what became of one listing -/
structure Outcome where
  name : Text
  path : Path
  status : Status
  message : Option Text
  deriving DecidableEq

/-- the outcome a record describes -/
def Outcome.ofFields (fields : Fields) : Checked Outcome :=
  Outcome.mk <$>
    fields.required "name".toList Datum.readText <*>
    (Path.ofText <$> fields.required "path".toList Datum.readPathText) <*>
    fields.required "status".toList Status.read <*>
    fields.optional "message".toList Datum.readOptionalText none

/-- the verdict of a run -/
structure Verdict where
  component : Option Component
  phase : Phase
  history : List Phase
  created : List Path
  outcomes : List Outcome
  warnings : List Text
  error : Option Text
  errorPath : Option Path
  deriving DecidableEq

namespace Verdict

/-- the verdict of a run that has not begun -/
def fresh : Verdict where
  component := none
  phase := .collectingInput
  history := [.collectingInput]
  created := []
  outcomes := []
  warnings := []
  error := none
  errorPath := none

/-- whether the run succeeded -/
def ok (v : Verdict) : Bool := v.phase = .done

/-- a move refused because the run is over, in the given phase -/
structure Finished where
  phase : Phase
  deriving DecidableEq

/-- the wording of a refused move -/
def Finished.message (f : Finished) : Text := "Run already finished in state ".toList ++ f.phase.word

/-- the verdict in another phase -/
def enter (v : Verdict) (p : Phase) : Verdict := { v with phase := p, history := v.history ++ [p] }

/-- the verdict in another phase, unless the run is over -/
def advance (v : Verdict) (p : Phase) : Except Finished Verdict :=
  if v.phase.isFinal then .error ⟨v.phase⟩ else .ok (v.enter p)

/-- the verdict with an error on record -/
def withError (v : Verdict) (message : Text) (path : Option Path) : Verdict :=
  { v with error := some message, errorPath := path }

/-- the verdict of a run that fails; the error is on record even where the move is refused -/
def fail (v : Verdict) (message : Text) (path : Option Path) : Verdict × Option Finished :=
  let noted := v.withError message path
  match noted.advance .failed with
  | .ok moved => (moved, none)
  | .error refused => (noted, some refused)

/-- the outcome recorded first for a listing -/
def outcome? (v : Verdict) (name : Text) : Option Outcome := v.outcomes.find? fun o => o.name = name

end Verdict

end Componentry
