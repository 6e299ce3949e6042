/-
The dialogue of the command line: which questions are asked, what is shown, and how it ends.

A question is asked until its answer is good. `start` is the beginning of a dialogue and `answer` one step of it; a
whole dialogue is the steps over the lines that are typed, and the end of the input cancels it. What a dialogue runs on, a
call stack, a screen and a formatter, is a parameter of all of them. Texts hold no lone surrogates, also where they are
typed; what could not be printed or passed on for having one is a matter of the screen and the formatter.
-/
import Componentry.Console.Command
import Componentry.Console.Screen
import Componentry.Creation
import Componentry.Formatting
import Componentry.Settings.Report
import Componentry.Text.Lines

namespace Componentry.Console

/-- a question: for the name of a component, or for its title once the name is known -/
inductive Question where
  | name (root : Path) (settings : Settings)
  | title (root : Path) (settings : Settings) (slug : Text)

/-- how a dialogue goes on: with a question, or not at all -/
inductive Next where
  | ask (question : Question)
  | leave (code : Nat)
  | broken (refusal : Screen.Refusal)
  | unsettled (failure : Settings.Failure)
  | escaped (escape : Escape)

/-- what a dialogue runs on -/
structure Machine where
  stack : Settings.Stack
  screen : Screen
  formatter : Formatter

/-- a machine with an endless call stack, the usual screen, and the commands that can be found -/
def Machine.usual : Machine := ⟨.unbounded, .usual, Formatting.run⟩

/-- what a step shows, the tree it leaves, and how it goes on -/
structure Reply where
  shown : Text
  tree : FileTree
  next : Next

/-! ## What is shown -/

/-- the line with the version -/
def versionLine : Text := "kgscaffold version 0.1.0 (not installed)\n".toList

/-- the text of a question -/
def Question.text : Question → Text
  | .name .. => "Component name (kebab-case, e.g. button): ".toList
  | .title .. => "Component title (e.g. Button): ".toList

/-- the block for an answer that is not good, and for one that does not come -/
def problemBlock (problem : Text) : Block := .text (Markup.inStyle "red" ['✖'] ++ [' '] ++ problem)

/-- a path as seen from the root if it is below it -/
def relativeText (root p : Path) : Text :=
  match p.relativeTo? root with
  | some below => below.text
  | none => p.text

/-- the style of a status -/
def statusStyle : Status → String
  | .updated => "green"
  | .unchanged => "dim"
  | .skipped => "yellow"
  | .failed => "red"

/-- the status of a listing, and why it has it -/
def statusText (o : Outcome) : Text :=
  Markup.inStyle (statusStyle o.status) o.status.word ++ (match o.message with
    | some m => if m = [] then [] else [' '] ++ m
    | none => [])

/-- the table of what a run did -/
def summary (root : Path) (v : Verdict) : Table where
  title := "Scaffold summary".toList
  heads := ["File".toList, "Status".toList]
  rows := v.created.map (fun p => [relativeText root p, Markup.inStyle "green" "created".toList]) ++
    v.outcomes.map fun o => [relativeText root o.path, statusText o]

/-- what is shown of a run that failed -/
def failureBlocks (v : Verdict) : List Block :=
  let place := match v.errorPath with
    | some p => " (".toList ++ p.text ++ [')']
    | none => []
  [.text (Markup.inStyle "red" "✖ Error:".toList ++ [' '] ++ v.error.getD "None".toList ++ place)] ++
    (if v.component.isSome then [.text (Markup.inStyle "dim" "No component files were kept.".toList)] else [])

/-- what is shown of a run that succeeded -/
def successBlocks (root : Path) (v : Verdict) (c : Component) : List Block :=
  [.text (Markup.inStyle "green" ['✔'] ++ " Component ".toList ++ Markup.inStyle "bold" c.slug ++ " (".toList ++
      c.title ++ ") created as ".toList ++ c.tagName),
    .table (summary root v)] ++
  v.warnings.map fun w => .text (Markup.inStyle "yellow" "Warning:".toList ++ [' '] ++ w)

/-- what is shown of a run -/
def verdictBlocks (root : Path) (v : Verdict) : List Block :=
  match v.ok, v.component with
  | true, some c => successBlocks root v c
  | _, _ => failureBlocks v

/-- what is shown before a run -/
def noticeBlocks (s : Settings) : List Block :=
  if s.formatEnabled then [.text (Markup.inStyle "dim" "Scaffolding and formatting...".toList)] else []

/-! ## Steps -/

section

variable (machine : Machine)

/-- a reply that shows blocks and goes on, unless one of them is refused -/
def showing (t : FileTree) (blocks : List Block) (next : Next) : Reply :=
  match machine.screen.shownAll blocks with
  | (shown, none) => ⟨shown, t, next⟩
  | (shown, some refusal) => ⟨shown, t, .broken refusal⟩

/-- a reply with the text of its question, if it ends in one -/
def Reply.withQuestion (r : Reply) : Reply :=
  match r.next with
  | .ask q => { r with shown := r.shown ++ q.text }
  | _ => r

/-- a reply that shows blocks and asks a question -/
def asking (t : FileTree) (blocks : List Block) (q : Question) : Reply :=
  (showing machine t blocks (.ask q)).withQuestion

/-- the root that is used when none is given: the nearest marked directory upward, or the current one -/
def usualRoot (t : FileTree) : Except FileTree.Trouble Path :=
  (Settings.discoverRoot t ⟨.here, []⟩).map fun found => found.getD (t.absolute ⟨.here, []⟩)

/-- the beginning of a dialogue at a root: its settings must be good -/
def opening (t : FileTree) (root : Path) (formatted : Bool) : Reply :=
  let overrides : Fields := if formatted then [] else [("format_enabled".toList, .flag false)]
  match Settings.loadOn machine.stack t root overrides with
  | .ok s => asking machine t [] (.name root s)
  | .error f =>
    if f.isHandled then
      showing machine t [.text (Markup.inStyle "red" "Error:".toList ++ [' '] ++ f.fullMessage)] (.leave 1)
    else ⟨[], t, .unsettled f⟩

/-- the beginning of a dialogue -/
def start (t : FileTree) (args : List Text) : Reply :=
  match Command.ofArgs t args with
  | .error .usage => ⟨[], t, .leave 2⟩
  | .error (.unusable trouble) => ⟨[], t, .escaped (.trouble trouble)⟩
  | .ok .version => ⟨versionLine, t, .leave 0⟩
  | .ok (.component (some root) formatted) => opening machine t root formatted
  | .ok (.component none formatted) =>
    match usualRoot t with
    | .ok root => opening machine t root formatted
    | .error e => ⟨[], t, .escaped (.trouble e)⟩

/-- the run that a dialogue leads to, and its end -/
def finish (t : FileTree) (root : Path) (s : Settings) (slug title : Text) : Reply :=
  match machine.screen.shownAll (noticeBlocks s) with
  | (shown, some refusal) => ⟨shown, t, .broken refusal⟩
  | (shown, none) =>
    let r := Creation.run s (Listing.all s) (some machine.formatter) t slug title
    let last := match r.verdict with
      | .ok v => showing machine r.tree (verdictBlocks root v) (.leave (if v.ok then 0 else 1))
      | .error e => ⟨[], r.tree, .escaped e⟩
    { last with shown := shown ++ last.shown }

/-- what is wrong with a name, if anything: its form, or a component that is there already -/
def nameProblem? (t : FileTree) (s : Settings) (slug : Text) : Except FileTree.Trouble (Option Text) :=
  match Slug.problem? slug with
  | some p => .ok (some p.message)
  | none =>
    (Creation.firstTaken t (Creation.places s slug)).map fun taken =>
      taken.map fun _ => "Component '".toList ++ slug ++ "' already exists".toList

/-- a good answer or a bad one to a question; an empty line is none -/
def respond (t : FileTree) (q : Question) (line : Text) : Reply :=
  if line = [] then asking machine t [] q
  else match q with
    | .name root s =>
      let slug := Text.trim line
      match nameProblem? t s slug with
      | .error e => ⟨[], t, .escaped (.trouble e)⟩
      | .ok (some problem) => asking machine t [problemBlock problem] q
      | .ok none => asking machine t [] (.title root s slug)
    | .title root s slug =>
      let title := Text.trim line
      match Title.problem? title with
      | some problem => asking machine t [problemBlock problem] q
      | none => finish machine t root s slug title

/-- the step after a question: the line that was typed, or none at the end of the input -/
def answer (t : FileTree) (q : Question) : Option Text → Reply
  | none => showing machine t [problemBlock "Cancelled".toList] (.leave 1)
  | some line => respond machine t q line

end

/-! ## What a dialogue looks at -/

/-- the paths that the beginning of a dialogue looks at -/
def sightsAtStart (t : FileTree) (args : List Text) : List Path :=
  let here := t.absolute ⟨.here, []⟩
  let marked := (here :: here.ancestors).flatMap fun dir => Settings.markers.map dir.child
  let roots := args.flatMap fun arg => [arg, arg.drop 2, (Options.splitValue arg).2.getD []]
  marked ++ (roots.map Path.ofText).flatMap fun root => [root, Settings.filePath root]

/-- the paths that the step after a question looks at -/
def Question.sights (q : Question) (line : Text) : List Path :=
  match q with
  | .name _ s => Creation.places s (Text.trim line)
  | .title _ s slug => Creation.places s slug ++ (Listing.all s).map (·.path)

/-! ## Whole dialogues -/

/-- the lines of an input; the last one needs no line ending -/
def inputLines (input : Text) : List Text :=
  let pieces := Text.splitAt '\n' (Text.universalNewlines input)
  if pieces.getLast? = some [] then pieces.dropLast else pieces

/-- a reply followed by the steps over typed lines; a line that is typed stands after its question -/
def follow (machine : Machine) (r : Reply) (lines : List Text) : Reply :=
  match r.next, lines with
  | .ask q, [] =>
    let last := answer machine r.tree q none
    { last with shown := r.shown ++ last.shown }
  | .ask q, line :: rest =>
    let step := answer machine r.tree q (some line)
    follow machine { step with shown := r.shown ++ line ++ ['\n'] ++ step.shown } rest
  | _, _ => r

/-- a whole dialogue on the usual machine -/
def converse (t : FileTree) (args : List Text) (input : Text) : Reply :=
  follow .usual (start .usual t args) (inputLines input)

end Componentry.Console
