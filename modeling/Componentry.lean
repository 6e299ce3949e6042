import Componentry.Text.Width
import Componentry.Text.Utf8
import Componentry.Listing
import Componentry.Artifact
import Componentry.FileTree.Basic
import Componentry.FileTree.Access
import Componentry.FileTree.Changes
import Componentry.Verdict
import Componentry.Creation
import Componentry.Formatting
import Componentry.Settings.Loading
import Componentry.Console.Dialogue
import Componentry.Main
import Componentry.Proofs.Rollback
import Componentry.Proofs.Returning
import Componentry.Proofs.Index
import Componentry.Proofs.Specifiers
import Componentry.Proofs.History
import Componentry.Proofs.Navigation
import Componentry.Proofs.Router
import Componentry.Proofs.LineEndings
import Componentry.Proofs.Reapplying
import Componentry.Proofs.Enclosing
import Componentry.Proofs.Keeping
import Componentry.Proofs.Dialogue
import Componentry.Proofs.Coexisting
import Componentry.Proofs.Importing
import Componentry.Proofs.Claiming
import Componentry.Proofs.Splice.Layout
import Componentry.Proofs.Splice.Reformatting
import Componentry.Proofs.Splice.Declaring
import Componentry.Proofs.Conforming
import Componentry.Proofs.Accepting
import Componentry.Proofs.Recognising
import Componentry.Proofs.Hiding
import Componentry.Proofs.FileTree.AllOrNothing
import Componentry.Proofs.Transitions
import Componentry.Proofs.FrontMatter
