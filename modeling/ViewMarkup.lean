import ViewMarkup.Compiler
import ViewMarkup.Proofs.Build.Calls
import ViewMarkup.Proofs.Build.Closing
import ViewMarkup.Proofs.Build.Identity
import ViewMarkup.Proofs.Build.Levels
import ViewMarkup.Proofs.Build.Likeness
import ViewMarkup.Proofs.Build.Naming
import ViewMarkup.Proofs.Build.Ownership
import ViewMarkup.Proofs.Build.PlainStack
import ViewMarkup.Proofs.Build.Scenes
import ViewMarkup.Proofs.Build.Steps
import ViewMarkup.Proofs.Build.Traversal
import ViewMarkup.Proofs.Identifier.Allocation
import ViewMarkup.Proofs.Identifier.Occurrences
import ViewMarkup.Proofs.Identifier.Search
import ViewMarkup.Proofs.Identifier.Series
import ViewMarkup.Proofs.Markup.Depiction
import ViewMarkup.Proofs.Markup.Grammar
import ViewMarkup.Proofs.Markup.Handlers
import ViewMarkup.Proofs.Markup.Inheritance
import ViewMarkup.Proofs.Markup.Locality
import ViewMarkup.Proofs.Markup.Matching
import ViewMarkup.Proofs.Markup.Reader
import ViewMarkup.Proofs.Markup.Visits
import ViewMarkup.Proofs.Program.Anonymity
import ViewMarkup.Proofs.Program.Attachments
import ViewMarkup.Proofs.Program.Containers
import ViewMarkup.Proofs.Program.Exhaustion
import ViewMarkup.Proofs.Program.Faults
import ViewMarkup.Proofs.Program.Mirroring
import ViewMarkup.Proofs.Program.Nesting
import ViewMarkup.Proofs.Program.Outlines
import ViewMarkup.Proofs.Program.Stripping
import ViewMarkup.Proofs.Program.Trail
import ViewMarkup.Proofs.Text.Unescape
import ViewMarkup.Proofs.Text.Unquote
import ViewMarkup.Proofs.Tree.Ancestry
import ViewMarkup.Proofs.Tree.Editing
import ViewMarkup.Proofs.Tree.Likeness
import ViewMarkup.Proofs.Tree.Modifying
import ViewMarkup.Proofs.Tree.Shape
import ViewMarkup.Proofs.Tree.Unfolding
import ViewMarkup.Tree.Lemmas
