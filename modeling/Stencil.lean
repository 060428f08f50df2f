import Stencil.Main
import Stencil.Error.Stated
import Stencil.Files.Folder
import Stencil.Markup.Session
import Stencil.Proofs.Keys
import Stencil.Proofs.Markup.Spelling
import Stencil.Proofs.Markup.Segmentation
import Stencil.Proofs.Markup.Sharing
import Stencil.Proofs.Markup.Placement
import Stencil.Proofs.Markup.Seam
import Stencil.Proofs.Template.Grammar
import Stencil.Proofs.Template.Enclosure
import Stencil.Proofs.Template.Rendering
import Stencil.Proofs.Template.Blame
import Stencil.Proofs.Template.Selecting
import Stencil.Proofs.Template.Concatenation
import Stencil.Proofs.Template.Search
import Stencil.Proofs.Template.Paths
import Stencil.Proofs.Template.Body
import Stencil.Proofs.Template.Continuation
import Stencil.Proofs.Template.Deletion
import Stencil.Proofs.Context.Lookup
import Stencil.Proofs.Template.Operations
import Stencil.Proofs.Template.Agreement
import Stencil.Proofs.Template.Nearest
import Stencil.Proofs.CommandLine.Process
import Stencil.Proofs.CommandLine.Work
import Stencil.Proofs.Context.Checked
import Stencil.Proofs.Template.Checked
import Stencil.Proofs.Text.Padding
import Stencil.Proofs.CommandLine.Selections
import Stencil.Proofs.CommandLine.Options
import Stencil.Proofs.CommandLine.Spelling
import Stencil.Proofs.Template.Drafting
import Stencil.Proofs.Template.Headings
import Stencil.Proofs.Template.SelectorLists
import Stencil.Proofs.Context.Validation
import Stencil.Proofs.Decimal.Exact
import Stencil.Proofs.Decimal.Notation
import Stencil.Proofs.Context.Numbers
import Stencil.Proofs.Template.Registries
import Stencil.Proofs.Template.References
import Stencil.Proofs.Files.Outcomes
import Stencil.Proofs.Markup.Runs
import Stencil.Proofs.CommandLine.Tracing
import Stencil.Proofs.Json.Numbers
import Stencil.Proofs.Json.Grammar
import Stencil.Proofs.Json.Rendering
import Stencil.Proofs.CommandLine.Listings
