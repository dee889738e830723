import Portability.Bundled
import Portability.Log.Outlet
import Portability.Policy.Workshop
import Portability.Value.Reader
import Portability.Yaml.Document
import Portability.Proofs.Containment
import Portability.Proofs.Identifier.RoundTrip
import Portability.Proofs.Policy.Allowance
import Portability.Proofs.Policy.Deprecation
import Portability.Proofs.Walk.Verdict
import Portability.Proofs.Policy.Listing
import Portability.Proofs.Metered
import Portability.Proofs.Walk.Cancellation
import Portability.Proofs.Source.Session
import Portability.Proofs.Store
import Portability.Proofs.Identifier.Id
import Portability.Proofs.Source.Lines
import Portability.Proofs.Listed
import Portability.Proofs.Source.Pieces
import Portability.Proofs.Source.Agreement
import Portability.Proofs.Source.Written
import Portability.Proofs.Growth
import Portability.Proofs.Policy.Making
import Portability.Proofs.Walk.Once
import Portability.Proofs.Walk.Nesting
import Portability.Proofs.Walk.Special
import Portability.Proofs.Catalog.Contents
import Portability.Proofs.Catalog.Compaction
import Portability.Proofs.Source.Polls
import Portability.Proofs.Source.Exactness
import Portability.Proofs.Source.Questions
import Portability.Proofs.Bookkeeping
import Portability.Proofs.Source.Fallback
import Portability.Proofs.Source.Async
import Portability.Proofs.Identifier.Parts
import Portability.Proofs.Policy.Selection
import Portability.Proofs.Policy.Inquiry
import Portability.Proofs.Policy.Cancelled
import Portability.Proofs.Path
import Portability.Proofs.Policy.Lists
import Portability.Proofs.Policy.Configured
import Portability.Proofs.Settings.Document
import Portability.Proofs.Identifier.Sorting
