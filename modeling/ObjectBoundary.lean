import ObjectBoundary.Entry.Export
import ObjectBoundary.Main
import ObjectBoundary.Proofs.Accounting
import ObjectBoundary.Proofs.Builders
import ObjectBoundary.Proofs.Calendar.Timestamp
import ObjectBoundary.Proofs.Collections
import ObjectBoundary.Proofs.Conversion
import ObjectBoundary.Proofs.Cursors
import ObjectBoundary.Proofs.DueDates
import ObjectBoundary.Proofs.Entry.Agreement
import ObjectBoundary.Proofs.Entry.Compliance
import ObjectBoundary.Proofs.FailedCalls
import ObjectBoundary.Proofs.FailedCreation
import ObjectBoundary.Proofs.Frame
import ObjectBoundary.Proofs.Handle.Bounds
import ObjectBoundary.Proofs.Handle.History
import ObjectBoundary.Proofs.Ids
import ObjectBoundary.Proofs.Lifetime
import ObjectBoundary.Proofs.Marshal.RoundTrip
import ObjectBoundary.Proofs.Model.Declaration
import ObjectBoundary.Proofs.Model.Document
import ObjectBoundary.Proofs.Model.Grammar
import ObjectBoundary.Proofs.Model.Growth
import ObjectBoundary.Proofs.Model.Items
import ObjectBoundary.Proofs.Model.Loading
import ObjectBoundary.Proofs.Model.Places
import ObjectBoundary.Proofs.Model.References
import ObjectBoundary.Proofs.Model.Renumbering
import ObjectBoundary.Proofs.Model.Reordering
import ObjectBoundary.Proofs.Model.Spelling
import ObjectBoundary.Proofs.Model.Types
import ObjectBoundary.Proofs.Model.Validity
import ObjectBoundary.Proofs.Model.WellFormed
import ObjectBoundary.Proofs.Outcomes
import ObjectBoundary.Proofs.Persistence
import ObjectBoundary.Proofs.Readable
import ObjectBoundary.Proofs.Sameness
import ObjectBoundary.Proofs.Search
import ObjectBoundary.Proofs.Setters
import ObjectBoundary.Proofs.Settings
import ObjectBoundary.Proofs.StatusViews
import ObjectBoundary.Proofs.Symbols
import ObjectBoundary.Proofs.Tags
import ObjectBoundary.Proofs.Text.Map
import ObjectBoundary.Proofs.Verdicts
