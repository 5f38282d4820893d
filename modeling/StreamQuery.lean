import StreamQuery.Analysis.Edit
import StreamQuery.Analysis.OfQuery
import StreamQuery.Json.Reader
import StreamQuery.Json.Writer
import StreamQuery.Stored.Source
import StreamQuery.Text.Order
import StreamQuery.Proofs.Flattening
import StreamQuery.Proofs.Outcome
import StreamQuery.Proofs.ColumnOwners
import StreamQuery.Proofs.GroupedScope
import StreamQuery.Proofs.SelectRecords
import StreamQuery.Proofs.Resolution
import StreamQuery.Proofs.Acceptance
import StreamQuery.Proofs.CompleteAnalysis
import StreamQuery.Proofs.JoinKeys
import StreamQuery.Proofs.NormalForm
import StreamQuery.Proofs.Translation
import StreamQuery.Proofs.RenamedAnalysis
import StreamQuery.Proofs.Histories
import StreamQuery.Proofs.GroupingLists
import StreamQuery.Proofs.NamedSources
import StreamQuery.Proofs.WindowClause
import StreamQuery.Proofs.ErrorLayers
import StreamQuery.Proofs.PropertyPairs
import StreamQuery.Proofs.PropertyText
import StreamQuery.Proofs.StoredForms
import StreamQuery.Proofs.CatalogHistory
import StreamQuery.Proofs.StarNames
import StreamQuery.Proofs.SinkParts
import StreamQuery.Proofs.RefusedEdits
import StreamQuery.Proofs.WindowBounds
import StreamQuery.Proofs.ImplicitArgument
import StreamQuery.Proofs.FoldedNames
import StreamQuery.Proofs.QuotedLiterals
