import DocumentFilter.Document.Text
import DocumentFilter.Document.Reader
import DocumentFilter.Query.Parse
import DocumentFilter.Query.Resolve
import DocumentFilter.Filter.Matching
import DocumentFilter.Config.Load
import DocumentFilter.GitHub.Source
import DocumentFilter.CommandLine.Report
import DocumentFilter.Main
import DocumentFilter.Proofs.Query.Canonical
import DocumentFilter.Proofs.Filter.Conjunction
import DocumentFilter.Proofs.GitHub.Collection
import DocumentFilter.Proofs.GitHub.Age
import DocumentFilter.Proofs.Config.Scalars
import DocumentFilter.Proofs.Query.Locations
import DocumentFilter.Proofs.CommandLine.Filtering
import DocumentFilter.Proofs.CommandLine.Explaining
import DocumentFilter.Proofs.Time.Universal
import DocumentFilter.Proofs.GitHub.AgeFilter
import DocumentFilter.Proofs.Filter.Totality
import DocumentFilter.Proofs.GitHub.Failures
import DocumentFilter.Proofs.Filter.Order
import DocumentFilter.Proofs.CommandLine.Written
import DocumentFilter.Proofs.Filter.Unsupported
import DocumentFilter.Proofs.GitHub.Pages
import DocumentFilter.Proofs.Query.Position
import DocumentFilter.Proofs.Time.Offset
import DocumentFilter.Proofs.Filter.FieldOrder
import DocumentFilter.Proofs.Config.Forms
import DocumentFilter.Proofs.Config.Normal
import DocumentFilter.Proofs.Config.Defects
import DocumentFilter.Proofs.CommandLine.Endings
import DocumentFilter.Proofs.Number.Whole
import DocumentFilter.Proofs.Query.Shortest
import DocumentFilter.Proofs.Config.Formats
import DocumentFilter.Proofs.Text.StandIns
