import TemplateLint.Allowlist
import TemplateLint.Catalog.Basic
import TemplateLint.Catalog.Key
import TemplateLint.Command.Basic
import TemplateLint.Command.Reader
import TemplateLint.Command.Run
import TemplateLint.Disk.Basic
import TemplateLint.Document.File
import TemplateLint.Document.Listing
import TemplateLint.Glob
import TemplateLint.Helper
import TemplateLint.Issue
import TemplateLint.Json.Basic
import TemplateLint.Json.Cursor
import TemplateLint.Json.Decode
import TemplateLint.Json.Fault
import TemplateLint.Json.Printer
import TemplateLint.Json.Reader
import TemplateLint.Json.Scalar
import TemplateLint.Json.Typed
import TemplateLint.Main
import TemplateLint.Number.Binary64
import TemplateLint.Number.Shortest
import TemplateLint.Path
import TemplateLint.Proofs.Accounting
import TemplateLint.Proofs.Addresses
import TemplateLint.Proofs.Calls
import TemplateLint.Proofs.Candidates
import TemplateLint.Proofs.CatalogFile
import TemplateLint.Proofs.Checks
import TemplateLint.Proofs.Commuting
import TemplateLint.Proofs.Composition
import TemplateLint.Proofs.Configuring
import TemplateLint.Proofs.Coverage
import TemplateLint.Proofs.Cuts
import TemplateLint.Proofs.Decoding
import TemplateLint.Proofs.Edits
import TemplateLint.Proofs.Entries
import TemplateLint.Proofs.Exclusions
import TemplateLint.Proofs.ExitStatus
import TemplateLint.Proofs.Extents
import TemplateLint.Proofs.FailedFixes
import TemplateLint.Proofs.Files
import TemplateLint.Proofs.Findings
import TemplateLint.Proofs.Fixing
import TemplateLint.Proofs.Forecast
import TemplateLint.Proofs.Ignoring
import TemplateLint.Proofs.InPlace
import TemplateLint.Proofs.Insertions
import TemplateLint.Proofs.Keys
import TemplateLint.Proofs.Listings
import TemplateLint.Proofs.Matching
import TemplateLint.Proofs.Nesting
import TemplateLint.Proofs.NoDocument
import TemplateLint.Proofs.Normalizing
import TemplateLint.Proofs.Outline
import TemplateLint.Proofs.Partition
import TemplateLint.Proofs.Pieces
import TemplateLint.Proofs.Positions
import TemplateLint.Proofs.Printed
import TemplateLint.Proofs.RawReading
import TemplateLint.Proofs.ReadBack
import TemplateLint.Proofs.Refinement
import TemplateLint.Proofs.Refixing
import TemplateLint.Proofs.Remainders
import TemplateLint.Proofs.Repeated
import TemplateLint.Proofs.Reporting
import TemplateLint.Proofs.Resolution
import TemplateLint.Proofs.Rewriting
import TemplateLint.Proofs.RoundTrip
import TemplateLint.Proofs.Runs
import TemplateLint.Proofs.Scalars
import TemplateLint.Proofs.Schema
import TemplateLint.Proofs.Segments
import TemplateLint.Proofs.SettingsFile
import TemplateLint.Proofs.Skipping
import TemplateLint.Proofs.SortedEntries
import TemplateLint.Proofs.Soundness
import TemplateLint.Proofs.Spelling
import TemplateLint.Proofs.StableOrder
import TemplateLint.Proofs.Stripping
import TemplateLint.Proofs.Survival
import TemplateLint.Proofs.Texts
import TemplateLint.Proofs.Values
import TemplateLint.Proofs.Visits
import TemplateLint.Proofs.Walking
import TemplateLint.Proofs.WellFormedness
import TemplateLint.Proofs.WriteBack
import TemplateLint.Proofs.WriteOrder
import TemplateLint.Proofs.Writes
import TemplateLint.Report
import TemplateLint.Rule.Basic
import TemplateLint.Rule.Decode
import TemplateLint.Rule.Enclosing
import TemplateLint.Rule.Finding
import TemplateLint.Rule.Fixing
import TemplateLint.Session.Basic
import TemplateLint.Session.Fixes
import TemplateLint.Settings.Basic
import TemplateLint.Template.Address
import TemplateLint.Template.Basic
import TemplateLint.Template.Decode
import TemplateLint.Template.Event
import TemplateLint.Template.Printer
import TemplateLint.Template.Reader
import TemplateLint.Text.Blank
import TemplateLint.Text.GraphemeExtend
import TemplateLint.Text.Printable
import TemplateLint.Text.Quoted
import TemplateLint.Text.Range
import TemplateLint.Text.Styled
