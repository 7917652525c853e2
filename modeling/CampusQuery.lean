import CampusQuery.Answer.Aggregate
import CampusQuery.Answer.Group
import CampusQuery.Answer.Row
import CampusQuery.Answer.Run
import CampusQuery.Answer.Sort
import CampusQuery.Binary64
import CampusQuery.Catalog.Basic
import CampusQuery.Catalog.Envelope
import CampusQuery.Catalog.Error
import CampusQuery.Catalog.Files
import CampusQuery.Catalog.Registry
import CampusQuery.Checksum
import CampusQuery.Command.Address
import CampusQuery.Command.Arguments
import CampusQuery.Command.Config
import CampusQuery.Command.Error
import CampusQuery.Command.Run
import CampusQuery.Dataset.CourseDirectory
import CampusQuery.Dataset.CourseDocument
import CampusQuery.Dataset.Field
import CampusQuery.Dataset.Record
import CampusQuery.Dataset.Scalar
import CampusQuery.Dataset.Store
import CampusQuery.Decimal
import CampusQuery.Decimal.Layout
import CampusQuery.Decimal.Numeral
import CampusQuery.Decimal.Reader
import CampusQuery.Decimal.Scaling
import CampusQuery.Decimal.Shortest
import CampusQuery.Filter.Positions
import CampusQuery.Filter.Select
import CampusQuery.Filter.Wildcard
import CampusQuery.Journal.Entry
import CampusQuery.Journal.Event
import CampusQuery.Journal.Metrics
import CampusQuery.Json.Basic
import CampusQuery.Json.Tree
import CampusQuery.Json.Typed
import CampusQuery.Json.Write
import CampusQuery.Main
import CampusQuery.Program.Basic
import CampusQuery.Program.Text
import CampusQuery.Program.World
import CampusQuery.Proofs.Answer.Agreement
import CampusQuery.Proofs.Answer.Cells
import CampusQuery.Proofs.Answer.Classes
import CampusQuery.Proofs.Answer.ClauseOrder
import CampusQuery.Proofs.Answer.Columns
import CampusQuery.Proofs.Answer.Documents
import CampusQuery.Proofs.Answer.Extremes
import CampusQuery.Proofs.Answer.Finer
import CampusQuery.Proofs.Answer.Groups
import CampusQuery.Proofs.Answer.Integers
import CampusQuery.Proofs.Answer.Keys
import CampusQuery.Proofs.Answer.OneDataset
import CampusQuery.Proofs.Answer.Order
import CampusQuery.Proofs.Answer.Partition
import CampusQuery.Proofs.Answer.Passes
import CampusQuery.Proofs.Answer.PrimaryKey
import CampusQuery.Proofs.Answer.Records
import CampusQuery.Proofs.Answer.Rows
import CampusQuery.Proofs.Answer.Totals
import CampusQuery.Proofs.Catalog.Canonical
import CampusQuery.Proofs.Catalog.Codec
import CampusQuery.Proofs.Catalog.Counters
import CampusQuery.Proofs.Catalog.Crash
import CampusQuery.Proofs.Catalog.Edits
import CampusQuery.Proofs.Catalog.Fields
import CampusQuery.Proofs.Catalog.Footprint
import CampusQuery.Proofs.Catalog.Names
import CampusQuery.Proofs.Catalog.Opened
import CampusQuery.Proofs.Catalog.Reading
import CampusQuery.Proofs.Catalog.Registry
import CampusQuery.Proofs.Catalog.Reopened
import CampusQuery.Proofs.Catalog.Restored
import CampusQuery.Proofs.Catalog.Session
import CampusQuery.Proofs.Catalog.Stored
import CampusQuery.Proofs.Catalog.Sweep
import CampusQuery.Proofs.Catalog.Tampered
import CampusQuery.Proofs.Catalog.Written
import CampusQuery.Proofs.Command.Channels
import CampusQuery.Proofs.Dataset.Ingested
import CampusQuery.Proofs.Dataset.Integers
import CampusQuery.Proofs.Dataset.Literals
import CampusQuery.Proofs.Dataset.Offerings
import CampusQuery.Proofs.Dataset.Scalar
import CampusQuery.Proofs.Dataset.Stores
import CampusQuery.Proofs.Decimal.Fewest
import CampusQuery.Proofs.Decimal.Nearest
import CampusQuery.Proofs.Decimal.Range
import CampusQuery.Proofs.Decimal.Reading
import CampusQuery.Proofs.Decimal.Rounding
import CampusQuery.Proofs.Decimal.Truncation
import CampusQuery.Proofs.Decimal.Value
import CampusQuery.Proofs.Decimal.Whole
import CampusQuery.Proofs.Except
import CampusQuery.Proofs.Filter.Glob
import CampusQuery.Proofs.Filter.Holds
import CampusQuery.Proofs.Filter.Patterns
import CampusQuery.Proofs.Journal.Lines
import CampusQuery.Proofs.Journal.Reading
import CampusQuery.Proofs.Json.Canonical
import CampusQuery.Proofs.Json.Members
import CampusQuery.Proofs.Json.Numbers
import CampusQuery.Proofs.Json.Printed
import CampusQuery.Proofs.Json.Scans
import CampusQuery.Proofs.Json.Strings
import CampusQuery.Proofs.Program.Journal
import CampusQuery.Proofs.Program.Refused
import CampusQuery.Proofs.Program.Runs
import CampusQuery.Proofs.Program.Traces
import CampusQuery.Proofs.Query.Accepted
import CampusQuery.Proofs.Query.Clauses
import CampusQuery.Proofs.Query.Conditions
import CampusQuery.Proofs.Query.Documents
import CampusQuery.Proofs.Query.ForeignKeys
import CampusQuery.Proofs.Query.Grammar
import CampusQuery.Proofs.Query.Keys
import CampusQuery.Proofs.Query.Meaning
import CampusQuery.Proofs.Query.Reads
import CampusQuery.Proofs.Query.Redirect
import CampusQuery.Proofs.Query.References
import CampusQuery.Proofs.Query.Reordered
import CampusQuery.Proofs.Service.Calls
import CampusQuery.Proofs.Service.Effects
import CampusQuery.Proofs.Service.Requests
import CampusQuery.Proofs.Storage.Change
import CampusQuery.Proofs.Storage.Place
import CampusQuery.Proofs.Storage.Removal
import CampusQuery.Proofs.Text.Bytes
import CampusQuery.Proofs.Text.Sorted
import CampusQuery.Query.Basic
import CampusQuery.Query.Check
import CampusQuery.Query.Error
import CampusQuery.Service.Handle
import CampusQuery.Service.Request
import CampusQuery.Storage.Path
import CampusQuery.Storage.Tree
import CampusQuery.Text.Blank
import CampusQuery.Text.Percent
import CampusQuery.Text.Source
import CampusQuery.Text.Split
import CampusQuery.Text.Visible
