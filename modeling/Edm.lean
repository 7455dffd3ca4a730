import Edm.Power
import Edm.Ieee
import Edm.Ieee.Shortest
import Edm.Ieee.Text
import Edm.Decimal
import Edm.Decimal.Arith
import Edm.Decimal.Text
import Edm.Decimal.Convert
import Edm.Text.Size
import Edm.Text.Ranges
import Edm.Text.Blank
import Edm.Text.CaseTable
import Edm.Text.CaseMap
import Edm.Text.Hidden
import Edm.Text.Quoted
import Edm.Text.Hex
import Edm.Calendar
import Edm.Calendar.Reader
import Edm.Calendar.Text
import Edm.Guid
import Edm.Json
import Edm.Value
import Edm.Value.Numeric
import Edm.Value.Read
import Edm.Value.Text
import Edm.Literal
import Edm.Literal.Decode
import Edm.Path
import Edm.Expr
import Edm.Expr.Token
import Edm.Expr.Parser
import Edm.Failure
import Edm.Record
import Edm.Record.Extract
import Edm.Accessor.Typed
import Edm.Accessor.Derived
import Edm.Text.Search
import Edm.Expr.Functions
import Edm.Expr.Eval
import Edm.Key
import Edm.Query.Selection
import Edm.Config
import Edm.Bag
import Edm.Entity
import Edm.Model
import Edm.Registry
import Edm.Model.Generate
import Edm.Model.Cache
import Edm.Snapshot
import Edm.Snapshot.Projection
import Edm.Snapshot.Ingest
import Edm.Entity.Json
import Edm.Query
import Edm.Query.Sorter
import Edm.Query.Ordering
import Edm.Snapshot.Page
import Edm.Service
import Edm.Sample.Shop
import Edm.Sample.Catalog
import Edm.Command
import Edm.Command.Args
import Edm.Command.Outcome
import Edm.Main
import Edm.Proofs.Outcome
import Edm.Proofs.Sorting
import Edm.Proofs.Sorters
import Edm.Proofs.Ordering
import Edm.Proofs.Projection
import Edm.Proofs.Requests
import Edm.Proofs.Paging
import Edm.Proofs.Registrations
import Edm.Proofs.Generation
import Edm.Proofs.Freshness
import Edm.Proofs.Following
import Edm.Proofs.Lawful
import Edm.Proofs.Lawful.Derived
import Edm.Proofs.Lawful.Lens
import Edm.Proofs.Alike
import Edm.Proofs.Rebuilding.Complex
import Edm.Proofs.Rebuilding.Entity
import Edm.Proofs.Hexadecimal
import Edm.Proofs.Literals
import Edm.Proofs.Keys
import Edm.Proofs.Parsing
import Edm.Proofs.Showing
import Edm.Proofs.Truth
import Edm.Proofs.Negation
import Edm.Proofs.Unknowns
import Edm.Proofs.Making
import Edm.Proofs.Consistency
import Edm.Proofs.RegistrationOrder
import Edm.Proofs.Grammar
import Edm.Proofs.Graph
import Edm.Proofs.Nulls
import Edm.Proofs.Comparing
import Edm.Proofs.Merging
import Edm.Proofs.Runs
import Edm.Proofs.OrderKeys
import Edm.Proofs.Counting
import Edm.Proofs.Lookups
import Edm.Proofs.Slices
import Edm.Proofs.Precedence
import Edm.Proofs.Calendar
import Edm.Proofs.Dates
import Edm.Proofs.Floats
import Edm.Proofs.Rounding
import Edm.Proofs.Shortest
import Edm.Proofs.Readings
import Edm.Proofs.TimeLiterals
import Edm.Proofs.Rereading
import Edm.Proofs.Integers
import Edm.Proofs.Searching
import Edm.Proofs.Ingesting.Storing
import Edm.Proofs.Ingesting.Steps
import Edm.Proofs.Ingesting.Items
import Edm.Proofs.Ingesting.Edits
import Edm.Proofs.Selecting
import Edm.Proofs.Faults
import Edm.Proofs.Refusals
import Edm.Proofs.Ingesting.Calls
import Edm.Proofs.Ingesting.Bracketing
import Edm.Proofs.BinaryLiterals
import Edm.Proofs.IntegerLiterals
import Edm.Proofs.Spans
import Edm.Proofs.Locations
import Edm.Proofs.Walking
import Edm.Proofs.Widening
