import EventQuery.Engine
import EventQuery.History
import EventQuery.Http.Answer
import EventQuery.Listing
import EventQuery.Backend.Memory
import EventQuery.Proofs.Name.Characters
import EventQuery.Proofs.Run.Exchange
import EventQuery.Proofs.Statement.Condition
import EventQuery.Proofs.Statement.Clause
import EventQuery.Proofs.Statement.Layout
import EventQuery.Proofs.Engine.Conditions
import EventQuery.Proofs.Engine.Compile
import EventQuery.Proofs.Engine.Independence
import EventQuery.Proofs.Engine.Retrieval
import EventQuery.Proofs.Outcome
import EventQuery.Proofs.Name.Language
import EventQuery.Proofs.Name.Isolation
import EventQuery.Proofs.Run.Within
import EventQuery.Proofs.Run.World
import EventQuery.Proofs.Request.Gate
import EventQuery.Proofs.Statement.Source
import EventQuery.Proofs.Statement.Alphabet
import EventQuery.Proofs.Statement.Reading
import EventQuery.Proofs.Filter.NaturalOrder
import EventQuery.Proofs.Filter.Agreement
import EventQuery.Proofs.Store.Table
import EventQuery.Proofs.Store.Reference
import EventQuery.Proofs.Store.Answers
import EventQuery.Proofs.Engine.Isolation
import EventQuery.Proofs.Engine.Reference
import EventQuery.Proofs.Failure.Answer
import EventQuery.Proofs.Project.Entry
import EventQuery.Proofs.Failure.Inside
import EventQuery.Proofs.Project.Admission
import EventQuery.Proofs.Engine.Protocol
import EventQuery.Proofs.Engine.Course
import EventQuery.Proofs.Binary64.Order
import EventQuery.Proofs.Request.Consistent
import EventQuery.Proofs.Engine.Builders
import EventQuery.Proofs.Request.Precedence
import EventQuery.Proofs.Engine.Undated
import EventQuery.Proofs.Run.Blind
import EventQuery.Proofs.Engine.Redaction
import EventQuery.Proofs.Binary64.Nearest
import EventQuery.Proofs.Binary64.Shortest
import EventQuery.Proofs.Text.Digit
import EventQuery.Proofs.Json.Spelling
import EventQuery.Proofs.Json.Number
import EventQuery.Proofs.Json.Field
import EventQuery.Proofs.Statistics.Document
import EventQuery.Proofs.Statistics.Steps
import EventQuery.Proofs.Statistics.Cached
import EventQuery.Proofs.Run.Interleaving
import EventQuery.Proofs.Statistics.Concurrent
import EventQuery.Proofs.Filter.Passage
import EventQuery.Proofs.Statement.Computed
import EventQuery.Proofs.Reduction.Group
import EventQuery.Proofs.Engine.GroupKey
import EventQuery.Proofs.Reduction.Integer
import EventQuery.Proofs.Engine.Interval
import EventQuery.Proofs.Timeframe.Faults
import EventQuery.Proofs.Binary64.Range
import EventQuery.Proofs.Value.Plain
import EventQuery.Proofs.Value.Sum
import EventQuery.Proofs.Filter.Faults
import EventQuery.Proofs.Reduction.Faults
import EventQuery.Proofs.Rollup.Entries
import EventQuery.Proofs.History.Faults
import EventQuery.Proofs.Failure.Malformed
import EventQuery.Proofs.Calendar.Gregorian
import EventQuery.Proofs.Calendar.Grid
import EventQuery.Proofs.Bucket.Alignment
import EventQuery.Proofs.Bucket.Labels
import EventQuery.Proofs.Bucket.Nesting
import EventQuery.Proofs.Binary64.Rounding
import EventQuery.Proofs.Reduction.Place
import EventQuery.Proofs.Reduction.Percentile
import EventQuery.Proofs.Reduction.NearestRank
import EventQuery.Proofs.Engine.Median
import EventQuery.Proofs.Reduction.Keyed
import EventQuery.Proofs.Bucket.RowOrder
import EventQuery.Proofs.Bucket.Recombination
import EventQuery.Proofs.Value.Equality
import EventQuery.Proofs.Reduction.Distinct
import EventQuery.Proofs.Reduction.GroupRows
import EventQuery.Proofs.Shape.Columns
import EventQuery.Proofs.Calendar.Month
import EventQuery.Proofs.Timeframe.Relative
import EventQuery.Proofs.Timeframe.Tiling
import EventQuery.Proofs.Filter.Idempotence
import EventQuery.Proofs.Calendar.Blank
import EventQuery.Proofs.Calendar.Notation
import EventQuery.Proofs.Calendar.Denotation
import EventQuery.Proofs.Value.Readers
import EventQuery.Proofs.History.Reference
import EventQuery.Proofs.Binary64.Monotone
import EventQuery.Proofs.Statistics.Band
import EventQuery.Proofs.Value.Comparison
import EventQuery.Proofs.Filter.Coherence
import EventQuery.Proofs.Rollup.Extremes
import EventQuery.Proofs.Rollup.Week
import EventQuery.Proofs.Binary64.Integer
import EventQuery.Proofs.Filter.Integer
import EventQuery.Proofs.Rollup.Consistency
import EventQuery.Proofs.Listing.Collections
import EventQuery.Proofs.Rollup.Agreement
import EventQuery.Proofs.Rollup.Refusal
