import StarCube.Catalog
import StarCube.Cube
import StarCube.Cube.BuiltIn
import StarCube.Cube.Described
import StarCube.Cube.Dimension
import StarCube.Cube.Measure
import StarCube.Cube.Reference
import StarCube.Cube.Schema
import StarCube.Document
import StarCube.Document.Reader
import StarCube.Engine
import StarCube.Engine.Execution
import StarCube.Engine.Exploration
import StarCube.Engine.Gathering
import StarCube.Engine.Members
import StarCube.Engine.Procedure
import StarCube.Engine.Refresh
import StarCube.Engine.Statistics
import StarCube.Failure
import StarCube.Formula
import StarCube.Formula.Parser
import StarCube.Formula.Symbol
import StarCube.Keyed
import StarCube.Log
import StarCube.Masking
import StarCube.Number.Binary64
import StarCube.Number.Decimal
import StarCube.Number.Numeral
import StarCube.Number.Ratio
import StarCube.Proofs.Catalog
import StarCube.Proofs.Cube.Consistent
import StarCube.Proofs.Engine.Alike
import StarCube.Proofs.Engine.Alphabet
import StarCube.Proofs.Engine.Apart
import StarCube.Proofs.Engine.Changes
import StarCube.Proofs.Engine.Chronicle
import StarCube.Proofs.Engine.Counting
import StarCube.Proofs.Engine.Current
import StarCube.Proofs.Engine.Definitions
import StarCube.Proofs.Engine.Dialogue
import StarCube.Proofs.Engine.DrillDown
import StarCube.Proofs.Engine.Enumeration
import StarCube.Proofs.Engine.Exchanges
import StarCube.Proofs.Engine.Folding
import StarCube.Proofs.Engine.Gathering
import StarCube.Proofs.Engine.Handling
import StarCube.Proofs.Engine.Inquiry
import StarCube.Proofs.Engine.Invariants
import StarCube.Proofs.Engine.Isolation
import StarCube.Proofs.Engine.Leftovers
import StarCube.Proofs.Engine.Lending
import StarCube.Proofs.Engine.Moves
import StarCube.Proofs.Engine.Parameters
import StarCube.Proofs.Engine.Publication
import StarCube.Proofs.Engine.Reading
import StarCube.Proofs.Engine.Removal
import StarCube.Proofs.Engine.Renewal
import StarCube.Proofs.Engine.Replies
import StarCube.Proofs.Engine.Reports
import StarCube.Proofs.Engine.Requests
import StarCube.Proofs.Engine.Retention
import StarCube.Proofs.Engine.RollBack
import StarCube.Proofs.Engine.Schedule
import StarCube.Proofs.Engine.Sentences
import StarCube.Proofs.Engine.Series
import StarCube.Proofs.Engine.Site
import StarCube.Proofs.Engine.Snapshots
import StarCube.Proofs.Engine.Stage
import StarCube.Proofs.Engine.Steady
import StarCube.Proofs.Engine.Steps
import StarCube.Proofs.Engine.Turns
import StarCube.Proofs.Engine.Versions
import StarCube.Proofs.Foreign
import StarCube.Proofs.Formula.Grammar
import StarCube.Proofs.Formula.Reading
import StarCube.Proofs.Formula.References
import StarCube.Proofs.Formula.RoundTrip
import StarCube.Proofs.Formula.Spelling
import StarCube.Proofs.Keyed
import StarCube.Proofs.Masking.Credentials
import StarCube.Proofs.Masking.Idempotence
import StarCube.Proofs.Masking.Labels
import StarCube.Proofs.Masking.Passes
import StarCube.Proofs.Masking.Remains
import StarCube.Proofs.Masking.Shapes
import StarCube.Proofs.Masking.Splits
import StarCube.Proofs.Masking.Surroundings
import StarCube.Proofs.Outcome
import StarCube.Proofs.Query.Aliases
import StarCube.Proofs.Query.Alphabet
import StarCube.Proofs.Query.Clauses
import StarCube.Proofs.Query.Columns
import StarCube.Proofs.Query.Combinations
import StarCube.Proofs.Query.Culprits
import StarCube.Proofs.Query.Denotation
import StarCube.Proofs.Query.DrillDown
import StarCube.Proofs.Query.Expectations
import StarCube.Proofs.Query.Following
import StarCube.Proofs.Query.Grammar
import StarCube.Proofs.Query.Meaning
import StarCube.Proofs.Query.MemberForms
import StarCube.Proofs.Query.Naming
import StarCube.Proofs.Query.Openings
import StarCube.Proofs.Query.Parameters
import StarCube.Proofs.Query.Positions
import StarCube.Proofs.Query.Precedence
import StarCube.Proofs.Query.Reachability
import StarCube.Proofs.Query.Reading
import StarCube.Proofs.Query.References
import StarCube.Proofs.Query.Renaming
import StarCube.Proofs.Query.Resolution
import StarCube.Proofs.Query.RoundTrip
import StarCube.Proofs.Query.Scanning
import StarCube.Proofs.Query.Sentences
import StarCube.Proofs.Query.Slices
import StarCube.Proofs.Query.Spelling
import StarCube.Proofs.Result.Cells
import StarCube.Proofs.Result.Columns
import StarCube.Proofs.Result.Distinct
import StarCube.Proofs.Result.Growth
import StarCube.Proofs.Result.Members
import StarCube.Proofs.Result.Ranking
import StarCube.Proofs.Sql.Grammar
import StarCube.Proofs.Sql.Identifier
import StarCube.Proofs.Sql.Literals
import StarCube.Proofs.Sql.Places
import StarCube.Proofs.Sql.Sentence
import StarCube.Proofs.Sql.Statement
import StarCube.Proofs.Sql.Tokens
import StarCube.Proofs.Sql.Verdict
import StarCube.Proofs.Text.Blank
import StarCube.Proofs.Text.Bracketed
import StarCube.Proofs.Text.Quoted
import StarCube.Proofs.Value.Comparison
import StarCube.Proofs.Value.Definite
import StarCube.Proofs.Warehouse.LifeCycle
import StarCube.Query
import StarCube.Query.Described
import StarCube.Query.MemberReference
import StarCube.Query.Parser
import StarCube.Query.Statement
import StarCube.Query.Token
import StarCube.Result.Growth
import StarCube.Result.Ranking
import StarCube.Result.Row
import StarCube.Result.Table
import StarCube.Settings
import StarCube.Settings.Lenient
import StarCube.Sorting
import StarCube.Sorting.Merge
import StarCube.Sorting.Run
import StarCube.Sorting.Search
import StarCube.Sql.Identifier
import StarCube.Sql.Placeholder
import StarCube.Sql.Statement
import StarCube.Text.Bracketed
import StarCube.Text.Character
import StarCube.Text.Display
import StarCube.Text.LowerCase
import StarCube.Text.Printable
import StarCube.Text.Quoted
import StarCube.Text.WordCharacter
import StarCube.Value
import StarCube.Value.Conversion
import StarCube.Warehouse.Connector
