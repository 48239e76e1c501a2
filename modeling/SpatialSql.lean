import SpatialSql.Compile
import SpatialSql.Coordinate
import SpatialSql.Decimal.Dyadic
import SpatialSql.Decimal.Layout
import SpatialSql.Decimal.Numeral
import SpatialSql.Decimal.Scientific
import SpatialSql.Decimal.Shortest
import SpatialSql.Dialect.Basic
import SpatialSql.Dialect.MySql
import SpatialSql.Dialect.Postgres
import SpatialSql.Dialect.Renderer
import SpatialSql.Dialect.SqlServer
import SpatialSql.Dialect.Sqlite
import SpatialSql.Emulation.Basic
import SpatialSql.Emulation.Bound
import SpatialSql.Emulation.Collection
import SpatialSql.Emulation.Curve
import SpatialSql.Emulation.Descent
import SpatialSql.Emulation.Polygon
import SpatialSql.Emulation.WellKnownText
import SpatialSql.Error
import SpatialSql.Expr.Basic
import SpatialSql.Expr.Boolean
import SpatialSql.Expr.Geometry
import SpatialSql.Expr.Literal
import SpatialSql.Expr.Number
import SpatialSql.Expr.Sharing
import SpatialSql.Expr.Text
import SpatialSql.Expr.Weight
import SpatialSql.Geometry.Basic
import SpatialSql.Geometry.WellKnownText
import SpatialSql.Json.Basic
import SpatialSql.Json.Document
import SpatialSql.Json.Number
import SpatialSql.Json.Reader
import SpatialSql.Json.Record
import SpatialSql.Kind
import SpatialSql.Operator
import SpatialSql.Planar.Clip
import SpatialSql.Planar.Polygon
import SpatialSql.Planar.Segment
import SpatialSql.Profile.Basic
import SpatialSql.Profile.Document
import SpatialSql.Profile.Template
import SpatialSql.Proofs.Compile.Completeness
import SpatialSql.Proofs.Compile.Outcome
import SpatialSql.Proofs.Compile.Termination
import SpatialSql.Proofs.Decimal.Equality
import SpatialSql.Proofs.Decimal.Order
import SpatialSql.Proofs.Decimal.Plain
import SpatialSql.Proofs.Decimal.Value
import SpatialSql.Proofs.Decimal.Whole
import SpatialSql.Proofs.Emulation.Frame
import SpatialSql.Proofs.Emulation.LiteralBoxes
import SpatialSql.Proofs.Emulation.Nodes
import SpatialSql.Proofs.Emulation.NullTests
import SpatialSql.Proofs.Emulation.Rectangle
import SpatialSql.Proofs.Expr.Concatenation
import SpatialSql.Proofs.Expr.Counts
import SpatialSql.Proofs.Expr.Guards
import SpatialSql.Proofs.Geometry.Bounds
import SpatialSql.Proofs.Geometry.Closure
import SpatialSql.Proofs.Geometry.Members
import SpatialSql.Proofs.Geometry.Ordinates
import SpatialSql.Proofs.Kinds.Builders
import SpatialSql.Proofs.Kinds.Casts
import SpatialSql.Proofs.Kinds.Forms
import SpatialSql.Proofs.Kinds.Inheritance
import SpatialSql.Proofs.Kinds.Signature
import SpatialSql.Proofs.Meaning.Bounds
import SpatialSql.Proofs.Meaning.Constructions
import SpatialSql.Proofs.Meaning.Counting
import SpatialSql.Proofs.Meaning.Equality
import SpatialSql.Proofs.Meaning.Evaluation
import SpatialSql.Proofs.Meaning.Folding
import SpatialSql.Proofs.Meaning.Segments
import SpatialSql.Proofs.Meaning.StoredText
import SpatialSql.Proofs.Planar.Arrangement
import SpatialSql.Proofs.Planar.Clipping
import SpatialSql.Proofs.Planar.Containment
import SpatialSql.Proofs.Planar.Convexity
import SpatialSql.Proofs.Planar.Crossing
import SpatialSql.Proofs.Planar.Cycle
import SpatialSql.Proofs.Planar.Displacement
import SpatialSql.Proofs.Planar.Exact
import SpatialSql.Proofs.Planar.HalfPlanes
import SpatialSql.Proofs.Planar.Polyline
import SpatialSql.Proofs.Planar.RayCasting
import SpatialSql.Proofs.Planar.Reflexivity
import SpatialSql.Proofs.Planar.Relations
import SpatialSql.Proofs.Planar.Ring
import SpatialSql.Proofs.Planar.Runs
import SpatialSql.Proofs.Planar.Segment
import SpatialSql.Proofs.Planar.Touching
import SpatialSql.Proofs.Profile.Order
import SpatialSql.Proofs.Profile.Overrides
import SpatialSql.Proofs.Profile.Templates
import SpatialSql.Proofs.Sql.Compiled
import SpatialSql.Proofs.Sql.Dialects
import SpatialSql.Proofs.Sql.Lexical
import SpatialSql.Proofs.Sql.Literals
import SpatialSql.Proofs.Sql.Rendering
import SpatialSql.Proofs.Sql.Scan
import SpatialSql.Proofs.Sql.Spans
import SpatialSql.Proofs.Sql.Trace
import SpatialSql.Proofs.Text.Editing
import SpatialSql.Proofs.Text.Occurrences
import SpatialSql.Proofs.Text.Tokens
import SpatialSql.Text.Blank
import SpatialSql.Text.Hex
import SpatialSql.Text.Search
import SpatialSql.Toml.Basic
import SpatialSql.Toml.Reader
import SpatialSql.Toml.Scalar
import SpatialSql.Toml.Scan
import SpatialSql.Toml.Text
