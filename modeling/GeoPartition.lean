import GeoPartition.Tally.Shared
import GeoPartition.Main
import GeoPartition.Proofs.Precision
import GeoPartition.Proofs.Ingest.Keys
import GeoPartition.Proofs.Ingest.Sharding
import GeoPartition.Proofs.Ingest.Strictness
import GeoPartition.Proofs.Tally.Families
import GeoPartition.Proofs.Json.Spelling
import GeoPartition.Proofs.Json.Written
import GeoPartition.Proofs.Json.Record
import GeoPartition.Proofs.Settings.Json
import GeoPartition.Proofs.Toml.Document
import GeoPartition.Proofs.Settings.Toml
import GeoPartition.Proofs.Tally.Report
import GeoPartition.Proofs.Bucket.Classification
import GeoPartition.Proofs.Geo.Ends
import GeoPartition.Proofs.Tally.Monoid
import GeoPartition.Proofs.VertexSet
import GeoPartition.Proofs.Rejection
import GeoPartition.Proofs.Points
import GeoPartition.Proofs.Ingest.Ordinates
import GeoPartition.Proofs.Bucket.AnyCase
import GeoPartition.Proofs.Bucket.Depth
import GeoPartition.Proofs.Tally.Rows
import GeoPartition.Proofs.Json.Grammar
import GeoPartition.Proofs.Ingest.Forms
import GeoPartition.Proofs.Settings.Choices
