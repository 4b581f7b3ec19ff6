import FirebirdScan.Lib.SearchCondition
import FirebirdScan.Types
import FirebirdScan.Sql
import FirebirdScan.Scanner.NoneCharset
import FirebirdScan.Query.Filter
import FirebirdScan.Query.Translate
import FirebirdScan.Query.Meaning
import FirebirdScan.Query.Faithful
import FirebirdScan.Query.Build
import FirebirdScan.Lib.Run
import FirebirdScan.Lib.Tiling
import FirebirdScan.Scanner.Partitions
import FirebirdScan.Scanner.PkCache
import FirebirdScan.Scanner.Workers
import FirebirdScan.Lib.Like
import FirebirdScan.Scanner.ComplexFilter
import FirebirdScan.Client.Bind
import FirebirdScan.Lib.ParamTest
import FirebirdScan.Scanner.Pushed
import FirebirdScan.Client.Fetch
import FirebirdScan.Lib.Grid
import FirebirdScan.Scanner.TemporalCompare
import FirebirdScan.Scanner.TextCompare
import FirebirdScan.Client.ColumnType
import FirebirdScan.Client.AppendValue
import FirebirdScan.Lib.SqlText
import FirebirdScan.Query.Text
import FirebirdScan.Query.Statement
import FirebirdScan.Scanner.Split
import FirebirdScan.Scanner.OpenCursor
import FirebirdScan.Scanner.Projection
import FirebirdScan.Scanner.Paging
import FirebirdScan.Lib.Window
import FirebirdScan.Scanner.Residual
import FirebirdScan.Client.Metadata
import FirebirdScan.Scanner.Schema
import FirebirdScan.Scanner.OneRelation
import FirebirdScan.Storage.CatalogLoad
import FirebirdScan.Lib.Tasks
import FirebirdScan.Pool.ConnectionPool
import FirebirdScan.Pool.Leases
import FirebirdScan.Pool.IdleQueue
import FirebirdScan.Pool.Health
import FirebirdScan.Lib.Delimited
import FirebirdScan.Lib.Clumplets
import FirebirdScan.Client.NumericWiden
import FirebirdScan.Client.ConnectionInfo
import FirebirdScan.Client.ConnectionUrl
import FirebirdScan.Client.ConnectionItems
import FirebirdScan.Client.Attach
import FirebirdScan.Explain.DirectScan
import FirebirdScan.Scanner.NoneBlob
import FirebirdScan.Storage.CatalogRows
import FirebirdScan.Storage.AttachedCatalog
import FirebirdScan.Scanner.Telemetry
import FirebirdScan.Scanner.UnpushedGuard
import FirebirdScan.Query.Erasure
import FirebirdScan.Scanner.Redaction
import FirebirdScan.Lib.Rewrite
import FirebirdScan.Client.PasswordPlace
import FirebirdScan.Scanner.ErrorText
import FirebirdScan.Lib.Utf8Escape
import FirebirdScan.Scanner.TelemetrySafe
import FirebirdScan.Scanner.Utf8Readers
import FirebirdScan.Lib.RingLog
import FirebirdScan.Scanner.QueryLog
import FirebirdScan.Lib.Utf8Cut
import FirebirdScan.Scanner.TelemetryUtf8
import FirebirdScan.Lib.Occurrences
import FirebirdScan.Pool.ConnectionError
import FirebirdScan.Client.ReadBlob
import FirebirdScan.Lib.Raising
import FirebirdScan.Client.StatementResources
import FirebirdScan.Scanner.ScanBytes
import FirebirdScan.Scanner.QueryTotals
import FirebirdScan.Lib.Fields
import FirebirdScan.Lib.SqlPlaces
import FirebirdScan.Scanner.ViewAnalysis
import FirebirdScan.Lib.KeyGroups
import FirebirdScan.Query.Quoting
import FirebirdScan.Scanner.PrintedRows
import FirebirdScan.Profile.TableProfile
import FirebirdScan.Profile.PartitionSizing
import FirebirdScan.Profile.Alerts
import FirebirdScan.Storage.RowGroups
import FirebirdScan.Explain.RangeInvariants
import FirebirdScan.Explain.ReportedScan
import FirebirdScan.Dbt.Sources
import FirebirdScan.Scanner.AttachSql
import FirebirdScan.Lib.Memory
import FirebirdScan.Scanner.WholeScan
import FirebirdScan.Client.RowBuffers
import FirebirdScan.Storage.AttachOptions
import FirebirdScan.Lib.Once
import FirebirdScan.Storage.SameScan
import FirebirdScan.Client.ClientLibrary
import FirebirdScan.Profile.IndexProfile
import FirebirdScan.Lib.Emission
import FirebirdScan.Metadata.TypeAudit
import FirebirdScan.Metadata.Generators
import FirebirdScan.Client.Connections
import FirebirdScan.Metadata.QualifiedName
import FirebirdScan.Client.Accessors
import FirebirdScan.Metadata.Functions
import FirebirdScan.Metadata.DatabaseHealth
