import RasterWarp.Approximation
import RasterWarp.Binary.Binary64
import RasterWarp.Binary.Format
import RasterWarp.Tiling
import RasterWarp.Bounds
import RasterWarp.ScratchPool
import RasterWarp.Bytes
import RasterWarp.Config
import RasterWarp.Config.Reading
import RasterWarp.Context
import RasterWarp.ContextCache
import RasterWarp.Conversion
import RasterWarp.Coverage
import RasterWarp.Decimal.Layout
import RasterWarp.Decimal.Numeral
import RasterWarp.Decimal.Shortest
import RasterWarp.Engine
import RasterWarp.Failure
import RasterWarp.GeoTransform
import RasterWarp.GeoTransform.Inverse
import RasterWarp.CrsMap
import RasterWarp.ReadPlan
import RasterWarp.Notice
import RasterWarp.Pyramid
import RasterWarp.Point
import RasterWarp.Raster.Dataset
import RasterWarp.Raster.Layer
import RasterWarp.Raster.Registry
import RasterWarp.Sample
import RasterWarp.SampleType
import RasterWarp.Scalar
import RasterWarp.Scatter
import RasterWarp.Session
import RasterWarp.Suggestion
import RasterWarp.Text.Combining
import RasterWarp.Text.Hidden
import RasterWarp.Text.Quoted
import RasterWarp.Text.Unassigned
import RasterWarp.Warp.Extent
import RasterWarp.Warp.Invocation
import RasterWarp.Warp.Request
import RasterWarp.Warp.Stages
import RasterWarp.Window
import RasterWarp.Yaml.Lexer
import RasterWarp.Yaml.Node
import RasterWarp.Yaml.Scalar
import RasterWarp.Yaml.Symbol
import RasterWarp.Yaml.Token
import RasterWarp.Yaml.Value
import RasterWarp.Proofs.Entries
import RasterWarp.Proofs.BlockLayout
import RasterWarp.Proofs.PlanPartition
import RasterWarp.Proofs.Scattering
import RasterWarp.Proofs.PixelReference
import RasterWarp.Proofs.ParallelScatter
import RasterWarp.Proofs.ReadCounts
import RasterWarp.Proofs.Opening
import RasterWarp.Proofs.SharedRuns
import RasterWarp.Proofs.History
import RasterWarp.Proofs.ExactArithmetic
import RasterWarp.Proofs.CacheHistory
import RasterWarp.Proofs.ContextBalance
import RasterWarp.Proofs.MadeContexts
import RasterWarp.Proofs.StageRuns
import RasterWarp.Proofs.Rendering
import RasterWarp.Proofs.WarpStatus
import RasterWarp.Proofs.ExactMaps
import RasterWarp.Proofs.CoveredPixels
import RasterWarp.Proofs.NearestNeighbour
import RasterWarp.Proofs.RenderedParts
import RasterWarp.Proofs.InPlace
import RasterWarp.Proofs.BlockReads
import RasterWarp.Proofs.PointByPoint
import RasterWarp.Proofs.ReadCounters
import RasterWarp.Proofs.BridgedRows
import RasterWarp.Proofs.UseCounts
import RasterWarp.Proofs.LevelChoice
import RasterWarp.Proofs.SegmentedRows
import RasterWarp.Proofs.RowTolerance
import RasterWarp.Proofs.TransformReuse
import RasterWarp.Proofs.ContextUpdates
import RasterWarp.Proofs.OverviewGeometry
import RasterWarp.Proofs.RoundTrips
import RasterWarp.Proofs.ReversedMaps
import RasterWarp.Proofs.WindowCover
import RasterWarp.Proofs.PartialWrites
import RasterWarp.Proofs.BlockAssembly
import RasterWarp.Proofs.AtomicScatter
import RasterWarp.Proofs.OrderedNumbers
import RasterWarp.Proofs.Doubles
import RasterWarp.Proofs.SampledExtent
import RasterWarp.Proofs.StepReports
import RasterWarp.Proofs.SampleCopies
import RasterWarp.Proofs.NearestPatterns
import RasterWarp.Proofs.SampleNumbers
import RasterWarp.Proofs.SampleOrder
import RasterWarp.Proofs.SampleCodec
import RasterWarp.Proofs.LosslessCopies
import RasterWarp.Proofs.QuantisedSamples
import RasterWarp.Proofs.BandQueries
import RasterWarp.Proofs.BlockPlaces
import RasterWarp.Proofs.FilledSamples
import RasterWarp.Proofs.LentBuffers
import RasterWarp.Proofs.ScratchBuffers
