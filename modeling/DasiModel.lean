import DasiModel.Library.Machines
import DasiModel.Library.Cursors
import DasiModel.Library.Iterators
import DasiModel.Library.FiniteMaps
import DasiModel.Library.Multimaps
import DasiModel.Library.SeparatedTexts
import DasiModel.Library.SegmentedPaths
import DasiModel.Library.BindingTexts
import DasiModel.Library.TrimmedTexts
import DasiModel.Library.Comparisons
import DasiModel.Library.DirectoryTrees
import DasiModel.Library.Refinements
import DasiModel.Library.Loops
import DasiModel.Library.EncodedMaps
import DasiModel.Library.References
import DasiModel.DasiKey
import DasiModel.Generators
import DasiModel.CHandles
import DasiModel.IterationProtocol
import DasiModel.ListingRecords
import DasiModel.OpenFailures
import DasiModel.PythonKey
import DasiModel.PythonIterators
import DasiModel.PythonRetrieve
import DasiModel.PythonItems
import DasiModel.ShortReads
import DasiModel.Session
import DasiModel.Policies
import DasiModel.LockRequests
import DasiModel.PythonArchive
import DasiModel.CApi
import DasiModel.NullPointers
import DasiModel.RucioNames
import DasiModel.SafeNames
import DasiModel.RucioArchive
import DasiModel.RucioRuns
import DasiModel.S3Protocol
import DasiModel.Interchange
import DasiModel.RucioIteration
import DasiModel.HandleMaps
import DasiModel.QueryMaps
import DasiModel.KeyMaps
import DasiModel.Escapes
import DasiModel.PythonDictionary
import DasiModel.KeyOrder
import DasiModel.StringParsers
import DasiModel.PolicyReports
import DasiModel.QueryStrings
import DasiModel.KeyStrings
import DasiModel.Paths
import DasiModel.FindLib
import DasiModel.SchemaRules
import DasiModel.RucioListing
import DasiModel.RucioReaders
import DasiModel.RucioStore
import DasiModel.S3Transfers
import DasiModel.S3Store
import DasiModel.RangeLoops
import DasiModel.PythonQuery
import DasiModel.Library.SettingTables
import DasiModel.PolicyRuns
import DasiModel.Library.PendingStores
import DasiModel.ArchiveStore
import DasiModel.Library.Triples
import DasiModel.ObjectLifetimes
import DasiModel.PythonHeap
import DasiModel.PythonLifetimes
import DasiModel.Tools
import DasiModel.FrontEnds
import DasiModel.ToolReads
import DasiModel.ToolQueries
