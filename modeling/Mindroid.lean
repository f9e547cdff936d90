import Mindroid.App.PreferencesEditor
import Mindroid.Content.Pm.PackageManagerService
import Mindroid.Io.ArrayStream
import Mindroid.Io.BufferedMoves
import Mindroid.Io.StreamContent
import Mindroid.Lang.IntegralValues
import Mindroid.Lang.MoveAssignment
import Mindroid.Lang.ObjectLifetime
import Mindroid.Lang.RegionMatches
import Mindroid.Lang.StringBuilderSearch
import Mindroid.Lang.StringSplit
import Mindroid.Net.UriHashCode
import Mindroid.Nio.BufferOrder
import Mindroid.Nio.SliceAccess
import Mindroid.Os.AsyncTaskCancel
import Mindroid.Os.Binder
import Mindroid.Os.LooperRuns
import Mindroid.Os.Messengers
import Mindroid.Os.ProcessRuns
import Mindroid.Os.QueueRuns
import Mindroid.Os.RejectedSends
import Mindroid.Os.RetainedTypes
import Mindroid.Os.ServiceBindings
import Mindroid.Os.ServiceCallbacks
import Mindroid.Runtime.System.BinderIds
import Mindroid.Runtime.System.ClientShutdown
import Mindroid.Runtime.System.Clients
import Mindroid.Runtime.System.ConfigurationReading
import Mindroid.Runtime.System.Io.ServerRuns
import Mindroid.Runtime.System.Lookups
import Mindroid.Runtime.System.Plugins
import Mindroid.Runtime.System.ResponseRuns
import Mindroid.Runtime.System.ServiceRuns
import Mindroid.Runtime.System.TransactionRuns
import Mindroid.Util.Base64
import Mindroid.Util.CollectionIterators
import Mindroid.Util.Concurrent.AllOfFailure
import Mindroid.Util.Concurrent.AllOfLocks
import Mindroid.Util.Concurrent.ChainFailure
import Mindroid.Util.Concurrent.PromiseGet
import Mindroid.Util.Concurrent.ReentrantRuns
import Mindroid.Util.Concurrent.ThreadPoolExecutor
import Mindroid.Util.Concurrent.TimeoutRuns
import Mindroid.Util.EventTurns
import Mindroid.Util.Logging.FileDumps
import Mindroid.Util.Logging.GenerationNames
import Mindroid.Util.Logging.LoggerRuns
import Mindroid.Util.Optional
