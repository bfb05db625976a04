import Libmemcached.FetchExecute
import Libmemcached.Drain
import Libmemcached.Requests
import Libmemcached.Callbacks
import Libmemcached.Exchanges
import Libmemcached.HashFetch
import Libmemcached.Hosts
import Libmemcached.WholeFetch
import Libmemcached.SilentLoss
import Libmemcached.KeyOrder
import Libmemcached.FetchLoop
import Libmemcached.StorageWords
import Libmemcached.MasterKeys
import Libmemcached.Lib.Override
import Libmemcached.Lib.Rounding
import Libmemcached.KeyBuffer
import Libmemcached.ArgumentChecks
import Libmemcached.Lib.PerlString
import Libmemcached.TextServers
import Libmemcached.KeyIdentity
import Libmemcached.Destinations
import Libmemcached.Lib.Heaps
import Libmemcached.Lifecycle
import Libmemcached.Stats
import Libmemcached.WalkStats
import Libmemcached.Transcripts
import Libmemcached.SingleGet
import Libmemcached.MethodTwins
import Libmemcached.FetchCode
import Libmemcached.Healthy
import Libmemcached.Version
import Libmemcached.HeaderScan
import Libmemcached.CallbackRoundTrip
import Libmemcached.Histories
import Libmemcached.Resync
import Libmemcached.BinaryCommands
import Libmemcached.ValueBuffer
import Libmemcached.TwinHistories
import Libmemcached.BothProtocols
import Libmemcached.BinaryServers
import Libmemcached.CasHosts
import Libmemcached.CompareAndSwap
import Libmemcached.HostList
import Libmemcached.SortedHosts
import Libmemcached.Digests
import Libmemcached.BehaviorRoundTrip
