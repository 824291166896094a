import AutomaticCache.Lib.Run
import AutomaticCache.Lib.Serial
import AutomaticCache.Bpf.Capacity
import AutomaticCache.Bpf.Confinement
import AutomaticCache.Bpf.Recovery
import AutomaticCache.Bpf.Leak
import AutomaticCache.Bpf.Transactions
import AutomaticCache.Bpf.HelperCalls
import AutomaticCache.Bpf.Atomic
import AutomaticCache.Bpf.Consume
import AutomaticCache.Bpf.Serializable
import AutomaticCache.Lib.Bytes
import AutomaticCache.Lib.Url
import AutomaticCache.Lib.Target
import AutomaticCache.Cache.Clients
import AutomaticCache.Http.Message
import AutomaticCache.Http.Wire
import AutomaticCache.ObjectStorage.Adapters
import AutomaticCache.Proxy.HitAndMiss
import AutomaticCache.Proxy.Integrity
import AutomaticCache.Proxy.Serving
import AutomaticCache.Proxy.Isolation
import AutomaticCache.Proxy.Origin
import AutomaticCache.Proxy.Coherence
import AutomaticCache.Lib.CacheAside.Callers
import AutomaticCache.Lib.CacheAside.Design
import AutomaticCache.Lib.CacheAside.SingleFetch
import AutomaticCache.Cache.Calls
import AutomaticCache.Cache.Callers
import AutomaticCache.Cache.SingleFetch
import AutomaticCache.Lib.CacheAside.LostUpdate
import AutomaticCache.Cache.LostUpdate
import AutomaticCache.Lib.CacheAside.Sequential
import AutomaticCache.Cache.Refinement
import AutomaticCache.Lib.CacheAside.Miss
import AutomaticCache.Cache.Outcomes
import AutomaticCache.Cache.Validation
import AutomaticCache.Proxy.FinalResponse
import AutomaticCache.Lib.Goroutines
import AutomaticCache.Lib.Clock
import AutomaticCache.Proxy.Handlers
import AutomaticCache.Proxy.Agreement
import AutomaticCache.Main.Pool
import AutomaticCache.Main.Accounting
import AutomaticCache.Main.Forward
import AutomaticCache.Main.Reports
import AutomaticCache.Proxy.Authorization
import AutomaticCache.Proxy.Delivery
import AutomaticCache.Proxy.Transparency
import AutomaticCache.Proxy.Server
import AutomaticCache.Proxy.Stages
import AutomaticCache.Proxy.Simulation
import AutomaticCache.Proxy.Provenance
import AutomaticCache.Proxy.Crash
import AutomaticCache.Proxy.OneResponse
import AutomaticCache.Proxy.Asked
import AutomaticCache.Proxy.Replay
import AutomaticCache.Proxy.Keyed
import AutomaticCache.Main.Destination
import AutomaticCache.Main.OriginalTarget
import AutomaticCache.ObjectStorage.Intercept
import AutomaticCache.ObjectStorage.Keys
import AutomaticCache.Lib.Decimal
import AutomaticCache.Lib.Table
import AutomaticCache.Lib.Copy
import AutomaticCache.Main.StatsFile
import AutomaticCache.Main.Splice
import AutomaticCache.Cache.Regular
import AutomaticCache.Main.Redirection
import AutomaticCache.Main.Process
import AutomaticCache.Main.Drains
import AutomaticCache.Lib.Marks
import AutomaticCache.Proxy.Stats
import AutomaticCache.Proxy.Timing
import AutomaticCache.Proxy.Printing
