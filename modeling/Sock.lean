import Sock.Lib.Dict
import Sock.Lib.RefCount
import Sock.Lib.Fallible
import Sock.Lib.Search
import Sock.Lib.Sorting
import Sock.Lib.Text
import Sock.Lib.Buckets
import Sock.Lib.Tensor
import Sock.Lib.ForkJoin
import Sock.Lib.Schedule
import Sock.Lib.LinkedList
import Sock.Lib.HashChain
import Sock.Lib.OnlineSoftmax
import Sock.Core.Accelerator
import Sock.Core.KvLayout
import Sock.Core.Canonical
import Sock.Core.Request
import Sock.Core.Plan
import Sock.Core.Documents
import Sock.Core.Pretty
import Sock.Core.CanonicalForm
import Sock.Core.Bundle
import Sock.Core.Normalize
import Sock.Cli.KvLayoutArgs
import Sock.Cli.Rewriting
import Sock.Engine.Adapter
import Sock.Engine.Backends
import Sock.Engine.Executor
import Sock.Engine.Cache
import Sock.Engine.Runs
import Sock.Engine.Resolved
import Sock.Engine.Graph
import Sock.Engine.Keys
import Sock.Engine.Reports
import Sock.Engine.Selected
import Sock.Engine.Valid
import Sock.Engine.Scopes
import Sock.Engine.Reuse
import Sock.Engine.Confinement
import Sock.Engine.Targets
import Sock.Engine.Coverage
import Sock.Engine.Closure
import Sock.Engine.Spelling
import Sock.Engine.Identity
import Sock.Engine.Parallel
import Sock.Engine.Promises
import Sock.Engine.FileNames
import Sock.Engine.Receipts
import Sock.Engine.Scheduler
import Sock.Tmh.Spec
import Sock.Tmh.Policy
import Sock.Tmh.Physical
import Sock.Tmh.Placement
import Sock.Tmh.Slots
import Sock.Tmh.Conservation
import Sock.Tmh.Ledger
import Sock.Tmh.Calls
import Sock.Tmh.Events
import Sock.Tmh.System
import Sock.Tmh.Rows
import Sock.Tmh.Reclaim
import Sock.Tmh.Capacity
import Sock.Tmh.Kernels
import Sock.Tmh.Geometry
import Sock.Tmh.AllRaw
import Sock.Tmh.Sizing
import Sock.Tmh.Drains
import Sock.Tmh.Memory
import Sock.Tmh.Stages
import Sock.Tmh.InputBatch
import Sock.Tmh.Runner
import Sock.Tmh.Layout
import Sock.Tmh.Window
import Sock.Tmh.Pressure
import Sock.Tmh.Layers
import Sock.Tmh.LowPressure
import Sock.Tmh.Attention
import Sock.Tmh.AttentionGrid
import Sock.CudaShim.KvCache
import Sock.Kv.FreeQueue
import Sock.Kv.BlockHash
