import CoroutineCpp.Framework.TransitionSystem
import CoroutineCpp.Framework.Accounting
import CoroutineCpp.Model.CoExecutor
import CoroutineCpp.Model.Sched
import CoroutineCpp.Model.CoroutineBody
import CoroutineCpp.Properties.DispatchConservation
import CoroutineCpp.Properties.DispatchRefinement
import CoroutineCpp.Properties.DispatchHandOut
import CoroutineCpp.Properties.StopSafety
import CoroutineCpp.Properties.Yielding
import CoroutineCpp.Properties.TaskPlacement
import CoroutineCpp.Properties.Affinity
import CoroutineCpp.Properties.Resumption
import CoroutineCpp.Properties.Recovery
import CoroutineCpp.Properties.Stranded
import CoroutineCpp.Properties.StealRace
import CoroutineCpp.Properties.PoolWakeup
import CoroutineCpp.Properties.PoolPop
import CoroutineCpp.Properties.LifeCycle
import CoroutineCpp.Properties.PoolFifo
import CoroutineCpp.Properties.PoolStop
import CoroutineCpp.Properties.PoolLifetime
import CoroutineCpp.Properties.Teardown
import CoroutineCpp.Properties.ThreadHandles
import CoroutineCpp.Properties.ThreadNaming
import CoroutineCpp.Properties.WakeupOrder
import CoroutineCpp.Properties.IdleWait
import CoroutineCpp.Properties.FinishedQueue
import CoroutineCpp.Properties.Blocking
import CoroutineCpp.Properties.Throwing
import CoroutineCpp.Properties.BulkPops
import CoroutineCpp.Properties.BatchSubmission
import CoroutineCpp.Properties.PendingCount
import CoroutineCpp.Properties.EntryLife
import CoroutineCpp.Properties.EntryOrder
import CoroutineCpp.Properties.Trimming
import CoroutineCpp.Properties.MakeDir
import CoroutineCpp.Properties.ReturnPoints
import CoroutineCpp.Properties.IdleClean
import CoroutineCpp.Properties.LockedCalls
import CoroutineCpp.Properties.PickRefinement
import CoroutineCpp.Properties.Shutdown
import CoroutineCpp.Properties.PoolQuiet
import CoroutineCpp.Properties.BlockingAlarm
import CoroutineCpp.Properties.Startup
import CoroutineCpp.Properties.ThreadStartRefinement
import CoroutineCpp.Properties.DispatchTicks
import CoroutineCpp.Properties.Responsiveness
import CoroutineCpp.Properties.PoolResponse
import CoroutineCpp.Properties.OpenForWrite
import CoroutineCpp.Properties.LockGuards
import CoroutineCpp.Properties.CoroutineAccounts
