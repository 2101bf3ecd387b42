import Stk.Analysis.BoundedBypass
import Stk.Analysis.MonotonicTick
import Stk.Analysis.ResponseTimeRun
import Stk.Analysis.MessageQueueRefinement
import Stk.Analysis.FixedPriorityRun
import Stk.Analysis.WaitResults
import Stk.Analysis.PriorityInheritance
import Stk.Analysis.PipeWakeups
import Stk.Analysis.MessageQueueWakeups
import Stk.Analysis.RWMutexWaiters
import Stk.Analysis.WakeTime
import Stk.Analysis.Periodicity
import Stk.Analysis.TicklessRun
import Stk.Analysis.CvWaitRun
import Stk.Analysis.SmoothStarvation
import Stk.Analysis.EventFlagsRun
import Stk.Analysis.EarliestDeadline
import Stk.Analysis.SemaphoreRun
import Stk.Analysis.EventRun
import Stk.Analysis.DispatchRun
import Stk.Analysis.SnapshotRead
import Stk.Analysis.IntrusiveListRun
import Stk.Analysis.BlockPoolRun
import Stk.Analysis.EventGroupRun
import Stk.Analysis.NotifyRun
import Stk.Analysis.TimerRearm
import Stk.Analysis.TimerExpiry
import Stk.Analysis.TimerOrder
import Stk.Analysis.TimerSleep
import Stk.Analysis.FrtosSuspendRun
import Stk.Analysis.ResponseTime
import Stk.Analysis.MonotonicOrder
import Stk.Analysis.PrioritySetting
import Stk.Analysis.ThreadLifecycleRun
import Stk.Analysis.DestroyedBlocks
import Stk.Analysis.MessageBufferRun
import Stk.Analysis.QueueSetAccounting
import Stk.Analysis.PendCallsRun
import Stk.Analysis.TaskRotation
import Stk.Analysis.Enumeration
import Stk.Analysis.PipeCopies
import Stk.Analysis.FullQueue
import Stk.Analysis.TimeoutReport
import Stk.Analysis.RepeatedWaits
import Stk.Analysis.DeadlineWaits
import Stk.Analysis.SpinLockRun
import Stk.Analysis.WakeBoost
import Stk.Analysis.DeadlineMissRun
import Stk.Analysis.BlockGeometry
import Stk.Analysis.CpuLoad
import Stk.Analysis.KernelLockRun
import Stk.Model.MemoryAllocator
import Stk.Analysis.HeapAccounting
import Stk.Analysis.ObjectSizes
import Stk.Analysis.AbsoluteDelays
import Stk.Analysis.SemaphoreBound
import Stk.Model.WrapperCalls
import Stk.Analysis.UnansweredCalls
import Stk.Analysis.RelockFrame
import Stk.Analysis.WaitHosts
import Stk.Analysis.TimeoutConversion
import Stk.Foundation.Linearization
import Stk.Model.QueueOverwrite
import Stk.Analysis.OverwriteSteps
import Stk.Analysis.OverwriteRun
import Stk.Analysis.CriticalSectionRun
import Stk.Analysis.AddTaskRun
import Stk.Analysis.ReleaseFrames
import Stk.Model.ReleaseRoundRobin
import Stk.Analysis.ReleaseDispatch
import Stk.Analysis.RelinkedWait
