import Twan.Base.Run
import Twan.Base.QueueLock
import Twan.Base.Latch
import Twan.Base.Alarms
import Twan.Base.Dyadic
import Twan.Base.Links
import Twan.Base.Pairs
import Twan.Base.Slots
import Twan.Base.Prog
import Twan.Lib.Std
import Twan.Lib.Bits
import Twan.Lib.Bmp256
import Twan.Lib.Bmp512
import Twan.Lib.Dq
import Twan.Lib.TlsfAlloc
import Twan.Lib.TlsfHeap
import Twan.Lib.TlsfOps
import Twan.Lib.TlsfCalls
import Twan.Lib.TlsfInit
import Twan.Lib.TlsfRuns
import Twan.Lib.TlsfRealloc
import Twan.Lib.TlsfFit
import Twan.Lib.TlsfAligned
import Twan.Kernel.TaskMem
import Twan.Lib.BuddyAlloc
import Twan.Lib.BuddyRuns
import Twan.Lib.BuddyUndo
import Twan.Kernel.PmaBuddy
import Twan.Kernel.Paging
import Twan.Kernel.Mappings
import Twan.Kernel.TlbFlush
import Twan.Sync.McsLock
import Twan.Sync.PvMcsLock
import Twan.Sync.Semaphore
import Twan.Sync.Mutex
import Twan.Sync.Ceiling
import Twan.Vsched.Vcpu
import Twan.Vsched.RunQueue
import Twan.Vsched.Lifecycle
import Twan.Vsched.Frames
import Twan.Vemulate.TlbInvalidate
import Twan.Vportal.Routes
import Twan.Vportal.Teardown
import Twan.Vportal.Vcreate
import Twan.Vemulate.Utils
import Twan.Vemulate.Bitmaps
import Twan.Vemulate.TimerChain
import Twan.Vportal.Discipline
import Twan.Vportal.Criticality
import Twan.Vportal.Venter
import Twan.Vportal.Inject
import Twan.Vportal.Vcalls
import Twan.Vportal.Vexit
import Twan.Vportal.Faults
import Twan.Vportal.Exits
import Twan.Vportal.Cr8
import Twan.Vportal.Vtimers
import Twan.Vportal.Ownership
import Twan.Vportal.Root
import Twan.Visr.Delivery
import Twan.Visr.Subscriptions
import Twan.Sync.RwLockIsr
import Twan.Vsched.PartitionTable
import Twan.Kernel.SchedAging
import Twan.Kernel.Waitq
import Twan.Lib.DeltaTicks
import Twan.Kernel.TimedWait
import Twan.Kernel.Wakeup
import Twan.Kernel.Ipi
import Twan.Kernel.SchedYield
import Twan.Kernel.InitRange
import Twan.Lib.ListqRuns
import Twan.Vportal.Cr4
import Twan.Lib.Libvc
import Twan.Base.TicketLock
import Twan.Sync.Spinlock
import Twan.Base.TreeWalk
import Twan.Lib.WakeAll
import Twan.Base.BlockReads
import Twan.Kernel.Multiboot
import Twan.Kernel.Madt
import Twan.Vportal.Balance
import Twan.Lib.DqRuns
import Twan.Lib.DeltaWords
import Twan.Lib.TlsfClasses
import Twan.Lib.Searches
import Twan.Base.Nesting
import Twan.Base.Places
import Twan.Base.Refine
import Twan.Kernel.IsrDispatcher
import Twan.Kernel.TaskSwitch
import Twan.Vsched.IdleKick
import Twan.Vsched.SliceTimer
import Twan.Kernel.ApBoot
import Twan.Kernel.VmaParser
import Twan.Kernel.ApBootCompletes
import Twan.Kernel.IpiLaw
import Twan.Kernel.IsrDispatcherFrames
import Twan.Kernel.IsrDispatcherRuns
import Twan.Kernel.TaskSwitchInvariant
import Twan.Kernel.TaskSwitchRuns
import Twan.Vemulate.TlbInvalidateRuns
import Twan.Vportal.TeardownRuns
import Twan.Vsched.SliceTimerGuard
import Twan.Vsched.PartitionTableProgress
