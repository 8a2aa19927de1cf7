import RvCores.Block.FSqrtResult
import RvCores.Block.FloatConversion
import RvCores.Block.GshareHistory
import RvCores.Block.PageWalk
import RvCores.Block.StoreLoad
import RvCores.Block.UartLoopback
import RvCores.Block.Underflow
import RvCores.Block.ValuResult
import RvCores.Cache.Hierarchy
import RvCores.Cache.ICacheRefinement
import RvCores.Cache.NonBlocking
import RvCores.Cache.Recency
import RvCores.Cache.VictimBuffer
import RvCores.Firmware.TimerService
import RvCores.Firmware.TrapEntry
import RvCores.Isa.Aes
import RvCores.Isa.BitManip
import RvCores.Ooo.AmoSequence
import RvCores.Ooo.Conservation
import RvCores.Ooo.Privilege
import RvCores.Ooo.Rename
import RvCores.Ooo.RobQueue
import RvCores.Ooo.Tlb
import RvCores.Ooo.Traps
import RvCores.Ooo.VectorTransfer
import RvCores.Ooo.Wakeup
import RvCores.Pipe.Counters
import RvCores.Pipe.InterruptCause
import RvCores.Pipe.Network
import RvCores.Pipe.ProgramOrder
import RvCores.Pipe.Redirect
import RvCores.Pipe.WordDivision
import RvCores.Sim.CoreDtb
import RvCores.Sim.IssRounding
import RvCores.Sim.IssTranslate
import RvCores.Soc.Compressed
import RvCores.Soc.HandoffRefinement
import RvCores.Soc.HazardStrategies
import RvCores.Soc.SplitFetch
import RvCores.Soc.TlbCoherence
