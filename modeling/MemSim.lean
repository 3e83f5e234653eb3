import MemSim.PageTableAgreement
import MemSim.PageTableFailure
import MemSim.FlatMemory
import MemSim.Statistics
import MemSim.CleanEvictions
import MemSim.PageOutFailure
import MemSim.PageInFailure
import MemSim.SwapArithmetic
import MemSim.Destruction
import MemSim.OldestResident
import MemSim.ClockSweep
import MemSim.FirstFit
import MemSim.BitField
import MemSim.TraceComments
import MemSim.SuccessiveRuns
import MemSim.HashTracker
import MemSim.MemoryBudget
import MemSim.Main
import MemSim.MissBounds
import MemSim.ScanResistance
import MemSim.WriteBack
import MemSim.FittingRuns
import MemSim.SwapDemand
import MemSim.Lifecycle
