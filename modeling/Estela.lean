import Estela.Lib.CallProgram
import Estela.Lib.WriteBack
import Estela.Lib.Ledger
import Estela.Lib.Footprint
import Estela.Lib.Streaming
import Estela.Lib.Refinement
import Estela.Lib.RowMajor
import Estela.Lib.NdArray
import Estela.Lib.Ssa
import Estela.Lib.Rewiring
import Estela.Lib.DeadCode
import Estela.Lib.Rewriting
import Estela.Runtime.Libstrela
import Estela.Runtime.Buffer
import Estela.Runtime.Allocator
import Estela.Runtime.Executable
import Estela.Runtime.KernelSlots
import Estela.Runtime.CommandBuffer
import Estela.Runtime.ColumnBounds
import Estela.Runtime.ColumnChecks
import Estela.Runtime.ArgumentChecks
import Estela.Runtime.JobAccounting
import Estela.Runtime.StickyError
import Estela.Runtime.PaddedAllocation
import Estela.Runtime.LineRounding
import Estela.Runtime.Coherence
import Estela.Runtime.DriverCalls
import Estela.Runtime.StaleViews
import Estela.Runtime.StaleOutcomes
import Estela.Runtime.StaleDispatches
import Estela.Runtime.KernelJobs
import Estela.Runtime.ExportPlan
import Estela.Runtime.SlotSessions
import Estela.Runtime.FlatMemory
import Estela.Runtime.Device
import Estela.Runtime.DeviceObjects
import Estela.Runtime.Frontier
import Estela.Runtime.CenteredGemm
import Estela.Runtime.GemmDevice
import Estela.Runtime.GemmLoops
import Estela.Runtime.GemmBounds
import Estela.Runtime.GemmProduct
import Estela.Runtime.CustomModule
import Estela.Runtime.ModuleSessions
import Estela.Compiler.DispatchIr
import Estela.Compiler.BindingOffset
import Estela.Compiler.MaterializeBindings
import Estela.Compiler.StrelaTarget
import Estela.Compiler.Serialization
import Estela.Compiler.OffsetAgreement
import Estela.Compiler.DenseAccess
import Estela.Compiler.DispatchEffects
import Estela.Compiler.ExportEffects
import Estela.Compiler.ExportColumns
import Estela.Compiler.KernelStreams
import Estela.Compiler.DispatchOnBoard
import Estela.Compiler.LinalgFunction
import Estela.Compiler.DeadSweep
import Estela.Compiler.WorkgroupCount
import Estela.Compiler.Linalg
import Estela.Compiler.KernelMatchers
import Estela.Compiler.FuseConv2D
import Estela.Compiler.ConvMatmul
import Estela.Compiler.NormalizeRescale
import Estela.Compiler.RescaleOrder
import Estela.Compiler.ConvertLinalg
import Estela.Compiler.MatvecLowering
import Estela.Compiler.SplatInlining
import Estela.Compiler.TransferWrap
import Estela.Compiler.TransferInvariant
import Estela.Compiler.TransferIsolation
import Estela.Lib.Reordering
import Estela.Lib.Fences
import Estela.Lib.FencedCalls
import Estela.Lib.LongCalls
import Estela.Runtime.Queue
import Estela.Runtime.QueueFences
import Estela.Runtime.QueueRuns
import Estela.Runtime.QueueOnBoard
