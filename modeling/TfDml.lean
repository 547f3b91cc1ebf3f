import TfDml.Core.KernelLifetime
import TfDml.Core.DescriptorAllocation
import TfDml.Kernels.TrainingOps
import TfDml.Kernels.VariableUpdate
import TfDml.Core.KernelCache
import TfDml.Core.KernelKey
import TfDml.Optimizer.TransposeSemantics
import TfDml.Core.BlockingReadback
import TfDml.Core.BfcAllocatorRun
import TfDml.Core.CommandAllocatorRing
import TfDml.Core.DescriptorPool
import TfDml.Core.GuardedPhiloxRandom
import TfDml.Core.KernelContext
import TfDml.Core.TensorObject
import TfDml.Kernels.EagerFallback
import TfDml.Optimizer.RemapperSemantics
import TfDml.Kernels.TransposeReference
import TfDml.Kernels.TransposeValidation
import TfDml.Kernels.SkippedKernels
import TfDml.Kernels.GatherNdValues
import TfDml.Kernels.MatrixDiagPartOverflow
import TfDml.Kernels.MirrorPadGradCall
import TfDml.Kernels.DynamicStitch
import TfDml.Kernels.TileReference
import TfDml.Kernels.SplitConcatInverse
import TfDml.Kernels.SpaceBatchValidation
import TfDml.Kernels.RollSteps
import TfDml.Kernels.SliceWindow
import TfDml.Kernels.ReductionHelper
import TfDml.Kernels.ReverseOp
import TfDml.Kernels.ReverseSequenceCall
import TfDml.Kernels.SelectOp
import TfDml.Kernels.DataFormatDimMap
import TfDml.Kernels.BroadcastToOp
import TfDml.Kernels.BatchMatMulProduct
import TfDml.Kernels.ExtractPatchesKernel
import TfDml.Kernels.MatrixBandPart
import TfDml.Kernels.InplaceOps
import TfDml.Kernels.InTopK
import TfDml.Kernels.Conv3DValidation
import TfDml.Kernels.ConvTriples
import TfDml.Kernels.ConvFilterGradient
import TfDml.Kernels.BiasAddAdjoint
import TfDml.Core.CollapsedShapes
import TfDml.Core.TensorShapeCount
import TfDml.Kernels.AddN
import TfDml.Kernels.ClipByValue
import TfDml.Kernels.SpaceDepth
import TfDml.Kernels.CudnnRnn
import TfDml.Kernels.ParallelConcat
import TfDml.Kernels.WhereOp
import TfDml.Core.TiledAllocation
import TfDml.Core.QueuedReferences
import TfDml.Core.BufferCopy
import TfDml.Kernels.RandomInt64
import TfDml.Kernels.StatelessRandom
