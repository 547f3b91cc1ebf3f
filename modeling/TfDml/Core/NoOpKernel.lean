import TfDml.Core.OpKernelContext

/-! # Kernels that need not run

By default, a kernel is considered a no-op if any of its input or output tensors are empty.
The wrapper then skips the kernel and fills its outputs with zeros.
-/

namespace TfDml.NoOpKernel

def isNoOpKernel (inputShapes outputShapes : List TensorShape) : Bool :=
  inputShapes.any (fun shape => shape.numElements == 0) ||
    outputShapes.any fun shape => shape.numElements == 0

/-- What `ComputeImpl` leaves in an output of a kernel that it skips. -/
def zeroed {α : Type*} [Zero α] (outputShape : TensorShape) : List (Option α) :=
  List.replicate outputShape.numElements (some 0)

theorem isNoOpKernel_iff {inputShapes outputShapes : List TensorShape} :
    isNoOpKernel inputShapes outputShapes = true ↔ (∃ shape ∈ inputShapes, shape.numElements = 0) ∨
        ∃ shape ∈ outputShapes, shape.numElements = 0 := by
  simp [isNoOpKernel]

theorem zeroed_of_empty {α : Type*} [Zero α] {outputShape : TensorShape}
    (empty : outputShape.numElements = 0) : (zeroed outputShape : List (Option α)) = [] := by
  rw [zeroed, empty, List.replicate_zero]

theorem eq_zeroed_iff {α : Type*} [Zero α] {outputShape : TensorShape} {eq : List (Option α)}
    (length : eq.length = outputShape.numElements) :
    eq = zeroed outputShape ↔ ∀ x ∈ eq, x = some 0 := by
  rw [zeroed, List.eq_replicate_iff]
  exact and_iff_right length

end TfDml.NoOpKernel
