import TfDml.Core.OpKernelContext
import TfDml.Lib.Run
import Mathlib.Data.Nat.Bitwise
import Mathlib.Algebra.Order.Group.Unbundled.Int

/-! # The specification of a strided slice

`ValidateStridedSliceOp` expands the begins, the ends and the strides of a slice
to one of each for every dimension of the input, clamps them to the dimension,
and computes how many elements are taken there.
-/

namespace TfDml.StridedSlice

open List

structure IndexTensor (width : Nat) where
  shape : TensorShape
  values : List (BitVec width)
  sized : values.length = shape.numElements

def IndexTensor.isVector (tensor : IndexTensor w) : Bool := tensor.shape.length == 1

def IndexTensor.numElements (tensor : IndexTensor w) : Nat := tensor.shape.numElements

/-- `static_cast<const T*>(raw_data())[i]`. -/
def IndexTensor.flat (tensor : IndexTensor w) (i : Nat) : Int := (tensor.values.getD i 0).toInt

structure Attributes where
  beginMask : BitVec 32 := 0
  endMask : BitVec 32 := 0
  ellipsisMask : BitVec 32 := 0
  newAxisMask : BitVec 32 := 0
  shrinkAxisMask : BitVec 32 := 0

/-- `1 << i` of 32 bits, where the count of a shift is taken modulo 32. -/
def bit (i : Nat) : BitVec 32 := 1#32 <<< (i % 32)

/-- `(1 << i) & mask`. -/
def inMask (mask : BitVec 32) (i : Nat) : Bool := bit i &&& mask != 0

def kShrinkAxis : Int := -1

def kNewAxis : Int := -2

structure StridedSliceSparseSpec (w : Nat) where
  dims : Nat
  numAddAxisAfterEllipsis : Nat
  beginTensor : IndexTensor w
  endTensor : IndexTensor w
  stridesTensor : IndexTensor w
  masks : Attributes

/-- One entry of the begins, ends and strides for each dimension of the input. -/
structure StridedSliceDenseSpec where
  dims : Nat
  beginMask : BitVec 32 := 0
  endMask : BitVec 32 := 0
  begin_ : List Int
  end_ : List Int
  strides : List Int
  finalShapeGatherIndices : List Int := []
  shrinkAxisMask : BitVec 32 := 0

/-- The vectors after `resize`. -/
def StridedSliceDenseSpec.empty (dims : Nat) : StridedSliceDenseSpec where
  dims := dims
  begin_ := replicate dims 0
  end_ := replicate dims 0
  strides := replicate dims 0

namespace StridedSliceDenseSpec

def addImplicit (dense : StridedSliceDenseSpec) (fullIndex : Nat) : StridedSliceDenseSpec :=
  { dense with
    begin_ := dense.begin_.set fullIndex 0
    end_ := dense.end_.set fullIndex 0
    strides := dense.strides.set fullIndex 1
    beginMask := dense.beginMask ||| bit fullIndex
    endMask := dense.endMask ||| bit fullIndex
    finalShapeGatherIndices := dense.finalShapeGatherIndices ++ [(fullIndex : Int)] }

/-- A dimension with its own entry `i` in the sparse specification. -/
def addEntry (dense : StridedSliceDenseSpec) (sparse : StridedSliceSparseSpec w) (i : Nat)
    (fullIndex : Nat) : StridedSliceDenseSpec :=
  let shrink := inMask sparse.masks.shrinkAxisMask i
  { dense with
    begin_ := dense.begin_.set fullIndex (sparse.beginTensor.flat i)
    end_ := dense.end_.set fullIndex (sparse.endTensor.flat i)
    strides := dense.strides.set fullIndex (sparse.stridesTensor.flat i)
    beginMask :=
      if inMask sparse.masks.beginMask i then dense.beginMask ||| bit fullIndex
      else dense.beginMask
    endMask :=
      if inMask sparse.masks.endMask i then dense.endMask ||| bit fullIndex else dense.endMask
    shrinkAxisMask :=
      if shrink then dense.shrinkAxisMask ||| bit fullIndex else dense.shrinkAxisMask
    finalShapeGatherIndices :=
      dense.finalShapeGatherIndices ++ [if shrink then kShrinkAxis else (fullIndex : Int)] }

end StridedSliceDenseSpec

/-- The loop body of `BuildDenseSpec`, on the dense specification and `full_index`. -/
def addSparse (sparse : StridedSliceSparseSpec w) (state : StridedSliceDenseSpec × Nat) (i : Nat) :
    Except Status (StridedSliceDenseSpec × Nat) :=
  let (dense, fullIndex) := state
  if inMask sparse.masks.ellipsisMask i then
    let nextIndex : Int :=
      min (dense.dims - (sparse.dims - i) + 1 + sparse.numAddAxisAfterEllipsis) dense.dims
    let added := nextIndex.toNat - fullIndex
    .ok ((range' fullIndex added).foldl .addImplicit dense, fullIndex + added)
  else if inMask sparse.masks.newAxisMask i then
    .ok ({ dense with finalShapeGatherIndices := dense.finalShapeGatherIndices ++ [kNewAxis] },
      fullIndex)
  else do
    opRequires (fullIndex != dense.begin_.length)
      (.invalidArgument ("Index out of range using input dim " ++ toString fullIndex ++
        "; input has only " ++ toString dense.dims ++ " dims"))
    .ok (dense.addEntry sparse i fullIndex, fullIndex + 1)

def buildDenseSpec (sparse : StridedSliceSparseSpec w) (dims : Nat) :
    Except Status StridedSliceDenseSpec := do
  let (dense, _) ← (List.range sparse.dims).foldlM (addSparse sparse) (.empty dims, 0)
  .ok dense

/-- `num_add_axis_after_ellipsis` and `ellipsis_seen` after the loop over the entries. -/
def countNewAxes (masks : Attributes) (dims : Nat) : Nat × Bool :=
  (List.range dims).foldl
    (fun (added, seen) i =>
      (if seen && inMask masks.newAxisMask i then added + 1 else added,
        seen || inMask masks.ellipsisMask i))
    (0, false)

/-- Step 1: an ellipsis is inserted at the end if there is none. -/
def sparseSpec (beginTensor endTensor stridesTensor : IndexTensor w) (masks : Attributes) :
    StridedSliceSparseSpec w :=
  let dims := stridesTensor.numElements
  let (added, ellipsisSeen) := countNewAxes masks dims
  if ellipsisSeen then ⟨dims, added, beginTensor, endTensor, stridesTensor, masks⟩
  else
    ⟨dims + 1, added, beginTensor, endTensor, stridesTensor,
      { masks with ellipsisMask := masks.ellipsisMask ||| bit dims }⟩

/-- `valid_range`, from its first to its second entry. -/
def validRange (stride dim : Int) : Bool → Int
  | false => if 0 < stride then 0 else -1
  | true => if 0 < stride then dim else dim - 1

/-- `canonical`, of the begin or of the end. -/
def canonical (stride dim : Int) (masked : Bool) (x : Int) (isEnd : Bool) : Int :=
  if masked then
    if 0 < stride then validRange stride dim isEnd else validRange stride dim !isEnd
  else
    let forward := if x < 0 then dim + x else x
    if forward < validRange stride dim false then validRange stride dim false
    else if validRange stride dim true < forward then validRange stride dim true
    else forward

/-- A dimension of the input, what is taken of it, and its size in the processing shape. -/
structure ProcessingDim where
  dim : Nat
  begin_ : Int
  end_ : Int
  stride : Int
  size : Nat
  deriving DecidableEq

/-- The size of an interval, or zero if it is degenerate. -/
def processingSize (intervalLength stride : Int) : Nat :=
  if intervalLength = 0 ∨ (intervalLength < 0) ≠ (stride < 0) then 0
  else
    (intervalLength.tdiv stride + if intervalLength.tmod stride ≠ 0 then 1 else 0).toNat

def ProcessingDim.ofInterval (dim : Nat) (begin_ end_ stride : Int) : ProcessingDim :=
  ⟨dim, begin_, end_, stride, processingSize (end_ - begin_) stride⟩

def processingDim (dense : StridedSliceDenseSpec) (i dim : Nat) : Except Status ProcessingDim := do
  let begin_ := dense.begin_.getD i 0
  let end_ := dense.end_.getD i 0
  let stride := dense.strides.getD i 0
  opRequires (stride ≠ 0)
    (.invalidArgument ("strides[" ++ toString i ++ "] must be non-zero"))
  let shrink := inMask dense.shrinkAxisMask i
  opRequires (!(shrink && stride ≤ 0))
    (.invalidArgument "only stride 1 allowed on non-range indexing.")
  if shrink then
    let forward := if begin_ < 0 then dim + begin_ else begin_
    opRequires (!(forward < 0 || dim ≤ forward))
      (.invalidArgument ("slice index " ++ toString forward ++ " of dimension " ++ toString i ++
        " out of bounds."))
    .ok (.ofInterval dim forward (forward + 1) stride)
  else
    .ok (.ofInterval dim (canonical stride dim (inMask dense.beginMask i) begin_ false)
      (canonical stride dim (inMask dense.endMask i) end_ true) stride)

/-- The loop of step 3, from dimension `i` on. -/
def processingDims (dense : StridedSliceDenseSpec) : Nat → List Nat →
    Except Status (List ProcessingDim)
  | _, [] => .ok []
  | i, dim :: rest => do
    let first ← processingDim dense i dim
    let later ← processingDims dense (i + 1) rest
    .ok (first :: later)

def ProcessingDim.takeAll (d : ProcessingDim) : Bool :=
  d.stride == 1 && d.begin_ == 0 && d.end_ == d.dim

def gather (processingShape : TensorShape) (index : Int) : Option Nat :=
  if 0 ≤ index then some (processingShape.getD index.toNat 0)
  else if index = kNewAxis then some 1
  else none

/-- What `ValidateStridedSliceOp` returns; `dims` has the begins, the ends, the strides and the
    processing shape. -/
structure SliceSpec where
  dims : List ProcessingDim
  finalShape : TensorShape
  isIdentity : Bool
  isSimpleSlice : Bool
  sliceDim0 : Bool

def SliceSpec.processingShape (spec : SliceSpec) : TensorShape := spec.dims.map ProcessingDim.size

def validateStridedSliceOp (beginTensor endTensor stridesTensor : IndexTensor w)
    (inputShape : TensorShape) (masks : Attributes) : Except Status SliceSpec := do
  let wrong (tensor : IndexTensor w) : Bool :=
    !(tensor.isVector && tensor.numElements == stridesTensor.numElements)
  let tooMany : Bool := 32 ≤ beginTensor.numElements
  opRequires (!(wrong beginTensor || tooMany || wrong endTensor || !stridesTensor.isVector))
    (.invalidArgument ("Expected begin, end, and strides to be 1D equal size tensors, " ++
      "but got shapes " ++ beginTensor.shape.debugString ++ ", " ++ endTensor.shape.debugString ++
      ", and " ++ stridesTensor.shape.debugString ++ " instead."))
  opRequires (masks.ellipsisMask &&& (masks.ellipsisMask - 1) == 0)
    (.invalidArgument "Multiple ellipses in slice spec not allowed")
  let dense ← buildDenseSpec (sparseSpec beginTensor endTensor stridesTensor masks)
    inputShape.length
  let dims ← processingDims dense 0 inputShape
  .ok
    { dims := dims
      finalShape := dense.finalShapeGatherIndices.filterMap (gather (dims.map ProcessingDim.size))
      isIdentity := dims.all ProcessingDim.takeAll
      isSimpleSlice := dims.all fun d => d.stride == 1
      sliceDim0 := dims.zipIdx.all fun (d, i) => (i == 0 && d.stride == 1) || d.takeAll }

/-- The begin and the end are clamped to the dimension, in the direction of the stride. -/
structure ProcessingDim.Clamped (d : ProcessingDim) : Prop where
  stride : d.stride ≠ 0
  size : d.size = processingSize (d.end_ - d.begin_) d.stride
  forward : 0 < d.stride → 0 ≤ d.begin_ ∧ d.end_ ≤ d.dim
  backward : d.stride < 0 → -1 ≤ d.end_ ∧ d.begin_ < d.dim

theorem div_add_remainder {n s : Nat} (pos : 0 < n) :
    n / s + (if n % s ≠ 0 then 1 else 0) = 1 + (n - 1) / s := by
  obtain ⟨m, rfl⟩ := Nat.exists_eq_succ_of_ne_zero (Nat.ne_of_gt pos)
  have divided : (m + 1) / s = m / s + if s ∣ m + 1 then 1 else 0 := Nat.succ_div
  by_cases dvd : s ∣ m + 1
  · simp [divided, dvd, Nat.mod_eq_zero_of_dvd dvd, add_comm]
  · have remainder : (m + 1) % s ≠ 0 := fun zero => dvd (Nat.dvd_of_mod_eq_zero zero)
    simp [divided, dvd, remainder, add_comm]

variable {intervalLength stride : Int}

theorem processingSize_of_direction
    (direction : 0 < stride ∧ 0 < intervalLength ∨ stride < 0 ∧ intervalLength < 0) :
    processingSize intervalLength stride = 1 + (intervalLength.natAbs - 1) / stride.natAbs := by
  have ge : 0 ≤ intervalLength.tdiv stride := by
    rcases direction with ⟨up, long⟩ | ⟨down, long⟩
    · exact Int.tdiv_nonneg (Int.le_of_lt long) (Int.le_of_lt up)
    · exact Int.tdiv_nonneg_of_nonpos_of_nonpos (Int.le_of_lt long) (Int.le_of_lt down)
  have quotient : (intervalLength.tdiv stride).natAbs = intervalLength.natAbs / stride.natAbs :=
    Int.natAbs_tdiv intervalLength stride
  have remainder : intervalLength.tmod stride = 0 ↔ intervalLength.natAbs % stride.natAbs = 0 := by
    rw [← Int.natAbs_tmod, Int.natAbs_eq_zero]
  have sameSign : ¬ (intervalLength = 0 ∨ (intervalLength < 0) ≠ (stride < 0)) := by
    rcases direction with ⟨up, long⟩ | ⟨down, long⟩
    · simp [Int.ne_of_gt long, Int.not_lt.mpr (Int.le_of_lt up), Int.not_lt.mpr (Int.le_of_lt long)]
    · simp [Int.ne_of_lt long, down, long]
  rw [← div_add_remainder (by omega), processingSize, if_neg sameSign]
  simp only [ne_eq, remainder]
  rw [← quotient]
  split <;> omega

theorem direction_of_processingSize (ne : stride ≠ 0)
    (taken : 0 < processingSize intervalLength stride) :
    0 < stride ∧ 0 < intervalLength ∨ stride < 0 ∧ intervalLength < 0 := by
  unfold processingSize at taken
  split at taken
  · exact absurd taken (Nat.lt_irrefl 0)
  · rename_i sameSign
    simp only [ne_eq, eq_iff_iff, not_or, not_not] at sameSign
    omega

/-- Some elements of the dimension are taken, between bounds that lie within it. -/
structure ProcessingDim.Taken (d : ProcessingDim) : Prop where
  direction : 0 < d.stride ∧ 0 ≤ d.begin_ ∧ d.begin_ < d.end_ ∧ d.end_ ≤ d.dim ∨
    d.stride < 0 ∧ -1 ≤ d.end_ ∧ d.end_ < d.begin_ ∧ d.begin_ < d.dim
  size : d.size = 1 + ((d.end_ - d.begin_).natAbs - 1) / d.stride.natAbs

theorem ProcessingDim.Clamped.taken {d : ProcessingDim} (clamped : d.Clamped)
    (some_ : 0 < d.size) : d.Taken := by
  have direction := direction_of_processingSize clamped.stride (clamped.size ▸ some_)
  constructor
  · rcases direction with ⟨up, long⟩ | ⟨down, long⟩
    · have bounds := clamped.forward up
      exact Or.inl ⟨up, by omega⟩
    · have bounds := clamped.backward down
      exact Or.inr ⟨down, by omega⟩
  · rw [clamped.size, processingSize_of_direction direction]

theorem ProcessingDim.Taken.size_pos {d : ProcessingDim} (taken : d.Taken) : 0 < d.size := by
  rw [taken.size]
  exact Nat.add_pos_left one_pos _

theorem ProcessingDim.Taken.dim_pos {d : ProcessingDim} (taken : d.Taken) : 0 < d.dim := by
  rcases taken.direction with ⟨-, bounds⟩ | ⟨-, bounds⟩
  · omega
  · omega

theorem ProcessingDim.Taken.size_le {d : ProcessingDim} (taken : d.Taken) : d.size ≤ d.dim := by
  have less : ((d.end_ - d.begin_).natAbs - 1) / d.stride.natAbs ≤
      (d.end_ - d.begin_).natAbs - 1 := Nat.div_le_self _ _
  have size := taken.size
  rcases taken.direction with ⟨-, bounds⟩ | ⟨-, bounds⟩
  · omega
  · omega

theorem canonical_bounds (stride : Int) (dim : Nat) (masked : Bool) (x : Int) (isEnd : Bool) :
    validRange stride dim false ≤ canonical stride dim masked x isEnd ∧
      canonical stride dim masked x isEnd ≤ validRange stride dim true := by
  have range : validRange stride dim false ≤ validRange stride dim true := by
    simp only [validRange]
    split <;> omega
  cases masked with
  | true =>
    simp only [canonical, if_true]
    cases isEnd with
    | true => split <;> simp [range]
    | false => split <;> simp [range]
  | false =>
    simp only [canonical, Bool.false_eq_true, if_false]
    generalize (if x < 0 then dim + x else x) = forward
    grind

/-- The begin and the end both lie within the range of the direction of the stride. -/
structure ProcessingDim.Within (d : ProcessingDim) : Prop where
  stride : d.stride ≠ 0
  size : d.size = processingSize (d.end_ - d.begin_) d.stride
  forward : 0 < d.stride → 0 ≤ d.begin_ ∧ d.begin_ ≤ d.dim ∧ 0 ≤ d.end_ ∧ d.end_ ≤ d.dim
  backward : d.stride < 0 → -1 ≤ d.begin_ ∧ d.begin_ < d.dim ∧ -1 ≤ d.end_ ∧ d.end_ < d.dim

namespace ProcessingDim.Within

variable {d : ProcessingDim}

theorem clamped (lt : d.Within) : d.Clamped where
  stride := lt.stride
  size := lt.size
  forward := fun up => ⟨(lt.forward up).1, (lt.forward up).2.2.2⟩
  backward := fun down => ⟨(lt.backward down).2.2.1, (lt.backward down).2.1⟩

theorem end_ge (lt : d.Within) : -1 ≤ d.end_ := by
  rcases Int.lt_or_gt_of_ne lt.stride with down | up
  · exact (lt.backward down).2.2.1
  · have bounds := lt.forward up
    omega

theorem interval_le (lt : d.Within) : (d.end_ - d.begin_).natAbs ≤ d.dim := by
  rcases Int.lt_or_gt_of_ne lt.stride with down | up
  · have bounds := lt.backward down
    omega
  · have bounds := lt.forward up
    omega

end ProcessingDim.Within

variable {dense : StridedSliceDenseSpec} {i : Nat}

theorem processingDim_ok {dim : Nat} {d : ProcessingDim}
    (ok : processingDim dense i dim = .ok d) :
    d.dim = dim ∧ d.stride = dense.strides.getD i 0 ∧ d.Within := by
  simp only [processingDim, bind_eq_ok, opRequires_eq_ok, decide_eq_true_eq] at ok
  obtain ⟨-, ne, -, direction, made⟩ := ok
  by_cases shrink : inMask dense.shrinkAxisMask i = true
  · simp only [shrink, if_true, bind_eq_ok, opRequires_eq_ok, Except.ok.injEq] at made
    obtain ⟨-, lt, rfl⟩ := made
    simp only [shrink, Bool.true_and, Bool.not_eq_true', decide_eq_false_iff_not] at direction
    simp only [Bool.not_eq_true', Bool.or_eq_false_iff, decide_eq_false_iff_not] at lt
    refine ⟨rfl, rfl, ne, rfl, fun _ => ?_, fun neg => ?_⟩
    · simp only [ProcessingDim.ofInterval]
      omega
    · simp only [ProcessingDim.ofInterval] at neg
      omega
  · simp only [shrink, Bool.false_eq_true, if_false, Except.ok.injEq] at made
    obtain rfl := made
    have begins := canonical_bounds (dense.strides.getD i 0) dim (inMask dense.beginMask i)
      (dense.begin_.getD i 0) false
    have ends := canonical_bounds (dense.strides.getD i 0) dim (inMask dense.endMask i)
      (dense.end_.getD i 0) true
    refine ⟨rfl, rfl, ne, rfl, fun pos => ?_, fun neg => ?_⟩
    · simp only [ProcessingDim.ofInterval] at pos ⊢
      simp only [validRange, pos, if_true] at begins ends
      omega
    · simp only [ProcessingDim.ofInterval] at neg ⊢
      simp only [validRange, Int.not_lt.mpr (Int.le_of_lt neg), if_false] at begins ends
      omega

theorem processingDims_ok {shape : List Nat} {dims : List ProcessingDim}
    (ok : processingDims dense i shape = .ok dims) : dims.map ProcessingDim.dim = shape ∧
      ∀ d ∈ dims, d.Within ∧ ∃ j, d.stride = dense.strides.getD j 0 := by
  induction shape generalizing i dims with
  | nil =>
    simp only [processingDims, Except.ok.injEq] at ok
    simp [← ok]
  | cons dim rest ih =>
    simp only [processingDims, bind_eq_ok, Except.ok.injEq] at ok
    obtain ⟨first, made, later, others, rfl⟩ := ok
    obtain ⟨shape, laterOk⟩ := ih others
    obtain ⟨isDim, stride, lt⟩ := processingDim_ok made
    exact ⟨by rw [map_cons, isDim, shape], forall_mem_cons.mpr ⟨⟨lt, i, stride⟩, laterOk⟩⟩

variable {P : Int → Prop} {sparse : StridedSliceSparseSpec w}

theorem addSparse_strides (one : P 1) (xs : ∀ i, P (sparse.stridesTensor.flat i))
    {state next : StridedSliceDenseSpec × Nat} (pre : ∀ s ∈ state.1.strides, P s)
    (added : addSparse sparse state i = .ok next) : ∀ s ∈ next.1.strides, P s := by
  obtain ⟨dense, fullIndex⟩ := state
  simp only [addSparse] at added
  split at added
  · simp only [Except.ok.injEq] at added
    subst added
    apply foldlRecOn (motive := fun d : StridedSliceDenseSpec => ∀ s ∈ d.strides, P s) _ _
      pre
    intro dense kept j _ s mem
    rcases mem_or_eq_of_mem_set mem with old | rfl
    · exact kept s old
    · exact one
  · split at added
    · simp only [Except.ok.injEq] at added
      subst added
      exact pre
    · simp only [bind_eq_ok, Except.ok.injEq] at added
      obtain ⟨-, -, rfl⟩ := added
      intro s mem
      rcases mem_or_eq_of_mem_set mem with old | rfl
      · exact pre s old
      · exact xs i

theorem buildDenseSpec_strides {dims : Nat} (zero : P 0) (one : P 1)
    (xs : ∀ i, P (sparse.stridesTensor.flat i))
    (built : buildDenseSpec sparse dims = .ok dense) (j : Nat) : P (dense.strides.getD j 0) := by
  simp only [buildDenseSpec, bind_eq_ok, Except.ok.injEq] at built
  obtain ⟨⟨dense', fullIndex⟩, folded, rfl⟩ := built
  have all := Lib.foldlM_invariant (I := fun state => ∀ s ∈ state.1.strides, P s)
    (fun state i next pre added => addSparse_strides one xs pre added)
    (fun s (mem : s ∈ replicate dims 0) => (eq_of_mem_replicate mem).symm ▸ zero)
    folded
  rw [getD_eq_getElem?_getD]
  cases got : dense'.strides[j]? with
  | none => exact zero
  | some s => exact all s (mem_of_getElem? got)

variable {masks : Attributes} {spec : SliceSpec}

theorem validateStridedSliceOp_ok {beginTensor endTensor stridesTensor : IndexTensor w}
    {inputShape : TensorShape}
    (ok : validateStridedSliceOp beginTensor endTensor stridesTensor inputShape masks =
      .ok spec) : ∃ dense, buildDenseSpec (sparseSpec beginTensor endTensor stridesTensor masks)
        inputShape.length = .ok dense ∧ processingDims dense 0 inputShape = .ok spec.dims := by
  simp only [validateStridedSliceOp, bind_eq_ok, opRequires_eq_ok, Except.ok.injEq] at ok
  obtain ⟨-, -, -, -, dense, built, dims, made, rfl⟩ := ok
  exact ⟨dense, built, made⟩

theorem isIdentity_of_accepted {beginTensor endTensor stridesTensor : IndexTensor w}
    {inputShape : TensorShape}
    (ok : validateStridedSliceOp beginTensor endTensor stridesTensor inputShape masks =
      .ok spec) : spec.isIdentity = spec.dims.all ProcessingDim.takeAll := by
  simp only [validateStridedSliceOp, bind_eq_ok, opRequires_eq_ok, Except.ok.injEq] at ok
  obtain ⟨-, -, -, -, dense, built, dims, made, rfl⟩ := ok
  rfl

section Accepted

variable {beginTensor endTensor stridesTensor : IndexTensor w} {inputShape : TensorShape}
  {masks : Attributes} {spec : SliceSpec}

theorem within_of_accepted
    (ok : validateStridedSliceOp beginTensor endTensor stridesTensor inputShape masks =
      .ok spec) : spec.dims.map ProcessingDim.dim = inputShape ∧ ∀ d ∈ spec.dims, d.Within := by
  obtain ⟨dense, -, made⟩ := validateStridedSliceOp_ok ok
  obtain ⟨shape, lt⟩ := processingDims_ok made
  exact ⟨shape, fun d mem => (lt d mem).1⟩

theorem taken_of_accepted
    (ok : validateStridedSliceOp beginTensor endTensor stridesTensor inputShape masks = .ok spec)
    (some_ : 0 < spec.processingShape.numElements) :
    spec.dims.map ProcessingDim.dim = inputShape ∧ ∀ d ∈ spec.dims, d.Taken := by
  obtain ⟨shape, lt⟩ := within_of_accepted ok
  have pos := List.prod_pos_iff_forall_pos_nat.mp some_
  refine ⟨shape, fun d mem => (lt d mem).clamped.taken ?_⟩
  exact pos d.size (mem_map_of_mem mem)

end Accepted

theorem int32_of_accepted {beginTensor endTensor stridesTensor : IndexTensor 32}
    {inputShape : TensorShape}
    (ok : validateStridedSliceOp beginTensor endTensor stridesTensor inputShape masks =
      .ok spec) (d : ProcessingDim) (mem : d ∈ spec.dims) :
    -2 ^ 31 ≤ d.stride ∧ d.stride < 2 ^ 31 := by
  obtain ⟨dense, built, made⟩ := validateStridedSliceOp_ok ok
  obtain ⟨j, is⟩ := ((processingDims_ok made).2 d mem).2
  rw [is]
  apply buildDenseSpec_strides (P := fun s => -2 ^ 31 ≤ s ∧ s < 2 ^ 31) (by decide) (by decide) _
    built
  intro i
  exact ⟨BitVec.le_toInt _, BitVec.toInt_lt⟩

end TfDml.StridedSlice
