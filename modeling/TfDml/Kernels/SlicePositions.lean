import TfDml.Kernels.SimplifySlice

/-! # What a simplified slice reads

The window of a simplified slice reads the same flat positions of the input, in the
same order, as the slice of the original dimensions, while the input has fewer than
2^32 elements.
-/

namespace TfDml.StridedSlice

open Lib List

/-- `out[i] = in[begin + i * stride]` on the original dimensions. -/
def referenceAxes : List ProcessingDim → List Axis
  | [] => []
  | d :: rest =>
    let inner : Nat := (rest.map ProcessingDim.dim).prod
    ⟨d.size, d.begin_ * inner, d.stride * inner⟩ :: referenceAxes rest

namespace DescDim

def count (d : DescDim) : Nat := 1 + (d.windowSize - 1) / d.windowStride.natAbs

/-- The first element: with a negative stride, the window is read from its other end. -/
def first (d : DescDim) : Int :=
  if 0 < d.windowStride then d.windowOffset else d.windowOffset + d.windowSize - 1

/-- What the operator reads along a dimension whose elements are `inputStride` apart. -/
def sliceAxis (d : DescDim) (inputStride : Nat) : Axis :=
  ⟨d.count, d.first * inputStride, d.windowStride * inputStride⟩

/-- The window lies within the dimension and has the output size as its count. -/
structure Valid (d : DescDim) : Prop where
  nonempty : 0 < d.windowSize
  inside : d.windowOffset + d.windowSize ≤ d.inputSize
  stride : d.windowStride ≠ 0
  outputSize : d.outputSize = d.count

end DescDim

namespace SimplifiedSlice

def inputSizes (slice : SimplifiedSlice) : List Nat := slice.map DescDim.inputSize

def outputSizes (slice : SimplifiedSlice) : List Nat := slice.map DescDim.outputSize

/-- What the window selects of a tensor with the input sizes and strides of the slice: the
    elements that `Slice` reads, and that `SliceGrad` writes. -/
def axes (slice : SimplifiedSlice) : List Axis := slice.map fun d => d.sliceAxis d.inputStride

end SimplifiedSlice

/-- What the window selects of the packed tensor that `FillValueSequence` makes of the input
    sizes. -/
def SimplifiedSlice.indexAxes : SimplifiedSlice → List Axis
  | [] => []
  | d :: rest => d.sliceAxis (inputSizes rest).prod :: indexAxes rest

/-- The output with its `output_strides`, computed from the last dimension to the first, and
    the `stride` that is left. -/
def outputAxes : List Nat → List Axis × Nat
  | [] => ([], 1)
  | size :: rest =>
    let (axes, stride) := outputAxes rest
    (⟨size, 0, stride⟩ :: axes, u32 (stride * size))

/-- The slice takes the elements that the specification says, in their order, and puts them
    one after the other. -/
structure Preserves (spec : SliceSpec) (slice : SimplifiedSlice) : Prop where
  valid : ∀ d ∈ slice, d.Valid
  elements : positions slice.axes = positions (referenceAxes spec.dims)
  indices : positions slice.indexAxes = positions (referenceAxes spec.dims)
  numElements : slice.outputSizes.prod = spec.processingShape.numElements
  outputs : positions (outputAxes slice.outputSizes).1 =
    (range slice.outputSizes.prod).map Int.ofNat

theorem SimplifiedSlice.axes_cons (d : DescDim) (rest : SimplifiedSlice) :
    axes (d :: rest) = d.sliceAxis d.inputStride :: rest.axes := rfl

theorem DescDim.sliceAxis_leading {d : DescDim} {inputStride : Nat} (offset : d.windowOffset = 0)
    (one : d.windowStride = 1) (pos : 0 < d.windowSize) :
    d.sliceAxis inputStride = ⟨d.windowSize, 0, inputStride⟩ := by
  have count : d.count = d.windowSize := by
    rw [DescDim.count, one, Int.natAbs_one, Nat.div_one]
    omega
  simp [DescDim.sliceAxis, count, DescDim.first, offset, one]

theorem DescDim.Valid.leading {d : DescDim} (offset : d.windowOffset = 0)
    (one : d.windowStride = 1) (pos : 0 < d.windowSize) (inside : d.windowSize ≤ d.inputSize)
    (outputSize : d.outputSize = d.windowSize) : d.Valid where
  nonempty := pos
  inside := by omega
  stride := by omega
  outputSize := by
    rw [outputSize, DescDim.count, one, Int.natAbs_one, Nat.div_one]
    omega

theorem outputAxes_eq {sizes : List Nat} (pos : ∀ size ∈ sizes, 0 < size)
    (lt : sizes.prod < 2 ^ 32) : outputAxes sizes = (packedAxes sizes, sizes.prod) := by
  induction sizes with
  | nil => rfl
  | cons size rest ih =>
    obtain ⟨first, later⟩ := forall_mem_cons.mp pos
    rw [prod_cons] at lt
    have inner : rest.prod < 2 ^ 32 := lt_of_le_of_lt (Nat.le_mul_of_pos_left _ first) lt
    rw [outputAxes, ih later inner, packedAxes, prod_cons, mul_comm]
    simp only [Prod.mk.injEq, true_and]
    rw [← Nat.cast_mul, u32_natCast (Nat.mul_comm _ _ ▸ lt)]

/-- Of `dims`, the dims in `written` and a group of `coalesced` elements that are
    `totalStride` apart have been made. -/
structure Made (coalesced totalStride : Nat) (dims : List ProcessingDim)
    (written : SimplifiedSlice) : Prop where
  whole : coalesced * totalStride = (dims.map ProcessingDim.dim).prod
  positive : 0 < coalesced
  stride : totalStride = written.inputSizes.prod
  outputs : coalesced * written.outputSizes.prod = (dims.map ProcessingDim.size).prod
  elements : positions (referenceAxes dims) = positions (⟨coalesced, 0, totalStride⟩ :: written.axes)
  packed : written.axes = written.indexAxes
  valid : ∀ d ∈ written, d.Valid

theorem made_initial : Made 1 1 [] [] where
  whole := rfl
  positive := one_pos
  stride := rfl
  outputs := rfl
  elements := (positions_trivial 1 []).symm
  packed := rfl
  valid := by simp

theorem ProcessingDim.Taken.whole {d : ProcessingDim} (taken : d.Taken) (all : d.dim = d.size)
    (up : 0 < d.stride) : d.begin_ = 0 ∧ (d.size = 1 ∨ d.stride = 1) := by
  have size := taken.size
  rcases taken.direction with ⟨-, first, long, last⟩ | ⟨down, -⟩
  · have less : ((d.end_ - d.begin_).natAbs - 1) / d.stride.natAbs ≤
        (d.end_ - d.begin_).natAbs - 1 := Nat.div_le_self _ _
    refine ⟨by omega, ?_⟩
    by_cases one : d.stride = 1
    · exact Or.inr one
    · have half : ((d.end_ - d.begin_).natAbs - 1) / d.stride.natAbs ≤
          ((d.end_ - d.begin_).natAbs - 1) / 2 := Nat.div_le_div_left (by omega) (by omega)
      exact Or.inl (by omega)
  · omega

theorem ProcessingDim.Taken.leading_size {d : ProcessingDim} (taken : d.Taken)
    (first : d.begin_ = 0) (one : d.stride = 1) : (d.size : Int) = d.end_ ∧ d.size ≤ d.dim := by
  have size := taken.size
  rw [one, first] at size
  simp only [Int.sub_zero, Int.natAbs_one, Nat.div_one] at size
  rcases taken.direction with ⟨-, -, long, last⟩ | ⟨down, -⟩
  · omega
  · omega

/-- The dim for one dimension, with its exact window. -/
def ProcessingDim.desc (d : ProcessingDim) (inputStride : Nat) : DescDim where
  inputSize := (exactWindow d).inputSize
  inputStride := inputStride
  outputSize := (exactWindow d).outputSize
  windowOffset := (exactWindow d).windowOffset
  windowSize := (exactWindow d).windowSize
  windowStride := (exactWindow d).windowStride

theorem ProcessingDim.Taken.valid {d : ProcessingDim} (taken : d.Taken) (inputStride : Nat) :
    (d.desc inputStride).Valid := by
  rcases taken.direction with ⟨up, first, long, last⟩ | ⟨down, first, long, last⟩
  · constructor
    · simp only [desc, exactWindow]
      omega
    · simp only [desc, exactWindow, up, if_true]
      omega
    · exact Int.ne_of_gt up
    · exact taken.size
  · constructor
    · simp only [desc, exactWindow]
      omega
    · simp only [desc, exactWindow, Int.not_lt.mpr (Int.le_of_lt down), if_false]
      omega
    · exact Int.ne_of_lt down
    · exact taken.size

theorem ProcessingDim.Taken.sliceAxis {d : ProcessingDim} (taken : d.Taken) (inputStride : Nat) :
    (d.desc inputStride).sliceAxis inputStride =
      ⟨d.size, d.begin_ * inputStride, d.stride * inputStride⟩ := by
  have first : (d.desc inputStride).first = d.begin_ := by
    rcases taken.direction with ⟨up, first, long, last⟩ | ⟨down, first, long, last⟩
    · simp only [DescDim.first, desc, exactWindow, up, if_true]
      omega
    · simp only [DescDim.first, desc, exactWindow, Int.not_lt.mpr (Int.le_of_lt down), if_false]
      omega
  have count : (d.desc inputStride).count = d.size := taken.size.symm
  rw [DescDim.sliceAxis, first, count]
  rfl

namespace Made

variable {coalesced totalStride : Nat} {dims : List ProcessingDim} {written : SimplifiedSlice}
  {d : ProcessingDim}

theorem reference (made : Made coalesced totalStride dims written) :
    referenceAxes (d :: dims) = ⟨d.size, d.begin_ * (coalesced * totalStride : Nat),
      d.stride * (coalesced * totalStride : Nat)⟩ :: referenceAxes dims := by
  rw [made.whole]
  rfl

theorem collapse (made : Made coalesced totalStride dims written) (taken : d.Taken)
    (all : d.dim = d.size) (up : 0 < d.stride) :
    Made (coalesced * d.dim) totalStride (d :: dims) written := by
  obtain ⟨first, shape⟩ := taken.whole all up
  constructor
  · rw [map_cons, prod_cons, ← made.whole, Nat.mul_right_comm, mul_comm]
  · rw [all]
    exact mul_pos made.positive taken.size_pos
  · exact made.stride
  · rw [map_cons, prod_cons, ← made.outputs, all, Nat.mul_right_comm, mul_comm]
  · rw [made.reference, first, Int.zero_mul, all]
    rcases shape with one | one
    · rw [one, positions_trivial, mul_one]
      exact made.elements
    · rw [one, Int.one_mul, positions_cons_congr _ made.elements, Nat.cast_mul, positions_merge,
        mul_comm]
  · exact made.packed
  · exact made.valid

theorem stride_pos (made : Made coalesced totalStride dims written) : 0 < totalStride := by
  rw [made.stride]
  apply List.prod_pos_iff_forall_pos_nat.mpr
  intro size mem
  obtain ⟨desc, lt, rfl⟩ := mem_map.mp mem
  have valid := made.valid desc lt
  have some_ := valid.nonempty
  have fits := valid.inside
  omega

theorem cons (made : Made coalesced totalStride dims written) {desc : DescDim}
    {dims' : List ProcessingDim} {next : Nat} (isStride : desc.inputStride = totalStride)
    (isNext : next = totalStride * desc.inputSize) (valid : desc.Valid)
    (whole : next = (dims'.map ProcessingDim.dim).prod)
    (outs : desc.outputSize * written.outputSizes.prod = (dims'.map ProcessingDim.size).prod)
    (xs : positions (referenceAxes dims') =
      positions (desc.sliceAxis totalStride :: written.axes)) :
    Made 1 next dims' (desc :: written) := by
  constructor
  · rw [one_mul, whole]
  · exact one_pos
  · rw [isNext, made.stride, mul_comm]
    rfl
  · rw [one_mul, ← outs]
    rfl
  · rw [xs, positions_trivial, SimplifiedSlice.axes_cons, isStride]
  · rw [SimplifiedSlice.axes_cons, isStride, made.packed, made.stride]
    rfl
  · exact forall_mem_cons.mpr ⟨valid, made.valid⟩

theorem insert (made : Made coalesced totalStride dims written) :
    Made 1 (totalStride * coalesced) dims
      ({ inputSize := coalesced
         inputStride := totalStride
         outputSize := coalesced
         windowSize := coalesced } :: written) := by
  apply made.cons rfl
  · rfl
  · exact .leading rfl rfl made.positive (le_refl _) rfl
  · rw [mul_comm, made.whole]
  · exact made.outputs
  · rw [DescDim.sliceAxis_leading rfl rfl made.positive, made.elements]

theorem separate (made : Made 1 totalStride dims written) (taken : d.Taken) :
    Made 1 (totalStride * d.dim) (d :: dims) (d.desc totalStride :: written) := by
  have whole := made.whole
  have outs := made.outputs
  rw [one_mul] at whole outs
  apply made.cons rfl
  · rfl
  · exact taken.valid totalStride
  · rw [map_cons, prod_cons, ← whole, mul_comm]
  · rw [map_cons, prod_cons, ← outs]
    rfl
  · rw [taken.sliceAxis, made.reference, positions_cons_congr _ made.elements,
      positions_cons_congr _ (positions_trivial _ _), one_mul]

theorem merge (made : Made coalesced totalStride dims written) (taken : d.Taken)
    (first : d.begin_ = 0) (one : d.stride = 1) :
    Made 1 (totalStride * (coalesced * d.dim)) (d :: dims)
      ({ inputSize := coalesced * d.dim
         inputStride := totalStride
         outputSize := coalesced * d.size
         windowSize := coalesced * d.size } :: written) := by
  have pos := mul_pos made.positive taken.size_pos
  have lt := Nat.mul_le_mul_left coalesced (taken.leading_size first one).2
  apply made.cons rfl
  · rfl
  · exact .leading rfl rfl pos lt rfl
  · rw [map_cons, prod_cons, ← made.whole]
    ring
  · rw [map_cons, prod_cons, ← made.outputs]
    ring
  · rw [DescDim.sliceAxis_leading rfl rfl pos, made.reference, first, one, Int.zero_mul,
      Int.one_mul, positions_cons_congr _ made.elements, Nat.cast_mul, positions_merge, mul_comm]

end Made

namespace Simplifier

variable {s : Simplifier} {dims : List ProcessingDim} {written : SimplifiedSlice}

theorem insertCoalesced_made (made : Made s.coalesced s.totalStride dims written)
    (layout : s.Written written) (lt : (dims.map ProcessingDim.dim).prod < 2 ^ 32) :
    ∃ written', Made 1 s.insertCoalesced.totalStride dims written' ∧
      s.insertCoalesced.Written written' := by
  rw [← made.whole, mul_comm] at lt
  unfold insertCoalesced
  by_cases group : 1 < s.coalesced
  · have ins := layout.insertDim
      { inputSize := s.coalesced
        inputStride := s.totalStride
        outputSize := s.coalesced
        windowSize := s.coalesced }
    rw [if_pos group, ← Nat.cast_mul, u32_natCast lt]
    exact ⟨_, made.insert, ins.currentDim, ins.desc⟩
  · have one : s.coalesced = 1 := Nat.le_antisymm (Nat.le_of_not_lt group) made.positive
    rw [if_neg group]
    exact ⟨written, one ▸ made, layout⟩

theorem visit_made {d : ProcessingDim} (made : Made s.coalesced s.totalStride dims written)
    (layout : s.Written written) (taken : d.Taken)
    (lt : d.dim * (dims.map ProcessingDim.dim).prod < 2 ^ 32) :
    ∃ written', Made (s.visit d (exactWindow d)).coalesced (s.visit d (exactWindow d)).totalStride
        (d :: dims) written' ∧ (s.visit d (exactWindow d)).Written written' := by
  have whole : s.coalesced * d.dim * s.totalStride < 2 ^ 32 := by
    rw [Nat.mul_right_comm, made.whole, mul_comm]
    exact lt
  have group : s.coalesced * d.dim < 2 ^ 32 :=
    lt_of_le_of_lt (Nat.le_mul_of_pos_right _ made.stride_pos) whole
  unfold visit
  by_cases collapsible : (exactWindow d).collapsible = true
  · rw [if_pos collapsible]
    simp only [Window.collapsible, Bool.and_eq_true, beq_iff_eq, decide_eq_true_eq] at collapsible
    obtain ⟨all, up⟩ : d.dim = d.size ∧ 0 < d.stride := collapsible
    refine ⟨written, ?_, layout.currentDim, layout.desc⟩
    simp only [exactWindow, ← Nat.cast_mul, u32_natCast group]
    exact made.collapse taken all up
  · rw [if_neg collapsible]
    by_cases merged : d.begin_ = 0 ∧ (exactWindow d).windowStride = 1 ∧ 1 < s.coalesced
    · rw [if_pos merged]
      obtain ⟨first, one, -⟩ := merged
      have outs : s.coalesced * d.size < 2 ^ 32 :=
        lt_of_le_of_lt (Nat.mul_le_mul_left _ (taken.leading_size first one).2) group
      have next : s.totalStride * (s.coalesced * d.dim) < 2 ^ 32 := by
        rw [mul_comm]
        exact whole
      unfold insertMerged
      simp only [exactWindow, ← Nat.cast_mul, u32_natCast group, u32_natCast outs, u32_natCast next]
      have ins := layout.insertDim
        { inputSize := s.coalesced * d.dim
          inputStride := s.totalStride
          outputSize := s.coalesced * d.size
          windowSize := s.coalesced * d.size }
      exact ⟨_, made.merge taken first one, ins.currentDim, ins.desc⟩
    · rw [if_neg merged]
      obtain ⟨written', made', layout'⟩ :=
        insertCoalesced_made made layout
          (lt_of_le_of_lt (Nat.le_mul_of_pos_left _ taken.dim_pos) lt)
      have next : s.insertCoalesced.totalStride * d.dim < 2 ^ 32 := by
        have total := made'.whole
        rw [one_mul] at total
        rw [total, mul_comm]
        exact lt
      have ins := layout'.insertDim (d.desc s.insertCoalesced.totalStride)
      unfold insertSeparate
      have isNext : u32 (s.insertCoalesced.totalStride * (exactWindow d).inputSize : Nat) =
          s.insertCoalesced.totalStride * d.dim := u32_natCast next
      rw [← Nat.cast_mul, isNext]
      exact ⟨_, made'.separate taken, ins.currentDim, ins.desc⟩

theorem dims_prod_pos (taken : ∀ d ∈ dims, d.Taken) : 0 < (dims.map ProcessingDim.dim).prod := by
  apply List.prod_pos_iff_forall_pos_nat.mpr
  intro dim mem
  obtain ⟨d, lt, rfl⟩ := mem_map.mp mem
  exact (taken d lt).dim_pos

theorem visitDims_made (taken : ∀ d ∈ dims, d.Taken)
    (int32 : ∀ d ∈ dims, -2 ^ 31 ≤ d.stride ∧ d.stride < 2 ^ 31)
    (lt : (dims.map ProcessingDim.dim).prod < 2 ^ 32) :
    ∃ s written, visitDims dims = .ok s ∧ Made s.coalesced s.totalStride dims written ∧
      s.Written written := by
  induction dims with
  | nil => exact ⟨initial, [], rfl, made_initial, written_initial⟩
  | cons d rest ih =>
    obtain ⟨first, later⟩ := forall_mem_cons.mp taken
    obtain ⟨firstInt32, laterInt32⟩ := forall_mem_cons.mp int32
    rw [map_cons, prod_cons] at lt
    have pos := first.dim_pos
    have inner : (rest.map ProcessingDim.dim).prod < 2 ^ 32 :=
      lt_of_le_of_lt (Nat.le_mul_of_pos_left _ pos) lt
    have innerPositive := dims_prod_pos later
    have outer : d.dim < 2 ^ 32 := lt_of_le_of_lt (Nat.le_mul_of_pos_right _ innerPositive) lt
    obtain ⟨s, written, seen, made, layout⟩ := ih later laterInt32 inner
    obtain ⟨written', made', layout'⟩ := visit_made made layout first lt
    refine ⟨s.visit d (exactWindow d), written', ?_, made', layout'⟩
    rw [visitDims, seen, window_eq first outer firstInt32]
    rfl

end Simplifier

theorem padding_sliceAxis (padding inputStride : Nat) :
    (DescDim.padding padding).sliceAxis inputStride = ⟨1, 0, inputStride⟩ :=
  DescDim.sliceAxis_leading rfl rfl one_pos

theorem padding_valid (padding : Nat) : (DescDim.padding padding).Valid :=
  .leading rfl rfl one_pos (le_refl _) rfl

theorem padded_axes (n padding : Nat) (written : SimplifiedSlice) :
    SimplifiedSlice.axes (replicate n (.padding padding) ++ written) =
      replicate n ⟨1, 0, padding⟩ ++ written.axes := by
  simp only [SimplifiedSlice.axes, map_append, map_replicate, padding_sliceAxis]
  rfl

theorem padded_outputSizes (n padding : Nat) (written : SimplifiedSlice) :
    (SimplifiedSlice.outputSizes (replicate n (.padding padding) ++ written)).prod =
      written.outputSizes.prod := by
  simp [SimplifiedSlice.outputSizes, DescDim.padding]

theorem padded_indexAxes (n padding : Nat) (written : SimplifiedSlice) :
    positions (SimplifiedSlice.indexAxes (replicate n (.padding padding) ++ written)) =
      positions written.indexAxes := by
  induction n with
  | zero => rfl
  | succ n ih =>
    rw [replicate_succ, cons_append, SimplifiedSlice.indexAxes, padding_sliceAxis,
      positions_trivial, ih]

theorem preserves_of_made {spec : SliceSpec} {written : SimplifiedSlice} {totalStride : Nat}
    (made : Made 1 totalStride spec.dims written) (n : Nat)
    (small : spec.processingShape.numElements < 2 ^ 32) :
    Preserves spec (replicate n (.padding totalStride) ++ written) := by
  have xs : positions written.axes = positions (referenceAxes spec.dims) := by
    rw [made.elements, positions_trivial]
  have outs := made.outputs
  rw [one_mul] at outs
  have valid : ∀ d ∈ replicate n (.padding totalStride) ++ written, d.Valid := by
    intro d mem
    rcases mem_append.mp mem with padding | inserted
    · exact eq_of_mem_replicate padding ▸ padding_valid totalStride
    · exact made.valid d inserted
  constructor
  · exact valid
  · rw [padded_axes, positions_replicate_trivial, xs]
  · rw [padded_indexAxes, ← made.packed, xs]
  · rw [padded_outputSizes, outs]
    rfl
  · rw [outputAxes_eq _ (by rw [padded_outputSizes, outs]; exact small)]
    · exact positions_packedAxes _
    · intro size mem
      obtain ⟨d, lt, rfl⟩ := mem_map.mp mem
      rw [(valid d lt).outputSize]
      exact Nat.add_pos_left one_pos _

theorem prod_size_le {dims : List ProcessingDim} (taken : ∀ d ∈ dims, d.Taken) :
    (dims.map ProcessingDim.size).prod ≤ (dims.map ProcessingDim.dim).prod := by
  induction dims with
  | nil => exact le_refl _
  | cons d rest ih =>
    obtain ⟨first, later⟩ := forall_mem_cons.mp taken
    rw [map_cons, prod_cons, map_cons, prod_cons]
    exact Nat.mul_le_mul first.size_le (ih later)

/-- A slice that `SimplifySlice` returns takes the same elements of the input, in the same
    order. -/
theorem simplifySlice_preserves {beginTensor endTensor stridesTensor : IndexTensor 32}
    {inputShape : TensorShape} {masks : Attributes} {spec : SliceSpec} {slice : SimplifiedSlice}
    (accepted : validateStridedSliceOp beginTensor endTensor stridesTensor inputShape masks =
      .ok spec)
    (nonempty : 0 < spec.processingShape.numElements) (small : inputShape.numElements < 2 ^ 32)
    (simplified : simplifySlice spec.dims = .ok (some slice)) : Preserves spec slice := by
  obtain ⟨shape, taken⟩ := taken_of_accepted accepted nonempty
  have inputSmall : (spec.dims.map ProcessingDim.dim).prod < 2 ^ 32 := shape ▸ small
  have outputSmall : spec.processingShape.numElements < 2 ^ 32 :=
    lt_of_le_of_lt (prod_size_le taken) inputSmall
  obtain ⟨s, written, seen, made, layout⟩ :=
    Simplifier.visitDims_made taken (int32_of_accepted accepted) inputSmall
  obtain ⟨written', made', layout'⟩ := Simplifier.insertCoalesced_made made layout inputSmall
  rw [simplifySlice, seen] at simplified
  obtain ⟨-, rfl⟩ := layout'.finish.mp (Except.ok.inj simplified)
  exact preserves_of_made made' _ outputSmall

def indexVector (values : List (BitVec w)) : IndexTensor w where
  shape := [values.length]
  values := values
  sized := by simp [TensorShape.numElements]

/-- `x[1:3, :, 4:0:-2]` of a tensor of 4 x 3 x 5 elements. -/
theorem reversedColumns_preserved : ∃ spec slice,
      validateStridedSliceOp (indexVector [1#32, 0#32, 4#32]) (indexVector [3#32, 3#32, 0#32])
        (indexVector [1#32, 1#32, -2#32]) [4, 3, 5] {} = .ok spec ∧
      simplifySlice spec.dims = .ok (some slice) ∧ Preserves spec slice := by
  have ok : validateStridedSliceOp (indexVector [1#32, 0#32, 4#32])
      (indexVector [3#32, 3#32, 0#32]) (indexVector [1#32, 1#32, -2#32]) [4, 3, 5] {} = .ok _ := rfl
  exact ⟨_, _, ok, rfl, simplifySlice_preserves ok (by decide) (by decide) rfl⟩

/-- `x[2:6]` of a vector of 2^32 + 4 elements becomes the slice of its first four. -/
theorem longVector_notPreserved : ∃ spec slice,
      validateStridedSliceOp (indexVector [2#32]) (indexVector [6#32]) (indexVector [1#32])
        [2 ^ 32 + 4] {} = .ok spec ∧
      0 < spec.processingShape.numElements ∧ spec.processingShape.numElements < 2 ^ 32 ∧
      simplifySlice spec.dims = .ok (some slice) ∧ ¬ Preserves spec slice := by
  refine ⟨_, _, rfl, by decide, by decide, rfl, fun preserves => ?_⟩
  exact absurd preserves.elements (by decide)

end TfDml.StridedSlice
