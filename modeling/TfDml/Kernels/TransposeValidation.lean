import TfDml.Kernels.Transpose

/-! # How a transpose validates its permutation

The initialization helper compares the number of entries with the rank of the input,
and limits the dimensions of the simplified transpose. Permutations pass the loops of
both helpers without an access that is out of range.
-/

namespace TfDml.Transpose

open List
open StridedSlice (IndexTensor i32)

def validatePerm (inputShape : TensorShape) (permTensor : IndexTensor w) : Except Status Unit := do
  opRequires permTensor.isVector
    (.invalidArgument ("perm must be a vector, not " ++ permTensor.shape.debugString))
  opRequires (inputShape.length == permTensor.numElements)
    (.invalidArgument ("transpose expects a vector of size " ++ toString inputShape.length ++
      ". But input(1) is a vector of size " ++ toString permTensor.numElements))

def tooManyDimensions (simple : SimpleTranspose) : Status :=
  .invalidArgument ("DML doesn't support more than 8D for Transpose, but " ++
    toString simple.inputShape.length ++ " dimensions were provided.")

/-- `TransposeInitHelper`, with the status that it sets, or its simplified transpose. -/
def transposeInitHelper (inputShape : TensorShape) (permTensor : IndexTensor w) :
    Except Fatal (Except Status SimpleTranspose) :=
  match validatePerm inputShape permTensor with
  | .error status => .ok (.error status)
  | .ok () => do
    let simple ← simplifyTranspose inputShape (ints permTensor)
    if simple.inputShape.length ≤ 8 then .ok (.ok simple)
    else .ok (.error (tooManyDimensions simple))

/-- The loop body of `GetOutputShapesHelper`. -/
def setOutputDim (inputShape : TensorShape) (permTensor : IndexTensor w)
    (outputShape : TensorShape) (i : Nat) : Except Fatal TensorShape := do
  let inputDimIndex := permTensor.flat i
  if inputDimIndex < inputShape.length then
    let size ← read inputShape (i32 inputDimIndex)
    write outputShape i size
  else .error .check

def getOutputShapes (inputShape : TensorShape) (permTensor : IndexTensor w) :
    Except Fatal TensorShape :=
  (range permTensor.numElements).foldlM (setOutputDim inputShape permTensor) inputShape

/-- The tensor holds the dimensions, each of which occurs once. -/
structure Holds (permTensor : IndexTensor w) (perm : List Nat) (rank : Nat) : Prop where
  vector : permTensor.isVector = true
  values : permTensor.values.map BitVec.toInt = perm.map Int.ofNat
  isPerm : perm.Perm (range rank)

section Helpers

variable {permTensor : IndexTensor w} {perm : List Nat} {inputShape : TensorShape}

theorem Holds.numElements {rank : Nat} (holds : Holds permTensor perm rank) :
    permTensor.numElements = rank := by
  have lens := congrArg List.length holds.values
  rw [length_map, length_map, permTensor.sized, holds.isPerm.length_eq, length_range] at lens
  exact lens

theorem Holds.ints_eq {rank : Nat} (holds : Holds permTensor perm rank) (small : rank ≤ 2 ^ 31) :
    ints permTensor = perm.map Int.ofNat := by
  have casts : ints permTensor = (permTensor.values.map BitVec.toInt).map i32 := by
    rw [map_map]
    rfl
  rw [casts, holds.values, map_map]
  apply map_congr_left
  intro d mem
  have lt := mem_range.mp (holds.isPerm.mem_iff.mp mem)
  have cast : i32 (d : Int) = d := StridedSlice.i32_of_bounds (by omega) (by omega)
  rw [Function.comp_apply, Int.ofNat_eq_natCast, cast]

theorem Holds.flat_eq {rank : Nat} (holds : Holds permTensor perm rank) {i : Nat}
    (lt : i < perm.length) : permTensor.flat i = (perm[i] : Int) := by
  have lens := congrArg List.length holds.values
  rw [length_map, length_map] at lens
  have inValues : i < permTensor.values.length := lens ▸ lt
  have entry := congrArg (fun l => l[i]?) holds.values
  simp only [getElem?_map, getElem?_eq_getElem lt,
    getElem?_eq_getElem inValues, Option.map_some, Option.some.injEq] at entry
  rw [IndexTensor.flat, getD_eq_getElem _ _ inValues, entry]
  rfl

theorem Holds.validatePerm_ok (holds : Holds permTensor perm inputShape.length) :
    validatePerm inputShape permTensor = .ok () := by
  simp [validatePerm, opRequires, holds.vector, holds.numElements, bind, Except.bind]

theorem simplifyTranspose_total (isPerm : perm.Perm (range inputShape.length)) :
    ∃ simple, simplifyTranspose inputShape (perm.map Int.ofNat) = .ok simple ∧
      simple.inputShape.length ≤ max 1 inputShape.length := by
  by_cases rank : perm = []
  · subst rank
    exact ⟨⟨[1], [1], [0]⟩, rfl, le_max_left 1 _⟩
  · obtain ⟨sizes, map, merged, length, -, inverse⟩ := mergeDims_ok rank isPerm
    refine ⟨_, simplifyTranspose_ok (length ▸ isPerm) merged (length ▸ inverse), ?_⟩
    have left : (remaining sizes).length ≤ sizes.length := length_filter_le _ _
    exact le_trans (length ▸ left) (le_max_right 1 _)

/-- The shape of the output has been set up to the dimension `i`. -/
structure SetUp (inputShape : TensorShape) (perm : List Nat) (outputShape : TensorShape)
    (i : Nat) : Prop where
  length : outputShape.length = inputShape.length
  entries : ∀ j (inside : j < perm.length), j < i →
    outputShape[j]? = some (inputShape.getD perm[j] 0)

theorem Holds.setOutputDim_setUp (holds : Holds permTensor perm inputShape.length)
    (small : inputShape.length ≤ 2 ^ 31) {i : Nat} (lt : i < perm.length)
    {outputShape : TensorShape} (pre : SetUp inputShape perm outputShape i) :
    ∃ next, setOutputDim inputShape permTensor outputShape i = .ok next ∧
      SetUp inputShape perm next (i + 1) := by
  have isDim : perm[i] < inputShape.length :=
    mem_range.mp (holds.isPerm.mem_iff.mp (getElem_mem lt))
  have rank : perm.length = inputShape.length := by rw [holds.isPerm.length_eq, length_range]
  have room : i < outputShape.length := by
    rw [pre.length, ← rank]
    exact lt
  have cast : i32 (perm[i] : Int) = perm[i] := StridedSlice.i32_of_bounds (by omega) (by omega)
  have size : inputShape[perm[i]]? = some (inputShape.getD perm[i] 0) := by
    rw [getD_eq_getElem _ _ isDim, getElem?_eq_getElem isDim]
  refine ⟨outputShape.set i (inputShape.getD perm[i] 0), ?_, ?_, ?_⟩
  · simp only [setOutputDim, holds.flat_eq lt, cast, read_ok size, write_ok room, bind,
      Except.bind, if_pos (Int.ofNat_lt.mpr isDim)]
  · rw [length_set, pre.length]
  · intro j insideJ upTo
    by_cases last : j = i
    · subst last
      rw [getElem?_set_self room]
    · rw [getElem?_set_ne (Ne.symm last), pre.entries j insideJ (by omega)]

theorem Holds.getOutputShapes_ok (holds : Holds permTensor perm inputShape.length)
    (small : inputShape.length ≤ 2 ^ 31) :
    getOutputShapes inputShape permTensor = .ok (perm.map fun d => inputShape.getD d 0) := by
  have rank : perm.length = inputShape.length := by rw [holds.isPerm.length_eq, length_range]
  have start : SetUp inputShape perm inputShape 0 := ⟨rfl, fun _ _ none => absurd none (by omega)⟩
  obtain ⟨outputShape, folded, done⟩ := Lib.foldlM_range_ok start fun i lt pre setUp =>
    holds.setOutputDim_setUp small (i := i) lt setUp
  rw [getOutputShapes, holds.numElements, ← rank, folded]
  congr 1
  apply ext_getElem
  · rw [done.length, length_map, rank]
  · intro j lt lt'
    rw [length_map] at lt'
    have entry := done.entries j lt' lt'
    rw [getElem?_eq_getElem lt, Option.some.injEq] at entry
    rw [entry, getElem_map]

end Helpers

/-- How the helpers treat tensors of other shapes, and permutations. -/
structure Validates (inputShape : TensorShape) (permTensor : IndexTensor w) : Prop where
  notVector : permTensor.isVector = false →
    transposeInitHelper inputShape permTensor = .ok (.error (.invalidArgument
      ("perm must be a vector, not " ++ permTensor.shape.debugString)))
  otherSize : permTensor.isVector = true → permTensor.numElements ≠ inputShape.length →
    transposeInitHelper inputShape permTensor = .ok (.error (.invalidArgument
      ("transpose expects a vector of size " ++ toString inputShape.length ++
        ". But input(1) is a vector of size " ++ toString permTensor.numElements)))
  permutation : ∀ perm, Holds permTensor perm inputShape.length →
    getOutputShapes inputShape permTensor = .ok (perm.map fun d => inputShape.getD d 0) ∧
    ∃ simple, simplifyTranspose inputShape (ints permTensor) = .ok simple ∧
      (inputShape.length ≤ 8 → simple.inputShape.length ≤ 8) ∧
      transposeInitHelper inputShape permTensor = .ok
        (if simple.inputShape.length ≤ 8 then .ok simple else .error (tooManyDimensions simple))

/-- Permutations are accepted unless too many dimensions are left of them. -/
theorem transposeInitHelper_validates (inputShape : TensorShape) (permTensor : IndexTensor w)
    (small : inputShape.length ≤ 2 ^ 31) : Validates inputShape permTensor where
  notVector := by
    intro notVector
    simp [transposeInitHelper, validatePerm, opRequires, notVector, bind, Except.bind]
  otherSize := by
    intro vector other
    have differ : (inputShape.length == permTensor.numElements) = false :=
      beq_eq_false_iff_ne.mpr (Ne.symm other)
    simp [transposeInitHelper, validatePerm, opRequires, vector, differ, bind, Except.bind]
  permutation := by
    intro perm holds
    refine ⟨holds.getOutputShapes_ok small, ?_⟩
    obtain ⟨simple, simplified, dims⟩ := simplifyTranspose_total holds.isPerm
    rw [← holds.ints_eq small] at simplified
    refine ⟨simple, simplified, by omega, ?_⟩
    rw [transposeInitHelper, holds.validatePerm_ok]
    simp only [simplified, bind, Except.bind]
    split
    · rfl
    · rfl

def reversed : IndexTensor 32 where
  shape := [9]
  values := [8, 7, 6, 5, 4, 3, 2, 1, 0]
  sized := rfl

theorem transposeInitHelper_validates_reversed : Validates (replicate 9 1) reversed :=
  transposeInitHelper_validates (replicate 9 1) reversed (by decide)

/-- A permutation that is refused. -/
theorem reversed_refused : (∃ perm, Holds reversed perm 9) ∧
      transposeInitHelper (replicate 9 1) reversed = .ok (.error (.invalidArgument
        "DML doesn't support more than 8D for Transpose, but 9 dimensions were provided.")) := by
  refine ⟨⟨[8, 7, 6, 5, 4, 3, 2, 1, 0], rfl, by decide, by decide⟩, ?_⟩
  decide

end TfDml.Transpose
