import TfDml.Kernels.BiasAdd

/-! # `AddN`

The op adds tensors of one shape. The kernel flattens all of them to the number of elements of the
first one.
-/

namespace TfDml.AddN

open Lib DmlGraph
open List hiding flatten
open BiasAdd (made)
open DmlTensorDesc (BufferTensorSize createShape)
open Expression NoOpKernel

structure Operand (R : Type) where
  shape : TensorShape
  values : List R
  length : values.length = shape.numElements

/-- Tensors of a registered type, of which there is at least one. -/
structure Call (R : Type) where
  dataType : DataType
  registered : dataType ∈ [DataType.float, .half, .int64, .uint32]
  first : Operand R
  rest : List (Operand R)

section Kernel

variable {R : Type}

/-- The shape that `DmlAddNKernel` describes every input and the output with. -/
def tensorShape (outputShape : TensorShape) : TensorShape := [outputShape.numElements]

def total [Add R] : Expression R → List (Expression R) → Option (Expression R)
  | sum, [] => some sum
  | sum, next :: rest => do total (← map₂ (· + ·) sum next) rest

/-- `DmlAddNKernel` -/
def addNKernel [Add R] (helper : BufferTensorSize) (dataType : DataType)
    (outputShape : TensorShape) (first : List R) (rest : List (List R)) :
    Option (List (Option R)) := do
  let shape := tensorShape outputShape
  let input ← ofShape helper dataType shape shape first
  let inputs ← rest.mapM (ofShape helper dataType shape shape)
  let output ← createShape helper dataType shape shape
  let sum ← total input inputs
  return (Expression.stored output.desc sum.read).buffer

namespace Call

variable (c : Call R)

def operands : List (Operand R) := c.first :: c.rest

/-- `GetOutputShapeAsInputShapeHelper` -/
def outputShape : TensorShape := c.first.shape

def isNoOp : Bool := isNoOpKernel (c.operands.map Operand.shape) [c.outputShape]

/-- What the op writes, unless a `CHECK` fails. There are no checks of its own. -/
def compute [Add R] [Zero R] (helper : BufferTensorSize) : Except Stop (List (Option R)) :=
  if c.isNoOp then .ok (zeroed c.outputShape)
  else made (addNKernel helper c.dataType c.outputShape c.first.values
    (c.rest.map Operand.values))

def SameShapes : Prop := ∀ operand ∈ c.operands, operand.shape = c.first.shape

def sums [AddMonoid R] : List (Option R) :=
  (range c.outputShape.numElements).map fun i =>
    some (c.operands.map fun operand => operand.values.getD i 0).sum

def Covered : Prop :=
  c.isNoOp = false →
    ∀ operand ∈ c.operands, (tensorShape c.outputShape).numElements ≤ operand.shape.numElements

def Adds [AddMonoid R] (helper : BufferTensorSize) : Prop :=
  (Stop.Reports (c.compute helper) ↔ ¬ c.SameShapes) ∧
    (c.SameShapes → c.compute helper = .ok c.sums) ∧ c.Covered

end Call

end Kernel

theorem exists_dataType {dataType : DataType}
    (registered : dataType ∈ [DataType.float, .half, .int64, .uint32]) :
    ∃ dmlDataType, getDmlDataTypeFromTfDataType dataType = some dmlDataType := by
  simp only [mem_cons, not_mem_nil, or_false] at registered
  rcases registered with rfl | rfl | rfl | rfl <;> exact ⟨_, rfl⟩

theorem packed_singleton {count : Nat} (some_ : 0 < count) (small : count < 2 ^ 32) :
    Expression.Packed [count] where
  rank := (by decide : 1 ≤ DmlTensorDesc.maxDimensionCount)
  positive := by simpa using some_
  small := by simpa using small

theorem flatten_singleton (count i : Nat) : flatten [count] [i] = i := by simp [flatten]

theorem indices_singleton (count : Nat) : indices [count] = (range count).map fun i => [i] := by
  rw [indices, map_eq_flatMap]
  rfl

section Values

variable {R : Type} [AddMonoid R] {count : Nat}

def Holds (count : Nat) (t : Expression R) (value : Nat → R) : Prop :=
  t.sizes = shapeSizes [count] ∧
    ∀ i < count, t.read (BroadcastView.leadingIndex true [i]) = some (value i)

variable {dataType : DataType}

theorem exists_holds (some_ : 0 < count) (small : count < 2 ^ 32) (helper : BufferTensorSize)
    (registered : dataType ∈ [DataType.float, .half, .int64, .uint32]) {values : List R}
    (length : values.length = count) :
    ∃ t, ofShape helper dataType [count] [count] values = some t ∧
      Holds count t fun i => values.getD i 0 := by
  obtain ⟨dmlDataType, known⟩ := exists_dataType registered
  obtain ⟨t, isSome, sizes, reads⟩ :=
    (packed_singleton some_ small).ofShape_eq_some (broadcast_self [count]) helper known values
  refine ⟨t, isSome, sizes, fun i below => ?_⟩
  have mem : [i] ∈ indices [count] := by simpa [indices_singleton] using below
  have lt : i < values.length := length ▸ below
  rw [reads [i] mem, broadcastIndex_of_mem mem, flatten_singleton, getElem?_eq_getElem lt]
  exact congrArg some (getD_eq_getElem values 0 lt).symm

variable {rest : List (List R)}

theorem exists_holds_all (some_ : 0 < count) (lt : count < 2 ^ 32) (helper : BufferTensorSize)
    (registered : dataType ∈ [DataType.float, .half, .int64, .uint32])
    (lens : ∀ values ∈ rest, values.length = count) :
    ∃ inputs, rest.mapM (ofShape helper dataType [count] [count]) = some inputs ∧
      List.Forall₂ (fun t values => Holds count t fun i => values.getD i 0) inputs rest := by
  induction rest with
  | nil => exact ⟨[], rfl, .nil⟩
  | cons values rest ih =>
    rw [forall_mem_cons] at lens
    obtain ⟨t, isSome, holds⟩ := exists_holds some_ lt helper registered lens.1
    obtain ⟨inputs, areSome, allHold⟩ := ih lens.2
    refine ⟨t :: inputs, ?_, .cons holds allHold⟩
    rw [mapM_cons, isSome, areSome]
    rfl

variable {x : Nat → R}

theorem holds_map₂ {a b : Expression R} {y : Nat → R} (left : Holds count a x)
    (right : Holds count b y) :
    ∃ t, map₂ (· + ·) a b = some t ∧ Holds count t fun i => x i + y i := by
  obtain ⟨t, made, sizes, reads⟩ :=
    map₂_eq_some (f := fun x y : R => x + y) (left.1.trans right.1.symm)
  refine ⟨t, made, sizes.trans left.1, fun i below => ?_⟩
  have mem : [i] ∈ indices [count] := by simpa [indices_singleton] using below
  rw [reads _ (left.1 ▸ leadingIndex_mem mem), left.2 i below, right.2 i below]
  rfl

theorem exists_total {sum : Expression R} {inputs : List (Expression R)} (start : Holds count sum x)
    (hold : List.Forall₂ (fun t values => Holds count t fun i => values.getD i 0) inputs rest) :
    ∃ t, total sum inputs = some t ∧
      Holds count t fun i => x i + (rest.map fun values => values.getD i 0).sum := by
  induction hold generalizing sum x with
  | nil => exact ⟨sum, rfl, by simpa using start⟩
  | cons first _ ih =>
    obtain ⟨next, made, holds⟩ := holds_map₂ start first
    obtain ⟨t, isSome, total_⟩ := ih holds
    refine ⟨t, by rw [total, made]; exact isSome, total_.1, fun i below => ?_⟩
    dsimp only
    rw [map_cons, sum_cons, ← add_assoc]
    exact total_.2 i below

theorem addNKernel_eq {outputShape : TensorShape} (some_ : 0 < outputShape.numElements)
    (lt : outputShape.numElements < 2 ^ 32) (helper : BufferTensorSize)
    (registered : dataType ∈ [DataType.float, .half, .int64, .uint32]) {first : List R}
    (length : first.length = outputShape.numElements)
    (lens : ∀ values ∈ rest, values.length = outputShape.numElements) :
    addNKernel helper dataType outputShape first rest =
      some ((range outputShape.numElements).map fun i =>
        some (first.getD i 0 + (rest.map fun values => values.getD i 0).sum)) := by
  obtain ⟨dmlDataType, known⟩ := exists_dataType registered
  obtain ⟨input, isInput, holds⟩ := exists_holds some_ lt helper registered length
  obtain ⟨inputs, areInputs, allHold⟩ := exists_holds_all some_ lt helper registered lens
  obtain ⟨buffer, new, -, writes⟩ := exists_stored (packed_singleton some_ lt) helper known
  obtain ⟨t, added, sum⟩ := exists_total holds allHold
  simp only [addNKernel, tensorShape, isInput, areInputs, new, added, Option.bind_eq_bind,
    Option.bind_some, Option.pure_def]
  rw [writes, indices_singleton, map_map]
  refine congrArg some (map_congr_left fun i below => ?_)
  exact sum.2 i (mem_range.mp below)

theorem addNKernel_eq_none {outputShape : TensorShape} (large : 2 ^ 32 ≤ outputShape.numElements)
    (helper : BufferTensorSize) (dataType : DataType) (first : List R) (rest : List (List R)) :
    addNKernel helper dataType outputShape first rest = none := by
  have wide : ¬ ((outputShape.numElements : Nat) < 2 ^ 32) := not_lt.mpr large
  have refused : createShape helper dataType (tensorShape outputShape) (tensorShape outputShape) =
      none := by
    rw [Option.eq_none_iff_forall_ne_some]
    intro buffer new
    simp only [createShape, Option.bind_eq_bind, Option.bind_eq_some_iff,
      DmlTensorDesc.narrowTensorShape_eq_some] at new
    obtain ⟨_, ⟨lt, -⟩, -⟩ := new
    exact wide (lt _ (mem_singleton_self _))
  rw [addNKernel, ofShape, refused]
  rfl

end Values

namespace Call

section Shapes

variable {R : Type} (c : Call R)

theorem length_of_sameShapes (same : c.SameShapes) :
    ∀ operand ∈ c.operands, operand.values.length = c.outputShape.numElements := by
  intro operand mem
  rw [operand.length, same operand mem, outputShape]

theorem isNoOp_of_sameShapes (same : c.SameShapes) :
    c.isNoOp = true ↔ c.outputShape.numElements = 0 := by
  rw [isNoOp, isNoOpKernel_iff]
  constructor
  · rintro (⟨shape, mem, empty⟩ | ⟨shape, mem, empty⟩)
    · obtain ⟨operand, isOperand, rfl⟩ := mem_map.mp mem
      rwa [same operand isOperand] at empty
    · rwa [mem_singleton.mp mem] at empty
  · exact fun empty => .inr ⟨_, mem_singleton_self _, empty⟩

end Shapes

variable {R : Type} [AddMonoid R] (c : Call R) (helper : BufferTensorSize)

theorem not_reports_compute : ¬ Stop.Reports (c.compute helper) := by
  rintro ⟨err, failed⟩
  unfold compute at failed
  split at failed
  · exact nomatch failed
  · cases eq : addNKernel helper c.dataType c.outputShape c.first.values
        (c.rest.map Operand.values) with
    | none => rw [eq] at failed; exact nomatch failed
    | some result => rw [eq] at failed; exact nomatch failed

theorem compute_of_sameShapes (same : c.SameShapes) (lt : c.outputShape.numElements < 2 ^ 32) :
    c.compute helper = .ok c.sums := by
  rw [compute]
  by_cases empty : c.outputShape.numElements = 0
  · rw [if_pos ((c.isNoOp_of_sameShapes same).mpr empty), zeroed_of_empty empty, sums, empty]
    rfl
  · have lens := c.length_of_sameShapes same
    rw [operands, forall_mem_cons] at lens
    rw [if_neg (mt (c.isNoOp_of_sameShapes same).mp empty),
      addNKernel_eq (Nat.pos_of_ne_zero empty) lt helper c.registered lens.1
        (by simpa using lens.2), sums, operands]
    simp only [map_cons, sum_cons, map_map]
    rfl

theorem compute_of_large (same : c.SameShapes) (large : 2 ^ 32 ≤ c.outputShape.numElements) :
    c.compute helper = .error .fatal := by
  have run : ¬ c.isNoOp = true := by
    rw [c.isNoOp_of_sameShapes same]
    omega
  rw [compute, if_neg run, addNKernel_eq_none large]
  rfl

/-- The op refuses tensors of different shapes and adds the others, reading nothing outside,
    exactly where the shapes are the same and 32 bits hold the number of elements. -/
theorem adds_iff : c.Adds helper ↔ c.SameShapes ∧ c.outputShape.numElements < 2 ^ 32 := by
  constructor
  · rintro ⟨refuses, adds, -⟩
    have same : c.SameShapes := by
      by_contra ne
      exact c.not_reports_compute helper (refuses.mpr ne)
    refine ⟨same, not_le.mp fun large => ?_⟩
    have added := adds same
    rw [c.compute_of_large helper same large] at added
    exact nomatch added
  · rintro ⟨same, lt⟩
    refine ⟨?_, fun _ => c.compute_of_sameShapes helper same lt, fun _ operand mem => ?_⟩
    · exact ⟨fun reports => absurd reports (c.not_reports_compute helper), fun ne => absurd same ne⟩
    · rw [same operand mem, tensorShape, TensorShape.numElements, prod_singleton]
      exact le_refl _

def mismatched : Call Nat := ⟨.uint32, by decide, ⟨[2], [1, 2], rfl⟩, [⟨[1], [10], rfl⟩]⟩

/-- Nothing is reported, and the second element of the sum is read outside of the second tensor. -/
theorem mismatched_reads_outside : ¬ mismatched.SameShapes ∧
      mismatched.compute BufferTensorSize.ofDocumentation = .ok [some 11, none] ∧
      ¬ mismatched.Covered ∧ ¬ mismatched.Adds BufferTensorSize.ofDocumentation := by
  have snd : (⟨[1], [10], rfl⟩ : Operand Nat) ∈ mismatched.operands :=
    mem_cons_of_mem _ mem_cons_self
  have uncovered : ¬ mismatched.Covered := fun covered =>
    absurd (covered (by decide) _ snd) (by decide)
  exact ⟨fun same => absurd (same _ snd) (by decide), by decide, uncovered,
    fun adds => uncovered adds.2.2⟩

end Call

end TfDml.AddN
