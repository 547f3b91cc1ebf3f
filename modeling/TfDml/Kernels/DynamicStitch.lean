import TfDml.Kernels.MatrixDiagFill

/-! # DynamicStitch

The rows of several tensors are copied to the rows of one output that their indices name. Shapes
are checked, and every copy takes a part of a buffer region; the offsets are computed in 64
bits from the signed indices.
-/

namespace TfDml.DynamicStitch

open Lib List
open MatrixDiag (regionSize)
open StridedSlice (IndexTensor i32)

structure Input where
  indices : IndexTensor 32
  data : TensorShape

/-- Why there is no output: a status is reported, or the process ends in a `CHECK` or goes on
    with an arithmetic that is not defined. -/
inductive Stop where
  | status (status : Status)
  | fatal

/-- A `D3D12BufferRegion`, by its offset from the first byte of the tensor. -/
structure Region where
  offset : Nat
  sizeInBytes : Nat

/-- `D3D12BufferRegion::Subregion`; the rest of the region without a size. -/
def Region.subregion (region : Region) (offset : Nat) (sizeInBytes : Nat) : Option Region :=
  if offset < region.sizeInBytes then
    let size := if sizeInBytes = 0 then region.sizeInBytes - offset else sizeInBytes
    if size ≤ region.sizeInBytes - offset then some ⟨region.offset + offset, size⟩ else none
  else none

/-- A copy that is recorded, from the data of an input to the output. -/
structure Copy where
  input : Nat
  src : Nat
  dst : Nat
  byteCount : Nat

def copyBufferRegion (dst : Region) (input : Nat) (src : Region) : Option Copy :=
  if src.sizeInBytes ≤ dst.sizeInBytes then some ⟨input, src.offset, dst.offset, src.sizeInBytes⟩
  else none

def execute (data : Nat → ByteBuffer) (copies : List Copy) (output : ByteBuffer) : ByteBuffer :=
  copies.foldl
    (fun output copy => store output copy.dst (load (data copy.input) copy.src copy.byteCount))
    output

def startsWith (shape prefix_ : TensorShape) : Bool := prefix_.isPrefixOf shape

def sameExtraShape (data0 indices0 data1 indices1 : TensorShape) : Bool :=
  let extra0 : Int := data0.length - indices0.length
  let extra1 : Int := data1.length - indices1.length
  extra0 == extra1 && (List.range extra0.toNat).all fun i =>
      data0.getD (indices0.length + i) 0 == data1.getD (indices1.length + i) 0

def checkInput (first : Input) (inputNum : Nat) (input : Input) : Except Status Unit := do
  let indices := input.indices.shape
  opRequires (startsWith input.data indices)
    (.invalidArgument ("data[" ++ toString inputNum ++ "].shape = " ++ input.data.debugString ++
      " does not start with indices[" ++ toString inputNum ++ "].shape = " ++ indices.debugString))
  opRequires (inputNum == 0 || sameExtraShape first.data first.indices.shape input.data indices)
    (.invalidArgument ("Need data[0].shape[" ++ toString first.indices.shape.length ++
      ":] = data[" ++ toString inputNum ++ "].shape[" ++ toString indices.length ++
      ":], got data[0].shape = " ++ first.data.debugString ++ ", data[" ++ toString inputNum ++
      "].shape = " ++ input.data.debugString ++ ", indices[0].shape = " ++
      first.indices.shape.debugString ++ ", indices[" ++ toString inputNum ++ "].shape = " ++
      indices.debugString))

def checkInputs (first : Input) : Nat → List Input → Except Status Unit
  | _, [] => .ok ()
  | inputNum, input :: rest => do
    checkInput first inputNum input
    checkInputs first (inputNum + 1) rest

/-- `max_index`, where tensors without elements do not count. -/
def maxIndex (inputs : List Input) : Int :=
  inputs.foldl (fun maxIndex input => (input.indices.values.map BitVec.toInt).foldl max maxIndex)
    (-1)

structure Output where
  shape : TensorShape
  copies : List Copy

def copyRow (outputBytes byteStride inputNum inputBytes i : Nat) (outputIdx : Int) : Option Copy := do
  let srcOffset := u64 (byteStride * i)
  let dstOffset := ((byteStride * outputIdx) % 2 ^ 64).toNat
  let dst ← (Region.mk 0 outputBytes).subregion dstOffset 0
  let src ← (Region.mk 0 inputBytes).subregion srcOffset byteStride
  copyBufferRegion dst inputNum src

/-- The copies of one input. The counter of the loop is an `int`. -/
def copyInput (dataTypeSize outputBytes byteStride inputNum : Nat) (input : Input) :
    Option (List Copy) :=
  if input.data.numElements = 0 then some []
  else if input.indices.numElements < 2 ^ 31 then
    (List.range input.indices.numElements).mapM fun i =>
      copyRow outputBytes byteStride inputNum (regionSize (input.data.numElements * dataTypeSize)) i
        (input.indices.flat i)
  else none

def copyInputs (dataTypeSize outputBytes byteStride : Nat) : Nat → List Input → Option (List Copy)
  | _, [] => some []
  | inputNum, input :: rest => do
    let own ← copyInput dataTypeSize outputBytes byteStride inputNum input
    let others ← copyInputs dataTypeSize outputBytes byteStride (inputNum + 1) rest
    some (own ++ others)

/-- `ComputeImpl`, if the device allocates the output. There is no tensor with a negative
    dimension. -/
def compute (dataTypeSize : Nat) (first : Input) (rest : List Input) : Except Stop Output := do
  let inputs := first :: rest
  let maxIndex := maxIndex inputs
  (checkInputs first 0 inputs).mapError .status
  let firstDimSize := i32 (maxIndex + 1)
  if firstDimSize < 0 then .error .fatal
  else
    let outputShape : TensorShape := firstDimSize.toNat :: first.data.drop first.indices.shape.length
    if outputShape.numElements = 0 then .ok ⟨outputShape, []⟩
    else
      let byteStride := u64 (outputShape.numElements / firstDimSize.toNat * dataTypeSize)
      match copyInputs dataTypeSize (regionSize (outputShape.numElements * dataTypeSize)) byteStride
          0 inputs with
      | none => .error .fatal
      | some copies => .ok ⟨outputShape, copies⟩

end TfDml.DynamicStitch

namespace TfDml.DynamicStitch

open Lib List
open MatrixDiag (regionSize le_regionSize)
open StridedSlice (IndexTensor i32 i32_of_bounds)

namespace Input

variable (input : Input)

def extra : TensorShape := input.data.drop input.indices.shape.length

def Extends : Prop := input.indices.shape <+: input.data

theorem Extends.length_le {input : Input} (extends_ : input.Extends) :
    input.indices.shape.length ≤ input.data.length := List.IsPrefix.length_le extends_

theorem Extends.numElements {input : Input} (extends_ : input.Extends) :
    input.data.numElements = input.indices.numElements * input.extra.prod := by
  obtain ⟨rest, same⟩ := extends_
  rw [extra, ← same, drop_left, IndexTensor.numElements, TensorShape.numElements,
    TensorShape.numElements, prod_append]

end Input

variable {first : Input}

theorem sameExtraShape_iff {input : Input} (extends_ : first.Extends) (extends' : input.Extends) :
    sameExtraShape first.data first.indices.shape input.data input.indices.shape = true ↔
      input.extra = first.extra := by
  have le := extends_.length_le
  have le' := extends'.length_le
  have lens : first.extra.length = first.data.length - first.indices.shape.length := length_drop
  have lens' : input.extra.length = input.data.length - input.indices.shape.length := length_drop
  have entry : ∀ i, first.extra.getD i 0 = first.data.getD (first.indices.shape.length + i) 0 := by
    intro i
    simp [Input.extra, getD_eq_getElem?_getD]
  have entry' : ∀ i, input.extra.getD i 0 = input.data.getD (input.indices.shape.length + i) 0 := by
    intro i
    simp [Input.extra, getD_eq_getElem?_getD]
  have count : ((first.data.length : Int) - first.indices.shape.length).toNat =
      first.extra.length := by omega
  simp only [sameExtraShape, Bool.and_eq_true, beq_iff_eq, List.all_eq_true, mem_range, count,
    ← entry, ← entry']
  constructor
  · rintro ⟨sameLength, same⟩
    apply ext_getElem
    · omega
    · intro i lt lt'
      have at_ := same i lt'
      rwa [getD_eq_getElem _ _ lt, getD_eq_getElem _ _ lt', eq_comm] at at_
  · intro same
    rw [same] at lens' ⊢
    exact ⟨by omega, fun _ _ => rfl⟩

def ShapesAgree (first : Input) (inputs : List Input) : Prop :=
  ∀ input ∈ inputs, input.Extends ∧ input.extra = first.extra

theorem checkInput_ok_iff {first input : Input} {n : Nat} (extends_ : first.Extends)
    (isFirst : n = 0 → input = first) :
    checkInput first n input = .ok () ↔ input.Extends ∧ input.extra = first.extra := by
  simp only [checkInput, bind_eq_ok, opRequires_eq_ok, exists_const, startsWith,
    isPrefixOf_iff_prefix, Bool.or_eq_true, beq_iff_eq]
  constructor
  · rintro ⟨prefix_, zero | same⟩
    · rw [isFirst zero]
      exact ⟨extends_, rfl⟩
    · exact ⟨prefix_, (sameExtraShape_iff extends_ prefix_).mp same⟩
  · rintro ⟨prefix_, same⟩
    exact ⟨prefix_, .inr ((sameExtraShape_iff extends_ prefix_).mpr same)⟩

variable {n : Nat} {status : Status}

theorem checkInput_error {input : Input} (err : checkInput first n input = .error status) :
    ∃ message, status = .invalidArgument message := by
  simp only [checkInput, opRequires] at err
  split at err
  · split at err
    · cases err
    · cases err
      exact ⟨_, rfl⟩
  · cases err
    exact ⟨_, rfl⟩

theorem checkInputs_ok_iff {inputs : List Input} (extends_ : first.Extends)
    (isFirst : n = 0 → ∀ input ∈ inputs.head?, input = first) :
    checkInputs first n inputs = .ok () ↔ ShapesAgree first inputs := by
  induction inputs generalizing n with
  | nil => simp [checkInputs, ShapesAgree]
  | cons input rest ih =>
    have later := ih (n := n + 1) (by omega)
    have here := @checkInput_ok_iff first input n extends_ fun zero =>
      isFirst zero input rfl
    rw [checkInputs, bind_eq_ok, ShapesAgree, forall_mem_cons, ← ShapesAgree, ← later, ← here]
    constructor
    · rintro ⟨_, checked, others⟩
      exact ⟨checked, others⟩
    · rintro ⟨checked, others⟩
      exact ⟨(), checked, others⟩

theorem checkInputs_error {inputs : List Input}
    (err : checkInputs first n inputs = .error status) :
    ∃ message, status = .invalidArgument message := by
  induction inputs generalizing n with
  | nil => cases err
  | cons input rest ih =>
    rw [checkInputs] at err
    cases checked : checkInput first n input with
    | error error =>
      rw [checked] at err
      cases err
      exact checkInput_error checked
    | ok _ =>
      rw [checked] at err
      exact ih err

theorem checkInputs_first_ok_iff {rest : List Input} :
    checkInputs first 0 (first :: rest) = .ok () ↔ ShapesAgree first (first :: rest) := by
  by_cases extends_ : first.Extends
  · exact checkInputs_ok_iff extends_ fun _ input mem => (Option.some.inj mem).symm
  · constructor
    · intro checked
      simp only [checkInputs, checkInput, bind_eq_ok, opRequires_eq_ok, exists_const, startsWith,
        isPrefixOf_iff_prefix] at checked
      exact absurd checked.1.1 extends_
    · intro agree
      exact absurd (agree first mem_cons_self).1 extends_

def plannedCopies (rowBytes : Nat) : Nat → List Input → List Copy
  | _, [] => []
  | n, input :: rest =>
    ((List.range input.indices.numElements).map fun i =>
      ⟨n, rowBytes * i, rowBytes * (input.indices.flat i).toNat, rowBytes⟩) ++
    plannedCopies rowBytes (n + 1) rest

/-- The rows of the inputs from a number on, in their order, each with the index it is for. -/
def rowsFrom (rowBytes : Nat) (data : Nat → ByteBuffer) : Nat → List Input → List (Nat × List Byte)
  | _, [] => []
  | n, input :: rest =>
    ((List.range input.indices.numElements).map fun i =>
      ((input.indices.flat i).toNat, load (data n) (rowBytes * i) rowBytes)) ++
    rowsFrom rowBytes data (n + 1) rest

theorem flat_mem {input : Input} {i : Nat} (lt : i < input.indices.numElements) :
    ∃ y ∈ input.indices.values, input.indices.flat i = y.toInt := by
  have length : i < input.indices.values.length := by
    rw [input.indices.sized]
    exact lt
  exact ⟨_, getElem_mem length, by rw [IndexTensor.flat, getD_eq_getElem _ _ length]⟩

theorem of_mem_rowsFrom {rowBytes : Nat} {data : Nat → ByteBuffer} {inputs : List Input}
    {row : Nat × List Byte} (mem : row ∈ rowsFrom rowBytes data n inputs) :
    row.2.length = rowBytes ∧
      ∃ input ∈ inputs, ∃ y ∈ input.indices.values, row.1 = y.toInt.toNat := by
  induction inputs generalizing n with
  | nil => cases mem
  | cons input rest ih =>
    cases mem_append.mp mem with
    | inl own =>
      obtain ⟨i, lt, rfl⟩ := List.mem_map.mp own
      obtain ⟨y, index, isIndex⟩ := flat_mem (mem_range.mp lt)
      exact ⟨length_load _ _ _, input, mem_cons_self, y, index, by rw [isIndex]⟩
    | inr other =>
      obtain ⟨length, src, got, index⟩ := ih other
      exact ⟨length, src, mem_cons_of_mem _ got, index⟩

theorem execute_plannedCopies (rowBytes n : Nat) (data : Nat → ByteBuffer) (inputs : List Input)
    (output : ByteBuffer) : execute data (plannedCopies rowBytes n inputs) output =
      (rowsFrom rowBytes data n inputs).foldl
        (fun output row => store output (rowBytes * row.1) row.2) output := by
  induction inputs generalizing n output with
  | nil => rfl
  | cons input rest ih =>
    rw [plannedCopies, rowsFrom, execute, foldl_append, foldl_append, foldl_map, foldl_map]
    exact ih (n + 1) _

def Copy.Inside (inputs : List Input) (dataTypeSize outputBytes : Nat) (copy : Copy) : Prop :=
  (∃ input, inputs[copy.input]? = some input ∧
    copy.src + copy.byteCount ≤ input.data.numElements * dataTypeSize) ∧
  copy.dst + copy.byteCount ≤ outputBytes

variable {region offset : Nat}

theorem subregion_rest (lt : offset < region) :
    (Region.mk 0 region).subregion offset 0 = some ⟨offset, region - offset⟩ := by
  simp [Region.subregion, lt]

theorem subregion_part {size : Nat} (pos : 0 < size) (lt : offset + size ≤ region) :
    (Region.mk 0 region).subregion offset size = some ⟨offset, size⟩ := by
  have ne : size ≠ 0 := by omega
  have below : offset < region := by omega
  have le : size ≤ region - offset := by omega
  simp [Region.subregion, ne, below, le]

variable {outputBytes byteStride i : Nat}

theorem copyRow_eq {inputNum inputBytes : Nat} {outputIdx : Int} (pos : 0 < byteStride)
    (nat : 0 ≤ outputIdx) (src : byteStride * i + byteStride ≤ inputBytes)
    (dst : byteStride * outputIdx.toNat + byteStride ≤ outputBytes) (lt : inputBytes < 2 ^ 64)
    (lt' : outputBytes < 2 ^ 64) : copyRow outputBytes byteStride inputNum inputBytes i outputIdx =
      some ⟨inputNum, byteStride * i, byteStride * outputIdx.toNat, byteStride⟩ := by
  have source : u64 (byteStride * i) = byteStride * i := u64_of_lt (by omega)
  have product : (byteStride : Int) * outputIdx = ((byteStride * outputIdx.toNat : Nat) : Int) := by
    rw [Int.natCast_mul, Int.toNat_of_nonneg nat]
  have target : ((byteStride * outputIdx) % 2 ^ 64).toNat = byteStride * outputIdx.toNat := by
    rw [product]
    omega
  rw [copyRow, source, target, subregion_rest (by omega), subregion_part pos src]
  exact if_pos (show byteStride ≤ outputBytes - byteStride * outputIdx.toNat by omega)

structure Copyable (dataTypeSize rows rowElements : Nat) (input : Input) : Prop where
  numElements : input.data.numElements = input.indices.numElements * rowElements
  counted : input.indices.numElements < 2 ^ 31
  natural : ∀ i < input.indices.numElements, 0 ≤ input.indices.flat i
  below : ∀ i < input.indices.numElements, (input.indices.flat i).toNat < rows
  sized : input.data.numElements * dataTypeSize < 2 ^ 63

theorem row_le {rowBytes : Nat} (lt : i < n) : rowBytes * i + rowBytes ≤ n * rowBytes := by
  rw [← Nat.mul_succ, mul_comm]
  exact Nat.mul_le_mul_right _ lt

theorem regionSize_lt {bytes : Nat} (lt : bytes < 2 ^ 63) : regionSize bytes < 2 ^ 64 := by
  rw [regionSize]
  omega

variable {dataTypeSize : Nat}

theorem copyInput_eq {rows rowElements : Nat} {input : Input}
    (copyable : Copyable dataTypeSize rows rowElements input) (pos : 0 < rowElements)
    (sized : 0 < dataTypeSize) (room : rows * (rowElements * dataTypeSize) < 2 ^ 63) :
    copyInput dataTypeSize (regionSize (rows * (rowElements * dataTypeSize)))
        (rowElements * dataTypeSize) n input =
      some ((List.range input.indices.numElements).map fun i =>
        ⟨n, rowElements * dataTypeSize * i,
          rowElements * dataTypeSize * (input.indices.flat i).toNat,
          rowElements * dataTypeSize⟩) := by
  have xs := copyable.numElements
  rw [copyInput]
  by_cases empty : input.data.numElements = 0
  · rw [empty] at xs
    have none : input.indices.numElements = 0 :=
      (Nat.mul_eq_zero.mp xs.symm).resolve_right (Nat.ne_of_gt pos)
    rw [if_pos empty, none]
    rfl
  · rw [if_neg empty, if_pos copyable.counted]
    refine mapM_eq_some fun i mem => ?_
    have lt := mem_range.mp mem
    have bytes : input.data.numElements * dataTypeSize =
        input.indices.numElements * (rowElements * dataTypeSize) := by
      rw [xs, mul_assoc]
    refine copyRow_eq (mul_pos pos sized) (copyable.natural i lt) ?_ ?_
      (regionSize_lt copyable.sized) (regionSize_lt room)
    · rw [bytes]
      exact le_trans (row_le lt) (le_regionSize _)
    · exact le_trans (row_le (copyable.below i lt)) (le_regionSize _)

theorem copyInputs_eq {rows rowElements : Nat} {inputs : List Input}
    (copyable : ∀ input ∈ inputs, Copyable dataTypeSize rows rowElements input)
    (pos : 0 < rowElements) (sized : 0 < dataTypeSize)
    (room : rows * (rowElements * dataTypeSize) < 2 ^ 63) :
    copyInputs dataTypeSize (regionSize (rows * (rowElements * dataTypeSize)))
        (rowElements * dataTypeSize) n inputs =
      some (plannedCopies (rowElements * dataTypeSize) n inputs) := by
  induction inputs generalizing n with
  | nil => rfl
  | cons input rest ih =>
    obtain ⟨own, others⟩ := forall_mem_cons.mp copyable
    rw [copyInputs, copyInput_eq own pos sized room, ih others]
    rfl

theorem copyInputs_eq_none {inputs : List Input}
    (uncounted : ∃ input ∈ inputs, input.data.numElements ≠ 0 ∧
      2 ^ 31 ≤ input.indices.numElements) :
    copyInputs dataTypeSize outputBytes byteStride n inputs = none := by
  induction inputs generalizing n with
  | nil => simp at uncounted
  | cons input rest ih =>
    rw [copyInputs, Option.bind_eq_bind, Option.bind_eq_none_iff]
    intro own copied
    rcases (exists_mem_cons_iff ..).mp uncounted with ⟨xs, many⟩ | later
    · rw [copyInput, if_neg xs, if_neg (Nat.not_lt.mpr many)] at copied
      cases copied
    · rw [ih later]
      rfl

theorem plannedCopies_inside {rows rowElements : Nat} {inputs whole : List Input}
    (copyable : ∀ input ∈ inputs, Copyable dataTypeSize rows rowElements input)
    (isPart : inputs = whole.drop n) {copy : Copy}
    (mem : copy ∈ plannedCopies (rowElements * dataTypeSize) n inputs) :
    copy.Inside whole dataTypeSize (rows * (rowElements * dataTypeSize)) := by
  induction inputs generalizing n with
  | nil => cases mem
  | cons input rest ih =>
    obtain ⟨own, others⟩ := forall_mem_cons.mp copyable
    cases mem_append.mp mem with
    | inl ofInput =>
      obtain ⟨i, got, rfl⟩ := List.mem_map.mp ofInput
      have lt := mem_range.mp got
      have at_ : whole[n]? = some input := by
        have first : (whole.drop n)[0]? = some input := by rw [← isPart]; rfl
        simpa using first
      have bytes : input.data.numElements * dataTypeSize =
          input.indices.numElements * (rowElements * dataTypeSize) := by
        rw [own.numElements, mul_assoc]
      refine ⟨⟨input, at_, ?_⟩, row_le (own.below i lt)⟩
      rw [bytes]
      exact row_le lt
    | inr other =>
      refine ih others ?_ other
      rw [← tail_drop, ← isPart]
      rfl

variable {m x : Int}

theorem le_foldl_max {l : List Int} : x ≤ l.foldl max m ↔ x ≤ m ∨ ∃ y ∈ l, x ≤ y := by
  induction l generalizing m with
  | nil => simp
  | cons y rest ih =>
    rw [foldl_cons, ih, le_max_iff, exists_mem_cons_iff]
    exact or_assoc

theorem le_foldl_inputs {inputs : List Input} : x ≤ inputs.foldl (fun maxIndex input =>
        (input.indices.values.map BitVec.toInt).foldl max maxIndex) m ↔
      x ≤ m ∨ ∃ input ∈ inputs, ∃ y ∈ input.indices.values, x ≤ y.toInt := by
  induction inputs generalizing m with
  | nil => simp
  | cons input rest ih =>
    rw [foldl_cons, ih, le_foldl_max, exists_mem_cons_iff, ← or_assoc]
    simp only [List.mem_map, exists_exists_and_eq_and]

theorem negOne_le_maxIndex (inputs : List Input) : -1 ≤ maxIndex inputs :=
  le_foldl_inputs.mpr (.inl (Int.le_refl _))

theorem toInt_le_maxIndex {inputs : List Input} {input : Input} (mem : input ∈ inputs)
    {y : BitVec 32} (index : y ∈ input.indices.values) : y.toInt ≤ maxIndex inputs :=
  le_foldl_inputs.mpr (.inr ⟨input, mem, y, index, Int.le_refl _⟩)

theorem maxIndex_lt (inputs : List Input) : maxIndex inputs < 2 ^ 31 := by
  by_contra large
  rcases le_foldl_inputs.mp (Int.not_lt.mp large) with start | ⟨input, -, y, -, le⟩
  · omega
  · have below := y.toInt_lt
    omega

/-- An invocation. The tensors of data are in memory, and there is memory for the rows that the
    indices name. -/
structure StitchCall where
  dataTypeSize : Nat
  first : Input
  rest : List Input
  typed : 0 < dataTypeSize
  sized : ∀ input ∈ first :: rest, input.data.numElements * dataTypeSize < 2 ^ 63
  room : (maxIndex (first :: rest) + 1).toNat * (first.extra.prod * dataTypeSize) < 2 ^ 63

namespace StitchCall

variable (c : StitchCall)

def inputs : List Input := c.first :: c.rest

def result : Except Stop Output := compute c.dataTypeSize c.first c.rest

def rowElements : Nat := c.first.extra.prod

def rowBytes : Nat := c.rowElements * c.dataTypeSize

/-- The number of rows, up to the largest index. -/
def rows : Nat := (maxIndex c.inputs + 1).toNat

/-- What must be reported: a shape that does not extend the one of its indices, rows that differ,
    or a negative index. -/
def Invalid : Prop :=
  (∃ input ∈ c.inputs, ¬input.Extends) ∨ (∃ input ∈ c.inputs, input.extra ≠ c.first.extra) ∨
    ∃ input ∈ c.inputs, ∃ y ∈ input.indices.values, y.toInt < 0

/-- Invalid arguments and only these are reported, and otherwise each row that occurs is the one
    that was listed last, with all copies inside of their buffers. -/
structure Merges : Prop where
  reported : (∃ message, c.result = .error (.status (.invalidArgument message))) ↔ c.Invalid
  merged : ¬c.Invalid → ∃ output, c.result = .ok output ∧ output.shape = c.rows :: c.first.extra ∧
    (∀ copy ∈ output.copies, copy.Inside c.inputs c.dataTypeSize (c.rows * c.rowBytes)) ∧
    ∀ (data : Nat → ByteBuffer) (memory : ByteBuffer) (row : Nat) (bytes : List Byte),
      lastWrite (rowsFrom c.rowBytes data 0 c.inputs) row = some bytes →
        load (execute data output.copies memory) (c.rowBytes * row) c.rowBytes = bytes

/-- Some shape does not fit, or no index is negative or too large for an `int` number of rows,
    and no tensor of rows that are not empty has too many indices for an `int` counter. -/
def Mergeable : Prop :=
  ¬ShapesAgree c.first c.inputs ∨
    (∀ input ∈ c.inputs, ∀ y ∈ input.indices.values, 0 ≤ y.toInt ∧ y.toInt < 2 ^ 31 - 1) ∧
      (c.rowElements = 0 ∨ ∀ input ∈ c.inputs, input.indices.numElements < 2 ^ 31)

theorem shapesAgree_iff : ShapesAgree c.first c.inputs ↔ ¬((∃ input ∈ c.inputs, ¬input.Extends) ∨
      ∃ input ∈ c.inputs, input.extra ≠ c.first.extra) := by
  simp only [ShapesAgree, not_or, not_exists, not_and, not_not]
  exact forall₂_and

theorem result_of_disagree (disagree : ¬ShapesAgree c.first c.inputs) :
    ∃ message, c.result = .error (.status (.invalidArgument message)) := by
  have err : checkInputs c.first 0 (c.first :: c.rest) ≠ .ok () := fun ok =>
    disagree (checkInputs_first_ok_iff.mp ok)
  cases checked : checkInputs c.first 0 (c.first :: c.rest) with
  | ok _ => exact absurd checked err
  | error status =>
    obtain ⟨message, rfl⟩ := checkInputs_error checked
    refine ⟨message, ?_⟩
    rw [result, compute, checked]
    rfl

theorem result_of_agree (agree : ShapesAgree c.first c.inputs) : c.result =
      if i32 (maxIndex c.inputs + 1) < 0 then .error .fatal
      else if (i32 (maxIndex c.inputs + 1)).toNat * c.rowElements = 0 then
        .ok ⟨(i32 (maxIndex c.inputs + 1)).toNat :: c.first.extra, []⟩
      else
        match copyInputs c.dataTypeSize
          (regionSize ((i32 (maxIndex c.inputs + 1)).toNat * c.rowElements * c.dataTypeSize))
          (u64 ((i32 (maxIndex c.inputs + 1)).toNat * c.rowElements /
            (i32 (maxIndex c.inputs + 1)).toNat * c.dataTypeSize)) 0 c.inputs with
        | none => .error .fatal
        | some copies => .ok ⟨(i32 (maxIndex c.inputs + 1)).toNat :: c.first.extra, copies⟩ := by
  rw [result, compute, checkInputs_first_ok_iff.mpr agree]
  rfl

theorem i32_rows (notMax : maxIndex c.inputs < 2 ^ 31 - 1) :
    i32 (maxIndex c.inputs + 1) = c.rows := by
  have above := negOne_le_maxIndex c.inputs
  rw [i32_of_bounds (by omega) (by omega), rows]
  omega

theorem i32_rows_neg (isMax : ¬maxIndex c.inputs < 2 ^ 31 - 1) :
    i32 (maxIndex c.inputs + 1) < 0 := by
  have below := maxIndex_lt c.inputs
  have same : maxIndex c.inputs + 1 = 2 ^ 31 := by omega
  rw [same]
  decide

theorem copyable (agree : ShapesAgree c.first c.inputs)
    (nat : ∀ input ∈ c.inputs, ∀ y ∈ input.indices.values, 0 ≤ y.toInt)
    (counted : ∀ input ∈ c.inputs, input.indices.numElements < 2 ^ 31) {input : Input}
    (mem : input ∈ c.inputs) : Copyable c.dataTypeSize c.rows c.rowElements input := by
  obtain ⟨extends_, same⟩ := agree input mem
  refine ⟨?_, counted input mem, fun i lt => ?_, fun i lt => ?_, c.sized input mem⟩
  · rw [extends_.numElements, same]
    rfl
  · obtain ⟨y, index, isIndex⟩ := flat_mem lt
    rw [isIndex]
    exact nat input mem y index
  · obtain ⟨y, index, isIndex⟩ := flat_mem lt
    have le := toInt_le_maxIndex mem index
    have pos := nat input mem y index
    rw [isIndex, rows]
    omega

theorem merged_of_mergeable (agree : ShapesAgree c.first c.inputs)
    (nat : ∀ input ∈ c.inputs, ∀ y ∈ input.indices.values, 0 ≤ y.toInt ∧ y.toInt < 2 ^ 31 - 1)
    (counted : c.rowElements = 0 ∨ ∀ input ∈ c.inputs, input.indices.numElements < 2 ^ 31) :
    ∃ output, c.result = .ok output ∧ output.shape = c.rows :: c.first.extra ∧
      (∀ copy ∈ output.copies, copy.Inside c.inputs c.dataTypeSize (c.rows * c.rowBytes)) ∧
      ∀ (data : Nat → ByteBuffer) (memory : ByteBuffer) (row : Nat) (bytes : List Byte),
        lastWrite (rowsFrom c.rowBytes data 0 c.inputs) row = some bytes →
          load (execute data output.copies memory) (c.rowBytes * row) c.rowBytes = bytes := by
  have notMax : maxIndex c.inputs < 2 ^ 31 - 1 := by
    by_contra large
    rcases le_foldl_inputs.mp (Int.not_lt.mp large) with start | ⟨input, mem, y, index, le⟩
    · omega
    · have below := (nat input mem y index).2
      omega
  have rows := c.i32_rows notMax
  have toNat : (c.rows : Int).toNat = c.rows := Int.toNat_natCast c.rows
  have notNegative : ¬(c.rows : Int) < 0 := by omega
  rw [c.result_of_agree agree, rows, if_neg notNegative, toNat]
  by_cases empty : c.rows * c.rowElements = 0
  · rw [if_pos empty]
    refine ⟨_, rfl, rfl, by simp, fun data memory row bytes last => ?_⟩
    obtain ⟨length, input, mem, y, index, -⟩ := of_mem_rowsFrom (mem_of_lastWrite last)
    have some_ : c.rows ≠ 0 := by
      have le := toInt_le_maxIndex mem index
      have pos := (nat input mem y index).1
      rw [StitchCall.rows]
      omega
    have none : c.rowBytes = 0 := by
      rw [rowBytes, (Nat.mul_eq_zero.mp empty).resolve_left some_, zero_mul]
    rw [none] at length ⊢
    exact (length_eq_zero_iff.mp length).symm
  · have rowsPositive : 0 < c.rows := Nat.pos_of_mul_pos_right (Nat.pos_of_ne_zero empty)
    have pos : 0 < c.rowElements := Nat.pos_of_mul_pos_left (Nat.pos_of_ne_zero empty)
    have copyable := fun (input : Input) (mem : input ∈ c.inputs) => c.copyable agree
      (fun input mem y index => (nat input mem y index).1)
      (counted.resolve_left (Nat.ne_of_gt pos)) mem
    have room : c.rows * (c.rowElements * c.dataTypeSize) < 2 ^ 63 := c.room
    have stride : u64 (c.rows * c.rowElements / c.rows * c.dataTypeSize) =
        c.rowElements * c.dataTypeSize := by
      rw [Nat.mul_div_cancel_left _ rowsPositive]
      refine u64_of_lt (lt_of_le_of_lt ?_ (lt_trans room (by decide)))
      exact Nat.le_mul_of_pos_left _ rowsPositive
    rw [if_neg empty, stride, mul_assoc, copyInputs_eq copyable pos c.typed room]
    refine ⟨_, rfl, rfl, fun copy mem => ?_, fun data memory row bytes last => ?_⟩
    · exact plannedCopies_inside copyable rfl mem
    · rw [← rowBytes, execute_plannedCopies, load_foldl_store _ fun row mem =>
        (of_mem_rowsFrom mem).1, last, Option.getD_some]

theorem not_reported (agree : ShapesAgree c.first c.inputs) (status : Status) :
    c.result ≠ .error (.status status) := by
  rw [c.result_of_agree agree]
  split
  · intro same
    cases same
  · split
    · intro same
      cases same
    · split
      · intro same
        cases same
      · intro same
        cases same

theorem of_result_ok (agree : ShapesAgree c.first c.inputs)
    (nat : ∀ input ∈ c.inputs, ∀ y ∈ input.indices.values, 0 ≤ y.toInt) {output : Output}
    (ok : c.result = .ok output) : maxIndex c.inputs < 2 ^ 31 - 1 ∧
      (c.rowElements = 0 ∨ ∀ input ∈ c.inputs, input.indices.numElements < 2 ^ 31) := by
  rw [c.result_of_agree agree] at ok
  by_cases notMax : maxIndex c.inputs < 2 ^ 31 - 1
  · refine ⟨notMax, ?_⟩
    by_contra uncounted
    push Not at uncounted
    obtain ⟨pos, input, mem, many⟩ := uncounted
    have some_ : c.rows ≠ 0 := by
      obtain ⟨y, index, -⟩ := @flat_mem input 0 (by omega)
      have le := toInt_le_maxIndex mem index
      have first := nat input mem y index
      rw [StitchCall.rows]
      omega
    obtain ⟨extends_, same⟩ := agree input mem
    have xs : input.data.numElements ≠ 0 := by
      rw [extends_.numElements, same]
      exact Nat.mul_ne_zero (by omega) pos
    rw [c.i32_rows notMax, if_neg (by omega : ¬(c.rows : Int) < 0), Int.toNat_natCast,
      if_neg (Nat.mul_ne_zero some_ pos), copyInputs_eq_none ⟨input, mem, xs, many⟩] at ok
    cases ok
  · rw [if_pos (c.i32_rows_neg notMax)] at ok
    cases ok

/-- The inputs are merged if and only if their shapes do not fit or their indices can be
    counted. -/
theorem merges_iff : c.Merges ↔ c.Mergeable := by
  have invalid : c.Invalid ↔ ¬ShapesAgree c.first c.inputs ∨
      ∃ input ∈ c.inputs, ∃ y ∈ input.indices.values, y.toInt < 0 := by
    rw [c.shapesAgree_iff, not_not, or_assoc]
    rfl
  constructor
  · intro merges
    by_cases agree : ShapesAgree c.first c.inputs
    · have valid : ¬c.Invalid := by
        intro isInvalid
        obtain ⟨message, err⟩ := merges.reported.mpr isInvalid
        exact c.not_reported agree _ err
      have nat : ∀ input ∈ c.inputs, ∀ y ∈ input.indices.values, 0 ≤ y.toInt := by
        intro input mem y index
        by_contra neg
        exact valid (invalid.mpr (.inr ⟨input, mem, y, index, Int.not_le.mp neg⟩))
      obtain ⟨output, ok, -⟩ := merges.merged valid
      obtain ⟨notMax, counted⟩ := c.of_result_ok agree nat ok
      refine .inr ⟨fun input mem y index => ⟨nat input mem y index, ?_⟩, counted⟩
      exact Int.lt_of_le_of_lt (toInt_le_maxIndex mem index) notMax
    · exact .inl agree
  · intro mergeable
    by_cases agree : ShapesAgree c.first c.inputs
    · obtain ⟨nat, counted⟩ := mergeable.resolve_left (not_not.mpr agree)
      have valid : ¬c.Invalid := by
        rw [invalid]
        rintro (disagree | ⟨input, mem, y, index, neg⟩)
        · exact disagree agree
        · exact absurd (nat input mem y index).1 (Int.not_le.mpr neg)
      refine ⟨⟨?_, fun isInvalid => absurd isInvalid valid⟩, fun _ =>
        c.merged_of_mergeable agree nat counted⟩
      rintro ⟨message, err⟩
      exact absurd err (c.not_reported agree _)
    · have isInvalid := invalid.mpr (.inl agree)
      exact ⟨⟨fun _ => isInvalid, fun _ => c.result_of_disagree agree⟩,
        fun valid => absurd isInvalid valid⟩

def negativeIndex : StitchCall where
  dataTypeSize := 4
  first := ⟨⟨[1], [-1], rfl⟩, [1]⟩
  rest := []
  typed := Nat.succ_pos 3
  sized := by decide
  room := by decide

theorem negativeIndex_not_merges : ¬negativeIndex.Merges := by
  intro merges
  have isInvalid : negativeIndex.Invalid :=
    .inr (.inr ⟨_, mem_cons_self, -1, mem_cons_self, by decide⟩)
  obtain ⟨message, err⟩ := merges.reported.mpr isInvalid
  cases err

end StitchCall

end TfDml.DynamicStitch
