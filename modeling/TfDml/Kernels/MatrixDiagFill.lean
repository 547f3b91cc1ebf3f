import TfDml.Kernels.MatrixDiagReference
import TfDml.Lib.ByteBuffer
import TfDml.Lib.FloatWidening

/-! # The fast path of MatrixDiag

For the main diagonal of a square matrix the kernel fills the output with the padding value and
copies the diagonals over it, with strides. The pattern of the fill is a `float` for each element
type: a narrower element reads a part of it.
-/

namespace TfDml.MatrixDiag

open Lib Lib.FloatFormat List
open StridedSlice (i32 i32_of_bounds)

inductive ElementType where
  | float | half | bool
  deriving DecidableEq

namespace ElementType

abbrev Element : ElementType → Type
  | float => binary32.Bits
  | half => binary16.Bits
  | bool => Bool

/-- `sizeof(T)` -/
def size : ElementType → Nat
  | float => 4
  | half => 2
  | bool => 1

def encode : (type : ElementType) → type.Element → List Byte
  | float, x => littleEndian 4 x.toNat
  | half, x => littleEndian 2 x.toNat
  | bool, x => littleEndian 1 x.toNat

/-- `static_cast<float>` -/
def toFloat : (type : ElementType) → type.Element → binary32.Bits
  | float, x => x
  | half, x => widen binary32 x
  | bool, true => 0x3F800000#32
  | bool, false => 0#32

/-- `T(0)` -/
def zero : (type : ElementType) → type.Element
  | float => 0#32
  | half => 0#16
  | bool => false

end ElementType

/-- The size of the region of a tensor, which is aligned to four bytes. -/
def regionSize (totalBytes : Nat) : Nat := (1 + (totalBytes - 1) / 4) * 4

/-- `fillPattern`: the value, as often as it fits into sixteen bytes. -/
def fillPattern (value : List Byte) : List Byte :=
  (range 16).map fun p => value.getD (p % value.length) 0

def fillBufferWithPattern (region : Nat) (value : List Byte) (memory : ByteBuffer) : ByteBuffer :=
  fun p => if p < region then repeated (fillPattern value) p else memory p

/-- `FillBufferWithValue`, for a `float`. -/
def fillBufferWithValue (region : Nat) (value : binary32.Bits) (memory : ByteBuffer) : ByteBuffer :=
  fillBufferWithPattern region (littleEndian 4 value.toNat) memory

/-- A batch of vectors, with the strides of its copy. -/
structure StridedCopy where
  batchSize : Nat
  elemCountPerBatch : Nat
  batchStride : Nat
  elemStride : Nat

def diagonalizeSimpleMatrix (input output : TensorShape) : Option StridedCopy := do
  let batchSize := input.dropLast.foldl (fun batchSize dim => batchSize * dim % 2 ^ 32) 1
  -- The number of elements is divided by it.
  if batchSize = 0 then none
  else
    let elemCountPerBatch := input.numElements / batchSize % 2 ^ 32
    let outputHeight := output.getD (output.length - 2) 0 % 2 ^ 32
    let outputWidth := output.getD (output.length - 1) 0 % 2 ^ 32
    let flattened := [batchSize, 1, 1, elemCountPerBatch]
    let _ ← DmlTensorDesc.create flattened flattened
    some ⟨batchSize, elemCountPerBatch, outputHeight * outputWidth % 2 ^ 32,
      (elemCountPerBatch + 1) % 2 ^ 32⟩

namespace StridedCopy

def position (copy : StridedCopy) (k : Nat) : Nat :=
  k / copy.elemCountPerBatch * copy.batchStride + k % copy.elemCountPerBatch * copy.elemStride

def extent (copy : StridedCopy) : Nat :=
  (copy.batchSize - 1) * copy.batchStride + (copy.elemCountPerBatch - 1) * copy.elemStride + 1

/-- `DML_OPERATOR_ELEMENT_WISE_IDENTITY`, on elements of `size` bytes. The tensors must not be
    empty or too large, and the output has to be inside its region. -/
def execute (copy : StridedCopy) (size region : Nat) (values : Nat → List Byte)
    (memory : ByteBuffer) : Option ByteBuffer :=
  let count := copy.batchSize * copy.elemCountPerBatch
  if 0 < count ∧ count < 2 ^ 32 ∧ size * copy.extent ≤ region then
    some (((range count).map fun k => (copy.position k, values k)).foldl
      (fun memory write => store memory (size * write.1) write.2) memory)
  else none

end StridedCopy

/-- `Compute` on the fast path. -/
def computeSimple (type : ElementType) (input output : TensorShape)
    (values : Nat → type.Element) (paddingValue : type.Element) (memory : ByteBuffer) :
    Option ByteBuffer := do
  let copy ← diagonalizeSimpleMatrix input output
  let region := regionSize (output.numElements * type.size)
  copy.execute type.size region (fun k => type.encode (values k))
    (fillBufferWithValue region (type.toFloat paddingValue) memory)

theorem le_regionSize (totalBytes : Nat) : totalBytes ≤ regionSize totalBytes := by
  rw [regionSize]
  omega

theorem repeated_fillPattern {value : List Byte} (four : value.length = 4) (p : Nat) :
    repeated (fillPattern value) p = repeated value p := by
  have length : (fillPattern value).length = 16 := by rw [fillPattern, length_map, length_range]
  have inside : p % 16 < (fillPattern value).length := by omega
  rw [repeated, repeated, length, getD_eq_getElem _ _ inside]
  simp only [fillPattern, getElem_map, getElem_range, four]
  rw [Nat.mod_mod_of_dvd p (by decide : 4 ∣ 16)]

variable {region : Nat}

theorem fillBufferWithValue_of_lt {p : Nat} (value : binary32.Bits) (memory : ByteBuffer)
    (inside : p < region) :
    fillBufferWithValue region value memory p = repeated (littleEndian 4 value.toNat) p := by
  rw [fillBufferWithValue, fillBufferWithPattern, if_pos inside,
    repeated_fillPattern (length_littleEndian ..)]

theorem load_fillBufferWithValue {region times start count : Nat} (value : binary32.Bits)
    (memory : ByteBuffer) (part : start + count ≤ 4)
    (inside : 4 * times + start + count ≤ region) :
    load (fillBufferWithValue region value memory) (4 * times + start) count =
      ((littleEndian 4 value.toNat).drop start).take count := by
  have four := length_littleEndian 4 value.toNat
  have filled : load (fillBufferWithValue region value memory) (4 * times + start) count =
      load (repeated (littleEndian 4 value.toNat)) (4 * times + start) count :=
    load_congr fun k less => fillBufferWithValue_of_lt value memory (by omega)
  have pattern := load_repeated (littleEndian 4 value.toNat) times start
    (by rw [four]; exact part)
  rw [four] at pattern
  rw [filled, pattern]

theorem load_fillBufferWithValue_whole {times : Nat} (value : binary32.Bits) (memory : ByteBuffer)
    (inside : 4 * times + 4 ≤ region) :
    load (fillBufferWithValue region value memory) (4 * times) 4 = littleEndian 4 value.toNat := by
  have read := @load_fillBufferWithValue region times 0 4 value memory (by decide) inside
  rwa [drop_zero, take_of_length_le (le_of_eq (length_littleEndian ..))] at read

namespace ElementType

theorem length_encode (type : ElementType) (x : type.Element) :
    (type.encode x).length = type.size := by
  cases type with
  | float => exact length_littleEndian ..
  | half => exact length_littleEndian ..
  | bool => exact length_littleEndian ..

theorem encode_zero (type : ElementType) : type.encode type.zero = replicate type.size 0 := by
  cases type with
  | float => rfl
  | half => rfl
  | bool => rfl

theorem toFloat_zero (type : ElementType) : type.toFloat type.zero = 0#32 := by
  cases type with
  | float => rfl
  | half => rfl
  | bool => rfl

theorem widens_half : Widens binary16 binary32 := ⟨by decide, by decide, by decide⟩

theorem eq_zero_of_toFloat_half {x : half.Element}
    (same : (half.toFloat x).toNat % 2 ^ 16 = BitVec.toNat (w := 16) x) : x = half.zero := by
  have fields := widenedFields_widen widens_half x
  change (widen binary32 x).toNat % 2 ^ 16 = _ at same
  generalize (widen binary32 x : binary32.Bits) = y at fields same
  have fraction : 2 ^ 13 ∣ y.toNat % 2 ^ 23 := fields.fraction
  have power : BitVec.toNat (w := 16) x % 2 ^ 10 = 0 → y.toNat % 2 ^ 23 = 0 := fields.power
  apply BitVec.eq_of_toNat_eq
  change BitVec.toNat (w := 16) x = 0
  omega

end ElementType

structure FastCall extends DiagCall where
  lower : toDiagCall.kMin = 0
  upper : toDiagCall.kMax = 0
  square : toDiagCall.rows = toDiagCall.cols

namespace FastCall

variable (c : FastCall)

/-- The same invocation, for `DiagonalizeComplexMatrix`. -/
def general : BandCall where
  toDiagCall := c.toDiagCall
  above := by
    have tall := c.tall.1
    rw [c.lower]
    omega
  below := by
    have wide := c.tall.2
    rw [c.upper]
    omega

def batches : Nat := c.init.leading.prod

def simple (type : ElementType) (values : Nat → type.Element) (paddingValue : type.Element)
    (memory : ByteBuffer) : Option ByteBuffer :=
  computeSimple type c.diagonal c.init.outputShape values paddingValue memory

/-- The general path makes matrices, and in the buffer of the fast path each of their elements
    is read, whatever was in the memory before. -/
def Agrees (type : ElementType) (paddingValue : type.Element) : Prop :=
  ∀ (values : Nat → type.Element) (memory : ByteBuffer), ∃ out buffer,
    c.general.kernel values paddingValue = some out ∧
    c.simple type values paddingValue memory = some buffer ∧
    ∀ b < c.batches, ∀ i < c.rows, ∀ j < c.cols,
      load buffer (type.size * ((b * c.rows + i) * c.cols + j)) type.size =
        type.encode (out.entry (b * c.rows + i) j)

theorem depth_eq : c.general.depth = 1 := by
  rw [BandCall.depth]
  change (c.kMax - c.kMin + 1).toNat = 1
  rw [c.lower, c.upper]
  rfl

theorem numElements_eq : c.diagonal.numElements = c.batches * c.maxDiagLen := by
  have elements := c.general.numElements_eq
  rw [c.depth_eq, one_mul] at elements
  exact elements

theorem positive : 0 < c.batches ∧ 0 < c.maxDiagLen :=
  ⟨c.general.positive.1, c.general.positive.2.2⟩

theorem width_eq (placeable : c.general.Placeable) : c.maxDiagLen = c.rows := by
  have enoughRows : (c.maxDiagLen : Int) - min c.kMax 0 ≤ c.rows := placeable.enoughRows
  have long : maxLen c.rows c.cols c.kMin c.kMax ≤ c.maxDiagLen :=
    (c.general.width_bounds enoughRows).1
  rw [maxLen, c.lower, c.upper, ← c.square] at long
  rw [c.upper] at enoughRows
  omega

theorem paddedWidth_eq (square : c.maxDiagLen = c.rows) :
    paddedWidth c.rows c.cols c.maxDiagLen c.kMin c.kMax = c.maxDiagLen + 1 := by
  rw [paddedWidth, maxLen, diagLen, diagLen, c.lower, c.upper, ← c.square, square]
  omega

theorem placeable_iff : c.general.Placeable ↔
    c.batches * c.maxDiagLen * (c.maxDiagLen + 1) < 2 ^ 32 ∧
      (c.maxDiagLen = 1 → c.general.attr.alignSupLeft = true) := by
  have lower := c.lower
  have upper := c.upper
  have square := c.square
  obtain ⟨ne, width⟩ := c.positive
  constructor
  · intro placeable
    have isWidth := c.width_eq placeable
    have padded : (c.batches * c.maxDiagLen : Nat) *
        paddedWidth c.rows c.cols c.maxDiagLen c.kMin c.kMax < 2 ^ 32 := placeable.padded
    rw [c.paddedWidth_eq isWidth] at padded
    refine ⟨by exact_mod_cast padded, fun single => ?_⟩
    have lens : c.general.attr.alignSupLeft = false → c.kMax < 0 := (placeable.lengths (by
      change min c.rows c.cols = 1
      omega)).2
    cases left : c.general.attr.alignSupLeft with
    | true => rfl
    | false => exact absurd (lens left) (by omega)
  · rintro ⟨lt, single⟩
    have least : c.maxDiagLen * (c.maxDiagLen + 1) < 2 ^ 32 := by
      rw [mul_assoc] at lt
      exact lt_of_le_of_lt (Nat.le_mul_of_pos_left _ ne) lt
    have short : c.maxDiagLen < 2 ^ 31 := by
      by_contra long
      have product := Nat.mul_le_mul (Nat.not_lt.mp long)
        (le_trans (Nat.not_lt.mp long) (Nat.le_add_right _ 1))
      omega
    have isWidth : c.maxDiagLen = c.rows := by
      have rows_ge : i32 (c.maxDiagLen - min c.kMax 0) ≤ c.rows := c.helped.rows_ge
      have exact_ : (c.rows : Int) = i32 (c.maxDiagLen - min c.kMax 0) ∨
        (c.cols : Int) = i32 (c.maxDiagLen + max c.kMin 0) := c.helped.exact_
      rw [lower, upper, min_self, max_self, Int.sub_zero, Int.add_zero,
        i32_of_bounds (by omega) (by omega)] at exact_
      omega
    have fits : c.kMax + c.rows < 2 ^ 31 := by omega
    refine ⟨Or.inl ?_, ?_, fits, fun one => ⟨fun _ => ?_, fun right => ?_⟩, ?_, ?_⟩
    · change min c.kMax 0 ≤ c.kMin
      omega
    · change (c.maxDiagLen : Int) - min c.kMax 0 ≤ c.rows
      omega
    · change 0 ≤ c.kMin
      omega
    · have isOne : min c.rows c.cols = 1 := one
      have left := single (by omega)
      rw [left] at right
      cases right
    · change c.outElements < 2 ^ 32
      rw [c.outElements_eq, ← square, ← isWidth]
      calc c.batches * (c.maxDiagLen * c.maxDiagLen)
          ≤ c.batches * (c.maxDiagLen * (c.maxDiagLen + 1)) :=
            Nat.mul_le_mul_left _ (Nat.mul_le_mul_left _ (Nat.le_succ _))
        _ < 2 ^ 32 := by rwa [← mul_assoc]
    · change (c.batches * c.maxDiagLen : Nat) *
        paddedWidth c.rows c.cols c.maxDiagLen c.kMin c.kMax < 2 ^ 32
      rw [c.paddedWidth_eq isWidth]
      exact_mod_cast lt

theorem reference_eq {α : Type} (placeable : c.general.Placeable) (values : Nat → α) (padding : α)
    (b i j : Nat) : c.general.reference values padding b i j =
      if i = j then values (b * c.maxDiagLen + i) else padding := by
  have isWidth := c.width_eq placeable
  have square := c.square
  have unfolded : c.general.reference values padding b i j =
      if c.kMin ≤ (j : Int) - i ∧ (j : Int) - i ≤ c.kMax then
        values ((b * c.general.depth + (c.kMax - (j - i)).toNat) * c.maxDiagLen +
          slot c.rows c.cols c.maxDiagLen c.general.attr i j)
      else padding := rfl
  rw [unfolded, c.depth_eq, c.lower, c.upper]
  by_cases same : i = j
  · subst same
    have isSlot : slot c.rows c.cols c.maxDiagLen c.general.attr i i = i := by
      have length : diagLen c.rows c.cols ((i : Int) - i) = c.rows := by
        rw [diagLen, ← square]
        omega
      simp only [slot, length, Int.toNat_natCast, min_self, isWidth, Nat.add_sub_cancel, ite_self]
    rw [if_pos (by omega), if_pos rfl, isSlot, Int.sub_self, mul_one]
    rfl
  · rw [if_neg (by omega), if_neg same]

theorem foldl_batchSize {dims : List Nat} {start : Nat} (lt : start * dims.prod < 2 ^ 32)
    (ne : dims.prod ≠ 0) :
    dims.foldl (fun batchSize dim => batchSize * dim % 2 ^ 32) start = start * dims.prod := by
  induction dims generalizing start with
  | nil => simp
  | cons dim dims ih =>
    rw [prod_cons] at lt ne
    have rest := right_ne_zero_of_mul ne
    have le : start * dim ≤ start * (dim * dims.prod) :=
      Nat.mul_le_mul_left _ (Nat.le_mul_of_pos_right _ (Nat.pos_of_ne_zero rest))
    rw [foldl_cons, prod_cons, Nat.mod_eq_of_lt (by omega), ih (by rwa [mul_assoc]) rest, mul_assoc]

theorem diagonalizeSimpleMatrix_eq (placeable : c.general.Placeable) :
    diagonalizeSimpleMatrix c.diagonal c.init.outputShape =
      some ⟨c.batches, c.maxDiagLen, c.maxDiagLen * c.maxDiagLen, c.maxDiagLen + 1⟩ := by
  obtain ⟨ne, width⟩ := c.positive
  obtain ⟨lt, -⟩ := c.placeable_iff.mp placeable
  have isWidth := c.width_eq placeable
  have rows_eq : c.init.numRows = c.maxDiagLen := isWidth.symm
  have cols_eq : c.init.numCols = c.maxDiagLen := by
    rw [isWidth, c.square]
    rfl
  have batches : c.diagonal.dropLast.prod = c.batches := by
    have leading : c.init.leading = c.diagonal.dropLast :=
      c.general.leading_of_single (c.lower.trans c.upper.symm)
    rw [batches, leading]
  have vectors : c.batches * c.maxDiagLen < 2 ^ 32 :=
    lt_of_le_of_lt (Nat.le_mul_of_pos_right _ (Nat.succ_pos _)) lt
  have batchesFit : c.batches < 2 ^ 32 := lt_of_le_of_lt (Nat.le_mul_of_pos_right _ width) vectors
  have square : c.maxDiagLen * (c.maxDiagLen + 1) < 2 ^ 32 := by
    rw [mul_assoc] at lt
    exact lt_of_le_of_lt (Nat.le_mul_of_pos_left _ ne) lt
  have next : c.maxDiagLen + 1 < 2 ^ 32 := lt_of_le_of_lt (Nat.le_mul_of_pos_left _ width) square
  have matrix : c.maxDiagLen * c.maxDiagLen < 2 ^ 32 :=
    lt_of_le_of_lt (Nat.mul_le_mul_left _ (Nat.le_succ _)) square
  have fold : c.diagonal.dropLast.foldl (fun batchSize dim => batchSize * dim % 2 ^ 32) 1 =
      c.batches := by
    rw [foldl_batchSize (by rw [batches]; omega) (by rw [batches]; omega), batches, one_mul]
  have desc : DmlTensorDesc.Describable [c.batches, 1, 1, c.maxDiagLen] := by
    refine ⟨by simp [DmlTensorDesc.maxDimensionCount], ?_⟩
    simp only [forall_mem_cons, not_mem_nil, false_implies, implies_true, and_true]
    omega
  have height : c.init.outputShape.getD (c.init.outputShape.length - 2) 0 = c.maxDiagLen := by
    simp [Init.outputShape, rows_eq]
  have breadth : c.init.outputShape.getD (c.init.outputShape.length - 1) 0 = c.maxDiagLen := by
    simp [Init.outputShape, cols_eq]
  simp only [diagonalizeSimpleMatrix, fold, c.numElements_eq, Nat.mul_div_cancel_left _ ne,
    height, breadth, Nat.mod_eq_of_lt (by omega : c.maxDiagLen < 2 ^ 32), Nat.mod_eq_of_lt matrix,
    Nat.mod_eq_of_lt next, Option.bind_eq_bind]
  rw [if_neg (by omega), DmlTensorDesc.create_self_eq_some.mpr ⟨desc, rfl⟩, Option.bind_some]

theorem position_eq (batchSize w k : Nat) :
    StridedCopy.position ⟨batchSize, w, w * w, w + 1⟩ k = k * w + k % w := by
  have quotient := Nat.div_add_mod k w
  calc k / w * (w * w) + k % w * (w + 1) = (w * (k / w) + k % w) * w + k % w := by ring
    _ = k * w + k % w := by rw [quotient]

theorem extent_eq {batchSize w : Nat} (ne : 0 < batchSize) (width : 0 < w) :
    StridedCopy.extent ⟨batchSize, w, w * w, w + 1⟩ = batchSize * w * w := by
  obtain ⟨b, rfl⟩ : ∃ b, batchSize = b + 1 := ⟨batchSize - 1, by omega⟩
  obtain ⟨v, rfl⟩ : ∃ v, w = v + 1 := ⟨w - 1, by omega⟩
  simp only [StridedCopy.extent, Nat.add_sub_cancel]
  ring

theorem outElements_eq' (isWidth : c.maxDiagLen = c.rows) :
    c.outElements = c.batches * c.maxDiagLen * c.maxDiagLen := by
  rw [c.outElements_eq, ← c.square, ← isWidth, mul_assoc]
  rfl

theorem simple_some (placeable : c.general.Placeable) (type : ElementType)
    (values : Nat → type.Element) (paddingValue : type.Element) (memory : ByteBuffer) :
    ∃ buffer, c.simple type values paddingValue memory = some buffer ∧
      ∀ b, ∀ i < c.rows, ∀ j < c.cols, b < c.batches →
        load buffer (type.size * ((b * c.rows + i) * c.cols + j)) type.size =
          if i = j then type.encode (values (b * c.maxDiagLen + i))
          else load (fillBufferWithValue (regionSize (c.outElements * type.size))
            (type.toFloat paddingValue) memory)
              (type.size * ((b * c.rows + i) * c.cols + j)) type.size := by
  obtain ⟨ne, width⟩ := c.positive
  obtain ⟨lt, -⟩ := c.placeable_iff.mp placeable
  have isWidth := c.width_eq placeable
  have vectors : c.batches * c.maxDiagLen < 2 ^ 32 :=
    lt_of_le_of_lt (Nat.le_mul_of_pos_right _ (Nat.succ_pos _)) lt
  have inside : type.size * (c.batches * c.maxDiagLen * c.maxDiagLen) ≤
      regionSize (c.outElements * type.size) := by
    rw [c.outElements_eq' isWidth, mul_comm]
    exact le_regionSize _
  have executed : ∃ buffer, c.simple type values paddingValue memory = some buffer ∧
      buffer = (((range (c.batches * c.maxDiagLen)).map fun k =>
        (StridedCopy.position ⟨c.batches, c.maxDiagLen, c.maxDiagLen * c.maxDiagLen,
          c.maxDiagLen + 1⟩ k, type.encode (values k))).foldl
        (fun memory write => store memory (type.size * write.1) write.2)
        (fillBufferWithValue (regionSize (c.outElements * type.size))
          (type.toFloat paddingValue) memory)) := by
    refine ⟨_, ?_, rfl⟩
    rw [simple, computeSimple, c.diagonalizeSimpleMatrix_eq placeable, Option.bind_eq_bind,
      Option.bind_some]
    change StridedCopy.execute _ _ (regionSize (c.outElements * type.size)) _ _ = _
    rw [StridedCopy.execute, extent_eq ne width]
    exact if_pos ⟨mul_pos ne width, vectors, inside⟩
  obtain ⟨buffer, made, isBuffer⟩ := executed
  refine ⟨buffer, made, fun b i row j column batch => ?_⟩
  rw [isBuffer, load_foldl_store _ (by simp [type.length_encode])]
  simp only [position_eq]
  have injective {k l : Nat} (same : k * c.maxDiagLen + k % c.maxDiagLen =
      l * c.maxDiagLen + l % c.maxDiagLen) : k = l := by
    have quotient (n : Nat) : (n * c.maxDiagLen + n % c.maxDiagLen) / c.maxDiagLen = n := by
      rw [mul_comm, Nat.mul_add_div width, Nat.div_eq_of_lt (Nat.mod_lt _ width), add_zero]
    rw [← quotient k, same, quotient]
  rw [← isWidth] at row ⊢
  rw [← c.square, ← isWidth] at column ⊢
  have rest : (b * c.maxDiagLen + i) % c.maxDiagLen = i := Nat.mul_add_mod_of_lt row
  by_cases same : i = j
  · subst same
    rw [if_pos rfl]
    have mem : ((b * c.maxDiagLen + i) * c.maxDiagLen + i,
        type.encode (values (b * c.maxDiagLen + i))) ∈
        (range (c.batches * c.maxDiagLen)).map fun k =>
          (k * c.maxDiagLen + k % c.maxDiagLen, type.encode (values k)) := by
      refine mem_map.mpr ⟨b * c.maxDiagLen + i, mem_range.mpr ?_, by rw [rest]⟩
      have last := Nat.mul_le_mul_right c.maxDiagLen (Nat.succ_le_of_lt batch)
      rw [Nat.succ_mul] at last
      omega
    rw [lastWrite_of_nodup _ mem, Option.getD_some]
    rw [map_map]
    exact nodup_range.map fun k l equal => injective equal
  · rw [if_neg same, lastWrite_eq_none, Option.getD_none]
    intro write mem hit
    obtain ⟨k, -, rfl⟩ := mem_map.mp mem
    have hit' : k * c.maxDiagLen + k % c.maxDiagLen =
        (b * c.maxDiagLen + i) * c.maxDiagLen + j := hit
    have remainder := congrArg (· % c.maxDiagLen) hit'
    have quotient := congrArg (· / c.maxDiagLen) hit'
    simp only [Nat.mul_add_mod_of_lt column, Nat.mul_add_mod_of_lt (Nat.mod_lt k width)]
      at remainder
    simp only [mul_comm _ c.maxDiagLen, Nat.mul_add_div width,
      Nat.div_eq_of_lt (Nat.mod_lt k width), Nat.div_eq_of_lt column, add_zero] at quotient
    rw [quotient, mul_comm c.maxDiagLen, rest] at remainder
    exact same remainder

variable {type : ElementType} {paddingValue : type.Element} {b i j : Nat}

theorem general_entry (placeable : c.general.Placeable) {values : Nat → type.Element}
    {out : Rows type.Element} (ran : c.general.kernel values paddingValue = some out)
    (batch : b < c.batches) (row : i < c.rows) (column : j < c.cols) :
    out.entry (b * c.rows + i) j =
      if i = j then values (b * c.maxDiagLen + i) else paddingValue := by
  obtain ⟨out', ran', -, -, xs⟩ :=
    c.general.equalsReference_of_placeable placeable values paddingValue
  obtain rfl := Option.some.inj (ran.symm.trans ran')
  rw [← c.reference_eq placeable]
  exact xs b batch i row j column

theorem slot_inside (isWidth : c.maxDiagLen = c.rows) (type : ElementType) (batch : b < c.batches)
    (row : i < c.rows) (column : j < c.cols) :
    type.size * ((b * c.rows + i) * c.cols + j) + type.size ≤
      regionSize (c.outElements * type.size) := by
  have first : b * c.rows + i + 1 ≤ c.batches * c.rows := by
    have last := Nat.mul_le_mul_right c.rows (Nat.succ_le_of_lt batch)
    rw [Nat.succ_mul] at last
    omega
  have second : (b * c.rows + i) * c.cols + j + 1 ≤ c.outElements := by
    have last := Nat.mul_le_mul_right c.cols first
    rw [Nat.succ_mul] at last
    rw [c.outElements_eq' isWidth, isWidth]
    nth_rewrite 3 [c.square]
    omega
  calc type.size * ((b * c.rows + i) * c.cols + j) + type.size
      = type.size * ((b * c.rows + i) * c.cols + j + 1) := by rw [Nat.mul_succ]
    _ ≤ type.size * c.outElements := Nat.mul_le_mul_left _ second
    _ = c.outElements * type.size := mul_comm _ _
    _ ≤ regionSize (c.outElements * type.size) := le_regionSize _

theorem load_fill_of_padding (whole : type = .float ∨ paddingValue = type.zero) {region e : Nat}
    (memory : ByteBuffer) (inside : type.size * e + type.size ≤ region) :
    load (fillBufferWithValue region (type.toFloat paddingValue) memory) (type.size * e)
      type.size = type.encode paddingValue := by
  rcases whole with rfl | rfl
  · exact load_fillBufferWithValue_whole paddingValue memory inside
  · have zeros : load (fillBufferWithValue region 0#32 memory) (type.size * e) type.size =
        load (repeated (replicate 4 0)) (type.size * e) type.size :=
      load_congr fun k less => (fillBufferWithValue_of_lt 0#32 memory (by omega)).trans
        (congrArg (fun pattern => repeated pattern _) (littleEndian_zero 4))
    rw [type.toFloat_zero, type.encode_zero, zeros, load_repeated_zero]

theorem padding_of_load {type : ElementType} {paddingValue : type.Element} {region : Nat}
    {memory : ByteBuffer} (inside : type.size * 2 + type.size ≤ region)
    (read : ∀ e, e = 1 ∨ e = 2 →
      load (fillBufferWithValue region (type.toFloat paddingValue) memory) (type.size * e)
        type.size = type.encode paddingValue) : type = .float ∨ paddingValue = type.zero := by
  cases type with
  | float => exact Or.inl rfl
  | half =>
    right
    have second : load (fillBufferWithValue region (widen binary32 paddingValue) memory)
        (4 * 1 + 0) 2 = littleEndian 2 (BitVec.toNat paddingValue) := read 2 (Or.inr rfl)
    rw [load_fillBufferWithValue _ _ (by decide) inside, drop_zero,
      take_littleEndian (by decide)] at second
    have same := littleEndian_inj second
    have bound : BitVec.toNat paddingValue < 256 ^ 2 := BitVec.isLt paddingValue
    rw [Nat.mod_eq_of_lt bound] at same
    exact ElementType.eq_zero_of_toFloat_half same
  | bool =>
    right
    have first : load (fillBufferWithValue region (ElementType.bool.toFloat paddingValue) memory)
        (4 * 0 + 1) 1 = littleEndian 1 paddingValue.toNat := read 1 (Or.inl rfl)
    rw [load_fillBufferWithValue _ _ (by decide) (le_trans (by decide) inside)] at first
    cases paddingValue with
    | false => rfl
    | true => exact absurd first (by decide)

theorem padding_of_agrees (agrees : c.Agrees type paddingValue) : c.general.Placeable ∧
      (c.maxDiagLen = 1 ∨ type = .float ∨ paddingValue = type.zero) := by
  obtain ⟨ne, width⟩ := c.positive
  obtain ⟨out, buffer, ran, made, elements⟩ := agrees (fun _ => type.zero) fun _ => 0
  have aligned : Aligned c.rows c.cols c.kMin c.kMax := by
    left
    rw [c.lower, c.upper, min_self]
  have placeable := c.general.placeable_of_kernel ran aligned
  refine ⟨placeable, ?_⟩
  by_cases single : c.maxDiagLen = 1
  · exact Or.inl single
  · right
    have isWidth := c.width_eq placeable
    have square := c.square
    obtain ⟨buffer', made', loads⟩ := c.simple_some placeable type (fun _ => type.zero)
      paddingValue fun _ => 0
    obtain rfl := Option.some.inj (made.symm.trans made')
    have apart {i j : Nat} (row : i < c.rows) (column : j < c.cols) (different : i ≠ j) :
        load (fillBufferWithValue (regionSize (c.outElements * type.size))
          (type.toFloat paddingValue) fun _ => 0) (type.size * (i * c.cols + j)) type.size =
            type.encode paddingValue := by
      have read := loads 0 i row j column ne
      rw [elements 0 ne i row j column, c.general_entry placeable ran ne row column,
        if_neg different, if_neg different, zero_mul, zero_add] at read
      exact read.symm
    have inside : type.size * 2 + type.size ≤ regionSize (c.outElements * type.size) := by
      have last := c.slot_inside isWidth type ne (show 1 < c.rows by omega)
        (show 0 < c.cols by omega)
      rw [zero_mul, zero_add, one_mul, add_zero] at last
      have two : type.size * 2 ≤ type.size * c.cols := Nat.mul_le_mul_left _ (by omega)
      omega
    apply @padding_of_load type paddingValue _ (fun _ => 0) inside
    rintro e (rfl | rfl)
    · have first := apart (show 0 < c.rows by omega) (show 1 < c.cols by omega) (by decide)
      rwa [zero_mul, zero_add] at first
    · by_cases two : c.cols = 2
      · have second := apart (show 1 < c.rows by omega) (show 0 < c.cols by omega) (by decide)
        rwa [two] at second
      · have second := apart (show 0 < c.rows by omega) (show 2 < c.cols by omega) (by decide)
        rwa [zero_mul, zero_add] at second

theorem agrees_of_padding (placeable : c.general.Placeable)
    (whole : c.maxDiagLen = 1 ∨ type = .float ∨ paddingValue = type.zero) :
    c.Agrees type paddingValue := by
  intro values memory
  have isWidth := c.width_eq placeable
  have square := c.square
  obtain ⟨out, ran, -⟩ := c.general.equalsReference_of_placeable placeable values paddingValue
  obtain ⟨buffer, made, loads⟩ := c.simple_some placeable type values paddingValue memory
  refine ⟨out, buffer, ran, made, fun b batch i row j column => ?_⟩
  rw [loads b i row j column batch, c.general_entry placeable ran batch row column]
  by_cases same : i = j
  · rw [if_pos same, if_pos same]
  · rw [if_neg same, if_neg same]
    refine load_fill_of_padding (whole.resolve_left fun single => ?_) memory
      (c.slot_inside isWidth type batch row column)
    omega

/-- The two paths agree if and only if the general path exists and no element is a part of the
    `float`, unless that is zero. -/
theorem agrees_iff (type : ElementType) (paddingValue : type.Element) : c.Agrees type paddingValue ↔
      (c.batches * c.maxDiagLen * (c.maxDiagLen + 1) < 2 ^ 32 ∧
        (c.maxDiagLen = 1 → (attributes c.align).alignSupLeft = true)) ∧
      (c.maxDiagLen = 1 ∨ type = .float ∨ paddingValue = type.zero) := by
  have built : c.general.Placeable ↔ c.batches * c.maxDiagLen * (c.maxDiagLen + 1) < 2 ^ 32 ∧
      (c.maxDiagLen = 1 → (attributes c.align).alignSupLeft = true) := c.placeable_iff
  rw [← built]
  exact ⟨c.padding_of_agrees, fun both => c.agrees_of_padding both.1 both.2⟩

def twoByTwo : FastCall where
  diagonal := [2]
  band := some ⟨⟨[], [0], rfl⟩, BitVec.ofInt 32 (-1), BitVec.ofInt 32 (-1)⟩
  align := some .rightLeft
  init := ⟨[], 2, 2, 0, 0⟩
  accepted := rfl
  runs := rfl
  lower := rfl
  upper := rfl
  square := rfl

/-- The padding value is 1.0 in half precision. -/
theorem twoByTwo_not_agrees : ¬twoByTwo.Agrees .half (0x3C00#16 : BitVec 16) := by
  intro agrees
  rcases (twoByTwo.padding_of_agrees agrees).2 with single | float | zero
  · exact absurd single (by decide)
  · cases float
  · exact absurd (congrArg (BitVec.toNat (w := 16)) zero) (by decide)

end FastCall

end TfDml.MatrixDiag
