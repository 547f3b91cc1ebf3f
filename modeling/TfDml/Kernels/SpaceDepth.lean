import TfDml.Kernels.BiasAdd
import TfDml.Kernels.ConvBackprop
import TfDml.Kernels.FilterGradientValue

/-! # `SpaceToDepth` and `DepthToSpace`

One op moves the blocks of an image into its channels, the other one moves them back. The sizes of
the output are computed in 32 bits.
-/

namespace TfDml

open Lib
open List hiding flatten
open DmlGraph (Expression)
open Stop

namespace SpaceDepth

/-- Where an element comes from whose block is in the channels, depth last. -/
def spaceSource (blockSize depth : Nat) : List Nat → List Nat
  | [batch, channel, y, x] => [batch, channel % depth, y * blockSize + channel / depth / blockSize,
      x * blockSize + channel / depth % blockSize]
  | index => index

/-- Where an element of a block comes from, depth last. -/
def depthSource (blockSize depth : Nat) : List Nat → List Nat
  | [batch, channel, y, x] => [batch,
      (y % blockSize * blockSize + x % blockSize) * depth + channel, y / blockSize, x / blockSize]
  | index => index

section Operators

variable {α : Type}

def rearrange (t : Expression α) (output : DmlTensorDesc) (sizes : List Nat)
    (source : List Nat → List Nat) : Option (Expression α) :=
  if output.sizes = sizes then
    some (Expression.stored output fun index => t.read (source index))
  else none

/-- `DML_SPACE_TO_DEPTH_OPERATOR_DESC` -/
def spaceToDepth (blockSize : Nat) (t : Expression α) (output : DmlTensorDesc) :
    Option (Expression α) :=
  match t.sizes with
  | [batch, depth, height, width] =>
    if blockSize ∣ height ∧ blockSize ∣ width then
      rearrange t output
        [batch, depth * blockSize * blockSize, height / blockSize, width / blockSize]
        (spaceSource blockSize depth)
    else none
  | _ => none

/-- `DML_DEPTH_TO_SPACE_OPERATOR_DESC`, in the order depth, column, row. -/
def depthToSpace (blockSize : Nat) (t : Expression α) (output : DmlTensorDesc) :
    Option (Expression α) :=
  match t.sizes with
  | [batch, depth, height, width] =>
    if blockSize * blockSize ∣ depth then
      rearrange t output
        [batch, depth / (blockSize * blockSize), height * blockSize, width * blockSize]
        (depthSource blockSize (depth / (blockSize * blockSize)))
    else none
  | _ => none

end Operators

open Optimizer (toInt32)
open BiasAdd (made product32)
open ConvBackprop (shapeFromFormat)
open DmlTensorDesc (BufferTensorSize createLayout getDmlTensorLayout)
open Optimizer.Remapper (getTensorDimIndices)

inductive OperatorType where
  | spaceToDepth
  | depthToSpace

/-- What `SpaceDepthInitHelper` keeps of a shape. -/
structure Sizes where
  batch : Int
  height : Int
  width : Int
  depth : Int

def sizesOf (dataFormat : TensorFormat) (inputShape : TensorShape) : Sizes :=
  let dimSize (index : Nat) : Int := toInt32 (inputShape.getD index 0 : Nat)
  let places := getTensorDimIndices dataFormat
  ⟨dimSize places.n, dimSize places.h, dimSize places.w, dimSize places.c⟩

/-- `SpaceDepthInitHelper` with the block size of its attributes. A square that does not overflow
    is not zero. -/
def spaceDepthInitHelper (operator : OperatorType) (dataFormat : TensorFormat) (blockSize : Int)
    (inputShape : TensorShape) : Except Stop Sizes := do
  Stop.require (inputShape.length = 4)
    (.invalidArgument ("Input rank should be 4 instead of " ++ toString inputShape.length))
  let sizes := sizesOf dataFormat inputShape
  match operator with
  | .depthToSpace => do
    let blockSizeSq ← product32 blockSize blockSize
    Stop.require (sizes.depth.tmod blockSizeSq = 0)
      (.invalidArgument ("Input depth dimension " ++ toString sizes.depth ++
        " should be divisible by: " ++ toString blockSizeSq))
    .ok sizes
  | .spaceToDepth => do
    Stop.require (sizes.width.tmod blockSize = 0 ∧ sizes.height.tmod blockSize = 0)
      (.invalidArgument ("Image width " ++ toString sizes.width ++ " and height " ++
        toString sizes.height ++ " should be divisible by block_size: " ++ toString blockSize))
    .ok sizes

def spaceDepthShapeHelper (operator : OperatorType) (dataFormat : TensorFormat) (blockSize : Int)
    (sizes : Sizes) : Except Stop (List Int) :=
  match operator with
  | .depthToSpace => do
    let blockSizeSq ← product32 blockSize blockSize
    let outputDepth := sizes.depth.tdiv blockSizeSq
    let outputWidth ← product32 sizes.width blockSize
    let outputHeight ← product32 sizes.height blockSize
    shapeFromFormat dataFormat sizes.batch outputHeight outputWidth outputDepth
  | .spaceToDepth => do
    let depth ← product32 sizes.depth blockSize
    let outputDepth ← product32 depth blockSize
    shapeFromFormat dataFormat sizes.batch (sizes.height.tdiv blockSize)
      (sizes.width.tdiv blockSize) outputDepth

def allocated (dims : List Int) : Except Stop TensorShape :=
  if ∀ dim ∈ dims, 0 ≤ dim then .ok (dims.map Int.toNat) else .error .fatal

section Kernel

variable {R : Type}

/-- `DmlSpaceDepthKernel` -/
def spaceDepthKernel (operator : OperatorType) (helper : BufferTensorSize) (dataType : DataType)
    (dataFormat : TensorFormat) (blockSize : Nat) (inputShape outputShape : TensorShape)
    (values : List R) : Option (List (Option R)) := do
  let layout ← getDmlTensorLayout dataFormat inputShape.length
  let input ← Expression.ofLayout helper dataType inputShape layout values
  let output ← createLayout helper dataType outputShape outputShape layout
  let result ← match operator with
    | .spaceToDepth => spaceToDepth blockSize input output.desc
    | .depthToSpace => depthToSpace blockSize input output.desc
  return result.buffer

def compute [Zero R] (operator : OperatorType) (helper : BufferTensorSize) (dataType : DataType)
    (dataFormat : TensorFormat) (blockSize : Nat) (inputShape : TensorShape) (values : List R) :
    Except Stop (TensorShape × List (Option R)) := do
  let sizes ← spaceDepthInitHelper operator dataFormat blockSize inputShape
  let dims ← spaceDepthShapeHelper operator dataFormat blockSize sizes
  let outputShape ← allocated dims
  if NoOpKernel.isNoOpKernel [inputShape] [outputShape] then
    .ok (outputShape, NoOpKernel.zeroed outputShape)
  else do
    let written ← made (spaceDepthKernel operator helper dataType dataFormat blockSize inputShape
      outputShape values)
    .ok (outputShape, written)

end Kernel

open FilterGradient (arrange arrange_mem forall_arrange length_arrange prod_arrange)

/-- An image in one of the two formats and a block size that the attributes accept. -/
structure Call where
  dataType : DataType
  registered : dataType ∈ [DataType.float, .half, .uint8]
  dataFormat : TensorFormat
  known : dataFormat = .nhwc ∨ dataFormat = .nchw
  blockSize : Nat
  block : 1 < blockSize ∧ blockSize < 2 ^ 31
  batch : Nat
  depth : Nat
  height : Nat
  width : Nat

namespace Call

variable (c : Call)

def shape : TensorShape := arrange c.dataFormat c.batch c.depth [c.height, c.width]

def packed : TensorShape :=
  arrange c.dataFormat c.batch (c.depth * c.blockSize * c.blockSize)
    [c.height / c.blockSize, c.width / c.blockSize]

def unpacked : TensorShape :=
  arrange c.dataFormat c.batch (c.depth / (c.blockSize * c.blockSize))
    [c.height * c.blockSize, c.width * c.blockSize]

def Packs : Prop := c.blockSize ∣ c.height ∧ c.blockSize ∣ c.width

def Unpacks : Prop := c.blockSize * c.blockSize ∣ c.depth

def initHelper (operator : OperatorType) : Except Stop Sizes :=
  spaceDepthInitHelper operator c.dataFormat c.blockSize c.shape

def outputShape (operator : OperatorType) : Except Stop (List Int) := do
  spaceDepthShapeHelper operator c.dataFormat c.blockSize (← c.initHelper operator)

def Validates (operator : OperatorType) (condition : Prop) : Prop :=
  (condition → ∃ sizes, c.initHelper operator = .ok sizes) ∧
    (¬ condition → Stop.Reports (c.initHelper operator))

/-- The ops validate exactly, report exact shapes where 32 bits hold them, and the second op undoes
    the first one on every tensor that 32-bit strides address. -/
structure Inverse (helper : BufferTensorSize) : Prop where
  unpacksExactly : c.Validates .depthToSpace c.Unpacks
  packsExactly : c.Validates .spaceToDepth c.Packs
  unpackedShape : c.Unpacks → (∀ dim ∈ c.unpacked, dim < 2 ^ 31) →
    c.outputShape .depthToSpace = .ok (c.unpacked.map Int.ofNat)
  packedShape : c.Packs → (∀ dim ∈ c.packed, dim < 2 ^ 31) →
    c.outputShape .spaceToDepth = .ok (c.packed.map Int.ofNat)
  restores : c.Packs → c.shape.prod < 2 ^ 32 → ∀ (R : Type) [Zero R] (x : List R),
    x.length = c.shape.prod → ∃ y,
      compute .spaceToDepth helper c.dataType c.dataFormat c.blockSize c.shape x =
        .ok (c.packed, y.map some) ∧
      compute .depthToSpace helper c.dataType c.dataFormat c.blockSize c.packed y =
        .ok (c.shape, x.map some)

structure Narrow : Prop where
  square : c.blockSize * c.blockSize < 2 ^ 31
  depth : ((c.blockSize * c.blockSize : Nat) : Int) ∣ toInt32 c.depth ↔ c.Unpacks
  image : ((c.blockSize : Int) ∣ toInt32 c.height ∧ (c.blockSize : Int) ∣ toInt32 c.width) ↔ c.Packs
  unpacked : c.Unpacks → (∀ dim ∈ c.unpacked, dim < 2 ^ 31) → c.depth < 2 ^ 31
  packed : c.Packs → (∀ dim ∈ c.packed, dim < 2 ^ 31) → c.height < 2 ^ 31 ∧ c.width < 2 ^ 31
  restored : c.Packs → c.shape.prod < 2 ^ 32 →
    (∀ dim ∈ c.shape, dim < 2 ^ 31) ∧ ∀ dim ∈ c.packed, dim < 2 ^ 31

end Call

variable {n : Nat}

theorem toInt32_natCast : toInt32 (n : Int) = n ↔ n < 2 ^ 31 := by
  rw [toInt32, Int.bmod_def]
  split <;> omega

theorem product32_eq_ok {a b product : Int} :
    product32 a b = .ok product ↔ (-2 ^ 31 ≤ a * b ∧ a * b < 2 ^ 31) ∧ product = a * b := by
  rw [product32]
  split
  · rename_i fits
    rw [Except.ok.injEq]
    exact ⟨fun same => ⟨fits, same.symm⟩, fun both => both.2.symm⟩
  · rename_i large
    exact ⟨fun stopped => (nomatch stopped), fun both => absurd both.1 large⟩

variable {m : Nat}

theorem product32_natCast (lt : m * n < 2 ^ 31) : product32 m n = .ok ((m * n : Nat) : Int) := by
  have cast : ((m * n : Nat) : Int) = (m : Int) * n := Int.natCast_mul m n
  exact product32_eq_ok.mpr ⟨by omega, cast⟩

theorem product32_overflow (large : 2 ^ 31 ≤ m * n) : product32 m n = .error .overflow := by
  have cast : ((m * n : Nat) : Int) = (m : Int) * n := Int.natCast_mul m n
  exact if_neg fun fits => by omega

namespace Call

variable (c : Call)

def sizes : Sizes := ⟨toInt32 c.batch, toInt32 c.height, toInt32 c.width, toInt32 c.depth⟩

theorem sizes_depth : c.sizes.depth = toInt32 c.depth := by rw [sizes]

theorem sizes_height : c.sizes.height = toInt32 c.height := by rw [sizes]

theorem sizes_width : c.sizes.width = toInt32 c.width := by rw [sizes]

theorem sizesOf_shape : sizesOf c.dataFormat c.shape = c.sizes := by
  rw [shape]
  rcases c.known with isFormat | isFormat
  · rw [isFormat]
    rfl
  · rw [isFormat]
    rfl

theorem require_rank (err : Status) : Stop.require (decide (c.shape.length = 4)) err = .ok () := by
  rw [shape, length_arrange]
  rfl

theorem initHelper_depthToSpace : c.initHelper .depthToSpace = (do
    let blockSizeSq ← product32 c.blockSize c.blockSize
    Stop.require (c.sizes.depth.tmod blockSizeSq = 0)
      (.invalidArgument ("Input depth dimension " ++ toString c.sizes.depth ++
        " should be divisible by: " ++ toString blockSizeSq))
    .ok c.sizes) := by
  rw [initHelper, spaceDepthInitHelper, require_rank, ok_bind, sizesOf_shape]

theorem initHelper_spaceToDepth : c.initHelper .spaceToDepth = (do
    Stop.require (c.sizes.width.tmod c.blockSize = 0 ∧ c.sizes.height.tmod c.blockSize = 0)
      (.invalidArgument ("Image width " ++ toString c.sizes.width ++ " and height " ++
        toString c.sizes.height ++ " should be divisible by block_size: " ++
        toString (c.blockSize : Int)))
    .ok c.sizes) := by
  rw [initHelper, spaceDepthInitHelper, require_rank, ok_bind, sizesOf_shape]

theorem require_then {α : Type} (cond : Bool) (err : Status) (a : α) :
    (cond = true → (do Stop.require cond err; .ok a) = .ok a) ∧
      (cond = false → Stop.Reports (do Stop.require cond err; (.ok a))) := by
  cases cond with
  | true => exact ⟨fun _ => rfl, nofun⟩
  | false => exact ⟨nofun, fun _ => ⟨err, rfl⟩⟩

theorem depthToSpace_overflow (large : 2 ^ 31 ≤ c.blockSize * c.blockSize) :
    c.initHelper .depthToSpace = .error .overflow := by
  rw [initHelper_depthToSpace, product32_overflow large]
  rfl

section Square

variable {c} (square : c.blockSize * c.blockSize < 2 ^ 31)

include square

theorem depthToSpace_validates : c.Validates .depthToSpace
      (((c.blockSize * c.blockSize : Nat) : Int) ∣ toInt32 c.depth) := by
  rw [Validates, initHelper_depthToSpace, product32_natCast square, ok_bind,
    Int.dvd_iff_tmod_eq_zero, ← sizes_depth]
  have decided := require_then
    (decide (c.sizes.depth.tmod ((c.blockSize * c.blockSize : Nat) : Int) = 0))
    (.invalidArgument ("Input depth dimension " ++ toString c.sizes.depth ++
      " should be divisible by: " ++ toString ((c.blockSize * c.blockSize : Nat) : Int))) c.sizes
  exact ⟨fun dvd => ⟨c.sizes, decided.1 (decide_eq_true dvd)⟩,
    fun other => decided.2 (decide_eq_false other)⟩

end Square

theorem spaceToDepth_validates : c.Validates .spaceToDepth
      ((c.blockSize : Int) ∣ toInt32 c.height ∧ (c.blockSize : Int) ∣ toInt32 c.width) := by
  rw [Validates, initHelper_spaceToDepth, Int.dvd_iff_tmod_eq_zero, Int.dvd_iff_tmod_eq_zero,
    ← sizes_height, ← sizes_width]
  have decided := require_then
    (decide (c.sizes.width.tmod c.blockSize = 0 ∧ c.sizes.height.tmod c.blockSize = 0))
    (.invalidArgument ("Image width " ++ toString c.sizes.width ++ " and height " ++
      toString c.sizes.height ++ " should be divisible by block_size: " ++
      toString (c.blockSize : Int))) c.sizes
  exact ⟨fun dvd => ⟨c.sizes, decided.1 (decide_eq_true dvd.symm)⟩,
    fun other => decided.2 (decide_eq_false fun dvd => other dvd.symm)⟩

variable {operator : OperatorType}

theorem Validates.iff {first second : Prop} (validates : c.Validates operator first)
    (validates' : c.Validates operator second) : first ↔ second := by
  have exclusive {cond : Prop} (validates : c.Validates operator cond) :
      cond ↔ ∃ sizes, c.initHelper operator = .ok sizes := by
    refine ⟨validates.1, fun ⟨sizes, isOk⟩ => ?_⟩
    by_contra other
    obtain ⟨err, failed⟩ := validates.2 other
    rw [isOk] at failed
    exact nomatch failed
  exact (exclusive validates).trans (exclusive validates').symm

theorem initHelper_eq_ok {sizes : Sizes} (isOk : c.initHelper operator = .ok sizes) :
    sizes = c.sizes := by
  cases operator with
  | depthToSpace =>
    simp only [initHelper_depthToSpace, bind_eq_ok] at isOk
    obtain ⟨_, -, _, -, same⟩ := isOk
    exact (Except.ok.inj same).symm
  | spaceToDepth =>
    simp only [initHelper_spaceToDepth, bind_eq_ok] at isOk
    obtain ⟨_, -, same⟩ := isOk
    exact (Except.ok.inj same).symm

theorem outputShape_eq (ok : ∃ sizes, c.initHelper operator = .ok sizes) :
    c.outputShape operator = spaceDepthShapeHelper operator c.dataFormat c.blockSize c.sizes := by
  obtain ⟨sizes, isOk⟩ := ok
  rw [outputShape, isOk, c.initHelper_eq_ok isOk]
  rfl

theorem shapeFromFormat_eq (batch height width depth : Int) :
    shapeFromFormat c.dataFormat batch height width depth =
      .ok (arrange c.dataFormat batch depth [height, width]) := by
  rcases c.known with isFormat | isFormat
  · rw [isFormat]
    rfl
  · rw [isFormat]
    rfl

theorem arrange_inj {α : Type} {n k y x n' k' y' x' : α} :
    arrange c.dataFormat n k [y, x] = arrange c.dataFormat n' k' [y', x'] ↔
      n = n' ∧ k = k' ∧ y = y' ∧ x = x' := by
  rcases c.known with isFormat | isFormat
  · rw [isFormat]
    change [n, y, x, k] = [n', y', x', k'] ↔ _
    simp only [List.cons.injEq, and_true]
    exact ⟨fun ⟨n, y, x, k⟩ => ⟨n, k, y, x⟩, fun ⟨n, k, y, x⟩ => ⟨n, y, x, k⟩⟩
  · rw [isFormat]
    change [n, k, y, x] = [n', k', y', x'] ↔ _
    simp only [List.cons.injEq, and_true]

theorem map_arrange {α β : Type} (f : α → β) (n k y x : α) :
    (arrange c.dataFormat n k [y, x]).map f = arrange c.dataFormat (f n) (f k) [f y, f x] := by
  rcases c.known with isFormat | isFormat
  · rw [isFormat]
    rfl
  · rw [isFormat]
    rfl

theorem forall_arrange_iff {α : Type} {P : α → Prop} {n k y x : α} :
    (∀ dim ∈ arrange c.dataFormat n k [y, x], P dim) ↔ P n ∧ P k ∧ P y ∧ P x := by
  rcases c.known with isFormat | isFormat
  · rw [isFormat]
    change (∀ dim ∈ [n, y, x, k], P dim) ↔ _
    simp only [forall_mem_cons, not_mem_nil, false_implies, implies_true, and_true]
    exact ⟨fun ⟨n, y, x, k⟩ => ⟨n, k, y, x⟩, fun ⟨n, k, y, x⟩ => ⟨n, y, x, k⟩⟩
  · rw [isFormat]
    change (∀ dim ∈ [n, k, y, x], P dim) ↔ _
    simp only [forall_mem_cons, not_mem_nil, false_implies, implies_true, and_true]

variable {dims : List Int}

theorem unpackedShape_eq_ok :
    spaceDepthShapeHelper .depthToSpace c.dataFormat c.blockSize c.sizes = .ok dims ↔
      ∃ sq height width, product32 c.blockSize c.blockSize = .ok sq ∧
        product32 (toInt32 c.height) c.blockSize = .ok height ∧
        product32 (toInt32 c.width) c.blockSize = .ok width ∧
        dims = arrange c.dataFormat (toInt32 c.batch) ((toInt32 c.depth).tdiv sq)
          [height, width] := by
  simp only [spaceDepthShapeHelper, sizes, bind_eq_ok, c.shapeFromFormat_eq, Except.ok.injEq]
  constructor
  · rintro ⟨sq, isSq, width, isWidth, height, isHeight, same⟩
    exact ⟨sq, height, width, isSq, isHeight, isWidth, same.symm⟩
  · rintro ⟨sq, height, width, isSq, isHeight, isWidth, same⟩
    exact ⟨sq, isSq, width, isWidth, height, isHeight, same.symm⟩

theorem packedShape_eq_ok :
    spaceDepthShapeHelper .spaceToDepth c.dataFormat c.blockSize c.sizes = .ok dims ↔
      ∃ first depth, product32 (toInt32 c.depth) c.blockSize = .ok first ∧
        product32 first c.blockSize = .ok depth ∧
        dims = arrange c.dataFormat (toInt32 c.batch) depth
          [(toInt32 c.height).tdiv c.blockSize, (toInt32 c.width).tdiv c.blockSize] := by
  simp only [spaceDepthShapeHelper, sizes, bind_eq_ok, c.shapeFromFormat_eq, Except.ok.injEq]
  constructor
  · rintro ⟨first, isFirst, depth, isDepth, same⟩
    exact ⟨first, depth, isFirst, isDepth, same.symm⟩
  · rintro ⟨first, depth, isFirst, isDepth, same⟩
    exact ⟨first, isFirst, depth, isDepth, same.symm⟩

section Exact

variable {c}

theorem tdiv_natCast (m n : Nat) : (m : Int).tdiv n = ((m / n : Nat) : Int) := by
  rw [Int.tdiv_eq_ediv_of_nonneg (Int.natCast_nonneg m), Int.natCast_ediv]

theorem blockSize_pos : 0 < c.blockSize := Nat.lt_of_succ_lt c.block.1

theorem outputShape_depthToSpace (square : c.blockSize * c.blockSize < 2 ^ 31)
    (lt : c.depth < 2 ^ 31) (unpacks : c.Unpacks) (fits : ∀ dim ∈ c.unpacked, dim < 2 ^ 31) :
    c.outputShape .depthToSpace = .ok (c.unpacked.map Int.ofNat) := by
  obtain ⟨batch, -, height, width⟩ := c.forall_arrange_iff.mp fits
  have dvd : ((c.blockSize * c.blockSize : Nat) : Int) ∣ toInt32 c.depth := by
    rw [toInt32_natCast.mpr lt]
    exact Int.natCast_dvd_natCast.mpr unpacks
  have smallHeight := (Nat.le_mul_of_pos_right c.height c.blockSize_pos).trans_lt height
  have smallWidth := (Nat.le_mul_of_pos_right c.width c.blockSize_pos).trans_lt width
  rw [c.outputShape_eq ((depthToSpace_validates square).1 dvd), unpackedShape_eq_ok]
  refine ⟨_, ((c.height * c.blockSize : Nat) : Int), ((c.width * c.blockSize : Nat) : Int),
    product32_natCast square, ?_, ?_, ?_⟩
  · rw [toInt32_natCast.mpr smallHeight]
    exact product32_natCast height
  · rw [toInt32_natCast.mpr smallWidth]
    exact product32_natCast width
  · rw [unpacked, map_arrange, toInt32_natCast.mpr batch, toInt32_natCast.mpr lt, tdiv_natCast]
    rfl

theorem outputShape_spaceToDepth (height : c.height < 2 ^ 31) (width : c.width < 2 ^ 31)
    (packs : c.Packs) (fits : ∀ dim ∈ c.packed, dim < 2 ^ 31) :
    c.outputShape .spaceToDepth = .ok (c.packed.map Int.ofNat) := by
  obtain ⟨batch, depth, -, -⟩ := c.forall_arrange_iff.mp fits
  have dvd : (c.blockSize : Int) ∣ toInt32 c.height ∧ (c.blockSize : Int) ∣ toInt32 c.width := by
    rw [toInt32_natCast.mpr height, toInt32_natCast.mpr width]
    exact ⟨Int.natCast_dvd_natCast.mpr packs.1, Int.natCast_dvd_natCast.mpr packs.2⟩
  have smallProduct := (Nat.le_mul_of_pos_right (c.depth * c.blockSize) c.blockSize_pos).trans_lt
    depth
  have smallDepth := (Nat.le_mul_of_pos_right c.depth c.blockSize_pos).trans_lt smallProduct
  rw [c.outputShape_eq (c.spaceToDepth_validates.1 dvd), packedShape_eq_ok]
  refine ⟨((c.depth * c.blockSize : Nat) : Int), _, ?_, product32_natCast depth, ?_⟩
  · rw [toInt32_natCast.mpr smallDepth]
    exact product32_natCast smallProduct
  · rw [packed, map_arrange, toInt32_natCast.mpr batch, toInt32_natCast.mpr height,
      toInt32_natCast.mpr width, tdiv_natCast, tdiv_natCast]
    rfl

theorem lt_of_tdiv {size divisor : Nat} (dvd : divisor ∣ size)
    (dvd' : (divisor : Int) ∣ toInt32 size)
    (same : (toInt32 size).tdiv divisor = ((size / divisor : Nat) : Int)) : size < 2 ^ 31 := by
  obtain ⟨quotient, isProduct⟩ := dvd'
  by_cases zero : divisor = 0
  · subst zero
    rw [Nat.zero_dvd.mp dvd]
    exact Nat.two_pow_pos 31
  · have ne : (divisor : Int) ≠ 0 := Int.natCast_ne_zero.mpr zero
    rw [isProduct, Int.mul_tdiv_cancel_left quotient ne] at same
    refine toInt32_natCast.mp ?_
    rw [isProduct, same, ← Int.natCast_mul, Nat.mul_div_cancel' dvd]

theorem depth_lt (square : c.blockSize * c.blockSize < 2 ^ 31) (unpacks : c.Unpacks)
    (dvd : ((c.blockSize * c.blockSize : Nat) : Int) ∣ toInt32 c.depth)
    (err : c.outputShape .depthToSpace = .ok (c.unpacked.map Int.ofNat)) : c.depth < 2 ^ 31 := by
  rw [c.outputShape_eq ((depthToSpace_validates square).1 dvd), unpackedShape_eq_ok] at err
  obtain ⟨sq, height, width, isSq, -, -, same⟩ := err
  obtain rfl := Except.ok.inj (isSq.symm.trans (product32_natCast square))
  rw [unpacked, map_arrange, arrange_inj] at same
  exact lt_of_tdiv unpacks dvd same.2.1.symm

theorem image_lt (packs : c.Packs)
    (dvd : (c.blockSize : Int) ∣ toInt32 c.height ∧ (c.blockSize : Int) ∣ toInt32 c.width)
    (err : c.outputShape .spaceToDepth = .ok (c.packed.map Int.ofNat)) :
    (c.height < 2 ^ 31 ∧ c.width < 2 ^ 31) ∧ (∀ dim ∈ c.shape, dim < 2 ^ 31) ∧
      ∀ dim ∈ c.packed, dim < 2 ^ 31 := by
  rw [c.outputShape_eq (c.spaceToDepth_validates.1 dvd), packedShape_eq_ok] at err
  obtain ⟨first, depth, -, isDepth, same⟩ := err
  rw [packed, map_arrange, arrange_inj] at same
  obtain ⟨batch, channels, rows, cols⟩ := same
  have height := lt_of_tdiv packs.1 dvd.1 rows.symm
  have width := lt_of_tdiv packs.2 dvd.2 cols.symm
  have smallBatch : c.batch < 2 ^ 31 := toInt32_natCast.mp batch.symm
  have smallDepth : c.depth * c.blockSize * c.blockSize < 2 ^ 31 := by
    obtain ⟨⟨-, below⟩, isProduct⟩ := product32_eq_ok.mp isDepth
    have cast : ((c.depth * c.blockSize * c.blockSize : Nat) : Int) = depth := channels
    omega
  have smallProduct := (Nat.le_mul_of_pos_right (c.depth * c.blockSize) c.blockSize_pos).trans_lt
    smallDepth
  refine ⟨⟨height, width⟩, c.forall_arrange_iff.mpr ⟨smallBatch, ?_, height, width⟩,
    c.forall_arrange_iff.mpr ⟨smallBatch, smallDepth, ?_, ?_⟩⟩
  · exact (Nat.le_mul_of_pos_right c.depth c.blockSize_pos).trans_lt smallProduct
  · exact (Nat.div_le_self _ _).trans_lt height
  · exact (Nat.div_le_self _ _).trans_lt width

variable {operator : OperatorType}

theorem compute_eq {R : Type} [Zero R] {outputShape : TensorShape}
    (reported : c.outputShape operator = .ok (outputShape.map Int.ofNat))
    (helper : BufferTensorSize) (x : List R) :
    compute operator helper c.dataType c.dataFormat c.blockSize c.shape x =
      if NoOpKernel.isNoOpKernel [c.shape] [outputShape] then
        .ok (outputShape, NoOpKernel.zeroed outputShape)
      else (do
        let put ← made (spaceDepthKernel operator helper c.dataType c.dataFormat c.blockSize
          c.shape outputShape x)
        .ok (outputShape, put)) := by
  have nat : ∀ dim ∈ outputShape.map Int.ofNat, 0 ≤ dim := by
    intro dim mem
    obtain ⟨size, -, rfl⟩ := mem_map.mp mem
    exact Int.natCast_nonneg size
  have back : (outputShape.map Int.ofNat).map Int.toNat = outputShape := by
    rw [map_map]
    exact map_id _
  rw [Call.outputShape, bind_eq_ok] at reported
  obtain ⟨sizes, ok, shaped⟩ := reported
  have ok : spaceDepthInitHelper operator c.dataFormat c.blockSize c.shape = .ok sizes := ok
  rw [compute, ok, ok_bind, shaped, ok_bind, allocated, if_pos nat, back, ok_bind]

theorem outputShape_of_compute {R : Type} [Zero R] {outputShape : TensorShape}
    {helper : BufferTensorSize} {x : List R} {put : List (Option R)}
    (eq : compute operator helper c.dataType c.dataFormat c.blockSize c.shape x =
      .ok (outputShape, put)) : c.outputShape operator = .ok (outputShape.map Int.ofNat) := by
  simp only [compute, bind_eq_ok] at eq
  obtain ⟨sizes, ok, dims, shaped, output, isOutput, eq⟩ := eq
  have same : output = outputShape := by
    split at eq
    · exact (Prod.mk.inj (Except.ok.inj eq)).1
    · obtain ⟨_, -, eq⟩ := bind_eq_ok.mp eq
      exact (Prod.mk.inj (Except.ok.inj eq)).1
  rw [allocated] at isOutput
  split at isOutput
  · rename_i nat
    have whole : dims = outputShape.map Int.ofNat := by
      rw [← same, ← Except.ok.inj isOutput, map_map]
      symm
      refine (map_congr_left fun dim mem => ?_).trans (map_id dims)
      exact Int.toNat_of_nonneg (nat dim mem)
    have ok : c.initHelper operator = .ok sizes := ok
    rw [Call.outputShape, ok, ok_bind, shaped, whole]
  · exact nomatch isOutput

end Exact

end Call

open DmlGraph.Expression (Described buffer_stored lastElement_of_addresses ofLayout stored)

section Values

variable {dataFormat : TensorFormat} (known : dataFormat = .nhwc ∨ dataFormat = .nchw)
  {n k y x n' k' y' x' : Nat}

include known

theorem mem_indices_arrange {index : List Nat} :
    index ∈ indices (arrange dataFormat n k [y, x]) ↔ ∃ i < n, ∃ j < k, ∃ p < y, ∃ q < x,
      index = arrange dataFormat i j [p, q] := by
  constructor
  · intro mem
    rcases known with rfl | rfl
    · obtain ⟨i, batch, _, image, rfl⟩ := mem_indices_cons.mp mem
      obtain ⟨p, row, _, line, rfl⟩ := mem_indices_cons.mp image
      obtain ⟨q, column, _, pixel, rfl⟩ := mem_indices_cons.mp line
      obtain ⟨j, channel, _, last, rfl⟩ := mem_indices_cons.mp pixel
      obtain rfl := mem_singleton.mp last
      exact ⟨i, batch, j, channel, p, row, q, column, rfl⟩
    · obtain ⟨i, batch, _, image, rfl⟩ := mem_indices_cons.mp mem
      obtain ⟨j, channel, _, plane, rfl⟩ := mem_indices_cons.mp image
      obtain ⟨p, row, _, line, rfl⟩ := mem_indices_cons.mp plane
      obtain ⟨q, column, _, last, rfl⟩ := mem_indices_cons.mp line
      obtain rfl := mem_singleton.mp last
      exact ⟨i, batch, j, channel, p, row, q, column, rfl⟩
  · rintro ⟨i, batch, j, channel, p, row, q, column, rfl⟩
    refine arrange_mem batch channel (mem_indices_cons.mpr ⟨p, row, [q], ?_, rfl⟩)
    exact mem_indices_cons.mpr ⟨q, column, [], mem_singleton.mpr rfl, rfl⟩

theorem exists_layout (pos : 0 < n ∧ 0 < k ∧ 0 < y ∧ 0 < x)
    (lt : (arrange dataFormat n k [y, x]).prod < 2 ^ 32) :
    ∃ layout, getDmlTensorLayout dataFormat 4 = some layout ∧
      Described (arrange dataFormat n k [y, x]) layout ∧
      Described.sizes layout (arrange dataFormat n k [y, x]) = [n, k, y, x] ∧
      ∀ i j p q, BroadcastView.layoutIndex layout (arrange dataFormat i j [p, q]) = [i, j, p, q] := by
  have sizes : ∀ size ∈ arrange dataFormat n k [y, x], 0 < size :=
    forall_arrange pos.1 pos.2.1 (by simpa using pos.2.2)
  have rank : (arrange dataFormat n k [y, x]).length = 4 := length_arrange _ _ _ _
  rcases known with rfl | rfl
  · refine ⟨[.n, .h, .w, .c], rfl, ?_, rfl, fun i j p q => rfl⟩
    exact ⟨by decide, by decide, rank.symm, by rw [rank]; decide, sizes, lt⟩
  · refine ⟨[.n, .c, .h, .w], rfl, ?_, rfl, fun i j p q => rfl⟩
    exact ⟨by decide, by decide, rank.symm, by rw [rank]; decide, sizes, lt⟩

theorem exists_rearranged {helper : BufferTensorSize} {dataType : DataType}
    (registered : dataType ∈ [DataType.float, .half, .uint8])
    (pos : 0 < n ∧ 0 < k ∧ 0 < y ∧ 0 < x) (positive' : 0 < n' ∧ 0 < k' ∧ 0 < y' ∧ 0 < x')
    (small : (arrange dataFormat n k [y, x]).prod < 2 ^ 32)
    (small' : (arrange dataFormat n' k' [y', x']).prod < 2 ^ 32) (src : List Nat → List Nat)
    (moves : ∀ i < n', ∀ j < k', ∀ p < y', ∀ q < x', ∃ a < n, ∃ b < k, ∃ c < y, ∃ d < x,
      src [i, j, p, q] = [a, b, c, d])
    {R : Type} {values : List R} (length : values.length = (arrange dataFormat n k [y, x]).prod) :
    ∃ layout input output, getDmlTensorLayout dataFormat 4 = some layout ∧
      ofLayout helper dataType (arrange dataFormat n k [y, x]) layout values = some input ∧
      input.sizes = [n, k, y, x] ∧ createLayout helper dataType (arrange dataFormat n' k' [y', x'])
        (arrange dataFormat n' k' [y', x']) layout = some output ∧
      ∃ put : List R, (rearrange input output.desc [n', k', y', x'] src).map
          Expression.buffer = some (put.map some) ∧
        put.length = (arrange dataFormat n' k' [y', x']).prod ∧
        ∀ i < n', ∀ j < k', ∀ p < y', ∀ q < x', ∀ a b c d, src [i, j, p, q] = [a, b, c, d] →
          put[flatten (arrange dataFormat n' k' [y', x']) (arrange dataFormat i j [p, q])]? =
            values[flatten (arrange dataFormat n k [y, x]) (arrange dataFormat a b [c, d])]? := by
  obtain ⟨dmlDataType, isKnown⟩ :
      ∃ dmlDataType, getDmlDataTypeFromTfDataType dataType = some dmlDataType := by
    simp only [mem_cons, not_mem_nil, or_false] at registered
    rcases registered with rfl | rfl | rfl <;> exact ⟨_, rfl⟩
  obtain ⟨layout, isLayout, desc, sizes, places⟩ := exists_layout known pos small
  obtain ⟨layout', isLayout', desc', sizes', -⟩ := exists_layout known positive' small'
  obtain rfl := Option.some.inj (isLayout.symm.trans isLayout')
  obtain ⟨input, isInput, inputSizes, reads⟩ := desc.ofLayout_eq_some helper isKnown values
  obtain ⟨output, out, outputSizes, moved, addresses, strides⟩ := desc'.exists_buffer helper isKnown
  have last := lastElement_of_addresses desc'.prod_pos moved addresses strides
  -- what is read for an index of the output
  have value (index : List Nat) (mem : index ∈ indices (arrange dataFormat n' k' [y', x'])) :
      ∃ r, input.read (src (BroadcastView.layoutIndex layout index)) = some r ∧
        ∀ i j p q a b c d, index = arrange dataFormat i j [p, q] → src [i, j, p, q] = [a, b, c, d] →
          values[flatten (arrange dataFormat n k [y, x]) (arrange dataFormat a b [c, d])]? =
            some r := by
    obtain ⟨i, batch, j, channel, p, row, q, column, rfl⟩ := (mem_indices_arrange known).mp mem
    obtain ⟨a, batch', b, channel', c, row', d, column', moved⟩ :=
      moves i batch j channel p row q column
    have lt := (mem_indices_arrange known).mpr
      ⟨a, batch', b, channel', c, row', d, column', rfl⟩
    have below := flatten_lt lt
    rw [← length] at below
    refine ⟨values[flatten (arrange dataFormat n k [y, x]) (arrange dataFormat a b [c, d])], ?_,
      fun i' j' p' q' a' b' c' d' same moved' => ?_⟩
    · rw [places, moved, ← places, reads _ lt, getElem?_eq_getElem below]
    · have layouts := congrArg (BroadcastView.layoutIndex layout) same
      rw [places, places] at layouts
      rw [← layouts, moved] at moved'
      simp only [List.cons.injEq, and_true] at moved'
      obtain ⟨rfl, rfl, rfl, rfl⟩ := moved'
      exact getElem?_eq_getElem below
  have some_ : Nonempty R := by
    obtain ⟨first, -⟩ := exists_mem_of_length_pos (length ▸ desc.prod_pos)
    exact ⟨first⟩
  choose! put isWritten sources using value
  refine ⟨layout, input, output, isLayout, isInput, inputSizes.trans sizes, out,
    (indices (arrange dataFormat n' k' [y', x'])).map put, ?_, ?_, ?_⟩
  · rw [rearrange, if_pos (outputSizes.trans sizes'), Option.map_some, buffer_stored moved addresses
      last, map_map]
    exact congrArg some (map_congr_left isWritten)
  · rw [length_map, length_indices]
  · intro i batch j channel p row q column a b c d moved
    have mem := (mem_indices_arrange known).mpr ⟨i, batch, j, channel, p, row, q, column, rfl⟩
    have below := flatten_lt mem
    rw [getElem?_map, getElem?_flatten mem, Option.map_some]
    exact (sources _ mem i j p q a b c d rfl moved).symm

end Values

variable {blockSize depth height width j p q : Nat}

theorem depthSource_lt (some_ : 0 < blockSize) (dvd : blockSize ∣ height ∧ blockSize ∣ width)
    (channel : j < depth) (row : p < height) (column : q < width) :
    (p % blockSize * blockSize + q % blockSize) * depth + j < depth * blockSize * blockSize ∧
      p / blockSize < height / blockSize ∧ q / blockSize < width / blockSize := by
  have place : p % blockSize * blockSize + q % blockSize + 1 ≤ blockSize * blockSize := by
    have first := Nat.mul_le_mul_right blockSize (Nat.mod_lt p some_)
    have snd := Nat.mod_lt q some_
    rw [Nat.succ_mul] at first
    omega
  refine ⟨?_, Nat.div_lt_div_of_lt_of_dvd dvd.1 row, Nat.div_lt_div_of_lt_of_dvd dvd.2 column⟩
  have whole := Nat.mul_le_mul_right depth place
  rw [Nat.succ_mul] at whole
  rw [mul_assoc, mul_comm depth]
  omega

theorem spaceSource_lt (some_ : 0 < blockSize) (dvd : blockSize ∣ height ∧ blockSize ∣ width)
    (channel : j < depth * blockSize * blockSize) (row : p < height / blockSize)
    (column : q < width / blockSize) :
    j % depth < depth ∧ p * blockSize + j / depth / blockSize < height ∧
      q * blockSize + j / depth % blockSize < width := by
  have deep : 0 < depth := Nat.pos_of_ne_zero fun zero => by simp [zero] at channel
  have block : j / depth / blockSize < blockSize := by
    rw [Nat.div_div_eq_div_mul, Nat.div_lt_iff_lt_mul (mul_pos deep some_), mul_comm]
    exact channel
  have rows := Nat.mul_le_mul_right blockSize row
  have cols := Nat.mul_le_mul_right blockSize column
  rw [Nat.succ_mul, Nat.div_mul_cancel dvd.1] at rows
  rw [Nat.succ_mul, Nat.div_mul_cancel dvd.2] at cols
  have lt := Nat.mod_lt (j / depth) some_
  exact ⟨Nat.mod_lt j deep, by omega, by omega⟩

theorem spaceSource_depthSource {i : Nat} (some_ : 0 < blockSize) (channel : j < depth) :
    spaceSource blockSize depth (depthSource blockSize depth [i, j, p, q]) = [i, j, p, q] := by
  have deep : 0 < depth := Nat.zero_lt_of_lt channel
  have inner : ((p % blockSize * blockSize + q % blockSize) * depth + j) / depth =
      p % blockSize * blockSize + q % blockSize := by
    rw [mul_comm, Nat.mul_add_div deep, Nat.div_eq_of_lt channel, add_zero]
  have row : (p % blockSize * blockSize + q % blockSize) / blockSize = p % blockSize := by
    rw [mul_comm, Nat.mul_add_div some_, Nat.div_eq_of_lt (Nat.mod_lt q some_), add_zero]
  have column : (p % blockSize * blockSize + q % blockSize) % blockSize = q % blockSize := by
    rw [mul_comm, Nat.mul_add_mod, Nat.mod_mod]
  have last : ((p % blockSize * blockSize + q % blockSize) * depth + j) % depth = j := by
    rw [mul_comm, Nat.mul_add_mod, Nat.mod_eq_of_lt channel]
  rw [depthSource, spaceSource, inner, row, column, last, mul_comm, Nat.div_add_mod,
    mul_comm, Nat.div_add_mod]

namespace Call

variable {c : Call}

theorem prod_packed (packs : c.Packs) : c.packed.prod = c.shape.prod := by
  obtain ⟨⟨rows, height⟩, cols, width⟩ := packs
  rw [packed, shape, prod_arrange, prod_arrange, height, width,
    Nat.mul_div_cancel_left _ blockSize_pos, Nat.mul_div_cancel_left _ blockSize_pos]
  simp only [prod_cons, prod_nil]
  ring

theorem positive_of_prod (some_ : 0 < c.shape.prod) :
    0 < c.batch ∧ 0 < c.depth ∧ 0 < c.height ∧ 0 < c.width := by
  rw [shape, prod_arrange, prod_cons, prod_cons, prod_nil, mul_one] at some_
  have image := Nat.pos_of_mul_pos_left some_
  have planes := Nat.pos_of_mul_pos_right some_
  exact ⟨Nat.pos_of_mul_pos_right planes, Nat.pos_of_mul_pos_left planes,
    Nat.pos_of_mul_pos_right image, Nat.pos_of_mul_pos_left image⟩

theorem positive_packed (packs : c.Packs) (some_ : 0 < c.shape.prod) :
    0 < c.batch ∧ 0 < c.depth * c.blockSize * c.blockSize ∧ 0 < c.height / c.blockSize ∧
      0 < c.width / c.blockSize := by
  obtain ⟨batch, depth, height, width⟩ := positive_of_prod some_
  have block := c.blockSize_pos
  exact ⟨batch, mul_pos (mul_pos depth block) block,
    Nat.div_pos (Nat.le_of_dvd height packs.1) block,
    Nat.div_pos (Nat.le_of_dvd width packs.2) block⟩

section Kernels

variable {helper : BufferTensorSize} {R : Type} {values : List R}

theorem exists_packed (packs : c.Packs) (some_ : 0 < c.shape.prod) (small : c.shape.prod < 2 ^ 32)
    (length : values.length = c.shape.prod) :
    ∃ put : List R, spaceDepthKernel .spaceToDepth helper c.dataType c.dataFormat c.blockSize
        c.shape c.packed values = some (put.map some) ∧ put.length = c.packed.prod ∧
      ∀ i < c.batch, ∀ j < c.depth * c.blockSize * c.blockSize, ∀ p < c.height / c.blockSize,
        ∀ q < c.width / c.blockSize, ∀ a b y x,
        spaceSource c.blockSize c.depth [i, j, p, q] = [a, b, y, x] →
          put[flatten c.packed (arrange c.dataFormat i j [p, q])]? =
            values[flatten c.shape (arrange c.dataFormat a b [y, x])]? := by
  obtain ⟨layout, input, output, isLayout, isInput, sizes, out, put, isWritten, whole,
    sources⟩ := exists_rearranged c.known c.registered (positive_of_prod some_)
      (positive_packed packs some_) small ((prod_packed packs).trans_lt small)
      (spaceSource c.blockSize c.depth)
      (fun i batch j channel p row q column => by
        obtain ⟨lt, top, left⟩ := spaceSource_lt c.blockSize_pos packs channel row column
        exact ⟨i, batch, _, lt, _, top, _, left, rfl⟩) length
  refine ⟨put, ?_, whole, sources⟩
  have rank : c.shape.length = 4 := length_arrange _ _ _ _
  have isInput : ofLayout helper c.dataType c.shape layout values = some input := isInput
  have out : createLayout helper c.dataType c.packed c.packed layout = some output := out
  have dvd : c.blockSize ∣ c.height ∧ c.blockSize ∣ c.width := packs
  obtain ⟨result, made, buffer⟩ := Option.map_eq_some_iff.mp isWritten
  simp only [spaceDepthKernel, rank, isLayout, isInput, out, Option.bind_eq_bind,
    Option.bind_some, spaceToDepth, sizes]
  rw [if_pos dvd, made, Option.bind_some, buffer]
  rfl

theorem exists_restored (packs : c.Packs) (some_ : 0 < c.shape.prod) (small : c.shape.prod < 2 ^ 32)
    (length : values.length = c.packed.prod) :
    ∃ put : List R, spaceDepthKernel .depthToSpace helper c.dataType c.dataFormat c.blockSize
        c.packed c.shape values = some (put.map some) ∧ put.length = c.shape.prod ∧
      ∀ i < c.batch, ∀ j < c.depth, ∀ p < c.height, ∀ q < c.width, ∀ a b y x,
        depthSource c.blockSize c.depth [i, j, p, q] = [a, b, y, x] →
          put[flatten c.shape (arrange c.dataFormat i j [p, q])]? =
            values[flatten c.packed (arrange c.dataFormat a b [y, x])]? := by
  obtain ⟨layout, input, output, isLayout, isInput, sizes, out, put, isWritten, whole,
    sources⟩ := exists_rearranged c.known c.registered
      (positive_packed packs some_) (positive_of_prod some_)
      ((prod_packed packs).trans_lt small) small (depthSource c.blockSize c.depth)
      (fun i batch j channel p row q column => by
        obtain ⟨lt, top, left⟩ := depthSource_lt c.blockSize_pos packs channel row column
        exact ⟨i, batch, _, lt, _, top, _, left, rfl⟩) length
  refine ⟨put, ?_, whole, sources⟩
  have rank : c.packed.length = 4 := length_arrange _ _ _ _
  have isInput : ofLayout helper c.dataType c.packed layout values = some input := isInput
  have out : createLayout helper c.dataType c.shape c.shape layout = some output := out
  have dvd : c.blockSize * c.blockSize ∣ c.depth * c.blockSize * c.blockSize := by
    rw [mul_assoc]
    exact Nat.dvd_mul_left _ _
  have square : 0 < c.blockSize * c.blockSize := mul_pos c.blockSize_pos c.blockSize_pos
  have depth : c.depth * c.blockSize * c.blockSize / (c.blockSize * c.blockSize) = c.depth := by
    rw [mul_assoc, Nat.mul_div_cancel _ square]
  obtain ⟨result, made, buffer⟩ := Option.map_eq_some_iff.mp isWritten
  simp only [spaceDepthKernel, rank, isLayout, isInput, out, Option.bind_eq_bind,
    Option.bind_some, depthToSpace, sizes]
  rw [if_pos dvd, depth, Nat.div_mul_cancel packs.1, Nat.div_mul_cancel packs.2, made,
    Option.bind_some, buffer]
  rfl

variable (helper) in
theorem exists_roundTrip (packs : c.Packs) (some_ : 0 < c.shape.prod)
    (small : c.shape.prod < 2 ^ 32) (length : values.length = c.shape.prod) : ∃ middle : List R,
      spaceDepthKernel .spaceToDepth helper c.dataType c.dataFormat c.blockSize c.shape c.packed
        values = some (middle.map some) ∧
      spaceDepthKernel .depthToSpace helper c.dataType c.dataFormat c.blockSize c.packed c.shape
        middle = some (values.map some) := by
  obtain ⟨middle, packed, middleLength, forth⟩ := exists_packed packs some_ small length
  obtain ⟨put, restored, writtenLength, back⟩ := exists_restored packs some_ small middleLength
  refine ⟨middle, packed, ?_⟩
  suffices same : put = values by rw [restored, same]
  refine ext_getElem? fun position => ?_
  by_cases lt : position < (indices c.shape).length
  · obtain ⟨i, batch, j, channel, p, row, q, column, isIndex⟩ :=
      (mem_indices_arrange c.known).mp (getElem_mem lt)
    obtain ⟨channel', row', column'⟩ := depthSource_lt c.blockSize_pos packs channel row column
    have place := flatten_getElem_indices lt
    have isIndex : (indices c.shape)[position] = arrange c.dataFormat i j [p, q] := isIndex
    rw [isIndex] at place
    rw [← place, back i batch j channel p row q column _ _ _ _ rfl]
    exact forth i batch _ channel' _ row' _ column' i j p q
      (spaceSource_depthSource c.blockSize_pos channel)
  · rw [length_indices] at lt
    rw [getElem?_eq_none (by omega), getElem?_eq_none (by omega)]

end Kernels

def repacked (c : Call) : Call where
  dataType := c.dataType
  registered := c.registered
  dataFormat := c.dataFormat
  known := c.known
  blockSize := c.blockSize
  block := c.block
  batch := c.batch
  depth := c.depth * c.blockSize * c.blockSize
  height := c.height / c.blockSize
  width := c.width / c.blockSize

theorem unpacked_repacked (packs : c.Packs) : c.repacked.unpacked = c.shape := by
  have square : 0 < c.blockSize * c.blockSize := mul_pos c.blockSize_pos c.blockSize_pos
  rw [unpacked, repacked]
  dsimp only
  rw [mul_assoc c.depth, Nat.mul_div_cancel _ square, Nat.div_mul_cancel packs.1,
    Nat.div_mul_cancel packs.2]
  rfl

theorem restores_of_lt (helper : BufferTensorSize)
    (square : c.blockSize * c.blockSize < 2 ^ 31) (packs : c.Packs)
    (lt : c.shape.prod < 2 ^ 32) (shape : ∀ dim ∈ c.shape, dim < 2 ^ 31)
    (packed : ∀ dim ∈ c.packed, dim < 2 ^ 31) {R : Type} [Zero R] {x : List R}
    (length : x.length = c.shape.prod) : ∃ y,
      compute .spaceToDepth helper c.dataType c.dataFormat c.blockSize c.shape x =
        .ok (c.packed, y.map some) ∧
      compute .depthToSpace helper c.dataType c.dataFormat c.blockSize c.packed y =
        .ok (c.shape, x.map some) := by
  obtain ⟨-, depth, -, -⟩ := c.forall_arrange_iff.mp packed
  obtain ⟨-, -, height, width⟩ := c.forall_arrange_iff.mp shape
  have forth := compute_eq (outputShape_spaceToDepth height width packs packed) helper x
  have unpacks : c.repacked.Unpacks := by
    rw [Unpacks, repacked, mul_assoc]
    exact Nat.dvd_mul_left _ _
  have err := outputShape_depthToSpace (c := c.repacked) square depth unpacks
    (by rwa [unpacked_repacked packs])
  rw [unpacked_repacked packs] at err
  have back (y : List R) := compute_eq err helper y
  have skipped : NoOpKernel.isNoOpKernel [c.shape] [c.packed] = true ↔ c.shape.prod = 0 := by
    rw [NoOpKernel.isNoOpKernel_iff]
    simp only [mem_singleton, exists_eq_left, TensorShape.numElements, prod_packed packs, or_self]
  have skipped' : NoOpKernel.isNoOpKernel [c.packed] [c.shape] = true ↔ c.shape.prod = 0 := by
    rw [NoOpKernel.isNoOpKernel_iff]
    simp only [mem_singleton, exists_eq_left, TensorShape.numElements, prod_packed packs, or_self]
  by_cases empty : c.shape.prod = 0
  · obtain rfl := length_eq_zero_iff.mp (length.trans empty)
    refine ⟨[], ?_, ?_⟩
    · rw [forth, if_pos (skipped.mpr empty),
        NoOpKernel.zeroed_of_empty ((prod_packed packs).trans empty)]
      rfl
    · refine (back []).trans ?_
      have skip : NoOpKernel.isNoOpKernel [c.repacked.shape] [c.shape] = true := skipped'.mpr empty
      rw [if_pos skip, NoOpKernel.zeroed_of_empty empty]
      rfl
  · obtain ⟨y, packed_, restored⟩ :=
      exists_roundTrip helper packs (Nat.pos_of_ne_zero empty) lt length
    refine ⟨y, ?_, ?_⟩
    · rw [forth, if_neg (mt skipped.mp empty), packed_]
      rfl
    · refine (back y).trans ?_
      have runs : ¬ NoOpKernel.isNoOpKernel [c.repacked.shape] [c.shape] = true :=
        mt skipped'.mp empty
      have restored : spaceDepthKernel .depthToSpace helper c.repacked.dataType
          c.repacked.dataFormat c.repacked.blockSize c.repacked.shape c.shape y =
          some (x.map some) := restored
      rw [if_neg runs, restored]
      rfl

variable (c)

/-- An image without channels and a block size of 2^16. -/
def large : Call := ⟨.float, by decide, .nhwc, .inl rfl, 65536, by decide, 1, 0, 1, 1⟩

end Call

end SpaceDepth

end TfDml
