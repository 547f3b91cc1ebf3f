import TfDml.Kernels.BiasAdd
import TfDml.Lib.FloatWidening

/-! # `ClipByValue`

The bounds come as tensors in host memory. The kernel reads one lower and one upper bound for all
elements, of 64-bit integers as such and of every other type as `float`.
-/

namespace TfDml.ClipByValue

open Lib DmlGraph Option
open List hiding flatten
open BiasAdd (made)
open DmlTensorDesc (Addressed BufferTensorSize Describable address address_leading addressed_or_short
  createShape create_self_eq_some isGreatest_lastElement kNchwDimensionCount lastElement
  length_packedStrides map_createSpan narrowTensorShape_eq_some packedStrides)

/-- A number of a tensor: a finite one, or an infinity. -/
abbrev Number := WithBot (WithTop ℚ)

def finite (x : ℚ) : Number := ((x : WithTop ℚ) : Number)

inductive ElementType where
  | half | int8 | int16 | int64 | uint8 | uint16 | float
  deriving DecidableEq

namespace ElementType

def dataType : ElementType → DataType
  | .half => .half | .int8 => .int8 | .int16 => .int16 | .int64 => .int64
  | .uint8 => .uint8 | .uint16 => .uint16 | .float => .float

def size : ElementType → Nat
  | .int8 | .uint8 => 1
  | .half | .int16 | .uint16 => 2
  | .float => 4
  | .int64 => 8

/-- The number that bits of a format stand for, unless they are a NaN. -/
def ofBits (format : FloatFormat) (n : Nat) : Option Number :=
  match FloatFormat.value (BitVec.ofNat _ n : format.Bits) with
  | .nan => none
  | .infinity true => some ⊥
  | .infinity false => some ((⊤ : WithTop ℚ) : Number)
  -- the smallest subnormal number is the unit
  | .finite units => some (finite (units / 2 ^ (format.bias + format.fractionBits - 1)))

/-- The number that the bytes of an element stand for, unless it is a NaN. -/
def number (dtype : ElementType) (bytes : List UInt8) : Option Number :=
  let n := Optimizer.littleEndian bytes
  match dtype with
  | .half => ofBits .binary16 n
  | .float => ofBits .binary32 n
  | .int8 | .int16 | .int64 => some (finite ((n : Int).bmod (2 ^ (8 * dtype.size)) : Int))
  | .uint8 | .uint16 => some (finite n)

end ElementType

/-- A tensor in host memory with bounds: one for all elements, or one for each. -/
structure Bounds (dtype : ElementType) (shape : TensorShape) where
  isScalar : Bool
  data : List UInt8
  length : data.length = (if isScalar then 1 else shape.numElements) * dtype.size

/-- The bound of an element, unless it is a NaN. -/
def Bounds.numberAt {dtype : ElementType} {shape : TensorShape} (bounds : Bounds dtype shape)
    (i : Nat) : Option Number :=
  let index := if bounds.isScalar then 0 else i
  dtype.number ((bounds.data.drop (index * dtype.size)).take dtype.size)

def boundType : ElementType → ElementType
  | .int64 => .int64
  | _ => .float

/-- `base<T>()[0]` -/
def readFirst (dtype : ElementType) (data : List UInt8) : Except Stop (Option Number) :=
  if dtype.size ≤ data.length then .ok (dtype.number (data.take dtype.size))
  else .error .outOfRange

/-- What the graph makes of a number: `dml::Min` of `dml::Max`, or `dml::Clip`. -/
def clamp (dtype : ElementType) (lo hi x : Number) : Number :=
  if dtype = .int64 then min (max x lo) hi else max lo (min hi x)

/-- The graph. What becomes of a NaN, and of a number between bounds of which one is a NaN, is not
    known. -/
def clip (dtype : ElementType) (lo hi : Option Number) (x : Expression Number) :
    Expression Number :=
  Expression.ofIndices x.sizes fun index => do return clamp dtype (← lo) (← hi) (← x.read index)

structure Call where
  dtype : ElementType
  shape : TensorShape
  clipMin : Bounds dtype shape
  clipMax : Bounds dtype shape

namespace Call

variable (c : Call) (helper : BufferTensorSize)

def boundShape (isScalar : Bool) : TensorShape := if isScalar then [] else c.shape

def isNoOp : Bool :=
  NoOpKernel.isNoOpKernel
    [c.shape, c.boundShape c.clipMin.isScalar, c.boundShape c.clipMax.isScalar] [c.shape]

/-- `DmlClipByValueKernel`, on the bytes of the elements. -/
def clipByValueKernel (x : List (List UInt8)) : Except Stop (List (Option Number)) := do
  let input ← made (createShape helper c.dtype.dataType c.shape c.shape)
  let output ← made (createShape helper c.dtype.dataType c.shape c.shape)
  let minBound ← readFirst (boundType c.dtype) c.clipMin.data
  let maxBound ← readFirst (boundType c.dtype) c.clipMax.data
  let operand : Expression Number :=
    ⟨input.desc.sizes, some input.desc.strides, x.map c.dtype.number⟩
  let result := clip c.dtype minBound maxBound operand
  .ok (Expression.stored output.desc result.read).buffer

def compute (x : List (List UInt8)) : Except Stop (List (Option Number)) :=
  if c.isNoOp then .ok (NoOpKernel.zeroed c.shape) else c.clipByValueKernel helper x

/-- The elements of the input, each with the bytes of its type. -/
def Elements (x : List (List UInt8)) : Prop :=
  x.length = c.shape.numElements ∧ ∀ element ∈ x, element.length = c.dtype.size

/-- The element is clamped between its own bounds, as far as they are numbers. -/
def ClampedAt (x : List (List UInt8)) (out : List (Option Number)) (i : Nat) : Prop :=
  ∀ value lo hi, c.dtype.number (x.getD i []) = some value → c.clipMin.numberAt i = some lo →
    c.clipMax.numberAt i = some hi → out[i]? = some (some (min (max value lo) hi))

/-- The bounds are read as elements of their own type, and every input is clamped. -/
def Clips : Prop :=
  (c.isNoOp = false → boundType c.dtype = c.dtype) ∧
    ∀ x, c.Elements x → ∃ out, c.compute helper x = .ok out ∧
      out.length = c.shape.numElements ∧ ∀ i < c.shape.numElements, c.ClampedAt x out i

def SameClamp (lo hi lo' hi' : Number) : Prop :=
  lo = lo' ∧ hi = hi' ∨ hi = hi' ∧ hi ≤ lo ∧ hi' ≤ lo'

/-- The first bounds do for all elements. With `dml::Clip`, they are in order. -/
def FirstBounds : Prop :=
  ∀ i < c.shape.numElements, ∀ lo hi, c.clipMin.numberAt i = some lo →
    c.clipMax.numberAt i = some hi → ∃ first last, c.clipMin.numberAt 0 = some first ∧
      c.clipMax.numberAt 0 = some last ∧ (c.dtype = .float → first ≤ last) ∧
      SameClamp first last lo hi

end Call

section Descriptors

variable {shape : TensorShape} {dataType : DataType} {dmlDataType : DmlDataType}
  (helper : BufferTensorSize)

def selfDesc (shape : TensorShape) : DmlTensorDesc :=
  ⟨List.replicate (kNchwDimensionCount - shape.length) 1 ++ shape,
    List.replicate (kNchwDimensionCount - shape.length) 0 ++ packedStrides shape⟩

theorem createShape_self (known : getDmlDataTypeFromTfDataType dataType = some dmlDataType)
    (describable : Describable shape) :
    ∃ buffer, createShape helper dataType shape shape = some buffer ∧
      buffer.desc = selfDesc shape := by
  have narrowed := narrowTensorShape_eq_some.mpr ⟨describable.dims, rfl⟩
  have new := map_createSpan helper known describable.dims describable.dims
  rw [create_self_eq_some.mpr ⟨describable, rfl⟩, map_eq_some_iff] at new
  obtain ⟨buffer, isSome, desc⟩ := new
  refine ⟨buffer, ?_, desc⟩
  rw [createShape, narrowed]
  exact isSome

theorem describable_of_createShape
    (known : getDmlDataTypeFromTfDataType dataType = some dmlDataType)
    {buffer : DmlTensorDesc.Buffer}
    (new : createShape helper dataType shape shape = some buffer) :
    Describable shape ∧ buffer.desc = selfDesc shape := by
  simp only [createShape, bind_eq_bind, bind_eq_some_iff, narrowTensorShape_eq_some] at new
  obtain ⟨_, ⟨lt, rfl⟩, _, ⟨-, rfl⟩, new⟩ := new
  have made := map_createSpan helper known lt lt
  rw [new, map_some] at made
  exact create_self_eq_some.mp made.symm

theorem lastElement_leading (count : Nat) (sizes strides : List Nat) :
    lastElement (List.replicate count 1 ++ sizes) (List.replicate count 0 ++ strides) =
      lastElement sizes strides := by
  induction count with
  | zero => rfl
  | succ count ih =>
    rw [replicate_succ, replicate_succ, cons_append, cons_append,
      DmlTensorDesc.lastElement_cons, ih, mul_zero, zero_add]

theorem positive_of_numElements (some_ : 0 < shape.numElements) : ∀ size ∈ shape, 0 < size :=
  fun _ mem => Nat.pos_of_ne_zero fun zero =>
    some_.ne' (prod_eq_zero_iff.mpr (zero ▸ mem))

theorem lastElement_selfDesc (some_ : 0 < shape.numElements) :
    lastElement (selfDesc shape).sizes (selfDesc shape).strides + 1 = shape.prod ↔
      Addressed shape := by
  rw [selfDesc, lastElement_leading]
  have pos := positive_of_numElements some_
  obtain ⟨⟨index, mem, last⟩, greatest⟩ := isGreatest_lastElement (length_packedStrides shape) pos
  constructor
  · intro whole
    refine (addressed_or_short shape).resolve_right fun short => ?_
    have below := short index mem
    omega
  · intro addr
    have lt : shape.prod - 1 < (indices shape).length := by
      rw [length_indices]
      exact Nat.sub_lt some_ one_pos
    have final := greatest ⟨_, getElem_mem lt, rfl⟩
    rw [addr _ (getElem_mem lt), flatten_getElem_indices lt] at final
    have below := flatten_lt mem
    rw [← addr index mem, last] at below
    have some_ : 0 < shape.prod := some_
    omega

theorem buffer_stored_selfDesc {α : Type} (some_ : 0 < shape.numElements)
    (addr : Addressed shape) (f : List Nat → Option α) :
    (Expression.stored (selfDesc shape) f).buffer =
      (indices shape).map fun index => f (BroadcastView.leadingIndex true index) := by
  refine Expression.buffer_stored (fun index' => ?_) (fun index mem => ?_)
    ((lastElement_selfDesc some_).mpr addr) f
  · rw [selfDesc, indices_leading, List.mem_map]
    refine exists_congr fun index => and_congr_right fun mem => ?_
    rw [BroadcastView.leadingIndex, length_of_mem_indices mem]
    rfl
  · rw [selfDesc, BroadcastView.leadingIndex, length_of_mem_indices mem]
    exact (address_leading _ _ _).trans (addr index mem)

end Descriptors

theorem known_dataType (dtype : ElementType) :
    ∃ dmlDataType, getDmlDataTypeFromTfDataType dtype.dataType = some dmlDataType := by
  cases dtype <;> exact ⟨_, rfl⟩

theorem boundType_eq_self {dtype : ElementType} :
    boundType dtype = dtype ↔ dtype = .float ∨ dtype = .int64 := by
  cases dtype <;> decide

section Order

variable {lo hi lo' hi' : Number} {dtype : ElementType}

theorem clamp_eq (lt : dtype ≠ .int64 → lo ≤ hi) (x : Number) :
    clamp dtype lo hi x = min (max x lo) hi := by
  rw [clamp]
  split
  · rfl
  · rename_i other
    rw [max_min_distrib_left, max_eq_right (lt other), max_comm lo x, min_comm]

theorem clamp_of_sameClamp (same : Call.SameClamp lo hi lo' hi') (x : Number) :
    min (max x lo) hi = min (max x lo') hi' := by
  rcases same with ⟨rfl, rfl⟩ | ⟨rfl, low, low'⟩
  · rfl
  · rw [min_eq_right (low.trans (le_max_right x lo)), min_eq_right (low'.trans (le_max_right x lo'))]

theorem sameClamp_of_eq
    (same : ∀ x, x = lo ∨ x = hi ∨ x = lo' ∨ x = hi' → min (max x lo) hi = min (max x lo') hi') :
    Call.SameClamp lo hi lo' hi' := by
  have atLo := same lo (.inl rfl)
  have atHi := same hi (.inr (.inl rfl))
  have atLo' := same lo' (.inr (.inr (.inl rfl)))
  have atHi' := same hi' (.inr (.inr (.inr rfl)))
  rcases le_total lo hi with lt | reversed
  · rcases le_total lo' hi' with lt' | reversed'
    · rw [max_self, min_eq_left lt] at atLo
      rw [max_eq_left lt, min_self] at atHi
      rw [max_self, min_eq_left lt'] at atLo'
      rw [max_eq_left lt', min_self] at atHi'
      have lowest : lo' ≤ lo := atLo ▸ le_min (le_max_right _ _) lt'
      have lowest' : lo ≤ lo' := atLo' ▸ le_min (le_max_right _ _) lt
      have highest : hi ≤ hi' := atHi ▸ min_le_right _ _
      have highest' : hi' ≤ hi := atHi' ▸ min_le_right _ _
      exact .inl ⟨lowest'.antisymm lowest, highest.antisymm highest'⟩
    · rw [max_self, min_eq_left lt, min_eq_right (reversed'.trans (le_max_right lo lo'))] at atLo
      rw [max_eq_left lt, min_self, min_eq_right (reversed'.trans (le_max_right hi lo'))] at atHi
      exact .inr ⟨atHi, (atHi.trans atLo.symm).le, reversed'⟩
  · rcases le_total lo' hi' with lt' | reversed'
    · rw [max_self, min_eq_left lt', min_eq_right (reversed.trans (le_max_right lo' lo))] at atLo'
      rw [max_eq_left lt', min_self, min_eq_right (reversed.trans (le_max_right hi' lo))] at atHi'
      exact .inr ⟨atHi', reversed, (atHi'.symm.trans atLo').le⟩
    · rw [min_eq_right (reversed.trans (le_max_right lo lo)),
        min_eq_right (reversed'.trans (le_max_right lo lo'))] at atLo
      exact .inr ⟨atLo, reversed, reversed'⟩

end Order

section Bytes

variable {dtype : ElementType} {shape : TensorShape} (bounds : Bounds dtype shape)

theorem readFirst_eq (some_ : 0 < shape.numElements) :
    readFirst dtype bounds.data = .ok (bounds.numberAt 0) := by
  have count : 1 ≤ if bounds.isScalar then 1 else shape.numElements := by
    split
    · exact le_refl 1
    · exact some_
  have whole := Nat.mul_le_mul_right dtype.size count
  rw [← bounds.length, one_mul] at whole
  rw [readFirst, if_pos whole, Bounds.numberAt, ite_self, zero_mul, drop_zero]

theorem exists_bytes {i : Nat} (lt : i < shape.numElements) {value : Number}
    (isNumber : bounds.numberAt i = some value) :
    ∃ bytes, bytes.length = dtype.size ∧ dtype.number bytes = some value := by
  refine ⟨_, ?_, isNumber⟩
  have below : (if bounds.isScalar then 0 else i) + 1 ≤
      if bounds.isScalar then 1 else shape.numElements := by
    split
    · exact le_refl 1
    · exact lt
  have whole := Nat.mul_le_mul_right dtype.size below
  rw [← bounds.length, Nat.succ_mul] at whole
  rw [length_take, length_drop]
  omega

end Bytes

namespace Call

variable (c : Call) (helper : BufferTensorSize)

theorem isNoOp_iff : c.isNoOp = true ↔ c.shape.numElements = 0 := by
  have bound (isScalar : Bool) : (c.boundShape isScalar).numElements = 0 →
      c.shape.numElements = 0 := by
    cases isScalar with
    | true => exact fun empty => absurd empty Nat.one_ne_zero
    | false => exact id
  rw [isNoOp, NoOpKernel.isNoOpKernel_iff]
  simp only [mem_cons, not_mem_nil, or_false, exists_eq_or_imp, exists_eq_left]
  constructor
  · rintro ((input | lower | upper) | output)
    · exact input
    · exact bound _ lower
    · exact bound _ upper
    · exact output
  · exact .inr

def clamped (x : List (List UInt8)) (i : Nat) : Option Number := do
  return clamp c.dtype (← c.clipMin.numberAt 0) (← c.clipMax.numberAt 0)
    (← c.dtype.number (x.getD i []))

variable {c}

variable {x : List (List UInt8)}

theorem describable_of_compute (some_ : 0 < c.shape.numElements) {out : List (Option Number)}
    (eq : c.compute helper x = .ok out) (length : out.length = c.shape.numElements) :
    Describable c.shape ∧ Addressed c.shape := by
  obtain ⟨dmlDataType, known⟩ := known_dataType c.dtype
  rw [compute, if_neg (mt c.isNoOp_iff.mp some_.ne'), clipByValueKernel] at eq
  cases new : createShape helper c.dtype.dataType c.shape c.shape with
  | none => rw [new] at eq; exact nomatch eq
  | some buffer =>
    obtain ⟨describable, desc⟩ := describable_of_createShape helper known new
    refine ⟨describable, ?_⟩
    simp only [new, made, bind, Except.bind] at eq
    cases lower : readFirst (boundType c.dtype) c.clipMin.data with
    | error stop => rw [lower] at eq; exact nomatch eq
    | ok lo =>
      cases upper : readFirst (boundType c.dtype) c.clipMax.data with
      | error stop => rw [lower, upper] at eq; exact nomatch eq
      | ok hi =>
        rw [lower, upper] at eq
        simp only [Except.ok.injEq] at eq
        rw [← eq, desc, Expression.stored, length_map, length_range] at length
        exact (lastElement_selfDesc some_).mp length

theorem compute_eq (some_ : 0 < c.shape.numElements) (own : boundType c.dtype = c.dtype)
    (describable : Describable c.shape) (addr : Addressed c.shape) (elements : c.Elements x) :
    c.compute helper x = .ok ((List.range c.shape.numElements).map (c.clamped x)) := by
  obtain ⟨dmlDataType, known⟩ := known_dataType c.dtype
  obtain ⟨buffer, created, desc⟩ := createShape_self helper known describable
  rw [compute, if_neg (mt c.isNoOp_iff.mp some_.ne'), clipByValueKernel, own,
    readFirst_eq c.clipMin some_, readFirst_eq c.clipMax some_]
  simp only [created, made, bind, Except.bind, desc]
  rw [buffer_stored_selfDesc some_ addr, TensorShape.numElements, ← map_flatten_indices,
    List.map_map]
  refine congrArg Except.ok (map_congr_left fun index mem => ?_)
  have inside : flatten c.shape index < x.length := by
    rw [elements.1]
    exact flatten_lt mem
  have place : address (selfDesc c.shape).strides (BroadcastView.leadingIndex true index) =
      flatten c.shape index := by
    rw [selfDesc, BroadcastView.leadingIndex, length_of_mem_indices mem]
    exact (address_leading _ _ _).trans (addr index mem)
  have operand : (⟨(selfDesc c.shape).sizes, some (selfDesc c.shape).strides,
      x.map c.dtype.number⟩ : Expression Number).read (BroadcastView.leadingIndex true index) =
        c.dtype.number (x.getD (flatten c.shape index) []) := by
    rw [Expression.read, Expression.place]
    dsimp only
    rw [place, getElem?_map, getElem?_eq_getElem inside, getD_eq_getElem _ _ inside]
    rfl
  have lt : BroadcastView.leadingIndex true index ∈ indices (selfDesc c.shape).sizes :=
    Expression.leadingIndex_mem mem
  rw [clip, Expression.read_ofIndices lt, operand]
  rfl

variable {bytes : List UInt8}

theorem elements_replicate (length : bytes.length = c.dtype.size) :
    c.Elements (List.replicate c.shape.numElements bytes) :=
  ⟨length_replicate, fun element mem => by rw [eq_of_mem_replicate mem, length]⟩

variable {i : Nat}

theorem clamp_first (some_ : 0 < c.shape.numElements) (own : boundType c.dtype = c.dtype)
    (desc : Describable c.shape) (addr : Addressed c.shape) (clips : c.Clips helper)
    (lt : i < c.shape.numElements) {lo hi : Number} (lower : c.clipMin.numberAt i = some lo)
    (upper : c.clipMax.numberAt i = some hi) (length : bytes.length = c.dtype.size) {value : Number}
    (isNumber : c.dtype.number bytes = some value) :
    ∃ first last, c.clipMin.numberAt 0 = some first ∧ c.clipMax.numberAt 0 = some last ∧
      clamp c.dtype first last value = min (max value lo) hi := by
  have xs := elements_replicate (c := c) length
  obtain ⟨out, eq, -, clamped_⟩ := clips.2 _ xs
  rw [compute_eq helper some_ own desc addr xs, Except.ok.injEq] at eq
  have element : (List.replicate c.shape.numElements bytes).getD i [] = bytes := by
    rw [getD_eq_getElem _ _ (by simpa using lt), getElem_replicate]
  have put := clamped_ i lt value lo hi (by rw [element]; exact isNumber) lower upper
  rw [← eq, getElem?_map, getElem?_range lt, map_some,
    Option.some.injEq, clamped, element, isNumber] at put
  cases first : c.clipMin.numberAt 0 with
  | none => rw [first] at put; exact nomatch put
  | some l =>
    cases last : c.clipMax.numberAt 0 with
    | none => rw [first, last] at put; exact nomatch put
    | some h =>
      rw [first, last] at put
      exact ⟨l, h, rfl, rfl, some.inj put⟩

theorem firstBounds_of_clips (some_ : 0 < c.shape.numElements) (own : boundType c.dtype = c.dtype)
    (desc : Describable c.shape) (addr : Addressed c.shape) (clips : c.Clips helper) :
    c.FirstBounds := by
  intro i lt lo hi lower upper
  obtain ⟨loBytes, loLength, isLo⟩ := exists_bytes c.clipMin lt lower
  obtain ⟨hiBytes, hiLength, isHi⟩ := exists_bytes c.clipMax lt upper
  obtain ⟨first, last, isFirst, isLast, atLo⟩ :=
    clamp_first helper some_ own desc addr clips lt lower upper loLength isLo
  obtain ⟨firstBytes, firstLength, isFirst'⟩ := exists_bytes c.clipMin some_ isFirst
  obtain ⟨lastBytes, lastLength, isLast'⟩ := exists_bytes c.clipMax some_ isLast
  have clampAt {j : Nat} (lt : j < c.shape.numElements) {lo hi : Number}
      (lower : c.clipMin.numberAt j = some lo) (upper : c.clipMax.numberAt j = some hi)
      {bytes : List UInt8} (length : bytes.length = c.dtype.size) {value : Number}
      (isNumber : c.dtype.number bytes = some value) :
      clamp c.dtype first last value = min (max value lo) hi := by
    obtain ⟨first', last', isFirst', isLast', same⟩ :=
      clamp_first helper some_ own desc addr clips lt lower upper length isNumber
    obtain rfl := some.inj (isFirst.symm.trans isFirst')
    obtain rfl := some.inj (isLast.symm.trans isLast')
    exact same
  -- The first element is clamped to the last bound where the bounds are not in order.
  have ordered : c.dtype ≠ .int64 → first ≤ last := by
    intro other
    have same := clampAt some_ isFirst isLast firstLength isFirst'
    rw [clamp, if_neg other, max_eq_left (min_le_right last first), max_self] at same
    exact same ▸ min_le_right first last
  refine ⟨first, last, isFirst, isLast, fun float => ordered (by rw [float]; decide), ?_⟩
  refine sameClamp_of_eq fun x test => ?_
  rw [← clamp_eq ordered x]
  rcases test with rfl | rfl | rfl | rfl
  · exact clampAt lt lower upper firstLength isFirst'
  · exact clampAt lt lower upper lastLength isLast'
  · exact clampAt lt lower upper loLength isLo
  · exact clampAt lt lower upper hiLength isHi

theorem clampedAt_of_firstBounds (own : c.dtype = .float ∨ c.dtype = .int64)
    (bounds : c.FirstBounds) (lt : i < c.shape.numElements) :
    c.ClampedAt x ((List.range c.shape.numElements).map (c.clamped x)) i := by
  intro value lo hi isValue lower upper
  obtain ⟨first, last, isFirst, isLast, ordered, same⟩ := bounds i lt lo hi lower upper
  rw [getElem?_map, getElem?_range lt, map_some, clamped, isFirst, isLast, isValue]
  refine congrArg (some ∘ some) ?_
  have inOrder : c.dtype ≠ .int64 → first ≤ last := fun other =>
    ordered (own.resolve_right other)
  exact (clamp_eq inOrder value).trans (clamp_of_sameClamp same value)

variable (c)

/-- The op clamps every input between the bounds of its elements exactly where there is no element,
    or where the type is `float` or 64-bit integers, the shape has a descriptor that addresses it,
    and the first bounds clamp as those of every element do. -/
theorem clips_iff : c.Clips helper ↔ c.shape.numElements = 0 ∨
      (c.dtype = .float ∨ c.dtype = .int64) ∧ Describable c.shape ∧ Addressed c.shape ∧
        c.FirstBounds := by
  by_cases empty : c.shape.numElements = 0
  · refine iff_of_true ⟨fun runs => ?_, fun x xs => ?_⟩ (.inl empty)
    · rw [c.isNoOp_iff.mpr empty] at runs
      exact nomatch runs
    · refine ⟨[], ?_, empty.symm, fun i lt => absurd lt (by omega)⟩
      rw [compute, if_pos (c.isNoOp_iff.mpr empty), NoOpKernel.zeroed_of_empty empty]
  have some_ : 0 < c.shape.numElements := Nat.pos_of_ne_zero empty
  have runs : c.isNoOp = false := Bool.eq_false_iff.mpr (mt c.isNoOp_iff.mp empty)
  rw [or_iff_right empty]
  constructor
  · intro clips
    have own := clips.1 runs
    obtain ⟨out, eq, length, -⟩ :=
      clips.2 _ (elements_replicate (c := c) (length_replicate (a := (0 : UInt8))))
    obtain ⟨desc, addr⟩ := describable_of_compute helper some_ eq length
    exact ⟨boundType_eq_self.mp own, desc, addr,
      firstBounds_of_clips helper some_ own desc addr clips⟩
  · rintro ⟨own, desc, addr, bounds⟩
    refine ⟨fun _ => boundType_eq_self.mpr own, fun x xs => ⟨_, compute_eq helper some_
      (boundType_eq_self.mpr own) desc addr xs, by simp, fun i lt => ?_⟩⟩
    exact clampedAt_of_firstBounds own bounds lt

/-- Bounds of a single `half`. -/
def halves : Call := ⟨.half, [1], ⟨true, [0, 0], rfl⟩, ⟨true, [0, 0x3c], rfl⟩⟩

/-- The bounds are read beyond their two bytes. -/
theorem halves_read_outside :
    halves.compute BufferTensorSize.ofDocumentation [[0, 0]] = .error .outOfRange ∧
      ¬ halves.Clips BufferTensorSize.ofDocumentation := by
  refine ⟨by decide, fun clips => ?_⟩
  exact absurd (clips.1 (by decide)) (by decide)

end Call

end TfDml.ClipByValue
