import TfDml.Kernels.SliceOp
import TfDml.Lib.ByteBuffer

/-! # DataFormatDimMap

The positions of the source's characters in the destination are packed into bytes. An index
gathers one of them, which is stored as the first byte of an element that has been zeroed.
-/

namespace TfDml.DataFormatDimMap

open Lib List
open DmlTensorDesc (address)
open StridedSlice (IndexTensor)

abbrev Format := List Byte

/-- Every character in `src` must be present only once. -/
def markSource : (Byte → Bool) → Format → Option (Byte → Bool)
  | characters, [] => some characters
  | characters, c :: src =>
    if characters c then none else markSource (Function.update characters c true) src

/-- Every character in `dst` must show up in `src` exactly once. -/
def takeDestination : (Byte → Bool) → Format → Option (Byte → Bool)
  | characters, [] => some characters
  | characters, c :: dst =>
    if characters c then takeDestination (Function.update characters c false) dst else none

def isValidPermutation (src dst : Format) : Bool :=
  if src.length ≠ dst.length then false
  else
    match markSource (fun _ => false) src with
    | none => false
    | some characters => (takeDestination characters dst).isSome

structure Attributes where
  srcFormat : Format
  dstFormat : Format

def text (format : Format) : String := String.ofList (format.map fun c => Char.ofNat c.toNat)

def sourceLength (src : Format) : Status :=
  .invalidArgument ("Source format must be of length 4 or 5, received src_format = " ++ text src)

def destinationLength (dst : Format) : Status :=
  .invalidArgument ("Destination format must be of length 4 or 5, received dst_format = " ++
    text dst)

def notPermutation (src dst : Format) : Status :=
  .invalidArgument ("Destination and source format must determine a permutation, got " ++
    text src ++ " and " ++ text dst)

def validate (attr : Attributes) : Except Status Unit := do
  opRequires (attr.srcFormat.length = 4 ∨ attr.srcFormat.length = 5) (sourceLength attr.srcFormat)
  opRequires (attr.dstFormat.length = 4 ∨ attr.dstFormat.length = 5)
    (destinationLength attr.dstFormat)
  opRequires (isValidPermutation attr.srcFormat attr.dstFormat)
    (notPermutation attr.srcFormat attr.dstFormat)

/-- `src_dst_mapping_packed` and `left_shift` -/
structure Packing where
  packed : Nat
  leftShift : Nat

def Packing.add (dst : Format) (state : Packing) (c : Byte) : Packing :=
  match dst.findIdx? (· == c) with
  | some j => ⟨state.packed ||| j <<< state.leftShift % 2 ^ 64, state.leftShift + 8⟩
  | none => state

def srcDstMappingPacked (attr : Attributes) : Nat :=
  (attr.srcFormat.foldl (Packing.add attr.dstFormat) ⟨0, 0⟩).packed

/-- The bytes of a 32-bit scalar, and of one more scalar for the fifth position. -/
def params (attr : Attributes) : List Byte :=
  let packed := srcDstMappingPacked attr
  littleEndian 4 (packed % 2 ^ 32) ++
    if attr.srcFormat.length = 5 then [BitVec.ofNat 8 (packed >>> 32)] else []

inductive IndexType where
  | int32
  | int64
  deriving DecidableEq

def IndexType.bytes : IndexType → Nat
  | .int32 => 4
  | .int64 => 8

abbrev IndexType.width (t : IndexType) : Nat := 8 * t.bytes

structure Call where
  attr : Attributes
  type_ : IndexType
  x : IndexTensor type_.width

/-- `dml::Gather` of a vector. Negative indices count from the end, and what is read at indices
    out of range is not documented. -/
def dmlGather (other : Int → Byte) (input : List Byte) (index : Int) : Byte :=
  let position := if index < 0 then index + input.length else index
  if 0 ≤ position ∧ position < input.length then input.getD position.toNat 0 else other index

def elementStride : Nat := 4

def outStrides (dimensionCount : Nat) : List Nat :=
  List.replicate (dimensionCount - 1) 0 ++ [elementStride]

namespace Call

variable (c : Call)

def numElements : Nat := c.x.shape.numElements

/-- The compiled operator, with its output bytes of which each is an element. -/
def execute (other : Int → Byte) (inOut : DmlTensorDesc) (buffer : ByteBuffer) : ByteBuffer :=
  (indices inOut.sizes).foldl (fun buffer index =>
    let value := c.x.values.getD (address inOut.strides index) 0
    store buffer (address (outStrides inOut.sizes.length) index)
      [dmlGather other (params c.attr) value.toInt]) buffer

def zeroBuffer (buffer : ByteBuffer) : ByteBuffer :=
  fill 0 (c.type_.bytes * c.numElements) (fun _ => 0) buffer

/-- The elements of the output, in its own type. -/
def elements (buffer : ByteBuffer) : List (BitVec c.type_.width) :=
  (List.range c.numElements).map fun i =>
    BitVec.ofNat _ (ofLittleEndian (load buffer (c.type_.bytes * i) c.type_.bytes))

/-- What is left in the output, whose memory is not initialized. -/
def compute (other : Int → Byte) (buffer : ByteBuffer) :
    SliceOp.Outcome (List (Option (BitVec c.type_.width))) :=
  if NoOpKernel.isNoOpKernel [c.x.shape] [c.x.shape] then
    .finished (NoOpKernel.zeroed c.x.shape)
  else
    match validate c.attr with
    | .error status => .reported status
    | .ok () =>
      match DmlTensorDesc.create [c.numElements] [c.numElements] with
      | none => .crashed .check
      | some inOut =>
        .finished ((c.elements (c.execute other inOut (c.zeroBuffer buffer))).map some)

/-- The formats are accepted, and the indices are in range. -/
structure Valid : Prop where
  length : c.attr.srcFormat.length = 4 ∨ c.attr.srcFormat.length = 5
  permutation : isValidPermutation c.attr.srcFormat c.attr.dstFormat = true
  inRange : ∀ x ∈ c.x.values,
    -(c.attr.srcFormat.length : Int) ≤ x.toInt ∧ x.toInt < c.attr.srcFormat.length

def position (x : Int) : Nat :=
  c.attr.dstFormat.idxOf (c.attr.srcFormat.getD (x % c.attr.srcFormat.length).toNat 0)

def mapped : List (BitVec c.type_.width) :=
  c.x.values.map fun x => BitVec.ofNat _ (c.position x.toInt)

def MapsAll : Prop :=
  c.Valid → ∀ other buffer, c.compute other buffer = .finished (c.mapped.map some)

end Call

theorem nodup_update {characters : Byte → Bool} {c : Byte} {l : Format} {mark value : Bool}
    (differ : mark ≠ value) : (l.Nodup ∧ ∀ d ∈ l, Function.update characters c mark d = value) ↔
      (c ∉ l ∧ l.Nodup) ∧ ∀ d ∈ l, characters d = value := by
  constructor
  · rintro ⟨nodup, updated⟩
    have apart : c ∉ l := fun mem => differ (by simpa using updated c mem)
    refine ⟨⟨apart, nodup⟩, fun d mem => ?_⟩
    have other : d ≠ c := fun same => apart (same ▸ mem)
    simpa [other] using updated d mem
  · rintro ⟨⟨apart, nodup⟩, pre⟩
    refine ⟨nodup, fun d mem => ?_⟩
    have other : d ≠ c := fun same => apart (same ▸ mem)
    simpa [other] using pre d mem

theorem isSome_takeDestination {characters : Byte → Bool} {dst : Format} :
    (takeDestination characters dst).isSome ↔ dst.Nodup ∧ ∀ c ∈ dst, characters c = true := by
  induction dst generalizing characters with
  | nil => simp [takeDestination]
  | cons c dst ih =>
    rw [takeDestination, nodup_cons, forall_mem_cons]
    cases present : characters c with
    | false => simp
    | true =>
      simp only [if_true, ih, true_and]
      exact nodup_update (by decide)

theorem markSource_of_some {characters marked : Byte → Bool} {src : Format}
    (got : markSource characters src = some marked) (c : Byte) :
    marked c = true ↔ characters c = true ∨ c ∈ src := by
  induction src generalizing characters with
  | nil =>
    obtain rfl := Option.some.inj got
    simp
  | cons d src ih =>
    rw [markSource] at got
    split at got
    case isTrue => exact nomatch got
    case isFalse =>
      rw [ih got]
      by_cases same : c = d
      · simp [same]
      · simp [same]

theorem isSome_markSource {characters : Byte → Bool} {src : Format} :
    (markSource characters src).isSome ↔ src.Nodup ∧ ∀ c ∈ src, characters c = false := by
  induction src generalizing characters with
  | nil => simp [markSource]
  | cons c src ih =>
    rw [markSource, nodup_cons, forall_mem_cons]
    cases fresh : characters c with
    | true => simp
    | false =>
      simp only [Bool.false_eq_true, if_false, ih, true_and]
      exact nodup_update (by decide)

theorem isValidPermutation_iff {src dst : Format} :
    isValidPermutation src dst = true ↔ src.Nodup ∧ src.Perm dst := by
  have marks := @isSome_markSource (fun _ => false) src
  simp only [implies_true, and_true] at marks
  rw [isValidPermutation, ← marks]
  by_cases length : src.length = dst.length
  · cases got : markSource (fun _ => false) src with
    | none => simp [length]
    | some marked =>
      have nodup := marks.mp (by rw [got]; rfl)
      simp only [length, ne_eq, not_true, if_false, isSome_takeDestination,
        markSource_of_some got, Bool.false_eq_true, false_or, Option.isSome_some, true_and]
      constructor
      · rintro ⟨nodup', lt⟩
        exact ((nodup'.subperm lt).perm_of_length_le (le_of_eq length)).symm
      · intro perm
        exact ⟨perm.nodup_iff.mp nodup, fun c => perm.mem_iff.mpr⟩
  · have ne : ¬src.Perm dst := fun perm => length perm.length_eq
    simp [length, ne]

def table (attr : Attributes) : List Byte :=
  attr.srcFormat.map fun c => BitVec.ofNat 8 (attr.dstFormat.idxOf c)

theorem foldl_add {src dst : Format} (lt : ∀ c ∈ src, c ∈ dst) (few : src.length ≤ 8)
    (few' : dst.length ≤ 256) : src.foldl (Packing.add dst) ⟨0, 0⟩ =
      ⟨ofLittleEndian (src.map fun c => BitVec.ofNat 8 (dst.idxOf c)), 8 * src.length⟩ := by
  induction src using List.reverseRecOn with
  | nil => rfl
  | append_singleton src c ih =>
    rw [forall_mem_append, forall_mem_singleton] at lt
    rw [length_append, length_singleton] at few
    have first : dst.findIdx? (· == c) = some (dst.idxOf c) := by
      rw [findIdx?_eq_some_iff_findIdx_eq]
      exact ⟨idxOf_lt_length_iff.mpr lt.2, rfl⟩
    have less := idxOf_lt_length_iff.mpr lt.2
    rw [foldl_append, ih lt.1 (by omega), foldl_cons, foldl_nil, Packing.add, first]
    generalize positions : src.map (fun c => BitVec.ofNat 8 (dst.idxOf c)) = bytes
    have count : bytes.length = src.length := by rw [← positions, length_map]
    have byte : (BitVec.ofNat 8 (dst.idxOf c)).toNat = dst.idxOf c := by
      rw [BitVec.toNat_ofNat]
      exact Nat.mod_eq_of_lt (by omega)
    have power : 2 ^ (8 * src.length) = 256 ^ src.length := by
      rw [pow_mul]
      rfl
    have fits : dst.idxOf c <<< (8 * src.length) < 2 ^ 64 := by
      have low : dst.idxOf c < 256 := by omega
      have high : 256 ^ src.length ≤ 256 ^ 7 := Nat.pow_le_pow_right (by decide) (by omega)
      rw [Nat.shiftLeft_eq, power]
      exact lt_of_lt_of_le (Nat.mul_lt_mul_of_lt_of_le low high (by decide)) (by decide)
    have below : ofLittleEndian bytes < 2 ^ (8 * src.length) := by
      rw [power, ← count]
      exact ofLittleEndian_lt bytes
    rw [Packing.mk.injEq, Nat.mod_eq_of_lt fits, Nat.lor_comm,
      ← Nat.shiftLeft_add_eq_or_of_lt below, Nat.shiftLeft_eq, power, map_append, positions,
      map_singleton, ofLittleEndian_append, count, ofLittleEndian, ofLittleEndian, byte,
      length_append, length_singleton]
    constructor
    · rw [mul_zero, add_zero, mul_comm, add_comm]
    · exact (Nat.mul_succ 8 src.length).symm

theorem params_eq {attr : Attributes}
    (length : attr.srcFormat.length = 4 ∨ attr.srcFormat.length = 5)
    (valid : isValidPermutation attr.srcFormat attr.dstFormat = true) :
    params attr = table attr := by
  obtain ⟨-, perm⟩ := isValidPermutation_iff.mp valid
  have count : (table attr).length = attr.srcFormat.length := length_map _
  have packed : srcDstMappingPacked attr = ofLittleEndian (table attr) := by
    rw [srcDstMappingPacked, foldl_add (fun c => perm.mem_iff.mp) (by omega)
      (by rw [← perm.length_eq]; omega), table]
  have whole := littleEndian_ofLittleEndian (table attr)
  have first : littleEndian 4 (srcDstMappingPacked attr % 2 ^ 32) = (table attr).take 4 := by
    have same := littleEndian_mod 4 (srcDstMappingPacked attr)
    have few : 4 ≤ (table attr).length := by omega
    rw [show 2 ^ 32 = 256 ^ 4 from rfl, same, packed, ← take_littleEndian few, whole]
  rw [params, first]
  rcases length with four | five
  · rw [if_neg (by omega), append_nil, take_of_length_le (by omega)]
  · rw [if_pos five]
    have last := drop_littleEndian 4 1 (ofLittleEndian (table attr))
    rw [show 4 + 1 = (table attr).length by omega, whole] at last
    have fifth : [BitVec.ofNat 8 (srcDstMappingPacked attr >>> 32)] = (table attr).drop 4 := by
      rw [last, packed, Nat.shiftRight_eq_div_pow]
      rfl
    rw [fifth, take_append_drop]

end TfDml.DataFormatDimMap

namespace TfDml.DataFormatDimMap

open Lib List
open DmlTensorDesc (address)

theorem dmlGather_of_inRange {input : List Byte} {index : Int}
    (lt : -(input.length : Int) ≤ index ∧ index < input.length) (other : Int → Byte) :
    dmlGather other input index = input.getD (index % input.length).toNat 0 := by
  by_cases neg : index < 0
  · have wrapped : index % input.length = index + input.length := by
      rw [← Int.add_emod_right, Int.emod_eq_of_lt (by omega) (by omega)]
    rw [dmlGather, if_pos neg, if_pos (by omega), wrapped]
  · rw [dmlGather, if_neg neg, if_pos (by omega), Int.emod_eq_of_lt (by omega) (by omega)]

theorem foldl_store_stride (f : Nat → Byte) (count : Nat) (buffer : ByteBuffer) (p : Nat) :
    (List.range count).foldl (fun buffer k => store buffer (elementStride * k) [f k]) buffer p =
      if p % 4 = 0 ∧ p / 4 < count then f (p / 4) else buffer p := by
  simp only [elementStride]
  induction count with
  | zero => simp
  | succ count ih =>
    rw [range_succ, foldl_append, foldl_cons, foldl_nil, store, length_singleton]
    by_cases here : p = 4 * count
    · rw [if_pos (by omega), if_pos (by omega), here, Nat.sub_self,
        Nat.mul_div_cancel_left _ (by decide)]
      rfl
    · rw [if_neg (by omega), ih]
      refine if_congr ?_ rfl rfl
      omega

namespace Call

variable {c : Call}

theorem length_mapped : c.mapped.length = c.numElements := by
  rw [mapped, length_map]
  exact c.x.sized

/-- The position for an element of the input, and nothing behind the last one. -/
def stored (c : Call) (k : Nat) : Nat :=
  if k < c.numElements then c.position (c.x.values.getD k 0).toInt else 0

theorem position_lt (valid : c.Valid) (x : Int) : c.position x < 256 := by
  have perm := (isValidPermutation_iff.mp valid.permutation).2.length_eq
  have length := valid.length
  have lt : c.position x ≤ c.attr.dstFormat.length := idxOf_le_length
  omega

theorem gathered (valid : c.Valid) (other : Int → Byte) {k : Nat} (lt : k < c.numElements) :
    (dmlGather other (params c.attr) (c.x.values.getD k 0).toInt).toNat = c.stored k := by
  have count : (table c.attr).length = c.attr.srcFormat.length := length_map _
  have sized : k < c.x.values.length := c.x.sized ▸ lt
  have value := valid.inRange _ (getElem_mem sized)
  rw [stored, if_pos lt, getD_eq_getElem _ _ sized, params_eq valid.length valid.permutation]
  rw [← count] at value
  have length := valid.length
  have first : 0 ≤ c.x.values[k].toInt % (table c.attr).length := Int.emod_nonneg _ (by omega)
  have last : c.x.values[k].toInt % (table c.attr).length < (table c.attr).length :=
    Int.emod_lt_of_pos _ (by omega)
  have entry : (c.x.values[k].toInt % (table c.attr).length).toNat < (table c.attr).length := by
    omega
  rw [dmlGather_of_inRange value, getD_eq_getElem _ _ entry, position, ← count,
    getD_eq_getElem _ _ (by omega)]
  have small := position_lt valid c.x.values[k].toInt
  rw [position, ← count, getD_eq_getElem _ _ (by omega)] at small
  simp only [table, getElem_map, BitVec.toNat_ofNat]
  exact Nat.mod_eq_of_lt small

theorem execute_eq (valid : c.Valid) {inOut : DmlTensorDesc}
    (created : DmlTensorDesc.create [c.numElements] [c.numElements] = some inOut)
    (other : Int → Byte) (buffer : ByteBuffer) {p : Nat}
    (inside : p < c.type_.bytes * c.numElements) :
    (c.execute other inOut (c.zeroBuffer buffer) p).toNat =
      if p % 4 = 0 then c.stored (p / 4) else 0 := by
  obtain ⟨-, rfl⟩ := DmlTensorDesc.create_self_eq_some.mp created
  have single : indices [1, 1, 1, c.numElements] =
      (List.range c.numElements).map fun k => [0, 0, 0, k] := by
    simp [indices, ← map_eq_flatMap]
  have stores : c.execute other ⟨[1, 1, 1, c.numElements], [0, 0, 0, 1]⟩ (c.zeroBuffer buffer) =
      (List.range c.numElements).foldl (fun buffer k => store buffer (elementStride * k)
        [dmlGather other (params c.attr) (c.x.values.getD k 0).toInt]) (c.zeroBuffer buffer) := by
    rw [execute, single, foldl_map]
    refine congrArg (fun step => List.foldl step (c.zeroBuffer buffer) _) ?_
    funext buffer k
    simp [address, outStrides, elementStride, mul_comm]
  have desc : (⟨List.replicate (DmlTensorDesc.kNchwDimensionCount - [c.numElements].length) 1 ++
        [c.numElements],
      List.replicate (DmlTensorDesc.kNchwDimensionCount - [c.numElements].length) 0 ++
        DmlTensorDesc.packedStrides [c.numElements]⟩ : DmlTensorDesc) =
      ⟨[1, 1, 1, c.numElements], [0, 0, 0, 1]⟩ := rfl
  have blank : c.zeroBuffer buffer p = 0 := fill_of_inside _ (by omega)
  rw [desc, stores, foldl_store_stride, blank]
  by_cases first : p % 4 = 0
  · rw [if_pos first]
    by_cases here : p / 4 < c.numElements
    · rw [if_pos ⟨first, here⟩, gathered valid other here]
    · rw [if_neg (by omega), stored, if_neg here]
      rfl
  · rw [if_neg (by omega), if_neg first]
    rfl

def element (c : Call) (i : Nat) : Nat :=
  match c.type_ with
  | .int32 => c.stored i
  | .int64 => c.stored (2 * i) + 2 ^ 32 * c.stored (2 * i + 1)

theorem element_of_int32 (narrow : c.type_ = .int32) (i : Nat) : c.element i = c.stored i := by
  rw [element, narrow]

theorem element_of_int64 (wide : c.type_ = .int64) (i : Nat) :
    c.element i = c.stored (2 * i) + 2 ^ 32 * c.stored (2 * i + 1) := by
  rw [element, wide]

theorem stored_lt (valid : c.Valid) (k : Nat) : c.stored k < 256 := by
  rw [stored]
  split
  · exact position_lt valid _
  · decide

theorem element_lt (valid : c.Valid) (i : Nat) : c.element i < 2 ^ c.type_.width := by
  have first := stored_lt valid i
  have low := stored_lt valid (2 * i)
  have high := stored_lt valid (2 * i + 1)
  rw [element, IndexType.width]
  cases c.type_ with
  | int32 =>
    simp only [IndexType.bytes]
    omega
  | int64 =>
    simp only [IndexType.bytes]
    omega

theorem load_element (buffer : ByteBuffer)
    (bytes : ∀ p < c.type_.bytes * c.numElements,
      (buffer p).toNat = if p % 4 = 0 then c.stored (p / 4) else 0) {i : Nat}
    (lt : i < c.numElements) :
    ofLittleEndian (load buffer (c.type_.bytes * i) c.type_.bytes) = c.element i := by
  rw [element]
  have byte (k : Nat) (less : k < c.type_.bytes) : (buffer (c.type_.bytes * i + k)).toNat =
      if (c.type_.bytes * i + k) % 4 = 0 then c.stored ((c.type_.bytes * i + k) / 4) else 0 := by
    refine bytes _ ?_
    have row : c.type_.bytes * (i + 1) ≤ c.type_.bytes * c.numElements := Nat.mul_le_mul_left _ lt
    rw [Nat.mul_succ] at row
    omega
  cases type_ : c.type_ with
  | int32 =>
    simp only [type_, IndexType.bytes] at byte ⊢
    have first := byte 0 (by decide)
    rw [if_pos (by omega), show (4 * i + 0) / 4 = i by omega, add_zero] at first
    have others (k : Nat) (less : k < 4) (later : k ≠ 0) : (buffer (4 * i + k)).toNat = 0 := by
      rw [byte k less, if_neg (by omega)]
    simp [load, range_succ, ofLittleEndian, first, others]
  | int64 =>
    simp only [type_, IndexType.bytes] at byte ⊢
    have low := byte 0 (by decide)
    have high := byte 4 (by decide)
    rw [if_pos (by omega), show (8 * i + 0) / 4 = 2 * i by omega, add_zero] at low
    rw [if_pos (by omega), show (8 * i + 4) / 4 = 2 * i + 1 by omega] at high
    have others (k : Nat) (less : k < 8) (later : k % 4 ≠ 0) : (buffer (8 * i + k)).toNat = 0 := by
      rw [byte k less, if_neg (by omega)]
    simp [load, range_succ, ofLittleEndian, low, high, others]
    ring

theorem elements_eq_iff (valid : c.Valid) (buffer : ByteBuffer)
    (bytes : ∀ p < c.type_.bytes * c.numElements,
      (buffer p).toNat = if p % 4 = 0 then c.stored (p / 4) else 0) :
    c.elements buffer = c.mapped ↔ ∀ i < c.numElements, c.element i = c.stored i := by
  have expected :
      c.mapped = (List.range c.numElements).map fun i => BitVec.ofNat _ (c.stored i) := by
    have sized : c.x.values.length = c.numElements := c.x.sized
    rw [mapped, ← sized]
    conv_lhs => rw [← map_getD_range c.x.values 0]
    rw [List.map_map]
    refine map_congr_left fun i inside => ?_
    rw [stored, if_pos (sized ▸ mem_range.mp inside)]
    rfl
  rw [expected, elements, map_inj_left]
  refine forall_congr' fun i => ?_
  rw [mem_range]
  refine forall_congr' fun inside => ?_
  rw [load_element buffer bytes inside]
  have bound := element_lt valid i
  have bound' : c.stored i < 2 ^ c.type_.width :=
    lt_of_lt_of_le (stored_lt valid i) (by cases c.type_ <;> decide)
  constructor
  · intro same
    have values := congrArg BitVec.toNat same
    rwa [BitVec.toNat_ofNat, BitVec.toNat_ofNat, Nat.mod_eq_of_lt bound,
      Nat.mod_eq_of_lt bound'] at values
  · exact fun same => congrArg _ same

theorem isNoOp_of_some (some_ : c.numElements ≠ 0) :
    NoOpKernel.isNoOpKernel [c.x.shape] [c.x.shape] = false := by
  have many : c.x.shape.numElements ≠ 0 := some_
  simp [NoOpKernel.isNoOpKernel, many]

theorem validate_of_valid (valid : c.Valid) : validate c.attr = .ok () := by
  have perm := (isValidPermutation_iff.mp valid.permutation).2.length_eq
  simp [validate, opRequires, valid.length, ← perm, valid.permutation, bind, Except.bind]

theorem compute_eq (valid : c.Valid) (lt : c.numElements < 2 ^ 32)
    (some_ : c.numElements ≠ 0) (other : Int → Byte) (buffer : ByteBuffer) :
    c.compute other buffer = .finished (c.mapped.map some) ↔
      ∀ i < c.numElements, c.element i = c.stored i := by
  obtain ⟨inOut, new⟩ : ∃ inOut, DmlTensorDesc.create [c.numElements] [c.numElements] =
      some inOut := ⟨_, DmlTensorDesc.create_self_eq_some.mpr
        ⟨⟨Nat.le_of_ble_eq_true rfl, forall_mem_singleton.mpr lt⟩, rfl⟩⟩
  rw [compute, isNoOp_of_some some_, validate_of_valid valid, new]
  simp only [Bool.false_eq_true, if_false, SliceOp.Outcome.finished.injEq]
  rw [List.map_inj_right fun _ _ => Option.some.inj]
  exact elements_eq_iff valid _ fun p => execute_eq valid new other buffer

theorem pairs_iff {count : Nat} {v : Nat → Nat} (outside : ∀ k, count ≤ k → v k = 0)
    (few : ∀ k, v k < 256) :
    (∀ i < count, v (2 * i) + 2 ^ 32 * v (2 * i + 1) = v i) ↔ ∀ k, k ≠ 0 → v k = 0 := by
  constructor
  · intro pairs k
    induction k using Nat.strong_induction_on with
    | _ k ih =>
      intro later
      by_cases lt : k < count
      · have pair := pairs (k / 2) (by omega)
        have size := few (k / 2)
        rcases Nat.even_or_odd' k with ⟨half, even | odd⟩
        · have zero := ih half (by omega) (by omega)
          rw [show k / 2 = half by omega, zero, ← even] at pair
          omega
        · rw [show k / 2 = half by omega, ← odd] at pair
          rw [show k / 2 = half by omega] at size
          omega
      · exact outside k (by omega)
  · intro zeros i less
    rw [zeros (2 * i + 1) (by omega), mul_zero, add_zero]
    rcases Nat.eq_zero_or_pos i with rfl | later
    · rfl
    · rw [zeros i (by omega), zeros (2 * i) (by omega)]

theorem stored_zero_iff :
    (∀ k, k ≠ 0 → c.stored k = 0) ↔ ∀ x ∈ c.x.values.tail, c.position x.toInt = 0 := by
  have sized : c.x.values.length = c.numElements := c.x.sized
  constructor
  · intro zeros x mem
    obtain ⟨k, lt, rfl⟩ := getElem_of_mem mem
    rw [length_tail] at lt
    have zero := zeros (k + 1) (Nat.succ_ne_zero k)
    rw [stored, if_pos (by omega), getD_eq_getElem _ _ (by omega)] at zero
    rwa [getElem_tail]
  · intro zeros k later
    rw [stored]
    split
    case isTrue lt =>
      rw [getD_eq_getElem _ _ (by omega)]
      obtain ⟨earlier, rfl⟩ := Nat.exists_eq_succ_of_ne_zero later
      refine zeros _ ?_
      rw [← getElem_tail (by rw [length_tail]; omega)]
      exact getElem_mem _
    case isFalse => rfl

/-- All indices are mapped if and only if there are none, or their number fits 32 bits and
    elements of 64 bits are zero, apart from the first one. -/
theorem maps_iff (c : Call) : c.MapsAll ↔ (c.Valid → c.numElements = 0 ∨ (c.numElements < 2 ^ 32 ∧
      (c.type_ = .int32 ∨ ∀ x ∈ c.x.values.tail, c.position x.toInt = 0))) := by
  refine imp_congr_right fun valid => ?_
  by_cases some_ : c.numElements = 0
  · have shape : c.x.shape.numElements = 0 := some_
    have none_ : c.mapped = [] := length_eq_zero_iff.mp (length_mapped.trans some_)
    refine iff_of_true (fun other buffer => ?_) (Or.inl some_)
    rw [compute, if_pos (by simp [NoOpKernel.isNoOpKernel, shape]),
      NoOpKernel.zeroed_of_empty shape, none_, map_nil]
  · by_cases small : c.numElements < 2 ^ 32
    · simp only [compute_eq valid small some_, some_, small, false_or, true_and, forall_const]
      by_cases lt : c.type_ = .int32
      · exact iff_of_true (fun i _ => element_of_int32 lt i) (Or.inl lt)
      · have wide : c.type_ = .int64 := by
          cases type_ : c.type_ with
          | int32 => exact absurd type_ lt
          | int64 => rfl
        simp only [element_of_int64 wide, lt, false_or]
        have pairs := @pairs_iff c.numElements c.stored
          (fun k outside => if_neg (Nat.not_lt.mpr outside)) (stored_lt valid)
        exact pairs.trans stored_zero_iff
    · refine iff_of_false (fun maps => ?_) (not_or.mpr ⟨some_, fun both => small both.1⟩)
      have finished := maps (fun _ => 0) (fun _ => 0)
      have crashed : DmlTensorDesc.create [c.numElements] [c.numElements] = none := by
        rw [Option.eq_none_iff_forall_ne_some]
        intro inOut new
        have desc := (DmlTensorDesc.create_self_eq_some.mp new).1
        exact small (desc.dims _ (mem_singleton.mpr rfl))
      rw [compute, isNoOp_of_some some_, validate_of_valid valid, crashed] at finished
      cases finished

def axes : Call where
  attr := ⟨[78, 72, 87, 67], [78, 67, 72, 87]⟩
  type_ := .int64
  x := ⟨[2], [0, 1], rfl⟩

theorem axes_not_maps : ¬axes.MapsAll := by
  intro maps
  have lt : ∀ x ∈ [0#64, 1#64], -4 ≤ x.toInt ∧ x.toInt < 4 := by simp
  have valid : axes.Valid := ⟨Or.inl rfl, by decide, lt⟩
  have xs := (compute_eq valid (by decide +kernel) (by decide) (fun _ => 0) (fun _ => 0)).mp
    (maps valid _ _)
  have first := xs 0 (by decide)
  have snd : axes.stored 1 = 2 := by decide
  rw [element_of_int64 rfl, mul_zero, zero_add, snd] at first
  omega

end Call

end TfDml.DataFormatDimMap
