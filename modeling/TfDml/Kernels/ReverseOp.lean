import TfDml.Kernels.NumpyIndexing
import TfDml.Kernels.SliceOp
import TfDml.Lib.MarkOnce

/-! # Reverse and ReverseV2

The axes are given by a mask of flags or by a list of signed indices. Either becomes a set of bits,
and a slice with negative strides reads the axes whose bits are set from their ends.
-/

namespace TfDml.Reverse

open Lib List
open StridedSlice (bit inMask)
open DmlTensorDesc

/-- The elements of the tensor that names the axes: flags, or 32-bit or 64-bit indices. -/
inductive DimsValues where
  | mask (flags : List Bool)
  | axes (values : List Int)
  deriving DecidableEq

def DimsValues.count : DimsValues → Nat
  | .mask flags => flags.length
  | .axes values => values.length

structure DimsTensor where
  shape : TensorShape
  values : DimsValues
  sized : values.count = shape.numElements

structure Arguments where
  input : TensorShape
  dims : DimsTensor

def highRank : Status := .unimplemented "DML doesn't support tensors of rank > 5 for Reverse."

def notVector (dims : Nat) : Status := .invalidArgument s!"'dims' must be 1-dimension, not {dims}"

def differentCount (rank count : Nat) : Status :=
  .invalidArgument ("'dims' must have the same number of values as 'input' has " ++
    s!"dimensions. 'input' has {rank}'dims' has {count} values")

def outOfRange (i : Nat) (axis : Int) (rank : Nat) : Status :=
  .invalidArgument s!"'axis'[{i}] = {axis} is out of valid range [0, {(rank : Int) - 1}"

def specifiedTwice (axis : Int) : Status :=
  .invalidArgument s!"axis {axis} specified more than once."

def canonicalAxis (rank : Nat) (axis : Int) : Int := if axis < 0 then rank + axis else axis

/-- The loop over the indices, for an index and its place. -/
def addAxis (rank : Nat) (axisBits : BitVec 32) (entry : Int × Nat) :
    Except Status (BitVec 32) := do
  let canonicalAxis := canonicalAxis rank entry.1
  opRequires (0 ≤ canonicalAxis ∧ canonicalAxis < rank) (outOfRange entry.2 entry.1 rank)
  opRequires (!inMask axisBits canonicalAxis.toNat) (specifiedTwice canonicalAxis)
  return axisBits ||| bit canonicalAxis.toNat

/-- `ReverseInitializationHelper` -/
def axisBits (args : Arguments) : Except Status (BitVec 32) := do
  opRequires (args.input.length ≤ 5) highRank
  opRequires (args.dims.shape.length = 1) (notVector args.dims.shape.length)
  match args.dims.values with
  | .mask flags =>
    opRequires (args.input.length = flags.length)
      (differentCount args.input.length flags.length)
    -- The loop runs to the rank of the tensor, and does not look at the flags.
    return (range args.dims.shape.length).foldl (fun bits i => bits ||| bit i) 0
  | .axes values => values.zipIdx.foldlM (addAxis args.input.length) 0

/-- A dimension of the window of `DML_OPERATOR_SLICE1`. -/
structure WindowDim where
  offset : Nat
  size : Nat
  stride : Int

namespace WindowDim

def count (d : WindowDim) : Nat := 1 + (d.size - 1) / d.stride.natAbs

def source (d : WindowDim) (k : Nat) : Nat :=
  ((if 0 < d.stride then (d.offset : Int) else d.offset + d.size - 1) + k * d.stride).toNat

end WindowDim

/-- `DML_OPERATOR_SLICE1`. The window has to be inside of the input. -/
def dmlSlice1 {α : Type} (input : DmlTensorDesc) (window : List WindowDim) (values : List α) :
    Option (List (Option α)) :=
  if window.length = input.sizes.length ∧
      ∀ entry ∈ window.zip input.sizes, entry.1.offset + entry.1.size ≤ entry.2 then
    some ((indices (window.map WindowDim.count)).map fun index =>
      values[address input.strides (zipWith WindowDim.source window index)]?)
  else none

/-- What the compiled operator writes. There is no result if a descriptor is not valid. -/
def execute {α : Type} (args : Arguments) (bits : BitVec 32) (values : List α) :
    Option (List (Option α)) := do
  let inputDesc ← create args.input args.input
  let isIdentity := args.input.isScalar || args.dims.shape.numElements == 0
  if isIdentity then some (SliceOp.dmlIdentity inputDesc values)
  else
    let axisPadding := kNchwDimensionCount - args.input.length
    let dmlStrides := replicate axisPadding 1 ++
      (range args.input.length).map fun i => if inMask bits i then -1 else 1
    let dmlSizes := replicate axisPadding 1 ++ args.input
    dmlSlice1 inputDesc (zipWith (⟨0, ·, ·⟩) dmlSizes dmlStrides) values

def compute {α : Type} [Zero α] (args : Arguments) (values : List α) :
    SliceOp.Outcome (List (Option α)) :=
  match axisBits args with
  | .error status => .reported status
  | .ok bits =>
    if args.input.numElements = 0 then .finished (NoOpKernel.zeroed args.input)
    else
      match execute args bits values with
      | none => .crashed .check
      | some output => .finished output

def requested (rank : Nat) : DimsValues → Nat → Bool
  | .mask flags, d => flags.getD d false
  | .axes values, d => values.any fun axis => axis == d || axis + rank == d

/-- The mask has a flag for each dimension; or the indices are in range, and none is repeated. -/
def Valid (rank : Nat) : DimsValues → Prop
  | .mask flags => flags.length = rank
  | .axes values => (∀ axis ∈ values, -rank ≤ axis ∧ axis < rank) ∧
      (values.map fun axis => axis % (rank : Int)).Nodup

/-- An input of rank up to five, with a vector that names the axes. -/
structure Call extends Arguments where
  rank : input.length ≤ 5
  isVector : dims.shape.length = 1

def Arguments.source (args : Arguments) (index : List Nat) : List Nat :=
  reverseAxes (requested args.input.length args.dims.values) args.input index

/-- Axes that are not valid are reported. Otherwise, the requested axes are reversed, and doing so
    twice leaves the values as they were. -/
def Reverses (args : Arguments) : Prop :=
  (¬Valid args.input.length args.dims.values →
    ∀ (α : Type) [Zero α] (values : List α), ∃ status, compute args values = .reported status) ∧
  (Valid args.input.length args.dims.values →
    ∀ (α : Type) [Zero α] (values : List α), values.length = args.input.numElements →
      compute args values = .finished (gather args.input args.source values) ∧
        ∃ out, compute args values = .finished (out.map some) ∧
          compute args out = .finished (values.map some))

variable {rank d : Nat} {axis : Int}

theorem canonicalAxis_eq_iff (above : -rank ≤ axis) (below : axis < rank) (lt : d < rank) :
    (canonicalAxis rank axis).toNat = d ↔ axis = d ∨ axis + rank = d := by
  rw [canonicalAxis]
  split <;> omega

theorem canonicalAxis_emod (above : -rank ≤ axis) (below : axis < rank) :
    ((canonicalAxis rank axis).toNat : Int) = axis % rank := by
  rw [canonicalAxis]
  split
  case isTrue neg =>
    rw [Int.toNat_of_nonneg (by omega), Int.add_comm, ← Int.add_emod_right,
      Int.emod_eq_of_lt (by omega) (by omega)]
  case isFalse nat =>
    rw [Int.toNat_of_nonneg (by omega), Int.emod_eq_of_lt (by omega) below]

theorem addAxis_marksOnce (small : rank ≤ 32) : MarksOnce (addAxis rank) (fun _ => True) inMask
      (fun entry => (canonicalAxis rank entry.1).toNat) (fun _ => True)
      (fun entry => -rank ≤ entry.1 ∧ entry.1 < rank) (fun _ => True) rank where
  inside := by
    intro entry bounds
    rw [canonicalAxis]
    split <;> omega
  marks := by
    intro bits entry _ bounds fresh
    have lt : 0 ≤ canonicalAxis rank entry.1 ∧ canonicalAxis rank entry.1 < rank := by
      rw [canonicalAxis]
      split <;> omega
    refine ⟨bits ||| bit (canonicalAxis rank entry.1).toNat, ?_, trivial, fun d inside => ?_⟩
    · simp [addAxis, lt, fresh, opRequires, bind, Except.bind, pure, Except.pure]
    · rw [StridedSlice.inMask_or_bit bits (by omega) (by omega), Bool.beq_comm]
  fails := by
    intro bits entry _ _ bad
    by_cases lt : 0 ≤ canonicalAxis rank entry.1 ∧ canonicalAxis rank entry.1 < rank
    · have bounds : -(rank : Int) ≤ entry.1 ∧ entry.1 < rank := by
        rw [canonicalAxis] at lt
        split at lt <;> omega
      have taken : inMask bits (canonicalAxis rank entry.1).toNat = true :=
        (Bool.not_eq_false _).mp fun fresh => bad ⟨bounds, fresh⟩
      exact ⟨_, trivial, by simp [addAxis, lt, taken, opRequires, bind, Except.bind]; rfl⟩
    · exact ⟨outOfRange entry.2 entry.1 rank, trivial, by
        simp [addAxis, lt, opRequires, bind, Except.bind]⟩

theorem inMask_zero (d : Nat) : inMask 0 d = false := by
  rw [StridedSlice.inMask_eq_getLsbD]
  exact BitVec.getLsbD_zero

variable {values : List Int}

theorem contains_canonicalAxis (inRange : ∀ axis ∈ values, -rank ≤ axis ∧ axis < rank)
    (lt : d < rank) :
    (values.zipIdx.map fun entry => (canonicalAxis rank entry.1).toNat).contains d =
      requested rank (.axes values) d := by
  have firsts : (values.zipIdx.map fun entry => (canonicalAxis rank entry.1).toNat) =
      values.map fun axis => (canonicalAxis rank axis).toNat := by
    conv_rhs => rw [← zipIdx_map_fst 0 values, map_map]
    rfl
  rw [firsts, Bool.eq_iff_iff, contains_iff_mem, mem_map, requested, any_eq_true]
  constructor
  · rintro ⟨axis, mem, named⟩
    obtain ⟨above, below⟩ := inRange axis mem
    exact ⟨axis, mem, by simpa using (canonicalAxis_eq_iff above below lt).mp named⟩
  · rintro ⟨axis, mem, either⟩
    obtain ⟨above, below⟩ := inRange axis mem
    exact ⟨axis, mem, (canonicalAxis_eq_iff above below lt).mpr (by simpa using either)⟩

theorem nodup_canonicalAxis (lt : ∀ axis ∈ values, -rank ≤ axis ∧ axis < rank) :
    (values.zipIdx.map fun entry => (canonicalAxis rank entry.1).toNat).Nodup ↔
      (values.map fun axis => axis % (rank : Int)).Nodup := by
  have same : (values.map fun axis => axis % (rank : Int)) =
      (values.zipIdx.map fun entry => (canonicalAxis rank entry.1).toNat).map Nat.cast := by
    conv_lhs => rw [← zipIdx_map_fst 0 values]
    rw [map_map, map_map]
    apply map_congr_left
    intro entry mem
    have bounds := lt entry.1 (fst_mem_of_mem_zipIdx mem)
    exact (canonicalAxis_emod bounds.1 bounds.2).symm
  rw [same, nodup_map_iff Nat.cast_injective]

/-- The axes that are reversed: the flags of a mask are not looked at. -/
def reversed (rank : Nat) (values : DimsValues) (d : Nat) : Bool :=
  match values with
  | .mask _ => d == 0
  | .axes _ => requested rank values d

namespace Call

variable (call : Call)

theorem axisBits_ok (valid : Valid call.input.length call.dims.values) :
    ∃ bits, axisBits call.toArguments = .ok bits ∧
      ∀ d < call.input.length, inMask bits d = reversed call.input.length call.dims.values d := by
  have small := call.rank
  rw [axisBits]
  cases given : call.dims.values with
  | mask flags =>
    rw [given] at valid
    refine ⟨0 ||| bit 0, ?_, fun d lt => ?_⟩
    · have count : call.input.length = flags.length := valid.symm
      rw [count] at small
      simp only [call.isVector, opRequires, count, small, decide_true, if_true, bind, Except.bind]
      rfl
    · rw [StridedSlice.inMask_or_bit _ (by decide) (by omega), inMask_zero, Bool.false_or,
        reversed, Bool.beq_comm]
  | axes values =>
    rw [given] at valid
    obtain ⟨inRange, nodup⟩ := valid
    obtain ⟨bits, folded, -, xs⟩ :=
      (addAxis_marksOnce (by omega : call.input.length ≤ 32)).foldlM_ok (s := 0) trivial
        (fun entry mem => inRange entry.1 (fst_mem_of_mem_zipIdx mem))
        (fun entry _ => inMask_zero _) ((nodup_canonicalAxis inRange).mpr nodup)
    refine ⟨bits, ?_, fun d lt => ?_⟩
    · simp only [call.isVector, opRequires, small, decide_true, if_true, bind, Except.bind]
      exact folded
    · rw [xs d lt, inMask_zero, Bool.false_or, contains_canonicalAxis inRange lt, reversed]

theorem axisBits_error (invalid : ¬Valid call.input.length call.dims.values) :
    ∃ status, axisBits call.toArguments = .error status := by
  have small := call.rank
  rw [axisBits]
  cases given : call.dims.values with
  | mask flags =>
    rw [given] at invalid
    have ne : ¬call.input.length = flags.length := fun same => invalid same.symm
    exact ⟨differentCount call.input.length flags.length, by
      simp [call.isVector, opRequires, small, ne, bind, Except.bind]⟩
  | axes values =>
    rw [given] at invalid
    obtain ⟨status, -, err⟩ :=
      (addAxis_marksOnce (by omega : call.input.length ≤ 32)).foldlM_error (s := 0)
        (l := values.zipIdx) trivial (fun _ _ => trivial) (by
          rintro ⟨allowed, -, nodup⟩
          have lt : ∀ axis ∈ values, -(call.input.length : Int) ≤ axis ∧
              axis < call.input.length := by
            intro axis mem
            rw [← zipIdx_map_fst 0 values] at mem
            obtain ⟨entry, got, rfl⟩ := mem_map.mp mem
            exact allowed entry got
          exact invalid ⟨lt, (nodup_canonicalAxis lt).mp nodup⟩)
    refine ⟨status, ?_⟩
    simp only [call.isVector, opRequires, small, decide_true, if_true, bind, Except.bind]
    exact err

end Call

section Window

variable {shape : TensorShape} (pos : ∀ size ∈ shape, 0 < size) (bits : BitVec 32)

/-- The window without its padding. -/
def window (shape : TensorShape) (bits : BitVec 32) : List WindowDim :=
  zipWith (⟨0, ·, ·⟩) shape
    ((range shape.length).map fun i => if inMask bits i then -1 else 1)

theorem getElem_window {d : Nat} (lt : d < (window shape bits).length)
    (lt' : d < shape.length) :
    (window shape bits)[d] = ⟨0, shape[d], if inMask bits d then -1 else 1⟩ := by
  simp [window]

include pos in
theorem map_count_window : (window shape bits).map WindowDim.count = shape := by
  refine ext_getElem (by simp [window]) fun d first snd => ?_
  have size := pos _ (getElem_mem snd)
  rw [getElem_map, getElem_window bits (by simpa using first) snd, WindowDim.count]
  split
  · rw [Int.natAbs_neg, Int.natAbs_one, Nat.div_one]
    exact Nat.add_sub_cancel' size
  · rw [Int.natAbs_one, Nat.div_one]
    exact Nat.add_sub_cancel' size

theorem zipWith_source_window {index : List Nat} (mem : index ∈ indices shape) :
    zipWith WindowDim.source (window shape bits) index = reverseAxes (inMask bits) shape index := by
  have length := length_of_mem_indices mem
  refine ext_getElem (by simp [window, reverseAxes, length]) fun d first snd => ?_
  have lt' : d < index.length := by simpa [reverseAxes] using snd
  have lt : d < shape.length := by omega
  have below := getElem_lt_of_mem_indices mem lt lt'
  rw [getElem_zipWith, getElem_window bits (by simpa [window] using lt) lt]
  simp only [WindowDim.source, reverseAxes, getElem_mapIdx, getD_eq_getElem _ _ lt]
  split
  · simp
    omega
  · simp

include pos in
theorem dmlSlice1_eq {α : Type} (values : List α) (padding : Nat) :
    dmlSlice1 ⟨replicate padding 1 ++ shape, replicate padding 0 ++ packedStrides shape⟩
        (replicate padding ⟨0, 1, 1⟩ ++ window shape bits) values =
      some ((indices shape).map fun index =>
        values[address (packedStrides shape)
          (reverseAxes (inMask bits) shape index)]?) := by
  have lens : (window shape bits).length = shape.length := by simp [window]
  have inside : ∀ entry ∈ (replicate padding (⟨0, 1, 1⟩ : WindowDim) ++
      window shape bits).zip (replicate padding 1 ++ shape),
      entry.1.offset + entry.1.size ≤ entry.2 := by
    intro entry mem
    rw [zip_append (by simp), mem_append] at mem
    rcases mem with leading | mem
    · obtain ⟨first, second⟩ := of_mem_zip leading
      rw [eq_of_mem_replicate first, eq_of_mem_replicate second]
      exact le_refl 1
    · obtain ⟨d, below, rfl⟩ := getElem_of_mem mem
      rw [length_zip, lens, min_self] at below
      rw [getElem_zip, getElem_window bits (by omega) below, zero_add]
  have counts : (replicate padding (⟨0, 1, 1⟩ : WindowDim) ++ window shape bits).map
      WindowDim.count = replicate padding 1 ++ shape := by
    rw [map_append, map_replicate, map_count_window pos bits]
    rfl
  rw [dmlSlice1, if_pos ⟨by simp [lens], inside⟩, counts, indices_leading, map_map]
  congr 1
  refine map_congr_left fun index mem => ?_
  have leading : zipWith WindowDim.source (replicate padding ⟨0, 1, 1⟩)
      (replicate padding 0) = replicate padding 0 := by
    rw [zipWith_replicate']
    rfl
  rw [Function.comp_apply, zipWith_append (by simp), leading,
    zipWith_source_window bits mem, address_leading]

end Window

namespace Call

variable (call : Call)

variable {α : Type}

theorem execute_of_not_describable (bits : BitVec 32)
    (undescribed : ¬DmlTensorDesc.Describable call.input) (values : List α) :
    execute call.toArguments bits values = none := by
  have err : create call.input call.input = none :=
    Option.eq_none_iff_forall_ne_some.mpr fun desc new =>
      undescribed (create_self_eq_some.mp new).1
  rw [execute, err]
  rfl

theorem reversed_of_identity (valid : Valid call.input.length call.dims.values)
    (identity : call.input.isScalar = true ∨ call.dims.shape.numElements = 0) :
    ∀ d < call.input.length, reversed call.input.length call.dims.values d = false := by
  intro d lt
  rcases identity with scalar | empty
  · rw [List.isEmpty_iff.mp scalar] at lt
    exact absurd lt (Nat.not_lt_zero d)
  · rw [← call.dims.sized] at empty
    cases given : call.dims.values with
    | mask flags =>
      rw [given] at valid empty
      rw [← valid, show flags.length = 0 from empty] at lt
      exact absurd lt (Nat.not_lt_zero d)
    | axes values =>
      rw [given] at empty
      rw [length_eq_zero_iff.mp (show values.length = 0 from empty)]
      rfl

theorem execute_eq {bits : BitVec 32} (valid : Valid call.input.length call.dims.values)
    (ne : 0 < call.input.numElements) (marked : ∀ d < call.input.length,
      inMask bits d = reversed call.input.length call.dims.values d)
    (desc : DmlTensorDesc.Describable call.input) (values : List α) :
    execute call.toArguments bits values = some ((indices call.input).map fun index =>
        values[address (packedStrides call.input)
          (reverseAxes (reversed call.input.length call.dims.values) call.input index)]?) := by
  have pos : ∀ size ∈ call.input, 0 < size := fun size mem =>
    Nat.pos_of_ne_zero fun zero => ne.ne' (prod_eq_zero (zero ▸ mem))
  have created := create_self_eq_some.mpr ⟨desc, rfl⟩
  simp only [execute, created, Option.bind_eq_bind, Option.bind_some]
  split
  case isTrue identity =>
    rw [Bool.or_eq_true, beq_iff_eq] at identity
    have none := call.reversed_of_identity valid identity
    rw [SliceOp.dmlIdentity, indices_leading, map_map]
    congr 1
    refine map_congr_left fun index mem => ?_
    have length := length_of_mem_indices mem
    rw [Function.comp_apply, address_leading, reverseAxes_of_none fun d inside => none d (by omega)]
  case isFalse =>
    have padded : zipWith (⟨0, ·, ·⟩) (replicate
        (kNchwDimensionCount - call.input.length) 1 ++ call.input)
        (replicate (kNchwDimensionCount - call.input.length) 1 ++
          (range call.input.length).map fun i => if inMask bits i then -1 else 1) =
        replicate (kNchwDimensionCount - call.input.length)
          (⟨0, 1, 1⟩ : WindowDim) ++ window call.input bits := by
      rw [zipWith_append (by simp), zipWith_replicate']
      rfl
    rw [padded, dmlSlice1_eq pos]
    congr 1
    have same := (reverseAxes_eq_iff pos).mpr fun d inside => .inl (marked d inside)
    exact map_congr_left fun index mem => by rw [same index mem]

theorem compute_of_invalid (invalid : ¬Valid call.input.length call.dims.values) [Zero α]
    (values : List α) : ∃ status, compute call.toArguments values = .reported status := by
  obtain ⟨status, err⟩ := call.axisBits_error invalid
  exact ⟨status, by rw [compute, err]⟩

theorem compute_of_empty (valid : Valid call.input.length call.dims.values)
    (empty : call.input.numElements = 0) [Zero α] (values : List α) :
    compute call.toArguments values = .finished [] := by
  obtain ⟨bits, got, -⟩ := call.axisBits_ok valid
  rw [compute, got]
  simp only
  rw [if_pos empty, NoOpKernel.zeroed_of_empty empty]

theorem compute_of_nonempty (valid : Valid call.input.length call.dims.values)
    (ne : 0 < call.input.numElements) [Zero α] (values : List α) :
    (¬DmlTensorDesc.Describable call.input → compute call.toArguments values = .crashed .check) ∧
      (DmlTensorDesc.Describable call.input → compute call.toArguments values =
        .finished ((indices call.input).map fun index =>
          values[address (packedStrides call.input)
            (reverseAxes (reversed call.input.length call.dims.values) call.input index)]?)) := by
  obtain ⟨bits, hit, marked⟩ := call.axisBits_ok valid
  rw [compute, hit]
  simp only
  rw [if_neg ne.ne']
  constructor
  · intro undescribed
    rw [call.execute_of_not_describable bits undescribed]
  · intro desc
    rw [call.execute_eq valid ne marked desc]

/-- A dimension is reversed if it is requested. -/
def AxesAgree : Prop :=
  ∀ d (_ : d < call.input.length), reversed call.input.length call.dims.values d =
      requested call.input.length call.dims.values d ∨ call.input[d] = 1

/-- The requested axes are reversed if and only if a mask asks for the first dimension and no
    other one, apart from dimensions of size one, and the elements of the input have addresses. -/
theorem reverses_iff : Reverses call.toArguments ↔
      (Valid call.input.length call.dims.values → 0 < call.input.numElements →
        call.AxesAgree ∧ DmlTensorDesc.Describable call.input ∧
          DmlTensorDesc.Addressed call.input) := by
  have inside : ∀ flags : Nat → Bool, ∀ index ∈ indices call.input,
      reverseAxes flags call.input index ∈ indices call.input :=
    fun flags index mem => reverseAxes_mem mem
  have twice : ∀ index ∈ indices call.input,
      call.source (call.source index) = index := fun index mem => reverseAxes_reverseAxes mem
  constructor
  · rintro ⟨-, reverses⟩ valid nonempty
    have pos : ∀ size ∈ call.input, 0 < size := fun size mem =>
      Nat.pos_of_ne_zero fun zero => nonempty.ne' (prod_eq_zero (zero ▸ mem))
    have desc : DmlTensorDesc.Describable call.input := by
      by_contra undescribed
      obtain ⟨finished, -⟩ := reverses valid Nat (range call.input.numElements)
        length_range
      rw [(call.compute_of_nonempty valid nonempty _).1 undescribed] at finished
      exact nomatch finished
    have reads := (reads_gather_iff nonempty (inside _) (inside _)
      (fun index mem => ⟨call.source index, inside _ index mem, twice index mem⟩)).mp
      fun values whole => by
        have finished := (reverses valid Nat values whole).1
        rw [(call.compute_of_nonempty valid nonempty values).2 desc] at finished
        exact SliceOp.Outcome.finished.inj finished
    exact ⟨(reverseAxes_eq_iff pos).mp reads.2, desc, reads.1⟩
  · intro agrees
    refine ⟨fun invalid α _ values => call.compute_of_invalid invalid values,
      fun valid α _ values whole => ?_⟩
    rcases Nat.eq_zero_or_pos call.input.numElements with empty | nonempty
    · have none : values = [] := length_eq_zero_iff.mp (whole.trans empty)
      have gathered : gather call.input call.source values = [] :=
        length_eq_zero_iff.mp ((length_gather values).trans empty)
      rw [call.compute_of_empty valid empty, gathered]
      exact ⟨rfl, [], rfl, by rw [call.compute_of_empty valid empty, none]; rfl⟩
    · obtain ⟨axes, desc, addr⟩ := agrees valid nonempty
      have pos : ∀ size ∈ call.input, 0 < size := fun size mem =>
        Nat.pos_of_ne_zero fun zero => nonempty.ne' (prod_eq_zero (zero ▸ mem))
      have same := (reverseAxes_eq_iff pos).mpr axes
      have computes (values : List α) : compute call.toArguments values =
          .finished (gather call.input call.source values) := by
        rw [(call.compute_of_nonempty valid nonempty values).2 desc]
        congr 1
        refine map_congr_left fun index mem => ?_
        rw [addr _ (inside _ index mem), same index mem]
        rfl
      obtain ⟨out, made⟩ := gather_eq_map_some whole (inside _)
      refine ⟨computes values, out, ?_, ?_⟩
      · rw [computes]
        exact congrArg _ made
      · rw [computes]
        exact congrArg _ (gather_involution whole made (inside _) twice)

end Call

def secondAxis : Call where
  input := [1, 2]
  dims := ⟨[2], .mask [false, true], rfl⟩
  rank := by decide
  isVector := rfl

/-- A mask for the second axis leaves the matrix as it is. -/
theorem secondAxis_not_reverses : ¬Reverses secondAxis.toArguments := by
  intro reverses
  have finished := (reverses.2 rfl Nat [7, 8] rfl).1
  have same : compute secondAxis.toArguments [7, 8] = .finished [some 7, some 8] := rfl
  rw [same] at finished
  exact absurd (SliceOp.Outcome.finished.inj finished) (by decide)

end TfDml.Reverse
