import TfDml.Core.BCast

/-! # The init helpers of BatchMatMul

What the operands' shapes have to satisfy is checked in a callback and in the base constructor,
which goes on after the callback has reported an error.
-/

namespace TfDml.BatchMatMul

open Lib List
open TensorShape (dimSize)

structure Attributes where
  adjX : Bool
  adjY : Bool
  deriving DecidableEq

/-- `BatchMatMul` and `BatchMatMulV2` -/
inductive Version where
  | v1
  | v2
  deriving DecidableEq

structure Arguments where
  version : Version
  attr : Attributes
  in0 : TensorShape
  in1 : TensorShape

def batches (shape : TensorShape) : TensorShape := shape.take (shape.length - 2)

def differentNdims (in0 in1 : TensorShape) : Status :=
  .invalidArgument
    s!"In[0] and In[1] has different ndims: {in0.debugString} vs. {in1.debugString}"

def fewNdims (ndims : Nat) : Status :=
  .invalidArgument s!"In[0] and In[1] ndims must be >= 2: {ndims}"

def differentDim (i : Nat) (in0 in1 : TensorShape) : Status :=
  .invalidArgument (s!"In[0].dim({i}) and In[1].dim({i}) must be the same: " ++
    s!"{in0.debugString} vs {in1.debugString}")

def fewNdimsOf (input ndims : Nat) : Status :=
  .invalidArgument s!"In[{input}] ndims must be >= 2: {ndims}"

/-- `ValidateInputTensors`, with the shapes and the loop's dimensions -/
def validateInputTensors (version : Version) (in0 in1 : TensorShape) : Except Status Unit :=
  match version with
  | .v1 => do
    opRequires (in0.length = in1.length) (differentNdims in0 in1)
    let ndims := in0.length
    opRequires (2 ≤ ndims) (fewNdims ndims)
    (List.range (ndims - 2)).forM fun i =>
      opRequires (in0[i]? = in1[i]?) (differentDim i in0 in1)
  | .v2 => do
    opRequires (2 ≤ in0.length) (fewNdimsOf 0 in0.length)
    opRequires (2 ≤ in1.length) (fewNdimsOf 1 in1.length)

def incompatibleBatches (in0 in1 : TensorShape) : Status :=
  .invalidArgument ("In[0] and In[1] must have compatible batch dimensions: " ++
    s!"{in0.debugString} vs. {in1.debugString}")

def manyDimensions (dims : Nat) : Status :=
  .invalidArgument ("DML doesn't support more than 8D for BroadcastTo after " ++
    s!"collapsing dimensions together, but the output has {dims} dimensions.")

def mismatch (args : Arguments) (in0Cols in1Rows : Nat) : Status :=
  .invalidArgument (s!"In[0] mismatch In[1] shape: {in0Cols} vs. {in1Rows}: " ++
    s!"{args.in0.debugString} {args.in1.debugString} " ++
    s!"{args.attr.adjX.toNat} {args.attr.adjY.toNat}")

/-- The last checks, for the batch dimensions of the output. -/
def checkOutput (args : Arguments) (output : TensorShape) (in0Rows in0Cols in1Rows in1Cols : Nat) :
    Except Status Unit := do
  let (in0Rows, in0Cols) := if args.attr.adjX then (in0Cols, in0Rows) else (in0Rows, in0Cols)
  let (in1Rows, in1Cols) := if args.attr.adjY then (in1Cols, in1Rows) else (in1Rows, in1Cols)
  let collapsedOutputShape := output ++ [in0Rows, in1Cols]
  opRequires (collapsedOutputShape.length ≤ 8) (manyDimensions collapsedOutputShape.length)
  opRequires (in0Cols = in1Rows) (mismatch args in0Cols in1Rows)

def reports (checked : Except Status Unit) : List Status :=
  match checked with
  | .ok () => []
  | .error status => [status]

/-- `BaseBatchMatMulInitHelper`: the errors that are reported, in their order. Without a result,
    a dimension that does not exist is read. -/
def construct (args : Arguments) : Option (List Status) := do
  let validated := reports (validateInputTensors args.version args.in0 args.in1)
  match BCast.create (batches args.in0) (batches args.in1) true with
  | none => return validated ++ [incompatibleBatches args.in0 args.in1]
  | some batchesBcast =>
    let in0Rows ← dimSize args.in0 (args.in0.length - 2)
    let in0Cols ← dimSize args.in0 (args.in0.length - 1)
    let in1Rows ← dimSize args.in1 (args.in1.length - 2)
    let in1Cols ← dimSize args.in1 (args.in1.length - 1)
    return validated ++
      reports (checkOutput args batchesBcast.output in0Rows in0Cols in1Rows in1Cols)

def fromEnd (shape : TensorShape) (k : Nat) : Nat := shape.getD (shape.length - k) 0

def inner0 (args : Arguments) : Nat := fromEnd args.in0 (if args.attr.adjX then 2 else 1)
def inner1 (args : Arguments) : Nat := fromEnd args.in1 (if args.attr.adjY then 1 else 2)

/-- The batch dimensions are equal, or only broadcastable. -/
def BatchesFit (args : Arguments) : Prop :=
  match args.version with
  | .v1 => batches args.in0 = batches args.in1
  | .v2 => (broadcast (batches args.in0) (batches args.in1)).isSome

def Bad (args : Arguments) : Prop :=
  args.in0.length < 2 ∨ args.in1.length < 2 ∨ ¬BatchesFit args ∨
    8 < max args.in0.length args.in1.length ∨ inner0 args ≠ inner1 args

/-- The shapes are rejected as they should be, and only existing dimensions are read. -/
def RejectsSafely (args : Arguments) : Prop :=
  ∃ errors, construct args = some errors ∧ (errors ≠ [] ↔ Bad args) ∧
    ∀ status ∈ errors, status.isInvalidArgument = true

theorem reports_eq_nil {checked : Except Status Unit} :
    reports checked = [] ↔ checked = .ok () := by
  cases checked with
  | ok => exact ⟨fun _ => rfl, fun _ => rfl⟩
  | error status => simp [reports]

theorem length_batches (shape : TensorShape) : (batches shape).length = shape.length - 2 := by
  rw [batches, length_take]
  omega

theorem validateInputTensors_ok {version : Version} {in0 in1 : TensorShape}
    (rank0 : 2 ≤ in0.length) (rank1 : 2 ≤ in1.length) :
    validateInputTensors version in0 in1 = .ok () ↔
      (version = .v1 → batches in0 = batches in1) := by
  cases version with
  | v2 => simp [validateInputTensors, opRequires, rank0, rank1, bind, Except.bind]
  | v1 =>
    have checked : validateInputTensors .v1 in0 in1 = .ok () ↔
        in0.length = in1.length ∧ ∀ i < in0.length - 2, in0[i]? = in1[i]? := by
      simp only [validateInputTensors, bind_eq_ok, opRequires_eq_ok, decide_eq_true_eq,
        exists_const, forM_eq_ok, mem_range, rank0, true_and]
    rw [checked]
    constructor
    · rintro ⟨lens, same⟩ -
      rw [batches, batches, ← lens]
      refine ext_getElem? fun i => ?_
      rw [getElem?_take, getElem?_take]
      split
      case isTrue lt => exact same i lt
      case isFalse => rfl
    · intro eq
      have same := eq rfl
      have lens := congrArg List.length same
      rw [length_batches, length_batches] at lens
      refine ⟨by omega, fun i lt => ?_⟩
      have entry := congrArg (·[i]?) same
      simp only [batches, getElem?_take] at entry
      rwa [if_pos lt, if_pos (by omega)] at entry

theorem batches_append {shape : List Nat} (rank : 2 ≤ shape.length) :
    shape = batches shape ++ [fromEnd shape 2, fromEnd shape 1] := by
  have matrix : shape.drop (shape.length - 2) = [fromEnd shape 2, fromEnd shape 1] := by
    have snd : shape.length - 2 + 1 = shape.length - 1 := by omega
    rw [drop_eq_getElem_cons (by omega), snd, drop_eq_getElem_cons (by omega),
      drop_of_length_le (by omega), fromEnd, fromEnd, getD_eq_getElem _ _ (by omega),
      getD_eq_getElem _ _ (by omega)]
  rw [batches, ← matrix, take_append_drop]

section Ends

variable (shape : List Nat) (i j : Nat)

theorem batches_concat : batches (shape ++ [i, j]) = shape := by
  rw [batches, length_append]
  exact take_left

theorem fromEnd_concat : fromEnd (shape ++ [i, j]) 2 = i ∧ fromEnd (shape ++ [i, j]) 1 = j := by
  constructor
  · rw [fromEnd, length_append]
    simp
  · rw [fromEnd, length_append]
    simp

end Ends

theorem dimSize_fromEnd {shape : TensorShape} (rank : 2 ≤ shape.length) {k : Nat}
    (pos : 0 < k) (small : k ≤ 2) : dimSize shape (shape.length - k) = some (fromEnd shape k) := by
  have place : ((shape.length : Int) - k).toNat = shape.length - k := by omega
  have lt : shape.length - k < shape.length := by omega
  rw [dimSize, if_pos (by omega), place, fromEnd, getElem?_eq_getElem lt, getD_eq_getElem _ _ lt]

theorem checkOutput_ok (args : Arguments) (output : TensorShape) :
    checkOutput args output (fromEnd args.in0 2) (fromEnd args.in0 1) (fromEnd args.in1 2)
        (fromEnd args.in1 1) = .ok () ↔ output.length + 2 ≤ 8 ∧ inner0 args = inner1 args := by
  cases adjX : args.attr.adjX <;> cases adjY : args.attr.adjY <;>
    simp [checkOutput, bind_eq_ok, inner0, inner1, adjX, adjY]

def OnlyInvalid {α : Type} (checked : Except Status α) : Prop :=
  ∀ status, checked = .error status → status.isInvalidArgument = true

theorem onlyInvalid_opRequires (cond : Bool) (message : String) :
    OnlyInvalid (opRequires cond (.invalidArgument message)) := by
  intro status err
  cases cond with
  | true => exact nomatch err
  | false =>
    rw [← Except.error.inj err]
    rfl

theorem OnlyInvalid.bind {α β : Type} {x : Except Status α} {f : α → Except Status β}
    (first : OnlyInvalid x) (later : ∀ a, OnlyInvalid (f a)) : OnlyInvalid (x >>= f) := by
  intro status failed
  cases x with
  | error err => exact first status (congrArg Except.error (Except.error.inj failed))
  | ok a => exact later a status failed

theorem onlyInvalid_forM {α : Type} (l : List α) {f : α → Except Status Unit}
    (each : ∀ a, OnlyInvalid (f a)) : OnlyInvalid (l.forM f) := by
  induction l with
  | nil => exact nofun
  | cons a rest ih => exact (each a).bind fun _ => ih

theorem onlyInvalid_validate (version : Version) (in0 in1 : TensorShape) :
    OnlyInvalid (validateInputTensors version in0 in1) := by
  cases version with
  | v1 =>
    exact (onlyInvalid_opRequires _ _).bind fun _ =>
      (onlyInvalid_opRequires _ _).bind fun _ =>
        onlyInvalid_forM _ fun _ => onlyInvalid_opRequires _ _
  | v2 => exact (onlyInvalid_opRequires _ _).bind fun _ => onlyInvalid_opRequires _ _

theorem onlyInvalid_checkOutput (args : Arguments) (output : TensorShape)
    (in0Rows in0Cols in1Rows in1Cols : Nat) :
    OnlyInvalid (checkOutput args output in0Rows in0Cols in1Rows in1Cols) := by
  rw [checkOutput]
  exact (onlyInvalid_opRequires _ _).bind fun _ => onlyInvalid_opRequires _ _

theorem OnlyInvalid.of_mem_reports {checked : Except Status Unit} (only : OnlyInvalid checked)
    {status : Status} (mem : status ∈ reports checked) : status.isInvalidArgument = true := by
  cases checked with
  | ok => exact nomatch mem
  | error err =>
    obtain rfl := mem_singleton.mp mem
    exact only status rfl

theorem construct_of_ranks {args : Arguments} (rank0 : 2 ≤ args.in0.length)
    (rank1 : 2 ≤ args.in1.length) :
    construct args = some (reports (validateInputTensors args.version args.in0 args.in1) ++
      match broadcast (batches args.in0) (batches args.in1) with
      | none => [incompatibleBatches args.in0 args.in1]
      | some output => reports (checkOutput args output (fromEnd args.in0 2)
          (fromEnd args.in0 1) (fromEnd args.in1 2) (fromEnd args.in1 1))) := by
  have rows0 := dimSize_fromEnd rank0 two_pos (le_refl 2)
  have cols0 := dimSize_fromEnd rank0 one_pos (by decide)
  have rows1 := dimSize_fromEnd rank1 two_pos (le_refl 2)
  have cols1 := dimSize_fromEnd rank1 one_pos (by decide)
  rw [Nat.cast_ofNat] at rows0 rows1
  rw [Nat.cast_one] at cols0 cols1
  rw [construct, ← BCast.create_output _ _ true]
  cases BCast.create (batches args.in0) (batches args.in1) true with
  | none => rfl
  | some bcast => simp [rows0, cols0, rows1, cols1]

theorem construct_of_short {args : Arguments}
    (short : args.in0.length < 2 ∨ args.in1.length < 2) : construct args = none := by
  have single {shape : TensorShape} (few : shape.length < 2) : batches shape = [] := by
    rw [batches, Nat.sub_eq_zero_of_le (Nat.le_of_lt few), take_zero]
  have fits : (broadcast (batches args.in0) (batches args.in1)).isSome = true := by
    rcases short with few | few
    · rw [single few, broadcast_nil]
      rfl
    · rw [single few, broadcast_comm, broadcast_nil]
      rfl
  rw [← BCast.create_output _ _ true, Option.isSome_map, Option.isSome_iff_exists] at fits
  obtain ⟨bcast, new⟩ := fits
  have outside {shape : TensorShape} (few : shape.length < 2) :
      dimSize shape (shape.length - 2) = none := by
    rw [dimSize, if_neg (by omega)]
  rw [construct, new]
  rcases short with few | few
  · simp [outside few]
  · cases dimSize args.in0 (args.in0.length - 2) <;>
      cases dimSize args.in0 (args.in0.length - 1) <;> simp [outside few]

theorem accepts_iff {args : Arguments} (rank0 : 2 ≤ args.in0.length)
    (rank1 : 2 ≤ args.in1.length) : ((args.version = .v1 → batches args.in0 = batches args.in1) ∧
      (match broadcast (batches args.in0) (batches args.in1) with
        | none => [incompatibleBatches args.in0 args.in1]
        | some output => reports (checkOutput args output (fromEnd args.in0 2)
            (fromEnd args.in0 1) (fromEnd args.in1 2) (fromEnd args.in1 1))) = []) ↔ ¬Bad args := by
  have ranks : ¬args.in0.length < 2 ∧ ¬args.in1.length < 2 := by omega
  simp only [Bad, ranks.1, ranks.2, false_or, not_or, not_not, Nat.not_lt]
  cases shape : broadcast (batches args.in0) (batches args.in1) with
  | none =>
    have unfit : ¬BatchesFit args := by
      rw [BatchesFit]
      split
      case h_1 =>
        intro eq
        rw [eq, broadcast_self] at shape
        exact nomatch shape
      case h_2 => simp [shape]
    simp [unfit]
  | some output =>
    have fit : BatchesFit args ↔ (args.version = .v1 → batches args.in0 = batches args.in1) := by
      rw [BatchesFit]
      split
      case h_1 version => simp [version]
      case h_2 version => simp [version, shape]
    have rank : output.length + 2 = max args.in0.length args.in1.length := by
      rw [length_of_broadcast shape, length_batches, length_batches]
      omega
    rw [reports_eq_nil, checkOutput_ok, rank, fit]

/-- Shapes are rejected safely if and only if both have two dimensions. -/
theorem rejectsSafely_iff (args : Arguments) :
    RejectsSafely args ↔ 2 ≤ args.in0.length ∧ 2 ≤ args.in1.length := by
  constructor
  · rintro ⟨errors, constructed, -⟩
    by_contra short
    rw [construct_of_short (by omega)] at constructed
    exact nomatch constructed
  · rintro ⟨rank0, rank1⟩
    refine ⟨_, construct_of_ranks rank0 rank1, ?_, fun status mem => ?_⟩
    · rw [Ne, append_eq_nil_iff, reports_eq_nil, validateInputTensors_ok rank0 rank1,
        accepts_iff rank0 rank1, not_not]
    · rcases mem_append.mp mem with first | later
      · exact (onlyInvalid_validate _ _ _).of_mem_reports first
      · split at later
        · rw [mem_singleton.mp later]
          rfl
        · exact (onlyInvalid_checkOutput _ _ _ _ _ _).of_mem_reports later

/-- A scalar is reported, but its dimensions are read all the same. -/
theorem scalar_not_rejectsSafely : ¬RejectsSafely ⟨.v2, ⟨false, false⟩, [], [2, 3]⟩ := by
  rintro ⟨errors, constructed, -⟩
  have outside : construct ⟨.v2, ⟨false, false⟩, [], [2, 3]⟩ = none := by decide
  rw [outside] at constructed
  exact nomatch constructed

end TfDml.BatchMatMul
