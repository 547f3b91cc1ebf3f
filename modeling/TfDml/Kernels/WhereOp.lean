import TfDml.Core.BufferRegion
import TfDml.Core.TensorDesc

/-! # Where

The coordinates of the elements that are not zero are computed into a temporary, since how many
there are is only known after the count has been read back. The kernel that computes them lives on
the stack, and only the readback waits for what has been recorded from it.
-/

namespace TfDml.WhereOp

open Lib List
open BufferRegion (eq_fatal_of_region region region_of_pos region_zero subregion
  subregion_start)
open DmlTensorDesc (create create_self_eq_some Describable)
open Stop

inductive ElementType where
  | float | int8 | uint8 | int64 | bool

/-- `DataTypeSize` -/
def ElementType.size : ElementType → Nat
  | .float => 4
  | .int8 | .uint8 | .bool => 1
  | .int64 => 8

/-- What may report a status: the allocations, `Initialize` and `Compute` of the helper, and the
    two halves of `CopyDeviceTensorToCPU`. -/
inductive Step where
  | allocateCount
  | allocateCoordinates
  | initialize_
  | compute
  | allocateCountCpu
  | readbackFromGpu
  | sync
  | allocateOutput

structure Input (α : Type) where
  dtype : ElementType
  shape : TensorShape
  elements : List α
  nonzero : α → Bool
  sized : elements.length = shape.numElements
  rank : shape.length ≤ 8
  addressable : shape.numElements * dtype.size < 2 ^ 63

/-- The coordinates of the elements that are not zero, in row-major order. -/
def Input.rows {α : Type} (input : Input α) : List (List Nat) :=
  (((indices input.shape).zip input.elements).filter fun entry => input.nonzero entry.2).map Prod.fst

/-- An invocation, with the statuses of its steps, and with what `NonZeroCoordinates` leaves in the
    two temporaries, as it is documented. -/
structure Call (α : Type) extends Input α where
  status : Step → Status
  count : Nat
  coordinates : List Int
  counted : count = toInput.rows.length
  inOrder : coordinates.take (count * shape.length) = toInput.rows.flatten.map Int.ofNat

/-- A tensor of `int64_t` elements. -/
structure Output where
  shape : TensorShape
  values : List Int

/-- The state is the number of commands that were recorded from the helper and are pending. -/
abbrev Kernel := ExceptT Stop (StateM Nat)

def record : Kernel Unit := modify (· + 1)

/-- `DmlTensorDesc::Create`, whose checks are the same without leading dimensions. -/
def createDesc (shape : TensorShape) : Except Stop Unit := check (create shape shape).isSome

namespace Call

variable {α : Type} (c : Call α) (progress : Step → Nat)

/-- A step, while the GPU completes some of the pending commands. -/
def attempt (step : Step) : Kernel Unit := do
  modify (· - progress step)
  if (c.status step).isOk then pure () else throw (.status (c.status step))

def outputCountShape : TensorShape := List.replicate c.shape.length 1

def outputCoordinatesShape : TensorShape :=
  List.replicate (c.shape.length - 2) 1 ++ [c.shape.numElements, c.shape.length]

/-- The descriptors that `DmlWhereHelper` is made with. -/
def createDescs : Except Stop Unit := do
  createDesc c.shape
  createDesc c.outputCountShape
  createDesc c.outputCoordinatesShape

/-- The buffers that `DmlWhereHelper::Compute` binds. -/
def bindBuffers : Except Stop Unit := do
  let _ ← region (c.shape.numElements * c.dtype.size)
  let _ ← region (c.outputCountShape.numElements * 4)
  let _ ← region (c.outputCoordinatesShape.numElements * 8)
  .ok ()

/-- `CopyTensorInSameDevice`, from the temporary to an output of the shape. -/
def copyTensorInSameDevice (shape : TensorShape) : Except Stop (List Int) := do
  let totalBytes := shape.numElements * 8
  if totalBytes = 0 then .ok []
  else do
    let src ← region (c.outputCoordinatesShape.numElements * 8)
    let dst ← region totalBytes
    let src ← subregion src 0 totalBytes
    check (src ≤ dst)
    .ok (c.coordinates.take (src / 8))

def dmlWhereHelper : Kernel Unit := do
  ExceptT.mk (pure c.createDescs)
  c.attempt progress .initialize_
  record

/-- `DmlWhereHelper::Compute` -/
def computeHelper : Kernel Unit := do
  ExceptT.mk (pure c.bindBuffers)
  c.attempt progress .compute
  record

def copyDeviceTensorToCPU : Kernel Unit := do
  c.attempt progress .readbackFromGpu
  c.attempt progress .sync
  set 0

def copyRows : Kernel Output := do
  let outputShape := [c.count, c.shape.length]
  c.attempt progress .allocateOutput
  if c.count = 0 then
    return ⟨outputShape, []⟩
  let values ← ExceptT.mk (pure (c.copyTensorInSameDevice outputShape))
  return ⟨outputShape, values⟩

def computeImpl : Kernel Output := do
  if 8 < c.shape.length then
    throw (.status (.invalidArgument ("DML doesn't support more than 8D for Where, but " ++
      toString c.shape.length ++ " dimensions were provided.")))
  if c.shape.numElements = 0 then
    c.attempt progress .allocateOutput
    return ⟨[0, c.shape.length], []⟩
  c.attempt progress .allocateCount
  c.attempt progress .allocateCoordinates
  c.dmlWhereHelper progress
  c.computeHelper progress
  c.attempt progress .allocateCountCpu
  c.copyDeviceTensorToCPU progress
  c.copyRows progress

/-- How the op ends, and how many commands of the helper are then pending. -/
def exit : Except Stop Output × Nat := (c.computeImpl progress).run.run 0

/-- The coordinates as an `int64` tensor. -/
def reference : Output := ⟨[c.rows.length, c.shape.length], c.rows.flatten.map Int.ofNat⟩

def Fails (step : Step) : Prop := (c.status step).isOk = false

/-- The op outputs the coordinates unless a step fails, whose status it reports, and no command of
    the helper is pending. -/
def Ends (exit : Except Stop Output × Nat) : Prop :=
  (exit.1 = .ok c.reference ∨ ∃ step, c.Fails step ∧ exit.1 = .error (.status (c.status step))) ∧
    exit.2 = 0

def Correct : Prop := ∀ progress, c.Ends (c.exit progress)

/-- It is empty, or nothing is recorded since an allocation or the initialization fails first, or it
    is no scalar and no step fails between the first command and the synchronization. Beyond the
    allocations, its size has to fit into 32 bits. -/
def Supported : Prop :=
  c.shape.numElements = 0 ∨ c.Fails .allocateCount ∨ c.Fails .allocateCoordinates ∨
    c.shape.numElements < 2 ^ 32 ∧ (c.Fails .initialize_ ∨ 0 < c.shape.length ∧
      ∀ step ∈ [Step.compute, .allocateCountCpu, .readbackFromGpu, .sync], ¬c.Fails step)

section Runs

variable {β γ : Type} {c} {progress} {pending : Nat}

theorem run_attempt {step : Step} {f : Unit → Kernel β} :
    (c.attempt progress step >>= f).run.run pending =
      if (c.status step).isOk then (f ()).run.run (pending - progress step)
      else (.error (.status (c.status step)), pending - progress step) := by
  cases ok : (c.status step).isOk with
  | true => simp [attempt, ok]; rfl
  | false => simp [attempt, ok]; rfl

theorem run_ok {b : β} {f : β → Kernel γ} :
    (ExceptT.mk (pure (.ok b)) >>= f).run.run pending = (f b).run.run pending := rfl

theorem run_error {stop : Stop} {f : β → Kernel γ} :
    (ExceptT.mk (pure (.error stop)) >>= f).run.run pending = (.error stop, pending) := rfl

theorem run_record {f : Unit → Kernel β} :
    (record >>= f).run.run pending = (f ()).run.run (pending + 1) := rfl

theorem run_set {n : Nat} {f : Unit → Kernel β} :
    ((set n : Kernel Unit) >>= f).run.run pending = (f ()).run.run n := rfl

end Runs

variable {c} {progress}

theorem createDesc_of_describable {shape : TensorShape} (desc : Describable shape) :
    createDesc shape = .ok () := by
  rw [createDesc, create_self_eq_some.mpr ⟨desc, rfl⟩]
  rfl

theorem describable_of_createDesc {shape : TensorShape} (isOk : createDesc shape = .ok ()) :
    Describable shape := by
  obtain ⟨desc, new⟩ := Option.isSome_iff_exists.mp (check_eq_ok.mp isOk)
  exact (create_self_eq_some.mp new).1

theorem eq_fatal_of_createDesc {shape : TensorShape} {stop : Stop}
    (err : createDesc shape = .error stop) : stop = .fatal :=
  (check_eq_error.mp err).2

theorem createDescs_of_lt (some_ : 0 < c.shape.numElements) (lt : c.shape.numElements < 2 ^ 32) :
    c.createDescs = .ok () := by
  have rank := c.rank
  have input : Describable c.shape :=
    ⟨rank, fun dim mem =>
      (Nat.le_of_dvd some_ (dvd_prod mem)).trans_lt lt⟩
  have count : Describable c.outputCountShape :=
    ⟨by rwa [outputCountShape, length_replicate],
      fun dim mem => by rw [eq_of_mem_replicate mem]; decide⟩
  have coordinates : Describable c.outputCoordinatesShape := by
    constructor
    · rw [outputCoordinatesShape, length_append, length_replicate]
      exact Nat.add_le_add_right (Nat.sub_le_sub_right rank 2) 2
    · intro dim mem
      rw [outputCoordinatesShape, mem_append, mem_replicate, mem_pair] at mem
      omega
  rw [createDescs, createDesc_of_describable input, ok_bind, createDesc_of_describable count,
    ok_bind, createDesc_of_describable coordinates]

theorem createDescs_of_le (large : 2 ^ 32 ≤ c.shape.numElements) :
    c.createDescs = .error .fatal := by
  rw [createDescs]
  cases input : createDesc c.shape with
  | error stop => rw [eq_fatal_of_createDesc input]; rfl
  | ok _ =>
    cases count : createDesc c.outputCountShape with
    | error stop => rw [eq_fatal_of_createDesc count]; rfl
    | ok _ =>
      cases coordinates : createDesc c.outputCoordinatesShape with
      | error stop => rw [eq_fatal_of_createDesc coordinates]; rfl
      | ok _ =>
        have lt := (describable_of_createDesc coordinates).dims c.shape.numElements
          (by simp [outputCoordinatesShape])
        omega

theorem numElements_outputCountShape : c.outputCountShape.numElements = 1 := by
  simp [outputCountShape, TensorShape.numElements]

theorem numElements_outputCoordinatesShape :
    c.outputCoordinatesShape.numElements = c.shape.numElements * c.shape.length := by
  simp [outputCoordinatesShape, TensorShape.numElements]

theorem bindBuffers_of_pos (some_ : 0 < c.shape.numElements)
    (lt : c.shape.numElements < 2 ^ 32) (rank : 0 < c.shape.length) : c.bindBuffers = .ok () := by
  have size : 0 < c.dtype.size := by cases c.dtype <;> decide
  have wide : c.shape.numElements * c.shape.length < 2 ^ 60 :=
    (Nat.mul_le_mul lt.le c.rank).trans_lt (by decide)
  obtain ⟨_, input, -⟩ := region_of_pos (mul_pos some_ size) c.addressable
  have pos : 0 < c.shape.numElements * c.shape.length * 8 :=
    mul_pos (mul_pos some_ rank) (by decide)
  obtain ⟨_, coordinates, -⟩ := region_of_pos pos (by omega)
  rw [bindBuffers, numElements_outputCountShape, numElements_outputCoordinatesShape, input,
    coordinates]
  rfl

theorem bindBuffers_of_scalar (scalar : c.shape.length = 0) : c.bindBuffers = .error .fatal := by
  have none_ : region (c.outputCoordinatesShape.numElements * 8) = .error .fatal := by
    rw [numElements_outputCoordinatesShape, scalar, mul_zero, zero_mul, region_zero]
  rw [bindBuffers, none_]
  cases input : region (c.shape.numElements * c.dtype.size) with
  | error stop => rw [eq_fatal_of_region input]; rfl
  | ok size =>
    cases count : region (c.outputCountShape.numElements * 4) with
    | error stop => rw [eq_fatal_of_region count]; rfl
    | ok size => rfl

theorem count_le : c.count ≤ c.shape.numElements := by
  rw [c.counted, Input.rows, length_map]
  refine (length_filter_le _ _).trans ?_
  rw [length_zip]
  exact (Nat.min_le_right _ _).trans c.sized.le

theorem copyTensorInSameDevice_eq (lt : c.shape.numElements < 2 ^ 32) :
    c.copyTensorInSameDevice [c.count, c.shape.length] =
      .ok (c.coordinates.take (c.count * c.shape.length)) := by
  have few := Nat.mul_le_mul_right c.shape.length c.count_le
  have wide : c.shape.numElements * c.shape.length < 2 ^ 60 :=
    (Nat.mul_le_mul lt.le c.rank).trans_lt (by decide)
  have product : TensorShape.numElements [c.count, c.shape.length] = c.count * c.shape.length := by
    simp [TensorShape.numElements]
  rw [copyTensorInSameDevice, product, numElements_outputCoordinatesShape]
  split
  case isTrue empty =>
    rw [(mul_eq_zero.mp empty).resolve_right (by decide), take_zero]
  case isFalse some_ =>
    have pos : 0 < c.shape.numElements * c.shape.length * 8 := by omega
    obtain ⟨src, isSrc, srcWide⟩ := region_of_pos pos (by omega)
    obtain ⟨dst, isDst, dstWide⟩ := region_of_pos (Nat.pos_of_ne_zero some_) (by omega)
    rw [isSrc, ok_bind, isDst, ok_bind,
      subregion_start (Nat.pos_of_ne_zero some_) (by omega), ok_bind]
    simp [check, dstWide, ok_bind]

theorem not_fails {step : Step} : ¬c.Fails step ↔ (c.status step).isOk = true := by
  rw [Fails, Bool.not_eq_false]

theorem reference_of_empty (empty : c.shape.numElements = 0) :
    c.reference = ⟨[0, c.shape.length], []⟩ := by
  have none_ : c.rows = [] := by
    rw [Input.rows, length_eq_zero_iff.mp (c.sized.trans empty), zip_nil_right]
    rfl
  rw [reference, none_]
  rfl

theorem reference_eq : c.reference = ⟨[c.count, c.shape.length],
    c.coordinates.take (c.count * c.shape.length)⟩ := by
  rw [reference, c.inOrder, c.counted]

theorem run_dmlWhereHelper {f : Unit → Kernel Output} (some_ : 0 < c.shape.numElements)
    (lt : c.shape.numElements < 2 ^ 32) : (c.dmlWhereHelper progress >>= f).run.run 0 =
      if (c.status .initialize_).isOk then (f ()).run.run 1
      else (.error (.status (c.status .initialize_)), 0) := by
  simp only [dmlWhereHelper, bind_assoc, createDescs_of_lt some_ lt, run_ok, run_attempt,
    run_record, Nat.zero_sub]

theorem run_copyRows (lt : c.shape.numElements < 2 ^ 32) : (c.copyRows progress).run.run 0 =
      if (c.status .allocateOutput).isOk then (.ok c.reference, 0)
      else (.error (.status (c.status .allocateOutput)), 0) := by
  rw [copyRows, run_attempt, Nat.zero_sub, reference_eq, copyTensorInSameDevice_eq lt]
  congr 1
  split
  case isTrue zero => rw [zero, zero_mul, take_zero]; rfl
  case isFalse => rfl

theorem exit_of_empty (empty : c.shape.numElements = 0) :
    c.exit progress = if (c.status .allocateOutput).isOk then (.ok c.reference, 0)
      else (.error (.status (c.status .allocateOutput)), 0) := by
  rw [exit, computeImpl, if_neg (Nat.not_lt.mpr c.rank), if_pos empty, reference_of_empty empty]
  exact run_attempt.trans (by rw [Nat.zero_sub]; rfl)

theorem exit_of_some (some_ : 0 < c.shape.numElements) : c.exit progress =
      if (c.status .allocateCount).isOk then
        if (c.status .allocateCoordinates).isOk then
          (do
            c.dmlWhereHelper progress
            c.computeHelper progress
            c.attempt progress .allocateCountCpu
            c.copyDeviceTensorToCPU progress
            c.copyRows progress : Kernel Output).run.run 0
        else (.error (.status (c.status .allocateCoordinates)), 0)
      else (.error (.status (c.status .allocateCount)), 0) := by
  rw [exit, computeImpl, if_neg (Nat.not_lt.mpr c.rank), if_neg some_.ne', run_attempt, run_attempt]
  simp only [Nat.zero_sub]

theorem run_computeHelper {f : Unit → Kernel Output} {pending : Nat}
    (bound : c.bindBuffers = .ok ()) : (c.computeHelper progress >>= f).run.run pending =
      if (c.status .compute).isOk then (f ()).run.run (pending - progress .compute + 1)
      else (.error (.status (c.status .compute)), pending - progress .compute) := by
  simp only [computeHelper, bind_assoc, bound, run_ok, run_attempt, run_record]

theorem run_copyDeviceTensorToCPU {f : Unit → Kernel Output} {pending : Nat} :
    (c.copyDeviceTensorToCPU progress >>= f).run.run pending =
      if (c.status .readbackFromGpu).isOk then
        if (c.status .sync).isOk then (f ()).run.run 0
        else (.error (.status (c.status .sync)),
          pending - progress .readbackFromGpu - progress .sync)
      else (.error (.status (c.status .readbackFromGpu)), pending - progress .readbackFromGpu) := by
  simp only [copyDeviceTensorToCPU, bind_assoc, run_attempt, run_set]

theorem ends_of_reports {step : Step} {rest : Except Stop Output × Nat}
    (ends : (c.status step).isOk = true → c.Ends rest) :
    c.Ends (if (c.status step).isOk then rest else (.error (.status (c.status step)), 0)) := by
  cases ok : (c.status step).isOk with
  | true => exact ends ok
  | false => exact ⟨.inr ⟨step, ok, rfl⟩, rfl⟩

theorem correct_of_supported (supported : c.Supported) : c.Correct := by
  intro progress
  have put : c.Ends (.ok c.reference, 0) := ⟨.inl rfl, rfl⟩
  rcases Nat.eq_zero_or_pos c.shape.numElements with empty | some_
  · rw [exit_of_empty empty]
    exact ends_of_reports fun _ => put
  · rw [exit_of_some some_]
    refine ends_of_reports fun first => ends_of_reports fun snd => ?_
    rcases supported with empty | failed | failed | ⟨lt, rest⟩
    · exact absurd empty some_.ne'
    · exact absurd failed (not_fails.mpr first)
    · exact absurd failed (not_fails.mpr snd)
    · rw [run_dmlWhereHelper some_ lt]
      refine ends_of_reports fun initialized => ?_
      obtain ⟨rank, running⟩ := rest.resolve_left (not_fails.mpr initialized)
      simp only [forall_mem_cons, not_fails] at running
      obtain ⟨compute, countCpu, readback, sync, -⟩ := running
      rw [run_computeHelper (bindBuffers_of_pos some_ lt rank), if_pos compute, run_attempt,
        if_pos countCpu, run_copyDeviceTensorToCPU, if_pos readback, if_pos sync, run_copyRows lt]
      exact ends_of_reports fun _ => put

/-- A status or a `CHECK` that ends the op while commands are pending. -/
theorem not_ends_of_pending {stop : Stop} {pending : Nat}
    (bad : stop = .fatal ∨ pending ≠ 0) : ¬c.Ends (.error stop, pending) := by
  rintro ⟨put | ⟨_, -, err⟩, settled⟩
  · exact nomatch put
  · rcases bad with rfl | pending
    · exact nomatch err
    · exact pending settled

theorem supported_of_correct (correct : c.Correct) : c.Supported := by
  -- The GPU may make no progress before the synchronization.
  have ends := correct fun _ => 0
  by_contra unsupported
  simp only [Supported, not_or, not_and, not_fails] at unsupported
  obtain ⟨ne, first, snd, rest⟩ := unsupported
  have some_ := Nat.pos_of_ne_zero ne
  rw [exit_of_some some_, if_pos first, if_pos snd] at ends
  rcases Nat.lt_or_ge c.shape.numElements (2 ^ 32) with lt | large
  · obtain ⟨initialized, rest⟩ := rest lt
    rw [run_dmlWhereHelper some_ lt, if_pos initialized] at ends
    rcases Nat.eq_zero_or_pos c.shape.length with scalar | rank
    · simp only [computeHelper, bind_assoc, bindBuffers_of_scalar scalar, run_error] at ends
      exact not_ends_of_pending (.inl rfl) ends
    · rw [run_computeHelper (bindBuffers_of_pos some_ lt rank)] at ends
      have pending {stop : Stop} {n : Nat} : ¬c.Ends (.error stop, n + 1) :=
        not_ends_of_pending (.inr n.succ_ne_zero)
      cases compute : (c.status .compute).isOk with
      | false =>
        rw [compute] at ends
        exact pending ends
      | true =>
        rw [if_pos compute, run_attempt] at ends
        cases countCpu : (c.status .allocateCountCpu).isOk with
        | false =>
          rw [countCpu] at ends
          exact pending ends
        | true =>
          rw [if_pos countCpu, run_copyDeviceTensorToCPU] at ends
          cases readback : (c.status .readbackFromGpu).isOk with
          | false =>
            rw [readback] at ends
            exact pending ends
          | true =>
            rw [if_pos readback] at ends
            cases sync : (c.status .sync).isOk with
            | false =>
              rw [sync] at ends
              exact pending ends
            | true => exact rest rank (by simp [compute, countCpu, readback, sync])
  · simp only [dmlWhereHelper, bind_assoc, createDescs_of_le large, run_error] at ends
    exact not_ends_of_pending (.inl rfl) ends

end Call

theorem where_iff {α : Type} (c : Call α) : c.Correct ↔ c.Supported :=
  ⟨Call.supported_of_correct, Call.correct_of_supported⟩

/-- A scalar that is not zero. -/
def scalar : Call Bool where
  dtype := .bool
  shape := []
  elements := [true]
  nonzero := id
  sized := rfl
  rank := by decide
  addressable := by decide
  status _ := .ok
  count := 1
  coordinates := []
  counted := rfl
  inOrder := rfl

theorem scalar_aborts : ¬scalar.Correct := by
  intro correct
  have ok (step : Step) : ¬scalar.Fails step := nofun
  rcases Call.supported_of_correct correct with empty | failed | failed | ⟨-, failed | ⟨rank, -⟩⟩
  · exact absurd empty (by decide)
  · exact ok _ failed
  · exact ok _ failed
  · exact ok _ failed
  · exact absurd rank (by decide)

end TfDml.WhereOp
