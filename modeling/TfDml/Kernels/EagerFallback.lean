import TfDml.Core.Common
import TfDml.Lib.Run

/-! # Kernels that fall back to the CPU

The kernels of the unsorted segment reductions, and of the random integers whose
range the device does not support, keep one eager op in the kernel object. Each
call adds its inputs to the op and executes it on the CPU. Tensors are known by
their contents, of any type.
-/

namespace TfDml.EagerFallback

open Lib

variable {α : Type}

/-- A `TFE_Op`. -/
structure EagerOp (α : Type) where
  operatorType : String
  inputs : List α := []
  device : Option String := none
  seeds : Option (Int × Int) := none

/-- The members that the calls share; a missing op is a null pointer. A use of a null op
    crashes. -/
structure Kernel (α : Type) where
  eagerContext : Bool := false
  op : Option (EagerOp α) := none
  crashed : Bool := false

/-- What `TFE_OpAddInput` answers. An input that it rejects may be in the list or not. -/
inductive AddInput where
  | accepted
  | rejected (status : Status) (kept : Bool)

/-- What the runtime answers in one call, step by step. Tensor handles and inputs are those of
    the input with the index. -/
structure Answers where
  newTensorHandle : Nat → Status
  opAddInput : Nat → AddInput
  execute : Status
  tensorHandleResolve : Status
  allocateOutput : Status
  copyCPUTensorToDevice : Status

/-- A call returns with the first status that is not `OK`. -/
def firstFailure (statuses : List Status) : Status :=
  (statuses.find? fun status => !status.isOk).getD .ok

/-- What a call has done: the inputs that it executed the op on, and whether it has used a null
    op. -/
structure Trace (α : Type) where
  executedOn : Option (List α) := none
  usedNullOp : Bool := false
  status : Status := .ok

inductive Stop where
  | nullOp
  | failed (status : Status)

def addInputs (answers : Answers) (op : Option (EagerOp α)) :
    Nat → List α → Option (EagerOp α) × Option Stop
  | _, [] => (op, none)
  | i, input :: rest =>
    if (answers.newTensorHandle i).isOk then
      match op with
      | none => (none, some .nullOp)
      | some op =>
        let added := { op with inputs := op.inputs ++ [input] }
        match answers.opAddInput i with
        | .accepted => addInputs answers (some added) (i + 1) rest
        | .rejected status kept => (some (if kept then added else op), some (.failed status))
    else (op, some (.failed (answers.newTensorHandle i)))

/-- Add the inputs, execute the op on all that it has, and copy the output to the device. -/
def executeOp (answers : Answers) (op : Option (EagerOp α)) (inputs : List α) :
    Option (EagerOp α) × Trace α :=
  match addInputs answers op 0 inputs with
  | (op, some .nullOp) => (op, { usedNullOp := true })
  | (op, some (.failed status)) => (op, { status := status })
  | (none, none) => (none, { usedNullOp := true })
  | (some op, none) =>
    (some op,
      { executedOn := some op.inputs
        status := firstFailure [answers.execute, answers.tensorHandleResolve,
          answers.allocateOutput, answers.copyCPUTensorToDevice] })

/-- A call executes the op on nothing but its own inputs, and does not use a null op. -/
def Proper (inputs : List α) (trace : Trace α) : Prop :=
  trace.usedNullOp = false ∧ ∀ executed, trace.executedOn = some executed → executed = inputs

/-- Every input, from input `i` on, gets a handle and is accepted, so that the call gets to
    `TFE_Execute`. -/
def AllAccepted (answers : Answers) : Nat → List α → Prop
  | _, [] => True
  | i, _ :: rest =>
    (answers.newTensorHandle i).isOk = true ∧ answers.opAddInput i = .accepted ∧
      AllAccepted answers (i + 1) rest

section Execute

variable {answers : Answers}

theorem addInputs_accepted {inputs : List α} {op : EagerOp α} {i : Nat}
    (ok : AllAccepted answers i inputs) : addInputs answers (some op) i inputs =
      (some { op with inputs := op.inputs ++ inputs }, none) := by
  induction inputs generalizing op i with
  | nil => simp [addInputs]
  | cons input rest ih =>
    obtain ⟨handle, added, later⟩ := ok
    simp only [addInputs, handle, if_true, added, ih later, List.append_assoc,
      List.singleton_append]

theorem addInputs_failed {inputs : List α} (op : EagerOp α) {i : Nat}
    (notAll : ¬ AllAccepted answers i inputs) : ∃ op' status, addInputs answers (some op) i inputs =
      (some op', some (.failed status)) := by
  induction inputs generalizing op i with
  | nil => exact absurd trivial notAll
  | cons input rest ih =>
    by_cases handle : (answers.newTensorHandle i).isOk = true
    · cases added : answers.opAddInput i with
      | rejected status kept =>
        exact ⟨if kept then { op with inputs := op.inputs ++ [input] } else op, status,
          by simp only [addInputs, handle, if_true, added]⟩
      | accepted =>
        have later : ¬ AllAccepted answers (i + 1) rest := fun all => notAll ⟨handle, added, all⟩
        obtain ⟨op', status, err⟩ := ih { op with inputs := op.inputs ++ [input] } later
        exact ⟨op', status, by simp only [addInputs, handle, if_true, added, err]⟩
    · exact ⟨op, answers.newTensorHandle i, by simp [addInputs, handle]⟩

theorem executeOp_proper_iff (op : EagerOp α) (inputs : List α) :
    Proper inputs (executeOp answers (some op) inputs).2 ↔
      (AllAccepted answers 0 inputs → op.inputs = []) := by
  by_cases ok : AllAccepted answers 0 inputs
  · simp [executeOp, addInputs_accepted ok, Proper, ok]
  · obtain ⟨op', status, err⟩ := addInputs_failed op ok
    simp [executeOp, err, Proper, ok]

theorem executeOp_null_proper_iff (inputs : List α) :
    Proper inputs (executeOp answers none inputs).2 ↔
      inputs ≠ [] ∧ (answers.newTensorHandle 0).isOk = false := by
  cases inputs with
  | nil => simp [executeOp, addInputs, Proper]
  | cons input rest =>
    cases handle : (answers.newTensorHandle 0).isOk with
    | true => simp [executeOp, addInputs, handle, Proper]
    | false => simp [executeOp, addInputs, handle, Proper]

theorem executeOp_isSome (op : EagerOp α) (inputs : List α) :
    (executeOp answers (some op) inputs).1.isSome = true := by
  by_cases ok : AllAccepted answers 0 inputs
  · simp [executeOp, addInputs_accepted ok]
  · obtain ⟨op', status, err⟩ := addInputs_failed op ok
    simp [executeOp, err]

end Execute

structure Creation where
  newContext : Status
  newOp : Status
  opSetDevice : Status

/-- `TFE_NewContext`, `TFE_NewOp` and `TFE_OpSetDevice` for an op, which leave a null pointer
    where they fail. -/
def createOp (answers : Creation) (operatorType : String) : Kernel α × Status :=
  if answers.newContext.isOk then
    if answers.newOp.isOk then
      let op : EagerOp α := { operatorType := operatorType }
      if answers.opSetDevice.isOk then
        ({ eagerContext := true, op := some { op with device := some "/device:CPU" } }, .ok)
      else ({ eagerContext := true, op := some op }, answers.opSetDevice)
    else ({ eagerContext := true }, answers.newOp)
  else ({}, answers.newContext)

theorem createOp_ok {answers : Creation} {operatorType : String} {kernel : Kernel α}
    {status : Status} (new : createOp answers operatorType = (kernel, status))
    (ok : status.isOk = true) : ∃ op, kernel.op = some op ∧ op.inputs = [] := by
  unfold createOp at new
  by_cases context : answers.newContext.isOk = true
  · by_cases newOp : answers.newOp.isOk = true
    · by_cases device : answers.opSetDevice.isOk = true
      · simp only [context, newOp, device, if_true, Prod.mk.injEq] at new
        obtain ⟨rfl, rfl⟩ := new
        exact ⟨_, rfl, rfl⟩
      · simp only [context, newOp, device, if_true, Bool.false_eq_true, if_false,
          Prod.mk.injEq] at new
        exact absurd (new.2 ▸ ok) device
    · simp only [context, newOp, if_true, Bool.false_eq_true, if_false, Prod.mk.injEq] at new
      exact absurd (new.2 ▸ ok) newOp
  · simp only [context, Bool.false_eq_true, if_false, Prod.mk.injEq] at new
    exact absurd (new.2 ▸ ok) context

inductive ReduceFunction where
  | sum
  | max
  | min
  | multiply

def operatorType : ReduceFunction → String
  | .sum => "UnsortedSegmentSum"
  | .max => "UnsortedSegmentMax"
  | .min => "UnsortedSegmentMin"
  | .multiply => "UnsortedSegmentProd"

structure SegmentCall (α : Type) where
  data : α
  segmentIds : α
  numSegments : α
  allocateTemp : Nat → Status
  copyDeviceTensorsToCPU : Status
  answers : Answers

namespace SegmentCall

def inputs (call : SegmentCall α) : List α := [call.data, call.segmentIds, call.numSegments]

def copies (call : SegmentCall α) : Status :=
  firstFailure [call.allocateTemp 0, call.allocateTemp 1, call.copyDeviceTensorsToCPU]

/-- `DmlUnsortedSegmentReductionKernel::ComputeImpl`. -/
def compute (s : Kernel α) (call : SegmentCall α) : Kernel α × Trace α :=
  if call.copies.isOk then
    let (op, trace) := executeOp call.answers s.op call.inputs
    ({ s with op := op, crashed := trace.usedNullOp }, trace)
  else (s, { status := call.copies })

def step (s : Kernel α) (call : SegmentCall α) : Option (Kernel α) :=
  if s.crashed then none else some (compute s call).1

def Reusable (s : Kernel α) (call : SegmentCall α) (_ : Kernel α) : Prop :=
  Proper call.inputs (compute s call).2

/-- A call that adds all its inputs finds an op without inputs. -/
def FindsNoInputs (s : Kernel α) (call : SegmentCall α) (_ : Kernel α) : Prop :=
  call.copies.isOk = true → AllAccepted call.answers 0 call.inputs →
    ∀ op, s.op = some op → op.inputs = []

theorem reusable_iff {s : Kernel α} (new : s.op.isSome = true) (call : SegmentCall α)
    (t : Kernel α) : Reusable s call t ↔ FindsNoInputs s call t := by
  obtain ⟨op, is⟩ := Option.isSome_iff_exists.mp new
  unfold Reusable FindsNoInputs compute
  by_cases copied : call.copies.isOk = true
  · simp only [copied, if_true, is, executeOp_proper_iff, forall_const, Option.some.injEq,
      forall_eq']
  · simp [copied, Proper]

theorem step_isSome {s t : Kernel α} {call : SegmentCall α} (new : s.op.isSome = true)
    (taken : step s call = some t) : t.op.isSome = true := by
  obtain ⟨op, is⟩ := Option.isSome_iff_exists.mp new
  simp only [step, Option.ite_none_left_eq_some, Option.some.injEq] at taken
  obtain ⟨-, rfl⟩ := taken
  unfold compute
  by_cases copied : call.copies.isOk = true
  · simp only [copied, if_true, is, executeOp_isSome]
  · simpa [copied] using new

end SegmentCall

/-- The template arguments and attributes of a `RandomUniformInt64KernelSelector`. -/
structure Selector where
  isStateless : Bool
  isV2 : Bool
  seed : Int
  seed2 : Int

def Selector.opName (k : Selector) : String :=
  (if k.isStateless then "Stateless" else "") ++ "RandomUniformInt" ++ if k.isV2 then "V2" else ""

/-- A call of `ComputeImpl`; `dmlKernel` is the status of the kernel for the device. -/
structure SelectorCall (α : Type) where
  minValue : BitVec 64
  maxValue : BitVec 64
  inputs : List α
  creation : Creation
  answers : Answers
  dmlKernel : Status

namespace SelectorCall

/-- The device does not support the range, in `uint64_t` arithmetic. -/
def fallsBack (call : SelectorCall α) : Bool :=
  let rangeValue := call.maxValue - call.minValue
  let invariantOperand : BitVec 64 := if rangeValue = 0 then 0 else 65536 % rangeValue
  let invariantOperand := invariantOperand * invariantOperand
  (0xffffffff : BitVec 64) < invariantOperand * (rangeValue - 1) + (rangeValue - 1)

/-- The lazy creation, which only looks at the context. -/
def createLazily (k : Selector) (s : Kernel α) (call : SelectorCall α) : Kernel α × Status :=
  if s.eagerContext then (s, .ok)
  else
    let (created, status) := createOp call.creation k.opName
    if status.isOk && !k.isStateless then
      ({ created with
          op := created.op.map fun op => { op with seeds := some (k.seed, k.seed2) } }, status)
    else (created, status)

/-- `RandomUniformInt64KernelSelector::ComputeImpl`. -/
def compute (k : Selector) (s : Kernel α) (call : SelectorCall α) : Kernel α × Trace α :=
  if call.fallsBack then
    let (s, status) := createLazily k s call
    if status.isOk then
      let (op, trace) := executeOp call.answers s.op call.inputs
      ({ s with op := op, crashed := trace.usedNullOp }, trace)
    else (s, { status := status })
  else (s, { status := call.dmlKernel })

def step (k : Selector) (s : Kernel α) (call : SelectorCall α) : Option (Kernel α) :=
  if s.crashed then none else some (compute k s call).1

def Reusable (k : Selector) (s : Kernel α) (call : SelectorCall α) (_ : Kernel α) : Prop :=
  Proper call.inputs (compute k s call).2

/-- A call that falls back and finds a context finds an op too, and one without inputs if it
    adds all its own; or it fails before it uses the op. -/
def FindsEmptyOp (s : Kernel α) (call : SelectorCall α) (_ : Kernel α) : Prop :=
  call.fallsBack = true → s.eagerContext = true →
    (s.op = none → call.inputs ≠ [] ∧ (call.answers.newTensorHandle 0).isOk = false) ∧
      (AllAccepted call.answers 0 call.inputs → ∀ op, s.op = some op → op.inputs = [])

theorem createLazily_created {k : Selector} {s : Kernel α} {call : SelectorCall α}
    (fresh : s.eagerContext = false) (ok : (createLazily k s call).2.isOk = true) :
    ∃ op, (createLazily k s call).1.op = some op ∧ op.inputs = [] := by
  cases new : createOp (α := α) call.creation k.opName with
  | mk kernel status =>
    simp only [createLazily, fresh, Bool.false_eq_true, if_false, new] at ok ⊢
    by_cases seeded : (status.isOk && !k.isStateless) = true
    · simp only [seeded, if_true] at ok ⊢
      obtain ⟨op, is, empty⟩ := createOp_ok new ok
      exact ⟨_, congrArg _ is, empty⟩
    · simp only [seeded, Bool.false_eq_true, if_false] at ok ⊢
      exact createOp_ok new ok

theorem reusable_iff (k : Selector) (s : Kernel α) (call : SelectorCall α) (t : Kernel α) :
    Reusable k s call t ↔ FindsEmptyOp s call t := by
  unfold Reusable FindsEmptyOp compute
  by_cases falls : call.fallsBack = true
  · simp only [falls, if_true, forall_const]
    cases context : s.eagerContext with
    | true =>
      have kept : createLazily k s call = (s, .ok) := by simp [createLazily, context]
      have ok : Status.ok.isOk = true := rfl
      simp only [kept, ok, if_true, forall_const]
      cases is : s.op with
      | none => simp [executeOp_null_proper_iff]
      | some op => simp [executeOp_proper_iff]
    | false =>
      simp only [Bool.false_eq_true, false_implies, iff_true]
      by_cases ok : (createLazily k s call).2.isOk = true
      · obtain ⟨op, is, empty⟩ := createLazily_created context ok
        simp only [ok, if_true, is]
        exact (executeOp_proper_iff op call.inputs).mpr fun _ => empty
      · simp [ok, Proper]
  · simp [falls, Proper]

end SelectorCall

/-- Along every history of calls, each call of a segment reduction executes the op on its own
    inputs exactly if none adds all its inputs to those of an earlier call, and so does each
    call of a selector if, besides, none uses the op after its creation has failed. -/
theorem calls_reusable_iff (k : Selector) (function : ReduceFunction) (creation : Creation)
    (kernel : Kernel α) (constructed : createOp creation (operatorType function) = (kernel, .ok))
    (segmentCalls : List (SegmentCall α)) (selectorCalls : List (SelectorCall α)) :
    (EveryStep SegmentCall.step SegmentCall.Reusable kernel segmentCalls ↔
        EveryStep SegmentCall.step SegmentCall.FindsNoInputs kernel segmentCalls) ∧
      (EveryStep (SelectorCall.step k) (SelectorCall.Reusable k) {} selectorCalls ↔
        EveryStep (SelectorCall.step k) SelectorCall.FindsEmptyOp {} selectorCalls) := by
  constructor
  · obtain ⟨op, is, -⟩ := createOp_ok constructed rfl
    apply everyStep_iff (I := fun s : Kernel α => s.op.isSome = true)
    · intro s call t new taken met
      exact ⟨SegmentCall.step_isSome new taken, (SegmentCall.reusable_iff new call t).mpr met⟩
    · intro s call t new _ unmet reusable
      exact unmet ((SegmentCall.reusable_iff new call t).mp reusable)
    · rw [is]
      rfl
  · apply everyStep_iff (I := fun _ : Kernel α => True)
    · intro s call t _ _ met
      exact ⟨trivial, (SelectorCall.reusable_iff k s call t).mpr met⟩
    · intro s call t _ _ unmet reusable
      exact unmet ((SelectorCall.reusable_iff k s call t).mp reusable)
    · trivial

/-- A runtime that refuses nothing. -/
def granted : Answers where
  newTensorHandle := fun _ => .ok
  opAddInput := fun _ => .accepted
  execute := .ok
  tensorHandleResolve := .ok
  allocateOutput := .ok
  copyCPUTensorToDevice := .ok

def segmentCall (data segmentIds numSegments : Nat) : SegmentCall Nat where
  data := data
  segmentIds := segmentIds
  numSegments := numSegments
  allocateTemp := fun _ => .ok
  copyDeviceTensorsToCPU := .ok
  answers := granted

/-- A call whose range of 2^32 the device does not support; the creation of the op may fail. -/
def wideCall (newOp : Status) : SelectorCall Nat where
  minValue := 0
  maxValue := 0x100000000
  inputs := [4, 5, 6]
  creation := ⟨.ok, newOp, .ok⟩
  answers := granted
  dmlKernel := .ok

def statefulSelector : Selector := ⟨false, false, 1, 2⟩

theorem oneCall_reusable : (EveryStep SegmentCall.step SegmentCall.Reusable
        (createOp ⟨.ok, .ok, .ok⟩ (operatorType .sum)).1 [segmentCall 1 2 3] ↔
      EveryStep SegmentCall.step SegmentCall.FindsNoInputs
        (createOp ⟨.ok, .ok, .ok⟩ (operatorType .sum)).1 [segmentCall 1 2 3]) ∧
    (EveryStep (SelectorCall.step statefulSelector) (SelectorCall.Reusable statefulSelector) {}
        [wideCall .ok] ↔ EveryStep (SelectorCall.step statefulSelector) SelectorCall.FindsEmptyOp {}
        [wideCall .ok]) :=
  calls_reusable_iff statefulSelector .sum ⟨.ok, .ok, .ok⟩ _ rfl [segmentCall 1 2 3] [wideCall .ok]

/-- The second call executes the op on the inputs of both; and a call after a failed creation of
    the op uses a null op. -/
theorem secondCall_notReusable : ¬ EveryStep SegmentCall.step SegmentCall.Reusable
        (createOp ⟨.ok, .ok, .ok⟩ (operatorType .sum)).1 [segmentCall 1 2 3, segmentCall 7 8 9] ∧
    ¬ EveryStep (SelectorCall.step statefulSelector) (SelectorCall.Reusable statefulSelector) {}
        [wideCall (.resourceExhausted "OOM"), wideCall .ok] := by
  constructor
  · intro every
    have snd := ((every _ rfl).2 _ rfl).1
    have executed : [1, 2, 3, 7, 8, 9] = (segmentCall 7 8 9).inputs := snd.2 _ rfl
    exact absurd executed (by decide)
  · intro every
    have snd := ((every _ rfl).2 _ rfl).1
    have used : true = false := snd.1
    exact absurd used (by decide)

end TfDml.EagerFallback
