import TfDml.Core.KernelWrapper
import Mathlib.Data.List.GetD

/-! # The training ops on variables

The `ResourceApply` ops update variables in place. The shapes of the variables
are compared with each other and with the gradient in the constructor of the
kernel only, while the key of the kernel has the shapes of the other inputs.
-/

namespace TfDml.TrainingOps

open Lib KernelManager KernelWrapper List

/-- A check of a constructor on the shapes of the inputs, with the text of its error.
    `shown` is the input whose shape the error prints. -/
inductive Check where
  | isScalar (checked : Nat) (text : String) (shown : Nat)
  | isSameSize (other : Nat) (text : String) (shown : Nat)

def scalar (input : Nat) (name : String) : Check :=
  .isScalar input (name ++ " is not a scalar: ") input

def sameSize (input : Nat) (name : String) : Check :=
  .isSameSize input ("var and " ++ name ++ " do not have the same shape") input

/-- `shapes` has the shape of every input, of the variable itself where the input names
    one; the variable that is updated is input 0. -/
def Check.run (shapes : List TensorShape) : Check → Except Status Unit
  | .isScalar checked text shown =>
    opRequires (shapes.getD checked []).isScalar
      (.invalidArgument (text ++ (shapes.getD shown []).debugString))
  | .isSameSize other text shown =>
    opRequires (shapes.getD 0 [] == shapes.getD other [])
      (.invalidArgument (text ++ (shapes.getD 0 []).debugString ++ " " ++
        (shapes.getD shown []).debugString))

/-- What the constructors of the training kernels differ in. The variables are the first
    inputs; `broadcasts` is whether all inputs are broadcast to the shape of `var`. -/
structure TrainingKernel where
  inputCount : Nat
  variableCount : Nat
  gradIndex : Nat
  rejectsNesterov : Bool := false
  broadcasts : Bool := true
  checks : List Check

namespace TrainingKernel

/-- A check compares the shape of `var` with that of the input. -/
def compares (k : TrainingKernel) (input : Nat) : Bool :=
  k.checks.any fun check =>
    match check with
    | .isSameSize other _ _ => other == input
    | .isScalar _ _ _ => false

/-- The variables that no check compares with `var`. -/
def unchecked (k : TrainingKernel) : List Nat :=
  (List.range k.variableCount).filter fun input => input ≠ 0 && !k.compares input

end TrainingKernel

def dmlApplyAdamKernel : TrainingKernel where
  inputCount := 10
  variableCount := 3
  gradIndex := 9
  rejectsNesterov := true
  broadcasts := false
  checks :=
    [scalar 3 "beta1_power", scalar 4 "beta2_power", .isScalar 5 "lr is not a scalar : " 5,
      scalar 6 "beta1", scalar 7 "beta2", scalar 8 "epsilon",
      sameSize 1 "m", sameSize 2 "v", sameSize 9 "grad"]

/-- `vhat` is not compared with anything. -/
def dmlApplyAdamWithAmsgradKernel : TrainingKernel where
  inputCount := 11
  variableCount := 4
  gradIndex := 10
  broadcasts := false
  checks :=
    [scalar 4 "beta1_power", scalar 5 "beta2_power", .isScalar 6 "lr is not a scalar : " 6,
      scalar 7 "beta1", scalar 8 "beta2", scalar 9 "epsilon",
      sameSize 1 "m", sameSize 2 "v", sameSize 10 "grad"]

def dmlApplyAdaMaxKernel : TrainingKernel where
  inputCount := 9
  variableCount := 3
  gradIndex := 8
  checks :=
    [scalar 3 "beta1_power", .isScalar 4 "lr is not a scalar : " 4, scalar 5 "beta1",
      scalar 6 "beta2", scalar 7 "epsilon", sameSize 1 "m", sameSize 2 "v", sameSize 8 "grad"]

/-- The gradient is called `delta` here. -/
def dmlApplyGradientDescentKernel : TrainingKernel where
  inputCount := 3
  variableCount := 1
  gradIndex := 2
  checks := [scalar 1 "alpha", sameSize 2 "delta"]

/-- `accum_update` is not compared with anything. -/
def dmlApplyAdadeltaKernel : TrainingKernel where
  inputCount := 7
  variableCount := 3
  gradIndex := 6
  checks :=
    [scalar 3 "lr", scalar 4 "rho", scalar 5 "epsilon", sameSize 1 "accum", sameSize 6 "grad"]

/-- `AdagradV2` has an `epsilon` before the gradient. -/
def dmlApplyAdagradKernel (hasEpsilon : Bool) : TrainingKernel where
  inputCount := if hasEpsilon then 5 else 4
  variableCount := 2
  gradIndex := if hasEpsilon then 4 else 3
  checks :=
    [scalar 2 "lr", sameSize 1 "accum", sameSize (if hasEpsilon then 4 else 3) "grad"] ++
      if hasEpsilon then [scalar 3 "epsilon"] else []

def dmlApplyMomentumKernel : TrainingKernel where
  inputCount := 5
  variableCount := 2
  gradIndex := 3
  checks := [scalar 2 "lr", sameSize 1 "accum", sameSize 3 "grad", scalar 4 "momentum"]

def dmlApplyKerasMomentumKernel : TrainingKernel where
  inputCount := 5
  variableCount := 2
  gradIndex := 3
  checks := [scalar 2 "lr", sameSize 1 "accum", sameSize 3 "grad", scalar 4 "momentum"]

def dmlApplyRMSPropKernel : TrainingKernel where
  inputCount := 8
  variableCount := 3
  gradIndex := 7
  checks :=
    [.isScalar 3 "lr is not a scalar : " 3, scalar 4 "rho", scalar 5 "momentum",
      scalar 6 "epsilon", sameSize 1 "ms", sameSize 2 "mom", sameSize 7 "grad"]

/-- The error for `mg` prints the shape of `ms`. -/
def dmlApplyCenteredRMSPropKernel : TrainingKernel where
  inputCount := 9
  variableCount := 4
  gradIndex := 8
  checks :=
    [.isScalar 4 "lr is not a scalar : " 4, scalar 5 "rho", scalar 6 "momentum",
      scalar 7 "epsilon", .isSameSize 1 "var and mg do not have the same shape" 2,
      sameSize 2 "ms", sameSize 3 "mom", sameSize 8 "grad"]

/-- The check for `sign_decay` looks at `alpha` again. -/
def dmlApplyAddSignKernel : TrainingKernel where
  inputCount := 7
  variableCount := 2
  gradIndex := 6
  checks :=
    [scalar 2 "lr", scalar 3 "alpha", .isScalar 3 "sign_decay is not a scalar: " 4,
      scalar 5 "beta", sameSize 1 "m", sameSize 6 "grad"]

/-- The check for `sign_decay` looks at `logbase` again. -/
def dmlApplyPowerSignKernel : TrainingKernel where
  inputCount := 7
  variableCount := 2
  gradIndex := 6
  checks :=
    [scalar 2 "lr", scalar 3 "logbase", .isScalar 3 "sign_decay is not a scalar: " 4,
      scalar 5 "beta", sameSize 1 "m", sameSize 6 "grad"]

inductive ResourceApplyOp where
  | adam | adamWithAmsgrad | adaMax | gradientDescent | adadelta | adagrad | adagradV2
  | momentum | kerasMomentum | rmsProp | centeredRMSProp | addSign | powerSign
  deriving DecidableEq

namespace ResourceApplyOp

def kernel : ResourceApplyOp → TrainingKernel
  | .adam => dmlApplyAdamKernel
  | .adamWithAmsgrad => dmlApplyAdamWithAmsgradKernel
  | .adaMax => dmlApplyAdaMaxKernel
  | .gradientDescent => dmlApplyGradientDescentKernel
  | .adadelta => dmlApplyAdadeltaKernel
  | .adagrad => dmlApplyAdagradKernel false
  | .adagradV2 => dmlApplyAdagradKernel true
  | .momentum => dmlApplyMomentumKernel
  | .kerasMomentum => dmlApplyKerasMomentumKernel
  | .rmsProp => dmlApplyRMSPropKernel
  | .centeredRMSProp => dmlApplyCenteredRMSPropKernel
  | .addSign => dmlApplyAddSignKernel
  | .powerSign => dmlApplyPowerSignKernel

def opTypeName : ResourceApplyOp → String
  | .adam => "ResourceApplyAdam"
  | .adamWithAmsgrad => "ResourceApplyAdamWithAmsgrad"
  | .adaMax => "ResourceApplyAdaMax"
  | .gradientDescent => "ResourceApplyGradientDescent"
  | .adadelta => "ResourceApplyAdadelta"
  | .adagrad => "ResourceApplyAdagrad"
  | .adagradV2 => "ResourceApplyAdagradV2"
  | .momentum => "ResourceApplyMomentum"
  | .kerasMomentum => "ResourceApplyKerasMomentum"
  | .rmsProp => "ResourceApplyRMSProp"
  | .centeredRMSProp => "ResourceApplyCenteredRMSProp"
  | .addSign => "ResourceApplyAddSign"
  | .powerSign => "ResourceApplyPowerSign"

theorem compares_grad (op : ResourceApplyOp) : op.kernel.compares op.kernel.gradIndex = true := by
  cases op <;> rfl

theorem variableCount_le_gradIndex (op : ResourceApplyOp) :
    op.kernel.variableCount ≤ op.kernel.gradIndex := by
  cases op <;> decide

theorem opTypeName_inj {first second : ResourceApplyOp}
    (same : first.opTypeName = second.opTypeName) : first = second := by
  cases first <;> cases second <;> first | rfl | simp [opTypeName] at same

end ResourceApplyOp

structure Attributes where
  dtype : DataType
  useLocking : Bool
  useNesterov : Bool
  updateSlots : Bool

def attributeValues (op : ResourceApplyOp) (attributes : Attributes) :
    List (Option AttributeValue) :=
  let common := [some (.dtype attributes.dtype), some (.bool attributes.useLocking)]
  match op with
  | .adam | .momentum | .kerasMomentum => common ++ [some (.bool attributes.useNesterov)]
  | .adagrad | .adagradV2 => common ++ [some (.bool attributes.updateSlots)]
  | _ => common

/-- `TrainingInitHelper` and the helpers that extend it. -/
structure TrainingInitHelper where
  useExclusiveLock : Bool
  dtype : DataType
  useNesterov : Bool
  updateSlots : Bool
  deriving DecidableEq

def trainingInitHelper (attributes : Attributes) (ctx : OpKernelContext) : TrainingInitHelper :=
  ⟨attributes.useLocking && ctx.numOutputs == 0, attributes.dtype, attributes.useNesterov,
    attributes.updateSlots⟩

/-- The resource ops have no ref inputs, so only the inputs themselves count, and a handle
    is a scalar. -/
def isNoOpKernel (ctx : OpKernelContext) (outputShapes : List TensorShape) : Bool :=
  ctx.inputs.any (fun input => input.shape.numElements = 0) ||
    outputShapes.any fun shape => shape.numElements = 0

/-- `VariableTensorAccessor::Get` on all variables; it crashes without a tensor. -/
def variableTensors (ctx : OpKernelContext) (variableCount : Nat) : Option (List Tensor) :=
  (ctx.inputs.take variableCount).mapM fun input =>
    match input with
    | .resource handle => (ctx.getInputTensorFromVariable handle).toOption
    | _ => none

structure TrainingTensorInfos where
  dtype : DataType
  desiredShape : Option TensorShape
  inputShapes : List TensorShape
  outputShapes : List TensorShape

/-- A constructor that returns before `Initialize` leaves neither helper nor operator. -/
structure DmlTrainingKernel where
  initHelper : Option TrainingInitHelper
  tensorInfos : Option TrainingTensorInfos
  initialized : Bool

def inputShapes (ctx : OpKernelContext) (variableCount : Nat) (tensors : List Tensor) :
    List TensorShape :=
  tensors.map Tensor.shape ++ (ctx.inputs.drop variableCount).map Input.shape

/-- The checks in their order, up to the first that fails. -/
def runChecks : List Check → List TensorShape → Except Status Unit
  | [], _ => .ok ()
  | check :: rest, shapes => do
    check.run shapes
    runChecks rest shapes

/-- The end of a constructor: `GetTrainingTensorInfos`, compiling the operator, and
    `Initialize`. -/
def compileAndInitialize (k : TrainingKernel) (ctx : OpKernelContext)
    (helper : TrainingInitHelper) (shapes : List TensorShape) : DmlTrainingKernel where
  initHelper := some helper
  tensorInfos := some
    { dtype := helper.dtype
      desiredShape := if k.broadcasts then some (shapes.getD 0 []) else none
      inputShapes := shapes
      outputShapes := shapes.take k.variableCount }
  initialized := ctx.device.initialization.isOk

def trainingKernel (k : TrainingKernel) (ctx : OpKernelContext) (helper : TrainingInitHelper) :
    Construction DmlTrainingKernel :=
  if k.rejectsNesterov && helper.useNesterov then
    .constructed ⟨none, none, false⟩ (.invalidArgument
      "use_nesterov is not supported; use tf.keras.optimizers.Nadam instead.")
  else
    match variableTensors ctx k.variableCount with
    | none => .crashed
    | some tensors =>
      let shapes := inputShapes ctx k.variableCount tensors
      match runChecks k.checks shapes with
      | .error status => .constructed ⟨none, none, false⟩ status
      | .ok () => .constructed (compileAndInitialize k ctx helper shapes) ctx.device.initialization

/-- What the GPU is told to do: the operator with the tensors that it was compiled for, and
    the variables that are bound. -/
structure Execution where
  tensorInfos : TrainingTensorInfos
  initialized : Bool
  tensors : List Tensor

/-- The variables are fetched first; a kernel without an operator crashes. -/
def compute (k : TrainingKernel) (ctx : OpKernelContext) (kernel : DmlTrainingKernel) :
    Launch Execution :=
  match variableTensors ctx k.variableCount, kernel.tensorInfos, ctx.device.execution with
  | none, _, _ => .crashed
  | some _, none, _ => .crashed
  | some _, some _, .error status => .failed status
  | some tensors, some tensorInfos, .ok gpuEvent =>
    .launched ⟨tensorInfos, kernel.initialized, tensors⟩ gpuEvent

/-- `DmlAdamKernelWrapper::CreateKernelKey`: `lr`, `beta1`, `beta2`, `epsilon` and `grad`. -/
def createAdamKernelKey (attributes : Attributes) (ctx : OpKernelContext) : DmlKernelKey :=
  ⟨ResourceApplyOp.adam.opTypeName, attributeValues .adam attributes,
    ((ctx.inputs.drop 5).take 5).map inputTensorKey⟩

def wrapper (op : ResourceApplyOp) (attributes : Attributes) :
    DmlKernelWrapper TrainingInitHelper DmlTrainingKernel Execution where
  cachePolicy := .always
  createKernelKey :=
    match op with
    | .adam => createAdamKernelKey attributes
    | op => createKernelKey op.opTypeName (attributeValues op attributes)
  createInitializationHelper := fun ctx => .ok (trainingInitHelper attributes ctx)
  getOutputShapes := fun _ _ => some []
  isNoOpKernel := fun ctx _ outputShapes => isNoOpKernel ctx outputShapes
  getForwardableInputIndex := fun _ _ _ _ => none
  createKernel := fun ctx helper _ => trainingKernel op.kernel ctx helper
  getInitializationHelper := DmlTrainingKernel.initHelper
  computeKernel := fun ctx kernel _ _ => compute op.kernel ctx kernel

/-- One call of an op: the variables that its first inputs name, and its other inputs. -/
structure Invocation where
  op : ResourceApplyOp
  attributes : Attributes
  handles : List Handle
  inputs : List Input
  device : DeviceResponses
  handles_length : handles.length = op.kernel.variableCount
  inputs_length : op.kernel.variableCount + inputs.length = op.kernel.inputCount

namespace Invocation

def context (i : Invocation) (variableTensors : Handle → Except Status Tensor) : OpKernelContext :=
  ⟨i.handles.map .resource ++ i.inputs, 0, variableTensors, i.device⟩

def wrapper (i : Invocation) : DmlKernelWrapper TrainingInitHelper DmlTrainingKernel Execution :=
  TrainingOps.wrapper i.op i.attributes

def gradShape (i : Invocation) : TensorShape :=
  (i.inputs[i.op.kernel.gradIndex - i.op.kernel.variableCount]?.map Input.shape).getD []

end Invocation

structure State where
  manager : DmlKernelManager DmlKernelKey DmlTrainingKernel
  variableTensors : Handle → Except Status Tensor

inductive Action where
  /-- The variable gets another tensor, or is destroyed. -/
  | assign (handle : Handle) (tensor : Except Status Tensor)
  | resourceApply (invocation : Invocation)
  | clearCache

def step (s : State) : Action → Option State
  | .assign handle tensor =>
    some { s with variableTensors := Function.update s.variableTensors handle tensor }
  | .resourceApply i =>
    some { s with
      manager := (i.wrapper.computeImpl s.manager (i.context s.variableTensors)).2 }
  | .clearCache => some { s with manager := s.manager.clearCache }

def outcome (s : State) (i : Invocation) : Outcome Execution :=
  (i.wrapper.computeImpl s.manager (i.context s.variableTensors)).1

def reportsInvalidArgument : Outcome Execution → Bool
  | .failed status => status.isInvalidArgument
  | _ => false

/-- The shapes of the variables that the operator of an execution was compiled for. -/
def Execution.compiledShapes (execution : Execution) (i : Invocation) : List TensorShape :=
  execution.tensorInfos.inputShapes.take i.op.kernel.variableCount

/-- The invocation reports an invalid argument exactly when it does with an empty cache, it
    reports one if a variable differs in shape from the gradient, and the variables that are
    bound have the shapes that the operator was compiled for. -/
structure Validates (s : State) (i : Invocation) : Prop where
  fresh : reportsInvalidArgument (outcome s i) =
    reportsInvalidArgument (i.wrapper.freshOutcome (i.context s.variableTensors))
  mismatch : ∀ handle ∈ i.handles, ∀ tensor, s.variableTensors handle = .ok tensor →
    tensor.shape ≠ i.gradShape → reportsInvalidArgument (outcome s i) = true
  compiled : ∀ execution, outcome s i = .computed execution →
    execution.compiledShapes i = execution.tensors.map Tensor.shape

def Validated (s : State) (a : Action) (_ : State) : Prop :=
  ∀ i, a = .resourceApply i → Validates s i

def MatchGrad (s : State) (i : Invocation) : Prop :=
  ∀ handle ∈ i.handles, ∀ tensor, s.variableTensors handle = .ok tensor → tensor.shape = i.gradShape

def Rejected (s : State) (i : Invocation) : Prop :=
  (i.op.kernel.rejectsNesterov && i.attributes.useNesterov) = true ∨ ∃ tensors status,
      variableTensors (i.context s.variableTensors) i.op.kernel.variableCount = some tensors ∧
      runChecks i.op.kernel.checks
        (inputShapes (i.context s.variableTensors) i.op.kernel.variableCount tensors) =
          .error status

def Idle (s : State) (i : Invocation) : Prop := isNoOpKernel (i.context s.variableTensors) [] = true

/-- The operator of the kernel, if it has one and is executed, was compiled for the shape of
    the gradient in those variables that no check compares. -/
def UncheckedMatch (s : State) (i : Invocation) (kernel : DmlTrainingKernel) : Prop :=
  ∀ tensorInfos tensors gpuEvent, kernel.tensorInfos = some tensorInfos →
    variableTensors (i.context s.variableTensors) i.op.kernel.variableCount = some tensors →
    i.device.execution = .ok gpuEvent →
    ∀ input ∈ i.op.kernel.unchecked, tensorInfos.inputShapes.getD input [] = i.gradShape

/-- Without a cached kernel, the variables have the shape of the gradient or the checks are
    made and reject them. With one, the variables have that shape, the checks would not
    reject the invocation, and the kernel was compiled for it. -/
def Sound (s : State) (i : Invocation) : Prop :=
  match (s.manager.tryGetCachedKernel
    (i.wrapper.createKernelKey (i.context s.variableTensors))).1 with
  | none => MatchGrad s i ∨ ¬ Idle s i ∧ Rejected s i
  | some kernel => MatchGrad s i ∧ (Idle s i ∨ ¬ Rejected s i) ∧ UncheckedMatch s i kernel

def SoundStep (s : State) (a : Action) (_ : State) : Prop := ∀ i, a = .resourceApply i → Sound s i

variable {status : Status}

theorem Check.run_error {shapes : List TensorShape} {check : Check}
    (err : check.run shapes = .error status) : status.isInvalidArgument = true := by
  cases check with
  | isScalar | isSameSize =>
    simp only [Check.run, opRequires] at err
    split at err
    · cases err
    · exact Except.error.inj err ▸ rfl

variable {checks : List Check}

theorem runChecks_error {shapes : List TensorShape}
    (err : runChecks checks shapes = .error status) : status.isInvalidArgument = true := by
  induction checks with
  | nil => cases err
  | cons check rest ih =>
    simp only [runChecks, bind, Except.bind] at err
    cases ran : check.run shapes with
    | error first =>
      simp only [ran] at err
      exact Except.error.inj err ▸ Check.run_error ran
    | ok =>
      simp only [ran] at err
      exact ih err

variable {tensors : List Tensor}

theorem variableTensors_forall₂ {i : Invocation} {answers : Handle → Except Status Tensor}
    (got : variableTensors (i.context answers) i.op.kernel.variableCount = some tensors) :
    List.Forall₂ (fun handle tensor => answers handle = .ok tensor) i.handles tensors := by
  have inputs : (i.context answers).inputs.take i.op.kernel.variableCount =
      i.handles.map .resource := by
    rw [Invocation.context, ← i.handles_length, ← length_map (f := Input.resource), take_left]
  unfold variableTensors at got
  rw [inputs] at got
  have each := forall₂_of_mapM got
  rw [forall₂_map_left_iff] at each
  apply each.imp
  intro handle tensor answered
  cases answer : answers handle with
  | error status => simp [Invocation.context, answer, Except.toOption] at answered
  | ok other =>
    simp only [Invocation.context, answer, Except.toOption, Option.some.injEq] at answered
    rw [answered]

theorem variableTensors_length {i : Invocation} {answers : Handle → Except Status Tensor}
    (got : variableTensors (i.context answers) i.op.kernel.variableCount = some tensors) :
    tensors.length = i.op.kernel.variableCount := by
  rw [← (variableTensors_forall₂ got).length_eq, i.handles_length]

theorem take_inputShapes {i : Invocation} {answers : Handle → Except Status Tensor}
    (got : variableTensors (i.context answers) i.op.kernel.variableCount = some tensors) :
    (inputShapes (i.context answers) i.op.kernel.variableCount tensors).take
      i.op.kernel.variableCount = tensors.map Tensor.shape := by
  have length : (tensors.map Tensor.shape).length = i.op.kernel.variableCount := by
    rw [length_map, variableTensors_length got]
  rw [inputShapes, ← length, take_left]

section Execute

variable (i : Invocation) (answers : Handle → Except Status Tensor)

theorem prepare_eq : i.wrapper.prepare (i.context answers) =
      if isNoOpKernel (i.context answers) [] then .error (.zeroed [])
      else .ok (trainingInitHelper i.attributes (i.context answers), []) :=
  DmlKernelWrapper.prepare_helper _ rfl rfl rfl fun _ => rfl

theorem executeOutcome_eq (kernel : DmlTrainingKernel) (helper : Option TrainingInitHelper) :
    i.wrapper.executeOutcome (i.context answers) kernel helper [] =
      match compute i.op.kernel (i.context answers) kernel with
      | .crashed => .crashed
      | .failed status => .failed status
      | .launched execution _ => .computed execution := by
  have live : allocateOutputs (i.context answers) [] = .ok := rfl
  have computes : i.wrapper.computeKernel (i.context answers) kernel helper [] =
      compute i.op.kernel (i.context answers) kernel := rfl
  simp only [DmlKernelWrapper.executeOutcome, live, computes]
  cases compute i.op.kernel (i.context answers) kernel <;> rfl

theorem executeOutcome_reports (kernel : DmlTrainingKernel)
    (helper : Option TrainingInitHelper) : reportsInvalidArgument
      (i.wrapper.executeOutcome (i.context answers) kernel helper []) = false := by
  rw [executeOutcome_eq]
  unfold compute
  cases variableTensors (i.context answers) i.op.kernel.variableCount with
  | none => rfl
  | some tensors =>
    cases kernel.tensorInfos with
    | none => rfl
    | some tensorInfos =>
      cases refused : (i.context answers).device.execution with
      | error status => exact i.device.execution_valid status refused
      | ok gpuEvent => rfl

theorem executeOutcome_computed {kernel : DmlTrainingKernel}
    {helper : Option TrainingInitHelper} {execution : Execution} :
    i.wrapper.executeOutcome (i.context answers) kernel helper [] = .computed execution ↔
      ∃ tensorInfos tensors gpuEvent, kernel.tensorInfos = some tensorInfos ∧
        variableTensors (i.context answers) i.op.kernel.variableCount = some tensors ∧
        i.device.execution = .ok gpuEvent ∧
        execution = ⟨tensorInfos, kernel.initialized, tensors⟩ := by
  have device : (i.context answers).device = i.device := rfl
  rw [executeOutcome_eq]
  unfold compute
  rw [device]
  cases variableTensors (i.context answers) i.op.kernel.variableCount with
  | none => simp
  | some tensors =>
    cases kernel.tensorInfos with
    | none => simp
    | some tensorInfos =>
      cases i.device.execution with
      | error status => simp
      | ok gpuEvent => simp [eq_comm]

end Execute

def construction (s : State) (i : Invocation) : Construction DmlTrainingKernel :=
  trainingKernel i.op.kernel (i.context s.variableTensors)
    (trainingInitHelper i.attributes (i.context s.variableTensors))

theorem construction_cases (s : State) (i : Invocation) :
    construction s i = .crashed ∧ ¬ Rejected s i ∨
    (∃ kernel status, construction s i = .constructed kernel status ∧
      status.isInvalidArgument = true ∧ Rejected s i ∧ kernel.tensorInfos = none) ∨
    ∃ kernel tensors tensorInfos,
      construction s i = .constructed kernel i.device.initialization ∧ ¬ Rejected s i ∧
      kernel.tensorInfos = some tensorInfos ∧
      variableTensors (i.context s.variableTensors) i.op.kernel.variableCount = some tensors ∧
      tensorInfos.inputShapes =
        inputShapes (i.context s.variableTensors) i.op.kernel.variableCount tensors ∧
      runChecks i.op.kernel.checks tensorInfos.inputShapes = .ok () := by
  have nesterovAttribute : (trainingInitHelper i.attributes (i.context s.variableTensors)).useNesterov =
      i.attributes.useNesterov := rfl
  unfold construction trainingKernel
  rw [nesterovAttribute]
  by_cases nesterov : (i.op.kernel.rejectsNesterov && i.attributes.useNesterov) = true
  · exact Or.inr (Or.inl ⟨_, _, if_pos nesterov, rfl, Or.inl nesterov, rfl⟩)
  · rw [if_neg nesterov]
    cases got : variableTensors (i.context s.variableTensors) i.op.kernel.variableCount with
    | none =>
      refine Or.inl ⟨rfl, ?_⟩
      rintro (rejects | ⟨tensors, status, finds, -⟩)
      · exact nesterov rejects
      · exact absurd (got.symm.trans finds) (by simp)
    | some tensors =>
      cases checked : runChecks i.op.kernel.checks
          (inputShapes (i.context s.variableTensors) i.op.kernel.variableCount tensors) with
      | error status =>
        refine Or.inr (Or.inl
          ⟨⟨none, none, false⟩, status, ?_, runChecks_error checked, ?_, rfl⟩)
        · simp only [checked]
        · exact Or.inr ⟨tensors, status, got, checked⟩
      | ok =>
        refine Or.inr (Or.inr ⟨compileAndInitialize i.op.kernel (i.context s.variableTensors)
          (trainingInitHelper i.attributes (i.context s.variableTensors))
          (inputShapes (i.context s.variableTensors) i.op.kernel.variableCount tensors),
          tensors, _, ?_, ?_, rfl, rfl, rfl, checked⟩)
        · simp only [checked]
          rfl
        · rintro (rejects | ⟨others, status, finds, fails⟩)
          · exact nesterov rejects
          · obtain rfl := Option.some.inj (got.symm.trans finds)
            rw [checked] at fails
            cases fails

variable {s : State}

theorem constructOutcome_idle {i : Invocation} (idle : Idle s i) :
    i.wrapper.constructOutcome (i.context s.variableTensors) = .zeroed [] := by
  unfold Idle at idle
  rw [DmlKernelWrapper.constructOutcome, prepare_eq, if_pos idle]

def afterConstruction (s : State) (i : Invocation) :
    Construction DmlTrainingKernel → Outcome Execution
  | .crashed => .crashed
  | .constructed kernel .ok =>
    i.wrapper.executeOutcome (i.context s.variableTensors) kernel
      (some (trainingInitHelper i.attributes (i.context s.variableTensors))) []
  | .constructed _ status => .failed status

theorem afterConstruction_reports (s : State) (i : Invocation) (kernel : DmlTrainingKernel)
    (status : Status) :
    reportsInvalidArgument (afterConstruction s i (.constructed kernel status)) =
      status.isInvalidArgument := by
  cases status with
  | ok => exact executeOutcome_reports i s.variableTensors kernel _
  | _ => rfl

theorem constructOutcome_busy {i : Invocation} (busy : ¬ Idle s i) :
    i.wrapper.constructOutcome (i.context s.variableTensors) =
      afterConstruction s i (construction s i) := by
  have creates : i.wrapper.createKernel (i.context s.variableTensors)
      (trainingInitHelper i.attributes (i.context s.variableTensors)) [] = construction s i := rfl
  unfold Idle at busy
  rw [DmlKernelWrapper.constructOutcome, prepare_eq, if_neg busy]
  simp only [creates]
  cases construction s i with
  | crashed => rfl
  | constructed kernel status => cases status <;> rfl

theorem constructOutcome_reports (s : State) (i : Invocation) :
    reportsInvalidArgument (i.wrapper.constructOutcome (i.context s.variableTensors)) = true ↔
      ¬ Idle s i ∧ Rejected s i := by
  by_cases idle : Idle s i
  · simp [constructOutcome_idle idle, reportsInvalidArgument, idle]
  · rw [constructOutcome_busy idle]
    rcases construction_cases s i with ⟨constructs, ok⟩ |
      ⟨kernel, status, constructs, invalid, rejected, -⟩ |
      ⟨kernel, tensors, tensorInfos, constructs, ok, -⟩
    · simp [constructs, afterConstruction, reportsInvalidArgument, ok]
    · simp [constructs, afterConstruction_reports, invalid, idle, rejected]
    · simp [constructs, afterConstruction_reports, i.device.initialization_valid, ok]

theorem constructOutcome_computed {i : Invocation} {execution : Execution}
    (ends : i.wrapper.constructOutcome (i.context s.variableTensors) = .computed execution) :
    execution.compiledShapes i = execution.tensors.map Tensor.shape := by
  by_cases idle : Idle s i
  · rw [constructOutcome_idle idle] at ends
    cases ends
  · rw [constructOutcome_busy idle] at ends
    rcases construction_cases s i with ⟨constructs, -⟩ |
      ⟨kernel, status, constructs, invalid, -⟩ |
      ⟨kernel, tensors, tensorInfos, constructs, -, compiled, got, shapes, -⟩
    · rw [constructs] at ends
      cases ends
    · rw [constructs] at ends
      cases status with
      | ok => cases invalid
      | _ => cases ends
    · rw [constructs] at ends
      cases started : i.device.initialization with
      | ok =>
        rw [started] at ends
        obtain ⟨infos, bound, gpuEvent, has, binds, -, rfl⟩ :=
          (executeOutcome_computed i s.variableTensors).mp ends
        obtain rfl := Option.some.inj (compiled.symm.trans has)
        obtain rfl := Option.some.inj (got.symm.trans binds)
        simp only [Execution.compiledShapes, shapes, take_inputShapes got]
      | _ =>
        rw [started] at ends
        cases ends

/-- The operator of a cached kernel was compiled by an invocation with its key, for shapes
    that passed the checks. -/
def CompiledBy (key : DmlKernelKey) (kernel : DmlTrainingKernel) : Prop :=
  ∀ tensorInfos, kernel.tensorInfos = some tensorInfos →
    ∃ (i : Invocation) (answers : Handle → Except Status Tensor) (tensors : List Tensor),
      i.wrapper.createKernelKey (i.context answers) = key ∧
      variableTensors (i.context answers) i.op.kernel.variableCount = some tensors ∧
      tensorInfos.inputShapes = inputShapes (i.context answers) i.op.kernel.variableCount tensors ∧
      runChecks i.op.kernel.checks tensorInfos.inputShapes = .ok ()

def keyGradIndex (op : ResourceApplyOp) : Nat :=
  match op with
  | .adam => 4
  | op => op.kernel.gradIndex

def keyShape : DmlInputTensorKey → TensorShape
  | .constantCpuInput tensor => tensor.shape
  | .shapeAndType shape _ => shape

theorem keyShape_inputTensorKey (input : Input) : keyShape (inputTensorKey input) = input.shape := by
  cases input <;> rfl

theorem inputs_getElem (i : Invocation) (answers : Handle → Except Status Tensor) {index : Nat}
    (after : i.op.kernel.variableCount ≤ index) :
    (i.context answers).inputs[index]? = i.inputs[index - i.op.kernel.variableCount]? := by
  have length : (i.handles.map Input.resource).length = i.op.kernel.variableCount := by
    rw [length_map, i.handles_length]
  rw [Invocation.context, getElem?_append_right (length ▸ after), length]

theorem key_getElem_grad (i : Invocation) (answers : Handle → Except Status Tensor) :
    (i.wrapper.createKernelKey (i.context answers)).inputTensors[keyGradIndex i.op]? =
      i.inputs[i.op.kernel.gradIndex - i.op.kernel.variableCount]?.map inputTensorKey := by
  rw [← inputs_getElem i answers i.op.variableCount_le_gradIndex]
  unfold Invocation.wrapper wrapper
  cases i.op with
  | adam =>
    simp only [createAdamKernelKey, keyGradIndex, getElem?_map, getElem?_take, getElem?_drop]
    rfl
  | _ => simp only [createKernelKey, keyGradIndex, getElem?_map]

theorem key_opTypeName (i : Invocation) (answers : Handle → Except Status Tensor) :
    (i.wrapper.createKernelKey (i.context answers)).opTypeName = i.op.opTypeName := by
  unfold Invocation.wrapper wrapper
  cases i.op <;> rfl

theorem gradShape_key (i : Invocation) (answers : Handle → Except Status Tensor) :
    i.gradShape = (((i.wrapper.createKernelKey (i.context answers)).inputTensors[
      keyGradIndex i.op]?).map keyShape).getD [] := by
  rw [key_getElem_grad, Option.map_map, Invocation.gradShape]
  congr 2
  funext input
  exact (keyShape_inputTensorKey input).symm

theorem same_key {i j : Invocation} {answers answers' : Handle → Except Status Tensor}
    (same : i.wrapper.createKernelKey (i.context answers) =
      j.wrapper.createKernelKey (j.context answers')) :
    i.op = j.op ∧ i.gradShape = j.gradShape := by
  have op : i.op = j.op := by
    apply ResourceApplyOp.opTypeName_inj
    rw [← key_opTypeName i answers, ← key_opTypeName j answers', same]
  refine ⟨op, ?_⟩
  rw [gradShape_key i answers, gradShape_key j answers', same, op]

theorem runChecks_ok {shapes : List TensorShape} :
    runChecks checks shapes = .ok () ↔ ∀ check ∈ checks, check.run shapes = .ok () := by
  induction checks with
  | nil => simp [runChecks]
  | cons check rest ih =>
    simp only [runChecks, bind, Except.bind, forall_mem_cons, ← ih]
    cases check.run shapes <;> simp

variable {input : Nat}

theorem getD_of_compares {k : TrainingKernel} {shapes : List TensorShape}
    (passed : runChecks k.checks shapes = .ok ()) (compares : k.compares input = true) :
    shapes.getD 0 [] = shapes.getD input [] := by
  obtain ⟨check, mem, compared⟩ := List.any_eq_true.mp compares
  have ran := runChecks_ok.mp passed check mem
  cases check with
  | isScalar => cases compared
  | isSameSize other text shown =>
    obtain rfl := eq_of_beq compared
    simp only [Check.run, opRequires] at ran
    split at ran
    · rename_i same
      exact eq_of_beq same
    · cases ran

theorem getD_inputShapes_grad {i : Invocation} {answers : Handle → Except Status Tensor}
    (got : variableTensors (i.context answers) i.op.kernel.variableCount = some tensors) :
    (inputShapes (i.context answers) i.op.kernel.variableCount tensors).getD
      i.op.kernel.gradIndex [] = i.gradShape := by
  have after := i.op.variableCount_le_gradIndex
  have length : (tensors.map Tensor.shape).length = i.op.kernel.variableCount := by
    rw [length_map, variableTensors_length got]
  rw [inputShapes, getD_eq_getElem?_getD, getElem?_append_right (length ▸ after),
    length, getElem?_map, getElem?_drop, Nat.add_sub_cancel' after,
    inputs_getElem i answers after, Invocation.gradShape]

variable {tensorInfos : TrainingTensorInfos}

theorem CompiledBy.getD {i : Invocation} {answers : Handle → Except Status Tensor}
    {kernel : DmlTrainingKernel}
    (compiled : CompiledBy (i.wrapper.createKernelKey (i.context answers)) kernel)
    (has : kernel.tensorInfos = some tensorInfos) (variable_ : input < i.op.kernel.variableCount)
    (checked : input ∉ i.op.kernel.unchecked) :
    tensorInfos.inputShapes.getD input [] = i.gradShape := by
  obtain ⟨j, answers', tensors, same, got, shapes, passed⟩ := compiled tensorInfos has
  obtain ⟨op, grad⟩ := same_key same
  have first : tensorInfos.inputShapes.getD 0 [] = i.gradShape := by
    rw [getD_of_compares passed j.op.compares_grad, shapes, getD_inputShapes_grad got, grad]
  by_cases zero : input = 0
  · rw [zero, first]
  · have compares : j.op.kernel.compares input = true := by
      rw [op]
      simpa [TrainingKernel.unchecked, variable_, zero] using checked
    rw [← getD_of_compares passed compares, first]

theorem CompiledBy.length {i : Invocation} {answers : Handle → Except Status Tensor}
    {kernel : DmlTrainingKernel}
    (compiled : CompiledBy (i.wrapper.createKernelKey (i.context answers)) kernel)
    (has : kernel.tensorInfos = some tensorInfos) :
    i.op.kernel.variableCount ≤ tensorInfos.inputShapes.length := by
  obtain ⟨j, answers', tensors, same, got, shapes, -⟩ := compiled tensorInfos has
  obtain ⟨op, -⟩ := same_key same
  rw [shapes, inputShapes, length_append, length_map, variableTensors_length got, op]
  exact Nat.le_add_right _ _

theorem MatchGrad.shapes {s : State} {i : Invocation} (grad : MatchGrad s i)
    {tensors : List Tensor}
    (got : variableTensors (i.context s.variableTensors) i.op.kernel.variableCount = some tensors) :
    tensors.map Tensor.shape = List.replicate i.op.kernel.variableCount i.gradShape := by
  refine eq_replicate_iff.mpr ⟨?_, ?_⟩
  · rw [length_map, variableTensors_length got]
  · intro shape mem
    obtain ⟨tensor, lt, rfl⟩ := List.mem_map.mp mem
    obtain ⟨handle, names, answer⟩ : ∃ handle ∈ i.handles,
        s.variableTensors handle = .ok tensor := by
      obtain ⟨n, bound, rfl⟩ := getElem_of_mem lt
      have each := variableTensors_forall₂ got
      have within : n < i.handles.length := each.length_eq ▸ bound
      exact ⟨i.handles[n], getElem_mem within, each.get within bound⟩
    exact grad handle names tensor answer

theorem CompiledBy.take_iff {i : Invocation} {kernel : DmlTrainingKernel}
    (compiled : CompiledBy (i.wrapper.createKernelKey (i.context s.variableTensors)) kernel)
    (has : kernel.tensorInfos = some tensorInfos) (grad : MatchGrad s i)
    (got : variableTensors (i.context s.variableTensors) i.op.kernel.variableCount = some tensors) :
    tensorInfos.inputShapes.take i.op.kernel.variableCount = tensors.map Tensor.shape ↔
      ∀ input ∈ i.op.kernel.unchecked, tensorInfos.inputShapes.getD input [] = i.gradShape := by
  have long := compiled.length has
  have x : ∀ input < i.op.kernel.variableCount,
      (tensorInfos.inputShapes.take i.op.kernel.variableCount).getD input [] =
        tensorInfos.inputShapes.getD input [] := by
    intro input lt
    simp only [getD_eq_getElem?_getD, getElem?_take, lt, if_true]
  rw [grad.shapes got, eq_replicate_iff]
  constructor
  · rintro ⟨-, same⟩ input mem
    have lt : input < i.op.kernel.variableCount := mem_range.mp (mem_filter.mp mem).1
    have bound : input < (tensorInfos.inputShapes.take i.op.kernel.variableCount).length := by
      rw [length_take]
      omega
    rw [← x input lt, getD_eq_getElem _ _ bound]
    exact same _ (getElem_mem bound)
  · intro unchecked
    refine ⟨by rw [length_take]; omega, ?_⟩
    intro shape mem
    obtain ⟨input, bound, rfl⟩ := getElem_of_mem mem
    have lt : input < i.op.kernel.variableCount := by
      rw [length_take] at bound
      omega
    rw [← getD_eq_getElem _ [] bound, x input lt]
    by_cases missed : input ∈ i.op.kernel.unchecked
    · exact unchecked input missed
    · exact compiled.getD has lt missed

theorem validates_iff_of_miss {i : Invocation} (missed : (s.manager.tryGetCachedKernel
      (i.wrapper.createKernelKey (i.context s.variableTensors))).1 = none) :
    Validates s i ↔ MatchGrad s i ∨ ¬ Idle s i ∧ Rejected s i := by
  have ends : outcome s i = i.wrapper.constructOutcome (i.context s.variableTensors) :=
    i.wrapper.computeImpl_miss missed
  constructor
  · intro validates
    by_cases grad : MatchGrad s i
    · exact Or.inl grad
    · unfold MatchGrad at grad
      push Not at grad
      obtain ⟨handle, names, tensor, got, differs⟩ := grad
      have err := validates.mismatch handle names tensor got differs
      rw [ends] at err
      exact Or.inr ((constructOutcome_reports s i).mp err)
  · intro sound
    refine ⟨?_, ?_, ?_⟩
    · rw [ends, DmlKernelWrapper.freshOutcome_eq]
    · intro handle names tensor got differs
      rcases sound with grad | rejected
      · exact absurd (grad handle names tensor got) differs
      · rw [ends]
        exact (constructOutcome_reports s i).mpr rejected
    · intro execution is
      exact constructOutcome_computed (ends.symm.trans is)

theorem validates_iff_of_hit {i : Invocation} {kernel : DmlTrainingKernel}
    (hit : (s.manager.tryGetCachedKernel
      (i.wrapper.createKernelKey (i.context s.variableTensors))).1 = some kernel)
    (compiled : CompiledBy (i.wrapper.createKernelKey (i.context s.variableTensors)) kernel) :
    Validates s i ↔ MatchGrad s i ∧ (Idle s i ∨ ¬ Rejected s i) ∧ UncheckedMatch s i kernel := by
  have ends : outcome s i = i.wrapper.executeOutcome (i.context s.variableTensors) kernel
      kernel.initHelper [] := i.wrapper.computeImpl_hit rfl hit rfl
  have silent : reportsInvalidArgument (outcome s i) = false := by
    rw [ends]
    exact executeOutcome_reports i s.variableTensors kernel _
  have ok : reportsInvalidArgument
      (i.wrapper.freshOutcome (i.context s.variableTensors)) = false ↔
        Idle s i ∨ ¬ Rejected s i := by
    rw [DmlKernelWrapper.freshOutcome_eq, ← Bool.not_eq_true, constructOutcome_reports]
    tauto
  constructor
  · intro validates
    have grad : MatchGrad s i := by
      intro handle names tensor got
      by_contra differs
      have err := validates.mismatch handle names tensor got differs
      rw [silent] at err
      cases err
    refine ⟨grad, ok.mp (validates.fresh.symm.trans silent), ?_⟩
    intro tensorInfos tensors gpuEvent has got executes
    have computes := ends.trans ((executeOutcome_computed i s.variableTensors).mpr
      ⟨tensorInfos, tensors, gpuEvent, has, got, executes, rfl⟩)
    exact (compiled.take_iff has grad got).mp (validates.compiled _ computes)
  · rintro ⟨grad, fresh, unchecked⟩
    refine ⟨?_, ?_, ?_⟩
    · rw [silent, ok.mpr fresh]
    · intro handle names tensor got differs
      exact absurd (grad handle names tensor got) differs
    · intro execution is
      obtain ⟨tensorInfos, tensors, gpuEvent, has, got, executes, rfl⟩ :=
        (executeOutcome_computed i s.variableTensors).mp (ends.symm.trans is)
      exact (compiled.take_iff has grad got).mpr
        (unchecked tensorInfos tensors gpuEvent has got executes)

/-- Every cached kernel with an operator was compiled by an invocation with its key. -/
def CacheCompiled (s : State) : Prop :=
  KernelManager.Invariant s.manager ∧ EveryCached CompiledBy s.manager

theorem cacheCompiled_init (maxCacheSize : Nat) (answers : Handle → Except Status Tensor) :
    CacheCompiled ⟨{ maxCacheSize := maxCacheSize }, answers⟩ :=
  ⟨invariant_init maxCacheSize, fun key kernel got => by simp at got⟩

theorem step_cacheCompiled {t : State} {a : Action} (cached : CacheCompiled s)
    (taken : step s a = some t) : CacheCompiled t := by
  cases a with
  | assign handle tensor =>
    obtain rfl := Option.some.inj taken
    exact cached
  | clearCache =>
    obtain rfl := Option.some.inj taken
    exact ⟨.clearCache, .clearCache⟩
  | resourceApply i =>
    obtain rfl := Option.some.inj taken
    apply i.wrapper.computeImpl_everyCached cached.1 cached.2
    intro helper outputShapes kernel status prepared new tensorInfos has
    rw [prepare_eq] at prepared
    split at prepared
    · cases prepared
    · obtain ⟨rfl, -⟩ := Prod.mk.inj (Except.ok.inj prepared)
      have constructs : construction s i = .constructed kernel status := new
      rcases construction_cases s i with ⟨crashes, -⟩ |
        ⟨other, reason, rejects, -, -, without⟩ |
        ⟨other, tensors, infos, compiles, -, others, got, shapes, passed⟩
      · rw [constructs] at crashes
        cases crashes
      · obtain ⟨rfl, -⟩ := Construction.constructed.inj (constructs.symm.trans rejects)
        rw [has] at without
        cases without
      · obtain ⟨rfl, -⟩ := Construction.constructed.inj (constructs.symm.trans compiles)
        obtain rfl := Option.some.inj (has.symm.trans others)
        exact ⟨i, s.variableTensors, tensors, rfl, got, shapes, passed⟩

theorem validates_iff (cached : CacheCompiled s) (i : Invocation) : Validates s i ↔ Sound s i := by
  unfold Sound
  cases looked : (s.manager.tryGetCachedKernel
      (i.wrapper.createKernelKey (i.context s.variableTensors))).1 with
  | none => exact validates_iff_of_miss looked
  | some kernel =>
    have got := looked
    rw [tryGetCachedKernel_fst] at got
    exact validates_iff_of_hit looked (cached.2 _ kernel got)

/-- In every history, caching bypasses the validation of no step exactly when every step is
    sound. -/
theorem histories_validated_iff (maxCacheSize : Nat)
    (answers : Handle → Except Status Tensor) (history : List Action) :
    EveryStep step Validated ⟨{ maxCacheSize := maxCacheSize }, answers⟩ history ↔
      EveryStep step SoundStep ⟨{ maxCacheSize := maxCacheSize }, answers⟩ history := by
  refine everyStep_iff (I := CacheCompiled) ?_ ?_ (cacheCompiled_init maxCacheSize answers) history
  · intro s a t cached taken sound
    exact ⟨step_cacheCompiled cached taken, fun i is => (validates_iff cached i).mpr (sound i is)⟩
  · intro s a t cached taken unsound validated
    exact unsound fun i is => (validates_iff cached i).mp (validated i is)

/-- Variable 0 has three elements, any other one five. -/
def threeAndFive : Handle → Except Status Tensor
  | 0 => .ok ⟨40, [3], .float⟩
  | _ => .ok ⟨41, [5], .float⟩

def descend (handle : Handle) : Invocation where
  op := .gradientDescent
  attributes := ⟨.float, false, false, false⟩
  handles := [handle]
  inputs := [.device ⟨30, [], .float⟩, .device ⟨31, [3], .float⟩]
  device := .granted
  handles_length := rfl
  inputs_length := rfl

/-- The kernel of variable 0 is executed on variable 1, and no error is reported. -/
theorem descend_unchecked : ¬ ∀ (answers : Handle → Except Status Tensor) (history : List Action),
      EveryStep step Validated ⟨{ maxCacheSize := kDefaultMaxCacheSize }, answers⟩ history := by
  intro every
  obtain ⟨-, later⟩ :=
    every threeAndFive [.resourceApply (descend 0), .resourceApply (descend 1)] _ rfl
  obtain ⟨validated, -⟩ := later _ rfl
  have validates := validated (descend 1) rfl
  have err := validates.mismatch 1 mem_cons_self ⟨41, [5], .float⟩ rfl (by decide)
  exact Bool.false_ne_true err

end TfDml.TrainingOps
