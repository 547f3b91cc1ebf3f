import TfDml.Core.KernelWrapper

/-! # GatherNd on a variable

`ResourceGatherNd` goes through the kernel wrapper with the default cache
policy. Its initialization helper keeps the tensor of the variable, and the
helper lives as long as the cached kernel does, while the key has only the
scalar shape of the handle.
-/

namespace TfDml.GatherNd

open Lib KernelManager KernelWrapper

inductive IndexType where
  | int32
  | int64
  deriving DecidableEq

def IndexType.dtype : IndexType → DataType
  | .int32 => .int32
  | .int64 => .int64

def IndexType.max : IndexType → Nat
  | .int32 => 2 ^ 31 - 1
  | .int64 => 2 ^ 63 - 1

structure Node where
  dtype : DataType
  tindices : IndexType
  deriving DecidableEq

structure GatherNdInitHelper where
  outputShape : TensorShape
  variableTensor : Option Tensor
  deriving DecidableEq

/-- `indices.shape[:-1] + params.shape[indices.shape[-1]:]` -/
def resultShape (params indices : TensorShape) : TensorShape :=
  indices.dropLast ++ params.drop (indices.getLastD 0)

def validate (tindices : IndexType) (params indices : TensorShape) : Except Status Unit := do
  opRequires params.isVectorOrHigher (.invalidArgument "params must be at least a vector")
  opRequires indices.isVectorOrHigher (.invalidArgument "indices must be at least a vector")
  let indicesNd := indices.getLastD 0
  opRequires (indicesNd ≤ params.length)
    (.invalidArgument ("index innermost dimension length must be <= params rank; saw: " ++
      toString indicesNd ++ " vs. " ++ toString params.length))
  let nBig := indices.dropLast.prod
  opRequires (nBig ≤ 2 ^ 31 - 1)
    (.invalidArgument ("indices has too many elements for int indexing: " ++
      toString nBig ++ " > " ++ toString (2 ^ 31 - 1)))
  opRequires (params.numElements ≤ tindices.max)
    (.invalidArgument ("params.NumElements() too large for " ++ dataTypeString tindices.dtype ++
      " indexing: " ++ toString params.numElements ++ " > " ++ toString tindices.max))
  let sliceSizeBig := (params.drop indicesNd).prod
  opRequires (sliceSizeBig ≤ tindices.max)
    (.invalidArgument ("slice size is too large for indexing: " ++ toString sliceSizeBig ++
      " > " ++ toString tindices.max))
  opRequires (indicesNd < 8)
    (.invalidArgument ("Only indices.shape[-1] values between 1 and 7 are currently " ++
      "supported.  Requested rank: " ++ toString indicesNd))
  opRequires (indices.numElements = 0 || params.numElements ≠ 0)
    (.invalidArgument ("Requested more than 0 entries, but params is empty.  Params shape: " ++
      params.debugString))

/-- The constructor of the helper, on the variable that input 0 names or on input 0
    itself. -/
def gatherNdInitHelper (node : Node) (ctx : OpKernelContext) : Except Status GatherNdInitHelper :=
  match ctx.input 0 with
  | some (.resource handle) => do
    let variableTensor ← ctx.getInputTensorFromVariable handle
    validate node.tindices variableTensor.shape (ctx.deviceInput 1).shape
    .ok ⟨resultShape variableTensor.shape (ctx.deviceInput 1).shape, some variableTensor⟩
  | _ => do
    validate node.tindices (ctx.deviceInput 0).shape (ctx.deviceInput 1).shape
    .ok ⟨resultShape (ctx.deviceInput 0).shape (ctx.deviceInput 1).shape, none⟩

def getParamsTensor (ctx : OpKernelContext) (helper : GatherNdInitHelper) : Tensor :=
  helper.variableTensor.getD (ctx.deviceInput 0)

def isNoOp (params indices : TensorShape) : Bool :=
  if indices.dropLast.prod = 0 then true
  else params.numElements = 0 && indices.getLastD 0 = 0

def isNoOpKernel (ctx : OpKernelContext) (helper : GatherNdInitHelper)
    (_ : List TensorShape) : Bool :=
  isNoOp (getParamsTensor ctx helper).shape (ctx.deviceInput 1).shape

structure TensorDesc where
  dtype : DataType
  shape : TensorShape
  deriving DecidableEq

def desc (tensor : Tensor) : TensorDesc := ⟨tensor.dtype, tensor.shape⟩

/-- The operator that the kernel compiles: a gather with flattened tensors, or a tile of
    the whole params when the indices' last dimension is 0. -/
inductive Operator where
  | tile (params output : TensorDesc) (repeats : Nat)
  | gatherNd (params indices output : TensorDesc) (inputRank indicesRank : Nat)
  deriving DecidableEq

/-- The first `lastIndicesDim` dimensions, filled up with 1, and the rest in one. -/
def flatParamsShape (params : TensorShape) (lastIndicesDim : Nat) : TensorShape :=
  (List.range lastIndicesDim).map (fun i => params.getD i 1) ++ [(params.drop lastIndicesDim).prod]

def operator (node : Node) (params indices : TensorDesc) : Operator :=
  let lastIndicesDim := indices.shape.getLastD 0
  let leadingDims := indices.shape.dropLast.prod
  let flatParams := flatParamsShape params.shape lastIndicesDim
  let lastParamsDim := (params.shape.drop lastIndicesDim).prod
  let missingDims := List.replicate (flatParams.length - 2) 1
  let flatIndices := missingDims ++ [leadingDims, lastIndicesDim]
  let flatOutput := missingDims ++ [leadingDims, lastParamsDim]
  if lastIndicesDim = 0 then
    .tile ⟨params.dtype, flatParams⟩ ⟨node.dtype, flatOutput⟩ leadingDims
  else
    .gatherNd ⟨params.dtype, flatParams⟩ ⟨indices.dtype, flatIndices⟩ ⟨node.dtype, flatOutput⟩
      flatParams.length flatIndices.length

/-- `initialized` is false after `Initialize` ran out of memory. -/
structure DmlGatherNdKernel where
  initHelper : GatherNdInitHelper
  operator : Operator
  initialized : Bool
  deriving DecidableEq

def createKernel (node : Node) (ctx : OpKernelContext) (helper : GatherNdInitHelper) :
    Construction DmlGatherNdKernel :=
  .constructed
    ⟨helper, operator node (desc (getParamsTensor ctx helper)) (desc (ctx.deviceInput 1)),
      ctx.device.initialization.isOk⟩
    ctx.device.initialization

/-- What the GPU is told to do: the operator, whether it was initialized, the tensors
    bound as its inputs, and the shape of the output. -/
structure Execution where
  operator : Operator
  initialized : Bool
  params : Tensor
  indices : Option Tensor
  outputShapes : List TensorShape
  deriving DecidableEq

def compute (ctx : OpKernelContext) (kernel : DmlGatherNdKernel)
    (helper : Option GatherNdInitHelper) (outputShapes : List TensorShape) : Launch Execution :=
  match helper, ctx.device.execution with
  | none, _ => .crashed
  | some _, .error status => .failed status
  | some helper, .ok gpuEvent =>
    let indices := ctx.deviceInput 1
    .launched
      { operator := kernel.operator
        initialized := kernel.initialized
        params := getParamsTensor ctx helper
        indices := if indices.shape.getLastD 0 = 0 then none else some indices
        outputShapes := outputShapes } gpuEvent

/-- `DmlKernelWrapper<DmlGatherNdKernel, GatherNdShapeHelper>`, for an op with these
    attributes. -/
def wrapper (opTypeName : String) (node : Node) :
    DmlKernelWrapper GatherNdInitHelper DmlGatherNdKernel Execution where
  cachePolicy := .always
  createKernelKey := createKernelKey opTypeName
    [some (.dtype node.dtype), some (.dtype node.tindices.dtype)]
  createInitializationHelper := gatherNdInitHelper node
  getOutputShapes := fun _ helper => helper.map fun helper => [helper.outputShape]
  isNoOpKernel := isNoOpKernel
  getForwardableInputIndex := fun _ _ _ _ => none
  createKernel := fun ctx helper _ => createKernel node ctx helper
  getInitializationHelper := fun kernel => some kernel.initHelper
  computeKernel := compute

def resourceGatherNd (node : Node) :
    DmlKernelWrapper GatherNdInitHelper DmlGatherNdKernel Execution :=
  wrapper "ResourceGatherNd" node

/-- One call of the op: the variable that its input 0 names, and its indices. -/
structure Invocation where
  node : Node
  resource : Handle
  indices : Tensor
  device : DeviceResponses

def Invocation.context (i : Invocation) (variableTensors : Handle → Except Status Tensor) :
    OpKernelContext :=
  ⟨[.resource i.resource, .device i.indices], 1, variableTensors, i.device⟩

structure State where
  manager : DmlKernelManager DmlKernelKey DmlGatherNdKernel
  variableTensors : Handle → Except Status Tensor

inductive Action where
  /-- The variable gets another tensor, or is destroyed. -/
  | assign (handle : Handle) (tensor : Except Status Tensor)
  | resourceGatherNd (invocation : Invocation)
  | clearCache

def step (s : State) : Action → Option State
  | .assign handle tensor =>
    some { s with variableTensors := Function.update s.variableTensors handle tensor }
  | .resourceGatherNd i =>
    let ctx := i.context s.variableTensors
    some { s with manager := ((resourceGatherNd i.node).computeImpl s.manager ctx).2 }
  | .clearCache => some { s with manager := s.manager.clearCache }

def outcome (s : State) (i : Invocation) : Outcome Execution :=
  ((resourceGatherNd i.node).computeImpl s.manager (i.context s.variableTensors)).1

/-- The invocation reads the params from the variable that it names and reports the shape
    of the result for that variable. -/
structure ReadsVariable (s : State) (i : Invocation) : Prop where
  computed : ∀ execution, outcome s i = .computed execution →
    s.variableTensors i.resource = .ok execution.params ∧
      execution.outputShapes = [resultShape execution.params.shape i.indices.shape]
  zeroed : ∀ outputShapes, outcome s i = .zeroed outputShapes →
    ∃ params, s.variableTensors i.resource = .ok params ∧
      outputShapes = [resultShape params.shape i.indices.shape]

def Transparent (s : State) (a : Action) (_ : State) : Prop :=
  ∀ i, a = .resourceGatherNd i → ReadsVariable s i ∧
      outcome s i = (resourceGatherNd i.node).freshOutcome (i.context s.variableTensors)

/-- The kernel that the cache has for the invocation, if any, was built from the tensor that
    the variable has now, was initialized, and would be initialized again. -/
def CachedIsCurrent (s : State) (a : Action) (_ : State) : Prop :=
  ∀ i kernel, a = .resourceGatherNd i → (s.manager.tryGetCachedKernel
      ((resourceGatherNd i.node).createKernelKey (i.context s.variableTensors))).1 = some kernel →
    (∃ tensor, s.variableTensors i.resource = .ok tensor ∧
      kernel.initHelper.variableTensor = some tensor) ∧
    kernel.initialized = true ∧ i.device.initialization = .ok

def kernelFor (i : Invocation) (tensor : Tensor) (initialized : Bool) : DmlGatherNdKernel :=
  ⟨⟨resultShape tensor.shape i.indices.shape, some tensor⟩,
    operator i.node (desc tensor) (desc i.indices), initialized⟩

/-- The invocation passes the checks for a tensor, and the kernel has something to do. -/
def Accepts (i : Invocation) (tensor : Tensor) : Prop :=
  validate i.node.tindices tensor.shape i.indices.shape = .ok () ∧
    isNoOp tensor.shape i.indices.shape = false

theorem prepare_eq (i : Invocation) (variableTensors : Handle → Except Status Tensor) :
    (resourceGatherNd i.node).prepare (i.context variableTensors) =
      match variableTensors i.resource with
      | .error status => .error (.failed status)
      | .ok tensor =>
        match validate i.node.tindices tensor.shape i.indices.shape with
        | .error status => .error (.failed status)
        | .ok () =>
          let shape := resultShape tensor.shape i.indices.shape
          if isNoOp tensor.shape i.indices.shape then
            match i.device.allocateOutput 0 shape with
            | .ok => .error (.zeroed [shape])
            | status => .error (.failed status)
          else .ok (⟨shape, some tensor⟩, [shape]) := by
  have params : (i.context variableTensors).input 0 = some (.resource i.resource) := rfl
  have indices : (i.context variableTensors).deviceInput 1 = i.indices := rfl
  have lookup : (i.context variableTensors).getInputTensorFromVariable = variableTensors := rfl
  have new : (resourceGatherNd i.node).createInitializationHelper
      (i.context variableTensors) = gatherNdInitHelper i.node (i.context variableTensors) := rfl
  simp only [gatherNdInitHelper, params, indices, lookup, bind, Except.bind] at new
  cases got : variableTensors i.resource with
  | error status =>
    simp only [got] at new
    exact DmlKernelWrapper.prepare_error _ new
  | ok tensor =>
    simp only [got] at new
    cases checked : validate i.node.tindices tensor.shape i.indices.shape with
    | error status =>
      simp only [checked] at new ⊢
      exact DmlKernelWrapper.prepare_error _ new
    | ok =>
      simp only [checked] at new ⊢
      rw [DmlKernelWrapper.prepare_helper _ new rfl rfl fun _ => rfl, allocateOutputs_singleton]
      rfl

variable {i : Invocation} {variableTensors : Handle → Except Status Tensor}

theorem prepare_ok {helper : GatherNdInitHelper} {outputShapes : List TensorShape}
    (prepared : (resourceGatherNd i.node).prepare (i.context variableTensors) =
      .ok (helper, outputShapes)) :
    ∃ tensor, variableTensors i.resource = .ok tensor ∧ Accepts i tensor ∧
      helper = ⟨resultShape tensor.shape i.indices.shape, some tensor⟩ ∧
      outputShapes = [resultShape tensor.shape i.indices.shape] := by
  rw [prepare_eq] at prepared
  cases got : variableTensors i.resource with
  | error status => simp [got] at prepared
  | ok tensor =>
    cases checked : validate i.node.tindices tensor.shape i.indices.shape with
    | error status => simp [got, checked] at prepared
    | ok =>
      cases idle : isNoOp tensor.shape i.indices.shape with
      | true =>
        simp only [got, checked, idle, if_true] at prepared
        split at prepared <;> cases prepared
      | false =>
        simp only [got, checked, idle] at prepared
        cases prepared
        exact ⟨tensor, rfl, ⟨checked, idle⟩, rfl, rfl⟩

variable {tensor : Tensor}

theorem prepare_accepts (got : variableTensors i.resource = .ok tensor)
    (accepts : Accepts i tensor) : (resourceGatherNd i.node).prepare (i.context variableTensors) =
      .ok (⟨resultShape tensor.shape i.indices.shape, some tensor⟩,
        [resultShape tensor.shape i.indices.shape]) := by
  obtain ⟨checked, busy⟩ := accepts
  rw [prepare_eq]
  simp [got, checked, busy]

def keyOf (i : Invocation) : DmlKernelKey :=
  ⟨"ResourceGatherNd", [some (.dtype i.node.dtype), some (.dtype i.node.tindices.dtype)],
    [.shapeAndType [] .resource, .shapeAndType i.indices.shape i.indices.dtype]⟩

theorem createKernelKey_eq (i : Invocation) (variableTensors : Handle → Except Status Tensor) :
    (resourceGatherNd i.node).createKernelKey (i.context variableTensors) = keyOf i := rfl

theorem keyOf_inj {j : Invocation} (same : keyOf i = keyOf j) :
    i.node = j.node ∧ desc i.indices = desc j.indices := by
  obtain ⟨⟨dtype, tindices⟩, resource, indices, device⟩ := i
  obtain ⟨⟨dtype', tindices'⟩, resource', indices', device'⟩ := j
  simp only [keyOf, DmlKernelKey.mk.injEq, List.cons.injEq, Option.some.injEq,
    AttributeValue.dtype.injEq, DmlInputTensorKey.shapeAndType.injEq, and_true, true_and] at same
  obtain ⟨⟨rfl, sameIndex⟩, shape, type⟩ := same
  constructor
  · cases tindices <;> cases tindices' <;> first | rfl | cases sameIndex
  · simp [desc, shape, type]

/-- The cached kernel was built by an invocation with that key, for some tensor. -/
def BuiltFor (key : DmlKernelKey) (kernel : DmlGatherNdKernel) : Prop :=
  ∃ i tensor, keyOf i = key ∧ Accepts i tensor ∧ kernel = kernelFor i tensor kernel.initialized

theorem BuiltFor.same {kernel : DmlGatherNdKernel} (built : BuiltFor (keyOf i) kernel) :
    ∃ tensor, Accepts i tensor ∧ kernel = kernelFor i tensor kernel.initialized := by
  obtain ⟨j, tensor, sameKey, accepts, is⟩ := built
  obtain ⟨node, indices⟩ := keyOf_inj sameKey
  have shape : j.indices.shape = i.indices.shape := congrArg TensorDesc.shape indices
  refine ⟨tensor, ?_, ?_⟩
  · simpa only [Accepts, node, shape] using accepts
  · simpa only [kernelFor, node, indices, shape] using is

/-- What an execution of the kernel for a tensor does, whoever constructed it. -/
def executionFor (i : Invocation) (tensor : Tensor) (initialized : Bool) : Execution where
  operator := operator i.node (desc tensor) (desc i.indices)
  initialized := initialized
  params := tensor
  indices := if i.indices.shape.getLastD 0 = 0 then none else some i.indices
  outputShapes := [resultShape tensor.shape i.indices.shape]

def executed (i : Invocation) (tensor : Tensor) (initialized : Bool) : Outcome Execution :=
  match i.device.allocateOutput 0 (resultShape tensor.shape i.indices.shape) with
  | .ok =>
    match i.device.execution with
    | .error status => .failed status
    | .ok _ => .computed (executionFor i tensor initialized)
  | status => .failed status

theorem executeOutcome_kernelFor (i : Invocation)
    (variableTensors : Handle → Except Status Tensor) (tensor : Tensor) (initialized : Bool) :
    (resourceGatherNd i.node).executeOutcome (i.context variableTensors)
      (kernelFor i tensor initialized) (some (kernelFor i tensor initialized).initHelper)
      [resultShape tensor.shape i.indices.shape] = executed i tensor initialized := by
  have computes : (resourceGatherNd i.node).computeKernel = compute := rfl
  have device : (i.context variableTensors).device = i.device := rfl
  unfold DmlKernelWrapper.executeOutcome executed
  rw [allocateOutputs_singleton, computes, device]
  cases i.device.allocateOutput 0 (resultShape tensor.shape i.indices.shape) with
  | ok =>
    unfold compute
    rw [device]
    cases i.device.execution <;> rfl
  | _ => rfl

variable {s : State} {initialized : Bool}

theorem outcome_hit
    (hit : (s.manager.tryGetCachedKernel (keyOf i)).1 = some (kernelFor i tensor initialized)) :
    outcome s i = executed i tensor initialized := by
  have ends := (resourceGatherNd i.node).computeImpl_hit rfl
    (createKernelKey_eq i s.variableTensors ▸ hit) rfl
  exact ends.trans (executeOutcome_kernelFor i s.variableTensors tensor initialized)

theorem outcome_miss (missed : (s.manager.tryGetCachedKernel (keyOf i)).1 = none) :
    outcome s i = (resourceGatherNd i.node).freshOutcome (i.context s.variableTensors) := by
  rw [DmlKernelWrapper.freshOutcome_eq]
  exact (resourceGatherNd i.node).computeImpl_miss
    (createKernelKey_eq i s.variableTensors ▸ missed)

theorem freshOutcome_accepts (got : variableTensors i.resource = .ok tensor)
    (accepts : Accepts i tensor) :
    (resourceGatherNd i.node).freshOutcome (i.context variableTensors) =
      match i.device.initialization with
      | .ok => executed i tensor true
      | status => .failed status := by
  rw [DmlKernelWrapper.freshOutcome_eq, DmlKernelWrapper.constructOutcome,
    prepare_accepts got accepts]
  have new : ∀ helper outputShapes,
      (resourceGatherNd i.node).createKernel (i.context variableTensors) helper outputShapes =
        createKernel i.node (i.context variableTensors) helper := fun _ _ => rfl
  have device : (i.context variableTensors).device = i.device := rfl
  simp only [new, createKernel, device]
  cases i.device.initialization with
  | ok => exact executeOutcome_kernelFor i variableTensors tensor true
  | _ => rfl

theorem computed_of_executed {execution : Execution}
    (ends : executed i tensor initialized = .computed execution) :
    execution = executionFor i tensor initialized := by
  unfold executed at ends
  split at ends
  · split at ends
    · cases ends
    · exact (Outcome.computed.inj ends).symm
  · cases ends

theorem executed_ne_zeroed (i : Invocation) (tensor : Tensor) (initialized : Bool)
    (outputShapes : List TensorShape) : executed i tensor initialized ≠ .zeroed outputShapes := by
  unfold executed
  split
  · split <;> simp
  · simp

theorem readsVariable_fresh (fresh : outcome s i =
      (resourceGatherNd i.node).freshOutcome (i.context s.variableTensors)) :
    ReadsVariable s i := by
  have ends := fresh
  rw [DmlKernelWrapper.freshOutcome_eq, DmlKernelWrapper.constructOutcome, prepare_eq] at ends
  cases got : s.variableTensors i.resource with
  | error status =>
    simp only [got] at ends
    exact ⟨by simp [ends], by simp [ends]⟩
  | ok tensor =>
    cases checked : validate i.node.tindices tensor.shape i.indices.shape with
    | error status =>
      simp only [got, checked] at ends
      exact ⟨by simp [ends], by simp [ends]⟩
    | ok =>
      cases idle : isNoOp tensor.shape i.indices.shape with
      | true =>
        simp only [got, checked, idle, if_true] at ends
        cases live : i.device.allocateOutput 0 (resultShape tensor.shape i.indices.shape) with
        | ok =>
          simp only [live] at ends
          refine ⟨by simp [ends], ?_⟩
          intro outputShapes is
          rw [ends] at is
          exact ⟨tensor, got, (Outcome.zeroed.inj is).symm⟩
        | _ =>
          simp only [live] at ends
          exact ⟨by simp [ends], by simp [ends]⟩
      | false =>
        rw [freshOutcome_accepts got ⟨checked, idle⟩] at fresh
        cases started : i.device.initialization with
        | ok =>
          simp only [started] at fresh
          constructor
          · intro execution is
            rw [computed_of_executed (fresh.symm.trans is)]
            exact ⟨got, rfl⟩
          · intro outputShapes is
            exact absurd (fresh.symm.trans is) (executed_ne_zeroed _ _ _ _)
        | _ =>
          simp only [started] at fresh
          exact ⟨by simp [fresh], by simp [fresh]⟩

def CacheBuilt (s : State) : Prop := Invariant s.manager ∧ EveryCached BuiltFor s.manager

variable {t : State} {a : Action}

theorem step_cacheBuilt (built : CacheBuilt s) (taken : step s a = some t) : CacheBuilt t := by
  cases a with
  | assign handle tensor =>
    obtain rfl := Option.some.inj taken
    exact built
  | clearCache =>
    obtain rfl := Option.some.inj taken
    exact ⟨.clearCache, .clearCache⟩
  | resourceGatherNd i =>
    obtain rfl := Option.some.inj taken
    apply (resourceGatherNd i.node).computeImpl_everyCached built.1 built.2
    intro helper outputShapes kernel status prepared new
    obtain ⟨tensor, -, accepts, rfl, -⟩ := prepare_ok prepared
    obtain ⟨rfl, -⟩ := Construction.constructed.inj new
    exact ⟨i, tensor, rfl, accepts, rfl⟩

theorem transparent_of_current (built : CacheBuilt s) (cur : CachedIsCurrent s a t) :
    Transparent s a t := by
  intro i is
  have fresh : outcome s i =
      (resourceGatherNd i.node).freshOutcome (i.context s.variableTensors) := by
    cases hit : (s.manager.tryGetCachedKernel (keyOf i)).1 with
    | none => exact outcome_miss hit
    | some kernel =>
      obtain ⟨⟨tensor, got, kept⟩, initialized, started⟩ := cur i kernel is hit
      rw [tryGetCachedKernel_fst] at hit
      obtain ⟨cached, accepts, same⟩ := (built.2 _ kernel hit).same
      have eq : cached = tensor := by
        rw [same] at kept
        exact Option.some.inj kept
      subst eq
      rw [initialized] at same
      subst same
      rw [← tryGetCachedKernel_fst] at hit
      rw [outcome_hit hit, freshOutcome_accepts got accepts, started]
  exact ⟨readsVariable_fresh fresh, fresh⟩

def DeviceOk (_ : State) (a : Action) (_ : State) : Prop :=
  ∀ i, a = .resourceGatherNd i → i.device.AllOk

theorem executed_allOk (ok : i.device.AllOk) (tensor : Tensor) (initialized : Bool) :
    executed i tensor initialized = .computed (executionFor i tensor initialized) := by
  obtain ⟨gpuEvent, done⟩ := ok.execution
  simp only [executed, ok.allocateOutput, done]

theorem current_of_transparent (built : CacheBuilt s) (ok : DeviceOk s a t)
    (transparent : Transparent s a t) : CachedIsCurrent s a t := by
  intro i kernel is hit
  have device := ok i is
  obtain ⟨reads, fresh⟩ := transparent i is
  rw [createKernelKey_eq] at hit
  have cached := hit
  rw [tryGetCachedKernel_fst] at cached
  obtain ⟨tensor, accepts, same⟩ := (built.2 _ kernel cached).same
  rw [same] at hit
  have ends := outcome_hit hit
  rw [executed_allOk device] at ends
  have got : s.variableTensors i.resource = .ok tensor := (reads.computed _ ends).1
  rw [ends, freshOutcome_accepts got accepts, device.initialization] at fresh
  simp only [executed_allOk device, Outcome.computed.injEq] at fresh
  exact ⟨⟨tensor, got, same ▸ rfl⟩, congrArg Execution.initialized fresh, device.initialization⟩

theorem cacheBuilt_init (maxCacheSize : Nat) (variableTensors : Handle → Except Status Tensor) :
    CacheBuilt ⟨{ maxCacheSize := maxCacheSize }, variableTensors⟩ :=
  ⟨invariant_init maxCacheSize, fun key kernel got => by simp at got⟩

/-- In every history that starts with an empty cache, caching is transparent if every
    cached kernel that is used is current, and, as long as the device refuses nothing, only
    then. -/
theorem histories_transparent (maxCacheSize : Nat)
    (variableTensors : Handle → Except Status Tensor) (history : List Action) :
    (EveryStep step CachedIsCurrent ⟨{ maxCacheSize := maxCacheSize }, variableTensors⟩ history →
      EveryStep step Transparent ⟨{ maxCacheSize := maxCacheSize }, variableTensors⟩ history) ∧
    (EveryStep step DeviceOk ⟨{ maxCacheSize := maxCacheSize }, variableTensors⟩ history →
      EveryStep step Transparent ⟨{ maxCacheSize := maxCacheSize }, variableTensors⟩ history →
      EveryStep step CachedIsCurrent ⟨{ maxCacheSize := maxCacheSize }, variableTensors⟩
        history) := by
  have start := cacheBuilt_init maxCacheSize variableTensors
  constructor
  · intro every
    refine everyStep_of (I := CacheBuilt) ?_ start every
    intro s a t built taken cur
    exact ⟨step_cacheBuilt built taken, transparent_of_current built cur⟩
  · intro device transparent
    refine everyStep_of (I := CacheBuilt) ?_ start (device.and transparent)
    intro s a t built taken both
    exact ⟨step_cacheBuilt built taken, current_of_transparent built both.1 both.2⟩

/-- Variable 0 is a vector, variable 1 a matrix of the same type. -/
def twoVariables : Handle → Except Status Tensor
  | 0 => .ok ⟨10, [3], .float⟩
  | 1 => .ok ⟨11, [5, 7], .float⟩
  | _ => .error (.failedPrecondition "the variable is not initialized")

def gatherRow (handle : Handle) : Invocation :=
  ⟨⟨.float, .int32⟩, handle, ⟨20, [1, 1], .int32⟩, .granted⟩

/-- The second invocation reads the variable of the first. -/
theorem gatherRow_stale :
    ¬ ∀ (variableTensors : Handle → Except Status Tensor) (history : List Action),
      EveryStep step Transparent
        ⟨{ maxCacheSize := kDefaultMaxCacheSize }, variableTensors⟩ history := by
  intro every
  obtain ⟨-, later⟩ :=
    every twoVariables [.resourceGatherNd (gatherRow 0), .resourceGatherNd (gatherRow 1)] _ rfl
  obtain ⟨transparent, -⟩ := later _ rfl
  obtain ⟨reads, -⟩ := transparent (gatherRow 1) rfl
  have read := (reads.computed (executionFor (gatherRow 1) ⟨10, [3], .float⟩ true) rfl).1
  simp [gatherRow, executionFor, twoVariables] at read

end TfDml.GatherNd
