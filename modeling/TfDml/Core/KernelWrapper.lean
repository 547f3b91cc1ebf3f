import TfDml.Core.KernelManager
import TfDml.Core.OpKernelContext

/-! # Kernel keys and the kernel wrapper

`ComputeImpl` is what every invocation of a wrapped kernel goes through: the
lookup of a cached kernel, the shortcuts for kernels that need not run, the
construction of a new kernel and its execution. The op brings its key, its
initialization helper, its kernel and what executing the kernel does.
-/

namespace TfDml.KernelWrapper

open KernelManager

inductive AttributeValue where
  | dtype (value : DataType)
  | int (value : Int)
  | bool (value : Bool)
  | string (value : String)
  deriving DecidableEq

/-- A constant CPU input is part of the key with its bytes, any other input only with its
    shape and type. -/
inductive DmlInputTensorKey where
  | constantCpuInput (tensor : HostTensor)
  | shapeAndType (shape : TensorShape) (dtype : DataType)
  deriving DecidableEq

structure DmlKernelKey where
  opTypeName : String
  attributeValues : List (Option AttributeValue)
  inputTensors : List DmlInputTensorKey
  deriving DecidableEq

def inputTensorKey : Input → DmlInputTensorKey
  | .host tensor => .constantCpuInput tensor
  | .device tensor => .shapeAndType tensor.shape tensor.dtype
  | .resource handle => .shapeAndType (Input.resource handle).shape .resource

def createKernelKey (opTypeName : String) (attributeValues : List (Option AttributeValue))
    (ctx : OpKernelContext) : DmlKernelKey :=
  ⟨opTypeName, attributeValues, ctx.inputs.map inputTensorKey⟩

inductive DmlKernelCachePolicy where
  | always
  | never
  deriving DecidableEq

/-- A constructor crashes on a failed `CHECK`, or leaves an object and a status. -/
inductive Construction (Kernel : Type) where
  | crashed
  | constructed (kernel : Kernel) (status : Status)

/-- What `Compute` of a kernel does: crash on what the kernel does not have, report an
    error, or launch an execution. -/
inductive Launch (Execution : Type) where
  | crashed
  | failed (status : Status)
  | launched (execution : Execution) (gpuEvent : DmlGpuEvent)

/-- What an op brings to its wrapper. A helper is absent where the source has a null
    pointer: in a kernel whose constructor returned before `Initialize`. -/
structure DmlKernelWrapper (Helper Kernel Execution : Type) where
  cachePolicy : DmlKernelCachePolicy
  createKernelKey : OpKernelContext → DmlKernelKey
  createInitializationHelper : OpKernelContext → Except Status Helper
  getOutputShapes : OpKernelContext → Option Helper → Option (List TensorShape)
  isNoOpKernel : OpKernelContext → Helper → List TensorShape → Bool
  getForwardableInputIndex : OpKernelContext → Helper → List TensorShape → Nat → Option Nat
  createKernel : OpKernelContext → Helper → List TensorShape → Construction Kernel
  getInitializationHelper : Kernel → Option Helper
  computeKernel : OpKernelContext → Kernel → Option Helper → List TensorShape → Launch Execution

inductive Outcome (Execution : Type) where
  | crashed
  | failed (status : Status)
  /-- A kernel that need not run: outputs of these shapes, filled with zeros. -/
  | zeroed (outputShapes : List TensorShape)
  /-- Each output is an input in another shape. -/
  | forwarded (outputs : List (Nat × TensorShape))
  | computed (execution : Execution)

/-- Allocate all outputs, up to the first that fails. -/
def allocateOutputs (ctx : OpKernelContext) (outputShapes : List TensorShape) : Status :=
  let statuses := outputShapes.zipIdx.map fun (shape, index) =>
    ctx.device.allocateOutput index shape
  (statuses.find? fun status => !status.isOk).getD .ok

theorem allocateOutputs_singleton (ctx : OpKernelContext) (shape : TensorShape) :
    allocateOutputs ctx [shape] = ctx.device.allocateOutput 0 shape := by
  unfold allocateOutputs
  cases response : ctx.device.allocateOutput 0 shape <;> simp [response, Status.isOk]

namespace DmlKernelWrapper

variable {Helper Kernel Execution : Type} (w : DmlKernelWrapper Helper Kernel Execution)

/-- The inputs to forward, if every output can be made from one; else nothing. -/
def forwardIndices (ctx : OpKernelContext) (helper : Helper) (outputShapes : List TensorShape) :
    List (Nat × TensorShape) :=
  let forward (output : TensorShape × Nat) : Option (Nat × TensorShape) := do
    let inputIndex ← w.getForwardableInputIndex ctx helper outputShapes output.2
    let input ← ctx.input inputIndex
    if input.shape.numElements = output.1.numElements then some (inputIndex, output.1) else none
  (outputShapes.zipIdx.mapM forward).getD []

/-- The invocation up to the construction of a kernel: it ends early, or goes on with its
    helper and output shapes. -/
def prepare (ctx : OpKernelContext) : Except (Outcome Execution) (Helper × List TensorShape) :=
  match w.createInitializationHelper ctx with
  | .error status => .error (.failed status)
  | .ok helper =>
    match w.getOutputShapes ctx (some helper) with
    | none => .error .crashed
    | some outputShapes =>
      if ctx.numOutputs ≠ outputShapes.length then
        .error (.failed (.invalidArgument
          ("The shape helper supplied an incorrect number of output shapes. " ++
            toString ctx.numOutputs ++ " were expected, but " ++
            toString outputShapes.length ++ " were provided.")))
      else if w.isNoOpKernel ctx helper outputShapes then
        match allocateOutputs ctx outputShapes with
        | .ok => .error (.zeroed outputShapes)
        | status => .error (.failed status)
      else
        match w.forwardIndices ctx helper outputShapes with
        | [] => .ok (helper, outputShapes)
        | outputs => .error (.forwarded outputs)

variable {ctx : OpKernelContext}

theorem prepare_error {status : Status}
    (err : w.createInitializationHelper ctx = .error status) :
    w.prepare ctx = .error (.failed status) := by
  simp only [prepare, err]

variable {helper : Helper} {outputShapes : List TensorShape}

theorem forwardIndices_nil
    (no : ∀ output, w.getForwardableInputIndex ctx helper outputShapes output = none) :
    w.forwardIndices ctx helper outputShapes = [] := by
  cases outputShapes with
  | nil => rfl
  | cons shape rest => simp [forwardIndices, List.zipIdx_cons, no]

theorem prepare_helper (new : w.createInitializationHelper ctx = .ok helper)
    (shapes : w.getOutputShapes ctx (some helper) = some outputShapes)
    (count : ctx.numOutputs = outputShapes.length)
    (no : ∀ output, w.getForwardableInputIndex ctx helper outputShapes output = none) :
    w.prepare ctx = if w.isNoOpKernel ctx helper outputShapes then
        match allocateOutputs ctx outputShapes with
        | .ok => .error (.zeroed outputShapes)
        | status => .error (.failed status)
      else .ok (helper, outputShapes) := by
  simp only [prepare, new, shapes, count, ne_eq, not_true_eq_false, if_false,
    w.forwardIndices_nil no]

/-- Allocate the outputs in the kernel's context, compute, and keep the kernel alive until
    the GPU is done with it. -/
def execute (m : DmlKernelManager DmlKernelKey Kernel) (ctx : OpKernelContext) (kernel : Kernel)
    (helper : Option Helper) (outputShapes : List TensorShape) :
    Outcome Execution × DmlKernelManager DmlKernelKey Kernel :=
  match allocateOutputs ctx outputShapes with
  | .ok =>
    match w.computeKernel ctx kernel helper outputShapes with
    | .crashed => (.crashed, m)
    | .failed status => (.failed status, m)
    | .launched execution gpuEvent => (.computed execution, m.queueReference kernel gpuEvent)
  | status => (.failed status, m)

/-- The cache gets the kernel before its status is looked at; without a key, the wrapper
    does not cache. -/
def cacheKernel (m : DmlKernelManager DmlKernelKey Kernel) (key : Option DmlKernelKey)
    (kernel : Kernel) : DmlKernelManager DmlKernelKey Kernel :=
  match key with
  | some key => (m.createCachedKernel key kernel).2
  | none => m

def constructAndExecute (m : DmlKernelManager DmlKernelKey Kernel) (ctx : OpKernelContext)
    (key : Option DmlKernelKey) : Outcome Execution × DmlKernelManager DmlKernelKey Kernel :=
  match w.prepare ctx with
  | .error outcome => (outcome, m)
  | .ok (helper, outputShapes) =>
    match w.createKernel ctx helper outputShapes with
    | .crashed => (.crashed, m)
    | .constructed kernel .ok =>
      w.execute (cacheKernel m key kernel) ctx kernel (some helper) outputShapes
    | .constructed kernel status => (.failed status, cacheKernel m key kernel)

def computeImpl (m : DmlKernelManager DmlKernelKey Kernel) (ctx : OpKernelContext) :
    Outcome Execution × DmlKernelManager DmlKernelKey Kernel :=
  match w.cachePolicy with
  | .never => w.constructAndExecute m ctx none
  | .always =>
    let key := w.createKernelKey ctx
    match m.tryGetCachedKernel key with
    | (none, m) => w.constructAndExecute m ctx (some key)
    | (some kernel, m) =>
      match w.getOutputShapes ctx (w.getInitializationHelper kernel) with
      | none => (.crashed, m)
      | some outputShapes => w.execute m ctx kernel (w.getInitializationHelper kernel) outputShapes

def freshOutcome (ctx : OpKernelContext) : Outcome Execution :=
  (w.computeImpl { maxCacheSize := kDefaultMaxCacheSize } ctx).1

/-- How executing a kernel ends, whatever the manager. -/
def executeOutcome (ctx : OpKernelContext) (kernel : Kernel) (helper : Option Helper)
    (outputShapes : List TensorShape) : Outcome Execution :=
  match allocateOutputs ctx outputShapes with
  | .ok =>
    match w.computeKernel ctx kernel helper outputShapes with
    | .crashed => .crashed
    | .failed status => .failed status
    | .launched execution _ => .computed execution
  | status => .failed status

theorem execute_fst (m : DmlKernelManager DmlKernelKey Kernel) (ctx : OpKernelContext)
    (kernel : Kernel) (helper : Option Helper) (outputShapes : List TensorShape) :
    (w.execute m ctx kernel helper outputShapes).1 =
      w.executeOutcome ctx kernel helper outputShapes := by
  unfold execute executeOutcome
  cases allocateOutputs ctx outputShapes with
  | ok => cases w.computeKernel ctx kernel helper outputShapes <;> rfl
  | _ => rfl

/-- How an invocation without a cached kernel ends. -/
def constructOutcome (ctx : OpKernelContext) : Outcome Execution :=
  match w.prepare ctx with
  | .error outcome => outcome
  | .ok (helper, outputShapes) =>
    match w.createKernel ctx helper outputShapes with
    | .crashed => .crashed
    | .constructed kernel .ok => w.executeOutcome ctx kernel (some helper) outputShapes
    | .constructed _ status => .failed status

theorem constructAndExecute_fst (m : DmlKernelManager DmlKernelKey Kernel)
    (ctx : OpKernelContext) (key : Option DmlKernelKey) :
    (w.constructAndExecute m ctx key).1 = w.constructOutcome ctx := by
  unfold constructAndExecute constructOutcome
  cases w.prepare ctx with
  | error outcome => rfl
  | ok prepared =>
    obtain ⟨helper, outputShapes⟩ := prepared
    cases new : w.createKernel ctx helper outputShapes with
    | crashed => simp only [new]
    | constructed kernel status =>
      simp only [new]
      cases status with
      | ok => exact w.execute_fst _ ctx kernel _ outputShapes
      | _ => rfl

theorem computeImpl_miss {m : DmlKernelManager DmlKernelKey Kernel}
    (missed : (m.tryGetCachedKernel (w.createKernelKey ctx)).1 = none) :
    (w.computeImpl m ctx).1 = w.constructOutcome ctx := by
  unfold computeImpl
  cases w.cachePolicy with
  | never => exact w.constructAndExecute_fst m ctx none
  | always =>
    cases got : m.tryGetCachedKernel (w.createKernelKey ctx) with
    | mk result manager =>
      rw [got] at missed
      subst missed
      simp only [got]
      exact w.constructAndExecute_fst manager ctx _

theorem freshOutcome_eq (ctx : OpKernelContext) : w.freshOutcome ctx = w.constructOutcome ctx :=
  w.computeImpl_miss rfl

theorem computeImpl_hit (policy : w.cachePolicy = .always)
    {m : DmlKernelManager DmlKernelKey Kernel} {kernel : Kernel}
    (hit : (m.tryGetCachedKernel (w.createKernelKey ctx)).1 = some kernel)
    (shapes : w.getOutputShapes ctx (w.getInitializationHelper kernel) = some outputShapes) :
    (w.computeImpl m ctx).1 =
      w.executeOutcome ctx kernel (w.getInitializationHelper kernel) outputShapes := by
  cases got : m.tryGetCachedKernel (w.createKernelKey ctx) with
  | mk result manager =>
    rw [got] at hit
    subst hit
    simp only [computeImpl, policy, got, shapes]
    exact w.execute_fst manager ctx kernel _ _

section Cache

variable {P : DmlKernelKey → Kernel → Prop} {m : DmlKernelManager DmlKernelKey Kernel}
  {ctx : OpKernelContext}

theorem execute_everyCached (inv : Invariant m) (every : EveryCached P m) (kernel : Kernel)
    (helper : Option Helper) (outputShapes : List TensorShape) :
    Invariant (w.execute m ctx kernel helper outputShapes).2 ∧
      EveryCached P (w.execute m ctx kernel helper outputShapes).2 := by
  unfold execute
  cases allocateOutputs ctx outputShapes with
  | ok =>
    cases w.computeKernel ctx kernel helper outputShapes with
    | launched execution gpuEvent => exact ⟨inv.queueReference kernel gpuEvent, every⟩
    | crashed | failed => exact ⟨inv, every⟩
  | _ => exact ⟨inv, every⟩

variable {key : Option DmlKernelKey}

theorem cacheKernel_everyCached (inv : Invariant m) (every : EveryCached P m) {kernel : Kernel}
    (new : ∀ k, key = some k → P k kernel) :
    Invariant (cacheKernel m key kernel) ∧ EveryCached P (cacheKernel m key kernel) := by
  cases key with
  | none => exact ⟨inv, every⟩
  | some key =>
    exact ⟨inv.createCachedKernel key kernel, every.createCachedKernel inv fun _ _ => new key rfl⟩

theorem constructAndExecute_everyCached (inv : Invariant m) (every : EveryCached P m)
    (new : ∀ k helper outputShapes kernel status, key = some k →
      w.prepare ctx = .ok (helper, outputShapes) →
      w.createKernel ctx helper outputShapes = .constructed kernel status → P k kernel) :
    Invariant (w.constructAndExecute m ctx key).2 ∧
      EveryCached P (w.constructAndExecute m ctx key).2 := by
  unfold constructAndExecute
  cases prepared : w.prepare ctx with
  | error outcome => exact ⟨inv, every⟩
  | ok result =>
    obtain ⟨helper, outputShapes⟩ := result
    cases created : w.createKernel ctx helper outputShapes with
    | crashed =>
      simp only [created]
      exact ⟨inv, every⟩
    | constructed kernel status =>
      have cached := cacheKernel_everyCached inv every fun k same =>
        new k helper outputShapes kernel status same prepared created
      simp only [created]
      cases status with
      | ok => exact w.execute_everyCached cached.1 cached.2 kernel _ outputShapes
      | _ => exact cached

theorem computeImpl_everyCached (inv : Invariant m) (every : EveryCached P m)
    (new : ∀ helper outputShapes kernel status, w.prepare ctx = .ok (helper, outputShapes) →
      w.createKernel ctx helper outputShapes = .constructed kernel status →
      P (w.createKernelKey ctx) kernel) :
    Invariant (w.computeImpl m ctx).2 ∧ EveryCached P (w.computeImpl m ctx).2 := by
  unfold computeImpl
  cases w.cachePolicy with
  | never => exact w.constructAndExecute_everyCached inv every (by simp)
  | always =>
    have tried := inv.tryGetCachedKernel (w.createKernelKey ctx)
    have kept := every.tryGetCachedKernel (w.createKernelKey ctx)
    cases got : m.tryGetCachedKernel (w.createKernelKey ctx) with
    | mk result manager =>
      rw [got] at tried kept
      simp only [got]
      cases result with
      | none =>
        apply w.constructAndExecute_everyCached tried kept
        intro k helper outputShapes kernel status same prepared created
        exact Option.some.inj same ▸ new helper outputShapes kernel status prepared created
      | some kernel =>
        cases shapes : w.getOutputShapes ctx (w.getInitializationHelper kernel) with
        | none =>
          simp only [shapes]
          exact ⟨tried, kept⟩
        | some outputShapes =>
          simp only [shapes]
          exact w.execute_everyCached tried kept _ _ _

end Cache

end DmlKernelWrapper

end TfDml.KernelWrapper
