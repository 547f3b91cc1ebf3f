import TfDml.Core.OpKernelContext
import TfDml.Lib.Run

/-! # Tensor objects and their cached shapes

A `tfdml::Tensor` keeps a shape beside the `TF_Tensor` that it holds. It is
constructed, copied, moved and reshaped by hand-written members; moving leaves
an object that holds nothing, and any other use of such an object crashes.
-/

namespace TfDml.TensorObject

open Lib Option
open Function

abbrev ObjectId := Nat

/-- A `TF_Tensor`. Bitcasting shares the buffer. -/
structure TFTensor where
  buffer : BufferId
  dims : TensorShape
  dtype : DataType
  byteSize : Nat
  deriving DecidableEq

def TFTensor.elementCount (tensor : TFTensor) : Nat := tensor.dims.numElements

/-- Whether `TF_TensorBitcastFrom` accepts a type and dimensions for a tensor, and whether
    `TF_AllocateTensor` gives a tensor of a type, dimensions and length. -/
structure Runtime where
  acceptsBitcast : TFTensor → DataType → TensorShape → Bool
  allocates : DataType → TensorShape → Nat → Bool

namespace Runtime

/-- `TF_TensorBitcastFrom` into a new tensor. -/
def bitcastFrom (rt : Runtime) (tensor : TFTensor) (dtype : DataType) (dims : TensorShape) :
    Option TFTensor :=
  if rt.acceptsBitcast tensor dtype dims then some { tensor with dims := dims, dtype := dtype }
  else none

/-- `TF_AllocateTensor`, where `buffer` is the next new buffer. -/
def allocateTensor (rt : Runtime) (buffer : BufferId) (dtype : DataType) (dims : TensorShape)
    (length : Nat) : Option TFTensor :=
  if rt.allocates dtype dims length then some ⟨buffer, dims, dtype, length⟩ else none

def initEmptyTensor (rt : Runtime) (buffer : BufferId) : Option TFTensor :=
  rt.allocateTensor buffer .float [0] 0

end Runtime

/-- The members `tensor_` and `shape_`. -/
structure Tensor where
  tensor : Option TFTensor
  shape : TensorShape
  deriving DecidableEq

namespace Tensor

/-- `Tensor::Tensor(TF_Tensor*)`: the shape is that of the tensor. -/
def ofTensor (tensor : TFTensor) : Tensor := ⟨some tensor, tensor.dims⟩

def dtype (x : Tensor) : Option DataType := x.tensor.map TFTensor.dtype

def numElements (x : Tensor) : Option Nat := x.tensor.map TFTensor.elementCount

/-- `raw_data`, which two tensors share if they share the buffer. -/
def rawData (x : Tensor) : Option BufferId := x.tensor.map TFTensor.buffer

end Tensor

section Members

variable (rt : Runtime) (buffer : BufferId)

/-- `Tensor::shallow_copy`, which is fatal where TensorFlow refuses the bitcast. -/
def shallowCopy (other : Tensor) : Option TFTensor := do
  let held ← other.tensor
  let _ ← rt.initEmptyTensor buffer
  rt.bitcastFrom held held.dtype other.shape

/-- `Tensor::CopyFrom` on `x`, with what it returns. -/
def copyFrom (x other : Tensor) (shape : TensorShape) : Option (Tensor × Bool) := do
  let held ← other.tensor
  if held.elementCount ≠ shape.numElements then some (x, false)
  else
    let _ ← rt.initEmptyTensor buffer
    match rt.bitcastFrom held held.dtype shape with
    | none => some (x, false)
    | some newTensor => some ({ x with tensor := some newTensor }, true)

/-- `Tensor::DeepCopy`: a new tensor of the type, the cached shape and the bytes of `x`. -/
def deepCopy (x : Tensor) : Option Tensor := do
  let held ← x.tensor
  let tensor ← rt.allocateTensor buffer held.dtype x.shape held.byteSize
  some (Tensor.ofTensor tensor)

end Members

/-- The objects that are alive, and the next new buffer. -/
structure State where
  objects : ObjectId → Option Tensor
  nextBuffer : BufferId

def State.initial : State := ⟨fun _ => none, 0⟩

/-- The use of a member. What a move leaves in the shape of its source is not specified. -/
inductive Action where
  | construct (target : ObjectId)
  /-- The data type is not looked at. -/
  | constructOfType (target : ObjectId) (dataType : DataType)
  | constructOfTensor (target : ObjectId) (tensor : TFTensor)
  | copyConstruct (target source : ObjectId)
  | moveConstruct (target source : ObjectId) (left : TensorShape)
  | copyAssign (target source : ObjectId)
  | moveAssign (target source : ObjectId) (left : TensorShape)
  | copyFrom (target source : ObjectId) (shape : TensorShape)
  /-- The target is constructed from the result. -/
  | deepCopy (target source : ObjectId)
  | destroy (target : ObjectId)

namespace State

def place (s : State) (id : ObjectId) (x : Tensor) : State :=
  { s with objects := update s.objects id (some x) }

def allocated (s : State) : State := { s with nextBuffer := s.nextBuffer + 1 }

/-- A constructor needs an object that is not alive. -/
def fresh (s : State) (id : ObjectId) : Option Unit :=
  match s.objects id with
  | none => some ()
  | some _ => none

/-- Move `x` from the source to the target. -/
def move (s : State) (target source : ObjectId) (x : Tensor) (left : TensorShape) : State :=
  (s.place target x).place source ⟨none, left⟩

end State

def step (rt : Runtime) (s : State) : Action → Option State
  | .construct target | .constructOfType target _ => do
    s.fresh target
    let empty ← rt.initEmptyTensor s.nextBuffer
    some (s.allocated.place target (.ofTensor empty))
  | .constructOfTensor target tensor => do
    s.fresh target
    some (s.place target (.ofTensor tensor))
  | .copyConstruct target source => do
    s.fresh target
    let other ← s.objects source
    let copy ← shallowCopy rt s.nextBuffer other
    some (s.allocated.place target ⟨some copy, other.shape⟩)
  | .moveConstruct target source left => do
    s.fresh target
    let other ← s.objects source
    some (s.move target source other left)
  | .copyAssign target source => do
    let _ ← s.objects target
    let other ← s.objects source
    let copy ← shallowCopy rt s.nextBuffer other
    some (s.allocated.place target ⟨some copy, other.shape⟩)
  | .moveAssign target source left => do
    let _ ← s.objects target
    let other ← s.objects source
    some (s.move target source other left)
  | .copyFrom target source shape => do
    let x ← s.objects target
    let other ← s.objects source
    let (x, _) ← copyFrom rt s.nextBuffer x other shape
    some (s.allocated.place target x)
  | .deepCopy target source => do
    s.fresh target
    let x ← s.objects source
    let copy ← deepCopy rt s.nextBuffer x
    some (s.allocated.place target copy)
  | .destroy target => do
    let _ ← s.objects target
    some { s with objects := update s.objects target none }

/-- What the object says about itself is what the `TF_Tensor` it holds says. -/
structure Tensor.Agrees (x : Tensor) : Prop where
  shape : ∀ held, x.tensor = some held → x.shape = held.dims
  dtype : ∀ held, x.tensor = some held → x.dtype = some held.dtype
  numElements : ∀ held, x.tensor = some held → x.numElements = some x.shape.numElements

/-- Every object that is alive agrees with its `TF_Tensor`. -/
def Represented (s : State) : Prop := ∀ id x, s.objects id = some x → x.Agrees

/-- The element counts are equal and TensorFlow accepts the bitcast: `CopyFrom` returns true. -/
def Copies (rt : Runtime) (held : TFTensor) (shape : TensorShape) : Prop :=
  held.elementCount = shape.numElements ∧ rt.acceptsBitcast held held.dtype shape = true

/-- A tensor that was copied from another shares its buffer and reports the new shape. -/
def Reshaped (rt : Runtime) (s : State) (a : Action) (t : State) : Prop :=
  ∀ target source shape other held, a = .copyFrom target source shape →
    s.objects source = some other → other.tensor = some held → Copies rt held shape →
    ∃ x, t.objects target = some x ∧ x.rawData = other.rawData ∧ x.shape = shape

/-- A `CopyFrom` that copies is given the shape that its target already has. -/
def ShapeKept (rt : Runtime) (s : State) (a : Action) (_ : State) : Prop :=
  ∀ target source shape x other held, a = .copyFrom target source shape →
    s.objects target = some x → s.objects source = some other → other.tensor = some held →
    Copies rt held shape → x.shape = shape

theorem Tensor.Agrees.of_shape {x : Tensor}
    (same : ∀ held, x.tensor = some held → x.shape = held.dims) : x.Agrees := by
  constructor
  · exact same
  · intro held holds
    simp only [Tensor.dtype, holds, map_some]
  · intro held holds
    simp only [Tensor.numElements, holds, map_some, TFTensor.elementCount, same held holds]

theorem Tensor.agrees_ofTensor (tensor : TFTensor) : (Tensor.ofTensor tensor).Agrees := by
  apply Tensor.Agrees.of_shape
  intro held holds
  exact some.inj holds ▸ rfl

theorem Tensor.agrees_moved (left : TensorShape) : (⟨none, left⟩ : Tensor).Agrees :=
  .of_shape (by simp)

theorem Represented.place {s : State} (represented : Represented s) {x : Tensor}
    (agrees : x.Agrees) (id : ObjectId) : Represented (s.place id x) := by
  intro other y got
  by_cases here : other = id
  · subst here
    simp only [State.place, update_self, Option.some.injEq] at got
    exact got ▸ agrees
  · simp only [State.place, update_of_ne here] at got
    exact represented other y got

theorem Represented.move {s : State} (represented : Represented s) {x : Tensor}
    (agrees : x.Agrees) (target src : ObjectId) (left : TensorShape) :
    Represented (s.move target src x left) :=
  (represented.place agrees target).place (Tensor.agrees_moved left) src

theorem Represented.allocated {s : State} (represented : Represented s) :
    Represented s.allocated := represented

theorem bitcastFrom_eq_some {rt : Runtime} {tensor copy : TFTensor} {dtype : DataType}
    {dims : TensorShape} (bitcast : rt.bitcastFrom tensor dtype dims = some copy) :
    rt.acceptsBitcast tensor dtype dims = true ∧ copy.buffer = tensor.buffer ∧
      copy.dims = dims := by
  unfold Runtime.bitcastFrom at bitcast
  split at bitcast
  next ok =>
      obtain rfl := some.inj bitcast
      exact ⟨ok, rfl, rfl⟩
  next => cases bitcast

theorem shallowCopy_agrees {rt : Runtime} {buffer : BufferId} {other : Tensor} {copy : TFTensor}
    (copied : shallowCopy rt buffer other = some copy) :
    (⟨some copy, other.shape⟩ : Tensor).Agrees := by
  simp only [shallowCopy, bind_eq_bind, bind_eq_some_iff] at copied
  obtain ⟨held, -, empty, -, bitcast⟩ := copied
  apply Tensor.Agrees.of_shape
  intro new holds
  obtain rfl := some.inj holds
  exact (bitcastFrom_eq_some bitcast).2.2.symm

theorem deepCopy_agrees {rt : Runtime} {buffer : BufferId} {x copy : Tensor}
    (copied : deepCopy rt buffer x = some copy) : copy.Agrees := by
  simp only [deepCopy, bind_eq_bind, bind_eq_some_iff, Option.some.injEq] at copied
  obtain ⟨held, -, tensor, -, rfl⟩ := copied
  exact Tensor.agrees_ofTensor tensor

theorem copyFrom_cases {rt : Runtime} {buffer : BufferId} {x other after : Tensor}
    {shape : TensorShape} {ret : Bool}
    (called : copyFrom rt buffer x other shape = some (after, ret)) :
    ∃ held, other.tensor = some held ∧ (Copies rt held shape ∧ ret = true ∧ after.shape = x.shape ∧
          (∃ new, after.tensor = some new ∧ new.buffer = held.buffer ∧ new.dims = shape) ∨
        ¬ Copies rt held shape ∧ ret = false ∧ after = x) := by
  simp only [copyFrom, bind_eq_bind, bind_eq_some_iff] at called
  obtain ⟨held, holds, called⟩ := called
  refine ⟨held, holds, ?_⟩
  by_cases count : held.elementCount = shape.numElements
  · simp only [count, ne_eq, not_true_eq_false, if_false, bind_eq_some_iff] at called
    obtain ⟨empty, -, called⟩ := called
    cases bitcast : rt.bitcastFrom held held.dtype shape with
    | none =>
      simp only [bitcast, Option.some.injEq, Prod.mk.injEq] at called
      refine Or.inr ⟨?_, called.2.symm, called.1.symm⟩
      intro copies
      simp [Runtime.bitcastFrom, copies.2] at bitcast
    | some new =>
      simp only [bitcast, Option.some.injEq, Prod.mk.injEq] at called
      obtain ⟨rfl, rfl⟩ := called
      obtain ⟨ok, shared, dims⟩ := bitcastFrom_eq_some bitcast
      exact Or.inl ⟨⟨count, ok⟩, rfl, rfl, new, rfl, shared, dims⟩
  · simp only [ne_eq, count, not_false_eq_true, if_true, Option.some.injEq, Prod.mk.injEq] at called
    exact Or.inr ⟨fun copies => count copies.1, called.2.symm, called.1.symm⟩

theorem represented_step {rt : Runtime} {s t : State} {a : Action} (represented : Represented s)
    (taken : step rt s a = some t)
    (other : ∀ target src shape, a ≠ .copyFrom target src shape) : Represented t := by
  cases a with
  | construct target | constructOfType target dataType =>
    simp only [step, bind_eq_bind, bind_eq_some_iff, Option.some.injEq] at taken
    obtain ⟨-, -, empty, -, rfl⟩ := taken
    exact represented.allocated.place (Tensor.agrees_ofTensor empty) target
  | constructOfTensor target tensor =>
    simp only [step, bind_eq_bind, bind_eq_some_iff, Option.some.injEq] at taken
    obtain ⟨-, -, rfl⟩ := taken
    exact represented.place (Tensor.agrees_ofTensor tensor) target
  | copyConstruct target src | copyAssign target src =>
    simp only [step, bind_eq_bind, bind_eq_some_iff, Option.some.injEq] at taken
    obtain ⟨-, -, x, -, copy, copied, rfl⟩ := taken
    exact represented.allocated.place (shallowCopy_agrees copied) target
  | moveConstruct target src left | moveAssign target src left =>
    simp only [step, bind_eq_bind, bind_eq_some_iff, Option.some.injEq] at taken
    obtain ⟨-, -, x, got, rfl⟩ := taken
    exact represented.move (represented src x got) target src left
  | copyFrom target src shape => exact absurd rfl (other target src shape)
  | deepCopy target src =>
    simp only [step, bind_eq_bind, bind_eq_some_iff, Option.some.injEq] at taken
    obtain ⟨-, -, x, -, copy, copied, rfl⟩ := taken
    exact represented.allocated.place (deepCopy_agrees copied) target
  | destroy target =>
    simp only [step, bind_eq_bind, bind_eq_some_iff, Option.some.injEq] at taken
    obtain ⟨-, -, rfl⟩ := taken
    intro id x got
    by_cases here : id = target
    · simp [here] at got
    · simp only [update_of_ne here] at got
      exact represented id x got

theorem copyFrom_taken {rt : Runtime} {s t : State} {target src : ObjectId}
    {shape : TensorShape} (taken : step rt s (.copyFrom target src shape) = some t) :
    ∃ x other after ret, s.objects target = some x ∧ s.objects src = some other ∧
      copyFrom rt s.nextBuffer x other shape = some (after, ret) ∧
      t = s.allocated.place target after := by
  simp only [step, bind_eq_bind, bind_eq_some_iff, Option.some.injEq] at taken
  obtain ⟨x, atTarget, other, atSource, ⟨after, ret⟩, called, rfl⟩ := taken
  exact ⟨x, other, after, ret, atTarget, atSource, called, rfl⟩

theorem keeps {rt : Runtime} (s : State) (a : Action) (t : State) (represented : Represented s)
    (taken : step rt s a = some t) (kept : ShapeKept rt s a t) :
    Represented t ∧ (Represented t ∧ Reshaped rt s a t) := by
  by_cases isCopy : ∃ target src shape, a = .copyFrom target src shape
  · obtain ⟨target, src, shape, rfl⟩ := isCopy
    obtain ⟨x, other, after, ret, atTarget, atSource, called, rfl⟩ := copyFrom_taken taken
    obtain ⟨held, holds, ⟨copies, -, cached, new, newHeld, shared, dims⟩ | ⟨differs, -, rfl⟩⟩ :=
      copyFrom_cases called
    · have shapes := kept target src shape x other held rfl atTarget atSource holds copies
      have agrees : after.Agrees := by
        apply Tensor.Agrees.of_shape
        intro held' holds'
        obtain rfl := some.inj (newHeld.symm.trans holds')
        rw [cached, shapes, dims]
      have represented' := represented.allocated.place agrees target
      refine ⟨represented', represented', ?_⟩
      intro target' src' shape' other' held' same got holds' _
      cases same
      obtain rfl := some.inj (atSource.symm.trans got)
      refine ⟨after, by simp [State.place], ?_, cached.trans shapes⟩
      simp only [Tensor.rawData, newHeld, holds, map_some, shared]
    · have represented' :=
        represented.allocated.place (represented target after atTarget) target
      refine ⟨represented', represented', ?_⟩
      intro target' src' shape' other' held' same got holds' copies
      cases same
      obtain rfl := some.inj (atSource.symm.trans got)
      obtain rfl := some.inj (holds.symm.trans holds')
      exact absurd copies differs
  · have represented' := represented_step represented taken
      (fun target src shape same => isCopy ⟨target, src, shape, same⟩)
    refine ⟨represented', represented', ?_⟩
    intro target src shape _ _ same
    exact absurd ⟨target, src, shape, same⟩ isCopy

theorem breaks {rt : Runtime} (s : State) (a : Action) (t : State)
    (taken : step rt s a = some t) (unkept : ¬ ShapeKept rt s a t) :
    ¬ (Represented t ∧ Reshaped rt s a t) := by
  intro ⟨_, reshaped⟩
  apply unkept
  intro target src shape x other held same atTarget atSource holds copies
  subst same
  obtain ⟨y, got, -, reports⟩ := reshaped target src shape other held rfl atSource holds copies
  obtain ⟨x', other', after, ret, atTarget', atSource', called, rfl⟩ := copyFrom_taken taken
  obtain rfl := some.inj (atTarget.symm.trans atTarget')
  obtain rfl := some.inj (atSource.symm.trans atSource')
  simp only [State.place, update_self, Option.some.injEq] at got
  obtain ⟨held', holds', ⟨-, -, cached, -⟩ | ⟨differs, -⟩⟩ := copyFrom_cases called
  · rw [← cached, got, reports]
  · obtain rfl := some.inj (holds.symm.trans holds')
    exact absurd copies differs

/-- In a run of the members, the objects agree with their tensors and every copy reports the
    new shape exactly if no copy is given a shape that its target does not already have. -/
theorem represented_iff (rt : Runtime) (actions : List Action) :
    EveryStep (step rt) (fun s a t => Represented t ∧ Reshaped rt s a t) .initial actions ↔
      EveryStep (step rt) (ShapeKept rt) .initial actions :=
  everyStep_iff keeps (fun s a t _ => breaks s a t) (by simp [Represented, State.initial]) actions

/-- A TensorFlow that allocates everything and accepts every bitcast to as many elements. -/
def Runtime.granting : Runtime where
  acceptsBitcast := fun tensor _ dims => tensor.elementCount = dims.numElements
  allocates := fun _ _ _ => true

def vectorAsMatrix : List Action :=
  [.constructOfTensor 0 ⟨10, [6], .float, 24⟩, .construct 1, .copyFrom 1 0 [2, 3]]

theorem vectorAsMatrix_misrepresented :
    ∃ s, run (step .granting) .initial vectorAsMatrix = some s ∧ ¬ Represented s := by
  refine ⟨_, rfl, fun represented => ?_⟩
  have agrees := represented 1 ⟨some ⟨10, [2, 3], .float, 24⟩, [0]⟩ rfl
  exact absurd (agrees.shape _ rfl) (by decide)

end TfDml.TensorObject
