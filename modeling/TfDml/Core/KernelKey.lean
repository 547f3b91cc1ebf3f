import TfDml.Core.OpKernelContext
import TfDml.Lib.BinaryFloat

/-! # The key of a cached kernel

A key refers to its host tensors through their buffers, so its comparison and its
hash read the host memory, and `Clone` allocates in it. Attributes are compared by
their C++ equality, which for floats is the comparison of numbers.
-/

namespace TfDml.KernelKey

open Lib FloatFormat List

/-- The alternatives of `AttributeValue`, over the type that stands for `float`. -/
inductive AttributeVariant (F : Type) where
  | type (value : DataType)
  | int (value : Int)
  | float (value : F)
  | bool (value : Bool)
  | string (value : String)
  | listType (values : List DataType)
  | listInt (values : List Int)
  | listFloat (values : List F)
  | listBool (values : List Bool)
  | listString (values : List String)
  deriving DecidableEq

abbrev Binary32 := binary32.Bits

abbrev AttributeValue := Option (AttributeVariant Binary32)

namespace AttributeVariant

/-- `operator==` of the variant. -/
def equal : AttributeVariant Binary32 → AttributeVariant Binary32 → Bool
  | .type a, .type b => a = b
  | .int a, .int b => a = b
  | .float a, .float b => FloatFormat.equal a b
  | .bool a, .bool b => a = b
  | .string a, .string b => a = b
  | .listType a, .listType b => a = b
  | .listInt a, .listInt b => a = b
  | .listFloat a, .listFloat b => a.isEqv b FloatFormat.equal
  | .listBool a, .listBool b => a = b
  | .listString a, .listString b => a = b
  | _, _ => false

def floats {F : Type} : AttributeVariant F → List F
  | .float value => [value]
  | .listFloat values => values
  | _ => []

def map {F G : Type} (f : F → G) : AttributeVariant F → AttributeVariant G
  | .type value => .type value
  | .int value => .int value
  | .float value => .float (f value)
  | .bool value => .bool value
  | .string value => .string value
  | .listType values => .listType values
  | .listInt values => .listInt values
  | .listFloat values => .listFloat (values.map f)
  | .listBool values => .listBool values
  | .listString values => .listString values

def reading (alternative : AttributeVariant Binary32) : AttributeVariant Value :=
  alternative.map value

end AttributeVariant

/-- `operator==` of the optional. -/
def AttributeValue.equal : AttributeValue → AttributeValue → Bool
  | none, none => true
  | some a, some b => a.equal b
  | _, _ => false

def AttributeValue.hasNaN : AttributeValue → Bool
  | none => false
  | some alternative => alternative.floats.any isNaN

abbrev HostMemory := List (List UInt8)

def tensorData (memory : HostMemory) (tensor : Tensor) : List UInt8 := memory.getD tensor.buffer []

/-- `Tensor::DeepCopy`, with the memory after it. -/
def deepCopy (memory : HostMemory) (tensor : Tensor) : Tensor × HostMemory :=
  ({ tensor with buffer := memory.length }, memory ++ [tensorData memory tensor])

structure TensorShapeAndType where
  shape : TensorShape
  dtype : DataType
  deriving DecidableEq

inductive InputVariant where
  | tensor (tensor : Tensor)
  | shapeAndType (shapeAndType : TensorShapeAndType)
  deriving DecidableEq

def InputVariant.isTensor : InputVariant → Bool
  | .tensor _ => true
  | .shapeAndType _ => false

/-- A constant CPU input is stored as a tensor, any other only with its shape and type. -/
structure DmlInputTensorKey where
  tensor : InputVariant
  isConstantCpuInput : Bool
  stored : tensor.isTensor = isConstantCpuInput
  deriving DecidableEq

inductive MemoryType where
  | deviceMemory
  | hostMemory
  deriving DecidableEq

structure NodeDef where
  opTypeName : String
  /-- The memory types of the inputs, then of the outputs. -/
  tensorMemoryTypes : List MemoryType
  attributeValues : List AttributeValue
  deriving DecidableEq

structure DmlKernelKey where
  opTypeName : String
  nodeDef : Option NodeDef
  inputTensors : List DmlInputTensorKey
  deriving DecidableEq

namespace DmlInputTensorKey

def equal (memory : HostMemory) (a b : DmlInputTensorKey) : Bool :=
  if a.isConstantCpuInput ≠ b.isConstantCpuInput then false
  else
    match a.tensor, b.tensor with
    | .tensor tensor0, .tensor tensor1 =>
      if tensor0.shape ≠ tensor1.shape then false
      else if tensor0.dtype ≠ tensor1.dtype then false
      else tensorData memory tensor0 = tensorData memory tensor1
    | .shapeAndType tensor0, .shapeAndType tensor1 =>
      if tensor0.shape ≠ tensor1.shape then false
      else tensor0.dtype = tensor1.dtype
    | _, _ => false

def clone (memory : HostMemory) (key : DmlInputTensorKey) : DmlInputTensorKey × HostMemory :=
  match key.tensor, key.stored with
  | .tensor tensor, stored =>
    let copy := deepCopy memory tensor
    (⟨.tensor copy.1, key.isConstantCpuInput, stored⟩, copy.2)
  | .shapeAndType shapeAndType, stored =>
    (⟨.shapeAndType shapeAndType, key.isConstantCpuInput, stored⟩, memory)

end DmlInputTensorKey

def cloneInputs (memory : HostMemory) : List DmlInputTensorKey → List DmlInputTensorKey × HostMemory
  | [] => ([], memory)
  | input :: rest =>
    let first := input.clone memory
    let others := cloneInputs first.2 rest
    (first.1 :: others.1, others.2)

namespace DmlKernelKey

/-- Nothing where the comparison goes through a null `node_def`. -/
def equal (memory : HostMemory) (a b : DmlKernelKey) : Option Bool :=
  if a.opTypeName ≠ b.opTypeName then some false
  else do
    let nodeDef0 ← a.nodeDef
    let nodeDef1 ← b.nodeDef
    if ¬ nodeDef0.attributeValues.isEqv nodeDef1.attributeValues AttributeValue.equal then
      some false
    else some (a.inputTensors.isEqv b.inputTensors (DmlInputTensorKey.equal memory))

def clone (memory : HostMemory) (key : DmlKernelKey) : DmlKernelKey × HostMemory :=
  let inputs := cloneInputs memory key.inputTensors
  (⟨key.opTypeName, key.nodeDef, inputs.1⟩, inputs.2)

end DmlKernelKey

/-- `CreateKernelKey` of the wrapper: the inputs with their memory types. A resource handle
    is not taken for a constant CPU input. -/
def inputTensorKey (memoryType : MemoryType) (tensor : Tensor) : DmlInputTensorKey :=
  if memoryType = .hostMemory ∧ tensor.dtype ≠ .resource then ⟨.tensor tensor, true, rfl⟩
  else ⟨.shapeAndType ⟨tensor.shape, tensor.dtype⟩, false, rfl⟩

def createKernelKey (nodeDef : NodeDef) (inputs : List Tensor) : DmlKernelKey :=
  ⟨nodeDef.opTypeName, some nodeDef, List.zipWith inputTensorKey nodeDef.tensorMemoryTypes inputs⟩

inductive HashPiece where
  | number (value : Int)
  | float (bits : Binary32)
  | text (value : String)
  | bytes (values : List UInt8)
  | dtype (value : DataType)
  deriving DecidableEq

def hashSequence {α : Type} (piecesOf : α → List HashPiece) (values : List α) : List HashPiece :=
  values.flatMap piecesOf ++ [.number values.length]

def hashFloat (x : Binary32) : List HashPiece := [.float (if isZero x then 0 else x)]

def hashBool (value : Bool) : List HashPiece := [.number value.toNat]

def AttributeVariant.hashPieces : AttributeVariant Binary32 → List HashPiece
  | .type value => [.dtype value, .number 0]
  | .int value => [.number value, .number 1]
  | .float value => hashFloat value ++ [.number 2]
  | .bool value => hashBool value ++ [.number 3]
  | .string value => [.text value, .number 4]
  | .listType values => hashSequence (fun value => [.dtype value]) values ++ [.number 5]
  | .listInt values => hashSequence (fun value => [.number value]) values ++ [.number 6]
  | .listFloat values => hashSequence hashFloat values ++ [.number 7]
  | .listBool values => hashSequence hashBool values ++ [.number 8]
  | .listString values => hashSequence (fun value => [.text value]) values ++ [.number 9]

def AttributeValue.hashPieces : AttributeValue → List HashPiece
  | none => hashBool false
  | some alternative => alternative.hashPieces ++ hashBool true

def hashShape (shape : TensorShape) : List HashPiece :=
  hashSequence (fun size => [.number size]) shape

/-- The flag is not part of the hash, the alternative is. -/
def DmlInputTensorKey.hashPieces (memory : HostMemory) (key : DmlInputTensorKey) : List HashPiece :=
  match key.tensor with
  | .tensor tensor =>
    hashShape tensor.shape ++ [.dtype tensor.dtype, .bytes (tensorData memory tensor), .number 0]
  | .shapeAndType tensor => hashShape tensor.shape ++ [.dtype tensor.dtype, .number 1]

def DmlKernelKey.hashPieces (memory : HostMemory) (key : DmlKernelKey) : List HashPiece :=
  let inputs := hashSequence (DmlInputTensorKey.hashPieces memory) key.inputTensors
  match key.nodeDef with
  | some nodeDef =>
    .text key.opTypeName :: hashSequence AttributeValue.hashPieces nodeDef.attributeValues ++ inputs
  | none => .text key.opTypeName :: inputs

/-- `combine` is how the hasher absorbs a piece into its state. -/
def DmlKernelKey.hash {H : Type} (combine : H → HashPiece → H) (seed : H) (memory : HostMemory)
    (key : DmlKernelKey) : H :=
  (key.hashPieces memory).foldl combine seed

variable {α : Type} {compare : α → α → Bool}

theorem isEqv_iff_map_eq {β : Type} {sensible : α → Prop} {read : α → β}
    (spec : ∀ x y, compare x y = true ↔ sensible x ∧ read x = read y) (xs ys : List α) :
    xs.isEqv ys compare = true ↔ (∀ x ∈ xs, sensible x) ∧ xs.map read = ys.map read := by
  induction xs generalizing ys with
  | nil => cases ys <;> simp
  | cons x xs ih =>
    cases ys with
    | nil => simp
    | cons y ys =>
      rw [isEqv_cons_cons, Bool.and_eq_true, spec, ih, forall_mem_cons,
        map_cons, map_cons, List.cons.injEq]
      tauto

theorem AttributeVariant.equal_iff (x y : AttributeVariant Binary32) :
    x.equal y = true ↔ (∀ float ∈ x.floats, value float ≠ .nan) ∧ x.reading = y.reading := by
  cases x <;> cases y <;> simp [equal, reading, AttributeVariant.map, floats]
  case float.float => exact FloatFormat.equal_iff
  case listFloat.listFloat a b =>
    exact isEqv_iff_map_eq (fun x y => @FloatFormat.equal_iff _ x y) a b

theorem AttributeValue.equal_iff (x y : AttributeValue) : x.equal y = true ↔ x.hasNaN = false ∧
      x.map AttributeVariant.reading = y.map AttributeVariant.reading := by
  cases x <;> cases y <;> simp [equal, hasNaN, AttributeVariant.equal_iff, isNaN]

/-- What the key keeps of an input: its bytes only if it is a constant CPU input. -/
structure InputContents where
  shape : TensorShape
  dtype : DataType
  data : Option (List UInt8)
  deriving DecidableEq

def DmlInputTensorKey.contents (memory : HostMemory) (key : DmlInputTensorKey) : InputContents :=
  match key.tensor with
  | .tensor tensor => ⟨tensor.shape, tensor.dtype, some (tensorData memory tensor)⟩
  | .shapeAndType tensor => ⟨tensor.shape, tensor.dtype, none⟩

theorem DmlInputTensorKey.equal_iff (memory : HostMemory) (a b : DmlInputTensorKey) :
    a.equal memory b = true ↔ True ∧ a.contents memory = b.contents memory := by
  obtain ⟨tensor0, flag0, rfl⟩ := a
  obtain ⟨tensor1, flag1, rfl⟩ := b
  cases tensor0 <;> cases tensor1 <;> simp [equal, contents, InputVariant.isTensor]

structure KeyContents where
  opTypeName : String
  attributes : Option (List (Option (AttributeVariant Value)))
  inputs : List InputContents

namespace DmlKernelKey

def contents (memory : HostMemory) (key : DmlKernelKey) : KeyContents where
  opTypeName := key.opTypeName
  attributes := key.nodeDef.map fun nodeDef =>
    nodeDef.attributeValues.map (Option.map AttributeVariant.reading)
  inputs := key.inputTensors.map (DmlInputTensorKey.contents memory)

/-- The key has a `node_def` and no NaN among its attributes. -/
def Comparable (key : DmlKernelKey) : Prop :=
  ∃ nodeDef, key.nodeDef = some nodeDef ∧ ∀ attr ∈ nodeDef.attributeValues, attr.hasNaN = false

theorem equal_cases {memory : HostMemory} {a b : DmlKernelKey} : a.equal memory b = some true ↔
      a.opTypeName = b.opTypeName ∧ ∃ nodeDef0 nodeDef1, a.nodeDef = some nodeDef0 ∧
        b.nodeDef = some nodeDef1 ∧
        nodeDef0.attributeValues.isEqv nodeDef1.attributeValues AttributeValue.equal = true ∧
        a.inputTensors.isEqv b.inputTensors (DmlInputTensorKey.equal memory) = true := by
  cases def0 : a.nodeDef with
  | none => simp [equal, def0]
  | some nodeDef0 =>
    cases def1 : b.nodeDef with
    | none => simp [equal, def0, def1]
    | some nodeDef1 =>
      simp only [equal, def0, def1, Option.some.injEq]
      grind

theorem equal_iff (memory : HostMemory) (a b : DmlKernelKey) :
    a.equal memory b = some true ↔ a.Comparable ∧ a.contents memory = b.contents memory := by
  have inputs := isEqv_iff_map_eq (DmlInputTensorKey.equal_iff memory) a.inputTensors
    b.inputTensors
  simp only [imp_true_iff, true_and] at inputs
  rw [equal_cases, inputs, contents, contents, KeyContents.mk.injEq]
  constructor
  · rintro ⟨names, nodeDef0, nodeDef1, def0, def1, attrs, sameInputs⟩
    obtain ⟨numbers, readings⟩ := (isEqv_iff_map_eq AttributeValue.equal_iff _ _).mp attrs
    exact ⟨⟨nodeDef0, def0, numbers⟩, names, by simp [def0, def1, readings], sameInputs⟩
  · rintro ⟨⟨nodeDef0, def0, numbers⟩, names, readings, sameInputs⟩
    obtain ⟨nodeDef1, def1, reading1⟩ := Option.map_eq_some_iff.mp (readings.symm.trans (by
      rw [def0, Option.map_some]))
    have attrs := (isEqv_iff_map_eq AttributeValue.equal_iff _ _).mpr ⟨numbers, reading1.symm⟩
    exact ⟨names, nodeDef0, nodeDef1, def0, def1, attrs, sameInputs⟩

end DmlKernelKey

theorem hashSequence_congr {piecesOf : α → List HashPiece}
    (congr : ∀ x y, compare x y = true → piecesOf x = piecesOf y) {xs ys : List α}
    (same : xs.isEqv ys compare = true) : hashSequence piecesOf xs = hashSequence piecesOf ys := by
  have pieces : xs.map piecesOf = ys.map piecesOf := by
    induction xs generalizing ys with
    | nil =>
      cases ys with
      | nil => rfl
      | cons y ys => simp at same
    | cons x xs ih =>
      cases ys with
      | nil => simp at same
      | cons y ys =>
        rw [isEqv_cons_cons, Bool.and_eq_true] at same
        exact congrArg₂ List.cons (congr x y same.1) (ih same.2)
  have lens : xs.length = ys.length := by simpa using congrArg List.length pieces
  rw [hashSequence, hashSequence, flatMap_def, flatMap_def, pieces, lens]

theorem hashFloat_congr (x y : Binary32) (same : FloatFormat.equal x y = true) :
    hashFloat x = hashFloat y := by
  have values := (FloatFormat.equal_iff.mp same).2
  cases zero : isZero x with
  | true =>
    have other : isZero y = true := by rwa [isZero, ← values]
    simp [hashFloat, zero, other]
  | false => rw [eq_of_equal same zero]

theorem AttributeVariant.hashPieces_congr (x y : AttributeVariant Binary32)
    (same : x.equal y = true) : x.hashPieces = y.hashPieces := by
  cases x <;> cases y <;> simp [equal] at same <;> try subst same
  case float.float a b => simp [hashPieces, hashFloat_congr a b same]
  case listFloat.listFloat a b =>
    simp [hashPieces, hashSequence_congr hashFloat_congr same]
  all_goals rfl

theorem AttributeValue.hashPieces_congr (x y : AttributeValue) (same : x.equal y = true) :
    x.hashPieces = y.hashPieces := by
  cases x with
  | none =>
    cases y with
    | none => rfl
    | some b => simp [equal] at same
  | some a =>
    cases y with
    | none => simp [equal] at same
    | some b => simp [hashPieces, AttributeVariant.hashPieces_congr a b same]

theorem DmlInputTensorKey.hashPieces_congr (memory : HostMemory) (a b : DmlInputTensorKey)
    (same : a.equal memory b = true) : a.hashPieces memory = b.hashPieces memory := by
  have contents := ((equal_iff memory a b).mp same).2
  obtain ⟨tensor0, flag0, rfl⟩ := a
  obtain ⟨tensor1, flag1, rfl⟩ := b
  cases tensor0 <;> cases tensor1 <;> simp_all [DmlInputTensorKey.contents, hashPieces]

variable {memory : HostMemory} {a b : DmlKernelKey}

theorem DmlKernelKey.hashPieces_congr (same : a.equal memory b = some true) :
    a.hashPieces memory = b.hashPieces memory := by
  obtain ⟨names, nodeDef0, nodeDef1, def0, def1, attrs, inputs⟩ := equal_cases.mp same
  simp only [hashPieces, def0, def1, names]
  rw [hashSequence_congr AttributeValue.hashPieces_congr attrs,
    hashSequence_congr (DmlInputTensorKey.hashPieces_congr memory) inputs]

def DmlInputTensorKey.Live (memory : HostMemory) (key : DmlInputTensorKey) : Prop :=
  ∀ tensor, key.tensor = .tensor tensor → tensor.buffer < memory.length

def DmlKernelKey.Live (memory : HostMemory) (key : DmlKernelKey) : Prop :=
  ∀ input ∈ key.inputTensors, input.Live memory

theorem tensorData_append {tensor : Tensor} (live : tensor.buffer < memory.length)
    (added : HostMemory) : tensorData (memory ++ added) tensor = tensorData memory tensor := by
  rw [tensorData, tensorData, getD_eq_getElem?_getD, getD_eq_getElem?_getD,
    getElem?_append_left live]

theorem DmlInputTensorKey.contents_append {key : DmlInputTensorKey} (live : key.Live memory)
    (added : HostMemory) : key.contents (memory ++ added) = key.contents memory := by
  unfold contents
  split
  · rw [tensorData_append (live _ ‹_›)]
  · rfl

variable {key : DmlKernelKey}

theorem DmlKernelKey.contents_append (live : key.Live memory) (added : HostMemory) :
    key.contents (memory ++ added) = key.contents memory := by
  rw [contents, contents, KeyContents.mk.injEq]
  refine ⟨rfl, rfl, map_congr_left fun input mem => ?_⟩
  exact DmlInputTensorKey.contents_append (live input mem) added

/-- The memory still holds, from the offset on, what was allocated there. -/
def Keeps (offset : Nat) (added later : HostMemory) : Prop :=
  ∀ i < added.length, later[offset + i]? = added[i]?

theorem keeps_append {offset : Nat} {first others later : HostMemory} :
    Keeps offset (first ++ others) later ↔
      Keeps offset first later ∧ Keeps (offset + first.length) others later := by
  constructor
  · intro kept
    constructor
    · intro i bound
      rw [kept i (by simp; omega), getElem?_append_left bound]
    · intro i bound
      rw [add_assoc, kept (first.length + i) (by simp [bound]),
        getElem?_append_right (Nat.le_add_right _ _), Nat.add_sub_cancel_left]
  · rintro ⟨keptFirst, keptOthers⟩ i bound
    rw [length_append] at bound
    by_cases early : i < first.length
    · rw [keptFirst i early, getElem?_append_left early]
    · obtain ⟨j, rfl⟩ := Nat.exists_eq_add_of_le (Nat.le_of_not_lt early)
      rw [← add_assoc, keptOthers j (by omega),
        getElem?_append_right (Nat.le_add_right _ _), Nat.add_sub_cancel_left]

theorem DmlInputTensorKey.clone_spec (memory : HostMemory) (key : DmlInputTensorKey) :
    ∃ added, (key.clone memory).2 = memory ++ added ∧ ∀ later, Keeps memory.length added later →
        (key.clone memory).1.contents later = key.contents memory := by
  obtain ⟨tensor, flag, rfl⟩ := key
  cases tensor with
  | tensor tensor =>
    refine ⟨[tensorData memory tensor], rfl, fun later kept => ?_⟩
    have held := kept 0 (by simp)
    simp only [add_zero, getElem?_cons_zero] at held
    simp [clone, deepCopy, contents, tensorData, getD_eq_getElem?_getD, held]
  | shapeAndType shapeAndType => exact ⟨[], by simp [clone], fun _ _ => rfl⟩

theorem cloneInputs_spec {inputs : List DmlInputTensorKey}
    (live : ∀ input ∈ inputs, input.Live memory) :
    ∃ added, (cloneInputs memory inputs).2 = memory ++ added ∧
      ∀ later, Keeps memory.length added later →
        (cloneInputs memory inputs).1.map (DmlInputTensorKey.contents later) =
          inputs.map (DmlInputTensorKey.contents memory) := by
  induction inputs generalizing memory with
  | nil => exact ⟨[], by simp [cloneInputs], fun _ _ => rfl⟩
  | cons input rest ih =>
    obtain ⟨first, firstMemory, firstContents⟩ := input.clone_spec memory
    rw [forall_mem_cons] at live
    have liveRest : ∀ other ∈ rest, other.Live (memory ++ first) := by
      intro other mem tensor isTensor
      have alive := live.2 other mem tensor isTensor
      rw [length_append]
      exact lt_of_lt_of_le alive (Nat.le_add_right _ _)
    obtain ⟨others, othersMemory, othersContents⟩ := ih liveRest
    refine ⟨first ++ others, ?_, fun later kept => ?_⟩
    · simp only [cloneInputs, firstMemory, othersMemory, append_assoc]
    · obtain ⟨keptFirst, keptOthers⟩ := keeps_append.mp kept
      rw [← length_append] at keptOthers
      simp only [cloneInputs, firstMemory, map_cons, firstContents later keptFirst,
        othersContents later keptOthers, List.cons.injEq, true_and]
      refine map_congr_left fun other mem => ?_
      exact DmlInputTensorKey.contents_append (live.2 other mem) first

theorem DmlKernelKey.clone_spec (live : key.Live memory) :
    ∃ added, (key.clone memory).2 = memory ++ added ∧ ∀ later, Keeps memory.length added later →
        (key.clone memory).1.contents later = key.contents memory := by
  obtain ⟨added, allocated, inputs⟩ := cloneInputs_spec live
  refine ⟨added, allocated, fun later kept => ?_⟩
  simp [clone, contents, inputs later kept]

def overwrite (memory : HostMemory) (writes : List (BufferId × List UInt8)) : HostMemory :=
  writes.foldl (fun memory write => memory.set write.1 write.2) memory

theorem overwrite_getElem? (memory : HostMemory) (writes : List (BufferId × List UInt8))
    {bound i : Nat} (below : ∀ write ∈ writes, write.1 < bound) (above : bound ≤ i) :
    (overwrite memory writes)[i]? = memory[i]? := by
  induction writes generalizing memory with
  | nil => rfl
  | cons write rest ih =>
    rw [forall_mem_cons] at below
    calc (overwrite memory (write :: rest))[i]?
        = (memory.set write.1 write.2)[i]? := ih (memory.set write.1 write.2) below.2
      _ = memory[i]? := 
        getElem?_set_ne (Nat.ne_of_lt (lt_of_lt_of_le below.1 above))

/-- What equal keys agree on: the op type, the attributes, with the floats read as numbers,
    the dtype and shape of every input and the bytes of the constant CPU inputs. -/
structure Agree (memory : HostMemory) (a b : DmlKernelKey) : Prop where
  opTypeName : a.opTypeName = b.opTypeName
  attributes : ∃ nodeDef0 nodeDef1, a.nodeDef = some nodeDef0 ∧ b.nodeDef = some nodeDef1 ∧
    List.Forall₂ (fun x y => x.map AttributeVariant.reading = y.map AttributeVariant.reading)
      nodeDef0.attributeValues nodeDef1.attributeValues
  inputs : List.Forall₂ (fun x y => x.contents memory = y.contents memory)
    a.inputTensors b.inputTensors

/-- Of the keys in a set: the comparison is an equivalence that the hash respects, it sees
    every difference, and a clone keeps equal to what the key was when it was cloned,
    whatever is written to the buffers that there were then. -/
structure Sound (memory : HostMemory) (keys : Set DmlKernelKey) : Prop where
  refl : ∀ a ∈ keys, a.equal memory a = some true
  symm : ∀ a ∈ keys, ∀ b ∈ keys, a.equal memory b = some true → b.equal memory a = some true
  trans : ∀ a ∈ keys, ∀ b ∈ keys, ∀ c ∈ keys, a.equal memory b = some true →
    b.equal memory c = some true → a.equal memory c = some true
  hash : ∀ a ∈ keys, ∀ b ∈ keys, a.equal memory b = some true →
    ∀ (H : Type) (combine : H → HashPiece → H) (seed : H),
      a.hash combine seed memory = b.hash combine seed memory
  agree : ∀ a ∈ keys, ∀ b ∈ keys, a.equal memory b = some true → Agree memory a b
  clone : ∀ a ∈ keys, a.equal (a.clone memory).2 (a.clone memory).1 = some true
  cloneStays : ∀ a ∈ keys, ∀ writes : List (BufferId × List UInt8),
    (∀ write ∈ writes, write.1 < memory.length) → let later := overwrite (a.clone memory).2 writes
      ∀ probe, (a.clone memory).1.equal later probe = some true ↔
        probe.contents later = a.contents memory

theorem agree_of_equal (same : a.equal memory b = some true) : Agree memory a b := by
  obtain ⟨names, nodeDef0, nodeDef1, def0, def1, attrs, inputs⟩ := DmlKernelKey.equal_cases.mp same
  have readings := ((isEqv_iff_map_eq AttributeValue.equal_iff _ _).mp attrs).2
  have contents := ((isEqv_iff_map_eq (DmlInputTensorKey.equal_iff memory) _ _).mp inputs).2
  rw [← forall₂_eq_eq_eq, forall₂_map_left_iff, forall₂_map_right_iff]
    at readings contents
  exact ⟨names, ⟨nodeDef0, nodeDef1, def0, def1, readings⟩, contents⟩

theorem clone_equal_iff {memory : HostMemory} {key : DmlKernelKey} (live : key.Live memory)
    (comparable : key.Comparable) {writes : List (BufferId × List UInt8)}
    (earlier : ∀ write ∈ writes, write.1 < memory.length) (probe : DmlKernelKey) :
    let later := overwrite (key.clone memory).2 writes
    (key.clone memory).1.equal later probe = some true ↔
      probe.contents later = key.contents memory := by
  intro later
  obtain ⟨added, allocated, contents⟩ := DmlKernelKey.clone_spec live
  have kept : Keeps memory.length added later := by
    intro i bound
    rw [overwrite_getElem? _ _ earlier (Nat.le_add_right _ _), allocated,
      getElem?_append_right (Nat.le_add_right _ _), Nat.add_sub_cancel_left]
  have alike : (key.clone memory).1.Comparable := comparable
  rw [DmlKernelKey.equal_iff, contents later kept]
  exact ⟨fun same => same.2.symm, fun same => ⟨alike, same.symm⟩⟩

/-- The keys of a set are sound exactly when each has a `node_def` and no NaN among its
    attributes. -/
theorem key_sound_iff (memory : HostMemory) (keys : Set DmlKernelKey)
    (live : ∀ key ∈ keys, key.Live memory) : Sound memory keys ↔ ∀ key ∈ keys, key.Comparable := by
  constructor
  · intro sound key mem
    exact ((DmlKernelKey.equal_iff memory key key).mp (sound.refl key mem)).1
  · intro comparable
    constructor
    · intro a isA
      rw [DmlKernelKey.equal_iff]
      exact ⟨comparable a isA, rfl⟩
    · intro a _ b isB same
      rw [DmlKernelKey.equal_iff] at same ⊢
      exact ⟨comparable b isB, same.2.symm⟩
    · intro a _ b _ c _ first snd
      rw [DmlKernelKey.equal_iff] at first snd ⊢
      exact ⟨first.1, first.2.trans snd.2⟩
    · intro a _ b _ same H combine seed
      rw [DmlKernelKey.hash, DmlKernelKey.hash, DmlKernelKey.hashPieces_congr same]
    · exact fun a _ b _ same => agree_of_equal same
    · intro a isA
      obtain ⟨added, allocated, -⟩ := DmlKernelKey.clone_spec (live a isA)
      have kept : a.contents (overwrite (a.clone memory).2 []) = a.contents memory := by
        rw [show overwrite (a.clone memory).2 [] = (a.clone memory).2 from rfl, allocated]
        exact DmlKernelKey.contents_append (live a isA) added
      have same := (@clone_equal_iff memory a (live a isA) (comparable a isA) [] nofun a).mpr
        kept
      rw [DmlKernelKey.equal_iff] at same ⊢
      exact ⟨comparable a isA, same.2.symm⟩
    · exact fun a isA writes earlier probe =>
        clone_equal_iff (live a isA) (comparable a isA) earlier probe

def tileKey : DmlKernelKey :=
  createKernelKey ⟨"Tile", [.deviceMemory, .hostMemory, .deviceMemory],
    [some (.type .float), some (.type .int32)]⟩ [⟨7, [2], .float⟩, ⟨0, [1], .int32⟩]

theorem tileKey_sound : tileKey.Live [[3, 0, 0, 0]] ∧ Sound [[3, 0, 0, 0]] {tileKey} := by
  have live : tileKey.Live [[3, 0, 0, 0]] := by
    intro input mem tensor isTensor
    rw [show tileKey.inputTensors = [⟨.shapeAndType ⟨[2], .float⟩, false, rfl⟩,
      ⟨.tensor ⟨0, [1], .int32⟩, true, rfl⟩] from rfl] at mem
    rcases mem_pair.mp mem with rfl | rfl
    · simp at isTensor
    · obtain rfl := InputVariant.tensor.inj isTensor
      decide
  have comparable : tileKey.Comparable := ⟨_, rfl, by decide⟩
  have all : ∀ key ∈ ({tileKey} : Set DmlKernelKey), key.Live [[3, 0, 0, 0]] := by
    rintro key rfl
    exact live
  refine ⟨live, (key_sound_iff [[3, 0, 0, 0]] {tileKey} all).mpr ?_⟩
  rintro key rfl
  exact comparable

def nanKey : DmlKernelKey :=
  createKernelKey ⟨"LeakyRelu", [.deviceMemory, .deviceMemory],
    [some (.float 0x7fc00000#32), some (.type .float)]⟩ [⟨7, [2], .float⟩]

theorem nanKey_differs : ¬ ∀ (memory : HostMemory) (keys : Set DmlKernelKey),
      (∀ key ∈ keys, key.Live memory) → Sound memory keys := by
  intro claim
  have live : ∀ key ∈ ({nanKey} : Set DmlKernelKey), key.Live [] := by
    rintro key rfl input mem tensor isTensor
    rw [show nanKey.inputTensors = [⟨.shapeAndType ⟨[2], .float⟩, false, rfl⟩] from rfl,
      mem_singleton] at mem
    subst mem
    simp at isTensor
  have eq := (claim [] {nanKey} live).refl nanKey rfl
  have differs : nanKey.equal [] nanKey = some false := by decide
  rw [differs] at eq
  exact absurd eq (by decide)

end TfDml.KernelKey
