import TfDml.Core.OpKernelContext
import TfDml.Lib.BinaryFloat

/-! # Constants in a graph

A `TensorProto` holds its elements as raw bytes or in a field of their type, where the
last element stands for the rest. The readers of the optimizer take one element at a
time; `decode` is what the runtime makes of the whole constant.
-/

namespace TfDml.Optimizer

open Lib FloatFormat List

structure TensorProto where
  dtype : DataType
  /-- The sizes of the dimensions, if there is a `tensor_shape`. -/
  tensorShape : Option (List Int)
  versionNumber : Int := 0
  tensorContent : List UInt8 := []
  halfVal : List Int := []
  floatVal : List binary32.Bits := []
  intVal : List Int := []
  int64Val : List Int := []
  deriving DecidableEq

namespace TensorProto

def dims (tensor : TensorProto) : List Int := tensor.tensorShape.getD []

end TensorProto

def toInt32 (n : Int) : Int := n.bmod (2 ^ 32)

def getNumElements (tensor : TensorProto) : Int :=
  if tensor.dims.isEmpty then 0 else toInt32 tensor.dims.prod

def littleEndian : List UInt8 → Nat
  | [] => 0
  | byte :: rest => byte.toNat + 256 * littleEndian rest

/-- How one element type is stored: its size, what its bytes stand for, and the field of the
    proto that holds its values. -/
structure ElementType (α : Type) where
  size : Nat
  size_pos : 0 < size
  ofBytes : List UInt8 → α
  zero : α
  values : TensorProto → List α

def int32Element : ElementType Int where
  size := 4
  size_pos := by decide
  ofBytes bytes := toInt32 (littleEndian bytes)
  zero := 0
  values := TensorProto.intVal

def int64Element : ElementType Int where
  size := 8
  size_pos := by decide
  ofBytes bytes := (littleEndian bytes : Int).bmod (2 ^ 64)
  zero := 0
  values := TensorProto.int64Val

def floatElement : ElementType binary32.Bits where
  size := 4
  size_pos := by decide
  ofBytes bytes := BitVec.ofNat _ (littleEndian bytes)
  zero := 0
  values := TensorProto.floatVal

/-- The low half of each `int32_t` of the field. -/
def halfElement : ElementType binary16.Bits where
  size := 2
  size_pos := by decide
  ofBytes bytes := BitVec.ofNat _ (littleEndian bytes)
  zero := 0
  values tensor := tensor.halfVal.map (BitVec.ofInt _)

section Elements

variable {α : Type} (element : ElementType α)

/-- Nothing where the reader goes beyond the field. -/
def getTensorElementHelper (tensor : TensorProto) (elemIndex : Nat) : Option α :=
  if tensor.versionNumber = 0 ∧ (element.values tensor).length = 1 then
    (element.values tensor)[0]?
  else (element.values tensor)[elemIndex]?

def contentElement (tensor : TensorProto) (elemIndex : Nat) : α :=
  element.ofBytes ((tensor.tensorContent.drop (elemIndex * element.size)).take element.size)

/-- Nothing where the reader goes beyond the content or the field. -/
def getTensorElement (tensor : TensorProto) (elemIndex : Nat) : Option α :=
  if tensor.tensorContent.isEmpty then getTensorElementHelper element tensor elemIndex
  else if (elemIndex + 1) * element.size ≤ tensor.tensorContent.length then
    some (contentElement element tensor elemIndex)
  else none

/-- What the runtime decodes: raw content of exactly the size of the shape, or the values of
    the field with the last one repeated, or zeros where there is nothing. -/
def decode (tensor : TensorProto) : Option (List α) :=
  let n := tensor.dims.prod.toNat
  if tensor.tensorContent.isEmpty then
    match (element.values tensor).getLast? with
    | none => some (List.replicate n element.zero)
    | some last => some ((element.values tensor ++ List.replicate n last).take n)
  else if tensor.tensorContent.length = n * element.size then
    some ((List.range n).map (contentElement element tensor))
  else none

variable {element} {tensor : TensorProto} {x y : α}

theorem decode_length {xs : List α} (decoded : decode element tensor = some xs) :
    xs.length = tensor.dims.prod.toNat := by
  simp only [decode] at decoded
  split at decoded
  · split at decoded <;> obtain rfl := Option.some.inj decoded <;> simp
  · split at decoded
    · obtain rfl := Option.some.inj decoded
      simp
    · simp at decoded

theorem getNumElements_of_decode (decoded : decode element tensor = some [x])
    (dim : tensor.dims ≠ []) : getNumElements tensor = 1 := by
  have one := decode_length decoded
  have product : tensor.dims.prod = 1 := by
    simp only [length_singleton] at one
    omega
  rw [getNumElements, if_neg (by simpa using dim), product]
  rfl

theorem getElem?_take_append_replicate {values : List α} {last : α} {n i : Nat}
    (lt : i < n) (within : i < values.length) :
    ((values ++ List.replicate n last).take n)[i]? = values[i]? := by
  rw [getElem?_take_of_lt lt, getElem?_append_left within]

theorem getTensorElement_of_decode {xs : List α} {i : Nat}
    (decoded : decode element tensor = some xs)
    (read : getTensorElement element tensor i = some y) (lt : i < xs.length) : xs[i]? = some y := by
  rw [decode_length decoded] at lt
  simp only [decode] at decoded
  unfold getTensorElement at read
  split at read
  · rename_i empty
    rw [if_pos empty] at decoded
    unfold getTensorElementHelper at read
    cases isLast : (element.values tensor).getLast? with
    | none =>
      rw [getLast?_eq_none_iff.mp isLast] at read
      simp at read
    | some last =>
      simp only [isLast, Option.some.injEq] at decoded
      subst decoded
      split at read
      · -- the only value is the last one too
        rename_i single
        obtain ⟨value, values⟩ := length_eq_one_iff.mp single.2
        rw [values] at read isLast ⊢
        simp only [getLast?_singleton, Option.some.injEq] at isLast
        simp only [getElem?_cons_zero, Option.some.injEq] at read
        subst isLast read
        cases i with
        | zero => exact getElem?_take_append_replicate lt (by simp)
        | succ i =>
          rw [getElem?_take_of_lt lt, singleton_append,
            getElem?_cons_succ, getElem?_replicate_of_lt (by omega)]
      · have within := (List.getElem?_eq_some_iff.mp read).1
        rw [getElem?_take_append_replicate lt within, read]
  · rename_i content
    rw [if_neg content] at decoded
    split at decoded
    · obtain rfl := Option.some.inj decoded
      split at read
      · simp [getElem?_range lt, Option.some.inj read]
      · simp at read
    · simp at decoded

end Elements

end TfDml.Optimizer
