import TfDml.Kernels.ScatterArithmetic
import TfDml.Kernels.ScatterNd
import TfDml.Lib.MultiIndex
import Mathlib.Data.BitVec
import Mathlib.Algebra.BigOperators.Ring.List

/-! # ScatterNd that computes

Each tuple of indices becomes the number of a row, its dot product with the strides of the
params, and that is compared with every row. Tuples that are out of range may have the
number of another row, and indices of rank one are taken as one tuple.
-/

namespace TfDml.ScatterNd

open Lib
open List hiding beq_eq_decide flatten
open GatherNd (IndexType)
open NoOpKernel (isNoOpKernel isNoOpKernel_iff)
open ScatterUpdate (reinterpret)
open TensorShape

/-- `ScatterNdPlusOp` and `ScatterNdMinusOp`. -/
inductive BinaryOp where
  | plus
  | minus
  deriving DecidableEq

def BinaryOp.apply {α : Type} [AddCommGroup α] : BinaryOp → α → α → α
  | .plus => (· + ·)
  | .minus => (· - ·)

theorem BinaryOp.apply_add {α : Type} [AddCommGroup α] (op : BinaryOp) (x y z : α) :
    op.apply x (y + z) = op.apply (op.apply x y) z := by
  cases op with
  | plus => exact (add_assoc x y z).symm
  | minus => exact sub_add_eq_sub_sub x y z

theorem BinaryOp.apply_zero {α : Type} [AddCommGroup α] (op : BinaryOp) (x : α) :
    op.apply x 0 = x := by
  cases op with
  | plus => exact add_zero x
  | minus => exact sub_zero x

theorem BinaryOp.apply_inj {α : Type} [AddCommGroup α] (op : BinaryOp) {x y z : α} :
    op.apply x y = op.apply x z ↔ y = z := by
  cases op with
  | plus => exact add_right_inj x
  | minus => exact sub_right_inj

def indexWidth : IndexType → Nat
  | .int32 => 32
  | .int64 => 64

/-- Why building the kernel ends the process, or may do anything. -/
inductive Crash where
  | divisionByZero
  | missingDimension
  | check
  deriving DecidableEq

structure FlatShapes where
  inOut : TensorShape
  indices : TensorShape
  updates : TensorShape
  strides : TensorShape
  deriving DecidableEq

def divide (m n : Nat) : Except Crash Nat := if n = 0 then .error .divisionByZero else .ok (m / n)

def narrowTensorShape (shape : TensorShape) : Except Crash TensorShape :=
  if shape.all (· < 2 ^ 32) then .ok shape else .error .check

def sliceSize (params indices : TensorShape) : Nat := (params.drop (sliceDim indices)).prod

/-- `num_updates`, with `safe_slice_dim`. -/
def numUpdates (indices : TensorShape) : Nat :=
  indices.numElements / if sliceDim indices < 1 then 1 else sliceDim indices

/-- The shapes that the constructor of `DmlScatterNdBinaryKernel` makes. -/
def flatShapes (params indices : TensorShape) : Except Crash FlatShapes := do
  let indicesLastDim := indices.getLastD 0
  let tuples ← divide indices.numElements indicesLastDim
  let rows ← divide params.numElements (sliceSize params indices)
  let inOut ← narrowTensorShape [rows, sliceSize params indices]
  let flatIndices ← narrowTensorShape [tuples, indicesLastDim]
  let updates ← narrowTensorShape [numUpdates indices, sliceSize params indices]
  let strides ← narrowTensorShape [indicesLastDim]
  .ok ⟨inOut, flatIndices, updates, strides⟩

/-- The loop over the strides, from the last dimension to the first, and the `stride` that is
    left. -/
def stridesOf {w : Nat} : List Nat → List (BitVec w) × BitVec w
  | [] => ([], 1#w)
  | dim :: rest =>
    let (strides, stride) := stridesOf rest
    (stride :: strides, stride * BitVec.ofNat w dim)

def computeStrides {w : Nat} (params : TensorShape) (indicesLastDim : Nat) :
    Except Crash (List (BitVec w)) :=
  if indicesLastDim ≤ params.length then .ok (stridesOf (params.take indicesLastDim)).1
  else .error .missingDimension

structure Buffers (α : Type) (w : Nat) where
  params : List α
  indices : List (BitVec w)
  updates : List α
  strides : List (BitVec w)

namespace Buffers

variable {α : Type} [AddCommGroup α] {w : Nat} (b : Buffers α w) (flat : FlatShapes)

/-- `global_indices` -/
def globalIndex (u : Nat) : Option (BitVec w) := do
  let products ← (range (flat.indices.getD 1 0)).mapM fun k => do
    let index ← reinterpret b.indices [0, 0, flat.indices.getD 1 0, 1] [0, 0, u, k]
    let stride ← reinterpret b.strides [0, 0, 0, 1] [0, 0, u, k]
    some (index * stride)
  reduced (· + ·) products

/-- `sparse_updates` -/
def sparseUpdate (u r c : Nat) : Option α := do
  let index ← b.globalIndex flat u
  let update ← reinterpret b.updates [0, flat.updates.getD 1 0, 0, 1] [0, u, r, c]
  some (if index == BitVec.ofNat w r then update else 0)

def result (op : BinaryOp) (r c : Nat) : Option α := do
  let x ← reinterpret b.params [flat.inOut.getD 1 0, 1] [r, c]
  let sparse ← (range (flat.indices.getD 0 0)).mapM fun u => b.sparseUpdate flat u r c
  let update ← reduced (· + ·) sparse
  some (op.apply x update)

end Buffers

/-- An accepted invocation that is not skipped. -/
structure ScatterNdCall where
  index : IndexType
  params : TensorShape
  indices : TensorShape
  updates : TensorShape
  indicesValues : List (BitVec (indexWidth index))
  accepted : validateCommonScatter index params indices updates = .ok (.ok ())
  runs : isNoOpKernel [params, indices, updates] [params] = false
  sized : indicesValues.length = indices.numElements

namespace ScatterNdCall

variable {α : Type} [AddCommGroup α] (op : BinaryOp) (s : ScatterNdCall)

/-- `DmlScatterNdBinaryKernel`, on the values of the params and of the updates. -/
def kernel (params updates : List α) : Except Crash (Nat → Nat → Option α) := do
  let flat ← flatShapes s.params s.indices
  let strides ← computeStrides s.params (s.indices.getLastD 0)
  .ok ((Buffers.mk params s.indicesValues updates strides).result flat op)

/-- The number of the slice that a tuple names, if all its entries are in range. -/
def sliceOf (dims : List Nat) (tuple : List Int) : Option Nat :=
  if (tuple.zip dims).all fun (entry, dim) => 0 ≤ entry && entry < dim then
    some (flatten dims (tuple.map Int.toNat))
  else none

def tuple (u : Nat) : List (BitVec (indexWidth s.index)) :=
  (s.indicesValues.drop (u * sliceDim s.indices)).take (sliceDim s.indices)

def target (u : Nat) : Option Nat :=
  sliceOf (s.params.take (sliceDim s.indices)) ((s.tuple u).map BitVec.toInt)

/-- An update is added to its slice, or subtracted from it. -/
def applyUpdate (updates values : List α) (u : Nat) : List α :=
  values.mapIdx fun k x =>
    if s.target u = some (k / sliceSize s.params s.indices) then
      op.apply x (updates.getD (u * sliceSize s.params s.indices +
        k % sliceSize s.params s.indices) 0)
    else x

def reference (params updates : List α) : List α :=
  (range (numUpdates s.indices)).foldl (s.applyUpdate op updates) params

def rowCount : Nat := (s.params.take (sliceDim s.indices)).prod

/-- For all values, the kernel computes what the updates do one by one. -/
def EqualsReference (α : Type) [AddCommGroup α] : Prop :=
  ∀ params updates : List α, params.length = s.params.numElements →
    updates.length = s.updates.numElements → ∃ result, s.kernel op params updates = .ok result ∧
        ∀ r < s.rowCount, ∀ c < sliceSize s.params s.indices,
          result r c = (s.reference op params updates)[r * sliceSize s.params s.indices + c]?

def last : Nat := s.indices.getLastD 0

def tuples : Nat := s.indices.numElements / s.last

structure Narrow : Prop where
  rows : s.rowCount < 2 ^ 32
  sliceSize : sliceSize s.params s.indices < 2 ^ 32
  tuples : s.tuples < 2 ^ 32
  last : s.last < 2 ^ 32
  updates : numUpdates s.indices < 2 ^ 32

theorem nonempty :
    s.params.numElements ≠ 0 ∧ s.indices.numElements ≠ 0 ∧ s.updates.numElements ≠ 0 := by
  have runs := s.runs
  simp only [isNoOpKernel, any_cons, any_nil, Bool.or_eq_false_iff, beq_eq_false_iff_ne] at runs
  exact ⟨runs.1.1, runs.1.2.1, runs.1.2.2.1⟩

theorem rank_cases : (∃ n, s.indices = [n] ∧ sliceDim s.indices = 1 ∧ s.last = n ∧ 0 < n) ∨
      1 < s.indices.length ∧ sliceDim s.indices = s.last ∧ 0 < s.last := by
  have accepted := accepted_of_ok s.accepted
  have ne := accepted.indices_ne
  have positive : 0 < s.last := by
    apply Nat.pos_of_ne_zero
    intro zero
    apply s.nonempty.2.1
    rw [numElements, prod_eq_zero_iff, ← zero, last, getLastD_eq_getLast?,
      getLast?_eq_some_getLast ne]
    exact getLast_mem ne
  by_cases several : 1 < s.indices.length
  · exact Or.inr ⟨several, by rw [sliceDim, if_pos several, last], positive⟩
  · have one : s.indices.length = 1 := by
      have some_ := length_pos_iff.mpr ne
      omega
    obtain ⟨n, shape⟩ := length_eq_one_iff.mp one
    have isLast : s.last = n := by rw [last, shape]; rfl
    exact Or.inl ⟨n, shape, by rw [sliceDim, if_neg several], isLast, isLast ▸ positive⟩

theorem last_pos : 0 < s.last := by
  rcases s.rank_cases with ⟨n, -, -, isLast, positive⟩ | ⟨-, -, positive⟩
  · exact isLast ▸ positive
  · exact positive

theorem sliceDim_pos : 0 < sliceDim s.indices := by
  rcases s.rank_cases with ⟨n, -, one, -, -⟩ | ⟨-, isLast, positive⟩
  · omega
  · omega

theorem numElements_params : s.params.numElements = s.rowCount * sliceSize s.params s.indices :=
  (prod_take_mul_prod_drop _ _).symm

theorem sliceSize_pos : 0 < sliceSize s.params s.indices := by
  apply Nat.pos_of_ne_zero
  intro zero
  apply s.nonempty.1
  rw [numElements_params, zero, mul_zero]

theorem numUpdates_eq : numUpdates s.indices = s.indices.numElements / sliceDim s.indices := by
  have positive := s.sliceDim_pos
  rw [numUpdates, if_neg (by omega)]

theorem tuples_mul_last : s.tuples * s.last = s.indices.numElements := by
  have ne := (accepted_of_ok s.accepted).indices_ne
  have divides : s.last ∣ s.indices.numElements := by
    rw [last, getLastD_eq_getLast?, getLast?_eq_some_getLast ne]
    exact dvd_prod (getLast_mem ne)
  exact Nat.div_mul_cancel divides

theorem tuples_cases : s.last = sliceDim s.indices ∧ s.tuples = numUpdates s.indices ∨
      s.last ≠ sliceDim s.indices ∧ s.tuples = 1 ∧ numUpdates s.indices = s.last ∧ 1 < s.last := by
  have updates := s.numUpdates_eq
  rcases s.rank_cases with ⟨n, shape, one, isLast, positive⟩ | ⟨-, isLast, -⟩
  · have elements : s.indices.numElements = n := by simp [shape, numElements]
    have single : s.tuples = 1 := by rw [tuples, elements, isLast, Nat.div_self positive]
    rw [one, elements, Nat.div_one] at updates
    by_cases isOne : n = 1
    · exact Or.inl ⟨by omega, by omega⟩
    · exact Or.inr ⟨by omega, single, by omega, by omega⟩
  · exact Or.inl ⟨isLast.symm, by rw [updates, tuples, isLast]⟩

theorem tuples_le : s.tuples ≤ numUpdates s.indices := by
  rcases s.tuples_cases with ⟨-, same⟩ | ⟨-, one, updates, several⟩
  · exact le_of_eq same
  · omega

theorem numElements_updates :
    s.updates.numElements = numUpdates s.indices * sliceSize s.params s.indices := by
  have accepted := accepted_of_ok s.accepted
  have outer : (s.indices.take (batchDim s.indices)).prod = numUpdates s.indices := by
    rw [s.numUpdates_eq]
    rcases s.rank_cases with ⟨n, shape, one, -, -⟩ | ⟨several, isLast, positive⟩
    · simp [shape, sliceDim, batchDim, numElements]
    · have split := congrArg prod (dropLast_append_getLast accepted.indices_ne)
      have getLast : s.indices.getLast accepted.indices_ne = s.last := by
        rw [last, getLastD_eq_getLast?, getLast?_eq_some_getLast accepted.indices_ne]
        rfl
      rw [prod_append, prod_singleton, getLast] at split
      rw [batchDim, if_pos several, ← dropLast_eq_take, isLast, numElements,
        ← split, Nat.mul_div_cancel _ positive]
  rw [numElements, accepted.updates, prod_append, outer]
  rfl

theorem narrowTensorShape_ok_iff {shape narrow : TensorShape} :
    narrowTensorShape shape = .ok narrow ↔ (∀ d ∈ shape, d < 2 ^ 32) ∧ narrow = shape := by
  unfold narrowTensorShape
  by_cases small : ∀ d ∈ shape, d < 2 ^ 32
  · have all : shape.all (· < 2 ^ 32) = true := by simpa using small
    simp only [all, if_true, Except.ok.injEq]
    exact ⟨fun same => ⟨small, same.symm⟩, fun both => both.2.symm⟩
  · have notAll : shape.all (· < 2 ^ 32) = false := by simpa using small
    simp only [notAll, Bool.false_eq_true, if_false, small, false_and, reduceCtorEq]

theorem flatShapes_ok_iff {flat : FlatShapes} : flatShapes s.params s.indices = .ok flat ↔
      s.Narrow ∧ flat = ⟨[s.rowCount, sliceSize s.params s.indices], [s.tuples, s.last],
        [numUpdates s.indices, sliceSize s.params s.indices], [s.last]⟩ := by
  have tuples : divide s.indices.numElements (s.indices.getLastD 0) = .ok s.tuples :=
    if_neg (Nat.ne_of_gt s.last_pos)
  have rows : divide s.params.numElements (sliceSize s.params s.indices) = .ok s.rowCount := by
    have positive := s.sliceSize_pos
    rw [divide, if_neg (by omega), numElements_params, Nat.mul_div_cancel _ positive]
  simp only [flatShapes, tuples, rows, bind_eq_ok, Except.ok.injEq, narrowTensorShape_ok_iff,
    forall_mem_cons, not_mem_nil, false_implies, implies_true, and_true]
  constructor
  · rintro ⟨_, rfl, _, rfl, _, ⟨inOut, rfl⟩, _, ⟨indices, rfl⟩, _, ⟨updates, rfl⟩, _, ⟨-, rfl⟩, rfl⟩
    exact ⟨⟨inOut.1, inOut.2, indices.1, indices.2, updates.1⟩, rfl⟩
  · rintro ⟨narrow, rfl⟩
    exact ⟨_, rfl, _, rfl, _, ⟨⟨narrow.rows, narrow.sliceSize⟩, rfl⟩, _,
      ⟨⟨narrow.tuples, narrow.last⟩, rfl⟩, _, ⟨⟨narrow.updates, narrow.sliceSize⟩, rfl⟩, _,
      ⟨narrow.last, rfl⟩, rfl⟩

end ScatterNdCall

section DotProduct

variable {w : Nat}

def dotProduct (tuple strides : List (BitVec w)) : BitVec w := (zipWith (· * ·) tuple strides).sum

theorem stridesOf_cons (dim : Nat) (rest : List Nat) :
    (stridesOf (dim :: rest) : List (BitVec w) × BitVec w) =
      ((stridesOf rest).2 :: (stridesOf rest).1, (stridesOf rest).2 * BitVec.ofNat w dim) := rfl

theorem stridesOf_snd (dims : List Nat) : (stridesOf dims).2 = BitVec.ofNat w dims.prod := by
  induction dims with
  | nil => rfl
  | cons dim rest ih => rw [stridesOf_cons, ih, prod_cons, mul_comm, BitVec.ofNat_mul]

theorem length_stridesOf (dims : List Nat) :
    (stridesOf dims : List (BitVec w) × BitVec w).1.length = dims.length := by
  induction dims with
  | nil => rfl
  | cons dim rest ih => rw [stridesOf_cons, length_cons, length_cons, ih]

theorem ofNat_toNat_toInt {x : BitVec w} (nonneg : 0 ≤ x.toInt) :
    BitVec.ofNat w x.toInt.toNat = x := by
  rw [← BitVec.ofInt_natCast, Int.toNat_of_nonneg nonneg, BitVec.ofInt_toInt]

theorem sliceOf_cons {dim : Nat} {dims : List Nat} {entry : Int} {tuple : List Int} {n : Nat} :
    ScatterNdCall.sliceOf (dim :: dims) (entry :: tuple) = some n ↔
      (0 ≤ entry ∧ entry < dim) ∧ ∃ m, ScatterNdCall.sliceOf dims tuple = some m ∧
        n = entry.toNat * dims.prod + m := by
  simp only [ScatterNdCall.sliceOf, zip_cons_cons, all_cons, map_cons, flatten]
  by_cases inside : 0 ≤ entry ∧ entry < dim
  · by_cases later : ((tuple.zip dims).all fun (entry, dim) => 0 ≤ entry && entry < dim) = true
    · simp [inside, later, eq_comm]
    · simp [inside, later]
  · have notAll : (decide (0 ≤ entry) && decide (entry < dim)) = false := by
      simpa using inside
    simp [notAll, inside]

theorem dotProduct_of_sliceOf {dims : List Nat} {tuple : List (BitVec w)} {n : Nat}
    (length : tuple.length = dims.length)
    (inside : ScatterNdCall.sliceOf dims (tuple.map BitVec.toInt) = some n) :
    dotProduct tuple (stridesOf dims).1 = BitVec.ofNat w n ∧ n < dims.prod := by
  induction dims generalizing tuple n with
  | nil =>
    obtain rfl := length_eq_zero_iff.mp length
    simp only [ScatterNdCall.sliceOf, map_nil, zip_nil_left, all_nil, if_true,
      flatten, Option.some.injEq] at inside
    subst inside
    exact ⟨rfl, one_pos⟩
  | cons dim rest ih =>
    cases tuple with
    | nil => simp at length
    | cons entry tuple =>
      obtain ⟨⟨nonneg, below⟩, m, later, rfl⟩ := sliceOf_cons.mp inside
      obtain ⟨product, less⟩ := ih (Nat.succ.inj length) later
      constructor
      · rw [stridesOf_cons, dotProduct, zipWith_cons_cons, sum_cons, ← dotProduct, product,
          stridesOf_snd, BitVec.ofNat_add, BitVec.ofNat_mul, ofNat_toNat_toInt nonneg]
      · have row : (entry.toInt.toNat + 1) * rest.prod ≤ dim * rest.prod :=
          Nat.mul_le_mul_right _ (by omega)
        rw [Nat.succ_mul] at row
        rw [prod_cons]
        omega

end DotProduct

namespace ScatterNdCall

section Graph

variable {α : Type} [AddCommGroup α] (op : BinaryOp) (s : ScatterNdCall)

def flatTuple (u : Nat) : List (BitVec (indexWidth s.index)) :=
  (s.indicesValues.drop (u * s.last)).take s.last

def strides : List (BitVec (indexWidth s.index)) := (stridesOf (s.params.take s.last)).1

def globalIndex (u : Nat) : BitVec (indexWidth s.index) := dotProduct (s.flatTuple u) s.strides

def flat : FlatShapes :=
  ⟨[s.rowCount, sliceSize s.params s.indices], [s.tuples, s.last],
    [numUpdates s.indices, sliceSize s.params s.indices], [s.last]⟩

def buffers (params updates : List α) : Buffers α (indexWidth s.index) :=
  ⟨params, s.indicesValues, updates, s.strides⟩

variable {s}

theorem flatTuple_getElem? {u k : Nat} (isTuple : u < s.tuples) (isEntry : k < s.last) :
    s.indicesValues[u * s.last + k]? = (s.flatTuple u)[k]? ∧ (s.flatTuple u).length = s.last := by
  have filled := s.tuples_mul_last
  have row : (u + 1) * s.last ≤ s.tuples * s.last := Nat.mul_le_mul_right _ isTuple
  rw [Nat.succ_mul] at row
  have sized := s.sized
  constructor
  · rw [flatTuple, getElem?_take_of_lt isEntry, getElem?_drop]
  · rw [flatTuple, length_take, length_drop]
    omega

theorem length_strides (dims : s.last ≤ s.params.length) : s.strides.length = s.last := by
  rw [strides, length_stridesOf, length_take]
  omega

omit [AddCommGroup α] in
theorem globalIndex_eq (params updates : List α) (dims : s.last ≤ s.params.length) {u : Nat}
    (isTuple : u < s.tuples) :
    (s.buffers params updates).globalIndex s.flat u = some (s.globalIndex u) := by
  have length := (flatTuple_getElem? isTuple s.last_pos).2
  have lengthStrides := length_strides dims
  have products : ((range s.last).mapM fun k => do
      let index ← reinterpret s.indicesValues [0, 0, s.last, 1] [0, 0, u, k]
      let stride ← reinterpret s.strides [0, 0, 0, 1] [0, 0, u, k]
      some (index * stride)) = some (zipWith (· * ·) (s.flatTuple u) s.strides) := by
    have each : zipWith (· * ·) (s.flatTuple u) s.strides =
        (range s.last).map fun k => (s.flatTuple u).getD k 0 * s.strides.getD k 0 := by
      apply ext_getElem
      · simp [length, lengthStrides]
      · intro k left right
        simp only [length_zipWith, length, lengthStrides, min_self] at left
        rw [getElem_zipWith, getElem_map, getElem_range,
          getD_eq_getElem _ _ (length ▸ left), getD_eq_getElem _ _ (lengthStrides ▸ left)]
    rw [each]
    apply mapM_eq_some
    intro k mem
    have isEntry := mem_range.mp mem
    have inTuple : k < (s.flatTuple u).length := by rwa [length]
    have inStrides : k < s.strides.length := by rwa [lengthStrides]
    have index : s.indicesValues[u * s.last + k]? = some (s.flatTuple u)[k] := by
      rw [(flatTuple_getElem? isTuple isEntry).1, getElem?_eq_getElem inTuple]
    simp [reinterpret, index, inTuple, inStrides]
  have nonempty : zipWith (· * ·) (s.flatTuple u) s.strides ≠ [] := by
    rw [← length_pos_iff, length_zipWith, length, lengthStrides, min_self]
    exact s.last_pos
  exact (congrArg (Option.bind · _) products).trans (reduced_add nonempty)

/-- The updates of an element, with whether their tuples have the number of its row. -/
def matchedUpdates (s : ScatterNdCall) (updates : List α) (r c : Nat) : List (Bool × α) :=
  (range s.tuples).map fun u =>
    (s.globalIndex u == BitVec.ofNat _ r, updates.getD (u * sliceSize s.params s.indices + c) 0)

theorem result_eq {params updates : List α} (dims : s.last ≤ s.params.length)
    (sized : updates.length = s.updates.numElements) {r c : Nat}
    (isColumn : c < sliceSize s.params s.indices) :
    (s.buffers params updates).result s.flat op r c =
      (params[r * sliceSize s.params s.indices + c]?).map fun x =>
        sequential op.apply x (s.matchedUpdates updates r c) := by
  have sparse : ((range s.tuples).mapM fun u =>
      (s.buffers params updates).sparseUpdate s.flat u r c) =
      some (masked 0 (s.matchedUpdates updates r c)) := by
    rw [masked, matchedUpdates, map_map]
    apply mapM_eq_some
    intro u mem
    have isTuple := mem_range.mp mem
    have inside : u * sliceSize s.params s.indices + c < updates.length := by
      have slice : (u + 1) * sliceSize s.params s.indices ≤
          numUpdates s.indices * sliceSize s.params s.indices :=
        Nat.mul_le_mul_right _ (le_trans isTuple s.tuples_le)
      rw [Nat.succ_mul] at slice
      rw [sized, s.numElements_updates]
      omega
    have update : reinterpret updates [0, sliceSize s.params s.indices, 0, 1] [0, u, r, c] =
        some (updates.getD (u * sliceSize s.params s.indices + c) 0) := by
      simp [reinterpret, inside]
    have index := globalIndex_eq params updates dims isTuple
    simp only [Buffers.sparseUpdate, index, Option.bind_eq_bind, Option.bind_some]
    exact congrArg (Option.bind · _) update
  have nonempty : masked 0 (s.matchedUpdates updates r c) ≠ [] := by
    have filled := s.tuples_mul_last
    have some_ := s.nonempty.2.1
    have tuples : s.tuples ≠ 0 := by
      intro none
      rw [none, zero_mul] at filled
      exact some_ filled.symm
    simpa [masked, matchedUpdates] using tuples
  have param : reinterpret params [sliceSize s.params s.indices, 1] [r, c] =
      params[r * sliceSize s.params s.indices + c]? := by
    simp [reinterpret]
  have computed : (s.buffers params updates).result s.flat op r c =
      (params[r * sliceSize s.params s.indices + c]?).bind fun x =>
        (reduced (· + ·) (masked 0 (s.matchedUpdates updates r c))).bind fun update =>
          some (op.apply x update) := by
    rw [← param]
    exact congrArg (fun sparse => Option.bind _ fun x => Option.bind sparse fun updates =>
      (reduced (· + ·) updates).bind fun update => some (op.apply x update)) sparse
  rw [computed]
  cases found : params[r * sliceSize s.params s.indices + c]? with
  | none => rfl
  | some x =>
    rw [Option.bind_some, reduced_bind nonempty, Option.map_some,
      ← maskedReduce_eq_sequential op.apply_add op.apply_zero, maskedReduce]

/-- The updates of an element, with whether their tuples name its slice. -/
def namedUpdates (s : ScatterNdCall) (updates : List α) (r c : Nat) : List (Bool × α) :=
  (range (numUpdates s.indices)).map fun u =>
    (decide (s.target u = some r), updates.getD (u * sliceSize s.params s.indices + c) 0)

theorem getElem?_reference (params updates : List α) {r c : Nat}
    (isColumn : c < sliceSize s.params s.indices) :
    (s.reference op params updates)[r * sliceSize s.params s.indices + c]? =
      (params[r * sliceSize s.params s.indices + c]?).map fun x =>
        sequential op.apply x (s.namedUpdates updates r c) := by
  have row : (r * sliceSize s.params s.indices + c) / sliceSize s.params s.indices = r := by
    rw [mul_comm, Nat.mul_add_div (by omega), Nat.div_eq_of_lt isColumn, add_zero]
  have column : (r * sliceSize s.params s.indices + c) % sliceSize s.params s.indices = c := by
    rw [mul_comm, Nat.mul_add_mod, Nat.mod_eq_of_lt isColumn]
  have folded := getElem?_foldl_mapIdx op.apply
    (fun u k => s.target u = some (k / sliceSize s.params s.indices))
    (fun u k => updates.getD (u * sliceSize s.params s.indices +
      k % sliceSize s.params s.indices) 0)
    (range (numUpdates s.indices)) params (r * sliceSize s.params s.indices + c)
  rw [row, column] at folded
  exact folded

end Graph

section Rows

variable (s : ScatterNdCall)

/-- The row that the number of a tuple is compared with, if there is one. -/
def row (u : Nat) : Option Nat :=
  if (s.globalIndex u).toNat < s.rowCount then some (s.globalIndex u).toNat else none

/-- Tuples that are out of range have no row; but if all indices are one tuple, it has the
    params to be multiplied with, and only the first index may be in range, at the row of the
    tuple. -/
def Unaliased : Prop :=
  if s.last = sliceDim s.indices then ∀ u < s.tuples, s.target u = none → s.row u = none
  else
    s.last ≤ s.params.length ∧ (∀ u, 0 < u → u < s.last → s.target u = none) ∧ s.row 0 = s.target 0

/-- Each tuple has the slice that it names as its row, and there are no others. -/
structure Agrees : Prop where
  dims : s.last ≤ s.params.length
  row_eq : ∀ u < s.tuples, s.row u = s.target u
  no_others : ∀ u, s.tuples ≤ u → u < numUpdates s.indices → s.target u = none

variable {s}

theorem row_eq_some_iff (narrow : s.Narrow) {u r : Nat} (isRow : r < s.rowCount) :
    s.row u = some r ↔ s.globalIndex u = BitVec.ofNat _ r := by
  have rows := narrow.rows
  have width : 2 ^ 32 ≤ 2 ^ indexWidth s.index := by
    cases s.index with
    | int32 => exact le_refl _
    | int64 => decide
  rw [row, Option.ite_none_right_eq_some, Option.some.injEq, ← BitVec.toNat_inj,
    BitVec.toNat_ofNat, Nat.mod_eq_of_lt (by omega)]
  constructor
  · rintro ⟨-, same⟩
    exact same
  · intro same
    exact ⟨same ▸ isRow, same⟩

theorem row_lt {u r : Nat} (isRow : s.row u = some r) : r < s.rowCount := by
  rw [row, Option.ite_none_right_eq_some, Option.some.injEq] at isRow
  exact isRow.2 ▸ isRow.1

theorem tuple_length {u : Nat} (isUpdate : u < numUpdates s.indices) :
    (s.tuple u).length = (s.params.take (sliceDim s.indices)).length := by
  have inside := (accepted_of_ok s.accepted).sliceDim_le
  have filled := Nat.div_mul_le_self s.indices.numElements (sliceDim s.indices)
  rw [← s.numUpdates_eq] at filled
  have row : (u + 1) * sliceDim s.indices ≤ numUpdates s.indices * sliceDim s.indices :=
    Nat.mul_le_mul_right _ isUpdate
  rw [Nat.succ_mul] at row
  have sized := s.sized
  rw [tuple, length_take, length_drop, length_take]
  omega

theorem target_lt {u r : Nat} (isUpdate : u < numUpdates s.indices)
    (named : s.target u = some r) : r < s.rowCount :=
  (dotProduct_of_sliceOf (tuple_length isUpdate) named).2

theorem row_of_target (narrow : s.Narrow) (whole : s.last = sliceDim s.indices) {u r : Nat}
    (isUpdate : u < numUpdates s.indices) (named : s.target u = some r) : s.row u = some r := by
  obtain ⟨product, isRow⟩ := dotProduct_of_sliceOf (tuple_length isUpdate) named
  rw [row_eq_some_iff narrow isRow, globalIndex, flatTuple, strides, whole]
  exact product

theorem unaliased_iff_agrees (narrow : s.Narrow) : s.Unaliased ↔ s.Agrees := by
  have inside := (accepted_of_ok s.accepted).sliceDim_le
  unfold Unaliased
  rcases s.tuples_cases with ⟨whole, same⟩ | ⟨single, one, updates, several⟩
  · rw [if_pos whole]
    constructor
    · intro unaliased
      refine ⟨whole ▸ inside, fun u isTuple => ?_, fun u above below => by omega⟩
      cases named : s.target u with
      | none => exact unaliased u isTuple named
      | some r => exact row_of_target narrow whole (by omega) named
    · intro agrees u isTuple none
      rw [agrees.row_eq u isTuple, none]
  · rw [if_neg single]
    constructor
    · rintro ⟨dims, others, first⟩
      refine ⟨dims, fun u isTuple => ?_, fun u above below => others u (by omega) (by omega)⟩
      obtain rfl : u = 0 := by omega
      exact first
    · intro agrees
      exact ⟨agrees.dims, fun u positive below => agrees.no_others u (by omega) (by omega),
        agrees.row_eq 0 (by omega)⟩

end Rows

section Comparison

variable {α : Type} [AddCommGroup α] (op : BinaryOp) {s : ScatterNdCall}

theorem kernel_ok_iff {params updates : List α} {result : Nat → Nat → Option α} :
    s.kernel op params updates = .ok result ↔ s.Narrow ∧ s.last ≤ s.params.length ∧
        result = (s.buffers params updates).result s.flat op := by
  have computed : ∀ strides : List (BitVec (indexWidth s.index)),
      computeStrides s.params (s.indices.getLastD 0) = .ok strides ↔
        s.last ≤ s.params.length ∧ strides = s.strides := by
    intro strides
    unfold computeStrides
    by_cases dims : s.last ≤ s.params.length
    · have dims' : s.indices.getLastD 0 ≤ s.params.length := dims
      rw [if_pos dims', Except.ok.injEq]
      exact ⟨fun same => ⟨dims, same.symm⟩, fun both => both.2.symm⟩
    · have dims' : ¬ s.indices.getLastD 0 ≤ s.params.length := dims
      rw [if_neg dims']
      exact iff_of_false (by simp) fun both => dims both.1
  simp only [kernel, bind_eq_ok, s.flatShapes_ok_iff, computed, Except.ok.injEq]
  constructor
  · rintro ⟨_, ⟨narrow, rfl⟩, _, ⟨dims, rfl⟩, rfl⟩
    exact ⟨narrow, dims, rfl⟩
  · rintro ⟨narrow, dims, rfl⟩
    exact ⟨_, ⟨narrow, rfl⟩, _, ⟨dims, rfl⟩, rfl⟩

theorem sequential_eq (narrow : s.Narrow) (agrees : s.Agrees) (updates : List α) {r : Nat}
    (isRow : r < s.rowCount) (c : Nat) (x : α) :
    sequential op.apply x (s.matchedUpdates updates r c) =
      sequential op.apply x (s.namedUpdates updates r c) := by
  obtain ⟨rest, split⟩ := Nat.exists_eq_add_of_le s.tuples_le
  rw [namedUpdates, split, range_add, map_append, sequential_append_unmatched]
  · congr 1
    apply map_congr_left
    intro u mem
    have isTuple := mem_range.mp mem
    have same : s.target u = some r ↔ s.globalIndex u = BitVec.ofNat _ r := by
      rw [← agrees.row_eq u isTuple, row_eq_some_iff narrow isRow]
    simp [same, beq_eq_decide]
  · intro update mem
    rw [map_map, mem_map] at mem
    obtain ⟨k, isRest, rfl⟩ := mem
    have below := mem_range.mp isRest
    have none := agrees.no_others (s.tuples + k) (by omega) (by omega)
    simp [none]

theorem equalsReference_of_agrees (narrow : s.Narrow) (agrees : s.Agrees) :
    s.EqualsReference op α := by
  intro params updates _ sized
  refine ⟨_, (kernel_ok_iff op).mpr ⟨narrow, agrees.dims, rfl⟩, fun r isRow c isColumn => ?_⟩
  rw [result_eq op agrees.dims sized isColumn, getElem?_reference op params updates isColumn]
  congr 1
  funext x
  exact sequential_eq op narrow agrees updates isRow c x

def singleUpdate (s : ScatterNdCall) (u : Nat) (x : α) : List α :=
  (range s.updates.numElements).map fun k =>
    if k = u * sliceSize s.params s.indices then x else 0

theorem singleUpdate_getD {u u' : Nat} (x : α) (isUpdate : u' < numUpdates s.indices) :
    (s.singleUpdate u x).getD (u' * sliceSize s.params s.indices + 0) 0 =
      if u' = u then x else 0 := by
  have positive := s.sliceSize_pos
  have inside : u' * sliceSize s.params s.indices < s.updates.numElements := by
    rw [s.numElements_updates]
    exact Nat.mul_lt_mul_of_pos_right isUpdate positive
  have same : u' * sliceSize s.params s.indices = u * sliceSize s.params s.indices ↔ u' = u :=
    Nat.mul_left_inj (Nat.ne_of_gt positive)
  rw [add_zero, getD_eq_getElem _ _ (by rw [singleUpdate]; simpa using inside)]
  simp [singleUpdate, same]

theorem row_iff_of_equalsReference [Nontrivial α] (narrow : s.Narrow)
    (dims : s.last ≤ s.params.length) (equal : s.EqualsReference op α) {u r : Nat}
    (isUpdate : u < numUpdates s.indices) (isRow : r < s.rowCount) :
    (u < s.tuples ∧ s.row u = some r) ↔ s.target u = some r := by
  obtain ⟨x, nonzero⟩ := exists_ne (0 : α)
  have sized : (s.singleUpdate u x).length = s.updates.numElements := by simp [singleUpdate]
  obtain ⟨result, built, same⟩ := equal (replicate s.params.numElements 0)
    (s.singleUpdate u x) length_replicate sized
  obtain ⟨-, -, rfl⟩ := (kernel_ok_iff op).mp built
  have matched : s.matchedUpdates (s.singleUpdate u x) r 0 = (range s.tuples).map fun u' =>
      (s.globalIndex u' == BitVec.ofNat _ r, if u' = u then x else 0) :=
    map_congr_left fun u' mem => congrArg (Prod.mk _) (singleUpdate_getD x
      (lt_of_lt_of_le (mem_range.mp mem) s.tuples_le))
  have named : s.namedUpdates (s.singleUpdate u x) r 0 =
      (range (numUpdates s.indices)).map fun u' =>
        (decide (s.target u' = some r), if u' = u then x else 0) :=
    map_congr_left fun u' mem =>
      congrArg (Prod.mk _) (singleUpdate_getD x (mem_range.mp mem))
  have param : (replicate s.params.numElements (0 : α))[
      r * sliceSize s.params s.indices + 0]? = some 0 := by
    rw [getElem?_replicate, if_pos, Option.some.injEq]
    rw [s.numElements_params, add_zero]
    exact Nat.mul_lt_mul_of_pos_right isRow s.sliceSize_pos
  have first := same r isRow 0 s.sliceSize_pos
  rw [result_eq op dims sized s.sliceSize_pos, getElem?_reference op _ _ s.sliceSize_pos, param,
    matched, named, Option.map_some, Option.map_some, Option.some.injEq,
    sequential_eq_sum op.apply_add op.apply_zero, sequential_eq_sum op.apply_add op.apply_zero,
    op.apply_inj, sum_masked_single, sum_masked_single] at first
  rw [row_eq_some_iff narrow isRow]
  by_cases isNamed : s.target u = some r
  · simp only [isNamed, decide_true, isUpdate, and_self, if_true, ite_eq_left_iff] at first
    have isMatch := not_imp_comm.mp first (Ne.symm nonzero)
    exact iff_of_true ⟨isMatch.1, beq_iff_eq.mp isMatch.2⟩ isNamed
  · simp only [isNamed, decide_false, Bool.false_eq_true, and_false, if_false,
      ite_eq_right_iff] at first
    refine iff_of_false (fun isMatch => nonzero (first ⟨isMatch.1, ?_⟩)) isNamed
    exact beq_iff_eq.mpr isMatch.2

theorem agrees_of_equalsReference [Nontrivial α] (equal : s.EqualsReference op α) :
    s.Narrow ∧ s.Agrees := by
  obtain ⟨result, built, -⟩ := equal (replicate s.params.numElements 0)
    (replicate s.updates.numElements 0) length_replicate length_replicate
  obtain ⟨narrow, dims, -⟩ := (kernel_ok_iff op).mp built
  refine ⟨narrow, dims, fun u isTuple => ?_, fun u above isUpdate => ?_⟩
  · have isUpdate : u < numUpdates s.indices := lt_of_lt_of_le isTuple s.tuples_le
    apply Option.ext
    intro r
    constructor
    · intro isRow
      exact (row_iff_of_equalsReference op narrow dims equal isUpdate (row_lt isRow)).mp
        ⟨isTuple, isRow⟩
    · intro named
      exact ((row_iff_of_equalsReference op narrow dims equal isUpdate
        (target_lt isUpdate named)).mpr named).2
  · cases named : s.target u with
    | none => rfl
    | some r =>
      have isTuple := ((row_iff_of_equalsReference op narrow dims equal isUpdate
        (target_lt isUpdate named)).mpr named).1
      omega

/-- The kernel computes what the updates do one by one exactly if its sizes fit 32 bits and no
    tuple is at another slice. -/
theorem equalsReference_iff_unaliased (α : Type) [AddCommGroup α] [Nontrivial α]
    (op : BinaryOp) (s : ScatterNdCall) : s.EqualsReference op α ↔ s.Narrow ∧ s.Unaliased := by
  constructor
  · intro equal
    obtain ⟨narrow, agrees⟩ := agrees_of_equalsReference op equal
    exact ⟨narrow, (unaliased_iff_agrees narrow).mpr agrees⟩
  · rintro ⟨narrow, unaliased⟩
    exact equalsReference_of_agrees op narrow ((unaliased_iff_agrees narrow).mp unaliased)

end Comparison

end ScatterNdCall

def repeatedTuple : ScatterNdCall where
  index := .int32
  params := [2, 3]
  indices := [2, 2]
  updates := [2]
  indicesValues := [1#32, 0#32, 1#32, 0#32]
  accepted := rfl
  runs := rfl
  sized := rfl

theorem repeatedTuple_equalsReference : repeatedTuple.EqualsReference .minus ℤ := by
  apply (ScatterNdCall.equalsReference_iff_unaliased ℤ .minus repeatedTuple).mpr
  refine ⟨⟨by decide, by decide, by decide, by decide, by decide⟩, ?_⟩
  have whole : repeatedTuple.last = sliceDim repeatedTuple.indices := rfl
  rw [ScatterNdCall.Unaliased, if_pos whole]
  decide

/-- The tuple `[0, 3]` of a tensor with three columns has the number of `[1, 0]`. -/
def wideTuple : ScatterNdCall where
  index := .int32
  params := [2, 3]
  indices := [1, 2]
  updates := [1]
  indicesValues := [0#32, 3#32]
  accepted := rfl
  runs := rfl
  sized := rfl

/-- Two scalar indices, which the kernel takes as one tuple of a vector. -/
def scalarIndices : ScatterNdCall where
  index := .int32
  params := [3]
  indices := [2]
  updates := [2]
  indicesValues := [0#32, 1#32]
  accepted := rfl
  runs := rfl
  sized := rfl

theorem not_equalsReference :
    ¬ wideTuple.EqualsReference .plus ℤ ∧ ¬ scalarIndices.EqualsReference .plus ℤ := by
  constructor
  · intro equal
    have agrees := (ScatterNdCall.agrees_of_equalsReference .plus equal).2
    exact absurd (agrees.row_eq 0 (by decide)) (by decide)
  · intro equal
    have agrees := (ScatterNdCall.agrees_of_equalsReference .plus equal).2
    exact absurd agrees.dims (by decide)

end TfDml.ScatterNd
