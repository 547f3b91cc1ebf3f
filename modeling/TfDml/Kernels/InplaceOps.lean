import TfDml.Core.DmlGraph
import TfDml.Core.TensorShapeUtils
import TfDml.Kernels.EmptyUpdates

/-! # InplaceAdd and InplaceSub

Rows of updates are added to the rows of a tensor that are named by indices, or subtracted from
them. The kernel scatters the updates into zeros and adds these to the tensor as a whole.
-/

namespace TfDml.InplaceOps

open Lib Option
open List hiding flatten
open DmlGraph (Expression mem_rows)
open DmlTensorDesc (address create packedStrides)
open EmptyUpdates (inplaceInitializationHelper validateInplace)
open TensorShape (dimSize)

/-- `InplaceAddFunctor` or `InplaceSubFunctor`. -/
inductive Op where
  | add
  | sub
  deriving DecidableEq

def Op.apply {α : Type} [Add α] [Sub α] : Op → α → α → α
  | .add => (· + ·)
  | .sub => (· - ·)

/-- The inputs, with the elements of each. -/
structure Call (α : Type) where
  op : Op
  x : TensorShape
  i : TensorShape
  v : TensorShape
  xs : List α
  is : List Int
  vs : List α
  sizedX : xs.length = x.numElements
  sizedI : is.length = i.numElements
  sizedV : vs.length = v.numElements

namespace Call

variable {α : Type} [AddCommGroup α] (call : Call α)

def collapsed (shape : TensorShape) : Option TensorShape := do
  let outer ← dimSize shape 0
  if outer = 0 then none else some [1, 1, outer, shape.numElements / outer]

/-- The inputs of the graph. Without a result, a dimension is missing or a `CHECK` fails. -/
def tensors : Option (Expression α × Expression Int × Expression α) := do
  let collapsedInputOutput ← collapsed call.x
  let collapsedIndices : TensorShape := [1, 1, call.i.numElements, 1]
  let collapsedUpdates ← collapsed call.v
  let inputOutput ← create collapsedInputOutput collapsedInputOutput
  let indices ← create collapsedUpdates collapsedIndices
  let updates ← create collapsedUpdates collapsedUpdates
  return (⟨inputOutput.sizes, some inputOutput.strides, call.xs.map some⟩,
    ⟨indices.sizes, some indices.strides, call.is.map some⟩,
    ⟨updates.sizes, some updates.strides, call.vs.map some⟩)

def Kernel (output : List (Option α)) : Prop :=
  ∃ input indices updates scattered result, call.tensors = some (input, indices, updates) ∧
      (Expression.scalarTensor (0 : α) input.sizes).ScatterElements indices updates 2 scattered ∧
      Expression.map₂ call.op.apply input scattered = some result ∧ output = result.buffer

/-- The output, and what is then in the buffer of the input. -/
structure Buffers (α : Type) where
  output : List (Option α)
  input : List (Option α)

def copyBack (output : List (Option α)) : Buffers α :=
  let copySize := min output.length call.xs.length
  ⟨output, output.take copySize ++ (call.xs.map some).drop copySize⟩

def skipped : Bool := NoOpKernel.isNoOpKernel [call.x, call.i, call.v] [call.x]

/-- What an invocation may leave, if it does not end the process. -/
inductive Leaves : Except Status (Buffers α) → Prop
  | rejected {status : Status}
      (rejected : inplaceInitializationHelper call.x call.i call.v = .ok (.error status)) :
      Leaves (.error status)
  | skipped (accepted : inplaceInitializationHelper call.x call.i call.v = .ok (.ok ()))
      (skipped : call.skipped = true) : Leaves (.ok ⟨NoOpKernel.zeroed call.x, call.xs.map some⟩)
  | computed {output : List (Option α)}
      (accepted : inplaceInitializationHelper call.x call.i call.v = .ok (.ok ()))
      (runs : call.skipped = false) (computes : call.Kernel output) :
      Leaves (.ok (call.copyBack output))

def rows : Nat := call.x.headD 0
def cols : Nat := call.x.tail.prod

/-- The elements that are changed by `x[i[k], :] += v[k, :]` for each `k` in order, each with what
    is added to it. -/
def writes : List (Int × α) :=
  (indices [call.is.length, call.cols]).map fun index =>
    (call.is.getD (index.getD 0 0) 0 * call.cols + index.getD 1 0,
      call.vs.getD (flatten [call.is.length, call.cols] index) 0)

def reference : List α :=
  call.writes.foldl (fun x write => x.modify write.1.toNat (call.op.apply · write.2)) call.xs

def InRange : Prop := ∀ row ∈ call.is, 0 ≤ row ∧ row < call.rows

/-- A tensor without rows is rejected, and each row gets all of its updates. -/
structure Correct : Prop where
  rejects : call.x = [] → ∃ message,
    inplaceInitializationHelper call.x call.i call.v = .ok (.error (.invalidArgument message))
  updates : call.x ≠ [] → inplaceInitializationHelper call.x call.i call.v = .ok (.ok ()) →
    call.InRange → (∃ result, call.Leaves result) ∧ ∀ result, call.Leaves result →
          result = .ok ⟨call.reference.map some, call.reference.map some⟩

def UpdatesAgree : Prop := ∀ write ∈ call.writes, sumAt call.writes write.1 = write.2

structure Narrow : Prop where
  rows : call.rows < 2 ^ 32
  cols : call.cols < 2 ^ 32
  updates : call.is.length < 2 ^ 32

/-- Scalars are not accompanied by a vector, an input that is not updated is zero, and the updates
    of an element agree. -/
structure Supported : Prop where
  ranked : call.x = [] → ¬(call.i.length = 1 ∧ call.v = [])
  zeros : call.x ≠ [] → inplaceInitializationHelper call.x call.i call.v = .ok (.ok ()) →
    call.is = [] → ∀ value ∈ call.xs, value = 0
  agree : call.x ≠ [] → inplaceInitializationHelper call.x call.i call.v = .ok (.ok ()) →
    call.InRange → call.x.prod ≠ 0 → call.is ≠ [] → call.Narrow ∧ call.UpdatesAgree

end Call

theorem accepted_shapes {x i v : TensorShape}
    (accepted : inplaceInitializationHelper x i v = .ok (.ok ())) :
    i.length = 1 ∧ x.length = v.length ∧ (∀ d < x.length, 0 < d → x.getD d 0 = v.getD d 0) ∧
      v ≠ [] ∧ i.getD 0 0 = v.getD 0 0 := by
  rw [inplaceInitializationHelper] at accepted
  cases checked : validateInplace x i v with
  | error status => simp [checked] at accepted
  | ok _ =>
    simp only [checked] at accepted
    simp only [validateInplace, bind_eq_ok, opRequires_eq_ok, beq_iff_eq, forM_eq_ok] at checked
    obtain ⟨⟨⟩, vector, ⟨⟩, ranks, same⟩ := checked
    cases v with
    | nil => cases accepted
    | cons outer tail =>
      have read : Transpose.read (outer :: tail) 0 = .ok outer := rfl
      rw [read] at accepted
      have first : i.getD 0 0 = outer := by simpa [bind, Except.bind] using accepted
      refine ⟨vector, ranks, fun d lt pos => ?_, cons_ne_nil _ _, first⟩
      exact same d (mem_range'_1.mpr (by omega))

theorem rejected_scalar_iff {i v : TensorShape} :
    (∃ message, inplaceInitializationHelper [] i v = .ok (.error (.invalidArgument message))) ↔
      ¬(i.length = 1 ∧ v = []) := by
  rw [inplaceInitializationHelper, validateInplace]
  by_cases vector : i.length = 1
  · cases v with
    | nil => simp [opRequires, bind, Except.bind, pure, Except.pure, vector, Transpose.read]
    | cons outer tail => simp [opRequires, bind, Except.bind, vector]
  · simp [opRequires, bind, Except.bind, vector]

namespace Call

variable {α : Type} {call : Call α}

theorem shapes_of_accepted (ranked : call.x ≠ [])
    (accepted : inplaceInitializationHelper call.x call.i call.v = .ok (.ok ())) :
    call.x = call.rows :: call.x.tail ∧ call.i = [call.is.length] ∧
      call.v = call.is.length :: call.x.tail := by
  obtain ⟨vector, ranks, same, -, outer⟩ := accepted_shapes accepted
  have sized := call.sizedI
  obtain ⟨n, isVector⟩ := length_eq_one_iff.mp vector
  have count : call.is.length = n := by
    rw [sized, isVector]
    exact mul_one n
  rw [rows]
  generalize call.x = x at *
  generalize call.v = v at *
  cases x with
  | nil => exact absurd rfl ranked
  | cons first tail =>
    cases v with
    | nil => simp at ranks
    | cons first' tail' =>
      have tails : tail' = tail := by
        refine ext_getElem (by simpa using ranks.symm) fun d lt lt' => ?_
        have entry := same (d + 1) (by simpa using lt') (Nat.succ_pos d)
        simpa [lt, lt'] using entry.symm
      rw [isVector] at outer ⊢
      rw [count, tails]
      exact ⟨rfl, rfl, congrArg (· :: tail) outer.symm⟩
theorem length_xs (ranked : call.x ≠ []) : call.xs.length = call.rows * call.cols := by
  rw [call.sizedX, rows, cols, TensorShape.numElements]
  cases shape : call.x with
  | nil => exact absurd shape ranked
  | cons first tail => rfl

theorem length_vs (ranked : call.x ≠ [])
    (accepted : inplaceInitializationHelper call.x call.i call.v = .ok (.ok ())) :
    call.vs.length = call.is.length * call.cols := by
  rw [call.sizedV, (shapes_of_accepted ranked accepted).2.2]
  exact prod_cons

theorem skipped_iff (ranked : call.x ≠ [])
    (accepted : inplaceInitializationHelper call.x call.i call.v = .ok (.ok ())) :
    call.skipped = true ↔ call.rows * call.cols = 0 ∨ call.is = [] := by
  obtain ⟨-, vector, updates⟩ := shapes_of_accepted ranked accepted
  have xs : call.x.numElements = call.rows * call.cols := by rw [← length_xs ranked, call.sizedX]
  have indices : call.i.numElements = call.is.length := call.sizedI.symm
  have values : call.v.numElements = call.is.length * call.cols := by
    rw [← length_vs ranked accepted, call.sizedV]
  rw [skipped, NoOpKernel.isNoOpKernel_iff]
  simp only [mem_cons, not_mem_nil, or_false, exists_eq_or_imp, exists_eq_left, xs,
    indices, values, length_eq_zero_iff]
  constructor
  · rintro ((empty | empty | empty) | empty)
    · exact Or.inl empty
    · exact Or.inr empty
    · cases Nat.mul_eq_zero.mp empty with
      | inl none => exact Or.inr (length_eq_zero_iff.mp none)
      | inr none => exact Or.inl (by rw [none, mul_zero])
    · exact Or.inl empty
  · rintro (empty | empty)
    · exact Or.inr empty
    · exact Or.inl (Or.inr (Or.inl empty))

theorem runs_iff (ranked : call.x ≠ [])
    (accepted : inplaceInitializationHelper call.x call.i call.v = .ok (.ok ())) :
    call.skipped = false ↔ call.rows * call.cols ≠ 0 ∧ call.is ≠ [] := by
  rw [Bool.eq_false_iff, ne_eq, skipped_iff ranked accepted, not_or]

theorem prod_x (ranked : call.x ≠ []) : call.x.prod = call.rows * call.cols :=
  call.sizedX.symm.trans (length_xs ranked)

theorem copyBack_eq {output : List (Option α)} (length : output.length = call.xs.length) :
    call.copyBack output = ⟨output, output⟩ := by
  rw [copyBack, length, min_self]
  simp [← length]

section Graph

variable {rows cols : Nat}

theorem collapsed_cons {outer : Nat} (pos : 0 < outer) (tail : TensorShape) :
    collapsed (outer :: tail) = some [1, 1, outer, tail.prod] := by
  have outermost : dimSize (outer :: tail) 0 = some outer := rfl
  rw [collapsed, outermost, TensorShape.numElements, prod_cons]
  simp [Nat.pos_iff_ne_zero.mp pos]

theorem create_rows {desc : DmlTensorDesc} :
    create [1, 1, rows, cols] [1, 1, rows, cols] = some desc ↔ (rows < 2 ^ 32 ∧ cols < 2 ^ 32) ∧
      desc = ⟨[1, 1, rows, cols], packedStrides [1, 1, rows, cols]⟩ := by
  rw [DmlTensorDesc.create_self_eq_some]
  refine and_congr_left fun _ => ⟨fun describable => ?_, fun lt => ⟨?_, ?_⟩⟩
  · exact ⟨describable.dims _ (by simp), describable.dims _ (by simp)⟩
  · exact Nat.le_of_ble_eq_true rfl
  · simpa using lt

theorem create_indices (lt : rows < 2 ^ 32 ∧ cols < 2 ^ 32) :
    ∃ strides, create [1, 1, rows, cols] [1, 1, rows, 1] = some ⟨[1, 1, rows, cols], strides⟩ ∧
      ∀ k, ∀ c < cols, address strides [0, 0, k, c] = k := by
  by_cases single : cols = 1
  · subst single
    refine ⟨_, create_rows.mpr ⟨lt, rfl⟩, fun k c inside => ?_⟩
    obtain rfl : c = 0 := by omega
    simp [address, packedStrides]
  · have dims : DmlTensorDesc.narrowTensorShape [1, 1, rows, cols] = some [1, 1, rows, cols] :=
      DmlTensorDesc.narrowTensorShape_eq_some.mpr ⟨by simpa using lt, rfl⟩
    have dims' : DmlTensorDesc.narrowTensorShape [1, 1, rows, 1] = some [1, 1, rows, 1] :=
      DmlTensorDesc.narrowTensorShape_eq_some.mpr ⟨by simpa using lt.1, rfl⟩
    refine ⟨[rows % 2 ^ 32, rows % 2 ^ 32, 1, 0], ?_, fun k c inside => by simp [address]⟩
    rw [create, dims, dims']
    simp [DmlTensorDesc.computeStrides, DmlTensorDesc.maxDimensionCount,
      DmlTensorDesc.kNchwDimensionCount, single]

end Graph

section Tensors

variable (ranked : call.x ≠ [])
  (accepted : inplaceInitializationHelper call.x call.i call.v = .ok (.ok ()))
  (nonempty : call.rows * call.cols ≠ 0) (updated : call.is ≠ [])

include ranked accepted nonempty updated

theorem tensors_eq : call.tensors = do
    let inputOutput ← create [1, 1, call.rows, call.cols] [1, 1, call.rows, call.cols]
    let indices ← create [1, 1, call.is.length, call.cols] [1, 1, call.is.length, 1]
    let updates ← create [1, 1, call.is.length, call.cols] [1, 1, call.is.length, call.cols]
    return (⟨inputOutput.sizes, some inputOutput.strides, call.xs.map some⟩,
      ⟨indices.sizes, some indices.strides, call.is.map some⟩,
      ⟨updates.sizes, some updates.strides, call.vs.map some⟩) := by
  obtain ⟨input, -, values⟩ := shapes_of_accepted ranked accepted
  have some_ : 0 < call.rows := Nat.pos_of_ne_zero fun none => nonempty (by rw [none, zero_mul])
  have collapsedX : collapsed call.x = some [1, 1, call.rows, call.cols] := by
    rw [input, collapsed_cons some_]
    rfl
  have collapsedV : collapsed call.v = some [1, 1, call.is.length, call.cols] := by
    rw [values, collapsed_cons (length_pos_iff.mpr updated)]
    rfl
  rw [tensors, collapsedX, collapsedV, ← call.sizedI]
  rfl

theorem narrow_of_tensors {t : Expression α × Expression Int × Expression α}
    (made : call.tensors = some t) : call.Narrow := by
  rw [tensors_eq ranked accepted nonempty updated] at made
  simp only [bind_eq_bind, bind_eq_some_iff, create_rows] at made
  obtain ⟨_, ⟨⟨rows, cols⟩, -⟩, _, -, _, ⟨⟨updates, -⟩, -⟩, -⟩ := made
  exact ⟨rows, cols, updates⟩

theorem exists_tensors (lt : call.Narrow) : ∃ strides, call.tensors = some
        (⟨[1, 1, call.rows, call.cols], some (packedStrides [1, 1, call.rows, call.cols]),
            call.xs.map some⟩, ⟨[1, 1, call.is.length, call.cols], some strides, call.is.map some⟩,
          ⟨[1, 1, call.is.length, call.cols],
            some (packedStrides [1, 1, call.is.length, call.cols]), call.vs.map some⟩) ∧
      ∀ k, ∀ c < call.cols, address strides [0, 0, k, c] = k := by
  obtain ⟨strides, desc, addr⟩ := create_indices ⟨lt.updates, lt.cols⟩
  refine ⟨strides, ?_, addr⟩
  rw [tensors_eq ranked accepted nonempty updated, create_rows.mpr ⟨⟨lt.rows, lt.cols⟩,
    rfl⟩, create_rows.mpr ⟨⟨lt.updates, lt.cols⟩, rfl⟩, desc]
  rfl

end Tensors

theorem address_rows {rows cols k c : Nat} (lt : cols < 2 ^ 32) :
    address (packedStrides [1, 1, rows, cols]) [0, 0, k, c] = k * cols + c := by
  simpa [packedStrides, address] using Or.inl lt

theorem identity_scalarTensor (value : α) (sizes : List Nat) :
    (Expression.scalarTensor value sizes).identity.buffer =
      List.replicate sizes.prod (some value) := by
  rw [Expression.identity, Expression.ofIndices, ← length_indices]
  exact (map_congr_left fun index _ => Expression.read_scalarTensor value sizes index).trans
    map_const'

theorem map₂_rows {xs : List α} {rows cols : Nat} (lt : cols < 2 ^ 32) {f : α → α → α}
    {scattered : Expression α} (sizes : scattered.sizes = [1, 1, rows, cols])
    (packed : scattered.strides = none) : ∃ result, Expression.map₂ f
        ⟨[1, 1, rows, cols], some (packedStrides [1, 1, rows, cols]), xs.map some⟩ scattered =
          some result ∧ result.buffer = (List.range (rows * cols)).map fun p => do
        return f (← xs[p]?) (← scattered.buffer[p]?.join) := by
  refine ⟨_, if_pos sizes.symm, ?_⟩
  have elements : ([1, 1, rows, cols] : List Nat).prod = rows * cols := by simp
  rw [Expression.ofIndices, ← elements, ← map_flatten_indices, List.map_map]
  refine map_congr_left fun index mem => ?_
  obtain ⟨k, -, c, -, rfl⟩ := mem_rows mem
  have flat : flatten [1, 1, rows, cols] [0, 0, k, c] = k * cols + c := by simp [flatten]
  have place : scattered.place [0, 0, k, c] = k * cols + c := by
    rw [Expression.place, packed, sizes]
    exact flat
  rw [Expression.read_values, address_rows lt, Expression.read, place, Function.comp, flat]

theorem exists_row (inRange : call.InRange) {k : Nat} (lt : k < call.is.length) :
    ∃ row < call.rows, call.is[k]? = some (row : Int) := by
  have within := inRange call.is[k] (getElem_mem lt)
  obtain ⟨row, here⟩ := Int.eq_ofNat_of_zero_le within.1
  rw [here] at within
  exact ⟨row, by omega, by rw [getElem?_eq_getElem lt, here]⟩

theorem position_eq {k row : Nat} (entry : call.is[k]? = some (row : Int)) (c : Nat) :
    call.is.getD k 0 * call.cols + c = (row * call.cols + c : Nat) := by
  rw [getD_eq_getElem?_getD, entry, getD_some, Int.natCast_add, Int.natCast_mul]

variable [AddCommGroup α]

theorem scatterWrites_eq (sized : call.vs.length = call.is.length * call.cols)
    (inRange : call.InRange) (narrow : call.Narrow) {strides : List Nat}
    (addr : ∀ k, ∀ c < call.cols, address strides [0, 0, k, c] = k) :
    (Expression.scalarTensor (0 : α) [1, 1, call.rows, call.cols]).scatterWrites
        ⟨[1, 1, call.is.length, call.cols], some strides, call.is.map some⟩
        ⟨[1, 1, call.is.length, call.cols],
          some (packedStrides [1, 1, call.is.length, call.cols]), call.vs.map some⟩ 2 =
      some call.writes := by
  have leading := indices_leading 2 [call.is.length, call.cols]
  have loop : call.writes = (indices [1, 1, call.is.length, call.cols]).map fun index =>
      (call.is.getD (index.getD 2 0) 0 * call.cols + index.getD 3 0,
        call.vs.getD (flatten [1, 1, call.is.length, call.cols] index) 0) := by
    rw [writes, show indices [1, 1, call.is.length, call.cols] = _ from leading, List.map_map]
    refine map_congr_left fun index mem => ?_
    simp [flatten]
  rw [loop]
  refine mapM_eq_some fun index mem => ?_
  obtain ⟨k, row, c, col, rfl⟩ := mem_rows mem
  have flat : k * call.cols + c < call.vs.length := by
    rw [sized]
    exact lt_of_lt_of_le (Nat.add_lt_add_left col _)
      (Nat.succ_mul k _ ▸ Nat.mul_le_mul_right _ row)
  have lt := inRange call.is[k] (getElem_mem row)
  rw [Expression.read_values, Expression.read_values, addr k c col, address_rows narrow.cols,
    getElem?_eq_getElem row, getElem?_eq_getElem flat, bind_eq_bind,
    bind_some, bind_eq_bind, bind_some]
  refine (if_pos ⟨lt.1, lt.2⟩).trans (congrArg some (Prod.ext ?_ ?_))
  · simp [flatten, Expression.scalarTensor, row]
    omega
  · simp [flatten, flat]

def combined (scattered : List (Option α)) : List (Option α) :=
  (List.range (call.rows * call.cols)).map fun p => do
    return call.op.apply (← call.xs[p]?) (← scattered[p]?.join)

theorem kernel_iff (ranked : call.x ≠ [])
    (accepted : inplaceInitializationHelper call.x call.i call.v = .ok (.ok ()))
    (nonempty : call.rows * call.cols ≠ 0) (updated : call.is ≠ []) (inRange : call.InRange)
    {output : List (Option α)} : call.Kernel output ↔ call.Narrow ∧
      ∃ scattered, Stored (List.replicate (call.rows * call.cols) (some 0)) call.writes scattered ∧
        output = call.combined scattered := by
  have elements : ([1, 1, call.rows, call.cols] : List Nat).prod = call.rows * call.cols := by simp
  have sized := length_vs ranked accepted
  have zeros := identity_scalarTensor (0 : α) [1, 1, call.rows, call.cols]
  rw [elements] at zeros
  constructor
  · rintro ⟨input, indices, updates, scattered, result, made, ⟨sizes, packed, -, writes, are,
      put⟩, added, rfl⟩
    have lt := narrow_of_tensors ranked accepted nonempty updated made
    obtain ⟨strides, made', addr⟩ := exists_tensors ranked accepted nonempty updated lt
    rw [made', Option.some.injEq, Prod.mk.injEq, Prod.mk.injEq] at made
    obtain ⟨rfl, rfl, rfl⟩ := made
    obtain ⟨result', added', buffer⟩ := @map₂_rows _ call.xs _ _ lt.cols
      call.op.apply _ sizes packed
    rw [added', Option.some.injEq] at added
    rw [scatterWrites_eq sized inRange lt addr, Option.some.injEq] at are
    refine ⟨lt, scattered.buffer, ?_, added ▸ buffer⟩
    rwa [are, ← zeros]
  · rintro ⟨lt, scattered, put, rfl⟩
    obtain ⟨strides, made, addr⟩ := exists_tensors ranked accepted nonempty updated lt
    obtain ⟨result, added, buffer⟩ := @map₂_rows _ call.xs call.rows call.cols lt.cols
      call.op.apply ⟨[1, 1, call.rows, call.cols], none, scattered⟩ rfl rfl
    refine ⟨_, _, _, ⟨[1, 1, call.rows, call.cols], none, scattered⟩, result, made,
      ⟨rfl, rfl, rfl, _, scatterWrites_eq sized inRange lt addr, ?_⟩, added, buffer.symm⟩
    rwa [zeros]

theorem apply_zero (op : Op) (a : α) : op.apply a 0 = a := by
  cases op with
  | add => exact add_zero a
  | sub => exact sub_zero a

theorem apply_apply (op : Op) (a b c : α) : op.apply (op.apply a b) c = op.apply a (b + c) := by
  cases op with
  | add => exact add_assoc a b c
  | sub => exact sub_sub a b c

theorem apply_inj {op : Op} {a b c : α} : op.apply a b = op.apply a c ↔ b = c := by
  cases op with
  | add => exact add_right_inj a
  | sub => exact sub_right_inj

theorem writes_inside (inRange : call.InRange) {write : Int × α} (mem : write ∈ call.writes) :
    0 ≤ write.1 ∧ write.1.toNat < call.rows * call.cols := by
  obtain ⟨index, lt, rfl⟩ := List.mem_map.mp mem
  obtain ⟨k, row, _, last, rfl⟩ := mem_indices_cons.mp lt
  obtain ⟨c, col, _, -, rfl⟩ := mem_indices_cons.mp last
  obtain ⟨r, less, entry⟩ := exists_row inRange row
  have below : (r + 1) * call.cols ≤ call.rows * call.cols := Nat.mul_le_mul_right _ less
  rw [Nat.succ_mul] at below
  simp only [getD_cons_zero, getD_cons_succ, position_eq entry, Int.toNat_natCast]
  omega

theorem getElem?_reference (lt : call.InRange) (p : Nat) :
    call.reference[p]? = call.xs[p]?.map (call.op.apply · (sumAt call.writes p)) :=
  getElem?_foldl_modify (apply_zero call.op) (apply_apply call.op)
    (fun _ mem => (writes_inside lt mem).1) call.xs p

theorem reference_of_nil (none : call.is = []) : call.reference = call.xs := by
  rw [reference, writes, none]
  rfl

theorem length_reference (lt : call.InRange) : call.reference.length = call.xs.length := by
  apply Nat.le_antisymm
  · rw [← List.getElem?_eq_none_iff, getElem?_reference lt, getElem?_eq_none (le_refl _)]
    rfl
  · have ends := getElem?_reference lt call.reference.length
    rw [getElem?_eq_none (le_refl _), eq_comm, map_eq_none_iff] at ends
    exact List.getElem?_eq_none_iff.mp ends

theorem length_combined (scattered : List (Option α)) :
    (call.combined scattered).length = call.rows * call.cols := by
  rw [combined, length_map, length_range]

theorem getElem?_combined {scattered : List (Option α)} {p : Nat} {value : α}
    (lt : p < call.rows * call.cols) (put : scattered[p]? = some (some value)) :
    (call.combined scattered)[p]? = some (call.xs[p]?.map (call.op.apply · value)) := by
  rw [combined, getElem?_map, getElem?_range lt, map_some, put]
  cases call.xs[p]? with
  | none => rfl
  | some a => rfl

theorem combined_eq_reference (ranked : call.x ≠ []) (inRange : call.InRange)
    (agree : call.UpdatesAgree) {scattered : List (Option α)}
    (put : Stored (List.replicate (call.rows * call.cols) (some 0)) call.writes scattered) :
    call.combined scattered = call.reference.map some := by
  have length := length_xs ranked
  apply ext_getElem?
  intro p
  rw [getElem?_map, getElem?_reference inRange]
  by_cases lt : p < call.rows * call.cols
  · have left : scattered[p]? = some (some (sumAt call.writes p)) := by
      rcases put.cases (by rwa [length_replicate]) with ⟨other, kept⟩ |
        ⟨write, mem, at_, last⟩
      · rw [kept, getElem?_replicate, if_pos lt, sumAt_zeros]
        intro write mem here
        exact absurd (by omega) (other write mem)
      · have nat := (writes_inside inRange mem).1
        have position : write.1 = p := by omega
        rw [last, ← agree write mem, position]
    rw [getElem?_combined lt left, getElem?_eq_getElem (by omega)]
    rfl
  · rw [getElem?_eq_none (by rw [length_combined]; omega), getElem?_eq_none (by omega)]
    rfl

theorem supported_of_correct (correct : call.Correct) : call.Supported where
  ranked scalar := by
    have rejects := correct.rejects scalar
    rw [scalar] at rejects
    exact rejected_scalar_iff.mp rejects
  zeros ranked accepted none := by
    have inRange : call.InRange := by simp [InRange, none]
    have left := (correct.updates ranked accepted inRange).2 _
      (.skipped accepted ((skipped_iff ranked accepted).mpr (Or.inr none)))
    rw [reference_of_nil none, Except.ok.injEq, Buffers.mk.injEq] at left
    have length : (call.xs.map some).length = call.x.numElements := by rw [length_map, call.sizedX]
    simpa using (NoOpKernel.eq_zeroed_iff length).mp left.1.symm
  agree ranked accepted inRange nonempty updated := by
    rw [prod_x ranked] at nonempty
    obtain ⟨⟨result, leaves⟩, all⟩ := correct.updates ranked accepted inRange
    have runs := (runs_iff ranked accepted).mpr ⟨nonempty, updated⟩
    have narrow : call.Narrow := by
      cases leaves with
      | rejected rejected => rw [accepted] at rejected; cases rejected
      | skipped _ skipped => rw [runs] at skipped; cases skipped
      | computed _ _ computes =>
        exact ((kernel_iff ranked accepted nonempty updated inRange).mp computes).1
    refine ⟨narrow, fun write mem => ?_⟩
    -- The update that is left may be any of those of the element.
    obtain ⟨nat, lt⟩ := writes_inside inRange mem
    obtain ⟨scattered, put, left⟩ := @exists_stored_survivor α
      (List.replicate (call.rows * call.cols) (some 0)) call.writes write mem
      (by rwa [length_replicate])
    have computes := (kernel_iff ranked accepted nonempty updated inRange).mpr
      ⟨narrow, scattered, put, rfl⟩
    have same := all _ (.computed accepted runs computes)
    rw [copyBack_eq ((length_combined scattered).trans (length_xs ranked).symm), Except.ok.injEq,
      Buffers.mk.injEq] at same
    have element := congrArg (·[write.1.toNat]?) same.1
    simp only [getElem?_combined lt left, getElem?_map, getElem?_reference inRange,
      Int.toNat_of_nonneg nat] at element
    rw [getElem?_eq_getElem (by rwa [length_xs ranked])] at element
    simpa only [map_some, Option.some.injEq, apply_inj, eq_comm] using element

theorem correct_of_supported (supported : call.Supported) : call.Correct where
  rejects scalar := by
    have ranked := supported.ranked scalar
    rw [scalar]
    exact rejected_scalar_iff.mpr ranked
  updates ranked accepted inRange := by
    by_cases runs : call.skipped = false
    · obtain ⟨nonempty, updated⟩ := (runs_iff ranked accepted).mp runs
      obtain ⟨lt, agree⟩ := supported.agree ranked accepted inRange
        (by rwa [prod_x ranked]) updated
      constructor
      · exact ⟨_, .computed accepted runs ((kernel_iff ranked accepted nonempty updated
          inRange).mpr ⟨lt, _, stored_foldl _ _, rfl⟩)⟩
      · intro result leaves
        cases leaves with
        | rejected rejected => rw [accepted] at rejected; cases rejected
        | skipped _ skipped => rw [runs] at skipped; cases skipped
        | computed _ _ computes =>
          obtain ⟨-, scattered, put, rfl⟩ :=
            (kernel_iff ranked accepted nonempty updated inRange).mp computes
          rw [copyBack_eq ((length_combined scattered).trans (length_xs ranked).symm),
            combined_eq_reference ranked inRange agree put]
    · rw [Bool.not_eq_false] at runs
      have kept : NoOpKernel.zeroed call.x = call.reference.map some ∧
          call.xs.map some = call.reference.map some := by
        rcases (skipped_iff ranked accepted).mp runs with empty | none
        · have xs : call.xs = [] := by
            rw [← length_eq_zero_iff, length_xs ranked, empty]
          have reference : call.reference = [] := by
            rw [← length_eq_zero_iff, length_reference inRange, xs]
            rfl
          rw [reference, xs, NoOpKernel.zeroed_of_empty ((prod_x ranked).trans empty)]
          exact ⟨rfl, rfl⟩
        · have length : (call.xs.map some).length = call.x.numElements := by
            rw [length_map, call.sizedX]
          rw [reference_of_nil none, eq_comm, NoOpKernel.eq_zeroed_iff length]
          exact ⟨by simpa using supported.zeros ranked accepted none, rfl⟩
      constructor
      · exact ⟨_, .skipped accepted runs⟩
      · intro result leaves
        cases leaves with
        | rejected rejected => rw [accepted] at rejected; cases rejected
        | skipped _ _ => rw [kept.1, kept.2]
        | computed _ runs' _ => rw [runs] at runs'; cases runs'

/-- The rows are updated as in the loop if and only if the updates of each element agree, an input
    without updates is zero, the sizes have 32 bits, and a scalar does not come with a vector of
    indices and a scalar. -/
theorem inplace_iff (call : Call α) : call.Correct ↔ call.Supported :=
  ⟨supported_of_correct, correct_of_supported⟩

def repeated : Call Int where
  op := .add
  x := [1]
  i := [2]
  v := [2]
  xs := [0]
  is := [0, 0]
  vs := [1, 2]
  sizedX := by decide
  sizedI := by decide
  sizedV := by decide

theorem repeated_not_correct : ¬repeated.Correct := by
  intro correct
  obtain ⟨-, agree⟩ := (supported_of_correct correct).agree (by decide) rfl
    (by simp [InRange, repeated, rows]) (by decide) (by decide)
  exact absurd (agree (0, 1) (by decide)) (by decide)

end Call
end TfDml.InplaceOps
