import TfDml.Core.BufferRegion
import TfDml.Core.WindowSums
import TfDml.Lib.ByteBuffer
import TfDml.Lib.MultiIndex

/-! # ParallelConcat

Every `_ParallelConcatUpdate` copies its update to one row of a value that they all share. The
region of a value without elements cannot be made, so such a value ends the process.
-/

namespace TfDml.ParallelConcat

open Lib List
open BufferRegion (eq_fatal_of_region region region_of_pos region_zero subregion)
open Stop

inductive ElementType where
  | float
  | half

/-- `DataTypeSize` -/
def ElementType.size : ElementType → Nat
  | .float => 4
  | .half => 2

/-- An invocation of `_ParallelConcatUpdate`, with the bytes of the update. `loc` is an
    `int32_t`. -/
structure Call where
  dtype : ElementType
  value : TensorShape
  update : TensorShape
  loc : Int
  content : ByteBuffer
  addressable : value.numElements * dtype.size < 2 ^ 63

namespace Call

variable (c : Call)

def nrows : Nat := c.value.headD 0

def validate : Except Stop Unit := do
  require (1 ≤ c.value.length) (.invalidArgument "value should be at least rank 1.")
  require (c.loc < c.nrows) (.invalidArgument ("0th dimension of value = " ++
    toString c.nrows ++ " is less than loc_=" ++ toString c.loc))
  require (c.value.length == c.update.length)
    (.invalidArgument ("value and update shape doesn't match: " ++ c.value.debugString ++ " vs. " ++
      c.update.debugString))
  -- The loop over the other dimensions reports the same for each of them.
  require (c.value.tail == c.update.tail)
    (.invalidArgument ("value and update shape doesn't match " ++ c.value.debugString ++ " vs. " ++
      c.update.debugString))
  require (c.update.headD 0 == 1)
    (.invalidArgument ("update shape doesn't match: " ++ c.update.debugString))

/-- `ComputeImpl`, on the bytes of the value, which the output is an alias of. -/
def computeImpl (value : ByteBuffer) : Except Stop ByteBuffer := do
  c.validate
  let updateBuffer ← region (c.update.numElements * c.dtype.size)
  let outputBuffer ← region (c.value.numElements * c.dtype.size)
  let stride ← quotient (c.value.numElements * c.dtype.size : Nat) c.nrows
  -- Guard the row index range
  let remainder ← Stop.remainder c.loc c.nrows
  let rowIndex ← Stop.remainder (remainder + c.nrows) c.nrows
  let dstOffset := u64 (rowIndex.toNat * stride.toNat)
  let dst ← subregion outputBuffer dstOffset 0
  let src ← subregion updateBuffer 0 stride.toNat
  check (src ≤ dst)
  .ok (store value dstOffset (load c.content 0 src))

def rowBytes : Nat := TensorShape.numElements c.value.tail * c.dtype.size

def row : Nat := (c.loc % c.nrows).toNat

/-- The op reports an invalid argument, or it overwrites the bytes of the row with those of the
    update, and no others. -/
def Correct : Prop :=
  (∀ value, ∃ message, c.computeImpl value = .error (.status (.invalidArgument message))) ∨
    ∃ write, (∀ value, c.computeImpl value = .ok (write value)) ∧
      Sets write (c.rowBytes * c.row) c.rowBytes c.content

/-- The arguments that the op does not refuse. -/
structure Accepted : Prop where
  ranked : c.value ≠ []
  row : c.loc < c.nrows
  update : c.update = 1 :: c.value.tail

end Call

/-- The updates of one buffer, in some order of their locations. -/
structure Stack where
  dtype : ElementType
  row : TensorShape
  updates : List ByteBuffer
  addressable : TensorShape.numElements (updates.length :: row) * dtype.size < 2 ^ 63
  order : List Nat
  isOrder : order.Perm (range updates.length)

namespace Stack

variable (s : Stack)

def call (loc : Nat) : Call where
  dtype := s.dtype
  value := s.updates.length :: s.row
  update := 1 :: s.row
  loc := loc
  content := s.updates.getD loc fun _ => 0
  addressable := s.addressable

def run (value : ByteBuffer) : Except Stop ByteBuffer :=
  s.order.foldlM (fun value loc => (s.call loc).computeImpl value) value

def rowBytes : Nat := s.row.numElements * s.dtype.size

def write (loc : Nat) : Nat × List Byte := (loc, load (s.updates.getD loc fun _ => 0) 0 s.rowBytes)

/-- The buffer holds the updates, in the order of their locations. -/
def Concatenates : Prop :=
  ∀ value, ∃ result, s.run value = .ok result ∧ load result 0 (s.rowBytes * s.updates.length) =
      s.updates.flatMap fun update => load update 0 s.rowBytes

end Stack

namespace Call

variable (c : Call)

theorem validate_spec : c.Accepted ∧ c.validate = .ok () ∨
    ¬c.Accepted ∧ ∃ message, c.validate = .error (.status (.invalidArgument message)) := by
  by_cases ranked : 1 ≤ c.value.length
  swap
  · exact .inr ⟨fun ok => ranked (length_pos_iff.mpr ok.ranked), _,
      by rw [validate, decide_eq_false ranked]; rfl⟩
  by_cases row : c.loc < c.nrows
  swap
  · exact .inr ⟨fun ok => row ok.row, _,
      by rw [validate, decide_eq_true ranked, decide_eq_false row]; rfl⟩
  by_cases same : c.value.length = c.update.length
  swap
  · refine .inr ⟨fun ok => same ?_, _, by
      rw [validate, decide_eq_true ranked, decide_eq_true row, beq_eq_false_iff_ne.mpr same]; rfl⟩
    rw [ok.update, length_cons, length_tail, Nat.sub_add_cancel ranked]
  by_cases tails : c.value.tail = c.update.tail
  swap
  · exact .inr ⟨fun ok => tails (by rw [ok.update, tail_cons]), _, by
      rw [validate, decide_eq_true ranked, decide_eq_true row, beq_iff_eq.mpr same,
        beq_eq_false_iff_ne.mpr tails]; rfl⟩
  by_cases first : c.update.headD 0 = 1
  swap
  · exact .inr ⟨fun ok => first (by rw [ok.update, headD_cons]), _, by
      rw [validate, decide_eq_true ranked, decide_eq_true row, beq_iff_eq.mpr same,
        beq_iff_eq.mpr tails, beq_eq_false_iff_ne.mpr first]; rfl⟩
  refine .inl ⟨⟨length_pos_iff.mp ranked, row, ?_⟩, by
    rw [validate, decide_eq_true ranked, decide_eq_true row, beq_iff_eq.mpr same,
      beq_iff_eq.mpr tails, beq_iff_eq.mpr first]; rfl⟩
  rw [tails]
  cases shape : c.update with
  | nil => rw [shape, length_nil] at same; omega
  | cons size rest => rw [shape, headD_cons] at first; rw [first, tail_cons]

variable {c}

theorem Accepted.bytes (ok : c.Accepted) :
    c.value.numElements * c.dtype.size = c.nrows * c.rowBytes ∧
      c.update.numElements * c.dtype.size = c.rowBytes := by
  constructor
  · cases shape : c.value with
    | nil => exact absurd shape ok.ranked
    | cons rows rest =>
      rw [nrows, rowBytes, shape, ← mul_assoc]
      exact congrArg (· * _) prod_cons
  · rw [ok.update, rowBytes]
    exact congrArg (· * _) (prod_cons.trans (one_mul _))

theorem Accepted.validate_eq (ok : c.Accepted) : c.validate = .ok () :=
  (c.validate_spec.resolve_right fun refused => refused.1 ok).2

theorem computeImpl_of_empty (acc : c.Accepted) (empty : c.value.numElements = 0)
    (value : ByteBuffer) : c.computeImpl value = .error .fatal := by
  have outs : region (c.value.numElements * c.dtype.size) = .error .fatal := by
    rw [empty, zero_mul, region_zero]
  rw [computeImpl, acc.validate_eq, ok_bind, outs]
  cases update : region (c.update.numElements * c.dtype.size) with
  | ok size => rfl
  | error stop => rw [eq_fatal_of_region update]; rfl

theorem rowIndex_eq {loc : Int} {nrows : Nat} (pos : 0 < nrows) :
    (loc.tmod nrows + nrows).tmod nrows = loc % nrows := by
  have low := Int.lt_tmod_of_pos loc (Int.natCast_pos.mpr pos)
  rw [Int.tmod_eq_emod_of_nonneg (by omega), Int.add_emod_right, Int.tmod_def,
    Int.sub_mul_emod_self_left]

theorem computeImpl_of_pos (ok : c.Accepted) (pos : 0 < c.value.numElements)
    (value : ByteBuffer) :
    c.computeImpl value = .ok (store value (c.rowBytes * c.row) (load c.content 0 c.rowBytes)) := by
  obtain ⟨whole, part⟩ := ok.bytes
  have size : 0 < c.dtype.size := by cases c.dtype <;> decide
  have total : 0 < c.nrows * c.rowBytes := whole ▸ mul_pos pos size
  have rows : 0 < c.nrows := Nat.pos_of_mul_pos_right total
  have bytes : 0 < c.rowBytes := Nat.pos_of_mul_pos_left total
  have lt : c.nrows * c.rowBytes < 2 ^ 63 := whole ▸ c.addressable
  have isRow : (c.row : Int) = c.loc % c.nrows := Int.toNat_of_nonneg (Int.emod_nonneg _ (by omega))
  have below : c.row < c.nrows := by
    have := Int.emod_lt_of_pos c.loc (Int.natCast_pos.mpr rows)
    omega
  -- The row ends inside of the value.
  have inside : c.rowBytes * c.row + c.rowBytes ≤ c.nrows * c.rowBytes := by
    rw [← Nat.mul_succ, mul_comm]
    exact Nat.mul_le_mul_right _ below
  obtain ⟨output, out, outputWide⟩ := region_of_pos total lt
  obtain ⟨update, isUpdate, updateWide⟩ := region_of_pos bytes (by omega)
  have stride : quotient (c.nrows * c.rowBytes : Nat) c.nrows = .ok (c.rowBytes : Int) := by
    rw [quotient_natCast rows, Nat.cast_mul, Int.mul_ediv_cancel_left _ (by omega)]
  have remainder (n : Int) : Stop.remainder n c.nrows = .ok (n.tmod c.nrows) := if_neg (by omega)
  have dst : subregion output (c.rowBytes * c.row) 0 = .ok (output - c.rowBytes * c.row) := by
    rw [subregion, check, if_pos (by simp; omega), ok_bind]
    simp [check, ok_bind]
  have src : subregion update 0 c.rowBytes = .ok c.rowBytes := by
    rw [subregion, check, if_pos (by simp; omega), ok_bind, if_neg (by omega)]
    simp [check, ok_bind, updateWide]
  rw [computeImpl, ok.validate_eq, whole, part, isUpdate, out, stride, remainder]
  simp only [ok_bind, remainder, rowIndex_eq rows, ← isRow, Int.toNat_natCast]
  rw [mul_comm c.row, u64_of_lt (by omega), dst, ok_bind, src, ok_bind, check,
    if_pos (by simp; omega), ok_bind]

theorem sets_row : Sets (fun value => store value (c.rowBytes * c.row) (load c.content 0 c.rowBytes))
    (c.rowBytes * c.row) c.rowBytes c.content := by
  intro buffer
  constructor
  · intro k less
    simp only [store, length_load]
    rw [if_pos (by omega), Nat.add_sub_cancel_left, load, getD_eq_getElem _ _ (by simpa using less)]
    simp
  · intro p outside
    simp only [store, length_load]
    rw [if_neg (by omega)]

theorem concatenation_iff (c : Call) : c.Correct ↔ (c.Accepted → 0 < c.value.numElements) := by
  constructor
  · intro correct ok
    by_contra empty
    have err := computeImpl_of_empty ok (Nat.eq_zero_of_not_pos empty) fun _ => 0
    rcases correct with refused | ⟨write, isOk, -⟩
    · obtain ⟨message, refused⟩ := refused fun _ => 0
      exact nomatch refused.symm.trans err
    · exact nomatch (isOk fun _ => 0).symm.trans err
  · intro some_
    rcases c.validate_spec with ⟨ok, -⟩ | ⟨-, message, refused⟩
    · exact .inr ⟨_, computeImpl_of_pos ok (some_ ok), sets_row⟩
    · exact .inl fun value => ⟨message, by rw [computeImpl, refused, error_bind]⟩

end Call

namespace Stack

variable {s : Stack}

theorem accepted_call {loc : Nat} (lt : loc < s.updates.length) : (s.call loc).Accepted where
  ranked := cons_ne_nil _ _
  row := Int.ofNat_lt.mpr lt
  update := rfl

theorem run_eq (pos : 0 < s.row.numElements) (value : ByteBuffer) :
    s.run value = .ok (s.order.foldl (fun value loc => store value (s.rowBytes * (s.write loc).1)
      (s.write loc).2) value) := by
  have lt : ∀ loc ∈ s.order, loc < s.updates.length := fun loc mem =>
    mem_range.mp (s.isOrder.mem_iff.mp mem)
  rw [run]
  generalize s.order = order at lt
  induction order generalizing value with
  | nil => rfl
  | cons loc rest ih =>
    rw [forall_mem_cons] at lt
    have some_ : 0 < (s.call loc).value.numElements :=
      Nat.lt_of_lt_of_eq (mul_pos (Nat.zero_lt_of_lt lt.1) pos) prod_cons.symm
    have isRow : (s.call loc).row = loc := by
      have rest := Int.emod_eq_of_lt (Int.natCast_nonneg loc) (Int.ofNat_lt.mpr lt.1)
      exact (congrArg Int.toNat rest).trans (Int.toNat_natCast loc)
    rw [foldlM_cons, Call.computeImpl_of_pos (accepted_call lt.1) some_, isRow, ok_bind, ih _ lt.2]
    rfl

theorem load_written {loc : Nat} (value : ByteBuffer) (lt : loc < s.updates.length) :
    load (s.order.foldl (fun value loc => store value (s.rowBytes * (s.write loc).1)
        (s.write loc).2) value) (s.rowBytes * loc) s.rowBytes =
      load (s.updates.getD loc fun _ => 0) 0 s.rowBytes := by
  have differ : ((s.order.map s.write).map Prod.fst).Nodup := by
    rw [map_map]
    exact (map_id s.order).symm ▸ s.isOrder.nodup_iff.mpr nodup_range
  have mem := s.isOrder.mem_iff.mpr (mem_range.mpr lt)
  have last : lastWrite (s.order.map s.write) loc = some (s.write loc).2 :=
    lastWrite_of_nodup differ (mem_map_of_mem mem)
  have whole : ∀ write ∈ s.order.map s.write, write.2.length = s.rowBytes := by
    simp [write, length_load]
  have put := load_foldl_store value whole loc
  rwa [foldl_map, last, Option.getD_some] at put

theorem load_slots (buffer : ByteBuffer) (size count : Nat) : load buffer 0 (size * count) =
      (range count).flatMap fun slot => load buffer (size * slot) size := by
  induction count with
  | zero => rfl
  | succ count ih =>
    rw [range_succ, flatMap_append, ← ih, Nat.mul_succ, flatMap_singleton]
    simp only [load, range_add, map_append, map_map, zero_add]
    rfl

theorem concatenates_iff (s : Stack) : s.Concatenates ↔ (s.updates ≠ [] → 0 < s.row.numElements) := by
  constructor
  · intro correct ne
    by_contra empty
    obtain ⟨result, isOk, -⟩ := correct fun _ => 0
    have length : s.order.length = s.updates.length := by rw [s.isOrder.length_eq, length_range]
    cases shape : s.order with
    | nil =>
      rw [shape, length_nil] at length
      exact ne (length_eq_zero_iff.mp length.symm)
    | cons loc rest =>
      have mem : loc ∈ s.order := shape ▸ mem_cons_self
      have lt := mem_range.mp (s.isOrder.mem_iff.mp mem)
      have none_ : (s.call loc).value.numElements = 0 :=
        prod_cons.trans (mul_eq_zero_of_right _ (Nat.eq_zero_of_not_pos empty))
      rw [run, shape, foldlM_cons, Call.computeImpl_of_empty (accepted_call lt) none_] at isOk
      exact nomatch isOk
  · intro some_ value
    by_cases ne : s.updates = []
    · have none_ : s.order = [] := by
        have := s.isOrder
        rw [ne] at this
        exact this.eq_nil
      exact ⟨value, by rw [run, none_]; rfl, by rw [ne]; rfl⟩
    · refine ⟨_, run_eq (some_ ne) value, ?_⟩
      rw [load_slots, flatMap_congr fun loc mem => load_written value (mem_range.mp mem)]
      conv_rhs => rw [← map_getD_range s.updates fun _ => 0, flatMap_map]

end Stack

/-- The ops stack the updates, unless a value has no elements. -/
theorem stacks_iff (call : Call) (stack : Stack) :
    (call.Correct ↔ (call.Accepted → 0 < call.value.numElements)) ∧
      (stack.Concatenates ↔ (stack.updates ≠ [] → 0 < stack.row.numElements)) :=
  ⟨call.concatenation_iff, stack.concatenates_iff⟩

/-- A value of no rows, at a negative location. -/
def noRows : Call where
  dtype := .half
  value := [0, 3]
  update := [1, 3]
  loc := -1
  content _ := 0
  addressable := by decide

theorem noRows_aborts : ¬noRows.Correct := by
  rw [Call.concatenation_iff]
  intro some_
  exact absurd (some_ ⟨by decide, by decide, rfl⟩) (by decide)

end TfDml.ParallelConcat
