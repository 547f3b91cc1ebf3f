import TfDml.Kernels.SimplifySlice
import TfDml.Lib.Padding

/-! # Simplified paddings

`SimplifyPad` coalesces dimensions with the unpadded ones that follow, and inflates the
result to four dimensions. `PadInitHelper` validates the paddings before.
-/

namespace TfDml.Pad

open Lib List
open StridedSlice (IndexTensor u32)
open PadDim

structure PadRow where
  dimSize : Nat
  before : Int
  after : Int

def PadRow.unpadded (row : PadRow) : Bool := row.before == 0 && row.after == 0

/-- The local variables `size`, `start_pad` and `end_pad`. -/
structure Group where
  size : Nat
  startPad : Nat
  endPad : Nat

def PadRow.group (row : PadRow) : Group := ⟨u32 row.dimSize, u32 row.before, u32 row.after⟩

def Group.absorb (g : Group) (otherDimSize : Nat) : Group :=
  ⟨u32 (g.size * otherDimSize : Nat), u32 (g.startPad * otherDimSize : Nat),
    u32 (g.endPad * otherDimSize : Nat)⟩

structure SimpleDim where
  inSize : Nat
  outSize : Nat
  startPadding : Nat
  endPadding : Nat
  deriving DecidableEq

abbrev SimplePad := List SimpleDim

def Group.push (g : Group) : SimpleDim :=
  ⟨g.size, u32 (g.size + g.startPad + g.endPad : Nat), g.startPad, g.endPad⟩

/-- The loops from `j` on. When the inner loop has ended, the current dimension is pushed, and
    the outer loop goes on with the dimension at `j`. -/
def coalesceFrom (constantPad : Bool) (current : Group) (coalesces : Bool) : List PadRow → SimplePad
  | [] => [current.push]
  | row :: rest =>
    if coalesces && row.unpadded then
      coalesceFrom constantPad (current.absorb (u32 row.dimSize)) coalesces rest
    else
      current.push :: coalesceFrom constantPad row.group (constantPad || row.unpadded) rest

def coalesce (constantPad : Bool) : List PadRow → SimplePad
  | [] => []
  | row :: rest => coalesceFrom constantPad row.group (constantPad || row.unpadded) rest

def minOutputSize : Nat := 4

def maxOutputSize : Nat := 8

def simplifyPad (rows : List PadRow) (constantPad : Bool) : Option SimplePad :=
  let simplePad := coalesce constantPad rows
  if maxOutputSize < simplePad.length then none
  else some (replicate (minOutputSize - simplePad.length) ⟨1, 1, 0, 0⟩ ++ simplePad)

def kMaxDims : Nat := 6

def before (paddings : IndexTensor w) (d : Nat) : Int := paddings.flat (2 * d)

def after (paddings : IndexTensor w) (d : Nat) : Int := paddings.flat (2 * d + 1)

def rows (input : TensorShape) (paddings : IndexTensor w) : List PadRow :=
  (range (paddings.shape.getD 0 0)).map fun d =>
    ⟨input.getD d 0, before paddings d, after paddings d⟩

structure PadInitHelper (α : Type) where
  outputShape : TensorShape
  padValue : α
  simplePad : SimplePad
  paddingMode : PaddingMode

def checkMode (mode : PaddingMode) (beforeD afterD dimSize : Int) : Except Status Unit :=
  match mode with
  | .symmetric =>
    opRequires (beforeD ≤ dimSize && afterD ≤ dimSize)
      (.invalidArgument ("paddings must be no greater than the dimension size: " ++
        toString beforeD ++ ", " ++ toString afterD ++ " greater than " ++ toString dimSize))
  | .reflect =>
    opRequires (beforeD < dimSize && afterD < dimSize)
      (.invalidArgument ("paddings must be less than the dimension size: " ++
        toString beforeD ++ ", " ++ toString afterD ++ " not less than " ++ toString dimSize))
  | .constant => .ok ()

/-- The loop body for the dimension `d`, with the size that `AddDim` gets. -/
def paddedDim (mode : PaddingMode) (input : TensorShape) (paddings : IndexTensor w) (d : Nat) :
    Except Status Nat := do
  let beforeD := before paddings d
  let afterD := after paddings d
  opRequires (0 ≤ beforeD && 0 ≤ afterD)
    (.invalidArgument ("Paddings must be non-negative: " ++ toString beforeD ++ " " ++
      toString afterD))
  checkMode mode beforeD afterD (input.getD d 0)
  let sizeD := if d = input.length then 1 else input.getD d 0
  .ok (beforeD + sizeD + afterD).toNat

/-- The value of the scalar `constant_values`, or `T()` without that input. -/
def getPadValue {α : Type} [Zero α] : Option (TensorShape × α) → Except Status α
  | none => .ok 0
  | some (shape, value) => do
    opRequires shape.isScalar
      (.invalidArgument ("constant_values must be a scalar. Found: " ++ shape.debugString))
    .ok value

def padInitHelper {α : Type} [Zero α] (mode : PaddingMode) (input : TensorShape)
    (paddings : IndexTensor w) (constantValues : Option (TensorShape × α)) :
    Except Status (PadInitHelper α) := do
  opRequires (input.length ≤ kMaxDims)
    (.unimplemented ("inputs rank not in [0,6]: " ++ toString input.length))
  opRequires (paddings.shape.length == 2 && paddings.shape.getD 1 0 == 2)
    (.invalidArgument ("paddings must be a matrix with 2 columns: " ++ paddings.shape.debugString))
  let fixedDims := if input.length = 0 ∧ paddings.shape.getD 0 0 = 1 then 1 else input.length
  opRequires (input.length == paddings.shape.getD 0 0)
    (.invalidArgument ("The first dimension of paddings must be the rank of inputs" ++
      paddings.shape.debugString ++ " " ++ input.debugString))
  let padValue ← getPadValue constantValues
  let outputShape ← (range fixedDims).mapM (paddedDim mode input paddings)
  match simplifyPad (rows input paddings) (mode == .constant) with
  | none =>
    .error (.invalidArgument ("DML can only handle up to 8D padding, but the given shape " ++
      "and paddings cannot be simplified to 8D."))
  | some simplePad => .ok ⟨outputShape, padValue, simplePad, mode⟩

def PadRow.dim (row : PadRow) : PadDim := ⟨row.dimSize, row.before.toNat, row.after.toNat⟩

def Group.dim (g : Group) : PadDim := ⟨g.size, g.startPad, g.endPad⟩

def SimpleDim.dim (d : SimpleDim) : PadDim := ⟨d.inSize, d.startPadding, d.endPadding⟩

variable {row : PadRow}

theorem PadRow.dim_unpadded (unpadded : row.unpadded = true) : row.dim.Unpadded := by
  simp only [PadRow.unpadded, Bool.and_eq_true, beq_iff_eq] at unpadded
  simp [PadRow.dim, PadDim.Unpadded, unpadded.1, unpadded.2]

theorem PadRow.merges_of_open {mode : PaddingMode}
    (isOpen : (mode == .constant || row.unpadded) = true) :
    mode = .constant ∨ row.dim.Unpadded := by
  rcases Bool.or_eq_true_iff.mp isOpen with isConstant | unpadded
  · exact Or.inl (eq_of_beq isConstant)
  · exact Or.inr (PadRow.dim_unpadded unpadded)

/-- The paddings are not negative. -/
structure PadRow.Valid (row : PadRow) : Prop where
  size : 0 < row.dimSize
  before : 0 ≤ row.before
  after : 0 ≤ row.after

theorem PadRow.Valid.total_pos (valid : row.Valid) : 0 < row.dim.total := by
  have size := valid.size
  simp only [PadRow.dim, PadDim.total]
  omega

theorem PadRow.Valid.group_eq (valid : row.Valid) (lt : row.dim.total < 2 ^ 32) :
    row.group.dim = row.dim := by
  have ge := valid.before
  have ge' := valid.after
  simp only [PadRow.dim, PadDim.total] at lt
  rw [PadRow.group, Group.dim, PadRow.dim, StridedSlice.u32_natCast (by omega),
    StridedSlice.u32_of_bounds ge (by omega), StridedSlice.u32_of_bounds ge' (by omega)]

variable {g : Group}

theorem Group.absorb_eq {n : Nat} (lt : (g.dim.scale n).total < 2 ^ 32) :
    (g.absorb n).dim = g.dim.scale n := by
  simp only [Group.dim, scale, PadDim.total] at lt ⊢
  rw [Group.absorb, StridedSlice.u32_natCast (by omega), StridedSlice.u32_natCast (by omega),
    StridedSlice.u32_natCast (by omega)]

structure Coalesces (mode : PaddingMode) (dims : List PadDim) (simplePad : SimplePad) : Prop where
  elements : sources mode (simplePad.map SimpleDim.dim) = sources mode dims
  inputs : (simplePad.map SimpleDim.inSize).prod = (dims.map PadDim.size).prod
  outputs : (simplePad.map SimpleDim.outSize).prod = (dims.map PadDim.total).prod
  sized : ∀ d ∈ simplePad, d.outSize = d.dim.total

variable {dims : List PadDim} {simplePad : SimplePad}

theorem Group.push_coalesces {mode : PaddingMode} (lt : g.dim.total < 2 ^ 32)
    (inner : Coalesces mode dims simplePad) :
    Coalesces mode (g.dim :: dims) (g.push :: simplePad) := by
  have outSize : g.push.outSize = g.dim.total := by
    simp only [Group.dim, PadDim.total] at lt
    simp only [Group.push, Group.dim, PadDim.total]
    rw [StridedSlice.u32_natCast (by omega)]
    omega
  have inputs := inner.inputs
  constructor
  · apply sources_cons_congr g.dim inner.elements
    rw [map_map]
    exact inputs
  · rw [map_cons, prod_cons, inputs, map_cons, prod_cons]
    rfl
  · rw [map_cons, prod_cons, inner.outputs, outSize, map_cons, prod_cons]
  · exact forall_mem_cons.mpr ⟨outSize, inner.sized⟩

theorem Coalesces.nil (mode : PaddingMode) : Coalesces mode [] [] := ⟨rfl, rfl, rfl, by simp⟩

variable {rest : List PadRow}

theorem total_lt {first : Nat} (valid : ∀ row ∈ rest, row.Valid)
    (lt : first * (rest.map fun row => row.dim.total).prod < 2 ^ 32) : first < 2 ^ 32 := by
  have pos : 0 < (rest.map fun row => row.dim.total).prod := by
    refine List.prod_pos_iff_forall_pos_nat.mpr fun total mem => ?_
    obtain ⟨row, inRest, rfl⟩ := mem_map.mp mem
    exact (valid row inRest).total_pos
  exact lt_of_le_of_lt (Nat.le_mul_of_pos_right first pos) lt

theorem Coalesces.merge {mode : PaddingMode} {d e : PadDim} (merges : mode = .constant ∨ d.Unpadded)
    (unpadded : e.Unpadded) (inner : Coalesces mode (d.scale e.size :: dims) simplePad) :
    Coalesces mode (d :: e :: dims) simplePad := by
  have total : e.total = e.size := by rw [PadDim.total, unpadded.1, unpadded.2, zero_add, add_zero]
  constructor
  · rw [inner.elements, sources_merge dims merges unpadded]
  · rw [inner.inputs]
    simp only [map_cons, prod_cons, scale, mul_assoc]
  · rw [inner.outputs]
    simp only [map_cons, prod_cons, total_scale, total, mul_assoc]
  · exact inner.sized

theorem coalesceFrom_coalesces {mode : PaddingMode} {cur : Group} {coalesces : Bool}
    (merges : coalesces = true → mode = .constant ∨ cur.dim.Unpadded)
    (pos : 0 < cur.dim.total) (valid : ∀ row ∈ rest, row.Valid)
    (lt : cur.dim.total * (rest.map fun row => row.dim.total).prod < 2 ^ 32) :
    Coalesces mode (cur.dim :: rest.map PadRow.dim)
      (coalesceFrom (mode == .constant) cur coalesces rest) := by
  induction rest generalizing cur coalesces with
  | nil => exact Group.push_coalesces (total_lt valid lt) (.nil mode)
  | cons row rest ih =>
    obtain ⟨first, later⟩ := forall_mem_cons.mp valid
    have outer : cur.dim.total < 2 ^ 32 := total_lt valid lt
    rw [map_cons, prod_cons] at lt
    rw [coalesceFrom]
    by_cases absorbs : (coalesces && row.unpadded) = true
    · obtain ⟨isOpen, unpadded⟩ := Bool.and_eq_true_iff.mp absorbs
      have noPads := PadRow.dim_unpadded unpadded
      have total : row.dim.total = row.dimSize := by
        rw [PadDim.total, noPads.1, noPads.2, zero_add, add_zero]
        rfl
      rw [total, ← mul_assoc, ← total_scale] at lt
      have scaledSmall : (cur.dim.scale row.dimSize).total < 2 ^ 32 := total_lt later lt
      have cast : u32 row.dimSize = row.dimSize := by
        rw [total_scale] at scaledSmall
        exact StridedSlice.u32_natCast
          (lt_of_le_of_lt (Nat.le_mul_of_pos_left _ pos) scaledSmall)
      have scaled := Group.absorb_eq scaledSmall
      have size : row.dim.size = row.dimSize := rfl
      rw [if_pos absorbs, cast, map_cons]
      refine Coalesces.merge (merges isOpen) noPads ?_
      rw [size, ← scaled]
      rw [← scaled] at lt
      refine ih (fun isOpen => ?_) ?_ later lt
      · rw [scaled]
        refine (merges isOpen).imp_right fun unpaddedCurrent => ?_
        simp [PadDim.Unpadded, scale, unpaddedCurrent.1, unpaddedCurrent.2]
      · rw [scaled, total_scale]
        exact mul_pos pos first.size
    · have inner : row.dim.total * (rest.map fun row => row.dim.total).prod < 2 ^ 32 :=
        lt_of_le_of_lt (Nat.le_mul_of_pos_left _ pos) lt
      have taken := first.group_eq (total_lt later inner)
      rw [if_neg absorbs, map_cons]
      refine Group.push_coalesces outer ?_
      rw [← taken] at inner ⊢
      refine ih (fun isOpen => ?_) ?_ later inner
      · rw [taken]
        exact PadRow.merges_of_open isOpen
      · rw [taken]
        exact first.total_pos

theorem coalesce_coalesces {mode : PaddingMode} {rows : List PadRow}
    (valid : ∀ row ∈ rows, row.Valid)
    (lt : (rows.map fun row => row.dim.total).prod < 2 ^ 32) :
    Coalesces mode (rows.map PadRow.dim) (coalesce (mode == .constant) rows) := by
  cases rows with
  | nil => exact .nil mode
  | cons row rest =>
    obtain ⟨first, later⟩ := forall_mem_cons.mp valid
    rw [map_cons, prod_cons] at lt
    have taken := first.group_eq (total_lt later lt)
    rw [coalesce, map_cons]
    rw [← taken] at lt ⊢
    refine coalesceFrom_coalesces (fun isOpen => ?_) ?_ later lt
    · rw [taken]
      exact PadRow.merges_of_open isOpen
    · rw [taken]
      exact first.total_pos

theorem length_coalesceFrom (constantPad : Bool) (cur : Group) (coalesces : Bool)
    (rest : List PadRow) :
    (coalesceFrom constantPad cur coalesces rest).length ≤ rest.length + 1 := by
  induction rest generalizing cur coalesces with
  | nil => exact le_refl 1
  | cons row rest ih =>
    rw [coalesceFrom, length_cons]
    split
    · have inner := ih (cur.absorb (u32 row.dimSize)) coalesces
      omega
    · have inner := ih row.group (constantPad || row.unpadded)
      rw [length_cons]
      omega

theorem length_coalesce (constantPad : Bool) (rows : List PadRow) :
    (coalesce constantPad rows).length ≤ rows.length := by
  cases rows with
  | nil => exact le_refl 0
  | cons row rest => exact length_coalesceFrom _ _ _ rest

section Accepted

variable {α : Type} [Zero α] {mode : PaddingMode} {input : TensorShape} {paddings : IndexTensor w}

def padDim (input : TensorShape) (paddings : IndexTensor w) (d : Nat) : PadDim :=
  ⟨input.getD d 0, (before paddings d).toNat, (after paddings d).toNat⟩

structure Checked (mode : PaddingMode) (input : TensorShape) (paddings : IndexTensor w)
    (d size : Nat) : Prop where
  before : 0 ≤ before paddings d
  after : 0 ≤ after paddings d
  fits : (padDim input paddings d).Fits mode
  size : size = (padDim input paddings d).total

theorem paddedDim_ok {d size : Nat} (lt : d < input.length)
    (checked : paddedDim mode input paddings d = .ok size) :
    Checked mode input paddings d size := by
  simp only [paddedDim, bind_eq_ok, opRequires_eq_ok, exists_const, Bool.and_eq_true,
    decide_eq_true_eq, if_neg (Nat.ne_of_lt lt), Except.ok.injEq] at checked
  obtain ⟨⟨beforeNonneg, afterNonneg⟩, _, enough, rfl⟩ := checked
  refine ⟨beforeNonneg, afterNonneg, ?_, ?_⟩
  · cases mode with
    | constant => exact trivial
    | reflect =>
      simp only [checkMode, opRequires_eq_ok, Bool.and_eq_true, decide_eq_true_eq] at enough
      simp only [PadDim.Fits, padDim]
      omega
    | symmetric =>
      simp only [checkMode, opRequires_eq_ok, Bool.and_eq_true, decide_eq_true_eq] at enough
      simp only [PadDim.Fits, padDim]
      omega
  · simp only [padDim, PadDim.total]
    omega

structure Accepted (mode : PaddingMode) (input : TensorShape) (paddings : IndexTensor w)
    (helper : PadInitHelper α) : Prop where
  rank : input.length ≤ 6
  dims : paddings.shape = [input.length, 2]
  isMode : helper.paddingMode = mode
  simplePad : simplifyPad (rows input paddings) (mode == .constant) = some helper.simplePad
  checked : ∀ d < input.length, Checked mode input paddings d
    (padDim input paddings d).total
  outputShape : helper.outputShape =
    (range input.length).map fun d => (padDim input paddings d).total

theorem padInitHelper_ok {constantValues : Option (TensorShape × α)} {helper : PadInitHelper α}
    (acc : padInitHelper mode input paddings constantValues = .ok helper) :
    Accepted mode input paddings helper := by
  simp only [padInitHelper, bind_eq_ok, opRequires_eq_ok, exists_const, Bool.and_eq_true,
    decide_eq_true_eq, beq_iff_eq] at acc
  obtain ⟨rank, ⟨matrix, cols⟩, dims, padValue, -, outputShape, mapped, made⟩ := acc
  have isShape : paddings.shape = [input.length, 2] := by
    obtain ⟨m, n, shape⟩ := length_eq_two.mp matrix
    rw [shape] at cols dims ⊢
    obtain rfl : n = 2 := cols
    obtain rfl : input.length = m := dims
    rfl
  have fixedDims : (if input.length = 0 ∧ paddings.shape.getD 0 0 = 1 then 1 else input.length) =
      input.length := by
    rw [← dims]
    split
    · omega
    · rfl
  rw [fixedDims] at mapped
  obtain ⟨lens, each⟩ := forall₂_iff_get.mp (forall₂_of_mapM_ok mapped)
  rw [length_range] at lens
  have checked : ∀ d (lt : d < outputShape.length),
      Checked mode input paddings d outputShape[d] := by
    intro d lt
    have inRange : d < (range input.length).length := by
      rw [length_range, lens]
      exact lt
    have ok := each d inRange lt
    rw [get_eq_getElem, getElem_range] at ok
    exact paddedDim_ok (lens ▸ lt) ok
  have shapes : outputShape = (range input.length).map fun d =>
      (padDim input paddings d).total := by
    apply ext_getElem
    · simp [lens]
    · intro d lt _
      rw [getElem_map, getElem_range, (checked d lt).size]
  cases simple : simplifyPad (rows input paddings) (mode == .constant) with
  | none => simp [simple] at made
  | some simplePad =>
    simp only [simple, Except.ok.injEq] at made
    subst made
    refine ⟨rank, isShape, rfl, simple, fun d lt => ?_, shapes⟩
    have ok := checked d (lens ▸ lt)
    rwa [ok.size] at ok

end Accepted

structure PadPreserved (input : TensorShape) (paddings : IndexTensor w) (mode : PaddingMode)
    {α : Type} (helper : PadInitHelper α) : Prop where
  numDims : 4 ≤ helper.simplePad.length ∧ helper.simplePad.length ≤ 8
  inputs : (helper.simplePad.map SimpleDim.inSize).prod = input.numElements
  outputs : (helper.simplePad.map SimpleDim.outSize).prod = helper.outputShape.numElements
  sized : ∀ d ∈ helper.simplePad, d.outSize = d.dim.total
  elements : ∀ {β : Type} (fill : β) (values : List β),
    padded mode (helper.simplePad.map SimpleDim.dim) fill values =
      padded mode ((range input.length).map (padDim input paddings)) fill values
  written : ∀ {β : Type} (fill : β) (values : List β), values.length = input.numElements →
    ∀ x ∈ padded mode ((range input.length).map (padDim input paddings)) fill values,
      x.isSome = true

theorem rows_dims {input : TensorShape} {paddings : IndexTensor w}
    (dims : paddings.shape = [input.length, 2]) : (rows input paddings).map PadRow.dim =
      (range input.length).map (padDim input paddings) := by
  rw [rows, dims, map_map]
  rfl

/-- Simplified paddings of inputs that are not empty pad like the original ones. -/
theorem padInitHelper_preserves {α : Type} [Zero α] {mode : PaddingMode} {input : TensorShape}
    {paddings : IndexTensor w} {constantValues : Option (TensorShape × α)}
    {helper : PadInitHelper α}
    (accepted : padInitHelper mode input paddings constantValues = .ok helper)
    (nonempty : 0 < input.numElements) (small : helper.outputShape.numElements < 2 ^ 32) :
    PadPreserved input paddings mode helper := by
  have known := padInitHelper_ok accepted
  have isDims := rows_dims known.dims
  have sizes : ((range input.length).map (padDim input paddings)).map PadDim.size = input := by
    rw [map_map]
    exact map_getD_range input 0
  have valid : ∀ row ∈ rows input paddings, row.Valid := by
    intro row mem
    rw [rows, known.dims] at mem
    obtain ⟨d, inRange, rfl⟩ := mem_map.mp mem
    have lt : d < input.length := mem_range.mp inRange
    have checked := known.checked d lt
    refine ⟨?_, checked.before, checked.after⟩
    rw [getD_eq_getElem _ _ lt]
    exact List.prod_pos_iff_forall_pos_nat.mp nonempty _ (getElem_mem lt)
  have totals : ((rows input paddings).map fun row => row.dim.total) = helper.outputShape := by
    rw [known.outputShape, rows, known.dims, map_map]
    rfl
  have coalesced : Coalesces mode ((rows input paddings).map PadRow.dim)
      (coalesce (mode == .constant) (rows input paddings)) := by
    apply coalesce_coalesces valid
    rw [totals]
    exact small
  have short : (coalesce (mode == .constant) (rows input paddings)).length ≤ 6 := by
    have rank : (rows input paddings).length = input.length := by
      rw [rows, known.dims, length_map, length_range]
      rfl
    have lens := length_coalesce (mode == .constant) (rows input paddings)
    exact le_trans (rank ▸ lens) known.rank
  have isSimplePad := known.simplePad
  rw [simplifyPad, if_neg (by rw [maxOutputSize]; omega), Option.some.injEq] at isSimplePad
  have trivialDim : (⟨1, 1, 0, 0⟩ : SimpleDim).dim = ⟨1, 0, 0⟩ := rfl
  constructor
  · rw [← isSimplePad, length_append, length_replicate, minOutputSize]
    omega
  · rw [← isSimplePad, map_append, prod_append, coalesced.inputs, isDims, sizes]
    simp [TensorShape.numElements]
  · rw [← isSimplePad, map_append, prod_append, coalesced.outputs, map_map]
    have outs : ((rows input paddings).map (PadDim.total ∘ PadRow.dim)).prod =
        helper.outputShape.numElements := congrArg prod totals
    simp [outs]
  · intro d mem
    rw [← isSimplePad] at mem
    cases mem_append.mp mem with
    | inl inflated =>
      obtain rfl := eq_of_mem_replicate inflated
      rfl
    | inr simple => exact coalesced.sized d simple
  · intro β fill values
    apply padded_congr
    rw [← isSimplePad, map_append, map_replicate, trivialDim, sources_replicate_trivial,
      coalesced.elements, isDims]
  · intro β fill values length x mem
    refine isSome_of_mem_padded ?_ ?_ mem
    · intro d inDims
      obtain ⟨i, inRange, rfl⟩ := mem_map.mp inDims
      exact (known.checked i (mem_range.mp inRange)).fits
    · rw [length, sizes]
      rfl

/-- The paddings of the comment at `SimplifyPad`. -/
def blockPaddings : IndexTensor 32 where
  shape := [4, 2]
  values := [1, 1, 0, 0, 1, 2, 0, 0]
  sized := rfl

def blockHelper : PadInitHelper Int where
  outputShape := [4, 2, 5, 3]
  padValue := 0
  simplePad := [⟨1, 1, 0, 0⟩, ⟨1, 1, 0, 0⟩, ⟨4, 8, 2, 2⟩, ⟨6, 15, 3, 6⟩]
  paddingMode := .constant

theorem padInitHelper_preserves_blocks :
    PadPreserved [2, 2, 2, 3] blockPaddings .constant blockHelper :=
  @padInitHelper_preserves _ Int _ .constant [2, 2, 2, 3] blockPaddings none blockHelper rfl
    (by decide) (by decide)

def widePaddings : IndexTensor 32 where
  shape := [1, 2]
  values := [2147483647, 2147483647]
  sized := rfl

def wideHelper : PadInitHelper Int where
  outputShape := [4294967296]
  padValue := 0
  simplePad := [⟨1, 1, 0, 0⟩, ⟨1, 1, 0, 0⟩, ⟨1, 1, 0, 0⟩, ⟨2, 0, 2147483647, 2147483647⟩]
  paddingMode := .constant

theorem widePaddings_wrap : padInitHelper .constant [2] widePaddings none = .ok wideHelper ∧
      (wideHelper.simplePad.map SimpleDim.outSize).prod ≠ wideHelper.outputShape.numElements :=
  ⟨rfl, by decide⟩

end TfDml.Pad
