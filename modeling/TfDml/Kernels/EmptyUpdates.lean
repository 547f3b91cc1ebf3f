import TfDml.Core.NoOpKernel
import TfDml.Kernels.ScatterNd
import TfDml.Kernels.SlicePositions
import TfDml.Kernels.SliceSlots
import Mathlib.Algebra.BigOperators.Group.List.Lemmas
import Mathlib.Algebra.BigOperators.Ring.List

/-! # Updates of nothing

An update without positions should leave what it is applied to. The scattered updates are
skipped for it, with zeros as their output. A slice assignment is skipped if its value has
no elements; if only the slice has none, its kernel gets windows that have wrapped around.
-/

namespace TfDml.EmptyUpdates

open Lib List
open NoOpKernel
open GatherNd (IndexType)
open StridedSlice (ProcessingDim SliceSpec SimplifiedSlice DescDim IndexTensor Simplifier Window
  validateStridedSliceOp simplifySlice window u32 i32)

inductive ScatterOp where
  | scatterNdNonAliasingAdd (index : IndexType)
  | inplaceUpdate
  | inplaceAdd
  | inplaceSub
  deriving DecidableEq

/-- The checks of `InplaceInitializationHelper` before the outermost dimension of `v`. -/
def validateInplace (x i v : TensorShape) : Except Status Unit := do
  opRequires (i.length == 1) (.invalidArgument ("i must be a vector. " ++ i.debugString))
  opRequires (x.length == v.length)
    (.invalidArgument ("x and v shape doesn't match (ranks differ): " ++ x.debugString ++
      " vs. " ++ v.debugString))
  (range' 1 (x.length - 1)).forM fun d =>
    opRequires (x.getD d 0 == v.getD d 0)
      (.invalidArgument ("x and v shape doesn't match at index " ++ toString d ++ " : " ++
        x.debugString ++ " vs. " ++ v.debugString))

def inplaceInitializationHelper (x i v : TensorShape) :
    Except Transpose.Fatal (Except Status Unit) :=
  match validateInplace x i v with
  | .error status => .ok (.error status)
  | .ok () => do
    let outer ← Transpose.read v 0
    .ok (opRequires (i.getD 0 0 == outer)
      (.invalidArgument ("i and x shape doesn't match at index 0: " ++ i.debugString ++
        " vs. " ++ v.debugString)))

def ScatterOp.initHelper (op : ScatterOp) (params indices updates : TensorShape) :
    Except Transpose.Fatal (Except Status Unit) :=
  match op with
  | .scatterNdNonAliasingAdd index => ScatterNd.validateCommonScatter index params indices updates
  | .inplaceUpdate | .inplaceAdd | .inplaceSub => inplaceInitializationHelper params indices updates

/-- An accepted invocation, with what its kernel computes if it runs: nothing, or the output. -/
structure ScatterCall (α : Type) where
  op : ScatterOp
  params : TensorShape
  indices : TensorShape
  updates : TensorShape
  values : List α
  computed : Option (List (Option α))
  sized : values.length = params.numElements
  accepted : op.initHelper params indices updates = .ok (.ok ())

namespace ScatterCall

variable {α : Type} [Zero α] (s : ScatterCall α)

def run : Option (List (Option α)) :=
  if isNoOpKernel [s.params, s.indices, s.updates] [s.params] then some (zeroed s.params)
  else s.computed

/-- Without updates, the output is the input. -/
def UpdatesNothing : Prop := s.updates.numElements = 0 → s.run = some (s.values.map some)

/-- Without updates, the input has only zeros. -/
def OnlyZeros : Prop := s.updates.numElements = 0 → ∀ x ∈ s.values, x = 0

theorem updatesNothing_iff : s.UpdatesNothing ↔ s.OnlyZeros := by
  apply imp_congr_right
  intro empty
  have skip : isNoOpKernel [s.params, s.indices, s.updates] [s.params] = true :=
    isNoOpKernel_iff.mpr (Or.inl ⟨s.updates, by simp, empty⟩)
  have length : (s.values.map some).length = s.params.numElements := by rw [length_map, s.sized]
  rw [run, if_pos skip, Option.some.injEq, eq_comm, eq_zeroed_iff length]
  simp

end ScatterCall

structure StridedSliceAssignInitHelper where
  isIdentity : Bool
  simpleSlice : SimplifiedSlice

def validateAssign {w : Nat} (input : TensorShape)
    (beginTensor endTensor stridesTensor : IndexTensor w) (masks : StridedSlice.Attributes)
    (value : TensorShape) : Except Status SliceSpec := do
  let spec ← validateStridedSliceOp beginTensor endTensor stridesTensor input masks
  opRequires (spec.processingShape.numElements == 0 || spec.finalShape == value)
    (.unimplemented ("sliced l-value shape " ++ spec.finalShape.debugString ++
      " does not match r-value shape " ++ value.debugString ++
      ". Automatic broadcasting not yet implemented."))
  .ok spec

def stridedSliceAssignInitHelper {w : Nat} (input : TensorShape)
    (beginTensor endTensor stridesTensor : IndexTensor w) (masks : StridedSlice.Attributes)
    (value : TensorShape) :
    Except StridedSlice.Fatal (Except Status StridedSliceAssignInitHelper) :=
  match validateAssign input beginTensor endTensor stridesTensor masks value with
  | .error status => .ok (.error status)
  | .ok spec => do
    let simplified ← simplifySlice spec.dims
    match simplified with
    | some slice => .ok (.ok ⟨spec.isIdentity, slice⟩)
    | none =>
      .ok (.error (.invalidArgument ("DML only support slicing up to 8D inputs, but received " ++
        toString input.length)))

/-- Each update is at its position of the output, and all else is as in the input. -/
structure Scattered {α : Type} (positions : List Int) (updates input : List α)
    (output : List (Option α)) : Prop where
  length : output.length = input.length
  writes : ∀ {i : Nat} {p : Int} {x : α}, positions[i]? = some p → updates[i]? = some x →
    output[p.toNat]? = some (some x)
  keeps : ∀ {k : Nat}, (∀ i < updates.length, ∀ p : Int, positions[i]? = some p → p.toNat ≠ k) →
      output[k]? = (input.map some)[k]?

/-- The graph of `FillValueSequence`, `Slice`, `Reinterpret` and `ScatterElements`: from a slice,
    the updates and the input, it makes the output, unless DirectML refuses it. It refuses
    windows that have no elements or leave the input. -/
structure SliceScatter (α : Type) where
  run : SimplifiedSlice → List α → List α → Option (List (Option α))
  valid : ∀ {slice updates input output}, run slice updates input = some output →
    ∀ d ∈ slice, d.Valid
  scattered : ∀ {slice updates input output}, run slice updates input = some output →
    Scattered (positions slice.indexAxes) updates input output

/-- An accepted invocation, on a variable or on a tensor. -/
structure AssignCall (α : Type) (w : Nat) where
  isResource : Bool
  input : TensorShape
  beginTensor : IndexTensor w
  endTensor : IndexTensor w
  stridesTensor : IndexTensor w
  masks : StridedSlice.Attributes
  value : TensorShape
  inputValues : List α
  valueValues : List α
  spec : SliceSpec
  helper : StridedSliceAssignInitHelper
  sizedInput : inputValues.length = input.numElements
  sizedValue : valueValues.length = value.numElements
  validated : validateAssign input beginTensor endTensor stridesTensor masks value = .ok spec
  accepted : stridedSliceAssignInitHelper input beginTensor endTensor stridesTensor masks value =
    .ok (.ok helper)

namespace AssignCall

variable {α : Type} [Zero α] {w : Nat} (a : AssignCall α w)

/-- `NoOutputShapeHelper` or `GetOutputShapeAsInputShapeHelper`. -/
def outputShapes : List TensorShape := if a.isResource then [] else [a.input]

def isNoOpKernel : Bool :=
  (match a.outputShapes with
    | [] => false
    | first :: _ => first.numElements == 0) || a.value.numElements == 0 || a.input.numElements == 0

/-- What the descriptions have of a tensor: `static_cast<uint32_t>(num_elements())`. -/
def collapsed (values : List α) : List α := values.take (u32 values.length)

def kernel (dml : SliceScatter α) : Option (List (Option α)) :=
  let unwritten := a.inputValues.drop (u32 a.inputValues.length)
  if a.helper.isIdentity then
    some ((collapsed a.valueValues).map some ++
      unwritten.map fun x => if a.isResource then some x else none)
  else
    (dml.run a.helper.simpleSlice (collapsed a.valueValues) (collapsed a.inputValues)).map
      fun output => output ++ unwritten.map fun _ => none

def run (dml : SliceScatter α) : Option (List (Option α)) :=
  if a.isNoOpKernel then some (if a.isResource then a.inputValues.map some else zeroed a.input)
  else a.kernel dml

/-- A slice without elements leaves the input or the variable as it is. -/
def UpdatesNothing (dml : SliceScatter α) : Prop :=
  a.spec.processingShape.numElements = 0 → a.run dml = some (a.inputValues.map some)

end AssignCall

/-- In 32 bits, something is taken of the dimension: a stride changes its sign, or the window
    wraps around to the whole dimension. -/
def SeemsTaken (d : ProcessingDim) : Prop :=
  0 < d.size ∨ d.isWhole = true ∨
    0 < i32 d.stride ∧ 0 ≤ d.begin_ ∧ d.begin_ < d.end_ ∨ i32 d.stride < 0 ∧ d.end_ < d.begin_

/-- The window of a dimension, wrapped around to 32 bits. -/
def wrappedWindow (d : ProcessingDim) : Window :=
  let windowStride := i32 d.stride
  let windowSize := if 0 < windowStride then u32 (d.end_ - d.begin_) else u32 (d.begin_ - d.end_)
  let divisor := if 0 < windowStride then u32 windowStride else u32 (-windowStride)
  { inputSize := u32 d.dim
    outputSize := u32 (1 + u32 (windowSize - 1) / divisor)
    windowOffset := if 0 < windowStride then u32 d.begin_ else u32 (d.end_ + 1)
    windowSize := windowSize
    windowStride := windowStride }

variable {d : ProcessingDim}

theorem window_ok {w : Window} (is : window d = .ok w) :
    i32 d.stride ≠ 0 ∧ w = wrappedWindow d := by
  unfold window at is
  by_cases below : d.end_ < -1
  · simp [below] at is
  · by_cases zero : i32 d.stride = 0
    · simp [below, zero, u32] at is
    · simp only [if_neg below] at is
      generalize divided :
        (if 0 < i32 d.stride then u32 (i32 d.stride) else u32 (-i32 d.stride)) = divisor at is
      by_cases zeroDivisor : divisor = 0
      · simp [zeroDivisor] at is
      · rw [if_neg zeroDivisor, Except.ok.injEq] at is
        subst is divided
        exact ⟨zero, rfl⟩

theorem direction_of_empty (lt : d.Within) (empty : ¬ 0 < d.size) :
    0 < d.stride ∧ d.end_ ≤ d.begin_ ∨ d.stride < 0 ∧ d.begin_ ≤ d.end_ := by
  by_contra other
  have ne := lt.stride
  have direction : 0 < d.stride ∧ 0 < d.end_ - d.begin_ ∨
      d.stride < 0 ∧ d.end_ - d.begin_ < 0 := by omega
  have size := StridedSlice.processingSize_of_direction direction
  rw [lt.size, size] at empty
  exact empty (Nat.add_pos_left one_pos _)

theorem seemsTaken_of_inside (within : d.Within) (small : d.dim < 2 ^ 32)
    (some_ : 0 < (wrappedWindow d).windowSize)
    (lt : (wrappedWindow d).windowOffset + (wrappedWindow d).windowSize ≤
      (wrappedWindow d).inputSize) (ne : i32 d.stride ≠ 0) : SeemsTaken d := by
  by_cases empty : 0 < d.size
  · exact Or.inl empty
  · refine Or.inr (Or.inr ?_)
    have forward := within.forward
    have backward := within.backward
    have direction := direction_of_empty within empty
    simp only [wrappedWindow] at some_ lt
    by_cases up : 0 < i32 d.stride
    · simp only [if_pos up, u32] at some_ lt
      omega
    · simp only [if_neg up, u32] at some_ lt
      omega

theorem seemsTaken_of_leading (lt : d.Within) (begins : d.begin_ = 0) (unit : i32 d.stride = 1)
    (some_ : (wrappedWindow d).outputSize ≠ 0) : SeemsTaken d := by
  by_cases empty : 0 < d.size
  · exact Or.inl empty
  · refine Or.inr (Or.inr (Or.inl ?_))
    have forward := lt.forward
    have backward := lt.backward
    have direction := direction_of_empty lt empty
    have one : u32 1 = 1 := rfl
    simp only [wrappedWindow, unit, Int.one_pos, if_true, one, Nat.cast_one, Int.ediv_one] at some_
    simp only [u32] at some_
    omega

/-- A dimension that seems to be taken, or has an invalid dim of its own among those written. -/
def Accounted (written : List DescDim) (d : ProcessingDim) : Prop :=
  SeemsTaken d ∨ ∃ desc ∈ written, ¬ desc.Valid

variable {written : List DescDim}

theorem Accounted.mono {more : List DescDim} (accounted : Accounted written d)
    (kept : written ⊆ more) : Accounted more d := by
  rcases accounted with seems | ⟨desc, mem, invalid⟩
  · exact Or.inl seems
  · exact Or.inr ⟨desc, kept mem, invalid⟩

theorem insertCoalesced_written {s : Simplifier} (layout : s.Written written) :
    ∃ more, s.insertCoalesced.Written more ∧ written ⊆ more := by
  unfold Simplifier.insertCoalesced
  split
  · have ins := layout.insertDim
      { inputSize := s.coalesced
        inputStride := s.totalStride
        outputSize := s.coalesced
        windowSize := s.coalesced }
    exact ⟨_, ⟨ins.currentDim, ins.desc⟩, subset_cons_self _ _⟩
  · exact ⟨written, layout, List.Subset.refl _⟩

theorem visit_accounted {s : Simplifier} (layout : s.Written written) (lt : d.Within)
    (small : d.dim < 2 ^ 32) {w : Window} (is : window d = .ok w) :
    ∃ more, (s.visit d w).Written more ∧ written ⊆ more ∧ Accounted more d := by
  obtain ⟨ne, wrapped⟩ := window_ok is
  unfold Simplifier.visit
  by_cases whole : w.collapsible = true
  · rw [if_pos whole]
    have isWhole : d.isWhole = true := by rw [ProcessingDim.isWhole, is]; exact whole
    exact ⟨written, ⟨layout.currentDim, layout.desc⟩, List.Subset.refl _,
      Or.inl (Or.inr (Or.inl isWhole))⟩
  · rw [if_neg whole]
    by_cases merges : d.begin_ = 0 ∧ w.windowStride = 1 ∧ 1 < s.coalesced
    · rw [if_pos merges]
      have ins := layout.insertDim
        { inputSize := u32 (s.coalesced * w.inputSize)
          inputStride := s.totalStride
          outputSize := u32 (s.coalesced * w.outputSize)
          windowSize := u32 (s.coalesced * w.outputSize) }
      refine ⟨_, ⟨ins.currentDim, ins.desc⟩, subset_cons_self _ _, ?_⟩
      obtain ⟨begins, unit, -⟩ := merges
      by_cases empty : w.outputSize = 0
      · refine Or.inr ⟨_, mem_cons_self, fun valid => ?_⟩
        have some_ := valid.nonempty
        simp [empty, u32] at some_
      · rw [wrapped] at empty unit
        exact Or.inl (seemsTaken_of_leading lt begins unit empty)
    · rw [if_neg merges]
      obtain ⟨pre, kept, subset⟩ := insertCoalesced_written layout
      have ins := kept.insertDim
        { inputSize := w.inputSize
          inputStride := s.insertCoalesced.totalStride
          outputSize := w.outputSize
          windowOffset := w.windowOffset
          windowSize := w.windowSize
          windowStride := w.windowStride }
      refine ⟨_, ⟨ins.currentDim, ins.desc⟩, List.Subset.trans subset (subset_cons_self _ _), ?_⟩
      by_cases valid : 0 < w.windowSize ∧ w.windowOffset + w.windowSize ≤ w.inputSize
      · rw [wrapped] at valid
        exact Or.inl (seemsTaken_of_inside lt small valid.1 valid.2 ne)
      · refine Or.inr ⟨_, mem_cons_self, fun isValid => ?_⟩
        exact valid ⟨isValid.nonempty, isValid.inside⟩

variable {dims : List ProcessingDim}

theorem visitDims_accounted {s : Simplifier} (seen : Simplifier.visitDims dims = .ok s)
    (lt : ∀ d ∈ dims, d.Within ∧ d.dim < 2 ^ 32) :
    ∃ written, s.Written written ∧ ∀ d ∈ dims, Accounted written d := by
  induction dims generalizing s with
  | nil =>
    rw [Simplifier.visitDims, Except.ok.injEq] at seen
    exact ⟨[], seen ▸ Simplifier.written_initial, by simp⟩
  | cons d rest ih =>
    simp only [Simplifier.visitDims, bind_eq_ok, Except.ok.injEq] at seen
    obtain ⟨pre, visitedRest, w, is, rfl⟩ := seen
    obtain ⟨here, later⟩ := forall_mem_cons.mp lt
    obtain ⟨written, layout, accounted⟩ := ih visitedRest later
    obtain ⟨more, layoutMore, kept, first⟩ := visit_accounted layout here.1 here.2 is
    refine ⟨more, layoutMore, forall_mem_cons.mpr ⟨first, fun other mem => ?_⟩⟩
    exact (accounted other mem).mono kept

variable {slice : SimplifiedSlice}

theorem seemsTaken_of_valid (simple : simplifySlice dims = .ok (some slice))
    (valid : ∀ desc ∈ slice, desc.Valid) (lt : ∀ d ∈ dims, d.Within ∧ d.dim < 2 ^ 32) :
    ∀ d ∈ dims, SeemsTaken d := by
  simp only [simplifySlice, bind_eq_ok, Except.ok.injEq] at simple
  obtain ⟨s, seen, finished⟩ := simple
  obtain ⟨written, layout, accounted⟩ := visitDims_accounted seen lt
  obtain ⟨more, layoutMore, kept⟩ := insertCoalesced_written layout
  obtain ⟨-, rfl⟩ := layoutMore.finish.mp finished
  intro d mem
  rcases accounted d mem with seems | ⟨desc, isWritten, invalid⟩
  · exact seems
  · exact absurd (valid desc (mem_append_right _ (kept isWritten))) invalid

namespace AssignCall

section Validation

variable {α : Type} {w : Nat} (a : AssignCall α w)

theorem isNoOpKernel_iff :
    a.isNoOpKernel = true ↔ a.value.numElements = 0 ∨ a.input.numElements = 0 := by
  unfold isNoOpKernel outputShapes
  cases a.isResource with
  | true => simp
  | false =>
    simp only [Bool.false_eq_true, if_false, Bool.or_eq_true, beq_iff_eq]
    omega

theorem helper_eq :
    validateStridedSliceOp a.beginTensor a.endTensor a.stridesTensor a.input a.masks = .ok a.spec ∧
      a.helper.isIdentity = a.spec.isIdentity ∧
        simplifySlice a.spec.dims = .ok (some a.helper.simpleSlice) := by
  have validated := a.validated
  have ok := a.accepted
  simp only [stridedSliceAssignInitHelper, validated, bind_eq_ok] at ok
  obtain ⟨simple, is, made⟩ := ok
  simp only [validateAssign, bind_eq_ok, Except.ok.injEq] at validated
  obtain ⟨spec, checked, -, -, rfl⟩ := validated
  cases simple with
  | none => simp at made
  | some slice =>
    simp only [Except.ok.injEq] at made
    exact ⟨checked, made ▸ rfl, made ▸ is⟩

theorem isIdentity_eq_false (empty : a.spec.processingShape.numElements = 0)
    (some_ : a.input.numElements ≠ 0) : a.helper.isIdentity = false := by
  obtain ⟨checked, isIdentity, -⟩ := a.helper_eq
  obtain ⟨shape, lt⟩ := StridedSlice.within_of_accepted checked
  obtain ⟨d, mem, noSize⟩ := mem_map.mp (prod_eq_zero_iff.mp empty)
  have hasElements : d.dim ≠ 0 := by
    intro zero
    apply some_
    rw [TensorShape.numElements, ← shape, prod_eq_zero_iff]
    exact mem_map.mpr ⟨d, mem, zero⟩
  have direction := direction_of_empty (lt d mem) (by omega)
  rw [isIdentity, StridedSlice.isIdentity_of_accepted checked, all_eq_false]
  refine ⟨d, mem, fun all => ?_⟩
  simp only [ProcessingDim.takeAll, Bool.and_eq_true, beq_iff_eq] at all
  omega

variable {values : List α}

theorem unwritten_eq_nil_iff : values.drop (u32 values.length) = [] ↔ values.length < 2 ^ 32 := by
  rw [drop_eq_nil_iff, StridedSlice.u32_eq_mod]
  omega

theorem collapsed_eq (lt : values.length < 2 ^ 32) : collapsed values = values := by
  rw [collapsed, StridedSlice.u32_natCast lt, take_length]

end Validation

section Effects

variable {α : Type} [Zero α] {w : Nat} (a : AssignCall α w) (dml : SliceScatter α)

/-- The kernel runs, and writes what is there already. -/
structure Rewrites : Prop where
  small : a.input.numElements < 2 ^ 32
  seems : ∀ d ∈ a.spec.dims, SeemsTaken d
  compiled : (dml.run a.helper.simpleSlice (collapsed a.valueValues) a.inputValues).isSome
  same : ∀ {i : Nat} {p : Int} {x : α}, (positions a.helper.simpleSlice.indexAxes)[i]? = some p →
    (collapsed a.valueValues)[i]? = some x → a.inputValues[p.toNat]? = some x

/-- A skipped invocation is on a variable or on zeros; any other rewrites what is there. -/
def KeepsInput : Prop :=
  a.spec.processingShape.numElements = 0 → if a.value.numElements = 0 ∨ a.input.numElements = 0 then
      a.isResource = true ∨ ∀ x ∈ a.inputValues, x = 0
    else a.Rewrites dml

theorem kernel_iff (empty : a.spec.processingShape.numElements = 0)
    (some_ : a.input.numElements ≠ 0) :
    a.kernel dml = some (a.inputValues.map some) ↔ a.Rewrites dml := by
  obtain ⟨checked, -, simple⟩ := a.helper_eq
  obtain ⟨shape, within⟩ := StridedSlice.within_of_accepted checked
  simp only [kernel, a.isIdentity_eq_false empty some_, Bool.false_eq_true, if_false,
    Option.map_eq_some_iff]
  constructor
  · rintro ⟨output, made, kept⟩
    have nothingLeft : a.inputValues.drop (u32 a.inputValues.length) = [] := by
      by_contra left
      obtain ⟨x, rest, isLeft⟩ := exists_cons_of_ne_nil left
      have mem : none ∈ a.inputValues.map some := by
        rw [← kept, isLeft]
        simp
      simp at mem
    have small := unwritten_eq_nil_iff.mp nothingLeft
    rw [nothingLeft, map_nil, append_nil] at kept
    rw [collapsed_eq small] at made
    have smallDims : ∀ d ∈ a.spec.dims, d.Within ∧ d.dim < 2 ^ 32 := by
      intro d mem
      have dvd : d.dim ∣ a.input.numElements := by
        rw [TensorShape.numElements, ← shape]
        exact dvd_prod (mem_map_of_mem mem)
      have le := Nat.le_of_dvd (Nat.pos_of_ne_zero some_) dvd
      have sized := a.sizedInput
      exact ⟨within d mem, by omega⟩
    refine ⟨a.sizedInput ▸ small, seemsTaken_of_valid simple (dml.valid made) smallDims,
      by rw [made]; rfl, fun position update => ?_⟩
    have written := (dml.scattered made).writes position update
    rw [kept, getElem?_map, Option.map_eq_some_iff] at written
    obtain ⟨x, is, same⟩ := written
    rwa [Option.some.inj same] at is
  · intro rewrites
    have small : a.inputValues.length < 2 ^ 32 := a.sizedInput.symm ▸ rewrites.small
    obtain ⟨output, made⟩ := Option.isSome_iff_exists.mp rewrites.compiled
    rw [collapsed_eq small]
    refine ⟨output, made, ?_⟩
    rw [unwritten_eq_nil_iff.mpr small, map_nil, append_nil]
    have scattered := dml.scattered made
    apply ext_getElem?
    intro k
    by_cases isWritten : ∃ i < (collapsed a.valueValues).length, ∃ p : Int,
        (positions a.helper.simpleSlice.indexAxes)[i]? = some p ∧ p.toNat = k
    · obtain ⟨i, lt, p, position, rfl⟩ := isWritten
      have update := getElem?_eq_getElem lt
      rw [scattered.writes position update, getElem?_map, rewrites.same position update]
      rfl
    · apply scattered.keeps
      intro i lt p position here
      exact isWritten ⟨i, lt, p, position, here⟩

theorem updatesNothing_iff : a.UpdatesNothing dml ↔ a.KeepsInput dml := by
  apply imp_congr_right
  intro empty
  by_cases skip : a.value.numElements = 0 ∨ a.input.numElements = 0
  · rw [run, if_pos (a.isNoOpKernel_iff.mpr skip), if_pos skip, Option.some.injEq]
    cases resource : a.isResource with
    | true => simp
    | false =>
      have length : (a.inputValues.map some).length = a.input.numElements := by
        rw [length_map, a.sizedInput]
      simp only [Bool.false_eq_true, if_false, false_or]
      rw [eq_comm, eq_zeroed_iff length]
      simp
  · have runs : ¬ a.isNoOpKernel = true := fun skips => skip (a.isNoOpKernel_iff.mp skips)
    rw [run, if_neg runs, if_neg skip]
    exact a.kernel_iff dml empty fun none => skip (Or.inr none)

end Effects

end AssignCall

/-- The updates of nothing that leave what they are applied to. -/
theorem updatesNothing_iff_keeps {α : Type} [Zero α] {w : Nat} (s : ScatterCall α)
    (a : AssignCall α w) (dml : SliceScatter α) :
    (s.UpdatesNothing ↔ s.OnlyZeros) ∧ (a.UpdatesNothing dml ↔ a.KeepsInput dml) :=
  ⟨s.updatesNothing_iff, a.updatesNothing_iff dml⟩

instance : DecidablePred DescDim.Valid := fun d =>
  decidable_of_iff (0 < d.windowSize ∧ d.windowOffset + d.windowSize ≤ d.inputSize ∧
      d.windowStride ≠ 0 ∧ d.outputSize = d.count)
    ⟨fun valid => ⟨valid.1, valid.2.1, valid.2.2.1, valid.2.2.2⟩,
      fun valid => ⟨valid.nonempty, valid.inside, valid.stride, valid.outputSize⟩⟩

/-- The operators accept the windows, and find the positions in the input. -/
structure Compiles {α : Type} (slice : SimplifiedSlice) (input : List α) : Prop where
  valid : ∀ d ∈ slice, d.Valid
  differ : ((positions slice.indexAxes).map Int.toNat).Nodup
  inside : ∀ p ∈ positions slice.indexAxes, p.toNat < input.length

instance {α : Type} (slice : SimplifiedSlice) (input : List α) : Decidable (Compiles slice input) :=
  decidable_of_iff ((∀ d ∈ slice, d.Valid) ∧ ((positions slice.indexAxes).map Int.toNat).Nodup ∧
      ∀ p ∈ positions slice.indexAxes, p.toNat < input.length)
    ⟨fun compiles => ⟨compiles.1, compiles.2.1, compiles.2.2⟩,
      fun compiles => ⟨compiles.valid, compiles.differ, compiles.inside⟩⟩

theorem map_fst_zip_sublist {α β : Type} (l : List α) (l' : List β) :
    ((l.zip l').map Prod.fst).Sublist l := by
  induction l generalizing l' with
  | nil => simp
  | cons x rest ih =>
    cases l' with
    | nil => simp
    | cons y rest' => exact (ih rest').cons_cons x

theorem scattered_of_compiles {α : Type} {updates input : List α}
    (compiles : Compiles slice input) : Scattered (positions slice.indexAxes) updates input
      (((positions slice.indexAxes).zip updates).foldl put (input.map some)) where
  length := by rw [length_foldl_put, length_map]
  writes := by
    intro i p x position update
    have mem : (p, x) ∈ (positions slice.indexAxes).zip updates := by
      apply mem_of_getElem? (i := i)
      rw [getElem?_zip_eq_some]
      exact ⟨position, update⟩
    have part : (((positions slice.indexAxes).zip updates).map fun write => write.1.toNat).Sublist
        ((positions slice.indexAxes).map Int.toNat) := by
      have firsts := (map_fst_zip_sublist (positions slice.indexAxes) updates).map Int.toNat
      rwa [map_map] at firsts
    have lt := compiles.inside p (mem_of_getElem? position)
    exact foldl_put_self (compiles.differ.sublist part) mem (by rwa [length_map])
  keeps := by
    intro k other
    apply foldl_put_other
    intro write mem
    obtain ⟨i, is⟩ := mem_iff_getElem?.mp mem
    obtain ⟨position, update⟩ := getElem?_zip_eq_some.mp is
    exact other i (List.getElem?_eq_some_iff.mp update).1 _ position

def sequentialScatter (α : Type) : SliceScatter α where
  run slice updates input :=
    if Compiles slice input then
      some (((positions slice.indexAxes).zip updates).foldl put (input.map some))
    else none
  valid := by
    intro slice updates input output made
    rw [Option.ite_none_right_eq_some] at made
    exact made.1.valid
  scattered := by
    intro slice updates input output made
    rw [Option.ite_none_right_eq_some, Option.some.injEq] at made
    obtain ⟨compiles, rfl⟩ := made
    exact scattered_of_compiles compiles

def emptyScatter : ScatterCall Int where
  op := .scatterNdNonAliasingAdd .int32
  params := [2]
  indices := [0, 1]
  updates := [0]
  values := [1, 2]
  computed := none
  sized := rfl
  accepted := rfl

/-- `x[1:1]` of two elements, to which `value` is assigned. -/
def emptySlice (isResource : Bool) (value : List Int) : AssignCall Int 32 where
  isResource := isResource
  input := [2]
  beginTensor := StridedSlice.indexVector [1]
  endTensor := StridedSlice.indexVector [1]
  stridesTensor := StridedSlice.indexVector [1]
  masks := {}
  value := [value.length]
  inputValues := [1, 2]
  valueValues := value
  spec := ⟨[⟨2, 1, 1, 1, 0⟩], [0], false, true, true⟩
  helper := ⟨false, replicate 3 (.padding 2) ++ [⟨2, 1, 0, 1, 0, 1⟩]⟩
  sizedInput := rfl
  sizedValue := by simp [TensorShape.numElements]
  validated := rfl
  accepted := rfl

theorem not_updatesNothing : ¬ emptyScatter.UpdatesNothing ∧
      ¬ (emptySlice false []).UpdatesNothing (sequentialScatter Int) ∧
      ¬ (emptySlice true [5]).UpdatesNothing (sequentialScatter Int) := by
  refine ⟨fun keeps => ?_, fun keeps => ?_, fun keeps => ?_⟩
  · exact absurd (keeps rfl) (by decide)
  · exact absurd (keeps rfl) (by decide)
  · exact absurd (keeps rfl) (by decide)

end TfDml.EmptyUpdates
