import TfDml.Kernels.SplitPieces

/-! # Concat undoes SplitV

Both kernels see the same views of their tensors, so that Concat joins what SplitV has cut. The
sizes that SplitV accepts are the documented ones unless their sum overflows, or the axis does
not fit in an `int`.
-/

namespace TfDml.ConcatOp

open Lib List Option
open DmlTensorDesc (view nchwAxis)
open GatherNd (IndexType)
open ScatterNd (indexWidth)
open SplitOp (Cut pieces parts viewOf)
open StridedSlice (IndexTensor i32)

section Helper

variable {input : TensorShape} {axis : Nat}

theorem checkInput_set (lt : axis < input.length) (n m acc i : Nat) :
    checkInput (input.set axis n) axis acc (input.set axis m, i) = .ok (acc + m) := by
  have size : (input.set axis m).getD axis 0 = m := by
    rw [getD_eq_getElem _ _ (by rwa [length_set]), getElem_set_self]
  simp only [checkInput, bind_eq_ok, opRequires_eq_ok, forM_eq_ok, exists_const, size]
  refine ⟨by simp, fun j _ => ?_, trivial⟩
  split
  case isTrue => rfl
  case isFalse other =>
    rw [getD_eq_getElem?_getD, getD_eq_getElem?_getD,
      getElem?_set_ne (Ne.symm other), getElem?_set_ne (Ne.symm other), beq_self_eq_true]
    rfl

theorem foldlM_checkInput (lt : axis < input.length) (n acc k : Nat) (ns : List Nat) :
    ((ns.map (input.set axis ·)).zipIdx k).foldlM (checkInput (input.set axis n) axis) acc =
      .ok (acc + ns.sum) := by
  induction ns generalizing acc k with
  | nil => rfl
  | cons m rest ih =>
    rw [map_cons, zipIdx_cons, foldlM_cons, checkInput_set lt, sum_cons, ← add_assoc]
    exact ih (acc + m) (k + 1)

variable {w : Nat}

def scalar (value : BitVec w) : IndexTensor w := ⟨[], [value], rfl⟩

def Denotes (rank : Nat) (value : BitVec w) (axis : Nat) : Prop :=
  (if value.toInt < 0 then value.toInt + rank else value.toInt) = axis

theorem initHelper_set (lt : axis < input.length) {value : BitVec w}
    (denotes : Denotes input.length value axis) (n : Nat) (ns : List Nat) :
    initHelper (scalar value) (input.set axis n) (ns.map (input.set axis ·)) =
      .ok ⟨axis, n + ns.sum, input.set axis n⟩ := by
  have dim : (scalar value).flat 0 = value.toInt := rfl
  have isScalar : (scalar value).shape.isScalar = true := rfl
  have size : (input.set axis n).getD axis 0 = n := by
    rw [getD_eq_getElem _ _ (by rwa [length_set]), getElem_set_self]
  rw [Denotes] at denotes
  simp only [initHelper, bind_eq_ok, opRequires_eq_ok, exists_const, dim, isScalar, true_and,
    length_set, denotes, Int.toNat_natCast, size, foldlM_checkInput lt, Bool.and_eq_true,
    decide_eq_true_eq, Int.natCast_nonneg, Nat.cast_lt, lt, Except.ok.injEq, exists_eq_left']

end Helper

section Kernel

variable {α : Type}

theorem filterMap_ite {β γ : Type} (q : β → Nat) (f : β → γ) (l : List β) :
    (l.filterMap fun x => if q x = 0 then none else some (f x)) =
      (l.filter fun x => q x != 0).map f := by
  induction l with
  | nil => rfl
  | cons x rest ih =>
    by_cases zero : q x = 0
    · simp [zero, ih]
    · simp [zero, ih]

theorem kernelInputs_spec {β : Type} (name : AxisArgumentName) (tensors : List (Value α))
    (f : Option (Value α) × Nat → Option β) (skips : ∀ i, f (none, i) = none) :
    ∃ k, (kernelInputs name tensors).zipIdx.filterMap f =
        (tensors.zipIdx k).filterMap (fun entry => f (some entry.1, entry.2)) ∧
      ∀ i t, (t, i) ∈ tensors.zipIdx k → (kernelInputs name tensors)[i]? = some (some t) := by
  have mapped : ∀ k, ((tensors.map some).zipIdx k).filterMap f =
      (tensors.zipIdx k).filterMap (fun entry => f (some entry.1, entry.2)) := fun k => by
    rw [zipIdx_map, filterMap_map]
    rfl
  cases name with
  | nameIsConcatDim =>
    refine ⟨1, ?_, fun i t mem => ?_⟩
    · rw [kernelInputs, zipIdx_cons, filterMap_cons_none (skips 0), mapped]
    · obtain ⟨later, got⟩ := mk_mem_zipIdx_iff_le_and_getElem?_sub.mp mem
      rw [kernelInputs, getElem?_cons, if_neg (by omega), getElem?_map, got]
      rfl
  | nameIsAxis =>
    refine ⟨0, ?_, fun i t mem => ?_⟩
    · rw [kernelInputs, zipIdx_append, filterMap_append, mapped]
      simp [skips]
    · have got := mk_mem_zipIdx_iff_getElem?.mp mem
      have below := (List.getElem?_eq_some_iff.mp got).1
      rw [kernelInputs, getElem?_append_left (by rwa [length_map]), getElem?_map, got]
      rfl

theorem length_kernelInputs (name : AxisArgumentName) (tensors : List (Value α)) :
    (kernelInputs name tensors).length = tensors.length + 1 := by
  cases name with
  | nameIsConcatDim => rw [kernelInputs, length_cons, length_map]
  | nameIsAxis => rw [kernelInputs, length_append, length_map, length_singleton]

variable {input : TensorShape} {axis : Nat} {values : List α} {ns : List Nat}
  (cut : Cut input axis values ns)

include cut

theorem operatorInputs_eq (ne : input.numElements ≠ 0) (name : AxisArgumentName) :
    ∃ infos, operatorInputs input axis (kernelInputs name (pieces input axis values ns)) =
        some infos ∧ infos.mapM (boundInput (kernelInputs name (pieces input axis values ns))) =
        some (((ns.filter (· != 0)).zip (parts input axis values (ns.filter (· != 0)))).map
          fun entry => (viewOf input axis entry.1, entry.2)) := by
  obtain ⟨k, filtered, got⟩ := kernelInputs_spec name (pieces input axis values ns)
    (fun input => input.1.bind fun tensor =>
      if tensor.shape.numElements = 0 then none else some (tensor.shape, input.2)) fun _ => rfl
  let live := ((pieces input axis values ns).zipIdx k).filter fun entry =>
    entry.1.shape.numElements != 0
  have size : ∀ n, (input.set axis n).getD axis 0 = n := fun n => by
    rw [getD_eq_getElem _ _ (by rw [length_set]; exact cut.inside), getElem_set_self]
  have new : ∀ entry ∈ live, (do
      let shape ← collapse input axis (i32 (entry.1.shape.getD axis 0))
      DmlTensorDesc.create shape shape) = some (viewOf input axis (entry.1.shape.getD axis 0)) := by
    intro entry mem
    obtain ⟨inPieces, some_⟩ := mem_filter.mp mem
    obtain ⟨part, inZip, isPart⟩ := List.mem_map.mp (fst_mem_of_mem_zipIdx inPieces)
    rw [← isPart] at some_ ⊢
    rw [cut.numElements_part ne] at some_
    rw [size]
    exact cut.create_part ne (of_mem_zip inZip).1 (bne_iff_ne.mp some_)
  refine ⟨live.map fun entry => ⟨entry.2, viewOf input axis (entry.1.shape.getD axis 0)⟩, ?_, ?_⟩
  · have kept : (((pieces input axis values ns).zipIdx k).filterMap fun entry =>
        if entry.1.shape.numElements = 0 then none else some (entry.1.shape, entry.2)) =
        live.map fun entry => (entry.1.shape, entry.2) :=
      filterMap_ite (fun entry : Value α × Nat => entry.1.shape.numElements)
        (fun entry => (entry.1.shape, entry.2)) _
    rw [operatorInputs, filtered]
    simp only [bind_some]
    rw [kept, mapM_map]
    refine mapM_eq_some fun entry mem => ?_
    obtain ⟨shape, collapsed, made⟩ := bind_eq_some_iff.mp (new entry mem)
    simp only [Function.comp_apply, collapsed, made, bind_eq_bind, bind_some]
  · rw [mapM_map]
    have bound : live.mapM (boundInput (kernelInputs name (pieces input axis values ns)) ∘
        fun entry => ⟨entry.2, viewOf input axis (entry.1.shape.getD axis 0)⟩) =
        some (live.map fun entry =>
          (viewOf input axis (entry.1.shape.getD axis 0), entry.1.values)) := by
      refine mapM_eq_some fun entry mem => ?_
      have at_ := got entry.2 entry.1 (mem_filter.mp mem).1
      rw [Function.comp_apply, boundInput, at_]
      rfl
    rw [bound, Option.some.injEq]
    have composed : (fun entry : Value α × Nat =>
        (viewOf input axis (entry.1.shape.getD axis 0), entry.1.values)) =
        (fun p : Value α => (viewOf input axis (p.shape.getD axis 0), p.values)) ∘ Prod.fst := rfl
    rw [composed, ← List.map_map, map_fst_filter_zipIdx fun p : Value α =>
      p.shape.numElements != 0, pieces, List.filter_map, List.map_map]
    have alive : ((fun p : Value α => p.shape.numElements != 0) ∘
        fun entry : Nat × List α => ⟨input.set axis entry.1, entry.2⟩) =
        fun entry => entry.1 != 0 :=
      funext fun entry => cut.numElements_part ne entry.1
    rw [alive, parts, filter_zip_partsFrom]
    refine map_congr_left fun entry _ => ?_
    rw [Function.comp_apply, size]

theorem runKernel_eq (ne : input.numElements ≠ 0) (many : 2 ≤ ns.length)
    (name : AxisArgumentName) {init : Init} (isAxis : init.concatAxis = axis)
    (output : getOutputShape init = input) :
    runKernel init (kernelInputs name (pieces input axis values ns)) = some (values.map some) := by
  have count : ¬ (kernelInputs name (pieces input axis values ns)).length < 3 := by
    rw [length_kernelInputs, pieces, length_map, length_zip, SplitOp.length_parts]
    omega
  obtain ⟨shape, collapsed, new⟩ := bind_eq_some_iff.mp (cut.collapse_input ne)
  obtain ⟨infos, isInputs, bound⟩ := operatorInputs_eq cut ne name
  have joined : DmlTensorDesc.dmlJoin (((ns.filter (· != 0)).zip
      (parts input axis values (ns.filter (· != 0)))).map
        fun entry => (viewOf input axis entry.1, entry.2))
      (viewOf input axis (input.getD axis 0)) nchwAxis = some (values.map some) :=
    DmlTensorDesc.dmlJoin_view cut.fits cut.whole_view cut.sum_live
  have some_ : infos.isEmpty = false := by
    rw [isEmpty_eq_false_iff]
    rintro rfl
    have none := (map_eq_nil_iff.mp (some.inj bound).symm)
    have live : (ns.filter (· != 0)).length = 0 := by
      have length := congrArg List.length none
      rwa [length_zip, SplitOp.length_parts, min_self] at length
    have sum := cut.sum_live
    rw [length_eq_zero_iff.mp live] at sum
    rw [SplitOp.numElements_eq cut.inside, ← sum, sum_nil, mul_zero, zero_mul]
      at ne
    exact ne rfl
  simp only [runKernel, if_neg count, isAxis, output, Int.toNat_natCast, collapsed, new,
    isInputs, bound, joined, some_, bind_eq_bind, bind_some, Bool.false_eq_true, if_false]

theorem concat_eq [Zero α] {w : Nat} {value : BitVec w} (some_ : ns ≠ [])
    (many : 2 ≤ ns.length ∨ input.numElements = 0)
    (denotes : Denotes input.length value axis) (name : AxisArgumentName) :
    ∃ first rest, pieces input axis values ns = first :: rest ∧
      compute name (scalar value) first rest = .ok (input, some (values.map some)) := by
  have shapes := @SplitOp.map_shape_pieces _ input axis values ns
  cases isPieces : pieces input axis values ns with
  | nil =>
    rw [isPieces] at shapes
    exact absurd (map_eq_nil_iff.mp shapes.symm) some_
  | cons first rest =>
    refine ⟨first, rest, rfl, ?_⟩
    cases ns with
    | nil => exact absurd rfl some_
    | cons n ms =>
      rw [isPieces, map_cons, map_cons] at shapes
      obtain ⟨isFirst, isRest⟩ := List.cons.inj shapes
      have sum : n + ms.sum = input.getD axis 0 := by rw [← sum_cons, cut.sum]
      have output : getOutputShape ⟨axis, n + ms.sum, input.set axis n⟩ = input := by
        rw [getOutputShape, Int.toNat_natCast, set_set, sum,
          getD_eq_getElem _ _ cut.inside, set_getElem_self]
      have empty := cut.all_empty_iff
      rw [map_cons, ← isFirst, ← isRest, ← map_cons] at empty
      rw [compute, isRest, isFirst, initHelper_set cut.inside denotes]
      change Except.ok _ = _
      rw [Except.ok.injEq, output, Prod.mk.injEq, ← isPieces]
      refine ⟨rfl, ?_⟩
      rw [← isPieces] at empty
      split
      case isTrue skip =>
        have none := empty.mp skip
        have length := cut.whole
        rw [none] at length
        rw [NoOpKernel.zeroed_of_empty none, length_eq_zero_iff.mp length]
        rfl
      case isFalse runs =>
        have xs := mt empty.mpr runs
        exact runKernel_eq cut xs (many.resolve_right xs) name rfl output

end Kernel

end TfDml.ConcatOp

namespace TfDml.SplitOp.SplitVCall

open List Option

open ConcatOp (AxisArgumentName Denotes Value scalar)
open GatherNd (IndexType)
open ScatterNd (indexWidth)

variable (c : SplitVCall)

def compute {α : Type} [Zero α] (values : List α) :
    Except Status (List TensorShape × Option (List (List (Option α)))) :=
  SplitOp.compute c.input c.splitDimTensor (some c.splitTensor) c.sizeSplits.length values

def Whole : Prop := (∀ size ∈ c.sizes, 0 ≤ size) ∧ c.sizes.sum = c.axisLength

/-- SplitV reports the shapes of its pieces, and either Concat joins them to the input. -/
def RoundTrips : Prop :=
  ∀ (α : Type) [Zero α] (values : List α), values.length = c.input.numElements →
    ∃ first : Value α, ∃ rest : List (Value α),
      c.compute values = .ok ((first :: rest).map Value.shape,
        some ((first :: rest).map fun piece => piece.values.map some)) ∧
      (first :: rest).map Value.shape = c.sizes.map (fun size => c.input.set c.axis size.toNat) ∧
      (∀ piece ∈ first :: rest, piece.values.length = piece.shape.numElements) ∧
      ∀ (name : AxisArgumentName) (index : IndexType) (concatDim : BitVec (indexWidth index)),
        Denotes c.input.length concatDim c.axis →
          ConcatOp.compute name (scalar concatDim) first rest =
            .ok (c.input, some (values.map some))

/-- The documented sizes are accepted, no others, and what they cut is joined again. -/
def Exact : Prop := (c.Accepts ↔ c.Valid) ∧ (c.Whole → c.RoundTrips)

variable {c}

theorem Whole.given_eq (whole : c.Whole) : -1 ∉ c.sizes := fun mem =>
  absurd (whole.1 _ mem) (by decide)

theorem Whole.valid (whole : c.Whole) : c.Valid := by
  have sizes : c.given = c.sizes := filter_given whole.given_eq
  rw [Valid, Natural, if_neg whole.given_eq, sizes, count_eq_zero.mpr whole.given_eq]
  exact ⟨⟨Nat.zero_le 1, whole.1⟩, whole.2⟩

theorem sum_map_toNat {sizes : List Int} (nat : ∀ size ∈ sizes, 0 ≤ size) :
    ((sizes.map Int.toNat).sum : Int) = sizes.sum := by
  induction sizes with
  | nil => rfl
  | cons size rest ih =>
    obtain ⟨first, later⟩ := forall_mem_cons.mp nat
    rw [map_cons, sum_cons, sum_cons, Nat.cast_add, ih later, Int.toNat_of_nonneg first]

theorem Whole.cut (whole : c.Whole) (small : c.axisLength < 2 ^ 31) {α : Type} {values : List α}
    (length : values.length = c.input.numElements) :
    Cut c.input c.axis values (c.sizes.map Int.toNat) where
  inside := c.axis_lt
  few := c.few
  whole := length
  sum := by
    have sum := sum_map_toNat whole.1
    rw [whole.2] at sum
    exact_mod_cast sum
  small := small

theorem Whole.compute_eq (whole : c.Whole) (accepts : c.Accepts) (lt : c.axisLength < 2 ^ 31)
    {α : Type} [Zero α] {values : List α} (length : values.length = c.input.numElements) :
    c.compute values = .ok ((pieces c.input c.axis values (c.sizes.map Int.toNat)).map Value.shape,
        some ((pieces c.input c.axis values (c.sizes.map Int.toNat)).map fun piece =>
          piece.values.map some)) := by
  obtain ⟨init, ok⟩ := accepts
  obtain ⟨sizes, isAxis⟩ := c.initHelper_eq_ok.mp ok
  have kept := ((splitVSizes_given whole.given_eq).mp sizes).2
  have shapes : getOutputShapes c.input init =
      (c.sizes.map Int.toNat).map (c.input.set c.axis ·) := by
    rw [getOutputShapes, ← kept, isAxis, List.map_map]
    rfl
  have split := (whole.cut lt length).split_eq isAxis
  rw [compute, SplitOp.compute, ← initHelper, ok]
  change Except.ok _ = _
  rw [shapes, split, map_shape_pieces]

theorem Whole.roundTrips (whole : c.Whole) (accepts : c.Accepts)
    (lt : c.axisLength < 2 ^ 31) (many : 2 ≤ c.sizeSplits.length ∨ c.input.numElements = 0) :
    c.RoundTrips := by
  intro α _ values length
  have cut := whole.cut lt length
  have some_ : c.sizes.map Int.toNat ≠ [] := by
    rw [Ne, map_eq_nil_iff, sizes, map_eq_nil_iff]
    exact c.several
  have count : 2 ≤ (c.sizes.map Int.toNat).length ∨ c.input.numElements = 0 := by
    rwa [length_map, sizes, length_map]
  have shapes := @map_shape_pieces _ c.input c.axis values (c.sizes.map Int.toNat)
  have eq := whole.compute_eq accepts lt length
  have lens : ∀ piece ∈ pieces c.input c.axis values (c.sizes.map Int.toNat),
      piece.values.length = piece.shape.numElements := fun _ => cut.length_of_mem_pieces
  cases isPieces : pieces c.input c.axis values (c.sizes.map Int.toNat) with
  | nil =>
    rw [isPieces] at shapes
    exact absurd (map_eq_nil_iff.mp shapes.symm) some_
  | cons first rest =>
    rw [isPieces] at shapes eq lens
    refine ⟨first, rest, eq, ?_, lens, fun name index concatDim denotes => ?_⟩
    · rw [shapes, List.map_map]
      rfl
    · obtain ⟨first', rest', same, joined⟩ :=
        ConcatOp.concat_eq cut some_ count denotes name
      obtain ⟨rfl, rfl⟩ := List.cons.inj (isPieces.symm.trans same)
      exact joined

theorem several_of_roundTrips (trips : c.RoundTrips) :
    2 ≤ c.sizeSplits.length ∨ c.input.numElements = 0 := by
  by_contra neither
  push Not at neither
  obtain ⟨single, some_⟩ := neither
  obtain ⟨first, rest, -, shapes, -, joins⟩ :=
    trips Nat (List.replicate c.input.numElements 1) length_replicate
  have pos : 0 < c.sizeSplits.length := length_pos_iff.mpr c.several
  have lens := congrArg List.length shapes
  rw [length_map, length_map, sizes, length_map, length_cons] at lens
  obtain rfl : rest = [] := length_eq_zero_iff.mp (by omega)
  have joined := joins .nameIsAxis .int32 c.splitDim c.axis_eq.symm
  rw [ConcatOp.compute, bind_eq_ok] at joined
  obtain ⟨init, -, made⟩ := joined
  have output := congrArg Prod.snd (Except.ok.inj made)
  simp only at output
  split at output
  case isTrue =>
    have mem : some 1 ∈ (List.replicate c.input.numElements 1).map some :=
      List.mem_map_of_mem (mem_replicate.mpr ⟨some_, rfl⟩)
    rw [← some.inj output] at mem
    exact absurd (eq_of_mem_replicate mem) (by decide)
  case isFalse =>
    have refused : ConcatOp.runKernel init (ConcatOp.kernelInputs .nameIsAxis [first]) = none := rfl
    rw [refused] at output
    cases output

theorem split_exact_iff (c : SplitVCall) : c.Exact ↔ (c.Natural → ¬ c.Narrowed ∧ ¬ c.Wrapped) ∧
      (c.Whole → 2 ≤ c.sizeSplits.length ∨ c.input.numElements = 0) := by
  rw [Exact, accepts_iff_valid]
  constructor
  · rintro ⟨sizes, trips⟩
    exact ⟨sizes, fun whole => several_of_roundTrips (trips whole)⟩
  · rintro ⟨sizes, many⟩
    refine ⟨sizes, fun whole => ?_⟩
    have valid := whole.valid
    have notNarrowed := (sizes valid.1).1
    have lt : c.axisLength < 2 ^ 31 := by
      by_contra large
      refine notNarrowed ⟨by omega, ?_⟩
      rw [if_neg whole.given_eq]
      have sum := valid.2
      rwa [if_neg whole.given_eq] at sum
    exact whole.roundTrips (c.accepts_iff_valid.mpr sizes |>.mpr valid) lt (many whole)

/-- Three sizes whose sum is the axis modulo `2 ^ 64`. -/
def wrappedSizes : SplitVCall where
  index := .int64
  input := [4]
  splitDim := 0
  sizeSplits := [9223372036854775807#64, 9223372036854775807#64, 6#64]
  inRange := by decide
  few := by decide
  sized := by decide
  several := by decide

theorem wrappedSizes_not_exact : ¬ wrappedSizes.Exact := by
  rintro ⟨sizes, -⟩
  have given : -1 ∉ wrappedSizes.sizes := by decide +kernel
  have fits : wrappedSizes.Fits := by
    rw [Fits, if_neg given]
    decide +kernel
  have ok := wrappedSizes.accepts_iff.mpr ⟨⟨by decide +kernel, by decide +kernel⟩, fits⟩
  have sum := (sizes.mp ok).2
  rw [if_neg given] at sum
  exact absurd sum (by decide +kernel)

end TfDml.SplitOp.SplitVCall
