import TfDml.Core.WindowArithmetic
import TfDml.Kernels.ExtractPatchesReference

/-! # The constructors of the patches' operators

The attributes of a call are accepted. Its windows are those of the reference unless an `int` does
not hold a size.
-/

namespace TfDml.ExtractPatches

open Lib List Option
open StridedSlice (i32 u32 i32_of_bounds u32_natCast)

theorem int_eq_some {n m : Int} : int n = some m ↔ m = n ∧ -2 ^ 31 ≤ n ∧ n < 2 ^ 31 := by
  rw [int, ite_none_right_eq_some, Option.some.injEq, eq_comm (a := n), and_comm]

theorem checked64_of_small {n : Int} (above : -2 ^ 33 ≤ n) (below : n < 2 ^ 33) :
    checked64 n = some n :=
  checked64_of_bounds (by omega) (by omega)

theorem eq_of_checked64 {n m : Int} (got : checked64 n = some m) : m = n :=
  (checked64_eq_some.mp got).1

namespace Window

variable (w : Window)

theorem reach_eq : ((w.ksize : Int) + (w.ksize - 1) * (w.rate - 1)) = w.reach := by
  rw [reach, Nat.cast_add, Nat.cast_mul, Nat.cast_sub w.ksize_pos]
  push_cast
  ring

theorem ksizeEff_eq_some {filter : Int} :
    ksizeEff w.ksize w.rate = some filter ↔ filter = w.reach ∧ w.reach < 2 ^ 31 := by
  have size := w.ksize_pos
  have sizeSmall := w.ksize_lt
  have rate := w.rate_pos
  have rateSmall := w.rate_lt
  have holes : (0 : Int) ≤ (w.ksize - 1) * (w.rate - 1) := mul_nonneg (by omega) (by omega)
  have whole := w.reach_eq
  simp only [ksizeEff, bind_eq_bind, bind_eq_some_iff, int_eq_some]
  constructor
  · rintro ⟨_, ⟨rfl, -⟩, _, ⟨rfl, -⟩, _, ⟨rfl, -⟩, rfl, -, lt⟩
    exact ⟨whole, by omega⟩
  · rintro ⟨rfl, lt⟩
    exact ⟨_, ⟨rfl, by omega⟩, _, ⟨rfl, by omega⟩, _, ⟨rfl, by omega⟩, whole.symm, by omega⟩

theorem filterSize_eq_some {op : Op} (volume : op = .volume → w.rate = 1) {filter : Int} :
    filterSize op w.ksize w.rate = some filter ↔ filter = w.reach ∧ w.reach < 2 ^ 31 := by
  have sizeSmall := w.ksize_lt
  have rateSmall := w.rate_lt
  have size : i32 w.ksize = w.ksize := i32_of_bounds (by omega) (by omega)
  cases op with
  | image =>
    have rate : i32 w.rate = w.rate := i32_of_bounds (by omega) (by omega)
    rw [filterSize, size, rate, ksizeEff_eq_some]
  | volume =>
    have same : w.reach = w.ksize := by
      have pos := w.ksize_pos
      rw [reach, volume rfl]
      omega
    rw [filterSize, size, Option.some.injEq, same]
    exact ⟨fun got => ⟨got.symm, sizeSmall⟩, fun got => got.1.symm⟩

theorem start_lt (some_ : 0 < w.count .same) : (w.count .same - 1) * w.stride < w.size := by
  have stride := w.stride_pos
  have whole := Nat.div_mul_le_self (w.size + w.stride - 1) w.stride
  have start : (w.count .same - 1) * w.stride + w.stride ≤ w.size + w.stride - 1 := by
    rw [← Nat.succ_mul, Nat.succ_eq_add_one, Nat.sub_add_cancel some_]
    exact whole
  omega

theorem count_le : w.count .same ≤ w.size + w.stride - 1 := Nat.div_le_self _ _

theorem missing_eq : max 0 ((((w.count .same - 1) * w.stride : Nat) : Int) + w.reach - w.size) =
      w.missing .same := by
  rw [missing]
  omega

theorem half_missing : (w.missing .same : Int).tdiv 2 = (w.missing .same / 2 : Nat) :=
  (Int.tdiv_eq_ediv_of_nonneg (by omega)).trans (Int.natCast_ediv _ _).symm

theorem windowedOutput_eq {padding : Padding} (implicit : padding ≠ .explicit)
    (some_ : 0 < w.count padding) (size : w.size < 2 ^ 31) (filter : w.reach < 2 ^ 31) :
    windowedOutput padding ((w.size, w.stride), w.reach) =
      some (.ok ⟨w.count padding, (w.padDim padding).before, (w.padDim padding).after⟩) := by
  have stride := w.stride_pos
  have strideSmall := w.stride_lt
  have reach := w.reach_pos
  have inputSize : i32 w.size = w.size := i32_of_bounds (by omega) (by omega)
  have strided : i32 w.stride = w.stride := i32_of_bounds (by omega) (by omega)
  have spread : checked64 ((w.reach : Int) - 1) = some ((w.reach : Int) - 1) :=
    checked64_of_small (by omega) (by omega)
  have effective : checked64 ((w.reach : Int) - 1 + 1) = some (w.reach : Int) :=
    (checked64_of_small (by omega) (by omega)).trans (congrArg some (by omega))
  rw [windowedOutput, inputSize, strided, getWindowedOutputSizeVerboseV2, if_neg (by omega),
    if_neg (by decide)]
  simp only [bind_eq_bind, mul_one, spread, effective, bind_some]
  cases padding with
  | explicit => exact absurd rfl implicit
  | valid =>
    have enough := (Nat.div_pos_iff.mp some_).2
    have free : checked64 ((w.size : Int) - w.reach) = some ((w.size : Int) - w.reach) :=
      checked64_of_small (by omega) (by omega)
    have rounded : checked64 ((w.size : Int) - w.reach + w.stride) =
        some ((w.size + w.stride - w.reach : Nat) : Int) :=
      (checked64_of_small (by omega) (by omega)).trans (congrArg some (by omega))
    have count : ((w.size + w.stride - w.reach : Nat) : Int).tdiv w.stride = w.count .valid := by
      rw [Int.tdiv_eq_ediv_of_nonneg (by omega)]
      exact (Int.natCast_ediv _ _).symm
    simp only [free, rounded, bind_some, count]
    rw [if_neg (by omega)]
    simp [padDim, Window.missing]
  | same =>
    have count : ((w.size + w.stride - 1 : Nat) : Int).tdiv w.stride = w.count .same := by
      rw [Int.tdiv_eq_ediv_of_nonneg (by omega)]
      exact (Int.natCast_ediv _ _).symm
    have start := w.start_lt some_
    have bound := w.count_le
    have last : ((w.count .same : Int) - 1) * w.stride =
        ((w.count .same - 1) * w.stride : Nat) := by
      rw [Nat.cast_mul, Nat.cast_sub some_]
      rfl
    have needed := w.missing_eq
    have half := w.half_missing
    generalize (w.count .same - 1) * w.stride = first at start last needed
    have shifted : checked64 ((w.size : Int) + w.stride) = some ((w.size : Int) + w.stride) :=
      checked64_of_small (by omega) (by omega)
    have rounded : checked64 ((w.size : Int) + w.stride - 1) =
        some ((w.size + w.stride - 1 : Nat) : Int) :=
      (checked64_of_small (by omega) (by omega)).trans (congrArg some (by omega))
    have pre : checked64 ((w.count .same : Int) - 1) = some ((w.count .same : Int) - 1) :=
      checked64_of_small (by omega) (by omega)
    have firstFits : checked64 (first : Int) = some (first : Int) :=
      checked64_of_small (by omega) (by omega)
    have covered : checked64 ((first : Int) + w.reach) = some ((first : Int) + w.reach) :=
      checked64_of_small (by omega) (by omega)
    have missing : checked64 ((first : Int) + w.reach - w.size) =
        some ((first : Int) + w.reach - w.size) :=
      checked64_of_small (by omega) (by omega)
    simp only [shifted, rounded, bind_some, count, pre, last]
    rw [firstFits, bind_some, covered, bind_some, missing, bind_some, needed,
      half, if_neg (by omega)]
    refine congrArg (some ∘ Except.ok) (congrArg (WindowedOutput.mk _ _) ?_)
    simp only [padDim]
    omega

theorem size_pos_of_windowedOutput {padding : Padding} (implicit : padding ≠ .explicit)
    {win : WindowedOutput} (some_ : 0 < win.outputSize)
    (got : windowedOutput padding ((w.size, w.stride), w.reach) = some (.ok win)) :
    0 < i32 w.size := by
  have stride := w.stride_pos
  have strideSmall := w.stride_lt
  have reach := w.reach_pos
  have strided : i32 w.stride = w.stride := i32_of_bounds (by omega) (by omega)
  rw [windowedOutput, strided, getWindowedOutputSizeVerboseV2, if_neg (by omega),
    if_neg (by decide)] at got
  cases padding with
  | explicit => exact absurd rfl implicit
  | valid =>
    simp only [bind_eq_bind, bind_eq_some_iff] at got
    obtain ⟨_, isReach, _, isSpread, _, isEffective, _, isFree, _, isRounded, _, same, result⟩ :=
      got
    obtain rfl := some.inj same
    split at result
    · cases result
    obtain rfl := Except.ok.inj (some.inj result)
    have enough := le_of_tdiv_pos (by omega) some_
    have run := eq_of_checked64 isReach
    have spread := eq_of_checked64 isSpread
    have effective := eq_of_checked64 isEffective
    have free := eq_of_checked64 isFree
    have rounded := eq_of_checked64 isRounded
    omega
  | same =>
    simp only [bind_eq_bind, bind_eq_some_iff] at got
    obtain ⟨_, -, _, -, _, -, _, isShifted, _, isRounded, _, -, _, -, _, -, _, -, _, same,
      result⟩ := got
    obtain rfl := some.inj same
    split at result
    · cases result
    obtain rfl := Except.ok.inj (some.inj result)
    have enough := le_of_tdiv_pos (by omega) some_
    have shifted := eq_of_checked64 isShifted
    have rounded := eq_of_checked64 isRounded
    omega

end Window

theorem windowedOutputs_eq_some {padding : Padding} {axes : List ((Nat × Nat) × Int)}
    {windows : List WindowedOutput} : windowedOutputs padding axes = some (.ok windows) ↔
      List.Forall₂ (fun axis win => windowedOutput padding axis = some (.ok win)) axes
        windows := by
  induction axes generalizing windows with
  | nil =>
    rw [windowedOutputs, forall₂_nil_left_iff]
    exact ⟨fun got => (Except.ok.inj (some.inj got)).symm, fun got => by rw [got]⟩
  | cons axis rest ih =>
    rw [windowedOutputs, forall₂_cons_left_iff]
    constructor
    · intro got
      simp only [bind_eq_bind, bind_eq_some_iff] at got
      obtain ⟨first, isFirst, got⟩ := got
      cases first with
      | error status => cases got
      | ok win =>
        simp only [bind_eq_some_iff] at got
        obtain ⟨others, isOthers, got⟩ := got
        cases others with
        | error status => cases got
        | ok others =>
          obtain rfl := Except.ok.inj (some.inj got)
          exact ⟨win, others, isFirst, ih.mp isOthers, rfl⟩
    · rintro ⟨win, others, isFirst, isOthers, rfl⟩
      simp only [isFirst, ih.mpr isOthers, bind_eq_bind, bind_some]
      rfl

theorem foldlM_int {l : List Int} {n m : Int}
    (got : l.foldlM (fun n k => int (n * k)) n = some m) :
    m = n * l.prod ∧ (l ≠ [] → m < 2 ^ 31) := by
  induction l generalizing n with
  | nil =>
    obtain rfl := some.inj got
    exact ⟨(mul_one n).symm, fun absurd_ => absurd rfl absurd_⟩
  | cons k rest ih =>
    rw [foldlM_cons, bind_eq_bind, bind_eq_some_iff] at got
    obtain ⟨_, first, later⟩ := got
    obtain ⟨rfl, -, lt⟩ := int_eq_some.mp first
    obtain ⟨rfl, below⟩ := ih later
    refine ⟨by rw [prod_cons, mul_assoc], fun _ => ?_⟩
    cases rest with
    | nil => rwa [prod_nil, mul_one]
    | cons _ _ => exact below (cons_ne_nil _ _)

theorem foldlM_int_eq {l : List Nat} {n : Nat} (pos : ∀ k ∈ l, 1 ≤ k)
    (lt : n * l.prod < 2 ^ 31) : (l.map Int.ofNat).foldlM (fun n k => int (n * k)) (n : Int) =
      some ((n * l.prod : Nat) : Int) := by
  induction l generalizing n with
  | nil => simp
  | cons k rest ih =>
    rw [forall_mem_cons] at pos
    rw [prod_cons, ← mul_assoc] at lt ⊢
    have below : n * k < 2 ^ 31 := lt_of_le_of_lt
      (Nat.le_mul_of_pos_right _ (List.prod_pos_iff_forall_pos_nat.mpr pos.2)) lt
    have first : int ((n : Int) * Int.ofNat k) = some ((n * k : Nat) : Int) :=
      int_eq_some.mpr ⟨by simp, by simp; omega⟩
    rw [map_cons, foldlM_cons, first, bind_eq_bind, bind_some]
    exact ih pos.2 lt

namespace Call

variable (call : Call)

def attributes : Attributes :=
  ⟨call.vector Window.ksize, call.vector Window.stride, call.vector Window.rate⟩

def init : Init where
  outputShape := call.outputShape.map Int.ofNat
  startPadding := call.padDims.map PadDim.before
  endPadding := call.padDims.map PadDim.after

theorem parse_vector (attrName : String) {f : Window → Nat} (pos : ∀ w, 1 ≤ f w)
    (lt : ∀ w, f w < 2 ^ 31) :
    parseAttributeVec attrName ((call.vector f).map Int.ofNat) = .ok (call.vector f) := by
  have ends : ((call.vector f).map Int.ofNat).head? = some 1 ∧
      ((call.vector f).map Int.ofNat).getLast? = some 1 := by
    rw [vector, map_append, map_append]
    exact ⟨rfl, getLast?_concat⟩
  have mid : middle ((call.vector f).map Int.ofNat) = (call.windows.map f).map Int.ofNat := by
    rw [vector, map_append, map_append]
    exact middle_between _ _ _
  have above : ((call.windows.map f).map Int.ofNat).all (1 ≤ ·) = true := by
    refine List.all_eq_true.mpr fun k mem => ?_
    obtain ⟨_, inside, rfl⟩ := List.mem_map.mp mem
    obtain ⟨w, -, rfl⟩ := List.mem_map.mp inside
    have least := pos w
    simpa using least
  have same : ((call.vector f).map Int.ofNat).map u32 = call.vector f := by
    rw [List.map_map]
    refine (map_congr_left fun k mem => ?_).trans (List.map_id _)
    refine u32_natCast ?_
    rw [vector, mem_append, mem_append, mem_singleton] at mem
    rcases mem with (rfl | inside) | rfl
    · decide
    · obtain ⟨w, -, rfl⟩ := List.mem_map.mp inside
      exact lt_trans (lt w) (by decide)
    · decide
  rw [parseAttributeVec, ends.1, ends.2, mid, above, same]
  rfl

theorem attributes_eq : ExtractPatches.attributes call.toArguments = .ok call.attributes := by
  have ksizes := call.parse_vector "ksizes" Window.ksize_pos Window.ksize_lt
  have strides := call.parse_vector "strides" Window.stride_pos Window.stride_lt
  rw [ExtractPatches.attributes, show call.toArguments.op = call.op from rfl]
  simp only [toArguments, ksizes, strides]
  cases isOp : call.op with
  | image =>
    simp only [call.parse_vector "rates" Window.rate_pos Window.rate_lt]
    rfl
  | volume =>
    have ones : call.vector Window.rate = [1, 1, 1, 1, 1] := by
      have three := call.rank
      have one : call.windows.map Window.rate = List.replicate 3 1 := by
        refine eq_replicate_iff.mpr ⟨?_, fun k mem => ?_⟩
        · rw [length_map, three, isOp]
          rfl
        · obtain ⟨w, lt, rfl⟩ := List.mem_map.mp mem
          exact call.volume isOp w lt
      rw [vector, one]
      rfl
    rw [attributes, ones]
    rfl

/-- What the elements of a dimension have to be for `int`s to hold them. -/
structure Sized : Prop where
  batch : call.batch < 2 ^ 31
  sizes : ∀ w ∈ call.windows, w.size < 2 ^ 31
  reaches : ∀ w ∈ call.windows, w.reach < 2 ^ 31
  channels : call.ksizes.prod * call.depth < 2 ^ 31

theorem input_eq : call.input = [call.batch] ++ call.windows.map Window.size ++ [call.depth] := by
  rw [input, padDims, map_append, map_append, List.map_map]
  rfl

theorem initHelper_eq : initHelper call.toArguments call.attributes = (do
    let filters ← call.windows.mapM fun w => filterSize call.op w.ksize w.rate
    match ← windowedOutputs call.padding
        ((call.windows.map fun w => (w.size, w.stride)).zip filters) with
    | .error status => return .error status
    | .ok windows =>
      let channels ← (call.ksizes.map (fun ksize : Nat => i32 ksize) ++ [i32 call.depth]).foldlM
        (fun (n : Int) k => int (n * k)) 1
      return .ok
        ⟨[i32 call.batch] ++ windows.map WindowedOutput.outputSize ++ [channels],
          [0] ++ windows.map (fun window => u32 window.paddingBefore) ++ [0],
          [0] ++ windows.map (fun window => u32 window.paddingAfter) ++ [0]⟩) := by
  have rank : call.input.length = call.op.spatialDims + 2 := by
    rw [call.input_eq, ← call.rank]
    simp
  have batch : call.input.getD 0 0 = call.batch := by
    rw [call.input_eq]
    rfl
  have depth : call.input.getD (call.op.spatialDims + 1) 0 = call.depth := by
    rw [call.input_eq, ← call.rank]
    simp
  rw [initHelper]
  simp only [toArguments, attributes, rank, batch, depth]
  rw [if_neg (by simp)]
  rw [call.input_eq, vector, vector, vector, middle_between, middle_between, middle_between,
    middle_between, zip_map', zip_map', mapM_map]
  rfl

theorem padding_lt {w : Window} {padding : Padding} (some_ : 0 < w.count padding)
    (size : w.size < 2 ^ 31) (reach : w.reach < 2 ^ 31) : w.missing padding < 2 ^ 32 := by
  cases padding with
  | same =>
    have start := w.start_lt some_
    rw [Window.missing]
    omega
  | valid => exact (by decide : 0 < 2 ^ 32)
  | explicit => exact (by decide : 0 < 2 ^ 32)

theorem depth_le : call.depth ≤ call.ksizes.prod * call.depth := by
  refine Nat.le_mul_of_pos_left _ (List.prod_pos_iff_forall_pos_nat.mpr fun k mem => ?_)
  obtain ⟨w, -, rfl⟩ := List.mem_map.mp mem
  exact w.ksize_pos

variable {call}

theorem construct_eq (sized : call.Sized) (depth : 0 < call.depth)
    (some_ : ∀ w ∈ call.windows, 0 < w.count call.padding) :
    construct call.toArguments = some (.ok (call.attributes, call.init)) := by
  have filters : (call.windows.mapM fun w => filterSize call.op w.ksize w.rate) =
      some (call.windows.map fun w => (w.reach : Int)) :=
    mapM_eq_some fun w mem => (w.filterSize_eq_some fun isOp => call.volume isOp w mem).mpr
      ⟨rfl, sized.reaches w mem⟩
  have windows : windowedOutputs call.padding ((call.windows.map fun w => (w.size, w.stride)).zip
      (call.windows.map fun w => (w.reach : Int))) =
      some (.ok (call.windows.map fun w => (⟨w.count call.padding,
        (w.padDim call.padding).before, (w.padDim call.padding).after⟩ : WindowedOutput))) := by
    rw [zip_map', windowedOutputs_eq_some, forall₂_map_left_iff, forall₂_map_right_iff]
    exact forall₂_same.mpr fun w mem => w.windowedOutput_eq call.implicit (some_ w mem)
      (sized.sizes w mem) (sized.reaches w mem)
  have deep := lt_of_le_of_lt call.depth_le sized.channels
  have batch : i32 call.batch = call.batch :=
    i32_of_bounds (by omega) (by exact_mod_cast sized.batch)
  have factors : call.ksizes.map (fun ksize : Nat => i32 ksize) ++ [i32 call.depth] =
      (call.ksizes ++ [call.depth]).map Int.ofNat := by
    rw [map_append, i32_of_bounds (by omega) (by exact_mod_cast deep)]
    refine congrArg (· ++ _) (map_congr_left fun k mem => ?_)
    obtain ⟨w, -, rfl⟩ := List.mem_map.mp mem
    have small := w.ksize_lt
    exact i32_of_bounds (by omega) (by omega)
  have prod : (call.ksizes ++ [call.depth]).prod = call.ksizes.prod * call.depth := by
    rw [prod_append, prod_singleton]
  have pos : ∀ k ∈ call.ksizes ++ [call.depth], 1 ≤ k := by
    intro k mem
    rw [mem_append, mem_singleton] at mem
    rcases mem with lt | rfl
    · obtain ⟨w, -, rfl⟩ := List.mem_map.mp lt
      exact w.ksize_pos
    · exact depth
  have channels : (call.ksizes.map (fun ksize : Nat => i32 ksize) ++ [i32 call.depth]).foldlM
      (fun (n : Int) k => int (n * k)) 1 = some ((call.ksizes.prod * call.depth : Nat) : Int) := by
    have fold := @foldlM_int_eq _ 1 pos (by rw [prod, one_mul]; exact sized.channels)
    rw [one_mul, prod] at fold
    rw [factors]
    exact fold
  have pre : ∀ w ∈ call.windows,
      u32 ((w.padDim call.padding).before : Int) = (w.padDim call.padding).before ∧
        u32 ((w.padDim call.padding).after : Int) = (w.padDim call.padding).after := by
    intro w mem
    have small := padding_lt (some_ w mem) (sized.sizes w mem) (sized.reaches w mem)
    have halves : (w.padDim call.padding).before + (w.padDim call.padding).after =
        w.missing call.padding := by
      simp only [Window.padDim]
      omega
    exact ⟨u32_natCast (by omega), u32_natCast (by omega)⟩
  rw [construct, call.attributes_eq]
  simp only [call.initHelper_eq, filters, windows, channels, batch, bind_eq_bind,
    bind_some, List.map_map]
  refine congrArg (fun init => some (Except.ok (call.attributes, init))) ?_
  rw [init, Init.mk.injEq]
  refine ⟨?_, ?_, ?_⟩
  · rw [outputShape, counts, map_append, map_append, List.map_map]
    rfl
  · rw [padDims, map_append, map_append, List.map_map]
    exact congrArg (fun inner => [0] ++ inner ++ [0])
      (map_congr_left fun w mem => (pre w mem).1)
  · rw [padDims, map_append, map_append, List.map_map]
    exact congrArg (fun inner => [0] ++ inner ++ [0])
      (map_congr_left fun w mem => (pre w mem).2)

theorem bounds_of_construct {attr : Attributes} {init : Init}
    (constructed : construct call.toArguments = some (.ok (attr, init)))
    (shape : init.outputShape = call.outputShape.map Int.ofNat)
    (some_ : ∀ w ∈ call.windows, 0 < w.count call.padding) :
    call.batch < 2 ^ 31 ∧ (∀ w ∈ call.windows, w.reach < 2 ^ 31 ∧ 0 < i32 w.size) ∧
      call.ksizes.prod * call.depth < 2 ^ 31 := by
  rw [construct, call.attributes_eq] at constructed
  simp only [call.initHelper_eq, bind_eq_bind, bind_eq_some_iff] at constructed
  obtain ⟨_, ⟨filters, isFilters, windows, isWindows, made⟩, result⟩ := constructed
  cases windows with
  | error status =>
    obtain rfl := some.inj made
    cases result
  | ok windows =>
    simp only [bind_eq_some_iff] at made
    obtain ⟨channels, isChannels, made⟩ := made
    obtain rfl := some.inj made
    obtain ⟨rfl, rfl⟩ := Prod.mk.inj (Except.ok.inj (some.inj result))
    simp only [outputShape, map_append] at shape
    obtain ⟨front, last⟩ := append_inj' shape rfl
    obtain ⟨first, outs⟩ := append_inj front (by simp)
    have batch := (List.cons.inj first).1
    have output := (List.cons.inj last).1
    have below : i32 call.batch < (2 ^ 32 + 1) / 2 := Int.bmod_lt (by decide)
    have product := (foldlM_int isChannels).2 (by simp)
    have reaches : ∀ w ∈ call.windows, w.reach < 2 ^ 31 := by
      intro w mem
      obtain ⟨filter, got⟩ := exists_of_mapM isFilters mem
      exact ((w.filterSize_eq_some fun isOp => call.volume isOp w mem).mp got).2
    have filtered := mapM_eq_some (f := fun w : Window => filterSize call.op w.ksize w.rate)
      (g := fun w => (w.reach : Int)) (l := call.windows) fun w mem =>
      (w.filterSize_eq_some fun isOp => call.volume isOp w mem).mpr ⟨rfl, reaches w mem⟩
    rw [filtered] at isFilters
    obtain rfl := some.inj isFilters
    rw [zip_map', windowedOutputs_eq_some, forall₂_map_left_iff] at isWindows
    refine ⟨?_, fun w mem => ⟨reaches w mem, ?_⟩, ?_⟩
    · rw [batch] at below
      exact Int.ofNat_lt.mp (lt_of_lt_of_eq below (by decide))
    · obtain ⟨i, lt, rfl⟩ := getElem_of_mem mem
      have length := isWindows.length_eq
      have here := forall₂_iff_get.mp isWindows
      have got := here.2 i lt (by omega)
      refine Window.size_pos_of_windowedOutput _ call.implicit ?_ got
      have same : (windows.map WindowedOutput.outputSize)[i]? =
          (call.counts.map Int.ofNat)[i]? := by
        rw [outs]
      have within : i < windows.length := length ▸ lt
      rw [counts, List.map_map, getElem?_map, getElem?_map,
        getElem?_eq_getElem within, getElem?_eq_getElem lt] at same
      have pos := Int.natCast_pos.mpr (some_ _ mem)
      rw [get_eq_getElem, some.inj same]
      exact pos
    · rw [output] at product
      exact Int.ofNat_lt.mp (lt_of_lt_of_eq product (by decide))

end Call

end TfDml.ExtractPatches
