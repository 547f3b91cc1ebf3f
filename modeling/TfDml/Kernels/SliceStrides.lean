import TfDml.Kernels.SlicePositions
import TfDml.Kernels.SliceSlots

/-! # Strides of more than 32 bits

`ValidateStridedSliceOp` divides by the strides as they are, `SimplifySlice` by what
is left of them in an `int32_t`. The two agree on the number of elements as long as
the stride that is left takes as many of every dimension.
-/

namespace TfDml.StridedSlice

open Lib List

/-- The process gets through, and the sizes it computes have as many elements as the processing
    shape. -/
def Counted (spec : SliceSpec) : Prop :=
  ∃ simplified, simplifySlice spec.dims = .ok simplified ∧ ∀ slice, simplified = some slice →
      slice.outputSizes.prod = spec.processingShape.numElements

/-- The stride fits an `int32_t`, or what is left of it has its direction and still steps over
    the whole interval. -/
def ProcessingDim.Kept (d : ProcessingDim) : Prop :=
  i32 d.stride = d.stride ∨
    (0 < i32 d.stride ↔ 0 < d.stride) ∧ (d.end_ - d.begin_).natAbs ≤ (i32 d.stride).natAbs

/-- The interval has no elements, and neither has the dim that is made of it: `window_size - 1`
    wraps around, and only division by one and the addition of one wrap it back. -/
def ProcessingDim.SeenEmpty (d : ProcessingDim) : Prop :=
  d.begin_ = d.end_ ∧ (i32 d.stride).natAbs = 1 ∧ ¬ (d.dim = 0 ∧ i32 d.stride = 1)

/-- No stride vanishes in 32 bits. If sizes are returned at all, the strides take what they took
    before, or an empty interval of an empty result is seen. -/
def StridesSurvive (spec : SliceSpec) : Prop :=
  (∀ d ∈ spec.dims, ¬ 2 ^ 32 ∣ d.stride) ∧ (slots spec.dims ≤ maxOutputSize →
      (0 < spec.processingShape.numElements → ∀ d ∈ spec.dims, d.Kept) ∧
        (spec.processingShape.numElements = 0 → ∃ d ∈ spec.dims, d.SeenEmpty))

instance (d : ProcessingDim) : Decidable d.Kept := inferInstanceAs (Decidable (_ ∨ _))

instance (d : ProcessingDim) : Decidable d.SeenEmpty := inferInstanceAs (Decidable (_ ∧ _))

/-- The elements of a shape without its empty dimensions. -/
def extent (shape : TensorShape) : Nat := (shape.filter (0 < ·)).prod

def ProcessingDim.span (d : ProcessingDim) : Int :=
  if 0 < i32 d.stride then d.end_ - d.begin_ else d.begin_ - d.end_

theorem i32_bounds (n : Int) : -2 ^ 31 ≤ i32 n ∧ i32 n < 2 ^ 31 := by
  have above := Int.le_bmod (x := n) (m := 2 ^ 32) (by decide)
  have below := Int.bmod_lt (x := n) (m := 2 ^ 32) (by decide)
  rw [i32]
  omega

theorem le_natAbs_of_i32_ne {n : Int} (changed : i32 n ≠ n) : 2 ^ 31 ≤ n.natAbs := by
  by_contra lt
  exact changed (i32_of_bounds (by omega) (by omega))

theorem divisor_eq_natAbs (stride : Int) :
    (if 0 < i32 stride then u32 (i32 stride) else u32 (-i32 stride)) = (i32 stride).natAbs := by
  have bounds := i32_bounds stride
  split
  · rw [u32_of_bounds (by omega) (by omega)]
    omega
  · rw [u32_of_bounds (by omega) (by omega)]
    omega

theorem window_outputSize {d : ProcessingDim} {w : Window} (is : window d = .ok w) : w.outputSize =
      u32 (1 + u32 ((u32 d.span : Int) - 1) / ((i32 d.stride).natAbs : Int)) := by
  by_cases below : d.end_ < -1
  · simp [window, below] at is
  · simp only [window, if_neg below, divisor_eq_natAbs] at is
    by_cases zero : (i32 d.stride).natAbs = 0
    · simp [zero] at is
    · rw [if_neg zero, Except.ok.injEq] at is
      subst is
      simp only [ProcessingDim.span, apply_ite u32]

theorem outputSize_of_span {d : ProcessingDim} {w : Window} (is : window d = .ok w)
    (seen : 0 < u32 d.span) : w.outputSize = 1 + (u32 d.span - 1) / (i32 d.stride).natAbs := by
  have lt : u32 d.span < 2 ^ 32 := by
    rw [u32]
    omega
  rw [window_outputSize is, u32_outputSize seen lt]

theorem narrowed_ne_zero {d : ProcessingDim} {w : Window} (is : window d = .ok w) :
    i32 d.stride ≠ 0 := by
  intro zero
  have gone : u32 0 = 0 := rfl
  by_cases below : d.end_ < -1
  · simp [window, below] at is
  · simp [window, below, zero, gone] at is

theorem outputSize_of_emptySpan {d : ProcessingDim} {w : Window} (is : window d = .ok w)
    (empty : u32 d.span = 0) : w.outputSize = 0 ↔ (i32 d.stride).natAbs = 1 := by
  have ne := narrowed_ne_zero is
  have wrapped : u32 ((0 : Nat) - 1 : Int) = 2 ^ 32 - 1 := rfl
  rw [window_outputSize is, empty, wrapped]
  by_cases one : (i32 d.stride).natAbs = 1
  · rw [one]
    decide
  · have half : (2 ^ 32 - 1) / (i32 d.stride).natAbs ≤ (2 ^ 32 - 1) / 2 :=
      Nat.div_le_div_left (by omega) (by decide)
    have cut : u32 (1 + ((2 ^ 32 - 1 : Nat) : Int) / ((i32 d.stride).natAbs : Int)) =
        1 + (2 ^ 32 - 1) / (i32 d.stride).natAbs := by
      rw [← Int.natCast_ediv, ← Nat.cast_one, ← Nat.cast_add, u32_natCast (by omega)]
    rw [cut]
    exact iff_of_false (Nat.ne_of_gt (Nat.add_pos_left one_pos _)) one

theorem ProcessingDim.span_of_taken {d : ProcessingDim} (taken : d.Taken) :
    d.span = if 0 < i32 d.stride ↔ 0 < d.stride then ((d.end_ - d.begin_).natAbs : Int)
      else -((d.end_ - d.begin_).natAbs : Int) := by
  unfold span
  rcases taken.direction with ⟨up, first, long, last⟩ | ⟨down, first, long, last⟩
  · by_cases same : 0 < i32 d.stride
    · simp only [same, up, if_true]
      omega
    · simp only [same, up, iff_true, if_false]
      omega
  · by_cases same : 0 < i32 d.stride
    · simp only [same, Int.not_lt.mpr (Int.le_of_lt down), iff_false, not_true, if_false, if_true]
      omega
    · simp only [same, Int.not_lt.mpr (Int.le_of_lt down), if_false, if_true]
      omega

theorem ProcessingDim.Taken.interval_pos {d : ProcessingDim} (taken : d.Taken) :
    0 < (d.end_ - d.begin_).natAbs := by
  rcases taken.direction with bounds | bounds
  · omega
  · omega

theorem ProcessingDim.Taken.interval_le {d : ProcessingDim} (taken : d.Taken) :
    (d.end_ - d.begin_).natAbs ≤ d.dim := by
  rcases taken.direction with bounds | bounds
  · omega
  · omega

theorem ProcessingDim.Taken.size_eq_one {d : ProcessingDim} (taken : d.Taken)
    (long : (d.end_ - d.begin_).natAbs ≤ d.stride.natAbs) : d.size = 1 := by
  have pos := taken.interval_pos
  rw [taken.size, Nat.div_eq_of_lt (by omega)]

theorem outputSize_of_kept {d : ProcessingDim} {w : Window} (taken : d.Taken)
    (is : window d = .ok w) (small : d.dim < 2 ^ 32) (kept : d.Kept) : w.outputSize = d.size := by
  have pos := taken.interval_pos
  have lt := taken.interval_le
  have same : 0 < i32 d.stride ↔ 0 < d.stride := by
    rcases kept with unchanged | ⟨same, -⟩
    · rw [unchanged]
    · exact same
  have span : u32 d.span = (d.end_ - d.begin_).natAbs := by
    rw [d.span_of_taken taken, if_pos same, u32_natCast (by omega)]
  rw [outputSize_of_span is (by omega), span]
  by_cases unchanged : i32 d.stride = d.stride
  · rw [unchanged, taken.size]
  · have far := le_natAbs_of_i32_ne unchanged
    have near := i32_bounds d.stride
    have beyond : (d.end_ - d.begin_).natAbs ≤ (i32 d.stride).natAbs :=
      (kept.resolve_left unchanged).2
    rw [taken.size_eq_one (by omega), Nat.div_eq_of_lt (by omega)]

theorem size_lt_outputSize {d : ProcessingDim} {w : Window} (taken : d.Taken)
    (is : window d = .ok w) (small : d.dim < 2 ^ 31) (notKept : ¬ d.Kept) :
    d.size = 1 ∧ 1 < w.outputSize := by
  have pos := taken.interval_pos
  have lt := taken.interval_le
  have near := i32_bounds d.stride
  have ne := narrowed_ne_zero is
  obtain ⟨changed, lost⟩ := not_or.mp notKept
  have far := le_natAbs_of_i32_ne changed
  refine ⟨taken.size_eq_one (by omega), ?_⟩
  have cut : (i32 d.stride).natAbs ≤ u32 d.span - 1 := by
    rw [d.span_of_taken taken]
    by_cases same : 0 < i32 d.stride ↔ 0 < d.stride
    · have beyond : ¬ (d.end_ - d.begin_).natAbs ≤ (i32 d.stride).natAbs :=
        fun beyond => lost ⟨same, beyond⟩
      rw [if_pos same, u32_natCast (by omega)]
      omega
    · rw [if_neg same, u32]
      omega
  have steps : 1 ≤ (u32 d.span - 1) / (i32 d.stride).natAbs :=
    (Nat.one_le_div_iff (by omega)).mpr cut
  rw [outputSize_of_span is (by omega)]
  omega

theorem u32_span_eq_zero {d : ProcessingDim} (within : d.Within) (small : d.dim < 2 ^ 32) :
    u32 d.span = 0 ↔ d.begin_ = d.end_ := by
  have lt := within.interval_le
  rw [ProcessingDim.span, u32]
  split <;> omega

theorem u32_mul_negOne {n : Nat} (pos : 0 < n) (lt : n < 2 ^ 32) {m : Nat}
    (negOne : m = 2 ^ 32 - 1) : u32 ((n : Int) * (m : Int)) = 2 ^ 32 - n := by
  have isNegOne : (m : Int) = 2 ^ 32 + -1 := by omega
  rw [u32, isNegOne, Int.mul_add, Int.mul_neg_one, Int.add_comm, Int.add_mul_emod_self_right]
  omega

theorem outputSize_of_one {d : ProcessingDim} {w : Window} (is : window d = .ok w)
    (one : i32 d.stride = 1) : w.outputSize = u32 d.span := by
  by_cases empty : u32 d.span = 0
  · rw [empty, outputSize_of_emptySpan is empty, one]
    rfl
  · rw [outputSize_of_span is (Nat.pos_of_ne_zero empty), one, Int.natAbs_one, Nat.div_one]
    omega

theorem outputSize_of_leading {d : ProcessingDim} {w : Window} (within : d.Within)
    (small : d.dim < 2 ^ 32) (is : window d = .ok w) (first : d.begin_ = 0)
    (one : i32 d.stride = 1) : 0 ≤ d.end_ ∧ w.outputSize = d.end_.toNat ∧ w.outputSize ≤ d.dim ∨
      d.end_ = -1 ∧ w.outputSize = 2 ^ 32 - 1 := by
  have above := within.end_ge
  have lt := within.interval_le
  have span : d.span = d.end_ := by
    rw [ProcessingDim.span, one, first]
    exact Int.sub_zero _
  rw [outputSize_of_one is one, span]
  by_cases backward : d.end_ = -1
  · rw [backward]
    exact Or.inr ⟨rfl, rfl⟩
  · rw [u32_of_bounds (by omega) (by omega)]
    exact Or.inl (by omega)

def outputElements (written : SimplifiedSlice) : Nat := written.outputSizes.prod

namespace Simplifier

/-- The elements of the group, of which there is a dim only if it has more than one. -/
def groupElements (s : Simplifier) : Nat := if 1 < s.coalesced then s.coalesced else 1

theorem insertCoalesced_outputs {s : Simplifier} {written : SimplifiedSlice}
    (layout : s.Written written) : ∃ written', s.insertCoalesced.Written written' ∧
      outputElements written' = s.groupElements * outputElements written := by
  unfold insertCoalesced groupElements
  by_cases group : 1 < s.coalesced
  · have ins := layout.insertDim
      { inputSize := s.coalesced
        inputStride := s.totalStride
        outputSize := s.coalesced
        windowSize := s.coalesced }
    rw [if_pos group, if_pos group]
    exact ⟨_, ⟨ins.currentDim, ins.desc⟩, rfl⟩
  · rw [if_neg group, if_neg group]
    exact ⟨written, layout, (one_mul _).symm⟩

/-- What a dimension adds to the output, in one of three ways. -/
inductive Adds (s : Simplifier) (d : ProcessingDim) (w : Window) (coalesced outputs : Nat) :
    Nat → Prop where
  | collapsed (whole : w.collapsible = true)
      (group : coalesced = u32 (s.coalesced * w.inputSize)) : Adds s d w coalesced outputs outputs
  | merged (cut : w.collapsible = false) (first : d.begin_ = 0) (one : w.windowStride = 1)
      (open_ : 1 < s.coalesced) (group : coalesced = 1) :
      Adds s d w coalesced outputs (u32 (s.coalesced * w.outputSize) * outputs)
  | separate (cut : w.collapsible = false) (group : coalesced = 1) :
      Adds s d w coalesced outputs (w.outputSize * (s.groupElements * outputs))

theorem visit_adds {s : Simplifier} {put : SimplifiedSlice} (layout : s.Written put)
    (d : ProcessingDim) (w : Window) : ∃ put', (s.visit d w).Written put' ∧
      Adds s d w (s.visit d w).coalesced (outputElements put) (outputElements put') := by
  unfold visit
  cases collapsible : w.collapsible with
  | true =>
    rw [if_pos rfl]
    exact ⟨put, ⟨layout.currentDim, layout.desc⟩, .collapsed collapsible rfl⟩
  | false =>
    rw [if_neg Bool.false_ne_true]
    by_cases merged : d.begin_ = 0 ∧ w.windowStride = 1 ∧ 1 < s.coalesced
    · have ins := layout.insertDim
        { inputSize := u32 (s.coalesced * w.inputSize)
          inputStride := s.totalStride
          outputSize := u32 (s.coalesced * w.outputSize)
          windowSize := u32 (s.coalesced * w.outputSize) }
      rw [if_pos merged]
      exact ⟨_, ⟨ins.currentDim, ins.desc⟩, .merged collapsible merged.1 merged.2.1 merged.2.2 rfl⟩
    · obtain ⟨put', layout', outs⟩ := insertCoalesced_outputs layout
      have ins := layout'.insertDim
        { inputSize := w.inputSize
          inputStride := s.insertCoalesced.totalStride
          outputSize := w.outputSize
          windowOffset := w.windowOffset
          windowSize := w.windowSize
          windowStride := w.windowStride }
      rw [if_neg merged]
      refine ⟨_, ⟨ins.currentDim, ins.desc⟩, ?_⟩
      have whole : Adds s d w 1 (outputElements put)
          (w.outputSize * (s.groupElements * outputElements put)) :=
        .separate collapsible rfl
      rw [← outs] at whole
      exact whole

theorem groupElements_of_pos {s : Simplifier} (pos : 0 < s.coalesced) :
    s.groupElements = s.coalesced := by
  unfold groupElements
  split <;> omega

/-- While every stride is kept, the output has the elements of the processing shape. -/
structure Exact (s : Simplifier) (dims : List ProcessingDim) (outputs : Nat) : Prop where
  positive : 0 < s.coalesced
  written : 0 < outputs
  outputs : s.coalesced * outputs = (dims.map ProcessingDim.size).prod

theorem exact_visit {s : Simplifier} {dims : List ProcessingDim} {outputs outputs' : Nat}
    {d : ProcessingDim} {w : Window} (exact_ : s.Exact dims outputs) (taken : d.Taken)
    (size : w.outputSize = d.size)
    (lt : d.size * (dims.map ProcessingDim.size).prod < 2 ^ 32)
    (adds : Adds s d w (s.visit d w).coalesced outputs outputs') :
    (s.visit d w).Exact (d :: dims) outputs' := by
  have sizePos := taken.size_pos
  have product : (s.coalesced * d.size) * outputs = ((d :: dims).map ProcessingDim.size).prod := by
    rw [map_cons, prod_cons, ← exact_.outputs]
    ring
  have grouped : s.coalesced * d.size < 2 ^ 32 := by
    rw [map_cons, prod_cons] at product
    exact lt_of_le_of_lt (Nat.le_mul_of_pos_right _ exact_.written) (product ▸ lt)
  have exactGroup : u32 ((s.coalesced : Int) * (d.size : Int)) = s.coalesced * d.size := by
    rw [← Nat.cast_mul, u32_natCast grouped]
  have groupPos : 0 < s.coalesced * d.size := mul_pos exact_.positive sizePos
  generalize s.visit d w = next at adds ⊢
  generalize counted : next.coalesced = coalesced at adds
  cases adds with
  | collapsed whole group =>
    simp only [Window.collapsible, Bool.and_eq_true, beq_iff_eq] at whole
    rw [whole.1, size, exactGroup] at group
    constructor
    · rw [counted, group]
      exact groupPos
    · exact exact_.written
    · rw [counted, group, product]
  | merged cut first one open_ group =>
    rw [size, exactGroup]
    constructor
    · rw [counted, group]
      exact one_pos
    · exact mul_pos groupPos exact_.written
    · rw [counted, group, one_mul, product]
  | separate cut group =>
    rw [groupElements_of_pos exact_.positive, size]
    constructor
    · rw [counted, group]
      exact one_pos
    · exact mul_pos sizePos (mul_pos exact_.positive exact_.written)
    · rw [counted, group, ← product]
      ring

theorem visitDims_exact {dims : List ProcessingDim} {s : Simplifier}
    (seen : visitDims dims = .ok s) (taken : ∀ d ∈ dims, d.Taken)
    (kept : ∀ d ∈ dims, d.Kept) (lt : (dims.map ProcessingDim.dim).prod < 2 ^ 32) :
    ∃ put, s.Written put ∧ s.Exact dims (outputElements put) := by
  induction dims generalizing s with
  | nil =>
    obtain rfl := Except.ok.inj seen
    exact ⟨[], written_initial, one_pos, one_pos, rfl⟩
  | cons d rest ih =>
    obtain ⟨first, later⟩ := forall_mem_cons.mp taken
    obtain ⟨firstKept, laterKept⟩ := forall_mem_cons.mp kept
    have sizes := prod_size_le taken
    rw [map_cons, prod_cons] at lt sizes
    have innerPos := dims_prod_pos later
    simp only [visitDims, bind_eq_ok, Except.ok.injEq] at seen
    obtain ⟨s', pre, w, is, rfl⟩ := seen
    obtain ⟨put, layout, exact_⟩ := ih pre later laterKept
      (lt_of_le_of_lt (Nat.le_mul_of_pos_left _ first.dim_pos) lt)
    obtain ⟨put', layout', adds⟩ := visit_adds layout d w
    have size := outputSize_of_kept first is
      (lt_of_le_of_lt (Nat.le_mul_of_pos_right _ innerPos) lt) firstKept
    exact ⟨put', layout', exact_visit exact_ first size (lt_of_le_of_lt sizes lt) adds⟩

/-- Of an input with fewer than 2^31 elements, no fewer elements are put out than are processed,
    and more if some stride is not kept. -/
structure AtLeast (s : Simplifier) (dims : List ProcessingDim) (outputs : Nat) : Prop where
  positive : 0 < s.coalesced
  bounded : s.coalesced ≤ (dims.map ProcessingDim.dim).prod
  written : 0 < outputs
  atLeast : (dims.map ProcessingDim.size).prod ≤ s.coalesced * outputs
  more : (∃ d ∈ dims, ¬ d.Kept) → (dims.map ProcessingDim.size).prod < s.coalesced * outputs

theorem AtLeast.product {s : Simplifier} {dims : List ProcessingDim} {outputs outputSize : Nat}
    {d : ProcessingDim} (atLeast : s.AtLeast dims outputs) (sizePos : 0 < d.size)
    (kept : d.Kept → outputSize = d.size) (lost : ¬ d.Kept → d.size < outputSize) :
    ((d :: dims).map ProcessingDim.size).prod ≤ outputSize * (s.coalesced * outputs) ∧
      ((∃ d' ∈ d :: dims, ¬ d'.Kept) →
        ((d :: dims).map ProcessingDim.size).prod < outputSize * (s.coalesced * outputs)) := by
  have le : d.size ≤ outputSize := by
    by_cases is : d.Kept
    · exact le_of_eq (kept is).symm
    · exact Nat.le_of_lt (lost is)
  have whole : 0 < s.coalesced * outputs := mul_pos atLeast.positive atLeast.written
  rw [map_cons, prod_cons, exists_mem_cons_iff]
  refine ⟨Nat.mul_le_mul le atLeast.atLeast, ?_⟩
  rintro (notKept | others)
  · exact lt_of_le_of_lt (Nat.mul_le_mul_left _ atLeast.atLeast)
      (Nat.mul_lt_mul_of_pos_right (lost notKept) whole)
  · exact lt_of_lt_of_le (Nat.mul_lt_mul_of_pos_left (atLeast.more others) sizePos)
      (Nat.mul_le_mul_right _ le)

theorem AtLeast.of_total {s : Simplifier} {dims : List ProcessingDim} {outs total : Nat}
    (positive : 0 < s.coalesced) (bounded : s.coalesced ≤ (dims.map ProcessingDim.dim).prod)
    (same : s.coalesced * outs = total) (some_ : 0 < total)
    (atLeast : (dims.map ProcessingDim.size).prod ≤ total)
    (more : (∃ d ∈ dims, ¬ d.Kept) → (dims.map ProcessingDim.size).prod < total) :
    s.AtLeast dims outs where
  positive := positive
  bounded := bounded
  written := Nat.pos_of_mul_pos_left (same ▸ some_)
  atLeast := same ▸ atLeast
  more := same ▸ more

theorem atLeast_visit {s : Simplifier} {dims : List ProcessingDim} {outputs outputs' : Nat}
    {d : ProcessingDim} {w : Window} (atLeast : s.AtLeast dims outputs) (within : d.Within)
    (taken : d.Taken) (is : window d = .ok w)
    (small : d.dim * (dims.map ProcessingDim.dim).prod < 2 ^ 31)
    (adds : Adds s d w (s.visit d w).coalesced outputs outputs') :
    (s.visit d w).AtLeast (d :: dims) outputs' := by
  have pos := atLeast.positive
  have dimPos := taken.dim_pos
  have grouped : s.coalesced * d.dim ≤ d.dim * (dims.map ProcessingDim.dim).prod := by
    rw [mul_comm]
    exact Nat.mul_le_mul_left _ atLeast.bounded
  have dimSmall : d.dim < 2 ^ 31 :=
    lt_of_le_of_lt (Nat.le_mul_of_pos_left _ pos) (lt_of_le_of_lt grouped small)
  have groupSmall : s.coalesced < 2 ^ 31 :=
    lt_of_le_of_lt (Nat.le_mul_of_pos_right _ dimPos) (lt_of_le_of_lt grouped small)
  obtain ⟨inputSize, stride⟩ := window_inputSize is
  rw [u32_natCast (by omega)] at inputSize
  have kept := outputSize_of_kept taken is (by omega)
  have lost := size_lt_outputSize taken is dimSmall
  obtain ⟨product, more⟩ := atLeast.product taken.size_pos kept fun notKept =>
    (lost notKept).1 ▸ (lost notKept).2
  have outputPos : 0 < w.outputSize := by
    have sizePos := taken.size_pos
    by_cases is : d.Kept
    · rw [kept is]
      exact sizePos
    · have large := (lost is).2
      omega
  have wholePos : 1 ≤ ((d :: dims).map ProcessingDim.dim).prod := by
    rw [map_cons, prod_cons]
    exact mul_pos dimPos (lt_of_lt_of_le pos atLeast.bounded)
  have some_ : 0 < w.outputSize * (s.coalesced * outputs) :=
    mul_pos outputPos (mul_pos pos atLeast.written)
  generalize s.visit d w = next at adds ⊢
  generalize counted : next.coalesced = coalesced at adds
  cases adds with
  | collapsed whole group =>
    simp only [Window.collapsible, Bool.and_eq_true, beq_iff_eq] at whole
    rw [inputSize, ← Nat.cast_mul, u32_natCast (by omega)] at group
    refine .of_total ?_ ?_ ?_ some_ product more
    · rw [counted, group]
      exact mul_pos pos dimPos
    · rw [counted, group, map_cons, prod_cons]
      exact grouped
    · rw [counted, group, ← whole.1, inputSize]
      ring
  | merged cut first one open_ group =>
    rw [stride] at one
    rcases outputSize_of_leading within (by omega) is first one with
      ⟨-, -, lt⟩ | ⟨backward, wrapped⟩
    · have less := Nat.mul_le_mul_left s.coalesced lt
      refine .of_total (by omega) (by omega) ?_ some_ product more
      rw [counted, group, ← Nat.cast_mul, u32_natCast (by omega)]
      ring
    · -- The product wraps around, and is still far larger than the group.
      have notKept : ¬ d.Kept := by
        intro is
        have sizeLe := taken.size_le
        rw [kept is] at wrapped
        omega
      have rest := u32_mul_negOne pos (by omega) wrapped
      have less : ((d :: dims).map ProcessingDim.size).prod < (2 ^ 32 - s.coalesced) * outputs := by
        rw [map_cons, prod_cons, (lost notKept).1, one_mul]
        exact lt_of_le_of_lt atLeast.atLeast
          (Nat.mul_lt_mul_of_pos_right (by omega) atLeast.written)
      refine .of_total (by omega) (by omega) ?_ (by omega) (Nat.le_of_lt less) fun _ => less
      rw [counted, group, rest, one_mul]
  | separate cut group =>
    refine .of_total (by omega) (by omega) ?_ some_ product more
    rw [counted, group, groupElements_of_pos pos, one_mul]

theorem visitDims_atLeast {dims : List ProcessingDim} {s : Simplifier}
    (seen : visitDims dims = .ok s) (lt : ∀ d ∈ dims, d.Within)
    (taken : ∀ d ∈ dims, d.Taken) (small : (dims.map ProcessingDim.dim).prod < 2 ^ 31) :
    ∃ put, s.Written put ∧ s.AtLeast dims (outputElements put) := by
  induction dims generalizing s with
  | nil =>
    obtain rfl := Except.ok.inj seen
    refine ⟨[], written_initial, one_pos, le_refl _, one_pos, le_refl _, ?_⟩
    rintro ⟨d, mem, -⟩
    exact absurd mem not_mem_nil
  | cons d rest ih =>
    obtain ⟨first, later⟩ := forall_mem_cons.mp taken
    obtain ⟨firstWithin, laterWithin⟩ := forall_mem_cons.mp lt
    rw [map_cons, prod_cons] at small
    simp only [visitDims, bind_eq_ok, Except.ok.injEq] at seen
    obtain ⟨s', pre, w, is, rfl⟩ := seen
    obtain ⟨put, layout, atLeast⟩ := ih pre laterWithin later
      (lt_of_le_of_lt (Nat.le_mul_of_pos_left _ first.dim_pos) small)
    obtain ⟨put', layout', adds⟩ := visit_adds layout d w
    exact ⟨put', layout', atLeast_visit atLeast firstWithin first is small adds⟩

/-- The output has no elements if some interval is seen to have none. -/
structure Empties (s : Simplifier) (dims : List ProcessingDim) (outputs : Nat) : Prop where
  bounded : s.coalesced ≤ extent (dims.map ProcessingDim.dim)
  outputs : outputs = 0 ↔ ∃ d ∈ dims, d.SeenEmpty

theorem seenEmpty_iff {d : ProcessingDim} {w : Window} (lt : d.Within)
    (small : d.dim < 2 ^ 32) (is : window d = .ok w) :
    d.SeenEmpty ↔ w.outputSize = 0 ∧ ¬ (d.dim = 0 ∧ i32 d.stride = 1) := by
  unfold ProcessingDim.SeenEmpty
  rw [← and_assoc, and_congr_left_iff]
  intro _
  rw [← u32_span_eq_zero lt small]
  by_cases empty : u32 d.span = 0
  · rw [outputSize_of_emptySpan is empty]
    exact and_iff_right empty
  · rw [outputSize_of_span is (Nat.pos_of_ne_zero empty)]
    exact iff_of_false (fun both => empty both.1) (Nat.ne_of_gt (Nat.add_pos_left one_pos _))

theorem extent_cons (dim : Nat) (shape : TensorShape) :
    extent (dim :: shape) = if dim = 0 then extent shape else dim * extent shape := by
  unfold extent
  by_cases empty : dim = 0
  · simp [empty]
  · simp [empty, Nat.pos_of_ne_zero empty]

theorem extent_pos (shape : TensorShape) : 0 < extent shape := by
  apply List.prod_pos_iff_forall_pos_nat.mpr
  intro dim mem
  exact of_decide_eq_true (mem_filter.mp mem).2

theorem empties_visit {s : Simplifier} {dims : List ProcessingDim} {outputs outputs' : Nat}
    {d : ProcessingDim} {w : Window} (empties : s.Empties dims outputs) (within : d.Within)
    (is : window d = .ok w) (small : extent ((d :: dims).map ProcessingDim.dim) < 2 ^ 32)
    (adds : Adds s d w (s.visit d w).coalesced outputs outputs') :
    (s.visit d w).Empties (d :: dims) outputs' := by
  have bounded := empties.bounded
  have innerPos := extent_pos (dims.map ProcessingDim.dim)
  have outerPos := extent_pos ((d :: dims).map ProcessingDim.dim)
  have dimSmall : d.dim < 2 ^ 32 := by
    rw [map_cons, extent_cons] at small
    split at small
    · omega
    · exact lt_of_le_of_lt (Nat.le_mul_of_pos_right _ innerPos) small
  have seen := seenEmpty_iff within dimSmall is
  obtain ⟨inputSize, stride⟩ := window_inputSize is
  rw [u32_natCast dimSmall] at inputSize
  generalize s.visit d w = next at adds ⊢
  generalize counted : next.coalesced = coalesced at adds
  cases adds with
  | collapsed whole group =>
    simp only [Window.collapsible, Bool.and_eq_true, beq_iff_eq, decide_eq_true_eq] at whole
    rw [inputSize, ← Nat.cast_mul] at group
    constructor
    · rw [counted, group, map_cons, extent_cons]
      by_cases empty : d.dim = 0
      · rw [empty, mul_zero]
        exact Nat.zero_le _
      · rw [map_cons, extent_cons, if_neg empty] at small
        have grouped := Nat.mul_le_mul_left d.dim bounded
        rw [mul_comm] at grouped
        rw [if_neg empty, u32_natCast (lt_of_le_of_lt grouped small)]
        exact grouped
    · -- An empty dimension that continues the group is dropped.
      have unseen : ¬ d.SeenEmpty := by
        intro isSeen
        have isEmpty := (seen.mp isSeen).1
        have one := isSeen.2.1
        exact isSeen.2.2 (by omega)
      rw [exists_mem_cons_iff, empties.outputs]
      exact (or_iff_right unseen).symm
  | merged cut first one open_ group =>
    rw [stride] at one
    have some_ : d.dim ≠ 0 := by
      intro empty
      have outputSize : w.outputSize = 0 := by
        rcases outputSize_of_leading within dimSmall is first one with ⟨-, -, le⟩ | ⟨back, -⟩
        · omega
        · have lt := within.interval_le
          omega
      rw [Window.collapsible, inputSize, outputSize, stride, one, empty] at cut
      exact absurd cut (by decide)
    rw [map_cons, extent_cons, if_neg some_] at small
    have grouped := Nat.mul_le_mul_left d.dim bounded
    rw [mul_comm] at grouped
    have zero_ : u32 ((s.coalesced : Int) * (w.outputSize : Int)) = 0 ↔ d.SeenEmpty := by
      rw [seen, and_iff_left (fun both => some_ both.1)]
      rcases outputSize_of_leading within dimSmall is first one with
        ⟨-, -, lt⟩ | ⟨backward, wrapped⟩
      · have less := Nat.mul_le_mul_left s.coalesced lt
        rw [← Nat.cast_mul, u32_natCast (by omega), Nat.mul_eq_zero]
        exact or_iff_right (by omega)
      · have groupSmall : s.coalesced < 2 ^ 32 :=
          lt_of_le_of_lt (Nat.le_mul_of_pos_right _ (Nat.pos_of_ne_zero some_)) (by omega)
        rw [u32_mul_negOne (by omega) groupSmall wrapped]
        omega
    constructor
    · omega
    · rw [Nat.mul_eq_zero, zero_, exists_mem_cons_iff, empties.outputs]
  | separate cut group =>
    have groupPos : s.groupElements ≠ 0 := by
      unfold groupElements
      split <;> omega
    have zero_ : w.outputSize = 0 ↔ d.SeenEmpty := by
      rw [seen]
      refine (and_iff_left_of_imp ?_).symm
      rintro outputSize ⟨empty, one⟩
      rw [Window.collapsible, inputSize, outputSize, stride, one, empty] at cut
      exact absurd cut (by decide)
    constructor
    · omega
    · rw [Nat.mul_eq_zero, Nat.mul_eq_zero, or_iff_right groupPos, zero_,
        exists_mem_cons_iff, empties.outputs]

theorem visitDims_empties {dims : List ProcessingDim} {s : Simplifier}
    (seen : visitDims dims = .ok s) (lt : ∀ d ∈ dims, d.Within)
    (small : extent (dims.map ProcessingDim.dim) < 2 ^ 32) :
    ∃ put, s.Written put ∧ s.Empties dims (outputElements put) := by
  induction dims generalizing s with
  | nil =>
    obtain rfl := Except.ok.inj seen
    refine ⟨[], written_initial, le_refl _, iff_of_false (by decide) ?_⟩
    rintro ⟨d, mem, -⟩
    exact absurd mem not_mem_nil
  | cons d rest ih =>
    obtain ⟨firstWithin, laterWithin⟩ := forall_mem_cons.mp lt
    simp only [visitDims, bind_eq_ok, Except.ok.injEq] at seen
    obtain ⟨s', pre, w, is, rfl⟩ := seen
    have inner : extent (rest.map ProcessingDim.dim) < 2 ^ 32 := by
      rw [map_cons, extent_cons] at small
      split at small
      · exact small
      · exact lt_of_le_of_lt (Nat.le_mul_of_pos_left _ (by omega)) small
    obtain ⟨put, layout, empties⟩ := ih pre laterWithin inner
    obtain ⟨put', layout', adds⟩ := visit_adds layout d w
    exact ⟨put', layout', empties_visit empties firstWithin is small adds⟩

end Simplifier

theorem simplifySlice_ok {dims : List ProcessingDim} (lt : ∀ d ∈ dims, d.Within) :
    (∃ simple, simplifySlice dims = .ok simple) ↔ ∀ d ∈ dims, ¬ 2 ^ 32 ∣ d.stride := by
  have windows : (∀ d ∈ dims, ∃ w, window d = .ok w) ↔ ∀ d ∈ dims, ¬ 2 ^ 32 ∣ d.stride :=
    forall₂_congr fun d mem => window_ok_iff (lt d mem).end_ge
  rw [← windows, ← Simplifier.visitDims_ok_iff]
  constructor
  · rintro ⟨simple, is⟩
    simp only [simplifySlice, bind_eq_ok] at is
    obtain ⟨s, seen, -⟩ := is
    exact ⟨s, seen⟩
  · rintro ⟨s, seen⟩
    exact ⟨s.insertCoalesced.finish, by rw [simplifySlice, seen]; rfl⟩

theorem simplifySlice_outputs {dims : List ProcessingDim} {s : Simplifier}
    {written : SimplifiedSlice} (seen : Simplifier.visitDims dims = .ok s)
    (layout : s.Written written) {slice : SimplifiedSlice}
    (simple : simplifySlice dims = .ok (some slice)) :
    slice.outputSizes.prod = s.groupElements * outputElements written := by
  obtain ⟨written', layout', outs⟩ := Simplifier.insertCoalesced_outputs layout
  rw [simplifySlice, seen] at simple
  obtain ⟨-, rfl⟩ := layout'.finish.mp (Except.ok.inj simple)
  rw [padded_outputSizes, ← outs]
  rfl

theorem extent_eq_numElements {shape : TensorShape} (some_ : 0 < shape.numElements) :
    extent shape = shape.numElements := by
  have pos := List.prod_pos_iff_forall_pos_nat.mp some_
  rw [extent, filter_eq_self.mpr fun dim mem => decide_eq_true (pos dim mem)]
  rfl

section Accepted

variable {beginTensor endTensor stridesTensor : IndexTensor w} {inputShape : TensorShape}
  {masks : Attributes} {spec : SliceSpec}

theorem counted_of_stridesSurvive
    (ok : validateStridedSliceOp beginTensor endTensor stridesTensor inputShape masks = .ok spec)
    (small : extent inputShape < 2 ^ 32) (survive : StridesSurvive spec) : Counted spec := by
  obtain ⟨shape, lt⟩ := within_of_accepted ok
  obtain ⟨simple, is⟩ := (simplifySlice_ok lt).mpr survive.1
  refine ⟨simple, is, ?_⟩
  rintro slice rfl
  obtain ⟨ends, counts⟩ := survive
  have enough := (simplifySlice_some_iff.mp ⟨slice, is⟩).2
  obtain ⟨s, seen, -⟩ := bind_eq_ok.mp is
  rcases Nat.eq_zero_or_pos spec.processingShape.numElements with empty | nonempty
  · rw [← shape] at small
    obtain ⟨put, layout, empties⟩ := Simplifier.visitDims_empties seen lt small
    have none_ := empties.outputs.mpr ((counts enough).2 empty)
    rw [simplifySlice_outputs seen layout is, none_, empty, mul_zero]
  · obtain ⟨-, taken⟩ := taken_of_accepted ok nonempty
    have pos := Simplifier.dims_prod_pos taken
    rw [← shape, extent_eq_numElements pos] at small
    obtain ⟨put, layout, exact_⟩ :=
      Simplifier.visitDims_exact seen taken ((counts enough).1 nonempty) small
    rw [simplifySlice_outputs seen layout is,
      Simplifier.groupElements_of_pos exact_.positive, exact_.outputs]
    rfl

theorem stridesSurvive_of_counted
    (ok : validateStridedSliceOp beginTensor endTensor stridesTensor inputShape masks = .ok spec)
    (small : extent inputShape < 2 ^ 31) (counted : Counted spec) : StridesSurvive spec := by
  obtain ⟨shape, lt⟩ := within_of_accepted ok
  obtain ⟨simple, is, counts⟩ := counted
  have ends := (simplifySlice_ok lt).mp ⟨simple, is⟩
  refine ⟨ends, fun enough => ?_⟩
  obtain ⟨slice, got⟩ := simplifySlice_some_iff.mpr
    ⟨fun d mem => (window_ok_iff (lt d mem).end_ge).mpr (ends d mem), enough⟩
  obtain rfl := Except.ok.inj (is.symm.trans got)
  obtain ⟨s, seen, -⟩ := bind_eq_ok.mp is
  constructor
  · intro some_
    obtain ⟨-, taken⟩ := taken_of_accepted ok some_
    have pos := Simplifier.dims_prod_pos taken
    rw [← shape, extent_eq_numElements pos] at small
    obtain ⟨put, layout, atLeast⟩ := Simplifier.visitDims_atLeast seen lt taken small
    have exact_ := counts slice rfl
    rw [simplifySlice_outputs seen layout is,
      Simplifier.groupElements_of_pos atLeast.positive] at exact_
    by_contra lost
    push Not at lost
    exact Nat.lt_irrefl _ (exact_ ▸ atLeast.more lost)
  · intro empty
    rw [← shape] at small
    obtain ⟨put, layout, empties⟩ := Simplifier.visitDims_empties seen lt (by omega)
    have none_ := counts slice rfl
    rw [simplifySlice_outputs seen layout is, empty, Nat.mul_eq_zero] at none_
    apply empties.outputs.mp (none_.resolve_left _)
    unfold Simplifier.groupElements
    split <;> omega

/-- From 2^31 elements on, one stride may make up for what another has lost. -/
example : let dims : List ProcessingDim :=
      [.ofInterval (2 ^ 31 + 1) 0 (2 ^ 31 + 1) (2 ^ 31), .ofInterval 1 0 1 (2 ^ 31)]
    (dims.map ProcessingDim.size).prod = 2 ∧ (∀ d ∈ dims, ¬ d.Kept) ∧
      ((simplifySlice dims).toOption.join.map fun slice => slice.outputSizes.prod) = some 2 := by
  decide

end Accepted

end TfDml.StridedSlice
