import TfDml.Kernels.SimplifySlice

/-! # How many dimensions a slice needs

A slice is simplified if at most eight dimensions are needed for it. Dimensions of
size one need none as long as they are not read backwards.
-/

namespace TfDml.StridedSlice

open List

/-- All elements of the dimension are taken, in order, as far as 32 bits tell. -/
def ProcessingDim.isWhole (d : ProcessingDim) : Bool :=
  match window d with
  | .ok w => w.collapsible
  | .error _ => false

/-- The dimension is taken from its begin on, in order. -/
def ProcessingDim.isLeading (d : ProcessingDim) : Bool := d.begin_ == 0 && i32 d.stride == 1

/-- The first dimensions are whole and have more than one element in all, which is counted in
    32 bits. -/
def startsWithGroup (dims : List ProcessingDim) : Bool :=
  1 < u32 ((dims.takeWhile ProcessingDim.isWhole).map ProcessingDim.dim).prod

/-- One slot for each dimension that is not whole, and one for each group behind such a
    dimension that it cannot be merged with. -/
def innerSlots : List ProcessingDim → Nat
  | [] => 0
  | d :: rest =>
    if d.isWhole then innerSlots rest
    else 1 + (if startsWithGroup rest && !d.isLeading then 1 else 0) + innerSlots rest

def slots (dims : List ProcessingDim) : Nat :=
  (if startsWithGroup dims then 1 else 0) + innerSlots dims

def reversedUnits (dims : List ProcessingDim) : Nat := dims.countP fun d => d.dim == 1 && !d.isWhole

variable {d : ProcessingDim}

theorem window_inputSize {w : Window} (is : window d = .ok w) :
    w.inputSize = u32 d.dim ∧ w.windowStride = i32 d.stride := by
  by_cases below : d.end_ < -1
  · simp [window, below] at is
  · simp only [window, if_neg below] at is
    generalize (if 0 < i32 d.stride then u32 (i32 d.stride) else u32 (-i32 d.stride)) = divisor
      at is
    by_cases zero : divisor = 0
    · simp [zero] at is
    · rw [if_neg zero, Except.ok.injEq] at is
      exact ⟨is ▸ rfl, is ▸ rfl⟩

theorem divisor_eq_zero (stride : Int) :
    (if 0 < i32 stride then u32 (i32 stride) else u32 (-i32 stride)) = 0 ↔ 2 ^ 32 ∣ stride := by
  simp only [u32, i32, Int.bmod]
  split <;> split <;> omega

theorem window_ok_iff (canonical : -1 ≤ d.end_) :
    (∃ w, window d = .ok w) ↔ ¬ 2 ^ 32 ∣ d.stride := by
  rw [← divisor_eq_zero]
  simp only [window, if_neg (Int.not_lt.mpr canonical)]
  generalize (if 0 < i32 d.stride then u32 (i32 d.stride) else u32 (-i32 d.stride)) = divisor
  by_cases zero : divisor = 0
  · simp [zero]
  · simp [zero]

namespace Simplifier

theorem insertCoalesced_currentDim (s : Simplifier) :
    s.insertCoalesced.currentDim = s.currentDim - if 1 < s.coalesced then 1 else 0 := by
  unfold insertCoalesced
  split
  · rfl
  · omega

/-- The loop has used the inner slots, and what it has collapsed is the group at the front. -/
structure Counts (s : Simplifier) (dims : List ProcessingDim) : Prop where
  currentDim : s.currentDim = (maxOutputSize : Int) - 1 - innerSlots dims
  coalesced : s.coalesced = u32 ((dims.takeWhile ProcessingDim.isWhole).map ProcessingDim.dim).prod

theorem counts_initial : initial.Counts [] where
  currentDim := rfl
  coalesced := rfl

variable {s : Simplifier} {dims : List ProcessingDim}

theorem counts_visit (counts : s.Counts dims) {d : ProcessingDim} {w : Window}
    (is : window d = .ok w) : (s.visit d w).Counts (d :: dims) := by
  have cur := counts.currentDim
  have whole : d.isWhole = w.collapsible := by simp [ProcessingDim.isWhole, is]
  obtain ⟨inputSize, stride⟩ := window_inputSize is
  unfold visit
  by_cases collapsible : w.collapsible = true
  · rw [if_pos collapsible]
    rw [collapsible] at whole
    constructor
    · rw [innerSlots, if_pos whole]
      exact cur
    · rw [takeWhile_cons_of_pos whole, map_cons, prod_cons, mul_comm, ← u32_mul,
        ← counts.coalesced, ← inputSize]
      rfl
  · have notWhole : ¬ d.isWhole = true := whole ▸ collapsible
    have none_ : u32 (((d :: dims).takeWhile ProcessingDim.isWhole).map ProcessingDim.dim).prod =
        1 := by
      rw [takeWhile_cons_of_neg notWhole]
      rfl
    have group : startsWithGroup dims = true ↔ 1 < s.coalesced := by
      rw [counts.coalesced, startsWithGroup, decide_eq_true_eq]
    have leading : d.isLeading = true ↔ d.begin_ = 0 ∧ w.windowStride = 1 := by
      rw [stride]
      simp [ProcessingDim.isLeading]
    rw [if_neg collapsible]
    by_cases merged : d.begin_ = 0 ∧ w.windowStride = 1 ∧ 1 < s.coalesced
    · have isLeading : d.isLeading = true := leading.mpr ⟨merged.1, merged.2.1⟩
      rw [if_pos merged]
      constructor
      · simp only [innerSlots, if_neg notWhole, isLeading, Bool.not_true, Bool.and_false,
          Bool.false_eq_true, if_false, insertMerged, insertDim, cur]
        omega
      · exact none_.symm
    · rw [if_neg merged]
      constructor
      · simp only [innerSlots, if_neg notWhole, insertSeparate, insertDim,
          insertCoalesced_currentDim, cur]
        by_cases open_ : 1 < s.coalesced
        · have notLeading : d.isLeading = false := by
            rw [Bool.eq_false_iff]
            exact fun is => merged ⟨(leading.mp is).1, (leading.mp is).2, open_⟩
          simp only [if_pos open_, group.mpr open_, notLeading, Bool.not_false, Bool.and_true,
            if_true]
          omega
        · have notGroup : startsWithGroup dims = false :=
            Bool.eq_false_iff.mpr fun is => open_ (group.mp is)
          simp only [if_neg open_, notGroup, Bool.false_and, Bool.false_eq_true, if_false]
          omega
      · exact none_.symm

theorem visitDims_counts (seen : visitDims dims = .ok s) : s.Counts dims := by
  induction dims generalizing s with
  | nil =>
    obtain rfl := Except.ok.inj seen
    exact counts_initial
  | cons d rest ih =>
    simp only [visitDims, bind_eq_ok, Except.ok.injEq] at seen
    obtain ⟨s', pre, w, is, rfl⟩ := seen
    exact counts_visit (ih pre) is

theorem visitDims_ok_iff : (∃ s, visitDims dims = .ok s) ↔ ∀ d ∈ dims, ∃ w, window d = .ok w := by
  induction dims with
  | nil => exact ⟨fun _ => by simp, fun _ => ⟨initial, rfl⟩⟩
  | cons d rest ih =>
    rw [forall_mem_cons, ← ih]
    constructor
    · rintro ⟨s, seen⟩
      simp only [visitDims, bind_eq_ok, Except.ok.injEq] at seen
      obtain ⟨s', pre, w, is, -⟩ := seen
      exact ⟨⟨w, is⟩, s', pre⟩
    · rintro ⟨⟨w, is⟩, s, pre⟩
      exact ⟨s.visit d w, by rw [visitDims, pre, is]; rfl⟩

theorem finish_some_iff (s : Simplifier) :
    (∃ slice, s.finish = some slice) ↔ 0 ≤ s.currentDim + 1 := by
  unfold finish
  by_cases neg : s.currentDim + 1 < 0
  · simp [neg]
  · simp [neg, Int.not_lt.mp neg]

theorem Counts.finish_some_iff (counts : s.Counts dims) :
    (∃ slice, s.insertCoalesced.finish = some slice) ↔ slots dims ≤ maxOutputSize := by
  have group : startsWithGroup dims = true ↔ 1 < s.coalesced := by
    rw [counts.coalesced, startsWithGroup, decide_eq_true_eq]
  rw [Simplifier.finish_some_iff, insertCoalesced_currentDim, counts.currentDim, slots]
  by_cases open_ : 1 < s.coalesced
  · rw [if_pos open_, if_pos (group.mpr open_)]
    omega
  · rw [if_neg open_, if_neg (fun is => open_ (group.mp is))]
    omega

end Simplifier

variable {dims : List ProcessingDim}

theorem simplifySlice_some_iff : (∃ slice, simplifySlice dims = .ok (some slice)) ↔
      (∀ d ∈ dims, ∃ w, window d = .ok w) ∧ slots dims ≤ maxOutputSize := by
  rw [← Simplifier.visitDims_ok_iff]
  constructor
  · rintro ⟨slice, simple⟩
    simp only [simplifySlice, bind_eq_ok, Except.ok.injEq] at simple
    obtain ⟨s, seen, finished⟩ := simple
    have counts := Simplifier.visitDims_counts seen
    exact ⟨⟨s, seen⟩, counts.finish_some_iff.mp ⟨slice, finished⟩⟩
  · rintro ⟨⟨s, seen⟩, enough⟩
    have counts := Simplifier.visitDims_counts seen
    obtain ⟨slice, finished⟩ := counts.finish_some_iff.mpr enough
    refine ⟨slice, ?_⟩
    simp only [simplifySlice, seen, ← finished]
    rfl

def largeDims (shape : TensorShape) : Nat := shape.countP fun dim => 1 < dim

theorem startsWithGroup_of_notWhole (rest : List ProcessingDim) (notWhole : d.isWhole = false) :
    startsWithGroup (d :: rest) = false := by
  rw [startsWithGroup, takeWhile_cons_of_neg (by simp [notWhole])]
  rfl

theorem startsWithGroup_unit (rest : List ProcessingDim) (whole : d.isWhole = true)
    (one : d.dim = 1) : startsWithGroup (d :: rest) = startsWithGroup rest := by
  rw [startsWithGroup, takeWhile_cons_of_pos whole, map_cons, prod_cons, one, one_mul]
  rfl

theorem slots_le (pos : ∀ d ∈ dims, 0 < d.dim) :
    slots dims ≤ largeDims (dims.map ProcessingDim.dim) + reversedUnits dims := by
  induction dims with
  | nil => exact le_refl _
  | cons d rest ih =>
    obtain ⟨first, later⟩ := forall_mem_cons.mp pos
    have slotsRest := ih later
    simp only [slots, innerSlots, largeDims, reversedUnits, map_cons, countP_cons] at slotsRest ⊢
    cases whole : d.isWhole with
    | true =>
      by_cases one : d.dim = 1
      · rw [startsWithGroup_unit rest whole one]
        simp only [one, if_true]
        omega
      · have large : 1 < d.dim := by omega
        simp only [if_true, large, decide_true]
        split <;> omega
    | false =>
      have group : (if (startsWithGroup rest && !d.isLeading) = true then 1 else 0) ≤
          if startsWithGroup rest = true then 1 else 0 := by
        cases startsWithGroup rest with
        | true => split <;> simp
        | false => simp
      rw [startsWithGroup_of_notWhole rest whole]
      by_cases one : d.dim = 1
      · simp only [one, Bool.false_eq_true, if_false, beq_self_eq_true, Bool.not_false,
          Bool.and_self, if_true]
        omega
      · have large : 1 < d.dim := by omega
        simp only [large, Bool.false_eq_true, if_false, decide_true, if_true]
        omega

/-- A slice of which something is taken is simplified if no stride vanishes in 32 bits and at
    most eight slots are needed. Without reversed dimensions of size one, there are no more
    than dimensions with more than one element. -/
theorem simplified_iff {beginTensor endTensor stridesTensor : IndexTensor w}
    {inputShape : TensorShape} {masks : Attributes} {spec : SliceSpec}
    (accepted : validateStridedSliceOp beginTensor endTensor stridesTensor inputShape masks =
      .ok spec)
    (nonempty : 0 < spec.processingShape.numElements) :
    ((∃ slice, simplifySlice spec.dims = .ok (some slice)) ↔
        (∀ d ∈ spec.dims, ¬ 2 ^ 32 ∣ d.stride) ∧ slots spec.dims ≤ maxOutputSize) ∧
      slots spec.dims ≤ largeDims inputShape + reversedUnits spec.dims := by
  obtain ⟨shape, taken⟩ := taken_of_accepted accepted nonempty
  constructor
  · rw [simplifySlice_some_iff, and_congr_left_iff]
    intro _
    apply forall₂_congr
    intro d mem
    apply window_ok_iff
    rcases (taken d mem).direction with ⟨-, bounds⟩ | ⟨-, bounds⟩
    · omega
    · exact bounds.1
  · rw [← shape]
    exact slots_le fun d mem => (taken d mem).dim_pos

def constantIndices (n : Nat) (value : BitVec w) : IndexTensor w where
  shape := [n]
  values := List.replicate n value
  sized := by simp [TensorShape.numElements]

/-- `x[1::2]` of a vector. -/
theorem everySecond_simplified :
    ∃ spec, validateStridedSliceOp (constantIndices 1 1#64) (constantIndices 1 6#64)
        (constantIndices 1 2#64) [6] {} = .ok spec ∧
      ((∃ slice, simplifySlice spec.dims = .ok (some slice)) ↔
        (∀ d ∈ spec.dims, ¬ 2 ^ 32 ∣ d.stride) ∧ slots spec.dims ≤ maxOutputSize) ∧
      slots spec.dims ≤ largeDims [6] + reversedUnits spec.dims := by
  have ok : validateStridedSliceOp (constantIndices 1 1#64) (constantIndices 1 6#64)
      (constantIndices 1 2#64) [6] {} = .ok _ := rfl
  exact ⟨_, ok, simplified_iff ok (by decide)⟩

/-- All nine dimensions have size one and are reversed. -/
theorem reversedNineUnits_notSimplified :
    ∃ spec, validateStridedSliceOp (constantIndices 9 0#32) (constantIndices 9 (-2#32))
        (constantIndices 9 (-1#32)) (List.replicate 9 1) {} = .ok spec ∧
      0 < spec.processingShape.numElements ∧ largeDims (List.replicate 9 1) ≤ maxOutputSize ∧
      simplifySlice spec.dims = .ok none :=
  ⟨_, rfl, by decide, by decide, rfl⟩

end TfDml.StridedSlice
