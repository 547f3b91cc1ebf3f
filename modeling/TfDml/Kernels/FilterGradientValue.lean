import TfDml.Core.NoOpKernel
import TfDml.Kernels.FilterGradient
import TfDml.Lib.Grouping

/-! # What the gradient of a filter is

The value of the gradient as a sum over the batches and the positions of the output, and when the
kernel computes it.
-/

namespace TfDml.FilterGradient

open Lib DmlGraph Option
open List hiding flatten
open DmlTensorDesc (BufferTensorSize packedStrides)
open Expression NoOpKernel

structure Problem where
  format : TensorFormat
  batch : Nat
  groupCount : Nat
  groupSize : Nat
  filters : Nat
  inSizes : List Nat
  outSizes : List Nat
  taps : List Nat

namespace Problem

variable (q : Problem)

def input : TensorShape := arrange q.format q.batch (q.groupCount * q.groupSize) q.inSizes

def outBackprop : TensorShape := arrange q.format q.batch q.filters q.outSizes

def filter : TensorShape := q.taps ++ [q.groupSize, q.filters]

def group (outChannel : Nat) : Nat := outChannel / (q.filters / q.groupCount)

/-- The element of the input that a tap of the filter meets, for a batch and a position of the
    output. -/
def source (sweeps : List Sweep) (tap : List Nat) (inChannel outChannel : Nat) :
    List Nat → Option (List Nat)
  | n :: out => (tapIndex q.inSizes sweeps out tap).map
      (arrange q.format n (q.group outChannel * q.groupSize + inChannel))
  | [] => none

def backpropIndex (outChannel : Nat) : List Nat → List Nat
  | n :: out => arrange q.format n outChannel out
  | [] => []

section Value

variable {R : Type} [CommSemiring R]

def gradient (sweeps : List Sweep) (x dy : List R) (tap : List Nat)
    (inChannel outChannel : Nat) : R :=
  tapSum (indices (q.batch :: q.outSizes)) (q.source sweeps tap inChannel outChannel)
    (fun index => x.getD (flatten q.input index) 0)
    (fun entry => dy.getD (flatten q.outBackprop (q.backpropIndex outChannel entry)) 0)

def gradientAt (sweeps : List Sweep) (x dy : List R) (index : List Nat) : R :=
  q.gradient sweeps x dy (index.take q.taps.length) (index.getD q.taps.length 0)
    (index.getD (q.taps.length + 1) 0)

def gradients (sweeps : List Sweep) (x dy : List R) : List R :=
  (indices q.filter).map (q.gradientAt sweeps x dy)

theorem gradientAt_append {sweeps : List Sweep} {x dy : List R} {tap : List Nat}
    (whole : tap.length = q.taps.length) (i k : Nat) :
    q.gradientAt sweeps x dy (tap ++ [i, k]) = q.gradient sweeps x dy tap i k := by
  simp [gradientAt, ← whole]

end Value

/-- The sizes of tensors with elements that DirectML makes a convolution of. -/
structure Sound : Prop where
  format : q.format = .nhwc ∨ q.format = .nchw
  rank : q.taps.length = 2 ∨ q.taps.length = 3
  inRank : q.inSizes.length = q.taps.length
  outRank : q.outSizes.length = q.taps.length
  divides : q.groupCount ∣ q.filters
  batches : 0 < q.batch
  groups : 0 < q.groupCount
  channels : 0 < q.groupSize
  outputs : 0 < q.filters
  inPositive : ∀ size ∈ q.inSizes, 0 < size
  outPositive : ∀ size ∈ q.outSizes, 0 < size
  tapsPositive : ∀ size ∈ q.taps, 0 < size
  inSmall : q.input.prod < 2 ^ 32
  outSmall : q.outBackprop.prod < 2 ^ 32
  filterSmall : q.filter.prod < 2 ^ 32

end Problem

structure Params.Describes (p : Params) (q : Problem) : Prop where
  format : p.dataFormat = q.format
  filterLayout : p.filterLayout = FilterGradient.filterLayout q.filter.length
  input : p.input = q.input
  filter : p.filter = q.filter
  outBackprop : p.outBackprop = q.outBackprop
  channels : p.channels = q.groupCount * q.groupSize
  groupCount : p.groupCount = q.groupCount
  groupSize : p.groupSize = q.groupSize
  shape : p.singleGroupedShape = 1 :: (q.groupCount * q.batch) :: q.inSizes
  strides : p.singleGroupedStrides = q.inSizes.prod :: q.inSizes.prod :: packedStrides q.inSizes

/-- How the window of the forward direction moves, with the paddings that the kernel has. -/
def Params.sweeps (p : Params) : List Sweep :=
  (p.strides.zip (p.dilations.zip p.startPadding)).map fun entry =>
    ⟨entry.1, entry.2.1, entry.2.2⟩

theorem Params.sweeps_convolution (p : Params) :
    p.convolution.sweeps = p.sweeps.map Sweep.swap := by
  have zipped (strides dilations paddings : List Nat) : (dilations.zip (strides.zip paddings)).map
          (fun entry => (⟨entry.1, entry.2.1, entry.2.2⟩ : Sweep)) =
        ((strides.zip (dilations.zip paddings)).map
          (fun entry => (⟨entry.1, entry.2.1, entry.2.2⟩ : Sweep))).map Sweep.swap := by
    induction strides generalizing dilations paddings with
    | nil => simp
    | cons stride strides ih =>
      cases dilations with
      | nil => simp
      | cons dilation dilations =>
        cases paddings with
        | nil => simp
        | cons padding paddings => simp [ih, Sweep.swap]
  exact zipped p.strides p.dilations p.startPadding

variable {format : TensorFormat} {n channel : Nat} {position spatial : List Nat}

theorem arrange_mem {batch channels : Nat} (first : n < batch) (snd : channel < channels)
    (mem : position ∈ indices spatial) :
    arrange format n channel position ∈ indices (arrange format batch channels spatial) := by
  have last : [channel] ∈ indices [channels] :=
    mem_indices_cons.mpr ⟨channel, snd, [], mem_singleton.mpr rfl, rfl⟩
  have trailing : n :: position ++ [channel] ∈ indices (batch :: spatial ++ [channels]) :=
    append_mem_indices (mem_indices_cons.mpr ⟨n, first, position, mem, rfl⟩) last
  cases format with
  | nchw =>
    exact mem_indices_cons.mpr ⟨n, first, _,
      mem_indices_cons.mpr ⟨channel, snd, position, mem, rfl⟩, rfl⟩
  | nhwc | nchwVectC | nhwcVectW | hwnc | hwcn => exact trailing

theorem input_mem {q : Problem} (first : n < q.batch)
    (snd : channel < q.groupCount * q.groupSize) (mem : position ∈ indices q.inSizes) :
    arrange q.format n channel position ∈ indices q.input := arrange_mem first snd mem

theorem outBackprop_mem {q : Problem} {out : List Nat} (first : n < q.batch)
    (snd : channel < q.filters) (mem : out ∈ indices q.outSizes) :
    arrange q.format n channel out ∈ indices q.outBackprop := arrange_mem first snd mem

theorem length_arrange {α : Type} (format : TensorFormat) (n channel : α) (spatial : List α) :
    (arrange format n channel spatial).length = spatial.length + 2 := by
  cases format with
  | nhwc | nchw | nchwVectC | nhwcVectW | hwnc | hwcn => simp [arrange]

theorem prod_arrange (format : TensorFormat) (n channel : Nat) (spatial : List Nat) :
    (arrange format n channel spatial).prod = n * channel * spatial.prod := by
  cases format with
  | nchw => simp [arrange, mul_assoc]
  | nhwc | nchwVectC | nhwcVectW | hwnc | hwcn =>
    simp only [arrange, prod_append, prod_cons, prod_nil]
    ring

theorem forall_arrange {P : Nat → Prop} (first : P n) (snd : P channel)
    (each : ∀ size ∈ spatial, P size) : ∀ size ∈ arrange format n channel spatial, P size := by
  intro size mem
  have cases_ : size = n ∨ size = channel ∨ size ∈ spatial := by
    cases format with
    | nchw => simpa [arrange] using mem
    | nhwc | nchwVectC | nhwcVectW | hwnc | hwcn =>
      have got : size = n ∨ size ∈ spatial ∨ size = channel := by simpa [arrange] using mem
      tauto
  rcases cases_ with rfl | rfl | inside
  · exact first
  · exact snd
  · exact each size inside

theorem filter_mem_indices {q : Problem} {index : List Nat} :
    index ∈ indices q.filter ↔ ∃ tap ∈ indices q.taps, ∃ i < q.groupSize, ∃ k < q.filters,
      index = tap ++ [i, k] := by
  have channels (inner : List Nat) : inner ∈ indices [q.groupSize, q.filters] ↔
      ∃ i < q.groupSize, ∃ k < q.filters, inner = [i, k] := by
    rw [indices_pair]
    simp [eq_comm]
  rw [Problem.filter, mem_indices_append]
  simp only [channels]
  constructor
  · rintro ⟨tap, mem, _, ⟨i, row, k, column, rfl⟩, rfl⟩
    exact ⟨tap, mem, i, row, k, column, rfl⟩
  · rintro ⟨tap, mem, i, row, k, column, rfl⟩
    exact ⟨tap, mem, _, ⟨i, row, k, column, rfl⟩, rfl⟩

section Compute

variable {p : Params} {q : Problem} {R : Type} [CommSemiring R]

variable {i : Nat}

theorem channel_lt {j : Nat} (row : i < q.groupSize) (column : j < q.groupCount) :
    j * q.groupSize + i < q.groupCount * q.groupSize := by
  calc j * q.groupSize + i < j * q.groupSize + q.groupSize := by omega
    _ = (j + 1) * q.groupSize := by ring
    _ ≤ q.groupCount * q.groupSize := Nat.mul_le_mul_right _ column

theorem group_lt (sound : q.Sound) {outChannel : Nat} (lt : outChannel < q.filters) :
    q.group outChannel < q.groupCount := by
  obtain ⟨width, whole⟩ := sound.divides
  have some_ : 0 < width := Nat.pos_of_ne_zero fun zero => by
    have outs := sound.outputs
    rw [whole, zero, mul_zero] at outs
    exact Nat.lt_irrefl 0 outs
  rw [Problem.group, whole, Nat.mul_div_cancel_left _ sound.groups,
    Nat.div_lt_iff_lt_mul some_, ← whole]
  exact lt

theorem rank_eq (sound : q.Sound) :
    (q.input.length = 4 ∨ q.input.length = 5) ∧ (q.filter.length = 4 ∨ q.filter.length = 5) ∧
      q.outBackprop.length = q.input.length := by
  have rank := sound.rank
  have inRank := sound.inRank
  have outRank := sound.outRank
  simp only [Problem.input, Problem.outBackprop, length_arrange, Problem.filter,
    length_append, length_cons, length_nil]
  omega

theorem described_of_moves {layout : DmlTensorLayout} {rank : Nat} {toLayout : List Nat → List Nat}
    {shape : List Nat} (moves : Moves layout rank toLayout) (whole : shape.length = rank)
    (positive : ∀ size ∈ shape, 0 < size) (small : shape.prod < 2 ^ 32) :
    Expression.Described shape layout where
  distinct := moves.distinct
  named := moves.named
  whole := moves.length.trans whole.symm
  rank := whole.trans_le moves.rank_le
  positive := positive
  small := small

variable {k : Nat}

theorem getElem?_eq_getD {values : List R} (lt : k < values.length) :
    values[k]? = some (values.getD k 0) := by
  rw [getD_eq_getElem _ _ lt, getElem?_eq_getElem lt]

variable {x dy : List R}

/-- An index of the regrouped input, as one of the input. -/
def Problem.originalIndex (q : Problem) : List Nat → List Nat
  | m :: entry :: position => arrange q.format (entry % q.batch)
      (entry / q.batch * q.groupSize + m) position
  | _ => []

theorem window_gradient (sound : q.Sound) {grouped filter : Expression R}
    (groupedReads : ∀ i < q.groupSize, ∀ j < q.groupCount, ∀ n < q.batch,
      ∀ position ∈ indices q.inSizes, grouped.read (i :: (j * q.batch + n) :: position) =
        some (x.getD (flatten q.input (arrange q.format n (j * q.groupSize + i) position)) 0))
    (filterReads : ∀ k < q.filters, ∀ n < q.batch, ∀ out ∈ indices q.outSizes,
      filter.read (k :: n :: out) =
        some (dy.getD (flatten q.outBackprop (arrange q.format n k out)) 0)) (sweeps : List Sweep)
    (row : i < q.groupSize) (column : k < q.filters) (tap : List Nat) :
    Expression.window grouped filter (q.batch :: q.outSizes)
      (tapSource i (q.group k * q.batch) q.inSizes (sweeps.map Sweep.swap) tap) k =
      some (q.gradient sweeps x dy tap i k) := by
  have split (n : Nat) (lt : n < q.batch) : (q.group k * q.batch + n) % q.batch = n ∧
      (q.group k * q.batch + n) / q.batch = q.group k := by
    rw [mul_comm, Nat.mul_add_mod, Nat.mod_eq_of_lt lt,
      Nat.mul_add_div sound.batches, Nat.div_eq_of_lt lt]
    exact ⟨rfl, add_zero _⟩
  have inputReads : ∀ entry ∈ indices (q.batch :: q.outSizes), ∀ index,
      tapSource i (q.group k * q.batch) q.inSizes (sweeps.map Sweep.swap) tap entry =
        some index → grouped.read index = some (x.getD (flatten q.input (q.originalIndex index)) 0) := by
    intro entry mem index got
    obtain ⟨n, lt, out, -, rfl⟩ := mem_indices_cons.mp mem
    obtain ⟨position, there, rfl⟩ := map_eq_some_iff.mp got
    simp only [Problem.originalIndex, split n lt]
    exact groupedReads i row (q.group k) (group_lt sound column) n lt position
      (insideIndex_mem there)
  have backpropReads : ∀ entry ∈ indices (q.batch :: q.outSizes), filter.read (k :: entry) =
      some (dy.getD (flatten q.outBackprop (q.backpropIndex k entry)) 0) := by
    intro entry mem
    obtain ⟨n, lt, out, there, rfl⟩ := mem_indices_cons.mp mem
    exact filterReads k column n lt out there
  rw [window_eq_some (x := fun index => x.getD (flatten q.input (q.originalIndex index)) 0)
    inputReads backpropReads, Option.some.injEq]
  refine congrArg List.sum (map_congr_left fun entry mem => ?_)
  obtain ⟨n, lt, out, -, rfl⟩ := mem_indices_cons.mp mem
  simp only [tapSource, Problem.source, tapIndex_swap]
  cases tapIndex q.inSizes sweeps out tap with
  | none => rfl
  | some position => simp only [map_some, elim_some, Problem.originalIndex, split n lt]

theorem compute_eq (helper : BufferTensorSize) {dataType : DataType} {dmlDataType : DmlDataType}
    (known : getDmlDataTypeFromTfDataType dataType = some dmlDataType) (describes : p.Describes q)
    (sound : q.Sound) (grouped : 1 < q.groupCount) (placed : ∀ i < q.groupSize, ∀ j < q.groupCount,
      regroupIndex q.groupCount i j = j * q.groupSize + i) (sized : x.length = q.input.prod)
    (sized' : dy.length = q.outBackprop.prod) :
    p.compute helper dataType x dy = some ((q.gradients p.sweeps x dy).map some) := by
  obtain ⟨inRank, filterRank, outRank⟩ := rank_eq sound
  obtain ⟨layout, got, moves⟩ := swappedLayout_moves sound.format inRank
  have filterMoves := filterLayout_moves filterRank
  have inDescribed : Expression.Described q.input layout := described_of_moves moves rfl
    (forall_arrange sound.batches (mul_pos sound.groups sound.channels) sound.inPositive)
    sound.inSmall
  have outDescribed : Expression.Described q.outBackprop layout := described_of_moves moves outRank
    (forall_arrange sound.batches sound.outputs sound.outPositive) sound.outSmall
  have filterDescribed : Expression.Described q.filter (filterLayout q.filter.length) := by
    refine described_of_moves filterMoves rfl (fun size mem => ?_) sound.filterSmall
    simp only [Problem.filter, mem_append, mem_cons, not_mem_nil, or_false] at mem
    rcases mem with lt | rfl | rfl
    · exact sound.tapsPositive size lt
    · exact sound.channels
    · exact sound.outputs
  obtain ⟨input, isInput, inputSizes, inputReads⟩ := inDescribed.ofLayout_eq_some helper known x
  obtain ⟨filter, isFilter, filterSizes, filterReads⟩ :=
    outDescribed.ofLayout_eq_some helper known dy
  obtain ⟨output, new, outputSizes, moved, addresses, length⟩ :=
    filterDescribed.exists_buffer helper known
  rw [moves.sizes _ rfl, Problem.input, channelsFirst_arrange sound.format, ← describes.channels]
    at inputSizes
  rw [moves.sizes _ outRank, Problem.outBackprop, channelsFirst_arrange sound.format]
    at filterSizes
  rw [filterMoves.sizes _ rfl, Problem.filter, filtersFirst_append] at outputSizes
  have rows : p.RowShape q.batch q.inSizes := by
    refine ⟨?_, describes.strides, sound.inPositive, ?_, ?_⟩
    · rw [describes.shape, describes.groupCount]
    · rw [describes.groupCount]
      exact mul_pos sound.groups sound.batches
    · have small := sound.inSmall
      rw [Problem.input, prod_arrange] at small
      exact (Nat.le_mul_of_pos_left _ (mul_pos sound.batches
        (mul_pos sound.groups sound.channels))).trans_lt small
  obtain ⟨regrouped, isRegrouped, regroupedSizes, regroupedReads⟩ := Params.exists_groupedInput
    rows (describes.groupCount ▸ grouped) (describes.groupSize ▸ sound.channels) inputSizes
    (fun i row j column => by
      rw [describes.groupSize] at row
      rw [describes.groupCount] at column ⊢
      rw [describes.channels, placed i row j column]
      exact channel_lt row column)
  rw [describes.groupSize, describes.groupCount] at regroupedSizes regroupedReads
  have groupedReads : ∀ i < q.groupSize, ∀ j < q.groupCount, ∀ n < q.batch,
      ∀ position ∈ indices q.inSizes, regrouped.read (i :: (j * q.batch + n) :: position) =
        some (x.getD (flatten q.input (arrange q.format n (j * q.groupSize + i) position)) 0) := by
    intro i row j column n first position mem
    have arranged := input_mem first (channel_lt row column) mem
    rw [regroupedReads i row j column n first position mem, placed i row j column]
    have read := inputReads _ arranged
    rw [moves.index _ (length_of_mem_indices arranged), channelsFirst_arrange sound.format] at read
    rw [read]
    exact getElem?_eq_getD (sized ▸ flatten_lt arranged)
  have backpropReads : ∀ k < q.filters, ∀ n < q.batch, ∀ out ∈ indices q.outSizes,
      filter.read (k :: n :: out) =
        some (dy.getD (flatten q.outBackprop (arrange q.format n k out)) 0) := by
    intro k column n first out mem
    have arranged := outBackprop_mem first column mem
    have read := filterReads _ arranged
    rw [moves.index _ ((length_of_mem_indices arranged).trans outRank),
      channelsFirst_arrange sound.format] at read
    rw [read]
    exact getElem?_eq_getD (sized' ▸ flatten_lt arranged)
  have count : p.convolution.groupCount = q.groupCount := describes.groupCount
  have last := lastElement_of_addresses filterDescribed.prod_pos moved addresses length
  rw [Params.compute, describes.input, describes.outBackprop, describes.filter,
    describes.filterLayout, describes.format, got]
  simp only [bind_eq_bind, bind_some, isInput, isFilter, new, isRegrouped]
  rw [Expression.convolution, regroupedSizes, filterSizes, outputSizes]
  simp only [count, sound.divides, and_self, if_true, bind_some]
  refine congrArg some ((buffer_stored moved addresses last _).trans ?_)
  rw [Problem.gradients, List.map_map]
  refine map_congr_left fun index mem => ?_
  obtain ⟨tap, tapMember, i, row, k, column, rfl⟩ := filter_mem_indices.mp mem
  rw [filterMoves.index _ (length_of_mem_indices mem), filtersFirst_append, Function.comp_apply,
    q.gradientAt_append (length_of_mem_indices tapMember)]
  have window := window_gradient sound groupedReads backpropReads p.sweeps row column tap
  rw [← Params.sweeps_convolution] at window
  exact window

end Compute

section Agree

variable {q : Problem}

/-- The same elements of the input are met, whichever of the paddings is read. -/
def Problem.SameTaps (q : Problem) (sweeps sweeps' : List Sweep) : Prop :=
  ∀ tap ∈ indices q.taps, ∀ out ∈ indices q.outSizes,
    tapIndex q.inSizes sweeps out tap = tapIndex q.inSizes sweeps' out tap

theorem gradients_congr {sweeps sweeps' : List Sweep} (same : q.SameTaps sweeps sweeps')
    {R : Type} [CommSemiring R] (x dy : List R) :
    q.gradients sweeps x dy = q.gradients sweeps' x dy := by
  refine map_congr_left fun index mem => ?_
  obtain ⟨tap, tapMember, i, -, k, -, rfl⟩ := filter_mem_indices.mp mem
  have whole := length_of_mem_indices tapMember
  rw [q.gradientAt_append whole, q.gradientAt_append whole]
  refine tapSum_congr (fun entry lt => ?_) _ _
  obtain ⟨n, -, out, there, rfl⟩ := mem_indices_cons.mp lt
  simp only [Problem.source, same tap tapMember out there]

theorem gradient_map (sound : q.Sound) (sweeps : List Sweep) (tap : List Nat)
    (x y : List Nat → Int) : q.gradient sweeps ((indices q.input).map x)
        ((indices q.outBackprop).map fun index => y (channelsFirst q.format index).tail) tap 0 0 =
      tapSum (indices (q.batch :: q.outSizes)) (q.source sweeps tap 0 0) x y := by
  have element {shape index : List Nat} (f : List Nat → Int) (mem : index ∈ indices shape) :
      ((indices shape).map f).getD (flatten shape index) 0 = f index := by
    rw [getD_eq_getElem?_getD, getElem?_map, getElem?_flatten mem]
    rfl
  refine congrArg List.sum (map_congr_left fun entry mem => ?_)
  obtain ⟨n, first, out, there, rfl⟩ := mem_indices_cons.mp mem
  have snd : 0 < q.filters := sound.outputs
  have back : ((indices q.outBackprop).map fun index => y (channelsFirst q.format index).tail).getD
      (flatten q.outBackprop (arrange q.format n 0 out)) 0 = y (n :: out) := by
    rw [element _ (outBackprop_mem first snd there), channelsFirst_arrange sound.format, tail_cons]
  simp only [Problem.backpropIndex, back]
  congr 1
  cases got : q.source sweeps tap 0 0 (n :: out) with
  | none => rfl
  | some index =>
    obtain ⟨position, read, rfl⟩ := map_eq_some_iff.mp got
    have channel : q.group 0 * q.groupSize + 0 < q.groupCount * q.groupSize := by
      rw [Problem.group, Nat.zero_div, zero_mul]
      exact mul_pos sound.groups sound.channels
    rw [elim_some, elim_some, element _ (input_mem first channel (insideIndex_mem read))]

theorem arrange_injective {format : TensorFormat} (known : format = .nhwc ∨ format = .nchw)
    (n channel : Nat) : Function.Injective (arrange format n channel) := by
  intro position position' same
  have moved := congrArg (channelsFirst format) same
  rw [channelsFirst_arrange known, channelsFirst_arrange known] at moved
  simpa using moved

theorem gradients_agree_iff (sound : q.Sound) (sweeps sweeps' : List Sweep) :
    (∀ x dy : List Int, x.length = q.input.prod → dy.length = q.outBackprop.prod →
      q.gradients sweeps x dy = q.gradients sweeps' x dy) ↔ q.SameTaps sweeps sweeps' := by
  refine ⟨fun agree tap tapMember out there => ?_, fun same x dy _ _ => gradients_congr same x dy⟩
  have first : tap ++ [0, 0] ∈ indices q.filter :=
    filter_mem_indices.mpr ⟨tap, tapMember, 0, sound.channels, 0, sound.outputs, rfl⟩
  have whole := length_of_mem_indices tapMember
  have sums (x y : List Nat → Int) :
      tapSum (indices (q.batch :: q.outSizes)) (q.source sweeps tap 0 0) x y =
        tapSum (indices (q.batch :: q.outSizes)) (q.source sweeps' tap 0 0) x y := by
    have lists := agree ((indices q.input).map x)
      ((indices q.outBackprop).map fun index => y (channelsFirst q.format index).tail)
      (by rw [length_map, length_indices]) (by rw [length_map, length_indices])
    have xs := map_inj_left.mp lists _ first
    rwa [q.gradientAt_append whole, q.gradientAt_append whole, gradient_map sound,
      gradient_map sound] at xs
  have entry : 0 :: out ∈ indices (q.batch :: q.outSizes) :=
    mem_indices_cons.mpr ⟨0, sound.batches, out, there, rfl⟩
  have same := (tapSum_agree_iff (nodup_indices _) _ _).mp sums _ entry
  exact map_injective (arrange_injective sound.format _ _) same

end Agree

section Calls

variable (params : Option Params) (q : Problem) (forward : List Sweep)

/-- The output of an op, whose kernel is not made where a tensor is empty. -/
def output (filter : TensorShape) (helper : BufferTensorSize) (dataType : DataType) {R : Type}
    [CommSemiring R] (x dy : List R) : Option (List (Option R)) :=
  match params with
  | none => some (zeroed filter)
  | some p => p.compute helper dataType x dy

/-- The channels are gathered in their groups, and the op computes the gradient. -/
structure GroupedGradient (helper : BufferTensorSize) (dataType : DataType) : Prop where
  gathers : ∀ p, params = some p → p.GathersChannels
  computes : ∀ (R : Type) [CommSemiring R] (x dy : List R), x.length = q.input.prod →
    dy.length = q.outBackprop.prod →
    output params q.filter helper dataType x dy = some ((q.gradients forward x dy).map some)

variable {params q forward}

theorem gradients_of_empty {R : Type} [CommSemiring R] {x dy : List R}
    (empty : x = [] ∨ dy = []) (sweeps : List Sweep) :
    (q.gradients sweeps x dy).map some = zeroed q.filter := by
  rw [zeroed, TensorShape.numElements, Problem.gradients, List.map_map,
    ← length_indices, ← map_const']
  refine map_congr_left fun index mem => congrArg some ?_
  refine sum_eq_zero fun term lt => ?_
  obtain ⟨entry, -, rfl⟩ := List.mem_map.mp lt
  cases empty with
  | inl input =>
    subst input
    cases q.source sweeps (index.take q.taps.length) (index.getD q.taps.length 0)
      (index.getD (q.taps.length + 1) 0) entry with
    | none => exact zero_mul _
    | some element => exact zero_mul _
  | inr backprop =>
    subst backprop
    exact mul_zero _

theorem groupedGradient_iff (helper : BufferTensorSize) {dataType : DataType}
    {dmlDataType : DmlDataType} (known : getDmlDataTypeFromTfDataType dataType = some dmlDataType)
    (grouped : 1 < q.groupCount)
    (skip : params = none → q.input.prod = 0 ∨ q.filter.prod = 0 ∨ q.outBackprop.prod = 0)
    (desc : ∀ p, params = some p → p.Describes q ∧ q.Sound) :
    GroupedGradient params q forward helper dataType ↔ params = none ∨
      q.groupCount = q.groupSize ∧ ∀ p, params = some p → q.SameTaps p.sweeps forward := by
  cases params with
  | none =>
    refine iff_of_true ⟨fun p absurd_ => (nomatch absurd_), fun R _ x dy sized sized' => ?_⟩
      (.inl rfl)
    rcases skip rfl with input | filter | backprop
    · rw [output, gradients_of_empty (.inl (length_eq_zero_iff.mp (sized.trans input)))]
    · have nothing : indices q.filter = [] :=
        length_eq_zero_iff.mp ((length_indices _).trans filter)
      rw [output, zeroed, TensorShape.numElements, filter, Problem.gradients, nothing]
      rfl
    · rw [output, gradients_of_empty (.inr (length_eq_zero_iff.mp (sized'.trans backprop)))]
  | some p =>
    obtain ⟨describes, sound⟩ := desc p rfl
    have lt : p.channels < 2 ^ 32 := by
      have bound := sound.inSmall
      rw [Problem.input, prod_arrange, ← describes.channels, Nat.mul_right_comm] at bound
      refine lt_of_le_of_lt (Nat.le_mul_of_pos_left _ ?_) bound
      exact mul_pos sound.batches (Nat.pos_of_ne_zero fun zero =>
        (sound.inPositive 0 (prod_eq_zero_iff.mp zero)).ne' rfl)
    have gathers := Params.gathersChannels_iff (p := p) (describes.groupSize ▸ sound.channels)
      (describes.groupCount ▸ grouped)
      (by rw [describes.channels, describes.groupCount, describes.groupSize]) lt
    rw [describes.groupCount, describes.groupSize] at gathers
    have eq (square : q.groupCount = q.groupSize) {R : Type} [CommSemiring R]
        {x dy : List R} (sized : x.length = q.input.prod)
        (sized' : dy.length = q.outBackprop.prod) :
        p.compute helper dataType x dy = some ((q.gradients p.sweeps x dy).map some) := by
      refine compute_eq helper known describes sound grouped (fun i row j column => ?_) sized
        sized'
      have placed := (gathers.mpr square).placed (j * q.groupSize + i) (by
        rw [describes.channels]
        exact channel_lt row column)
      rwa [describes.groupCount, describes.groupSize, mul_comm, Nat.mul_add_mod,
        Nat.mod_eq_of_lt row, Nat.mul_add_div sound.channels, Nat.div_eq_of_lt row, add_zero,
        mul_comm] at placed
    constructor
    · intro right
      have square := gathers.mp (right.gathers p rfl)
      refine .inr ⟨square, fun _ same => ?_⟩
      obtain rfl := some.inj same
      refine (gradients_agree_iff sound p.sweeps forward).mp fun x dy sized sized' => ?_
      have values := (eq square sized sized').symm.trans (right.computes Int x dy sized sized')
      exact map_injective_iff.mpr (some_injective _) (some.inj values)
    · rintro (absurd_ | ⟨square, same⟩)
      · exact (nomatch absurd_)
      · refine ⟨fun _ got => ?_, fun R _ x dy sized sized' => ?_⟩
        · obtain rfl := some.inj got
          exact gathers.mpr square
        · rw [output, eq square sized sized', gradients_congr (same p rfl)]

end Calls

end TfDml.FilterGradient
