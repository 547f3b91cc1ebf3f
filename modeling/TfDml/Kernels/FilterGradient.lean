import TfDml.Core.DmlConvolution

/-! # The gradient of a filter with groups

The gradient of a filter is a convolution of the input with the gradient that comes back, where the
channels take the place of the batches. With groups, the channels of the input are regrouped first:
a group has the batches of one channel in a row.
-/

namespace TfDml.FilterGradient

open Lib DmlGraph Option
open List hiding flatten
open DmlTensorDesc (BufferTensorSize createLayout getDmlTensorLayout packedStrides)

def arrange {α : Type} (format : TensorFormat) (batch channel : α) (spatial : List α) : List α :=
  match format with
  | .nchw => batch :: channel :: spatial
  | _ => batch :: spatial ++ [channel]

/-- The layout of a format with the batch and the channels in each other's place. -/
def swappedLayout (format : TensorFormat) (rank : Nat) : Option DmlTensorLayout := do
  let layout ← getDmlTensorLayout format rank
  match format with
  | .nhwc => some ((layout.set 0 (layout.getD (rank - 1) .c)).set (rank - 1) (layout.getD 0 .n))
  | .nchw => some ((layout.set 0 (layout.getD 1 .c)).set 1 (layout.getD 0 .n))
  | _ => none

/-- What the kernel of a filter's gradient hands to DirectML, in 32 bits. -/
structure Params where
  dataFormat : TensorFormat
  filterLayout : DmlTensorLayout
  input : TensorShape
  filter : TensorShape
  outBackprop : TensorShape
  channels : Nat
  groupCount : Nat
  groupSize : Nat
  singleGroupedShape : List Nat
  singleGroupedStrides : List Nat
  strides : List Nat
  dilations : List Nat
  startPadding : List Nat
  endPadding : List Nat

/-- The slice that is `j`-th in the `i`-th row of the regrouped input. -/
def regroupIndex (groupCount i j : Nat) : Nat := (i + groupCount * j) % 2 ^ 32

namespace Params

variable (p : Params)

section Kernel

variable {R : Type} [CommSemiring R]

/-- The input, regrouped if there is more than one group. -/
def groupedInput (input : Expression R) : Option (Expression R) :=
  if 1 < p.groupCount then do
    let inputTensors ← (List.range p.groupSize).mapM fun i => do
      let tempTensors ← (List.range p.groupCount).mapM fun j =>
        input.split 0 (List.replicate p.channels 1) (regroupIndex p.groupCount i j)
      let tempJoinedInput ← Expression.join tempTensors 0
      tempJoinedInput.reinterpret p.singleGroupedShape (some p.singleGroupedStrides)
    Expression.join inputTensors 0
  else some input

/-- Strides and dilations are swapped when computing the gradient of a filter. -/
def convolution : Convolution where
  strides := p.dilations
  dilations := p.strides
  startPadding := p.startPadding
  endPadding := p.endPadding
  groupCount := p.groupCount

def compute (helper : BufferTensorSize) (dataType : DataType) (x dy : List R) :
    Option (List (Option R)) := do
  let layout ← swappedLayout p.dataFormat p.input.length
  let input ← Expression.ofLayout helper dataType p.input layout x
  let filter ← Expression.ofLayout helper dataType p.outBackprop layout dy
  let output ← createLayout helper dataType p.filter p.filter p.filterLayout
  let groupedInput ← p.groupedInput input
  let result ← Expression.convolution p.convolution groupedInput filter output.desc
  return result.buffer

end Kernel

def regrouped : List Nat :=
  (List.range p.groupSize ×ˢ List.range p.groupCount).map fun entry =>
    regroupIndex p.groupCount entry.1 entry.2

structure GathersChannels : Prop where
  existing : ∀ index ∈ p.regrouped, index < p.channels
  once : ∀ channel < p.channels, p.regrouped.count channel = 1
  placed : ∀ channel < p.channels,
    regroupIndex p.groupCount (channel % p.groupSize) (channel / p.groupSize) = channel

variable {p}

theorem gathersChannels_iff (some_ : 0 < p.groupSize) (grouped : 1 < p.groupCount)
    (whole : p.channels = p.groupCount * p.groupSize) (small : p.channels < 2 ^ 32) :
    p.GathersChannels ↔ p.groupCount = p.groupSize := by
  constructor
  · intro gathers
    -- the first channel of the second group is looked up as the one at `groupCount`
    have second : p.groupSize < p.channels := by
      rw [whole]
      exact (Nat.lt_mul_iff_one_lt_left some_).mpr grouped
    have placed := gathers.placed p.groupSize second
    have few : p.groupCount ≤ p.channels := whole ▸ Nat.le_mul_of_pos_right _ some_
    rw [regroupIndex, Nat.mod_self, Nat.div_self some_, zero_add, mul_one,
      Nat.mod_eq_of_lt (by omega)] at placed
    exact placed
  · intro square
    have index {i j : Nat} (row : i < p.groupSize) (column : j < p.groupCount) :
        regroupIndex p.groupCount i j = i + p.groupSize * j ∧ i + p.groupSize * j < p.channels := by
      have below : i + p.groupSize * j < p.channels := by
        calc i + p.groupSize * j < p.groupSize + p.groupSize * j := by omega
          _ = p.groupSize * (j + 1) := by ring
          _ ≤ p.groupSize * p.groupCount := Nat.mul_le_mul_left _ column
          _ = p.channels := by rw [whole, mul_comm]
      rw [regroupIndex, square, Nat.mod_eq_of_lt (by omega)]
      exact ⟨rfl, below⟩
    have placed (channel : Nat) (lt : channel < p.channels) :
        channel % p.groupSize < p.groupSize ∧ channel / p.groupSize < p.groupCount ∧
          regroupIndex p.groupCount (channel % p.groupSize) (channel / p.groupSize) = channel := by
      have row := Nat.mod_lt channel some_
      have column : channel / p.groupSize < p.groupCount :=
        (Nat.div_lt_iff_lt_mul some_).mpr (whole ▸ lt)
      exact ⟨row, column, (index row column).1.trans (Nat.mod_add_div _ _)⟩
    have nodup : p.regrouped.Nodup := by
      refine List.Nodup.map_on ?_ (nodup_range.product nodup_range)
      rintro ⟨i, j⟩ mem ⟨i', j'⟩ member' same
      rw [mem_product, mem_range, mem_range] at mem member'
      have eq : i + p.groupSize * j = i' + p.groupSize * j' :=
        (index mem.1 mem.2).1.symm.trans (same.trans (index member'.1 member'.2).1)
      have rows := congrArg (· % p.groupSize) eq
      simp only [Nat.add_mul_mod_self_left, Nat.mod_eq_of_lt mem.1,
        Nat.mod_eq_of_lt member'.1] at rows
      subst rows
      rw [Prod.mk.injEq]
      exact ⟨rfl, Nat.eq_of_mul_eq_mul_left some_ (by omega)⟩
    refine ⟨?_, fun channel lt => ?_, fun channel lt => (placed channel lt).2.2⟩
    · intro channel mem
      obtain ⟨⟨i, j⟩, entry, rfl⟩ := List.mem_map.mp mem
      rw [mem_product, mem_range, mem_range] at entry
      rw [(index entry.1 entry.2).1]
      exact (index entry.1 entry.2).2
    · obtain ⟨row, column, got⟩ := placed channel lt
      refine count_eq_one_of_mem nodup (List.mem_map.mpr ⟨(_, _), ?_, got⟩)
      exact mem_product.mpr ⟨mem_range.mpr row, mem_range.mpr column⟩

section Regrouped

variable {R : Type} {t : Expression R} {spatial : List Nat} {batch channels : Nat}

def channelSlice (t : Expression R) (rest : List Nat) (channel : Nat) : Expression R :=
  Expression.ofIndices (1 :: rest) fun index =>
    t.read (index.set 0 (channel + index.getD 0 0))

variable {rest : List Nat} {channel : Nat}

theorem split_channel (sizes : t.sizes = channels :: rest) (lt : channel < channels) :
    t.split 0 (List.replicate channels 1) channel = some (channelSlice t rest channel) := by
  have total : (List.replicate channels 1).sum = t.sizes.getD 0 0 := by
    rw [sum_replicate_nat, mul_one, sizes, getD_cons_zero]
  have pre : ((List.replicate channels 1).take channel).sum = channel := by
    rw [take_replicate, sum_replicate_nat, mul_one, Nat.min_eq_left lt.le]
  have one : (List.replicate channels 1).getD channel 0 = 1 := by
    rw [getD_eq_getElem _ _ (by simpa using lt), getElem_replicate]
  rw [Expression.split, if_pos ⟨total, by simpa using lt⟩, pre, one, sizes, set_cons_zero]
  rfl

theorem read_channelSlice {index : List Nat} (mem : index ∈ indices rest) :
    (channelSlice t rest channel).read (0 :: index) = t.read (channel :: index) :=
  Expression.read_ofIndices (mem_indices_cons.mpr ⟨0, one_pos, index, mem, rfl⟩)

/-- The strides of a row, in which the batches of all its channels are one dimension. -/
structure RowShape (p : Params) (batch : Nat) (spatial : List Nat) : Prop where
  shape : p.singleGroupedShape = 1 :: (p.groupCount * batch) :: spatial
  strides : p.singleGroupedStrides = spatial.prod :: spatial.prod :: packedStrides spatial
  positive : ∀ size ∈ spatial, 0 < size
  some_ : 0 < p.groupCount * batch
  small : spatial.prod < 2 ^ 32

theorem reinterpret_row (rows : RowShape p batch spatial) (f : List Nat → Option R) :
    ∃ view, (Expression.ofIndices (p.groupCount :: batch :: spatial) f).reinterpret
        p.singleGroupedShape (some p.singleGroupedStrides) = some view ∧
      view.sizes = 1 :: (p.groupCount * batch) :: spatial ∧
      ∀ j < p.groupCount, ∀ n < batch, ∀ position ∈ indices spatial,
        view.read (0 :: (j * batch + n) :: position) = f (j :: n :: position) := by
  refine ⟨_, Expression.reinterpret_eq_some.mpr ⟨rfl, ?_⟩, rows.shape, ?_⟩
  · have packed := lastElement_packed rows.positive rows.small
    simp only [Expression.extent, Expression.ofIndices, length_map, length_indices,
      rows.shape, rows.strides, DmlTensorDesc.lastElement_cons, prod_cons]
    obtain ⟨more, many⟩ : ∃ more, p.groupCount * batch = more + 1 :=
      ⟨p.groupCount * batch - 1, by have := rows.some_; omega⟩
    rw [← mul_assoc, many, Nat.add_sub_cancel, Nat.sub_self, zero_mul, zero_add,
      add_assoc, packed, Nat.succ_mul]
  · intro j column n lt position mem
    have index : j :: n :: position ∈ indices (p.groupCount :: batch :: spatial) :=
      mem_indices_cons.mpr ⟨j, column, _, mem_indices_cons.mpr ⟨n, lt, _, mem, rfl⟩, rfl⟩
    have addr : DmlTensorDesc.address (packedStrides spatial) position =
        flatten spatial position := DmlTensorDesc.addressed_of_lt rows.small position mem
    have place : DmlTensorDesc.address p.singleGroupedStrides (0 :: (j * batch + n) :: position) =
        flatten (p.groupCount :: batch :: spatial) (j :: n :: position) := by
      rw [rows.strides, DmlTensorDesc.address_cons, DmlTensorDesc.address_cons, addr, flatten,
        flatten, prod_cons]
      ring
    have got := @Expression.getElem?_ofIndices R _ f _ index
    simp only [Expression.read, Expression.place, place, got, join_some]

theorem exists_groupedInput (rows : RowShape p batch spatial) (grouped : 1 < p.groupCount)
    (some_ : 0 < p.groupSize) (sizes : t.sizes = p.channels :: batch :: spatial)
    (existing : ∀ i < p.groupSize, ∀ j < p.groupCount, regroupIndex p.groupCount i j < p.channels) :
    ∃ g, p.groupedInput t = some g ∧ g.sizes = p.groupSize :: (p.groupCount * batch) :: spatial ∧
      ∀ i < p.groupSize, ∀ j < p.groupCount, ∀ n < batch, ∀ position ∈ indices spatial,
        g.read (i :: (j * batch + n) :: position) =
          t.read (regroupIndex p.groupCount i j :: n :: position) := by
  let slices (i : Nat) : List (Expression R) := (List.range p.groupCount).map fun j =>
    channelSlice t (batch :: spatial) (regroupIndex p.groupCount i j)
  have split (i : Nat) (row : i < p.groupSize) :
      ((List.range p.groupCount).mapM fun j => t.split 0 (List.replicate p.channels 1)
        (regroupIndex p.groupCount i j)) = some (slices i) :=
    mapM_eq_some fun j mem =>
      split_channel sizes (existing i row j (mem_range.mp mem))
  have slicesSized (i : Nat) : ∀ s ∈ slices i, s.sizes = 1 :: batch :: spatial := by
    intro s mem
    obtain ⟨j, -, rfl⟩ := List.mem_map.mp mem
    rfl
  have joined (i : Nat) : Expression.join (slices i) 0 = some (Expression.ofIndices
      (p.groupCount :: batch :: spatial) (Expression.readJoined 0 (slices i))) := by
    have whole : (slices i).length = p.groupCount := by simp [slices]
    have many : slices i ≠ [] := length_pos_iff.mp (by omega)
    rw [Expression.join_slices many (slicesSized i), whole]
  choose view viewed viewSizes viewReads using fun i => reinterpret_row rows
    (Expression.readJoined 0 (slices i))
  have turns : ((List.range p.groupSize).mapM fun i => do
      let tempTensors ← (List.range p.groupCount).mapM fun j =>
        t.split 0 (List.replicate p.channels 1) (regroupIndex p.groupCount i j)
      let tempJoinedInput ← Expression.join tempTensors 0
      tempJoinedInput.reinterpret p.singleGroupedShape (some p.singleGroupedStrides)) =
      some ((List.range p.groupSize).map view) := by
    refine mapM_eq_some fun i mem => ?_
    rw [split i (mem_range.mp mem), bind_eq_bind, bind_some, joined,
      bind_eq_bind, bind_some, viewed]
  have many : (List.range p.groupSize).map view ≠ [] := length_pos_iff.mp (by simpa using some_)
  have sliced : ∀ s ∈ (List.range p.groupSize).map view,
      s.sizes = 1 :: (p.groupCount * batch) :: spatial := by
    intro s mem
    obtain ⟨i, -, rfl⟩ := List.mem_map.mp mem
    exact viewSizes i
  have made : p.groupedInput t = Expression.join ((List.range p.groupSize).map view) 0 := by
    rw [groupedInput, if_pos grouped, turns, bind_eq_bind, bind_some]
  rw [Expression.join_slices many sliced] at made
  refine ⟨_, made, ?_, ?_⟩
  · simp [Expression.ofIndices]
  · intro i row j column n lt position mem
    have below : j * batch + n < p.groupCount * batch := by
      calc j * batch + n < j * batch + batch := by omega
        _ = (j + 1) * batch := by ring
        _ ≤ p.groupCount * batch := Nat.mul_le_mul_right _ column
    have index : i :: (j * batch + n) :: position ∈ indices
        (((List.range p.groupSize).map view).length :: (p.groupCount * batch) :: spatial) :=
      mem_indices_cons.mpr ⟨i, by simpa using row, _,
        mem_indices_cons.mpr ⟨_, below, _, mem, rfl⟩, rfl⟩
    have inner : n :: position ∈ indices (batch :: spatial) :=
      mem_indices_cons.mpr ⟨n, lt, _, mem, rfl⟩
    have slice : (slices i)[j]? = some (channelSlice t (batch :: spatial)
        (regroupIndex p.groupCount i j)) := by simp [slices, column]
    have part : ((List.range p.groupSize).map view)[i]? = some (view i) := by simp [row]
    rw [Expression.read_ofIndices index, Expression.readJoined_slices sliced, part, bind_some,
      viewReads i j column n lt position mem, Expression.readJoined_slices (slicesSized i),
      slice, bind_some, read_channelSlice inner]

end Regrouped

end Params

section Layouts

variable {format : TensorFormat} {rank : Nat}

/-- The index in DirectML's order, and the sizes. -/
structure Moves (layout : DmlTensorLayout) (rank : Nat) (toLayout : List Nat → List Nat) : Prop where
  distinct : layout.Nodup
  named : layout ≠ []
  rank_le : rank ≤ DmlTensorDesc.maxLayoutDimensionCount
  length : layout.length = rank
  index : ∀ index : List Nat, index.length = rank →
    BroadcastView.layoutIndex layout index = toLayout index
  sizes : ∀ sizes : List Nat, sizes.length = rank →
    Expression.Described.sizes layout sizes = toLayout sizes

/-- The size of the channels, or the entry of the channels in an index. -/
def channelsOf (format : TensorFormat) (sizes : List Nat) : Nat :=
  match format with
  | .nchw => sizes.getD 1 0
  | _ => sizes.getD (sizes.length - 1) 0

def spatialOf (format : TensorFormat) (sizes : List Nat) : List Nat :=
  match format with
  | .nchw => sizes.drop 2
  | _ => (sizes.drop 1).dropLast

def channelsFirst (format : TensorFormat) (index : List Nat) : List Nat :=
  channelsOf format index :: index.getD 0 0 :: spatialOf format index

theorem channelsFirst_arrange (known : format = .nhwc ∨ format = .nchw) (batch channel : Nat)
    (spatial : List Nat) :
    channelsFirst format (arrange format batch channel spatial) = channel :: batch :: spatial := by
  cases known with
  | inl nhwc => simp [nhwc, channelsFirst, channelsOf, spatialOf, arrange]
  | inr nchw => simp [nchw, channelsFirst, channelsOf, spatialOf, arrange]

theorem arrange_parts (known : format = .nhwc ∨ format = .nchw) {sizes : List Nat}
    (rank_ : 2 ≤ sizes.length) :
    arrange format (sizes.getD 0 0) (channelsOf format sizes) (spatialOf format sizes) = sizes := by
  match sizes, rank_ with
  | batch :: next :: rest, _ =>
    cases known with
    | inl nhwc =>
      have last : (batch :: next :: rest).getD (rest.length + 1) 0 =
          (next :: rest).getLast (by simp) := by
        rw [getD_cons_succ, getD_eq_getElem _ _ (by simp), getLast_eq_getElem]
        simp
      simp only [nhwc, arrange, channelsOf, spatialOf, length_cons, Nat.add_sub_cancel, last,
        getD_cons_zero, drop_succ_cons, drop_zero, cons_append, dropLast_append_getLast]
    | inr nchw => simp [nchw, arrange, channelsOf, spatialOf]

def filtersFirst (index : List Nat) : List Nat :=
  index.getD (index.length - 2) 0 :: index.getD (index.length - 1) 0 ::
    index.take (index.length - 2)

theorem filtersFirst_append (tap : List Nat) (i k : Nat) :
    filtersFirst (tap ++ [i, k]) = i :: k :: tap := by
  simp [filtersFirst]

variable {layout : DmlTensorLayout} {toLayout : List Nat → List Nat}

theorem moves_four (distinct : layout.Nodup) (length : layout.length = 4)
    (each : ∀ a b c d, BroadcastView.layoutIndex layout [a, b, c, d] = toLayout [a, b, c, d] ∧
      Expression.Described.sizes layout [a, b, c, d] = toLayout [a, b, c, d]) :
    Moves layout 4 toLayout where
  distinct := distinct
  named := ne_nil_of_length_pos (by omega)
  rank_le := by decide
  length := length
  index
    | [a, b, c, d], _ => (each a b c d).1
  sizes
    | [a, b, c, d], _ => (each a b c d).2

theorem moves_five (distinct : layout.Nodup) (length : layout.length = 5) (each : ∀ a b c d e,
      BroadcastView.layoutIndex layout [a, b, c, d, e] = toLayout [a, b, c, d, e] ∧
      Expression.Described.sizes layout [a, b, c, d, e] = toLayout [a, b, c, d, e]) :
    Moves layout 5 toLayout where
  distinct := distinct
  named := ne_nil_of_length_pos (by omega)
  rank_le := by decide
  length := length
  index
    | [a, b, c, d, e], _ => (each a b c d e).1
  sizes
    | [a, b, c, d, e], _ => (each a b c d e).2

theorem swappedLayout_moves (known : format = .nhwc ∨ format = .nchw)
    (rank_ : rank = 4 ∨ rank = 5) : ∃ layout, swappedLayout format rank = some layout ∧
      Moves layout rank (channelsFirst format) := by
  cases known with
  | inl nhwc =>
    subst nhwc
    cases rank_ with
    | inl four =>
      subst four
      exact ⟨[.c, .h, .w, .n], rfl, moves_four (by decide) rfl fun _ _ _ _ => ⟨rfl, rfl⟩⟩
    | inr five =>
      subst five
      exact ⟨[.c, .d, .h, .w, .n], rfl, moves_five (by decide) rfl
        fun _ _ _ _ _ => ⟨rfl, rfl⟩⟩
  | inr nchw =>
    subst nchw
    cases rank_ with
    | inl four =>
      subst four
      exact ⟨[.c, .n, .h, .w], rfl, moves_four (by decide) rfl fun _ _ _ _ => ⟨rfl, rfl⟩⟩
    | inr five =>
      subst five
      exact ⟨[.c, .n, .d, .h, .w], rfl, moves_five (by decide) rfl
        fun _ _ _ _ _ => ⟨rfl, rfl⟩⟩

def filterLayout (rank : Nat) : DmlTensorLayout :=
  if rank = 5 then [.d, .h, .w, .n, .c] else [.h, .w, .n, .c]

theorem filterLayout_moves (rank_ : rank = 4 ∨ rank = 5) :
    Moves (filterLayout rank) rank filtersFirst := by
  cases rank_ with
  | inl four =>
    subst four
    exact moves_four (by decide) rfl fun _ _ _ _ => ⟨rfl, rfl⟩
  | inr five =>
    subst five
    exact moves_five (by decide) rfl fun _ _ _ _ _ => ⟨rfl, rfl⟩

end Layouts

end TfDml.FilterGradient
