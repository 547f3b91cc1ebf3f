import TfDml.Kernels.BiasAdd
import TfDml.Lib.Grouping

/-! # The gradient of a bias is the adjoint of adding it

The bias is added along the channels, and the gradient sums over everything else, unless the
tensor has a rank that one of the two ops does not expect.
-/

namespace TfDml.BiasAdd

open Lib DmlGraph Optimizer
open List hiding flatten
open DmlTensorDesc (BufferTensorSize createLayout createShape kNcdhwDimensionCount
  kNchwDimensionCount)
open Stop Expression NoOpKernel

/-- The shape of a tensor without an empty dimension, which both ops accept with a bias of its
    channels. -/
structure Call where
  format : TensorFormat
  shape : TensorShape
  dataType : DataType
  known : format = .nhwc ∨ format = .nchw
  floating : dataType = .float ∨ dataType = .half
  rank : 2 ≤ shape.length ∧ shape.length ≤ 8
  positive : ∀ size ∈ shape, 0 < size
  small : shape.prod < 2 ^ 31 - 1

namespace Call

variable (c : Call)

def axis : Nat := channelDim c.format c.shape.length

def channels : Nat := c.shape.getD c.axis 0

def channelOf (index : List Nat) : Nat := index.getD c.axis 0

section Values

variable {R : Type} [CommRing R]

def added (helper : BufferTensorSize) (x b : List R) : Except Stop (List (Option R)) :=
  biasAdd helper c.dataType c.format c.shape [c.channels] x b

def summed (helper : BufferTensorSize) (dy : List R) : Except Stop (List (Option R)) :=
  biasAddGrad helper c.dataType c.format c.shape dy

def sums (x b : List R) : List R :=
  (indices c.shape).map fun index =>
    x.getD (flatten c.shape index) 0 + b.getD (c.channelOf index) 0

def gradient (dy : List R) : List R :=
  (List.range c.channels).map
    (pushforward (indexSet c.shape) c.channelOf fun index => dy.getD (flatten c.shape index) 0)

end Values

/-- `BiasAdd` and `BiasAddGrad` compute adjoint maps. -/
structure Adjoint (helper : BufferTensorSize) : Prop where
  adds : ∀ (R : Type) [CommRing R] (x b : List R), x.length = c.shape.prod →
    b.length = c.channels → c.added helper x b = .ok ((c.sums x b).map some)
  gathers : ∀ (R : Type) [CommRing R] (dy : List R), dy.length = c.shape.prod →
    c.summed helper dy = .ok ((c.gradient dy).map some)
  adjoint : ∀ (R : Type) [CommRing R] (x b dy : List R), x.length = c.shape.prod →
    b.length = c.channels → dy.length = c.shape.prod →
    ∃ out grad, c.added helper x b = .ok (out.map some) ∧ c.summed helper dy = .ok (grad.map some) ∧
      (zipWith (· * ·) (zipWith (· - ·) out x) dy).sum = (zipWith (· * ·) b grad).sum

def Placed : Prop :=
  c.format = .nhwc ∨ 3 ≤ c.shape.length ∧ c.shape.length ≤ 5 ∨
    6 ≤ c.shape.length ∧ c.channels = 1 ∧ ∀ size ∈ c.shape.drop 5, size = 1

variable {c}

theorem prod_pos : 0 < c.shape.prod :=
  Nat.pos_of_ne_zero fun zero => (c.positive 0 (prod_eq_zero_iff.mp zero)).ne' rfl

theorem axis_lt : c.axis < c.shape.length := by
  have rank := c.rank
  rw [axis, channelDim]
  split
  · omega
  · omega

theorem shape_eq : c.shape.take c.axis ++ c.channels :: c.shape.drop (c.axis + 1) = c.shape := by
  rw [channels, getD_eq_getElem _ _ axis_lt, getElem_cons_drop, take_append_drop]

theorem channels_pos : 0 < c.channels :=
  c.positive _ (by rw [channels, getD_eq_getElem _ _ axis_lt]; exact getElem_mem _)

def inner (c : Call) : Nat := (c.shape.drop (c.axis + 1)).prod

theorem channelOf_eq {index : List Nat} (mem : index ∈ indices c.shape) :
    c.channelOf index = flatten c.shape index / c.inner % c.channels := by
  have whole := c.shape_eq
  have split := @getD_of_flatten (c.shape.take c.axis) (c.shape.drop (c.axis + 1)) index c.channels
    (by rwa [whole])
  rwa [whole, length_take, min_eq_left (by have := c.axis_lt; omega)] at split

section Values

variable {R : Type} [CommRing R]

theorem sums_eq (x b : List R) : c.sums x b = (List.range c.shape.prod).map fun p =>
    x.getD p 0 + b.getD (p / c.inner % c.channels) 0 := by
  rw [sums, ← map_flatten_indices, map_map]
  refine map_congr_left fun index mem => ?_
  rw [channelOf_eq mem]
  rfl

theorem gradient_eq (dy : List R) : c.gradient dy = (List.range c.channels).map
    (pushforward (Finset.range c.shape.prod) (fun p => p / c.inner % c.channels)
      fun p => dy.getD p 0) := by
  rw [gradient]
  refine map_congr_left fun channel _ => ?_
  rw [← pushforward_flatten]
  exact pushforward_congr (fun index mem => channelOf_eq (mem_indexSet.mp mem))
    (fun _ _ => rfl) channel

end Values

end Call

section Forward

variable {outer inner : List Nat} {size : Nat}

theorem broadcast_bias : broadcast (size :: replicate inner.length 1) (outer ++ size :: inner) =
      some (outer ++ size :: inner) := by
  refine broadcast_eq_right_iff.mpr ⟨by simp, ?_⟩
  have missing : (outer ++ size :: inner).length - (size :: replicate inner.length 1).length =
      outer.length := by
    simp
  rw [aligned, missing]
  exact (stretches_ones outer).append (.cons (.inl rfl) (stretches_ones inner))

theorem flatten_bias {index : List Nat} (mem : index ∈ indices (outer ++ size :: inner)) :
    flatten (size :: replicate inner.length 1)
        (broadcastIndex (size :: replicate inner.length 1) index) = index.getD outer.length 0 := by
  obtain ⟨first, firstMember, _, snd, rfl⟩ := mem_indices_append.mp mem
  obtain ⟨k, lt, last, lastMember, rfl⟩ := mem_indices_cons.mp snd
  have firstLength := length_of_mem_indices firstMember
  have lastLength := length_of_mem_indices lastMember
  have dropped : (first ++ k :: last).drop ((first ++ k :: last).length -
      (size :: replicate inner.length 1).length) = k :: last := by
    have count : (first ++ k :: last).length -
        (size :: replicate inner.length 1).length = first.length := by
      simp [lastLength]
    rw [count, drop_left]
  have entry : (first ++ k :: last).getD outer.length 0 = k := by
    rw [← firstLength]
    simp
  have rest : stretchIndex (replicate inner.length 1) last ∈ indices (replicate inner.length 1) :=
    stretchIndex_mem (stretches_ones inner) lastMember
  have below := flatten_lt rest
  have unfolded : stretchIndex (size :: replicate inner.length 1) (k :: last) =
      (if size = 1 then 0 else k) :: stretchIndex (replicate inner.length 1) last := rfl
  rw [prod_replicate, Nat.one_pow] at below
  rw [broadcastIndex, dropped, unfolded, flatten, prod_replicate, Nat.one_pow, entry]
  split
  · omega
  · omega

variable {R : Type} [CommRing R] {dataType : DataType} {dmlDataType : DmlDataType}

theorem biasAddKernel_eq {shape physical : TensorShape} (packed : Expression.Packed shape)
    (broadcasts : broadcast physical shape = some shape) (helper : BufferTensorSize)
    (known : getDmlDataTypeFromTfDataType dataType = some dmlDataType) {x b : List R}
    (sized : x.length = shape.prod) (sized' : b.length = physical.prod) :
    biasAddKernel helper dataType shape physical x b = some ((indices shape).map fun index =>
      some (x.getD (flatten shape index) 0 +
        b.getD (flatten physical (broadcastIndex physical index)) 0)) := by
  obtain ⟨input, isInput, inputSizes, inputReads⟩ :=
    packed.ofShape_eq_some (broadcast_self shape) helper known x
  obtain ⟨bias, isBias, biasSizes, biasReads⟩ := packed.ofShape_eq_some broadcasts helper known b
  obtain ⟨output, out, outputSizes, put⟩ := exists_stored packed helper known
  obtain ⟨sum, isSum, buffer⟩ := elementWise₂_eq_some (f := fun u v : R => u + v)
    inputSizes biasSizes outputSizes put
  simp only [biasAddKernel, isInput, isBias, out, isSum, Option.bind_eq_bind, Option.bind_some]
  refine congrArg some (buffer.trans (map_congr_left fun index mem => ?_))
  have lt := flatten_lt mem
  have lt' := flatten_lt (broadcastIndex_mem (broadcast_eq_right_iff.mp broadcasts).2 mem)
  rw [← sized] at lt
  rw [← sized'] at lt'
  rw [inputReads index mem, biasReads index mem, broadcastIndex_of_mem mem, getElem?_eq_getElem lt,
    getElem?_eq_getElem lt', getD_eq_getElem _ _ lt, getD_eq_getElem _ _ lt']
  rfl

end Forward

section Backward

variable {batch channels inner : Nat} {R : Type} [CommRing R]

theorem mem_reduced {index : List Nat} (mem : index ∈ indices [batch, channels, inner, 1]) :
    ∃ n < batch, ∃ k < channels, ∃ i < inner, index = [n, k, i, 0] := by
  simp only [mem_indices_cons] at mem
  obtain ⟨n, first, _, ⟨k, snd, _, ⟨i, third, _, ⟨z, zero, _, last, rfl⟩, rfl⟩, rfl⟩, rfl⟩ := mem
  obtain rfl := mem_singleton.mp last
  obtain rfl : z = 0 := by omega
  exact ⟨n, first, k, snd, i, third, rfl⟩

theorem sum_reduced {t : Expression R} {values : List R}
    (reads : ∀ index ∈ indices [batch, channels, inner, 1], t.read index =
      some (values.getD (flatten [batch, channels, inner, 1] index) 0)) (k : Nat) :
    (((indices [batch, channels, inner, 1]).filter fun src =>
      setAxes [0, 2, 3] 0 src = [0, k, 0, 0]).mapM t.read).map List.sum =
      some (pushforward (Finset.range (batch * channels * inner)) (fun p => p / inner % channels)
        (fun p => values.getD p 0) k) := by
  let channel (index : List Nat) : Nat :=
    flatten [batch, channels, inner, 1] index / inner % channels
  have kept : ((indices [batch, channels, inner, 1]).filter fun src =>
      setAxes [0, 2, 3] 0 src = [0, k, 0, 0]) =
      (indices [batch, channels, inner, 1]).filter fun src => channel src = k := by
    refine filter_congr fun src mem => ?_
    have place := @getD_of_flatten [batch] [inner, 1] src channels mem
    obtain ⟨n, -, j, -, i, -, rfl⟩ := mem_reduced mem
    have entry : channel [n, j, i, 0] = j := by simpa using place.symm
    rw [entry]
    simp [setAxes]
  have read : ((indices [batch, channels, inner, 1]).filter fun src =>
      channel src = k).mapM t.read = some (((indices [batch, channels, inner, 1]).filter
        fun src => channel src = k).map fun src =>
          values.getD (flatten [batch, channels, inner, 1] src) 0) :=
    mapM_eq_some fun src mem => reads src (mem_of_mem_filter mem)
  rw [kept, read, Option.map_some]
  refine congrArg some ?_
  have positions := @pushforward_flatten _ _ _ _ [batch, channels, inner, 1]
    (fun p => p / inner % channels) (fun p => values.getD p 0) k
  have total : [batch, channels, inner, 1].prod = batch * channels * inner := by simp [mul_assoc]
  rw [← total, ← positions, pushforward, ← sum_toFinset _ ((nodup_indices _).filter _)]
  refine Finset.sum_congr ?_ fun _ _ => rfl
  ext index
  simp [indexSet, channel]

theorem biasAddGradKernel_eq {sizes : List Int} {shape : TensorShape} {layout : DmlTensorLayout}
    (desc : Expression.Described shape layout)
    (narrow : narrowSizes sizes = some shape)
    (viewed : Expression.Described.sizes layout shape = [batch, channels, inner, 1])
    (moved : ∀ n < batch, ∀ k < channels, ∀ i < inner, ∃ index ∈ indices shape,
      BroadcastView.layoutIndex layout index = [n, k, i, 0] ∧
        flatten shape index = flatten [batch, channels, inner, 1] [n, k, i, 0])
    (outDescribed : Expression.Described [channels] [.c]) (helper : BufferTensorSize)
    {dataType : DataType} {dmlDataType : DmlDataType}
    (known : getDmlDataTypeFromTfDataType dataType = some dmlDataType) {dy : List R}
    (enough : batch * channels * inner ≤ dy.length) :
    biasAddGradKernel helper dataType sizes layout [channels] dy =
      some ((List.range channels).map fun k => some (pushforward
        (Finset.range (batch * channels * inner)) (fun p => p / inner % channels)
        (fun p => dy.getD p 0) k)) := by
  obtain ⟨t, isInput, inputSizes, inputReads⟩ := desc.ofLayout_eq_some helper known dy
  obtain ⟨output, out, outputSizes, outMoved, addresses, length⟩ :=
    outDescribed.exists_buffer helper known
  have reads : ∀ index ∈ indices [batch, channels, inner, 1], t.read index =
      some (dy.getD (flatten [batch, channels, inner, 1] index) 0) := by
    intro index mem
    have below := flatten_lt mem
    obtain ⟨n, first, k, snd, i, third, rfl⟩ := mem_reduced mem
    obtain ⟨src, lt, place, position⟩ := moved n first k snd i third
    have total : [batch, channels, inner, 1].prod = batch * channels * inner := by simp [mul_assoc]
    have got : flatten [batch, channels, inner, 1] [n, k, i, 0] < dy.length := by omega
    have read := inputReads src lt
    rwa [place, position, getElem?_eq_getElem got, ← getD_eq_getElem _ 0 got] at read
  have last := lastElement_of_addresses outDescribed.prod_pos outMoved addresses length
  have sized : output.desc.sizes = setAxes [0, 2, 3] 1 t.sizes := by
    rw [outputSizes, inputSizes, viewed]
    rfl
  have single : indices [channels] = (List.range channels).map fun k => [k] := by
    rw [indices, map_eq_flatMap]
    rfl
  simp only [biasAddGradKernel, narrow, isInput, out, reduceSums, if_pos sized,
    Option.bind_eq_bind, Option.bind_some]
  refine congrArg some ((buffer_stored outMoved addresses last _).trans ?_)
  rw [single, map_map]
  refine map_congr_left fun k _ => ?_
  rw [Function.comp_apply, ← sum_reduced reads k, Option.map_eq_bind, ← viewed, ← inputSizes]
  rfl

end Backward

namespace Call

variable {c : Call} {R : Type} [CommRing R]

theorem known_type (c : Call) :
    ∃ dmlDataType, getDmlDataTypeFromTfDataType c.dataType = some dmlDataType := by
  rcases c.floating with float | half
  · exact ⟨_, by rw [float]; rfl⟩
  · exact ⟨_, by rw [half]; rfl⟩

theorem size_lt (index : Nat) : c.shape.getD index 0 < 2 ^ 31 := by
  rw [getD_eq_getElem?_getD]
  cases got : c.shape[index]? with
  | none => exact Nat.two_pow_pos 31
  | some size =>
    have below := Nat.le_of_dvd c.prod_pos (dvd_prod (mem_of_getElem? got))
    have lt := c.small
    rw [Option.getD_some]
    omega

theorem toInt32_size {size : Nat} (lt : size < 2 ^ 31) : toInt32 (size : Int) = size :=
  Int.bmod_eq_of_le (by omega) (by omega)

theorem not_isNoOpKernel {inputShapes outputShapes : List TensorShape}
    (inputs : ∀ shape ∈ inputShapes, shape.prod ≠ 0)
    (outs : ∀ shape ∈ outputShapes, shape.prod ≠ 0) :
    ¬isNoOpKernel inputShapes outputShapes = true := by
  rw [isNoOpKernel_iff]
  rintro (⟨shape, mem, empty⟩ | ⟨shape, mem, empty⟩)
  · exact inputs shape mem empty
  · exact outs shape mem empty

theorem biasAddInitHelper_eq : biasAddInitHelper c.format c.shape [c.channels] = .ok
    (if c.format = .nchw then
      if c.shape.length = 5 then [c.channels, 1, 1, 1] else [c.channels, 1, 1]
    else [c.channels]) := by
  have count : toInt32 (c.shape.getD (channelDim c.format c.shape.length) 0 : Nat) =
      c.channels := toInt32_size (size_lt _)
  have rank := c.rank.1
  simp only [biasAddInitHelper, count, Stop.require, length_singleton, getD_cons_zero, decide_true,
    if_true, if_pos (decide_eq_true rank), ok_bind, Int.toNat_natCast, kNcdhwDimensionCount]
  split
  · split
    · rfl
    · rfl
  · rfl

def physical (c : Call) : TensorShape :=
  if c.format = .nchw then
    if c.shape.length = 5 then [c.channels, 1, 1, 1] else [c.channels, 1, 1]
  else [c.channels]

theorem prod_physical : c.physical.prod = c.channels := by
  rw [physical]
  split
  · split
    · simp
    · simp
  · simp

theorem added_eq_made (helper : BufferTensorSize) (x b : List R) : c.added helper x b =
    made (biasAddKernel helper c.dataType (outputShape c.format c.shape) c.physical x b) := by
  have some_ := c.prod_pos
  have channels : [c.channels].prod ≠ 0 := by
    rw [prod_singleton]
    exact c.channels_pos.ne'
  have noOp : ¬isNoOpKernel [c.shape, [c.channels]] [c.shape] = true :=
    not_isNoOpKernel
      (forall_mem_cons.mpr ⟨some_.ne', forall_mem_singleton.mpr channels⟩)
      (forall_mem_singleton.mpr some_.ne')
  rw [added, biasAdd, biasAddInitHelper_eq, ok_bind, if_neg noOp, physical]

variable {x b : List R}

theorem added_eq {shape : TensorShape} (src : Nat → Nat)
    (out : outputShape c.format c.shape = shape)
    (broadcasts : broadcast c.physical shape = some shape) (rank : shape.length ≤ 8)
    (count : shape.prod = c.shape.prod)
    (reads : ∀ index ∈ indices shape, flatten c.physical (broadcastIndex c.physical index) =
      src (flatten shape index)) (helper : BufferTensorSize) (sized : x.length = c.shape.prod)
    (sized' : b.length = c.channels) :
    c.added helper x b = .ok ((List.range c.shape.prod).map fun p =>
      some (x.getD p 0 + b.getD (src p) 0)) := by
  obtain ⟨dmlDataType, known⟩ := c.known_type
  have some_ := c.prod_pos
  have small := c.small
  have packed : Expression.Packed shape := {
    rank := rank
    positive := fun _ mem => Nat.pos_of_ne_zero fun zero =>
      some_.ne' (count ▸ prod_eq_zero (zero ▸ mem))
    small := by omega }
  have made_ := biasAddKernel_eq packed broadcasts helper known (sized.trans count.symm)
    (sized'.trans prod_physical.symm)
  rw [added_eq_made, out, made_, made, ← count, ← map_flatten_indices, map_map]
  refine congrArg Except.ok (map_congr_left fun index mem => ?_)
  rw [reads index mem]
  rfl

theorem added_of_split {outer inner : List Nat}
    (out : outputShape c.format c.shape = outer ++ c.channels :: inner)
    (isPhysical : c.physical = c.channels :: replicate inner.length 1)
    (rank : (outer ++ c.channels :: inner).length ≤ 8)
    (count : (outer ++ c.channels :: inner).prod = c.shape.prod) (helper : BufferTensorSize)
    (sized : x.length = c.shape.prod) (sized' : b.length = c.channels) :
    c.added helper x b = .ok ((List.range c.shape.prod).map fun p =>
      some (x.getD p 0 + b.getD (p / inner.prod % c.channels) 0)) := by
  refine added_eq (fun p => p / inner.prod % c.channels) out ?_ rank count
    (fun index mem => ?_) helper sized sized'
  · rw [isPhysical]
    exact broadcast_bias
  · rw [isPhysical, flatten_bias mem, getD_of_flatten mem]

theorem added_single (nchw : c.format = .nchw) (rank : 6 ≤ c.shape.length) (single : c.channels = 1)
    (helper : BufferTensorSize) (sized : x.length = c.shape.prod) (sized' : b.length = c.channels) :
    c.added helper x b = .ok ((c.sums x b).map some) := by
  have out : outputShape c.format c.shape = c.shape := by
    rw [outputShape, if_neg]
    exact fun lt => absurd lt.2 (by rw [kNchwDimensionCount]; omega)
  have ones : c.physical = replicate 3 1 := by
    rw [physical, if_pos nchw, if_neg (by omega), single]
    rfl
  have broadcasts : broadcast c.physical c.shape = some c.shape := by
    refine broadcast_eq_right_iff.mpr ⟨by rw [ones, length_replicate]; omega, ?_⟩
    have whole : aligned c.shape.length c.physical = replicate c.shape.length 1 := by
      rw [aligned, ones, length_replicate, ← replicate_add]
      congr 1
      omega
    rw [whole]
    exact stretches_ones _
  rw [added_eq (fun _ => 0) out broadcasts c.rank.2 rfl (fun index mem => ?_)
    helper sized sized', sums_eq, map_map]
  · refine congrArg Except.ok (map_congr_left fun p _ => ?_)
    rw [Function.comp_apply, single, Nat.mod_one]
  · have below := flatten_lt (broadcastIndex_mem (broadcast_eq_right_iff.mp broadcasts).2 mem)
    rw [prod_physical, single] at below
    omega

theorem added_of_rank (few : c.format = .nhwc ∨ c.shape.length ≤ 5) (helper : BufferTensorSize)
    (sized : x.length = c.shape.prod) (sized' : b.length = c.channels) :
    c.added helper x b = .ok ((c.sums x b).map some) := by
  have split := c.shape_eq
  have rank := c.rank
  rw [sums_eq, map_map]
  by_cases nchw : c.format = .nchw
  · have axis : c.axis = 1 := by rw [Call.axis, channelDim, if_pos nchw]
    have short : c.shape.length ≤ 5 := few.resolve_left (by rw [nchw]; decide)
    have trailing : (c.shape.drop 2 ++ replicate (4 - c.shape.length) 1).prod = c.inner := by
      rw [inner, axis, prod_append, prod_replicate, Nat.one_pow, mul_one]
    rw [axis] at split
    have padded : c.shape.take 1 ++ c.channels :: (c.shape.drop 2 ++
        replicate (4 - c.shape.length) 1) = c.shape ++ replicate (4 - c.shape.length) 1 := by
      rw [← cons_append, ← append_assoc, split]
    have out : outputShape c.format c.shape = c.shape.take 1 ++ c.channels ::
        (c.shape.drop 2 ++ replicate (4 - c.shape.length) 1) := by
      rw [padded, outputShape, kNchwDimensionCount]
      split
      · rfl
      · rename_i long
        rw [Nat.sub_eq_zero_of_le (not_lt.mp fun less => long ⟨nchw, less⟩), replicate_zero,
          append_nil]
    have isPhysical : c.physical = c.channels :: replicate
        (c.shape.drop 2 ++ replicate (4 - c.shape.length) 1).length 1 := by
      rw [physical, if_pos nchw, length_append, length_drop, length_replicate]
      split
      · rename_i five
        rw [five]
        rfl
      · have count : c.shape.length - 2 + (4 - c.shape.length) = 2 := by omega
        rw [count]
        rfl
    rw [← trailing]
    refine added_of_split out isPhysical ?_ ?_ helper sized sized'
    · rw [padded, length_append, length_replicate]
      omega
    · rw [padded, prod_append, prod_replicate, Nat.one_pow, mul_one]
  · have last : c.axis = c.shape.length - 1 := by rw [Call.axis, channelDim, if_neg nchw]
    have nothing : c.shape.drop (c.axis + 1) = [] := by
      rw [drop_eq_nil_iff, last]
      omega
    rw [nothing] at split
    have out : outputShape c.format c.shape = c.shape.take c.axis ++ [c.channels] := by
      rw [outputShape, if_neg fun lt => nchw lt.1, split]
    rw [inner, nothing]
    refine added_of_split out ?_ ?_ ?_ helper sized sized'
    · rw [physical, if_neg nchw]
      rfl
    · rw [split]
      exact rank.2
    · rw [split]

theorem single_of_added (nchw : c.format = .nchw) (rank : 6 ≤ c.shape.length)
    (helper : BufferTensorSize)
    (adds : ∀ x b : List Int, x.length = c.shape.prod → b.length = c.channels →
      c.added helper x b = .ok ((c.sums x b).map some)) : c.channels = 1 := by
  by_contra many
  obtain ⟨dmlDataType, known⟩ := c.known_type
  have some_ := c.channels_pos
  have isOutput : outputShape c.format c.shape = c.shape := by
    rw [outputShape, if_neg]
    exact fun small => absurd small.2 (by rw [kNchwDimensionCount]; omega)
  have isPhysical : c.physical = [c.channels, 1, 1] := by
    rw [physical, if_pos nchw, if_neg (by omega)]
  let x : List Int := replicate c.shape.prod 0
  let b : List Int := (List.range c.channels).map Int.ofNat
  have sized : x.length = c.shape.prod := by simp [x]
  have sized' : b.length = c.channels := by simp [b]
  have eq := adds x b sized sized'
  have broadcasts : broadcast c.physical c.shape = some c.shape := by
    have ret := eq
    rw [added_eq_made, isOutput] at ret
    cases result : biasAddKernel helper c.dataType c.shape c.physical x b with
    | none =>
      rw [result] at ret
      cases ret
    | some out =>
      simp only [biasAddKernel, ofShape, Option.bind_eq_bind, Option.bind_eq_some_iff] at result
      obtain ⟨-, -, -, ⟨buffer, new, -⟩, -⟩ := result
      exact broadcasts_of_createShape helper known new
  have place : c.shape.length - 3 < c.shape.length := by omega
  have third : c.shape[c.shape.length - 3] = c.channels := by
    have stretches := (broadcast_eq_right_iff.mp broadcasts).2
    have missing : c.shape.length - [c.channels, 1, 1].length = c.shape.length - 3 := rfl
    rw [isPhysical, aligned, missing] at stretches
    have entry := List.Forall₂.get stretches (i := c.shape.length - 3) (by simp) place
    simp only [get_eq_getElem] at entry
    rw [getElem_append_right (by simp)] at entry
    simp only [length_replicate, Nat.sub_self, getElem_cons_zero] at entry
    exact (entry.resolve_right many).symm
  have split : c.shape = c.shape.take (c.shape.length - 3) ++ c.channels ::
      c.shape.drop (c.shape.length - 2) := by
    have next : c.shape.length - 3 + 1 = c.shape.length - 2 := by omega
    rw [← third, ← next, getElem_cons_drop, take_append_drop]
  -- the position whose entry there is one, and whose other entries are zero
  let behind := (c.shape.drop (c.shape.length - 2)).prod
  have pos {size : Nat} (mem : size ∈ c.shape) : size ≠ 0 := (c.positive size mem).ne'
  have behindPos : 0 < behind := Nat.pos_of_ne_zero fun zero =>
    pos (mem_of_mem_drop (prod_eq_zero_iff.mp zero)) rfl
  have count : c.inner = ((c.shape.take (c.shape.length - 3)).drop 2).prod *
      (c.channels * behind) := by
    have axis : c.axis + 1 = 2 := by rw [Call.axis, channelDim, if_pos nchw]
    have dropped := congrArg (drop 2) split
    rw [drop_append_of_le_length (by rw [length_take]; omega)] at dropped
    rw [inner, axis, dropped, prod_append, prod_cons]
  have early : behind < c.inner := by
    have middle : 0 < ((c.shape.take (c.shape.length - 3)).drop 2).prod :=
      Nat.pos_of_ne_zero fun zero => pos
        (mem_of_mem_take (mem_of_mem_drop (prod_eq_zero_iff.mp zero))) rfl
    calc behind < c.channels * behind := by
          rw [Nat.lt_mul_iff_one_lt_left behindPos]
          omega
      _ ≤ c.inner := by
          rw [count]
          exact Nat.le_mul_of_pos_left _ middle
  have lt : behind < c.shape.prod := early.trans_le (by
    refine Nat.le_of_dvd c.prod_pos ?_
    rw [inner]
    exact (drop_sublist _ _).prod_dvd_prod)
  have entry {k : Nat} (below : k < c.channels) : b.getD k 0 = k := by
    rw [getD_eq_getElem _ _ (by rw [sized']; exact below)]
    simp [b]
  have physical_ : c.physical =
      c.channels :: replicate (c.shape.drop (c.shape.length - 2)).length 1 := by
    have two : (c.shape.drop (c.shape.length - 2)).length = 2 := by
      rw [length_drop]
      omega
    rw [two]
    exact isPhysical
  rw [added_of_split (isOutput.trans split) physical_ (by rw [← split]; exact c.rank.2)
    (by rw [← split]) helper sized sized', sums_eq, map_map, Except.ok.injEq, map_inj_left] at eq
  have entries := Option.some.inj (eq behind (mem_range.mpr lt))
  have one : behind / behind % c.channels = 1 := by
    rw [Nat.div_self behindPos, Nat.mod_eq_of_lt (by omega)]
  have zero : behind / c.inner % c.channels = 0 := by rw [Nat.div_eq_of_lt early, Nat.zero_mod]
  change x.getD behind 0 + b.getD (behind / behind % c.channels) 0 =
    x.getD behind 0 + b.getD (behind / c.inner % c.channels) 0 at entries
  rw [one, zero, entry (by omega), entry some_] at entries
  omega

theorem product32_eq {m n : Nat} (lt : m * n < 2 ^ 31) :
    product32 m n = .ok ((m * n : Nat) : Int) := by
  have fits : -2 ^ 31 ≤ (m : Int) * n ∧ (m : Int) * n < 2 ^ 31 := by
    rw [← Int.natCast_mul]
    omega
  rw [product32, if_pos fits, Int.natCast_mul]

theorem foldlM_product32 {sizes : List Nat} (pos : ∀ size ∈ sizes, 0 < size) {batch : Nat}
    (lt : batch * sizes.prod < 2 ^ 31) (some_ : 0 < batch) :
    sizes.foldlM (fun batch size => product32 batch (toInt32 (size : Nat))) (batch : Int) =
      .ok ((batch * sizes.prod : Nat) : Int) := by
  induction sizes generalizing batch with
  | nil => simp [pure, Except.pure]
  | cons size sizes ih =>
    rw [forall_mem_cons] at pos
    have rest : 0 < sizes.prod := Nat.pos_of_ne_zero fun zero =>
      (pos.2 0 (prod_eq_zero_iff.mp zero)).ne' rfl
    rw [prod_cons, ← mul_assoc] at lt ⊢
    have first : batch * size < 2 ^ 31 := (Nat.le_mul_of_pos_right _ rest).trans_lt lt
    have single : size < 2 ^ 31 := (Nat.le_mul_of_pos_left _ some_).trans_lt first
    rw [foldlM_cons, toInt32_size single, product32_eq first]
    exact ih pos.2 lt (mul_pos some_ pos.1)

theorem dimSize_eq {index : Nat} (lt : index < c.shape.length) :
    dimSize c.shape index = .ok (c.shape.getD index 0 : Nat) := by
  have small := c.size_lt index
  rw [getD_eq_getElem _ _ lt] at small ⊢
  rw [dimSize, getElem?_eq_getElem lt]
  exact congrArg Except.ok (toInt32_size small)

def reach (c : Call) : Nat := if c.format = .nchw then ((c.shape.drop 2).take 3).prod else 1

def outer (c : Call) : Nat := (c.shape.take c.axis).prod

theorem prod_eq : c.shape.prod = c.outer * c.channels * c.inner := by
  have whole := congrArg prod c.shape_eq
  rw [prod_append, prod_cons, ← mul_assoc] at whole
  exact whole.symm

theorem inner_eq : c.inner = c.reach * (if c.format = .nchw then (c.shape.drop 5).prod else 1) := by
  by_cases nchw : c.format = .nchw
  · have axis : c.axis + 1 = 2 := by rw [Call.axis, channelDim, if_pos nchw]
    have parts := congrArg prod (take_append_drop 3 (c.shape.drop 2))
    rw [prod_append, drop_drop] at parts
    rw [inner, axis, reach, if_pos nchw, if_pos nchw]
    exact parts.symm
  · have rank := c.rank
    have nothing : c.shape.drop (c.axis + 1) = [] := by
      rw [drop_eq_nil_iff, Call.axis, channelDim, if_neg nchw]
      omega
    rw [inner, nothing, reach, if_neg nchw, if_neg nchw]
    rfl

theorem rest_pos : 0 < if c.format = .nchw then (c.shape.drop 5).prod else 1 := by
  split
  · exact Nat.pos_of_ne_zero fun zero =>
      (c.positive 0 (mem_of_mem_drop (prod_eq_zero_iff.mp zero))).ne' rfl
  · exact one_pos

theorem reach_le : c.outer * c.channels * c.reach ≤ c.shape.prod := by
  rw [prod_eq, inner_eq, ← mul_assoc]
  exact Nat.le_mul_of_pos_right _ rest_pos

theorem prod_take_three (sizes : List Nat) :
    (sizes.take 3).prod = sizes.getD 0 1 * sizes.getD 1 1 * sizes.getD 2 1 := by
  match sizes with
  | [] => rfl
  | [_] => simp
  | [_, _] => simp
  | _ :: _ :: _ :: _ => simp [mul_assoc]

theorem trailingDim_eq (index : Nat) :
    trailingDim c.shape index = .ok ((c.shape.getD index 1 : Nat) : Int) := by
  rw [trailingDim]
  split
  · rename_i lt
    rw [dimSize_eq lt, getD_eq_getElem _ _ lt, getD_eq_getElem _ _ lt]
  · rename_i outside
    rw [getD_eq_default _ _ (not_lt.mp outside)]
    rfl

theorem outer_pos : 0 < c.outer :=
  Nat.pos_of_ne_zero fun zero =>
    (c.positive 0 (mem_of_mem_take (prod_eq_zero_iff.mp zero))).ne' rfl

theorem reach_pos : 0 < c.reach := by
  rw [reach]
  split
  · exact Nat.pos_of_ne_zero fun zero => (c.positive 0 (mem_of_mem_drop
      (mem_of_mem_take (prod_eq_zero_iff.mp zero)))).ne' rfl
  · exact one_pos

theorem reach_lt : c.reach < 2 ^ 31 := by
  have bound := c.reach_le
  have total := c.small
  have larger : c.reach ≤ c.outer * c.channels * c.reach :=
    Nat.le_mul_of_pos_left _ (mul_pos c.outer_pos c.channels_pos)
  omega

theorem outer_lt : c.outer < 2 ^ 31 := by
  have bound := c.reach_le
  have total := c.small
  have larger : c.outer ≤ c.outer * c.channels * c.reach := by
    rw [mul_assoc]
    exact Nat.le_mul_of_pos_right _ (mul_pos c.channels_pos c.reach_pos)
  omega

variable {reported : Status}

theorem rank_checked : Stop.require (decide (2 ≤ c.shape.length)) reported = .ok () :=
  Stop.require_eq_ok.mpr (decide_eq_true c.rank.1)

theorem size_checked : Stop.require (decide (c.shape.numElements < 2 ^ 31 - 1)) reported = .ok () :=
  Stop.require_eq_ok.mpr (decide_eq_true c.small)

theorem gradView_nchw (nchw : c.format = .nchw) (rank : 3 ≤ c.shape.length) :
    ∃ sizes, biasAddGradInitHelper c.format c.shape = .ok sizes ∧
      sizes.channel = (c.channels : Nat) ∧ gradView c.format sizes =
        .ok ([(c.outer : Int), c.channels, c.reach], [.n, .c, .h]) := by
  have isReach : c.reach = c.shape.getD 2 0 * c.shape.getD 3 1 * c.shape.getD 4 1 := by
    have third : c.shape.getD 2 1 = c.shape.getD 2 0 := by
      rw [getD_eq_getElem _ _ (by omega), getD_eq_getElem _ _ (by omega)]
    rw [reach, if_pos nchw, prod_take_three, ← third]
    simp
  have isOuter : c.outer = c.shape.getD 0 0 := by
    rw [outer, Call.axis, channelDim, if_pos nchw]
    match shape : c.shape, rank with
    | first :: _, _ => simp
  have isChannels : c.channels = c.shape.getD 1 0 := by
    rw [channels, Call.axis, channelDim, if_pos nchw]
  have product := isReach ▸ c.reach_lt
  have plane : c.shape.getD 2 0 * c.shape.getD 3 1 < 2 ^ 31 := by
    refine lt_of_le_of_lt (Nat.le_mul_of_pos_right _ ?_) product
    refine Nat.pos_of_ne_zero fun zero => c.reach_pos.ne' ?_
    rw [isReach, zero, mul_zero]
  refine ⟨⟨c.outer, c.shape.getD 2 0, c.shape.getD 3 1, c.shape.getD 4 1, c.channels⟩, ?_, rfl, ?_⟩
  · rw [nchw, biasAddGradInitHelper, rank_checked, ok_bind, size_checked, ok_bind]
    simp only [ok_bind, dimSize_eq (show 0 < c.shape.length by omega),
      dimSize_eq (show 1 < c.shape.length by omega),
      dimSize_eq (show 2 < c.shape.length by omega), trailingDim_eq, isOuter, isChannels]
  · rw [gradView, if_neg (by rw [nchw]; decide), check, if_pos (decide_eq_true nchw),
      ok_bind, product32_eq plane, ok_bind, product32_eq product, ok_bind, isReach]

theorem gradView_nhwc (nhwc : c.format = .nhwc) :
    ∃ sizes, biasAddGradInitHelper c.format c.shape = .ok sizes ∧
      sizes.channel = (c.channels : Nat) ∧ gradView c.format sizes =
        .ok ([(c.outer : Int), c.channels], [.n, .c]) := by
  have rank := c.rank.1
  have last : c.axis = c.shape.length - 1 := by
    rw [Call.axis, channelDim, if_neg (by rw [nhwc]; decide)]
  have looped : (c.shape.take (c.shape.length - 1)).foldlM
      (fun batch (size : Nat) => product32 batch (toInt32 size)) (1 : Int) = .ok (c.outer : Int) := by
    have run := @foldlM_product32 (c.shape.take (c.shape.length - 1))
      (fun size mem => c.positive size (mem_of_mem_take mem)) 1
      (by rw [one_mul, ← last]; exact c.outer_lt) one_pos
    rw [one_mul, ← last] at run
    rw [← last]
    exact run
  have kept : product32 (c.outer : Int) 1 = .ok (c.outer : Int) := by
    have once := @product32_eq c.outer 1 (by rw [mul_one]; exact c.outer_lt)
    rwa [mul_one] at once
  refine ⟨⟨c.outer, 1, 1, 1, c.channels⟩, ?_, rfl, ?_⟩
  · rw [nhwc, biasAddGradInitHelper, rank_checked, ok_bind, size_checked, ok_bind]
    simp only [ok_bind, dimSize_eq (show c.shape.length - 1 < c.shape.length by omega), looped]
    rw [channels, last]
  · rw [gradView, if_pos nhwc, kept, ok_bind, kept, ok_bind, kept, ok_bind]

theorem summed_eq_made {sizes : GradSizes} {view : List Int × DmlTensorLayout}
    (ok : biasAddGradInitHelper c.format c.shape = .ok sizes)
    (channel : sizes.channel = (c.channels : Nat)) (viewed : gradView c.format sizes = .ok view)
    (helper : BufferTensorSize) (dy : List R) : c.summed helper dy =
      made (biasAddGradKernel helper c.dataType view.1 view.2 [c.channels] dy) := by
  have channels_ : [c.channels].prod ≠ 0 := by
    rw [prod_singleton]
    exact c.channels_pos.ne'
  have noOp : ¬isNoOpKernel [c.shape] [[c.channels]] = true :=
    not_isNoOpKernel (forall_mem_singleton.mpr c.prod_pos.ne')
      (forall_mem_singleton.mpr channels_)
  rw [summed, biasAddGrad, ok, ok_bind]
  simp only [channel, Int.toNat_natCast, if_neg noOp, viewed, ok_bind]

theorem described_of_prod {shape : List Nat} {layout : DmlTensorLayout} (distinct : layout.Nodup)
    (named : layout ≠ []) (whole : layout.length = shape.length) (rank : shape.length ≤ 5)
    (some_ : 0 < shape.prod) (small : shape.prod < 2 ^ 32) : Expression.Described shape layout where
  distinct := distinct
  named := named
  whole := whole
  rank := rank
  positive := fun _ mem => Nat.pos_of_ne_zero fun zero =>
    some_.ne' (prod_eq_zero (zero ▸ mem))
  small := small

theorem narrowSizes_eq {shape : List Nat} (small : ∀ n ∈ shape, n < 2 ^ 32) :
    narrowSizes (shape.map Int.ofNat) = some shape := by
  rw [narrowSizes, if_pos]
  · rw [map_map]
    exact congrArg some ((map_congr_left fun n _ => Int.toNat_natCast n).trans (map_id _))
  · intro _ mem
    obtain ⟨n, lt, rfl⟩ := mem_map.mp mem
    have below := small n lt
    simp only [Int.ofNat_eq_natCast]
    omega

variable {dy : List R}

theorem summed_eq (rank : c.format = .nhwc ∨ 3 ≤ c.shape.length) (helper : BufferTensorSize)
    (sized : dy.length = c.shape.prod) :
    c.summed helper dy = .ok ((List.range c.channels).map fun k => some (pushforward
      (Finset.range (c.outer * c.channels * c.reach)) (fun p => p / c.reach % c.channels)
      (fun p => dy.getD p 0) k)) := by
  obtain ⟨dmlDataType, known⟩ := c.known_type
  have bound := c.reach_le
  have total := c.small
  have first := c.outer_lt
  have snd : c.channels < 2 ^ 31 := c.size_lt _
  have third := c.reach_lt
  have some_ : 0 < c.outer * c.channels * c.reach :=
    mul_pos (mul_pos c.outer_pos c.channels_pos) c.reach_pos
  have outDescribed : Expression.Described [c.channels] [.c] :=
    described_of_prod (by decide) (by decide) rfl (Nat.le_add_left 1 4)
      (by rw [prod_singleton]; exact c.channels_pos) (by rw [prod_singleton]; omega)
  by_cases nchw : c.format = .nchw
  · obtain ⟨sizes, ok, channel, view⟩ :=
      gradView_nchw nchw (rank.resolve_left (by rw [nchw]; decide))
    have product : [c.outer, c.channels, c.reach].prod = c.outer * c.channels * c.reach := by
      simp [mul_assoc]
    have desc : Expression.Described [c.outer, c.channels, c.reach] [.n, .c, .h] :=
      described_of_prod (by decide) (by decide) rfl (Nat.le_add_left 3 2)
        (by rw [product]; exact some_) (by rw [product]; omega)
    have lt := @narrowSizes_eq [c.outer, c.channels, c.reach] (by simp; omega)
    have eq := biasAddGradKernel_eq desc lt rfl
      (fun n first k snd i third => ⟨[n, k, i], ?_, rfl, ?_⟩) outDescribed helper known
      (sized ▸ bound)
    · rw [summed_eq_made ok channel view helper dy]
      exact congrArg made eq
    · exact mem_indices_cons.mpr ⟨n, first, _, mem_indices_cons.mpr ⟨k, snd, _,
        mem_indices_cons.mpr ⟨i, third, [], mem_singleton.mpr rfl, rfl⟩, rfl⟩, rfl⟩
    · simp [flatten]
  · obtain ⟨sizes, ok, channel, view⟩ := gradView_nhwc (c.known.resolve_right nchw)
    have isReach : c.reach = 1 := by rw [reach, if_neg nchw]
    have product : [c.outer, c.channels].prod = c.outer * c.channels * c.reach := by simp [isReach]
    have desc : Expression.Described [c.outer, c.channels] [.n, .c] :=
      described_of_prod (by decide) (by decide) rfl (Nat.le_add_left 2 3)
        (by rw [product]; exact some_) (by rw [product]; omega)
    have lt := @narrowSizes_eq [c.outer, c.channels] (by simp; omega)
    have viewed : Expression.Described.sizes [.n, .c] [c.outer, c.channels] =
        [c.outer, c.channels, c.reach, 1] := by
      rw [isReach]
      rfl
    have eq := biasAddGradKernel_eq desc lt viewed
      (fun n first k snd i third => ⟨[n, k], ?_, ?_, ?_⟩) outDescribed helper known
      (sized ▸ bound)
    · rw [summed_eq_made ok channel view helper dy]
      exact congrArg made eq
    · exact mem_indices_cons.mpr ⟨n, first, _, mem_indices_cons.mpr ⟨k, snd, [],
        mem_singleton.mpr rfl, rfl⟩, rfl⟩
    · obtain rfl : i = 0 := by omega
      rfl
    · obtain rfl : i = 0 := by omega
      simp [flatten, isReach]

theorem sum_map_range (n : Nat) (f : Nat → R) :
    ((List.range n).map f).sum = ∑ p ∈ Finset.range n, f p := by
  have range : (List.range n).toFinset = Finset.range n := by
    ext p
    simp
  rw [← range, sum_toFinset f nodup_range]

theorem sum_ones {count inner channels : Nat} (some_ : 0 < channels) :
    ((List.range channels).map (pushforward (Finset.range count)
      (fun p => p / inner % channels) fun _ => (1 : Int))).sum = count := by
  have moved := @sum_mul_pushforward Nat Nat Int _ _ (Finset.range count) (Finset.range channels)
    (fun p => p / inner % channels) (fun _ => 1) (fun _ => 1)
    fun p _ => Finset.mem_range.mpr (Nat.mod_lt _ some_)
  simp only [one_mul] at moved
  rw [sum_map_range, moved]
  simp

theorem summed_of_matrix (nchw : c.format = .nchw) (matrix : c.shape.length = 2)
    (helper : BufferTensorSize) (dy : List R) : c.summed helper dy = .error .outOfRange := by
  have missing : dimSize c.shape 2 = .error .outOfRange := by
    rw [dimSize, getElem?_eq_none (le_of_eq matrix)]
  have refused : biasAddGradInitHelper c.format c.shape = .error .outOfRange := by
    rw [nchw, biasAddGradInitHelper, rank_checked, ok_bind, size_checked, ok_bind]
    simp only [dimSize_eq (show 0 < c.shape.length by omega),
      dimSize_eq (show 1 < c.shape.length by omega), missing, ok_bind, error_bind]
  rw [summed, biasAddGrad, refused, error_bind]

theorem summed_of_reach (rank : c.format = .nhwc ∨ 3 ≤ c.shape.length) (whole : c.reach = c.inner)
    (helper : BufferTensorSize) (sized : dy.length = c.shape.prod) :
    c.summed helper dy = .ok ((c.gradient dy).map some) := by
  rw [summed_eq rank helper sized, gradient_eq, map_map, prod_eq, whole]
  rfl

theorem reach_of_summed (rank : c.format = .nhwc ∨ 3 ≤ c.shape.length)
    (helper : BufferTensorSize)
    (gathers : ∀ dy : List Int, dy.length = c.shape.prod →
      c.summed helper dy = .ok ((c.gradient dy).map some)) : c.reach = c.inner := by
  let ones : List Int := replicate c.shape.prod 1
  have sized : ones.length = c.shape.prod := by simp [ones]
  have xs (count : Nat) (few : count ≤ c.shape.prod) (inner k : Nat) :
      pushforward (Finset.range count) (fun p => p / inner % c.channels)
        (fun p => ones.getD p 0) k =
      pushforward (Finset.range count) (fun p => p / inner % c.channels) (fun _ => (1 : Int)) k := by
    refine pushforward_congr (fun _ _ => rfl) (fun p lt => ?_) k
    have below : p < c.shape.prod := (Finset.mem_range.mp lt).trans_le few
    simp [ones, below]
  have same := gathers ones sized
  rw [summed_eq rank helper sized, gradient_eq, map_map, Except.ok.injEq, map_inj_left] at same
  have total : ((c.outer * c.channels * c.reach : Nat) : Int) = (c.shape.prod : Nat) := by
    rw [← @sum_ones (c.outer * c.channels * c.reach) c.reach _ c.channels_pos,
      ← @sum_ones c.shape.prod c.inner _ c.channels_pos]
    refine congrArg List.sum (map_congr_left fun k mem => ?_)
    rw [← xs _ c.reach_le, ← xs _ le_rfl]
    exact Option.some.inj (same k mem)
  have products : c.outer * c.channels * c.reach = c.outer * c.channels * c.inner := by
    rw [← prod_eq]
    exact Int.natCast_inj.mp total
  exact Nat.eq_of_mul_eq_mul_left (mul_pos c.outer_pos c.channels_pos) products

theorem zipWith_eq_map {a : List R} {n : Nat} (length : a.length = n) (length' : b.length = n)
    (f : R → R → R) : zipWith f a b = (List.range n).map fun p => f (a.getD p 0) (b.getD p 0) := by
  refine ext_getElem (by simp [length, length']) fun p lt lt' => ?_
  have below : p < n := by simpa using lt'
  simp [length, length', below]

theorem sum_mul_gradient (sized : x.length = c.shape.prod) (sized' : b.length = c.channels)
    (sized'' : dy.length = c.shape.prod) :
    (zipWith (· * ·) (zipWith (· - ·) (c.sums x b) x) dy).sum =
      (zipWith (· * ·) b (c.gradient dy)).sum := by
  have added_ : zipWith (· - ·) (c.sums x b) x = (List.range c.shape.prod).map fun p =>
      b.getD (p / c.inner % c.channels) 0 := by
    rw [zipWith_eq_map (by simp [sums_eq]) sized, sums_eq]
    refine map_congr_left fun p mem => ?_
    simp [mem_range.mp mem]
  have moved := sum_mul_pushforward (fun k => b.getD k 0) (fun p => dy.getD p 0)
    fun p (_ : p ∈ Finset.range c.shape.prod) =>
      Finset.mem_range.mpr (Nat.mod_lt (p / c.inner) c.channels_pos)
  rw [added_, zipWith_eq_map (by simp) sized'', zipWith_eq_map sized' (by simp [gradient]),
    sum_map_range, sum_map_range]
  refine Eq.trans (Finset.sum_congr rfl fun p mem => ?_) (moved.symm.trans
    (Finset.sum_congr rfl fun k mem => ?_))
  · simp [Finset.mem_range.mp mem]
  · simp [gradient_eq, Finset.mem_range.mp mem]

theorem adjoint_of_placed (placed : c.Placed) (helper : BufferTensorSize) : c.Adjoint helper := by
  have rank : c.format = .nhwc ∨ 3 ≤ c.shape.length := by
    rcases placed with nhwc | few | many
    · exact .inl nhwc
    · exact .inr few.1
    · exact .inr (by omega)
  have whole : c.reach = c.inner := by
    rw [inner_eq]
    split
    · rename_i nchw
      have ones : (c.shape.drop 5).prod = 1 := by
        rcases placed with nhwc | few | many
        · rw [nchw] at nhwc
          cases nhwc
        · rw [drop_eq_nil_of_le few.2]
          rfl
        · exact prod_eq_one many.2.2
      rw [ones, mul_one]
    · rw [mul_one]
  have adds : ∀ (R : Type) [CommRing R] (x b : List R), x.length = c.shape.prod →
      b.length = c.channels → c.added helper x b = .ok ((c.sums x b).map some) := by
    intro R _ x b sized sized'
    rcases placed with nhwc | few | many
    · exact added_of_rank (.inl nhwc) helper sized sized'
    · exact added_of_rank (.inr few.2) helper sized sized'
    · by_cases nchw : c.format = .nchw
      · exact added_single nchw many.1 many.2.1 helper sized sized'
      · exact added_of_rank (.inl (c.known.resolve_right nchw)) helper sized sized'
  have gathers : ∀ (R : Type) [CommRing R] (dy : List R), dy.length = c.shape.prod →
      c.summed helper dy = .ok ((c.gradient dy).map some) := fun R _ dy sized =>
    summed_of_reach rank whole helper sized
  exact ⟨adds, gathers, fun R _ x b dy sized sized' sized'' => ⟨_, _, adds R x b sized sized',
    gathers R dy sized'', sum_mul_gradient sized sized' sized''⟩⟩

theorem placed_of_adjoint {helper : BufferTensorSize} (adjoint : c.Adjoint helper) : c.Placed := by
  have least := c.rank.1
  by_cases nchw : c.format = .nchw
  · by_cases matrix : c.shape.length = 2
    · have summed_ := adjoint.gathers Int (replicate c.shape.prod 0) (by simp)
      rw [summed_of_matrix nchw matrix] at summed_
      cases summed_
    · by_cases few : c.shape.length ≤ 5
      · exact .inr (.inl ⟨by omega, few⟩)
      · refine .inr (.inr ⟨by omega, ?_, ?_⟩)
        · exact single_of_added nchw (by omega) helper (adjoint.adds Int)
        · have whole := reach_of_summed (.inr (by omega)) helper (adjoint.gathers Int)
          have some_ := c.reach_pos
          rw [inner_eq, if_pos nchw] at whole
          have ones : (c.shape.drop 5).prod = 1 := by
            refine Nat.eq_of_mul_eq_mul_left some_ ?_
            rw [← whole, mul_one]
          exact fun _ mem => Nat.dvd_one.mp (ones ▸ dvd_prod mem)
  · exact .inl (c.known.resolve_right nchw)

/-- `BiasAddGrad` is the adjoint of `BiasAdd` exactly where both ops place the channels. -/
theorem adjoint_iff (helper : BufferTensorSize) (c : Call) : c.Adjoint helper ↔ c.Placed :=
  ⟨placed_of_adjoint, fun placed => adjoint_of_placed placed helper⟩

def matrix : Call where
  format := .nchw
  shape := [2, 3]
  dataType := .float
  known := .inr rfl
  floating := .inl rfl
  rank := by decide
  positive := by decide
  small := by decide

theorem matrix_not_adjoint : ¬matrix.Adjoint .ofDocumentation := by
  intro adjoint
  have summed_ := adjoint.gathers Int (replicate 6 0) rfl
  rw [summed_of_matrix rfl rfl] at summed_
  cases summed_

end Call

end TfDml.BiasAdd
