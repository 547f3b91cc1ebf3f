import TfDml.Kernels.ReverseSequenceOp
import TfDml.Lib.WrappedSizes

/-! # What ReverseSequence computes

Around the two dimensions there are three groups of others. The reversal along one of the five
collapsed dimensions is the reversal that is due, whichever of the two comes first.
-/

namespace TfDml.ReverseSequence

open Lib Option
open List hiding flatten
open StridedSlice (IndexTensor)
open DmlTensorDesc (Addressed address packedStrides)
open DmlTensorDesc TensorShape NoOpKernel

theorem exists_parts {l : List Nat} {i j : Nat} (less : i < j) (lt : j < l.length) :
    ∃ before x between y after, l = before ++ x :: (between ++ y :: after) ∧
      before.length = i ∧ before.length + 1 + between.length = j := by
  have below : i < l.length := lt_trans less lt
  refine ⟨l.take i, l[i], (l.drop (i + 1)).take (j - (i + 1)), l[j], l.drop (j + 1), ?_, ?_, ?_⟩
  · have inner : l.drop (i + 1) =
        (l.drop (i + 1)).take (j - (i + 1)) ++ l[j] :: l.drop (j + 1) := by
      conv_lhs => rw [← take_append_drop (j - (i + 1)) (l.drop (i + 1)), drop_drop,
        Nat.add_sub_cancel' less, drop_eq_getElem_cons lt]
    rw [← inner, getElem_cons_drop, take_append_drop]
  · rw [length_take]
    omega
  · rw [length_take, length_take, length_drop]
    omega

variable (before between after : List Nat) (x y : Nat)

def around : List Nat := before ++ x :: (between ++ y :: after)

def narrowSizes : List Nat :=
  [before.prod % 2 ^ 32, x % 2 ^ 32, between.prod % 2 ^ 32, y % 2 ^ 32, after.prod % 2 ^ 32]

theorem dimSize_append (outer inner : List Nat) (dim : Nat) :
    dimSize (outer ++ dim :: inner) outer.length = some dim := by
  rw [dimSize, if_pos (Int.natCast_nonneg _), Int.toNat_natCast,
    getElem?_append_right (le_refl _), Nat.sub_self, getElem?_cons_zero]

theorem dimProduct_segment (outer segment inner : List Nat) :
    dimProduct (outer ++ (segment ++ inner)) outer.length (outer.length + segment.length) =
      some (segment.prod % 2 ^ 32) := by
  have count : ((outer.length + segment.length : Int) - outer.length).toNat = segment.length := by
    omega
  rw [dimProduct, count]
  clear count
  induction segment using reverseRecOn generalizing inner with
  | nil => rfl
  | append_singleton segment dim ih =>
    have shape : outer ++ ((segment ++ [dim]) ++ inner) = outer ++ (segment ++ dim :: inner) := by
      rw [append_assoc, singleton_append]
    have read := dimSize_append (outer ++ segment) inner dim
    rw [append_assoc, length_append, Nat.cast_add] at read
    rw [shape, length_append, length_singleton, range_succ, foldlM_append,
      ih, prod_append, prod_singleton]
    simp [read, Nat.mod_mul_mod]

theorem dimProducts : dimProduct (around before between after x y) 0 before.length =
        some (before.prod % 2 ^ 32) ∧
      dimProduct (around before between after x y) (before.length + 1)
        (before.length + 1 + between.length) = some (between.prod % 2 ^ 32) ∧
      dimProduct (around before between after x y) (before.length + 1 + between.length + 1)
        (around before between after x y).length = some (after.prod % 2 ^ 32) := by
  have first := dimProduct_segment [] before (x :: (between ++ y :: after))
  have snd := dimProduct_segment (before ++ [x]) between (y :: after)
  have third := dimProduct_segment (before ++ x :: (between ++ [y])) after []
  refine ⟨?_, ?_, ?_⟩
  · simpa [around] using first
  · simpa [around] using snd
  · have shape : before ++ x :: (between ++ [y]) ++ (after ++ []) =
        around before between after x y := by simp [around]
    have start : ((before ++ x :: (between ++ [y])).length : Int) =
        before.length + 1 + between.length + 1 := by
      simp only [length_append, length_cons, length_nil]
      omega
    have length : ((around before between after x y).length : Int) =
        before.length + 1 + between.length + 1 + after.length := by
      simp only [around, length_append, length_cons]
      omega
    rw [length]
    rwa [shape, start] at third

theorem dimSizes : dimSize (around before between after x y) before.length = some x ∧
      dimSize (around before between after x y) (before.length + 1 + between.length) = some y := by
  have snd := dimSize_append (before ++ x :: between) after y
  refine ⟨dimSize_append _ _ _, ?_⟩
  simpa [around, add_assoc, add_comm (1 : Int)] using snd

inductive Order where
  | batchFirst
  | seqFirst

namespace Order

def axis : Order → Nat
  | batchFirst => 3
  | seqFirst => 1

def slot : Order → Nat
  | batchFirst => 1
  | seqFirst => 3

def batchDim (lower upper : Nat) : Order → Nat
  | batchFirst => lower
  | seqFirst => upper

def seqDim (lower upper : Nat) : Order → Nat
  | batchFirst => upper
  | seqFirst => lower

end Order

def simplified (order : Order) (sizes : List Nat) : SimplifiedReverseSequence :=
  ⟨sizes, sizes.set order.axis 1, [1, 1, 1, 1, 1].set order.slot (sizes.getD order.slot 0),
    order.axis⟩

theorem simplify_eq (order : Order) : simplifyReverseSequence (around before between after x y)
        (order.batchDim before.length (before.length + 1 + between.length))
        (order.seqDim before.length (before.length + 1 + between.length)) =
      some (simplified order (narrowSizes before between after x y)) := by
  obtain ⟨first, snd, third⟩ := dimProducts before between after x y
  obtain ⟨lower, upper⟩ := dimSizes before between after x y
  have less : (before.length : Int) < before.length + 1 + between.length := by omega
  cases order with
  | batchFirst =>
    simp only [simplifyReverseSequence, Order.batchDim, Order.seqDim, Nat.cast_add, Nat.cast_one,
      min_eq_left less.le, max_eq_right less.le, first, snd, third, lower, upper,
      bind_eq_bind, bind_some, if_pos less, if_neg less.not_gt]
    rfl
  | seqFirst =>
    simp only [simplifyReverseSequence, Order.batchDim, Order.seqDim, Nat.cast_add, Nat.cast_one,
      min_eq_right less.le, max_eq_left less.le, first, snd, third, lower, upper,
      bind_eq_bind, bind_some, if_pos less, if_neg less.not_gt]
    rfl

theorem stretches_lengths (order : Order) (sizes : List Nat) (five : sizes.length = 5) :
    Stretches ([1, 1, 1, 1, 1].set order.slot (sizes.getD order.slot 0))
      (sizes.set order.axis 1) := by
  match sizes, five with
  | [a, b, c, d, e], _ =>
    cases order <;> simp [Stretches, Order.slot, Order.axis]

theorem address_lengths (order : Order) {sizes index : List Nat} (five : sizes.length = 5)
    (mem : index ∈ indices sizes) :
    address (stretchStrides ([1, 1, 1, 1, 1].set order.slot (sizes.getD order.slot 0))
      (sizes.set order.axis 1)) (index.set order.axis 0) = index.getD order.slot 0 := by
  have length := length_of_mem_indices mem
  match sizes, index, five, length with
  | [a, b, c, d, e], [i, j, k, l, m], _, _ =>
    rw [address_stretchStrides (stretches_lengths order _ rfl)]
    · rw [mem_indices] at mem
      cases order with
      | batchFirst =>
        simp [Order.slot, Order.axis, stretchIndex, packedStrides, address] at mem ⊢
        omega
      | seqFirst =>
        simp [Order.slot, Order.axis, stretchIndex, packedStrides, address] at mem ⊢
        omega
    · rw [mem_indices] at mem ⊢
      cases order <;> simp [Order.axis] at mem ⊢ <;> omega

theorem execute_simplified {w : Nat} (order : Order) {sizes : List Nat} (five : sizes.length = 5)
    (narrow : ∀ size ∈ sizes, size < 2 ^ 32) (seqLens : IndexTensor w) {α : Type}
    (values : List α) : execute (simplified order sizes) seqLens values =
      some ((indices sizes).map fun index =>
        ((seqLens.values.map BitVec.toNat)[index.getD order.slot 0]?).bind fun len =>
          values[address (packedStrides sizes)
            (index.modify order.axis (reverseWithin len))]?) := by
  have stretches := stretches_lengths order sizes five
  have rank := stretches.length_eq
  have input := create_self_eq_some.mpr
    ⟨⟨(by rw [five]; decide : sizes.length ≤ maxDimensionCount), narrow⟩, rfl⟩
  have ones : ∀ size ∈ sizes.set order.axis 1, size < 2 ^ 32 := fun size mem => by
    rcases mem_or_eq_of_mem_set mem with inside | rfl
    · exact narrow size inside
    · decide
  have seqLengths := create_eq_some.mpr
    ⟨⟨(by rw [length_set, five]; decide : (sizes.set order.axis 1).length ≤
      maxDimensionCount), ones⟩, rank.le, by rwa [← rank, aligned_length], rfl⟩
  simp only [simplified, execute, input, seqLengths, bind_eq_bind, bind_some]
  have flat : kNchwDimensionCount - sizes.length = 0 := by rw [five]; rfl
  rw [← rank, aligned_length, rank, length_set, flat]
  simp only [replicate_zero, nil_append, dmlReverseSubsequences, if_true]
  congr 1
  refine map_congr_left fun index mem => ?_
  rw [address_lengths order five mem]

def groupsOf : List (List Nat) := [before, [x], between, [y], after]

theorem flatten_groupsOf :
    (groupsOf before between after x y).flatten = around before between after x y := by
  simp [groupsOf, around]

theorem mem_indices_around {index : List Nat} : index ∈ indices (around before between after x y) ↔
      ∃ outer ∈ indices before, ∃ i < x, ∃ middle ∈ indices between, ∃ j < y,
        ∃ inner ∈ indices after, index = around outer middle inner i j := by
  simp only [around, mem_indices_append, mem_indices_cons]
  constructor
  · rintro ⟨outer, first, _, ⟨i, less, _, ⟨middle, snd, _, ⟨j, less', inner, third, rfl⟩, rfl⟩,
      rfl⟩, rfl⟩
    exact ⟨outer, first, i, less, middle, snd, j, less', inner, third, rfl⟩
  · rintro ⟨outer, first, i, less, middle, snd, j, less', inner, third, rfl⟩
    exact ⟨outer, first, _, ⟨i, less, _, ⟨middle, snd, _, ⟨j, less', inner, third, rfl⟩, rfl⟩,
      rfl⟩, rfl⟩

theorem collapse_around {outer middle inner : List Nat} (first : outer.length = before.length)
    (snd : middle.length = between.length) (third : inner.length = after.length) (i j : Nat) :
    Lib.collapse (groupsOf before between after x y) (around outer middle inner i j) =
      [flatten before outer, i, flatten between middle, j, flatten after inner] := by
  have last : inner = inner ++ [] := (append_nil inner).symm
  rw [groupsOf, around, collapse_append first, collapse_single, collapse_append snd,
    collapse_single, last, collapse_append third, append_nil]
  rfl

theorem around_eq (i j : Nat) :
    around before between after i j = (before ++ i :: between) ++ j :: after := by
  rw [around, append_assoc, cons_append]

theorem length_upper (i : Nat) :
    (before ++ i :: between).length = before.length + 1 + between.length := by
  rw [length_append, length_cons]
  omega

theorem getD_append_cons (outer inner : List Nat) (k : Nat) :
    (outer ++ k :: inner).getD outer.length 0 = k := by
  simp

theorem drop_append_cons (outer inner : List Nat) (k : Nat) :
    (outer ++ k :: inner).drop (outer.length + 1) = inner := by
  rw [← drop_drop, drop_left, drop_one, tail_cons]

theorem modify_append_cons (outer inner : List Nat) (k : Nat) (f : Nat → Nat) :
    (outer ++ k :: inner).modify outer.length f = outer ++ f k :: inner := by
  induction outer with
  | nil => rfl
  | cons first outer ih => rw [cons_append, length_cons, modify_succ_cons, ih, cons_append]

theorem getD_around (order : Order) (i j : Nat) : (around before between after i j).getD
        (order.batchDim before.length (before.length + 1 + between.length)) 0 = match order with
      | .batchFirst => i
      | .seqFirst => j := by
  cases order with
  | batchFirst => exact getD_append_cons before _ i
  | seqFirst =>
    rw [Order.batchDim, ← length_upper before between i, around_eq]
    exact getD_append_cons _ after j

theorem modify_around (order : Order) (i j : Nat) (f : Nat → Nat) :
    (around before between after i j).modify
        (order.seqDim before.length (before.length + 1 + between.length)) f = match order with
      | .batchFirst => around before between after i (f j)
      | .seqFirst => around before between after (f i) j := by
  cases order with
  | batchFirst =>
    rw [Order.seqDim, ← length_upper before between i, around_eq, modify_append_cons]
    exact (around_eq before between after i (f j)).symm
  | seqFirst => exact modify_append_cons before _ i f

theorem reverseWithin_lt {len s size : Nat} (fits : len ≤ size) (lt : s < size) :
    reverseWithin len s < size := by
  rw [reverseWithin]
  split <;> omega

theorem reverseWithin_reverseWithin (len s : Nat) :
    reverseWithin len (reverseWithin len s) = s := by
  rw [reverseWithin, reverseWithin]
  split_ifs <;> omega

def reverseCollapsed (order : Order) (len : Nat → Nat) (index : List Nat) : List Nat :=
  index.modify order.axis (reverseWithin (len (index.getD order.slot 0)))

section Reversal

variable {order : Order} {len : Nat → Nat} {sizes index : List Nat}

theorem reverseCollapsed_mem (fits : ∀ b < sizes.getD order.slot 0, len b ≤ sizes.getD order.axis 0)
    (five : sizes.length = 5) (mem : index ∈ indices sizes) :
    reverseCollapsed order len index ∈ indices sizes := by
  have length := length_of_mem_indices mem
  match sizes, index, five, length with
  | [a, b, c, d, e], [i, j, k, l, m], _, _ =>
    rw [mem_indices] at mem ⊢
    cases order with
    | batchFirst =>
      simp [Order.slot, Order.axis, reverseCollapsed] at fits mem ⊢
      exact ⟨mem.1, mem.2.1, mem.2.2.1, reverseWithin_lt (fits j mem.2.1) mem.2.2.2.1, mem.2.2.2.2⟩
    | seqFirst =>
      simp [Order.slot, Order.axis, reverseCollapsed] at fits mem ⊢
      exact ⟨mem.1, reverseWithin_lt (fits l mem.2.2.2.1) mem.2.1, mem.2.2⟩

theorem reverseCollapsed_reverseCollapsed (five : sizes.length = 5)
    (mem : index ∈ indices sizes) :
    reverseCollapsed order len (reverseCollapsed order len index) = index := by
  have length := length_of_mem_indices mem
  match sizes, index, five, length with
  | [a, b, c, d, e], [i, j, k, l, m], _, _ =>
    cases order <;>
      simp [reverseCollapsed, Order.axis, Order.slot, reverseWithin_reverseWithin]

end Reversal

theorem collapse_reverse (order : Order) (len : Nat → Nat) {index : List Nat}
    (mem : index ∈ indices (around before between after x y)) :
    Lib.collapse (groupsOf before between after x y)
        (index.modify (order.seqDim before.length (before.length + 1 + between.length))
          (reverseWithin (len (index.getD
            (order.batchDim before.length (before.length + 1 + between.length)) 0)))) =
      reverseCollapsed order len (Lib.collapse (groupsOf before between after x y) index) := by
  obtain ⟨outer, first, i, -, middle, snd, j, -, inner, third, rfl⟩ :=
    (mem_indices_around before between after x y).mp mem
  have lens := And.intro (length_of_mem_indices first)
    (And.intro (length_of_mem_indices snd) (length_of_mem_indices third))
  have whole := collapse_around before between after x y lens.1 lens.2.1 lens.2.2
  rw [← lens.1, ← lens.2.1, getD_around, modify_around, whole]
  cases order with
  | batchFirst => exact whole i _
  | seqFirst => exact whole _ j

theorem reverse_mem (order : Order) {len : Nat → Nat}
    (fits : ∀ b < order.batchDim x y, len b ≤ order.seqDim x y) {index : List Nat}
    (mem : index ∈ indices (around before between after x y)) :
    index.modify (order.seqDim before.length (before.length + 1 + between.length))
        (reverseWithin (len (index.getD
          (order.batchDim before.length (before.length + 1 + between.length)) 0))) ∈
      indices (around before between after x y) := by
  obtain ⟨outer, first, i, less, middle, snd, j, less', inner, third, rfl⟩ :=
    (mem_indices_around before between after x y).mp mem
  rw [← length_of_mem_indices first, ← length_of_mem_indices snd, getD_around, modify_around,
    mem_indices_around]
  cases order with
  | batchFirst =>
    exact ⟨outer, first, i, less, middle, snd, _, reverseWithin_lt (fits i less) less', inner,
      third, rfl⟩
  | seqFirst =>
    exact ⟨outer, first, _, reverseWithin_lt (fits j less') less, middle, snd, j, less', inner,
      third, rfl⟩

namespace Arguments

variable {w : Nat} (args : Arguments w)

theorem exists_around (valid : args.ValidDims) :
    ∃ (order : Order) (before between after : List Nat) (x y : Nat),
      args.input = around before between after x y ∧
      args.attr.batchDim = order.batchDim before.length (before.length + 1 + between.length) ∧
      args.attr.seqDim = order.seqDim before.length (before.length + 1 + between.length) := by
  obtain ⟨⟨batch, below⟩, ⟨seq, below'⟩, nodup⟩ := valid
  rcases Int.lt_or_gt_of_ne nodup with less | greater
  · obtain ⟨before, x, between, y, after, whole, first, snd⟩ := exists_parts
      (by omega : args.attr.batchDim.toNat < args.attr.seqDim.toNat)
      (by omega : args.attr.seqDim.toNat < args.input.length)
    refine ⟨.batchFirst, before, between, after, x, y, whole, ?_, ?_⟩
    · rw [Order.batchDim, first, Int.toNat_of_nonneg batch]
    · rw [Order.seqDim, snd, Int.toNat_of_nonneg seq]
  · obtain ⟨before, x, between, y, after, whole, first, snd⟩ := exists_parts
      (by omega : args.attr.seqDim.toNat < args.attr.batchDim.toNat)
      (by omega : args.attr.batchDim.toNat < args.input.length)
    refine ⟨.seqFirst, before, between, after, x, y, whole, ?_, ?_⟩
    · rw [Order.batchDim, snd, Int.toNat_of_nonneg batch]
    · rw [Order.seqDim, first, Int.toNat_of_nonneg seq]

def lengthAt (b : Nat) : Nat := (args.seqLens.values.getD b 0).toInt.toNat

theorem getElem?_lengths (nat : ∀ len ∈ args.seqLens.values, 0 ≤ len.toInt) {b : Nat}
    (lt : b < args.seqLens.values.length) :
    (args.seqLens.values.map BitVec.toNat)[b]? = some (args.lengthAt b) := by
  have here := nat _ (getElem_mem lt)
  rw [getElem?_map, getElem?_eq_getElem lt, map_some, lengthAt, getD_eq_getElem _ _ lt]
  have pos : (args.seqLens.values[b]).msb = false := by
    rw [BitVec.msb_eq_toInt, decide_eq_false_iff_not]
    omega
  rw [BitVec.toNat_toInt_of_msb _ pos]

section Valid

variable {args} {order : Order} {before between after : List Nat} {x y : Nat}
  (input : args.input = around before between after x y)
  (batch : args.attr.batchDim = order.batchDim before.length (before.length + 1 + between.length))
  (seq : args.attr.seqDim = order.seqDim before.length (before.length + 1 + between.length))

include input in
theorem prod_input : args.input.numElements =
    ((groupsOf before between after x y).map prod).prod := by
  rw [numElements, input, ← flatten_groupsOf, prod_flatten]

theorem narrowSizes_eq : narrowSizes before between after x y =
    ((groupsOf before between after x y).map prod).map (· % 2 ^ 32) := by
  simp [narrowSizes, groupsOf]

include input batch in
theorem batchSize_eq : args.input.getD args.batch 0 = order.batchDim x y := by
  rw [Arguments.batch, batch, Int.toNat_natCast, input, getD_around]
  cases order <;> rfl

include input seq in
theorem seqSize_eq : args.input.getD args.seq 0 = order.seqDim x y := by
  have other := getD_around before between after
    (match order with | .batchFirst => .seqFirst | .seqFirst => .batchFirst) x y
  rw [Arguments.seq, seq, Int.toNat_natCast, input]
  cases order <;> exact other

def reads (args : Arguments w) (order : Order) (sizes : List Nat) {α : Type} (values : List α) :
    List (Option α) :=
  (indices sizes).map fun index =>
    values[address (packedStrides sizes) (reverseCollapsed order args.lengthAt index)]?

include input batch seq in
theorem construct_of_valid (lens : args.ValidLens) :
    construct args = some (.ok (simplified order (narrowSizes before between after x y))) := by
  obtain ⟨lower, upper⟩ := dimSizes before between after x y
  have rank : args.input.length = before.length + 1 + between.length + 1 + after.length := by
    simp only [input, around, length_append, length_cons]
    omega
  have count : args.seqLens.numElements = order.batchDim x y := by
    rw [IndexTensor.numElements, lens.1, batchSize_eq input batch]
    exact prod_singleton
  have dim : args.input.dimSize args.attr.batchDim = some (order.batchDim x y) := by
    rw [input, batch]
    cases order with
    | batchFirst => exact lower
    | seqFirst => exact_mod_cast upper
  have simplified := simplify_eq before between after x y order
  rw [← input, ← batch, ← seq] at simplified
  have nodup : args.attr.batchDim ≠ args.attr.seqDim := by
    rw [batch, seq]
    cases order <;> simp only [Order.batchDim, Order.seqDim] <;> omega
  have below : args.attr.seqDim < args.input.length ∧ args.attr.batchDim < args.input.length := by
    rw [batch, seq, rank]
    cases order <;> simp only [Order.batchDim, Order.seqDim] <;> omega
  have checked : checkDims args = .ok () := by
    have vector : args.seqLens.shape.length = 1 := by
      rw [lens.1]
      rfl
    simp [checkDims, opRequires, vector, nodup, below, bind, Except.bind]
  rw [construct, checked]
  simp only [dim, bind_eq_bind, bind_some, if_pos count, simplified]
  rfl

include input in
theorem positive_sizes (some_ : 0 < args.input.numElements) : 0 < x ∧ 0 < y := by
  have pos (size : Nat) (mem : size ∈ args.input) : 0 < size :=
    Nat.pos_of_ne_zero fun zero => some_.ne' (prod_eq_zero (zero ▸ mem))
  exact ⟨pos x (by simp [input, around]), pos y (by simp [input, around])⟩

theorem slot_lt {index : List Nat}
    (mem : index ∈ indices (narrowSizes before between after x y)) :
    index.getD order.slot 0 < order.batchDim x y := by
  have below : index.getD order.slot 0 <
      (narrowSizes before between after x y).getD order.slot 0 := by
    have length := length_of_mem_indices mem
    have lt : order.slot < (narrowSizes before between after x y).length := by
      cases order <;> simp [Order.slot, narrowSizes]
    rw [getD_eq_getElem _ _ lt, getD_eq_getElem _ _ (by rwa [length])]
    exact getElem_lt_of_mem_indices mem lt _
  refine lt_of_lt_of_le below ?_
  cases order <;> exact Nat.mod_le _ _

include input batch seq in
theorem compute_of_valid (lens : args.ValidLens) (nonempty : 0 < args.input.numElements)
    {α : Type} [Zero α] (values : List α) : compute args values =
      .finished (reads args order (narrowSizes before between after x y) values) := by
  have count : args.seqLens.shape.numElements = order.batchDim x y := by
    rw [lens.1, batchSize_eq input batch]
    exact prod_singleton
  have pos : 0 < order.batchDim x y := by
    have both := positive_sizes input nonempty
    cases order with
    | batchFirst => exact both.1
    | seqFirst => exact both.2
  have needed : isNoOpKernel [args.input, args.seqLens.shape] [args.input] = false := by
    rw [Bool.eq_false_iff, Ne, isNoOpKernel_iff]
    simp [count, nonempty.ne', pos.ne']
  have narrow : ∀ size ∈ narrowSizes before between after x y, size < 2 ^ 32 := by
    rw [narrowSizes_eq]
    intro size mem
    obtain ⟨size, -, rfl⟩ := List.mem_map.mp mem
    exact Nat.mod_lt _ (by decide)
  rw [compute, construct_of_valid input batch seq lens]
  simp only [needed, Bool.false_eq_true, if_false]
  rw [execute_simplified order rfl narrow]
  simp only
  congr 1
  refine map_congr_left fun index mem => ?_
  have inside : index.getD order.slot 0 < args.seqLens.values.length := by
    rw [args.seqLens.sized, count]
    exact slot_lt mem
  rw [args.getElem?_lengths (fun len found => (lens.2 len found).1) inside]
  rfl

include input batch seq in
theorem lengthAt_le (lens : args.ValidLens) :
    ∀ b < order.batchDim x y, args.lengthAt b ≤ order.seqDim x y := by
  intro b lt
  have count : args.seqLens.values.length = order.batchDim x y := by
    rw [args.seqLens.sized, lens.1, batchSize_eq input batch]
    exact prod_singleton
  have bound := (lens.2 _ (getElem_mem (by omega : b < args.seqLens.values.length))).2
  rw [seqSize_eq input seq] at bound
  rw [lengthAt, getD_eq_getElem _ _ (by omega)]
  omega

include input batch seq in
theorem gather_source (lens : args.ValidLens) {α : Type} (values : List α) :
    gather args.input args.source values = gather ((groupsOf before between after x y).map prod)
        (reverseCollapsed order args.lengthAt) values := by
  have src : args.source = fun index =>
      index.modify (order.seqDim before.length (before.length + 1 + between.length))
        (reverseWithin (args.lengthAt (index.getD
          (order.batchDim before.length (before.length + 1 + between.length)) 0))) := by
    funext index
    rw [Arguments.source, Arguments.seq, seq, Arguments.batch, batch, Int.toNat_natCast,
      Int.toNat_natCast]
    rfl
  have fits := lengthAt_le input batch seq lens
  rw [src, input, ← flatten_groupsOf]
  refine gather_collapse (fun index mem => ?_) (fun index mem => ?_) values
  · rw [flatten_groupsOf] at mem ⊢
    exact reverse_mem before between after x y order fits mem
  · rw [flatten_groupsOf] at mem
    exact collapse_reverse before between after x y order args.lengthAt mem

include input batch seq in
theorem reverses_of_valid (lens : args.ValidLens) (some_ : 0 < args.input.numElements) :
    (∀ (α : Type) [Zero α] (values : List α), values.length = args.input.numElements →
      compute args values = .finished (gather args.input args.source values)) ↔
      (∀ size ∈ (groupsOf before between after x y).map prod, size < 2 ^ 32) ∧
        Addressed ((groupsOf before between after x y).map prod) := by
  have fits := lengthAt_le input batch seq lens
  have computes := @compute_of_valid w args order before between after x y input batch seq lens
    some_
  have dues := @gather_source w args order before between after x y input batch seq lens
  have product := prod_input input
  generalize sizesEq : (groupsOf before between after x y).map prod = sizes at dues product ⊢
  have five : sizes.length = 5 := by
    rw [← sizesEq]
    rfl
  have narrowEq : narrowSizes before between after x y = sizes.map (· % 2 ^ 32) := by
    rw [← sizesEq, narrowSizes_eq]
  have kept (small : ∀ size ∈ sizes, size < 2 ^ 32) : sizes.map (· % 2 ^ 32) = sizes :=
    (map_congr_left fun size mem => Nat.mod_eq_of_lt (small size mem)).trans
      (List.map_id _)
  have xs : sizes.getD order.slot 0 = order.batchDim x y ∧
      sizes.getD order.axis 0 = order.seqDim x y := by
    rw [← sizesEq]
    cases order <;> simp [groupsOf, Order.slot, Order.axis, Order.batchDim, Order.seqDim]
  have lt : ∀ index ∈ indices sizes,
      reverseCollapsed order args.lengthAt index ∈ indices sizes := fun index mem =>
    reverseCollapsed_mem (by rwa [xs.1, xs.2]) five mem
  constructor
  · intro reverses
    have small : ∀ size ∈ sizes, size < 2 ^ 32 := by
      have finished := reverses Nat (range args.input.numElements) length_range
      rw [computes, dues, narrowEq] at finished
      have lengths := congrArg List.length (SliceOp.Outcome.finished.inj finished)
      rw [reads, length_map, length_indices, length_gather] at lengths
      exact narrow_of_prod (by decide) (product ▸ some_) lengths
    refine ⟨small, ((reads_gather_iff (product ▸ some_) lt lt
      fun index mem => ⟨_, lt index mem,
        reverseCollapsed_reverseCollapsed five mem⟩).mp fun values whole => ?_).1⟩
    have finished := reverses Nat values (by rw [whole, product])
    rw [computes, dues, narrowEq, kept small] at finished
    exact SliceOp.Outcome.finished.inj finished
  · rintro ⟨small, addr⟩ α _ values -
    rw [computes, dues, narrowEq, kept small]
    congr 1
    refine map_congr_left fun index mem => ?_
    rw [addr _ (lt index mem)]

include input batch seq in
theorem compute_of_empty (lens : args.ValidLens) (empty : args.input.numElements = 0) {α : Type}
    [Zero α] (values : List α) :
    compute args values = .finished (gather args.input args.source values) := by
  have skipped : isNoOpKernel [args.input, args.seqLens.shape] [args.input] = true :=
    isNoOpKernel_iff.mpr (Or.inl ⟨args.input, mem_cons_self, empty⟩)
  have none : indices args.input = [] := by
    rw [← length_eq_zero_iff, length_indices]
    exact empty
  rw [compute, construct_of_valid input batch seq lens]
  simp only [skipped, if_true]
  rw [zeroed_of_empty empty, gather, none, map_nil]

end Valid

theorem simplify_of_negative {shape : TensorShape} {batchDim seqDim : Int} (neg : seqDim < 0) :
    simplifyReverseSequence shape batchDim seqDim = none := by
  rw [eq_none_iff_forall_ne_some]
  intro result got
  simp only [simplifyReverseSequence, bind_eq_bind, bind_eq_some_iff] at got
  obtain ⟨-, -, -, -, -, -, size, read, -⟩ := got
  rw [dimSize, if_neg (by omega)] at read
  exact nomatch read

/-- What is checked before a dimension that does not exist could be read. -/
def Caught : Prop :=
  args.seqLens.shape.length ≠ 1 ∨ args.attr.batchDim = args.attr.seqDim ∨
    args.input.length ≤ args.attr.seqDim ∨ args.input.length ≤ args.attr.batchDim ∨
    0 ≤ args.attr.batchDim ∧ args.seqLens.numElements ≠ args.input.getD args.batch 0

theorem checkDims_eq_ok : checkDims args = .ok () ↔
    args.seqLens.shape.length = 1 ∧ args.attr.batchDim ≠ args.attr.seqDim ∧
      args.attr.seqDim < args.input.length ∧ args.attr.batchDim < args.input.length := by
  simp [checkDims, bind_eq_ok, opRequires_eq_ok]

theorem checkDims_error (err : ¬(args.seqLens.shape.length = 1 ∧
    args.attr.batchDim ≠ args.attr.seqDim ∧ args.attr.seqDim < args.input.length ∧
    args.attr.batchDim < args.input.length)) : ∃ status, construct args = some (.error status) := by
  rw [← checkDims_eq_ok] at err
  rw [construct]
  cases checked : checkDims args with
  | error status => exact ⟨status, rfl⟩
  | ok => exact absurd checked err

theorem reports_iff (invalid : ¬args.ValidDims) :
    (∀ (α : Type) [Zero α] (values : List α), ∃ status, compute args values = .reported status) ↔
      args.Caught := by
  by_cases checked : args.seqLens.shape.length = 1 ∧ args.attr.batchDim ≠ args.attr.seqDim ∧
      args.attr.seqDim < args.input.length ∧ args.attr.batchDim < args.input.length
  · have passed := args.checkDims_eq_ok.mpr checked
    obtain ⟨vector, nodup, below, below'⟩ := checked
    by_cases nat : 0 ≤ args.attr.batchDim
    · have lt : args.attr.batchDim.toNat < args.input.length := by omega
      have read : args.input.dimSize args.attr.batchDim = some (args.input.getD args.batch 0) := by
        rw [dimSize, if_pos nat, getElem?_eq_getElem lt, Arguments.batch, getD_eq_getElem _ _ lt]
      by_cases count : args.seqLens.numElements = args.input.getD args.batch 0
      · have neg : args.attr.seqDim < 0 := by
          by_contra pos
          exact invalid ⟨⟨nat, below'⟩, ⟨by omega, below⟩, nodup⟩
        have crashed : construct args = none := by
          simp only [construct, passed, read, bind_eq_bind, bind_some, if_pos count,
            simplify_of_negative neg]
          rfl
        refine iff_of_false (fun reports => ?_) ?_
        · obtain ⟨status, err⟩ := reports Nat []
          rw [compute, crashed] at err
          exact nomatch err
        · rintro (other | other | other | other | ⟨-, other⟩)
          · exact other vector
          · exact nodup other
          · omega
          · omega
          · exact other count
      · have failed : construct args = some (.error (differentLength args.attr.batchDim
            args.seqLens.numElements (args.input.getD args.batch 0))) := by
          simp only [construct, passed, read, bind_eq_bind, bind_some, if_neg count]
          rfl
        refine iff_of_true (fun α _ values => ⟨_, by rw [compute, failed]⟩) ?_
        exact Or.inr (Or.inr (Or.inr (Or.inr ⟨nat, count⟩)))
    · have crashed : construct args = none := by
        simp only [construct, passed, dimSize, if_neg nat]
        rfl
      refine iff_of_false (fun reports => ?_) ?_
      · obtain ⟨status, err⟩ := reports Nat []
        rw [compute, crashed] at err
        exact nomatch err
      · rintro (other | other | other | other | ⟨pos, -⟩)
        · exact other vector
        · exact nodup other
        · omega
        · omega
        · exact nat pos
  · obtain ⟨status, failed⟩ := args.checkDims_error checked
    refine iff_of_true (fun α _ values => ⟨status, by rw [compute, failed]⟩) ?_
    rw [Caught]
    by_contra missed
    push Not at missed
    exact checked ⟨missed.1, missed.2.1, missed.2.2.1, missed.2.2.2.1⟩

theorem collapsedSizes_eq {order : Order} {before between after : List Nat} {x y : Nat}
    (input : args.input = around before between after x y)
    (batch : args.attr.batchDim = order.batchDim before.length (before.length + 1 + between.length))
    (seq : args.attr.seqDim = order.seqDim before.length (before.length + 1 + between.length)) :
    args.collapsedSizes = (groupsOf before between after x y).map prod := by
  have first : args.lower = before.length := by
    rw [Arguments.lower, Arguments.batch, Arguments.seq, batch, seq, Int.toNat_natCast,
      Int.toNat_natCast]
    cases order <;> simp only [Order.batchDim, Order.seqDim] <;> omega
  have snd : args.upper = before.length + 1 + between.length := by
    rw [Arguments.upper, Arguments.batch, Arguments.seq, batch, seq, Int.toNat_natCast,
      Int.toNat_natCast]
    cases order <;> simp only [Order.batchDim, Order.seqDim] <;> omega
  have xs := And.intro (getD_around before between after .batchFirst x y)
    (getD_around before between after .seqFirst x y)
  simp only [Order.batchDim] at xs
  have count : before.length + 1 + between.length - (before.length + 1) = between.length := by omega
  rw [collapsedSizes, groups, input, first, snd, xs.1, xs.2, count]
  conv_lhs =>
    enter [2, 2, 2, 2, 2, 1]
    rw [around_eq, ← length_upper before between x, drop_append_cons]
  simp only [around, drop_append_cons, take_left]
  rfl

/-- Sequences are reversed, and all other dimensions reported, if and only if the five sizes fit
    32 bits with addresses for all their elements, and what is not valid is caught. -/
theorem sequences_iff : args.Reverses ↔
    (args.ValidDims → args.ValidLens → 0 < args.input.numElements →
      (∀ size ∈ args.collapsedSizes, size < 2 ^ 32) ∧ Addressed args.collapsedSizes) ∧
    (¬args.ValidDims → args.Caught) := by
  refine and_congr (forall_congr' fun valid => forall_congr' fun lens => ?_)
    (forall_congr' fun invalid => args.reports_iff invalid)
  obtain ⟨order, before, between, after, x, y, input, batch, seq⟩ := args.exists_around valid
  rw [args.collapsedSizes_eq input batch seq]
  cases Nat.eq_zero_or_pos args.input.numElements with
  | inl empty =>
    refine iff_of_true (fun α _ values _ => compute_of_empty input batch seq lens empty values) ?_
    intro some_
    omega
  | inr some_ =>
    rw [reverses_of_valid input batch seq lens some_]
    exact ⟨fun holds _ => holds, fun holds => holds some_⟩

end Arguments

def lastSequence : Arguments 32 where
  attr := ⟨0, -1⟩
  input := [1, 2]
  seqLens := ⟨[1], [2], rfl⟩

theorem lastSequence_not_reverses : ¬lastSequence.Reverses := by
  rintro ⟨-, rejects⟩
  have invalid : ¬lastSequence.ValidDims := by
    rintro ⟨-, ⟨nat, -⟩, -⟩
    exact absurd nat (by decide)
  obtain ⟨status, err⟩ := rejects invalid Nat [7, 8]
  exact nomatch err

end TfDml.ReverseSequence
