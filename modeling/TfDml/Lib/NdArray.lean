import TfDml.Lib.Padding
import TfDml.Lib.Pushforward

/-! # Arrays of several dimensions

An array has an entry for each index in its sizes; what it has elsewhere is irrelevant. The
operators that take part of an array fail where there is no such part.
-/

namespace TfDml.Lib

open List

structure NdArray (α : Type*) where
  sizes : List Nat
  entry : List Nat → α

namespace NdArray

variable {α : Type*} (t u : NdArray α)

def const (sizes : List Nat) (value : α) : NdArray α := ⟨sizes, fun _ => value⟩

def slice (offsets sizes : List Nat) : Option (NdArray α) :=
  if offsets.length = t.sizes.length ∧ sizes.length = t.sizes.length ∧
      ∀ d < t.sizes.length, offsets.getD d 0 + sizes.getD d 0 ≤ t.sizes.getD d 0 then
    some ⟨sizes, fun index => t.entry (zipWith (· + ·) offsets index)⟩
  else none

def padDims (sizes before after : List Nat) : List PadDim := zipWith3 PadDim.mk sizes before after

def pad (value : α) (before after : List Nat) : NdArray α :=
  let dims := padDims t.sizes before after
  ⟨dims.map PadDim.total, fun index => (sourceIndex .constant dims index).elim value t.entry⟩

/-- Of each line along the axis, as many elements as `lengths` has for it are in reverse
    order. -/
def reverse (lengths : NdArray Nat) (axis : Nat) : NdArray α :=
  ⟨t.sizes, fun index =>
    let k := index.getD axis 0
    let length := lengths.entry (index.set axis 0)
    if k < length then t.entry (index.set axis (length - 1 - k)) else t.entry index⟩

def add [Add α] : Option (NdArray α) :=
  if t.sizes = u.sizes then some ⟨t.sizes, fun index => t.entry index + u.entry index⟩ else none

def along (rank axis n : Nat) : List Nat := (replicate rank 0).set axis n

theorem length_along (rank axis n : Nat) : (along rank axis n).length = rank := by
  rw [along, length_set, length_replicate]

variable {rank axis n : Nat}

theorem getElem_along {d : Nat} (lt : d < (along rank axis n).length) :
    (along rank axis n)[d] = if axis = d then n else 0 := by
  simp only [along, getElem_set, getElem_replicate]

variable {index : List Nat}

theorem zipWith_along (length : index.length = rank) :
    zipWith (· + ·) (along rank axis n) index = index.modify axis (n + ·) := by
  apply ext_getElem
  · rw [length_zipWith, length_along, length_modify, length, min_self]
  · intro d first snd
    rw [getElem_zipWith, getElem_along, getElem_modify]
    split
    · rfl
    · exact zero_add _

theorem modify_eq_set (lt : axis < index.length) (g : Nat → Nat) :
    index.modify axis g = index.set axis (g index[axis]) := by
  apply ext_getElem
  · rw [length_modify, length_set]
  · intro d first snd
    rw [getElem_modify, getElem_set]
    split
    case isTrue here =>
      subst here
      rfl
    case isFalse elsewhere => rfl

theorem slice_along {offset : Nat} (lt : axis < t.sizes.length)
    (fits : offset + n ≤ t.sizes[axis]) :
    t.slice (along t.sizes.length axis offset) (t.sizes.set axis n) =
      some ⟨t.sizes.set axis n, fun index =>
        t.entry (zipWith (· + ·) (along t.sizes.length axis offset) index)⟩ := by
  refine if_pos ⟨length_along _ _ _, length_set, fun d below => ?_⟩
  rw [getD_eq_getElem _ _ (by rwa [length_along]), getElem_along,
    getD_eq_getElem _ _ (by rwa [length_set]), getElem_set, getD_eq_getElem _ _ below]
  split
  case isTrue here =>
    subst here
    exact fits
  case isFalse elsewhere => exact le_of_eq (zero_add _)

variable {sizes : List Nat}

theorem padDims_along (lt : axis < sizes.length) (pre after : Nat) :
    padDims sizes (along sizes.length axis pre) (along sizes.length axis after) =
      (sizes.map (PadDim.mk · 0 0)).set axis ⟨sizes[axis], pre, after⟩ := by
  induction sizes generalizing axis with
  | nil => simp at lt
  | cons size rest ih =>
    have zeros (l : List Nat) : padDims l (replicate l.length 0)
        (replicate l.length 0) = l.map (PadDim.mk · 0 0) := by
      induction l with
      | nil => rfl
      | cons n l ih => exact congrArg _ ih
    cases axis with
    | zero => exact congrArg _ (zeros rest)
    | succ axis => exact congrArg _ (ih (Nat.lt_of_succ_lt_succ lt))

variable {mode : PaddingMode}

theorem sourceIndex_unpadded (mem : index ∈ indices sizes) :
    sourceIndex mode (sizes.map (PadDim.mk · 0 0)) index = some index := by
  rw [mem_indices] at mem
  induction mem with
  | nil => rfl
  | cons less _ ih =>
    rw [map_cons, sourceIndex, PadDim.source_of_unpadded mode ⟨rfl, rfl⟩ less, ih]
    rfl

theorem sourceIndex_along {d : PadDim} (mem : index ∈ indices (sizes.set axis n))
    (lt : axis < index.length) : sourceIndex mode ((sizes.map (PadDim.mk · 0 0)).set axis d) index =
      (d.source mode index[axis]).map (index.set axis ·) := by
  induction sizes generalizing axis index with
  | nil =>
    obtain rfl := length_eq_zero_iff.mp (length_of_mem_indices mem)
    simp at lt
  | cons size rest ih =>
    cases axis with
    | zero =>
      obtain ⟨k, less, inner, got, rfl⟩ := mem_indices_cons.mp mem
      rw [map_cons, set_cons_zero, sourceIndex, sourceIndex_unpadded got]
      rw [getElem_cons_zero]
      cases d.source mode k with
      | none => rfl
      | some src => rfl
    | succ axis =>
      obtain ⟨k, less, inner, got, rfl⟩ := mem_indices_cons.mp mem
      rw [map_cons, set_cons_succ, sourceIndex, PadDim.source_of_unpadded mode ⟨rfl, rfl⟩ less,
        ih got (Nat.lt_of_succ_lt_succ lt), getElem_cons_succ]
      cases d.source mode _ with
      | none => rfl
      | some src => rfl

theorem sizes_pad_along (lt : axis < t.sizes.length) (value : α) (pre after : Nat) :
    (t.pad value (along t.sizes.length axis pre) (along t.sizes.length axis after)).sizes =
      t.sizes.set axis (pre + t.sizes[axis] + after) := by
  have total : ∀ sizes : List Nat, (sizes.map (PadDim.mk · 0 0)).map PadDim.total = sizes := by
    intro sizes
    rw [map_map]
    refine map_id'' (fun size => ?_) sizes
    simp [PadDim.total]
  rw [pad, padDims_along lt, map_set, total]
  rfl

theorem entry_pad_along (lt : axis < t.sizes.length) (value : α) (pre after : Nat)
    (mem : index ∈ indices (t.sizes.set axis n)) (lt' : axis < index.length) :
    (t.pad value (along t.sizes.length axis pre) (along t.sizes.length axis after)).entry index =
      if pre ≤ index[axis] ∧ index[axis] < pre + t.sizes[axis] then
        t.entry (index.set axis (index[axis] - pre))
      else value := by
  rw [pad]
  simp only [padDims_along lt, sourceIndex_along mem lt', PadDim.source]
  split
  case isTrue less => rw [if_neg (by omega)]; rfl
  case isFalse notLess =>
    split
    case isTrue middle => rw [if_pos ⟨by omega, middle⟩]; rfl
    case isFalse beyond => rw [if_neg (by omega)]; rfl

end NdArray

end TfDml.Lib
