import TfDml.Kernels.StridedSliceSpec
import TfDml.Lib.StridedView

/-! # Simplified slices

`SimplifySlice` turns a strided slice into a window of at most eight dimensions, by
coalescing dimensions from the last one on. It computes in 32 bits.
-/

namespace TfDml.StridedSlice

open Lib List

def u32 (n : Int) : Nat := (n % 2 ^ 32).toNat

def i32 (n : Int) : Int := n.bmod (2 ^ 32)

inductive Fatal where
  | check
  | divisionByZero
  deriving DecidableEq

/-- The `min_output_size` and the `max_output_size` of every caller. -/
def minOutputSize : Nat := 4

def maxOutputSize : Nat := 8

/-- One entry of each vector of a `SimplifiedSlice`. -/
structure DescDim where
  inputSize : Nat := 1
  inputStride : Nat := 1
  outputSize : Nat := 1
  windowOffset : Nat := 0
  windowSize : Nat := 1
  windowStride : Int := 1
  deriving DecidableEq

/-- A dim that nothing is inserted into. -/
def DescDim.padding (inputStride : Nat) : DescDim := { inputStride := inputStride }

abbrev SimplifiedSlice := List DescDim

structure Window where
  inputSize : Nat
  outputSize : Nat
  windowOffset : Nat
  windowSize : Nat
  windowStride : Int

/-- Negating `INT32_MIN` wraps around. -/
def window (d : ProcessingDim) : Except Fatal Window :=
  let windowStride := i32 d.stride
  if d.end_ < -1 then .error .check
  else
    let windowOffset := if 0 < windowStride then u32 d.begin_ else u32 (d.end_ + 1)
    let windowSize := if 0 < windowStride then u32 (d.end_ - d.begin_) else u32 (d.begin_ - d.end_)
    let divisor := if 0 < windowStride then u32 windowStride else u32 (-windowStride)
    if divisor = 0 then .error .divisionByZero
    else
      .ok
        { inputSize := u32 d.dim
          outputSize := u32 (1 + u32 (windowSize - 1) / divisor)
          windowOffset := windowOffset
          windowSize := windowSize
          windowStride := windowStride }

/-- All elements are included in the slice, in order. -/
def Window.collapsible (w : Window) : Bool := w.inputSize == w.outputSize && 0 < w.windowStride

structure Simplifier where
  desc : SimplifiedSlice
  currentDim : Int
  coalesced : Nat
  totalStride : Nat

namespace Simplifier

def initial : Simplifier where
  desc := replicate maxOutputSize (.padding 1)
  currentDim := maxOutputSize - 1
  coalesced := 1
  totalStride := 1

/-- `InsertDim`, which becomes a no-op once all dimensions are used. -/
def insertDim (s : Simplifier) (d : DescDim) : Simplifier :=
  { s with
    desc := if 0 ≤ s.currentDim then s.desc.set s.currentDim.toNat d else s.desc
    currentDim := s.currentDim - 1 }

/-- Insert the previously collapsed dims, if any. -/
def insertCoalesced (s : Simplifier) : Simplifier :=
  if 1 < s.coalesced then
    { s.insertDim
        { inputSize := s.coalesced
          inputStride := s.totalStride
          outputSize := s.coalesced
          windowSize := s.coalesced } with
      totalStride := u32 (s.totalStride * s.coalesced) }
  else s

def insertMerged (s : Simplifier) (w : Window) : Simplifier :=
  { s.insertDim
      { inputSize := u32 (s.coalesced * w.inputSize)
        inputStride := s.totalStride
        outputSize := u32 (s.coalesced * w.outputSize)
        windowSize := u32 (s.coalesced * w.outputSize) } with
    coalesced := 1
    totalStride := u32 (s.totalStride * u32 (s.coalesced * w.inputSize)) }

def insertSeparate (s : Simplifier) (w : Window) : Simplifier :=
  { s.insertDim
      { inputSize := w.inputSize
        inputStride := s.totalStride
        outputSize := w.outputSize
        windowOffset := w.windowOffset
        windowSize := w.windowSize
        windowStride := w.windowStride } with
    coalesced := 1
    totalStride := u32 (s.totalStride * w.inputSize) }

def visit (s : Simplifier) (d : ProcessingDim) (w : Window) : Simplifier :=
  if w.collapsible then { s with coalesced := u32 (s.coalesced * w.inputSize) }
  else if d.begin_ = 0 ∧ w.windowStride = 1 ∧ 1 < s.coalesced then s.insertMerged w
  else s.insertCoalesced.insertSeparate w

/-- The loop over the dimensions, from the last to the first. -/
def visitDims : List ProcessingDim → Except Fatal Simplifier
  | [] => .ok initial
  | d :: rest => do
    let s ← visitDims rest
    let w ← window d
    .ok (s.visit d w)

/-- The input strides of the padding dims, of which `n` are left. -/
def padStrides (desc : SimplifiedSlice) (totalStride : Nat) : Nat → SimplifiedSlice
  | 0 => desc
  | n + 1 => padStrides (desc.modify n fun d => { d with inputStride := totalStride }) totalStride n

end Simplifier

/-- `ShiftDim`, on all vectors at once. -/
def shiftDim (desc : SimplifiedSlice) (shiftAmount dimCount : Nat) : SimplifiedSlice :=
  (desc.drop shiftAmount ++ desc.take shiftAmount).take dimCount

def Simplifier.finish (s : Simplifier) : Option SimplifiedSlice :=
  if s.currentDim + 1 < 0 then none
  else
    let dimsRemaining := (s.currentDim + 1).toNat
    let shiftAmount := min (maxOutputSize - minOutputSize) dimsRemaining
    some (shiftDim (padStrides s.desc s.totalStride dimsRemaining) shiftAmount
      (maxOutputSize - shiftAmount))

def simplifySlice (dims : List ProcessingDim) : Except Fatal (Option SimplifiedSlice) := do
  let s ← Simplifier.visitDims dims
  .ok s.insertCoalesced.finish

theorem u32_eq_mod (n : Nat) : u32 n = n % 2 ^ 32 := by
  rw [u32]
  omega

theorem u32_mul (m n : Nat) : u32 (u32 m * u32 n : Nat) = u32 (m * n : Nat) := by
  simp only [u32_eq_mod, ← Nat.mul_mod]

theorem u32_of_bounds {n : Int} (ge : 0 ≤ n) (lt : n < 2 ^ 32) : u32 n = n.toNat := by
  rw [u32, Int.emod_eq_of_lt ge lt]

theorem u32_natCast {n : Nat} (lt : n < 2 ^ 32) : u32 n = n := by
  rw [u32_of_bounds (by omega) (by omega), Int.toNat_natCast]

theorem i32_of_bounds {n : Int} (above : -2 ^ 31 ≤ n) (below : n < 2 ^ 31) : i32 n = n := by
  rw [i32, Int.bmod_eq_of_le] <;> omega

theorem u32_outputSize {windowSize divisor : Nat} (pos : 0 < windowSize)
    (lt : windowSize < 2 ^ 32) :
    u32 (1 + u32 (windowSize - 1) / divisor) = 1 + (windowSize - 1) / divisor := by
  have quotient : (windowSize - 1) / divisor ≤ windowSize - 1 := Nat.div_le_self _ _
  have less : ((windowSize : Int) - 1) = (windowSize - 1 : Nat) := by omega
  have sum : (1 + ((windowSize - 1 : Nat) : Int) / divisor) =
      (1 + (windowSize - 1) / divisor : Nat) := by
    rw [Nat.cast_add, Nat.cast_one, Int.natCast_ediv]
  rw [less, u32_natCast (by omega), sum, u32_natCast (by omega)]

def exactWindow (d : ProcessingDim) : Window where
  inputSize := d.dim
  outputSize := d.size
  windowOffset := if 0 < d.stride then d.begin_.toNat else (d.end_ + 1).toNat
  windowSize := (d.end_ - d.begin_).natAbs
  windowStride := d.stride

theorem window_eq {d : ProcessingDim} (taken : d.Taken) (lt : d.dim < 2 ^ 32)
    (int32 : -2 ^ 31 ≤ d.stride ∧ d.stride < 2 ^ 31) : window d = .ok (exactWindow d) := by
  have stride := i32_of_bounds int32.1 int32.2
  unfold window exactWindow
  simp only [stride, u32_natCast lt, taken.size]
  rcases taken.direction with ⟨up, first, long, last⟩ | ⟨down, first, long, last⟩
  · have offset := u32_of_bounds first (by omega : d.begin_ < 2 ^ 32)
    have wide : u32 (d.end_ - d.begin_) = (d.end_ - d.begin_).natAbs := by
      rw [u32_of_bounds (by omega) (by omega)]
      omega
    have divisor : u32 d.stride = d.stride.natAbs := by
      rw [u32_of_bounds (by omega) (by omega)]
      omega
    simp only [up, if_true, offset, wide, divisor]
    rw [if_neg (by omega), if_neg (by omega), u32_outputSize (by omega) (by omega)]
  · have notUp : ¬ 0 < d.stride := by omega
    have offset := u32_of_bounds (by omega : 0 ≤ d.end_ + 1) (by omega)
    have wide : u32 (d.begin_ - d.end_) = (d.end_ - d.begin_).natAbs := by
      rw [u32_of_bounds (by omega) (by omega)]
      omega
    have divisor : u32 (-d.stride) = d.stride.natAbs := by
      rw [u32_of_bounds (by omega) (by omega)]
      omega
    simp only [notUp, if_false, offset, wide, divisor]
    rw [if_neg (by omega), if_neg (by omega), u32_outputSize (by omega) (by omega)]

/-- `written` are the dims inserted so far, also those for which there was no space. -/
structure Simplifier.Written (s : Simplifier) (written : List DescDim) : Prop where
  currentDim : s.currentDim = (maxOutputSize : Int) - 1 - written.length
  desc : written.length ≤ maxOutputSize →
    s.desc = replicate (maxOutputSize - written.length) (.padding 1) ++ written

namespace Simplifier

theorem written_initial : initial.Written [] where
  currentDim := rfl
  desc := fun _ => rfl

theorem set_last_replicate {α : Type} (n : Nat) (x d : α) (rest : List α) :
    (replicate (n + 1) x ++ rest).set n d = replicate n x ++ d :: rest := by
  rw [replicate_succ', append_assoc, set_append_right n d (by simp)]
  simp

theorem Written.insertDim {s : Simplifier} {put : List DescDim} (layout : s.Written put)
    (d : DescDim) : (s.insertDim d).Written (d :: put) := by
  have cur := layout.currentDim
  constructor
  · simp only [Simplifier.insertDim, length_cons, Nat.cast_add, Nat.cast_one]
    omega
  · intro room
    rw [length_cons] at room ⊢
    have index : s.currentDim.toNat = maxOutputSize - (put.length + 1) := by omega
    have one : maxOutputSize - put.length = maxOutputSize - (put.length + 1) + 1 := by omega
    simp only [Simplifier.insertDim]
    rw [if_pos (by omega), index, layout.desc (by omega), one, set_last_replicate]

theorem padStrides_replicate (totalStride n : Nat) (rest : SimplifiedSlice) :
    padStrides (replicate n (.padding 1) ++ rest) totalStride n =
      replicate n (.padding totalStride) ++ rest := by
  induction n generalizing rest with
  | zero => rfl
  | succ n ih =>
    have modified : (replicate (n + 1) (DescDim.padding 1) ++ rest).modify n
        (fun d => { d with inputStride := totalStride }) =
        replicate n (.padding 1) ++ .padding totalStride :: rest := by
      rw [modify_eq_take_drop, replicate_succ', append_assoc,
        take_left' (by simp), drop_left' (by simp)]
      rfl
    rw [padStrides, modified, ih, replicate_succ', append_assoc]
    rfl

theorem shiftDim_append (padding rest : SimplifiedSlice) (shiftAmount : Nat)
    (lt : shiftAmount ≤ padding.length) :
    shiftDim (padding ++ rest) shiftAmount (padding.length + rest.length - shiftAmount) =
      padding.drop shiftAmount ++ rest := by
  have length : (padding.drop shiftAmount ++ rest).length =
      padding.length + rest.length - shiftAmount := by
    simp only [length_append, length_drop]
    omega
  rw [shiftDim, drop_append_of_le_length lt, take_left' length]

theorem Written.finish {s : Simplifier} {written : List DescDim} (layout : s.Written written)
    {slice : SimplifiedSlice} : s.finish = some slice ↔ written.length ≤ maxOutputSize ∧
      slice = replicate (minOutputSize - written.length) (.padding s.totalStride) ++ written := by
  have cur := layout.currentDim
  unfold Simplifier.finish
  by_cases room : written.length ≤ maxOutputSize
  · have remaining : (s.currentDim + 1).toNat = maxOutputSize - written.length := by omega
    have shifted := shiftDim_append
      (replicate (maxOutputSize - written.length) (.padding s.totalStride)) written
      (min (maxOutputSize - minOutputSize) (maxOutputSize - written.length)) (by simp)
    have padding : maxOutputSize - written.length -
        min (maxOutputSize - minOutputSize) (maxOutputSize - written.length) =
        minOutputSize - written.length := by
      simp only [maxOutputSize, minOutputSize] at room ⊢
      omega
    rw [length_replicate, Nat.sub_add_cancel room, drop_replicate, padding] at shifted
    rw [if_neg (by omega)]
    simp only [remaining, layout.desc room, padStrides_replicate, shifted, Option.some.injEq, room,
      true_and]
    exact eq_comm
  · rw [if_pos (by omega)]
    simp [room]

end Simplifier

end TfDml.StridedSlice
