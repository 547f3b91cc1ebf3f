import TfDml.Lib.MultiIndex

/-! # Correlations with padding

An output of a correlation is a sum over the taps of its window. A tap reads the input at a position
that a stride, a dilation and a padding determine, or the padding, which is zero.
-/

namespace TfDml.Lib

structure Sweep where
  stride : Nat
  dilation : Nat
  padding : Int

namespace Sweep

def reads (sweep : Sweep) (out tap : Nat) : Int :=
  (out * sweep.stride + tap * sweep.dilation : Nat) - sweep.padding

def swap (sweep : Sweep) : Sweep := ⟨sweep.dilation, sweep.stride, sweep.padding⟩

theorem reads_swap (sweep : Sweep) (out tap : Nat) :
    sweep.swap.reads tap out = sweep.reads out tap := by
  rw [reads, reads, swap, add_comm]

end Sweep

def positionOf : List Sweep → List Nat → List Nat → List Int
  | sweep :: sweeps, k :: out, t :: tap => sweep.reads k t :: positionOf sweeps out tap
  | _, _, _ => []

theorem positionOf_swap (sweeps : List Sweep) (out tap : List Nat) :
    positionOf (sweeps.map Sweep.swap) tap out = positionOf sweeps out tap := by
  induction sweeps generalizing out tap with
  | nil => rfl
  | cons sweep sweeps ih =>
    cases out with
    | nil =>
      cases tap with
      | nil => rfl
      | cons t tap => rfl
    | cons k out =>
      cases tap with
      | nil => rfl
      | cons t tap => rw [List.map_cons, positionOf, positionOf, ih, Sweep.reads_swap]

/-- The index at a position; nothing in the padding. -/
def insideIndex : List Nat → List Int → Option (List Nat)
  | [], _ => some []
  | size :: sizes, p :: position =>
    if 0 ≤ p ∧ p < size then (insideIndex sizes position).map (p.toNat :: ·) else none
  | _ :: _, [] => none

theorem insideIndex_mem {sizes index : List Nat} {position : List Int}
    (lt : insideIndex sizes position = some index) : index ∈ indices sizes := by
  induction sizes generalizing index position with
  | nil =>
    obtain rfl := Option.some.inj lt
    exact List.mem_singleton.mpr rfl
  | cons size sizes ih =>
    cases position with
    | nil => cases lt
    | cons p position =>
      rw [insideIndex, Option.ite_none_right_eq_some, Option.map_eq_some_iff] at lt
      obtain ⟨⟨nat, below⟩, rest, got, rfl⟩ := lt
      exact mem_indices_cons.mpr ⟨p.toNat, by omega, rest, ih got, rfl⟩

def tapIndex (sizes : List Nat) (sweeps : List Sweep) (out tap : List Nat) : Option (List Nat) :=
  insideIndex sizes (positionOf sweeps out tap)

theorem tapIndex_swap (sizes : List Nat) (sweeps : List Sweep) (out tap : List Nat) :
    tapIndex sizes (sweeps.map Sweep.swap) tap out = tapIndex sizes sweeps out tap := by
  rw [tapIndex, tapIndex, positionOf_swap]

section Sums

variable {ι κ R : Type} [CommSemiring R]

/-- A sum over taps, where `source` is the element that a tap reads. -/
def tapSum (taps : List ι) (source : ι → Option κ) (x : κ → R) (y : ι → R) : R :=
  (taps.map fun tap => (source tap).elim 0 x * y tap).sum

theorem tapSum_congr {taps : List ι} {src src' : ι → Option κ}
    (same : ∀ tap ∈ taps, src tap = src' tap) (x : κ → R) (y : ι → R) :
    tapSum taps src x y = tapSum taps src' x y := by
  refine congrArg List.sum (List.map_congr_left fun tap mem => ?_)
  rw [same tap mem]

variable [DecidableEq ι]

theorem tapSum_single {taps : List ι} (nodup : taps.Nodup) {tap : ι} (mem : tap ∈ taps)
    (src : ι → Option κ) (x : κ → R) :
    tapSum taps src x (fun other => if other = tap then 1 else 0) = (src tap).elim 0 x := by
  have others : ∀ other, other ≠ tap → other ∈ taps →
      (src other).elim 0 x * (if other = tap then 1 else 0) = 0 := by
    intro other ne _
    rw [if_neg ne, mul_zero]
  rw [tapSum, List.sum_map_eq_nsmul_single tap _ others,
    List.count_eq_one_of_mem nodup mem, one_nsmul, if_pos rfl, mul_one]

variable [DecidableEq κ]

theorem tapSum_agree_iff {taps : List ι} (nodup : taps.Nodup) (src src' : ι → Option κ) :
    (∀ (x : κ → Int) (y : ι → Int), tapSum taps src x y = tapSum taps src' x y) ↔
      ∀ tap ∈ taps, src tap = src' tap := by
  constructor
  · intro same tap mem
    have each (x : κ → Int) : (src tap).elim 0 x = (src' tap).elim 0 x := by
      rw [← tapSum_single nodup mem src x, same, tapSum_single nodup mem]
    cases first : src tap with
    | some k =>
      have read := each fun other => if other = k then 1 else 0
      rw [first] at read
      cases snd : src' tap with
      | none => simp [snd] at read
      | some k' =>
        by_cases other : k' = k
        · rw [other]
        · simp [snd, other] at read
    | none =>
      cases snd : src' tap with
      | none => rfl
      | some k =>
        have read := each fun other => if other = k then 1 else 0
        simp [first, snd] at read
  · exact fun same x y => tapSum_congr same x y

end Sums

end TfDml.Lib
