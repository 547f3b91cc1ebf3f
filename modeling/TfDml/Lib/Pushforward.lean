import TfDml.Lib.MultiIndex
import Mathlib.Algebra.BigOperators.Ring.Finset
import Mathlib.Data.List.GetD

/-! # Sums over the fibres of a map

Values that are moved along a map are added where they meet. Moves compose, and to move values
along a map is adjoint to reading them through it. For arrays, a map of one index moves the
lines of that dimension.
-/

namespace TfDml.Lib

open Finset

variable {ι κ μ M : Type*}

section Fibres

variable [AddCommMonoid M] [DecidableEq κ] [DecidableEq μ]

/-- What arrives at `k` when the values at the indices `s` are moved along `f`. -/
def pushforward (s : Finset ι) (f : ι → κ) (v : ι → M) (k : κ) : M := ∑ i ∈ s with f i = k, v i

variable {s : Finset ι} {f : ι → κ}

theorem pushforward_congr {g : ι → κ} {v w : ι → M} (maps : ∀ i ∈ s, f i = g i)
    (values : ∀ i ∈ s, v i = w i) (k : κ) : pushforward s f v k = pushforward s g w k := by
  rw [pushforward, pushforward, sum_filter, sum_filter]
  refine sum_congr rfl fun i mem => ?_
  rw [maps i mem, values i mem]

variable {k : κ}

theorem pushforward_id {s : Finset κ} {v : κ → M} (mem : k ∈ s) : pushforward s id v k = v k := by
  rw [pushforward, sum_filter, sum_eq_single_of_mem k mem]
  · exact if_pos rfl
  · intro i _ other
    exact if_neg other

theorem pushforward_comp {t : Finset κ} (g : κ → μ) (v : ι → M) (maps : ∀ i ∈ s, f i ∈ t) (m : μ) :
    pushforward t g (pushforward s f v) m = pushforward s (g ∘ f) v m := by
  have grouped := sum_fiberwise_of_maps_to maps fun i => if g (f i) = m then v i else 0
  rw [pushforward, pushforward, sum_filter, sum_filter]
  refine Eq.trans (sum_congr rfl fun k _ => ?_) grouped
  rw [pushforward]
  split
  case isTrue here =>
    refine sum_congr rfl fun i mem => ?_
    rw [(mem_filter.mp mem).2, if_pos here]
  case isFalse elsewhere =>
    refine (sum_eq_zero fun i mem => ?_).symm
    rw [(mem_filter.mp mem).2, if_neg elsewhere]

theorem pushforward_pair [DecidableEq ι] (v : ι → M) {i j : ι} {snd : Prop} [Decidable snd]
    (fibre : ∀ o ∈ s, f o = k ↔ o = i ∨ snd ∧ o = j) (mem : i ∈ s) (member' : snd → j ∈ s)
    (nodup : snd → i ≠ j) : pushforward s f v k = v i + if snd then v j else 0 := by
  rw [pushforward]
  split
  case isTrue holds =>
    have both : s.filter (f · = k) = {i, j} := by
      ext o
      rw [mem_filter, mem_insert, mem_singleton]
      constructor
      · rintro ⟨lt, same⟩
        exact ((fibre o lt).mp same).imp_right And.right
      · rintro (rfl | rfl)
        · exact ⟨mem, (fibre o mem).mpr (.inl rfl)⟩
        · exact ⟨member' holds, (fibre o (member' holds)).mpr (.inr ⟨holds, rfl⟩)⟩
    rw [both, sum_pair (nodup holds)]
  case isFalse fails =>
    have single : s.filter (f · = k) = {i} := by
      ext o
      rw [mem_filter, mem_singleton]
      constructor
      · rintro ⟨lt, same⟩
        exact ((fibre o lt).mp same).resolve_right fun got => fails got.1
      · rintro rfl
        exact ⟨mem, (fibre o mem).mpr (.inl rfl)⟩
    rw [single, sum_singleton, add_zero]

end Fibres

theorem sum_mul_pushforward {R : Type*} [CommSemiring R] [DecidableEq κ] {s : Finset ι}
    {t : Finset κ} {f : ι → κ} (x : κ → R) (v : ι → R) (maps : ∀ i ∈ s, f i ∈ t) :
    ∑ k ∈ t, x k * pushforward s f v k = ∑ i ∈ s, x (f i) * v i := by
  rw [← sum_fiberwise_of_maps_to maps]
  refine sum_congr rfl fun k _ => ?_
  rw [pushforward, mul_sum]
  refine sum_congr rfl fun i mem => ?_
  rw [(mem_filter.mp mem).2]

def indexSet (sizes : List Nat) : Finset (List Nat) := (indices sizes).toFinset

variable {sizes index : List Nat}

theorem mem_indexSet : index ∈ indexSet sizes ↔ index ∈ indices sizes := List.mem_toFinset

theorem getElem_lt_of_mem_indices (mem : index ∈ indices sizes) {d : Nat}
    (lt : d < sizes.length) (lt' : d < index.length) : index[d] < sizes[d] :=
  (mem_indices.mp mem).get lt' lt

theorem mem_indices_of_getElem (length : index.length = sizes.length)
    (below : ∀ d (lt : d < sizes.length) (lt' : d < index.length), index[d] < sizes[d]) :
    index ∈ indices sizes :=
  mem_indices.mpr (List.forall₂_iff_get.mpr ⟨length, fun d first snd => below d snd first⟩)

theorem pushforward_flatten [AddCommMonoid M] [DecidableEq κ] (sizes : List Nat) (f : Nat → κ)
    (v : Nat → M) (k : κ) : pushforward (indexSet sizes) (fun index => f (flatten sizes index))
      (fun index => v (flatten sizes index)) k = pushforward (range sizes.prod) f v k := by
  rw [pushforward, pushforward, sum_filter, sum_filter]
  refine sum_bij (fun index _ => flatten sizes index) ?_ ?_ ?_ fun _ _ => rfl
  · intro index mem
    exact mem_range.mpr (flatten_lt (mem_indexSet.mp mem))
  · intro index mem index' member' same
    exact flatten_inj (mem_indexSet.mp mem) (mem_indexSet.mp member') same
  · intro p lt
    have below : p < (indices sizes).length := by
      rw [length_indices]
      exact mem_range.mp lt
    exact ⟨_, mem_indexSet.mpr (List.getElem_mem below), flatten_getElem_indices below⟩

variable {i n : Nat}

theorem set_mem_indices {k : Nat} (mem : index ∈ indices (sizes.set i n))
    (below : ∀ h : i < sizes.length, k < sizes[i]) : index.set i k ∈ indices sizes := by
  have length := length_of_mem_indices mem
  rw [List.length_set] at length
  refine mem_indices_of_getElem (by rw [List.length_set, length]) fun d lt lt' => ?_
  rw [List.getElem_set]
  split
  case isTrue here =>
    subst here
    exact below lt
  case isFalse elsewhere =>
    have other := getElem_lt_of_mem_indices mem (d := d) (by rwa [List.length_set]) (by omega)
    rwa [List.getElem_set_ne elsewhere] at other

theorem modify_mem_indices {g : Nat → Nat} (mem : index ∈ indices sizes)
    (maps : ∀ h : i < sizes.length, ∀ k < sizes[i], g k < n) :
    index.modify i g ∈ indices (sizes.set i n) := by
  have length := length_of_mem_indices mem
  refine mem_indices_of_getElem (by rw [List.length_modify, List.length_set, length])
    fun d lt lt' => ?_
  rw [List.length_set] at lt
  have below := getElem_lt_of_mem_indices mem lt (by omega)
  rw [List.getElem_modify, List.getElem_set]
  split
  case isTrue here =>
    subst here
    exact maps lt _ below
  case isFalse elsewhere => exact below

theorem pushforward_modify [AddCommMonoid M] (lt : i < sizes.length) (g : Nat → Nat)
    (v : List Nat → M) (mem : index ∈ indices (sizes.set i n)) (lt' : i < index.length) :
    pushforward (indexSet sizes) (List.modify · i g) v index =
      pushforward (range sizes[i]) g (fun o => v (index.set i o)) index[i] := by
  have length := length_of_mem_indices mem
  rw [List.length_set] at length
  rw [pushforward, pushforward]
  symm
  refine sum_bij' (fun o _ => index.set i o) (fun src _ => src.getD i 0) ?_ ?_ ?_ ?_ ?_
  · intro o moved
    obtain ⟨below, same⟩ := mem_filter.mp moved
    refine mem_filter.mpr ⟨mem_indexSet.mpr (set_mem_indices mem fun _ => mem_range.mp below), ?_⟩
    apply List.ext_getElem
    · rw [List.length_modify, List.length_set]
    · intro d first snd
      rw [List.getElem_modify]
      split
      case isTrue here =>
        subst here
        rw [List.getElem_set_self, same]
      case isFalse elsewhere => rw [List.getElem_set_ne elsewhere]
  · intro src moved
    obtain ⟨got, same⟩ := mem_filter.mp moved
    have got := mem_indexSet.mp got
    have sourceLength := length_of_mem_indices got
    have here : src.getD i 0 = src[i] := by rw [List.getD_eq_getElem _ _ (by omega)]
    refine mem_filter.mpr ⟨mem_range.mpr ?_, ?_⟩
    · rw [here]
      exact getElem_lt_of_mem_indices got lt _
    · subst same
      rw [here, List.getElem_modify_eq]
  · intro o _
    rw [List.getD_eq_getElem _ _ (by rwa [List.length_set]), List.getElem_set_self]
  · intro src moved
    obtain ⟨got, same⟩ := mem_filter.mp moved
    have sourceLength := length_of_mem_indices (mem_indexSet.mp got)
    subst same
    apply List.ext_getElem
    · rw [List.length_set, List.length_modify]
    · intro d first snd
      by_cases here : i = d
      · subst here
        rw [List.getElem_set_self, List.getD_eq_getElem _ _ snd]
      · rw [List.getElem_set_ne here, List.getElem_modify_ne _ _ here]
  · intro o _
    rfl

end TfDml.Lib
