import TfDml.Lib.Pushforward

/-! # Arrays whose elements are read elsewhere

An index map says where each element of the result is read. Gathering twice composes the maps, so
that an involution leaves the array as it was.
-/

namespace TfDml.Lib

open List

variable {α : Type*} {sizes : List Nat} {f g : List Nat → List Nat}

def gather (sizes : List Nat) (f : List Nat → List Nat) (values : List α) : List (Option α) :=
  (indices sizes).map fun index => values[flatten sizes (f index)]?

theorem length_gather (values : List α) : (gather sizes f values).length = sizes.prod := by
  rw [gather, length_map, length_indices]

theorem gather_congr (values : List α) (same : ∀ index ∈ indices sizes, f index = g index) :
    gather sizes f values = gather sizes g values :=
  map_congr_left fun index mem => by rw [same index mem]

theorem gather_id {values : List α} (whole : values.length = sizes.prod) :
    gather sizes id values = values.map some := map_getElem?_flatten whole

theorem gather_eq_map_some {values : List α} (whole : values.length = sizes.prod)
    (lt : ∀ index ∈ indices sizes, f index ∈ indices sizes) :
    ∃ out : List α, gather sizes f values = out.map some := by
  have each : ∀ index ∈ indices sizes, ∃ x, values[flatten sizes (f index)]? = some x := by
    intro index mem
    have below := flatten_lt (lt index mem)
    exact ⟨_, getElem?_eq_getElem (by omega)⟩
  rw [gather]
  generalize indices sizes = list at each
  induction list with
  | nil => exact ⟨[], rfl⟩
  | cons index rest ih =>
    obtain ⟨x, first⟩ := each index mem_cons_self
    obtain ⟨out, later⟩ := ih fun other mem => each other (mem_cons_of_mem _ mem)
    exact ⟨x :: out, by rw [map_cons, first, later, map_cons]⟩

theorem gather_gather {values out : List α} (made : gather sizes f values = out.map some)
    (lt : ∀ index ∈ indices sizes, g index ∈ indices sizes) :
    gather sizes g out = gather sizes (f ∘ g) values := by
  refine map_congr_left fun index mem => ?_
  have entry := congrArg (fun l : List (Option α) => l[flatten sizes (g index)]?) made
  simp only [gather, getElem?_map, getElem?_flatten (lt index mem), Option.map_some] at entry
  rw [Function.comp_apply]
  cases got : out[flatten sizes (g index)]? with
  | none =>
    rw [got] at entry
    exact nomatch entry
  | some x =>
    rw [got, Option.map_some, Option.some.injEq] at entry
    exact entry.symm

theorem gather_involution {values out : List α} (whole : values.length = sizes.prod)
    (made : gather sizes f values = out.map some)
    (lt : ∀ index ∈ indices sizes, f index ∈ indices sizes)
    (involutive : ∀ index ∈ indices sizes, f (f index) = index) :
    gather sizes f out = values.map some := by
  rw [gather_gather made lt, ← gather_id whole]
  exact gather_congr values involutive

def reverseAxes (reversed : Nat → Bool) (sizes index : List Nat) : List Nat :=
  index.mapIdx fun d i => if reversed d then sizes.getD d 0 - 1 - i else i

variable {reversed reversed' : Nat → Bool} {index : List Nat}

theorem reverseAxes_mem (mem : index ∈ indices sizes) :
    reverseAxes reversed sizes index ∈ indices sizes := by
  have length := length_of_mem_indices mem
  refine mem_indices_of_getElem (by rw [reverseAxes, length_mapIdx, length])
    fun d lt _ => ?_
  have below := getElem_lt_of_mem_indices mem lt (by omega)
  simp only [reverseAxes, getElem_mapIdx, getD_eq_getElem _ _ lt]
  split
  · omega
  · exact below

theorem reverseAxes_reverseAxes (mem : index ∈ indices sizes) :
    reverseAxes reversed sizes (reverseAxes reversed sizes index) = index := by
  have length := length_of_mem_indices mem
  refine ext_getElem (by simp [reverseAxes]) fun d first snd => ?_
  have lt : d < sizes.length := by omega
  have below := getElem_lt_of_mem_indices mem lt snd
  simp only [reverseAxes, getElem_mapIdx, getD_eq_getElem _ _ lt]
  split
  · omega
  · rfl

theorem reverseAxes_of_none (none : ∀ d < index.length, reversed d = false) :
    reverseAxes reversed sizes index = index := by
  refine ext_getElem (by simp [reverseAxes]) fun d _ lt => ?_
  simp [reverseAxes, none d lt]

theorem reverseAxes_eq_iff (pos : ∀ size ∈ sizes, 0 < size) : (∀ index ∈ indices sizes,
      reverseAxes reversed sizes index = reverseAxes reversed' sizes index) ↔
      ∀ d (_ : d < sizes.length), reversed d = reversed' d ∨ sizes[d] = 1 := by
  constructor
  · intro same d lt
    have first : List.replicate sizes.length 0 ∈ indices sizes :=
      mem_indices_of_getElem (by simp) fun d lt _ => by simpa using pos _ (getElem_mem lt)
    have entry := congrArg (fun l : List Nat => l.getD d 0) (same _ first)
    have size := pos _ (getElem_mem lt)
    simp only [reverseAxes, getD_eq_getElem?_getD, getElem?_mapIdx, getElem?_replicate,
      if_pos lt, Option.map_some, Option.getD_some, getElem?_eq_getElem lt] at entry
    generalize sizes[d] = size at size entry ⊢
    generalize reversed d = one at entry ⊢
    generalize reversed' d = other at entry ⊢
    cases one <;> cases other <;> simp at entry ⊢ <;> omega
  · intro agree index mem
    have length := length_of_mem_indices mem
    refine ext_getElem (by simp [reverseAxes]) fun d first snd => ?_
    have lt' : d < index.length := by simpa [reverseAxes] using first
    have lt : d < sizes.length := by omega
    have below := getElem_lt_of_mem_indices mem lt lt'
    simp only [reverseAxes, getElem_mapIdx, getD_eq_getElem _ _ lt]
    rcases agree d lt with same | single
    · rw [same]
    · split <;> split <;> omega

end TfDml.Lib
