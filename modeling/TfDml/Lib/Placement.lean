import TfDml.Lib.Pushforward

/-! # Entries at places of a list

Entries are put at distinct places one after the other, and what is not a place keeps what it
starts with. Dimensions that are put at places have the indices that are put there with them.
-/

namespace TfDml.Lib

open List

variable {β : Type*} {places : List Nat}

def place (start : List β) (places : List Nat) (values : List β) : List β :=
  (places.zip values).foldl (fun l entry => l.set entry.1 entry.2) start

theorem place_cons (start : List β) (p : Nat) (places : List Nat) (x : β) (values : List β) :
    place start (p :: places) (x :: values) = place (start.set p x) places values := rfl

theorem length_place (start : List β) (places : List Nat) (values : List β) :
    (place start places values).length = start.length := by
  induction places generalizing start values with
  | nil => rfl
  | cons p places ih =>
    cases values with
    | nil => rfl
    | cons x values => rw [place_cons, ih, length_set]

theorem getElem?_place_map (start : List β) (f : Nat → β) (d : Nat) :
    (place start places (places.map f))[d]? =
      if d ∈ places ∧ d < start.length then some (f d) else start[d]? := by
  induction places generalizing start with
  | nil => simp [place]
  | cons p places ih =>
    rw [map_cons, place_cons, ih, length_set, getElem?_set]
    by_cases later : d ∈ places <;> by_cases lt : d < start.length <;>
      by_cases here : p = d <;> simp [later, lt, here, eq_comm (a := d)]

theorem eq_map_idxOf (nodup : places.Nodup) {values : List β}
    (length : values.length = places.length) (default : β) :
    values = places.map fun p => values.getD (places.idxOf p) default := by
  refine ext_getElem (by simp [length]) fun i first snd => ?_
  have lt : i < places.length := by omega
  rw [getElem_map, nodup.idxOf_getElem i lt, getD_eq_getElem _ _ first]

variable {start sizes start' index : List Nat}

theorem place_mem (outer : start' ∈ indices start) (mem : index ∈ indices sizes) :
    place start' places index ∈ indices (place start places sizes) := by
  rw [mem_indices] at outer mem
  induction mem generalizing places start start' with
  | nil =>
    rw [mem_indices, place, place, zip_nil_right]
    exact outer
  | @cons k size index sizes less _ ih =>
    cases places with
    | nil => exact mem_indices.mpr outer
    | cons p places =>
      rw [place_cons, place_cons]
      refine ih (forall₂_iff_get.mpr ⟨by simp [outer.length_eq], fun d first snd => ?_⟩)
      rw [get_eq_getElem, get_eq_getElem, getElem_set, getElem_set]
      split
      · exact less
      · exact outer.get _ _

theorem exists_place {count : Nat} (nodup : places.Nodup)
    (length : sizes.length = places.length) (lt : ∀ p ∈ places, p < count)
    (mem : index ∈ indices (place (List.replicate count 1) places sizes)) :
    ∃ inner ∈ indices sizes, place (List.replicate count 0) places inner = index := by
  have whole : index.length = count := by
    rw [length_of_mem_indices mem, length_place, length_replicate]
  have size (d : Nat) (below : d < count) : (place (List.replicate count 1) places sizes)[d]? =
        some (if d ∈ places then sizes.getD (places.idxOf d) 0 else 1) := by
    conv_lhs => rw [eq_map_idxOf nodup length 0, getElem?_place_map]
    by_cases named : d ∈ places <;> simp [named, below]
  have entry (d : Nat) (below : d < count) :
      index.getD d 0 < if d ∈ places then sizes.getD (places.idxOf d) 0 else 1 := by
    obtain ⟨first, same⟩ := List.getElem?_eq_some_iff.mp (size d below)
    rw [getD_eq_getElem _ _ (by omega : d < index.length), ← same]
    exact getElem_lt_of_mem_indices mem first _
  refine ⟨places.map (index.getD · 0), mem_indices_of_getElem ?_ fun i first snd => ?_, ?_⟩
  · rw [length_map, length]
  · have named := getElem_mem (by omega : i < places.length)
    have below := entry _ (lt _ named)
    rw [if_pos named, nodup.idxOf_getElem i (by omega), getD_eq_getElem _ _ first] at below
    rwa [getElem_map]
  · refine ext_getElem? fun d => ?_
    rw [getElem?_place_map, length_replicate, getElem?_replicate]
    by_cases below : d < count
    · have known : index[d]? = some (index.getD d 0) := by
        rw [getD_eq_getElem _ _ (by omega), getElem?_eq_getElem]
      by_cases named : d ∈ places
      · rw [if_pos ⟨named, below⟩, known]
      · have single := entry d below
        rw [if_neg named] at single
        rw [if_neg (fun both => named both.1), if_pos below, known, Nat.lt_one_iff.mp single]
    · rw [if_neg (fun both => below both.2), if_neg below, getElem?_eq_none (by omega)]

end TfDml.Lib
