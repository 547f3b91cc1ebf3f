import Mathlib.Data.List.Sort
import Mathlib.Data.List.TakeWhile

/-! # Ordered multimaps as sorted lists

`std::multimap` keeps its entries in ascending order of their keys and, among
equal keys, in the order of insertion. The entries are kept in one list, and a
lower bound splits it.
-/

namespace TfDml.Lib

open List

variable {α ι : Type*} [LinearOrder ι] (key : α → ι)

def SortedByKey (entries : List α) : Prop := entries.Pairwise fun a b => key a ≤ key b

def emplace (x : α) (entries : List α) : List α :=
  entries.orderedInsert (fun a b => key a < key b) x

/-- The entries in `[begin, lower_bound(bound))`. -/
def beforeBound (bound : ι) (entries : List α) : List α := entries.takeWhile (key · < bound)

/-- The entries in `[lower_bound(bound), end)`. -/
def fromBound (bound : ι) (entries : List α) : List α := entries.dropWhile (key · < bound)

variable {key}

theorem perm_emplace (x : α) (entries : List α) : (emplace key x entries).Perm (x :: entries) :=
  entries.perm_orderedInsert _ x

variable {x y : α} {entries : List α}

theorem mem_emplace : y ∈ emplace key x entries ↔ y = x ∨ y ∈ entries := mem_orderedInsert _

theorem before_append_from (bound : ι) (entries : List α) :
    beforeBound key bound entries ++ fromBound key bound entries = entries :=
  takeWhile_append_dropWhile

theorem lt_of_mem_beforeBound {bound : ι} (mem : x ∈ beforeBound key bound entries) :
    key x < bound := by
  simpa using mem_takeWhile_imp mem

namespace SortedByKey

variable {entries : List α}

theorem fromBound (sorted : SortedByKey key entries) (bound : ι) :
    SortedByKey key (fromBound key bound entries) :=
  sorted.sublist (dropWhile_sublist _)

theorem le_of_mem_fromBound {bound : ι} (sorted : SortedByKey key entries) {x : α}
    (mem : x ∈ Lib.fromBound key bound entries) : bound ≤ key x := by
  induction entries with
  | nil => simp [Lib.fromBound] at mem
  | cons a rest ih =>
    unfold Lib.fromBound at ih mem
    rw [dropWhile_cons] at mem
    obtain ⟨first, sortedRest⟩ := pairwise_cons.mp sorted
    split at mem
    · exact ih sortedRest mem
    · rename_i notBelow
      have low : bound ≤ key a := by simpa using notBelow
      rcases mem_cons.mp mem with rfl | later
      · exact low
      · exact low.trans (first x later)

theorem emplace_split (sorted : SortedByKey key entries) (x : α) :
    ∃ front back, entries = front ++ back ∧ emplace key x entries = front ++ x :: back ∧
      (∀ a ∈ front, key a ≤ key x) ∧ ∀ b ∈ back, key x < key b := by
  induction entries with
  | nil => exact ⟨[], [], rfl, rfl, by simp, by simp⟩
  | cons a rest ih =>
    obtain ⟨first, sortedRest⟩ := pairwise_cons.mp sorted
    unfold emplace at ih ⊢
    rw [orderedInsert_cons]
    split
    · rename_i below
      refine ⟨[], a :: rest, rfl, rfl, by simp, ?_⟩
      exact forall_mem_cons.mpr ⟨below, fun b later => below.trans_le (first b later)⟩
    · rename_i notBelow
      obtain ⟨front, back, split, ins, low, high⟩ := ih sortedRest
      refine ⟨a :: front, back, by rw [split, cons_append], by rw [ins, cons_append], ?_, high⟩
      exact forall_mem_cons.mpr ⟨not_lt.mp notBelow, low⟩

theorem emplace (sorted : SortedByKey key entries) (x : α) :
    SortedByKey key (emplace key x entries) := by
  obtain ⟨front, back, split, ins, low, high⟩ := sorted.emplace_split x
  rw [split] at sorted
  obtain ⟨sortedFront, sortedBack, across⟩ := pairwise_append.mp sorted
  rw [ins]
  refine pairwise_append.mpr ⟨sortedFront, ?_, ?_⟩
  · exact pairwise_cons.mpr ⟨fun b mem => (high b mem).le, sortedBack⟩
  · intro a inFront b mem
    rcases mem_cons.mp mem with rfl | inBack
    · exact low a inFront
    · exact across a inFront b inBack

end SortedByKey

theorem sublist_pair_of_pairwise {R : α → α → Prop} {l : List α} (lt : l.Pairwise R)
    (hx : x ∈ l) (hy : y ∈ l) (ne : x ≠ y) (forbidden : ¬ R y x) : [x, y].Sublist l := by
  induction l with
  | nil => cases hx
  | cons a rest ih =>
    obtain ⟨first, orderedRest⟩ := pairwise_cons.mp lt
    rcases mem_cons.mp hx with rfl | xLater
    · have yLater := (mem_cons.mp hy).resolve_left ne.symm
      exact (singleton_sublist.mpr yLater).cons_cons _
    · rcases mem_cons.mp hy with rfl | yLater
      · exact absurd (first x xLater) forbidden
      · exact (ih orderedRest xLater yLater).cons a

end TfDml.Lib
