import Mathlib.Order.Lattice
import Mathlib.Data.List.Basic

/-! # Cyclic order of the intervals in a ring buffer

The intervals are kept from the oldest to the newest. They form at most two
ascending blocks, and when there are two, the newer block lies below the older
one. Any removal at the front and any insertion that follows the newest
interval keep this order, and it makes the intervals pairwise disjoint.
-/

namespace TfDml.Lib

open List

section

variable {α ι : Type*} [LinearOrder ι] (lo hi : α → ι)

/-- The half-open intervals `[lo x, hi x)` and `[lo y, hi y)` do not meet. -/
def Separate (x y : α) : Prop := hi x ≤ lo y ∨ hi y ≤ lo x

instance (x y : α) : Decidable (Separate lo hi x y) := inferInstanceAs (Decidable (_ ∨ _))

def Ascending (xs : List α) : Prop := xs.Pairwise fun x y => hi x ≤ lo y

/-- The older block `up` precedes the newer block `wrapped`, which lies below it. -/
structure RingSplit (xs up wrapped : List α) : Prop where
  split : xs = up ++ wrapped
  up_ascending : Ascending lo hi up
  wrapped_ascending : Ascending lo hi wrapped
  below : ∀ y ∈ wrapped, ∀ x ∈ up, hi y ≤ lo x
  up_first : up = [] → wrapped = []

def RingOrdered (xs : List α) : Prop := ∃ up wrapped, RingSplit lo hi xs up wrapped

variable {lo hi}

theorem RingOrdered.nil : RingOrdered lo hi ([] : List α) :=
  ⟨[], [], rfl, .nil, .nil, by simp, fun _ => rfl⟩

theorem RingOrdered.singleton (x : α) : RingOrdered lo hi [x] :=
  ⟨[x], [], rfl, pairwise_singleton _ _, .nil, by simp, by simp⟩

theorem RingOrdered.separate {xs : List α} (ring : RingOrdered lo hi xs) :
    xs.Pairwise (Separate lo hi) := by
  obtain ⟨up, wrapped, rfl, ascUp, ascWrapped, below, -⟩ := ring
  refine pairwise_append.mpr ⟨ascUp.imp Or.inl, ascWrapped.imp Or.inl, ?_⟩
  intro x inUp y inWrapped
  exact Or.inr (below y inWrapped x inUp)

theorem RingOrdered.tail {x : α} {xs : List α} (ring : RingOrdered lo hi (x :: xs)) :
    RingOrdered lo hi xs := by
  obtain ⟨up, wrapped, split, ascUp, ascWrapped, below, first⟩ := ring
  cases up with
  | nil => simp [first rfl] at split
  | cons y rest =>
    obtain ⟨rfl, rfl⟩ := List.cons.inj split
    cases rest with
    | nil => exact ⟨wrapped, [], by simp, ascWrapped, .nil, by simp, fun _ => rfl⟩
    | cons z more =>
      exact ⟨z :: more, wrapped, rfl, ascUp.of_cons, ascWrapped,
        fun w mem v lt => below w mem v (mem_cons_of_mem _ lt), by simp⟩

theorem RingOrdered.dropWhile {xs : List α} (ring : RingOrdered lo hi xs) (p : α → Bool) :
    RingOrdered lo hi (xs.dropWhile p) := by
  induction xs with
  | nil => exact ring
  | cons x rest ih =>
    rw [dropWhile_cons]
    split
    · exact ih ring.tail
    · exact ring

private theorem Ascending.head_le {x : α} {rest : List α} (proper : ∀ y ∈ x :: rest, lo y < hi y)
    (asc : Ascending lo hi (x :: rest)) {y : α} (mem : y ∈ x :: rest) : lo x ≤ lo y := by
  rcases mem_cons.mp mem with rfl | later
  · exact le_refl _
  · exact ((proper x mem_cons_self).le).trans ((pairwise_cons.mp asc).1 y later)

private theorem Ascending.le_last {xs : List α} {last : α}
    (proper : ∀ y ∈ xs ++ [last], lo y < hi y) (asc : Ascending lo hi (xs ++ [last])) {y : α}
    (mem : y ∈ xs ++ [last]) : hi y ≤ hi last := by
  rcases mem_append.mp mem with earlier | newest
  · exact ((pairwise_append.mp asc).2.2 y earlier last (by simp)).trans
      (proper last (by simp)).le
  · exact (mem_singleton.mp newest) ▸ le_refl _

section Insertion

variable {xs : List α} {first last : α} (ring : RingOrdered lo hi xs)
  (proper : ∀ y ∈ xs, lo y < hi y) (oldest : xs.head? = some first)
  (newest : xs.getLast? = some last)
include ring proper oldest newest

theorem RingOrdered.unwrapped (above : lo first ≤ lo last) : Ascending lo hi xs := by
  obtain ⟨up, wrapped, rfl, ascUp, -, below, upFirst⟩ := ring
  cases wrapped with
  | nil => simpa using ascUp
  | cons w ws =>
    cases up with
    | nil => simp at upFirst
    | cons u us =>
      obtain rfl : u = first := by simpa using oldest
      have inWrapped : last ∈ w :: ws := by
        rw [getLast?_append_of_ne_nil _ (by simp)] at newest
        exact mem_of_getLast? newest
      have under := below last inWrapped u mem_cons_self
      have pos := proper last (mem_append_right _ inWrapped)
      exact absurd (pos.trans_le (under.trans above)) (lt_irrefl _)

theorem RingOrdered.wrapped (under : lo last < lo first) :
    ∃ up wrapped, RingSplit lo hi xs up wrapped ∧ wrapped.getLast? = some last ∧
      up.head? = some first := by
  obtain ⟨up, wrapped, rfl, ascUp, ascWrapped, below, upFirst⟩ := ring
  cases up with
  | nil =>
    obtain rfl := upFirst rfl
    simp at oldest
  | cons u us =>
    obtain rfl : u = first := by simpa using oldest
    cases wrapped with
    | nil =>
      have inUp : last ∈ u :: us := mem_of_getLast? (by simpa using newest)
      have := ascUp.head_le (fun y mem => proper y (by simpa using mem)) inUp
      exact absurd (this.trans_lt under) (lt_irrefl _)
    | cons w ws =>
      refine ⟨u :: us, w :: ws, ⟨rfl, ascUp, ascWrapped, below, upFirst⟩, ?_, rfl⟩
      rwa [getLast?_append_of_ne_nil _ (by simp)] at newest

theorem RingOrdered.append_after (above : lo first ≤ lo last) {x : α} (after : hi last ≤ lo x) :
    RingOrdered lo hi (xs ++ [x]) := by
  have asc := ring.unwrapped proper oldest newest above
  refine ⟨xs ++ [x], [], by simp, pairwise_append.mpr ⟨asc, by simp, ?_⟩, .nil, by simp,
    fun _ => rfl⟩
  intro y mem z lt
  obtain rfl := mem_singleton.mp lt
  obtain ⟨earlier, rfl⟩ : ∃ earlier, xs = earlier ++ [last] := getLast?_eq_some_iff.mp newest
  exact (asc.le_last proper mem).trans after

theorem RingOrdered.append_wrapped (above : lo first ≤ lo last) {x : α}
    (pre : hi x ≤ lo first) : RingOrdered lo hi (xs ++ [x]) := by
  have asc := ring.unwrapped proper oldest newest above
  refine ⟨xs, [x], rfl, asc, pairwise_singleton _ _, ?_, ?_⟩
  · intro y mem z lt
    obtain rfl := mem_singleton.mp mem
    cases xs with
    | nil => simp at lt
    | cons u us =>
      obtain rfl : u = first := by simpa using oldest
      exact pre.trans (asc.head_le proper lt)
  · rintro rfl
    simp at oldest

theorem RingOrdered.append_between (under : lo last < lo first) {x : α}
    (after : hi last ≤ lo x) (pre : hi x ≤ lo first) : RingOrdered lo hi (xs ++ [x]) := by
  obtain ⟨up, wrapped, ⟨rfl, ascUp, ascWrapped, below, upFirst⟩, newestWrapped, oldestUp⟩ :=
    ring.wrapped proper oldest newest under
  obtain ⟨earlier, rfl⟩ : ∃ earlier, wrapped = earlier ++ [last] :=
    getLast?_eq_some_iff.mp newestWrapped
  refine ⟨up, earlier ++ [last] ++ [x], by simp, ascUp,
    pairwise_append.mpr ⟨ascWrapped, by simp, ?_⟩, ?_, ?_⟩
  · intro y mem z lt
    obtain rfl := mem_singleton.mp lt
    exact (ascWrapped.le_last (fun w inWrapped => proper w (mem_append_right _ inWrapped))
      mem).trans after
  · intro y mem z lt
    rcases mem_append.mp mem with old | new
    · exact below y old z lt
    · obtain rfl := mem_singleton.mp new
      cases up with
      | nil => simp at lt
      | cons u us =>
        obtain rfl : u = first := by simpa using oldestUp
        exact pre.trans
          (ascUp.head_le (fun w inUp => proper w (mem_append_left _ inUp)) lt)
  · rintro rfl
    simp at oldestUp

end Insertion

end

end TfDml.Lib
