import Mathlib.Data.List.Nodup

/-! # Lists ordered by last use

A log of uses, the newest first, gives every key the time of its last use. A list
is ordered by it when the keys at the front were used last. Moving the key that is
used to the front keeps this order, and so does dropping the key at the end.
-/

namespace TfDml.Lib

variable {α : Type*} [DecidableEq α]

/-- The time of the last use of a key; 0 if it was never used. -/
def lastUse : List α → α → Nat
  | [], _ => 0
  | used :: earlier, key => if used = key then earlier.length + 1 else lastUse earlier key

theorem lastUse_le_length (uses : List α) (key : α) : lastUse uses key ≤ uses.length := by
  induction uses with
  | nil => exact Nat.zero_le _
  | cons used earlier ih =>
    simp only [lastUse, List.length_cons]
    split
    · exact Nat.le_refl _
    · exact Nat.le_succ_of_le ih

@[simp] theorem lastUse_cons_self (uses : List α) (key : α) :
    lastUse (key :: uses) key = uses.length + 1 := by
  simp [lastUse]

theorem lastUse_cons_ne (uses : List α) {used key : α} (other : used ≠ key) :
    lastUse (used :: uses) key = lastUse uses key := by
  simp [lastUse, other]

def ByRecency (uses keys : List α) : Prop :=
  keys.Pairwise fun newer older => lastUse uses older < lastUse uses newer

namespace ByRecency

variable {uses keys : List α}

theorem sublist {fewer : List α} (lt : ByRecency uses keys) (sub : fewer.Sublist keys) :
    ByRecency uses fewer :=
  List.Pairwise.sublist sub lt

theorem of_notMem (lt : ByRecency uses keys) {key : α} (absent : key ∉ keys) :
    ByRecency (key :: uses) keys := by
  apply List.Pairwise.imp_of_mem _ lt
  intro newer older first snd pre
  have firstOther : key ≠ newer := fun same => absent (same ▸ first)
  have secondOther : key ≠ older := fun same => absent (same ▸ snd)
  rw [lastUse_cons_ne uses firstOther, lastUse_cons_ne uses secondOther]
  exact pre

theorem cons (lt : ByRecency uses keys) {key : α} (absent : key ∉ keys) :
    ByRecency (key :: uses) (key :: keys) := by
  apply List.Pairwise.cons _ (lt.of_notMem absent)
  intro older mem
  have other : key ≠ older := fun same => absent (same ▸ mem)
  rw [lastUse_cons_self, lastUse_cons_ne uses other]
  exact Nat.lt_succ_of_le (lastUse_le_length uses older)

theorem touch (lt : ByRecency uses keys) (nodup : keys.Nodup) (key : α) :
    ByRecency (key :: uses) (key :: keys.erase key) :=
  (lt.sublist List.erase_sublist).cons nodup.not_mem_erase

theorem last_oldest {front : List α} {oldest key : α}
    (lt : ByRecency uses (front ++ [oldest])) (mem : key ∈ front) :
    lastUse uses oldest < lastUse uses key :=
  (List.pairwise_append.mp lt).2.2 key mem oldest (List.mem_singleton_self oldest)

end ByRecency

end TfDml.Lib
