import TfDml.Lib.StridedView
import Mathlib.Algebra.BigOperators.Group.List.Lemmas

/-! # Writes in any order

Values that are stored at their positions in some order leave one of the values of each
position. If they should be added up, that is right as long as no position occurs twice.
-/

namespace TfDml.Lib

open List

variable {α : Type*}

/-- The writes are stored, one after the other in some order. -/
def Stored (buffer : List (Option α)) (writes : List (Int × α)) (result : List (Option α)) : Prop :=
  ∃ order : List (Int × α), order.Perm writes ∧ result = order.foldl put buffer

theorem stored_foldl (buffer : List (Option α)) (writes : List (Int × α)) :
    Stored buffer writes (writes.foldl put buffer) := ⟨writes, .refl writes, rfl⟩

theorem Stored.length {buffer result : List (Option α)} {writes : List (Int × α)}
    (put : Stored buffer writes result) : result.length = buffer.length := by
  obtain ⟨order, -, rfl⟩ := put
  exact length_foldl_put order buffer

theorem Stored.other {buffer result : List (Option α)} {writes : List (Int × α)} {k : Nat}
    (put : Stored buffer writes result) (other : ∀ write ∈ writes, write.1.toNat ≠ k) :
    result[k]? = buffer[k]? := by
  obtain ⟨order, perm, rfl⟩ := put
  exact foldl_put_other fun write mem => other write (perm.mem_iff.mp mem)

theorem Stored.self {buffer result : List (Option α)} {writes : List (Int × α)}
    {write : Int × α} (put : Stored buffer writes result)
    (differ : (writes.map fun write => write.1.toNat).Nodup) (mem : write ∈ writes)
    (lt : write.1.toNat < buffer.length) : result[write.1.toNat]? = some (some write.2) := by
  obtain ⟨order, perm, rfl⟩ := put
  exact foldl_put_self ((perm.map _).nodup_iff.mpr differ) (perm.mem_iff.mpr mem) lt

theorem foldl_put_cases {writes : List (Int × α)} {buffer : List (Option α)} {k : Nat}
    (lt : k < buffer.length) :
    ((∀ write ∈ writes, write.1.toNat ≠ k) ∧ (writes.foldl put buffer)[k]? = buffer[k]?) ∨
      ∃ write ∈ writes, write.1.toNat = k ∧ (writes.foldl put buffer)[k]? = some (some write.2) := by
  induction writes generalizing buffer with
  | nil => exact Or.inl ⟨by simp, rfl⟩
  | cons write rest ih =>
    rw [foldl_cons]
    rcases @ih (put buffer write) (by rwa [put, length_set]) with ⟨other, kept⟩ |
      ⟨last, mem, at_, left⟩
    · rw [kept]
      by_cases here : write.1.toNat = k
      · refine Or.inr ⟨write, mem_cons_self, here, ?_⟩
        rw [put, here, getElem?_set_self lt]
      · refine Or.inl ⟨forall_mem_cons.mpr ⟨here, other⟩, ?_⟩
        rw [put, getElem?_set_ne here]
    · exact Or.inr ⟨last, mem_cons_of_mem _ mem, at_, left⟩

theorem Stored.cases {buffer result : List (Option α)} {writes : List (Int × α)} {k : Nat}
    (put : Stored buffer writes result) (lt : k < buffer.length) :
    ((∀ write ∈ writes, write.1.toNat ≠ k) ∧ result[k]? = buffer[k]?) ∨
      ∃ write ∈ writes, write.1.toNat = k ∧ result[k]? = some (some write.2) := by
  obtain ⟨order, perm, rfl⟩ := put
  simpa only [perm.mem_iff] using @foldl_put_cases _ order buffer k lt

theorem exists_stored_survivor {buffer : List (Option α)} {writes : List (Int × α)}
    {write : Int × α} (mem : write ∈ writes) (lt : write.1.toNat < buffer.length) :
    ∃ result, Stored buffer writes result ∧ result[write.1.toNat]? = some (some write.2) := by
  obtain ⟨pre, after, rfl⟩ := append_of_mem mem
  refine ⟨_, ⟨pre ++ after ++ [write], ?_, rfl⟩, ?_⟩
  · rw [append_assoc]
    exact (@List.perm_append_comm _ after [write]).append_left pre
  · rw [foldl_append, foldl_cons, foldl_nil, put, getElem?_set_self (by rwa [length_foldl_put])]

section Const

variable {x : α} {writes : List (Int × α)} (const : ∀ write ∈ writes, write.2 = x)

include const

theorem foldl_put_keep {buffer : List (Option α)} {k : Nat} (has : buffer[k]? = some (some x)) :
    (writes.foldl put buffer)[k]? = some (some x) := by
  induction writes generalizing buffer with
  | nil => exact has
  | cons write rest ih =>
    obtain ⟨first, later⟩ := forall_mem_cons.mp const
    apply ih later
    rw [put, first]
    by_cases here : write.1.toNat = k
    · have lt := (List.getElem?_eq_some_iff.mp has).1
      rw [here, getElem?_set_self lt]
    · rw [getElem?_set_ne here, has]

theorem foldl_put_hit {buffer : List (Option α)} {k : Nat} (lt : k < buffer.length)
    (hit : ∃ write ∈ writes, write.1.toNat = k) :
    (writes.foldl put buffer)[k]? = some (some x) := by
  induction writes generalizing buffer with
  | nil => simp at hit
  | cons write rest ih =>
    obtain ⟨first, later⟩ := forall_mem_cons.mp const
    by_cases here : write.1.toNat = k
    · apply foldl_put_keep later
      rw [put, first, here, getElem?_set_self lt]
    · obtain ⟨other, mem, at_⟩ := hit
      cases mem_cons.mp mem with
      | inl same => exact absurd (same ▸ at_) here
      | inr inRest =>
        apply ih later
        · rwa [put, length_set]
        · exact ⟨other, inRest, at_⟩

theorem Stored.keep {buffer result : List (Option α)} {k : Nat}
    (put : Stored buffer writes result) (has : buffer[k]? = some (some x)) :
    result[k]? = some (some x) := by
  obtain ⟨order, perm, rfl⟩ := put
  exact foldl_put_keep (fun write mem => const write (perm.mem_iff.mp mem)) has

theorem Stored.hit {buffer result : List (Option α)} {k : Nat}
    (put : Stored buffer writes result) (lt : k < buffer.length)
    (hit : ∃ write ∈ writes, write.1.toNat = k) : result[k]? = some (some x) := by
  obtain ⟨order, perm, rfl⟩ := put
  obtain ⟨write, mem, at_⟩ := hit
  exact foldl_put_hit (fun write mem => const write (perm.mem_iff.mp mem)) lt
    ⟨write, perm.mem_iff.mpr mem, at_⟩

end Const

section Sum

variable [AddCommMonoid α]

def sumAt (writes : List (Int × α)) (k : Int) : α :=
  ((writes.filter fun write => write.1 == k).map Prod.snd).sum

def accumulated (length : Nat) (writes : List (Int × α)) : List α :=
  (range length).map fun k : Nat => sumAt writes k

theorem getElem?_accumulated {length k : Nat} (lt : k < length) (writes : List (Int × α)) :
    (accumulated length writes)[k]? = some (sumAt writes k) := by
  simp [accumulated, lt]

theorem sumAt_append (writes others : List (Int × α)) (k : Int) :
    sumAt (writes ++ others) k = sumAt writes k + sumAt others k := by
  rw [sumAt, filter_append, map_append, sum_append, ← sumAt, ← sumAt]

theorem sumAt_cons_self (k : Int) (x : α) (rest : List (Int × α)) :
    sumAt ((k, x) :: rest) k = x + sumAt rest k := by
  simp [sumAt]

theorem sumAt_zeros {writes : List (Int × α)} {k : Int}
    (zeros : ∀ write ∈ writes, write.1 = k → write.2 = 0) : sumAt writes k = 0 := by
  apply sum_eq_zero
  intro x mem
  obtain ⟨write, inFilter, rfl⟩ := mem_map.mp mem
  obtain ⟨inWrites, at_⟩ := mem_filter.mp inFilter
  exact zeros write inWrites (beq_iff_eq.mp at_)

theorem sumAt_single {writes : List (Int × α)} {write : Int × α}
    (differ : (writes.map Prod.fst).Nodup) (mem : write ∈ writes) :
    sumAt writes write.1 = write.2 := by
  obtain ⟨pre, after, rfl⟩ := append_of_mem mem
  rw [map_append, map_cons, nodup_middle, nodup_cons, ← map_append]
    at differ
  have others : ∀ other ∈ pre ++ after, other.1 ≠ write.1 := by
    intro other inOthers same
    exact differ.1 (same ▸ mem_map_of_mem inOthers)
  have none : ∀ other ∈ pre ++ after, other.1 = write.1 → other.2 = 0 :=
    fun other inOthers same => absurd same (others other inOthers)
  rw [sumAt_append, sumAt_cons_self, sumAt_zeros fun other inBefore =>
      none other (mem_append_left _ inBefore), sumAt_zeros fun other inAfter =>
      none other (mem_append_right _ inAfter), zero_add, add_zero]

theorem getElem?_foldl_modify {apply : α → α → α} (zero : ∀ a, apply a 0 = a)
    (add : ∀ a b c, apply (apply a b) c = apply a (b + c)) {writes : List (Int × α)}
    (nat : ∀ write ∈ writes, 0 ≤ write.1) (buffer : List α) (k : Nat) :
    (writes.foldl (fun buffer write => buffer.modify write.1.toNat (apply · write.2)) buffer)[k]? =
      buffer[k]?.map (apply · (sumAt writes k)) := by
  induction writes generalizing buffer with
  | nil =>
    rw [foldl_nil]
    cases buffer[k]? with
    | none => rfl
    | some a => exact congrArg some (zero a).symm
  | cons write rest ih =>
    obtain ⟨first, later⟩ := forall_mem_cons.mp nat
    rw [foldl_cons, ih later, getElem?_modify]
    by_cases here : write.1 = k
    · have at_ : write.1.toNat = k := by omega
      have sum : sumAt (write :: rest) k = write.2 + sumAt rest k := by
        rw [← here, ← sumAt_cons_self]
      rw [sum]
      cases buffer[k]? with
      | none => rfl
      | some a =>
        simp only [Option.map_eq_map, Option.map_some, if_pos at_]
        exact congrArg some (add _ _ _)
    · have other : write.1.toNat ≠ k := by omega
      have sum : sumAt (write :: rest) k = sumAt rest k := by simp [sumAt, here]
      rw [sum]
      simp [other]

theorem Stored.eq_accumulated {length : Nat} {writes : List (Int × α)} {result : List (Option α)}
    (put : Stored (replicate length (some 0)) writes result)
    (differ : (writes.map Prod.fst).Nodup) (nat : ∀ write ∈ writes, 0 ≤ write.1) :
    result = (accumulated length writes).map some := by
  have same : (writes.map fun write => write.1.toNat) = (writes.map Prod.fst).map Int.toNat := by
    rw [map_map]
    rfl
  have differ' : (writes.map fun write => write.1.toNat).Nodup := by
    rw [same]
    refine List.Nodup.map_on ?_ differ
    intro i inLeft j inRight eq
    obtain ⟨left, inWrites, rfl⟩ := mem_map.mp inLeft
    obtain ⟨right, inWrites', rfl⟩ := mem_map.mp inRight
    have := nat left inWrites
    have := nat right inWrites'
    omega
  have lens := put.length
  rw [length_replicate] at lens
  apply ext_getElem?
  intro k
  rw [getElem?_map]
  by_cases lt : k < length
  · rw [getElem?_accumulated lt, Option.map_some]
    by_cases hit : ∃ write ∈ writes, write.1.toNat = k
    · obtain ⟨write, mem, rfl⟩ := hit
      rw [put.self differ' mem (by rwa [length_replicate]),
        Int.toNat_of_nonneg (nat write mem), sumAt_single differ mem]
    · push Not at hit
      rw [put.other hit, getElem?_replicate, if_pos lt, sumAt_zeros]
      intro write mem at_
      exact absurd (by omega) (hit write mem)
  · rw [getElem?_eq_none (by omega), getElem?_eq_none (by simp [accumulated]; omega)]
    rfl

end Sum

end TfDml.Lib
