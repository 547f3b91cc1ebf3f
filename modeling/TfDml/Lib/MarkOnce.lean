import Mathlib.Data.List.Nodup

/-! # Marking each name once

A loop marks the names of its entries and fails at the first entry that is not allowed or whose
name is marked already. So it succeeds exactly if all entries are allowed and no name is repeated.
-/

namespace TfDml.Lib

open List

variable {σ ε α : Type*} {step : σ → α → Except ε σ} {Inv : σ → Prop} {has : σ → Nat → Bool}
  {name : α → Nat} {entry allowed : α → Prop} {reported : ε → Prop} {bound : Nat}

structure MarksOnce (step : σ → α → Except ε σ) (Inv : σ → Prop) (has : σ → Nat → Bool)
    (name : α → Nat) (entry allowed : α → Prop) (reported : ε → Prop) (bound : Nat) : Prop where
  inside : ∀ a, allowed a → name a < bound
  marks : ∀ s a, Inv s → allowed a → has s (name a) = false →
    ∃ s', step s a = .ok s' ∧ Inv s' ∧ ∀ d < bound, has s' d = (has s d || d == name a)
  fails : ∀ s a, Inv s → entry a → ¬(allowed a ∧ has s (name a) = false) →
    ∃ e, reported e ∧ step s a = .error e

theorem MarksOnce.foldlM_ok (marking : MarksOnce step Inv has name entry allowed reported bound)
    {l : List α} {s : σ} (inv : Inv s) (all : ∀ a ∈ l, allowed a)
    (fresh : ∀ a ∈ l, has s (name a) = false) (nodup : (l.map name).Nodup) :
    ∃ s', l.foldlM step s = .ok s' ∧ Inv s' ∧
      ∀ d < bound, has s' d = (has s d || (l.map name).contains d) := by
  induction l generalizing s with
  | nil => exact ⟨s, rfl, inv, by simp⟩
  | cons a rest ih =>
    rw [map_cons, nodup_cons] at nodup
    obtain ⟨s', stepped, inv', marked⟩ :=
      marking.marks s a inv (all a mem_cons_self) (fresh a mem_cons_self)
    have later : ∀ b ∈ rest, has s' (name b) = false := by
      intro b mem
      have inList := mem_cons_of_mem a mem
      rw [marked _ (marking.inside b (all b inList)), fresh b inList, Bool.false_or,
        beq_eq_false_iff_ne]
      intro same
      exact nodup.1 (same ▸ List.mem_map_of_mem mem)
    obtain ⟨s'', folded, inv'', xs⟩ :=
      ih inv' (fun b mem => all b (mem_cons_of_mem a mem)) later nodup.2
    refine ⟨s'', ?_, inv'', fun d below => ?_⟩
    · rw [foldlM_cons, stepped]
      exact folded
    · rw [xs d below, marked d below, map_cons, contains_cons, Bool.or_assoc]

theorem MarksOnce.foldlM_error (marking : MarksOnce step Inv has name entry allowed reported bound)
    {l : List α} {s : σ} (inv : Inv s) (xs : ∀ a ∈ l, entry a)
    (bad : ¬((∀ a ∈ l, allowed a) ∧ (∀ a ∈ l, has s (name a) = false) ∧ (l.map name).Nodup)) :
    ∃ e, reported e ∧ l.foldlM step s = .error e := by
  induction l generalizing s with
  | nil => simp at bad
  | cons a rest ih =>
    have first := xs a mem_cons_self
    have later := fun b (mem : b ∈ rest) => xs b (mem_cons_of_mem a mem)
    by_cases good : allowed a ∧ has s (name a) = false
    · obtain ⟨s', stepped, inv', marked⟩ := marking.marks s a inv good.1 good.2
      have worse : ¬((∀ b ∈ rest, allowed b) ∧ (∀ b ∈ rest, has s' (name b) = false) ∧
          (rest.map name).Nodup) := by
        rintro ⟨all, fresh, nodup⟩
        have each : ∀ b ∈ rest, has s (name b) = false ∧ name b ≠ name a := by
          intro b mem
          have unmarked := fresh b mem
          rwa [marked _ (marking.inside b (all b mem)), Bool.or_eq_false_iff,
            beq_eq_false_iff_ne] at unmarked
        refine bad ⟨forall_mem_cons.mpr ⟨good.1, all⟩,
          forall_mem_cons.mpr ⟨good.2, fun b mem => (each b mem).1⟩, ?_⟩
        rw [map_cons, nodup_cons]
        refine ⟨fun again => ?_, nodup⟩
        obtain ⟨b, mem, same⟩ := List.mem_map.mp again
        exact (each b mem).2 same
      obtain ⟨e, is, err⟩ := ih inv' later worse
      exact ⟨e, is, by
        rw [foldlM_cons, stepped]
        exact err⟩
    · obtain ⟨e, is, err⟩ := marking.fails s a inv first good
      exact ⟨e, is, by
        rw [foldlM_cons, err]
        rfl⟩

end TfDml.Lib
