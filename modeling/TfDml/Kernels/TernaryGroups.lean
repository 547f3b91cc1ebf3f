import TfDml.Kernels.SimplifyTernary

/-! # What simplified operands read

A group reads what its dimensions read, and ones do not matter. If no size wraps around, then so
do the slots of the simplified shapes.
-/

namespace TfDml.Select

open Lib List
open DmlTensorDesc (Addressed)

/-- Each input has the output's size, or a single element. -/
def TernaryDim.Fits (d : TernaryDim) : Prop := ∀ o, d.operand o = d.output ∨ d.operand o = 1

def sources (o : Operand) (dims : List TernaryDim) : List Nat :=
  tileSources (dims.map fun d => stretchTile (d.operand o) d.output)

theorem operand_of_same {d : TernaryDim} (same : d.same = true) (o : Operand) :
    d.operand o = d.output := by
  rw [same_iff.mp same]
  cases o <;> rfl

theorem operand_mul (d inner : TernaryDim) (o : Operand) :
    (d.mul inner).operand o = d.operand o * inner.operand o := by
  cases o <;> rfl

theorem groups_cons (d : TernaryDim) (inner : List TernaryDim) :
    groups (d :: inner) = d :: groups inner ∨
      ∃ group rest, d.same = true ∧ group.same = true ∧ groups inner = group :: rest ∧
        groups (d :: inner) = d.mul group :: rest := by
  rw [groups]
  cases groups inner with
  | nil => exact Or.inl rfl
  | cons group rest =>
    cases same : d.same with
    | false => exact Or.inl rfl
    | true =>
      cases grouped : group.same with
      | false => exact Or.inl (by simp [grouped])
      | true => exact Or.inr ⟨group, rest, rfl, grouped, rfl, by simp [grouped]⟩

section Groups

variable {dims : List TernaryDim}

theorem prod_groups {size : TernaryDim → Nat}
    (mul : ∀ d inner, size (d.mul inner) = size d * size inner) :
    ((groups dims).map size).prod = (dims.map size).prod := by
  induction dims with
  | nil => rfl
  | cons d inner ih =>
    rw [map_cons, prod_cons, ← ih]
    rcases groups_cons d inner with apart | ⟨group, rest, -, -, got, merged⟩
    · rw [apart, map_cons, prod_cons]
    · rw [merged, got, map_cons, map_cons, prod_cons, prod_cons, mul, mul_assoc]

theorem fits_groups (fits : ∀ d ∈ dims, d.Fits) : ∀ group ∈ groups dims, group.Fits := by
  induction dims with
  | nil => exact fun group mem => nomatch mem
  | cons d inner ih =>
    rw [forall_mem_cons] at fits
    have later := ih fits.2
    rcases groups_cons d inner with apart | ⟨group, rest, same, grouped, got, merged⟩
    · rw [apart, forall_mem_cons]
      exact ⟨fits.1, later⟩
    · rw [got, forall_mem_cons] at later
      rw [merged, forall_mem_cons]
      exact ⟨fun o => Or.inl (operand_of_same (same_mul same grouped) o), later.2⟩

theorem mem_of_broadcast {group : TernaryDim} (mem : group ∈ groups dims)
    (broadcast : group.same = false) : group ∈ dims := by
  induction dims with
  | nil => exact nomatch mem
  | cons d inner ih =>
    rcases groups_cons d inner with apart | ⟨first, rest, same, grouped, got, merged⟩
    · rw [apart, mem_cons] at mem
      exact mem_cons.mpr (mem.imp_right ih)
    · rw [merged, mem_cons] at mem
      refine mem_cons_of_mem d (ih (got ▸ mem_cons_of_mem first ?_))
      refine mem.resolve_left fun itself => ?_
      rw [itself, same_mul same grouped] at broadcast
      exact nomatch broadcast

theorem sources_groups (o : Operand) : sources o (groups dims) = sources o dims := by
  induction dims with
  | nil => rfl
  | cons d inner ih =>
    have sizes := @prod_groups inner (TernaryDim.operand · o)
      fun d inner => operand_mul d inner o
    have front : sources o (d :: groups inner) = sources o (d :: inner) :=
      tileSources_append_congr [stretchTile (d.operand o) d.output] ih (by
        rw [map_map, map_map]
        exact sizes)
    rcases groups_cons d inner with apart | ⟨group, rest, same, grouped, got, merged⟩
    · rw [apart, front]
    · rw [merged, ← front, got]
      have tile (g : TernaryDim) (unbroadcast : g.same = true) :
          stretchTile (g.operand o) g.output = ⟨g.output, 1⟩ := by
        rw [operand_of_same unbroadcast, stretchTile, if_pos rfl]
      have size : (d.mul group).output = group.output * d.output := mul_comm _ _
      rw [sources, sources, map_cons, map_cons, map_cons,
        tile _ (same_mul same grouped), tile _ same, tile _ grouped, size]
      exact (tileSources_merge_whole _ _ _ _).symm

theorem positive_groups (pos : ∀ d ∈ dims, 0 < d.output) :
    ∀ group ∈ groups dims, 0 < group.output := by
  induction dims with
  | nil => exact fun group mem => nomatch mem
  | cons d inner ih =>
    rw [forall_mem_cons] at pos
    have later := ih pos.2
    rcases groups_cons d inner with apart | ⟨group, rest, -, -, got, merged⟩
    · rw [apart, forall_mem_cons]
      exact ⟨pos.1, later⟩
    · rw [got, forall_mem_cons] at later
      rw [merged, forall_mem_cons]
      exact ⟨mul_pos pos.1 later.1, later.2⟩

theorem output_lt_of_groups {bound : Nat} (pos : ∀ d ∈ dims, 0 < d.output)
    (small : ∀ group ∈ groups dims, group.output < bound) : ∀ d ∈ dims, d.output < bound := by
  induction dims with
  | nil => exact fun d mem => nomatch mem
  | cons d inner ih =>
    rw [forall_mem_cons] at pos ⊢
    have later := positive_groups pos.2
    rcases groups_cons d inner with apart | ⟨group, rest, -, -, got, merged⟩
    · rw [apart, forall_mem_cons] at small
      exact ⟨small.1, ih pos.2 small.2⟩
    · rw [got, forall_mem_cons] at later
      rw [merged, forall_mem_cons] at small
      have product : d.output * group.output < bound := small.1
      have outer := Nat.le_mul_of_pos_right d.output later.1
      have lt := Nat.le_mul_of_pos_left group.output pos.1
      refine ⟨by omega, ih pos.2 ?_⟩
      rw [got, forall_mem_cons]
      exact ⟨by omega, small.2⟩

end Groups

section Slots

variable {dims : List TernaryDim}

theorem slot_of_small {group : TernaryDim} (lt : group.output < 2 ^ 32) :
    slot group = if group.same ∧ group.output ≤ 1 then [] else [group] := by
  cases same : group.same with
  | false => rw [slot_of_broadcast same, if_neg (by simp)]
  | true =>
    rw [slot_of_same same, Nat.mod_eq_of_lt lt, ← same_iff.mp same]
    by_cases many : 1 < group.output
    · rw [if_pos many, if_neg (by omega)]
    · rw [if_neg many, if_pos ⟨rfl, by omega⟩]

theorem sources_slots (o : Operand) (pos : ∀ d ∈ dims, 0 < d.output)
    (lt : ∀ d ∈ dims, d.output < 2 ^ 32) : sources o (slots dims) = sources o dims ∧
      ((slots dims).map (TernaryDim.operand · o)).prod =
        (dims.map (TernaryDim.operand · o)).prod := by
  induction dims with
  | nil => exact ⟨rfl, rfl⟩
  | cons d rest ih =>
    rw [forall_mem_cons] at pos lt
    obtain ⟨same, sizes⟩ := ih pos.2 lt.2
    rw [slots_cons, slot_of_small lt.1]
    split
    case isTrue trivial_ =>
      have one : d.output = 1 := by omega
      have own : d.operand o = 1 := (operand_of_same trivial_.1 o).trans one
      rw [nil_append, same, sizes, map_cons, prod_cons, own, one_mul]
      refine ⟨?_, rfl⟩
      rw [sources, sources, map_cons, own, one]
      exact (tileSources_replicate_trivial 1 _).symm
    case isFalse =>
      rw [singleton_append, map_cons, map_cons, prod_cons, prod_cons, sizes]
      refine ⟨tileSources_append_congr [stretchTile (d.operand o) d.output] same ?_, rfl⟩
      rw [map_map, map_map]
      exact sizes

theorem prod_slots_le (dims : List TernaryDim) :
    ((slots (settled (groups dims))).map TernaryDim.output).prod * max 1 (pending (groups dims)) ≤
      (dims.map fun d => max 1 d.output).prod := by
  induction dims with
  | nil => exact le_refl _
  | cons d inner ih =>
    rw [map_cons, prod_cons]
    refine le_trans ?_ (Nat.mul_le_mul_left _ ih)
    cases same : d.same with
    | true =>
      obtain ⟨kept, size⟩ := groups_cons_same same inner
      have one : max 1 (d.output * pending (groups inner)) ≤
          max 1 d.output * max 1 (pending (groups inner)) := by
        refine max_le ?_ (Nat.mul_le_mul (le_max_right _ _) (le_max_right _ _))
        exact Nat.mul_pos (by omega) (by omega)
      rw [kept, size, ← mul_assoc, mul_comm (max 1 d.output), mul_assoc]
      exact Nat.mul_le_mul_left _ one
    | false =>
      have flushed := slots_eq_flush (groups inner)
      rw [groups_cons_broadcast same, (settled_cons_broadcast same _).1,
        (settled_cons_broadcast same _).2, slots_cons, slot_of_broadcast same, flushed,
        singleton_append, map_cons, prod_cons, map_append, prod_append, Nat.max_self, mul_one]
      refine Nat.mul_le_mul (le_max_right _ _) ?_
      rw [mul_comm]
      refine Nat.mul_le_mul_left _ ?_
      have below := Nat.mod_le (pending (groups inner)) (2 ^ 32)
      split
      · simp only [map_cons, map_nil, prod_singleton, TernaryDim.single]
        omega
      · simp

theorem prod_slots_groups_le (dims : List TernaryDim) :
    ((slots (groups dims)).map TernaryDim.output).prod ≤
      (dims.map fun d => max 1 d.output).prod := by
  refine le_trans ?_ (prod_slots_le dims)
  rw [slots_eq_flush, map_append, prod_append, mul_comm]
  refine Nat.mul_le_mul_left _ ?_
  have below := Nat.mod_le (pending (groups dims)) (2 ^ 32)
  split
  · simp only [map_cons, map_nil, prod_singleton, TernaryDim.single]
    omega
  · simp

theorem narrow_of_small (fits : ∀ d ∈ dims, d.Fits) (lt : ∀ d ∈ dims, d.output < 2 ^ 32) :
    dims.map TernaryDim.narrow = dims := by
  refine (map_congr_left fun d mem => ?_).trans (map_id dims)
  have each (o : Operand) : d.operand o < 2 ^ 32 := by
    rcases fits d mem o with same | one
    · exact same ▸ lt d mem
    · rw [one]
      decide
  obtain ⟨cond, then_, else_, output⟩ := d
  simp only [TernaryDim.narrow, id, TernaryDim.mk.injEq]
  exact ⟨Nat.mod_eq_of_lt (each .cond), Nat.mod_eq_of_lt (each .then_),
    Nat.mod_eq_of_lt (each .else_), Nat.mod_eq_of_lt (lt _ mem)⟩

theorem small_of_prod_slots (fits : ∀ d ∈ dims, d.Fits) (pos : ∀ d ∈ dims, 0 < d.output)
    (same : ((slots (groups (dims.map TernaryDim.narrow))).map TernaryDim.output).prod =
      (dims.map TernaryDim.output).prod) : ∀ group ∈ groups dims, group.output < 2 ^ 32 := by
  have some_ : 0 < (dims.map TernaryDim.output).prod :=
    List.prod_pos_iff_forall_pos_nat.mpr fun size mem => by
      obtain ⟨d, lt, rfl⟩ := mem_map.mp mem
      exact pos d lt
  have narrowed : ∀ d ∈ dims, d.output < 2 ^ 32 := by
    have bound := prod_slots_groups_le (dims.map TernaryDim.narrow)
    rw [same, map_map] at bound
    have smaller : ∀ d ∈ dims, max 1 (d.output % 2 ^ 32) ≤ d.output := fun d mem =>
      max_le (pos d mem) (Nat.mod_le _ _)
    have kept := eq_of_prod_map smaller some_
      (Nat.le_antisymm (prod_map_le smaller) bound)
    intro d mem
    have size := kept d mem
    have below := Nat.mod_lt d.output (by decide : 0 < 2 ^ 32)
    omega
  rw [narrow_of_small fits narrowed, slots, map_flatMap] at same
  have whole := @prod_groups dims TernaryDim.output fun _ _ => rfl
  have product : ((groups dims).map fun group => ((slot group).map TernaryDim.output).prod).prod =
      ((groups dims).map TernaryDim.output).prod := by
    rw [whole, ← same, flatMap_def, prod_flatten, map_map]
    rfl
  have outs := positive_groups pos
  have smaller : ∀ group ∈ groups dims,
      ((slot group).map TernaryDim.output).prod ≤ group.output := by
    intro group mem
    have below := Nat.mod_le group.output (2 ^ 32)
    have one := outs group mem
    cases unbroadcast : group.same with
    | false => simp [slot_of_broadcast unbroadcast]
    | true =>
      rw [slot_of_same unbroadcast]
      split
      · simpa [TernaryDim.single] using below
      · simpa using Nat.succ_le_of_lt one
  have kept := eq_of_prod_map smaller (by rwa [whole]) product
  intro group mem
  have size := kept group mem
  have below := Nat.mod_lt group.output (by decide : 0 < 2 ^ 32)
  cases unbroadcast : group.same with
  | false => exact narrowed group (mem_of_broadcast mem unbroadcast)
  | true =>
    rw [slot_of_same unbroadcast] at size
    split at size
    · simp [TernaryDim.single] at size
      omega
    · simp at size
      omega

theorem fits_narrow (fits : ∀ d ∈ dims, d.Fits) : ∀ d ∈ dims.map TernaryDim.narrow, d.Fits := by
  intro d mem o
  obtain ⟨wide, lt, rfl⟩ := mem_map.mp mem
  have sizes : wide.narrow.operand o = wide.operand o % 2 ^ 32 := by cases o <;> rfl
  rw [sizes]
  rcases fits wide lt o with same | one
  · exact Or.inl (congrArg (· % 2 ^ 32) same)
  · rw [one]
    exact Or.inr rfl

theorem fits_slots (fits : ∀ d ∈ dims, d.Fits) : ∀ d ∈ slots dims, d.Fits := by
  intro d mem
  obtain ⟨group, lt, put⟩ := mem_flatMap.mp mem
  cases same : group.same with
  | false =>
    rw [slot_of_broadcast same, mem_singleton] at put
    exact put ▸ fits group lt
  | true =>
    rw [slot_of_same same] at put
    split at put
    · rw [mem_singleton.mp put]
      exact fun o => Or.inl (by cases o <;> rfl)
    · exact nomatch put

theorem length_slots_groups (dims : List TernaryDim) :
    (slots (groups dims)).length ≤ dims.length := by
  have each (group : TernaryDim) : (slot group).length ≤ 1 := by
    rw [slot]
    split_ifs <;> simp
  have put : (slots (groups dims)).length ≤ (groups dims).length := by
    generalize groups dims = merged
    induction merged with
    | nil => exact le_refl 0
    | cons group rest ih =>
      have own := each group
      rw [slots_cons, length_append, length_cons]
      omega
  refine le_trans put ?_
  clear put
  induction dims with
  | nil => exact le_refl 0
  | cons d inner ih =>
    rw [length_cons]
    rcases groups_cons d inner with apart | ⟨group, rest, -, -, got, merged⟩
    · rw [apart, length_cons]
      omega
    · rw [got, length_cons] at ih
      rw [merged, length_cons]
      omega

theorem positive_slots (pos : ∀ d ∈ dims, 0 < d.output) : ∀ d ∈ slots dims, 0 < d.output := by
  intro d mem
  obtain ⟨group, lt, put⟩ := mem_flatMap.mp mem
  rw [slot] at put
  split at put
  · split at put
    case isTrue many =>
      rw [mem_singleton.mp put]
      exact lt_trans one_pos many
    case isFalse => exact nomatch put
  · exact mem_singleton.mp put ▸ pos group lt

theorem slots_lt {d : TernaryDim} (mem : d ∈ slots (groups (dims.map TernaryDim.narrow))) :
    d.output < 2 ^ 32 := by
  obtain ⟨group, lt, put⟩ := mem_flatMap.mp mem
  cases same : group.same with
  | false =>
    rw [slot_of_broadcast same, mem_singleton] at put
    obtain ⟨wide, -, rfl⟩ := mem_map.mp (mem_of_broadcast lt same)
    exact put ▸ Nat.mod_lt _ (by decide)
  | true =>
    rw [slot_of_same same] at put
    split at put
    · rw [mem_singleton.mp put]
      exact Nat.mod_lt _ (by decide)
    · exact nomatch put

end Slots

end TfDml.Select
