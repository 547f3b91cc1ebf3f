import TfDml.Core.PooledHeap

/-! # One chunk of the pooled heap

The allocations of a chunk stay in ring order. `FindOffsetForAllocation` keeps
them so as long as rounding the end of the newest allocation up to the
alignment does not wrap around `uint64_t`; where it does wrap, the offset it
returns is zero.
-/

namespace TfDml.PooledHeap

open Lib List

/-- The ranges of two allocations in the same chunk do not meet. -/
abbrev Allocation.Separate : Allocation → Allocation → Prop :=
  Lib.Separate Allocation.offsetInChunk Allocation.endInChunk

structure Chunk.WellFormed (chunk : Chunk) : Prop where
  disjoint : chunk.allocations.Pairwise Allocation.Separate
  inside : ∀ a ∈ chunk.allocations, a.endInChunk ≤ chunk.capacityInBytes
  aligned : ∀ a ∈ chunk.allocations, a.offsetInChunk % kAllocationAlignment = 0
  fenceOrder : chunk.allocations.Pairwise fun a b =>
    a.doneEvent.fenceValue ≤ b.doneEvent.fenceValue

/-- The invariant behind `WellFormed`: the ranges are non-empty and in ring order,
    and no event is later than `newest`, the latest one handed out. -/
structure Chunk.Ordered (chunk : Chunk) (newest : Nat) : Prop where
  ring : RingOrdered Allocation.offsetInChunk Allocation.endInChunk chunk.allocations
  nonempty : ∀ a ∈ chunk.allocations, 0 < a.sizeInBytes
  inside : ∀ a ∈ chunk.allocations, a.endInChunk ≤ chunk.capacityInBytes
  aligned : ∀ a ∈ chunk.allocations, a.offsetInChunk % kAllocationAlignment = 0
  fenceOrder : chunk.allocations.Pairwise fun a b =>
    a.doneEvent.fenceValue ≤ b.doneEvent.fenceValue
  recent : ∀ a ∈ chunk.allocations, a.doneEvent.fenceValue ≤ newest

/-- Rounding the end of the newest allocation up does not wrap around, or the
    request fits below the oldest allocation anyway. Only a chunk that is large
    enough for the request matters. -/
def Chunk.AlignFits (chunk : Chunk) (sizeInBytes : Nat) : Prop :=
  ∀ first last, chunk.allocations.head? = some first → chunk.allocations.getLast? = some last →
    sizeInBytes ≤ chunk.capacityInBytes →
      last.endInChunk + kAllocationAlignment ≤ 2 ^ 64 ∨ sizeInBytes ≤ first.offsetInChunk

private theorem mask_testBit (i : Nat) :
    (uint64Max - (kAllocationAlignment - 1)).testBit i = decide (9 ≤ i ∧ i < 64) := by
  have shifted : uint64Max - (kAllocationAlignment - 1) = (2 ^ 55 - 1) <<< 9 := by decide
  rw [shifted, Nat.testBit_shiftLeft, Nat.testBit_two_pow_sub_one]
  by_cases high : 9 ≤ i
  · simp [high]
    omega
  · simp [high]

theorem align_eq (offset : Nat) :
    align offset kAllocationAlignment = u64 (offset + 511) / 512 * 512 := by
  have bounded : u64 (offset + 511) < 2 ^ 64 := Nat.mod_lt _ (by decide)
  change u64 (offset + 511) &&& _ = _
  generalize u64 (offset + 511) = n at bounded
  apply Nat.eq_of_testBit_eq
  intro i
  rw [Nat.testBit_and, mask_testBit, show (512 : Nat) = 2 ^ 9 from rfl,
    ← Nat.shiftRight_eq_div_pow, ← Nat.shiftLeft_eq, Nat.testBit_shiftLeft, Nat.testBit_shiftRight]
  by_cases high : 9 ≤ i
  · by_cases low : i < 64
    · simp [high, low]
    · have wide : n < 2 ^ i := bounded.trans_le (Nat.pow_le_pow_right (by decide) (by omega))
      simp [high, Nat.testBit_lt_two_pow wide]
  · simp [high]

theorem align_of_fits {offset : Nat} (fits : offset + 512 ≤ 2 ^ 64) :
    offset ≤ align offset kAllocationAlignment ∧ align offset kAllocationAlignment % 512 = 0 ∧
      align offset kAllocationAlignment < 2 ^ 64 := by
  rw [align_eq, u64_of_lt (by omega)]
  omega

theorem align_of_wraps {offset : Nat} (small : offset < 2 ^ 64) (wraps : 2 ^ 64 < offset + 512) :
    align offset kAllocationAlignment = 0 := by
  have rest : u64 (offset + 511) = offset + 511 - 2 ^ 64 := by
    unfold u64
    omega
  rw [align_eq, rest]
  omega

theorem Chunk.Ordered.unused (capacity : Nat) (resource : ResourceId) (newest : Nat) :
    Chunk.Ordered ⟨capacity, resource, []⟩ newest :=
  ⟨.nil, by simp, by simp, by simp, .nil, by simp⟩

namespace Chunk.Ordered

variable {chunk : Chunk} {newest : Nat} (ordered : chunk.Ordered newest)
include ordered

theorem wellFormed : chunk.WellFormed :=
  ⟨ordered.ring.separate, ordered.inside, ordered.aligned, ordered.fenceOrder⟩

theorem proper : ∀ a ∈ chunk.allocations, a.offsetInChunk < a.endInChunk := by
  intro a mem
  have := ordered.nonempty a mem
  unfold Allocation.endInChunk
  omega

theorem later {newer : Nat} (le : newest ≤ newer) : chunk.Ordered newer :=
  { ordered with recent := fun a mem => (ordered.recent a mem).trans le }

theorem reclaim (completedValue : Nat) : (chunk.reclaim completedValue).Ordered newest := by
  have sub : (chunk.reclaim completedValue).allocations.Sublist chunk.allocations :=
    dropWhile_sublist _
  exact
    { ring := ordered.ring.dropWhile _
      nonempty := fun a mem => ordered.nonempty a (sub.subset mem)
      inside := fun a mem => ordered.inside a (sub.subset mem)
      aligned := fun a mem => ordered.aligned a (sub.subset mem)
      fenceOrder := ordered.fenceOrder.sublist sub
      recent := fun a mem => ordered.recent a (sub.subset mem) }

theorem push {a : Allocation}
    (ring : RingOrdered Allocation.offsetInChunk Allocation.endInChunk (chunk.allocations ++ [a]))
    (some_ : 0 < a.sizeInBytes) (lt : a.endInChunk ≤ chunk.capacityInBytes)
    (aligned : a.offsetInChunk % kAllocationAlignment = 0)
    (after : newest ≤ a.doneEvent.fenceValue) :
    Chunk.Ordered { chunk with allocations := chunk.allocations ++ [a] }
      a.doneEvent.fenceValue := by
  have recent : ∀ b ∈ chunk.allocations, b.doneEvent.fenceValue ≤ a.doneEvent.fenceValue :=
    fun b mem => (ordered.recent b mem).trans after
  constructor
  · exact ring
  · exact forall_mem_append.mpr ⟨ordered.nonempty, by simpa using some_⟩
  · exact forall_mem_append.mpr ⟨ordered.inside, by simpa using lt⟩
  · exact forall_mem_append.mpr ⟨ordered.aligned, by simpa using aligned⟩
  · refine pairwise_append.mpr ⟨ordered.fenceOrder, by simp, ?_⟩
    intro b mem c new
    exact (mem_singleton.mp new) ▸ recent b mem
  · exact forall_mem_append.mpr ⟨recent, by simp⟩

theorem end_rounds (small : chunk.capacityInBytes < 2 ^ 64) {first last : Allocation}
    (oldest : chunk.allocations.head? = some first)
    (latest : chunk.allocations.getLast? = some last)
    (under : last.offsetInChunk < first.offsetInChunk) : last.endInChunk + 512 ≤ 2 ^ 64 := by
  have lt := ordered.inside first (mem_of_head? oldest)
  have aligned : first.offsetInChunk % 512 = 0 := ordered.aligned first (mem_of_head? oldest)
  obtain ⟨up, wrapped, split, newestWrapped, oldestUp⟩ :=
    ordered.ring.wrapped ordered.proper oldest latest under
  have below : last.endInChunk ≤ first.offsetInChunk :=
    split.below last (mem_of_getLast? newestWrapped) first (mem_of_head? oldestUp)
  unfold Allocation.endInChunk at *
  omega

end Chunk.Ordered

/-- Where `FindOffsetForAllocation` puts a request of `n` bytes: at the start of
    an empty chunk, after the newest allocation, around the end of the chunk, or
    between the newest and the oldest allocation of a chunk that has wrapped. -/
inductive Placement (chunk : Chunk) (n offset : Nat) : Prop where
  | empty (unused : chunk.allocations = []) (start : offset = 0)
  | after (first last : Allocation) (oldest : chunk.allocations.head? = some first)
      (latest : chunk.allocations.getLast? = some last)
      (above : first.offsetInChunk ≤ last.offsetInChunk)
      (begins : offset = align last.endInChunk kAllocationAlignment)
      (fits : offset + n ≤ chunk.capacityInBytes)
  | around (first last : Allocation) (oldest : chunk.allocations.head? = some first)
      (latest : chunk.allocations.getLast? = some last)
      (above : first.offsetInChunk ≤ last.offsetInChunk) (start : offset = 0)
      (fits : n ≤ first.offsetInChunk)
  | between (first last : Allocation) (oldest : chunk.allocations.head? = some first)
      (latest : chunk.allocations.getLast? = some last)
      (under : last.offsetInChunk < first.offsetInChunk)
      (begins : offset = align last.endInChunk kAllocationAlignment)
      (fits : offset + n ≤ first.offsetInChunk)

private theorem ends_of_ne_nil {allocations : List Allocation} (used : allocations ≠ []) :
    ∃ first last, allocations.head? = some first ∧ allocations.getLast? = some last :=
  ⟨_, _, head?_eq_some_head used, getLast?_eq_some_getLast used⟩

section FindOffset

variable {chunk : Chunk} {newest n : Nat} (ordered : chunk.Ordered newest)
  (small : chunk.capacityInBytes < 2 ^ 64)
include ordered small

private theorem findOffset_of_ends {first last : Allocation}
    (oldest : chunk.allocations.head? = some first)
    (latest : chunk.allocations.getLast? = some last) (large : n ≤ chunk.capacityInBytes) :
    findOffsetForAllocation chunk n = let begins := align last.endInChunk kAllocationAlignment
      if 2 ^ 64 ≤ begins + n then none
      else if first.offsetInChunk ≤ last.offsetInChunk then
        if begins + n ≤ chunk.capacityInBytes then some begins
        else if n ≤ first.offsetInChunk then some 0 else none
      else if begins + n ≤ first.offsetInChunk then some begins else none := by
  have lastEnd : u64 (last.offsetInChunk + last.sizeInBytes) = last.endInChunk :=
    u64_of_lt ((ordered.inside last (mem_of_getLast? latest)).trans_lt small)
  have size : u64 (0 + n) = n := by
    rw [zero_add]
    exact u64_of_lt (large.trans_lt small)
  have rounded : align last.endInChunk kAllocationAlignment < 2 ^ 64 := by
    rw [align_eq]
    have : u64 (last.endInChunk + 511) < 2 ^ 64 := Nat.mod_lt _ (by decide)
    omega
  unfold findOffsetForAllocation
  rw [if_neg (by omega), oldest, latest]
  simp only [lastEnd, size]
  generalize align last.endInChunk kAllocationAlignment = begins at rounded
  by_cases overflow : 2 ^ 64 ≤ begins + n
  · rw [if_pos overflow, if_pos]
    unfold u64
    omega
  · rw [u64_of_lt (by omega), if_neg (by omega), if_neg overflow]

theorem findOffset_placement {offset : Nat}
    (got : findOffsetForAllocation chunk n = some offset) :
    n ≤ chunk.capacityInBytes ∧ Placement chunk n offset := by
  have large : n ≤ chunk.capacityInBytes := by
    by_contra beyond
    simp [findOffsetForAllocation, Nat.lt_of_not_le beyond] at got
  refine ⟨large, ?_⟩
  by_cases used : chunk.allocations = []
  · apply Placement.empty used
    simpa [findOffsetForAllocation, used, Nat.not_lt.mpr large, eq_comm] using got
  · obtain ⟨first, last, oldest, latest⟩ := ends_of_ne_nil used
    rw [findOffset_of_ends ordered small oldest latest large] at got
    dsimp only at got
    split at got
    · cases got
    split at got
    · rename_i above
      split at got
      · exact .after first last oldest latest above (Option.some.inj got).symm
          ((Option.some.inj got) ▸ ‹_›)
      · split at got
        · exact .around first last oldest latest above (Option.some.inj got).symm ‹_›
        · cases got
    · rename_i under
      split at got
      · exact .between first last oldest latest (Nat.lt_of_not_le under)
          (Option.some.inj got).symm ((Option.some.inj got) ▸ ‹_›)
      · cases got

theorem ordered_push {offset : Nat} {doneEvent : DmlGpuEvent} (fits : chunk.AlignFits n)
    (pos : 0 < n) (got : findOffsetForAllocation chunk n = some offset)
    (after : newest ≤ doneEvent.fenceValue) : Chunk.Ordered
      { chunk with allocations := chunk.allocations ++ [⟨n, offset, doneEvent⟩] }
      doneEvent.fenceValue := by
  obtain ⟨large, placed⟩ := findOffset_placement ordered small got
  have zeroAligned : 0 % kAllocationAlignment = 0 := rfl
  cases placed with
  | empty unused start =>
    subst start
    refine ordered.push ?_ pos (by simpa [Allocation.endInChunk] using large)
      zeroAligned after
    rw [unused]
    exact .singleton _
  | after first last oldest latest above begins lt =>
    by_cases rounds : last.endInChunk + 512 ≤ 2 ^ 64
    · obtain ⟨higher, aligned, -⟩ := align_of_fits rounds
      subst begins
      exact ordered.push
        (ordered.ring.append_after ordered.proper oldest latest above higher)
        pos lt aligned after
    · have lastInside := ordered.inside last (mem_of_getLast? latest)
      have below := (fits first last oldest latest large).resolve_left rounds
      have start : offset = 0 := by
        rw [begins]
        exact align_of_wraps (by omega) (by omega)
      subst start
      refine ordered.push
        (ordered.ring.append_wrapped ordered.proper oldest latest above ?_)
        pos lt zeroAligned after
      simpa [Allocation.endInChunk] using below
  | around first last oldest latest above start below =>
    subst start
    refine ordered.push
      (ordered.ring.append_wrapped ordered.proper oldest latest above ?_)
      pos (by simpa [Allocation.endInChunk] using large) zeroAligned after
    simpa [Allocation.endInChunk] using below
  | between first last oldest latest under begins lt =>
    have rounds := ordered.end_rounds small oldest latest under
    obtain ⟨higher, aligned, -⟩ := align_of_fits rounds
    have firstInside := ordered.inside first (mem_of_head? oldest)
    subst begins
    refine ordered.push
      (ordered.ring.append_between ordered.proper oldest latest under higher lt)
      pos ?_ aligned after
    have firstBelow : first.offsetInChunk ≤ chunk.capacityInBytes :=
      (Nat.le_add_right _ _).trans firstInside
    exact lt.trans firstBelow

theorem findOffset_of_wraps (wraps : ¬ chunk.AlignFits n) :
    findOffsetForAllocation chunk n = some 0 ∧
      ∃ first, chunk.allocations.head? = some first ∧ first.offsetInChunk < n ∧
        2 ^ 64 < chunk.capacityInBytes + 512 := by
  unfold Chunk.AlignFits at wraps
  push Not at wraps
  obtain ⟨first, last, oldest, latest, large, high, covers⟩ := wraps
  have lastInside := ordered.inside last (mem_of_getLast? latest)
  have wide : 2 ^ 64 < last.endInChunk + 512 := high
  have above : first.offsetInChunk ≤ last.offsetInChunk := by
    by_contra under
    have := ordered.end_rounds small oldest latest (Nat.lt_of_not_le under)
    omega
  refine ⟨?_, first, oldest, covers, by omega⟩
  rw [findOffset_of_ends ordered small oldest latest large, align_of_wraps (by omega) wide]
  dsimp only
  rw [if_neg (by omega), if_pos above, if_pos (by omega)]

end FindOffset

end TfDml.PooledHeap
