import TfDml.Core.Stop

/-! # Tiled allocations

`TryCreateTiledAllocation` reserves a resource of whole tiles and maps the tiles to one heap after
the other. Numbers of tiles are kept in 64 bits, but what is mapped is named in 32 bits.
-/

namespace TfDml.TiledAllocation

open List

def kTileSizeInBytes : Nat := 65536

/-- What a creation returns, as `HrIsOutOfMemory` and `DML_CHECK_SUCCEEDED` tell it apart. -/
inductive Creation where
  | succeeded
  | outOfMemory
  | failed
  deriving DecidableEq

/-- The tiles that `UpdateTileMappings` maps to a new heap. -/
structure TileMapping where
  heapSizeInTiles : Nat
  startX : Nat
  numTiles : Nat
  deriving DecidableEq

structure Allocation where
  resourceSizeInBytes : Nat
  mappings : List TileMapping
  unmappedResourceTiles : Nat
  deriving DecidableEq

/-- The arguments of a call, and what the creations of its resources and of its heaps return. -/
structure Call where
  sizeInBytes : Nat
  maxHeapSizeInTiles : Nat
  resources : List Creation
  heap : Nat → Creation
  sized : 0 < sizeInBytes
  fits : sizeInBytes < 2 ^ 64
  limited : 0 < maxHeapSizeInTiles
  three : resources.length = 3

/-- Go on after a creation, unless it failed. -/
def Creation.andThen {α : Type} (creation : Creation) (next : Except Stop (Option α)) :
    Except Stop (Option α) :=
  match creation with
  | .succeeded => next
  | .outOfMemory => .ok none
  | .failed => .error .fatal

/-- The loop over the heaps, from the heap `i` on, with so many heaps to go. -/
def mapHeaps (max : Nat) (heap : Nat → Creation) (resourceSizeInBytes : Nat) :
    Nat → Nat → Nat → Nat → List TileMapping → Except Stop (Option Allocation)
  | 0, _, _, unmapped, mapped => .ok (some ⟨resourceSizeInBytes, mapped, unmapped⟩)
  | heaps + 1, i, x, unmapped, mapped =>
    let heapSizeInTiles := min unmapped max
    (heap i).andThen (mapHeaps max heap resourceSizeInBytes heaps (i + 1)
      ((x + heapSizeInTiles) % 2 ^ 32) (unmapped - heapSizeInTiles)
      (mapped ++ [⟨heapSizeInTiles, x, heapSizeInTiles % 2 ^ 32⟩]))

namespace Call

variable (c : Call)

def resourceSizeInTiles : Nat := 1 + (c.sizeInBytes - 1) / kTileSizeInBytes

def heapCount : Nat := 1 + (c.resourceSizeInTiles - 1) / c.maxHeapSizeInTiles

def tryCreateTiledAllocation : Except Stop (Option Allocation) :=
  let resourceSizeInBytes := u64 (c.resourceSizeInTiles * kTileSizeInBytes)
  c.resources.foldr Creation.andThen
    (mapHeaps c.maxHeapSizeInTiles c.heap resourceSizeInBytes c.heapCount 0 0
      c.resourceSizeInTiles [])

def Created : Prop :=
  (∀ creation ∈ c.resources, creation = .succeeded) ∧ ∀ i < c.heapCount, c.heap i = .succeeded

end Call

/-- The ranges lie one after the other, from one tile to another one. -/
def Consecutive : Nat → List TileMapping → Nat → Prop
  | start, [], stop => start = stop
  | start, mapping :: rest, stop =>
    mapping.startX = start ∧ Consecutive (start + mapping.numTiles) rest stop

/-- Every tile of the resource is mapped once, and the resource is as large as was requested. -/
structure Call.Maps (c : Call) (a : Allocation) : Prop where
  heaps : a.mappings.length = c.heapCount
  consecutive : Consecutive 0 a.mappings c.resourceSizeInTiles
  ranges : ∀ mapping ∈ a.mappings, 0 < mapping.numTiles ∧
    mapping.numTiles ≤ c.maxHeapSizeInTiles ∧ mapping.numTiles = mapping.heapSizeInTiles
  ends : a.unmappedResourceTiles = 0
  mapped : (a.mappings.map TileMapping.numTiles).sum * kTileSizeInBytes = a.resourceSizeInBytes
  covers : c.sizeInBytes ≤ a.resourceSizeInBytes
  spare : a.resourceSizeInBytes < c.sizeInBytes + kTileSizeInBytes

/-- Without a failing creation, the tiles are mapped. -/
def Call.Correct (c : Call) : Prop :=
  c.Created → ∃ a, c.tryCreateTiledAllocation = .ok (some a) ∧ c.Maps a

def Call.Addressable (c : Call) : Prop :=
  (c.heapCount - 1) * c.maxHeapSizeInTiles < 2 ^ 32 ∧
    min c.resourceSizeInTiles c.maxHeapSizeInTiles < 2 ^ 32

def mappings (max : Nat) : Nat → Nat → Nat → List TileMapping
  | 0, _, _ => []
  | heaps + 1, x, unmapped =>
    let heapSizeInTiles := min unmapped max
    ⟨heapSizeInTiles, x, heapSizeInTiles % 2 ^ 32⟩ ::
      mappings max heaps ((x + heapSizeInTiles) % 2 ^ 32) (unmapped - heapSizeInTiles)

section Loop

variable {max : Nat}

theorem mapHeaps_eq {heap : Nat → Creation} {bytes heaps i x unmapped : Nat}
    {mapped : List TileMapping} (new : ∀ j < heaps, heap (i + j) = .succeeded) :
    mapHeaps max heap bytes heaps i x unmapped mapped = .ok (some ⟨bytes,
      mapped ++ mappings max heaps x unmapped, unmapped - heaps * max⟩) := by
  induction heaps generalizing i x unmapped mapped with
  | zero => simp [mapHeaps, mappings]
  | succ heaps ih =>
    have rest : ∀ j < heaps, heap (i + 1 + j) = .succeeded := fun j less => by
      rw [add_assoc, add_comm 1 j]
      exact new (j + 1) (by omega)
    have left : unmapped - min unmapped max - heaps * max = unmapped - (heaps + 1) * max := by
      rw [Nat.succ_mul]
      omega
    have first : heap i = .succeeded := new 0 (Nat.succ_pos heaps)
    rw [mapHeaps, first, Creation.andThen, ih rest, left, append_assoc]
    rfl

theorem length_mappings (heaps x unmapped : Nat) : (mappings max heaps x unmapped).length = heaps := by
  induction heaps generalizing x unmapped with
  | zero => rfl
  | succ heaps ih => rw [mappings, length_cons, ih]

theorem stop_le {heaps x unmapped start stop : Nat}
    (consecutive : Consecutive start (mappings max heaps x unmapped) stop) :
    stop ≤ start + unmapped := by
  induction heaps generalizing x unmapped start with
  | zero => exact consecutive ▸ Nat.le_add_right _ _
  | succ heaps ih =>
    have rest := ih consecutive.2
    have less := Nat.mod_le (min unmapped max) (2 ^ 32)
    simp only at rest
    omega

theorem sum_numTiles {start stop : Nat} {mapped : List TileMapping}
    (consecutive : Consecutive start mapped stop) :
    start + (mapped.map TileMapping.numTiles).sum = stop := by
  induction mapped generalizing start with
  | nil => exact consecutive
  | cons mapping rest ih => rw [map_cons, sum_cons, ← add_assoc, ih consecutive.2]

/-- A number of tiles in 64 bits is kept if it and the first tile have 32 bits. -/
theorem consecutive_iff (limited : 0 < max) (heaps start unmapped : Nat)
    (some_ : heaps * max < unmapped) (enough : unmapped ≤ (heaps + 1) * max) :
    Consecutive start (mappings max (heaps + 1) (start % 2 ^ 32) unmapped) (start + unmapped) ↔
      start + heaps * max < 2 ^ 32 ∧ min unmapped max < 2 ^ 32 := by
  induction heaps generalizing start unmapped with
  | zero =>
    have only : min unmapped max = unmapped := by omega
    simp only [mappings, Consecutive, only]
    omega
  | succ heaps ih =>
    rw [Nat.succ_mul] at some_ enough
    have first : min unmapped max = max := by omega
    have rest := ih (start + max) (unmapped - max) (by omega) (by omega)
    have next : (start % 2 ^ 32 + max) % 2 ^ 32 = (start + max) % 2 ^ 32 := by omega
    have whole : start + max + (unmapped - max) = start + unmapped := by omega
    rw [mappings]
    simp only [Consecutive, first, next]
    by_cases lt : max < 2 ^ 32
    · rw [Nat.mod_eq_of_lt lt, ← whole, rest, Nat.succ_mul]
      omega
    · constructor
      · rintro ⟨-, consecutive⟩
        have above := stop_le consecutive
        omega
      · omega

theorem range_of_mem (limited : 0 < max) {heaps x unmapped : Nat} {mapping : TileMapping}
    (some_ : heaps * max < unmapped) (lt : min unmapped max < 2 ^ 32)
    (mem : mapping ∈ mappings max (heaps + 1) x unmapped) :
    0 < mapping.numTiles ∧ mapping.numTiles ≤ max ∧ mapping.numTiles = mapping.heapSizeInTiles := by
  induction heaps generalizing x unmapped with
  | zero =>
    rw [mem_singleton.mp mem]
    simp only
    omega
  | succ heaps ih =>
    rw [Nat.succ_mul] at some_
    rw [mappings, mem_cons] at mem
    rcases mem with rfl | later
    · simp only
      omega
    · exact ih (by omega) (by omega) later

end Loop

namespace Call

variable {c : Call}

theorem create_eq (new : c.Created) : c.tryCreateTiledAllocation = .ok (some
    ⟨u64 (c.resourceSizeInTiles * kTileSizeInBytes),
      mappings c.maxHeapSizeInTiles c.heapCount 0 c.resourceSizeInTiles,
      c.resourceSizeInTiles - c.heapCount * c.maxHeapSizeInTiles⟩) := by
  rw [tryCreateTiledAllocation]
  have resources := new.1
  generalize c.resources = creations at resources
  induction creations with
  | nil =>
    rw [foldr_nil, mapHeaps_eq fun j less => by rw [zero_add]; exact new.2 j less]
    rfl
  | cons creation rest ih =>
    obtain ⟨first, later⟩ := forall_mem_cons.mp resources
    rw [foldr_cons, first, Creation.andThen]
    exact ih later

theorem heaps_enough (c : Call) : (c.heapCount - 1) * c.maxHeapSizeInTiles < c.resourceSizeInTiles ∧
      c.resourceSizeInTiles ≤ (c.heapCount - 1 + 1) * c.maxHeapSizeInTiles := by
  have limited := c.limited
  have split := Nat.div_add_mod' (c.resourceSizeInTiles - 1) c.maxHeapSizeInTiles
  have below := Nat.mod_lt (c.resourceSizeInTiles - 1) limited
  have some_ : 0 < c.resourceSizeInTiles := Nat.add_pos_left one_pos _
  rw [heapCount, Nat.add_sub_cancel_left, Nat.succ_mul]
  omega

theorem heapCount_eq (c : Call) : c.heapCount = c.heapCount - 1 + 1 :=
  (Nat.sub_add_cancel (Nat.le_add_right 1 _)).symm

theorem tiling_iff (c : Call) : c.Maps ⟨u64 (c.resourceSizeInTiles * kTileSizeInBytes),
      mappings c.maxHeapSizeInTiles c.heapCount 0 c.resourceSizeInTiles,
      c.resourceSizeInTiles - c.heapCount * c.maxHeapSizeInTiles⟩ ↔ c.Addressable := by
  obtain ⟨some_, enough⟩ := c.heaps_enough
  have tiles := consecutive_iff c.limited (c.heapCount - 1) 0 c.resourceSizeInTiles some_ enough
  rw [← c.heapCount_eq, zero_add, zero_add, Nat.zero_mod] at tiles
  constructor
  · exact fun maps => tiles.mp maps.consecutive
  · intro addressable
    have consecutive := tiles.mpr addressable
    have sum := sum_numTiles consecutive
    have sized := c.sized
    obtain ⟨starts, lt⟩ := addressable
    have whole : u64 (c.resourceSizeInTiles * kTileSizeInBytes) =
        c.resourceSizeInTiles * kTileSizeInBytes := by
      rw [Nat.succ_mul] at enough
      exact u64_of_lt (by rw [kTileSizeInBytes]; omega)
    refine ⟨length_mappings _ _ _, consecutive, fun mapping mem => ?_, ?_, ?_, ?_, ?_⟩
    · rw [c.heapCount_eq] at mem
      exact range_of_mem c.limited some_ lt mem
    · rw [← c.heapCount_eq] at enough
      exact Nat.sub_eq_zero_of_le enough
    · rw [zero_add] at sum
      rw [whole, sum]
    · rw [whole]
      simp only [resourceSizeInTiles, kTileSizeInBytes]
      omega
    · rw [whole]
      simp only [resourceSizeInTiles, kTileSizeInBytes]
      omega

end Call

/-- The tiles are mapped as they should if and only if a creation fails, or the first tile of each
    heap and its number of tiles have 32 bits. -/
theorem Call.allocates_iff (c : Call) : c.Correct ↔ (c.Created → c.Addressable) := by
  rw [← c.tiling_iff]
  constructor
  · intro correct new
    obtain ⟨a, is, maps⟩ := correct new
    rw [create_eq new] at is
    obtain rfl := Option.some.inj (Except.ok.inj is)
    exact maps
  · exact fun maps new => ⟨_, create_eq new, maps new⟩

/-- One byte more than 2^32 tiles, in two heaps. -/
def manyTiles : Call where
  sizeInBytes := 2 ^ 48 + 1
  maxHeapSizeInTiles := 2 ^ 32
  resources := [.succeeded, .succeeded, .succeeded]
  heap _ := .succeeded
  sized := by decide
  fits := by decide
  limited := by decide
  three := rfl

theorem manyTiles_not_correct : ¬ manyTiles.Correct := by
  intro correct
  have new : manyTiles.Created := ⟨by simp [manyTiles], fun _ _ => rfl⟩
  obtain ⟨a, is, maps⟩ := correct new
  rw [Call.create_eq new] at is
  obtain rfl := Option.some.inj (Except.ok.inj is)
  exact absurd ((Call.tiling_iff manyTiles).mp maps).1 (by decide)

end TfDml.TiledAllocation
