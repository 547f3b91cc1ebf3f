import TfDml.Core.BfcAllocator

/-! # The regions of the best-fit allocator and their chunks

The chunks of a region tile it in the order of their links. Where the chunks of
a region are in this order, and which handles are spare, is kept beside the
state, so that every edit of the links is an edit of a list.
-/

namespace TfDml.BfcAllocator

open Lib List
open Function

def Chunk.block (c : Chunk) : Block ChunkHandle := ⟨c.ptr, c.size, c.prev, c.next⟩

def State.table (s : State) (h : ChunkHandle) : Block ChunkHandle := (s.chunks h).block

def extents (regions : List AllocationRegion) : List (Nat × Nat) :=
  regions.map fun r => (r.ptr, r.endPtr)

/-- The regions do not overlap, in the order of their addresses, and they consist of units of
    the minimal size. -/
structure RegionsOk (ranges : List (Nat × Nat)) : Prop where
  ordered : ranges.Pairwise fun a b => a.2 ≤ b.1
  shaped : ∀ e ∈ ranges, 256 ∣ e.1 ∧ 256 ∣ e.2 ∧ e.1 < e.2

variable {e : Nat × Nat}

theorem RegionsOk.tail {rest : List (Nat × Nat)} (ok : RegionsOk (e :: rest)) : RegionsOk rest where
  ordered := ok.ordered.tail
  shaped := fun d mem => ok.shaped d (mem_cons_of_mem e mem)

variable {p : Nat}

theorem RegionsOk.unique {ranges : List (Nat × Nat)} (ok : RegionsOk ranges) {d : Nat × Nat}
    (first : d ∈ ranges) (snd : e ∈ ranges) (inFirst : d.1 ≤ p ∧ p < d.2)
    (inSecond : e.1 ≤ p ∧ p < e.2) : d = e := by
  by_contra ne
  have symmetric : Std.Symm fun a b : Nat × Nat => a.2 ≤ b.1 ∨ b.2 ≤ a.1 := ⟨fun _ _ => Or.symm⟩
  have apart : ranges.Pairwise fun a b => a.2 ≤ b.1 ∨ b.2 ≤ a.1 := ok.ordered.imp Or.inl
  have := apart.forall first snd ne
  omega

theorem indexFor_eq {r : AllocationRegion} (aligned : 256 ∣ r.ptr) {q : Nat} (first : r.ptr ≤ p)
    (snd : r.ptr ≤ q) : r.indexFor q = r.indexFor p ↔ q / 256 = p / 256 := by
  simp only [AllocationRegion.indexFor, kMinAllocationBits, Nat.shiftRight_eq_div_pow]
  omega

variable {regions : List AllocationRegion}

theorem setHandle_spec (ok : RegionsOk (extents regions)) (region : e ∈ extents regions)
    (lt : e.1 ≤ p ∧ p < e.2) (v : Option ChunkHandle) :
    ∃ regions', setHandle p v regions = some regions' ∧ extents regions' = extents regions ∧
      ∀ q, getHandle regions' q = if q / 256 = p / 256 then v else getHandle regions q := by
  induction regions with
  | nil => cases region
  | cons r rest ih =>
    obtain ⟨alignedPtr, alignedEnd, -⟩ := ok.shaped (r.ptr, r.endPtr) mem_cons_self
    dsimp only at alignedPtr alignedEnd
    have later : ∀ d ∈ extents rest, r.endPtr ≤ d.1 := (pairwise_cons.mp ok.ordered).1
    by_cases pre : p < r.endPtr
    · have own : r.ptr ≤ p := by
        rcases mem_cons.mp region with rfl | other
        · exact lt.1
        · have := later e other
          omega
      let r' := { r with handles := update r.handles (r.indexFor p) v }
      refine ⟨r' :: rest, by rw [setHandle, if_pos pre, if_pos own], rfl, ?_⟩
      intro q
      have bounds : r'.endPtr = r.endPtr ∧ r'.ptr = r.ptr := ⟨rfl, rfl⟩
      have handle : r'.handles (r'.indexFor q) =
          if r.indexFor q = r.indexFor p then v else r.handles (r.indexFor q) :=
        update_apply ..
      simp only [getHandle, bounds, handle]
      by_cases short : q < r.endPtr
      · by_cases after : r.ptr ≤ q
        · simp only [short, after, if_true, indexFor_eq alignedPtr own after]
        · have unit : q / 256 ≠ p / 256 := by omega
          simp only [short, after, if_true, if_false, unit]
      · have unit : q / 256 ≠ p / 256 := by omega
        simp only [short, if_false, unit]
    · have other : e ∈ extents rest := by
        rcases mem_cons.mp region with rfl | other
        · exact absurd lt.2 pre
        · exact other
      obtain ⟨regions', set, same, spec⟩ := ih ok.tail other
      refine ⟨r :: regions', by simp [setHandle, pre, set], ?_, ?_⟩
      · simp only [extents, map_cons] at same ⊢
        rw [same]
      · intro q
        simp only [getHandle, spec]
        by_cases short : q < r.endPtr
        · have unit : q / 256 ≠ p / 256 := by omega
          simp only [short, if_true, unit, if_false]
        · simp only [short, if_false]

theorem addAllocationRegion_spec (ok : RegionsOk (extents regions)) {ptr size : Nat}
    (alignedPtr : 256 ∣ ptr) (alignedSize : 256 ∣ size) (pos : 0 < size)
    (apart : ∀ e ∈ extents regions, ptr + size ≤ e.1 ∨ e.2 ≤ ptr) :
    RegionsOk (extents (addAllocationRegion ptr size regions)) ∧
      (∀ e, e ∈ extents (addAllocationRegion ptr size regions) ↔
        e = (ptr, ptr + size) ∨ e ∈ extents regions) ∧
      ∀ q, getHandle (addAllocationRegion ptr size regions) q =
        if ptr ≤ q ∧ q < ptr + size then none else getHandle regions q := by
  have shaped : 256 ∣ ptr ∧ 256 ∣ ptr + size ∧ ptr < ptr + size :=
    ⟨alignedPtr, Nat.dvd_add alignedPtr alignedSize, by omega⟩
  induction regions with
  | nil =>
    refine ⟨⟨by simp [extents, addAllocationRegion], ?_⟩, ?_, ?_⟩
    · simpa [extents, addAllocationRegion, AllocationRegion.endPtr] using shaped
    · simp [extents, addAllocationRegion, AllocationRegion.endPtr]
    · intro q
      simp only [addAllocationRegion, getHandle, AllocationRegion.endPtr]
      split_ifs <;> rfl
  | cons r rest ih =>
    have own := apart (r.ptr, r.endPtr) mem_cons_self
    have whole := (ok.shaped (r.ptr, r.endPtr) mem_cons_self).2.2
    have later : ∀ d ∈ extents rest, r.endPtr ≤ d.1 := (pairwise_cons.mp ok.ordered).1
    dsimp only at own whole
    unfold addAllocationRegion
    by_cases pre : ptr < r.endPtr
    · rw [if_pos pre]
      refine ⟨⟨?_, ?_⟩, ?_, ?_⟩
      · refine .cons ?_ ok.ordered
        intro d mem
        simp only [AllocationRegion.endPtr] at own pre later ⊢
        rcases mem_cons.mp mem with rfl | other
        · dsimp only
          omega
        · have := later d other
          omega
      · intro d mem
        rcases mem_cons.mp mem with rfl | other
        · exact shaped
        · exact ok.shaped d other
      · intro d
        exact mem_cons
      · intro q
        have front : ptr + size ≤ r.ptr := by omega
        simp only [getHandle]
        by_cases short : q < ptr + size
        · have below : q < r.endPtr ∧ ¬ r.ptr ≤ q := by omega
          have next : q < (⟨ptr, size, fun _ => none⟩ : AllocationRegion).endPtr := short
          simp [next, below]
        · have next : ¬ q < (⟨ptr, size, fun _ => none⟩ : AllocationRegion).endPtr := short
          simp [next, short]
    · rw [if_neg pre]
      obtain ⟨next, members, handles⟩ := ih ok.tail fun d mem =>
        apart d (mem_cons_of_mem _ mem)
      refine ⟨⟨?_, ?_⟩, ?_, ?_⟩
      · refine .cons ?_ next.ordered
        intro d mem
        rcases (members d).mp mem with rfl | other
        · exact Nat.le_of_not_lt pre
        · exact later d other
      · intro d mem
        rcases mem_cons.mp mem with rfl | other
        · exact ok.shaped _ mem_cons_self
        · exact next.shaped d other
      · intro d
        simp only [extents, map_cons, mem_cons] at members ⊢
        rw [members d]
        exact or_left_comm
      · intro q
        simp only [getHandle, handles]
        by_cases short : q < r.endPtr
        · have outside : ¬ (ptr ≤ q ∧ q < ptr + size) := by omega
          simp only [short, if_true, outside, if_false]
        · simp only [short, if_false]

/-- The handles of each region, by its address, in the order of the chunks, and the handles of
    deleted chunks. -/
structure Layout where
  chain : Nat → List ChunkHandle
  spare : List ChunkHandle

def Live (ranges : List (Nat × Nat)) (chain : Nat → List ChunkHandle) (h : ChunkHandle) : Prop :=
  ∃ e ∈ ranges, h ∈ chain e.1

/-- The list of spare handles, linked by `next`. -/
def Spare (chunks : ChunkHandle → Chunk) : Option ChunkHandle → List ChunkHandle → Prop
  | first, [] => first = none
  | first, h :: rest => first = some h ∧ Spare chunks (chunks h).next rest

variable {handles : List ChunkHandle}

theorem Spare.transport {chunks chunks' : ChunkHandle → Chunk} {first : Option ChunkHandle}
    (spare : Spare chunks first handles)
    (same : ∀ h ∈ handles, (chunks' h).next = (chunks h).next) : Spare chunks' first handles := by
  induction handles generalizing first with
  | nil => exact spare
  | cons h rest ih =>
    obtain ⟨head, later⟩ := spare
    refine ⟨head, ?_⟩
    rw [same h mem_cons_self]
    exact ih later fun k mem => same k (mem_cons_of_mem h mem)

/-- The chunks tile their regions, the handle of a chunk is found at its address and nowhere
    else, and the spare handles are those of no chunk. -/
structure Geometry (s : State) (l : Layout) : Prop where
  regions : RegionsOk (extents s.regions)
  tiles : ∀ e ∈ extents s.regions, Tiles 256 s.table none e.1 (l.chain e.1) none e.2
  handles : ∀ p h, getHandle s.regions p = some h ↔
    Live (extents s.regions) l.chain h ∧ (s.chunks h).ptr = p / 256 * 256
  known : ∀ h, Live (extents s.regions) l.chain h → h < s.chunksSize
  spare : Spare s.chunks s.freeChunksList l.spare
  nodup : l.spare.Nodup
  unused : ∀ h ∈ l.spare, h < s.chunksSize ∧ ¬ Live (extents s.regions) l.chain h ∧
    (s.chunks h).binNum = none

theorem geometry_init (l : Layout) (none : l.spare = []) : Geometry {} l where
  regions := ⟨.nil, by simp [extents]⟩
  tiles := by simp [extents]
  handles := by simp [getHandle, Live, extents]
  known := by simp [Live, extents]
  spare := by simp [none, Spare]
  nodup := by simp [none]
  unused := by simp [none]

private theorem notMem_head? (nodup : handles.Nodup) {k : ChunkHandle} (mem : k ∈ handles.tail) :
    k ∉ handles.head? := by
  cases handles with
  | nil => cases mem
  | cons h rest =>
    intro head
    obtain rfl := Option.some.inj head
    exact (nodup_cons.mp nodup).1 mem

variable {s t : State} {l : Layout}

/-- Besides the chunks `a` and `b`, an edit changes only the link of the chunk behind them. -/
structure Relinked (s t : State) (a b : ChunkHandle) (behind : List ChunkHandle)
    (prev : ChunkHandle) : Prop where
  neighbour : ∀ k ∈ behind.head?, t.chunks k = { s.chunks k with prev := some prev }
  kept : ∀ k, k ≠ a → k ≠ b → k ∉ behind.head? → t.chunks k = s.chunks k

namespace Relinked

variable {a b prev : ChunkHandle} {behind : List ChunkHandle}
  (relinked : Relinked s t a b behind prev)
include relinked

variable {k : ChunkHandle}

theorem same (notA : k ≠ a) (notB : k ≠ b) : ∃ p, t.chunks k = { s.chunks k with prev := p } := by
  by_cases head : k ∈ behind.head?
  · exact ⟨some prev, relinked.neighbour k head⟩
  · exact ⟨(s.chunks k).prev, relinked.kept k notA notB head⟩

theorem ptr (notA : k ≠ a) (notB : k ≠ b) : (t.chunks k).ptr = (s.chunks k).ptr := by
  obtain ⟨p, same⟩ := relinked.same notA notB
  rw [same]

theorem outside (notA : k ≠ a) (notB : k ≠ b) (away : k ∉ behind) : t.chunks k = s.chunks k :=
  relinked.kept k notA notB fun head => away (mem_of_mem_head? head)

theorem tail (nodup : behind.Nodup) (notA : k ≠ a) (notB : k ≠ b) (mem : k ∈ behind.tail) :
    t.chunks k = s.chunks k :=
  relinked.kept k notA notB (notMem_head? nodup mem)

end Relinked

namespace Geometry

variable (geo : Geometry s l)
include geo

variable {new : ChunkHandle}

private theorem known_new {chain : Nat → List ChunkHandle}
    (live : ∀ k, Live (extents t.regions) chain k ↔ Live (extents s.regions) l.chain k ∨ k = new)
    (unspared : new ∉ l.spare) (room : new < s.chunksSize) (count : t.chunksSize = s.chunksSize)
    (list : t.freeChunksList = s.freeChunksList) (spared : ∀ k ∈ l.spare, t.chunks k = s.chunks k) :
    (∀ k, Live (extents t.regions) chain k → k < t.chunksSize) ∧
      Spare t.chunks t.freeChunksList l.spare ∧
      ∀ k ∈ l.spare, k < t.chunksSize ∧ ¬ Live (extents t.regions) chain k ∧
        (t.chunks k).binNum = none := by
  rw [count, list]
  refine ⟨?_, ?_, ?_⟩
  · intro k alive
    rcases (live k).mp alive with old | rfl
    · exact geo.known k old
    · exact room
  · exact geo.spare.transport fun k mem => by rw [spared k mem]
  · intro k mem
    obtain ⟨known, unused, unbinned⟩ := geo.unused k mem
    rw [spared k mem, live]
    refine ⟨known, ?_, unbinned⟩
    rintro (alive | rfl)
    · exact unused alive
    · exact unspared mem

variable {h : ChunkHandle}

theorem aligned (live : Live (extents s.regions) l.chain h) : 256 ∣ (s.chunks h).ptr := by
  obtain ⟨e, region, mem⟩ := live
  exact (geo.tiles e region).aligned (geo.regions.shaped e region).1 mem

variable {k : ChunkHandle}

theorem ptr_inj (first : Live (extents s.regions) l.chain h)
    (snd : Live (extents s.regions) l.chain k) (same : (s.chunks h).ptr = (s.chunks k).ptr) :
    h = k := by
  have aligned := geo.aligned first
  have got := (geo.handles (s.chunks h).ptr h).mpr ⟨first, by omega⟩
  have got' := (geo.handles (s.chunks h).ptr k).mpr ⟨snd, by omega⟩
  exact Option.some.inj (got.symm.trans got')

variable {e : Nat × Nat}

theorem bounds (region : e ∈ extents s.regions) (mem : h ∈ l.chain e.1) :
    e.1 ≤ (s.chunks h).ptr ∧ (s.chunks h).ptr + (s.chunks h).size ≤ e.2 ∧ 0 < (s.chunks h).size :=
  (geo.tiles e region).bounds mem

variable {d : Nat × Nat}

theorem region_unique (first : d ∈ extents s.regions) (snd : e ∈ extents s.regions)
    (inFirst : h ∈ l.chain d.1) (inSecond : h ∈ l.chain e.1) : d = e := by
  have left := geo.bounds first inFirst
  have right := geo.bounds snd inSecond
  exact geo.regions.unique first snd (p := (s.chunks h).ptr) (by omega) (by omega)

theorem region_of_ptr (first : d ∈ extents s.regions) (snd : e ∈ extents s.regions)
    (same : d.1 = e.1) : d = e := by
  have left := (geo.regions.shaped d first).2.2
  have right := (geo.regions.shaped e snd).2.2
  exact geo.regions.unique first snd (p := d.1) (by omega) (by omega)

theorem apart (first : Live (extents s.regions) l.chain h)
    (snd : Live (extents s.regions) l.chain k) (ne : h ≠ k) :
    (s.chunks h).ptr + (s.chunks h).size ≤ (s.chunks k).ptr ∨
      (s.chunks k).ptr + (s.chunks k).size ≤ (s.chunks h).ptr := by
  obtain ⟨d, region, mem⟩ := first
  obtain ⟨e, region', member'⟩ := snd
  by_cases same : d = e
  · subst same
    have symmetric : Std.Symm fun a b : ChunkHandle =>
        (s.chunks a).ptr + (s.chunks a).size ≤ (s.chunks b).ptr ∨
          (s.chunks b).ptr + (s.chunks b).size ≤ (s.chunks a).ptr := ⟨fun _ _ => Or.symm⟩
    have pairwise : (l.chain d.1).Pairwise fun a b =>
        (s.chunks a).ptr + (s.chunks a).size ≤ (s.chunks b).ptr ∨
          (s.chunks b).ptr + (s.chunks b).size ≤ (s.chunks a).ptr :=
      (geo.tiles d region).pairwise.imp Or.inl
    exact pairwise.forall mem member' ne
  · have symmetric : Std.Symm fun a b : Nat × Nat => a.2 ≤ b.1 ∨ b.2 ≤ a.1 :=
      ⟨fun _ _ => Or.symm⟩
    have lt : (extents s.regions).Pairwise fun a b => a.2 ≤ b.1 ∨ b.2 ≤ a.1 :=
      geo.regions.ordered.imp Or.inl
    have left := geo.bounds region mem
    have right := geo.bounds region' member'
    have := lt.forall region region' same
    omega

theorem live_update (region : e ∈ extents s.regions) (handles : List ChunkHandle)
    (k : ChunkHandle) : Live (extents s.regions) (update l.chain e.1 handles) k ↔
      k ∈ handles ∨ Live (extents s.regions) l.chain k ∧ k ∉ l.chain e.1 := by
  constructor
  · rintro ⟨d, lt, mem⟩
    by_cases same : d.1 = e.1
    · rw [same, update_self] at mem
      exact Or.inl mem
    · rw [update_of_ne same] at mem
      refine Or.inr ⟨⟨d, lt, mem⟩, ?_⟩
      intro also
      exact same (congrArg Prod.fst (geo.region_unique lt region mem also))
  · rintro (mem | ⟨⟨d, lt, mem⟩, outside⟩)
    · exact ⟨e, region, by rwa [update_self]⟩
    · refine ⟨d, lt, ?_⟩
      rw [update_of_ne]
      · exact mem
      · intro same
        exact outside (same ▸ mem)

theorem tiles_update (region : e ∈ extents s.regions)
    (ranges : extents t.regions = extents s.regions) {handles : List ChunkHandle}
    (edited : Tiles 256 t.table none e.1 handles none e.2)
    (others : ∀ k, k ∉ l.chain e.1 → Live (extents s.regions) l.chain k → t.table k = s.table k) :
    ∀ d ∈ extents t.regions,
      Tiles 256 t.table none d.1 (update l.chain e.1 handles d.1) none d.2 := by
  intro d lt
  rw [ranges] at lt
  by_cases same : d = e
  · rw [same, update_self]
    exact edited
  · have away : d.1 ≠ e.1 := fun eq => same (geo.region_of_ptr lt region eq)
    rw [update_of_ne away]
    refine (geo.tiles d lt).transport ?_
    intro k mem
    refine others k ?_ ⟨d, lt, mem⟩
    intro also
    exact same (geo.region_unique lt region mem also)

variable {xs ys : List ChunkHandle}

theorem links (region : e ∈ extents s.regions) (chain : l.chain e.1 = xs ++ h :: ys) :
    (s.chunks h).prev = xs.getLast? ∧ (s.chunks h).next = ys.head? := by
  have tiles := geo.tiles e region
  rw [chain] at tiles
  obtain ⟨-, -, -, prev, next, -⟩ := tiles_append.mp tiles
  rw [Option.or_none] at prev next
  exact ⟨prev, next⟩

theorem merge (region : e ∈ extents s.regions) {h1 h2 : ChunkHandle}
    (chain : l.chain e.1 = xs ++ h1 :: h2 :: ys) (ranges : extents t.regions = extents s.regions)
    (count : t.chunksSize = s.chunksSize) (got : ∀ q, getHandle t.regions q =
      if q / 256 = (s.chunks h2).ptr / 256 then none else getHandle s.regions q)
    (grown : t.table h1 = { s.table h1 with
        size := (s.table h1).size + (s.table h2).size
        next := (s.table h2).next }) (relinked : Relinked s t h1 h2 ys h1)
    (deleted : (t.chunks h2).next = s.freeChunksList ∧ (t.chunks h2).binNum = none)
    (first : t.freeChunksList = some h2) :
    Geometry t ⟨update l.chain e.1 (xs ++ h1 :: ys), h2 :: l.spare⟩ ∧
      ∀ k, Live (extents t.regions) (update l.chain e.1 (xs ++ h1 :: ys)) k ↔
        Live (extents s.regions) l.chain k ∧ k ≠ h2 := by
  have tiles := geo.tiles e region
  rw [chain] at tiles
  have nodup := tiles.nodup
  have live1 : Live (extents s.regions) l.chain h1 := ⟨e, region, by simp [chain]⟩
  have live2 : Live (extents s.regions) l.chain h2 := ⟨e, region, by simp [chain]⟩
  have nodupBehind : ys.Nodup := nodup.of_append_right.of_cons.of_cons
  have distinct : h1 ≠ h2 ∧ h1 ∉ xs ∧ h2 ∉ xs ∧ h1 ∉ ys ∧ h2 ∉ ys ∧ ∀ k ∈ ys, k ∉ xs := by
    simp only [nodup_append, nodup_cons, mem_cons] at nodup
    grind
  have live : ∀ k, Live (extents t.regions)
      (update l.chain e.1 (xs ++ h1 :: ys)) k ↔ Live (extents s.regions) l.chain k ∧ k ≠ h2 := by
    intro k
    rw [ranges, geo.live_update region, chain]
    constructor
    · rintro (mem | ⟨live, outside⟩)
      · refine ⟨⟨e, region, ?_⟩, ?_⟩ <;> grind
      · exact ⟨live, by grind⟩
    · rintro ⟨live, ne⟩
      by_cases mem : k ∈ xs ++ h1 :: h2 :: ys
      · exact Or.inl (by grind)
      · exact Or.inr ⟨live, mem⟩
  have ptr : ∀ k, k ≠ h2 → (t.chunks k).ptr = (s.chunks k).ptr := by
    intro k ne
    by_cases same : k = h1
    · subst same
      exact congrArg Block.ptr grown
    · exact relinked.ptr same ne
  have untouched : ∀ k, k ∉ xs ++ h1 :: h2 :: ys → t.chunks k = s.chunks k := by
    intro k outside
    refine relinked.outside ?_ ?_ ?_ <;> grind
  have edited : Tiles 256 t.table none e.1 (xs ++ h1 :: ys) none e.2 := by
    refine tiles.merge ?_ grown ?_ ?_
    · intro k mem
      refine congrArg Chunk.block (relinked.outside ?_ ?_ ?_) <;> grind
    · intro k head
      exact congrArg Chunk.block (relinked.neighbour k head)
    · intro k mem
      have behind := mem_of_mem_tail mem
      refine congrArg Chunk.block (relinked.tail nodupBehind ?_ ?_ mem) <;> grind
  have spared : ∀ k ∈ l.spare, t.chunks k = s.chunks k := by
    intro k mem
    refine untouched k fun part => ?_
    exact (geo.unused k mem).2.1 ⟨e, region, chain ▸ part⟩
  refine ⟨⟨ranges ▸ geo.regions, geo.tiles_update region ranges edited ?_, ?_, ?_, ?_, ?_, ?_⟩,
    live⟩
  · intro k outside _
    exact congrArg Chunk.block (untouched k (chain ▸ outside))
  · intro p k
    have aligned := geo.aligned live2
    have pre := geo.handles p k
    rw [got, live]
    by_cases unit : p / 256 = (s.chunks h2).ptr / 256
    · rw [if_pos unit]
      constructor
      · rintro ⟨⟩
      · rintro ⟨⟨alive, ne⟩, here⟩
        rw [ptr k ne] at here
        exact absurd (geo.ptr_inj alive live2 (by omega)) ne
    · rw [if_neg unit, pre]
      constructor
      · rintro ⟨alive, here⟩
        have ne : k ≠ h2 := by
          rintro rfl
          omega
        exact ⟨⟨alive, ne⟩, by rw [ptr k ne, here]⟩
      · rintro ⟨⟨alive, ne⟩, here⟩
        exact ⟨alive, by rw [← ptr k ne, here]⟩
  · intro k alive
    rw [count]
    exact geo.known k ((live k).mp alive).1
  · refine ⟨first, ?_⟩
    rw [deleted.1]
    refine geo.spare.transport ?_
    intro k mem
    rw [spared k mem]
  · exact nodup_cons.mpr ⟨fun mem => (geo.unused h2 mem).2.1 live2, geo.nodup⟩
  · intro k mem
    rw [count]
    rcases mem_cons.mp mem with rfl | old
    · exact ⟨geo.known k live2, fun alive => ((live k).mp alive).2 rfl, deleted.2⟩
    · obtain ⟨known, unused, unbinned⟩ := geo.unused k old
      refine ⟨known, fun alive => unused ((live k).mp alive).1, ?_⟩
      rw [spared k old]
      exact unbinned

theorem split (region : e ∈ extents s.regions) {n : Nat} (chain : l.chain e.1 = xs ++ h :: ys)
    (fresh : ¬ Live (extents s.regions) l.chain new) (unspared : new ∉ l.spare)
    (room : new < s.chunksSize) (pos : 0 < n) (multiple : 256 ∣ n)
    (less : n < (s.chunks h).size) (ranges : extents t.regions = extents s.regions)
    (count : t.chunksSize = s.chunksSize) (got : ∀ q, getHandle t.regions q =
      if q / 256 = ((s.chunks h).ptr + n) / 256 then some new else getHandle s.regions q)
    (shrunk : t.table h = { s.table h with size := n, next := some new }) (added : t.table new =
      ⟨(s.table h).ptr + n, (s.table h).size - n, some h, (s.table h).next⟩)
    (relinked : Relinked s t h new ys new) (list : t.freeChunksList = s.freeChunksList) :
    Geometry t ⟨update l.chain e.1 (xs ++ h :: new :: ys), l.spare⟩ ∧
      ∀ k, Live (extents t.regions) (update l.chain e.1 (xs ++ h :: new :: ys)) k ↔
        Live (extents s.regions) l.chain k ∨ k = new := by
  have tiles := geo.tiles e region
  rw [chain] at tiles
  have nodup := tiles.nodup
  have nodupBehind : ys.Nodup := nodup.of_append_right.of_cons
  have live1 : Live (extents s.regions) l.chain h := ⟨e, region, by simp [chain]⟩
  have notNew : ∀ k, Live (extents s.regions) l.chain k → k ≠ new := by
    rintro k alive rfl
    exact fresh alive
  have inside : ∀ k ∈ xs ++ h :: ys, Live (extents s.regions) l.chain k :=
    fun k mem => ⟨e, region, chain ▸ mem⟩
  have distinct : h ∉ xs ∧ h ∉ ys ∧ ∀ k ∈ ys, k ∉ xs := by
    simp only [nodup_append, nodup_cons, mem_cons] at nodup
    grind
  have live : ∀ k, Live (extents t.regions)
      (update l.chain e.1 (xs ++ h :: new :: ys)) k ↔
        Live (extents s.regions) l.chain k ∨ k = new := by
    intro k
    rw [ranges, geo.live_update region, chain]
    constructor
    · rintro (mem | ⟨alive, outside⟩)
      · by_cases same : k = new
        · exact Or.inr same
        · exact Or.inl (inside k (by grind))
      · exact Or.inl alive
    · rintro (alive | rfl)
      · by_cases mem : k ∈ xs ++ h :: ys
        · exact Or.inl (by grind)
        · exact Or.inr ⟨alive, mem⟩
      · exact Or.inl (by simp)
  have ptr : ∀ k, k ≠ new → (t.chunks k).ptr = (s.chunks k).ptr := by
    intro k ne
    by_cases same : k = h
    · subst same
      exact congrArg Block.ptr shrunk
    · exact relinked.ptr same ne
  have untouched : ∀ k, k ≠ new → k ∉ xs ++ h :: ys → t.chunks k = s.chunks k := by
    intro k ne outside
    refine relinked.outside ?_ ne ?_ <;> grind
  have ptrNew : (t.chunks new).ptr = (s.chunks h).ptr + n := congrArg Block.ptr added
  have edited : Tiles 256 t.table none e.1 (xs ++ h :: new :: ys) none e.2 := by
    refine tiles.split pos multiple less ?_ shrunk added ?_ ?_
    · intro k mem
      refine congrArg Chunk.block (relinked.outside ?_ (notNew k (inside k ?_)) ?_) <;> grind
    · intro k head
      exact congrArg Chunk.block (relinked.neighbour k head)
    · intro k mem
      have behind := mem_of_mem_tail mem
      refine congrArg Chunk.block
        (relinked.tail nodupBehind ?_ (notNew k (inside k ?_)) mem) <;> grind
  have spared : ∀ k ∈ l.spare, t.chunks k = s.chunks k := by
    intro k mem
    refine untouched k ?_ fun part => (geo.unused k mem).2.1 (inside k part)
    rintro rfl
    exact unspared mem
  obtain ⟨known, spare, unused⟩ := geo.known_new live unspared room count list spared
  refine ⟨⟨ranges ▸ geo.regions, geo.tiles_update region ranges edited ?_, ?_, known, spare,
    geo.nodup, unused⟩, live⟩
  · intro k outside alive
    exact congrArg Chunk.block (untouched k (notNew k alive) (chain ▸ outside))
  · intro p k
    have aligned := geo.aligned live1
    have pre := geo.handles p k
    rw [got, live]
    by_cases unit : p / 256 = ((s.chunks h).ptr + n) / 256
    · rw [if_pos unit]
      constructor
      · intro same
        obtain rfl := Option.some.inj same
        exact ⟨Or.inr rfl, by omega⟩
      · rintro ⟨alive | rfl, here⟩
        · -- no other chunk begins inside of `h`
          rw [ptr k (notNew k alive)] at here
          have ne : k ≠ h := by
            rintro rfl
            omega
          have := geo.apart alive live1 ne
          obtain ⟨d, region', mem⟩ := alive
          have := (geo.bounds region' mem).2.2
          omega
        · rfl
    · rw [if_neg unit, pre]
      constructor
      · rintro ⟨alive, here⟩
        exact ⟨Or.inl alive, by rw [ptr k (notNew k alive), here]⟩
      · rintro ⟨alive | rfl, here⟩
        · exact ⟨alive, by rw [← ptr k (notNew k alive), here]⟩
        · omega

theorem addRegion {ptr size : Nat} (fresh : ¬ Live (extents s.regions) l.chain new)
    (unspared : new ∉ l.spare) (room : new < s.chunksSize) (regions : RegionsOk (extents t.regions))
    (ranges : ∀ e, e ∈ extents t.regions ↔ e = (ptr, ptr + size) ∨ e ∈ extents s.regions)
    (apart : ∀ e ∈ extents s.regions, ptr + size ≤ e.1 ∨ e.2 ≤ ptr)
    (count : t.chunksSize = s.chunksSize) (got : ∀ q, getHandle t.regions q =
      if q / 256 = ptr / 256 then some new
      else if ptr ≤ q ∧ q < ptr + size then none else getHandle s.regions q)
    (added : t.table new = ⟨ptr, size, none, none⟩) (kept : ∀ k, k ≠ new → t.chunks k = s.chunks k)
    (list : t.freeChunksList = s.freeChunksList) : Geometry t ⟨update l.chain ptr [new], l.spare⟩ ∧
      ∀ k, Live (extents t.regions) (update l.chain ptr [new]) k ↔
        Live (extents s.regions) l.chain k ∨ k = new := by
  have own := regions.shaped (ptr, ptr + size) ((ranges _).mpr (Or.inl rfl))
  dsimp only at own
  have away : ∀ e ∈ extents s.regions, e.1 ≠ ptr := by
    intro e region
    have := apart e region
    have := (geo.regions.shaped e region).2.2
    omega
  have notNew : ∀ k, Live (extents s.regions) l.chain k → k ≠ new := by
    rintro k alive rfl
    exact fresh alive
  have live : ∀ k, Live (extents t.regions) (update l.chain ptr [new]) k ↔
      Live (extents s.regions) l.chain k ∨ k = new := by
    intro k
    constructor
    · rintro ⟨e, region, mem⟩
      rcases (ranges e).mp region with rfl | old
      · rw [update_self] at mem
        exact Or.inr (mem_singleton.mp mem)
      · rw [update_of_ne (away e old)] at mem
        exact Or.inl ⟨e, old, mem⟩
    · rintro (⟨e, region, mem⟩ | rfl)
      · exact ⟨e, (ranges e).mpr (Or.inr region), by rwa [update_of_ne (away e region)]⟩
      · exact ⟨(ptr, ptr + size), (ranges _).mpr (Or.inl rfl), by simp⟩
  have spared : ∀ k ∈ l.spare, t.chunks k = s.chunks k := by
    intro k mem
    refine kept k ?_
    rintro rfl
    exact unspared mem
  obtain ⟨known, spare, unused⟩ := geo.known_new live unspared room count list spared
  refine ⟨⟨regions, ?_, ?_, known, spare, geo.nodup, unused⟩, live⟩
  · intro e region
    rcases (ranges e).mp region with rfl | old
    · simp only [update_self, Tiles, added]
      refine ⟨trivial, trivial, rfl, by omega, by omega, trivial⟩
    · dsimp only
      rw [update_of_ne (away e old)]
      refine (geo.tiles e old).transport ?_
      intro k mem
      exact congrArg Chunk.block (kept k (notNew k ⟨e, old, mem⟩))
  · intro p k
    have ptrNew : (t.chunks new).ptr = ptr := congrArg Block.ptr added
    have outside : ∀ k, Live (extents s.regions) l.chain k →
        ¬ (ptr ≤ (s.chunks k).ptr ∧ (s.chunks k).ptr < ptr + size) := by
      rintro k ⟨e, region, mem⟩
      have := apart e region
      have := geo.bounds region mem
      omega
    rw [got, live]
    by_cases unit : p / 256 = ptr / 256
    · rw [if_pos unit]
      constructor
      · intro same
        obtain rfl := Option.some.inj same
        exact ⟨Or.inr rfl, by omega⟩
      · rintro ⟨alive | rfl, here⟩
        · rw [kept k (notNew k alive)] at here
          have := outside k alive
          omega
        · rfl
    · rw [if_neg unit]
      by_cases lt : ptr ≤ p ∧ p < ptr + size
      · rw [if_pos lt]
        constructor
        · rintro ⟨⟩
        · rintro ⟨alive | rfl, here⟩
          · rw [kept k (notNew k alive)] at here
            have := outside k alive
            omega
          · omega
      · rw [if_neg lt, geo.handles p k]
        constructor
        · rintro ⟨alive, here⟩
          exact ⟨Or.inl alive, by rw [kept k (notNew k alive), here]⟩
        · rintro ⟨alive | rfl, here⟩
          · exact ⟨alive, by rw [← kept k (notNew k alive), here]⟩
          · omega

theorem transport (regions : t.regions = s.regions) (count : t.chunksSize = s.chunksSize)
    (list : t.freeChunksList = s.freeChunksList) (table : ∀ h, t.table h = s.table h)
    (spared : ∀ h ∈ l.spare, (t.chunks h).binNum = (s.chunks h).binNum) : Geometry t l where
  regions := regions ▸ geo.regions
  tiles := by
    intro e region
    rw [regions] at region
    exact (geo.tiles e region).transport fun h _ => table h
  handles := by
    intro p h
    have ptr : (t.chunks h).ptr = (s.chunks h).ptr := congrArg Block.ptr (table h)
    rw [regions, ptr]
    exact geo.handles p h
  known := by
    rw [regions, count]
    exact geo.known
  spare := by
    rw [list]
    exact geo.spare.transport fun h _ => congrArg Block.next (table h)
  nodup := geo.nodup
  unused := by
    intro h mem
    rw [regions, count, spared h mem]
    exact geo.unused h mem

theorem allocateChunk (allocated : allocateChunk s = (h, t)) :
    ∃ spare, Geometry t ⟨l.chain, spare⟩ ∧ ¬ Live (extents t.regions) l.chain h ∧ h ∉ spare ∧
      h < t.chunksSize ∧ (t.chunks h = {} ∨ t.chunks h = s.chunks h ∧ h ∈ l.spare) ∧
      (∀ k, k ≠ h → t.chunks k = s.chunks k) ∧ t = { s with
        chunks := t.chunks
        chunksSize := t.chunksSize
        freeChunksList := t.freeChunksList } := by
  unfold BfcAllocator.allocateChunk at allocated
  cases first : s.freeChunksList with
  | some k =>
    simp only [first, Prod.mk.injEq] at allocated
    obtain ⟨rfl, rfl⟩ := allocated
    have spare := geo.spare
    cases handles : l.spare with
    | nil =>
      rw [handles, first] at spare
      cases spare
    | cons k' rest =>
      rw [handles, first] at spare
      obtain ⟨same, later⟩ := spare
      obtain rfl := Option.some.inj same
      have mem : k ∈ l.spare := by simp [handles]
      have nodup := geo.nodup
      rw [handles, nodup_cons] at nodup
      obtain ⟨known, unused, -⟩ := geo.unused k mem
      refine ⟨rest, ?_, unused, nodup.1, known, Or.inr ⟨rfl, by simp⟩, fun _ _ => rfl, rfl⟩
      exact
        { geo with
          spare := later
          nodup := nodup.2
          unused := fun j lt => geo.unused j (by simp [handles, lt]) }
  | none =>
    simp only [first, Prod.mk.injEq] at allocated
    obtain ⟨rfl, rfl⟩ := allocated
    have fresh : ¬ Live (extents s.regions) l.chain s.chunksSize := fun alive =>
      absurd (geo.known _ alive) (Nat.lt_irrefl _)
    have unspared : s.chunksSize ∉ l.spare := fun mem =>
      absurd (geo.unused _ mem).1 (Nat.lt_irrefl _)
    have kept : ∀ k, k ≠ s.chunksSize →
        (s.setChunk s.chunksSize {}).chunks k = s.chunks k := fun k ne =>
      update_of_ne ne _ _
    have alive : ∀ k, Live (extents s.regions) l.chain k → k ≠ s.chunksSize := by
      rintro k live rfl
      exact fresh live
    have spares : ∀ k ∈ l.spare, k ≠ s.chunksSize := by
      rintro k mem rfl
      exact unspared mem
    refine ⟨l.spare, ?_, fresh, unspared, Nat.lt_succ_self _, Or.inl (update_self ..), kept, rfl⟩
    refine ⟨geo.regions, ?_, ?_, ?_, ?_, geo.nodup, ?_⟩
    · intro e region
      refine (geo.tiles e region).transport ?_
      intro k mem
      exact congrArg Chunk.block (kept k (alive k ⟨e, region, mem⟩))
    · intro p k
      refine (geo.handles p k).trans (and_congr_right fun live => ?_)
      rw [← kept k (alive k live)]
    · exact fun k live => (geo.known k live).trans (Nat.lt_succ_self _)
    · refine geo.spare.transport ?_
      intro k mem
      exact congrArg Chunk.next (kept k (spares k mem))
    · intro k mem
      obtain ⟨known, unused, unbinned⟩ := geo.unused k mem
      refine ⟨known.trans (Nat.lt_succ_self _), unused, ?_⟩
      exact (congrArg Chunk.binNum (kept k (spares k mem))).trans unbinned

end Geometry

end TfDml.BfcAllocator
