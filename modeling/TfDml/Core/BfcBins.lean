import TfDml.Core.BfcGeometry

/-! # The bins of the best-fit allocator

A chunk is in use, or free and in the bin of its size. In the middle of a call
some free chunks are held: taken out of their bins, or not yet put into one.
-/

namespace TfDml.BfcAllocator

open Lib List
open Function

/-- A chunk that is not held: in use, with room for what was asked for, or in its bin. -/
def Chunk.Settled (c : Chunk) : Prop :=
  c.inUse = true ∧ c.binNum = none ∧ c.requestedSize ≤ c.size ∨
    c.inUse = false ∧ c.binNum = some (binNumForSize c.size)

/-- The bins hold the chunks that carry their number, in order. -/
structure Usage (s : State) (live : ChunkHandle → Prop) (held : List ChunkHandle) : Prop where
  bins : ∀ b h, h ∈ s.bins b ↔ live h ∧ (s.chunks h).binNum = some b
  sorted : ∀ b, (s.bins b).Pairwise fun x y => chunkLess s.chunks x y = true
  settled : ∀ h, live h → h ∉ held → (s.chunks h).Settled
  free : ∀ h ∈ held, live h ∧ (s.chunks h).inUse = false ∧ (s.chunks h).binNum = none
  nodup : held.Nodup
  fresh : ∀ h, (s.chunks h).freedAtCount = 0
  numbered : 1 ≤ s.nextAllocationId

def State.live (s : State) (l : Layout) : ChunkHandle → Prop := Live (extents s.regions) l.chain

/-- The ranges of the chunks in use, with the size that was asked for. -/
def Used (s : State) (live : ChunkHandle → Prop) : Set (Nat × Nat) :=
  { a | ∃ h, live h ∧ (s.chunks h).inUse = true ∧ (s.chunks h).ptr = a.1 ∧
    (s.chunks h).requestedSize = a.2 }

structure Invariant (s : State) (l : Layout) (held : List ChunkHandle) : Prop where
  geometry : Geometry s l
  usage : Usage s (s.live l) held

theorem chunkLess_irrefl (chunks : ChunkHandle → Chunk) (h : ChunkHandle) :
    chunkLess chunks h h = false := by
  simp [chunkLess]

theorem chunkLess_trans (chunks : ChunkHandle → Chunk) (a b c : ChunkHandle)
    (first : chunkLess chunks a b = true) (snd : chunkLess chunks b c = true) :
    chunkLess chunks a c = true := by
  unfold chunkLess at *
  split_ifs at * <;> simp only [decide_eq_true_eq] at * <;> omega

theorem chunkLess_total (chunks : ChunkHandle → Chunk) {a b : ChunkHandle}
    (ne : (chunks a).ptr ≠ (chunks b).ptr) :
    chunkLess chunks a b = true ∨ chunkLess chunks b a = true := by
  unfold chunkLess
  split_ifs <;> simp only [decide_eq_true_eq] at * <;> omega

theorem chunkLess_congr {chunks chunks' : ChunkHandle → Chunk} {a b : ChunkHandle}
    (first : (chunks' a).size = (chunks a).size ∧ (chunks' a).ptr = (chunks a).ptr)
    (snd : (chunks' b).size = (chunks b).size ∧ (chunks' b).ptr = (chunks b).ptr) :
    chunkLess chunks' a b = chunkLess chunks a b := by
  simp only [chunkLess, first, snd]

/-- Nothing about the use of the chunk changes. -/
structure SameUse (c c' : Chunk) : Prop where
  allocationId : c'.allocationId = c.allocationId
  binNum : c'.binNum = c.binNum
  size : c'.size = c.size
  ptr : c'.ptr = c.ptr
  requestedSize : c'.requestedSize = c.requestedSize

theorem SameUse.refl (c : Chunk) : SameUse c c := ⟨rfl, rfl, rfl, rfl, rfl⟩

theorem SameUse.inUse {c c' : Chunk} (same : SameUse c c') : c'.inUse = c.inUse := by
  unfold Chunk.inUse
  rw [same.allocationId]

theorem SameUse.settled {c c' : Chunk} (same : SameUse c c') (settled : c.Settled) :
    c'.Settled := by
  unfold Chunk.Settled at *
  rwa [same.inUse, same.binNum, same.size, same.requestedSize]

variable {s t : State} {l : Layout} {held : List ChunkHandle}

theorem Usage.nodup_bin {live : ChunkHandle → Prop} (usage : Usage s live held) (b : Nat) :
    (s.bins b).Nodup := by
  refine (usage.sorted b).imp ?_
  rintro x y less rfl
  rw [chunkLess_irrefl] at less
  cases less

theorem Usage.count_bin {live : ChunkHandle → Prop} (usage : Usage s live held)
    {h : ChunkHandle} (alive : live h) (notHeld : h ∉ held) (b : Nat) : (s.bins b).count h =
      if (s.chunks h).inUse = false ∧ b = binNumForSize (s.chunks h).size then 1 else 0 := by
  rw [(usage.nodup_bin b).count]
  refine if_congr ?_ rfl rfl
  rw [usage.bins]
  rcases usage.settled h alive notHeld with ⟨inUse, none, -⟩ | ⟨free, number⟩
  · simp [inUse, none]
  · simp [free, number, alive, eq_comm]

theorem Usage.transport {live live' : ChunkHandle → Prop} {held' : List ChunkHandle}
    (usage : Usage s live held) (bins : t.bins = s.bins)
    (next : t.nextAllocationId = s.nextAllocationId)
    (kept : ∀ k, live k → k ∉ held → live' k ∧ k ∉ held' ∧ SameUse (s.chunks k) (t.chunks k))
    (old : ∀ k, live' k → k ∉ held' → live k ∧ k ∉ held)
    (free : ∀ k ∈ held', live' k ∧ (t.chunks k).inUse = false ∧ (t.chunks k).binNum = none)
    (nodup : held'.Nodup) (fresh : ∀ k, (t.chunks k).freedAtCount = 0) :
    Usage t live' held' ∧ Used t live' = Used s live := by
  have binned : ∀ b, ∀ h ∈ s.bins b, live h ∧ h ∉ held := by
    intro b h mem
    obtain ⟨alive, number⟩ := (usage.bins b h).mp mem
    refine ⟨alive, fun inHeld => ?_⟩
    rw [(usage.free h inHeld).2.2] at number
    cases number
  refine ⟨⟨?_, ?_, ?_, free, nodup, fresh, next ▸ usage.numbered⟩, ?_⟩
  · intro b h
    rw [bins, usage.bins]
    constructor
    · rintro ⟨alive, number⟩
      obtain ⟨-, away⟩ := binned b h ((usage.bins b h).mpr ⟨alive, number⟩)
      obtain ⟨alive', -, same⟩ := kept h alive away
      exact ⟨alive', same.binNum.trans number⟩
    · rintro ⟨alive, number⟩
      have away : h ∉ held' := fun inHeld => by
        rw [(free h inHeld).2.2] at number
        cases number
      obtain ⟨alive', away'⟩ := old h alive away
      obtain ⟨-, -, same⟩ := kept h alive' away'
      exact ⟨alive', same.binNum.symm.trans number⟩
  · intro b
    rw [bins]
    refine List.Pairwise.imp_of_mem ?_ (usage.sorted b)
    intro x y first snd less
    obtain ⟨alive, away⟩ := binned b x first
    obtain ⟨alive', away'⟩ := binned b y snd
    have sameX := (kept x alive away).2.2
    have sameY := (kept y alive' away').2.2
    rw [chunkLess_congr ⟨sameX.size, sameX.ptr⟩ ⟨sameY.size, sameY.ptr⟩]
    exact less
  · intro h alive away
    obtain ⟨alive', away'⟩ := old h alive away
    exact (kept h alive' away').2.2.settled (usage.settled h alive' away')
  · ext a
    constructor
    · rintro ⟨h, alive, inUse, ptr, size⟩
      have away : h ∉ held' := fun inHeld => by
        rw [(free h inHeld).2.1] at inUse
        cases inUse
      obtain ⟨alive', away'⟩ := old h alive away
      obtain ⟨-, -, same⟩ := kept h alive' away'
      exact ⟨h, alive', same.inUse.symm.trans inUse, same.ptr.symm.trans ptr,
        same.requestedSize.symm.trans size⟩
    · rintro ⟨h, alive, inUse, ptr, size⟩
      have away : h ∉ held := fun inHeld => by
        rw [(usage.free h inHeld).2.1] at inUse
        cases inUse
      obtain ⟨alive', -, same⟩ := kept h alive away
      exact ⟨h, alive', same.inUse.trans inUse, same.ptr.trans ptr, same.requestedSize.trans size⟩

structure Frame (s t : State) : Prop where
  heapAllocator : t.heapAllocator = s.heapAllocator
  currRegionAllocationBytes : t.currRegionAllocationBytes = s.currRegionAllocationBytes
  ranges : extents t.regions = extents s.regions

theorem Frame.trans {u : State} (first : Frame s t) (snd : Frame t u) : Frame s u where
  heapAllocator := snd.heapAllocator.trans first.heapAllocator
  currRegionAllocationBytes := snd.currRegionAllocationBytes.trans first.currRegionAllocationBytes
  ranges := snd.ranges.trans first.ranges

structure Rebinned (s t : State) : Prop where
  regions : t.regions = s.regions
  chunksSize : t.chunksSize = s.chunksSize
  freeChunksList : t.freeChunksList = s.freeChunksList
  heapAllocator : t.heapAllocator = s.heapAllocator
  currRegionAllocationBytes : t.currRegionAllocationBytes = s.currRegionAllocationBytes
  chunks : ∀ h, ∃ b, t.chunks h = { s.chunks h with binNum := b }

namespace Rebinned

variable (rebinned : Rebinned s t)
include rebinned

theorem frame : Frame s t where
  heapAllocator := rebinned.heapAllocator
  currRegionAllocationBytes := rebinned.currRegionAllocationBytes
  ranges := by rw [rebinned.regions]

theorem live (l : Layout) : t.live l = s.live l := by
  unfold State.live
  rw [rebinned.regions]

theorem table (h : ChunkHandle) : t.table h = s.table h := by
  obtain ⟨b, same⟩ := rebinned.chunks h
  simp only [State.table, same, Chunk.block]

theorem inUse (h : ChunkHandle) : (t.chunks h).inUse = (s.chunks h).inUse := by
  obtain ⟨b, same⟩ := rebinned.chunks h
  simp only [same, Chunk.inUse]

theorem used (l : Layout) : Used t (t.live l) = Used s (s.live l) := by
  ext a
  simp only [Used, Set.mem_ofPred_eq, rebinned.live, rebinned.inUse]
  refine exists_congr fun h => ?_
  obtain ⟨b, same⟩ := rebinned.chunks h
  simp only [same]

end Rebinned

theorem rebinned_setChunk (s : State) (h : ChunkHandle) (number : Option Nat)
    (bins : Nat → List ChunkHandle) :
    Rebinned s { s.setChunk h { s.chunks h with binNum := number } with bins := bins } where
  regions := rfl
  chunksSize := rfl
  freeChunksList := rfl
  heapAllocator := rfl
  currRegionAllocationBytes := rfl
  chunks := by
    intro k
    by_cases same : k = h
    · exact ⟨number, by simp [State.setChunk, same]⟩
    · exact ⟨(s.chunks k).binNum, by simp [State.setChunk, same]⟩

theorem Invariant.setChunk (inv : Invariant s l held) {h : ChunkHandle} (alive : s.live l h)
    (c : Chunk) (block : c.block = (s.chunks h).block) (zero : c.freedAtCount = 0)
    {bins : Nat → List ChunkHandle}
    (members : ∀ b k, k ∈ bins b ↔ k = h ∧ c.binNum = some b ∨ k ≠ h ∧ k ∈ s.bins b)
    (sorted : ∀ b, (bins b).Pairwise fun x y => chunkLess s.chunks x y = true)
    {id : Int} (numbered : 1 ≤ id) {held' : List ChunkHandle} (nodup : held'.Nodup)
    (others : ∀ k, k ≠ h → (k ∈ held' ↔ k ∈ held))
    (free : h ∈ held' → c.inUse = false ∧ c.binNum = none) (settled : h ∉ held' → c.Settled) :
    Invariant { s.setChunk h c with bins := bins, nextAllocationId := id } l held' := by
  let t : State := { s.setChunk h c with bins := bins, nextAllocationId := id }
  change Invariant t l held'
  have chunkH : t.chunks h = c := by simp [t, State.setChunk]
  have chunkOther : ∀ k, k ≠ h → t.chunks k = s.chunks k := fun k ne => by
    simp [t, State.setChunk, ne]
  have table : ∀ k, t.table k = s.table k := by
    intro k
    by_cases same : k = h
    · rw [same]
      exact (congrArg Chunk.block chunkH).trans block
    · exact congrArg Chunk.block (chunkOther k same)
  have less : ∀ x y, chunkLess t.chunks x y = chunkLess s.chunks x y := by
    intro x y
    have sizes := fun k => congrArg Block.size (table k)
    have ptrs := fun k => congrArg Block.ptr (table k)
    exact chunkLess_congr ⟨sizes x, ptrs x⟩ ⟨sizes y, ptrs y⟩
  refine ⟨?_, ?_, ?_, ?_, ?_, nodup, ?_, numbered⟩
  · refine inv.geometry.transport rfl rfl rfl table fun k spare => ?_
    rw [chunkOther]
    rintro rfl
    exact (inv.geometry.unused k spare).2.1 alive
  · intro b k
    refine (members b k).trans ?_
    by_cases same : k = h
    · subst same
      rw [chunkH]
      exact ⟨fun mem => ⟨alive, (mem.resolve_right fun other => other.1 rfl).2⟩,
        fun mem => Or.inl ⟨rfl, mem.2⟩⟩
    · rw [chunkOther k same, inv.usage.bins]
      simp only [same, false_and, false_or, ne_eq, not_false_eq_true, true_and]
      rfl
  · intro b
    simp only [less]
    exact sorted b
  · intro k aliveK notHeld
    by_cases same : k = h
    · rw [same, chunkH]
      exact settled (same ▸ notHeld)
    · rw [chunkOther k same]
      exact inv.usage.settled k aliveK fun inHeld => notHeld ((others k same).mpr inHeld)
  · intro k inHeld
    by_cases same : k = h
    · rw [same, chunkH]
      exact ⟨alive, free (same ▸ inHeld)⟩
    · rw [chunkOther k same]
      exact inv.usage.free k ((others k same).mp inHeld)
  · intro k
    by_cases same : k = h
    · rw [same, chunkH, zero]
    · rw [chunkOther k same, inv.usage.fresh]

theorem Invariant.insertFree {h : ChunkHandle} (inv : Invariant s l (h :: held)) :
    ∃ t, insertFreeChunkIntoBin s h = some t ∧ Invariant t l held ∧ Rebinned s t := by
  obtain ⟨alive, unused, unbinned⟩ := inv.usage.free h mem_cons_self
  obtain ⟨away, nodup⟩ := nodup_cons.mp inv.usage.nodup
  let b := binNumForSize (s.chunks h).size
  let bins := update s.bins b (OrderedSet.insert (chunkLess s.chunks) h (s.bins b))
  have apart : ∀ y ∈ s.bins b, chunkLess s.chunks h y = true ∨ chunkLess s.chunks y h = true := by
    intro y mem
    obtain ⟨aliveY, number⟩ := (inv.usage.bins b y).mp mem
    refine chunkLess_total s.chunks fun same => ?_
    obtain rfl := inv.geometry.ptr_inj alive aliveY same
    rw [unbinned] at number
    cases number
  have notBinned : ∀ b', h ∉ s.bins b' := by
    intro b' mem
    have number := ((inv.usage.bins b' h).mp mem).2
    rw [unbinned] at number
    cases number
  refine ⟨{ s.setChunk h { s.chunks h with binNum := some b } with bins := bins }, ?_,
    inv.setChunk alive { s.chunks h with binNum := some b } rfl (inv.usage.fresh h) ?_ ?_
      inv.usage.numbered nodup ?_
      (fun inHeld => absurd inHeld away) (fun _ => Or.inr ⟨unused, rfl⟩),
    rebinned_setChunk s h (some b) bins⟩
  · simp only [insertFreeChunkIntoBin, unused, unbinned, Option.isSome_none, Bool.or_self,
      Bool.false_eq_true, if_false]
    rfl
  · intro b' k
    by_cases sameBin : b' = b
    · subst sameBin
      simp only [bins, update_self, OrderedSet.mem_insert apart]
      grind
    · simp only [bins, update_of_ne sameBin]
      grind
  · intro b'
    by_cases sameBin : b' = b
    · subst sameBin
      simp only [bins, update_self]
      exact OrderedSet.sorted_insert (chunkLess_trans s.chunks) apart (inv.usage.sorted _)
    · simp only [bins, update_of_ne sameBin]
      exact inv.usage.sorted b'
  · intro k ne
    simp [ne]

theorem Invariant.takeOut (inv : Invariant s l held) {h : ChunkHandle} {b : Nat}
    (mem : h ∈ s.bins b) : Invariant
      { s.setChunk h { s.chunks h with binNum := none } with
        bins := update s.bins b ((s.bins b).erase h) } l (h :: held) := by
  obtain ⟨alive, number⟩ := (inv.usage.bins b h).mp mem
  have notHeld : h ∉ held := fun inHeld => by
    rw [(inv.usage.free h inHeld).2.2] at number
    cases number
  have unused : (s.chunks h).inUse = false := by
    rcases inv.usage.settled h alive notHeld with ⟨-, none, -⟩ | ⟨free, -⟩
    · rw [none] at number
      cases number
    · exact free
  have ownBin : ∀ b', h ∈ s.bins b' → b' = b := by
    intro b' also
    have number' := ((inv.usage.bins b' h).mp also).2
    rw [number] at number'
    exact (Option.some.inj number').symm
  refine inv.setChunk alive { s.chunks h with binNum := none } rfl (inv.usage.fresh h) ?_ ?_
    inv.usage.numbered (nodup_cons.mpr ⟨notHeld, inv.usage.nodup⟩) ?_ (fun _ => ⟨unused, rfl⟩)
    (fun away => absurd mem_cons_self away)
  · intro b' k
    by_cases sameBin : b' = b
    · subst sameBin
      rw [update_self, (inv.usage.nodup_bin b').mem_erase_iff]
      simp
    · rw [update_of_ne sameBin]
      grind
  · intro b'
    by_cases sameBin : b' = b
    · subst sameBin
      rw [update_self]
      exact (inv.usage.sorted b').sublist erase_sublist
    · rw [update_of_ne sameBin]
      exact inv.usage.sorted b'
  · intro k ne
    simp [ne]

theorem Invariant.removeFree (inv : Invariant s l held) {h : ChunkHandle} (alive : s.live l h)
    (free : (s.chunks h).inUse = false) (notHeld : h ∉ held) :
    ∃ t, removeFreeChunkFromBin s h = some t ∧ Invariant t l (h :: held) ∧ Rebinned s t := by
  have number : (s.chunks h).binNum = some (binNumForSize (s.chunks h).size) := by
    rcases inv.usage.settled h alive notHeld with ⟨inUse, -⟩ | ⟨-, number⟩
    · rw [free] at inUse
      cases inUse
    · exact number
  have mem := (inv.usage.bins _ h).mpr ⟨alive, number⟩
  have erased := OrderedSet.erase_eq (chunkLess_irrefl s.chunks) (inv.usage.sorted _) mem
  refine ⟨_, ?_, inv.takeOut mem, rebinned_setChunk s h none _⟩
  simp [removeFreeChunkFromBin, free, number, erased]

theorem Invariant.removeFreeIter (inv : Invariant s l held) {h : ChunkHandle} {b : Nat}
    (mem : h ∈ s.bins b) :
    ∃ t, removeFreeChunkIterFromBin s b h = some t ∧ Invariant t l (h :: held) ∧ Rebinned s t := by
  have taken := inv.takeOut mem
  have rebinned := rebinned_setChunk s h none (update s.bins b ((s.bins b).erase h))
  have unused := (taken.usage.free h mem_cons_self).2.1
  rw [rebinned.inUse] at unused
  refine ⟨_, ?_, taken, rebinned⟩
  simp [removeFreeChunkIterFromBin, unused, ((inv.usage.bins b h).mp mem).2]

theorem setPrev_apply (chunks : ChunkHandle → Chunk) (h : Option ChunkHandle)
    (prev k : ChunkHandle) :
    setPrev chunks h prev k = if k ∈ h then { chunks k with prev := some prev } else chunks k := by
  cases h with
  | none => simp [setPrev]
  | some h =>
    by_cases same : k = h
    · simp [setPrev, same]
    · have other : h ≠ k := fun eq => same eq.symm
      simp [setPrev, same, other]

theorem relinked_setPrev {a b prev : ChunkHandle} {behind : List ChunkHandle}
    {edited : ChunkHandle → Chunk}
    (agree : ∀ k, k ≠ a → k ≠ b → edited k = s.chunks k) (headA : a ∉ behind.head?)
    (headB : b ∉ behind.head?)
    (chunks : ∀ k, k ≠ a → k ≠ b → t.chunks k = setPrev edited behind.head? prev k) :
    Relinked s t a b behind prev where
  neighbour := by
    intro k head
    have notA : k ≠ a := fun same => headA (same ▸ head)
    have notB : k ≠ b := fun same => headB (same ▸ head)
    rw [chunks k notA notB, setPrev_apply, if_pos head, agree k notA notB]
  kept := by
    intro k notA notB away
    rw [chunks k notA notB, setPrev_apply, if_neg away, agree k notA notB]

theorem Relinked.sameUse {a b prev : ChunkHandle} {behind : List ChunkHandle}
    (relinked : Relinked s t a b behind prev) {k : ChunkHandle} (notA : k ≠ a) (notB : k ≠ b) :
    SameUse (s.chunks k) (t.chunks k) := by
  obtain ⟨p, same⟩ := relinked.same notA notB
  rw [same]
  exact ⟨rfl, rfl, rfl, rfl, rfl⟩

theorem Relinked.fresh {a b prev : ChunkHandle} {behind : List ChunkHandle}
    (relinked : Relinked s t a b behind prev) {k : ChunkHandle} (notA : k ≠ a) (notB : k ≠ b)
    (zero : (s.chunks k).freedAtCount = 0) : (t.chunks k).freedAtCount = 0 := by
  obtain ⟨p, same⟩ := relinked.same notA notB
  rw [same]
  exact zero

/-- What `Merge` does to the chunks and to the handles of the regions. -/
structure Merged (s t : State) (h1 h2 : ChunkHandle) (behind : List ChunkHandle) : Prop where
  first : t.chunks h1 =
    { s.chunks h1 with
      next := (s.chunks h2).next
      size := (s.chunks h1).size + (s.chunks h2).size
      freedAtCount := max (s.chunks h1).freedAtCount (s.chunks h2).freedAtCount }
  second : t.chunks h2 =
    { s.chunks h2 with allocationId := -1, binNum := none, next := s.freeChunksList }
  relinked : Relinked s t h1 h2 behind h1
  ranges : extents t.regions = extents s.regions
  found : ∀ q, getHandle t.regions q =
    if q / 256 = (s.chunks h2).ptr / 256 then none else getHandle s.regions q
  rest : t = { s with regions := t.regions, chunks := t.chunks, freeChunksList := some h2 }

theorem Geometry.merge_spec (geo : Geometry s l) {e : Nat × Nat} (region : e ∈ extents s.regions)
    {h1 h2 : ChunkHandle} {xs ys : List ChunkHandle} (chain : l.chain e.1 = xs ++ h1 :: h2 :: ys)
    (unused1 : (s.chunks h1).inUse = false) (unused2 : (s.chunks h2).inUse = false) :
    ∃ t, BfcAllocator.merge s h1 h2 = some t ∧ Merged s t h1 h2 ys := by
  have split : l.chain e.1 = (xs ++ [h1]) ++ h2 :: ys := by simp [chain]
  obtain ⟨prev, next⟩ := geo.links region split
  have prev' : (s.chunks h2).prev = some h1 := by simpa using prev
  have nodup : (xs ++ h1 :: h2 :: ys).Nodup := chain ▸ (geo.tiles e region).nodup
  have distinct : h1 ≠ h2 ∧ h1 ∉ ys ∧ h2 ∉ ys := by
    simp only [nodup_append, nodup_cons, mem_cons] at nodup
    grind
  obtain ⟨ne, behind1, behind2⟩ := distinct
  have head1 : h1 ∉ ys.head? := fun head => behind1 (mem_of_mem_head? head)
  have head2 : h2 ∉ ys.head? := fun head => behind2 (mem_of_mem_head? head)
  have lt := geo.bounds region (h := h2) (by simp [chain])
  obtain ⟨regions, set, ranges, got⟩ := setHandle_spec geo.regions region
    (p := (s.chunks h2).ptr) (by omega) none
  let edited := update s.chunks h1
    { s.chunks h1 with
      next := (s.chunks h2).next
      size := (s.chunks h1).size + (s.chunks h2).size
      freedAtCount := max (s.chunks h1).freedAtCount (s.chunks h2).freedAtCount }
  let chunks := setPrev edited (s.chunks h2).next h1
  let t := deallocateChunk { s with regions := regions, chunks := chunks } h2
  have chunk2 : chunks h2 = s.chunks h2 := by
    simp [chunks, edited, setPrev_apply, next, head2, Ne.symm ne]
  have others : ∀ k, k ≠ h2 → t.chunks k = setPrev edited ys.head? h1 k := by
    intro k notSecond
    simp [t, deallocateChunk, State.setChunk, notSecond, chunks, next]
  refine ⟨t, ?_, ?_⟩
  · have checks : ((s.chunks h1).inUse || (s.chunks h2).inUse ||
        decide ((s.chunks h2).prev ≠ some h1)) = false := by
      simp [unused1, unused2, prev']
    have erased : setHandle (chunks h2).ptr none s.regions = some regions := chunk2 ▸ set
    unfold BfcAllocator.merge
    simp only [checks, Bool.false_eq_true, if_false, deleteChunk]
    exact congrArg (Option.map _) erased
  · refine ⟨?_, ?_, ?_, ranges, got, rfl⟩
    · rw [others h1 ne, setPrev_apply, if_neg head1]
      exact update_self ..
    · simp [t, deallocateChunk, State.setChunk, chunk2]
    · refine relinked_setPrev ?_ head1 head2 fun k _ notSecond => others k notSecond
      intro k notFirst _
      exact update_of_ne notFirst _ _

theorem Invariant.merge (inv : Invariant s l held) {e : Nat × Nat}
    (region : e ∈ extents s.regions) {h1 h2 : ChunkHandle} {xs ys : List ChunkHandle}
    (chain : l.chain e.1 = xs ++ h1 :: h2 :: ys) (held1 : h1 ∈ held) (held2 : h2 ∈ held)
    {l' : Layout} (layout : l' = ⟨update l.chain e.1 (xs ++ h1 :: ys), h2 :: l.spare⟩) :
    ∃ t, merge s h1 h2 = some t ∧ Invariant t l' (held.erase h2) ∧
      Used t (t.live l') = Used s (s.live l) ∧ Frame s t ∧
      ∀ k, k ≠ h2 → (t.chunks k).inUse = (s.chunks k).inUse := by
  have geo := inv.geometry
  obtain ⟨-, unused1, unbinned1⟩ := inv.usage.free h1 held1
  obtain ⟨-, unused2, -⟩ := inv.usage.free h2 held2
  obtain ⟨t, done, merged⟩ := geo.merge_spec region chain unused1 unused2
  have first := merged.first
  have rest := merged.rest
  have inUse : ∀ k, k ≠ h2 → (t.chunks k).inUse = (s.chunks k).inUse := by
    intro k notSecond
    by_cases notFirst : k = h1
    · rw [notFirst, first]
      rfl
    · exact (merged.relinked.sameUse notFirst notSecond).inUse
  obtain ⟨geometry, live⟩ := geo.merge region chain (t := t) merged.ranges (by rw [rest])
    merged.found (congrArg Chunk.block first) merged.relinked (by simp [merged.second])
    (by rw [rest])
  rw [← layout] at geometry
  have live : ∀ k, t.live l' k ↔ s.live l k ∧ k ≠ h2 := by
    rw [layout]
    exact live
  have nodupHeld := inv.usage.nodup
  have transported : Usage t (t.live l') (held.erase h2) ∧
      Used t (t.live l') = Used s (s.live l) := by
    refine inv.usage.transport (by rw [rest]) (by rw [rest]) ?_ ?_ ?_ (nodupHeld.erase h2) ?_
    · intro k alive notHeld
      have notFirst : k ≠ h1 := fun same => notHeld (same ▸ held1)
      have notSecond : k ≠ h2 := fun same => notHeld (same ▸ held2)
      exact ⟨(live k).mpr ⟨alive, notSecond⟩, fun inHeld => notHeld (mem_of_mem_erase inHeld),
        merged.relinked.sameUse notFirst notSecond⟩
    · intro k alive notHeld
      obtain ⟨old, notSecond⟩ := (live k).mp alive
      exact ⟨old, fun inHeld => notHeld ((mem_erase_of_ne notSecond).mpr inHeld)⟩
    · intro k inHeld
      obtain ⟨notSecond, old⟩ := nodupHeld.mem_erase_iff.mp inHeld
      obtain ⟨alive, unused, unbinned⟩ := inv.usage.free k old
      refine ⟨(live k).mpr ⟨alive, notSecond⟩, (inUse k notSecond).trans unused, ?_⟩
      by_cases notFirst : k = h1
      · rw [notFirst, first]
        exact unbinned1
      · rw [(merged.relinked.sameUse notFirst notSecond).binNum]
        exact unbinned
    · intro k
      have fresh := inv.usage.fresh
      by_cases notSecond : k = h2
      · rw [notSecond, merged.second]
        exact fresh h2
      · by_cases notFirst : k = h1
        · rw [notFirst, first]
          simp [fresh]
        · exact merged.relinked.fresh notFirst notSecond (fresh k)
  obtain ⟨usage, used⟩ := transported
  exact ⟨t, done, ⟨geometry, usage⟩, used, ⟨by rw [rest], by rw [rest], merged.ranges⟩, inUse⟩

/-- What `SplitChunk` has done before it puts the new chunk into a bin. -/
structure Divided (s t : State) (h new : ChunkHandle) (n : Nat) (behind : List ChunkHandle) :
    Prop where
  first : t.chunks h = { s.chunks h with size := n, next := some new }
  second : t.chunks new =
    { s.chunks new with
      ptr := (s.chunks h).ptr + n
      size := (s.chunks h).size - n
      allocationId := -1
      freedAtCount := (s.chunks h).freedAtCount
      prev := some h
      next := (s.chunks h).next }
  relinked : Relinked s t h new behind new
  ranges : extents t.regions = extents s.regions
  found : ∀ q, getHandle t.regions q =
    if q / 256 = ((s.chunks h).ptr + n) / 256 then some new else getHandle s.regions q
  rest : t = { s with regions := t.regions, chunks := t.chunks }

theorem Geometry.divide_spec (geo : Geometry s l) {e : Nat × Nat}
    (region : e ∈ extents s.regions) {h new : ChunkHandle} {xs ys : List ChunkHandle}
    (chain : l.chain e.1 = xs ++ h :: ys)
    (fresh : ¬ Live (extents s.regions) l.chain new) {n : Nat} (less : n < (s.chunks h).size)
    (free : ((s.chunks h).inUse || (s.chunks h).binNum.isSome) = false) {s0 : State}
    (live : BfcAllocator.allocateChunk s0 = (new, s)) :
    ∃ u, splitChunk s0 h n = insertFreeChunkIntoBin u new ∧ Divided s u h new n ys := by
  obtain ⟨-, next⟩ := geo.links region chain
  have lt := geo.bounds region (h := h) (by simp [chain])
  have nodup : (xs ++ h :: ys).Nodup := chain ▸ (geo.tiles e region).nodup
  have headH : h ∉ ys.head? := fun head =>
    (nodup_cons.mp nodup.of_append_right).1 (mem_of_mem_head? head)
  have headNew : new ∉ ys.head? := fun head =>
    fresh ⟨e, region, by simp [chain, mem_of_mem_head? head]⟩
  have ne : h ≠ new := by
    rintro rfl
    exact fresh ⟨e, region, by simp [chain]⟩
  obtain ⟨regions, set, ranges, got⟩ := setHandle_spec geo.regions region
    (p := (s.chunks h).ptr + n) (by omega) (some new)
  let c := s.chunks h
  let newChunk : Chunk :=
    { s.chunks new with
      ptr := c.ptr + n
      size := c.size - n
      allocationId := -1
      freedAtCount := c.freedAtCount
      prev := some h
      next := c.next }
  let edited := update (update s.chunks new newChunk) h
    { c with size := n, next := some new }
  let u : State := { s with regions := regions, chunks := setPrev edited c.next new }
  have chunks : ∀ k, u.chunks k = setPrev edited ys.head? new k := by
    intro k
    rw [← next]
  refine ⟨u, ?_, ?_⟩
  · simp only [splitChunk, live, free, Bool.false_eq_true, if_false, set, Option.bind_some]
    rfl
  · refine ⟨?_, ?_, ?_, ranges, got, rfl⟩
    · rw [chunks, setPrev_apply, if_neg headH]
      exact update_self ..
    · rw [chunks, setPrev_apply, if_neg headNew]
      exact (update_of_ne (Ne.symm ne) ..).trans (update_self ..)
    · refine relinked_setPrev ?_ headH headNew fun k _ _ => chunks k
      intro k notH notNew
      exact (update_of_ne notH ..).trans (update_of_ne notNew ..)

theorem Invariant.split (inv : Invariant s l held) {e : Nat × Nat}
    (region : e ∈ extents s.regions) {h : ChunkHandle} {xs ys : List ChunkHandle}
    (chain : l.chain e.1 = xs ++ h :: ys) (inHeld : h ∈ held) {n : Nat} (pos : 0 < n)
    (multiple : 256 ∣ n) (less : n < (s.chunks h).size) :
    ∃ t l' new, splitChunk s h n = some t ∧ Invariant t l' held ∧
      l'.chain = update l.chain e.1 (xs ++ h :: new :: ys) ∧
      Used t (t.live l') = Used s (s.live l) ∧ Frame s t ∧ (t.chunks h).size = n ∧
      (t.chunks h).ptr = (s.chunks h).ptr ∧
      ∀ k, s.live l k → (t.chunks k).inUse = (s.chunks k).inUse := by
  obtain ⟨alive, unused, unbinned⟩ := inv.usage.free h inHeld
  cases allocated : allocateChunk s with
  | mk new s1 =>
    obtain ⟨spare, geo, fresh, unspared, room, made, others, rest1⟩ :=
      inv.geometry.allocateChunk allocated
    have regions1 : s1.regions = s.regions := by rw [rest1]
    have region1 : e ∈ extents s1.regions := regions1 ▸ region
    have notNew : ∀ k, s.live l k → k ≠ new := by
      rintro k live rfl
      rw [regions1] at fresh
      exact fresh live
    have sameH : s1.chunks h = s.chunks h := others h (notNew h alive)
    obtain ⟨u, divided, parts⟩ := geo.divide_spec region1 chain fresh (sameH ▸ less)
      (by simp [sameH, unused, unbinned]) allocated
    have first := parts.first
    rw [sameH] at first
    have sameUse : ∀ k, k ≠ h → s.live l k → SameUse (s.chunks k) (u.chunks k) := by
      intro k notH live
      rw [← others k (notNew k live)]
      exact parts.relinked.sameUse notH (notNew k live)
    have freeH : (u.chunks h).inUse = false ∧ (u.chunks h).binNum = none := by
      rw [first]
      exact ⟨unused, unbinned⟩
    have freeNew : (u.chunks new).inUse = false ∧ (u.chunks new).binNum = none := by
      rw [parts.second]
      refine ⟨rfl, ?_⟩
      rcases made with default | ⟨same, spared⟩
      · simp [default]
      · simp [same, (inv.geometry.unused new spared).2.2]
    obtain ⟨geometry, live⟩ := geo.split region1 chain fresh unspared room pos multiple
      (sameH ▸ less) (t := u) parts.ranges (by rw [parts.rest]) parts.found
      (congrArg Chunk.block parts.first) (congrArg Chunk.block parts.second) parts.relinked
      (by rw [parts.rest])
    let l' : Layout := ⟨update l.chain e.1 (xs ++ h :: new :: ys), spare⟩
    have live : ∀ k, u.live l' k ↔ s.live l k ∨ k = new := by
      intro k
      have stated := live k
      rw [regions1] at stated
      exact stated
    have transported : Usage u (u.live l') (new :: held) ∧
        Used u (u.live l') = Used s (s.live l) := by
      refine inv.usage.transport (by rw [parts.rest, rest1]) (by rw [parts.rest, rest1])
        ?_ ?_ ?_ ?_ ?_
      · intro k old notHeld
        have notH : k ≠ h := fun same => notHeld (same ▸ inHeld)
        refine ⟨(live k).mpr (Or.inl old), ?_, sameUse k notH old⟩
        rw [mem_cons, not_or]
        exact ⟨notNew k old, notHeld⟩
      · intro k alive' notHeld
        rw [mem_cons, not_or] at notHeld
        exact ⟨((live k).mp alive').resolve_right notHeld.1, notHeld.2⟩
      · intro k mem
        rcases mem_cons.mp mem with rfl | old
        · exact ⟨(live k).mpr (Or.inr rfl), freeNew⟩
        · obtain ⟨aliveK, unusedK, unbinnedK⟩ := inv.usage.free k old
          refine ⟨(live k).mpr (Or.inl aliveK), ?_⟩
          by_cases isH : k = h
          · exact isH ▸ freeH
          · have same := sameUse k isH aliveK
            exact ⟨same.inUse.trans unusedK, same.binNum.trans unbinnedK⟩
      · refine nodup_cons.mpr ⟨fun mem => ?_, inv.usage.nodup⟩
        exact notNew new (inv.usage.free new mem).1 rfl
      · intro k
        by_cases isNew : k = new
        · rw [isNew, parts.second, sameH]
          exact inv.usage.fresh h
        · by_cases isH : k = h
          · rw [isH, first]
            exact inv.usage.fresh h
          · refine parts.relinked.fresh isH isNew ?_
            rw [others k isNew]
            exact inv.usage.fresh k
    obtain ⟨usage, used⟩ := transported
    have held2 : Invariant u l' (new :: held) := ⟨geometry, usage⟩
    obtain ⟨t, ins, final, rebinned⟩ := held2.insertFree
    have frame : Frame s u :=
      ⟨by rw [parts.rest, rest1], by rw [parts.rest, rest1], regions1 ▸ parts.ranges⟩
    refine ⟨t, l', new, divided.trans ins, final, rfl, (rebinned.used l').trans used,
      frame.trans rebinned.frame, ?_, ?_, ?_⟩
    · exact (congrArg Block.size (rebinned.table h)).trans (congrArg Chunk.size first)
    · refine (congrArg Block.ptr (rebinned.table h)).trans ?_
      simp only [State.table, Chunk.block, first]
    · intro k aliveK
      rw [rebinned.inUse]
      by_cases isH : k = h
      · rw [isH, freeH.1, unused]
      · exact (sameUse k isH aliveK).inUse

theorem Invariant.setUse (inv : Invariant s l held) {h : ChunkHandle} (alive : s.live l h)
    {c : Chunk} (block : c.block = (s.chunks h).block) (number : c.binNum = (s.chunks h).binNum)
    (zero : c.freedAtCount = 0) {id : Int} (numbered : 1 ≤ id) {held' : List ChunkHandle}
    (nodup : held'.Nodup) (others : ∀ k, k ≠ h → (k ∈ held' ↔ k ∈ held))
    (free : h ∈ held' → c.inUse = false ∧ c.binNum = none) (settled : h ∉ held' → c.Settled) :
    Invariant { s.setChunk h c with nextAllocationId := id } l held' ∧
      ∀ a, a ∈ Used { s.setChunk h c with nextAllocationId := id } (s.live l) ↔
        a ∈ Used s (s.live l) ∧ a.1 ≠ (s.chunks h).ptr ∨
          c.inUse = true ∧ a = ((s.chunks h).ptr, c.requestedSize) := by
  have chunkH : (s.setChunk h c).chunks h = c := by simp [State.setChunk]
  have chunkOther : ∀ k, k ≠ h → (s.setChunk h c).chunks k = s.chunks k := fun k ne => by
    simp [State.setChunk, ne]
  refine ⟨inv.setChunk alive c block zero ?_ inv.usage.sorted numbered nodup others free settled, ?_⟩
  · intro b k
    by_cases same : k = h
    · rw [same, inv.usage.bins, number]
      simp [alive]
    · simp [same]
  · intro a
    have ptrH : c.ptr = (s.chunks h).ptr := congrArg Block.ptr block
    constructor
    · rintro ⟨k, aliveK, inUse, ptr, size⟩
      by_cases same : k = h
      · rw [same, chunkH] at inUse ptr size
        exact Or.inr ⟨inUse, Prod.ext (ptr.symm.trans ptrH) size.symm⟩
      · rw [chunkOther k same] at inUse ptr size
        refine Or.inl ⟨⟨k, aliveK, inUse, ptr, size⟩, ?_⟩
        intro here
        exact same (inv.geometry.ptr_inj aliveK alive (ptr.trans here))
    · rintro (⟨⟨k, aliveK, inUse, ptr, size⟩, away⟩ | ⟨inUse, rfl⟩)
      · have same : k ≠ h := by
          rintro rfl
          exact away ptr.symm
        exact ⟨k, aliveK, by rw [chunkOther k same, inUse], by rw [chunkOther k same, ptr],
          by rw [chunkOther k same, size]⟩
      · exact ⟨h, alive, by rw [chunkH, inUse], by rw [chunkH, ptrH], by rw [chunkH]⟩

end TfDml.BfcAllocator
