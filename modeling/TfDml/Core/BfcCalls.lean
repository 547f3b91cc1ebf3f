import TfDml.Core.BfcBins

/-! # The calls of the best-fit allocator

Freeing a chunk merges it with its free neighbours, and allocating one takes it out
of its bin and splits it. Between the calls no two neighbours are free.
-/

namespace TfDml.BfcAllocator

open Lib List
open Function

def Spaced (s : State) (handles : List ChunkHandle) : Prop :=
  handles.IsChain fun a b => (s.chunks a).inUse = true ∨ (s.chunks b).inUse = true

theorem Spaced.mono {s t : State} {handles : List ChunkHandle} (spaced : Spaced s handles)
    (kept : ∀ k ∈ handles, (s.chunks k).inUse = true → (t.chunks k).inUse = true) :
    Spaced t handles := by
  refine List.IsChain.imp_of_mem_imp ?_ spaced
  intro a b first snd
  exact Or.imp (kept a first) (kept b snd)

variable {xs ys : List ChunkHandle}

theorem Spaced.join {s : State} (front : Spaced s xs) (back : Spaced s ys)
    (pre : ∀ k ∈ xs.getLast?, (s.chunks k).inUse = true)
    (behind : ∀ k ∈ ys.head?, (s.chunks k).inUse = true) (h : ChunkHandle) :
    Spaced s (xs ++ h :: ys) := by
  refine isChain_append.mpr ⟨front, isChain_cons.mpr ⟨?_, back⟩, ?_⟩
  · intro k head
    exact Or.inr (behind k head)
  · intro k last j _
    exact Or.inl (pre k last)

variable {xs' : List ChunkHandle}

theorem Spaced.initial {s : State} (spaced : Spaced s xs) (part : xs' <+: xs) : Spaced s xs' := by
  obtain ⟨rest, rfl⟩ := part
  exact List.IsChain.left_of_append spaced

theorem Spaced.final {s : State} (spaced : Spaced s xs) (part : xs' <:+ xs) : Spaced s xs' := by
  obtain ⟨front, rfl⟩ := part
  exact List.IsChain.right_of_append spaced

variable {s t : State} {l : Layout}

theorem Invariant.mergeable_iff {held : List ChunkHandle} (inv : Invariant s l held)
    (k : ChunkHandle) : s.mergeable k = true ↔ (s.chunks k).inUse = false := by
  simp [State.mergeable, inv.usage.fresh]

/-- A held chunk `h` with the chunks `xs` in front of it and `ys` behind it, after its region
    was edited. -/
structure Coalesced (s t : State) (l l' : Layout) (e : Nat × Nat) (h : ChunkHandle)
    (xs ys : List ChunkHandle) : Prop where
  invariant : Invariant t l' [h]
  chain : l'.chain = update l.chain e.1 (xs ++ h :: ys)
  used : Used t (t.live l') = Used s (s.live l)
  frame : Frame s t
  inUse : ∀ k, t.live l' k → s.live l k ∧ (t.chunks k).inUse = (s.chunks k).inUse

variable {e : Nat × Nat} {h : ChunkHandle}

theorem Coalesced.refl (inv : Invariant s l [h]) (chain : l.chain e.1 = xs ++ h :: ys) :
    Coalesced s s l l e h xs ys where
  invariant := inv
  chain := by rw [← chain, update_eq_self]
  used := rfl
  frame := ⟨rfl, rfl, rfl⟩
  inUse := fun _ live => ⟨live, rfl⟩

theorem Invariant.absorb {n h1 h2 : ChunkHandle} (inv : Invariant s l [h])
    (region : e ∈ extents s.regions) (chain : l.chain e.1 = xs ++ h1 :: h2 :: ys)
    (free : (s.chunks n).inUse = false) (pair : h1 = h ∧ h2 = n ∨ h1 = n ∧ h2 = h) :
    ∃ t l', ((removeFreeChunkFromBin s n).bind fun s => BfcAllocator.merge s h1 h2) = some t ∧
      Coalesced s t l l' e h1 xs ys := by
  have nodup : (xs ++ h1 :: h2 :: ys).Nodup := chain ▸ (inv.geometry.tiles e region).nodup
  have ne : h1 ≠ h2 := by
    have := (nodup_cons.mp nodup.of_append_right).1
    simp only [mem_cons, not_or] at this
    exact this.1
  have away : n ≠ h := by
    rcases pair with ⟨rfl, rfl⟩ | ⟨rfl, rfl⟩
    · exact ne.symm
    · exact ne
  have alive : s.live l n := by
    refine ⟨e, region, ?_⟩
    rcases pair with ⟨-, rfl⟩ | ⟨rfl, -⟩ <;> simp [chain]
  obtain ⟨s1, removed, inv1, rebinned⟩ := inv.removeFree alive free (by simpa using away)
  have both : h1 ∈ [n, h] ∧ h2 ∈ [n, h] ∧ [n, h].erase h2 = [h1] := by
    rcases pair with ⟨rfl, rfl⟩ | ⟨rfl, rfl⟩
    · simp
    · simp [away]
  obtain ⟨t, merged, inv2, used, frame, inUse⟩ :=
    inv1.merge (rebinned.regions ▸ region) chain both.1 both.2.1 rfl
  rw [both.2.2] at inv2
  refine ⟨t, _, by rw [removed, Option.bind_some, merged], inv2, rfl,
    used.trans (rebinned.used l), rebinned.frame.trans frame, ?_⟩
  intro k live
  have notMerged : k ≠ h2 := by
    rintro rfl
    exact (inv2.geometry.unused k mem_cons_self).2.1 live
  refine ⟨?_, by rw [inUse k notMerged, rebinned.inUse]⟩
  have ranges := (rebinned.frame.trans frame).ranges
  simp only [State.live, ranges] at live
  rcases (inv.geometry.live_update region _ k).mp live with mem | ⟨old, -⟩
  · refine ⟨e, region, ?_⟩
    rw [chain]
    simp only [mem_append, mem_cons] at mem ⊢
    tauto
  · exact old

theorem Invariant.coalesceNext (inv : Invariant s l [h]) (region : e ∈ extents s.regions)
    (chain : l.chain e.1 = xs ++ h :: ys) (back : Spaced s ys) :
    ∃ t l' ys', BfcAllocator.coalesceNext s h = some t ∧ Coalesced s t l l' e h xs ys' ∧
      ys' <:+ ys ∧ ∀ k ∈ ys'.head?, (s.chunks k).inUse = true := by
  obtain ⟨-, next⟩ := inv.geometry.links region chain
  unfold BfcAllocator.coalesceNext
  rw [next]
  cases ys with
  | nil => exact ⟨s, l, [], rfl, .refl inv chain, suffix_rfl, by simp⟩
  | cons n rest =>
    cases free : (s.chunks n).inUse with
    | true =>
      have kept : s.mergeable n = false := by simp [State.mergeable, free]
      refine ⟨s, l, n :: rest, by simp [kept], .refl inv chain, suffix_rfl, ?_⟩
      simpa using free
    | false =>
      have merges := (inv.mergeable_iff n).mpr free
      obtain ⟨t, l', done, coalesced⟩ := inv.absorb region chain free (Or.inl ⟨rfl, rfl⟩)
      refine ⟨t, l', rest, by simpa [merges] using done, coalesced, suffix_cons n rest, ?_⟩
      intro k head
      have spaced := (isChain_cons.mp back).1 k head
      rw [free] at spaced
      simpa using spaced

theorem Invariant.coalescePrev (inv : Invariant s l [h]) (region : e ∈ extents s.regions)
    (chain : l.chain e.1 = xs ++ h :: ys) (front : Spaced s xs) :
    ∃ t l' h' xs', BfcAllocator.coalescePrev s h = some (h', t) ∧
      Coalesced s t l l' e h' xs' ys ∧ xs' <+: xs ∧
      ∀ k ∈ xs'.getLast?, (s.chunks k).inUse = true := by
  obtain ⟨prev, -⟩ := inv.geometry.links region chain
  unfold BfcAllocator.coalescePrev
  rw [prev]
  cases xs using List.reverseRecOn with
  | nil => exact ⟨s, l, h, [], rfl, .refl inv chain, prefix_rfl, by simp⟩
  | append_singleton rest p =>
    rw [getLast?_concat]
    cases free : (s.chunks p).inUse with
    | true =>
      have kept : s.mergeable p = false := by simp [State.mergeable, free]
      refine ⟨s, l, h, rest ++ [p], by simp [kept], .refl inv chain, prefix_rfl, ?_⟩
      simpa using free
    | false =>
      have merges := (inv.mergeable_iff p).mpr free
      have chain' : l.chain e.1 = rest ++ p :: h :: ys := by simp [chain]
      obtain ⟨t, l', done, coalesced⟩ := inv.absorb region chain' free (Or.inr ⟨rfl, rfl⟩)
      refine ⟨t, l', p, rest, ?_, coalesced, prefix_append rest [p], ?_⟩
      · simp only [merges, if_true]
        rw [Option.bind_eq_some_iff] at done ⊢
        obtain ⟨s1, removed, merged⟩ := done
        exact ⟨s1, removed, by rw [merged]; rfl⟩
      · intro k last
        have spaced := (isChain_append.mp front).2.2 k last p rfl
        rw [free] at spaced
        simpa using spaced

theorem Invariant.tryToCoalesce (inv : Invariant s l [h]) (region : e ∈ extents s.regions)
    (chain : l.chain e.1 = xs ++ h :: ys) (front : Spaced s xs) (back : Spaced s ys)
    (others : ∀ d ∈ extents s.regions, d ≠ e → Spaced s (l.chain d.1)) :
    ∃ t l' h', tryToCoalesce s h = some (h', t) ∧ Invariant t l' [h'] ∧
      Used t (t.live l') = Used s (s.live l) ∧ Frame s t ∧
      ∀ d ∈ extents t.regions, Spaced t (l'.chain d.1) := by
  obtain ⟨s1, l1, ys', next, first, suffix, behind⟩ := inv.coalesceNext region chain back
  have region1 : e ∈ extents s1.regions := first.frame.ranges.symm ▸ region
  have chain1 : l1.chain e.1 = xs ++ h :: ys' := by rw [first.chain, update_self]
  have same1 : ∀ k, s1.live l1 k → (s1.chunks k).inUse = (s.chunks k).inUse :=
    fun k live => (first.inUse k live).2
  have front1 : Spaced s1 xs := by
    refine front.mono fun k mem inUse => ?_
    rw [same1 k ⟨e, region1, by simp [chain1, mem]⟩, inUse]
  obtain ⟨t, l', h', xs', prev, snd, initial, pre⟩ :=
    first.invariant.coalescePrev region1 chain1 front1
  have whole : l'.chain = update l.chain e.1 (xs' ++ h' :: ys') := by
    rw [snd.chain, first.chain, update_idem]
  have same : ∀ k, t.live l' k → (t.chunks k).inUse = (s.chunks k).inUse := by
    intro k live
    obtain ⟨live1, eq⟩ := snd.inUse k live
    exact eq.trans (same1 k live1)
  have frame := first.frame.trans snd.frame
  refine ⟨t, l', h', ?_, snd.invariant, snd.used.trans first.used, frame, ?_⟩
  · have zero : ¬ 0 < (s.chunks h).freedAtCount := by simp [inv.usage.fresh]
    simp only [BfcAllocator.tryToCoalesce, zero, if_false, next, Option.bind_some, prev]
  · intro d lt
    have live : ∀ k ∈ l'.chain d.1, t.live l' k := fun k mem => ⟨d, lt, mem⟩
    rw [frame.ranges] at lt
    by_cases here : d = e
    · have list : l'.chain d.1 = xs' ++ h' :: ys' := by rw [whole, here, update_self]
      rw [list] at live ⊢
      refine Spaced.join ?_ ?_ ?_ ?_ h'
      · refine (front.initial initial).mono fun k mem inUse => ?_
        rw [same k (live k (by simp [mem])), inUse]
      · refine (back.final suffix).mono fun k mem inUse => ?_
        rw [same k (live k (by simp [mem])), inUse]
      · intro k last
        have mem := mem_of_getLast? last
        rw [(snd.inUse k (live k (by simp [mem]))).2, pre k last]
      · intro k head
        have mem := mem_of_mem_head? head
        rw [same k (live k (by simp [mem])), behind k head]
    · have list : l'.chain d.1 = l.chain d.1 := by
        rw [whole, update_of_ne]
        exact fun eq => here (inv.geometry.region_of_ptr lt region eq)
      rw [list] at live ⊢
      refine (others d lt here).mono fun k mem inUse => ?_
      rw [same k (live k mem), inUse]

/-- Between two calls no chunk is held. The null pointer is in no region. -/
structure Tidy (s : State) (l : Layout) : Prop where
  invariant : Invariant s l []
  spaced : ∀ e ∈ extents s.regions, Spaced s (l.chain e.1)
  nonnull : ∀ e ∈ extents s.regions, 0 < e.1

theorem tidy_init (l : Layout) (none : l.spare = []) : Tidy {} l where
  invariant :=
    { geometry := geometry_init l none
      usage :=
        { bins := by simp [State.live, Live, extents]
          sorted := fun _ => .nil
          settled := by simp [State.live, Live, extents]
          free := by simp
          nodup := .nil
          fresh := fun _ => rfl
          numbered := by simp } }
  spaced := by simp [extents]
  nonnull := by simp [extents]

theorem Tidy.ptr_pos (tidy : Tidy s l) (alive : s.live l h) : 0 < (s.chunks h).ptr := by
  obtain ⟨e, region, mem⟩ := alive
  have lt := tidy.invariant.geometry.bounds region mem
  have := tidy.nonnull e region
  omega

variable {rounded : Nat}

theorem findFit_mem {binNum freedBefore b : Nat}
    (got : findFit s binNum rounded freedBefore = some (b, h)) :
    h ∈ s.bins b ∧ rounded ≤ (s.chunks h).size := by
  obtain ⟨b', -, first⟩ := exists_of_findSome?_eq_some got
  obtain ⟨h', fits, same⟩ := Option.map_eq_some_iff.mp first
  obtain ⟨rfl, rfl⟩ := Prod.mk.inj same
  have ok := find?_some fits
  rw [Bool.and_eq_true, decide_eq_true_eq] at ok
  exact ⟨mem_of_find?_eq_some fits, ok.2⟩

theorem Invariant.useChunk (inv : Invariant s l [h]) (numBytes : Nat)
    (enough : numBytes ≤ (s.chunks h).size) :
    Invariant (BfcAllocator.useChunk s h numBytes).2 l [] ∧
      (∀ a ∈ Used s (s.live l), a.1 ≠ (s.chunks h).ptr) ∧
      Used (BfcAllocator.useChunk s h numBytes).2 (s.live l) =
        insert ((s.chunks h).ptr, numBytes) (Used s (s.live l)) ∧
      ∀ k, ((BfcAllocator.useChunk s h numBytes).2.chunks k).inUse =
        (decide (k = h) || (s.chunks k).inUse) := by
  obtain ⟨alive, unused, unbinned⟩ := inv.usage.free h mem_cons_self
  have numbered := inv.usage.numbered
  let c : Chunk := { s.chunks h with requestedSize := numBytes, allocationId := s.nextAllocationId }
  have inUse : c.inUse = true := by
    simp only [Chunk.inUse, c, decide_eq_true_eq]
    omega
  obtain ⟨next, used⟩ := inv.setUse alive (c := c) rfl rfl (inv.usage.fresh h)
    (show 1 ≤ s.nextAllocationId + 1 by omega) (nodup_nil : ([] : List ChunkHandle).Nodup)
    (by intro k ne; simp [ne]) (by simp) (fun _ => Or.inl ⟨inUse, unbinned, enough⟩)
  have free : ∀ a ∈ Used s (s.live l), a.1 ≠ (s.chunks h).ptr := by
    rintro a ⟨k, aliveK, inUseK, ptr, -⟩ same
    obtain rfl := inv.geometry.ptr_inj aliveK alive (ptr.trans same)
    rw [unused] at inUseK
    cases inUseK
  refine ⟨next, free, ?_, ?_⟩
  · ext a
    refine (used a).trans ?_
    rw [Set.mem_insert_iff]
    constructor
    · rintro (⟨old, -⟩ | ⟨-, new⟩)
      · exact Or.inr old
      · exact Or.inl new
    · rintro (new | old)
      · exact Or.inr ⟨inUse, new⟩
      · exact Or.inl ⟨old, free a old⟩
  · intro k
    by_cases same : k = h
    · subst same
      simpa [BfcAllocator.useChunk, State.setChunk] using inUse
    · simp [BfcAllocator.useChunk, State.setChunk, same]

structure Allocated (s t : State) (l l' : Layout) (ptr numBytes : Nat) : Prop where
  tidy : Tidy t l'
  nonnull : ptr ≠ 0
  free : ∀ a ∈ Used s (s.live l), a.1 ≠ ptr
  used : Used t (t.live l') = insert (ptr, numBytes) (Used s (s.live l))
  frame : Frame s t

variable {numBytes : Nat}

theorem Tidy.useChunk (tidy : Tidy s l) {u : State} {l' : Layout} (inv : Invariant u l' [h])
    (enough : numBytes ≤ (u.chunks h).size) (used : Used u (u.live l') = Used s (s.live l))
    (frame : Frame s u) (spaced : ∀ e ∈ extents s.regions,
      Spaced (BfcAllocator.useChunk u h numBytes).2 (l'.chain e.1)) :
    Allocated s (BfcAllocator.useChunk u h numBytes).2 l l' (u.chunks h).ptr numBytes := by
  obtain ⟨next, free, more, -⟩ := inv.useChunk numBytes enough
  have tidy' : Tidy (BfcAllocator.useChunk u h numBytes).2 l' :=
    ⟨next, fun e region => spaced e (frame.ranges ▸ region),
      fun e region => tidy.nonnull e (frame.ranges ▸ region)⟩
  have alive := (inv.usage.free h mem_cons_self).1
  have pos := tidy'.ptr_pos alive
  have ptr : ((BfcAllocator.useChunk u h numBytes).2.chunks h).ptr = (u.chunks h).ptr := by
    simp [BfcAllocator.useChunk, State.setChunk]
  exact
    { tidy := tidy'
      nonnull := by omega
      free := used ▸ free
      used := used ▸ more
      frame := ⟨frame.heapAllocator, frame.currRegionAllocationBytes, frame.ranges⟩ }

theorem Spaced.split {new : ChunkHandle} (spaced : Spaced s (xs ++ h :: ys))
    (free : (s.chunks h).inUse = false) (first : (t.chunks h).inUse = true)
    (kept : ∀ k ∈ xs ++ h :: ys, (s.chunks k).inUse = true → (t.chunks k).inUse = true) :
    Spaced t (xs ++ h :: new :: ys) := by
  have later := isChain_cons.mp (isChain_append.mp spaced).2.1
  have front : Spaced t xs := by
    refine (spaced.initial (prefix_append xs _)).mono fun k mem => ?_
    exact kept k (by simp [mem])
  have back : Spaced t ys := Spaced.mono later.2 fun k mem => kept k (by simp [mem])
  have behind : ∀ k ∈ ys.head?, (t.chunks k).inUse = true := by
    intro k head
    have inUse : (s.chunks k).inUse = true := (later.1 k head).resolve_left (by simp [free])
    exact kept k (by simp [mem_of_mem_head? head]) inUse
  have joined : Spaced t ([h] ++ new :: ys) :=
    Spaced.join (isChain_singleton h) back (by simpa using first) behind new
  refine isChain_append.mpr ⟨front, joined, ?_⟩
  intro k _ j head
  obtain rfl : h = j := by simpa using head
  exact Or.inr first

theorem Tidy.findChunkPtr (tidy : Tidy s l) (pos : 0 < rounded) (multiple : 256 ∣ rounded)
    (enough : numBytes ≤ rounded) (binNum freedBefore : Nat) :
    findChunkPtr s binNum rounded numBytes freedBefore = some (0, s) ∨
      ∃ ptr t l', findChunkPtr s binNum rounded numBytes freedBefore = some (ptr, t) ∧
        Allocated s t l l' ptr numBytes := by
  unfold BfcAllocator.findChunkPtr
  cases got : findFit s binNum rounded freedBefore with
  | none => exact Or.inl rfl
  | some place =>
    obtain ⟨b, h⟩ := place
    obtain ⟨mem, fits⟩ := findFit_mem got
    obtain ⟨u, removed, inv, rebinned⟩ := tidy.invariant.removeFreeIter mem
    simp only [removed, Option.bind_some]
    obtain ⟨alive, unused, -⟩ := inv.usage.free h mem_cons_self
    have fits' : rounded ≤ (u.chunks h).size := by
      rwa [show (u.chunks h).size = (s.chunks h).size from
        congrArg Block.size (rebinned.table h)]
    right
    split_ifs with splits
    · obtain ⟨e, region, lt⟩ := alive
      obtain ⟨xs, ys, chain⟩ := append_of_mem lt
      have less : rounded < (u.chunks h).size := by
        have : 0 < maxInternalFragmentationBytes := by decide
        omega
      obtain ⟨v, l', new, done, next, layout, used, frame, size, -, inUse⟩ :=
        inv.split region chain mem_cons_self pos multiple less
      refine ⟨_, _, l', by rw [done]; rfl, tidy.useChunk next (by omega)
        (used.trans (rebinned.used l)) (rebinned.frame.trans frame) ?_⟩
      obtain ⟨-, -, -, after⟩ := next.useChunk numBytes (by omega)
      have kept : ∀ d ∈ extents s.regions, ∀ k ∈ l.chain d.1, (s.chunks k).inUse = true →
          ((BfcAllocator.useChunk v h numBytes).2.chunks k).inUse = true := by
        intro d place k part old
        rw [after, inUse k ⟨d, rebinned.frame.ranges.symm ▸ place, part⟩, rebinned.inUse, old]
        simp
      intro d place
      rw [layout]
      have region' : e ∈ extents s.regions := rebinned.frame.ranges ▸ region
      by_cases same : d = e
      · subst same
        rw [update_self]
        have old := tidy.spaced d region'
        rw [chain] at old
        refine old.split ((rebinned.inUse h).symm.trans unused) (by simp [after]) ?_
        rw [← chain]
        exact kept d region'
      · rw [update_of_ne
          fun eq => same (tidy.invariant.geometry.region_of_ptr place region' eq)]
        exact (tidy.spaced d place).mono (kept d place)
    · refine ⟨_, _, l, rfl, tidy.useChunk inv (by omega) (rebinned.used l) rebinned.frame ?_⟩
      obtain ⟨-, -, -, after⟩ := inv.useChunk numBytes (by omega)
      intro d place
      refine (tidy.spaced d place).mono fun k _ old => ?_
      rw [after, rebinned.inUse, old]
      simp

theorem Invariant.release (inv : Invariant s l [h]) (region : e ∈ extents s.regions)
    (chain : l.chain e.1 = xs ++ h :: ys) (front : Spaced s xs) (back : Spaced s ys)
    (others : ∀ d ∈ extents s.regions, d ≠ e → Spaced s (l.chain d.1))
    (nonnull : ∀ d ∈ extents s.regions, 0 < d.1) :
    ∃ t l', ((BfcAllocator.tryToCoalesce s h).bind fun (h, s) => insertFreeChunkIntoBin s h) =
        some t ∧ Tidy t l' ∧ Used t (t.live l') = Used s (s.live l) ∧ Frame s t := by
  obtain ⟨u, l', h', coalesced, inv', used, frame, spaced⟩ :=
    inv.tryToCoalesce region chain front back others
  obtain ⟨t, ins, final, rebinned⟩ := inv'.insertFree
  have frame' := frame.trans rebinned.frame
  refine ⟨t, l', ?_, ⟨final, ?_, ?_⟩, (rebinned.used l').trans used, frame'⟩
  · rw [coalesced]
    exact ins
  · intro d place
    refine (spaced d (rebinned.regions ▸ place)).mono fun k _ old => ?_
    rw [rebinned.inUse, old]
  · intro d place
    exact nonnull d (frame'.ranges ▸ place)

/-- What a call that frees the chunk at `ptr` does to the ranges in use. -/
structure Deallocated (s t : State) (l l' : Layout) (ptr : Nat) : Prop where
  tidy : Tidy t l'
  used : ∀ a, a ∈ Used t (t.live l') ↔ a ∈ Used s (s.live l) ∧ a.1 ≠ ptr
  frame : Frame s t

theorem Tidy.deallocateRawInternal (tidy : Tidy s l) {ptr : Nat}
    (got : getHandle s.regions ptr = some h) (inUse : (s.chunks h).inUse = true) :
    ∃ t l', deallocateRawInternal s ptr = some t ∧ Deallocated s t l l' (s.chunks h).ptr := by
  have inv := tidy.invariant
  obtain ⟨alive, ptrH⟩ := (inv.geometry.handles ptr h).mp got
  have nonnull : ptr ≠ 0 := by
    have := tidy.ptr_pos alive
    omega
  have unbinned : (s.chunks h).binNum = none := by
    rcases inv.usage.settled h alive (not_mem_nil) with ⟨-, none, -⟩ | ⟨free, -⟩
    · exact none
    · rw [inUse] at free
      cases free
  let c : Chunk := { s.chunks h with allocationId := -1 }
  have unused : c.inUse = false := rfl
  obtain ⟨next, used⟩ := inv.setUse alive (c := c) rfl rfl (inv.usage.fresh h)
    inv.usage.numbered (nodup_singleton h)
    (by intro k ne; simp [ne]) (fun _ => ⟨unused, unbinned⟩) (by simp)
  have marked : markFree s h = some (s.setChunk h c) := by simp [markFree, inUse, unbinned, c]
  have kept : ∀ k, k ≠ h → (s.chunks k).inUse = true →
      ((s.setChunk h c).chunks k).inUse = true := by
    intro k ne old
    simpa [State.setChunk, ne] using old
  obtain ⟨e, region, lt⟩ := alive
  obtain ⟨xs, ys, chain⟩ := append_of_mem lt
  have nodup : (xs ++ h :: ys).Nodup := chain ▸ (inv.geometry.tiles e region).nodup
  have spaced : Spaced s (xs ++ h :: ys) := chain ▸ tidy.spaced e region
  have notFront : ∀ k ∈ xs, k ≠ h := by
    intro k mem
    exact (nodup_append.mp nodup).2.2 k mem h mem_cons_self
  have notBack : ∀ k ∈ ys, k ≠ h := by
    rintro k mem rfl
    exact (nodup_cons.mp nodup.of_append_right).1 mem
  have front : Spaced (s.setChunk h c) xs :=
    (spaced.initial (prefix_append xs _)).mono fun k mem => kept k (notFront k mem)
  have back : Spaced (s.setChunk h c) ys := by
    have later : Spaced s ys := spaced.final ((suffix_cons h ys).trans (suffix_append xs _))
    exact later.mono fun k mem => kept k (notBack k mem)
  have others : ∀ d ∈ extents s.regions, d ≠ e → Spaced (s.setChunk h c) (l.chain d.1) := by
    intro d place ne
    refine (tidy.spaced d place).mono fun k mem => kept k ?_
    rintro rfl
    exact ne (inv.geometry.region_unique place region mem lt)
  obtain ⟨t, l', released, tidy', same, frame⟩ :=
    next.release region chain front back others tidy.nonnull
  refine ⟨t, l', ?_, tidy', ?_, frame.heapAllocator, frame.currRegionAllocationBytes, frame.ranges⟩
  · simp only [BfcAllocator.deallocateRawInternal, nonnull, if_false, got, Option.bind_some, marked]
    exact released
  · intro a
    rw [same]
    refine (used a).trans ?_
    simp [unused]

theorem allocateChunk_regions (s : State) (regions : List AllocationRegion) :
    allocateChunk { s with regions := regions } =
      ((allocateChunk s).1, { (allocateChunk s).2 with regions := regions }) := by
  cases first : s.freeChunksList <;> simp [allocateChunk, State.setChunk, first]

theorem Tidy.addRegion (tidy : Tidy s l) {memAddr bytes : Nat} (alignedPtr : 256 ∣ memAddr)
    (alignedSize : 256 ∣ bytes) (pos : 0 < bytes) (nonnull : 0 < memAddr)
    (apart : ∀ e ∈ extents s.regions, memAddr + bytes ≤ e.1 ∨ e.2 ≤ memAddr) :
    ∃ t l', addRegion s memAddr bytes = some t ∧ Tidy t l' ∧
      Used t (t.live l') = Used s (s.live l) ∧ t.heapAllocator = s.heapAllocator ∧
      t.currRegionAllocationBytes = s.currRegionAllocationBytes ∧
      ∀ e, e ∈ extents t.regions ↔ e = (memAddr, memAddr + bytes) ∨ e ∈ extents s.regions := by
  have inv := tidy.invariant
  obtain ⟨ok, members, lookup⟩ :=
    addAllocationRegion_spec inv.geometry.regions alignedPtr alignedSize pos apart
  have region := (members (memAddr, memAddr + bytes)).mpr (Or.inl rfl)
  cases allocated : allocateChunk s with
  | mk new s1 =>
    obtain ⟨spare, geo, fresh, unspared, room, made, others, rest⟩ :=
      inv.geometry.allocateChunk allocated
    have regions1 : s1.regions = s.regions := by rw [rest]
    obtain ⟨regions, set, ranges, got⟩ := setHandle_spec ok region (p := memAddr)
      (by dsimp only; omega) (some new)
    let c : Chunk :=
      { s1.chunks new with
        ptr := memAddr
        size := bytes
        allocationId := -1
        prev := none
        next := none
        freedAtCount := 0 }
    let u : State := { s1.setChunk new c with regions := regions }
    let l' : Layout := ⟨update l.chain memAddr [new], spare⟩
    have chunkNew : u.chunks new = c := by simp [u, State.setChunk]
    have chunkOther : ∀ k, k ≠ new → u.chunks k = s1.chunks k := fun k ne => by
      simp [u, State.setChunk, ne]
    have unbinned : c.binNum = none := by
      rcases made with default | ⟨same, spared⟩
      · simp [c, default]
      · simp [c, same, (inv.geometry.unused new spared).2.2]
    obtain ⟨geometry, live⟩ := geo.addRegion fresh unspared room (t := u)
      (ranges.symm ▸ ok) (by rw [regions1]; exact fun e => ranges.symm ▸ members e)
      (regions1.symm ▸ apart) rfl (by rw [regions1]; simpa only [lookup] using got)
      (congrArg Chunk.block chunkNew) chunkOther rfl
    have live : ∀ k, u.live l' k ↔ s.live l k ∨ k = new := by
      intro k
      have stated := live k
      rw [regions1] at stated
      exact stated
    have notNew : ∀ k, s.live l k → k ≠ new := by
      rintro k alive rfl
      rw [regions1] at fresh
      exact fresh alive
    have same : ∀ k, k ≠ new → u.chunks k = s.chunks k := fun k ne =>
      (chunkOther k ne).trans (others k ne)
    have transported : Usage u (u.live l') [new] ∧ Used u (u.live l') = Used s (s.live l) := by
      refine inv.usage.transport (by simp only [u, State.setChunk]; rw [rest])
        (by simp only [u, State.setChunk]; rw [rest]) ?_ ?_ ?_ (nodup_singleton new) ?_
      · intro k alive _
        refine ⟨(live k).mpr (Or.inl alive), by simpa using notNew k alive, ?_⟩
        rw [same k (notNew k alive)]
        exact .refl _
      · intro k alive notHeld
        exact ⟨((live k).mp alive).resolve_right (by simpa using notHeld), not_mem_nil⟩
      · intro k mem
        obtain rfl := mem_singleton.mp mem
        exact ⟨(live k).mpr (Or.inr rfl), by rw [chunkNew]; rfl, by rw [chunkNew, unbinned]⟩
      · intro k
        by_cases isNew : k = new
        · rw [isNew, chunkNew]
        · rw [same k isNew, inv.usage.fresh]
    obtain ⟨usage, used⟩ := transported
    have members' : ∀ e, e ∈ extents u.regions ↔
        e = (memAddr, memAddr + bytes) ∨ e ∈ extents s.regions := fun e =>
      ranges.symm ▸ members e
    have chain : l'.chain memAddr = [] ++ new :: [] := update_self ..
    have spaced : ∀ d ∈ extents u.regions, d ≠ (memAddr, memAddr + bytes) →
        Spaced u (l'.chain d.1) := by
      intro d place ne
      have old := ((members' d).mp place).resolve_left ne
      have away : d.1 ≠ memAddr := by
        have := apart d old
        have := (inv.geometry.regions.shaped d old).2.2
        omega
      have list : l'.chain d.1 = l.chain d.1 := update_of_ne away ..
      rw [list]
      refine (tidy.spaced d old).mono fun k mem inUse => ?_
      rw [same k (notNew k ⟨d, old, mem⟩), inUse]
    have nonnull' : ∀ d ∈ extents u.regions, 0 < d.1 := by
      intro d place
      rcases (members' d).mp place with rfl | old
      · exact nonnull
      · exact tidy.nonnull d old
    have held : Invariant u l' [new] := ⟨geometry, usage⟩
    obtain ⟨t, l'', released, tidy', same', frame⟩ := held.release
      ((members' (memAddr, memAddr + bytes)).mpr (Or.inl rfl)) chain .nil .nil spaced nonnull'
    refine ⟨t, l'', ?_, tidy', same'.trans used, ?_, ?_, ?_⟩
    · simp only [BfcAllocator.addRegion, allocateChunk_regions, allocated]
      have set' : setHandle memAddr (some new)
          (addAllocationRegion memAddr bytes s.regions) = some regions := set
      simp only [State.setChunk, set', Option.bind_some]
      exact released
    · rw [frame.heapAllocator]
      simp only [u, State.setChunk]
      rw [rest]
    · rw [frame.currRegionAllocationBytes]
      simp only [u, State.setChunk]
      rw [rest]
    · rw [frame.ranges]
      exact members'

end TfDml.BfcAllocator
