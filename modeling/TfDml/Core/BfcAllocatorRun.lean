import TfDml.Core.BfcCalls

/-! # Runs of the best-fit allocator

Every region is a descriptor heap of its own that is never given back. A pointer
into a region therefore unpacks to the id of that heap, and its offset is a
descriptor of the heap.
-/

namespace TfDml.BfcAllocator

open Lib TaggedPointer List Option

theorem timesBackpedalFactor_le (bytes : Nat) : timesBackpedalFactor bytes ≤ bytes := by
  unfold timesBackpedalFactor
  dsimp only
  generalize factor : bytes * 15099494 = product
  generalize exponent : Nat.log2 product + 1 - 24 = dropped
  have whole := Nat.div_add_mod product (2 ^ dropped)
  have below := Nat.mod_lt product (Nat.two_pow_pos dropped)
  -- without dropped bits there is nothing to round
  have unit : dropped = 0 ∨ 2 ^ dropped * 2 ^ 23 ≤ product := by
    by_cases none : dropped = 0
    · exact Or.inl none
    · right
      have power : 2 ^ dropped * 2 ^ 23 = 2 ^ Nat.log2 product := by
        rw [← pow_add]
        congr 1
        omega
      rw [power]
      refine Nat.log2_self_le ?_
      rintro rfl
      simp at exponent
      omega
  rcases unit with rfl | unit
  · simp only [pow_zero, Nat.mod_one, Nat.div_one, mul_one]
    rw [if_neg (by omega)]
    omega
  · have scaled : 2 ^ dropped * (product / 2 ^ dropped + 1) ≤ bytes * 2 ^ 24 := by
      rw [Nat.mul_add]
      omega
    have upper : ∀ quotient ≤ product / 2 ^ dropped + 1,
        quotient * 2 ^ dropped / 2 ^ 24 ≤ bytes := by
      intro quotient lt
      refine Nat.div_le_of_le_mul ?_
      have := Nat.mul_le_mul_left (2 ^ dropped) lt
      rw [mul_comm quotient]
      omega
    split_ifs
    · exact upper _ le_rfl
    · exact upper _ (Nat.le_succ _)

theorem roundedBytes_dvd (bytes : Nat) : 256 ∣ roundedBytes bytes := Nat.dvd_mul_right _ _

theorem le_roundedBytes (bytes : Nat) : bytes ≤ roundedBytes bytes := by
  have unit : kMinAllocationSize = 256 := rfl
  rw [roundedBytes, unit]
  omega

variable {bytes : Nat}

theorem roundedBytes_le (lt : bytes ≤ kMaxAllocationSizeInDescriptors) :
    roundedBytes bytes ≤ kMaxAllocationSizeInDescriptors := by
  have unit : kMinAllocationSize = 256 := rfl
  rw [kMaxAllocationSizeInDescriptors] at lt ⊢
  rw [roundedBytes, unit]
  omega

theorem backpedalBytes_le (lt : bytes ≤ kMaxAllocationSizeInDescriptors) :
    backpedalBytes bytes ≤ kMaxAllocationSizeInDescriptors :=
  roundedBytes_le ((timesBackpedalFactor_le bytes).trans lt)

structure Provided (deviceId : Nat) (heap heap' : HeapAllocator.Allocator Nat)
    (live : List HeapAllocator.Live) (a : HeapAllocator.Live) (bytes : Nat) : Prop where
  invariant : HeapAllocator.Invariant ⟨heap', live ++ [a]⟩
  device : a.deviceId = deviceId
  count : heap'.allocationsById.lookup a.allocationId = some bytes
  kept : ∀ b ∈ live,
    heap'.allocationsById.lookup b.allocationId = heap.allocationsById.lookup b.allocationId

variable {deviceId : Nat} {heap : HeapAllocator.Allocator Nat} {heaps : List HeapAllocator.Live}

theorem subAlloc_cases (inv : HeapAllocator.Invariant ⟨heap, heaps⟩) (deviceId bytes : Nat)
    (created : Bool) : subAlloc deviceId heap bytes created = (0, heap) ∨
      ∃ a heap', subAlloc deviceId heap bytes created = (a.pointer, heap') ∧ a.pointer ≠ 0 ∧
        Provided deviceId heap heap' heaps a bytes := by
  unfold subAlloc
  rcases HeapAllocator.allocWith_cases heap deviceId bytes (if created then some bytes else none)
    with err | ⟨id, reserved, count, taken, answer, placed⟩
  · exact Or.inl err
  · have same : count = bytes := by
      cases created with
      | false => simp at answer
      | true => simpa using answer.symm
    rcases inv.alloc placed with ⟨null, kept⟩ | ⟨nonnull, next⟩
    · exact Or.inl (by rw [placed, null, kept])
    · obtain ⟨-, -, table⟩ := HeapAllocator.tryReserve_some inv.ids inv.bound taken
      obtain ⟨-, lt, notLive⟩ := HeapAllocator.tryReserve_fresh inv.ids inv.bound taken
      have parts := unpack_pack deviceId lt (by decide : 0 < 2 ^ kOffsetBits)
      have xs : (HeapAllocator.emplace reserved id count).allocationsById =
          heap.allocationsById.insert id bytes := by
        have new : id ∉ reserved.allocationsById := by
          rw [table, inv.stored]
          exact notLive
        rw [HeapAllocator.emplace, if_neg new, table, same]
      rw [parts] at next
      refine Or.inr ⟨_, _, placed, nonnull, next, rfl, ?_, ?_⟩
      · rw [xs, AList.lookup_insert]
      · intro b old
        rw [xs, AList.lookup_insert_ne]
        rintro rfl
        exact notLive (List.mem_map_of_mem old)

/-- The attempts of `Extend` fail, or one of them yields a region that is large enough. -/
def Attempted (deviceId rounded : Nat) (heap : HeapAllocator.Allocator Nat)
    (live : List HeapAllocator.Live) (ptr bytes : Nat) (heap' : HeapAllocator.Allocator Nat) :
    Prop :=
  ptr = 0 ∧ heap' = heap ∨ ∃ a, a.pointer = ptr ∧ ptr ≠ 0 ∧ rounded ≤ bytes ∧ 256 ∣ bytes ∧
      bytes ≤ kMaxAllocationSizeInDescriptors ∧ Provided deviceId heap heap' live a bytes

variable {rounded : Nat} {answers : List Bool} {ptr bytes' : Nat}
  {heap' : HeapAllocator.Allocator Nat}

theorem backpedal_attempted (inv : HeapAllocator.Invariant ⟨heap, heaps⟩) {nextBytes : Nat → Nat}
    (multiple : ∀ bytes, 256 ∣ nextBytes bytes)
    (shrinks : ∀ bytes ≤ kMaxAllocationSizeInDescriptors,
      nextBytes bytes ≤ kMaxAllocationSizeInDescriptors)
    (lt : bytes ≤ kMaxAllocationSizeInDescriptors)
    (result : backpedal nextBytes deviceId rounded answers bytes heap = some (ptr, bytes', heap')) :
    Attempted deviceId rounded heap heaps ptr bytes' heap' := by
  induction answers generalizing bytes with
  | nil =>
    rw [backpedal] at result
    simp only [ite_none_right_eq_some, Option.some.injEq, Prod.mk.injEq] at result
    obtain ⟨-, rfl, -, rfl⟩ := result
    exact Or.inl ⟨rfl, rfl⟩
  | cons new rest ih =>
    rw [backpedal] at result
    dsimp only at result
    by_cases tooSmall : nextBytes bytes < rounded
    · simp only [tooSmall, if_true, Option.some.injEq, Prod.mk.injEq] at result
      obtain ⟨rfl, -, rfl⟩ := result
      exact Or.inl ⟨rfl, rfl⟩
    · simp only [tooSmall, if_false] at result
      rcases subAlloc_cases inv deviceId (nextBytes bytes) new with
        err | ⟨a, next, done, nonnull, provided⟩
      · rw [err] at result
        exact ih (shrinks bytes lt) result
      · simp only [done, nonnull, if_false, Option.some.injEq, Prod.mk.injEq] at result
        obtain ⟨rfl, rfl, rfl⟩ := result
        exact Or.inr ⟨a, rfl, nonnull, by omega, multiple bytes, shrinks bytes lt, provided⟩

variable {s t : State}

theorem allocMemory_attempted (inv : HeapAllocator.Invariant ⟨s.heapAllocator, heaps⟩)
    (enough : rounded ≤ bytes) (multiple : 256 ∣ bytes)
    (lt : bytes ≤ kMaxAllocationSizeInDescriptors)
    (result : allocMemory deviceId s bytes rounded answers = some (ptr, bytes', t)) :
    ∃ heap' started, t = { s with heapAllocator := heap', startedBackpedal := started } ∧
      Attempted deviceId rounded s.heapAllocator heaps ptr bytes' heap' := by
  cases answers with
  | nil => simp [allocMemory] at result
  | cons new rest =>
    unfold allocMemory at result
    rcases subAlloc_cases inv deviceId bytes new with
      err | ⟨a, next, done, nonnull, provided⟩
    · simp only [err, ne_eq, not_true_eq_false, false_or] at result
      split at result
      · simp only [Option.some.injEq, Prod.mk.injEq] at result
        obtain ⟨rfl, -, rfl⟩ := result
        exact ⟨_, _, rfl, Or.inl ⟨rfl, rfl⟩⟩
      · obtain ⟨⟨ptr₁, bytes₁, heap₁⟩, attempted, same⟩ := map_eq_some_iff.mp result
        simp only [Prod.mk.injEq] at same
        obtain ⟨rfl, rfl, rfl⟩ := same
        refine ⟨_, _, rfl, ?_⟩
        exact backpedal_attempted inv (fun _ => roundedBytes_dvd _)
          (fun _ => backpedalBytes_le) lt attempted
    · simp only [done, ne_eq, nonnull, not_false_eq_true, true_or, if_true, Option.some.injEq,
        Prod.mk.injEq] at result
      obtain ⟨rfl, rfl, rfl⟩ := result
      exact ⟨_, _, rfl, Or.inr ⟨a, rfl, nonnull, enough, multiple, lt, provided⟩⟩

structure Backed (deviceId : Nat) (s : State) (heaps : List HeapAllocator.Live) : Prop where
  invariant : HeapAllocator.Invariant ⟨s.heapAllocator, heaps⟩
  region : ∀ e ∈ extents s.regions, ∃ a ∈ heaps, a.pointer = e.1 ∧ a.deviceId = deviceId ∧
    e.2 ≤ e.1 + kMaxAllocationSizeInDescriptors ∧
    s.heapAllocator.allocationsById.lookup a.allocationId = some (e.2 - e.1)
  bytes : s.currRegionAllocationBytes = kMaxAllocationSizeInDescriptors

theorem Backed.frame (backed : Backed deviceId s heaps) (frame : Frame s t) :
    Backed deviceId t heaps where
  invariant := by
    rw [frame.heapAllocator]
    exact backed.invariant
  region := by
    rw [frame.heapAllocator, frame.ranges]
    exact backed.region
  bytes := frame.currRegionAllocationBytes.trans backed.bytes

variable {live : List HeapAllocator.Live}

theorem heaps_apart (inv : HeapAllocator.Invariant ⟨heap, live⟩) {a b : HeapAllocator.Live}
    (first : a ∈ live) (snd : b ∈ live) (ne : a ≠ b) {m n : Nat}
    (lt : m ≤ kMaxAllocationSizeInDescriptors) (lt' : n ≤ kMaxAllocationSizeInDescriptors) :
    a.pointer + m ≤ b.pointer ∨ b.pointer + n ≤ a.pointer := by
  have room : kMaxAllocationSizeInDescriptors < 2 ^ kOffsetBits := by decide
  by_contra overlap
  rcases Nat.le_total a.pointer b.pointer with before | before
  · have meet : a.pointer + (b.pointer - a.pointer) = b.pointer + 0 := by omega
    exact ne (inv.apart first snd (by omega) (by decide) meet)
  · have meet : a.pointer + 0 = b.pointer + (a.pointer - b.pointer) := by omega
    exact ne (inv.apart first snd (by decide) (by omega) meet)

theorem heap_aligned (inv : HeapAllocator.Invariant ⟨heap, live⟩) {a : HeapAllocator.Live}
    (mem : a ∈ live) : 256 ∣ a.pointer := by
  rw [inv.packed a mem, pack_eq a.deviceId (inv.live_id mem).2 (by decide)]
  simp only [kAllocationIdBits, kOffsetBits]
  omega

/-- The allocator between two calls; `used` are the ranges that it has given out. -/
def Ready (deviceId : Nat) (s : State) (used : Set (Nat × Nat)) : Prop :=
  ∃ l heaps, Tidy s l ∧ Backed deviceId s heaps ∧ Used s (s.live l) = used

theorem ready_init (deviceId : Nat) : Ready deviceId {} ∅ := by
  refine ⟨⟨fun _ => [], []⟩, [], tidy_init _ rfl, ⟨HeapAllocator.invariant_init, ?_, ?_⟩, ?_⟩
  · simp [extents]
  · decide
  · simp [Used, State.live, Live, extents]

variable {l : Layout}

theorem Tidy.retune (tidy : Tidy s l) (heap : HeapAllocator.Allocator Nat) (curr total : Nat)
    (started : Bool) : Tidy
      { s with
        heapAllocator := heap
        currRegionAllocationBytes := curr
        totalRegionAllocatedBytes := total
        startedBackpedal := started } l where
  invariant :=
    { geometry := tidy.invariant.geometry.transport rfl rfl rfl (fun _ => rfl) fun _ _ => rfl
      usage :=
        { bins := tidy.invariant.usage.bins
          sorted := tidy.invariant.usage.sorted
          settled := tidy.invariant.usage.settled
          free := tidy.invariant.usage.free
          nodup := tidy.invariant.usage.nodup
          fresh := tidy.invariant.usage.fresh
          numbered := tidy.invariant.usage.numbered } }
  spaced := tidy.spaced
  nonnull := tidy.nonnull

variable {used : Set (Nat × Nat)}

theorem Ready.addRegion (tidy : Tidy s l) (backed : Backed deviceId s heaps)
    (same : Used s (s.live l) = used) {a : HeapAllocator.Live}
    (provided : Provided deviceId s.heapAllocator heap' heaps a bytes) (nonnull : a.pointer ≠ 0)
    (pos : 0 < bytes) (multiple : 256 ∣ bytes)
    (small : bytes ≤ kMaxAllocationSizeInDescriptors) (total : Nat) (started : Bool)
    (result : addRegion
      { s with
        heapAllocator := heap'
        currRegionAllocationBytes := kMaxAllocationSizeInDescriptors
        totalRegionAllocatedBytes := total
        startedBackpedal := started } a.pointer bytes = some t) : Ready deviceId t used := by
  have mem : a ∈ heaps ++ [a] := by simp
  have new : a ∉ heaps := by
    intro old
    exact (nodup_append.mp provided.invariant.live_nodup).2.2 a old a (by simp) rfl
  have apart : ∀ e ∈ extents s.regions, a.pointer + bytes ≤ e.1 ∨ e.2 ≤ a.pointer := by
    intro e region
    obtain ⟨b, old, pointer, -, size, -⟩ := backed.region e region
    have ne : a ≠ b := fun eq => new (eq ▸ old)
    have := heaps_apart provided.invariant mem (mem_append_left [a] old) ne small
      (le_refl _)
    omega
  obtain ⟨u, l', done, tidy', used', heapU, bytesU, regions⟩ :=
    (tidy.retune heap' kMaxAllocationSizeInDescriptors total started).addRegion
      (heap_aligned provided.invariant mem) multiple pos (Nat.pos_of_ne_zero nonnull) apart
  obtain rfl := some.inj (result.symm.trans done)
  refine ⟨l', heaps ++ [a], tidy', ⟨?_, ?_, bytesU⟩, used'.trans same⟩
  · rw [heapU]
    exact provided.invariant
  · intro e region
    rw [heapU]
    rcases (regions e).mp region with rfl | old
    · refine ⟨a, mem, rfl, provided.device, by dsimp only; omega, ?_⟩
      rw [Nat.add_sub_cancel_left]
      exact provided.count
    · obtain ⟨b, lt, pointer, device, size, count⟩ := backed.region e old
      exact ⟨b, mem_append_left [a] lt, pointer, device, size, (provided.kept b lt).trans count⟩

theorem Ready.extend (ready : Ready deviceId s used) (pos : 0 < rounded)
    (lt : rounded ≤ kMaxAllocationSizeInDescriptors) {extended : Bool}
    (result : extend deviceId s rounded answers = some (extended, t)) : Ready deviceId t used := by
  obtain ⟨l, heaps, tidy, backed, same⟩ := ready
  unfold BfcAllocator.extend at result
  dsimp only at result
  split at result
  · obtain ⟨-, rfl⟩ := Prod.mk.inj (some.inj result)
    exact ⟨l, heaps, tidy, backed, same⟩
  · rename_i available
    have stays : doubleUntil rounded 64 kMaxAllocationSizeInDescriptors =
        kMaxAllocationSizeInDescriptors := by
      rw [doubleUntil, if_neg (by omega)]
    rw [backed.bytes, stays, min_self] at result
    obtain ⟨⟨ptr, bytes, u⟩, attempted, rest⟩ := bind_eq_some_iff.mp result
    have units : ∀ n, 256 ∣ min kMaxAllocationSizeInDescriptors (n * kMinAllocationSize) := by
      intro n
      rcases min_choice kMaxAllocationSizeInDescriptors (n * kMinAllocationSize) with most | all
      · rw [most]
        decide
      · rw [all]
        exact Nat.dvd_mul_left _ _
    obtain ⟨heap', started, rfl, outcome⟩ := allocMemory_attempted
      (s := { s with currRegionAllocationBytes := kMaxAllocationSizeInDescriptors })
      backed.invariant (by omega) (units _) (Nat.min_le_left _ _) attempted
    rcases outcome with ⟨rfl, rfl⟩ | ⟨a, rfl, nonnull, enough, multiple, bounded, provided⟩
    · simp only [if_true] at rest
      obtain ⟨-, rfl⟩ := Prod.mk.inj (some.inj rest)
      exact ⟨l, heaps, tidy.retune _ _ _ _, ⟨backed.invariant, backed.region, rfl⟩, same⟩
    · simp only [nonnull, if_false] at rest
      obtain ⟨v, added, final⟩ := map_eq_some_iff.mp rest
      obtain ⟨-, rfl⟩ := Prod.mk.inj final
      have next : nextRegionBytes (decide (kMaxAllocationSizeInDescriptors < rounded))
          kMaxAllocationSizeInDescriptors = kMaxAllocationSizeInDescriptors := by
        unfold nextRegionBytes
        split_ifs <;> decide
      rw [next] at added
      exact Ready.addRegion tidy backed same provided nonnull (by omega) multiple bounded _ _ added

variable {numBytes freedBefore : Nat}

theorem Ready.findChunkPtr (ready : Ready deviceId s used) (pos : 0 < rounded)
    (multiple : 256 ∣ rounded) (enough : numBytes ≤ rounded) {binNum : Nat}
    (result : findChunkPtr s binNum rounded numBytes freedBefore = some (ptr, t)) :
    ptr = 0 ∧ t = s ∨
      ptr ≠ 0 ∧ (∀ a ∈ used, a.1 ≠ ptr) ∧ Ready deviceId t (insert (ptr, numBytes) used) := by
  obtain ⟨l, heaps, tidy, backed, rfl⟩ := ready
  rcases tidy.findChunkPtr pos multiple enough binNum freedBefore with
    err | ⟨ptr', t', l', done, allocated⟩
  · obtain ⟨rfl, rfl⟩ := Prod.mk.inj (some.inj (result.symm.trans err))
    exact Or.inl ⟨rfl, rfl⟩
  · obtain ⟨rfl, rfl⟩ := Prod.mk.inj (some.inj (result.symm.trans done))
    exact Or.inr ⟨allocated.nonnull, allocated.free, l', heaps, allocated.tidy,
      backed.frame allocated.frame, allocated.used⟩

theorem Ready.allocateRawInternal (ready : Ready deviceId s used)
    (result : allocateRawInternal deviceId s numBytes freedBefore answers = some (ptr, t)) :
    ptr = 0 ∧ Ready deviceId t used ∨
      ptr ≠ 0 ∧ (∀ a ∈ used, a.1 ≠ ptr) ∧ Ready deviceId t (insert (ptr, numBytes) used) := by
  unfold BfcAllocator.allocateRawInternal at result
  split at result
  · obtain ⟨rfl, rfl⟩ := Prod.mk.inj (some.inj result)
    exact Or.inl ⟨rfl, ready⟩
  · split at result
    · obtain ⟨rfl, rfl⟩ := Prod.mk.inj (some.inj result)
      exact Or.inl ⟨rfl, ready⟩
    · rename_i ne tooLarge
      dsimp only at result
      have enough := le_roundedBytes numBytes
      have pos : 0 < roundedBytes numBytes := by omega
      have lt := roundedBytes_le (Nat.le_of_not_lt tooLarge)
      obtain ⟨⟨ptr₁, s₁⟩, first, rest⟩ := bind_eq_some_iff.mp result
      rcases ready.findChunkPtr pos (roundedBytes_dvd _) enough first with
        ⟨rfl, rfl⟩ | ⟨nonnull, free, ready₁⟩
      · simp only [ne_eq, not_true_eq_false, if_false] at rest
        obtain ⟨⟨extended, s₂⟩, grown, last⟩ := bind_eq_some_iff.mp rest
        have ready₂ := ready.extend pos lt grown
        cases extended with
        | false =>
          obtain ⟨rfl, rfl⟩ := Prod.mk.inj (some.inj last)
          exact Or.inl ⟨rfl, ready₂⟩
        | true =>
          rcases ready₂.findChunkPtr pos (roundedBytes_dvd _) enough last with
            ⟨rfl, rfl⟩ | found
          · exact Or.inl ⟨rfl, ready₂⟩
          · exact Or.inr found
      · simp only [ne_eq, nonnull, not_false_eq_true, if_true] at rest
        obtain ⟨rfl, rfl⟩ := Prod.mk.inj (some.inj rest)
        exact Or.inr ⟨nonnull, free, ready₁⟩

variable {a : Nat × Nat}

theorem Ready.deallocateRawInternal_isSome (ready : Ready deviceId s used) (mem : a ∈ used) :
    (deallocateRawInternal s a.1).isSome = true := by
  obtain ⟨l, heaps, tidy, backed, rfl⟩ := ready
  obtain ⟨h, alive, inUse, ptr, -⟩ := mem
  have aligned := tidy.invariant.geometry.aligned alive
  have got : getHandle s.regions a.1 = some h :=
    (tidy.invariant.geometry.handles a.1 h).mpr ⟨alive, by omega⟩
  obtain ⟨t, l', done, -⟩ := tidy.deallocateRawInternal got inUse
  rw [done, isSome_some]

theorem Ready.deallocateRawInternal (ready : Ready deviceId s used)
    (result : deallocateRawInternal s ptr = some t) :
    Ready deviceId t { a ∈ used | some a.1 ≠ s.owner ptr } := by
  obtain ⟨l, heaps, tidy, backed, rfl⟩ := ready
  cases got : getHandle s.regions ptr with
  | none =>
    have null : ptr = 0 := by
      by_contra nonnull
      simp [BfcAllocator.deallocateRawInternal, nonnull, got] at result
    obtain rfl : s = t := by simpa [BfcAllocator.deallocateRawInternal, null] using result
    refine ⟨l, heaps, tidy, backed, ?_⟩
    simp [State.owner, got]
  | some h =>
    have alive := ((tidy.invariant.geometry.handles ptr h).mp got)
    have nonnull : ptr ≠ 0 := by
      have := tidy.ptr_pos alive.1
      omega
    have inUse : (s.chunks h).inUse = true := by
      by_contra free
      rw [Bool.not_eq_true] at free
      simp [BfcAllocator.deallocateRawInternal, nonnull, got, markFree, free] at result
    obtain ⟨t', l', done, deallocated⟩ := tidy.deallocateRawInternal got inUse
    obtain rfl := some.inj (result.symm.trans done)
    refine ⟨l', heaps, deallocated.tidy, backed.frame deallocated.frame, ?_⟩
    ext a
    rw [deallocated.used]
    simp [State.owner, got]

/-- What holds between two calls: `chain` lists the chunks of each region, and `live` are the
    allocations that were not given back. -/
structure Consistent (deviceId : Nat) (s : State) (live : List (Nat × Nat))
    (chain : Nat → List ChunkHandle) : Prop where
  tiles : ∀ region ∈ s.regions,
    Tiles 256 s.table none region.ptr (chain region.ptr) none region.endPtr
  handles : ∀ p h, getHandle s.regions p = some h ↔
    (∃ region ∈ s.regions, h ∈ chain region.ptr) ∧ (s.chunks h).ptr = p / 256 * 256
  binned : ∀ region ∈ s.regions, ∀ h ∈ chain region.ptr, ∀ b, (s.bins b).count h =
      if (s.chunks h).inUse = false ∧ b = binNumForSize (s.chunks h).size then 1 else 0
  coalesced : ∀ region ∈ s.regions,
    (chain region.ptr).IsChain fun a b => (s.chunks a).inUse = true ∨ (s.chunks b).inUse = true
  inUse : ∀ a, a ∈ live ↔ ∃ region ∈ s.regions, ∃ h ∈ chain region.ptr,
    (s.chunks h).inUse = true ∧ (s.chunks h).ptr = a.1 ∧ (s.chunks h).requestedSize = a.2
  aligned : ∀ a ∈ live, 256 ∣ a.1
  disjoint : live.Pairwise fun a b => a.1 + a.2 ≤ b.1 ∨ b.1 + b.2 ≤ a.1
  unpacked : ∀ a ∈ live, ∃ id start count, s.heapAllocator.allocationsById.lookup id = some count ∧
    ∀ i < a.2, unpack (a.1 + i) = ⟨deviceId % 2 ^ kDeviceIdBits, id, start + i⟩ ∧ start + i < count
  freed : ∀ a ∈ live, (deallocateRawInternal s a.1).isSome = true

theorem Tidy.used_chunk (tidy : Tidy s l) (mem : a ∈ Used s (s.live l)) :
    ∃ h, s.live l h ∧ (s.chunks h).ptr = a.1 ∧ a.2 ≤ (s.chunks h).size := by
  obtain ⟨h, alive, inUse, ptr, size⟩ := mem
  refine ⟨h, alive, ptr, ?_⟩
  rcases tidy.invariant.usage.settled h alive not_mem_nil with ⟨-, -, fits⟩ | ⟨free, -⟩
  · exact size ▸ fits
  · rw [inUse] at free
    cases free

theorem Tidy.used_apart (tidy : Tidy s l) {b : Nat × Nat} (first : a ∈ Used s (s.live l))
    (snd : b ∈ Used s (s.live l)) (ne : a.1 ≠ b.1) : a.1 + a.2 ≤ b.1 ∨ b.1 + b.2 ≤ a.1 := by
  obtain ⟨h, aliveH, ptrH, fitsH⟩ := tidy.used_chunk first
  obtain ⟨k, aliveK, ptrK, fitsK⟩ := tidy.used_chunk snd
  have nodup : h ≠ k := by
    rintro rfl
    exact ne (ptrH.symm.trans ptrK)
  have := tidy.invariant.geometry.apart aliveH aliveK nodup
  omega

theorem Backed.unpack (backed : Backed deviceId s heaps) (tidy : Tidy s l)
    (mem : a ∈ Used s (s.live l)) :
    ∃ id start count, s.heapAllocator.allocationsById.lookup id = some count ∧
      ∀ i < a.2, unpack (a.1 + i) = ⟨deviceId % 2 ^ kDeviceIdBits, id, start + i⟩ ∧
        start + i < count := by
  obtain ⟨h, ⟨e, region, part⟩, ptr, fits⟩ := tidy.used_chunk mem
  have lt := tidy.invariant.geometry.bounds region part
  obtain ⟨heap, live, pointer, device, size, count⟩ := backed.region e region
  refine ⟨heap.allocationId, a.1 - e.1, e.2 - e.1, count, fun i small => ⟨?_, by omega⟩⟩
  have room : kMaxAllocationSizeInDescriptors < 2 ^ kOffsetBits := by decide
  have offset : a.1 + i = heap.pointer + (a.1 - e.1 + i) := by omega
  rw [offset, backed.invariant.unpack_add live (by omega), device]

theorem Ready.consistent {live : List (Nat × Nat)} (ready : Ready deviceId s { a | a ∈ live })
    (nodup : (live.map Prod.fst).Nodup) : ∃ chain, Consistent deviceId s live chain := by
  have freed : ∀ a ∈ live, (BfcAllocator.deallocateRawInternal s a.1).isSome = true :=
    fun a mem => ready.deallocateRawInternal_isSome mem
  obtain ⟨l, heaps, tidy, backed, same⟩ := ready
  have inv := tidy.invariant
  have regions : ∀ region ∈ s.regions, (region.ptr, region.endPtr) ∈ extents s.regions :=
    fun region mem => List.mem_map_of_mem mem
  have alive : ∀ h, s.live l h ↔ ∃ region ∈ s.regions, h ∈ l.chain region.ptr := by
    intro h
    simp [State.live, Live, extents]
  have used : ∀ a, a ∈ live ↔ a ∈ Used s (s.live l) := by
    intro a
    rw [same]
    rfl
  refine ⟨l.chain, ?_, ?_, ?_, ?_, ?_, ?_, ?_, ?_, freed⟩
  · intro region mem
    exact inv.geometry.tiles _ (regions region mem)
  · intro p h
    rw [← alive]
    exact inv.geometry.handles p h
  · intro region mem h part b
    exact inv.usage.count_bin ⟨_, regions region mem, part⟩ not_mem_nil b
  · intro region mem
    exact tidy.spaced _ (regions region mem)
  · intro a
    rw [used]
    constructor
    · rintro ⟨h, here, inUse⟩
      obtain ⟨region, mem, part⟩ := (alive h).mp here
      exact ⟨region, mem, h, part, inUse⟩
    · rintro ⟨region, mem, h, part, inUse⟩
      exact ⟨h, (alive h).mpr ⟨region, mem, part⟩, inUse⟩
  · intro a mem
    obtain ⟨h, here, ptr, -⟩ := tidy.used_chunk ((used a).mp mem)
    rw [← ptr]
    exact inv.geometry.aligned here
  · refine (pairwise_map.mp nodup).imp_of_mem ?_
    intro a b first snd ne
    exact tidy.used_apart ((used a).mp first) ((used b).mp snd) ne
  · intro a mem
    exact backed.unpack tidy ((used a).mp mem)

structure Logged (deviceId : Nat) (r : Run) : Prop where
  ready : Ready deviceId r.allocator { a | a ∈ r.live }
  nodup : (r.live.map Prod.fst).Nodup

theorem Logged.step {r r' : Run} (logged : Logged deviceId r) {action : Action}
    (taken : step deviceId r action = some r') : Logged deviceId r' := by
  cases action with
  | allocateRaw numBytes freedBefore answers =>
    obtain ⟨⟨ptr, t⟩, result, rfl⟩ := map_eq_some_iff.mp taken
    rcases logged.ready.allocateRawInternal result with ⟨rfl, ready⟩ | ⟨nonnull, free, ready⟩
    · exact ⟨ready, logged.nodup⟩
    · simp only [nonnull, if_false]
      refine ⟨?_, ?_⟩
      · convert ready using 1
        ext a
        simp [or_comm]
      · rw [map_append, nodup_append]
        refine ⟨logged.nodup, nodup_singleton ptr, ?_⟩
        intro p old q new
        obtain ⟨a, mem, rfl⟩ := List.mem_map.mp old
        rw [mem_singleton.mp new]
        exact free a mem
  | deallocateRaw ptr =>
    obtain ⟨t, result, rfl⟩ := map_eq_some_iff.mp taken
    refine ⟨?_, ?_⟩
    · convert logged.ready.deallocateRawInternal result using 1
      ext a
      simp
    · exact logged.nodup.sublist (filter_sublist.map Prod.fst)

/-- After any calls, whatever the device answered: the chunks tile their regions, the bins hold
    the free ones, no two neighbours are free, and the live allocations are apart and inside of
    their descriptor heaps. -/
theorem run_consistent {actions : List Action} {r : Run}
    (reached : run (step deviceId) {} actions = some r) :
    ∃ chain, Consistent deviceId r.allocator r.live chain := by
  have start : Logged deviceId {} := ⟨by simpa using ready_init deviceId, .nil⟩
  have logged := run_invariant (fun _ _ _ good taken => good.step taken) start reached
  exact logged.ready.consistent logged.nodup

/-- The device refuses twice before it creates a smaller heap, and refuses a second heap. The
    range in the middle is given back and used again in part. -/
def refused : List Action :=
  [.allocateRaw 100 0 [false, false, true], .allocateRaw 300 0 [], .allocateRaw 5000 0 [],
    .deallocateRaw (2 ^ 40 + 256), .allocateRaw 65536 0 [false], .allocateRaw 1 0 []]

theorem refused_consistent : ∃ r, run (step 0) {} refused = some r ∧
      r.live = [(2 ^ 40, 100), (2 ^ 40 + 768, 5000), (2 ^ 40 + 256, 1)] ∧
      ∃ chain, Consistent 0 r.allocator r.live chain := by
  have live : (run (step 0) {} refused).map Run.live =
      some [(2 ^ 40, 100), (2 ^ 40 + 768, 5000), (2 ^ 40 + 256, 1)] := by
    decide +kernel
  obtain ⟨r, reached, same⟩ := map_eq_some_iff.mp live
  exact ⟨r, reached, same, run_consistent reached⟩

end TfDml.BfcAllocator
