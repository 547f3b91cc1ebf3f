import TfDml.Core.Common
import TfDml.Lib.Run
import Mathlib.Data.List.AList

/-! # The kernel manager

A cache of kernels with eviction of the least recently used one, and the
references that keep kernels alive until the GPU is done with them. Keys and
kernels are any types; equality of keys decides what is found.
-/

namespace TfDml.KernelManager

open Lib List
open AList

/-- A node of the list that orders the cache by use; an iterator names its node. -/
abbrev NodeId := Nat

structure CacheEntry (κ : Type) where
  kernel : κ
  lruIter : NodeId

structure QueuedReference (κ : Type) where
  kernel : κ
  gpuEvent : DmlGpuEvent

/-- `lruList` goes from the most to the least recently used key. -/
structure DmlKernelManager (Key κ : Type) where
  maxCacheSize : Nat
  kernelCache : AList (fun _ : Key => CacheEntry κ) := ∅
  lruList : List (NodeId × Key) := []
  nextNode : NodeId := 0
  queuedReferences : List (QueuedReference κ) := []

def kDefaultMaxCacheSize : Nat := 1536

/-- The value of `TF_DIRECTML_KERNEL_CACHE_SIZE`, if it is set to a number. -/
def getMaxCacheSize (envVar : Option Int) : Nat :=
  match envVar with
  | some value => if 0 ≤ value then value.toNat else kDefaultMaxCacheSize
  | none => kDefaultMaxCacheSize

variable {Key κ : Type} [DecidableEq Key]

namespace DmlKernelManager

/-- Evicts the least recently used kernel if the cache is too large. -/
def trimCache (m : DmlKernelManager Key κ) : DmlKernelManager Key κ :=
  if m.kernelCache.entries.length ≤ m.maxCacheSize then m
  else
    match m.lruList.getLast? with
    | some (_, lruKey) =>
      { m with
        lruList := m.lruList.dropLast
        kernelCache := m.kernelCache.erase lruKey }
    | none => m

def onRecentlyUsed (m : DmlKernelManager Key κ) (key : Key) : DmlKernelManager Key κ :=
  match m.kernelCache.lookup key with
  | none => m
  | some entry =>
    if m.lruList.head?.map Prod.fst = some entry.lruIter then m
    else
      { m with
        lruList := (m.nextNode, key) :: m.lruList.eraseP (·.1 == entry.lruIter)
        kernelCache := m.kernelCache.insert key { entry with lruIter := m.nextNode }
        nextNode := m.nextNode + 1 }

/-- `emplace` on the map, with a node at the front of the list for a new entry. -/
def insertEntry (m : DmlKernelManager Key κ) (key : Key) (kernel : κ) : DmlKernelManager Key κ :=
  { m with
    kernelCache := m.kernelCache.insert key ⟨kernel, m.nextNode⟩
    lruList := (m.nextNode, key) :: m.lruList
    nextNode := m.nextNode + 1 }

/-- `kernel` is the object that was constructed before the lock is taken, whatever
    status its construction left. -/
def createCachedKernel (m : DmlKernelManager Key κ) (key : Key) (kernel : κ) :
    κ × DmlKernelManager Key κ :=
  if key ∈ m.kernelCache then (kernel, m.onRecentlyUsed key)
  else (kernel, ((m.insertEntry key kernel).onRecentlyUsed key).trimCache)

def tryGetCachedKernel (m : DmlKernelManager Key κ) (key : Key) :
    Option κ × DmlKernelManager Key κ :=
  match m.kernelCache.lookup key with
  | none => (none, m)
  | some entry => (some entry.kernel, m.onRecentlyUsed key)

def queueReference (m : DmlKernelManager Key κ) (kernel : κ) (gpuEvent : DmlGpuEvent) :
    DmlKernelManager Key κ :=
  { m with queuedReferences := m.queuedReferences ++ [⟨kernel, gpuEvent⟩] }

/-- Keeps the references whose events are not signaled, in their order. -/
def releaseCompletedReferences (m : DmlKernelManager Key κ) (isSignaled : DmlGpuEvent → Bool) :
    DmlKernelManager Key κ :=
  { m with queuedReferences := m.queuedReferences.filter (!isSignaled ·.gpuEvent) }

def getCacheSize (m : DmlKernelManager Key κ) : Nat := m.kernelCache.entries.length

def clearCache (m : DmlKernelManager Key κ) : DmlKernelManager Key κ :=
  { m with lruList := [], kernelCache := ∅ }

end DmlKernelManager

open DmlKernelManager

/-- The list and the map describe the same cache: the list has every cached key once,
    and each entry points to the node of its key. -/
structure Linked (m : DmlKernelManager Key κ) : Prop where
  keys : (m.lruList.map Prod.snd).Perm m.kernelCache.keys
  nodes : (m.lruList.map Prod.fst).Nodup
  fresh : ∀ node ∈ m.lruList, node.1 < m.nextNode
  points : ∀ key entry, m.kernelCache.lookup key = some entry → (entry.lruIter, key) ∈ m.lruList

/-- Between the calls the cache is also within its size. -/
structure Invariant (m : DmlKernelManager Key κ) : Prop extends Linked m where
  size : m.getCacheSize ≤ m.maxCacheSize

theorem invariant_init (maxCacheSize : Nat) :
    Invariant ({ maxCacheSize := maxCacheSize } : DmlKernelManager Key κ) where
  keys := .refl _
  nodes := .nil
  fresh := by simp
  points := by simp
  size := Nat.zero_le _

namespace Linked

variable {m : DmlKernelManager Key κ} (linked : Linked m)
include linked

theorem keys_nodup : (m.lruList.map Prod.snd).Nodup :=
  linked.keys.nodup_iff.mpr m.kernelCache.keys_nodup

theorem length_lruList : m.lruList.length = m.getCacheSize := by
  simpa [AList.keys, List.keys, getCacheSize] using linked.keys.length_eq

theorem insertEntry {key : Key} (absent : key ∉ m.kernelCache) (kernel : κ) :
    Linked (m.insertEntry key kernel) where
  keys := by
    have unlisted : key ∉ m.kernelCache.keys := absent
    simpa [DmlKernelManager.insertEntry, keys_insert, erase_of_not_mem unlisted]
      using linked.keys
  nodes := by
    refine nodup_cons.mpr ⟨?_, linked.nodes⟩
    intro mem
    obtain ⟨node, lt, same⟩ := List.mem_map.mp mem
    exact Nat.lt_irrefl _ (same ▸ linked.fresh node lt)
  fresh := by
    refine forall_mem_cons.mpr ⟨Nat.lt_succ_self _, ?_⟩
    exact fun node mem => Nat.lt_succ_of_lt (linked.fresh node mem)
  points := by
    intro k entry got
    by_cases same : k = key
    · subst same
      have ins : entry = ⟨kernel, m.nextNode⟩ := by
        simpa [DmlKernelManager.insertEntry, eq_comm] using got
      simp [DmlKernelManager.insertEntry, ins]
    · have old : m.kernelCache.lookup k = some entry := by
        simpa [DmlKernelManager.insertEntry, lookup_insert_ne same] using got
      exact mem_cons_of_mem _ (linked.points k entry old)

theorem split_at {key : Key} {entry : CacheEntry κ}
    (got : m.kernelCache.lookup key = some entry) :
    ∃ front back, m.lruList = front ++ (entry.lruIter, key) :: back ∧
      m.lruList.eraseP (·.1 == entry.lruIter) = front ++ back := by
  obtain ⟨front, back, split⟩ := append_of_mem (linked.points key entry got)
  have front_ne : ∀ node ∈ front, node.1 ≠ entry.lruIter := by
    intro node mem same
    have nodes := linked.nodes
    rw [split, map_append, map_cons, nodup_append] at nodes
    exact nodes.2.2 node.1 (List.mem_map_of_mem mem) entry.lruIter (by simp) same
  refine ⟨front, back, split, ?_⟩
  rw [split, eraseP_append_right]
  · simp
  · intro node mem
    simpa using front_ne node mem

theorem onRecentlyUsed (key : Key) : Linked (m.onRecentlyUsed key) := by
  unfold DmlKernelManager.onRecentlyUsed
  split
  · exact linked
  · rename_i entry got
    split
    · exact linked
    · have cached : key ∈ m.kernelCache.keys := by
        rw [← AList.mem_keys, ← lookup_isSome, got]
        rfl
      obtain ⟨front, back, split, erased⟩ := linked.split_at got
      have sub : (front ++ back).Sublist m.lruList := by
        rw [split]
        exact (List.Sublist.refl front).append (sublist_cons_self _ _)
      rw [erased]
      constructor
      · have moved : (m.lruList.map Prod.snd).Perm (key :: (front ++ back).map Prod.snd) := by
          rw [split, map_append, map_append, map_cons]
          exact perm_middle
        rw [keys_insert]
        exact moved.symm.trans (linked.keys.trans (perm_cons_erase cached))
      · refine nodup_cons.mpr ⟨?_, linked.nodes.sublist (sub.map _)⟩
        intro mem
        obtain ⟨node, lt, same⟩ := List.mem_map.mp mem
        exact Nat.lt_irrefl _ (same ▸ linked.fresh node (sub.subset lt))
      · refine forall_mem_cons.mpr ⟨Nat.lt_succ_self _, ?_⟩
        exact fun node mem => Nat.lt_succ_of_lt (linked.fresh node (sub.subset mem))
      · intro k e lookup
        by_cases same : k = key
        · subst same
          obtain rfl : { entry with lruIter := m.nextNode } = e := by simpa using lookup
          exact mem_cons_self
        · rw [lookup_insert_ne same] at lookup
          have old := linked.points k e lookup
          rw [split] at old
          apply mem_cons_of_mem _
          rcases mem_append.mp old with inFront | inBack
          · exact mem_append_left _ inFront
          · rcases mem_cons.mp inBack with eq | inBack
            · exact absurd (Prod.mk.inj eq).2 same
            · exact mem_append_right _ inBack

theorem trimCache : Linked m.trimCache := by
  unfold DmlKernelManager.trimCache
  split
  · exact linked
  · split
    · rename_i node lruKey last
      obtain ⟨front, split⟩ := getLast?_eq_some_iff.mp last
      have kept : m.lruList.dropLast = front := by simp [split]
      have sub : front.Sublist m.lruList := by simp [split]
      have keysSplit : m.lruList.map Prod.snd = front.map Prod.snd ++ [lruKey] := by simp [split]
      rw [kept]
      constructor
      · have perm := linked.keys
        rw [keysSplit] at perm
        have cycled := (perm_append_singleton lruKey (front.map Prod.snd)).symm.trans perm
        simpa [keys_erase] using cycled.erase lruKey
      · exact linked.nodes.sublist (sub.map _)
      · exact fun n mem => linked.fresh n (sub.subset mem)
      · intro k entry got
        have ne : k ≠ lruKey := by
          rintro rfl
          simp [lookup_erase] at got
        rw [lookup_erase_ne ne] at got
        have old := linked.points k entry got
        rw [split] at old
        rcases mem_append.mp old with inFront | inLast
        · exact inFront
        · exact absurd (Prod.mk.inj (mem_singleton.mp inLast)).2 ne
    · exact linked

end Linked

theorem kernel_onRecentlyUsed (m : DmlKernelManager Key κ) (key k : Key) :
    ((m.onRecentlyUsed key).kernelCache.lookup k).map CacheEntry.kernel =
      (m.kernelCache.lookup k).map CacheEntry.kernel := by
  unfold onRecentlyUsed
  split
  · rfl
  · rename_i entry got
    split
    · rfl
    · by_cases same : k = key
      · subst same
        simp [got]
      · simp [lookup_insert_ne same]

theorem queuedReferences_onRecentlyUsed (m : DmlKernelManager Key κ) (key : Key) :
    (m.onRecentlyUsed key).queuedReferences = m.queuedReferences := by
  unfold onRecentlyUsed
  split
  · rfl
  · split <;> rfl

theorem queuedReferences_tryGetCachedKernel (m : DmlKernelManager Key κ) (key : Key) :
    (m.tryGetCachedKernel key).2.queuedReferences = m.queuedReferences := by
  unfold tryGetCachedKernel
  split
  · rfl
  · exact queuedReferences_onRecentlyUsed m key

theorem queuedReferences_createCachedKernel (m : DmlKernelManager Key κ) (key : Key)
    (kernel : κ) : (m.createCachedKernel key kernel).2.queuedReferences = m.queuedReferences := by
  unfold createCachedKernel
  split
  · exact queuedReferences_onRecentlyUsed m key
  · unfold trimCache
    split
    · exact queuedReferences_onRecentlyUsed _ key
    · split <;> exact queuedReferences_onRecentlyUsed _ key

theorem maxCacheSize_onRecentlyUsed (m : DmlKernelManager Key κ) (key : Key) :
    (m.onRecentlyUsed key).maxCacheSize = m.maxCacheSize := by
  unfold onRecentlyUsed
  split
  · rfl
  · split <;> rfl

theorem Linked.getCacheSize_onRecentlyUsed {m : DmlKernelManager Key κ} (linked : Linked m)
    (key : Key) : (m.onRecentlyUsed key).getCacheSize = m.getCacheSize := by
  rw [← (linked.onRecentlyUsed key).length_lruList, ← linked.length_lruList]
  unfold DmlKernelManager.onRecentlyUsed
  split
  · rfl
  · rename_i entry got
    split
    · rfl
    · have listed := linked.points key entry got
      have pos := length_pos_of_mem listed
      have erased : (m.lruList.eraseP (·.1 == entry.lruIter)).length = m.lruList.length - 1 :=
        length_eraseP_of_mem listed (by simp)
      simp only [length_cons, erased]
      omega

theorem lookup_of_trimCache {m : DmlKernelManager Key κ} {key : Key} {entry : CacheEntry κ}
    (got : m.trimCache.kernelCache.lookup key = some entry) :
    m.kernelCache.lookup key = some entry := by
  unfold trimCache at got
  split at got
  · exact got
  · split at got
    · rename_i node lruKey last
      have ne : key ≠ lruKey := by
        rintro rfl
        simp [lookup_erase] at got
      rwa [lookup_erase_ne ne] at got
    · exact got

theorem Linked.trimCache_size {m : DmlKernelManager Key κ} (linked : Linked m)
    (one : m.getCacheSize ≤ m.maxCacheSize + 1) :
    m.trimCache.getCacheSize ≤ m.trimCache.maxCacheSize := by
  rw [← linked.trimCache.length_lruList]
  unfold DmlKernelManager.trimCache
  split
  · rename_i fits
    rw [linked.length_lruList]
    exact fits
  · split
    · simp only [length_dropLast, linked.length_lruList]
      omega
    · rename_i last
      rw [getLast?_eq_none_iff.mp last]
      exact Nat.zero_le _

theorem Invariant.onRecentlyUsed {m : DmlKernelManager Key κ} (inv : Invariant m) (key : Key) :
    Invariant (m.onRecentlyUsed key) :=
  { inv.toLinked.onRecentlyUsed key with
    size := by
      rw [inv.toLinked.getCacheSize_onRecentlyUsed, maxCacheSize_onRecentlyUsed]
      exact inv.size }

theorem Invariant.createCachedKernel {m : DmlKernelManager Key κ} (inv : Invariant m)
    (key : Key) (kernel : κ) : Invariant (m.createCachedKernel key kernel).2 := by
  unfold DmlKernelManager.createCachedKernel
  split
  · exact inv.onRecentlyUsed key
  · rename_i absent
    have ins := inv.toLinked.insertEntry absent kernel
    have used := ins.onRecentlyUsed key
    have size : (m.insertEntry key kernel).getCacheSize = m.getCacheSize + 1 := by
      rw [← ins.length_lruList, ← inv.toLinked.length_lruList]
      rfl
    refine { used.trimCache with size := used.trimCache_size ?_ }
    rw [ins.getCacheSize_onRecentlyUsed, maxCacheSize_onRecentlyUsed, size]
    exact Nat.succ_le_succ inv.size

theorem Invariant.tryGetCachedKernel {m : DmlKernelManager Key κ} (inv : Invariant m)
    (key : Key) : Invariant (m.tryGetCachedKernel key).2 := by
  unfold DmlKernelManager.tryGetCachedKernel
  split
  · exact inv
  · exact inv.onRecentlyUsed key

theorem Invariant.queueReference {m : DmlKernelManager Key κ} (inv : Invariant m) (kernel : κ)
    (gpuEvent : DmlGpuEvent) : Invariant (m.queueReference kernel gpuEvent) :=
  ⟨⟨inv.keys, inv.nodes, inv.fresh, inv.points⟩, inv.size⟩

theorem Invariant.clearCache {m : DmlKernelManager Key κ} : Invariant m.clearCache where
  keys := .refl _
  nodes := .nil
  fresh := by simp [DmlKernelManager.clearCache]
  points := by simp [DmlKernelManager.clearCache]
  size := Nat.zero_le _

theorem onRecentlyUsed_insertEntry (m : DmlKernelManager Key κ) (key : Key) (kernel : κ) :
    (m.insertEntry key kernel).onRecentlyUsed key = m.insertEntry key kernel := by
  simp [DmlKernelManager.onRecentlyUsed, DmlKernelManager.insertEntry]

theorem Invariant.created_cached {m : DmlKernelManager Key κ} (inv : Invariant m) {key : Key}
    (absent : key ∉ m.kernelCache) (room : 0 < m.maxCacheSize) (kernel : κ) :
    ((m.createCachedKernel key kernel).2.kernelCache.lookup key).map CacheEntry.kernel =
      some kernel := by
  have ins := inv.toLinked.insertEntry absent kernel
  have got : (m.insertEntry key kernel).kernelCache.lookup key = some ⟨kernel, m.nextNode⟩ := by
    simp [DmlKernelManager.insertEntry]
  simp only [DmlKernelManager.createCachedKernel, absent, if_false, onRecentlyUsed_insertEntry]
  unfold DmlKernelManager.trimCache
  split
  · rw [got]
    rfl
  · rename_i large
    split
    · rename_i node lruKey last
      have ne : key ≠ lruKey := by
        -- the list has more than one node, and only the first one holds the key
        rintro rfl
        have length := ins.length_lruList
        have nodup := ins.keys_nodup
        change ((m.nextNode, key) :: m.lruList).getLast? = some (node, key) at last
        change ¬ (m.insertEntry key kernel).getCacheSize ≤ m.maxCacheSize at large
        have used : m.lruList ≠ [] := by
          rintro empty
          simp only [DmlKernelManager.insertEntry, empty, length_cons, length_nil]
            at length
          change 0 + 1 = (m.insertEntry key kernel).getCacheSize at length
          omega
        rw [getLast?_cons, getLast?_eq_some_getLast used] at last
        have mem : (node, key) ∈ m.lruList := by
          have same : m.lruList.getLast used = (node, key) := by simpa using last
          exact same ▸ getLast_mem used
        simp only [DmlKernelManager.insertEntry, map_cons, nodup_cons] at nodup
        exact nodup.1 (List.mem_map_of_mem (f := Prod.snd) mem)
      rw [lookup_erase_ne ne, got]
      rfl
    · rw [got]
      rfl

theorem Invariant.created_evicted {m : DmlKernelManager Key κ} (inv : Invariant m) {key : Key}
    (absent : key ∉ m.kernelCache) (full : m.maxCacheSize = 0) (kernel : κ) (k : Key) :
    (m.createCachedKernel key kernel).2.kernelCache.lookup k = none := by
  have size := (inv.createCachedKernel key kernel).size
  have same : (m.createCachedKernel key kernel).2.maxCacheSize = m.maxCacheSize := by
    simp only [DmlKernelManager.createCachedKernel, absent, if_false]
    unfold DmlKernelManager.trimCache
    split
    · exact maxCacheSize_onRecentlyUsed _ _
    · split <;> exact maxCacheSize_onRecentlyUsed _ _
  rw [same, full, Nat.le_zero] at size
  rw [lookup_eq_none, AList.mem_keys]
  have empty : (m.createCachedKernel key kernel).2.kernelCache.entries = [] :=
    eq_nil_of_length_eq_zero size
  simp [AList.keys, empty]

theorem tryGetCachedKernel_fst (m : DmlKernelManager Key κ) (key : Key) :
    (m.tryGetCachedKernel key).1 = (m.kernelCache.lookup key).map CacheEntry.kernel := by
  unfold tryGetCachedKernel
  split <;> simp [*]

/-- Every cached kernel satisfies `P` with its key. -/
def EveryCached (P : Key → κ → Prop) (m : DmlKernelManager Key κ) : Prop :=
  ∀ key kernel, (m.kernelCache.lookup key).map CacheEntry.kernel = some kernel → P key kernel

namespace EveryCached

variable {P : Key → κ → Prop} {m : DmlKernelManager Key κ}

theorem tryGetCachedKernel (every : EveryCached P m) (key : Key) :
    EveryCached P (m.tryGetCachedKernel key).2 := by
  unfold DmlKernelManager.tryGetCachedKernel
  split
  · exact every
  · intro k kernel got
    rw [kernel_onRecentlyUsed] at got
    exact every k kernel got

theorem createCachedKernel (inv : Invariant m) (every : EveryCached P m) {key : Key} {kernel : κ}
    (new : key ∉ m.kernelCache → m.maxCacheSize ≠ 0 → P key kernel) :
    EveryCached P (m.createCachedKernel key kernel).2 := by
  intro k kept got
  by_cases cached : key ∈ m.kernelCache
  · simp only [DmlKernelManager.createCachedKernel, cached, if_true] at got
    rw [kernel_onRecentlyUsed] at got
    exact every k kept got
  · by_cases full : m.maxCacheSize = 0
    · rw [inv.created_evicted cached full] at got
      cases got
    · simp only [DmlKernelManager.createCachedKernel, cached, if_false] at got
      obtain ⟨entry, survived, rfl⟩ := Option.map_eq_some_iff.mp got
      have pre := congrArg (Option.map CacheEntry.kernel) (lookup_of_trimCache survived)
      rw [kernel_onRecentlyUsed] at pre
      by_cases same : k = key
      · subst same
        have ins : kernel = entry.kernel := by simpa [insertEntry] using pre
        exact ins ▸ new cached full
      · apply every k entry.kernel
        simpa [insertEntry, lookup_insert_ne same] using pre

theorem clearCache : EveryCached P m.clearCache := by
  intro key kernel got
  simp [DmlKernelManager.clearCache] at got

end EveryCached

/-- A kernel object, with the status that its construction left in the context. -/
structure Kernel where
  object : Nat
  status : Status
  deriving DecidableEq, Repr

inductive Action (Key : Type) where
  | tryGetCachedKernel (key : Key)
  | createCachedKernel (key : Key) (kernel : Kernel)
  | clearCache

def step (m : DmlKernelManager Key Kernel) : Action Key → Option (DmlKernelManager Key Kernel)
  | .tryGetCachedKernel key => some (m.tryGetCachedKernel key).2
  | .createCachedKernel key kernel => some (m.createCachedKernel key kernel).2
  | .clearCache => some m.clearCache

/-- After the step, no lookup returns a kernel whose construction failed. -/
def ServesOnlyOk (_ : DmlKernelManager Key Kernel) (_ : Action Key)
    (after : DmlKernelManager Key Kernel) : Prop :=
  ∀ key kernel, (after.tryGetCachedKernel key).1 = some kernel → kernel.status.isOk = true

/-- A kernel whose construction failed is created for a key that is cached already, or in
    a cache without room. -/
def NotInserted (m : DmlKernelManager Key Kernel) (a : Action Key)
    (_ : DmlKernelManager Key Kernel) : Prop :=
  ∀ key kernel, a = .createCachedKernel key kernel → kernel.status.isOk = false →
    key ∈ m.kernelCache ∨ m.maxCacheSize = 0

def OnlyOk (m : DmlKernelManager Key Kernel) : Prop :=
  EveryCached (fun _ kernel => kernel.status.isOk = true) m

theorem servesOnlyOk_iff (m : DmlKernelManager Key Kernel) (a : Action Key)
    (after : DmlKernelManager Key Kernel) : ServesOnlyOk m a after ↔ OnlyOk after := by
  unfold ServesOnlyOk OnlyOk EveryCached
  simp only [tryGetCachedKernel_fst]

theorem step_onlyOk {m after : DmlKernelManager Key Kernel} {a : Action Key}
    (holds : Invariant m ∧ OnlyOk m) (taken : step m a = some after)
    (outside : NotInserted m a after) :
    (Invariant after ∧ OnlyOk after) ∧ ServesOnlyOk m a after := by
  rw [servesOnlyOk_iff]
  obtain ⟨inv, only⟩ := holds
  cases a with
  | tryGetCachedKernel key =>
    obtain rfl := Option.some.inj taken
    have kept := EveryCached.tryGetCachedKernel only key
    exact ⟨⟨inv.tryGetCachedKernel key, kept⟩, kept⟩
  | createCachedKernel key kernel =>
    obtain rfl := Option.some.inj taken
    have kept : OnlyOk (m.createCachedKernel key kernel).2 := by
      apply EveryCached.createCachedKernel inv only
      intro absent room
      by_contra err
      exact (outside key kernel rfl (Bool.eq_false_iff.mpr err)).elim absent room
    exact ⟨⟨inv.createCachedKernel key kernel, kept⟩, kept⟩
  | clearCache =>
    obtain rfl := Option.some.inj taken
    exact ⟨⟨.clearCache, .clearCache⟩, EveryCached.clearCache⟩

theorem step_serves_failed {m after : DmlKernelManager Key Kernel} {a : Action Key}
    (holds : Invariant m ∧ OnlyOk m) (taken : step m a = some after)
    (ins : ¬ NotInserted m a after) : ¬ ServesOnlyOk m a after := by
  rw [servesOnlyOk_iff]
  intro only
  unfold NotInserted at ins
  push Not at ins
  obtain ⟨key, kernel, rfl, err, absent, room⟩ := ins
  obtain rfl := Option.some.inj taken
  have ok := only key kernel
    (holds.1.created_cached absent (Nat.pos_of_ne_zero room) kernel)
  simp [err] at ok

/-- Along a run, no state serves a failed kernel exactly when none is inserted. -/
theorem runs_serve_only_ok_iff (maxCacheSize : Nat) (actions : List (Action Key)) :
    EveryStep step ServesOnlyOk { maxCacheSize := maxCacheSize } actions ↔
      EveryStep step NotInserted { maxCacheSize := maxCacheSize } actions :=
  everyStep_iff (fun _ _ _ => step_onlyOk) (fun _ _ _ => step_serves_failed)
    ⟨invariant_init maxCacheSize, by simp [OnlyOk, EveryCached]⟩ actions

def failedConstruction : List (Action Nat) :=
  [.createCachedKernel 0 ⟨7, .resourceExhausted "OOM when allocating a buffer of 256 bytes"⟩]

theorem failedConstruction_served : ¬ ∀ actions : List (Action Nat),
      EveryStep step ServesOnlyOk { maxCacheSize := kDefaultMaxCacheSize } actions := by
  intro every
  obtain ⟨serves, -⟩ := every failedConstruction _ rfl
  have ok := serves 0 ⟨7, .resourceExhausted "OOM when allocating a buffer of 256 bytes"⟩ rfl
  simp [Status.isOk] at ok

end TfDml.KernelManager
