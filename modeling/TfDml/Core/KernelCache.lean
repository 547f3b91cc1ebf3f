import TfDml.Core.KernelManager
import TfDml.Lib.Recency

/-! # The order of the kernel cache

`CreateCachedKernel` constructs its kernel before it takes the mutex, so other
threads come between the construction and the insertion. Everything else is done
under the mutex. A log of the uses, the newest first, says what the order of the
list is to be.
-/

namespace TfDml.KernelCache

open Lib KernelManager DmlKernelManager List Option
open AList

/-- An equality of keys with a hash, as the hash map requires them. -/
structure KeyEquality (K : Type) where
  eq : K → K → Bool
  hash : K → Nat
  refl : ∀ a, eq a a = true
  symm : ∀ a b, eq a b = true → eq b a = true
  trans : ∀ a b c, eq a b = true → eq b c = true → eq a c = true
  compatible : ∀ a b, eq a b = true → hash a = hash b

namespace KeyEquality

variable {K : Type} (keys : KeyEquality K)

def finds (a b : K) : Bool := keys.hash a == keys.hash b && keys.eq a b

theorem finds_iff (a b : K) : keys.finds a b = true ↔ keys.eq a b = true := by
  simp only [finds, Bool.and_eq_true, beq_iff_eq, and_iff_right_iff_imp]
  exact keys.compatible a b

def setoid : Setoid K where
  r a b := keys.finds a b = true
  iseqv := by
    constructor
    · exact fun a => (keys.finds_iff a a).mpr (keys.refl a)
    · intro a b same
      rw [finds_iff] at same ⊢
      exact keys.symm a b same
    · intro a b c first second
      rw [finds_iff] at first second ⊢
      exact keys.trans a b c first second

def Key : Type := Quotient keys.setoid

instance : DecidableEq keys.Key :=
  @Quotient.decidableEq _ keys.setoid fun a b =>
    inferInstanceAs (Decidable (keys.finds a b = true))

def key (a : K) : keys.Key := Quotient.mk keys.setoid a

end KeyEquality

abbrev CallId := Nat

/-- The manager, the calls that have constructed their kernel and not inserted it yet, and
    the uses of keys that were cached. -/
structure State (Key κ : Type) where
  manager : DmlKernelManager Key κ
  constructed : AList (fun _ : CallId => Key × κ) := ∅
  uses : List Key := []

inductive Action (K κ : Type) where
  | tryGetCachedKernel (key : K)
  /-- `CreateCachedKernel` up to the mutex. -/
  | constructKernel (call : CallId) (key : K) (kernel : κ)
  /-- `CreateCachedKernel` from the mutex on. -/
  | insertKernel (call : CallId)
  | clearCache

variable {K κ : Type} {keys : KeyEquality K}

def step (s : State keys.Key κ) : Action K κ → Option (State keys.Key κ)
  | .tryGetCachedKernel raw =>
    let key := keys.key raw
    some
      { s with
        manager := (s.manager.tryGetCachedKernel key).2
        uses := if key ∈ s.manager.kernelCache then key :: s.uses else s.uses }
  | .constructKernel call raw kernel =>
    if call ∈ s.constructed then none
    else some { s with constructed := s.constructed.insert call (keys.key raw, kernel) }
  | .insertKernel call =>
    match s.constructed.lookup call with
    | some (key, kernel) =>
      some
        { s with
          manager := (s.manager.createCachedKernel key kernel).2
          constructed := s.constructed.erase call
          uses := key :: s.uses }
    | none => none
  | .clearCache => some { s with manager := s.manager.clearCache }

/-- The keys of the list, the most recently used first. -/
def lruKeys {Key : Type} (m : DmlKernelManager Key κ) : List Key := m.lruList.map Prod.snd

structure Consistent {Key : Type} [DecidableEq Key] (s : State Key κ) : Prop where
  nodup : (lruKeys s.manager).Nodup
  keys : (lruKeys s.manager).Perm s.manager.kernelCache.keys
  nodes : ∀ key entry, s.manager.kernelCache.lookup key = some entry →
    s.manager.lruList.find? (·.1 == entry.lruIter) = some (entry.lruIter, key)
  order : ByRecency s.uses (lruKeys s.manager)
  size : s.manager.getCacheSize ≤ s.manager.maxCacheSize

/-- The key that the step inserts, if it is not cached yet. -/
def inserted {Key : Type} (s : State Key κ) : Action K κ → Option (Key × κ)
  | .insertKernel call => s.constructed.lookup call
  | _ => none

/-- Without a clearing of the cache, the keys that were there or are inserted stay with their
    kernels, except that when they are too many, the one whose last use is longest ago goes. -/
structure EvictsOldest {Key : Type} [DecidableEq Key] (s : State Key κ) (a : Action K κ)
    (t : State Key κ) : Prop where
  cleared : a = .clearCache → t.manager.getCacheSize = 0
  kept : ∀ key kernel, (s.manager.kernelCache.lookup key).map CacheEntry.kernel = some kernel →
    key ∈ t.manager.kernelCache →
      (t.manager.kernelCache.lookup key).map CacheEntry.kernel = some kernel
  new : ∀ key kernel, (t.manager.kernelCache.lookup key).map CacheEntry.kernel = some kernel →
    key ∉ s.manager.kernelCache → inserted s a = some (key, kernel)
  evicted : ∀ key, (key ∈ s.manager.kernelCache ∨ ∃ kernel, inserted s a = some (key, kernel)) →
    key ∉ t.manager.kernelCache → a ≠ .clearCache →
      s.manager.getCacheSize = s.manager.maxCacheSize ∧ ∀ other, (other ∈ s.manager.kernelCache ∨
            ∃ kernel, inserted s a = some (other, kernel)) → other ≠ key →
          other ∈ t.manager.kernelCache ∧ lastUse t.uses key < lastUse t.uses other

section Lists

variable {Key : Type} [DecidableEq Key] {m : DmlKernelManager Key κ}

theorem mem_lruKeys (linked : Linked m) (key : Key) : key ∈ lruKeys m ↔ key ∈ m.kernelCache :=
  linked.keys.mem_iff

theorem lruKeys_onRecentlyUsed (linked : Linked m) {key : Key} (cached : key ∈ m.kernelCache) :
    lruKeys (m.onRecentlyUsed key) = key :: (lruKeys m).erase key := by
  obtain ⟨entry, got⟩ := isSome_iff_exists.mp (lookup_isSome.mpr cached)
  obtain ⟨front, back, split, erased⟩ := linked.split_at got
  have keysSplit : lruKeys m = front.map Prod.snd ++ key :: back.map Prod.snd := by
    simp [lruKeys, split]
  have absent : key ∉ front.map Prod.snd := by
    have nodup : (lruKeys m).Nodup := linked.keys_nodup
    rw [keysSplit, nodup_append] at nodup
    intro member
    exact nodup.2.2 key member key mem_cons_self rfl
  have rest : (lruKeys m).erase key = front.map Prod.snd ++ back.map Prod.snd := by
    rw [keysSplit, erase_append_right _ absent, erase_cons_head]
  rw [rest]
  unfold onRecentlyUsed
  simp only [got]
  split
  · -- the node is the first of the list already
    rename_i first
    cases front with
    | nil => exact keysSplit
    | cons node others =>
      simp only [split, cons_append, head?_cons, map_some, Option.some.injEq] at first
      have nodes := linked.nodes
      rw [split] at nodes
      simp [first] at nodes
  · simp [lruKeys, erased]

theorem lruKeys_insertEntry (key : Key) (kernel : κ) :
    lruKeys (m.insertEntry key kernel) = key :: lruKeys m := rfl

theorem lruKeys_trimCache (m : DmlKernelManager Key κ) : lruKeys m.trimCache =
      if m.getCacheSize ≤ m.maxCacheSize then lruKeys m else (lruKeys m).dropLast := by
  unfold trimCache getCacheSize
  split
  · rfl
  · rename_i large
    split
    · simp [lruKeys]
    · rename_i none_
      simp [lruKeys, getLast?_eq_none_iff.mp none_]

theorem find_node (linked : Linked m) {key : Key} {entry : CacheEntry κ}
    (got : m.kernelCache.lookup key = some entry) :
    m.lruList.find? (·.1 == entry.lruIter) = some (entry.lruIter, key) := by
  obtain ⟨front, back, split⟩ := append_of_mem (linked.points key entry got)
  have nodes := linked.nodes
  rw [split, map_append, map_cons, nodup_append] at nodes
  rw [split, find?_append, find?_eq_none.mpr]
  · simp
  · intro node member same
    simp only [beq_iff_eq] at same
    exact nodes.2.2 node.1 (List.mem_map_of_mem member) entry.lruIter (by simp) same

end Lists

section Steps

variable {Key : Type} [DecidableEq Key]

/-- The invariant of the manager, and the order of its list. -/
structure Ordered (s : State Key κ) : Prop where
  manager : Invariant s.manager
  order : ByRecency s.uses (lruKeys s.manager)

variable {s : State Key κ}

theorem Ordered.consistent (lt : Ordered s) : Consistent s where
  nodup := lt.manager.toLinked.keys_nodup
  keys := lt.manager.keys
  nodes := fun _ _ got => find_node lt.manager.toLinked got
  order := lt.order
  size := lt.manager.size

theorem ordered_init (maxCacheSize : Nat) :
    Ordered ({ manager := { maxCacheSize := maxCacheSize } } : State Key κ) where
  manager := invariant_init maxCacheSize
  order := .nil

theorem Ordered.used (lt : Ordered s) {key : Key} (cached : key ∈ s.manager.kernelCache) :
    Invariant (s.manager.onRecentlyUsed key) ∧
      ByRecency (key :: s.uses) (lruKeys (s.manager.onRecentlyUsed key)) := by
  have linked := lt.manager.toLinked
  refine ⟨lt.manager.onRecentlyUsed key, ?_⟩
  rw [lruKeys_onRecentlyUsed linked cached]
  exact lt.order.touch linked.keys_nodup key

variable {t : State Key κ}

theorem evictsOldest_of_same {a : Action K κ} (other : a ≠ .clearCache)
    (known : ∀ key kernel, inserted s a = some (key, kernel) → key ∈ s.manager.kernelCache)
    (same : ∀ key, (t.manager.kernelCache.lookup key).map CacheEntry.kernel =
      (s.manager.kernelCache.lookup key).map CacheEntry.kernel) : EvictsOldest s a t := by
  have mem (key : Key) : key ∈ t.manager.kernelCache ↔ key ∈ s.manager.kernelCache := by
    rw [← lookup_isSome, ← lookup_isSome, ← isSome_map, same, isSome_map]
  constructor
  · exact fun clears => absurd clears other
  · intro key kernel got _
    rw [same, got]
  · intro key kernel got absent
    rw [same] at got
    have cached : key ∈ s.manager.kernelCache := by
      rw [← lookup_isSome, ← isSome_map, got]
      rfl
    exact absurd cached absent
  · intro key present gone
    rw [mem] at gone
    rcases present with cached | ⟨kernel, isInserted⟩
    · exact absurd cached gone
    · exact absurd (known key kernel isInserted) gone

theorem mem_insertEntry (m : DmlKernelManager Key κ) (key : Key) (kernel : κ) (k : Key) :
    k ∈ (m.insertEntry key kernel).kernelCache ↔ k = key ∨ k ∈ m.kernelCache :=
  mem_insert _

variable {kernel : κ}

theorem Ordered.insertNew (lt : Ordered s) {key : Key} (absent : key ∉ s.manager.kernelCache) :
    ByRecency (key :: s.uses) (lruKeys (s.manager.insertEntry key kernel)) := by
  rw [lruKeys_insertEntry]
  apply lt.order.cons
  rwa [mem_lruKeys lt.manager.toLinked]

theorem createCachedKernel_new {m : DmlKernelManager Key κ} {key : Key}
    (absent : key ∉ m.kernelCache) (kernel : κ) :
    (m.createCachedKernel key kernel).2 = (m.insertEntry key kernel).trimCache := by
  simp only [DmlKernelManager.createCachedKernel, absent, if_false, onRecentlyUsed_insertEntry]

theorem Ordered.trimmed (ordered : Ordered s) {key : Key} (absent : key ∉ s.manager.kernelCache)
    {victim : Key} (present : victim ∈ (s.manager.insertEntry key kernel).kernelCache)
    (gone : victim ∉ (s.manager.insertEntry key kernel).trimCache.kernelCache) :
    s.manager.getCacheSize = s.manager.maxCacheSize ∧
      ∀ other ∈ (s.manager.insertEntry key kernel).kernelCache, other ≠ victim →
        other ∈ (s.manager.insertEntry key kernel).trimCache.kernelCache ∧
          lastUse (key :: s.uses) victim < lastUse (key :: s.uses) other := by
  have linked := ordered.manager.toLinked.insertEntry absent kernel
  have order : ByRecency (key :: s.uses) (lruKeys (s.manager.insertEntry key kernel)) :=
    ordered.insertNew absent
  have size : (s.manager.insertEntry key kernel).getCacheSize = s.manager.getCacheSize + 1 := by
    rw [← linked.length_lruList, ← ordered.manager.toLinked.length_lruList]
    rfl
  have keys := lruKeys_trimCache (s.manager.insertEntry key kernel)
  rw [← mem_lruKeys linked.trimCache] at gone
  rw [← mem_lruKeys linked] at present
  by_cases fits : (s.manager.insertEntry key kernel).getCacheSize ≤
      (s.manager.insertEntry key kernel).maxCacheSize
  · rw [keys, if_pos fits] at gone
    exact absurd present gone
  · rw [keys, if_neg fits] at gone
    constructor
    · have bound := ordered.manager.size
      change ¬ _ ≤ s.manager.maxCacheSize at fits
      omega
    · have some_ : lruKeys (s.manager.insertEntry key kernel) ≠ [] := ne_nil_of_mem present
      obtain ⟨front, oldest, split⟩ := eq_nil_or_concat _ |>.resolve_left some_
      rw [concat_eq_append] at split
      rw [split, dropLast_concat] at gone
      rw [split] at present order
      have isOldest : victim = oldest := by
        rcases mem_append.mp present with inFront | last
        · exact absurd inFront gone
        · exact mem_singleton.mp last
      intro other lt ne
      rw [← mem_lruKeys linked, split] at lt
      have inFront : other ∈ front := by
        rcases mem_append.mp lt with inFront | last
        · exact inFront
        · exact absurd ((mem_singleton.mp last).trans isOldest.symm) ne
      rw [← mem_lruKeys linked.trimCache, keys, if_neg fits, split, dropLast_concat, isOldest]
      exact ⟨inFront, order.last_oldest inFront⟩

variable {call : CallId}

theorem Ordered.create_new {key : Key} (ordered : Ordered s)
    (waiting : s.constructed.lookup call = some (key, kernel))
    (absent : key ∉ s.manager.kernelCache)
    (manager : t.manager = (s.manager.insertEntry key kernel).trimCache)
    (uses : t.uses = key :: s.uses) :
    Ordered t ∧ EvictsOldest s (.insertKernel call : Action K κ) t := by
  have isInserted : inserted s (.insertKernel call : Action K κ) = some (key, kernel) := waiting
  have present (k : Key) : (k ∈ s.manager.kernelCache ∨
      ∃ kernel', inserted s (.insertKernel call : Action K κ) = some (k, kernel')) ↔
        k ∈ (s.manager.insertEntry key kernel).kernelCache := by
    rw [mem_insertEntry, isInserted, or_comm]
    simp [eq_comm]
  constructor
  · constructor
    · rw [manager, ← createCachedKernel_new absent]
      exact ordered.manager.createCachedKernel key kernel
    · have order : ByRecency (key :: s.uses) (lruKeys (s.manager.insertEntry key kernel)) :=
        ordered.insertNew absent
      rw [manager, uses, lruKeys_trimCache]
      split
      · exact order
      · exact order.sublist (dropLast_sublist _)
  · constructor
    · exact nofun
    · intro k old got stays
      rw [manager] at stays ⊢
      obtain ⟨entry, lookup⟩ := isSome_iff_exists.mp (lookup_isSome.mpr stays)
      have pre := lookup_of_trimCache lookup
      have ne : k ≠ key := by
        rintro rfl
        rw [lookup_eq_none.mpr absent] at got
        cases got
      change (s.manager.kernelCache.insert key _).lookup k = some entry at pre
      rw [lookup_insert_ne ne] at pre
      rw [lookup, ← pre]
      exact got
    · intro k new got unknown
      rw [manager] at got
      obtain ⟨entry, lookup, rfl⟩ := map_eq_some_iff.mp got
      have pre := lookup_of_trimCache lookup
      change (s.manager.kernelCache.insert key _).lookup k = some entry at pre
      by_cases same : k = key
      · subst same
        rw [lookup_insert, Option.some.injEq] at pre
        rw [isInserted, ← pre]
      · rw [lookup_insert_ne same] at pre
        exact absurd (lookup_isSome.mp (by simp [pre])) unknown
    · intro victim was gone _
      rw [manager] at gone ⊢
      rw [uses]
      obtain ⟨full, others⟩ := ordered.trimmed absent ((present victim).mp was) gone
      exact ⟨full, fun other here => others other ((present other).mp here)⟩

theorem Ordered.create_known {key : Key} (ordered : Ordered s)
    (waiting : s.constructed.lookup call = some (key, kernel))
    (cached : key ∈ s.manager.kernelCache) (manager : t.manager = s.manager.onRecentlyUsed key)
    (uses : t.uses = key :: s.uses) :
    Ordered t ∧ EvictsOldest s (.insertKernel call : Action K κ) t := by
  obtain ⟨inv, order⟩ := ordered.used cached
  refine ⟨⟨manager ▸ inv, by rw [uses, manager]; exact order⟩, evictsOldest_of_same nofun ?_ ?_⟩
  · intro k other isInserted
    have same : (k, other) = (key, kernel) := some.inj (isInserted.symm.trans waiting)
    exact (Prod.mk.inj same).1 ▸ cached
  · intro k
    rw [manager, kernel_onRecentlyUsed]

end Steps

theorem step_ordered {s t : State keys.Key κ} {a : Action K κ} (ordered : Ordered s)
    (taken : step s a = some t) : Ordered t ∧ EvictsOldest s a t := by
  cases a with
  | tryGetCachedKernel raw =>
    obtain rfl := some.inj taken
    by_cases cached : keys.key raw ∈ s.manager.kernelCache
    · obtain ⟨entry, got⟩ := isSome_iff_exists.mp (lookup_isSome.mpr cached)
      obtain ⟨inv, order⟩ := ordered.used cached
      have hit : (s.manager.tryGetCachedKernel (keys.key raw)).2 =
          s.manager.onRecentlyUsed (keys.key raw) := by
        simp [DmlKernelManager.tryGetCachedKernel, got]
      simp only [if_pos cached, hit]
      exact ⟨⟨inv, order⟩, evictsOldest_of_same nofun nofun
        (fun k => kernel_onRecentlyUsed s.manager (keys.key raw) k)⟩
    · have miss : (s.manager.tryGetCachedKernel (keys.key raw)).2 = s.manager := by
        simp [DmlKernelManager.tryGetCachedKernel, lookup_eq_none.mpr cached]
      simp only [if_neg cached, miss]
      exact ⟨ordered, evictsOldest_of_same nofun nofun fun _ => rfl⟩
  | constructKernel call raw kernel =>
    simp only [step, ite_none_left_eq_some, Option.some.injEq] at taken
    obtain ⟨-, rfl⟩ := taken
    exact ⟨⟨ordered.manager, ordered.order⟩, evictsOldest_of_same nofun nofun fun _ => rfl⟩
  | insertKernel call =>
    cases waiting : s.constructed.lookup call with
    | none => simp [step, waiting] at taken
    | some pair =>
      obtain ⟨key, kernel⟩ := pair
      simp only [step, waiting, Option.some.injEq] at taken
      subst taken
      by_cases cached : key ∈ s.manager.kernelCache
      · apply ordered.create_known waiting cached _ rfl
        simp [DmlKernelManager.createCachedKernel, cached]
      · exact ordered.create_new waiting cached (createCachedKernel_new cached kernel) rfl
  | clearCache =>
    obtain rfl := some.inj taken
    refine ⟨⟨.clearCache, .nil⟩, ?_⟩
    constructor
    · exact fun _ => rfl
    · exact fun key _ _ cached => absurd cached (notMem_empty key)
    · intro key kernel got
      simp [DmlKernelManager.clearCache] at got
    · exact fun _ _ _ other => absurd rfl other

/-- After every step of every run the list and the map agree, the list is in the order of
    last use, and what was evicted was the least recently used key. -/
theorem cache_least_recently_used (keys : KeyEquality K) (maxCacheSize : Nat)
    (actions : List (Action K κ)) :
    EveryStep (fun (s : State keys.Key κ) (a : Action K κ) => step s a)
      (fun s a t => Consistent t ∧ EvictsOldest s a t)
      { manager := { maxCacheSize := maxCacheSize } } actions := by
  apply everyStep_invariant _ (ordered_init maxCacheSize)
  intro s a t lt taken
  obtain ⟨next, evicts⟩ := step_ordered lt taken
  exact ⟨next, next.consistent, evicts⟩

end TfDml.KernelCache
