import TfDml.Lib.Run
import Mathlib.Data.List.AList
import Mathlib.Data.List.Count

/-! # Owners of descriptors

A `DescriptorAllocation` owns descriptors of an allocator and gives them back when
it is reset or destroyed. It is moved by hand-written move operations. The n-th
pointer that the allocators hand out is the number n, so that a pointer that is
handed out again later is another one.
-/

namespace TfDml.Descriptors

open Lib List
open AList

abbrev AllocatorId := Nat
abbrev Pointer := Nat
abbrev ObjectId := Nat

structure DescriptorAllocation where
  allocator : Option AllocatorId := none
  p : Option Pointer := none
  sizeInDescriptors : Nat := 0
  deriving DecidableEq

namespace DescriptorAllocation

def owned (x : DescriptorAllocation) : List (AllocatorId × Pointer) :=
  match x.allocator, x.p with
  | some allocator, some p => [(allocator, p)]
  | _, _ => []

@[simp] theorem owned_null (sizeInDescriptors : Nat) :
    (⟨none, none, sizeInDescriptors⟩ : DescriptorAllocation).owned = [] := rfl

end DescriptorAllocation

/-- The objects that are alive, the pointers that `AllocateRaw` has returned, and the calls of
    `DeallocateRaw`. -/
structure State where
  objects : AList (fun _ : ObjectId => DescriptorAllocation) := ∅
  obtained : List (AllocatorId × Pointer) := []
  deallocated : List (AllocatorId × Pointer) := []

inductive Action where
  | construct (id : ObjectId)
  /-- An object from `DmlDescriptorAllocator::Alloc`; `AllocateRaw` may fail. -/
  | alloc (id : ObjectId) (allocator : AllocatorId) (sizeInDescriptors : Nat) (succeeds : Bool)
  | moveConstruct (id source : ObjectId)
  | moveAssign (target source : ObjectId)
  | reset (id : ObjectId)
  | destroy (id : ObjectId)

def alloc (s : State) (allocator : AllocatorId) (sizeInDescriptors : Nat) (succeeds : Bool) :
    DescriptorAllocation × State :=
  if sizeInDescriptors = 0 then (⟨none, none, 0⟩, s)
  else if succeeds then
    let p := s.obtained.length
    (⟨some allocator, some p, sizeInDescriptors⟩,
      { s with obtained := s.obtained ++ [(allocator, p)] })
  else (⟨some allocator, none, sizeInDescriptors⟩, s)

def setObject (s : State) (id : ObjectId) (x : DescriptorAllocation) : State :=
  { s with objects := s.objects.insert id x }

def moveAssign (s : State) (target source : ObjectId) (x : DescriptorAllocation) : State :=
  if target ≠ source then setObject (setObject s target x) source ⟨none, none, 0⟩ else s

/-- `Reset` of an object. -/
def reset (s : State) (id : ObjectId) (x : DescriptorAllocation) : State :=
  setObject { s with deallocated := s.deallocated ++ x.owned } id ⟨none, none, 0⟩

def step (s : State) : Action → Option State
  | .construct id =>
    match s.objects.lookup id with
    | none => some (setObject s id {})
    | some _ => none
  | .alloc id allocator sizeInDescriptors succeeds =>
    match s.objects.lookup id with
    | none =>
      let (x, s) := alloc s allocator sizeInDescriptors succeeds
      some (setObject s id x)
    | some _ => none
  | .moveConstruct id source =>
    match s.objects.lookup id, s.objects.lookup source with
    | none, some x => some (moveAssign (setObject s id {}) id source x)
    | _, _ => none
  | .moveAssign target source =>
    match s.objects.lookup target, s.objects.lookup source with
    | some _, some x => some (moveAssign s target source x)
    | _, _ => none
  | .reset id =>
    match s.objects.lookup id with
    | some x => some (reset s id x)
    | none => none
  | .destroy id =>
    match s.objects.lookup id with
    | some x =>
      let s := reset s id x
      some { s with objects := s.objects.erase id }
    | none => none

def GivenBackOnce (s : State) : Prop := ∀ pointer ∈ s.obtained, s.deallocated.count pointer = 1

/-- A move assignment overwrites no object that owns something, other than itself. -/
def TargetEmpty (s : State) (a : Action) (_ : State) : Prop :=
  ∀ target source x, a = .moveAssign target source → s.objects.lookup target = some x →
    target ≠ source → x.owned = []

abbrev Objects := AList (fun _ : ObjectId => DescriptorAllocation)

def held (objects : Objects) : List (AllocatorId × Pointer) :=
  objects.entries.flatMap fun entry => entry.2.owned

theorem entries_erase (objects : Objects) (id : ObjectId) :
    (objects.erase id).entries = objects.entries.kerase id := rfl

theorem held_insert (objects : Objects) (id : ObjectId) (x : DescriptorAllocation) :
    held (objects.insert id x) = x.owned ++ held (objects.erase id) := by
  simp [held, entries_insert, entries_erase]

theorem erase_insert (objects : Objects) (id : ObjectId) (x : DescriptorAllocation) :
    (objects.insert id x).erase id = objects.erase id := by
  apply AList.ext
  simp [entries_erase, entries_insert]

variable {objects : Objects}

theorem erase_of_lookup_none {id : ObjectId} (dead : objects.lookup id = none) :
    objects.erase id = objects := by
  apply AList.ext
  exact kerase_of_notMem_keys (lookup_eq_none.mp dead)

variable {x : DescriptorAllocation}

theorem held_lookup {id : ObjectId} (alive : objects.lookup id = some x) :
    (held objects).Perm (x.owned ++ held (objects.erase id)) := by
  have mem : id ∈ objects.entries.keys := lookup_isSome.mp (by simp [alive])
  obtain ⟨y, front, back, -, split, erased⟩ := exists_of_kerase mem
  have entry : (⟨id, x⟩ : Sigma fun _ : ObjectId => DescriptorAllocation) ∈ objects.entries :=
    mem_lookup_iff.mp alive
  have same : x = y := objects.nodupKeys.eq_of_mk_mem entry (by rw [split]; simp)
  subst same
  have rest : held (objects.erase id) = (front ++ back).flatMap fun entry => entry.2.owned := by
    rw [← erased]
    rfl
  rw [rest, held, split]
  simp only [flatMap_append, flatMap_cons]
  exact perm_append_comm_assoc _ _ _

/-- Everything obtained is held by an object, leaked or given back. -/
structure Ledger (leaked : List (AllocatorId × Pointer)) (s : State) : Prop where
  numbered : s.obtained.map Prod.snd = List.range s.obtained.length
  balance : (held s.objects ++ leaked ++ s.deallocated).Perm s.obtained

theorem ledger_init : Ledger [] {} where
  numbered := rfl
  balance := by simp [held]

variable {leaked : List (AllocatorId × Pointer)} {s : State} {id : ObjectId}

theorem Ledger.construct (ledger : Ledger leaked s) (dead : s.objects.lookup id = none)
    (empty : x.owned = []) : Ledger leaked (setObject s id x) where
  numbered := ledger.numbered
  balance := by
    rw [setObject, held_insert, empty, nil_append, erase_of_lookup_none dead]
    exact ledger.balance

theorem Ledger.alloc (ledger : Ledger leaked s) (dead : s.objects.lookup id = none)
    (allocator : AllocatorId) (sizeInDescriptors : Nat) (succeeds : Bool) :
    Ledger leaked (setObject (alloc s allocator sizeInDescriptors succeeds).2 id
      (alloc s allocator sizeInDescriptors succeeds).1) := by
  unfold Descriptors.alloc
  split_ifs
  · exact ledger.construct dead rfl
  · refine ⟨?_, ?_⟩
    · simp [setObject, ledger.numbered, range_succ]
    · simp only [setObject, held_insert, erase_of_lookup_none dead]
      refine List.Perm.trans ?_ (ledger.balance.append_right _)
      exact (perm_append_singleton _ _).symm
  · exact ledger.construct dead rfl

theorem Ledger.reset (ledger : Ledger leaked s) (alive : s.objects.lookup id = some x) :
    Ledger leaked (reset s id x) where
  numbered := ledger.numbered
  balance := by
    rw [perm_iff_count]
    intro pointer
    have balance := ledger.balance.count_eq pointer
    have pre := (held_lookup alive).count_eq pointer
    simp only [Descriptors.reset, setObject, held_insert, DescriptorAllocation.owned_null,
      nil_append, count_append] at balance pre ⊢
    omega

theorem Ledger.destroy (ledger : Ledger leaked s) (alive : s.objects.lookup id = some x) :
    Ledger leaked { Descriptors.reset s id x with
      objects := (Descriptors.reset s id x).objects.erase id } where
  numbered := ledger.numbered
  balance := by
    have balance := (ledger.reset alive).balance
    simp only [Descriptors.reset, setObject, held_insert, erase_insert,
      DescriptorAllocation.owned_null, nil_append] at balance ⊢
    exact balance

theorem Ledger.moveAssign (ledger : Ledger leaked s) {target src : ObjectId}
    {old : DescriptorAllocation} (ne : target ≠ src)
    (overwritten : s.objects.lookup target = some old) (moved : s.objects.lookup src = some x) :
    Ledger (leaked ++ old.owned) (moveAssign s target src x) where
  numbered := by
    rw [Descriptors.moveAssign, if_pos ne]
    exact ledger.numbered
  balance := by
    have rest : ((s.objects.insert target x).erase src).erase target =
        (s.objects.erase src).erase target := by
      rw [erase_erase, erase_insert, erase_erase]
    have targetBefore : (s.objects.erase src).lookup target = some old :=
      (lookup_erase_ne ne).trans overwritten
    have targetAfter : ((s.objects.insert target x).erase src).lookup target = some x :=
      (lookup_erase_ne ne).trans (lookup_insert _)
    rw [Descriptors.moveAssign, if_pos ne, perm_iff_count]
    intro pointer
    have balance := ledger.balance.count_eq pointer
    have sources := (held_lookup moved).count_eq pointer
    have targets := (held_lookup targetBefore).count_eq pointer
    have after := (held_lookup targetAfter).count_eq pointer
    rw [rest] at after
    simp only [setObject, held_insert, DescriptorAllocation.owned_null, nil_append,
      count_append] at balance sources targets after ⊢
    omega

theorem Ledger.step {t : State} {a : Action} (ledger : Ledger leaked s)
    (taken : step s a = some t) :
    ∃ lost, Ledger (leaked ++ lost) t ∧ (lost = [] ↔ TargetEmpty s a t) := by
  have keeps (kept : Ledger leaked t) (other : TargetEmpty s a t) :
      ∃ lost, Ledger (leaked ++ lost) t ∧ (lost = [] ↔ TargetEmpty s a t) :=
    ⟨[], by simpa using kept, iff_of_true rfl other⟩
  cases a with
  | construct id =>
    cases dead : s.objects.lookup id with
    | some => simp [Descriptors.step, dead] at taken
    | none =>
      simp only [Descriptors.step, dead, Option.some.injEq] at taken
      exact keeps (taken ▸ ledger.construct dead rfl) nofun
  | alloc id allocator sizeInDescriptors succeeds =>
    cases dead : s.objects.lookup id with
    | some => simp [Descriptors.step, dead] at taken
    | none =>
      simp only [Descriptors.step, dead, Option.some.injEq] at taken
      exact keeps (taken ▸ ledger.alloc dead allocator sizeInDescriptors succeeds) nofun
  | moveConstruct id source =>
    cases dead : s.objects.lookup id with
    | some => simp [Descriptors.step, dead] at taken
    | none =>
      cases moved : s.objects.lookup source with
      | none => simp [Descriptors.step, dead, moved] at taken
      | some x =>
        simp only [Descriptors.step, dead, moved, Option.some.injEq] at taken
        have ne : id ≠ source := by
          rintro rfl
          rw [dead] at moved
          cases moved
        have built : (setObject s id {}).objects.lookup source = some x :=
          (lookup_insert_ne ne.symm).trans moved
        have next := (ledger.construct dead rfl).moveAssign ne
          (lookup_insert _) built
        exact keeps (taken ▸ (by simpa using next)) nofun
  | moveAssign target source =>
    cases overwritten : s.objects.lookup target with
    | none => simp [Descriptors.step, overwritten] at taken
    | some old =>
      cases moved : s.objects.lookup source with
      | none => simp [Descriptors.step, overwritten, moved] at taken
      | some x =>
        simp only [Descriptors.step, overwritten, moved, Option.some.injEq] at taken
        by_cases self : target = source
        · refine keeps ?_ ?_
          · rw [← taken, Descriptors.moveAssign, if_neg (not_not.mpr self)]
            exact ledger
          · rintro _ _ _ ⟨⟩ - ne
            exact absurd self ne
        · refine ⟨old.owned, taken ▸ ledger.moveAssign self overwritten moved, ?_⟩
          constructor
          · rintro empty _ _ y ⟨⟩ got -
            rw [overwritten] at got
            exact Option.some.inj got ▸ empty
          · intro empty
            exact empty target source old rfl overwritten self
  | reset id =>
    cases alive : s.objects.lookup id with
    | none => simp [Descriptors.step, alive] at taken
    | some x =>
      simp only [Descriptors.step, alive, Option.some.injEq] at taken
      exact keeps (taken ▸ ledger.reset alive) nofun
  | destroy id =>
    cases alive : s.objects.lookup id with
    | none => simp [Descriptors.step, alive] at taken
    | some x =>
      simp only [Descriptors.step, alive, Option.some.injEq] at taken
      exact keeps (taken ▸ ledger.destroy alive) nofun

theorem Ledger.nodup (ledger : Ledger leaked s) : s.obtained.Nodup := by
  apply List.Nodup.of_map Prod.snd
  rw [ledger.numbered]
  exact nodup_range

theorem Ledger.at_most_once (ledger : Ledger leaked s) (pointer : AllocatorId × Pointer) :
    s.deallocated.count pointer ≤ 1 := by
  have balance := ledger.balance.count_eq pointer
  have once := nodup_iff_count_le_one.mp ledger.nodup pointer
  rw [count_append] at balance
  omega

theorem Ledger.givenBackOnce_iff (ledger : Ledger leaked s) (destroyed : s.objects = ∅) :
    GivenBackOnce s ↔ leaked = [] := by
  have empty : held s.objects = [] := by rw [destroyed]; rfl
  have balance (pointer : AllocatorId × Pointer) := ledger.balance.count_eq pointer
  simp only [empty, nil_append, count_append] at balance
  constructor
  · intro once
    by_contra lost
    obtain ⟨pointer, mem⟩ := exists_mem_of_ne_nil leaked lost
    have obtained : pointer ∈ s.obtained := ledger.balance.mem_iff.mp (by simp [mem])
    have counted := balance pointer
    have given := once pointer obtained
    have leaks := count_pos_iff.mpr mem
    have nodup := nodup_iff_count_le_one.mp ledger.nodup pointer
    omega
  · rintro rfl pointer obtained
    have counted := balance pointer
    rw [count_eq_one_of_mem ledger.nodup obtained, count_nil] at counted
    omega

/-- Nothing is given back twice, and when all objects are destroyed everything was given back
    exactly if no move assignment has overwritten an object that owned something. -/
theorem descriptors_given_back_iff {actions : List Action} {final : State}
    (reached : run step {} actions = some final) :
    (∀ pointer, final.deallocated.count pointer ≤ 1) ∧
      (final.objects = ∅ → (GivenBackOnce final ↔ EveryStep step TargetEmpty {} actions)) := by
  have keep (s : State) (a : Action) (t : State) (good : Ledger [] s) (taken : step s a = some t)
      (empty : TargetEmpty s a t) : Ledger [] t := by
    obtain ⟨lost, ledger, nothing⟩ := good.step taken
    rwa [nothing.mpr empty] at ledger
  have breaks (s : State) (a : Action) (t : State) (good : Ledger [] s)
      (taken : step s a = some t) (overwrites : ¬ TargetEmpty s a t) :
      ∃ leaked, leaked ≠ [] ∧ Ledger leaked t := by
    obtain ⟨lost, ledger, nothing⟩ := good.step taken
    exact ⟨lost, fun none_ => overwrites (nothing.mp none_), ledger⟩
  have stays (s : State) (a : Action) (t : State) (bad : ∃ leaked, leaked ≠ [] ∧ Ledger leaked s)
      (taken : step s a = some t) : ∃ leaked, leaked ≠ [] ∧ Ledger leaked t := by
    obtain ⟨leaked, some_, ledger⟩ := bad
    obtain ⟨lost, next, -⟩ := ledger.step taken
    exact ⟨leaked ++ lost, by simp [some_], next⟩
  rcases run_good_or_bad keep breaks stays ledger_init reached with
    ⟨every, ledger⟩ | ⟨broken, leaked, some_, ledger⟩
  · refine ⟨ledger.at_most_once, fun destroyed => iff_of_true ?_ every⟩
    exact (ledger.givenBackOnce_iff destroyed).mpr rfl
  · refine ⟨ledger.at_most_once, fun destroyed => iff_of_false ?_ broken⟩
    exact fun once => some_ ((ledger.givenBackOnce_iff destroyed).mp once)

def movedOn : List Action :=
  [.alloc 0 0 16 true, .moveConstruct 1 0, .moveAssign 1 1, .destroy 0, .destroy 1]

theorem movedOn_given_back :
    ∃ final, run step {} movedOn = some final ∧ final.deallocated = [(0, 0)] ∧
      (∀ pointer, final.deallocated.count pointer ≤ 1) ∧
      (final.objects = ∅ → (GivenBackOnce final ↔ EveryStep step TargetEmpty {} movedOn)) :=
  ⟨_, rfl, rfl, @descriptors_given_back_iff movedOn _ rfl⟩

/-- An object that owns something is overwritten, and all objects are destroyed. -/
def overwritten : List Action :=
  [.alloc 0 0 16 true, .alloc 1 0 32 true, .moveAssign 0 1, .destroy 0, .destroy 1]

theorem overwritten_leaks : ∃ final, run step {} overwritten = some final ∧ final.objects = ∅ ∧
      final.obtained = [(0, 0), (0, 1)] ∧ final.deallocated = [(0, 1)] ∧ ¬ GivenBackOnce final := by
  refine ⟨_, rfl, rfl, rfl, rfl, ?_⟩
  intro once
  exact absurd (once (0, 0) (by decide)) (by decide)

end TfDml.Descriptors
