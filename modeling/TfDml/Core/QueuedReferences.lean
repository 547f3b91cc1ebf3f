import TfDml.Core.KernelManager

/-! # The compaction of the queued references

`ReleaseCompletedReferences` moves the references with a signaled event out of the vector, and
moves the others to its beginning. An element that was moved from has no value. Each event is
asked once, and fences may progress between two questions.
-/

namespace TfDml.QueuedReferences

open List
open KernelManager (QueuedReference)

variable {ρ : Type}

/-- The vector, the iterator `dst`, and the references that were moved out or assigned over. -/
structure Loop (ρ : Type) where
  slots : List (Option ρ)
  dst : Nat := 0
  toFree : List ρ := []
  dropped : List ρ := []

/-- One iteration. There is no result if `it` is at an element that was moved from. -/
def iteration (l : Loop ρ) (it : Nat) (isSignaled : Bool) : Option (Loop ρ) := do
  let reference ← l.slots[it]?.join
  if isSignaled then
    some { l with slots := l.slots.set it none, toFree := l.toFree ++ [reference] }
  else if it ≠ l.dst then
    let overwritten := l.slots[l.dst]?.join.toList
    some { l with
      slots := (l.slots.set l.dst (some reference)).set it none
      dst := l.dst + 1
      dropped := l.dropped ++ overwritten }
  else some { l with dst := l.dst + 1 }

/-- So many iterations, from `it` on. The event of the element `it` answers `answers it`. -/
def iterate (answers : Nat → Bool) : Nat → Nat → Loop ρ → Option (Loop ρ)
  | 0, _, l => some l
  | n + 1, it, l => (iteration l it (answers it)).bind (iterate answers n (it + 1))

structure Released (ρ : Type) where
  queued : List (Option ρ)
  toFree : List ρ
  dropped : List ρ

def releaseCompletedReferences (references : List (Option ρ)) (answers : Nat → Bool) :
    Option (Released ρ) :=
  (iterate answers references.length 0 { slots := references }).map fun l =>
    ⟨l.slots.take l.dst, l.toFree, l.dropped ++ (l.slots.drop l.dst).filterMap id⟩

/-- The references, from the element `it` on, of which the event answers this. -/
def answering (answers : Nat → Bool) (answer : Bool) (it : Nat) (references : List ρ) : List ρ :=
  ((references.zipIdx it).filter fun entry => answers entry.2 == answer).map Prod.fst

theorem answering_cons (answers : Nat → Bool) (answer : Bool) (it : Nat) (reference : ρ)
    (rest : List ρ) : answering answers answer it (reference :: rest) =
      (if answers it = answer then [reference] else []) ++
        answering answers answer (it + 1) rest := by
  rw [answering, zipIdx_cons, filter_cons]
  by_cases same : answers it = answer
  · simp [same, answering]
  · simp [same, answering]

/-- The kept references, the elements that were moved from, and those that come after `it`. -/
def regions (kept : List ρ) (moved : Nat) (rest : List ρ) : List (Option ρ) :=
  kept.map some ++ (replicate moved none ++ rest.map some)

section Regions

variable {kept rest toFree dropped : List ρ} {moved : Nat} {reference : ρ}

theorem getElem?_regions :
    (regions kept moved (reference :: rest))[kept.length + moved]? = some (some reference) := by
  rw [regions, getElem?_append_right (by simp), length_map, Nat.add_sub_cancel_left,
    getElem?_append_right (by simp), length_replicate, Nat.sub_self]
  rfl

theorem iteration_signaled : iteration ⟨regions kept moved (reference :: rest), kept.length, toFree,
      dropped⟩ (kept.length + moved) true =
    some ⟨regions kept (moved + 1) rest, kept.length, toFree ++ [reference], dropped⟩ := by
  have cleared : (regions kept moved (reference :: rest)).set (kept.length + moved) none =
      regions kept (moved + 1) rest := by
    simp [regions, replicate_succ']
  simp only [iteration, getElem?_regions, Option.join_some, Option.bind_eq_bind, Option.bind_some,
    if_true, cleared]

theorem iteration_unsignaled : iteration ⟨regions kept moved (reference :: rest), kept.length,
      toFree, dropped⟩ (kept.length + moved) false =
    some ⟨regions (kept ++ [reference]) moved rest, (kept ++ [reference]).length, toFree,
      dropped⟩ := by
  cases moved with
  | zero => simp [iteration, regions]
  | succ moved =>
    have first : (regions kept (moved + 1) (reference :: rest))[kept.length]? = some none := by
      rw [regions, getElem?_append_right (by simp), length_map, Nat.sub_self]
      rfl
    have compacted : ((regions kept (moved + 1) (reference :: rest)).set kept.length
        (some reference)).set (kept.length + (moved + 1)) none =
          regions (kept ++ [reference]) (moved + 1) rest := by
      have shifted : replicate moved none ++ none :: rest.map some =
          none :: (replicate moved none ++ rest.map some) := by
        rw [← cons_append, ← replicate_succ, replicate_succ', append_assoc]
        rfl
      simpa [regions, replicate_succ] using shifted
    simp only [iteration, getElem?_regions, Option.join_some, Option.bind_eq_bind, Option.bind_some]
    simp [first, compacted]

/-- Three regions of the vector stay apart: kept, moved from and still to come. -/
theorem iterate_regions (answers : Nat → Bool) (rest kept : List ρ) (moved : Nat)
    (toFree : List ρ) : ∃ moved', iterate answers rest.length (kept.length + moved)
        ⟨regions kept moved rest, kept.length, toFree, dropped⟩ =
      some ⟨regions (kept ++ answering answers false (kept.length + moved) rest) moved' [],
        (kept ++ answering answers false (kept.length + moved) rest).length,
        toFree ++ answering answers true (kept.length + moved) rest, dropped⟩ := by
  induction rest generalizing kept moved toFree with
  | nil => exact ⟨moved, by simp [iterate, answering]⟩
  | cons reference rest ih =>
    rw [length_cons, iterate]
    cases answer : answers (kept.length + moved) with
    | true =>
      obtain ⟨moved', looped⟩ := ih kept (moved + 1) (toFree ++ [reference])
      refine ⟨moved', ?_⟩
      rw [iteration_signaled, Option.bind_some, add_assoc, looped]
      simp [answering_cons, answer, add_assoc]
    | false =>
      obtain ⟨moved', looped⟩ := ih (kept ++ [reference]) moved toFree
      have next : kept.length + moved + 1 = (kept ++ [reference]).length + moved := by
        rw [length_append, length_singleton]
        omega
      refine ⟨moved', ?_⟩
      rw [iteration_unsignaled, Option.bind_some, next, looped]
      simp [answering_cons, answer, next]

end Regions

theorem release_eq (references : List ρ) (answers : Nat → Bool) :
    releaseCompletedReferences (references.map some) answers =
      some ⟨(answering answers false 0 references).map some, answering answers true 0 references,
        []⟩ := by
  obtain ⟨moved, looped⟩ := @iterate_regions ρ [] answers references [] 0 []
  have start : regions [] 0 references = references.map some := rfl
  rw [releaseCompletedReferences, length_map, ← start]
  rw [length_nil] at looped
  rw [looped]
  simp [regions]

theorem sublist_answering (answers : Nat → Bool) (answer : Bool) (references : List ρ) :
    answering answers answer 0 references <+ references := by
  have sub := (filter_sublist (p := fun entry => answers entry.2 == answer)
    (l := references.zipIdx)).map Prod.fst
  rwa [zipIdx_map_fst] at sub

theorem perm_answering (answers : Nat → Bool) (it : Nat) (references : List ρ) :
    answering answers true it references ++ answering answers false it references ~
      references := by
  induction references generalizing it with
  | nil => rfl
  | cons reference rest ih =>
    rw [answering_cons, answering_cons]
    cases answers it with
    | true => exact (ih (it + 1)).cons reference
    | false => exact perm_middle.trans ((ih (it + 1)).cons reference)

/-- What the kernel manager keeps of events that do not change meanwhile. -/
theorem release_queuedReferences {Key κ : Type} [DecidableEq Key]
    (m : KernelManager.DmlKernelManager Key κ) (isSignaled : DmlGpuEvent → Bool) :
    answering (fun i => (m.queuedReferences[i]?).any (isSignaled ·.gpuEvent)) false 0
      m.queuedReferences = (m.releaseCompletedReferences isSignaled).queuedReferences := by
  have same : ∀ entry ∈ m.queuedReferences.zipIdx,
      ((m.queuedReferences[entry.2]?).any (isSignaled ·.gpuEvent) == false) =
        ((!isSignaled ·.gpuEvent) ∘ Prod.fst) entry := by
    rintro ⟨reference, i⟩ mem
    rw [mk_mem_zipIdx_iff_getElem?.mp mem, Option.any_some]
    exact beq_false _
  rw [answering, filter_congr same, ← filter_map, zipIdx_map_fst]
  rfl

variable {κ : Type}

/-- The queue, what each fence reports, and every reference so far: queued, released or dropped. -/
structure State (κ : Type) where
  queued : List (Option (QueuedReference κ)) := []
  completed : FenceId → Nat := fun _ => 0
  history : List (QueuedReference κ) := []
  released : List (QueuedReference κ) := []
  dropped : List (QueuedReference κ) := []

/-- The states after any calls. In a call, `observed it` is what the fences report when the event
    of the element `it` is asked. -/
inductive Reachable : State κ → Prop
  | start : Reachable {}
  | queueReference {s : State κ} (reached : Reachable s) (reference : QueuedReference κ) :
    Reachable { s with
      queued := s.queued ++ [some reference], history := s.history ++ [reference] }
  | progress {s : State κ} (reached : Reachable s) {completed : FenceId → Nat}
      (later : ∀ fence, s.completed fence ≤ completed fence) : Reachable { s with completed }
  | releaseCompletedReferences {s : State κ} (reached : Reachable s)
      {observed : Nat → FenceId → Nat} {completed : FenceId → Nat} {answers : Nat → Bool}
      {released : Released (QueuedReference κ)}
      (first : ∀ it fence, s.completed fence ≤ observed it fence)
      (next : ∀ it fence, observed it fence ≤ observed (it + 1) fence)
      (last : ∀ it < s.queued.length, ∀ fence, observed it fence ≤ completed fence)
      (nowLater : ∀ fence, s.completed fence ≤ completed fence)
      (answered : ∀ it reference, s.queued[it]? = some (some reference) →
        answers it = reference.gpuEvent.isSignaled (observed it reference.gpuEvent.fence))
      (returned : QueuedReferences.releaseCompletedReferences s.queued answers = some released) :
    Reachable { s with
      queued := released.queued
      completed
      released := s.released ++ released.toFree
      dropped := s.dropped ++ released.dropped }

/-- Each reference is either kept, once and in order, or released, and then its event is
    signaled. -/
structure Kept (s : State κ) : Prop where
  split : ∃ kept, s.queued = kept.map some ∧ kept <+ s.history ∧ s.released ++ kept ~ s.history
  signaled : ∀ reference ∈ s.released,
    reference.gpuEvent.isSignaled (s.completed reference.gpuEvent.fence) = true
  dropped : s.dropped = []

theorem isSignaled_mono {event : DmlGpuEvent} {pre after : Nat}
    (signaled : event.isSignaled pre = true) (later : pre ≤ after) :
    event.isSignaled after = true := by
  simp only [DmlGpuEvent.isSignaled, decide_eq_true_eq] at signaled ⊢
  omega

theorem Reachable.kept {s : State κ} (run : Reachable s) : Kept s := by
  induction run with
  | start => exact ⟨⟨[], rfl, .refl _, .refl _⟩, by simp, rfl⟩
  | queueReference run reference ih =>
    obtain ⟨⟨kept, queued, inOrder, split⟩, signaled, dropped⟩ := ih
    refine ⟨⟨kept ++ [reference], by simp [queued], inOrder.append_right _, ?_⟩, signaled, dropped⟩
    rw [← append_assoc]
    exact split.append_right _
  | progress run later ih =>
    exact ⟨ih.split, fun reference mem => isSignaled_mono (ih.signaled reference mem) (later _),
      ih.dropped⟩
  | @releaseCompletedReferences s run seen completed answers released first next last
      nowLater answered ret ih =>
    obtain ⟨⟨kept, queued, inOrder, split⟩, signaled, dropped⟩ := ih
    rw [queued, release_eq] at ret
    obtain rfl := Option.some.inj ret
    refine ⟨⟨_, rfl, (sublist_answering _ _ _).trans inOrder, ?_⟩, ?_, ?_⟩
    · rw [append_assoc]
      exact ((perm_answering answers 0 kept).append_left _).trans split
    · intro reference mem
      rcases mem_append.mp mem with pre | now
      · exact isSignaled_mono (signaled reference pre) (nowLater _)
      · obtain ⟨⟨got, it⟩, lt, rfl⟩ := mem_map.mp now
        obtain ⟨lt, isTrue⟩ := mem_filter.mp lt
        have x : s.queued[it]? = some (some got) := by
          rw [queued, getElem?_map, mk_mem_zipIdx_iff_getElem?.mp lt, Option.map_some]
        rw [answered it got x, beq_true] at isTrue
        exact isSignaled_mono isTrue (last it (List.getElem?_eq_some_iff.mp x).1 _)
    · simp [dropped]

/-- A call keeps the references without a signaled event, in their order, and releases the others;
    so in any run no reference is lost before its event is signaled, and none is kept twice. -/
theorem references_kept (κ : Type) :
    (∀ (references : List (QueuedReference κ)) (answers : Nat → Bool),
      releaseCompletedReferences (references.map some) answers =
        some ⟨(answering answers false 0 references).map some,
          answering answers true 0 references, []⟩) ∧ ∀ s : State κ, Reachable s → Kept s :=
  ⟨release_eq, fun _ run => run.kept⟩

end TfDml.QueuedReferences
