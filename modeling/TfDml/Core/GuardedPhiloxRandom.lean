import TfDml.Core.PhiloxRandom
import TfDml.Lib.Arcs
import TfDml.Lib.Run

/-! # Reservations from a guarded Philox generator

The stateful random ops of one kernel share a generator behind a mutex. Each
invocation reserves samples for its outputs: it copies the generator and skips
the samples, one step after the other. The steps of any number of invocations
interleave.
-/

namespace TfDml.Philox

open Lib
open Function

abbrev CallId := Nat

/-- `conservative_sample_count` of `ReserveRandomOutputs`, which the kernels call with their
    `uint32_t` number of output elements and the multiplier 256. -/
def conservativeSampleCount (numOutputElements : BitVec 32) : BitVec 64 :=
  numOutputElements.setWidth 64 * 256

/-- Where a call of `ReserveRandomOutputs` is. -/
inductive Call where
  | notStarted
  | waiting (numOutputElements : BitVec 32)
  | locked (numOutputElements : BitVec 32)
  | copied (numOutputElements : BitVec 32) (copy : PhiloxRandom)
  | skipped (numOutputElements : BitVec 32) (copy : PhiloxRandom)
  | returned (numOutputElements : BitVec 32) (copy : PhiloxRandom)
  deriving DecidableEq

def Call.holds : Call → Bool
  | .locked _ | .copied _ _ | .skipped _ _ => true
  | .notStarted | .waiting _ | .returned _ _ => false

/-- What a call has reserved: the generator it gets, and for how many outputs. -/
structure Reservation where
  call : CallId
  numOutputElements : BitVec 32
  copy : PhiloxRandom

def Reservation.samples (r : Reservation) : Nat := (conservativeSampleCount r.numOutputElements).toNat

def Reservation.counters (r : Reservation) : Arc := ⟨r.copy.counter.value, r.samples⟩

/-- `reserved` is the log of the reservations, the newest first. -/
structure GuardedPhiloxRandom where
  generator : PhiloxRandom
  mutex : Option CallId := none
  calls : CallId → Call := fun _ => .notStarted
  reserved : List Reservation := []

namespace GuardedPhiloxRandom

def initial (generator : PhiloxRandom) : GuardedPhiloxRandom where
  generator := generator

/-- `Init`, with the seeds from the attributes or random ones. -/
def init (seed seed2 : BitVec 64) : GuardedPhiloxRandom := initial (.ofSeeds seed seed2)

def setCall (s : GuardedPhiloxRandom) (id : CallId) (call : Call) : GuardedPhiloxRandom :=
  { s with calls := update s.calls id call }

end GuardedPhiloxRandom

inductive Action where
  | call (id : CallId) (numOutputElements : BitVec 32)
  | lock (id : CallId)
  /-- `auto local = generator_`. -/
  | copy (id : CallId)
  /-- `generator_.Skip(samples)`. -/
  | skip (id : CallId)
  | unlock (id : CallId)

def step (s : GuardedPhiloxRandom) : Action → Option GuardedPhiloxRandom
  | .call id numOutputElements =>
    match s.calls id with
    | .notStarted => some (s.setCall id (.waiting numOutputElements))
    | _ => none
  | .lock id =>
    match s.calls id, s.mutex with
    | .waiting n, none => some { s.setCall id (.locked n) with mutex := some id }
    | _, _ => none
  | .copy id =>
    match s.calls id with
    | .locked n => some (s.setCall id (.copied n s.generator))
    | _ => none
  | .skip id =>
    match s.calls id with
    | .copied n copy =>
      some { s.setCall id (.skipped n copy) with
        generator := s.generator.skip (conservativeSampleCount n)
        reserved := ⟨id, n, copy⟩ :: s.reserved }
    | _ => none
  | .unlock id =>
    match s.calls id with
    | .skipped n copy => some { s.setCall id (.returned n copy) with mutex := none }
    | _ => none

inductive Distribution where
  | uniformHalf
  | uniformFloat
  | uniformInt32
  | uniformInt64
  | boxMuller

/-- `generator_num_elements` of the functor for integers of a size in bytes. -/
def generatorNumElements (size : BitVec 64) (elementCount : BitVec 32) : BitVec 32 :=
  (elementCount.setWidth 64 * size / 4).setWidth 32

/-- `even_element_count` of the normal distribution. -/
def evenElementCount (elementCount : BitVec 32) : BitVec 32 := elementCount + elementCount % 2

def Distribution.generatedValues (elementCount : BitVec 32) : Distribution → Nat
  | .uniformHalf | .uniformFloat => elementCount.toNat
  | .uniformInt32 => (generatorNumElements 4 elementCount).toNat
  | .uniformInt64 => (generatorNumElements 8 elementCount).toNat
  | .boxMuller => (evenElementCount elementCount / 2).toNat * 2

def Distribution.consumedBlocks (d : Distribution) (elementCount : BitVec 32) : Nat :=
  (d.generatedValues elementCount + 3) / 4

theorem conservativeSampleCount_toNat (n : BitVec 32) :
    (conservativeSampleCount n).toNat = n.toNat * 256 := by
  have bound := n.isLt
  simp only [conservativeSampleCount]
  bv_omega

theorem Distribution.generatedValues_le (d : Distribution) (n : BitVec 32) :
    d.generatedValues n ≤ 2 * n.toNat := by
  have bound := n.isLt
  cases d with
  | uniformHalf | uniformFloat =>
    simp only [generatedValues]
    omega
  | uniformInt32 | uniformInt64 =>
    simp only [generatedValues, generatorNumElements, BitVec.toNat_setWidth, BitVec.toNat_udiv,
      BitVec.toNat_mul, BitVec.toNat_ofNat, BitVec.ofNat_eq_ofNat, Nat.reducePow, Nat.reduceMod]
    omega
  | boxMuller =>
    simp only [generatedValues, evenElementCount, BitVec.toNat_udiv, BitVec.toNat_add,
      BitVec.toNat_umod, BitVec.toNat_ofNat, BitVec.ofNat_eq_ofNat, Nat.reducePow, Nat.reduceMod]
    omega

theorem Distribution.consumedBlocks_le (d : Distribution) (n : BitVec 32) :
    d.consumedBlocks n ≤ (conservativeSampleCount n).toNat := by
  have values := d.generatedValues_le n
  rw [conservativeSampleCount_toNat, consumedBlocks]
  omega

theorem skip_conservative (c : Counter) (n : BitVec 32) :
    (c.skip (conservativeSampleCount n)).value =
      (c.value + (conservativeSampleCount n).toNat) % 2 ^ 128 := by
  apply Counter.skip_value
  rintro ⟨full, -⟩
  have split := Counter.count_toNat (conservativeSampleCount n)
  have bound := n.isLt
  rw [conservativeSampleCount_toNat] at split
  omega

/-- What the calls got is never handed out twice, is enough for any distribution of the outputs
    of the call, and has the key of the generator. -/
structure NeverReused (initial : PhiloxRandom) (s : GuardedPhiloxRandom) : Prop where
  apart : ∀ first second n m copy copy', first ≠ second →
    s.calls first = .returned n copy → s.calls second = .returned m copy' →
    Arc.Apart (2 ^ 128) (Reservation.counters ⟨first, n, copy⟩)
      (Reservation.counters ⟨second, m, copy'⟩)
  enough : ∀ id n copy, s.calls id = .returned n copy → ∀ d : Distribution,
    d.consumedBlocks n ≤ (Reservation.counters ⟨id, n, copy⟩).length
  key : s.generator.key = initial.key ∧
    ∀ id n copy, s.calls id = .returned n copy → copy.key = initial.key

/-- The generator is where the last reservation ends; a copy that is not yet skipped is the
    generator itself. -/
structure Invariant (initial : PhiloxRandom) (s : GuardedPhiloxRandom) : Prop where
  key : s.generator.key = initial.key
  keys : ∀ r ∈ s.reserved, r.copy.key = initial.key
  holder : ∀ id, (s.calls id).holds = true → s.mutex = some id
  copied : ∀ id n copy, s.calls id = .copied n copy → copy = s.generator
  logged : ∀ id n copy, s.calls id = .skipped n copy ∨ s.calls id = .returned n copy →
    ⟨id, n, copy⟩ ∈ s.reserved
  consecutive : ∃ next, Consecutive (2 ^ 128) initial.counter.value
      (s.reserved.map Reservation.counters) next ∧ s.generator.counter.value = next % 2 ^ 128

theorem Invariant.initial (generator : PhiloxRandom) :
    Invariant generator (.initial generator) where
  key := rfl
  keys := by simp [GuardedPhiloxRandom.initial]
  holder := by simp [GuardedPhiloxRandom.initial, Call.holds]
  copied := by simp [GuardedPhiloxRandom.initial]
  logged := by simp [GuardedPhiloxRandom.initial]
  consecutive := ⟨_, .nil, (Nat.mod_eq_of_lt generator.counter.value_lt).symm⟩

variable {s : GuardedPhiloxRandom} {id : CallId} {call : Call} {mutex : Option CallId}

theorem Invariant.setCall {initial : PhiloxRandom} (invariant : Invariant initial s)
    (holder : ∀ other, (update s.calls id call other).holds = true → mutex = some other)
    (copied : ∀ n copy, call = .copied n copy → copy = s.generator)
    (logged : ∀ n copy, call = .skipped n copy ∨ call = .returned n copy →
      ⟨id, n, copy⟩ ∈ s.reserved) :
    Invariant initial { s.setCall id call with mutex := mutex } where
  key := invariant.key
  keys := invariant.keys
  holder := holder
  copied := by
    intro other n copy is
    by_cases here : other = id
    · subst here
      simp only [GuardedPhiloxRandom.setCall, update_self] at is
      exact copied n copy is
    · simp only [GuardedPhiloxRandom.setCall, update_of_ne here] at is
      exact invariant.copied other n copy is
  logged := by
    intro other n copy is
    by_cases here : other = id
    · subst here
      simp only [GuardedPhiloxRandom.setCall, update_self] at is
      exact logged n copy is
    · simp only [GuardedPhiloxRandom.setCall, update_of_ne here] at is
      exact invariant.logged other n copy is
  consecutive := invariant.consecutive

theorem Invariant.holder_update {initial : PhiloxRandom} (invariant : Invariant initial s)
    (own : call.holds = true → mutex = some id)
    (others : ∀ other, s.mutex = some other → other = id ∨ mutex = some other) :
    ∀ other, (update s.calls id call other).holds = true → mutex = some other := by
  intro other holds
  by_cases here : other = id
  · subst here
    rw [update_self] at holds
    exact own holds
  · rw [update_of_ne here] at holds
    exact (others other (invariant.holder other holds)).resolve_left here

theorem Invariant.skip {initial : PhiloxRandom} (invariant : Invariant initial s) {n : BitVec 32}
    {copy : PhiloxRandom} (is : s.calls id = .copied n copy) :
    Invariant initial { s.setCall id (.skipped n copy) with
      generator := s.generator.skip (conservativeSampleCount n)
      reserved := ⟨id, n, copy⟩ :: s.reserved } := by
  have copied := invariant.copied id n copy is
  have mutex := invariant.holder id (by rw [is]; rfl)
  obtain ⟨next, consecutive, at_next⟩ := invariant.consecutive
  constructor
  · exact invariant.key
  · intro r mem
    rcases List.mem_cons.mp mem with rfl | older
    · exact copied ▸ invariant.key
    · exact invariant.keys r older
  · exact invariant.holder_update (fun _ => mutex) (fun other held => Or.inr held)
  · intro other m copy' is'
    by_cases here : other = id
    · subst here
      simp [GuardedPhiloxRandom.setCall] at is'
    · -- Only the holder of the mutex can have a copy.
      simp only [GuardedPhiloxRandom.setCall, update_of_ne here] at is'
      have held := invariant.holder other (by rw [is']; rfl)
      exact absurd (Option.some.inj (held.symm.trans mutex)) here
  · intro other m copy' is'
    by_cases here : other = id
    · subst here
      simp only [GuardedPhiloxRandom.setCall, update_self, Call.skipped.injEq,
        reduceCtorEq, or_false] at is'
      obtain ⟨rfl, rfl⟩ := is'
      exact List.mem_cons_self
    · simp only [GuardedPhiloxRandom.setCall, update_of_ne here] at is'
      exact List.mem_cons_of_mem _ (invariant.logged other m copy' is')
  · refine ⟨next + (conservativeSampleCount n).toNat, ?_, ?_⟩
    · apply Consecutive.cons _ _ consecutive
      rw [copied, at_next, Nat.mod_mod]
    · simp only [PhiloxRandom.skip]
      rw [skip_conservative, at_next, Nat.mod_add_mod]

theorem Invariant.step {initial : PhiloxRandom} (s : GuardedPhiloxRandom) (a : Action)
    (t : GuardedPhiloxRandom) (invariant : Invariant initial s)
    (taken : Philox.step s a = some t) : Invariant initial t := by
  cases a with
  | call id n =>
    cases is : s.calls id with
    | notStarted =>
      simp only [Philox.step, is, Option.some.injEq] at taken
      subst taken
      exact invariant.setCall
        (invariant.holder_update (by simp [Call.holds]) (fun other held => Or.inr held))
        (by simp) (by simp)
    | _ => simp [Philox.step, is] at taken
  | lock id =>
    cases is : s.calls id with
    | waiting n =>
      cases mutex : s.mutex with
      | none =>
        simp only [Philox.step, is, mutex, Option.some.injEq] at taken
        subst taken
        exact invariant.setCall
          (invariant.holder_update (fun _ => rfl) (by simp [mutex])) (by simp) (by simp)
      | some other => simp [Philox.step, is, mutex] at taken
    | _ => simp [Philox.step, is] at taken
  | copy id =>
    cases is : s.calls id with
    | locked n =>
      simp only [Philox.step, is, Option.some.injEq] at taken
      subst taken
      have mutex := invariant.holder id (by rw [is]; rfl)
      exact invariant.setCall
        (invariant.holder_update (fun _ => mutex) (fun other held => Or.inr held))
        (by simp) (by simp)
    | _ => simp [Philox.step, is] at taken
  | skip id =>
    cases is : s.calls id with
    | copied n copy =>
      simp only [Philox.step, is, Option.some.injEq] at taken
      exact taken ▸ invariant.skip is
    | _ => simp [Philox.step, is] at taken
  | unlock id =>
    cases is : s.calls id with
    | skipped n copy =>
      simp only [Philox.step, is, Option.some.injEq] at taken
      subst taken
      have mutex := invariant.holder id (by rw [is]; rfl)
      have logged := invariant.logged id n copy (Or.inl is)
      refine invariant.setCall (invariant.holder_update (by simp [Call.holds]) ?_) (by simp) ?_
      · intro other held
        exact Or.inl (Option.some.inj (held.symm.trans mutex))
      · intro m copy' same
        simp only [reduceCtorEq, Call.returned.injEq, false_or] at same
        obtain ⟨rfl, rfl⟩ := same
        exact logged
    | _ => simp [Philox.step, is] at taken

theorem Invariant.apart {initial : PhiloxRandom} (invariant : Invariant initial s)
    (total : (s.reserved.map Reservation.samples).sum ≤ 2 ^ 128) {x y : Reservation}
    (xIn : x ∈ s.reserved) (yIn : y ∈ s.reserved) (ne : x ≠ y) :
    x.counters.Apart (2 ^ 128) y.counters := by
  obtain ⟨next, consecutive, -⟩ := invariant.consecutive
  have ends := consecutive.next_eq
  have lens : (s.reserved.map Reservation.counters).map Arc.length =
      s.reserved.map Reservation.samples := by
    rw [List.map_map]
    rfl
  rw [lens] at ends
  have apart := List.pairwise_map.mp (consecutive.pairwise_apart (by omega))
  have symmetric : Std.Symm fun x y : Reservation => x.counters.Apart (2 ^ 128) y.counters :=
    ⟨fun _ _ => Arc.Apart.symm⟩
  exact apart.forall xIn yIn ne

/-- However the calls interleave, no sample is handed out twice while the reservations do not
    go around the counter. -/
theorem neverReused (generator : PhiloxRandom) (actions : List Action) (s : GuardedPhiloxRandom)
    (reached : run step (.initial generator) actions = some s)
    (total : (s.reserved.map Reservation.samples).sum ≤ 2 ^ 128) : NeverReused generator s := by
  have invariant := run_invariant Invariant.step (Invariant.initial generator) reached
  constructor
  · intro first snd n m copy copy' ne is is'
    apply invariant.apart total (invariant.logged first n copy (Or.inr is))
      (invariant.logged snd m copy' (Or.inr is'))
    intro same
    exact ne (congrArg Reservation.call same)
  · intro id n copy _ d
    exact d.consumedBlocks_le n
  · refine ⟨invariant.key, ?_⟩
    intro id n copy is
    exact invariant.keys ⟨id, n, copy⟩ (invariant.logged id n copy (Or.inr is))

def interleavedCalls : List Action :=
  [.call 0 5, .call 1 7, .lock 0, .copy 0, .skip 0, .unlock 0, .lock 1, .copy 1, .skip 1, .unlock 1]

theorem interleavedCalls_neverReused :
    ∃ s, run step (.init 1 2) interleavedCalls = some s ∧ NeverReused (.ofSeeds 1 2) s :=
  ⟨_, rfl, neverReused (.ofSeeds 1 2) interleavedCalls _ rfl (by decide)⟩

/-- The samples that a call may draw from its copy. -/
def Reservation.drawn (r : Reservation) : List Counter := r.copy.draw r.samples

/-- However the calls interleave, the samples that they draw are all different. -/
theorem drawn_nodup (generator : PhiloxRandom) (actions : List Action) (s : GuardedPhiloxRandom)
    (reached : run step (.initial generator) actions = some s)
    (total : (s.reserved.map Reservation.samples).sum ≤ 2 ^ 128) :
    (s.reserved.flatMap Reservation.drawn).Nodup := by
  have invariant := run_invariant Invariant.step (Invariant.initial generator) reached
  obtain ⟨next, consecutive, -⟩ := invariant.consecutive
  have ends := consecutive.next_eq
  have lengths : (s.reserved.map Reservation.counters).map Arc.length =
      s.reserved.map Reservation.samples := by
    rw [List.map_map]
    rfl
  rw [lengths] at ends
  rw [List.nodup_flatMap]
  constructor
  · intro r _
    have small : r.samples < 2 ^ 64 := (conservativeSampleCount r.numOutputElements).isLt
    exact nodup_draw _ (by omega)
  · have apart := List.pairwise_map.mp (consecutive.pairwise_apart (by omega))
    refine apart.imp_of_mem fun {r r'} mem mem' apart sample drawn drawn' => ?_
    rw [Reservation.drawn, draw_eq, List.mem_map] at drawn drawn'
    obtain ⟨i, less, rfl⟩ := drawn
    obtain ⟨j, less', same⟩ := drawn'
    have keys := (invariant.keys r' mem').trans (invariant.keys r mem).symm
    exact apart i j (List.mem_range.mp less) (List.mem_range.mp less')
      (sample_iterate_inj keys same).symm

theorem interleavedCalls_nodup : ∃ s, run step (.init 1 2) interleavedCalls = some s ∧
    (s.reserved.flatMap Reservation.drawn).Nodup :=
  ⟨_, rfl, drawn_nodup (.ofSeeds 1 2) interleavedCalls _ rfl (by decide)⟩

end TfDml.Philox
