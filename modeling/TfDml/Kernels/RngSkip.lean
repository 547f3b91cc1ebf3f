import TfDml.Core.BufferRegion
import TfDml.Core.PhiloxRandom
import TfDml.Lib.Run
import Mathlib.Algebra.Order.BigOperators.Group.Finset
import Mathlib.Data.Fintype.BigOperators

/-! # `RngSkip` and `RngReadAndSkip`

Each invocation of the second op takes the lock of the state variable in shared mode, enqueues a
copy of the old state to its output and then the kernel that skips in place, and unlocks. The GPU
executes the commands in the order in which they are enqueued. The kernel reads the state as words
of 32 bits. A call has no result if the process ends, or if the result is not defined.
-/

namespace TfDml.RngSkip

open Lib Philox
open Function

/-- The state variable as 32-bit words: the counter, and the key and what follows it. -/
structure StateTensor where
  counter : Counter
  rest : List (BitVec 32)
  deriving DecidableEq

/-- `init_helper->GetDelta() * 256`. -/
def skipCount (delta : BitVec 64) : BitVec 64 := delta * 256

/-- The operators of the graph that `DmlRngSkipKernel` compiles. -/
def skipKernel (delta : BitVec 64) (input : StateTensor) : StateTensor :=
  let count := skipCount delta
  let countLo : BitVec 32 := count.setWidth 32
  let countHi : BitVec 32 := (count.sshiftRight 32).setWidth 32
  let split0 := input.counter.w0 + countLo
  let countHi := if split0 < countLo then countHi + 1 else countHi
  let split1 := input.counter.w1 + countHi
  let split1Lower := split1 < countHi
  let split2 := if split1Lower then input.counter.w2 + 1 else input.counter.w2
  let split3 := if split1Lower ∧ split2 = 0 then input.counter.w3 + 1 else input.counter.w3
  ⟨⟨split0, split1, split2, split3⟩, input.rest⟩

theorem sshiftRight_high (count : BitVec 64) :
    (count.sshiftRight 32).setWidth 32 = Counter.countHi count := by
  apply BitVec.eq_of_getLsbD_eq
  intro i lt
  simp only [Counter.countHi, BitVec.getLsbD_setWidth, BitVec.getLsbD_sshiftRight,
    BitVec.getLsbD_ushiftRight, lt]
  have low : 32 + i < 64 := by omega
  have high : ¬ 64 ≤ i := by omega
  simp [low, high]

theorem skipKernel_eq (delta : BitVec 64) (input : StateTensor) :
    skipKernel delta input = ⟨input.counter.skip (skipCount delta), input.rest⟩ := by
  obtain ⟨carried, is, skip⟩ := input.counter.skip_eq (skipCount delta)
  have drop : ∀ (lower : Prop) [Decidable lower] (x y : BitVec 32),
      (lower ∧ (if lower then x else y) = 0) ↔ (lower ∧ x = 0) :=
    fun lower _ x y => and_congr_right fun holds => by rw [if_pos holds]
  simp only [skip, is, skipKernel, sshiftRight_high, drop, Counter.countLo]
  rfl

/-- The kernel advances the counter exactly: the count does not wrap around, and no carry of it
    gets lost. -/
def Exact (counter : Counter) (delta : BitVec 64) : Prop :=
  256 * delta.toNat < 2 ^ 64 ∧ ¬ counter.CarryLost (skipCount delta)

theorem skipCount_toNat (delta : BitVec 64) :
    (skipCount delta).toNat = 256 * delta.toNat % 2 ^ 64 := by
  simp only [skipCount, BitVec.toNat_mul, BitVec.toNat_ofNat, BitVec.ofNat_eq_ofNat,
    Nat.reducePow, Nat.reduceMod, mul_comm]

variable {counter : Counter}

theorem skip_exact {delta : BitVec 64} (exact_ : Exact counter delta)
    (room : counter.value + 256 * delta.toNat < 2 ^ 128) :
    (counter.skip (skipCount delta)).value = counter.value + 256 * delta.toNat := by
  rw [Counter.skip_value exact_.2, skipCount_toNat, Nat.mod_eq_of_lt exact_.1,
    Nat.mod_eq_of_lt room]

theorem skip_le (counter : Counter) (delta : BitVec 64) :
    (counter.skip (skipCount delta)).value ≤ counter.value + 256 * delta.toNat := by
  have count := skipCount_toNat delta
  by_cases lost : counter.CarryLost (skipCount delta)
  · have short := Counter.skip_value_of_carryLost lost
    omega
  · rw [Counter.skip_value lost]
    omega

theorem skip_lt {delta : BitVec 64} (inexact : ¬ Exact counter delta) :
    (counter.skip (skipCount delta)).value < counter.value + 256 * delta.toNat := by
  have count := skipCount_toNat delta
  by_cases lost : counter.CarryLost (skipCount delta)
  · have short := Counter.skip_value_of_carryLost lost
    omega
  · have wraps : ¬ 256 * delta.toNat < 2 ^ 64 := fun fits => inexact ⟨fits, lost⟩
    rw [Counter.skip_value lost]
    omega

/-- What an invocation enqueues: `CopyTensorInSameDevice` and the compiled operator. -/
inductive Command (n : Nat) where
  | copy (invocation : Fin n)
  | skip (invocation : Fin n)

/-- The memory of the GPU: the state variable and the outputs of the invocations. -/
structure Memory (n : Nat) where
  variable_ : StateTensor
  outputs : Fin n → Option StateTensor

section Model

variable {n : Nat} (delta : Fin n → BitVec 64)

def execute (memory : Memory n) : Command n → Memory n
  | .copy i => { memory with outputs := update memory.outputs i (some memory.variable_) }
  | .skip i => { memory with variable_ := skipKernel (delta i) memory.variable_ }

inductive Phase where
  | started
  | locked
  | copied
  | skipped
  | unlocked
  deriving DecidableEq

structure State (n : Nat) where
  phase : Fin n → Phase := fun _ => .started
  queue : List (Command n) := []

def State.memory (s : State n) (initial : StateTensor) : Memory n :=
  s.queue.foldl (execute delta) ⟨initial, fun _ => none⟩

/-- The next step of an invocation. The shared lock never blocks another shared one. -/
def step (s : State n) (i : Fin n) : Option (State n) :=
  match s.phase i with
  | .started => some { s with phase := update s.phase i .locked }
  | .locked => some ⟨update s.phase i .copied, s.queue ++ [.copy i]⟩
  | .copied => some ⟨update s.phase i .skipped, s.queue ++ [.skip i]⟩
  | .skipped => some { s with phase := update s.phase i .unlocked }
  | .unlocked => none

def Finished (s : State n) : Prop := ∀ i, s.phase i = .unlocked

instance (s : State n) : Decidable (Finished s) := inferInstanceAs (Decidable (∀ i, s.phase i = _))

def totalCount : Nat := ∑ i, 256 * (delta i).toNat

/-- Each invocation returns a state of its own, and the counter ends where the last ends. -/
structure UniqueStreams (initial : StateTensor) (memory : Memory n) : Prop where
  distinct : ∀ i j, i ≠ j → memory.outputs i ≠ memory.outputs j
  disjoint : ∀ i j old old', i ≠ j → memory.outputs i = some old → memory.outputs j = some old' →
    ∀ x, ¬ ((old.counter.value ≤ x ∧ x < old.counter.value + 256 * (delta i).toNat) ∧
      old'.counter.value ≤ x ∧ x < old'.counter.value + 256 * (delta j).toNat)
  final : memory.variable_.counter.value = initial.counter.value + totalCount delta

/-- No invocation enqueues its copy while another is between its copy and its skip, and every
    skip is exact. -/
def CopiesAlone (initial : StateTensor) (s : State n) (i : Fin n) (_ : State n) : Prop :=
  (s.phase i = .locked → ∀ j, s.phase j ≠ .copied) ∧
    (s.phase i = .copied → Exact (s.memory delta initial).variable_.counter (delta i))

end Model

section Runs

variable {n : Nat} {delta : Fin n → BitVec 64} {initial : StateTensor}

def Phase.hasSkipped : Phase → Bool
  | .skipped | .unlocked => true
  | .started | .locked | .copied => false

def State.advanced (delta : Fin n → BitVec 64) (s : State n) : Nat :=
  ∑ i, if (s.phase i).hasSkipped then 256 * (delta i).toNat else 0

theorem advanced_le (delta : Fin n → BitVec 64) (s : State n) :
    s.advanced delta ≤ totalCount delta := by
  apply Finset.sum_le_sum
  intro i _
  split
  · exact le_refl _
  · exact Nat.zero_le _

variable {s : State n}

theorem advanced_finished (finished : Finished s) : s.advanced delta = totalCount delta := by
  apply Finset.sum_congr rfl
  intro i _
  rw [finished i]
  rfl

theorem advanced_update (delta : Fin n → BitVec 64) (s : State n) (i : Fin n) (phase : Phase)
    (queue : List (Command n)) : (⟨update s.phase i phase, queue⟩ : State n).advanced delta +
        (if (s.phase i).hasSkipped then 256 * (delta i).toNat else 0) =
      s.advanced delta + if phase.hasSkipped then 256 * (delta i).toNat else 0 := by
  have others : ∑ j ∈ Finset.univ.erase i,
      (if (update s.phase i phase j).hasSkipped then 256 * (delta j).toNat else 0) =
        ∑ j ∈ Finset.univ.erase i, if (s.phase j).hasSkipped then 256 * (delta j).toNat else 0 := by
    apply Finset.sum_congr rfl
    intro j mem
    rw [update_of_ne (Finset.ne_of_mem_erase mem)]
  have pre := Finset.add_sum_erase Finset.univ
    (fun j => if (s.phase j).hasSkipped then 256 * (delta j).toNat else 0) (Finset.mem_univ i)
  have after := Finset.add_sum_erase Finset.univ
    (fun j => if (update s.phase i phase j).hasSkipped then 256 * (delta j).toNat
      else 0) (Finset.mem_univ i)
  simp only [update_self] at after
  simp only [State.advanced]
  omega

variable {i : Fin n}

theorem advanced_copy (delta : Fin n → BitVec 64) (now : s.phase i = .locked) :
    (⟨update s.phase i .copied, s.queue ++ [.copy i]⟩ : State n).advanced delta =
      s.advanced delta := by
  have updated := advanced_update delta s i .copied (s.queue ++ [.copy i])
  simpa [now, Phase.hasSkipped] using updated

theorem advanced_skip (delta : Fin n → BitVec 64) (now : s.phase i = .copied) :
    (⟨update s.phase i .skipped, s.queue ++ [.skip i]⟩ : State n).advanced delta =
      s.advanced delta + 256 * (delta i).toNat := by
  have updated := advanced_update delta s i .skipped (s.queue ++ [.skip i])
  simpa [now, Phase.hasSkipped] using updated

def Phase.hasCopied : Phase → Bool
  | .copied | .skipped | .unlocked => true
  | .started | .locked => false

/-- Locking and unlocking leave the commands alone; the other steps enqueue one. -/
inductive Effect (s : State n) (i : Fin n) (t : State n) : Prop where
  | silent (phase : Phase) (is : t = { s with phase := update s.phase i phase })
      (notLocked : s.phase i ≠ .locked) (notBefore : s.phase i ≠ .copied)
      (notAfter : phase ≠ .copied) (hasCopied : phase.hasCopied = (s.phase i).hasCopied)
      (hasSkipped : phase.hasSkipped = (s.phase i).hasSkipped)
  | copy (now : s.phase i = .locked)
      (is : t = ⟨update s.phase i .copied, s.queue ++ [.copy i]⟩)
  | skip (now : s.phase i = .copied)
      (is : t = ⟨update s.phase i .skipped, s.queue ++ [.skip i]⟩)

variable {t : State n}

theorem step_effect (taken : step s i = some t) : Effect s i t := by
  cases now : s.phase i with
  | started =>
    simp only [step, now, Option.some.injEq] at taken
    exact .silent .locked taken.symm (by simp [now]) (by simp [now]) (by simp) (by rw [now]; rfl)
      (by rw [now]; rfl)
  | locked =>
    simp only [step, now, Option.some.injEq] at taken
    exact .copy now taken.symm
  | copied =>
    simp only [step, now, Option.some.injEq] at taken
    exact .skip now taken.symm
  | skipped =>
    simp only [step, now, Option.some.injEq] at taken
    exact .silent .unlocked taken.symm (by simp [now]) (by simp [now]) (by simp) (by rw [now]; rfl)
      (by rw [now]; rfl)
  | unlocked => simp [step, now] at taken

theorem memory_enqueue (s : State n) (phase : Fin n → Phase) (command : Command n) :
    (⟨phase, s.queue ++ [command]⟩ : State n).memory delta initial =
      execute delta (s.memory delta initial) command := by
  simp only [State.memory, List.foldl_append, List.foldl_cons, List.foldl_nil]

variable {phase : Phase}

theorem update_cases (P : Fin n → Phase → Prop) (here : P i phase)
    (others : ∀ j, j ≠ i → P j (s.phase j)) (j : Fin n) : P j (update s.phase i phase j) := by
  by_cases same : j = i
  · subst same
    rwa [update_self]
  · rw [update_of_ne same]
    exact others j same

/-- The states that were read and then skipped lie one after the other below the counter; at
    most one other state was read, and that is the current one. -/
structure Good (delta : Fin n → BitVec 64) (initial : StateTensor) (s : State n) : Prop where
  counter : (s.memory delta initial).variable_.counter.value =
    initial.counter.value + s.advanced delta
  alone : ∀ i j, s.phase i = .copied → s.phase j = .copied → i = j
  pending : ∀ i, s.phase i = .copied →
    (s.memory delta initial).outputs i = some (s.memory delta initial).variable_
  read : ∀ i, (s.phase i).hasSkipped = true → ∃ old, (s.memory delta initial).outputs i = some old ∧
      old.counter.value + 256 * (delta i).toNat ≤ (s.memory delta initial).variable_.counter.value
  apart : ∀ i j old old', i ≠ j → (s.phase i).hasSkipped = true →
    (s.phase j).hasSkipped = true → (s.memory delta initial).outputs i = some old →
    (s.memory delta initial).outputs j = some old' →
    old.counter.value + 256 * (delta i).toNat ≤ old'.counter.value ∨
      old'.counter.value + 256 * (delta j).toNat ≤ old.counter.value

def Duplicated (delta : Fin n → BitVec 64) (initial : StateTensor) (s : State n) : Prop :=
  ∃ i j, i ≠ j ∧ (s.phase i).hasCopied = true ∧ (s.phase j).hasCopied = true ∧
    (s.memory delta initial).outputs i = (s.memory delta initial).outputs j

def Short (delta : Fin n → BitVec 64) (initial : StateTensor) (s : State n) : Prop :=
  (s.memory delta initial).variable_.counter.value < initial.counter.value + s.advanced delta

theorem good_initial : Good delta initial ({} : State n) where
  counter := by simp [State.memory, State.advanced, Phase.hasSkipped]
  alone := by simp
  pending := by simp
  read := by simp [Phase.hasSkipped]
  apart := by simp [Phase.hasSkipped]

theorem silent_same (notBefore : s.phase i ≠ .copied) (notAfter : phase ≠ .copied)
    (hasSkipped : phase.hasSkipped = (s.phase i).hasSkipped) (j : Fin n) :
    (update s.phase i phase j = .copied ↔ s.phase j = .copied) ∧
      (update s.phase i phase j).hasSkipped = (s.phase j).hasSkipped := by
  by_cases same : j = i
  · subst same
    rw [update_self]
    exact ⟨⟨fun is => absurd is notAfter, fun is => absurd is notBefore⟩, hasSkipped⟩
  · rw [update_of_ne same]
    exact ⟨Iff.rfl, rfl⟩

theorem Good.silent (good : Good delta initial s) (notBefore : s.phase i ≠ .copied)
    (notAfter : phase ≠ .copied) (hasSkipped : phase.hasSkipped = (s.phase i).hasSkipped) :
    Good delta initial { s with phase := update s.phase i phase } := by
  have same := silent_same notBefore notAfter hasSkipped
  have advanced : ({ s with phase := update s.phase i phase } : State n).advanced delta =
      s.advanced delta := by
    apply Finset.sum_congr rfl
    intro j _
    rw [(same j).2]
  constructor
  · rw [advanced]
    exact good.counter
  · intro j k isJ isK
    exact good.alone j k ((same j).1.mp isJ) ((same k).1.mp isK)
  · intro j is
    exact good.pending j ((same j).1.mp is)
  · intro j skip
    exact good.read j ((same j).2 ▸ skip)
  · intro j k old old' ne skippedJ skippedK
    exact good.apart j k old old' ne ((same j).2 ▸ skippedJ) ((same k).2 ▸ skippedK)

theorem Good.copy (good : Good delta initial s) (now : s.phase i = .locked)
    (alone : ∀ j, s.phase j ≠ .copied) :
    Good delta initial ⟨update s.phase i .copied, s.queue ++ [.copy i]⟩ := by
  have advanced := advanced_copy delta now
  have notSkipped : ∀ j, (update s.phase i .copied j).hasSkipped = true →
      j ≠ i ∧ (s.phase j).hasSkipped = true := by
    intro j
    apply update_cases fun j phase => phase.hasSkipped = true → j ≠ i ∧ (s.phase j).hasSkipped = true
    · simp [Phase.hasSkipped]
    · exact fun j ne skip => ⟨ne, skip⟩
  have isCopied : ∀ j, update s.phase i .copied j = .copied → j = i := by
    intro j
    apply update_cases fun j phase => phase = .copied → j = i
    · exact fun _ => rfl
    · exact fun j _ is => absurd is (alone j)
  constructor
  · rw [memory_enqueue, advanced]
    exact good.counter
  · intro j k isJ isK
    exact (isCopied j isJ).trans (isCopied k isK).symm
  · intro j is
    obtain rfl := isCopied j is
    simp only [memory_enqueue, execute, update_self]
  · intro j skip
    obtain ⟨ne, skip⟩ := notSkipped j skip
    simp only [memory_enqueue, execute, update_of_ne ne]
    exact good.read j skip
  · intro j k old old' ne skippedJ skippedK
    obtain ⟨differentJ, skippedJ⟩ := notSkipped j skippedJ
    obtain ⟨differentK, skippedK⟩ := notSkipped k skippedK
    simp only [memory_enqueue, execute, update_of_ne differentJ, update_of_ne differentK]
    exact good.apart j k old old' ne skippedJ skippedK

theorem Good.skip (good : Good delta initial s)
    (total : initial.counter.value + totalCount delta < 2 ^ 128) (now : s.phase i = .copied)
    (exact_ : Exact (s.memory delta initial).variable_.counter (delta i)) :
    Good delta initial ⟨update s.phase i .skipped, s.queue ++ [.skip i]⟩ := by
  have advanced := advanced_skip delta now
  have bound := advanced_le delta
    (⟨update s.phase i .skipped, s.queue ++ [.skip i]⟩ : State n)
  have counter := good.counter
  have value := skip_exact exact_ (by omega)
  have pending := good.pending i now
  have hasSkipped : ∀ j, (update s.phase i .skipped j).hasSkipped = true →
      j = i ∨ (s.phase j).hasSkipped = true := by
    intro j
    apply update_cases fun j phase => phase.hasSkipped = true → j = i ∨ (s.phase j).hasSkipped = true
    · exact fun _ => Or.inl rfl
    · exact fun j _ skipped => Or.inr skipped
  have notCopied : ∀ j, update s.phase i .skipped j ≠ .copied := by
    intro j
    apply update_cases fun _ phase => phase ≠ .copied
    · simp
    · exact fun j ne is => ne (good.alone j i is now)
  constructor
  · simp only [memory_enqueue, execute, skipKernel_eq]
    omega
  · intro j k isJ
    exact absurd isJ (notCopied j)
  · intro j is
    exact absurd is (notCopied j)
  · intro j skipped
    simp only [memory_enqueue, execute, skipKernel_eq]
    rcases hasSkipped j skipped with rfl | skipped
    · exact ⟨_, pending, value.ge⟩
    · obtain ⟨old, got, below⟩ := good.read j skipped
      exact ⟨old, got, by omega⟩
  · intro j k old old' ne skippedJ skippedK
    simp only [memory_enqueue, execute]
    intro foundJ foundK
    rcases hasSkipped j skippedJ with rfl | earlierJ
    · rcases hasSkipped k skippedK with rfl | earlierK
      · exact absurd rfl ne
      · obtain ⟨old'', got, below⟩ := good.read k earlierK
        obtain rfl := Option.some.inj (got.symm.trans foundK)
        obtain rfl := Option.some.inj (pending.symm.trans foundJ)
        exact Or.inr below
    · rcases hasSkipped k skippedK with rfl | earlierK
      · obtain ⟨old'', got, below⟩ := good.read j earlierJ
        obtain rfl := Option.some.inj (got.symm.trans foundJ)
        obtain rfl := Option.some.inj (pending.symm.trans foundK)
        exact Or.inl below
      · exact good.apart j k old old' ne earlierJ earlierK foundJ foundK

theorem Good.step (good : Good delta initial s)
    (total : initial.counter.value + totalCount delta < 2 ^ 128) (taken : step s i = some t)
    (met : CopiesAlone delta initial s i t) : Good delta initial t := by
  cases step_effect taken with
  | silent phase is _ notBefore notAfter _ hasSkipped =>
    exact is ▸ good.silent notBefore notAfter hasSkipped
  | copy now is => exact is ▸ good.copy now (met.1 now)
  | skip now is => exact is ▸ good.skip total now (met.2 now)

theorem Good.breaks (good : Good delta initial s) (taken : RngSkip.step s i = some t)
    (unmet : ¬ CopiesAlone delta initial s i t) :
    Duplicated delta initial t ∨ Short delta initial t := by
  cases step_effect taken with
  | silent phase is notLocked notBefore =>
    exact absurd ⟨fun now => absurd now notLocked, fun now => absurd now notBefore⟩ unmet
  | copy now is =>
    have notAlone : ¬ ∀ j, s.phase j ≠ .copied :=
      fun alone => unmet ⟨fun _ => alone, fun copied => by simp [now] at copied⟩
    push Not at notAlone
    obtain ⟨j, copied⟩ := notAlone
    have ne : j ≠ i := fun same => by simp [← same, copied] at now
    subst is
    refine Or.inl ⟨i, j, ne.symm, ?_, ?_, ?_⟩
    · simp only [update_self, Phase.hasCopied]
    · simp only [update_of_ne ne, copied, Phase.hasCopied]
    · simp only [memory_enqueue, execute, update_self, update_of_ne ne, good.pending j copied]
  | skip now is =>
    have inexact : ¬ Exact (s.memory delta initial).variable_.counter (delta i) :=
      fun exact_ => unmet ⟨fun locked => by simp [now] at locked, fun _ => exact_⟩
    have advanced := advanced_skip delta now
    have counter := good.counter
    have less := skip_lt inexact
    subst is
    right
    simp only [Short, memory_enqueue, execute, skipKernel_eq]
    omega

theorem Duplicated.step (duplicated : Duplicated delta initial s)
    (taken : RngSkip.step s i = some t) : Duplicated delta initial t := by
  obtain ⟨j, k, ne, copiedJ, copiedK, same⟩ := duplicated
  cases step_effect taken with
  | silent phase is _ _ _ hasCopied =>
    subst is
    have kept : ∀ m, (update s.phase i phase m).hasCopied = (s.phase m).hasCopied :=
      update_cases (fun m phase => phase.hasCopied = (s.phase m).hasCopied) hasCopied
        (fun _ _ => rfl)
    exact ⟨j, k, ne, (kept j).trans copiedJ, (kept k).trans copiedK, same⟩
  | copy now is =>
    subst is
    have other : ∀ m, (s.phase m).hasCopied = true → m ≠ i := by
      intro m copied here
      simp [here, now, Phase.hasCopied] at copied
    have jNe := other j copiedJ
    have kNe := other k copiedK
    refine ⟨j, k, ne, ?_, ?_, ?_⟩
    · simpa only [update_of_ne jNe] using copiedJ
    · simpa only [update_of_ne kNe] using copiedK
    · simpa only [memory_enqueue, execute, update_of_ne jNe, update_of_ne kNe] using same
  | skip now is =>
    subst is
    have kept : ∀ m, (s.phase m).hasCopied = true →
        (update s.phase i .skipped m).hasCopied = true :=
      update_cases (fun m phase => (s.phase m).hasCopied = true → phase.hasCopied = true)
        (fun _ => rfl) (fun _ _ copied => copied)
    refine ⟨j, k, ne, kept j copiedJ, kept k copiedK, ?_⟩
    simpa only [memory_enqueue, execute] using same

theorem Short.step (short : Short delta initial s) (taken : RngSkip.step s i = some t) :
    Short delta initial t := by
  unfold Short at short ⊢
  cases step_effect taken with
  | silent phase is _ _ _ _ hasSkipped =>
    subst is
    have advanced := advanced_update delta s i phase s.queue
    rw [hasSkipped, Nat.add_right_cancel_iff] at advanced
    rw [advanced]
    exact short
  | copy now is =>
    subst is
    rw [memory_enqueue, advanced_copy delta now]
    exact short
  | skip now is =>
    subst is
    have advanced := advanced_skip delta now
    have most := skip_le (s.memory delta initial).variable_.counter (delta i)
    simp only [memory_enqueue, execute, skipKernel_eq]
    omega

theorem Good.uniqueStreams (good : Good delta initial s) (pos : ∀ i, 0 < (delta i).toNat)
    (finished : Finished s) : UniqueStreams delta initial (s.memory delta initial) := by
  have skip : ∀ i, (s.phase i).hasSkipped = true := fun i => by rw [finished i]; rfl
  constructor
  · intro i j ne same
    obtain ⟨old, got, -⟩ := good.read i (skip i)
    have apart := good.apart i j old old ne (skip i) (skip j) got (same ▸ got)
    have first := pos i
    have snd := pos j
    omega
  · intro i j old old' ne got got' x both
    have apart := good.apart i j old old' ne (skip i) (skip j) got got'
    omega
  · rw [good.counter, advanced_finished finished]

/-- Once all calls are done, each has read a state of its own and the counter is where it
    should be exactly if every copy was alone and every skip exact. -/
theorem uniqueStreams_iff (delta : Fin n → BitVec 64) (initial : StateTensor)
    (pos : ∀ i, 0 < (delta i).toNat)
    (total : initial.counter.value + totalCount delta < 2 ^ 128) (actions : List (Fin n))
    (s : State n) (reached : run RngSkip.step {} actions = some s) (finished : Finished s) :
    UniqueStreams delta initial (s.memory delta initial) ↔
      EveryStep RngSkip.step (CopiesAlone delta initial) {} actions := by
  have stays : ∀ s i t, Duplicated delta initial s ∨ Short delta initial s →
      RngSkip.step s i = some t → Duplicated delta initial t ∨ Short delta initial t :=
    fun s i t bad taken => bad.imp (fun dup => dup.step taken) (fun short => short.step taken)
  rcases run_good_or_bad (C := CopiesAlone delta initial)
      (fun s i t good taken => good.step total taken) (fun s i t good taken => good.breaks taken)
      stays good_initial reached with ⟨every, good⟩ | ⟨broken, bad⟩
  · exact ⟨fun _ => every, fun _ => good.uniqueStreams pos finished⟩
  · refine ⟨fun unique => ?_, fun every => absurd every broken⟩
    rcases bad with ⟨i, j, ne, -, -, same⟩ | short
    · exact absurd same (unique.distinct i j ne)
    · have final := unique.final
      rw [Short, advanced_finished finished, final] at short
      exact absurd short (Nat.lt_irrefl _)

end Runs

def oneSample : Fin 2 → BitVec 64 := fun _ => 1

def zeroState : StateTensor := ⟨⟨0, 0, 0, 0⟩, [7, 8]⟩

/-- One call after the other. -/
theorem inTurn_uniqueStreams : ∃ s, run step {} [0, 0, 0, 0, 1, 1, 1, 1] = some s ∧
      (UniqueStreams oneSample zeroState (s.memory oneSample zeroState) ↔
        EveryStep step (CopiesAlone oneSample zeroState) {} [0, 0, 0, 0, 1, 1, 1, 1]) :=
  ⟨_, rfl, uniqueStreams_iff oneSample zeroState (by decide) (by decide) _ _ rfl (by decide)⟩

/-- Both calls copy before either of them skips. -/
theorem interleaved_sameState : ∃ s, run step {} [0, 1, 0, 1, 0, 1, 0, 1] = some s ∧ Finished s ∧
      ¬ UniqueStreams oneSample zeroState (s.memory oneSample zeroState) := by
  refine ⟨_, rfl, by decide, fun unique => ?_⟩
  exact unique.distinct 0 1 (by decide) rfl

end TfDml.RngSkip

namespace TfDml.RngSkip

open Lib Philox
open BufferRegion (region region_of_pos subregion subregion_start)

inductive Op where
  | rngSkip
  | rngReadAndSkip
  deriving DecidableEq

/-- The inputs, where `CheckPhiloxState` has found enough elements. -/
structure Call where
  op : Op
  delta : BitVec 64
  state : List (BitVec 64)
  checked : 3 ≤ state.length

/-- The state as it is in memory, with the low half of an element first. -/
def words (state : List (BitVec 64)) : List (BitVec 32) :=
  state.flatMap fun (element : BitVec 64) => [element.setWidth 32, (element >>> 32).setWidth 32]

/-- `dml::Split` into four words and what follows them. -/
def split : List (BitVec 32) → Option StateTensor
  | w0 :: w1 :: w2 :: w3 :: rest => some ⟨⟨w0, w1, w2, w3⟩, rest⟩
  | _ => none

def join (state : StateTensor) : List (BitVec 32) :=
  [state.counter.w0, state.counter.w1, state.counter.w2, state.counter.w3] ++ state.rest

namespace Call

/-- The product of `GetDelta()` and 256. That of two `int64_t` has to have 64 bits. -/
def count (c : Call) : Option (BitVec 64) :=
  match c.op with
  | .rngSkip => if -2 ^ 63 ≤ c.delta.toInt * 256 ∧ c.delta.toInt * 256 < 2 ^ 63 then
      some (skipCount c.delta) else none
  | .rngReadAndSkip => some (skipCount c.delta)

/-- What `CopyTensorInSameDevice` copies to an output of three elements. -/
def copiedBytes (c : Call) : Except Stop Nat := do
  let src ← region (c.state.length * 8)
  let dst ← region 24
  let src ← subregion src 0 24
  Stop.check (src ≤ dst)
  .ok src

/-- The new state as words, and the output. -/
def run (c : Call) : Option (List (BitVec 32) × Option (List (BitVec 64))) :=
  -- `NarrowTensorShape`, and a reinterpreted tensor has the size of its buffer.
  if c.state.length < 2 ^ 32 ∧ c.state.length % 2 ^ 32 * 2 % 2 ^ 32 = (words c.state).length then do
    let _ ← c.count
    let input ← split (words c.state)
    let newState := join (skipKernel c.delta input)
    match c.op with
    | .rngSkip => some (newState, none)
    | .rngReadAndSkip => do
        let copied ← c.copiedBytes.toOption
        some (newState, some (c.state.take (copied / 8)))
  else none

/-- The counter is the one that the generator of the CPU has, and the other words stay. -/
def Agrees (c : Call) : Prop :=
  ∃ input newState, split (words c.state) = some input ∧
    split newState = some ⟨input.counter.skip (skipCount c.delta), input.rest⟩ ∧
    c.run = some (newState, match c.op with
      | .rngSkip => none
      | .rngReadAndSkip => some (c.state.take 3))

theorem length_words (state : List (BitVec 64)) : (words state).length = state.length * 2 := by
  simp [words, List.length_flatMap]

theorem exists_split (c : Call) : ∃ input, split (words c.state) = some input := by
  obtain ⟨op, delta, state, checked⟩ := c
  match state, checked with
  | x :: y :: z :: rest, _ => exact ⟨_, rfl⟩

theorem copiedBytes_eq (c : Call) (lt : c.state.length < 2 ^ 32) : c.copiedBytes = .ok 24 := by
  have enough := c.checked
  have some_ : 0 < c.state.length * 8 := by omega
  obtain ⟨size, isRegion, covers⟩ := region_of_pos some_ (by omega)
  rw [copiedBytes, isRegion, Stop.ok_bind, show region 24 = .ok 24 by decide, Stop.ok_bind,
    subregion_start (by decide) (by omega)]
  rfl

/-- The state has fewer than 2^31 elements, and a product of `int64_t` does not overflow. -/
def Representable (c : Call) : Prop :=
  c.state.length < 2 ^ 31 ∧ (c.op = .rngSkip → -2 ^ 55 ≤ c.delta.toInt ∧ c.delta.toInt < 2 ^ 55)

theorem count_eq (c : Call) : c.count = if c.op = .rngSkip → -2 ^ 55 ≤ c.delta.toInt ∧
    c.delta.toInt < 2 ^ 55 then some (skipCount c.delta) else none := by
  rw [count]
  cases c.op with
  | rngSkip =>
    simp only [forall_const]
    by_cases fits : -2 ^ 55 ≤ c.delta.toInt ∧ c.delta.toInt < 2 ^ 55
    · rw [if_pos fits, if_pos (by omega)]
    · rw [if_neg fits, if_neg (by omega)]
  | rngReadAndSkip => simp

/-- The kernels agree with the generator of the CPU if and only if the elements can be counted as
    words, and the product of the delta is defined. -/
theorem counterAgrees_iff (c : Call) : c.Agrees ↔ c.Representable := by
  obtain ⟨input, isSplit⟩ := c.exists_split
  constructor
  · rintro ⟨_, _, -, -, ran⟩
    simp only [run, Option.bind_eq_bind, Option.bind_eq_some_iff, Option.ite_none_right_eq_some,
      length_words, count_eq] at ran
    obtain ⟨⟨lt, same⟩, _, ⟨fits, -⟩, -⟩ := ran
    exact ⟨by omega, fits⟩
  · rintro ⟨small, fits⟩
    refine ⟨input, join (skipKernel c.delta input), isSplit, ?_, ?_⟩
    · rw [skipKernel_eq]
      rfl
    · have lt : c.state.length < 2 ^ 32 := by omega
      have same : c.state.length % 2 ^ 32 * 2 % 2 ^ 32 = c.state.length * 2 := by omega
      rw [run, length_words, if_pos ⟨lt, same⟩, count_eq, if_pos fits, isSplit, copiedBytes_eq c lt]
      cases c.op <;> rfl

/-- The product of the largest `int64_t`. -/
def largestDelta : Call := ⟨.rngSkip, 2 ^ 63 - 1, [0, 0, 0], by decide⟩

theorem largestDelta_not_agrees : ¬ largestDelta.Agrees := by
  rintro ⟨_, _, -, -, ran⟩
  have stops : largestDelta.run = none := by decide +kernel
  rw [stops] at ran
  cases ran

end Call

end TfDml.RngSkip
