import Mathlib.Data.BitVec

/-! # The counter of the Philox generator

A generator is a counter of 128 bits, in four words, and a key. Skipping samples
adds to the counter with a hand-written carry.
-/

namespace TfDml.Philox

structure Counter where
  w0 : BitVec 32
  w1 : BitVec 32
  w2 : BitVec 32
  w3 : BitVec 32
  deriving DecidableEq

structure Key where
  k0 : BitVec 32
  k1 : BitVec 32
  deriving DecidableEq

structure PhiloxRandom where
  counter : Counter
  key : Key
  deriving DecidableEq

/-- `PhiloxRandom(seed_lo, seed_hi)`. -/
def PhiloxRandom.ofSeeds (seedLo seedHi : BitVec 64) : PhiloxRandom where
  counter := ⟨0, 0, seedHi.setWidth 32, (seedHi >>> 32).setWidth 32⟩
  key := ⟨seedLo.setWidth 32, (seedLo >>> 32).setWidth 32⟩

namespace Counter

def value (c : Counter) : Nat :=
  c.w0.toNat + 2 ^ 32 * c.w1.toNat + 2 ^ 64 * c.w2.toNat + 2 ^ 96 * c.w3.toNat

theorem value_lt (c : Counter) : c.value < 2 ^ 128 := by
  have h0 := c.w0.isLt
  have h1 := c.w1.isLt
  have h2 := c.w2.isLt
  have h3 := c.w3.isLt
  unfold value
  omega

def countLo (count : BitVec 64) : BitVec 32 := count.setWidth 32

def countHi (count : BitVec 64) : BitVec 32 := (count >>> 32).setWidth 32

/-- `PhiloxRandom::Skip`, on the counter. -/
def skip (c : Counter) (count : BitVec 64) : Counter :=
  let w0 := c.w0 + countLo count
  let carried := if w0 < countLo count then countHi count + 1 else countHi count
  let w1 := c.w1 + carried
  if w1 < carried then
    let w2 := c.w2 + 1
    ⟨w0, w1, w2, if w2 = 0 then c.w3 + 1 else c.w3⟩
  else ⟨w0, w1, c.w2, c.w3⟩

/-- The carry out of the low word makes the high word of the count wrap around to zero. -/
def CarryLost (c : Counter) (count : BitVec 64) : Prop :=
  (countHi count).toNat = 2 ^ 32 - 1 ∧ 2 ^ 32 ≤ c.w0.toNat + (countLo count).toNat

instance (c : Counter) (count : BitVec 64) : Decidable (c.CarryLost count) :=
  inferInstanceAs (Decidable (_ ∧ _))

theorem count_toNat (count : BitVec 64) :
    count.toNat = (countLo count).toNat + 2 ^ 32 * (countHi count).toNat := by
  have bound := count.isLt
  simp only [countLo, countHi, BitVec.toNat_setWidth, BitVec.toNat_ushiftRight,
    Nat.shiftRight_eq_div_pow]
  omega

theorem carried_toNat (c : Counter) (count : BitVec 64) :
    (if c.w0 + countLo count < countLo count then countHi count + 1 else countHi count).toNat =
      if 2 ^ 32 ≤ c.w0.toNat + (countLo count).toNat then
        ((countHi count).toNat + 1) % 2 ^ 32
      else (countHi count).toNat := by
  have low := (countLo count).isLt
  have word := c.w0.isLt
  by_cases carry : c.w0 + countLo count < countLo count
  · rw [if_pos carry]
    simp only [BitVec.lt_def, BitVec.toNat_add] at carry
    rw [if_pos (by omega), BitVec.toNat_add]
    rfl
  · rw [if_neg carry]
    simp only [BitVec.lt_def, BitVec.toNat_add] at carry
    rw [if_neg (by omega)]

theorem upper_value (w1 w2 w3 added : BitVec 32) : (w1 + added).toNat +
        2 ^ 32 * (if w1 + added < added then w2 + 1 else w2).toNat +
        2 ^ 64 * (if w1 + added < added ∧ w2 + 1 = 0 then w3 + 1 else w3).toNat =
      (w1.toNat + added.toNat + 2 ^ 32 * w2.toNat + 2 ^ 64 * w3.toNat) % 2 ^ 96 := by
  have h1 := w1.isLt
  have h2 := w2.isLt
  have h3 := w3.isLt
  have ha := added.isLt
  by_cases carry : w1 + added < added
  · by_cases wraps : w2 + 1 = 0
    · simp only [carry, wraps, and_self, if_true]
      bv_omega
    · simp only [carry, wraps, and_false, if_true, if_false]
      bv_omega
  · simp only [carry, false_and, if_false]
    bv_omega

theorem skip_eq (c : Counter) (count : BitVec 64) :
    ∃ carried, carried = (if c.w0 + countLo count < countLo count then countHi count + 1
        else countHi count) ∧ c.skip count = ⟨c.w0 + countLo count, c.w1 + carried,
        if c.w1 + carried < carried then c.w2 + 1 else c.w2,
        if c.w1 + carried < carried ∧ c.w2 + 1 = 0 then c.w3 + 1 else c.w3⟩ := by
  refine ⟨_, rfl, ?_⟩
  simp only [skip]
  generalize (if c.w0 + countLo count < countLo count then countHi count + 1
    else countHi count) = carried
  by_cases carry : c.w1 + carried < carried
  · simp only [carry, if_true, true_and]
  · simp only [carry, if_false, false_and]

theorem skip_value {c : Counter} {count : BitVec 64} (kept : ¬ c.CarryLost count) :
    (c.skip count).value = (c.value + count.toNat) % 2 ^ 128 := by
  obtain ⟨carried, is, skip⟩ := c.skip_eq count
  have high := c.carried_toNat count
  rw [← is] at high
  have upper := upper_value c.w1 c.w2 c.w3 carried
  have split := count_toNat count
  have low := (countLo count).isLt
  have hi := (countHi count).isLt
  have word := c.w0.isLt
  simp only [CarryLost, not_and] at kept
  rw [skip]
  simp only [value, BitVec.toNat_add] at upper ⊢
  split at high <;> omega

theorem skip_value_of_carryLost {c : Counter} {count : BitVec 64} (lost : c.CarryLost count) :
    (c.skip count).value + 2 ^ 64 = c.value + count.toNat := by
  obtain ⟨carried, is, skip⟩ := c.skip_eq count
  have high := c.carried_toNat count
  rw [← is] at high
  have upper := upper_value c.w1 c.w2 c.w3 carried
  have split := count_toNat count
  have low := (countLo count).isLt
  have word := c.w0.isLt
  have h1 := c.w1.isLt
  have h2 := c.w2.isLt
  have h3 := c.w3.isLt
  obtain ⟨full, carries⟩ := lost
  rw [if_pos carries, full] at high
  rw [skip]
  simp only [value, BitVec.toNat_add] at upper ⊢
  omega

/-- `PhiloxRandom::SkipOne`, on the counter. -/
def skipOne (c : Counter) : Counter :=
  let w0 := c.w0 + 1
  if w0 = 0 then
    let w1 := c.w1 + 1
    if w1 = 0 then
      let w2 := c.w2 + 1
      ⟨w0, w1, w2, if w2 = 0 then c.w3 + 1 else c.w3⟩
    else ⟨w0, w1, c.w2, c.w3⟩
  else ⟨w0, c.w1, c.w2, c.w3⟩

theorem skipOne_value (c : Counter) : c.skipOne.value = (c.value + 1) % 2 ^ 128 := by
  have h0 := c.w0.isLt
  have h1 := c.w1.isLt
  have h2 := c.w2.isLt
  have h3 := c.w3.isLt
  simp only [skipOne, value]
  split
  · split
    · split <;> bv_omega
    · bv_omega
  · bv_omega

theorem iterate_skipOne_value (c : Counter) (n : Nat) :
    (skipOne^[n] c).value = (c.value + n) % 2 ^ 128 := by
  induction n with
  | zero => exact (Nat.mod_eq_of_lt c.value_lt).symm
  | succ n ih =>
    rw [Function.iterate_succ_apply', skipOne_value, ih]
    omega

theorem value_inj {c d : Counter} (same : c.value = d.value) : c = d := by
  obtain ⟨c0, c1, c2, c3⟩ := c
  obtain ⟨d0, d1, d2, d3⟩ := d
  simp only [value] at same
  simp only [mk.injEq]
  bv_omega

theorem skip_w0 (c : Counter) (count : BitVec 64) : (c.skip count).w0 = c.w0 + countLo count := by
  obtain ⟨carried, -, skip⟩ := c.skip_eq count
  rw [skip]

end Counter

def PhiloxRandom.skip (generator : PhiloxRandom) (count : BitVec 64) : PhiloxRandom :=
  { generator with counter := generator.counter.skip count }

def PhiloxRandom.skipOne (generator : PhiloxRandom) : PhiloxRandom :=
  { generator with counter := generator.counter.skipOne }

/-- `MultiplyHighLow`, with the low half first. -/
def multiplyHighLow (a b : BitVec 32) : BitVec 32 × BitVec 32 :=
  let product := a.setWidth 64 * b.setWidth 64
  (product.setWidth 32, (product >>> 32).setWidth 32)

def computeSingleRound (counter : Counter) (key : Key) : Counter :=
  let (lo0, hi0) := multiplyHighLow 0xD2511F53 counter.w0
  let (lo1, hi1) := multiplyHighLow 0xCD9E8D57 counter.w2
  ⟨hi1 ^^^ counter.w1 ^^^ key.k0, lo1, hi0 ^^^ counter.w3 ^^^ key.k1, lo0⟩

def raiseKey (key : Key) : Key := ⟨key.k0 + 0x9E3779B9, key.k1 + 0xBB67AE85⟩

/-- The sample of `PhiloxRandom::operator()`, after ten rounds. -/
def PhiloxRandom.sample (generator : PhiloxRandom) : Counter :=
  ((List.range 10).foldl (fun (counter, key) _ => (computeSingleRound counter key, raiseKey key))
    (generator.counter, generator.key)).1

structure Advances (generator : PhiloxRandom) (count : BitVec 64) : Prop where
  sum : (generator.skip count).counter.value = (generator.counter.value + count.toNat) % 2 ^ 128
  steps : generator.skip count = PhiloxRandom.skipOne^[count.toNat] generator
  key : (generator.skip count).key = generator.key

theorem iterate_skipOne (generator : PhiloxRandom) (n : Nat) : PhiloxRandom.skipOne^[n] generator =
      { generator with counter := Counter.skipOne^[n] generator.counter } := by
  induction n with
  | zero => rfl
  | succ n ih => rw [Function.iterate_succ_apply', ih, PhiloxRandom.skipOne,
      Function.iterate_succ_apply']

theorem advances_iff {generator : PhiloxRandom} {count : BitVec 64} :
    Advances generator count ↔ ¬ generator.counter.CarryLost count := by
  constructor
  · intro advances lost
    have short := Counter.skip_value_of_carryLost lost
    have sum := advances.sum
    have below := generator.counter.value_lt
    have lt := count.isLt
    simp only [PhiloxRandom.skip] at sum
    omega
  · intro kept
    have sum := Counter.skip_value kept
    refine ⟨sum, ?_, rfl⟩
    rw [iterate_skipOne, PhiloxRandom.skip,
      Counter.value_inj (sum.trans (Counter.iterate_skipOne_value _ _).symm)]

theorem multiplyHighLow_low (a b : BitVec 32) : (multiplyHighLow a b).1 = a * b := by
  rw [multiplyHighLow, BitVec.setWidth_mul _ _ (by decide)]
  simp only [BitVec.setWidth_setWidth_of_le _ (by decide : 32 ≤ 64), BitVec.setWidth_eq]

theorem mul_inj {factor inverse x y : BitVec 32} (unit : inverse * factor = 1)
    (same : factor * x = factor * y) : x = y := by
  rw [← one_mul x, ← unit, mul_assoc, same, ← mul_assoc, unit, one_mul]

theorem computeSingleRound_inj {key : Key} {c d : Counter}
    (same : computeSingleRound c key = computeSingleRound d key) : c = d := by
  obtain ⟨c0, c1, c2, c3⟩ := c
  obtain ⟨d0, d1, d2, d3⟩ := d
  simp only [computeSingleRound, Counter.mk.injEq, multiplyHighLow_low] at same
  obtain ⟨upper1, lower1, upper0, lower0⟩ := same
  -- The low halves give the factors, and then the high halves can be taken away.
  obtain rfl := mul_inj (show 0x991A7CDB#32 * 0xD2511F53 = 1 by decide) lower0
  obtain rfl := mul_inj (show 0x6D7CAE67#32 * 0xCD9E8D57 = 1 by decide) lower1
  rw [BitVec.xor_left_inj, BitVec.xor_right_inj] at upper0 upper1
  rw [upper0, upper1]

theorem rounds_inj (rounds : List Nat) {key : Key} {c d : Counter}
    (same : (rounds.foldl (fun state _ => (computeSingleRound state.1 state.2, raiseKey state.2))
        (c, key)).1 =
      (rounds.foldl (fun state _ => (computeSingleRound state.1 state.2, raiseKey state.2))
        (d, key)).1) : c = d := by
  induction rounds generalizing c d key with
  | nil => exact same
  | cons _ rounds ih => exact computeSingleRound_inj (ih same)

theorem sample_inj {key : Key} {c d : Counter}
    (same : (PhiloxRandom.mk c key).sample = (PhiloxRandom.mk d key).sample) : c = d :=
  rounds_inj (List.range 10) same

/-- The samples of a number of calls of `operator()`, which ends with `SkipOne`. -/
def PhiloxRandom.draw (generator : PhiloxRandom) : Nat → List Counter
  | 0 => []
  | count + 1 => generator.sample :: generator.skipOne.draw count

theorem draw_eq (generator : PhiloxRandom) (count : Nat) : generator.draw count =
    (List.range count).map fun i => (PhiloxRandom.skipOne^[i] generator).sample := by
  induction count generalizing generator with
  | zero => rfl
  | succ count ih =>
    rw [PhiloxRandom.draw, ih, List.range_succ_eq_map, List.map_cons, List.map_map]
    rfl

theorem sample_iterate_inj {g h : PhiloxRandom} (key : g.key = h.key) {i j : Nat}
    (same : (PhiloxRandom.skipOne^[i] g).sample = (PhiloxRandom.skipOne^[j] h).sample) :
    (g.counter.value + i) % 2 ^ 128 = (h.counter.value + j) % 2 ^ 128 := by
  rw [iterate_skipOne, iterate_skipOne, key] at same
  have place := congrArg Counter.value (sample_inj same)
  rwa [Counter.iterate_skipOne_value, Counter.iterate_skipOne_value] at place

theorem nodup_draw (generator : PhiloxRandom) {count : Nat} (le : count ≤ 2 ^ 128) :
    (generator.draw count).Nodup := by
  rw [draw_eq]
  refine List.nodup_range.map_on fun i mem j mem' same => ?_
  have place := sample_iterate_inj rfl same
  rw [List.mem_range] at mem mem'
  omega

/-- Two calls of `Skip`. -/
structure Skips where
  generator : PhiloxRandom
  first : BitVec 64
  second : BitVec 64
  fits : first.toNat + second.toNat < 2 ^ 64

namespace Skips

/-- `Skip` is an addition, so that the two calls are one call with the sum. -/
structure Adds (s : Skips) : Prop where
  first : Advances s.generator s.first
  second : Advances (s.generator.skip s.first) s.second
  both : Advances s.generator (s.first + s.second)
  composed : (s.generator.skip s.first).skip s.second = s.generator.skip (s.first + s.second)

def afterFirst (s : Skips) : Counter :=
  { s.generator.counter with w0 := s.generator.counter.w0 + Counter.countLo s.first }

/-- In none of the calls, the carry out of the low word makes the high half of the count wrap. -/
def CarriesKept (s : Skips) : Prop :=
  ¬ s.generator.counter.CarryLost s.first ∧ ¬ s.afterFirst.CarryLost s.second ∧
    ¬ s.generator.counter.CarryLost (s.first + s.second)

theorem carryLost_afterFirst (s : Skips) : s.afterFirst.CarryLost s.second ↔
    (s.generator.skip s.first).counter.CarryLost s.second := by
  rw [Counter.CarryLost, Counter.CarryLost, PhiloxRandom.skip, Counter.skip_w0]
  rfl

/-- `Skip` is an addition of 128 bits if and only if no carry is lost. -/
theorem twoSkips_iff (s : Skips) : s.Adds ↔ s.CarriesKept := by
  rw [CarriesKept, carryLost_afterFirst]
  constructor
  · exact fun adds =>
      ⟨advances_iff.mp adds.first, advances_iff.mp adds.second, advances_iff.mp adds.both⟩
  · rintro ⟨first, snd, both⟩
    have first := advances_iff.mpr first
    have snd := advances_iff.mpr snd
    have both := advances_iff.mpr both
    refine ⟨first, snd, both, ?_⟩
    rw [snd.steps, first.steps, both.steps, ← Function.iterate_add_apply, BitVec.toNat_add,
      Nat.mod_eq_of_lt s.fits, add_comm]

/-- The low words carry, and the high word of the count is full. -/
def carryIntoFull : Skips where
  generator := ⟨⟨1, 0, 0, 0⟩, ⟨0, 0⟩⟩
  first := BitVec.allOnes 64
  second := 0
  fits := by decide

theorem carryIntoFull_not_adds : ¬ carryIntoFull.Adds := by
  intro adds
  exact absurd adds.first.sum (by decide)

end Skips

end TfDml.Philox
