import TfDml.Kernels.RngSkip
import TfDml.Core.TensorShapeUtils

/-! # The inputs of the random ops

Three init helpers check the bounds of random integers. The state of a stateless generator comes
from a seed: the first version computes it, the second one takes it as a key and a counter that
another op has computed.
-/

namespace TfDml.StatelessRandom

open Philox RngSkip TensorShape

/-- The bounds of the integers, in host memory. -/
structure Bounds (w : Nat) where
  minShape : TensorShape := []
  maxShape : TensorShape := []
  minval : BitVec w
  maxval : BitVec w

section Checks

variable {w : Nat}

def Bounds.checkScalars (b : Bounds w) : Except Status Unit := do
  opRequires (b.minShape.length = 0)
    (.invalidArgument ("minval must be 0-D, got shape " ++ b.minShape.debugString))
  opRequires (b.maxShape.length = 0)
    (.invalidArgument ("maxval must be 0-D, got shape " ++ b.maxShape.debugString))

/-- The bounds are read as `int32_t`, whatever their type is. -/
def Bounds.checkOrder (b : Bounds w) : Except Status Unit :=
  let lo := (b.minval.setWidth 32).toInt
  let hi := (b.maxval.setWidth 32).toInt
  opRequires (lo < hi)
    (.invalidArgument ("Need minval < maxval, got " ++ toString lo ++ " >= " ++ toString hi))

def checkBounds : Option (Bounds w) → Except Status Unit
  | none => .ok ()
  | some b => do
    b.checkScalars
    b.checkOrder

inductive Seed where
  | int32 (seed0 seed1 : BitVec 32)
  | int64 (seed0 seed1 : BitVec 64)

def Seed.values : Seed → BitVec 64 × BitVec 64
  | .int32 seed0 seed1 => (seed0.signExtend 64, seed1.signExtend 64)
  | .int64 seed0 seed1 => (seed0, seed1)

def generateKey (seed : Seed) : Key × Counter :=
  let (seed0, seed1) := seed.values
  let counter : Counter := ⟨seed0.setWidth 32, (seed0 >>> 32).setWidth 32, seed1.setWidth 32,
    (seed1 >>> 32).setWidth 32⟩
  let mix := PhiloxRandom.sample ⟨counter, ⟨0x3ec8f720, 0x02461e29⟩⟩
  (⟨mix.w0, mix.w1⟩, ⟨0, 0, mix.w2, mix.w3⟩)

/-- `StatelessRandomUniformInitHelper`: the shape of the output, if it is not empty with the key
    and the counter. -/
def statelessRandomUniform (shape : TensorShape) (dims : List Int) (seedShape : TensorShape)
    (seed : Seed) (bounds : Option (Bounds w)) :
    Except Status (TensorShape × Option (Key × Counter)) := do
  let outputShape ← makeShape shape dims
  opRequires (seedShape = [2])
    (.invalidArgument ("seed must have shape [2], not " ++ seedShape.debugString))
  if outputShape.numElements = 0 then .ok (outputShape, none)
  else
    checkBounds bounds
    .ok (outputShape, some (generateKey seed))

def checkKeyCounterShape (minimumCounterSize : Int) (keyShape counterShape : TensorShape) :
    Except Status Unit := do
  opRequires (keyShape = [1])
    (.invalidArgument ("key must have shape [1], not " ++ keyShape.debugString ++
      ". (Note that batched keys are not supported yet.)"))
  opRequires (counterShape.length = 1 ∧ minimumCounterSize ≤ counterShape.getD 0 0)
    (.invalidArgument ("counter must be a vector with length at least " ++
      toString minimumCounterSize ++ "; got shape: " ++ counterShape.debugString ++
      ". (Note that batched counters are not supported yet.)"))

def rngAlgPhilox : Int := 1

def rngAlgAutoSelect : Int := 3

/-- `StatelessRandomUniformV2InitHelper` -/
def statelessRandomUniformV2 (shape : TensorShape) (dims : List Int)
    (keyShape counterShape algShape : TensorShape) (algId : Int) (bounds : Option (Bounds w)) :
    Except Status TensorShape := do
  opRequires (algShape.length = 0)
    (.invalidArgument ("input 3 (0-based) must have shape [], not " ++ algShape.debugString))
  let alg := if algId = rngAlgAutoSelect then rngAlgPhilox else algId
  checkKeyCounterShape alg keyShape counterShape
  opRequires (alg = rngAlgPhilox)
    (.invalidArgument ("Unsupported algorithm id: " ++ toString alg))
  let outputShape ← makeShape shape dims
  if outputShape.numElements = 0 then .ok outputShape
  else
    checkBounds bounds
    .ok outputShape

/-- `RandomUniformInitHelper` -/
def randomUniform (shape : TensorShape) (dims : List Int) : Option (Bounds w) → Except Status Unit
  | none => .ok ()
  | some b => do
    b.checkScalars
    let outputShape ← makeShape shape dims
    if outputShape.numElements = 0 then .ok () else b.checkOrder

end Checks

inductive IntOp where
  | randomUniformInt
  | statelessRandomUniformInt
  | statelessRandomUniformIntV2

/-- Scalar bounds of a type, for an output with elements; the other inputs pass their checks. -/
structure IntCall (w : Nat) where
  op : IntOp
  minval : BitVec w
  maxval : BitVec w
  width : w = 32 ∨ w = 64
  dims : List Int
  outputShape : TensorShape
  made : makeShape [dims.length] dims = .ok outputShape
  some_ : outputShape.numElements ≠ 0
  seed : Seed
  counterSize : Nat
  counted : 0 < counterSize
  algId : Int
  known : algId = rngAlgPhilox ∨ algId = rngAlgAutoSelect

namespace IntCall

variable {w : Nat} (c : IntCall w)

def init : Except Status Unit :=
  let bounds : Bounds w := { minval := c.minval, maxval := c.maxval }
  match c.op with
  | .randomUniformInt => randomUniform [c.dims.length] c.dims (some bounds)
  | .statelessRandomUniformInt =>
    (statelessRandomUniform [c.dims.length] c.dims [2] c.seed (some bounds)).map fun _ => ()
  | .statelessRandomUniformIntV2 => (statelessRandomUniformV2 [c.dims.length] c.dims [1]
      [c.counterSize] [] c.algId (some bounds)).map fun _ => ()

/-- An error is reported exactly if the bounds are not in order, so that no accepted range is
    zero. -/
structure Validates : Prop where
  refuses : (∃ message, c.init = .error (.invalidArgument message)) ↔
    c.maxval.toInt ≤ c.minval.toInt
  range : c.init = .ok () → c.maxval - c.minval ≠ 0

/-- The low words of the bounds are in order if and only if the bounds are. -/
def SameOrder : Prop :=
  (c.minval.setWidth 32).toInt < (c.maxval.setWidth 32).toInt ↔ c.minval.toInt < c.maxval.toInt

theorem init_eq : c.init = Bounds.checkOrder { minval := c.minval, maxval := c.maxval } := by
  have made := c.made
  have some_ := c.some_
  have counted := c.counted
  have alg : (if c.algId = rngAlgAutoSelect then rngAlgPhilox else c.algId) = rngAlgPhilox := by
    rcases c.known with philox | auto
    · rw [philox]
      rfl
    · rw [if_pos auto]
  rw [init]
  cases c.op with
  | randomUniformInt =>
    simp [randomUniform, Bounds.checkScalars, opRequires, made, some_, bind, Except.bind]
  | statelessRandomUniformInt =>
    cases order : Bounds.checkOrder { minval := c.minval, maxval := c.maxval } with
    | error e => simp [statelessRandomUniform, checkBounds, Bounds.checkScalars, opRequires, made,
        some_, bind, Except.bind, Except.map, order]
    | ok _ => simp [statelessRandomUniform, checkBounds, Bounds.checkScalars, opRequires, made,
        some_, bind, Except.bind, Except.map, order]
  | statelessRandomUniformIntV2 =>
    have enough : rngAlgPhilox ≤ c.counterSize := by
      rw [rngAlgPhilox]
      omega
    cases order : Bounds.checkOrder { minval := c.minval, maxval := c.maxval } with
    | error e => simp [statelessRandomUniformV2, checkKeyCounterShape, checkBounds,
        Bounds.checkScalars, opRequires, made, some_, alg, enough, bind, Except.bind, Except.map,
        order]
    | ok _ => simp [statelessRandomUniformV2, checkKeyCounterShape, checkBounds,
        Bounds.checkScalars, opRequires, made, some_, alg, enough, bind, Except.bind, Except.map,
        order]

theorem init_eq_ok_iff :
    c.init = .ok () ↔ (c.minval.setWidth 32).toInt < (c.maxval.setWidth 32).toInt := by
  rw [init_eq, Bounds.checkOrder, opRequires_eq_ok, decide_eq_true_iff]

theorem refuses_iff : (∃ message, c.init = .error (.invalidArgument message)) ↔
    ¬(c.minval.setWidth 32).toInt < (c.maxval.setWidth 32).toInt := by
  rw [init_eq, Bounds.checkOrder, opRequires]
  split
  · rename_i lt
    simpa using lt
  · rename_i unordered
    simpa using unordered

theorem checksBounds_iff : c.Validates ↔ c.SameOrder := by
  constructor
  · intro validates
    have refuses := c.refuses_iff.symm.trans validates.refuses
    rw [SameOrder]
    omega
  · intro same
    refine ⟨?_, ?_⟩
    · rw [c.refuses_iff, not_congr same, not_lt]
    · intro ok eq
      have lt := c.init_eq_ok_iff.mp ok
      rw [eq_of_sub_eq_zero eq] at lt
      exact lt_irrefl _ lt

/-- The bounds `0` and `2 ^ 32` are reported as out of order. -/
theorem lowWords_not_validates : ∃ c : IntCall 64, ¬c.Validates := by
  refine ⟨⟨.statelessRandomUniformInt, 0, 4294967296, .inr rfl, [2], [2], rfl, by decide,
    .int32 0 0, 1, by decide, 1, .inl rfl⟩, ?_⟩
  intro validates
  have refuses := validates.refuses.mp
  revert refuses
  rw [refuses_iff]
  decide

end IntCall

def uint32sToUint64 (input1 input2 : BitVec 32) : BitVec 64 :=
  input1.setWidth 64 ||| (input2.setWidth 64 <<< 32)

def writeCounterToMem (counter : Counter) : List (BitVec 64) :=
  [uint32sToUint64 counter.w0 counter.w1, uint32sToUint64 counter.w2 counter.w3]

def writeKeyToMem (key : Key) : List (BitVec 64) := [uint32sToUint64 key.k0 key.k1]

/-- `GetKeyCounterOp` -/
def getKeyCounter (seedShape : TensorShape) (seed : Seed) :
    Except Status (List (BitVec 64) × List (BitVec 64)) := do
  opRequires (seedShape = [2])
    (.invalidArgument ("seed must have shape [2], not " ++ seedShape.debugString))
  let (key, counter) := generateKey seed
  .ok (writeKeyToMem key, writeCounterToMem counter)

/-- `input_state_`, which the kernel of the first version uploads. -/
def inputState (state : Key × Counter) : List (BitVec 32) :=
  let (key, counter) := state
  [counter.w0, counter.w1, counter.w2, counter.w3, key.k0, key.k1]

/-- The state of the second version. The descriptors read four words of the counter and two of the
    key. -/
def joinedState (memory : List (BitVec 64) × List (BitVec 64)) : Option (List (BitVec 32)) :=
  let (key, counter) := memory
  if 4 ≤ (words counter).length ∧ 2 ≤ (words key).length then
    some ((words counter).take 4 ++ (words key).take 2)
  else none

/-- The inputs of the second version, which the init helper has accepted. -/
structure V2Call (w : Nat) where
  shape : TensorShape
  dims : List Int
  key : List (BitVec 64)
  keyShape : TensorShape
  keySize : key.length = keyShape.numElements
  counter : List (BitVec 64)
  counterShape : TensorShape
  counterSize : counter.length = counterShape.numElements
  algShape : TensorShape
  algId : Int
  bounds : Option (Bounds w)
  outputShape : TensorShape
  accepted : statelessRandomUniformV2 shape dims keyShape counterShape algShape algId bounds =
    .ok outputShape

/-- Both versions have the same state for a seed, and the second one reads what the inputs have. -/
structure V2Call.AgreesAndInside {w : Nat} (c : V2Call w) (seed : Seed) : Prop where
  agrees : ∀ (shape : TensorShape) (dims : List Int) (bounds : Option (Bounds w)) outputShape
    state memory, statelessRandomUniform shape dims [2] seed bounds =
      .ok (outputShape, some state) → getKeyCounter [2] seed = .ok memory →
    joinedState memory = some (inputState state)
  inside : (joinedState (c.key, c.counter)).isSome

theorem words_uint32sToUint64 (input1 input2 : BitVec 32) :
    words [uint32sToUint64 input1 input2] = [input1, input2] := by
  have low : (uint32sToUint64 input1 input2).setWidth 32 = input1 := by
    rw [uint32sToUint64]
    ext i lt
    simp
  have high : ((uint32sToUint64 input1 input2) >>> 32).setWidth 32 = input2 := by
    rw [uint32sToUint64]
    ext i lt
    have room : 32 + i < 64 := by omega
    simp [room, lt.trans (by decide : 32 < 64), BitVec.getLsbD_eq_getElem lt]
  simp [words, low, high]

theorem words_append (first second : List (BitVec 64)) :
    words (first ++ second) = words first ++ words second := by
  rw [words, List.flatMap_append]
  rfl

theorem joinedState_write (key : Key) (counter : Counter) :
    joinedState (writeKeyToMem key, writeCounterToMem counter) =
      some (inputState (key, counter)) := by
  have counterWords : words (writeCounterToMem counter) =
      [counter.w0, counter.w1, counter.w2, counter.w3] := by
    rw [writeCounterToMem, ← List.singleton_append, words_append, words_uint32sToUint64,
      words_uint32sToUint64]
    rfl
  rw [joinedState, writeKeyToMem, counterWords, words_uint32sToUint64]
  rfl

theorem generateKey_of_helper {w : Nat} {shape : TensorShape} {dims : List Int}
    {seedShape : TensorShape} {seed : Seed} {bounds : Option (Bounds w)}
    {outputShape : TensorShape} {state : Key × Counter}
    (helped : statelessRandomUniform shape dims seedShape seed bounds =
      .ok (outputShape, some state)) : state = generateKey seed := by
  rw [statelessRandomUniform] at helped
  simp only [bind_eq_ok] at helped
  obtain ⟨made, _, _, _, ret⟩ := helped
  split at ret
  · cases ret
  · obtain ⟨_, _, eq⟩ := bind_eq_ok.mp ret
    cases eq
    rfl

namespace V2Call

variable {w : Nat} (c : V2Call w)

theorem agrees (seed : Seed) (shape : TensorShape) (dims : List Int) (bounds : Option (Bounds w))
    (outputShape : TensorShape) (state : Key × Counter)
    (memory : List (BitVec 64) × List (BitVec 64))
    (first : statelessRandomUniform shape dims [2] seed bounds = .ok (outputShape, some state))
    (snd : getKeyCounter [2] seed = .ok memory) : joinedState memory = some (inputState state) := by
  have put : (writeKeyToMem (generateKey seed).1, writeCounterToMem (generateKey seed).2) =
      memory := by
    simpa [getKeyCounter, opRequires, bind, Except.bind] using snd
  rw [generateKey_of_helper first, ← put]
  exact joinedState_write _ _

/-- The helper has asked for one element of the counter, which is the number of the algorithm. -/
theorem accepted_shapes : c.keyShape = [1] ∧ c.counterShape = [c.counter.length] := by
  have ok := c.accepted
  rw [statelessRandomUniformV2] at ok
  simp only [bind_eq_ok, opRequires_eq_ok, checkKeyCounterShape, decide_eq_true_eq] at ok
  obtain ⟨_, _, _, ⟨_, keyed, rank, _⟩, _⟩ := ok
  obtain ⟨size, sized⟩ := List.length_eq_one_iff.mp rank
  refine ⟨keyed, ?_⟩
  have counted := c.counterSize
  rw [sized] at counted ⊢
  simpa [numElements] using counted.symm

theorem agreesAndInside_iff (seed : Seed) : c.AgreesAndInside seed ↔ 2 ≤ c.counter.length := by
  have key : c.key.length = 1 := by
    rw [c.keySize, c.accepted_shapes.1]
    rfl
  have lt : (joinedState (c.key, c.counter)).isSome ↔ 2 ≤ c.counter.length := by
    rw [joinedState]
    simp only [Call.length_words, key]
    split
    · simp
      omega
    · simp
      omega
  exact ⟨fun correct => lt.mp correct.inside, fun enough => ⟨agrees seed, lt.mpr enough⟩⟩

/-- A counter of one element is accepted. -/
theorem shortCounter_not_agreesAndInside :
    ∃ (c : V2Call 32) (seed : Seed), ¬c.AgreesAndInside seed := by
  refine ⟨⟨[1], [2], [0], [1], rfl, [0], [1], rfl, [], 1, none, [2], rfl⟩, .int32 0 0, ?_⟩
  intro correct
  exact absurd correct.inside (by decide)

end V2Call

theorem halves_inj {x y : BitVec 64} (low : x.setWidth 32 = y.setWidth 32)
    (high : (x >>> 32).setWidth 32 = (y >>> 32).setWidth 32) : x = y := by
  bv_omega

theorem words_inj {c d : Counter} (w0 : c.w0 = d.w0) (w1 : c.w1 = d.w1) (w2 : c.w2 = d.w2)
    (w3 : c.w3 = d.w3) : c = d :=
  Counter.value_inj (by rw [Counter.value, Counter.value, w0, w1, w2, w3])

theorem generateKey_eq_iff {seed seed' : Seed} :
    generateKey seed = generateKey seed' ↔ seed.values = seed'.values := by
  constructor
  · intro same
    simp only [generateKey, Prod.mk.injEq, Counter.mk.injEq, Key.mk.injEq, true_and] at same
    obtain ⟨⟨first, snd⟩, third, fourth⟩ := same
    -- The key and the upper half of the counter are all that the rounds have mixed.
    have mixed := sample_inj (words_inj first snd third fourth)
    simp only [Counter.mk.injEq] at mixed
    obtain ⟨low0, high0, low1, high1⟩ := mixed
    exact Prod.ext (halves_inj low0 high0) (halves_inj low1 high1)
  · intro same
    rw [generateKey, generateKey, same]

/-- The generator that starts at the state of a seed. -/
def generator (seed : Seed) : PhiloxRandom := ⟨(generateKey seed).2, (generateKey seed).1⟩

theorem value_generator (seed : Seed) : (generator seed).counter.value % 2 ^ 64 = 0 := by
  simp only [generator, generateKey, Counter.value, BitVec.ofNat_eq_ofNat, BitVec.toNat_ofNat]
  omega

/-- In 2^64 steps, no seed comes to a state of another one, nor to one of its own again. -/
theorem streams_meet_iff (seed seed' : Seed) (i j : BitVec 64) :
    PhiloxRandom.skipOne^[i.toNat] (generator seed) =
      PhiloxRandom.skipOne^[j.toNat] (generator seed') ↔ seed.values = seed'.values ∧ i = j := by
  rw [← generateKey_eq_iff]
  constructor
  · intro meet
    rw [iterate_skipOne, iterate_skipOne, PhiloxRandom.mk.injEq] at meet
    have place := congrArg Counter.value meet.1
    rw [Counter.iterate_skipOne_value, Counter.iterate_skipOne_value] at place
    have start := value_generator seed
    have start' := value_generator seed'
    have below := (generator seed).counter.value_lt
    have below' := (generator seed').counter.value_lt
    have less := i.isLt
    have less' := j.isLt
    have value : (generator seed).counter.value = (generator seed').counter.value := by omega
    exact ⟨Prod.ext meet.2 (Counter.value_inj value), BitVec.eq_of_toNat_eq (by omega)⟩
  · rintro ⟨same, rfl⟩
    rw [generator, generator, same]

end TfDml.StatelessRandom
