import Mathlib.Data.List.GetD
import Mathlib.Data.List.Induction
import Mathlib.Data.List.Nodup
import Mathlib.Tactic.Ring

/-! # Buffers of bytes

Numbers are stored with their lowest byte first. A buffer in slots of one size has in each slot
what was stored there last, and a buffer that is filled with a pattern repeats it.
-/

namespace TfDml.Lib

open List

abbrev Byte := BitVec 8

def littleEndian : Nat → Nat → List Byte
  | 0, _ => []
  | count + 1, n => BitVec.ofNat 8 n :: littleEndian count (n / 256)

theorem length_littleEndian (count n : Nat) : (littleEndian count n).length = count := by
  induction count generalizing n with
  | zero => rfl
  | succ count ih => rw [littleEndian, length_cons, ih]

theorem littleEndian_zero (count : Nat) : littleEndian count 0 = replicate count 0 := by
  induction count with
  | zero => rfl
  | succ count ih => rw [littleEndian, Nat.zero_div, ih, replicate_succ]; rfl

variable {count : Nat}

theorem littleEndian_inj {m n : Nat} (same : littleEndian count m = littleEndian count n) :
    m % 256 ^ count = n % 256 ^ count := by
  induction count generalizing m n with
  | zero => rw [pow_zero, Nat.mod_one, Nat.mod_one]
  | succ count ih =>
    rw [littleEndian, littleEndian, List.cons.injEq] at same
    have first := congrArg BitVec.toNat same.1
    rw [BitVec.toNat_ofNat, BitVec.toNat_ofNat] at first
    have low : m % 256 = n % 256 := first
    rw [pow_succ', Nat.mod_mul, Nat.mod_mul, ih same.2, low]

theorem take_littleEndian {whole : Nat} (le : count ≤ whole) (n : Nat) :
    (littleEndian whole n).take count = littleEndian count n := by
  induction count generalizing whole n with
  | zero => rfl
  | succ count ih =>
    obtain ⟨rest, rfl⟩ : ∃ rest, whole = rest + 1 := ⟨whole - 1, by omega⟩
    rw [littleEndian, littleEndian, take_succ_cons, ih (by omega)]

theorem drop_littleEndian (count rest n : Nat) :
    (littleEndian (count + rest) n).drop count = littleEndian rest (n / 256 ^ count) := by
  induction count generalizing n with
  | zero => rw [zero_add, drop_zero, pow_zero, Nat.div_one]
  | succ count ih =>
    rw [Nat.succ_add, littleEndian, drop_succ_cons, ih, Nat.div_div_eq_div_mul, pow_succ']

def ofLittleEndian : List Byte → Nat
  | [] => 0
  | byte :: bytes => byte.toNat + 256 * ofLittleEndian bytes

theorem littleEndian_ofLittleEndian (bytes : List Byte) :
    littleEndian bytes.length (ofLittleEndian bytes) = bytes := by
  induction bytes with
  | nil => rfl
  | cons byte bytes ih =>
    have lt : byte.toNat < 256 := byte.isLt
    have low : BitVec.ofNat 8 (ofLittleEndian (byte :: bytes)) = byte := by
      apply BitVec.eq_of_toNat_eq
      rw [BitVec.toNat_ofNat, ofLittleEndian]
      omega
    have high : ofLittleEndian (byte :: bytes) / 256 = ofLittleEndian bytes := by
      rw [ofLittleEndian]
      omega
    rw [length_cons, littleEndian, low, high, ih]

theorem ofLittleEndian_append (low high : List Byte) :
    ofLittleEndian (low ++ high) = ofLittleEndian low + 256 ^ low.length * ofLittleEndian high := by
  induction low with
  | nil => simp [ofLittleEndian]
  | cons byte low ih =>
    rw [cons_append, ofLittleEndian, ih, ofLittleEndian, length_cons, pow_succ']
    ring

theorem ofLittleEndian_lt (bytes : List Byte) : ofLittleEndian bytes < 256 ^ bytes.length := by
  induction bytes with
  | nil => exact one_pos
  | cons byte bytes ih =>
    have lt : byte.toNat < 256 := byte.isLt
    rw [ofLittleEndian, length_cons, pow_succ']
    omega

theorem littleEndian_mod (count n : Nat) :
    littleEndian count (n % 256 ^ count) = littleEndian count n := by
  induction count generalizing n with
  | zero => rfl
  | succ count ih =>
    have low : BitVec.ofNat 8 (n % 256 ^ (count + 1)) = BitVec.ofNat 8 n := by
      apply BitVec.eq_of_toNat_eq
      rw [BitVec.toNat_ofNat, BitVec.toNat_ofNat, pow_succ']
      exact Nat.mod_mul_right_mod n 256 (256 ^ count)
    rw [littleEndian, littleEndian, low, pow_succ', Nat.mod_mul_right_div_self, ih]

abbrev ByteBuffer := Nat → Byte

def load (buffer : ByteBuffer) (offset count : Nat) : List Byte :=
  (range count).map fun k => buffer (offset + k)

def store (buffer : ByteBuffer) (offset : Nat) (bytes : List Byte) : ByteBuffer := fun p =>
  if offset ≤ p ∧ p < offset + bytes.length then bytes.getD (p - offset) 0 else buffer p

theorem length_load (buffer : ByteBuffer) (offset count : Nat) :
    (load buffer offset count).length = count := by
  rw [load, length_map, length_range]

variable {buffer : ByteBuffer} {offset : Nat}

theorem load_congr {buffer' : ByteBuffer} {offset' : Nat}
    (same : ∀ k < count, buffer (offset + k) = buffer' (offset' + k)) :
    load buffer offset count = load buffer' offset' count :=
  map_congr_left fun k mem => same k (mem_range.mp mem)

theorem load_store_self (buffer : ByteBuffer) (offset : Nat) (bytes : List Byte) :
    load (store buffer offset bytes) offset bytes.length = bytes := by
  apply ext_getElem (length_load ..)
  intro k less lt
  simp only [load, getElem_map, getElem_range, store]
  rw [if_pos (by omega), Nat.add_sub_cancel_left, getD_eq_getElem _ _ lt]

variable {bytes : List Byte}

theorem load_store_other (buffer : ByteBuffer) {other : Nat}
    (apart : other + count ≤ offset ∨ offset + bytes.length ≤ other) :
    load (store buffer offset bytes) other count = load buffer other count :=
  load_congr fun k less => if_neg (by omega)

def lastWrite {β : Type*} (writes : List (Nat × β)) (slot : Nat) : Option β :=
  (writes.reverse.find? fun write => write.1 == slot).map Prod.snd

variable {β : Type*}

theorem lastWrite_concat (writes : List (Nat × β)) (write : Nat × β) (slot : Nat) :
    lastWrite (writes ++ [write]) slot =
      if write.1 = slot then some write.2 else lastWrite writes slot := by
  rw [lastWrite, reverse_append, reverse_singleton, singleton_append, find?_cons]
  by_cases here : write.1 = slot
  · simp [here]
  · simp [here, beq_eq_false_iff_ne.mpr here, lastWrite]

variable {writes : List (Nat × β)}

theorem lastWrite_of_nodup (differ : (writes.map Prod.fst).Nodup) {write : Nat × β}
    (mem : write ∈ writes) : lastWrite writes write.1 = some write.2 := by
  induction writes using reverseRecOn with
  | nil => simp at mem
  | append_singleton rest last ih =>
    rw [lastWrite_concat]
    rw [map_append, map_singleton, nodup_append'] at differ
    rcases mem_append.mp mem with inRest | isLast
    · rw [if_neg, ih differ.1 inRest]
      intro same
      exact differ.2.2 (mem_map_of_mem inRest) (same ▸ mem_singleton.mpr rfl)
    · obtain rfl := mem_singleton.mp isLast
      rw [if_pos rfl]

variable {slot : Nat}

theorem lastWrite_eq_none (other : ∀ write ∈ writes, write.1 ≠ slot) :
    lastWrite writes slot = none := by
  rw [lastWrite, Option.map_eq_none_iff, find?_eq_none]
  intro write mem
  simpa using other write (mem_reverse.mp mem)

theorem mem_of_lastWrite {value : β} (last : lastWrite writes slot = some value) :
    (slot, value) ∈ writes := by
  obtain ⟨write, got, rfl⟩ := Option.map_eq_some_iff.mp last
  have here : write.1 = slot := by simpa using find?_some got
  rw [← here]
  exact mem_reverse.mp (mem_of_find?_eq_some got)

variable {size : Nat}

theorem load_store_slot (buffer : ByteBuffer) (whole : bytes.length = size) (slot other : Nat) :
    load (store buffer (size * slot) bytes) (size * other) size =
      if slot = other then bytes else load buffer (size * other) size := by
  subst whole
  split
  case isTrue same => rw [same, load_store_self]
  case isFalse ne =>
    apply load_store_other
    rcases Nat.lt_or_gt_of_ne ne with pre | after
    · right
      rw [← Nat.mul_succ]
      exact Nat.mul_le_mul_left _ pre
    · left
      rw [← Nat.mul_succ]
      exact Nat.mul_le_mul_left _ after

theorem load_foldl_store (buffer : ByteBuffer) {writes : List (Nat × List Byte)}
    (whole : ∀ write ∈ writes, write.2.length = size) (slot : Nat) :
    load (writes.foldl (fun buffer write => store buffer (size * write.1) write.2) buffer)
        (size * slot) size = (lastWrite writes slot).getD (load buffer (size * slot) size) := by
  induction writes using reverseRecOn with
  | nil => rfl
  | append_singleton rest last ih =>
    rw [forall_mem_append, forall_mem_singleton] at whole
    rw [foldl_append, foldl_cons, foldl_nil, load_store_slot _ whole.2,
      lastWrite_concat, ih whole.1]
    split
    case isTrue => rfl
    case isFalse => rfl

def repeated (pattern : List Byte) : ByteBuffer := fun p => pattern.getD (p % pattern.length) 0

theorem load_repeated (pattern : List Byte) (times start : Nat)
    (lt : start + count ≤ pattern.length) :
    load (repeated pattern) (pattern.length * times + start) count =
      (pattern.drop start).take count := by
  apply ext_getElem
  · rw [length_load, length_take, length_drop]
    omega
  · intro k less less'
    rw [length_load] at less
    simp only [load, repeated, getElem_map, getElem_range, getElem_take, getElem_drop]
    rw [add_assoc, Nat.mul_add_mod, Nat.mod_eq_of_lt (by omega), getD_eq_getElem _ _ (by omega)]

theorem load_repeated_zero (length offset count : Nat) :
    load (repeated (replicate length 0)) offset count = replicate count 0 := by
  have blank (p : Nat) : repeated (replicate length 0) p = 0 := by
    rw [repeated, getD_eq_getElem?_getD, getElem?_replicate]
    split
    case isTrue => rfl
    case isFalse => rfl
  simp only [load, blank, map_const', length_range]

def fill (start count : Nat) (value buffer : ByteBuffer) : ByteBuffer := fun p =>
  if start ≤ p ∧ p < start + count then value p else buffer p

variable {start p : Nat}

theorem fill_of_inside (value : ByteBuffer) (lt : start ≤ p ∧ p < start + count) :
    fill start count value buffer p = value p :=
  if_pos lt

theorem fill_of_outside (value : ByteBuffer) (outside : ¬ (start ≤ p ∧ p < start + count)) :
    fill start count value buffer p = buffer p :=
  if_neg outside

/-- Each byte of a range gets its value, and no other byte changes. -/
def Sets (write : ByteBuffer → ByteBuffer) (offset size : Nat) (value : ByteBuffer) : Prop :=
  ∀ buffer, (∀ k < size, write buffer (offset + k) = value k) ∧
    ∀ p, p < offset ∨ offset + size ≤ p → write buffer p = buffer p

theorem sets_zero {write : ByteBuffer → ByteBuffer} (same : ∀ buffer, write buffer = buffer)
    (offset : Nat) (value : ByteBuffer) : Sets write offset 0 value := fun buffer =>
  ⟨fun _ none => absurd none (Nat.not_lt_zero _), fun _ _ => congrFun (same buffer) _⟩

theorem byte_ne_add_one (byte : Byte) : byte + 1 ≠ byte := by
  revert byte
  decide

theorem fill_sets_iff {written value : ByteBuffer} (pos : 0 < size) :
    Sets (fill start count written) offset size value ↔
      start = offset ∧ count = size ∧ ∀ k < size, written (offset + k) = value k := by
  constructor
  · intro sets
    -- A buffer that holds another value wherever something is set tells what is written.
    have run (k : Nat) (less : k < size) : start ≤ offset + k ∧ offset + k < start + count := by
      by_contra outside
      have kept := (sets fun _ => value k + 1).1 k less
      rw [fill_of_outside written outside] at kept
      exact byte_ne_add_one _ kept
    have untouched (p : Nat) (lt : start ≤ p ∧ p < start + count) :
        offset ≤ p ∧ p < offset + size := by
      by_contra outside
      have kept := (sets fun _ => written p + 1).2 p (by omega)
      rw [fill_of_inside written lt] at kept
      exact byte_ne_add_one _ kept.symm
    have first := run 0 pos
    have last := run (size - 1) (by omega)
    have lowest := untouched start (by omega)
    have highest := untouched (start + count - 1) (by omega)
    refine ⟨by omega, by omega, fun k less => ?_⟩
    have same := (sets fun _ => 0).1 k less
    rwa [fill_of_inside written (run k less)] at same
  · rintro ⟨rfl, rfl, values⟩ buffer
    constructor
    · intro k less
      rw [fill_of_inside written (by omega), values k less]
    · intro p outside
      exact fill_of_outside written (by omega)

end TfDml.Lib
