import TfDml.Core.TensorDescCreate
import TfDml.Lib.WrappedSizes

/-! # Simplified ternary operands

Neighbouring dimensions in which no operand is broadcast are coalesced, in 32 bits, and written
from the last slot on with the dimensions between them.
-/

namespace TfDml.Select

open Lib List

structure TernaryDim where
  cond : Nat
  then_ : Nat
  else_ : Nat
  output : Nat
  deriving DecidableEq

inductive Operand where
  | cond
  | then_
  | else_
  deriving DecidableEq

namespace TernaryDim

def operand (d : TernaryDim) : Operand → Nat
  | .cond => d.cond
  | .then_ => d.then_
  | .else_ => d.else_

def same (d : TernaryDim) : Bool := d.output == d.cond && d.output == d.then_ && d.output == d.else_

def narrow (d : TernaryDim) : TernaryDim :=
  ⟨d.cond % 2 ^ 32, d.then_ % 2 ^ 32, d.else_ % 2 ^ 32, d.output % 2 ^ 32⟩

def single (size : Nat) : TernaryDim := ⟨size, size, size, size⟩

end TernaryDim

structure SimpleTernary where
  condShape : List Nat
  thenShape : List Nat
  elseShape : List Nat
  outputShape : List Nat
  deriving DecidableEq

/-- The dimensions that are written, and the size that is coalesced inside of the next one. -/
structure Loop where
  written : List TernaryDim
  coalesced : Nat
  deriving DecidableEq

/-- A dimension is written unless `write_dim` is negative. -/
def write (outputSize : Nat) (written : List TernaryDim) (d : TernaryDim) :
    Option (List TernaryDim) :=
  if written.length < outputSize then some (d :: written) else none

/-- The coalesced dimension is written if it has several elements. -/
def flush (outputSize : Nat) (loop : Loop) : Option (List TernaryDim) :=
  if 1 < loop.coalesced then write outputSize loop.written (.single loop.coalesced)
  else some loop.written

def visit (outputSize : Nat) (d : TernaryDim) (loop : Loop) : Option Loop :=
  if d.same then some ⟨loop.written, loop.coalesced * d.output % 2 ^ 32⟩
  else do
    let written ← flush outputSize loop
    let written ← write outputSize written d
    return ⟨written, 1⟩

def collect (outputSize : Nat) : List TernaryDim → Option Loop
  | [] => some ⟨[], 1⟩
  | d :: inner => (collect outputSize inner).bind (visit outputSize d.narrow)

def ternaryDims (condShape thenShape elseShape outputShape : TensorShape) : List TernaryDim :=
  (List.range outputShape.length).map fun i =>
    ⟨condShape.getD i 0, thenShape.getD i 0, elseShape.getD i 0, outputShape.getD i 0⟩

def simpleTernary (outputSize : Nat) (written : List TernaryDim) : SimpleTernary :=
  let ones := List.replicate (outputSize - written.length) 1
  { condShape := ones ++ written.map TernaryDim.cond
    thenShape := ones ++ written.map TernaryDim.then_
    elseShape := ones ++ written.map TernaryDim.else_
    outputShape := ones ++ written.map TernaryDim.output }

/-- `SimplifyTernary` of shapes of one rank -/
def simplifyTernary (dims : List TernaryDim) (outputSize : Nat) : Option SimpleTernary := do
  let loop ← collect outputSize dims
  let written ← flush outputSize loop
  return simpleTernary outputSize written

def TernaryDim.mul (d inner : TernaryDim) : TernaryDim :=
  ⟨d.cond * inner.cond, d.then_ * inner.then_, d.else_ * inner.else_, d.output * inner.output⟩

/-- Neighbours in which nothing is broadcast are one dimension, of any size. -/
def groups : List TernaryDim → List TernaryDim
  | [] => []
  | d :: inner =>
    match groups inner with
    | [] => [d]
    | group :: rest => if d.same && group.same then d.mul group :: rest else d :: group :: rest

def slot (group : TernaryDim) : List TernaryDim :=
  if group.same then
    if 1 < group.output % 2 ^ 32 then [.single (group.output % 2 ^ 32)] else []
  else [group]

def slots (dims : List TernaryDim) : List TernaryDim := dims.flatMap slot

theorem same_iff {d : TernaryDim} : d.same = true ↔ d = .single d.output := by
  obtain ⟨cond, then_, else_, output⟩ := d
  simp only [TernaryDim.same, TernaryDim.single, Bool.and_eq_true, beq_iff_eq,
    TernaryDim.mk.injEq, and_true, eq_comm (a := output), and_assoc]

theorem same_mul {d inner : TernaryDim} (first : d.same = true) (snd : inner.same = true) :
    (d.mul inner).same = true := by
  rw [same_iff] at first snd
  rw [first, snd, same_iff]
  rfl

/-- What is still to be flushed, and what is settled. -/
def pending : List TernaryDim → Nat
  | [] => 1
  | group :: _ => if group.same then group.output else 1

def settled : List TernaryDim → List TernaryDim
  | [] => []
  | group :: rest => if group.same then rest else group :: rest

theorem slots_cons (group : TernaryDim) (rest : List TernaryDim) :
    slots (group :: rest) = slot group ++ slots rest := flatMap_cons

theorem slot_of_same {group : TernaryDim} (same : group.same = true) : slot group =
      if 1 < group.output % 2 ^ 32 then [.single (group.output % 2 ^ 32)] else [] := if_pos same

theorem slot_of_broadcast {group : TernaryDim} (broadcast : group.same = false) :
    slot group = [group] := if_neg (by simp [broadcast])

theorem slots_eq_flush (dims : List TernaryDim) :
    slots dims = (if 1 < pending dims % 2 ^ 32 then [.single (pending dims % 2 ^ 32)] else []) ++
      slots (settled dims) := by
  cases dims with
  | nil => rfl
  | cons group rest =>
    cases same : group.same with
    | true => rw [slots_cons, slot_of_same same, pending, settled, if_pos same, if_pos same]
    | false =>
      rw [pending, settled, if_neg (by simp [same]), if_neg (by simp [same])]
      rfl

theorem length_slots_settled (dims : List TernaryDim) :
    (slots (settled dims)).length ≤ (slots dims).length := by
  rw [slots_eq_flush dims, length_append]
  exact Nat.le_add_left _ _

variable {outputSize : Nat}

theorem flush_eq {dims : List TernaryDim}
    (fits : (slots (settled dims)).length ≤ outputSize) :
    flush outputSize ⟨slots (settled dims), pending dims % 2 ^ 32⟩ =
      if (slots dims).length ≤ outputSize then some (slots dims) else none := by
  rw [flush, slots_eq_flush dims]
  by_cases many : 1 < pending dims % 2 ^ 32
  · simp only [many, if_true, write, singleton_append, length_cons, Nat.succ_le_iff]
  · simp only [many, if_false, nil_append, fits, if_true]

theorem settled_cons_broadcast {d : TernaryDim} (broadcast : d.same = false)
    (rest : List TernaryDim) : settled (d :: rest) = d :: rest ∧ pending (d :: rest) = 1 := by
  simp [settled, pending, broadcast]

theorem groups_cons_broadcast {d : TernaryDim} (broadcast : d.same = false)
    (inner : List TernaryDim) : groups (d :: inner) = d :: groups inner := by
  rw [groups]
  cases groups inner with
  | nil => rfl
  | cons group rest => simp [broadcast]

theorem groups_cons_same {d : TernaryDim} (same : d.same = true) (inner : List TernaryDim) :
    settled (groups (d :: inner)) = settled (groups inner) ∧
      pending (groups (d :: inner)) = d.output * pending (groups inner) := by
  rw [groups]
  cases groups inner with
  | nil => simp [settled, pending, same]
  | cons group rest =>
    cases grouped : group.same with
    | true =>
      have both := same_mul same grouped
      have size : (d.mul group).output = d.output * group.output := rfl
      simp [settled, pending, same, grouped, both, size]
    | false => simp [settled, pending, same, grouped]

theorem collect_eq (dims : List TernaryDim) : collect outputSize dims =
      if (slots (settled (groups (dims.map TernaryDim.narrow)))).length ≤ outputSize then
        some ⟨slots (settled (groups (dims.map TernaryDim.narrow))),
          pending (groups (dims.map TernaryDim.narrow)) % 2 ^ 32⟩
      else none := by
  induction dims with
  | nil => rfl
  | cons d inner ih =>
    rw [collect, ih, map_cons]
    generalize inner.map TernaryDim.narrow = narrowed
    have more := length_slots_settled (groups narrowed)
    cases same : d.narrow.same with
    | true =>
      obtain ⟨kept, size⟩ := groups_cons_same same narrowed
      rw [kept, size]
      split
      case isTrue fits =>
        rw [Option.bind_some, visit, if_pos same, Nat.mod_mul_mod, mul_comm]
      case isFalse => rfl
    | false =>
      rw [groups_cons_broadcast same, (settled_cons_broadcast same _).1,
        (settled_cons_broadcast same _).2, slots_cons, slot_of_broadcast same,
        singleton_append, length_cons]
      by_cases fits : (slots (settled (groups narrowed))).length ≤ outputSize
      · rw [if_pos fits, Option.bind_some, visit, if_neg (by simp [same]), flush_eq fits]
        by_cases whole : (slots (groups narrowed)).length ≤ outputSize
        · simp only [whole, if_true, Option.bind_eq_bind, Option.bind_some, write, Nat.succ_le_iff]
          split <;> rfl
        · simp [whole, show ¬(slots (groups narrowed)).length + 1 ≤ outputSize by omega]
      · rw [if_neg fits, if_neg (by omega)]
        rfl

theorem simplifyTernary_eq (dims : List TernaryDim) : simplifyTernary dims outputSize =
      if (slots (groups (dims.map TernaryDim.narrow))).length ≤ outputSize then
        some (simpleTernary outputSize (slots (groups (dims.map TernaryDim.narrow))))
      else none := by
  rw [simplifyTernary, collect_eq]
  have more := length_slots_settled (groups (dims.map TernaryDim.narrow))
  by_cases fits : (slots (settled (groups (dims.map TernaryDim.narrow)))).length ≤ outputSize
  · rw [if_pos fits]
    simp only [Option.bind_eq_bind, Option.bind_some, flush_eq fits]
    split <;> rfl
  · rw [if_neg fits, if_neg (by omega)]
    rfl

end TfDml.Select
