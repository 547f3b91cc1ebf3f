import Mathlib.Algebra.Order.Ring.Nat

/-! # Statuses, 64-bit values and GPU events

What every part of the runtime shares: the status a fallible function reports,
wrap-around of `uint64_t` values, and the events on a fence.
-/

namespace TfDml

/-- The statuses that the modelled functions report, with their messages. -/
inductive Status where
  | ok
  | invalidArgument (message : String)
  | resourceExhausted (message : String)
  | failedPrecondition (message : String)
  | unimplemented (message : String)
  | internal (message : String)
  deriving DecidableEq, Repr

def Status.isOk : Status → Bool
  | .ok => true
  | _ => false

def Status.isInvalidArgument : Status → Bool
  | .invalidArgument _ => true
  | _ => false

/-- A `uint64_t` result. -/
def u64 (n : Nat) : Nat := n % 2 ^ 64

theorem u64_of_lt {n : Nat} (lt : n < 2 ^ 64) : u64 n = n := Nat.mod_eq_of_lt lt

/-- `std::numeric_limits<uint64_t>::max()`, what every fence reports once the
    device is removed. -/
def uint64Max : Nat := 2 ^ 64 - 1

abbrev FenceId := Nat

structure DmlGpuEvent where
  fenceValue : Nat
  fence : FenceId
  deriving DecidableEq, Repr

/-- `fence->GetCompletedValue() >= fence_value`, where `completedValue` is what
    the fence of the event reports. -/
def DmlGpuEvent.isSignaled (event : DmlGpuEvent) (completedValue : Nat) : Bool :=
  event.fenceValue ≤ completedValue

theorem DmlGpuEvent.isSignaled_eq_false {event : DmlGpuEvent} {completedValue : Nat} :
    event.isSignaled completedValue = false ↔ completedValue < event.fenceValue := by
  simp [isSignaled]

end TfDml
