import TfDml.Core.Stop

/-! # Regions of buffers

A region of a tensor has a size that is a multiple of four. No region is empty, so that a tensor
without elements has none, and a subregion of size zero runs to the end.
-/

namespace TfDml.BufferRegion

open Stop

/-- The size of what `GetBufferForOpaqueData` returns, in `uint64_t`. -/
def region (bytes : Nat) : Except Stop Nat := do
  let sizeInBytes := u64 ((1 + u64 (bytes + (2 ^ 64 - 1)) / 4) * 4)
  -- Regions cannot be empty.
  check (sizeInBytes != 0)
  .ok sizeInBytes

/-- The size of a `Subregion`. -/
def subregion (region offset sizeInBytes : Nat) : Except Stop Nat := do
  check (offset < region)
  let sizeInBytes := if sizeInBytes = 0 then region - offset else sizeInBytes
  check (sizeInBytes ≤ region - offset)
  .ok sizeInBytes

theorem region_zero : region 0 = .error .fatal := by decide

theorem eq_fatal_of_region {bytes : Nat} {stop : Stop} (err : region bytes = .error stop) :
    stop = .fatal := by
  rw [region, bind_eq_error] at err
  obtain err | ⟨_, -, impossible⟩ := err
  · exact (check_eq_error.mp err).2
  · cases impossible

theorem region_of_pos {bytes : Nat} (pos : 0 < bytes) (lt : bytes < 2 ^ 63) :
    ∃ size, region bytes = .ok size ∧ bytes ≤ size := by
  have pre : u64 (bytes + (2 ^ 64 - 1)) = bytes - 1 := by rw [u64]; omega
  have whole : u64 ((1 + (bytes - 1) / 4) * 4) = (1 + (bytes - 1) / 4) * 4 := u64_of_lt (by omega)
  refine ⟨(1 + (bytes - 1) / 4) * 4, ?_, by omega⟩
  rw [region, pre, whole, check, if_pos (bne_iff_ne.mpr (by omega))]
  rfl

theorem subregion_start {size bytes : Nat} (pos : 0 < bytes) (fits : bytes ≤ size) :
    subregion size 0 bytes = .ok bytes := by
  have some_ : 0 < size := by omega
  simp only [subregion, check, some_, decide_true, if_true, ok_bind, pos.ne',
    if_false, Nat.sub_zero, fits]

end TfDml.BufferRegion
