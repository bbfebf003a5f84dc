import NootedDeck.Shared.ByteMemory
import NootedDeck.Shared.Inspect

set_option autoImplicit false

namespace Inspection

open Bytes Inspect

def places (memory : Memory) : Nat → Byte := fun place => memory (BitVec.ofNat 64 place)

def readAt (address : Addr) : Inspect Byte := readByte address.toNat

def readFrom (address : Addr) : Nat → Inspect (List Byte)
  | 0 => pure []
  | count + 1 => do
      let first ← readAt address
      let rest ← readFrom (address + 1#64) count
      return first :: rest

def readInt32 (address : Addr) : Inspect (BitVec 32) := do
  let bytes ← readFrom address 4
  return BitVec.ofNat 32 (value bytes)

@[simp] theorem value_readAt (memory : Memory) (address : Addr) :
    (readAt address).value (places memory) = memory address := by
  simp only [readAt, value_readByte, places, BitVec.ofNat_toNat, BitVec.setWidth_eq]

@[simp] theorem touched_readAt (memory : Memory) (address : Addr) :
    (readAt address).touched (places memory) = [address.toNat] := rfl

theorem add_one_add (address : Addr) (index : Nat) :
    address + 1#64 + BitVec.ofNat 64 index = address + BitVec.ofNat 64 (index + 1) := by
  rw [BitVec.add_assoc, Nat.add_comm, BitVec.ofNat_add]

def span (address : Addr) (count : Nat) : List Nat :=
  (List.range count).map fun index => (address + BitVec.ofNat 64 index).toNat

theorem span_succ (address : Addr) (count : Nat) :
    span address (count + 1) = address.toNat :: span (address + 1#64) count := by
  simp only [span, List.range_succ_eq_map, List.map_cons, List.map_map, Function.comp_def,
    add_one_add, BitVec.add_zero]

theorem value_readFrom (memory : Memory) (address : Addr) (count : Nat) :
    (readFrom address count).value (places memory) = memory.bytes address count := by
  induction count generalizing address with
  | zero => rfl
  | succ count ih =>
      simp only [readFrom, value_bind, value_readAt, value_pure, ih, Memory.bytes,
        List.range_succ_eq_map, List.map_cons, List.map_map, Function.comp_def, add_one_add,
        BitVec.add_zero]

theorem touched_readFrom (memory : Memory) (address : Addr) (count : Nat) :
    (readFrom address count).touched (places memory) = span address count := by
  induction count generalizing address with
  | zero => rfl
  | succ count ih =>
      simp only [readFrom, touched_bind, touched_readAt, touched_pure, ih, span_succ,
        List.append_nil, List.singleton_append]

@[simp] theorem value_readInt32 (memory : Memory) (address : Addr) :
    (readInt32 address).value (places memory) = memory.load32 address := by
  simp only [readInt32, value_bind, value_readFrom, value_pure, Memory.load32]

@[simp] theorem touched_readInt32 (memory : Memory) (address : Addr) :
    (readInt32 address).touched (places memory) = span address 4 := by
  simp only [readInt32, touched_bind, touched_readFrom, touched_pure, List.append_nil]

section Ranges

variable {start place : Addr} {size : Nat}

def Inside (start : Addr) (size place : Nat) : Prop :=
  start.toNat ≤ place ∧ place < start.toNat + size

-- Bytes that wrap around pass address zero, before the range.
theorem span_inside_iff {count : Nat} (started : start ≠ 0) (positive : 0 < count) :
    (∀ looked ∈ span place count, Inside start size looked) ↔
      start.toNat ≤ place.toNat ∧
        place.toNat + count ≤ min (start.toNat + size) (2 ^ 64) := by
  have nonzero : start.toNat ≠ 0 := fun zero => started (BitVec.eq_of_toNat_eq zero)
  have bound := place.isLt
  simp only [span, List.forall_mem_map, List.mem_range, Inside, BitVec.toNat_add,
    BitVec.toNat_ofNat]
  constructor
  · intro inside
    have first := inside 0 positive
    have unwrapped : place.toNat + count ≤ 2 ^ 64 := by
      by_contra wraps
      have wrapped := inside (2 ^ 64 - place.toNat) (by omega)
      omega
    have last := inside (count - 1) (by omega)
    omega
  · intro bounds index within
    omega

end Ranges

end Inspection
