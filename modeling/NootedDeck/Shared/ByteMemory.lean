import Mathlib.Data.BitVec
import Mathlib.Tactic.Ring

set_option autoImplicit false

-- Addresses are 64-bit words and wrap around, as pointers do; multi-byte values are little-endian.

namespace Bytes

abbrev Byte := BitVec 8
abbrev Addr := BitVec 64
abbrev Memory := Addr → Byte

def littleEndian : Nat → Nat → List Byte
  | 0, _ => []
  | count + 1, value => BitVec.ofNat 8 value :: littleEndian count (value / 256)

def value : List Byte → Nat
  | [] => 0
  | byte :: rest => byte.toNat + 256 * value rest

@[simp] theorem littleEndian_length (count number : Nat) :
    (littleEndian count number).length = count := by
  induction count generalizing number with
  | zero => rfl
  | succ count ih => simp [littleEndian, ih]

theorem value_littleEndian (count number : Nat) :
    value (littleEndian count number) = number % 256 ^ count := by
  induction count generalizing number with
  | zero => simp [littleEndian, value, Nat.mod_one]
  | succ count ih =>
      have split : 256 ^ (count + 1) = 256 * 256 ^ count := Nat.pow_succ'
      rw [littleEndian, value, ih, BitVec.toNat_ofNat, split, Nat.mod_mul]

namespace Memory

def bytes (memory : Memory) (address : Addr) (count : Nat) : List Byte :=
  (List.range count).map fun index => memory (address + BitVec.ofNat 64 index)

def load32 (memory : Memory) (address : Addr) : BitVec 32 :=
  BitVec.ofNat 32 (value (memory.bytes address 4))

def load64 (memory : Memory) (address : Addr) : BitVec 64 :=
  BitVec.ofNat 64 (value (memory.bytes address 8))

def store (memory : Memory) (address : Addr) (data : List Byte) : Memory := fun place =>
  (data[(place - address).toNat]?).getD (memory place)

def Apart (left : Addr) (count : Nat) (right : Addr) (size : Nat) : Prop :=
  count ≤ (right - left).toNat ∧ size ≤ (left - right).toNat

instance (left : Addr) (count : Nat) (right : Addr) (size : Nat) :
    Decidable (Apart left count right size) := inferInstanceAs (Decidable (_ ∧ _))

theorem Apart.symm {left right : Addr} {count size : Nat} (apart : Apart left count right size) :
    Apart right size left count := ⟨apart.2, apart.1⟩

theorem Apart.mono {left right : Addr} {count size count' size' : Nat}
    (apart : Apart left count right size) (fewer : count' ≤ count) (smaller : size' ≤ size) :
    Apart left count' right size' :=
  ⟨Nat.le_trans fewer apart.1, Nat.le_trans smaller apart.2⟩

theorem Apart.outside {left right : Addr} {count size index : Nat}
    (apart : Apart left count right size) (within : index < count) :
    size ≤ (left + BitVec.ofNat 64 index - right).toNat := by
  obtain ⟨before, after⟩ := apart
  have left_lt := left.isLt
  have right_lt := right.isLt
  simp only [BitVec.toNat_sub, BitVec.toNat_add, BitVec.toNat_ofNat] at *
  omega

theorem Apart.part {left right : Addr} {count size start length : Nat}
    (apart : Apart left count right size) (inside : start + length ≤ count) (some : 0 < length) :
    Apart (left + BitVec.ofNat 64 start) length right size := by
  obtain ⟨before, after⟩ := apart
  have left_lt := left.isLt
  have right_lt := right.isLt
  simp only [Apart, BitVec.toNat_sub, BitVec.toNat_add, BitVec.toNat_ofNat] at *
  omega

theorem apart_next (address : Addr) {count size : Nat} (some : 0 < count) (short : count + size < 2 ^ 64) :
    Apart address count (address + BitVec.ofNat 64 count) size := by
  have address_lt := address.isLt
  simp only [Apart, BitVec.toNat_sub, BitVec.toNat_add, BitVec.toNat_ofNat]
  omega

@[simp] theorem bytes_length (memory : Memory) (address : Addr) (count : Nat) :
    (memory.bytes address count).length = count := by
  simp [bytes]

theorem bytes_getElem? (memory : Memory) (address : Addr) {count index : Nat}
    (within : index < count) :
    (memory.bytes address count)[index]? = some (memory (address + BitVec.ofNat 64 index)) := by
  simp [bytes, within]

theorem bytes_congr {memory other : Memory} {address : Addr} {count : Nat}
    (same : ∀ index < count,
      memory (address + BitVec.ofNat 64 index) = other (address + BitVec.ofNat 64 index)) :
    memory.bytes address count = other.bytes address count := by
  apply List.map_congr_left
  exact fun index member => same index (List.mem_range.mp member)

theorem store_outside (memory : Memory) (address place : Addr) (data : List Byte)
    (outside : data.length ≤ (place - address).toNat) :
    memory.store address data place = memory place := by
  rw [store, List.getElem?_eq_none outside, Option.getD_none]

theorem store_inside (memory : Memory) (address : Addr) (data : List Byte) (index : Nat)
    (within : index < data.length) (short : data.length ≤ 2 ^ 64) :
    memory.store address data (address + BitVec.ofNat 64 index) = data[index] := by
  have offset : (address + BitVec.ofNat 64 index - address).toNat = index := by
    rw [BitVec.add_comm, BitVec.add_sub_cancel, BitVec.toNat_ofNat]
    exact Nat.mod_eq_of_lt (by omega)
  rw [store, offset, List.getElem?_eq_getElem within, Option.getD_some]

theorem bytes_store_apart (memory : Memory) {address place : Addr} {data : List Byte} {count : Nat}
    (apart : Apart place count address data.length) :
    (memory.store address data).bytes place count = memory.bytes place count :=
  bytes_congr fun _ within => store_outside _ _ _ _ (apart.outside within)

theorem bytes_store_part (memory : Memory) (address : Addr) (data : List Byte) (start count : Nat)
    (inside : start + count ≤ data.length) (short : data.length ≤ 2 ^ 64) :
    (memory.store address data).bytes (address + BitVec.ofNat 64 start) count =
      (data.drop start).take count := by
  apply List.ext_getElem
  · simp; omega
  · intro index left right
    simp only [bytes_length] at left
    have place : address + BitVec.ofNat 64 start + BitVec.ofNat 64 index =
        address + BitVec.ofNat 64 (start + index) := by
      rw [BitVec.add_assoc, BitVec.ofNat_add]
    simp only [bytes, List.getElem_map, List.getElem_range, place, List.getElem_take,
      List.getElem_drop]
    exact store_inside memory address data _ (by omega) short

theorem bytes_store (memory : Memory) (address : Addr) (data : List Byte)
    (short : data.length ≤ 2 ^ 64) :
    (memory.store address data).bytes address data.length = data := by
  simpa using bytes_store_part memory address data 0 data.length (by omega) short

theorem bytes_add (memory : Memory) (address : Addr) (left right : Nat) :
    memory.bytes address (left + right) =
      memory.bytes address left ++ memory.bytes (address + BitVec.ofNat 64 left) right := by
  rw [bytes, List.range_add, List.map_append, List.map_map, bytes, bytes]
  congr 1
  apply List.map_congr_left
  intro index _
  rw [Function.comp_apply, BitVec.ofNat_add, BitVec.add_assoc]

theorem store_append (memory : Memory) (address : Addr) (left right : List Byte)
    (short : left.length + right.length ≤ 2 ^ 64) :
    memory.store address (left ++ right) =
      (memory.store address left).store (address + BitVec.ofNat 64 left.length) right := by
  funext place
  have place_lt := place.isLt
  have address_lt := address.isLt
  by_cases within : (place - address).toNat < left.length
  · have early : right.length ≤ (place - (address + BitVec.ofNat 64 left.length)).toNat := by
      simp only [BitVec.toNat_sub, BitVec.toNat_add, BitVec.toNat_ofNat] at *
      omega
    rw [store_outside _ _ _ _ early, store, store, List.getElem?_append_left within]
  · by_cases empty : right = []
    · subst empty
      rw [List.append_nil, store_outside _ _ _ [] (Nat.zero_le _)]
    · have some_byte := List.length_pos_iff.mpr empty
      have later : (place - (address + BitVec.ofNat 64 left.length)).toNat =
          (place - address).toNat - left.length := by
        simp only [BitVec.toNat_sub, BitVec.toNat_add, BitVec.toNat_ofNat] at *
        omega
      have outside := store_outside memory address place left (by omega)
      rw [store, store, later, outside, List.getElem?_append_right (by omega)]

theorem store_comm (memory : Memory) {address other : Addr} {data bytes : List Byte}
    (apart : Apart address data.length other bytes.length) :
    (memory.store address data).store other bytes = (memory.store other bytes).store address data := by
  funext place
  have outside : data.length ≤ (place - address).toNat ∨ bytes.length ≤ (place - other).toNat := by
    obtain ⟨before, after⟩ := apart
    have place_lt := place.isLt
    have address_lt := address.isLt
    have other_lt := other.isLt
    simp only [BitVec.toNat_sub] at *
    omega
  rcases outside with outside | outside
  · simp only [store, List.getElem?_eq_none outside, Option.getD_none]
  · simp only [store, List.getElem?_eq_none outside, Option.getD_none]

/-- Storing what is there already after the data changes no more than the data. -/
theorem store_append_bytes (memory : Memory) (address : Addr) (data : List Byte) (count : Nat)
    (short : data.length + count ≤ 2 ^ 64) :
    memory.store address (data ++ memory.bytes (address + BitVec.ofNat 64 data.length) count) =
      memory.store address data := by
  rw [store_append _ _ _ _ (by rw [bytes_length]; exact short)]
  funext place
  by_cases within : (place - (address + BitVec.ofNat 64 data.length)).toNat < count
  · have after : data.length ≤ (place - address).toNat := by
      have place_lt := place.isLt
      have address_lt := address.isLt
      simp only [BitVec.toNat_sub, BitVec.toNat_add, BitVec.toNat_ofNat] at *
      omega
    have back : address + BitVec.ofNat 64 data.length +
        BitVec.ofNat 64 (place - (address + BitVec.ofNat 64 data.length)).toNat = place := by
      rw [BitVec.ofNat_toNat, BitVec.setWidth_eq, BitVec.add_comm, BitVec.sub_add_cancel]
    rw [store_outside _ _ _ _ after, store, bytes_getElem? _ _ within, back, Option.getD_some]
  · exact store_outside _ _ _ _ (by rw [bytes_length]; omega)

theorem outside_part {address place : Addr} {size start count : Nat}
    (outside : size ≤ (place - address).toNat) (inside : start + count ≤ size) :
    count ≤ (place - (address + BitVec.ofNat 64 start)).toNat := by
  have place_lt := place.isLt
  have address_lt := address.isLt
  simp only [BitVec.toNat_sub, BitVec.toNat_add, BitVec.toNat_ofNat] at *
  omega

theorem load32_of_bytes {memory : Memory} {address : Addr} {word : BitVec 32}
    (stored : memory.bytes address 4 = littleEndian 4 word.toNat) : memory.load32 address = word := by
  rw [load32, stored, value_littleEndian]
  apply BitVec.eq_of_toNat_eq
  have := word.isLt
  simp only [BitVec.toNat_ofNat]
  omega

theorem load64_of_bytes {memory : Memory} {address : Addr} {word : BitVec 64}
    (stored : memory.bytes address 8 = littleEndian 8 word.toNat) : memory.load64 address = word := by
  rw [load64, stored, value_littleEndian]
  apply BitVec.eq_of_toNat_eq
  have := word.isLt
  simp only [BitVec.toNat_ofNat]
  omega

end Memory

end Bytes
