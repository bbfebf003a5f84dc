import Mathlib.Data.BitVec
import NootedDeck.Shared.Inspect

set_option autoImplicit false

namespace NootedDeck.Vbios

open Inspection Inspect

structure Image where
  bytes : Nat → BitVec 8
  size : Nat

def Image.word (image : Image) (offset : Nat) : BitVec 16 :=
  image.bytes (offset + 1) ++ image.bytes offset

-- "ATOM" and "MOTA"
def atomTags : List (List (BitVec 8)) := [[0x41, 0x54, 0x4F, 0x4D], [0x4D, 0x4F, 0x54, 0x41]]

def checkTag (offset : Nat) : Inspect Bool := do
  let tag ← readBytes offset 4
  return atomTags.contains tag

def checkHeader (size : Nat) : Inspect Bool := do
  let biosHeaderStart ← readWord 0x48
  if biosHeaderStart = 0 then return false
  -- `UInt16 Temp` wraps
  let temp := biosHeaderStart + 4
  if size < temp.toNat then return false
  checkTag temp.toNat

def checkATOMBIOS (size : Nat) : Inspect Bool :=
  if size < 0x49 then return false
  else do
    let first ← readByte 0
    if first ≠ 0x55 then return false
    let second ← readByte 1
    if second ≠ 0xAA then return false
    checkHeader size

def Image.Accepted (image : Image) : Prop := (checkATOMBIOS image.size).value image.bytes = true

instance (image : Image) : Decidable image.Accepted := Bool.decEq _ _

theorem accepted_iff (image : Image) :
    image.Accepted ↔ 0x49 ≤ image.size ∧ image.bytes 0 = 0x55 ∧ image.bytes 1 = 0xAA ∧
      image.word 0x48 ≠ 0 ∧ (image.word 0x48 + 4).toNat ≤ image.size ∧
      (checkTag (image.word 0x48 + 4).toNat).value image.bytes = true := by
  rw [Image.Accepted, checkATOMBIOS, value_unless, value_bind, value_readByte, value_unless, value_bind,
    value_readByte, value_unless, checkHeader, value_bind, value_readWord, value_unless, value_unless]
  simp only [ne_eq, not_not, Nat.not_lt]
  rfl

theorem Image.Accepted.mono {bytes : Nat → BitVec 8} {size larger : Nat} (fits : size ≤ larger)
    (accepted : Image.Accepted ⟨bytes, size⟩) : Image.Accepted ⟨bytes, larger⟩ := by
  rw [accepted_iff] at accepted ⊢
  obtain ⟨long, first, second, header, tag, spelled⟩ := accepted
  exact ⟨Nat.le_trans long fits, first, second, header, Nat.le_trans tag fits, spelled⟩

def atomRomTablePtr : Nat := 0x48
def atomRomDataPtr : Nat := 0x20

def getVBIOSDataTable (index : BitVec 32) : Inspect (Option Nat) := do
  let base ← readWord atomRomTablePtr
  let dataTable ← readWord (base.toNat + atomRomDataPtr)
  -- `MDT` is an array of 16-bit words four bytes into the table
  let offset ← readWord (dataTable.toNat + 4 + 2 * index.toNat)
  return if offset ≠ 0 then some offset.toNat else none

def TableInside (image : Image) (index : BitVec 32) (sizeofT : Nat) : Prop :=
  (∀ offset ∈ (getVBIOSDataTable index).touched image.bytes, offset < image.size) ∧
    ∀ table, (getVBIOSDataTable index).value image.bytes = some table →
      table + sizeofT ≤ image.size

namespace Image

variable (image : Image) (index : BitVec 32)

def header : Nat := (image.word atomRomTablePtr).toNat

def masterDataTable : Nat := (image.word (image.header + atomRomDataPtr)).toNat

def entry : Nat := (image.word (image.masterDataTable + 4 + 2 * index.toNat)).toNat

theorem size_of_accepted (accepted : image.Accepted) : 0x49 ≤ image.size :=
  ((accepted_iff image).mp accepted).1

end Image

theorem getVBIOSDataTable_touched (image : Image) (index : BitVec 32) :
    (getVBIOSDataTable index).touched image.bytes =
      [0x48, 0x49, image.header + 0x20, image.header + 0x20 + 1,
        image.masterDataTable + 4 + 2 * index.toNat,
        image.masterDataTable + 4 + 2 * index.toNat + 1] := by
  simp only [getVBIOSDataTable, touched_bind, touched_readWord, value_readWord, touched_pure]
  rfl

theorem getVBIOSDataTable_value (image : Image) (index : BitVec 32) :
    (getVBIOSDataTable index).value image.bytes =
      if image.entry index ≠ 0 then some (image.entry index) else none := by
  simp only [getVBIOSDataTable, value_bind, value_readWord, value_pure]
  change (if image.word _ ≠ 0 then _ else _) = _
  simp only [Image.entry, ne_eq, ← BitVec.toNat_inj]
  rfl

/--
For an accepted image the accesses stay inside exactly if the image is longer than the shortest one
accepted, reaches past the data table pointer of its ROM header and past the entry in the master data
table, and holds the table the entry points to.
-/
theorem tableInside_iff (image : Image) (accepted : image.Accepted) (index : BitVec 32)
    (sizeofT : Nat) :
    TableInside image index sizeofT ↔
      image.size ≠ 0x49 ∧ image.header + 0x22 ≤ image.size ∧
        image.masterDataTable + 2 * index.toNat + 6 ≤ image.size ∧
        (image.entry index = 0 ∨ image.entry index + sizeofT ≤ image.size) := by
  have long := image.size_of_accepted accepted
  have touched : (∀ offset ∈ (getVBIOSDataTable index).touched image.bytes, offset < image.size) ↔
      image.size ≠ 0x49 ∧ image.header + 0x22 ≤ image.size ∧
        image.masterDataTable + 2 * index.toNat + 6 ≤ image.size := by
    simp only [getVBIOSDataTable_touched, List.forall_mem_cons]
    constructor
    · rintro ⟨-, pointer, -, header, -, entry, -⟩
      omega
    · rintro ⟨longer, header, entry⟩
      exact ⟨by omega, by omega, by omega, by omega, by omega, by omega, nofun⟩
  have returned : (∀ table, (getVBIOSDataTable index).value image.bytes = some table →
      table + sizeofT ≤ image.size) ↔
      image.entry index = 0 ∨ image.entry index + sizeofT ≤ image.size := by
    rw [getVBIOSDataTable_value]
    by_cases null : image.entry index = 0 <;> simp [null]
  rw [TableInside, touched, returned]
  simp only [and_assoc]

def exampleBytes : Nat → BitVec 8
  | 0x00 => 0x55
  | 0x01 => 0xAA
  | 0x44 => 0x41
  | 0x45 => 0x54
  | 0x46 => 0x4F
  | 0x47 => 0x4D
  | 0x48 => 0x40
  | 0x60 => 0x70
  | 0xB0 => 0xC0
  | _ => 0

theorem tableInside_example : TableInside ⟨exampleBytes, 0x100⟩ 0x1E 16 :=
  (tableInside_iff ⟨exampleBytes, 0x100⟩ (by decide) 0x1E 16).mpr (by decide)

-- The same image cut after the header pointer is accepted, but its ROM header is not in it.
theorem table_outside_example :
    Image.Accepted ⟨exampleBytes, 0x4A⟩ ∧ ¬ TableInside ⟨exampleBytes, 0x4A⟩ 0x1E 16 := by
  refine ⟨by decide, fun inside => ?_⟩
  have pointer := inside.1 0x60 (by rw [getVBIOSDataTable_touched]; decide)
  exact absurd pointer (by decide)

end NootedDeck.Vbios
