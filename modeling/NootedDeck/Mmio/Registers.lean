import Mathlib.Data.BitVec
import NootedDeck.Shared.Program

set_option autoImplicit false

namespace NootedDeck.Mmio

open Interleaving

structure Aperture where
  length : Nat
  pcieIndex2 : BitVec 32
  pcieData2 : BitVec 32
  distinct : pcieIndex2 ≠ pcieData2
  indexMapped : pcieIndex2.toNat * 4 < length
  dataMapped : pcieData2.toNat * 4 < length

def exampleAperture : Aperture := ⟨1024, 14, 15, by decide, by decide, by decide⟩

structure Device where
  selector : BitVec 32
  registers : BitVec 32 → BitVec 32

variable (aperture : Aperture)

namespace Device

def load (region : BitVec 32) (device : Device) : BitVec 32 :=
  if region = aperture.pcieIndex2 then device.selector
  else if region = aperture.pcieData2 then device.registers device.selector
  else device.registers region

def store (region value : BitVec 32) (device : Device) : Device :=
  if region = aperture.pcieIndex2 then { device with selector := value }
  else if region = aperture.pcieData2 then
    { device with registers := Function.update device.registers device.selector value }
  else { device with registers := Function.update device.registers region value }

@[simp] theorem load_data (device : Device) :
    device.load aperture aperture.pcieData2 = device.registers device.selector := by
  rw [load, if_neg aperture.distinct.symm, if_pos rfl]

@[simp] theorem store_index (value : BitVec 32) (device : Device) :
    device.store aperture aperture.pcieIndex2 value = { device with selector := value } := by
  rw [store, if_pos rfl]

@[simp] theorem store_data (value : BitVec 32) (device : Device) :
    device.store aperture aperture.pcieData2 value =
      { device with registers := Function.update device.registers device.selector value } := by
  rw [store, if_neg aperture.distinct.symm, if_pos rfl]

end Device

-- `Region * sizeof(UInt32)` is a `size_t`, so the product does not wrap.
def Aperture.Covers (region : BitVec 32) : Prop := region.toNat * 4 < aperture.length

instance (region : BitVec 32) : Decidable (aperture.Covers region) := Nat.decLt _ _

def readRegion32Bit (region : BitVec 32) : Program Device (BitVec 32) :=
  if aperture.Covers region then
    .read fun device => .done (device.load aperture region)
  else
    .write (Device.store aperture aperture.pcieIndex2 region)
      (.read fun device => .done (device.load aperture aperture.pcieData2))

def writeRegion32Bit (region value : BitVec 32) : Program Device Unit :=
  if aperture.Covers region then
    .write (Device.store aperture region value) (.done ())
  else
    .write (Device.store aperture aperture.pcieIndex2 region)
      (.write (Device.store aperture aperture.pcieData2 value) (.done ()))

def reached (region : BitVec 32) (device : Device) : Device :=
  if aperture.Covers region then device else { device with selector := region }

@[simp] theorem reached_registers (region : BitVec 32) (device : Device) :
    (reached aperture region device).registers = device.registers := by
  unfold reached
  split <;> rfl

structure Aperture.Plain (region : BitVec 32) : Prop where
  notIndex : region ≠ aperture.pcieIndex2
  notData : region ≠ aperture.pcieData2

variable {aperture}

theorem readRegion32Bit_run {region : BitVec 32} (plain : aperture.Plain region) (device : Device) :
    (readRegion32Bit aperture region).run device =
      some (device.registers region, reached aperture region device) := by
  by_cases covered : aperture.Covers region
  · simp [readRegion32Bit, reached, covered, Program.run, Device.load, plain.notIndex, plain.notData]
  · simp [readRegion32Bit, reached, covered, Program.run]

theorem writeRegion32Bit_run {region : BitVec 32} (plain : aperture.Plain region) (value : BitVec 32)
    (device : Device) :
    (writeRegion32Bit aperture region value).run device =
      some ((), { reached aperture region device with
        registers := Function.update device.registers region value }) := by
  by_cases covered : aperture.Covers region
  · simp [writeRegion32Bit, reached, covered, Program.run, Device.store, plain.notIndex, plain.notData]
  · simp [writeRegion32Bit, reached, covered, Program.run]

end NootedDeck.Mmio
