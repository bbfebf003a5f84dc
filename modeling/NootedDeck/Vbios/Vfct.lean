import NootedDeck.Vbios.AtomBios

set_option autoImplicit false

namespace NootedDeck.Vbios

open Inspection Inspect

structure VideoHeader where
  pciBus : BitVec 32
  pciDevice : BitVec 32
  pciFunction : BitVec 32
  vendorID : BitVec 32
  deviceID : BitVec 32
  imageLength : BitVec 32

structure VfctLayout where
  sizeofVFCT : Nat
  vbiosImageOffset : Inspect (BitVec 32)
  sizeofHeader : Nat
  header : Inspect VideoHeader
  positive : 0 < sizeofHeader

structure DeviceIds where
  vendor : BitVec 32
  deviceID : BitVec 32
  busNumber : BitVec 32
  deviceNumber : BitVec 32
  deviceFunction : BitVec 32

def VideoHeader.selects (vhdr : VideoHeader) (ids : DeviceIds) (strict : Bool) : Bool :=
  vhdr.imageLength != 0 &&
    (!strict || vhdr.pciBus == ids.busNumber && vhdr.pciDevice == ids.deviceNumber &&
      vhdr.pciFunction == ids.deviceFunction) &&
    vhdr.vendorID == ids.vendor && vhdr.deviceID == ids.deviceID

/-- When `OSData::getBytesNoCopy(start, numBytes)` is not null. -/
def InRange (length start numBytes : Nat) : Prop := start < length ∧ start + numBytes ≤ length

instance (length start numBytes : Nat) : Decidable (InRange length start numBytes) :=
  instDecidableAnd

inductive Verdict where
  | absent
  | found (start length : Nat)
  | unfinished
deriving DecidableEq

variable (layout : VfctLayout) (ids : DeviceIds) (strict : Bool)

def checkContent (start length : Nat) : Inspect Verdict := do
  let atom ← (checkATOMBIOS length).shift start
  return if atom then .found start length else .absent

-- `Offset` is a `UInt32`; the sums with `sizeof` are wider and narrowed where they are passed on.
def scanVFCT (length : Nat) : Nat → BitVec 32 → Inspect Verdict
  | 0, _ => pure .unfinished
  | fuel + 1, offset =>
      if offset.toNat < length then
        if InRange length offset.toNat layout.sizeofHeader then do
          let vhdr ← layout.header.shift offset.toNat
          let start := BitVec.ofNat 32 (offset.toNat + layout.sizeofHeader)
          if InRange length start.toNat vhdr.imageLength.toNat then
            if vhdr.selects ids strict then
              checkContent start.toNat vhdr.imageLength.toNat
            else
              let next := offset.toNat + layout.sizeofHeader + vhdr.imageLength.toNat
              scanVFCT length fuel (BitVec.ofNat 32 next)
          else pure .absent
        else pure .absent
      else pure .absent

def searchVFCT (length : Nat) : Inspect Verdict :=
  if length < layout.sizeofVFCT then pure .absent
  else do
    let offset ← layout.vbiosImageOffset
    scanVFCT layout ids strict length (length + 1) offset

section Entries

structure Entry where
  offset : Nat
  header : VideoHeader

variable (table : Image)

def headerAt (offset : Nat) : VideoHeader :=
  layout.header.value fun place => table.bytes (offset + place)

def entriesFrom (offset : Nat) : List Entry :=
  if _fits : InRange table.size offset layout.sizeofHeader ∧
      InRange table.size (offset + layout.sizeofHeader) (headerAt layout table offset).imageLength.toNat
  then
    ⟨offset, headerAt layout table offset⟩ ::
      entriesFrom (offset + layout.sizeofHeader + (headerAt layout table offset).imageLength.toNat)
  else []
termination_by table.size - offset
decreasing_by
  have positive := layout.positive
  have inside := _fits.1.1
  omega

def Entry.image (entry : Entry) : Image where
  bytes := fun place => table.bytes (entry.offset + layout.sizeofHeader + place)
  size := entry.header.imageLength.toNat

def vfctEntry : Option Entry :=
  if table.size < layout.sizeofVFCT then none
  else
    (entriesFrom layout table (layout.vbiosImageOffset.value table.bytes).toNat).find?
      fun entry => entry.header.selects ids strict

def verdictOf : Option Entry → Verdict
  | none => .absent
  | some entry =>
      if (entry.image layout table).Accepted then
        .found (entry.offset + layout.sizeofHeader) entry.header.imageLength.toNat
      else .absent

variable {layout ids strict table}

theorem checkContent_value (entry : Entry) :
    (checkContent (entry.offset + layout.sizeofHeader) entry.header.imageLength.toNat).value
      table.bytes = verdictOf layout table (some entry) := by
  simp only [checkContent, value_bind, value_shift, value_pure]
  rfl

theorem header_value (offset : Nat) :
    (layout.header.shift offset).value table.bytes = headerAt layout table offset :=
  value_shift ..

theorem toNat_narrowed {sum : Nat} (fits : sum ≤ table.size) (short : table.size < 2 ^ 32) :
    (BitVec.ofNat 32 sum).toNat = sum := by
  rw [BitVec.toNat_ofNat, Nat.mod_eq_of_lt (by omega)]

theorem scanVFCT_value (short : table.size < 2 ^ 32) (fuel : Nat) (offset : BitVec 32)
    (enough : table.size - offset.toNat < fuel) :
    (scanVFCT layout ids strict table.size fuel offset).value table.bytes =
      verdictOf layout table ((entriesFrom layout table offset.toNat).find?
        fun entry => entry.header.selects ids strict) := by
  induction fuel generalizing offset with
  | zero => omega
  | succ fuel ih =>
      rw [scanVFCT, entriesFrom]
      by_cases header : InRange table.size offset.toNat layout.sizeofHeader
      · rw [if_pos header.1, if_pos header]
        simp only [value_bind, header_value, toNat_narrowed header.2 short]
        by_cases content : InRange table.size (offset.toNat + layout.sizeofHeader)
            (headerAt layout table offset.toNat).imageLength.toNat
        · rw [if_pos content, dif_pos ⟨header, content⟩, List.find?_cons]
          cases (headerAt layout table offset.toNat).selects ids strict with
          | true => exact checkContent_value ⟨offset.toNat, headerAt layout table offset.toNat⟩
          | false =>
              -- every entry is longer than nothing, so the fuel lasts
              have positive := layout.positive
              have inside := header.1
              have later := ih (BitVec.ofNat 32 (offset.toNat + layout.sizeofHeader +
                (headerAt layout table offset.toNat).imageLength.toNat))
              rw [toNat_narrowed content.2 short] at later
              exact later (by omega)
        · rw [if_neg content, dif_neg (fun both => content both.2)]
          rfl
      · rw [dif_neg (fun both => header both.1), if_neg header, ite_self]
        rfl

theorem searchVFCT_value (short : table.size < 2 ^ 32) :
    (searchVFCT layout ids strict table.size).value table.bytes =
      verdictOf layout table (vfctEntry layout ids strict table) := by
  by_cases tooShort : table.size < layout.sizeofVFCT
  · rw [searchVFCT, vfctEntry, if_pos tooShort, if_pos tooShort]
    rfl
  · rw [searchVFCT, vfctEntry, if_neg tooShort, if_neg tooShort, value_bind]
    exact scanVFCT_value short _ _ (by omega)

end Entries

end NootedDeck.Vbios
