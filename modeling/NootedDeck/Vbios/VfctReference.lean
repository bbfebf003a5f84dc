import NootedDeck.Vbios.Sources

set_option autoImplicit false

namespace NootedDeck.Vbios

section Reference

variable (layout : VfctLayout) (ids : DeviceIds) (strict : Bool) (table : Image)

def EntryFits (offset : Nat) : Prop :=
  offset + layout.sizeofHeader + (headerAt layout table offset).imageLength.toNat ≤ table.size

instance (offset : Nat) : Decidable (EntryFits layout table offset) :=
  inferInstanceAs (Decidable (_ ≤ _))

def consecutiveEntries (offset : Nat) : List Entry :=
  if _fits : EntryFits layout table offset then
    ⟨offset, headerAt layout table offset⟩ ::
      consecutiveEntries
        (offset + layout.sizeofHeader + (headerAt layout table offset).imageLength.toNat)
  else []
termination_by table.size - offset
decreasing_by
  have positive := layout.positive
  have fits : offset + layout.sizeofHeader + _ ≤ table.size := _fits
  omega

structure VideoHeader.IsFor (vhdr : VideoHeader) : Prop where
  image : vhdr.imageLength ≠ 0
  vendor : vhdr.vendorID = ids.vendor
  device : vhdr.deviceID = ids.deviceID
  place : strict = true → vhdr.pciBus = ids.busNumber ∧ vhdr.pciDevice = ids.deviceNumber ∧
    vhdr.pciFunction = ids.deviceFunction

theorem selects_iff (vhdr : VideoHeader) :
    vhdr.selects ids strict = true ↔ vhdr.IsFor ids strict := by
  simp only [VideoHeader.selects, Bool.and_eq_true, Bool.or_eq_true, bne_iff_ne, beq_iff_eq,
    Bool.not_eq_true', and_assoc]
  constructor
  · rintro ⟨image, place, vendor, device⟩
    exact ⟨image, vendor, device, fun strictly => by simpa [strictly] using place⟩
  · rintro ⟨image, vendor, device, place⟩
    cases strict <;> simp_all

instance (vhdr : VideoHeader) : Decidable (vhdr.IsFor ids strict) :=
  decidable_of_iff _ (selects_iff ids strict vhdr)

def referenceImage : Option Image :=
  match (consecutiveEntries layout table (layout.vbiosImageOffset.value table.bytes).toNat).find?
      fun entry => entry.header.IsFor ids strict with
  | none => none
  | some entry =>
      if (entry.image layout table).Accepted then some (entry.image layout table) else none

variable {layout table}

theorem inRange_iff_entryFits (offset : Nat) :
    (InRange table.size offset layout.sizeofHeader ∧
        InRange table.size (offset + layout.sizeofHeader)
          (headerAt layout table offset).imageLength.toNat) ↔
      EntryFits layout table offset ∧ offset + layout.sizeofHeader < table.size := by
  have positive := layout.positive
  simp only [InRange, EntryFits]
  omega

-- `getBytesNoCopy` refuses an empty image at the very end of the table. The entry would have been
-- skipped anyway.
theorem find_consecutiveEntries {wanted : Entry → Bool}
    (images : ∀ entry, wanted entry = true → entry.header.imageLength ≠ 0) (offset : Nat) :
    (consecutiveEntries layout table offset).find? wanted =
      (entriesFrom layout table offset).find? wanted := by
  fun_induction consecutiveEntries layout table offset with
  | case1 offset fits ih =>
      rw [entriesFrom, List.find?_cons, ih]
      by_cases inner : offset + layout.sizeofHeader < table.size
      case pos =>
        rw [dif_pos ((inRange_iff_entryFits offset).mpr ⟨fits, inner⟩), List.find?_cons]
      case neg =>
        have whole : offset + layout.sizeofHeader +
            (headerAt layout table offset).imageLength.toNat ≤ table.size := fits
        have empty : (headerAt layout table offset).imageLength.toNat = 0 := by omega
        have skipped : wanted ⟨offset, headerAt layout table offset⟩ = false := by
          by_contra chosen
          have image := images _ (Bool.eq_true_of_not_eq_false chosen)
          exact image (BitVec.eq_of_toNat_eq empty)
        have outside : ∀ later, table.size ≤ later → entriesFrom layout table later = [] := by
          intro later ended
          rw [entriesFrom, dif_neg]
          intro both
          exact absurd both.1.1 (Nat.not_lt.mpr ended)
        rw [dif_neg (fun both => inner ((inRange_iff_entryFits offset).mp both).2), skipped,
          outside _ (by omega)]
  | case2 offset large =>
      rw [entriesFrom, dif_neg (fun both => large ((inRange_iff_entryFits offset).mp both).1)]

theorem verdictOf_vfctEntry (long : layout.sizeofVFCT ≤ table.size) :
    verdictOf layout table (vfctEntry layout ids strict table) =
      match (consecutiveEntries layout table (layout.vbiosImageOffset.value table.bytes).toNat).find?
          fun entry => entry.header.IsFor ids strict with
      | none => .absent
      | some entry =>
          if (entry.image layout table).Accepted then
            .found (entry.offset + layout.sizeofHeader) entry.header.imageLength.toNat
          else .absent := by
  have same : (fun entry : Entry => decide (entry.header.IsFor ids strict)) =
      fun entry => entry.header.selects ids strict := by
    funext entry
    rw [Bool.eq_iff_iff, decide_eq_true_iff, selects_iff]
  have images : ∀ entry : Entry, entry.header.selects ids strict = true →
      entry.header.imageLength ≠ 0 :=
    fun entry selected => ((selects_iff ids strict entry.header).mp selected).image
  rw [same, find_consecutiveEntries images, vfctEntry, if_neg (Nat.not_lt.mpr long)]
  cases (entriesFrom layout table (layout.vbiosImageOffset.value table.bytes).toNat).find?
    (fun entry => entry.header.selects ids strict) <;> rfl

end Reference

/--
`GetVBIOSFromVFCT` is the reference: the image it finds becomes `VBIOSData`, and without one nothing
changes.
-/
theorem getVBIOSFromVFCT_eq_reference (gpu : Gpu) {table : Image}
    (expert : gpu.platformExpert = true) (present : gpu.vfct = some table)
    (sized : 0 < gpu.layout.sizeofVFCT) (long : gpu.layout.sizeofVFCT ≤ table.size)
    (strict : Bool) (fetch : Fetch) :
    getVBIOSFromVFCT gpu strict fetch =
      match referenceImage gpu.layout gpu.ids strict table with
      | none => .ok (false, fetch)
      | some image =>
          if gpu.allocates (vfctSource strict) then
            .ok (true, { fetch with vbiosData := some ⟨vfctSource strict, image.contents⟩ })
          else .error .allocation := by
  have filled : table.size ≠ 0 := by omega
  simp only [getVBIOSFromVFCT, if_pos expert, present, if_neg filled,
    searchVFCT_value (gpu.vfctShort table present), verdictOf_vfctEntry gpu.ids strict long,
    referenceImage]
  cases (consecutiveEntries gpu.layout table (gpu.layout.vbiosImageOffset.value table.bytes).toNat).find?
    (fun entry => entry.header.IsFor gpu.ids strict) with
  | none => rfl
  | some entry =>
      by_cases accepted : (entry.image gpu.layout table).Accepted
      case neg => simp only [if_neg accepted]
      case pos =>
        simp only [if_pos accepted, withBytes]
        cases gpu.allocates (vfctSource strict) <;> rfl

section Example

open Inspection Inspect

def readDouble (offset : Nat) : Inspect (BitVec 32) := do
  let low ← readWord offset
  let high ← readWord (offset + 2)
  return high ++ low

def acpiLayout : VfctLayout where
  sizeofVFCT := 76
  vbiosImageOffset := readDouble 0x34
  sizeofHeader := 28
  header := do
    let pciBus ← readDouble 0
    let pciDevice ← readDouble 4
    let pciFunction ← readDouble 8
    let vendorID ← readWord 12
    let deviceID ← readWord 14
    let imageLength ← readDouble 24
    return ⟨pciBus, pciDevice, pciFunction, vendorID.setWidth 32, deviceID.setWidth 32, imageLength⟩
  positive := Nat.succ_pos 27

def exampleTable : Image where
  bytes := fun place =>
    if 0x68 ≤ place then exampleBytes (place - 0x68)
    else match place with
      | 0x34 => 0x4C
      | 0x4C => 0x04
      | 0x58 => 0x02
      | 0x59 => 0x10
      | 0x5A => 0x3F
      | 0x5B => 0x16
      | 0x64 => 0x4A
      | _ => 0
  size := 0xB2

def exampleVfctGpu : Gpu where
  layout := acpiLayout
  ids := ⟨0x1002, 0x163F, 4, 0, 0⟩
  binImage := none
  platformExpert := true
  vfct := some exampleTable
  vfctShort := fun _ same => Option.some.inj same ▸ (by decide : 0xB2 < 2 ^ 32)
  bar0 := none
  expansionROM := none
  atombiosImageSize := 0x20000
  imageSizeShort := by decide
  behindCopy := fun _ => 0
  allocates := fun _ => true

theorem getVBIOSFromVFCT_reference_example :
    getVBIOSFromVFCT exampleVfctGpu true ⟨none, 0, []⟩ =
      match referenceImage acpiLayout exampleVfctGpu.ids true exampleTable with
      | none => .ok (false, ⟨none, 0, []⟩)
      | some image => .ok (true, ⟨some ⟨.vfctStrict, image.contents⟩, 0, []⟩) :=
  getVBIOSFromVFCT_eq_reference exampleVfctGpu rfl rfl (by decide) (by decide) true ⟨none, 0, []⟩

end Example

end NootedDeck.Vbios
