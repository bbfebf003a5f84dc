import NootedDeck.Startup.Module

set_option autoImplicit false

namespace NootedDeck.LateInit

open Interleaving Mmio

section Registers

def gcBase0 : BitVec 32 := 0x2000
def nbioBase2 : BitVec 32 := 0xD20

structure Constants where
  pcieIndex2 : BitVec 32
  pcieData2 : BitVec 32
  distinct : pcieIndex2 ≠ pcieData2
  mcVmFbOffset : BitVec 32
  rccDev0Epf0Strap0 : BitVec 32
  atiRevIdMask : BitVec 32
  atiRevIdShift : Nat
  atiRevIdWidth : Nat
  atiRevIdFits : atiRevIdShift + atiRevIdWidth ≤ 32
  atiRevIdField : atiRevIdMask = BitVec.ofNat 32 (2 ^ atiRevIdWidth - 1) <<< atiRevIdShift
  fbOffsetPlain : gcBase0 + mcVmFbOffset ≠ pcieIndex2 ∧ gcBase0 + mcVmFbOffset ≠ pcieData2
  strapPlain : nbioBase2 + rccDev0Epf0Strap0 ≠ pcieIndex2 ∧ nbioBase2 + rccDev0Epf0Strap0 ≠ pcieData2

variable (constants : Constants)

-- The shortest mapping that holds the pair: the device itself knows of no length.
def Constants.pair : Aperture where
  length := max (constants.pcieIndex2.toNat * 4) (constants.pcieData2.toNat * 4) + 1
  pcieIndex2 := constants.pcieIndex2
  pcieData2 := constants.pcieData2
  distinct := constants.distinct
  indexMapped := by omega
  dataMapped := by omega

def Mapped (length : Nat) (region : BitVec 32) : Prop := region.toNat * 4 + 4 ≤ length

instance (length : Nat) (region : BitVec 32) : Decidable (Mapped length region) := Nat.decLe _ _

def loadWord (length : Nat) (region : BitVec 32) : Program Device (BitVec 32) :=
  if Mapped length region then .read fun device => .done (device.load constants.pair region)
  else .panic

def storeWord (length : Nat) (region value : BitVec 32) : Program Device Unit :=
  if Mapped length region then .modify (Device.store constants.pair region value) else .panic

def readRegion32Bit (length : Nat) (region : BitVec 32) : Program Device (BitVec 32) :=
  if region.toNat * 4 < length then loadWord constants length region
  else do
    storeWord constants length constants.pcieIndex2 region
    loadWord constants length constants.pcieData2

def Readable (length : Nat) (region : BitVec 32) : Prop :=
  if region.toNat * 4 < length then Mapped length region
  else Mapped length constants.pcieIndex2 ∧ Mapped length constants.pcieData2

instance (length : Nat) (region : BitVec 32) : Decidable (Readable constants length region) := by
  unfold Readable
  infer_instance

variable {constants} {length : Nat} {region : BitVec 32}

theorem readRegion32Bit_run (readable : Readable constants length region)
    (plain : region ≠ constants.pcieIndex2 ∧ region ≠ constants.pcieData2) (device : Device) :
    ∃ selector, (readRegion32Bit constants length region).run device =
      some (device.registers region, { device with selector }) := by
  have loaded : device.load constants.pair region = device.registers region := by
    have notIndex : region ≠ constants.pair.pcieIndex2 := plain.1
    have notData : region ≠ constants.pair.pcieData2 := plain.2
    rw [Device.load, if_neg notIndex, if_neg notData]
  unfold readRegion32Bit
  unfold Readable at readable
  split_ifs at readable with covered
  · exists device.selector
    rw [if_pos covered, loadWord, if_pos readable]
    exact congrArg (fun value => some (value, device)) loaded
  · exists region
    rw [if_neg covered, storeWord, if_pos readable.1, loadWord, if_pos readable.2]
    have selected : Device.store constants.pair constants.pcieIndex2 region device =
        { device with selector := region } := Device.store_index constants.pair region device
    have answered := Device.load_data constants.pair { device with selector := region }
    simp only [Program.run_bind, Program.run_modify, selected, Option.bind_some]
    exact congrArg (fun value => some (value, { device with selector := region })) answered

theorem readRegion32Bit_faults (hidden : ¬Readable constants length region) (device : Device) :
    (readRegion32Bit constants length region).run device = none := by
  unfold readRegion32Bit
  unfold Readable at hidden
  split_ifs at hidden with covered
  · rw [if_pos covered, loadWord, if_neg hidden]
    rfl
  · rw [if_neg covered, storeWord, loadWord]
    by_cases indexed : Mapped length constants.pcieIndex2
    · have unmapped : ¬Mapped length constants.pcieData2 := fun mapped => hidden ⟨indexed, mapped⟩
      rw [if_pos indexed, if_neg unmapped]
      rfl
    · rw [if_neg indexed]
      rfl

theorem readRegion32Bit_eq_aperture {aperture : Aperture}
    (pair : aperture.pcieIndex2 = constants.pcieIndex2 ∧ aperture.pcieData2 = constants.pcieData2)
    (readable : Readable constants aperture.length region) :
    readRegion32Bit constants aperture.length region = Mmio.readRegion32Bit aperture region := by
  obtain ⟨length, index, data, distinct, indexMapped, dataMapped⟩ := aperture
  obtain ⟨rfl, rfl⟩ : index = constants.pcieIndex2 ∧ data = constants.pcieData2 := pair
  unfold readRegion32Bit Mmio.readRegion32Bit
  unfold Readable at readable
  split_ifs at readable with covered
  · rw [if_pos covered, if_pos (by exact covered), loadWord, if_pos readable]
    rfl
  · rw [if_neg covered, if_neg (by exact covered), storeWord, if_pos readable.1, loadWord,
      if_pos readable.2]
    rfl

end Registers

section Calls

structure Late where
  memoryEnable : Bool
  busMasterEnable : Bool
  rMMIO : Option Nat
  fbOffset : BitVec 32
  deviceRev : BitVec 32
  device : Device

def Late.withDevice (device : Device) (late : Late) : Late := { late with device }

variable (constants : Constants)

def readLate (length : Nat) (region : BitVec 32) : Program Late (BitVec 32) :=
  (readRegion32Bit constants length region).focus Late.device Late.withDevice

def initHWLate (mapping : Option Nat) : Program Late Unit := do
  let late ← .get
  if late.rMMIO.isSome then pure ()
  else do
    .modify fun late => { late with memoryEnable := true, busMasterEnable := true, rMMIO := mapping }
    match mapping with
    | none => .panic
    | some length => do
        let fbOffset ← readLate constants length (gcBase0 + constants.mcVmFbOffset)
        -- shifted in 64 bits and kept in a field of 32
        .modify fun late => { late with fbOffset := (fbOffset.setWidth 64 <<< 24).setWidth 32 }
        let strap0 ← readLate constants length (nbioBase2 + constants.rccDev0Epf0Strap0)
        .modify fun late =>
          { late with deviceRev := (strap0 &&& constants.atiRevIdMask) >>> constants.atiRevIdShift }

variable {constants} {length : Nat} {region : BitVec 32}

theorem readLate_run (late : Late) :
    (readLate constants length region).run late =
      ((readRegion32Bit constants length region).run late.device).map fun result =>
        (result.1, late.withDevice result.2) := by
  apply Program.run_focus
  · exact fun _ _ => rfl
  · exact fun _ _ _ => rfl
  · exact fun _ => rfl

theorem initHWLate_again {late : Late} (mapped : late.rMMIO.isSome = true) (mapping : Option Nat) :
    (initHWLate constants mapping).run late = some ((), late) := by
  simp only [initHWLate, Program.run_bind, Program.run_get, Option.bind_some, if_pos mapped,
    Program.run_pure]

-- `rMMIO` is dereferenced without a look at it.
theorem initHWLate_unmapped {late : Late} (fresh : late.rMMIO = none) :
    (initHWLate constants none).run late = none := by
  simp only [initHWLate, Program.run_bind, Program.run_get, Option.bind_some, fresh,
    Option.isSome_none, Bool.false_eq_true, if_false, Program.run_modify, Program.run_panic]

theorem initHWLate_fresh {late : Late} (fresh : late.rMMIO = none) :
    (initHWLate constants (some length)).run late =
      ((readRegion32Bit constants length (gcBase0 + constants.mcVmFbOffset)).run late.device).bind
        fun fbOffset =>
          ((readRegion32Bit constants length (nbioBase2 + constants.rccDev0Epf0Strap0)).run
            fbOffset.2).map fun strap0 => ((),
              { memoryEnable := true
                busMasterEnable := true
                rMMIO := some length
                fbOffset := (fbOffset.1.setWidth 64 <<< 24).setWidth 32
                deviceRev := (strap0.1 &&& constants.atiRevIdMask) >>> constants.atiRevIdShift
                device := strap0.2 }) := by
  simp only [initHWLate, Program.run_bind, Program.run_get, Option.bind_some, fresh,
    Option.isSome_none, Bool.false_eq_true, if_false, Program.run_modify, readLate_run]
  cases (readRegion32Bit constants length (gcBase0 + constants.mcVmFbOffset)).run late.device with
  | none => rfl
  | some fbOffset =>
      simp only [Option.map_some, Option.bind_some, Late.withDevice]
      cases (readRegion32Bit constants length (nbioBase2 + constants.rccDev0Epf0Strap0)).run
          fbOffset.2 <;> rfl

theorem initHWLate_first {late : Late} (fresh : late.rMMIO = none)
    (fbOffset : Readable constants length (gcBase0 + constants.mcVmFbOffset))
    (strap0 : Readable constants length (nbioBase2 + constants.rccDev0Epf0Strap0)) :
    ∃ selector, (initHWLate constants (some length)).run late = some ((),
      { memoryEnable := true
        busMasterEnable := true
        rMMIO := some length
        fbOffset := ((late.device.registers (gcBase0 + constants.mcVmFbOffset)).setWidth 64
          <<< 24).setWidth 32
        deviceRev := (late.device.registers (nbioBase2 + constants.rccDev0Epf0Strap0) &&&
          constants.atiRevIdMask) >>> constants.atiRevIdShift
        device := { late.device with selector } }) := by
  obtain ⟨first, firstRead⟩ := readRegion32Bit_run fbOffset constants.fbOffsetPlain late.device
  obtain ⟨second, secondRead⟩ := readRegion32Bit_run strap0 constants.strapPlain
    { late.device with selector := first }
  exists second
  simp only [initHWLate_fresh fresh, firstRead, Option.bind_some, secondRead, Option.map_some]

theorem initHWLate_faults {late : Late} (fresh : late.rMMIO = none)
    (hidden : ¬(Readable constants length (gcBase0 + constants.mcVmFbOffset) ∧
      Readable constants length (nbioBase2 + constants.rccDev0Epf0Strap0))) :
    (initHWLate constants (some length)).run late = none := by
  rw [initHWLate_fresh fresh]
  by_cases fbOffset : Readable constants length (gcBase0 + constants.mcVmFbOffset)
  · have strap0 : ¬Readable constants length (nbioBase2 + constants.rccDev0Epf0Strap0) :=
      fun readable => hidden ⟨fbOffset, readable⟩
    obtain ⟨first, firstRead⟩ := readRegion32Bit_run fbOffset constants.fbOffsetPlain late.device
    simp only [firstRead, Option.bind_some, readRegion32Bit_faults strap0, Option.map_none]
  · simp only [readRegion32Bit_faults fbOffset, Option.bind_none]

theorem startup_initHWLate_run {deck : Startup.Deck} (gpu : deck.pointers.gpu.isSome = true)
    (mapping : Option Aperture) {aperture : Aperture}
    (mapped : deck.pointers.rMMIO.or mapping = some aperture) :
    ∃ loaded, (Startup.initHWLate mapping).run deck = some ((), loaded) ∧
      loaded.pointers.rMMIO = some aperture := by
  cases present : deck.pointers.rMMIO with
  | some earlier =>
      rw [present] at mapped
      cases mapped
      simp only [Startup.initHWLate, Startup.use, Program.run_bind, Program.run_modify,
        Program.run_get, Option.bind_some, present, Option.isSome_some, if_true, Program.run_pure]
      exact ⟨_, rfl, present⟩
  | none =>
      rw [present] at mapped
      cases mapped
      simp only [Startup.initHWLate, Startup.use, Startup.mapRegisters, Startup.panicUnless,
        Program.run_bind, Program.run_modify, Program.run_get, Option.bind_some, present, gpu,
        Option.isSome_none, Option.isSome_some, Bool.false_eq_true, if_false, if_true,
        Program.run_pure]
      exact ⟨_, rfl, rfl⟩

theorem initHWLate_refines {late after : Late} {deck : Startup.Deck} {mapping : Option Aperture}
    (same : late.rMMIO = deck.pointers.rMMIO.map (·.length))
    (gpu : deck.pointers.gpu.isSome = true)
    (ran : (initHWLate constants (mapping.map (·.length))).run late = some ((), after)) :
    ∃ loaded, (Startup.initHWLate mapping).run deck = some ((), loaded) ∧
      after.rMMIO = loaded.pointers.rMMIO.map (·.length) := by
  cases mapped : deck.pointers.rMMIO with
  | some aperture =>
      rw [mapped] at same
      rw [initHWLate_again (by rw [same]; rfl)] at ran
      cases ran
      obtain ⟨loaded, called, kept⟩ := startup_initHWLate_run gpu mapping (by rw [mapped]; rfl)
      exact ⟨loaded, called, by rw [kept, same]⟩
  | none =>
      have fresh : late.rMMIO = none := by rw [same, mapped, Option.map_none]
      cases mapping with
      | none =>
          rw [Option.map_none, initHWLate_unmapped fresh] at ran
          cases ran
      | some aperture =>
          obtain ⟨loaded, called, kept⟩ :=
            startup_initHWLate_run gpu (some aperture) (by rw [mapped]; rfl)
          by_cases readable : Readable constants aperture.length (gcBase0 + constants.mcVmFbOffset) ∧
            Readable constants aperture.length (nbioBase2 + constants.rccDev0Epf0Strap0)
          case neg =>
            rw [Option.map_some, initHWLate_faults fresh readable] at ran
            cases ran
          case pos =>
            obtain ⟨selector, first⟩ := initHWLate_first fresh readable.1 readable.2
            rw [Option.map_some, first] at ran
            cases ran
            exact ⟨loaded, called, by rw [kept]; rfl⟩

end Calls

section Values

theorem fbOffset_full_iff (register : BitVec 32) :
    ((register.setWidth 64 <<< 24).setWidth 32).toNat = register.toNat * 2 ^ 24 ↔
      register.toNat < 2 ^ 8 := by
  have bound := register.isLt
  simp only [BitVec.toNat_setWidth, BitVec.toNat_shiftLeft, Nat.shiftLeft_eq]
  omega

theorem deviceRev_eq_field (constants : Constants) (strap0 : BitVec 32) :
    ((strap0 &&& constants.atiRevIdMask) >>> constants.atiRevIdShift).toNat =
      strap0.toNat / 2 ^ constants.atiRevIdShift % 2 ^ constants.atiRevIdWidth := by
  have widthPositive : 0 < 2 ^ constants.atiRevIdWidth := Nat.two_pow_pos _
  have whole : 2 ^ constants.atiRevIdWidth * 2 ^ constants.atiRevIdShift ≤ 2 ^ 32 := by
    rw [← Nat.pow_add, Nat.add_comm]
    exact Nat.pow_le_pow_right (by decide) constants.atiRevIdFits
  have narrow : 2 ^ constants.atiRevIdWidth ≤ 2 ^ 32 :=
    Nat.pow_le_pow_right (by decide) (Nat.le_of_add_left_le constants.atiRevIdFits)
  have below : (2 ^ constants.atiRevIdWidth - 1) <<< constants.atiRevIdShift < 2 ^ 32 := by
    rw [Nat.shiftLeft_eq]
    calc (2 ^ constants.atiRevIdWidth - 1) * 2 ^ constants.atiRevIdShift
      _ < 2 ^ constants.atiRevIdWidth * 2 ^ constants.atiRevIdShift :=
        Nat.mul_lt_mul_of_pos_right (by omega) (Nat.two_pow_pos _)
      _ ≤ 2 ^ 32 := whole
  have ones : (2 ^ constants.atiRevIdWidth - 1) % 2 ^ 32 = 2 ^ constants.atiRevIdWidth - 1 :=
    Nat.mod_eq_of_lt (by omega)
  have mask : constants.atiRevIdMask.toNat =
      (2 ^ constants.atiRevIdWidth - 1) <<< constants.atiRevIdShift := by
    rw [constants.atiRevIdField, BitVec.toNat_shiftLeft, BitVec.toNat_ofNat, ones,
      Nat.mod_eq_of_lt below]
  rw [BitVec.toNat_ushiftRight, BitVec.toNat_and, mask, Nat.shiftRight_and_distrib,
    Nat.shiftLeft_shiftRight, Nat.and_two_pow_sub_one_eq_mod, Nat.shiftRight_eq_div_pow]

end Values

section Order

structure LateCall where
  mapping : Option Nat
  device : Device

variable (constants : Constants)

def lateCall (call : LateCall) : Program Late Unit := do
  .modify fun late => late.withDevice call.device
  initHWLate constants call.mapping

def lateCalls : List LateCall → Program Late Unit
  | [] => pure ()
  | call :: rest => do
      lateCall constants call
      lateCalls rest

structure Settles (late : Late) (first : LateCall) (after : Late) : Prop where
  returns : (lateCall constants first).run late = some ((), after)
  fbOffset : after.fbOffset.toNat =
    (first.device.registers (gcBase0 + constants.mcVmFbOffset)).toNat * 2 ^ 24
  deviceRev : after.deviceRev.toNat =
    (first.device.registers (nbioBase2 + constants.rccDev0Epf0Strap0)).toNat /
      2 ^ constants.atiRevIdShift % 2 ^ constants.atiRevIdWidth
  later : ∀ calls, (lateCalls constants calls).run after =
    some ((), after.withDevice ((calls.getLast?.map (·.device)).getD after.device))

variable {constants}

theorem lateCalls_again {late : Late} (mapped : late.rMMIO.isSome = true) (calls : List LateCall) :
    (lateCalls constants calls).run late =
      some ((), late.withDevice ((calls.getLast?.map (·.device)).getD late.device)) := by
  induction calls generalizing late with
  | nil => rfl
  | cons call rest ih =>
      have kept : Option.isSome (Late.rMMIO (late.withDevice call.device)) = true := mapped
      simp only [lateCalls, lateCall, Program.run_bind, Program.run_modify, Option.bind_some,
        initHWLate_again kept, ih kept]
      cases rest with
      | nil => rfl
      | cons next rest =>
          rw [List.getLast?_cons_cons]
          cases found : (next :: rest).getLast? with
          | none => simp at found
          | some last => rfl

/--
Whatever the length of the mapping, the first call reads both registers if they can be read at all.
It keeps the whole offset exactly if the register holds no more than eight bits.
-/
theorem late_init_iff (constants : Constants) (late : Late) (fresh : late.rMMIO = none)
    (length : Nat) (device : Device) :
    (∃ after, Settles constants late ⟨some length, device⟩ after) ↔
      Readable constants length (gcBase0 + constants.mcVmFbOffset) ∧
        Readable constants length (nbioBase2 + constants.rccDev0Epf0Strap0) ∧
        (device.registers (gcBase0 + constants.mcVmFbOffset)).toNat < 2 ^ 8 := by
  have begun : Late.rMMIO (late.withDevice device) = none := fresh
  have called : (lateCall constants ⟨some length, device⟩).run late =
      (initHWLate constants (some length)).run (late.withDevice device) := rfl
  by_cases readable : Readable constants length (gcBase0 + constants.mcVmFbOffset) ∧
    Readable constants length (nbioBase2 + constants.rccDev0Epf0Strap0)
  case neg =>
    have faults := initHWLate_faults begun readable
    constructor
    · rintro ⟨after, settles⟩
      have returns := settles.returns
      rw [called, faults] at returns
      cases returns
    · exact fun holds => absurd ⟨holds.1, holds.2.1⟩ readable
  case pos =>
    obtain ⟨fbOffset, strap0⟩ := readable
    obtain ⟨selector, ran⟩ := initHWLate_first begun fbOffset strap0
    rw [← called] at ran
    constructor
    · rintro ⟨after, settles⟩
      have returns := settles.returns
      rw [ran] at returns
      cases returns
      exact ⟨fbOffset, strap0, (fbOffset_full_iff _).mp settles.fbOffset⟩
    · rintro ⟨-, -, small⟩
      exact ⟨_,
        { returns := ran
          fbOffset := (fbOffset_full_iff _).mpr small
          deviceRev := deviceRev_eq_field constants _
          later := lateCalls_again rfl }⟩

section Example

def exampleRegisters : Constants where
  pcieIndex2 := 0xE
  pcieData2 := 0xF
  distinct := exampleAperture.distinct
  mcVmFbOffset := 0x5A7
  rccDev0Epf0Strap0 := 0xF
  atiRevIdMask := 0xF000000
  atiRevIdShift := 24
  atiRevIdWidth := 4
  atiRevIdFits := by decide
  atiRevIdField := by decide
  fbOffsetPlain := by decide
  strapPlain := by decide

def exampleLate : Late := ⟨false, false, none, 0, 0, ⟨0, fun _ => 0⟩⟩

theorem late_init_example :
    ∃ after, Settles exampleRegisters exampleLate ⟨some 0x80000, ⟨0, fun _ => 0xF4⟩⟩ after :=
  (late_init_iff exampleRegisters exampleLate rfl 0x80000 ⟨0, fun _ => 0xF4⟩).mpr (by decide)

-- The frame buffer at four gigabytes: the field keeps none of the offset.
theorem late_init_truncated_example :
    ¬∃ after, Settles exampleRegisters exampleLate ⟨some 0x80000, ⟨0, fun _ => 0x100⟩⟩ after := by
  rintro ⟨after, settles⟩
  have returns : some ((), (⟨true, true, some 0x80000, 0, 0, ⟨0, fun _ => 0x100⟩⟩ : Late)) =
      some ((), after) := settles.returns
  cases returns
  exact absurd settles.fbOffset (by decide)

end Example

end Order

end NootedDeck.LateInit
