import NootedDeck.Hooks.Wrappers
import NootedDeck.Startup.Module

set_option autoImplicit false

namespace NootedDeck.Startup

open Interleaving

section Attributes

inductive Attribute where
  | isCatalina
  | isBigSurPlus
  | isMonterey
  | isMontereyPlus
  | isVentura
  | isVenturaPlus
  | isVentura1304Based
  | isVentura1304Plus
  | isSonoma1404Plus
  | isAerith
  | isSephiroth
deriving DecidableEq

abbrev Attributes := BitVec 16

def Attribute.mask (bit : Attribute) : Attributes := 1 <<< bit.ctorIdx

def Attributes.is (value : Attributes) (bit : Attribute) : Bool := value &&& bit.mask != 0

def Attributes.set (value : Attributes) (bit : Attribute) : Attributes := value ||| bit.mask

-- `none` is the panic
def Attributes.getChipRevision (value : Attributes) : Option String :=
  if value.is .isAerith then some "Aerith"
  else if value.is .isSephiroth then some "Sephiroth"
  else none

def versionAttributes (kernelVersion : KernelVersion) (minor : Nat) : Option (List Attribute) :=
  match kernelVersion with
  | .bigSur => some [.isBigSurPlus]
  | .monterey => some [.isBigSurPlus, .isMonterey, .isMontereyPlus]
  | .ventura =>
      some ([.isBigSurPlus, .isMontereyPlus, .isVentura, .isVenturaPlus] ++
        if 5 ≤ minor then [.isVentura1304Based, .isVentura1304Plus] else [])
  | .sonoma =>
      some ([.isBigSurPlus, .isMontereyPlus, .isVenturaPlus, .isVentura1304Plus] ++
        if 4 ≤ minor then [.isSonoma1404Plus] else [])
  | .sequoia | .tahoe =>
      some [.isBigSurPlus, .isMontereyPlus, .isVenturaPlus, .isVentura1304Plus, .isSonoma1404Plus]
  | .unknown => none

def startAttributes (kernelVersion : KernelVersion) (minor : Nat) : Option Attributes :=
  (versionAttributes kernelVersion minor).map (List.foldl Attributes.set 0)

theorem startAttributes_chip {kernelVersion : KernelVersion} {minor : Nat} {value : Attributes}
    (started : startAttributes kernelVersion minor = some value) :
    value.is .isAerith = false ∧ value.is .isSephiroth = false := by
  cases kernelVersion <;> simp only [startAttributes, versionAttributes, Option.map_some,
    Option.map_none, Option.some.injEq, reduceCtorEq] at started <;> subst started
  case ventura => split <;> decide
  case sonoma => split <;> decide
  all_goals decide

end Attributes

section SKU

structure PciConfig extends PciDevice where
  revisionID : BitVec 32
  subsystemID : BitVec 32
  subsystemVendor : BitVec 32

inductive MatchType where
  | revOnly
  | revSubsys
deriving DecidableEq

structure SKU where
  mt : MatchType
  revision : BitVec 16
  subsystemID : BitVec 16
  subsystemVendor : BitVec 16
  number : String

structure DevicePair where
  deviceID : BitVec 16
  skus : List SKU
  count : Nat
  fallback : String

def dev163F : List SKU :=
  [⟨.revOnly, 0xAE, 0x0000, 0x0000, "AMD Custom GPU 0405"⟩,
    ⟨.revSubsys, 0xAE, 0x0123, 0x1002, "AMD Custom GPU 0405"⟩]

def dev1435 : List SKU :=
  [⟨.revOnly, 0xAE, 0x0000, 0x0000, "AMD Custom GPU 0932"⟩,
    ⟨.revSubsys, 0xAE, 0x0123, 0x1002, "AMD Custom GPU 0932"⟩]

-- The counts are the table's size divided by itself.
def devices : List DevicePair :=
  [⟨0x163F, dev163F, 1, "AMD Custom GPU"⟩, ⟨0x1435, dev1435, 1, "AMD Custom GPU"⟩]

def SKU.fits (sku : SKU) (config : PciConfig) : Bool :=
  !(sku.revision.setWidth 32 != config.revisionID ||
    (sku.mt == .revSubsys &&
      (sku.subsystemID.setWidth 32 != config.subsystemID ||
        sku.subsystemVendor.setWidth 32 != config.subsystemVendor)))

def DevicePair.number (pair : DevicePair) (config : PciConfig) : String :=
  match (pair.skus.take pair.count).find? (SKU.fits · config) with
  | some sku => sku.number
  | none => pair.fallback

def getSKUForDevice (config : PciConfig) : Option String :=
  (devices.find? fun pair => pair.deviceID.setWidth 32 == config.deviceID).map
    (DevicePair.number · config)

theorem getSKUForDevice_isSome (config : PciConfig) :
    (getSKUForDevice config).isSome = true ↔
      config.deviceID = 0x163F ∨ config.deviceID = 0x1435 := by
  simp only [getSKUForDevice, Option.isSome_map, List.find?_isSome, devices, List.mem_cons,
    List.not_mem_nil, or_false, exists_eq_or_imp, exists_eq_left, beq_iff_eq]
  exact Iff.or eq_comm eq_comm

end SKU

section Chips

inductive Chip where
  | aerith
  | sephiroth
deriving DecidableEq

def Chip.name : Chip → String
  | .aerith => "Aerith"
  | .sephiroth => "Sephiroth"

def navi10HDMIID : BitVec 32 := 0xAB38 <<< 16 ||| Hooks.amdVendorID.setWidth 32
def aerithHDMIID : BitVec 32 := Hooks.aerithHDMIDeviceID <<< 16 ||| Hooks.amdVendorID.setWidth 32
def sephirothHDMIID : BitVec 32 :=
  Hooks.sephirothHDMIDeviceID <<< 16 ||| Hooks.amdVendorID.setWidth 32

def Chip.hdmiID : Chip → BitVec 32
  | .aerith => aerithHDMIID
  | .sephiroth => sephirothHDMIID

def selectChip (deviceID : BitVec 32) : Option Chip :=
  if deviceID = 0x163F then some .aerith
  else if deviceID = 0x1640 then some .sephiroth
  else none

structure Identity where
  attributes : Attributes
  -- `Attributes.Variant`, which is not one of the bits
  variant : Option Chip
  deviceID : BitVec 32
  pciRev : BitVec 32
  model : Option String
  -- the probe patches, what they look for and what they put there
  probes : List (BitVec 32 × BitVec 32)

def updateProperties (config : PciConfig) (identity : Identity) : Identity :=
  match getSKUForDevice config with
  | none => identity
  | some sku => { identity with model := some sku }

def identify (config : PciConfig) (identity : Identity) : Option Identity :=
  let identity := updateProperties config identity
  match selectChip config.deviceID with
  | none => none
  | some chip =>
      some { identity with
        deviceID := config.deviceID
        variant := some chip
        pciRev := config.revisionID }

def Identity.probeRepl (identity : Identity) : BitVec 32 :=
  if identity.attributes.is .isAerith then aerithHDMIID else sephirothHDMIID

end Chips

section Run

structure Machine where
  deviceInfo : Bool
  videoBuiltIn : Option PciConfig
  granted : Hook → Bool

def Machine.hardware (machine : Machine) : Hardware :=
  ⟨machine.deviceInfo, machine.videoBuiltIn.map PciConfig.toPciDevice, machine.granted⟩

structure Whole where
  deck : Deck
  identity : Identity

def patched (boot : Boot) (minor : Nat) (machine : Machine) : Option Whole := do
  let started ← (startModule boot).run Deck.initial
  let attributes ← startAttributes boot.kernelVersion minor
  let config ← machine.videoBuiltIn
  let found ← (processPatcher machine.hardware).run started.2
  let identity ← identify config ⟨attributes, none, 0, 0, none, []⟩
  pure ⟨found.2, identity⟩

def probes (deck : Deck) (load : KextLoad) : Prop :=
  load.callback = .vanGoghAppleGFXHDA ∧ load.kext = .appleGFXHDA ∧ load.callback ∈ deck.registered

instance (deck : Deck) (load : KextLoad) : Decidable (probes deck load) :=
  inferInstanceAs (Decidable (_ ∧ _ ∧ _))

def kextStep (whole : Whole) (load : KextLoad) : Option Whole := do
  let loaded ← (kextLoaded load).run whole.deck
  let identity := whole.identity
  pure ⟨loaded.2, if probes whole.deck load then
    { identity with probes := identity.probes ++ [(navi10HDMIID, identity.probeRepl)] } else identity⟩

def kextSteps (whole : Whole) (loads : List KextLoad) : Option Whole := loads.foldlM kextStep whole

def reached (boot : Boot) (minor : Nat) (machine : Machine) (loads : List KextLoad) : Option Whole :=
  (patched boot minor machine).bind (kextSteps · loads)

end Run

section Agreement

def Chip.bit : Chip → Attribute
  | .aerith => .isAerith
  | .sephiroth => .isSephiroth

def switched (boot : Boot) (machine : Machine) : Option PciConfig :=
  if boot.kernelVersion ≠ .unknown ∧ machine.deviceInfo = true then
    machine.videoBuiltIn.filter (·.vendorID == 0x1002)
  else none

structure SameIdentity (boot : Boot) (minor : Nat) (machine : Machine) : Prop where
  known : ∀ config ∈ switched boot machine, ∀ identity,
    (identify config identity).isSome = (getSKUForDevice config).isSome
  chip : ∀ loads whole, reached boot minor machine loads = some whole →
    ∃ chip, whole.identity.variant = some chip ∧
      (∀ other : Chip, whole.identity.attributes.is other.bit = decide (other = chip)) ∧
      whole.identity.attributes.getChipRevision = some chip.name ∧
      ∀ probe ∈ whole.identity.probes, probe.2 = chip.hdmiID

theorem identify_isSome (config : PciConfig) (identity : Identity) :
    (identify config identity).isSome = true ↔
      config.deviceID = 0x163F ∨ config.deviceID = 0x1640 := by
  have chosen : (identify config identity).isSome = (selectChip config.deviceID).isSome := by
    simp only [identify]
    cases selectChip config.deviceID <;> rfl
  simp only [chosen, selectChip]
  split_ifs <;> simp only [Option.isSome] <;> tauto

theorem identify_attributes {config : PciConfig} {identity final : Identity}
    (done : identify config identity = some final) : final.attributes = identity.attributes := by
  simp only [identify, updateProperties] at done
  cases chip : selectChip config.deviceID <;> cases sku : getSKUForDevice config <;>
    simp only [chip, sku, reduceCtorEq, Option.some.injEq] at done
  all_goals simp [← done]

theorem startModule_run_isSome (boot : Boot) :
    ((startModule boot).run Deck.initial).isSome = (boot.kernelVersion != .unknown) := by
  cases version : boot.kernelVersion <;> simp [startModule, panicUnless, version, Deck.initial]

theorem processPatcher_run_isSome (hardware : Hardware) (deck : Deck) :
    ((processPatcher hardware).run deck).isSome =
      (hardware.deviceInfo && knownDevice hardware.videoBuiltIn &&
        hardware.granted .wrapSafeMetaCast && hardware.granted .wrapAddDrivers) := by
  simp only [processPatcher, panicUnless, routeAll, routeWhileGranted, installHook]
  cases hardware.deviceInfo <;> cases knownDevice hardware.videoBuiltIn <;>
    cases hardware.granted .wrapSafeMetaCast <;> cases hardware.granted .wrapAddDrivers <;> simp

theorem startAttributes_isSome (kernelVersion : KernelVersion) (minor : Nat) :
    (startAttributes kernelVersion minor).isSome = (kernelVersion != .unknown) := by
  cases kernelVersion <;> rfl

theorem patched_eq_some {boot : Boot} {minor : Nat} {machine : Machine} {whole : Whole} :
    patched boot minor machine = some whole ↔
      ∃ started, (startModule boot).run Deck.initial = some started ∧
      ∃ attributes, startAttributes boot.kernelVersion minor = some attributes ∧
      ∃ config, machine.videoBuiltIn = some config ∧
      ∃ found, (processPatcher machine.hardware).run started.2 = some found ∧
      ∃ identity, identify config ⟨attributes, none, 0, 0, none, []⟩ = some identity ∧
        ⟨found.2, identity⟩ = whole := by
  simp only [patched, bind, pure, Option.bind_eq_some_iff, Option.some.injEq]

theorem patched_attributes {boot : Boot} {minor : Nat} {machine : Machine} {whole : Whole}
    (done : patched boot minor machine = some whole) :
    startAttributes boot.kernelVersion minor = some whole.identity.attributes := by
  obtain ⟨_, _, attributes, started, config, _, _, _, identity, identified, rfl⟩ :=
    patched_eq_some.mp done
  simpa only [identify_attributes identified] using started

theorem mem_switched {boot : Boot} {machine : Machine} {config : PciConfig} :
    config ∈ switched boot machine ↔
      boot.kernelVersion ≠ .unknown ∧ machine.deviceInfo = true ∧
        machine.videoBuiltIn = some config ∧ config.vendorID = 0x1002 := by
  simp only [switched]
  split
  case isTrue both => simp [both, Option.filter_eq_some_iff]
  case isFalse neither =>
    simp only [Option.mem_def, reduceCtorEq, false_iff]
    tauto

theorem patched_isSome (boot : Boot) (minor : Nat) (machine : Machine) :
    (patched boot minor machine).isSome = true ↔
      ∃ config ∈ switched boot machine,
        (config.deviceID = 0x163F ∨ config.deviceID = 0x1640) ∧
          machine.granted .wrapSafeMetaCast = true ∧ machine.granted .wrapAddDrivers = true := by
  constructor
  case mp =>
    intro completes
    obtain ⟨whole, done⟩ := Option.isSome_iff_exists.mp completes
    obtain ⟨started, loaded, _, _, config, present, found, processed, _, _, _⟩ :=
      patched_eq_some.mp done
    have version := startModule_run_isSome boot
    have passed := processPatcher_run_isSome machine.hardware started.2
    rw [loaded] at version
    rw [processed] at passed
    simp only [Machine.hardware, present, knownDevice, Option.isSome_some, Option.map_some,
      eq_comm (a := true), Bool.and_eq_true, Bool.or_eq_true, beq_iff_eq, bne_iff_ne, ne_eq]
      at version passed
    obtain ⟨⟨⟨listed, vendor, device⟩, first⟩, second⟩ := passed
    exact ⟨config, mem_switched.mpr ⟨version, listed, present, vendor⟩, device, first, second⟩
  case mpr =>
    rintro ⟨config, member, device, first, second⟩
    obtain ⟨version, listed, present, vendor⟩ := mem_switched.mp member
    have known : knownDevice (machine.videoBuiltIn.map PciConfig.toPciDevice) = true := by
      simp only [present, Option.map_some, knownDevice, vendor, Bool.and_eq_true, Bool.or_eq_true,
        beq_iff_eq, device, and_self]
    obtain ⟨started, loaded⟩ : ∃ started, (startModule boot).run Deck.initial = some started :=
      Option.isSome_iff_exists.mp (by simp [startModule_run_isSome, version])
    obtain ⟨attributes, bits⟩ : ∃ bits, startAttributes boot.kernelVersion minor = some bits :=
      Option.isSome_iff_exists.mp (by simp [startAttributes_isSome, version])
    obtain ⟨found, processed⟩ : ∃ found,
        (processPatcher machine.hardware).run started.2 = some found :=
      Option.isSome_iff_exists.mp
        (by simp [processPatcher_run_isSome, Machine.hardware, listed, known, first, second])
    obtain ⟨identity, identified⟩ : ∃ identity,
        identify config ⟨attributes, none, 0, 0, none, []⟩ = some identity :=
      Option.isSome_iff_exists.mp ((identify_isSome _ _).mpr device)
    have done := patched_eq_some.mpr ⟨started, loaded, attributes, bits, config, present, found,
      processed, identity, identified, rfl⟩
    simp [done]

theorem kextStep_attributes {whole next : Whole} {load : KextLoad}
    (stepped : kextStep whole load = some next) :
    next.identity.attributes = whole.identity.attributes := by
  obtain ⟨loaded, _, same⟩ := Option.bind_eq_some_iff.mp stepped
  cases same
  simp only
  split <;> rfl

theorem kextSteps_attributes {whole final : Whole} {loads : List KextLoad}
    (ran : kextSteps whole loads = some final) :
    final.identity.attributes = whole.identity.attributes := by
  induction loads generalizing whole with
  | nil => cases ran; rfl
  | cons load rest ih =>
      obtain ⟨next, stepped, later⟩ := Option.bind_eq_some_iff.mp ran
      exact (ih later).trans (kextStep_attributes stepped)

theorem reached_attributes {boot : Boot} {minor : Nat} {machine : Machine} {loads : List KextLoad}
    {whole : Whole} (ran : reached boot minor machine loads = some whole) (chip : Chip) :
    whole.identity.attributes.is chip.bit = false := by
  obtain ⟨first, done, later⟩ := Option.bind_eq_some_iff.mp ran
  have clear := startAttributes_chip (patched_attributes done)
  simp only [kextSteps_attributes later]
  cases chip
  case aerith => exact clear.1
  case sephiroth => exact clear.2

/--
The four places agree only about devices `ProcessPatcher` gives up on: of the three IDs any of them
names, none is treated alike.
-/
theorem sameIdentity_iff (boot : Boot) (minor : Nat) (machine : Machine) :
    SameIdentity boot minor machine ↔
      ∀ config ∈ switched boot machine,
        config.deviceID ≠ 0x1640 ∧ config.deviceID ≠ 0x1435 ∧
          (config.deviceID = 0x163F →
            ¬ (machine.granted .wrapSafeMetaCast = true ∧ machine.granted .wrapAddDrivers = true)) := by
  constructor
  case mp =>
    intro same config member
    have tables : (config.deviceID = 0x163F ∨ config.deviceID = 0x1640) ↔
        (config.deviceID = 0x163F ∨ config.deviceID = 0x1435) := by
      have agree := same.known config member ⟨0, none, 0, 0, none, []⟩
      simp only [← identify_isSome config ⟨0, none, 0, 0, none, []⟩, ← getSKUForDevice_isSome, agree]
    have different : (0x163F : BitVec 32) ≠ 0x1640 ∧ (0x163F : BitVec 32) ≠ 0x1435 ∧
        (0x1640 : BitVec 32) ≠ 0x1435 := by decide
    constructor
    · rintro sephiroth
      simp only [sephiroth, or_true, true_iff] at tables
      rcases tables with aerith | other
      · exact different.1 aerith.symm
      · exact different.2.2 other
    constructor
    · rintro other
      simp only [other, or_true, iff_true] at tables
      rcases tables with aerith | sephiroth
      · exact different.2.1 aerith.symm
      · exact different.2.2 sephiroth.symm
    · rintro aerith granted
      have completes := (patched_isSome boot minor machine).mpr
        ⟨config, member, Or.inl aerith, granted⟩
      obtain ⟨whole, done⟩ := Option.isSome_iff_exists.mp completes
      have ran : reached boot minor machine [] = some whole := by simp [reached, done, kextSteps]
      obtain ⟨chip, _, bits, _⟩ := same.chip [] whole ran
      have set := bits chip
      simp [reached_attributes ran chip] at set
  case mpr =>
    intro apart
    constructor
    · intro config member identity
      obtain ⟨sephiroth, other, _⟩ := apart config member
      rw [Bool.eq_iff_iff, identify_isSome, getSKUForDevice_isSome]
      tauto
    · intro loads whole ran
      obtain ⟨first, done, _⟩ := Option.bind_eq_some_iff.mp ran
      have completes : (patched boot minor machine).isSome = true := by simp [done]
      obtain ⟨config, member, device, granted⟩ := (patched_isSome boot minor machine).mp completes
      obtain ⟨sephiroth, _, refused⟩ := apart config member
      rcases device with aerith | isSephiroth
      · exact absurd granted (refused aerith)
      · exact absurd isSephiroth sephiroth

-- The LCD model: named Aerith by `ProcessPatcher`, and by nobody afterwards.
theorem aerith_bits_missing :
    ¬ SameIdentity ⟨.ventura, true, false⟩ 5
      ⟨true, some ⟨⟨0x1002, 0x163F⟩, 0xAE, 0x0123, 0x1002⟩, fun _ => true⟩ := by
  intro same
  obtain ⟨chip, _, _, revision, _⟩ := same.chip [] _ rfl
  exact absurd revision (by cases chip <;> decide)

end Agreement

end NootedDeck.Startup
