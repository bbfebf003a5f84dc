import Mathlib.Data.BitVec
import Mathlib.Logic.Function.Basic

set_option autoImplicit false

namespace NootedDeck.Hooks

abbrev Pointer := BitVec 64
abbrev IOReturn := BitVec 32

def kIOReturnSuccess : IOReturn := 0
def kIOReturnInternalError : IOReturn := 0xE00002C9
def kIOReturnDeviceError : IOReturn := 0xE00002E9

structure Backlight where
  currentPwmBacklightLevel : BitVec 32
  maxPwmBacklightLevel : BitVec 32
  maxOLED : BitVec 32
  embeddedPanelLink : Pointer
  supportsAUX : Bool

structure World (κ : Type) where
  kernel : κ
  backlight : Backlight

variable {κ α : Type}

abbrev Routine (κ α : Type) := World κ → α × World κ

structure Originals (κ : Type) where
  createAppleHDAFunctionGroup : Pointer → Routine κ Pointer
  createAppleHDAWidget : Pointer → Routine κ Pointer
  setAttributeForConnection : Pointer → BitVec 32 → BitVec 32 → BitVec 64 → Routine κ IOReturn
  getAttributeForConnection : Pointer → BitVec 32 → BitVec 32 → Pointer → Routine κ IOReturn
  safeMetaCast : Pointer → Pointer → Routine κ Pointer
  allocFunctionGroupTahiti : Routine κ Pointer
  allocWidget1002AAA0 : Routine κ Pointer
  dcLinkSetBacklightLevel : Pointer → BitVec 32 → BitVec 32 → Routine κ Bool
  dcLinkSetBacklightLevelNits : Pointer → Bool → BitVec 32 → BitVec 32 → Routine κ Bool
  member16 : World κ → Pointer → BitVec 64 → BitVec 16
  member32 : World κ → Pointer → BitVec 64 → BitVec 32
  store : Pointer → BitVec 64 → World κ → World κ
  -- never written by the module
  metaClassMap : List (Pointer × Pointer)

variable (originals : Originals κ)

section AppleGFXHDA

def amdVendorID : BitVec 16 := 0x1002
def aerithHDMIDeviceID : BitVec 32 := 0x163F
def sephirothHDMIDeviceID : BitVec 32 := 0x1640

def isVanGoghHDMI (world : World κ) (devID : Pointer) : Bool :=
  let vendorID := originals.member16 world devID 0x2
  let deviceID := originals.member32 world devID 0x8
  vendorID == amdVendorID &&
    (deviceID == aerithHDMIDeviceID || deviceID == sephirothHDMIDeviceID)

def wrapCreateAppleHDAFunctionGroup (devID : Pointer) : Routine κ Pointer := fun world =>
  if isVanGoghHDMI originals world devID then originals.allocFunctionGroupTahiti world
  else originals.createAppleHDAFunctionGroup devID world

-- The last line calls `OrgCreateAppleHDAFunctionGroup`, as its neighbour does.
def wrapCreateAppleHDAWidget (devID : Pointer) : Routine κ Pointer := fun world =>
  if isVanGoghHDMI originals world devID then originals.allocWidget1002AAA0 world
  else originals.createAppleHDAFunctionGroup devID world

end AppleGFXHDA

section Attributes

-- 'bklt'
def fbAttributeBacklight : BitVec 32 := 0x626B6C74

def World.setLevel (world : World κ) (level : BitVec 32) : World κ :=
  { world with backlight := { world.backlight with currentPwmBacklightLevel := level } }

def percentage (backlight : Backlight) : BitVec 32 :=
  backlight.currentPwmBacklightLevel * 100 / backlight.maxPwmBacklightLevel

def setBacklight (value : BitVec 64) : Routine κ IOReturn := fun world =>
  let world := world.setLevel (value.setWidth 32)
  let backlight := world.backlight
  if backlight.maxPwmBacklightLevel = 0 then (kIOReturnInternalError, world)
  else if backlight.supportsAUX then
    let auxValue := backlight.maxOLED * percentage backlight / 100
    let (_, world) :=
      originals.dcLinkSetBacklightLevelNits backlight.embeddedPanelLink true auxValue 15000 world
    -- the AUX branch falls through to the error
    (kIOReturnDeviceError, world)
  else
    let pwmValue := percentage backlight * 0xFFFF / 100
    let (done, world) :=
      originals.dcLinkSetBacklightLevel backlight.embeddedPanelLink pwmValue 0 world
    (if done then kIOReturnSuccess else kIOReturnDeviceError, world)

def wrapSetAttributeForConnection (framebuffer : Pointer) (connectIndex attr : BitVec 32)
    (value : BitVec 64) : Routine κ IOReturn := fun world =>
  let (returnValue, world) :=
    originals.setAttributeForConnection framebuffer connectIndex attr value world
  if attr ≠ fbAttributeBacklight then (returnValue, world)
  else setBacklight originals value world

def wrapGetAttributeForConnection (framebuffer : Pointer) (connectIndex attr : BitVec 32)
    (value : Pointer) : Routine κ IOReturn := fun world =>
  let (returnValue, world) :=
    originals.getAttributeForConnection framebuffer connectIndex attr value world
  if attr ≠ fbAttributeBacklight then (returnValue, world)
  else
    let level := world.backlight.currentPwmBacklightLevel
    (kIOReturnSuccess, originals.store value (level.setWidth 64) world)

end Attributes

section MetaCast

def counterpart (toMeta : Pointer) : List (Pointer × Pointer) → Option Pointer
  | [] => none
  | ent :: rest =>
      if ent.1 = toMeta then some ent.2
      else if ent.2 = toMeta then some ent.1
      else counterpart toMeta rest

def wrapSafeMetaCast (object toMeta : Pointer) : Routine κ Pointer := fun world =>
  let (returnValue, world) := originals.safeMetaCast object toMeta world
  if returnValue ≠ 0 then (returnValue, world)
  else
    match counterpart toMeta originals.metaClassMap with
    | some other => originals.safeMetaCast object other world
    | none => (0, world)

end MetaCast

end NootedDeck.Hooks
