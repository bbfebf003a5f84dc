import NootedDeck.Mmio.Registers
import NootedDeck.Vbios.AtomBios

set_option autoImplicit false

-- Lilu runs the patcher callback once and then the kext callbacks, in whatever order kexts load.
-- Every hook may be called from the moment it is routed.

namespace NootedDeck.Startup

open Interleaving

inductive Hook where
  | wrapSafeMetaCast
  | wrapAddDrivers
  | wrapDpReceiverPowerCtrl
  | wrapControllerPowerUp
  | wrapLinkCreate
  | wrapSetAttributeForConnection
  | wrapGetAttributeForConnection
  | wrapApplePanelSetDisplay
  | return0
  | wrapSomethingWithPCIInfo
  | doGPUPanic
  | dmLoggerWrite
  | populateVRAMInfo
  | getEnumeratedRevision
  | wrapGetNumberOfConnectors
  | wrapIH40IVRingInitHardware
  | wrapIRQMGRWriteRegister
  | wrapCreateRegisterAccess
  | wrapCreateAppleHDAFunctionGroup
  | wrapCreateAppleHDAWidget
deriving DecidableEq

inductive Use where
  | setProperty32Bit
  | initHWLate
  | readRegion32Bit
  | writeRegion32Bit
  | getVBIOSDataTable
deriving DecidableEq

def Hook.uses : Hook → List Use
  | .populateVRAMInfo => [.getVBIOSDataTable]
  | .wrapIH40IVRingInitHardware => [.readRegion32Bit, .writeRegion32Bit]
  | _ => []

theorem Hook.eq_of_mem_uses {hook : Hook} {made : Use} (member : made ∈ hook.uses) :
    hook = .populateVRAMInfo ∨ hook = .wrapIH40IVRingInitHardware := by
  cases hook with
  | populateVRAMInfo => exact Or.inl rfl
  | wrapIH40IVRingInitHardware => exact Or.inr rfl
  | _ => cases member

structure PciDevice where
  vendorID : BitVec 32
  deviceID : BitVec 32
deriving DecidableEq

structure Pointers where
  gpu : Option PciDevice
  rMMIO : Option Mmio.Aperture
  vbiosData : Option Vbios.Image

def Pointers.Meets (pointers : Pointers) : Use → Prop
  | .setProperty32Bit | .initHWLate => pointers.gpu.isSome
  | .readRegion32Bit | .writeRegion32Bit => pointers.rMMIO.isSome
  | .getVBIOSDataTable => ∃ image, pointers.vbiosData = some image ∧ image.Accepted

inductive Callback where
  | hotfixesAGDP
  | hotfixesX6000FB
  | backlight
  | debugEnabler
  | vanGoghX6000FB
  | vanGoghAppleGFXHDA
deriving DecidableEq

structure Deck where
  moduleLoaded : Bool
  bigSurPlus : Bool
  venturaPlus : Bool
  pointers : Pointers
  registered : List Callback
  routed : List Hook
  properties : List (String × BitVec 32)
  -- every use so far, with the pointers as they were
  uses : List (Use × Pointers)

def Deck.initial : Deck := ⟨false, false, false, ⟨none, none, none⟩, [], [], [], []⟩

section Steps

def use (use : Use) : Program Deck Unit :=
  Program.modify fun deck => { deck with uses := deck.uses ++ [(use, deck.pointers)] }

def panicUnless (condition : Bool) : Program Deck Unit :=
  if condition then pure () else .panic

def installHook (hook : Hook) : Program Deck Unit :=
  Program.modify fun deck => { deck with routed := deck.routed ++ [hook] }

def routeWhileGranted (failed : Program Deck Unit) (granted : Hook → Bool) :
    List Hook → Program Deck Unit
  | [] => pure ()
  | hook :: rest =>
      if granted hook then do
        installHook hook
        routeWhileGranted failed granted rest
      else failed

def routeAll (granted : Hook → Bool) (hooks : List Hook) : Program Deck Unit :=
  routeWhileGranted .panic granted hooks

def routeSome (granted : Hook → Bool) (hooks : List Hook) : Program Deck Unit :=
  routeWhileGranted (pure ()) granted hooks

def setProperty32Bit (key : String) (value : BitVec 32) : Program Deck Unit := do
  use .setProperty32Bit
  let deck ← Program.get
  panicUnless deck.pointers.gpu.isSome
  Program.modify fun deck => { deck with properties := deck.properties ++ [(key, value)] }

def setProperties : List (String × BitVec 32) → Program Deck Unit
  | [] => pure ()
  | (key, value) :: rest => do
      setProperty32Bit key value
      setProperties rest

def mapRegisters (mapping : Option Mmio.Aperture) : Program Deck Unit := do
  Program.modify fun deck => { deck with pointers := { deck.pointers with rMMIO := mapping } }
  -- `rMMIO->getVirtualAddress()`
  panicUnless mapping.isSome
  use .readRegion32Bit
  use .readRegion32Bit

def initHWLate (mapping : Option Mmio.Aperture) : Program Deck Unit := do
  use .initHWLate
  let deck ← Program.get
  if deck.pointers.rMMIO.isSome then pure ()
  else do
    panicUnless deck.pointers.gpu.isSome
    mapRegisters mapping

end Steps

inductive KernelVersion where
  | bigSur
  | monterey
  | ventura
  | sonoma
  | sequoia
  | tahoe
  | unknown
deriving DecidableEq

structure Boot where
  kernelVersion : KernelVersion
  backlightWanted : Bool
  debugEnabled : Bool

def Boot.callbacks (boot : Boot) : List Callback :=
  [.hotfixesAGDP, .hotfixesX6000FB] ++ (if boot.backlightWanted then [.backlight] else []) ++
    (if boot.debugEnabled then [.debugEnabler] else []) ++ [.vanGoghX6000FB, .vanGoghAppleGFXHDA]

def startModule (boot : Boot) : Program Deck Unit := do
  let deck ← Program.get
  panicUnless (!deck.moduleLoaded)
  Program.modify fun deck => { deck with moduleLoaded := true }
  panicUnless (boot.kernelVersion != .unknown)
  Program.modify fun deck =>
    { deck with
      bigSurPlus := true
      venturaPlus := boot.kernelVersion != .bigSur && boot.kernelVersion != .monterey
      registered := boot.callbacks }

structure Hardware where
  deviceInfo : Bool
  -- `VideoBuiltIn`, if it is an `IOPCIDevice`
  videoBuiltIn : Option PciDevice
  granted : Hook → Bool

def knownDevice (device : Option PciDevice) : Bool :=
  match device with
  | none => false
  | some device =>
      device.vendorID == 0x1002 && (device.deviceID == 0x163F || device.deviceID == 0x1640)

def processPatcher (hardware : Hardware) : Program Deck Unit := do
  panicUnless hardware.deviceInfo
  Program.modify fun deck =>
    { deck with pointers := { deck.pointers with gpu := hardware.videoBuiltIn } }
  panicUnless (knownDevice hardware.videoBuiltIn)
  routeAll hardware.granted [.wrapSafeMetaCast, .wrapAddDrivers]

inductive Kext where
  | appleGraphicsDevicePolicy
  | radeonX6000Framebuffer
  | appleBacklight
  | appleMCCSControl
  | appleGFXHDA
  | other
deriving DecidableEq

structure KextLoad where
  callback : Callback
  kext : Kext
  dpDelay : Bool
  mapping : Option Mmio.Aperture
  -- the symbols are solved and the patches before the routes applied
  solved : Bool
  granted : Hook → Bool
  -- and so are the patches after them
  completed : Bool

def hotfixesX6000FB (load : KextLoad) : Program Deck Unit := do
  routeAll load.granted (if load.dpDelay then [.wrapDpReceiverPowerCtrl] else [])
  let deck ← Program.get
  panicUnless (!deck.venturaPlus || load.solved)
  routeAll load.granted (if deck.venturaPlus then [.wrapControllerPowerUp] else [])
  panicUnless (!deck.venturaPlus || load.completed)

def backlight (load : KextLoad) : Program Deck Unit :=
  match load.kext with
  | .radeonX6000Framebuffer => do
      panicUnless load.solved
      routeAll load.granted
        [.wrapLinkCreate, .wrapSetAttributeForConnection, .wrapGetAttributeForConnection]
  | .appleBacklight => routeSome load.granted [.wrapApplePanelSetDisplay]
  | .appleMCCSControl => routeSome load.granted [.return0, .return0]
  | _ => pure ()

def logProperties : List (String × BitVec 32) :=
  [("PP_LogLevel", 0xFFFF), ("PP_LogSource", 0xFFFFFFFF), ("PP_LogDestination", 0xFFFFFFFF),
    ("PP_LogField", 0xFFFFFFFF), ("PP_DumpRegister", 1), ("PP_DumpSMCTable", 1),
    ("PP_LogDumpTableBuffers", 1)]

def debugEnablerX6000FB (load : KextLoad) : Program Deck Unit := do
  setProperties logProperties
  routeAll load.granted [.wrapSomethingWithPCIInfo, .doGPUPanic, .dmLoggerWrite]
  panicUnless load.completed

def vanGoghX6000FB (load : KextLoad) : Program Deck Unit := do
  initHWLate load.mapping
  panicUnless load.solved
  routeAll load.granted [.populateVRAMInfo, .getEnumeratedRevision, .wrapGetNumberOfConnectors]
  let deck ← Program.get
  routeAll load.granted (if deck.bigSurPlus then [.wrapCreateRegisterAccess] else [])
  panicUnless load.completed

def vanGoghAppleGFXHDA (load : KextLoad) : Program Deck Unit := do
  initHWLate load.mapping
  panicUnless load.solved
  routeAll load.granted [.wrapCreateAppleHDAFunctionGroup, .wrapCreateAppleHDAWidget]

def processKext (load : KextLoad) : Program Deck Unit :=
  match load.callback, load.kext with
  | .hotfixesX6000FB, .radeonX6000Framebuffer => hotfixesX6000FB load
  | .backlight, _ => backlight load
  | .debugEnabler, .radeonX6000Framebuffer => debugEnablerX6000FB load
  | .vanGoghX6000FB, .radeonX6000Framebuffer => vanGoghX6000FB load
  | .vanGoghAppleGFXHDA, .appleGFXHDA => vanGoghAppleGFXHDA load
  -- the device policy is only patched
  | _, _ => pure ()

def kextLoaded (load : KextLoad) : Program Deck Unit := do
  let deck ← Program.get
  if load.callback ∈ deck.registered then processKext load else pure ()

def kextsLoaded : List KextLoad → Program Deck Unit
  | [] => pure ()
  | load :: rest => do
      kextLoaded load
      kextsLoaded rest

def runModule (boot : Boot) (hardware : Hardware) (loads : List KextLoad) : Program Deck Unit := do
  startModule boot
  processPatcher hardware
  kextsLoaded loads

def Calls (deck : Deck) (call : Hook × Pointers) : Prop :=
  call.1 ∈ deck.routed ∧ call.2 = deck.pointers

end NootedDeck.Startup
