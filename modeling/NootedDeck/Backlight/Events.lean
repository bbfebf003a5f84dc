import NootedDeck.Hooks.Wrappers
import NootedDeck.Shared.Runs

set_option autoImplicit false

namespace NootedDeck.Backlight

open Hooks Runs

structure LinkConstants where
  signalTypeLVDS : BitVec 32
  signalTypeEDP : BitVec 32
  dcDpcdExtCapsOLED : BitVec 8
  distinct : signalTypeLVDS ≠ signalTypeEDP

-- What `OrgLinkCreate` made: the word at 0x38 and the byte at `DcLinkCapabillsField`.
structure Link where
  pointer : Pointer
  signalType : BitVec 32
  capabilities : BitVec 8
  created : pointer ≠ 0

inductive Command where
  | level (link : Pointer) (backlightPwm frameRamp : BitVec 32)
  | levelNits (link : Pointer) (isHDR : Bool) (backlightMillinits transitionTimeMs : BitVec 32)

structure Panel where
  sent : List (Command × Bool)
  cells : Pointer → BitVec 64

structure Display where
  obeys : Nat → Bool
  setAttribute : Pointer → BitVec 32 → BitVec 32 → BitVec 64 → (Pointer → BitVec 64) →
    IOReturn × (Pointer → BitVec 64)
  getAttribute : Pointer → BitVec 32 → BitVec 32 → Pointer → (Pointer → BitVec 64) →
    IOReturn × (Pointer → BitVec 64)

variable (constants : LinkConstants) (display : Display)

section Originals

def withCells (world : World Panel) (cells : Pointer → BitVec 64) : World Panel :=
  { world with kernel := { world.kernel with cells := cells } }

def issue (command : Command) : Routine Panel Bool := fun world =>
  let done := display.obeys world.kernel.sent.length
  (done, { world with kernel := { world.kernel with sent := world.kernel.sent ++ [(command, done)] } })

def Display.originals : Originals Panel where
  setAttributeForConnection := fun framebuffer connectIndex attr value world =>
    let (code, cells) := display.setAttribute framebuffer connectIndex attr value world.kernel.cells
    (code, withCells world cells)
  getAttributeForConnection := fun framebuffer connectIndex attr value world =>
    let (code, cells) := display.getAttribute framebuffer connectIndex attr value world.kernel.cells
    (code, withCells world cells)
  dcLinkSetBacklightLevel := fun link pwm ramp => issue display (.level link pwm ramp)
  dcLinkSetBacklightLevelNits := fun link hdr millinits transition =>
    issue display (.levelNits link hdr millinits transition)
  store := fun pointer value world =>
    withCells world (Function.update world.kernel.cells pointer value)
  -- the hooks of this module call none of these
  createAppleHDAFunctionGroup := fun _ world => (0, world)
  createAppleHDAWidget := fun _ world => (0, world)
  safeMetaCast := fun _ _ world => (0, world)
  allocFunctionGroupTahiti := fun world => (0, world)
  allocWidget1002AAA0 := fun world => (0, world)
  member16 := fun _ _ _ => 0
  member32 := fun _ _ _ => 0
  metaClassMap := []

end Originals

section LinkCreate

def Link.oled (link : Link) : Bool := link.capabilities &&& constants.dcDpcdExtCapsOLED != 0

def lvdsCase (link : Link) (backlight : Backlight) : Backlight :=
  { backlight with embeddedPanelLink := link.pointer }

def edpCase (link : Link) (backlight : Backlight) : Backlight :=
  { backlight with embeddedPanelLink := link.pointer, supportsAUX := link.oled constants }

def wrapLinkCreate (returnValue : Option Link) : Routine Panel Pointer := fun world =>
  match returnValue with
  | none => (0, world)
  | some link =>
      let backlight :=
        -- the first case has no `break` and runs on into the second
        if link.signalType = constants.signalTypeLVDS then
          edpCase constants link (lvdsCase link world.backlight)
        else if link.signalType = constants.signalTypeEDP then
          edpCase constants link world.backlight
        else world.backlight
      (link.pointer, { world with backlight := backlight })

end LinkCreate

section DisplayLoad

abbrev LinearBrightness := Option (BitVec 32)
abbrev DisplayParameters := Option LinearBrightness

def onAppleBacklightDisplayLoad (service : Option DisplayParameters) : Routine Panel Bool :=
  fun world =>
    match service with
    | none => (false, world)
    | some none => (false, world)
    | some (some none) => (false, world)
    | some (some (some maxBrightness)) =>
        if maxBrightness = 0 then (false, world)
        else
          (true, { world with backlight :=
            { world.backlight with maxPwmBacklightLevel := maxBrightness } })

end DisplayLoad

inductive Event where
  | linkCreate (returnValue : Option Link)
  | setAttribute (framebuffer : Pointer) (connectIndex attr : BitVec 32) (value : BitVec 64)
  | getAttribute (framebuffer : Pointer) (connectIndex attr : BitVec 32) (value : Pointer)
  | displayLoad (service : Option DisplayParameters)

inductive Outcome where
  | link (pointer : Pointer)
  | code (returnValue : IOReturn)
  | loaded (done : Bool)
  deriving DecidableEq

def answer (event : Event) : Routine Panel Outcome := fun world =>
  match event with
  | .linkCreate returnValue =>
      let (pointer, world) := wrapLinkCreate constants returnValue world
      (.link pointer, world)
  | .setAttribute framebuffer connectIndex attr value =>
      let (code, world) :=
        wrapSetAttributeForConnection display.originals framebuffer connectIndex attr value world
      (.code code, world)
  | .getAttribute framebuffer connectIndex attr value =>
      let (code, world) :=
        wrapGetAttributeForConnection display.originals framebuffer connectIndex attr value world
      (.code code, world)
  | .displayLoad service =>
      let (done, world) := onAppleBacklightDisplayLoad service world
      (.loaded done, world)

section Sessions

/-- The world with two histories beside it that the code does not keep. -/
structure Session where
  world : World Panel
  -- The embedded panel's link that was created last.
  recorded : Option Link
  -- The level of the last set that reported success.
  accepted : BitVec 32

def Link.embedded (link : Link) : Prop :=
  link.signalType = constants.signalTypeLVDS ∨ link.signalType = constants.signalTypeEDP

instance (link : Link) : Decidable (link.embedded constants) :=
  inferInstanceAs (Decidable (_ ∨ _))

def recordedAfter (recorded : Option Link) : Event → Option Link
  | .linkCreate (some link) => if link.embedded constants then some link else recorded
  | _ => recorded

def acceptedAfter (accepted : BitVec 32) (outcome : Outcome) : Event → BitVec 32
  | .setAttribute _ _ attr value =>
      if attr = fbAttributeBacklight ∧ outcome = .code kIOReturnSuccess then value.setWidth 32
      else accepted
  | _ => accepted

def react (session : Session) (event : Event) : Outcome × Session :=
  let (outcome, world) := answer constants display event session.world
  (outcome,
    { world := world
      recorded := recordedAfter constants session.recorded event
      accepted := acceptedAfter session.accepted outcome event })

def initialBacklight : Backlight where
  currentPwmBacklightLevel := 0
  maxPwmBacklightLevel := 0xFFFF
  maxOLED := 1000 * 512
  embeddedPanelLink := 0
  supportsAUX := false

def initialSession (cells : Pointer → BitVec 64) : Session where
  world := { kernel := { sent := [], cells := cells }, backlight := initialBacklight }
  recorded := none
  accepted := initialBacklight.currentPwmBacklightLevel

def sentIn (step : Step Session Event Outcome) : List (Command × Bool) :=
  step.after.world.kernel.sent.drop step.before.world.kernel.sent.length

end Sessions

section Steps

def brightness (value : BitVec 64) (backlight : Backlight) : Command :=
  let backlight := { backlight with currentPwmBacklightLevel := value.setWidth 32 }
  if backlight.supportsAUX then
    .levelNits backlight.embeddedPanelLink true (backlight.maxOLED * percentage backlight / 100) 15000
  else .level backlight.embeddedPanelLink (percentage backlight * 0xFFFF / 100) 0

theorem setBacklight_eq (value : BitVec 64) {world : World Panel}
    (scaled : world.backlight.maxPwmBacklightLevel ≠ 0) :
    setBacklight display.originals value world =
      (if world.backlight.supportsAUX = false ∧
          display.obeys world.kernel.sent.length = true then
        kIOReturnSuccess else kIOReturnDeviceError,
        (issue display (brightness value world.backlight)
          (world.setLevel (value.setWidth 32))).2) := by
  have unscaled : ¬ (world.setLevel (value.setWidth 32)).backlight.maxPwmBacklightLevel = 0 := scaled
  simp only [setBacklight, if_neg unscaled]
  cases aux : world.backlight.supportsAUX <;>
    simp [World.setLevel, aux, brightness, Display.originals, issue]

def Event.setsBacklight : Event → Prop
  | .setAttribute _ _ attr _ => attr = fbAttributeBacklight
  | _ => False

def backlightAfter (backlight : Backlight) : Event → Backlight
  | .linkCreate (some link) =>
      if link.embedded constants then edpCase constants link backlight else backlight
  | .setAttribute _ _ attr value =>
      if attr = fbAttributeBacklight then
        { backlight with currentPwmBacklightLevel := value.setWidth 32 }
      else backlight
  | .displayLoad (some (some (some maxBrightness))) =>
      if maxBrightness = 0 then backlight
      else { backlight with maxPwmBacklightLevel := maxBrightness }
  | _ => backlight

theorem setBacklight_backlight (value : BitVec 64) (world : World Panel) :
    (setBacklight display.originals value world).2.backlight =
      { world.backlight with currentPwmBacklightLevel := value.setWidth 32 } := by
  by_cases scaled : world.backlight.maxPwmBacklightLevel = 0
  case pos =>
    have unscaled : (world.setLevel (value.setWidth 32)).backlight.maxPwmBacklightLevel = 0 := scaled
    simp only [setBacklight, if_pos unscaled]
    rfl
  case neg =>
    simp only [setBacklight_eq display value scaled]
    rfl

theorem wrapLinkCreate_backlight (link : Link) (world : World Panel) :
    (wrapLinkCreate constants (some link) world).2.backlight =
      if link.embedded constants then edpCase constants link world.backlight
      else world.backlight := by
  by_cases lvds : link.signalType = constants.signalTypeLVDS
  case pos => simp [wrapLinkCreate, Link.embedded, lvds, edpCase, lvdsCase]
  case neg => simp [wrapLinkCreate, Link.embedded, lvds]

theorem onAppleBacklightDisplayLoad_world (service : Option DisplayParameters) (world : World Panel) :
    (onAppleBacklightDisplayLoad service world).2 =
      { world with backlight := backlightAfter constants world.backlight (.displayLoad service) } := by
  match service with
  | none => rfl
  | some none => rfl
  | some (some none) => rfl
  | some (some (some maxBrightness)) =>
      by_cases zero : maxBrightness = 0
      case pos => simp only [onAppleBacklightDisplayLoad, backlightAfter, if_pos zero]
      case neg => simp only [onAppleBacklightDisplayLoad, backlightAfter, if_neg zero]

theorem answer_backlight (event : Event) (world : World Panel) :
    (answer constants display event world).2.backlight =
      backlightAfter constants world.backlight event := by
  cases event with
  | linkCreate returnValue =>
      cases returnValue with
      | none => rfl
      | some link => exact wrapLinkCreate_backlight constants link world
  | setAttribute framebuffer connectIndex attr value =>
      by_cases backlight : attr = fbAttributeBacklight
      case pos =>
        simp only [answer, wrapSetAttributeForConnection, backlight, backlightAfter, ne_eq,
          not_true_eq_false, if_false, if_true, setBacklight_backlight]
        rfl
      case neg => simp [answer, wrapSetAttributeForConnection, backlight, backlightAfter,
        Display.originals, withCells]
  | getAttribute framebuffer connectIndex attr value =>
      by_cases backlight : attr = fbAttributeBacklight <;>
        simp [answer, wrapGetAttributeForConnection, backlight, backlightAfter, Display.originals,
          withCells]
  | displayLoad service =>
      simp only [answer, onAppleBacklightDisplayLoad_world constants]

theorem answer_sent {event : Event} (quiet : ¬ event.setsBacklight) (world : World Panel) :
    (answer constants display event world).2.kernel.sent = world.kernel.sent := by
  cases event with
  | linkCreate returnValue => cases returnValue <;> rfl
  | setAttribute framebuffer connectIndex attr value =>
      have other : attr ≠ fbAttributeBacklight := quiet
      simp [answer, wrapSetAttributeForConnection, other, Display.originals, withCells]
  | getAttribute framebuffer connectIndex attr value =>
      by_cases backlight : attr = fbAttributeBacklight <;>
        simp [answer, wrapGetAttributeForConnection, backlight, Display.originals, withCells]
  | displayLoad service =>
      simp only [answer, onAppleBacklightDisplayLoad_world constants]

theorem wrapSetAttributeForConnection_set (framebuffer : Pointer) (connectIndex : BitVec 32)
    (value : BitVec 64) {world : World Panel} (scaled : world.backlight.maxPwmBacklightLevel ≠ 0) :
    (wrapSetAttributeForConnection display.originals framebuffer connectIndex fbAttributeBacklight
        value world).1 =
        (if world.backlight.supportsAUX = false ∧ display.obeys world.kernel.sent.length = true
          then kIOReturnSuccess else kIOReturnDeviceError) ∧
      (wrapSetAttributeForConnection display.originals framebuffer connectIndex fbAttributeBacklight
        value world).2.kernel.sent =
        world.kernel.sent ++
          [(brightness value world.backlight, display.obeys world.kernel.sent.length)] := by
  -- the hooked function answers first and leaves the fields and the panel alone
  obtain ⟨cells, hooked⟩ : ∃ cells, (display.originals.setAttributeForConnection framebuffer
      connectIndex fbAttributeBacklight value world).2 = withCells world cells := ⟨_, rfl⟩
  have still : (withCells world cells).backlight.maxPwmBacklightLevel ≠ 0 := scaled
  simp only [wrapSetAttributeForConnection, ne_eq, not_true_eq_false, if_false, hooked,
    setBacklight_eq display value still]
  exact ⟨rfl, rfl⟩

theorem answer_set (framebuffer : Pointer) (connectIndex : BitVec 32) (value : BitVec 64)
    {world : World Panel} (scaled : world.backlight.maxPwmBacklightLevel ≠ 0) :
    (answer constants display
        (.setAttribute framebuffer connectIndex fbAttributeBacklight value) world).1 =
        .code (if world.backlight.supportsAUX = false ∧ display.obeys world.kernel.sent.length = true
          then kIOReturnSuccess else kIOReturnDeviceError) ∧
      (answer constants display
        (.setAttribute framebuffer connectIndex fbAttributeBacklight value) world).2.kernel.sent =
        world.kernel.sent ++
          [(brightness value world.backlight, display.obeys world.kernel.sent.length)] := by
  obtain ⟨code, sent⟩ :=
    wrapSetAttributeForConnection_set display framebuffer connectIndex value scaled
  exact ⟨congrArg Outcome.code code, sent⟩

end Steps

section Example

def exampleConstants : LinkConstants where
  signalTypeLVDS := 0x8
  signalTypeEDP := 0x80
  dcDpcdExtCapsOLED := 0x10
  distinct := by decide

def exampleLink (signalType : BitVec 32) : Link where
  pointer := 0xFFFFFF8010002000
  signalType := signalType
  capabilities := 0x10
  created := by decide

def exampleDisplay (obeys : Nat → Bool) : Display where
  obeys := obeys
  setAttribute := fun _ _ _ _ cells => (kIOReturnSuccess, cells)
  getAttribute := fun _ _ _ _ cells => (kIOReturnSuccess, cells)

end Example

end NootedDeck.Backlight
