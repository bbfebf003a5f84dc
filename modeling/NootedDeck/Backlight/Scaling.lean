import NootedDeck.Shared.SteppedScale
import NootedDeck.Backlight.Steering

set_option autoImplicit false

namespace NootedDeck.Backlight

open Hooks Runs SteppedScale

variable (constants : LinkConstants) (display : Display)

section Commands

def Command.value : Command → BitVec 32
  | .level _ backlightPwm _ => backlightPwm
  | .levelNits _ _ backlightMillinits _ => backlightMillinits

def fullScale (backlight : Backlight) : BitVec 32 :=
  if backlight.supportsAUX then backlight.maxOLED else 0xFFFF

def percentageOf (backlight : Backlight) (level : Nat) : BitVec 32 :=
  percentage { backlight with currentPwmBacklightLevel := BitVec.ofNat 32 level }

theorem brightness_value (backlight : Backlight) (level : Nat) :
    (brightness (BitVec.ofNat 64 level) backlight).value =
      percentageOf backlight level * fullScale backlight / 100 := by
  have narrowed : (BitVec.ofNat 64 level).setWidth 32 = BitVec.ofNat 32 level := by
    apply BitVec.eq_of_toNat_eq
    simp only [BitVec.toNat_setWidth, BitVec.toNat_ofNat]
    omega
  simp only [brightness, fullScale, percentageOf, narrowed]
  split_ifs
  · simp only [Command.value, BitVec.mul_comm]
  · rfl

structure Programs (maximum : Nat) (world : World Panel) (value : Nat → Nat) : Prop where
  sent : ∀ framebuffer connectIndex level, level ≤ maximum →
    ∃ command done,
      (wrapSetAttributeForConnection display.originals framebuffer connectIndex fbAttributeBacklight
        (BitVec.ofNat 64 level) world).2.kernel.sent = world.kernel.sent ++ [(command, done)] ∧
      command.value.toNat = value level
  scale : Proportional 100 (fullScale world.backlight).toNat maximum value
  products : ∀ level, level ≤ maximum →
    level * 100 < 2 ^ 32 ∧
      (percentageOf world.backlight level).toNat * (fullScale world.backlight).toNat < 2 ^ 32

end Commands

section Arithmetic

variable {backlight : Backlight} {level : Nat}

theorem toNat_percentageOf (backlight : Backlight) (within : level * 100 < 2 ^ 32) :
    (percentageOf backlight level).toNat =
      steps 100 backlight.maxPwmBacklightLevel.toNat level := by
  have product : (BitVec.ofNat 32 level * 100).toNat = level * 100 := by
    have hundred : (100 : BitVec 32).toNat = 100 := rfl
    rw [BitVec.toNat_mul, BitVec.toNat_ofNat, hundred]
    omega
  rw [percentageOf, percentage, BitVec.toNat_udiv, product, steps]

theorem percentageOf_le (within : level * 100 < 2 ^ 32)
    (reaches : level ≤ backlight.maxPwmBacklightLevel.toNat) :
    (percentageOf backlight level).toNat ≤ 100 := by
  rw [toNat_percentageOf backlight within]
  exact Nat.div_le_of_le_mul (Nat.mul_le_mul_right 100 reaches)

theorem fullScale_le (oled : backlight.maxOLED = 1000 * 512) :
    (fullScale backlight).toNat ≤ 512000 := by
  unfold fullScale
  split_ifs
  · rw [oled]
    decide
  · decide

theorem toNat_brightness (oled : backlight.maxOLED = 1000 * 512) (within : level * 100 < 2 ^ 32)
    (reaches : level ≤ backlight.maxPwmBacklightLevel.toNat) :
    (percentageOf backlight level).toNat * (fullScale backlight).toNat < 2 ^ 32 ∧
      (brightness (BitVec.ofNat 64 level) backlight).value.toNat =
        scaled 100 (fullScale backlight).toNat backlight.maxPwmBacklightLevel.toNat level := by
  have product : (percentageOf backlight level).toNat * (fullScale backlight).toNat < 2 ^ 32 :=
    calc (percentageOf backlight level).toNat * (fullScale backlight).toNat
      _ ≤ 100 * 512000 := Nat.mul_le_mul (percentageOf_le within reaches) (fullScale_le oled)
      _ < 2 ^ 32 := by decide
  constructor
  · exact product
  · rw [brightness_value, BitVec.toNat_udiv, BitVec.toNat_mul, Nat.mod_eq_of_lt product,
      toNat_percentageOf backlight within]
    rfl

theorem programs_iff {world : World Panel} (oled : world.backlight.maxOLED = 1000 * 512)
    (positive : world.backlight.maxPwmBacklightLevel ≠ 0) :
    (∃ value, Programs display world.backlight.maxPwmBacklightLevel.toNat world value) ↔
      world.backlight.maxPwmBacklightLevel.toNat * 100 < 2 ^ 32 := by
  constructor
  · rintro ⟨value, programs⟩
    exact (programs.products _ (Nat.le_refl _)).1
  · intro fits
    have nonzero : 0 < world.backlight.maxPwmBacklightLevel.toNat :=
      Nat.pos_of_ne_zero fun zero => positive (BitVec.eq_of_toNat_eq zero)
    have within (level : Nat) (reaches : level ≤ world.backlight.maxPwmBacklightLevel.toNat) :
        level * 100 < 2 ^ 32 := by omega
    exists scaled 100 (fullScale world.backlight).toNat world.backlight.maxPwmBacklightLevel.toNat
    constructor
    case sent =>
      intro framebuffer connectIndex level reaches
      exact ⟨_, _,
        (wrapSetAttributeForConnection_set display framebuffer connectIndex _ positive).2,
        (toNat_brightness oled (within level reaches) reaches).2⟩
    case scale => exact scaled_proportional (by decide) nonzero
    case products =>
      intro level reaches
      exact ⟨within level reaches, (toNat_brightness oled (within level reaches) reaches).1⟩

end Arithmetic

section Sessions

def sessionAfter (cells : Pointer → BitVec 64) (events : List Event) : Session :=
  events.foldl (fun session event => (react constants display session event).2)
    (initialSession cells)

theorem backlightAfter_maxOLED (backlight : Backlight) (event : Event) :
    (backlightAfter constants backlight event).maxOLED = backlight.maxOLED := by
  unfold backlightAfter
  split <;> try split_ifs
  all_goals rfl

-- Nothing ever writes `MaxOLED`.
theorem sessionAfter_maxOLED (cells : Pointer → BitVec 64) (events : List Event) :
    (sessionAfter constants display cells events).world.backlight.maxOLED = 1000 * 512 := by
  unfold sessionAfter
  generalize start : initialSession cells = session
  have oled : session.world.backlight.maxOLED = 1000 * 512 := by
    rw [← start]
    rfl
  clear start
  induction events generalizing session with
  | nil => exact oled
  | cons event rest ih =>
      apply ih
      rw [react_backlight, backlightAfter_maxOLED, oled]

/--
The brightness follows the level exactly if a hundred times the display's maximum fits in 32 bits.
-/
theorem brightness_proportional_iff (cells : Pointer → BitVec 64) (events : List Event)
    (maximum : BitVec 32)
    (accepted : (onAppleBacklightDisplayLoad (some (some (some maximum)))
      (sessionAfter constants display cells events).world).1 = true) :
    (∃ value, Programs display maximum.toNat
        (onAppleBacklightDisplayLoad (some (some (some maximum)))
          (sessionAfter constants display cells events).world).2 value) ↔
      maximum.toNat * 100 < 2 ^ 32 := by
  have positive : maximum ≠ 0 := by
    rintro rfl
    cases accepted
  have loaded : (onAppleBacklightDisplayLoad (some (some (some maximum)))
      (sessionAfter constants display cells events).world).2.backlight =
      { (sessionAfter constants display cells events).world.backlight with
        maxPwmBacklightLevel := maximum } := by
    simp only [onAppleBacklightDisplayLoad, if_neg positive]
  have oled := sessionAfter_maxOLED constants display cells events
  generalize (onAppleBacklightDisplayLoad (some (some (some maximum)))
    (sessionAfter constants display cells events).world).2 = world at loaded ⊢
  have reached : world.backlight.maxPwmBacklightLevel = maximum := by rw [loaded]
  rw [← reached]
  apply programs_iff display
  · rw [loaded]
    exact oled
  · rw [reached]
    exact positive

theorem brightness_proportional_example :
    ∃ value, Programs (exampleDisplay fun _ => true) (0x400 : BitVec 32).toNat
      (onAppleBacklightDisplayLoad (some (some (some 0x400)))
        (sessionAfter exampleConstants (exampleDisplay fun _ => true) (fun _ => 0) []).world).2
      value :=
  (brightness_proportional_iff exampleConstants (exampleDisplay fun _ => true) (fun _ => 0) []
    0x400 rfl).mpr (by decide)

-- The largest maximum: a hundred times it wraps, and full brightness turns the backlight off.
theorem brightness_unproportional_example :
    ¬∃ value, Programs (exampleDisplay fun _ => true) (0xFFFFFFFF : BitVec 32).toNat
      (onAppleBacklightDisplayLoad (some (some (some 0xFFFFFFFF)))
        (sessionAfter exampleConstants (exampleDisplay fun _ => true) (fun _ => 0) []).world).2
      value := by
  rintro ⟨value, programs⟩
  obtain ⟨command, done, sent, same⟩ := programs.sent 0 0 0xFFFFFFFF (Nat.le_refl _)
  have off : [(Command.level 0 0 0, true)] = [(command, done)] := sent
  cases off
  have full : value 0xFFFFFFFF = 0xFFFF := programs.scale.top
  rw [full] at same
  exact absurd same (by decide)

end Sessions

end NootedDeck.Backlight
