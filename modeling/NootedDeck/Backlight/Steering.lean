import NootedDeck.Backlight.Events

set_option autoImplicit false

namespace NootedDeck.Backlight

open Hooks Runs

variable (constants : LinkConstants) (display : Display)

def Command.target : Command → Pointer
  | .level link _ _ => link
  | .levelNits link _ _ _ => link

def Command.viaAUX : Command → Bool
  | .level _ _ _ => false
  | .levelNits _ _ _ _ => true

theorem brightness_target (value : BitVec 64) (backlight : Backlight) :
    (brightness value backlight).target = backlight.embeddedPanelLink := by
  cases aux : backlight.supportsAUX <;> simp [brightness, aux, Command.target]

theorem brightness_viaAUX (value : BitVec 64) (backlight : Backlight) :
    (brightness value backlight).viaAUX = backlight.supportsAUX := by
  cases aux : backlight.supportsAUX <;> simp [brightness, aux, Command.viaAUX]

structure Follows (session : Session) : Prop where
  scaled : session.world.backlight.maxPwmBacklightLevel ≠ 0
  panelLink : session.world.backlight.embeddedPanelLink = (session.recorded.map Link.pointer).getD 0
  aux : session.world.backlight.supportsAUX = (session.recorded.map (Link.oled constants)).getD false
  embedded : ∀ link ∈ session.recorded, link.embedded constants

theorem initial_follows (cells : Pointer → BitVec 64) : Follows constants (initialSession cells) where
  scaled := by simp [initialSession, initialBacklight]
  panelLink := rfl
  aux := rfl
  embedded := by simp [initialSession]

theorem react_backlight (session : Session) (event : Event) :
    (react constants display session event).2.world.backlight =
      backlightAfter constants session.world.backlight event :=
  answer_backlight constants display event session.world

theorem backlightAfter_scaled {backlight : Backlight} (scaled : backlight.maxPwmBacklightLevel ≠ 0)
    (event : Event) : (backlightAfter constants backlight event).maxPwmBacklightLevel ≠ 0 := by
  unfold backlightAfter
  split <;> try split
  all_goals assumption

theorem recording_cases (backlight : Backlight) (recorded : Option Link) (event : Event) :
    (∃ link, event = .linkCreate (some link) ∧ link.embedded constants ∧
        recordedAfter constants recorded event = some link ∧
        backlightAfter constants backlight event = edpCase constants link backlight) ∨
      (recordedAfter constants recorded event = recorded ∧
        (backlightAfter constants backlight event).embeddedPanelLink = backlight.embeddedPanelLink ∧
        (backlightAfter constants backlight event).supportsAUX = backlight.supportsAUX) := by
  match event with
  | .linkCreate none => exact Or.inr ⟨rfl, rfl, rfl⟩
  | .linkCreate (some link) =>
      by_cases embedded : link.embedded constants
      case pos => exact Or.inl ⟨link, rfl, embedded, if_pos embedded, if_pos embedded⟩
      case neg => simp [recordedAfter, backlightAfter, embedded]
  | .setAttribute framebuffer connectIndex attr value =>
      by_cases backlight : attr = fbAttributeBacklight <;>
        simp [recordedAfter, backlightAfter, backlight]
  | .getAttribute framebuffer connectIndex attr value => exact Or.inr ⟨rfl, rfl, rfl⟩
  | .displayLoad none => exact Or.inr ⟨rfl, rfl, rfl⟩
  | .displayLoad (some none) => exact Or.inr ⟨rfl, rfl, rfl⟩
  | .displayLoad (some (some none)) => exact Or.inr ⟨rfl, rfl, rfl⟩
  | .displayLoad (some (some (some maxBrightness))) =>
      simp only [recordedAfter, backlightAfter]
      split <;> simp

theorem react_recorded (session : Session) (event : Event) :
    (react constants display session event).2.recorded =
      recordedAfter constants session.recorded event := rfl

theorem react_follows (session : Session) (event : Event) (follows : Follows constants session) :
    Follows constants (react constants display session event).2 := by
  obtain ⟨scaled, panelLink, aux, embedded⟩ := follows
  have fields := react_backlight constants display session event
  rcases recording_cases constants session.world.backlight session.recorded event with
    ⟨link, _, isEmbedded, recorded, changed⟩ | ⟨recorded, samePointer, sameAUX⟩
  case inl =>
    constructor
    all_goals simp only [fields, react_recorded, recorded, changed]
    · exact scaled
    · rfl
    · rfl
    · simpa using isEmbedded
  case inr =>
    constructor
    all_goals simp only [fields, react_recorded, recorded, samePointer, sameAUX]
    · exact backlightAfter_scaled constants scaled event
    · exact panelLink
    · exact aux
    · exact embedded

structure Steered (step : Step Session Event Outcome) : Prop where
  commands : ∀ command ∈ sentIn step, command.1.target ≠ 0 ∧ ∃ link ∈ step.before.recorded,
    link.embedded constants ∧ command.1.target = link.pointer ∧
      (command.1.viaAUX = true ↔
        link.signalType = constants.signalTypeEDP ∧ link.oled constants = true)
  lvds : ∀ link ∈ step.after.recorded, link.signalType = constants.signalTypeLVDS →
    step.after.world.backlight.supportsAUX = false

-- The backlight is set for a known panel, and a new LVDS link does not carry the OLED bit.
structure Foreseen (step : Step Session Event Outcome) : Prop where
  known : step.event.setsBacklight → step.before.recorded ≠ none
  plain : ∀ link, step.event = .linkCreate (some link) →
    link.signalType = constants.signalTypeLVDS → link.oled constants = false

def Plain (session : Session) : Prop :=
  ∀ link ∈ session.recorded, link.signalType = constants.signalTypeLVDS →
    link.oled constants = false

theorem react_plain (session : Session) (event : Event) (plain : Plain constants session)
    (foreseen : Foreseen constants (stepOf (react constants display) session event)) :
    Plain constants (react constants display session event).2 := by
  rcases recording_cases constants session.world.backlight session.recorded event with
    ⟨link, created, _, recorded, _⟩ | ⟨recorded, _, _⟩
  case inl =>
    intro other member
    have same : link = other := Option.some.inj (recorded.symm.trans member)
    exact same ▸ foreseen.plain link created
  case inr =>
    intro other member
    exact plain other (recorded.symm.trans member)

theorem sentIn_quiet {session : Session} {event : Event} (quiet : ¬ event.setsBacklight) :
    sentIn (stepOf (react constants display) session event) = [] := by
  have same := answer_sent constants display quiet session.world
  simp [sentIn, react, same]

theorem sentIn_set {session : Session} {event : Event} (sets : event.setsBacklight)
    (scaled : session.world.backlight.maxPwmBacklightLevel ≠ 0) :
    ∃ value, sentIn (stepOf (react constants display) session event) =
      [(brightness value session.world.backlight,
        display.obeys session.world.kernel.sent.length)] := by
  match event, sets with
  | .setAttribute framebuffer connectIndex attr value, (same : attr = fbAttributeBacklight) =>
      subst same
      have sent := (answer_set constants display framebuffer connectIndex value scaled).2
      exact ⟨value, by simp [sentIn, react, sent]⟩

theorem steered_foreseen (session : Session) (event : Event) (follows : Follows constants session)
    (steered : Steered constants (stepOf (react constants display) session event)) :
    Foreseen constants (stepOf (react constants display) session event) where
  known := by
    intro (sets : event.setsBacklight)
    obtain ⟨value, sent⟩ := sentIn_set constants display sets follows.scaled
    obtain ⟨_, link, member, _⟩ := steered.commands _ (sent ▸ List.mem_singleton_self _)
    exact Option.ne_none_iff_exists'.mpr ⟨link, member⟩
  plain := by
    intro link created lvds
    have recorded : link ∈ (react constants display session event).2.recorded := by
      have made : event = .linkCreate (some link) := created
      simp [made, react, recordedAfter, Link.embedded, lvds]
    have off := steered.lvds link recorded lvds
    have aux := (react_follows constants display session event follows).aux
    have same : (react constants display session event).2.recorded = some link := recorded
    simpa [same] using aux.symm.trans off

theorem foreseen_steered (session : Session) (event : Event) (follows : Follows constants session)
    (plain : Plain constants session)
    (foreseen : Foreseen constants (stepOf (react constants display) session event)) :
    Steered constants (stepOf (react constants display) session event) where
  commands := by
    by_cases sets : event.setsBacklight
    case neg => simp [sentIn_quiet constants display sets]
    case pos =>
      obtain ⟨value, sent⟩ := sentIn_set constants display sets follows.scaled
      obtain ⟨link, member⟩ := Option.ne_none_iff_exists'.mp (foreseen.known sets)
      have recorded : session.recorded = some link := member
      have panelLink := follows.panelLink
      have aux := follows.aux
      have embedded := follows.embedded link recorded
      simp only [recorded, Option.map_some, Option.getD_some] at panelLink aux
      simp only [sent, List.mem_singleton, forall_eq, brightness_target, brightness_viaAUX, panelLink,
        aux]
      have byAUX : link.oled constants = true ↔
          link.signalType = constants.signalTypeEDP ∧ link.oled constants = true := by
        rcases embedded with lvds | edp
        · simp [plain link recorded lvds]
        · simp [edp]
      exact ⟨link.created, link, recorded, embedded, rfl, byAUX⟩
  lvds := by
    intro link recorded lvds
    have aux := (react_follows constants display session event follows).aux
    have same : (react constants display session event).2.recorded = some link := recorded
    have off := react_plain constants display session event plain foreseen link recorded lvds
    simpa only [stepOf_after, same, Option.map_some, Option.getD_some, off] using aux

/--
Brightness commands reach the panel that was created last, in its own way, in exactly the runs that
set the backlight only after an embedded link and create no LVDS link with the OLED bit.
-/
theorem run_steered_iff (cells : Pointer → BitVec 64) (events : List Event) :
    (∀ step ∈ run (react constants display) (initialSession cells) events, Steered constants step) ↔
      ∀ step ∈ run (react constants display) (initialSession cells) events,
        Foreseen constants step := by
  have clean : Plain constants (initialSession cells) := by simp [Plain, initialSession]
  exact forall_run_iff (react_follows constants display)
    (fun session event _ => react_plain constants display session event)
    (fun session event follows _ => steered_foreseen constants display session event follows)
    (foreseen_steered constants display) (initial_follows constants cells) clean events

-- An LVDS link with the OLED bit is set up for AUX, and the command for it goes that way.
theorem lvds_link_commanded_by_aux :
    ¬ ∀ step ∈ run (react exampleConstants (exampleDisplay fun _ => true)) (initialSession fun _ => 0)
        [.linkCreate (some (exampleLink exampleConstants.signalTypeLVDS)),
          .setAttribute 0x1000 0 fbAttributeBacklight 0x8000],
      Steered exampleConstants step := by
  intro steered
  have second := steered (stepOf _ _ _) (List.mem_cons_of_mem _ List.mem_cons_self)
  have off := second.lvds (exampleLink exampleConstants.signalTypeLVDS) rfl rfl
  exact absurd off (by decide)

end NootedDeck.Backlight
