import NootedDeck.Backlight.Steering

set_option autoImplicit false

namespace NootedDeck.Backlight

open Hooks Runs

variable (constants : LinkConstants) (display : Display)

structure Reported (step : Step Session Event Outcome) : Prop where
  success : step.event.setsBacklight →
    (step.result = .code kIOReturnSuccess ↔ ∃ command, sentIn step = [(command, true)])
  failure : step.event.setsBacklight → step.result ≠ .code kIOReturnSuccess →
    step.after.world.backlight.currentPwmBacklightLevel =
      step.before.world.backlight.currentPwmBacklightLevel
  reading : ∀ framebuffer connectIndex value,
    step.event = .getAttribute framebuffer connectIndex fbAttributeBacklight value →
      step.result = .code kIOReturnSuccess ∧
        step.after.world.kernel.cells value = step.before.accepted.setWidth 64

/--
A set of the backlight goes to a panel without AUX that obeys, or is refused where it asks for the
level already recorded.
-/
def Settled (step : Step Session Event Outcome) : Prop :=
  ∀ framebuffer connectIndex value,
    step.event = .setAttribute framebuffer connectIndex fbAttributeBacklight value →
      let obeys := display.obeys step.before.world.kernel.sent.length
      let backlight := step.before.world.backlight
      (backlight.supportsAUX = false ∧ obeys = true) ∨
        (obeys = false ∧ value.setWidth 32 = backlight.currentPwmBacklightLevel)

def Scaled (session : Session) : Prop := session.world.backlight.maxPwmBacklightLevel ≠ 0

def LevelAccepted (session : Session) : Prop :=
  session.world.backlight.currentPwmBacklightLevel = session.accepted

theorem react_scaled (session : Session) (event : Event) (scaled : Scaled session) :
    Scaled (react constants display session event).2 := by
  simpa only [Scaled, react_backlight] using backlightAfter_scaled constants scaled event

section Set

variable {session : Session} (framebuffer : Pointer) (connectIndex : BitVec 32) (value : BitVec 64)

theorem react_set_result (scaled : Scaled session) :
    (react constants display session
      (.setAttribute framebuffer connectIndex fbAttributeBacklight value)).1 = .code kIOReturnSuccess ↔
      session.world.backlight.supportsAUX = false ∧
        display.obeys session.world.kernel.sent.length = true := by
  have outcome := (answer_set constants display framebuffer connectIndex value scaled).1
  simp only [react, outcome, Outcome.code.injEq]
  have different : kIOReturnDeviceError ≠ kIOReturnSuccess := by decide
  split <;> simp_all

theorem react_set_level :
    (react constants display session
      (.setAttribute framebuffer connectIndex fbAttributeBacklight
        value)).2.world.backlight.currentPwmBacklightLevel = value.setWidth 32 := by
  simp [react_backlight, backlightAfter]

theorem react_set_accepted :
    (react constants display session
      (.setAttribute framebuffer connectIndex fbAttributeBacklight value)).2.accepted =
      if (react constants display session
        (.setAttribute framebuffer connectIndex fbAttributeBacklight value)).1 =
          .code kIOReturnSuccess then value.setWidth 32 else session.accepted := by
  simp [react, acceptedAfter]

theorem sentIn_obeyed_iff (scaled : Scaled session) :
    (∃ command, sentIn (stepOf (react constants display) session
      (.setAttribute framebuffer connectIndex fbAttributeBacklight value)) = [(command, true)]) ↔
      display.obeys session.world.kernel.sent.length = true := by
  have sets : (Event.setAttribute framebuffer connectIndex fbAttributeBacklight value).setsBacklight :=
    rfl
  obtain ⟨_, sent⟩ := sentIn_set constants display sets scaled
  simp [sent]

-- In AUX mode a set never reports success, and a refused set keeps the level it asked for.
theorem set_reported_iff (scaled : Scaled session) :
    let step := stepOf (react constants display) session
      (.setAttribute framebuffer connectIndex fbAttributeBacklight value)
    ((step.result = .code kIOReturnSuccess ↔ ∃ command, sentIn step = [(command, true)]) ∧
      (step.result ≠ .code kIOReturnSuccess →
        step.after.world.backlight.currentPwmBacklightLevel =
          session.world.backlight.currentPwmBacklightLevel)) ↔
      (session.world.backlight.supportsAUX = false ∧
          display.obeys session.world.kernel.sent.length = true) ∨
        (display.obeys session.world.kernel.sent.length = false ∧
          value.setWidth 32 = session.world.backlight.currentPwmBacklightLevel) := by
  simp only [sentIn_obeyed_iff constants display framebuffer connectIndex value scaled, ne_eq,
    stepOf_result, stepOf_after, react_set_level,
    react_set_result constants display framebuffer connectIndex value scaled]
  cases session.world.backlight.supportsAUX <;>
    cases display.obeys session.world.kernel.sent.length <;> simp

end Set

theorem Event.exists_of_setsBacklight {event : Event} (sets : event.setsBacklight) :
    ∃ framebuffer connectIndex value,
      event = .setAttribute framebuffer connectIndex fbAttributeBacklight value := by
  match event, sets with
  | .setAttribute framebuffer connectIndex attr value, (same : attr = fbAttributeBacklight) =>
      exact ⟨framebuffer, connectIndex, value, by rw [same]⟩

theorem backlightAfter_level (backlight : Backlight) {event : Event} (quiet : ¬ event.setsBacklight) :
    (backlightAfter constants backlight event).currentPwmBacklightLevel =
      backlight.currentPwmBacklightLevel := by
  unfold backlightAfter
  split <;> try split
  -- the set itself is the one event ruled out
  all_goals first | rfl | exact absurd ‹_› quiet

theorem react_accepted_quiet (session : Session) {event : Event} (quiet : ¬ event.setsBacklight) :
    (react constants display session event).2.accepted = session.accepted := by
  cases event with
  | setAttribute framebuffer connectIndex attr value =>
      have other : attr ≠ fbAttributeBacklight := quiet
      simp [react, acceptedAfter, other]
  | _ => rfl

theorem reported_settled (session : Session) (event : Event) (scaled : Scaled session)
    (reported : Reported (stepOf (react constants display) session event)) :
    Settled display (stepOf (react constants display) session event) := by
  rintro framebuffer connectIndex value rfl
  exact (set_reported_iff constants display framebuffer connectIndex value scaled).mp
    ⟨reported.success rfl, reported.failure rfl⟩

theorem react_get (session : Session) (framebuffer value : Pointer) (connectIndex : BitVec 32) :
    let (outcome, after) := react constants display session
      (.getAttribute framebuffer connectIndex fbAttributeBacklight value)
    outcome = .code kIOReturnSuccess ∧
      after.world.kernel.cells value =
        session.world.backlight.currentPwmBacklightLevel.setWidth 64 := by
  simp [react, answer, wrapGetAttributeForConnection, Display.originals, withCells]

theorem settled_reported (session : Session) (event : Event) (scaled : Scaled session)
    (current : LevelAccepted session)
    (settled : Settled display (stepOf (react constants display) session event)) :
    Reported (stepOf (react constants display) session event) := by
  have told : ∀ framebuffer connectIndex value,
      event = .setAttribute framebuffer connectIndex fbAttributeBacklight value → _ :=
    fun framebuffer connectIndex value isSet =>
      (set_reported_iff constants display framebuffer connectIndex value scaled).mpr
        (settled framebuffer connectIndex value isSet)
  constructor
  case success =>
    intro sets
    obtain ⟨framebuffer, connectIndex, value, rfl⟩ := Event.exists_of_setsBacklight sets
    exact (told framebuffer connectIndex value rfl).1
  case failure =>
    intro sets
    obtain ⟨framebuffer, connectIndex, value, rfl⟩ := Event.exists_of_setsBacklight sets
    exact (told framebuffer connectIndex value rfl).2
  case reading =>
    rintro framebuffer connectIndex value rfl
    have level : session.world.backlight.currentPwmBacklightLevel = session.accepted := current
    have read := react_get constants display session framebuffer value connectIndex
    simpa only [stepOf_result, stepOf_after, stepOf_before, level] using read

theorem react_levelAccepted (session : Session) (event : Event) (scaled : Scaled session)
    (current : LevelAccepted session)
    (settled : Settled display (stepOf (react constants display) session event)) :
    LevelAccepted (react constants display session event).2 := by
  by_cases sets : event.setsBacklight
  case pos =>
    obtain ⟨framebuffer, connectIndex, value, rfl⟩ := Event.exists_of_setsBacklight sets
    have told := react_set_result constants display framebuffer connectIndex value scaled
    simp only [LevelAccepted, react_set_level, react_set_accepted, told]
    have settledHere := settled framebuffer connectIndex value rfl
    simp only [stepOf_before] at settledHere
    rcases settledHere with obeyed | ⟨refused, same⟩
    case inl => simp [obeyed]
    case inr =>
      have level : session.world.backlight.currentPwmBacklightLevel = session.accepted := current
      simp [refused, same, level]
  case neg =>
    simpa only [LevelAccepted, react_backlight, backlightAfter_level constants _ sets,
      react_accepted_quiet constants display session sets] using current

/-- Callers are told the truth in exactly the runs whose sets are all settled. -/
theorem run_reported_iff (cells : Pointer → BitVec 64) (events : List Event) :
    (∀ step ∈ run (react constants display) (initialSession cells) events, Reported step) ↔
      ∀ step ∈ run (react constants display) (initialSession cells) events,
        Settled display step := by
  have scaled : Scaled (initialSession cells) := (initial_follows constants cells).scaled
  exact forall_run_iff (react_scaled constants display) (react_levelAccepted constants display)
    (fun session event scaled _ => reported_settled constants display session event scaled)
    (settled_reported constants display) scaled rfl events

-- The AUX panel obeys and the caller is told of an error; the level it asked for is recorded.
theorem aux_set_reported_failed :
    ¬ ∀ step ∈ run (react exampleConstants (exampleDisplay fun _ => true)) (initialSession fun _ => 0)
        [.linkCreate (some (exampleLink exampleConstants.signalTypeEDP)),
          .setAttribute 0x1000 0 fbAttributeBacklight 0x8000],
      Reported step := by
  intro reported
  have second := reported (stepOf _ _ _) (List.mem_cons_of_mem _ List.mem_cons_self)
  have kept := second.failure rfl (by decide)
  exact absurd kept (by decide)

end NootedDeck.Backlight
