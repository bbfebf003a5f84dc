import NootedDeck.Shared.Locking

set_option autoImplicit false

namespace NootedDeck.Lilu

open Locking

inductive ApiError where
  | noError
  | lockError
  | memoryError
  | unsupportedFeature
  | incompatibleOS
  | disabled
  | tooLate
  | offline
deriving DecidableEq

inductive Registry where
  | patcherLoadedCallbacks
  | kextLoadedCallbacks
  | storedKexts
deriving DecidableEq

structure Api (ι κ : Type) where
  apiRequestsOver : Bool
  vectors : Registry → List (ι × κ)

-- The calls of a plugin. `memory` says whether the entry can be allocated and stored.
inductive Call (κ : Type) where
  | onPatcherLoad (callback : κ) (memory : Bool)
  | onKextLoad (infos : Option κ) (callback : Option κ) (memory : Registry → Bool)

structure Plugin (κ : Type) where
  startSuccess : Bool
  versionSupported : Bool
  check : Bool
  shouldLoad : ApiError
  calls : List (Call κ)

inductive Outcome (ι κ : Type) where
  | started (error : ApiError)
  | processed (entries : Registry → List (ι × κ))

variable {ι κ : Type}

abbrev Client (ι κ α : Type) := Thread (Api ι κ) α

def Api.push (plugin : ι) (vector : Registry) (value : κ) (api : Api ι κ) : Api ι κ :=
  { api with vectors :=
      Function.update api.vectors vector (api.vectors vector ++ [(plugin, value)]) }

-- The `Force` variants panic on any error.
def pushForce (plugin : ι) (vector : Registry) (memory : Bool) (value : κ) : Client ι κ Unit :=
  if memory then Thread.modify (Api.push plugin vector value) else .panic

def pushOptional (plugin : ι) (vector : Registry) (memory : Bool) : Option κ → Client ι κ Unit
  | none => pure ()
  | some value => pushForce plugin vector memory value

def Call.perform (plugin : ι) : Call κ → Client ι κ Unit
  | .onPatcherLoad callback memory => pushForce plugin .patcherLoadedCallbacks memory callback
  | .onKextLoad infos callback memory => do
      -- The callback comes first.
      pushOptional plugin .kextLoadedCallbacks (memory .kextLoadedCallbacks) callback
      pushOptional plugin .storedKexts (memory .storedKexts) infos

def pluginStart (plugin : ι) : List (Call κ) → Client ι κ Unit
  | [] => pure ()
  | call :: rest => do
      call.perform plugin
      pluginStart plugin rest

def enterAccess : Client ι κ ApiError := do
  let api ← Thread.get
  if api.apiRequestsOver then do
    Thread.unlock
    pure .tooLate
  else pure .noError

def requestAccess (request : Plugin κ) : Client ι κ ApiError :=
  if request.startSuccess = false then pure .offline
  else if request.versionSupported = false then pure .unsupportedFeature
  else if request.check then do
    let taken ← Thread.tryLock
    if taken then enterAccess else pure .lockError
  else do
    Thread.lock
    enterAccess

def kernStart (plugin : ι) (request : Plugin κ) : Client ι κ (Outcome ι κ) := do
  let error ← requestAccess request
  if error = .noError then do
    Thread.onlyIf (request.shouldLoad = .noError) (pluginStart plugin request.calls)
    Thread.unlock
    pure (.started request.shouldLoad)
  else pure (.started error)

def finaliseRequests : Client ι κ Unit := do
  Thread.lock
  Thread.modify fun api => { api with apiRequestsOver := true }
  Thread.unlock

-- `for (size_t i = index; i < vector.size(); i++)`, for `rounds` rounds at most. The vector is
-- looked at afresh in every round.
def forEach (vector : Registry) : Nat → Nat → Client ι κ (List (ι × κ))
  | 0, _ => pure []
  | rounds + 1, index => do
      let api ← Thread.get
      match (api.vectors vector)[index]? with
      | none => pure []
      | some entry => do
          let rest ← forEach vector rounds (index + 1)
          pure (entry :: rest)

def performInit (rounds : Nat) : Client ι κ (Outcome ι κ) := do
  finaliseRequests
  let patcherCallbacks ← forEach .patcherLoadedCallbacks rounds 0
  let kexts ← forEach .storedKexts rounds 0
  let kextCallbacks ← forEach .kextLoadedCallbacks rounds 0
  pure (.processed fun
    | .patcherLoadedCallbacks => patcherCallbacks
    | .storedKexts => kexts
    | .kextLoadedCallbacks => kextCallbacks)

section Entries

variable [DecidableEq ι]

def own (plugin : ι) (api : Api ι κ) (vector : Registry) : List κ :=
  (api.vectors vector).filterMap fun entry => if entry.1 = plugin then some entry.2 else none

def Call.adds (vector : Registry) : Call κ → List κ
  | .onPatcherLoad callback _ => if vector = .patcherLoadedCallbacks then [callback] else []
  | .onKextLoad infos callback _ =>
      match vector with
      | .patcherLoadedCallbacks => []
      | .kextLoadedCallbacks => callback.toList
      | .storedKexts => infos.toList

def registered (calls : List (Call κ)) (vector : Registry) : List κ :=
  calls.flatMap (Call.adds vector)

theorem own_push (plugin : ι) (pushed vector : Registry) (value : κ) (api : Api ι κ) :
    own plugin (api.push plugin pushed value) vector =
      own plugin api vector ++ if vector = pushed then [value] else [] := by
  by_cases same : vector = pushed
  · subst same
    simp [own, Api.push]
  · simp [own, Api.push, same]

theorem own_push_other {plugin other : ι} (different : other ≠ plugin) (pushed : Registry) (value : κ)
    (api : Api ι κ) : own other (api.push plugin pushed value) = own other api := by
  funext vector
  by_cases same : vector = pushed
  · subst same
    simp [own, Api.push, Ne.symm different]
  · simp [own, Api.push, same]

end Entries

section Protocol

variable [DecidableEq ι]

-- The thread of a plugin is the only one that adds its entries; `none` is the thread of Lilu. Once
-- the registration is closed nothing changes.
def Counts (thread : Option ι) (before after : Api ι κ) : Prop :=
  (∀ plugin, thread = some plugin → own plugin after = own plugin before) ∧
    (before.apiRequestsOver = true → after = before)

def Promises (thread : Option ι) (before after : Api ι κ) : Prop :=
  (∀ plugin, thread ≠ some plugin → own plugin after = own plugin before) ∧
    (before.apiRequestsOver = true → after = before)

theorem counts_promises : Pool.Compatible (@Counts ι κ _) Promises := by
  constructor
  · intro thread api
    exact ⟨fun _ _ => rfl, fun _ => rfl⟩
  · intro thread first second third before after
    constructor
    · intro plugin same
      exact (after.1 plugin same).trans (before.1 plugin same)
    · intro closed
      have same := before.2 closed
      subst same
      exact after.2 closed
  · intro thread other different before after promised
    refine ⟨fun plugin same => promised.1 plugin fun also => different ?_, promised.2⟩
    exact also.trans same.symm

def Added (plugin : ι) (before : Api ι κ) (more : Registry → List κ) (after : Api ι κ) : Prop :=
  after.apiRequestsOver = false ∧
    ∀ vector, own plugin after vector = own plugin before vector ++ more vector

section Plugin

variable {plugin : ι} {before api : Api ι κ} {more : Registry → List κ}

theorem Added.pushForce_safe (added : Added plugin before more api) (vector : Registry) (memory : Bool)
    (value : κ) :
    Thread.Safe (fun _ => True) (Counts (some plugin)) (Promises (some plugin))
      (fun held _ after => held = true ∧
        Added plugin before (fun other => more other ++ if other = vector then [value] else []) after)
      true (pushForce plugin vector memory value) api := by
  cases memory with
  | false => trivial
  | true =>
      refine ⟨⟨fun other different => ?_, fun closed => ?_⟩, rfl, added.1, fun other => ?_⟩
      · exact own_push_other (fun same => different (congrArg some same.symm)) vector value api
      · rw [added.1] at closed
        cases closed
      · rw [own_push, added.2, List.append_assoc]

theorem Added.pushOptional_safe (added : Added plugin before more api) (vector : Registry)
    (memory : Bool) (value : Option κ) :
    Thread.Safe (fun _ => True) (Counts (some plugin)) (Promises (some plugin))
      (fun held _ after => held = true ∧
        Added plugin before (fun other => more other ++ if other = vector then value.toList else [])
          after)
      true (pushOptional plugin vector memory value) api := by
  cases value with
  | none =>
      refine ⟨rfl, added.1, fun other => ?_⟩
      simp [added.2 other]
  | some value => exact added.pushForce_safe vector memory value

theorem Added.perform_safe (added : Added plugin before more api) (call : Call κ) :
    Thread.Safe (fun _ => True) (Counts (some plugin)) (Promises (some plugin))
      (fun held _ after => held = true ∧
        Added plugin before (fun vector => more vector ++ call.adds vector) after)
      true (call.perform plugin) api := by
  cases call with
  | onPatcherLoad callback memory => exact added.pushForce_safe .patcherLoadedCallbacks memory callback
  | onKextLoad infos callback memory =>
      refine (added.pushOptional_safe .kextLoadedCallbacks (memory .kextLoadedCallbacks) callback).bind
        (counts_promises.refl _) ?_
      intro held _ stored both
      obtain ⟨rfl, with_callback⟩ := both
      refine (with_callback.pushOptional_safe .storedKexts (memory .storedKexts) infos).imp ?_
      intro held _ after both
      refine ⟨both.1, both.2.1, fun vector => ?_⟩
      rw [both.2.2 vector]
      cases vector <;> simp [Call.adds]

theorem Added.pluginStart_safe (added : Added plugin before more api) (calls : List (Call κ)) :
    Thread.Safe (fun _ => True) (Counts (some plugin)) (Promises (some plugin))
      (fun held _ after => held = true ∧
        Added plugin before (fun vector => more vector ++ registered calls vector) after)
      true (pluginStart plugin calls) api := by
  induction calls generalizing api more with
  | nil =>
      refine ⟨rfl, added.1, fun vector => ?_⟩
      simp [added.2 vector, registered]
  | cons call rest ih =>
      refine (added.perform_safe call).bind (counts_promises.refl _) ?_
      intro held _ performed both
      obtain ⟨rfl, with_call⟩ := both
      refine (ih with_call).imp ?_
      intro held _ after both
      refine ⟨both.1, both.2.1, fun vector => ?_⟩
      rw [both.2.2 vector]
      simp [registered]

def Requested (plugin : ι) (held : Bool) (error : ApiError) (api : Api ι κ) : Prop :=
  (∀ vector, own plugin api vector = []) ∧
    if error = .noError then held = true ∧ api.apiRequestsOver = false else held = false

theorem enterAccess_safe (none : ∀ vector, own plugin api vector = []) :
    Thread.Safe (fun _ => True) (Counts (some plugin)) (Promises (some plugin)) (Requested plugin)
      true enterAccess api := by
  simp only [enterAccess, Thread.safe_get_bind]
  cases closed : api.apiRequestsOver with
  | false => exact ⟨none, rfl, closed⟩
  | true =>
      refine ⟨trivial, fun later relied => ⟨fun vector => ?_, rfl⟩⟩
      rw [relied.1 plugin rfl, none vector]

theorem requestAccess_safe (request : Plugin κ) (none : ∀ vector, own plugin api vector = []) :
    Thread.Safe (fun _ => True) (Counts (some plugin)) (Promises (some plugin)) (Requested plugin)
      false (requestAccess request) api := by
  have still {later : Api ι κ} (relied : Counts (some plugin) api later) :
      ∀ vector, own plugin later vector = [] := by
    intro vector
    rw [relied.1 plugin rfl, none vector]
  unfold requestAccess
  split
  · exact fun later relied => ⟨still relied, rfl⟩
  · split
    · exact fun later relied => ⟨still relied, rfl⟩
    · split
      · intro later relied
        constructor
        · exact fun _ => enterAccess_safe (still relied)
        · intro last more
          refine ⟨fun vector => ?_, rfl⟩
          rw [more.1 plugin rfl, still relied vector]
      · exact fun later relied _ => enterAccess_safe (still relied)

def Settled (plugin : ι) (request : Plugin κ) (outcome : Outcome ι κ) (api : Api ι κ) : Prop :=
  ∃ error, outcome = .started error ∧ ∀ vector,
    own plugin api vector = if error = .noError then registered request.calls vector else []

theorem kernStart_safe (request : Plugin κ) (none : ∀ vector, own plugin api vector = []) :
    Thread.Safe (fun _ => True) (Counts (some plugin)) (Promises (some plugin))
      (fun held outcome after => held = false ∧ Settled plugin request outcome after)
      false (kernStart plugin request) api := by
  refine (requestAccess_safe request none).bind (counts_promises.refl _) ?_
  intro held error entered both
  obtain ⟨empty, answer⟩ := both
  by_cases granted : error = .noError
  · simp only [granted, if_true] at answer ⊢
    obtain ⟨rfl, opened⟩ := answer
    have fresh : Added plugin entered (fun _ => []) entered := by
      refine ⟨opened, fun vector => ?_⟩
      rw [List.append_nil]
    by_cases loads : request.shouldLoad = .noError
    · simp only [loads, decide_true, Thread.onlyIf_true]
      refine (fresh.pluginStart_safe request.calls).bind (counts_promises.refl _) ?_
      intro held _ after both
      obtain ⟨rfl, -, all⟩ := both
      refine ⟨trivial, fun later relied => ⟨rfl, _, rfl, fun vector => ?_⟩⟩
      rw [relied.1 plugin rfl, all vector, empty vector]
      rfl
    · simp only [loads, decide_false, Thread.onlyIf_false, Thread.pure_bind]
      refine ⟨trivial, fun later relied => ⟨rfl, _, rfl, fun vector => ?_⟩⟩
      rw [relied.1 plugin rfl, empty vector, if_neg loads]
  · simp only [granted, if_false] at answer ⊢
    subst answer
    refine fun later relied => ⟨rfl, error, rfl, fun vector => ?_⟩
    rw [relied.1 plugin rfl, empty vector, if_neg granted]

end Plugin

section Init

variable {api : Api ι κ}

theorem forEach_safe (closed : api.apiRequestsOver = true) (vector : Registry) (rounds index : Nat) :
    Thread.Safe (fun _ => True) (Counts none) (Promises none)
      (fun held entries after => held = false ∧ after = api ∧
        entries = ((api.vectors vector).drop index).take rounds)
      false (forEach vector rounds index) api := by
  induction rounds generalizing index with
  | zero => exact fun later relied => ⟨rfl, relied.2 closed, rfl⟩
  | succ rounds ih =>
      simp only [forEach, Thread.safe_get_bind_unlocked]
      intro later relied
      rw [relied.2 closed]
      cases found : (api.vectors vector)[index]? with
      | none =>
          have beyond := List.getElem?_eq_none_iff.mp found
          refine fun last more => ⟨rfl, more.2 closed, ?_⟩
          rw [List.drop_eq_nil_of_le beyond, List.take_nil]
      | some entry =>
          refine (ih (index + 1)).bind (counts_promises.refl _) ?_
          intro held rest after both
          obtain ⟨rfl, rfl, rfl⟩ := both
          refine fun last more => ⟨rfl, more.2 closed, ?_⟩
          obtain ⟨within, rfl⟩ := List.getElem?_eq_some_iff.mp found
          rw [List.drop_eq_getElem_cons within, List.take_succ_cons]

def Processed (rounds : Nat) (outcome : Outcome ι κ) (api : Api ι κ) : Prop :=
  ∃ entries, outcome = .processed entries ∧ api.apiRequestsOver = true ∧
    ∀ vector, entries vector = (api.vectors vector).take rounds

theorem performInit_safe (rounds : Nat) :
    Thread.Safe (fun _ => True) (Counts none) (Promises none)
      (fun held outcome after => held = false ∧ Processed rounds outcome after)
      false (performInit rounds) api := by
  simp only [performInit, finaliseRequests, Thread.bind_assoc, Thread.safe_lock_bind,
    Thread.safe_modify_bind]
  intro taken _ _
  refine ⟨⟨fun _ _ => rfl, fun closed => ?_⟩, trivial, ?_⟩
  · cases taken
    cases closed
    rfl
  · refine (forEach_safe rfl _ rounds 0).bind (counts_promises.refl _) ?_
    intro held patcherCallbacks _ both
    obtain ⟨rfl, rfl, called⟩ := both
    refine (forEach_safe rfl _ rounds 0).bind (counts_promises.refl _) ?_
    intro held kexts _ both
    obtain ⟨rfl, rfl, waited⟩ := both
    refine (forEach_safe rfl _ rounds 0).bind (counts_promises.refl _) ?_
    intro held kextCallbacks _ both
    obtain ⟨rfl, rfl, notified⟩ := both
    intro later relied
    rw [relied.2 rfl]
    refine ⟨rfl, _, rfl, rfl, fun vector => ?_⟩
    cases vector with
    | patcherLoadedCallbacks => exact called
    | kextLoadedCallbacks => exact notified
    | storedKexts => exact waited

end Init

section Pools

variable (requests : ι → Plugin κ) (rounds : Nat)

def startup (schedule : List (Option ι)) : Pool (Option ι) (Api ι κ) (Outcome ι κ) :=
  Pool.interleave ⟨fun
    | some plugin => kernStart plugin (requests plugin)
    | none => performInit rounds, ⟨false, fun _ => []⟩, none⟩ schedule

def Ends : Option ι → Bool → Outcome ι κ → Api ι κ → Prop
  | some plugin, held, outcome, api => held = false ∧ Settled plugin (requests plugin) outcome api
  | none, held, outcome, api => held = false ∧ Processed rounds outcome api

theorem startup_sound (schedule : List (Option ι)) :
    Pool.Sound (fun _ => True) Counts Promises (Ends requests rounds)
      (startup requests rounds schedule) := by
  apply Pool.Sound.interleave counts_promises
  constructor
  · intro _
    trivial
  · intro thread
    cases thread with
    | none => exact performInit_safe rounds
    | some plugin => exact kernStart_safe (requests plugin) fun _ => rfl

theorem startup_closed (schedule more : List (Option ι))
    (closed : (startup requests rounds schedule).state.apiRequestsOver = true) :
    (startup requests rounds (schedule ++ more)).state = (startup requests rounds schedule).state := by
  have sound := startup_sound requests rounds schedule
  have later : startup requests rounds (schedule ++ more) =
      (startup requests rounds schedule).interleave more := List.foldl_append
  rw [later]
  apply sound.invariant counts_promises
    fun _ state => state = (startup requests rounds schedule).state
  · intro _ _ same
    exact same
  · intro thread before after same promised
    subst same
    exact promised.2 closed
  · intro _ _ same _
    exact same
  · rfl

/--
However plugins and Lilu interleave: once Lilu has gone through the vectors, it went through what
they hold, and they never change again; and of every plugin that has ended they hold all that it
registered, in its order, if it was told that there is no error, and nothing otherwise.
-/
theorem registrations_delivered (schedule : List (Option ι)) (entries : Registry → List (ι × κ))
    (through : (startup requests rounds schedule).threads none = .done (.processed entries)) :
    (∀ vector, entries vector =
        ((startup requests rounds schedule).state.vectors vector).take rounds) ∧
      (∀ more, (startup requests rounds (schedule ++ more)).state =
        (startup requests rounds schedule).state) ∧
      ∀ plugin error, (startup requests rounds schedule).threads (some plugin) =
          .done (.started error) →
        ∀ vector, own plugin (startup requests rounds schedule).state vector =
          if error = .noError then registered (requests plugin).calls vector else [] := by
  have sound := startup_sound requests rounds schedule
  obtain ⟨-, went, same, closed, taken⟩ := sound.finished counts_promises through
  cases same
  refine ⟨taken, fun more => startup_closed requests rounds schedule more closed, ?_⟩
  intro plugin error ended
  obtain ⟨-, told, same, all⟩ := sound.finished counts_promises ended
  cases same
  exact all

def exampleRequests : Bool → Plugin Nat := fun _ =>
  ⟨true, true, false, .noError, [.onPatcherLoad 1 true, .onKextLoad (some 2) (some 3) fun _ => true]⟩

def exampleSchedule : List (Option Bool) :=
  List.replicate 6 (some true) ++ List.replicate 9 none ++ List.replicate 3 (some false)

theorem registrations_delivered_example :
    ∃ entries, (startup exampleRequests 2 exampleSchedule).threads none = .done (.processed entries) ∧
      entries .storedKexts = [(true, 2)] ∧
      (∀ vector, own true (startup exampleRequests 2 exampleSchedule).state vector =
        registered (exampleRequests true).calls vector) ∧
      ∀ vector, own false (startup exampleRequests 2 exampleSchedule).state vector = [] := by
  obtain ⟨taken, -, ended⟩ := registrations_delivered exampleRequests 2 exampleSchedule _ rfl
  exact ⟨_, rfl, taken .storedKexts, ended true .noError rfl, ended false .tooLate rfl⟩

end Pools

end Protocol

end NootedDeck.Lilu
