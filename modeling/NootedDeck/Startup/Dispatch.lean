import NootedDeck.Lilu.KextDelivery
import NootedDeck.Startup.Module

set_option autoImplicit false

-- Several modules ask for the same kext, each with an information of its own, and every module is
-- called for every kext that anyone asked for. A module finds its kext by the index that Lilu put
-- into its information.

namespace NootedDeck.Startup

open Lilu Interleaving

def Kext.identifier : Kext → String
  | .appleGraphicsDevicePolicy => "com.apple.driver.AppleGraphicsDevicePolicy"
  | .radeonX6000Framebuffer => "com.apple.kext.AMDRadeonX6000Framebuffer"
  | .appleBacklight => "com.apple.driver.AppleBacklight"
  | .appleMCCSControl => "com.apple.driver.AppleMCCSControl"
  | .appleGFXHDA => "com.apple.driver.AppleGFXHDA"
  | .other => ""

def Kext.info (kext : Kext) : KextInfo := ⟨kext.identifier, 1, true, false, false, false, unloaded⟩

def Callback.kexts : Callback → List Kext
  | .hotfixesAGDP => [.appleGraphicsDevicePolicy]
  | .hotfixesX6000FB => [.radeonX6000Framebuffer]
  | .backlight => [.radeonX6000Framebuffer, .appleBacklight, .appleMCCSControl]
  | .debugEnabler => [.radeonX6000Framebuffer]
  | .vanGoghX6000FB => [.radeonX6000Framebuffer]
  | .vanGoghAppleGFXHDA => [.appleGFXHDA]

def Boot.wanted (boot : Boot) : List (Callback × Kext) :=
  boot.callbacks.flatMap fun callback => callback.kexts.map (callback, ·)

def Boot.requests (boot : Boot) (around : Callback × Kext → Surroundings) :
    List (Surroundings × KextInfo) :=
  boot.wanted.map fun request => (around request, request.2.info)

def Boot.loadIndex (boot : Boot) (infos : List KextInfo) (request : Callback × Kext) : Nat :=
  (infos[boot.wanted.idxOf request]?.map (·.loadIndex)).getD unloaded

structure Work where
  callback : Callback
  kext : Kext
  address : Nat
  size : Nat
deriving DecidableEq

def Callback.processKext (callback : Callback) (loadIndex : Callback × Kext → Nat) (id : Nat) :
    Option Kext :=
  callback.kexts.find? fun kext => loadIndex (callback, kext) == id

-- `running` is the size that `updateRunningInfo` answers.
def processKextLoadCallbacks (boot : Boot) (loadIndex : Callback × Kext → Nat)
    (running : Delivery → Nat) (delivery : Delivery) : List Work :=
  boot.callbacks.filterMap fun callback =>
    (callback.processKext loadIndex delivery.index).map fun kext =>
      ⟨callback, kext, delivery.address, running delivery⟩

def workOf (boot : Boot) (loadIndex : Callback × Kext → Nat) (running : Delivery → Nat)
    (deliveries : List Delivery) : List Work :=
  deliveries.flatMap (processKextLoadCallbacks boot loadIndex running)

theorem Kext.identifier_injective {first second : Kext}
    (same : first.identifier = second.identifier) : first = second := by
  cases first <;> cases second <;> first | rfl | simp [Kext.identifier] at same

theorem Boot.callbacks_nodup (boot : Boot) : boot.callbacks.Nodup := by
  cases wanted : boot.backlightWanted <;> cases debug : boot.debugEnabled <;>
    simp [Boot.callbacks, wanted, debug]

section Dispatch

variable {boot : Boot} (kernel : String) (around : Callback × Kext → Surroundings)

theorem Boot.mem_wanted {callback : Callback} {kext : Kext} (registered : callback ∈ boot.callbacks)
    (asks : kext ∈ callback.kexts) : (callback, kext) ∈ boot.wanted := by
  simp [Boot.wanted, registered, asks]

theorem Boot.requests_fresh (request : Surroundings × KextInfo)
    (member : request ∈ boot.requests around) : request.2.loadIndex = unloaded := by
  obtain ⟨_, -, rfl⟩ := List.mem_map.mp member
  rfl

theorem Boot.requests_plain (request : Surroundings × KextInfo)
    (member : request ∈ boot.requests around) : request.2.plain = true := by
  have all : ∀ kext : Kext, kext.info.plain = true := by
    intro kext
    cases kext <;> decide
  obtain ⟨request, -, rfl⟩ := List.mem_map.mp member
  exact all request.2

theorem Boot.info_of_wanted {request : Callback × Kext} (wanted : request ∈ boot.wanted) :
    ∃ info ∈ (queueKexts (boot.requests around) (.initial kernel)).1,
      info.id = request.2.identifier ∧
      boot.loadIndex (queueKexts (boot.requests around) (.initial kernel)).1 request =
        info.loadIndex := by
  have infos := queueKexts_infos (boot.requests around) (.initial kernel)
  generalize (queueKexts (boot.requests around) (.initial kernel)).1 = queued at infos ⊢
  have place : boot.wanted[boot.wanted.idxOf request]? = some request :=
    List.getElem?_idxOf wanted
  have reset := congrArg (·[boot.wanted.idxOf request]?) infos
  simp only [Boot.requests, List.map_map, List.getElem?_map, place, Option.map_some,
    Function.comp_apply] at reset
  obtain ⟨info, here, same⟩ := Option.map_eq_some_iff.mp reset
  refine ⟨info, List.mem_of_getElem? here, congrArg KextInfo.id same, ?_⟩
  simp [Boot.loadIndex, here]

theorem Boot.kext_of_loadIndex {first second : Callback × Kext} (one : first ∈ boot.wanted)
    (two : second ∈ boot.wanted) {id : Nat} (nonzero : id ≠ unloaded)
    (same : boot.loadIndex (queueKexts (boot.requests around) (.initial kernel)).1 first = id)
    (equal : boot.loadIndex (queueKexts (boot.requests around) (.initial kernel)).1 second = id) :
    first.2 = second.2 := by
  have consistent := (Listener.initial_consistent kernel).queueAll (boot.requests around)
    (Boot.requests_fresh around)
  rw [List.nil_append] at consistent
  obtain ⟨info, member, named, index⟩ := Boot.info_of_wanted kernel around one
  obtain ⟨other, among, called, found⟩ := Boot.info_of_wanted kernel around two
  have known := consistent.indices info member (by rw [← index, same]; exact nonzero)
  have knows := consistent.indices other among (by rw [← found, equal]; exact nonzero)
  rw [← index, same, named] at known
  rw [← found, equal, called, known] at knows
  exact Kext.identifier_injective (Option.some.inj knows)

theorem Boot.any_handler_iff (ended : (queueKexts (boot.requests around) (.initial kernel)).2.2 = true)
    {request : Callback × Kext} (wanted : request ∈ boot.wanted) :
    (queueKexts (boot.requests around) (.initial kernel)).2.1.khandlers.any (·.index ==
        boot.loadIndex (queueKexts (boot.requests around) (.initial kernel)).1 request) = true ↔
      boot.loadIndex (queueKexts (boot.requests around) (.initial kernel)).1 request ≠ unloaded := by
  have consistent := (Listener.initial_consistent kernel).queueAll (boot.requests around)
    (Boot.requests_fresh around)
  rw [List.nil_append] at consistent
  obtain ⟨info, member, -, index⟩ := Boot.info_of_wanted kernel around wanted
  rw [index, List.any_eq_true]
  constructor
  · rintro ⟨handler, present, same⟩
    rw [beq_iff_eq] at same
    exact same ▸ (consistent.handlers handler present).1
  · intro loads
    obtain ⟨within, _⟩ := List.getElem?_eq_some_iff.mp (consistent.indices info member loads)
    obtain ⟨handler, present, same⟩ := Listener.attended kernel (boot.requests around)
      (Boot.requests_fresh around) ended info.loadIndex within loads
    exact ⟨handler, present, beq_iff_eq.mpr same⟩

section Found

variable {loadIndex : Callback × Kext → Nat} {callback : Callback} {kext : Kext}

theorem Callback.processKext_eq_some {id : Nat} (asks : kext ∈ callback.kexts)
    (distinct : ∀ another ∈ callback.kexts, loadIndex (callback, another) = id →
      loadIndex (callback, kext) = id → another = kext) :
    callback.processKext loadIndex id = some kext ↔ loadIndex (callback, kext) = id := by
  constructor
  · intro found
    simpa using List.find?_some found
  · intro same
    cases found : callback.processKext loadIndex id with
    | none =>
        have none := List.find?_eq_none.mp found kext asks
        simp [same] at none
    | some another =>
        have here := List.find?_some found
        simp only [beq_iff_eq] at here
        rw [distinct another (List.mem_of_find?_eq_some found) here same]

theorem filterMap_only {α β : Type} [DecidableEq α] {all : List α} {one : α} (result : Option β)
    (distinct : all.Nodup) (member : one ∈ all) :
    all.filterMap (fun other => if other = one then result else none) = result.toList := by
  induction all with
  | nil => cases member
  | cons other rest ih =>
      rw [List.nodup_cons] at distinct
      by_cases same : other = one
      · have nothing : rest.filterMap (fun other => if other = one then result else none) = [] := by
          rw [List.filterMap_eq_nil_iff]
          intro later present
          have different : later ≠ one := by
            rintro rfl
            exact distinct.1 (same ▸ present)
          simp [different]
        cases result <;> simp [same, nothing]
      · have present : one ∈ rest := by simpa [Ne.symm same] using member
        simpa [same] using ih distinct.2 present

theorem work_filter (running : Delivery → Nat) (registered : callback ∈ boot.callbacks)
    (asks : kext ∈ callback.kexts) (deliveries : List Delivery)
    (distinct : ∀ delivery ∈ deliveries, ∀ another ∈ callback.kexts,
      loadIndex (callback, another) = delivery.index → loadIndex (callback, kext) = delivery.index →
        another = kext) :
    (workOf boot loadIndex running deliveries).filter
        (fun work => work.callback == callback && work.kext == kext) =
      (deliveries.filter (·.index == loadIndex (callback, kext))).map fun delivery =>
        ⟨callback, kext, delivery.address, running delivery⟩ := by
  induction deliveries with
  | nil => rfl
  | cons delivery rest ih =>
      rw [List.forall_mem_cons] at distinct
      have mine := Callback.processKext_eq_some asks distinct.1
      have one : (processKextLoadCallbacks boot loadIndex running delivery).filter
            (fun work => work.callback == callback && work.kext == kext) =
          (if loadIndex (callback, kext) = delivery.index then
            some ⟨callback, kext, delivery.address, running delivery⟩ else none).toList := by
        rw [← filterMap_only _ boot.callbacks_nodup registered, processKextLoadCallbacks,
          List.filter_filterMap]
        congr 1
        funext other
        by_cases same : other = callback
        · subst same
          cases found : other.processKext loadIndex delivery.index with
          | none => simp [← mine, found]
          | some taken =>
              by_cases equal : taken = kext <;> simp [← mine, found, equal]
        · cases found : other.processKext loadIndex delivery.index <;> simp [same]
      rw [workOf, List.flatMap_cons, List.filter_append, one]
      rw [workOf] at ih
      rw [ih distinct.2]
      by_cases same : loadIndex (callback, kext) = delivery.index
      · simp [same]
      · simp [same, Ne.symm same]

end Found

def Boot.session (boot : Boot) (kernel : String) (around : Callback × Kext → Surroundings)
    (kinfos : Nat → Binary) (kmods : List Kmod) (operations : List Operation) : Session :=
  queuedSession kernel (boot.requests around) kinfos kmods operations

end Dispatch

def quietAround : Callback × Kext → Surroundings := fun _ => ⟨.loaded, true, true, true, true⟩

def debugBoot : Boot := ⟨.ventura, true, true⟩

def debugSession : Session :=
  debugBoot.session "kernel" quietAround collected [framebuffer] [.load Lilu.backlight]

def debugSchedule : List Party := List.replicate 40 .activation ++ List.replicate 40 .kexts

end NootedDeck.Startup
