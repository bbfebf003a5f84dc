import NootedDeck.Lilu.KextArrivals

set_option autoImplicit false

namespace NootedDeck.Lilu

open Interleaving

section Requests

variable {infos : List KextInfo} {listener : Listener} {requests : List (Surroundings × KextInfo)}

def KextInfo.matches (kinfos : Nat → Binary) (info : KextInfo) (kmod : Kmod) : Bool :=
  info.id.toList.take kmodMaxName == kmod.name.toList.take kmodMaxName &&
    (kinfos info.loadIndex).isCurrentBinary kmod

-- How the plugins of this driver ask: for kexts that may be loaded already, and only once.
def KextInfo.plain (info : KextInfo) : Bool :=
  info.loaded && !info.reloadable && info.id.toList.length ≤ kmodMaxName

theorem mem_queueKexts {info : KextInfo} (member : info ∈ (queueKexts requests listener).1)
    (plain : ∀ request ∈ requests, request.2.plain = true) : info.plain = true := by
  have reset : { info with loadIndex := unloaded } ∈
      (queueKexts requests listener).1.map ({ · with loadIndex := unloaded }) :=
    List.mem_map_of_mem member
  rw [queueKexts_infos] at reset
  obtain ⟨request, among, same⟩ := List.mem_map.mp reset
  rw [KextInfo.mk.injEq] at same
  obtain ⟨id, -, loaded, reloadable, -, -, -⟩ := same
  have asks := plain request among
  rwa [KextInfo.plain, id, loaded, reloadable] at asks

def Waits (listener : Listener) : Prop :=
  listener.khandlers ≠ [] → listener.waitingForAlreadyLoadedKexts = true

theorem Waits.round (waits : Waits listener) {info : KextInfo} {next : KextInfo × Listener × Bool}
    (loaded : info.loaded = true) (turn : Queued info listener next) : Waits next.2.1 := by
  cases turn with
  | skipped => exact waits
  | shared index known =>
      intro some
      apply waits
      intro none
      rw [none] at some
      exact some rfl
  | started unknown =>
      intro _
      simp [loaded]
  | stopped unknown listening waiting still => exact fun some => still (waits some)

theorem queueKext_flags (around : Surroundings) (info : KextInfo) (listener : Listener) :
    (queueKext around info listener).2.1.activated = listener.activated ∧
      (queueKext around info listener).2.1.isKextUnloading = listener.isKextUnloading := by
  have loads : (loadKextInfo around info listener).2.activated = listener.activated ∧
      (loadKextInfo around info listener).2.isKextUnloading = listener.isKextUnloading := by
    unfold loadKextInfo loadKinfo
    grind
  unfold queueKext listenTo waitOnKext setupKextListening updateKextHandlerFeatures
    Listener.clearError
  grind

theorem queueKexts_flags (requests : List (Surroundings × KextInfo)) (listener : Listener) :
    (queueKexts requests listener).2.1.activated = listener.activated ∧
      (queueKexts requests listener).2.1.isKextUnloading = listener.isKextUnloading := by
  induction requests generalizing listener with
  | nil => exact ⟨rfl, rfl⟩
  | cons request rest ih =>
      obtain ⟨around, info⟩ := request
      have first := queueKext_flags around info listener
      rw [queueKexts]
      split
      case h_1 stopped => rwa [stopped] at first
      case h_2 goesOn =>
        rw [goesOn] at first
        exact ⟨(ih _).1.trans first.1, (ih _).2.trans first.2⟩

theorem plain_iff {info : KextInfo} : info.plain = true ↔
    info.loaded = true ∧ info.reloadable = false ∧ info.id.toList.length ≤ kmodMaxName := by
  simp [KextInfo.plain, and_assoc]

theorem Consistent.plain_handler (consistent : Consistent infos listener)
    (plain : ∀ info ∈ infos, info.plain = true) {handler : KextHandler}
    (member : handler ∈ listener.khandlers) : handler.loaded = true ∧ handler.reloadable = false := by
  obtain ⟨info, among, same⟩ := consistent.requested handler member
  obtain ⟨loaded, reloadable⟩ := consistent.features handler member
  rw [loaded, reloadable]
  constructor
  · exact List.any_eq_true.mpr ⟨info, among, by simp [same, (plain_iff.mp (plain info among)).1]⟩
  · rw [asked, List.any_eq_false]
    intro other present
    simp [(plain_iff.mp (plain other present)).2.1]

theorem Listener.waits (kernel : String) (requests : List (Surroundings × KextInfo))
    (fresh : ∀ request ∈ requests, request.2.loadIndex = unloaded)
    (plain : ∀ request ∈ requests, request.2.plain = true) :
    Waits (queueKexts requests (.initial kernel)).2.1 := by
  apply (Listener.initial_consistent kernel).queue_induction (fun _ => Waits) requests fresh
  · exact fun some => absurd rfl some
  · intro infos listener request member next _ turn waits
    exact waits.round (plain_iff.mp (plain request member)).1 turn

theorem Consistent.apart (consistent : Consistent infos listener)
    (short : ∀ info ∈ infos, info.id.toList.length ≤ kmodMaxName) : Apart listener.khandlers := by
  have distinct : listener.khandlers.Nodup := List.Nodup.of_map _ consistent.once
  have small : ∀ handler ∈ listener.khandlers,
      handler.id.toList.take kmodMaxName = handler.id.toList := by
    intro handler member
    obtain ⟨info, among, same⟩ := consistent.requested handler member
    obtain ⟨nonzero, known⟩ := consistent.handlers handler member
    have knows := consistent.indices info among (same ▸ nonzero)
    rw [same, known] at knows
    rw [Option.some.inj knows]
    exact List.take_of_length_le (short info among)
  constructor
  · apply List.Nodup.map_on _ distinct
    intro first one second two same
    exact consistent.handler_unique one two same
  · apply List.Nodup.map_on _ distinct
    intro first one second two same
    rw [small first one, small second two] at same
    exact List.inj_on_of_nodup_map consistent.once one two (String.toList_injective same)

end Requests

def queuedSession (kernel : String) (requests : List (Surroundings × KextInfo))
    (kinfos : Nat → Binary) (kmods : List Kmod) (operations : List Operation) : Session where
  kinfos := kinfos
  bigSur := true
  operations := operations
  start := ⟨(queueKexts requests (.initial kernel)).2.1, kmods, [], [], []⟩
  inactive := (queueKexts_flags requests (.initial kernel)).1
  unloading := (queueKexts_flags requests (.initial kernel)).2
  fresh := ⟨rfl, rfl, rfl⟩

theorem expected_first {kinfos : Nat → Binary} {handler : KextHandler} (loaded : handler.loaded = true)
    (once : handler.reloadable = false) (present later : List Kmod) :
    expected kinfos handler (present.map (⟨·, true⟩) ++ later.map (⟨·, false⟩)) =
      ((present ++ later).find? fun kmod => named handler kmod &&
        (kinfos handler.index).isCurrentBinary kmod).toList.map (deliveryOf handler) := by
  have answered (loads : Bool) : (answers kinfos · handler) ∘ (⟨·, loads⟩) = fun kmod =>
      named handler kmod && (kinfos handler.index).isCurrentBinary kmod := by
    funext kmod
    simp [answers, loaded]
  simp only [expected, once, Bool.false_eq_true, if_false, List.filter_append, List.filter_map,
    answered, List.map_append, List.map_map]
  rw [← List.head?_filter, ← List.take_one, List.filter_append, List.map_take, List.map_append]
  rfl

def Seen (session : Session) (arrivals seen : List Kmod) : Prop :=
  ∃ early missed straddler, loadedBy session.operations = early ++ missed ++ arrivals ∧
    (straddler = none ∨ straddler = (early ++ missed).getLast?) ∧
    seen = early.reverse ++ session.start.kmods ++ straddler.toList ++ arrivals

theorem Seen.whole {session : Session} {seen : List Kmod}
    (parts : Seen session (loadedBy session.operations) seen) :
    seen = session.start.kmods ++ loadedBy session.operations := by
  obtain ⟨early, missed, straddler, order, straddles, rfl⟩ := parts
  have none : early ++ missed = [] := List.append_left_eq_self.mp order.symm
  rw [none, List.getLast?_nil, or_self] at straddles
  simp [straddles, (List.append_eq_nil_iff.mp none).1]

structure Told (kinfos : Nat → Binary) (infos : List KextInfo) (handlers : List KextHandler)
    (seen : List Kmod) (deliveries : List Delivery) : Prop where
  requested : ∀ info ∈ infos, deliveries.filter (·.index == info.loadIndex) =
    if handlers.any (·.index == info.loadIndex) then
      (seen.find? (info.matches kinfos)).toList.map fun kmod =>
        ⟨info.loadIndex, kmod.address, kmod.size⟩
    else []
  known : ∀ delivery ∈ deliveries, delivery.index ≠ unloaded

section Queued

variable (kernel : String) (requests : List (Surroundings × KextInfo)) (kinfos : Nat → Binary)
  (kmods : List Kmod) (operations : List Operation)

theorem queued_calls {arrivals : List Kmod} {waiting : Bool} {calls : List KextCall}
    (fresh : ∀ request ∈ requests, request.2.loadIndex = unloaded)
    (plain : ∀ request ∈ requests, request.2.plain = true)
    (heard : (queuedSession kernel requests kinfos kmods operations).Heard operations arrivals waiting
      calls) :
    ∃ seen, Seen (queuedSession kernel requests kinfos kmods operations) arrivals seen ∧
      ((queueKexts requests (.initial kernel)).2.1.khandlers ≠ [] →
        ∃ present later, seen = present ++ later ∧
          calls = present.map (⟨·, true⟩) ++ later.map (⟨·, false⟩)) := by
  have never : (queuedSession kernel requests kinfos kmods operations).leaves = false := by
    simp [Session.leaves, queuedSession]
  cases heard with
  | pending leaves => cases never.symm.trans leaves
  | caughtUp _ _ _ _ leaves => cases never.symm.trans leaves
  | told early missed straddler _ _ order straddles made =>
      refine ⟨_, ⟨early, missed, straddler, order, straddles, rfl⟩, fun some => ?_⟩
      have walks : (queuedSession kernel requests kinfos kmods operations).walks = true := by
        simp [Session.walks, queuedSession, Listener.waits kernel requests fresh plain some]
      rw [Session.present, if_pos walks] at made
      exact ⟨_, _, List.append_assoc .., made⟩

theorem queued_told (fresh : ∀ request ∈ requests, request.2.loadIndex = unloaded)
    (plain : ∀ request ∈ requests, request.2.plain = true)
    (spread : (queuedSession kernel requests kinfos kmods operations).Spread) (schedule : List Party)
    (keeps : (queuedSession kernel requests kinfos kmods operations).telling.Keeps
      (queuedSession kernel requests kinfos kmods operations).Keeps schedule) :
    let pool := (queuedSession kernel requests kinfos kmods operations).telling.interleave schedule
    (∀ party, pool.threads party = .done ()) →
      ∃ seen, Seen (queuedSession kernel requests kinfos kmods operations) pool.state.arrivals seen ∧
        Told kinfos (queueKexts requests (.initial kernel)).1
          (queueKexts requests (.initial kernel)).2.1.khandlers seen pool.state.deliveries := by
  intro pool done
  have consistent := (Listener.initial_consistent kernel).queueAll requests fresh
  rw [List.nil_append] at consistent
  have plains : ∀ info ∈ (queueKexts requests (.initial kernel)).1, info.plain = true :=
    fun info member => mem_queueKexts member plain
  have apart := consistent.apart fun info member => (plain_iff.mp (plains info member)).2.2
  obtain ⟨heard, tells⟩ := Session.telling_tells spread apart keeps done
  obtain ⟨seen, parts, calls⟩ :=
    queued_calls kernel requests kinfos kmods operations fresh plain heard
  refine ⟨seen, parts, fun info member => ?_, fun delivery member => ?_⟩
  · split
    case isTrue some =>
      obtain ⟨handler, present, same⟩ := List.any_eq_true.mp some
      rw [beq_iff_eq] at same
      obtain ⟨before, later, rfl, made⟩ := calls (List.ne_nil_of_mem present)
      obtain ⟨loaded, once⟩ := consistent.plain_handler plains present
      have name : handler.id = info.id := by
        obtain ⟨nonzero, knows⟩ := consistent.handlers handler present
        have known := consistent.indices info member (same ▸ nonzero)
        rw [← same, knows] at known
        exact Option.some.inj known
      have told := tells.told handler present
      rw [made, expected_first loaded once, same] at told
      have delivered : deliveryOf handler =
          fun kmod => ⟨info.loadIndex, kmod.address, kmod.size⟩ := by
        funext kmod
        rw [deliveryOf, same]
      have matched : (fun kmod => named handler kmod &&
          (kinfos info.loadIndex).isCurrentBinary kmod) = info.matches kinfos := by
        funext kmod
        rw [named, KextInfo.matches, name]
      rw [delivered] at told
      exact told.trans (by rw [← matched]; rfl)
    case isFalse none =>
      rw [List.filter_eq_nil_iff]
      intro delivery among same
      obtain ⟨handler, present, index⟩ := tells.known delivery among
      exact none (List.any_eq_true.mpr ⟨handler, present, index ▸ same⟩)
  · obtain ⟨handler, present, same⟩ := tells.known delivery member
    rw [← same]
    exact (consistent.handlers handler present).1

end Queued

end NootedDeck.Lilu
