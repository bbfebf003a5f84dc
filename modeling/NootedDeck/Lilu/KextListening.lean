import NootedDeck.Patcher.Search

set_option autoImplicit false

namespace NootedDeck.Lilu

open Patcher (Error)

structure KextInfo where
  id : String
  pathNum : Nat
  loaded : Bool
  reloadable : Bool
  disabled : Bool
  fsOnly : Bool
  loadIndex : Nat
deriving DecidableEq

structure KextHandler where
  id : String
  index : Nat
  loaded : Bool
  reloadable : Bool
deriving DecidableEq

-- `kinfos` holds the identifiers of the loaded items, the kernel first; `listening` is `that`.
structure Listener where
  kinfos : List String
  khandlers : List KextHandler
  waitingForAlreadyLoadedKexts : Bool
  listening : Bool
  isKextUnloading : Bool
  activated : Bool
  code : Error

inductive Load where
  | loaded
  | unallocated
  | missing
  | unused
  | unstored
deriving DecidableEq

structure Surroundings where
  load : Load
  kmodSymbol : Bool
  routed : Bool
  handlerCreated : Bool
  handlerStored : Bool

def unloaded : Nat := 0

def invalid : Nat := 0

def loadKinfo (around : Surroundings) (id : String) (listener : Listener) : Nat × Listener :=
  match listener.kinfos.findIdx? (· == id) with
  | some index => (index, { listener with code := .alreadyDone })
  | none =>
      match around.load with
      | .loaded => (listener.kinfos.length, { listener with kinfos := listener.kinfos ++ [id] })
      | .unallocated | .unstored => (invalid, { listener with code := .memoryIssue })
      | .missing => (invalid, { listener with code := .noKinfoFound })
      | .unused => (invalid, { listener with code := .unsupported })

def loadKextInfo (around : Surroundings) (info : KextInfo) (listener : Listener) :
    KextInfo × Listener :=
  if info.loadIndex ≠ unloaded then (info, listener)
  else
    let (index, listener) := loadKinfo around info.id listener
    if listener.code = .noError ∨ listener.code = .alreadyDone then
      ({ info with loadIndex := index }, listener)
    else (info, listener)

def setupKextListening (around : Surroundings) (listener : Listener) : Listener :=
  if listener.listening then listener
  else if around.kmodSymbol = false then { listener with code := .noSymbolFound }
  -- `routeMultiple` clears the error it fails with.
  else if around.routed = false then { listener with code := .noError }
  else if listener.code = .noError then { listener with listening := true }
  else listener

def waitOnKext (around : Surroundings) (handler : KextHandler) (listener : Listener) : Listener :=
  if listener.listening = false then { listener with code := .kextListeningFailure }
  else
    let listener := { listener with
      waitingForAlreadyLoadedKexts := listener.waitingForAlreadyLoadedKexts || handler.loaded }
    if around.handlerStored then { listener with khandlers := listener.khandlers ++ [handler] }
    else { listener with code := .memoryIssue }

def KextHandler.merge (info : KextInfo) (handler : KextHandler) : KextHandler :=
  { handler with
    loaded := handler.loaded || info.loaded
    reloadable := handler.reloadable || info.reloadable }

-- Only the first handler of the kext is updated.
def updateFeatures (info : KextInfo) : List KextHandler → List KextHandler
  | [] => []
  | handler :: rest =>
      if handler.id = info.id then handler.merge info :: rest
      else handler :: updateFeatures info rest

-- `waitingForAlreadyLoadedKexts` stays as it is, also where the handler becomes a `loaded` one.
def updateKextHandlerFeatures (info : KextInfo) (listener : Listener) : Listener :=
  { listener with khandlers := updateFeatures info listener.khandlers }

def Listener.clearError (listener : Listener) : Listener := { listener with code := .noError }

def KextInfo.wanted (info : KextInfo) : Bool := !info.disabled && !(info.fsOnly && info.pathNum == 0)

def handlerOf (info : KextInfo) : KextHandler :=
  ⟨info.id, info.loadIndex, info.loaded, info.reloadable⟩

def listenTo (around : Surroundings) (info : KextInfo) (listener : Listener) : Listener × Bool :=
  let listener := setupKextListening around listener
  if listener.code ≠ .noError then (listener.clearError, false)
  else if around.handlerCreated = false then (listener, false)
  else
    let listener := waitOnKext around (handlerOf info) listener
    if listener.code ≠ .noError then (listener.clearError, false) else (listener, true)

def queueKext (around : Surroundings) (info : KextInfo) (listener : Listener) :
    KextInfo × Listener × Bool :=
  if info.wanted = false then (info, listener, true)
  else
    let (info, listener) := loadKextInfo around info listener
    if listener.code ≠ .noError then
      let cleared := listener.clearError
      if listener.code = .alreadyDone ∧ (info.loaded || info.reloadable) then
        (info, updateKextHandlerFeatures info cleared, true)
      else (info, cleared, true)
    else (info, listenTo around info listener)

-- The two loops, over the informations of all plugins in their order. The last component says
-- whether they ran to their end.
def queueKexts : List (Surroundings × KextInfo) → Listener → List KextInfo × Listener × Bool
  | [], listener => ([], listener, true)
  | (around, info) :: rest, listener =>
      match queueKext around info listener with
      | (info, listener, false) => (info :: rest.map Prod.snd, listener, false)
      | (info, listener, true) =>
          let (later, listener, ended) := queueKexts rest listener
          (info :: later, listener, ended)

section Queue

variable {around : Surroundings} {info : KextInfo} {listener : Listener}

theorem getElem?_of_findIdx? {names : List String} {name : String} {index : Nat}
    (found : names.findIdx? (· == name) = some index) : names[index]? = some name := by
  obtain ⟨within, same, -⟩ := List.findIdx?_eq_some_iff_getElem.mp found
  rw [List.getElem?_eq_getElem within, eq_of_beq same]

theorem not_mem_of_findIdx? {names : List String} {name : String}
    (missing : names.findIdx? (· == name) = none) : name ∉ names := by
  intro member
  have different := List.findIdx?_eq_none_iff.mp missing name member
  simp at different

theorem updateFeatures_none (without : (info.loaded || info.reloadable) = false)
    (handlers : List KextHandler) : updateFeatures info handlers = handlers := by
  obtain ⟨loaded, reloadable⟩ := Bool.or_eq_false_iff.mp without
  induction handlers with
  | nil => rfl
  | cons handler rest ih =>
      simp only [updateFeatures, KextHandler.merge, loaded, reloadable, Bool.or_false, ih]
      split <;> rfl

theorem updateFeatures_loadIndex (index : Nat) (handlers : List KextHandler) :
    updateFeatures { info with loadIndex := index } handlers = updateFeatures info handlers := by
  induction handlers with
  | nil => rfl
  | cons handler rest ih => simp only [updateFeatures, KextHandler.merge, ih]

inductive Queued (info : KextInfo) (listener : Listener) : KextInfo × Listener × Bool → Prop
  | skipped : Queued info listener (info, listener, true)
  | shared (index : Nat) (known : listener.kinfos[index]? = some info.id) :
      Queued info listener ({ info with loadIndex := index },
        { listener with khandlers := updateFeatures info listener.khandlers }, true)
  | started (fresh : info.id ∉ listener.kinfos) :
      Queued info listener ({ info with loadIndex := listener.kinfos.length },
        { listener with
          kinfos := listener.kinfos ++ [info.id]
          listening := true
          waitingForAlreadyLoadedKexts := listener.waitingForAlreadyLoadedKexts || info.loaded
          khandlers := listener.khandlers ++
            [handlerOf { info with loadIndex := listener.kinfos.length }] }, true)
  | stopped (fresh : info.id ∉ listener.kinfos) (listening waiting : Bool)
      (still : listener.waitingForAlreadyLoadedKexts = true → waiting = true) :
      Queued info listener ({ info with loadIndex := listener.kinfos.length },
        { listener with
          kinfos := listener.kinfos ++ [info.id]
          listening := listening
          waitingForAlreadyLoadedKexts := waiting }, false)

theorem listenTo_cases (around : Surroundings) (info : KextInfo) (listener : Listener)
    (fine : listener.code = .noError) :
    listenTo around info listener = ({ listener with
        listening := true
        waitingForAlreadyLoadedKexts := listener.waitingForAlreadyLoadedKexts || info.loaded
        khandlers := listener.khandlers ++ [handlerOf info] }, true) ∨
      ∃ listening waiting, (listener.waitingForAlreadyLoadedKexts = true → waiting = true) ∧
        listenTo around info listener = ({ listener with
          listening := listening, waitingForAlreadyLoadedKexts := waiting }, false) := by
  cases listener with
  | mk kinfos khandlers waiting listening unloading activated code =>
  subst fine
  cases listening <;> cases kmod : around.kmodSymbol <;> cases routed : around.routed <;>
    cases created : around.handlerCreated <;> cases stored : around.handlerStored <;>
    simp [listenTo, setupKextListening, waitOnKext, Listener.clearError, handlerOf, kmod, routed,
      created, stored] <;>
    cases waiting <;> simp

theorem loadKextInfo_known {index : Nat} (fresh : info.loadIndex = unloaded)
    (found : listener.kinfos.findIdx? (· == info.id) = some index) :
    loadKextInfo around info listener =
      ({ info with loadIndex := index }, { listener with code := .alreadyDone }) := by
  simp [loadKextInfo, loadKinfo, fresh, found]

theorem loadKextInfo_loaded (fine : listener.code = .noError) (fresh : info.loadIndex = unloaded)
    (missing : listener.kinfos.findIdx? (· == info.id) = none) (loads : around.load = .loaded) :
    loadKextInfo around info listener = ({ info with loadIndex := listener.kinfos.length },
      { listener with kinfos := listener.kinfos ++ [info.id] }) := by
  simp [loadKextInfo, loadKinfo, fresh, missing, loads, fine]

theorem loadKextInfo_failed (fresh : info.loadIndex = unloaded)
    (missing : listener.kinfos.findIdx? (· == info.id) = none) (fails : around.load ≠ .loaded) :
    ∃ error, error ≠ .noError ∧ error ≠ .alreadyDone ∧
      loadKextInfo around info listener = (info, { listener with code := error }) := by
  cases load : around.load with
  | loaded => exact absurd load fails
  | unallocated | missing | unused | unstored => simp [loadKextInfo, loadKinfo, fresh, missing, load]

theorem queued (around : Surroundings) (fine : listener.code = .noError)
    (fresh : info.loadIndex = unloaded) :
    Queued info listener (queueKext around info listener) := by
  have clear : ∀ error, ({ listener with code := error } : Listener).clearError = listener := by
    intro error
    rw [Listener.clearError, ← fine]
  unfold queueKext
  split
  · exact .skipped
  cases found : listener.kinfos.findIdx? (· == info.id) with
  | some index =>
      have known := getElem?_of_findIdx? found
      simp only [loadKextInfo_known fresh found, clear]
      cases asks : info.loaded || info.reloadable with
      | true => simpa [updateKextHandlerFeatures, updateFeatures_loadIndex] using .shared index known
      | false => simpa [updateFeatures_none asks] using Queued.shared index known
  | none =>
      have unknown := not_mem_of_findIdx? found
      by_cases loads : around.load = .loaded
      · simp only [loadKextInfo_loaded fine fresh found loads]
        rw [if_neg (not_not_intro fine)]
        rcases listenTo_cases around { info with loadIndex := listener.kinfos.length }
            { listener with kinfos := listener.kinfos ++ [info.id] } fine with
          listens | ⟨listening, waiting, still, listens⟩
        · rw [listens]
          exact .started unknown
        · rw [listens]
          exact .stopped unknown listening waiting still
      · obtain ⟨error, notFine, notDone, failed⟩ := loadKextInfo_failed fresh found loads
        simpa [failed, notFine, notDone, clear] using Queued.skipped

end Queue

section Indices

variable {infos : List KextInfo} {listener : Listener} {info : KextInfo}

def asked (feature : KextInfo → Bool) (index : Nat) (infos : List KextInfo) : Bool :=
  infos.any fun info => info.loadIndex == index && feature info

structure Consistent (infos : List KextInfo) (listener : Listener) : Prop where
  fine : listener.code = .noError
  kernel : 0 < listener.kinfos.length
  distinct : listener.kinfos.Nodup
  indices : ∀ info ∈ infos, info.loadIndex ≠ unloaded →
    listener.kinfos[info.loadIndex]? = some info.id
  handlers : ∀ handler ∈ listener.khandlers, handler.index ≠ unloaded ∧
    listener.kinfos[handler.index]? = some handler.id
  once : (listener.khandlers.map (·.id)).Nodup
  requested : ∀ handler ∈ listener.khandlers, ∃ info ∈ infos, info.loadIndex = handler.index
  features : ∀ handler ∈ listener.khandlers,
    handler.loaded = asked (·.loaded) handler.index infos ∧
      handler.reloadable = asked (·.reloadable) handler.index infos

def Attended (listener : Listener) : Prop :=
  ∀ index < listener.kinfos.length, index ≠ unloaded →
    ∃ handler ∈ listener.khandlers, handler.index = index

theorem index_unique {names : List String} (different : names.Nodup) {first second : Nat}
    {name : String} (one : names[first]? = some name) (two : names[second]? = some name) :
    first = second := by
  obtain ⟨within, _⟩ := List.getElem?_eq_some_iff.mp one
  exact (List.getElem?_inj within different).mp (one.trans two.symm)

theorem getElem?_grown {names : List String} {index : Nat} {name : String} (more : List String)
    (known : names[index]? = some name) : (names ++ more)[index]? = some name := by
  obtain ⟨within, _⟩ := List.getElem?_eq_some_iff.mp known
  rw [List.getElem?_append_left within, known]

theorem asked_append (feature : KextInfo → Bool) (index : Nat) (infos : List KextInfo)
    (info : KextInfo) : asked feature index (infos ++ [info]) =
      (asked feature index infos || (info.loadIndex == index && feature info)) := by
  simp [asked]

theorem asked_append_other (feature : KextInfo → Bool) {index : Nat}
    (other : info.loadIndex ≠ index) :
    asked feature index (infos ++ [info]) = asked feature index infos := by
  simp [asked_append, other]

theorem updateFeatures_eq_map (info : KextInfo) {handlers : List KextHandler}
    (once : (handlers.map (·.id)).Nodup) :
    updateFeatures info handlers =
      handlers.map fun handler => if handler.id = info.id then handler.merge info else handler := by
  induction handlers with
  | nil => rfl
  | cons handler rest ih =>
      obtain ⟨different, later⟩ := List.nodup_cons.mp once
      rw [updateFeatures, List.map_cons]
      split
      case isFalse => rw [ih later]
      case isTrue same =>
        have untouched : ∀ other ∈ rest, ¬other.id = info.id := by
          intro other member equal
          exact different (List.mem_map.mpr ⟨other, member, equal.trans same.symm⟩)
        have kept : rest.map (fun other => if other.id = info.id then other.merge info else other) =
            rest.map id := List.map_congr_left fun other member => if_neg (untouched other member)
        rw [kept, List.map_id]

theorem requested_append {index : Nat} (more : List KextInfo)
    (requested : ∃ info ∈ infos, info.loadIndex = index) :
    ∃ info ∈ infos ++ more, info.loadIndex = index := by
  obtain ⟨info, member, same⟩ := requested
  exact ⟨info, List.mem_append_left more member, same⟩

theorem Consistent.skip (consistent : Consistent infos listener) (fresh : info.loadIndex = unloaded) :
    Consistent (infos ++ [info]) listener := by
  refine { consistent with indices := ?_, requested := ?_, features := ?_ }
  · intro other member loaded
    rcases List.mem_append.mp member with earlier | last
    · exact consistent.indices other earlier loaded
    · rw [List.mem_singleton.mp last] at loaded
      exact absurd fresh loaded
  · intro handler member
    exact requested_append _ (consistent.requested handler member)
  · intro handler member
    have other : info.loadIndex ≠ handler.index := by
      rw [fresh]
      exact (consistent.handlers handler member).1.symm
    rw [asked_append_other _ other, asked_append_other _ other]
    exact consistent.features handler member

theorem Consistent.share (consistent : Consistent infos listener) {index : Nat}
    (known : listener.kinfos[index]? = some info.id) :
    Consistent (infos ++ [{ info with loadIndex := index }])
      { listener with khandlers := updateFeatures info listener.khandlers } := by
  have mapped := updateFeatures_eq_map info consistent.once
  refine { consistent with indices := ?_, handlers := ?_, once := ?_, requested := ?_, features := ?_ }
  · intro other member loaded
    rcases List.mem_append.mp member with earlier | last
    · exact consistent.indices other earlier loaded
    · rw [List.mem_singleton.mp last]
      exact known
  · intro handler member
    rw [mapped] at member
    obtain ⟨before, present, rfl⟩ := List.mem_map.mp member
    have kept := consistent.handlers before present
    split <;> exact kept
  · have ids : (updateFeatures info listener.khandlers).map (·.id) =
        listener.khandlers.map (·.id) := by
      rw [mapped, List.map_map]
      apply List.map_congr_left
      intro handler _
      dsimp only [Function.comp]
      split <;> rfl
    exact ids ▸ consistent.once
  · intro handler member
    rw [mapped] at member
    obtain ⟨before, present, rfl⟩ := List.mem_map.mp member
    have asks := requested_append [{ info with loadIndex := index }] (consistent.requested before present)
    split <;> exact asks
  · intro handler member
    rw [mapped] at member
    obtain ⟨before, present, rfl⟩ := List.mem_map.mp member
    have place := (consistent.handlers before present).2
    obtain ⟨loaded, reloadable⟩ := consistent.features before present
    split
    case isTrue same =>
      have equal : index = before.index := index_unique consistent.distinct known (same ▸ place)
      simp [KextHandler.merge, asked_append, equal, loaded, reloadable]
    case isFalse other =>
      have apart : index ≠ before.index := by
        rintro rfl
        exact other (Option.some.inj (place.symm.trans known))
      simp [asked_append, apart, loaded, reloadable]

theorem Consistent.grow (consistent : Consistent infos listener) (fresh : info.id ∉ listener.kinfos)
    (listening waiting : Bool) :
    Consistent (infos ++ [{ info with loadIndex := listener.kinfos.length }]) { listener with
      kinfos := listener.kinfos ++ [info.id]
      listening := listening
      waitingForAlreadyLoadedKexts := waiting } := by
  refine ⟨consistent.fine, ?_, ?_, ?_, ?_, consistent.once, ?_, ?_⟩
  · simp
  · exact List.nodup_append_comm.mp (List.nodup_cons.mpr ⟨fresh, consistent.distinct⟩)
  · intro other member loaded
    rcases List.mem_append.mp member with earlier | last
    · exact getElem?_grown _ (consistent.indices other earlier loaded)
    · rw [List.mem_singleton.mp last]
      simp
  · intro handler member
    obtain ⟨nonzero, known⟩ := consistent.handlers handler member
    exact ⟨nonzero, getElem?_grown _ known⟩
  · intro handler member
    exact requested_append _ (consistent.requested handler member)
  · intro handler member
    obtain ⟨_, known⟩ := consistent.handlers handler member
    obtain ⟨within, _⟩ := List.getElem?_eq_some_iff.mp known
    have other : listener.kinfos.length ≠ handler.index := Nat.ne_of_gt within
    rw [asked_append_other _ other, asked_append_other _ other]
    exact consistent.features handler member

theorem Consistent.no_handler (consistent : Consistent infos listener)
    (fresh : info.id ∉ listener.kinfos) : info.id ∉ listener.khandlers.map (·.id) := by
  intro member
  obtain ⟨handler, present, same⟩ := List.mem_map.mp member
  have known := (consistent.handlers handler present).2
  exact fresh (same ▸ List.mem_of_getElem? known)

theorem Consistent.not_asked (consistent : Consistent infos listener) (feature : KextInfo → Bool) :
    asked feature listener.kinfos.length infos = false := by
  simp only [asked, List.any_eq_false, Bool.and_eq_true, beq_iff_eq, not_and]
  intro info member last
  have nonzero : info.loadIndex ≠ unloaded := last ▸ Nat.ne_of_gt consistent.kernel
  have known := consistent.indices info member nonzero
  simp [last] at known

theorem Consistent.start (consistent : Consistent infos listener)
    (fresh : info.id ∉ listener.kinfos) :
    Consistent (infos ++ [{ info with loadIndex := listener.kinfos.length }]) { listener with
      kinfos := listener.kinfos ++ [info.id]
      listening := true
      waitingForAlreadyLoadedKexts := listener.waitingForAlreadyLoadedKexts || info.loaded
      khandlers := listener.khandlers ++
        [handlerOf { info with loadIndex := listener.kinfos.length }] } := by
  have grown := consistent.grow fresh true (listener.waitingForAlreadyLoadedKexts || info.loaded)
  refine { grown with handlers := ?_, once := ?_, requested := ?_, features := ?_ }
  · intro handler member
    rcases List.mem_append.mp member with earlier | last
    · exact grown.handlers handler earlier
    · rw [List.mem_singleton.mp last]
      exact ⟨Nat.ne_of_gt consistent.kernel, by simp [handlerOf]⟩
  · rw [List.map_append]
    exact List.nodup_append_comm.mp
      (List.nodup_cons.mpr ⟨consistent.no_handler fresh, consistent.once⟩)
  · intro handler member
    rcases List.mem_append.mp member with earlier | last
    · exact grown.requested handler earlier
    · rw [List.mem_singleton.mp last]
      exact ⟨_, List.mem_append_right _ List.mem_cons_self, rfl⟩
  · intro handler member
    rcases List.mem_append.mp member with earlier | last
    · exact grown.features handler earlier
    · rw [List.mem_singleton.mp last]
      simp [handlerOf, asked_append, consistent.not_asked]

theorem Consistent.skipAll (consistent : Consistent infos listener) (more : List KextInfo)
    (fresh : ∀ info ∈ more, info.loadIndex = unloaded) : Consistent (infos ++ more) listener := by
  induction more generalizing infos with
  | nil => simpa using consistent
  | cons info rest ih =>
      have first := consistent.skip (fresh info List.mem_cons_self)
      have later := ih first fun other member => fresh other (List.mem_cons_of_mem info member)
      simpa using later

theorem Consistent.queue (consistent : Consistent infos listener) (around : Surroundings)
    (fresh : info.loadIndex = unloaded) :
    Consistent (infos ++ [(queueKext around info listener).1]) (queueKext around info listener).2.1 := by
  have turn := queued around consistent.fine fresh
  generalize queueKext around info listener = next at turn ⊢
  cases turn with
  | skipped => exact consistent.skip fresh
  | shared index known => exact consistent.share known
  | started unknown => exact consistent.start unknown
  | stopped unknown listening waiting _ => exact consistent.grow unknown listening waiting

theorem Consistent.queueAll (consistent : Consistent infos listener)
    (requests : List (Surroundings × KextInfo))
    (fresh : ∀ request ∈ requests, request.2.loadIndex = unloaded) :
    Consistent (infos ++ (queueKexts requests listener).1) (queueKexts requests listener).2.1 := by
  induction requests generalizing infos listener with
  | nil => simpa [queueKexts] using consistent
  | cons request rest ih =>
      obtain ⟨around, info⟩ := request
      have first := consistent.queue around (fresh _ List.mem_cons_self)
      have later : ∀ request ∈ rest, request.2.loadIndex = unloaded := fun request member =>
        fresh request (List.mem_cons_of_mem _ member)
      rw [queueKexts]
      split
      case h_1 stopped =>
        rw [stopped] at first
        have skipped := first.skipAll (rest.map Prod.snd)
          (by simpa using fun info around => later (around, info))
        simpa using skipped
      case h_2 goesOn =>
        rw [goesOn] at first
        simpa using ih first later

theorem Consistent.queue_induction (consistent : Consistent infos listener)
    (holds : Bool → Listener → Prop) (requests : List (Surroundings × KextInfo))
    (fresh : ∀ request ∈ requests, request.2.loadIndex = unloaded) (start : holds true listener)
    (round : ∀ infos listener, ∀ request ∈ requests, ∀ next, Consistent infos listener →
      Queued request.2 listener next → holds true listener → holds next.2.2 next.2.1) :
    holds (queueKexts requests listener).2.2 (queueKexts requests listener).2.1 := by
  induction requests generalizing infos listener with
  | nil => exact start
  | cons request rest ih =>
      obtain ⟨around, info⟩ := request
      have unloadedInfo := fresh _ List.mem_cons_self
      have first := consistent.queue around unloadedInfo
      have turn := round _ _ _ List.mem_cons_self _ consistent
        (queued around consistent.fine unloadedInfo) start
      rw [queueKexts]
      split
      case h_1 stopped =>
        rw [stopped] at turn
        exact turn
      case h_2 goesOn =>
        rw [goesOn] at first turn
        exact ih first (fun request member => fresh request (List.mem_cons_of_mem _ member)) turn
          fun infos listener request member => round infos listener request (List.mem_cons_of_mem _ member)

theorem Attended.round {next : KextInfo × Listener × Bool} (attended : Attended listener)
    (consistent : Consistent infos listener) (turn : Queued info listener next)
    (goesOn : next.2.2 = true) : Attended next.2.1 := by
  cases turn with
  | skipped => exact attended
  | shared index known =>
      intro place within nonzero
      obtain ⟨handler, member, same⟩ := attended place within nonzero
      rw [updateFeatures_eq_map info consistent.once]
      refine ⟨_, List.mem_map_of_mem member, ?_⟩
      split <;> exact same
  | started unknown =>
      intro place within nonzero
      rw [List.length_append, List.length_singleton] at within
      rcases Nat.lt_succ_iff_lt_or_eq.mp within with earlier | rfl
      · obtain ⟨handler, member, same⟩ := attended place earlier nonzero
        exact ⟨handler, List.mem_append_left _ member, same⟩
      · exact ⟨_, List.mem_append_right _ List.mem_cons_self, rfl⟩
  | stopped => cases goesOn

theorem Consistent.handler_unique (consistent : Consistent infos listener)
    {first second : KextHandler} (one : first ∈ listener.khandlers) (two : second ∈ listener.khandlers)
    (same : first.index = second.index) : first = second := by
  have known := (consistent.handlers first one).2
  rw [same, (consistent.handlers second two).2] at known
  exact List.inj_on_of_nodup_map consistent.once one two (Option.some.inj known).symm

theorem Consistent.indices_nodup (consistent : Consistent infos listener) :
    (listener.khandlers.map (·.index)).Nodup := by
  have named : (listener.khandlers.map (·.index)).map (listener.kinfos[·]?) =
      (listener.khandlers.map (·.id)).map some := by
    rw [List.map_map, List.map_map]
    exact List.map_congr_left fun handler member => (consistent.handlers handler member).2
  apply List.Nodup.of_map (listener.kinfos[·]?)
  rw [named]
  exact consistent.once.map (Option.some_injective _)

theorem queueKext_info (around : Surroundings) (info : KextInfo) (listener : Listener) :
    ({ (queueKext around info listener).1 with loadIndex := unloaded } : KextInfo) =
      { info with loadIndex := unloaded } := by
  have loads : ({ (loadKextInfo around info listener).1 with loadIndex := unloaded } : KextInfo) =
      { info with loadIndex := unloaded } := by
    unfold loadKextInfo
    split
    · rfl
    · dsimp only
      split <;> rfl
  unfold queueKext
  split
  · rfl
  · dsimp only
    split
    · split <;> exact loads
    · exact loads

theorem queueKexts_infos (requests : List (Surroundings × KextInfo)) (listener : Listener) :
    (queueKexts requests listener).1.map ({ · with loadIndex := unloaded }) =
      requests.map ({ ·.2 with loadIndex := unloaded }) := by
  induction requests generalizing listener with
  | nil => rfl
  | cons request rest ih =>
      obtain ⟨around, info⟩ := request
      have same := queueKext_info around info listener
      rw [queueKexts]
      split
      case h_1 stopped =>
        rw [stopped] at same
        simpa using same
      case h_2 goesOn =>
        rw [goesOn] at same
        simp [same, ih]

end Indices

def Listener.initial (kernel : String) : Listener :=
  ⟨[kernel], [], false, false, false, false, .noError⟩

theorem Listener.initial_consistent (kernel : String) : Consistent [] (.initial kernel) := by
  constructor <;> simp [Listener.initial]

theorem Listener.initial_attended (kernel : String) : Attended (.initial kernel) := by
  intro index within nonzero
  exact absurd (Nat.lt_one_iff.mp within) nonzero

theorem Listener.attended (kernel : String) (requests : List (Surroundings × KextInfo))
    (fresh : ∀ request ∈ requests, request.2.loadIndex = unloaded)
    (ended : (queueKexts requests (.initial kernel)).2.2 = true) :
    Attended (queueKexts requests (.initial kernel)).2.1 := by
  refine (Listener.initial_consistent kernel).queue_induction
    (fun ended listener => ended = true → Attended listener) requests fresh
    (fun _ => Listener.initial_attended kernel) ?_ ended
  intro infos listener request _ next consistent turn attended goesOn
  exact (attended rfl).round consistent turn goesOn

/-- What the plugins rely on afterwards. -/
structure Served (requests : List (Surroundings × KextInfo)) (infos : List KextInfo)
    (listener : Listener) (ended : Bool) : Prop where
  unchanged : infos.map ({ · with loadIndex := unloaded }) = requests.map Prod.snd
  indices : ∀ first ∈ infos, ∀ second ∈ infos, first.loadIndex ≠ unloaded →
    second.loadIndex ≠ unloaded → (first.loadIndex = second.loadIndex ↔ first.id = second.id)
  -- no index has two handlers, and none is there that nobody asked for
  once : (listener.khandlers.map (·.index)).Nodup
  requested : ∀ handler ∈ listener.khandlers, handler.index ≠ unloaded ∧
    ∃ info ∈ infos, info.loadIndex = handler.index ∧ info.id = handler.id
  features : ∀ handler ∈ listener.khandlers,
    handler.loaded = asked (·.loaded) handler.index infos ∧
      handler.reloadable = asked (·.reloadable) handler.index infos
  handler : ended = true → ∀ info ∈ infos, info.loadIndex ≠ unloaded →
    ∃! handler, handler ∈ listener.khandlers ∧ handler.index = info.loadIndex

def sharedRequests : List (Surroundings × KextInfo) :=
  let around : Surroundings := ⟨.loaded, true, true, true, true⟩
  [(around, ⟨"com.apple.kext.AMDRadeonX6000Framebuffer", 1, false, true, false, false, unloaded⟩),
    (around, ⟨"com.apple.driver.AppleBacklight", 1, true, false, false, false, unloaded⟩),
    (around, ⟨"com.apple.kext.AMDRadeonX6000Framebuffer", 1, true, false, false, false, unloaded⟩)]

-- The handler became one for loaded kexts, but nobody waits for them.
example :
    let plugins := [(⟨.loaded, true, true, true, true⟩, ⟨"first", 1, false, true, false, false, 0⟩),
      (⟨.loaded, true, true, true, true⟩, ⟨"first", 1, true, false, false, false, 0⟩)]
    let listener := (queueKexts plugins (.initial "kernel")).2.1
    listener.khandlers = [⟨"first", 1, true, true⟩] ∧
      listener.waitingForAlreadyLoadedKexts = false := by decide

end NootedDeck.Lilu
