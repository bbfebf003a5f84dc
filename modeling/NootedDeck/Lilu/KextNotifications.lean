import NootedDeck.Shared.Program
import NootedDeck.Lilu.KextListening

set_option autoImplicit false

-- Two parties come across kexts: Lilu's own initialisation, which walks the kexts that are loaded
-- already, and the kernel, whose hook fires for every kext that is loaded later. The kernel loads
-- and unloads kexts one after the other, under a lock that Lilu does not take.

namespace NootedDeck.Lilu

open Interleaving

structure Kmod where
  name : String
  address : Nat
  size : Nat
  uuid : Option (UInt64 × UInt64)
deriving DecidableEq

structure Binary where
  kernelCollection : Bool
  selfUuid : UInt64 × UInt64

def Binary.isCurrentBinary (binary : Binary) (kmod : Kmod) : Bool :=
  binary.kernelCollection || kmod.uuid == some binary.selfUuid

structure KextCall where
  kmod : Kmod
  loaded : Bool
deriving DecidableEq

structure Delivery where
  index : Nat
  address : Nat
  size : Nat
deriving DecidableEq

-- `kmods` is the kernel's list, the newest first, and `arrivals` are the kexts that the kernel has
-- linked since Lilu was activated. `calls` and `deliveries` record the calls of `processKext` and of
-- the handlers.
structure Notifier extends Listener where
  kmods : List Kmod
  arrivals : List Kmod
  calls : List KextCall
  deliveries : List Delivery

def kmodMaxName : Nat := 64

def named (handler : KextHandler) (kmod : Kmod) : Bool :=
  handler.id.toList.take kmodMaxName == kmod.name.toList.take kmodMaxName

section Model

variable (kinfos : Nat → Binary)

def deliveryOf (handler : KextHandler) (kmod : Kmod) : Delivery :=
  ⟨handler.index, kmod.address, kmod.size⟩

-- The handler is called before it is looked up once more to be removed.
def invoke (kmod : Kmod) (index : Nat) (handler : KextHandler) : Program Notifier Unit := do
  Program.modify fun now => { now with deliveries := now.deliveries ++ [deliveryOf handler kmod] }
  let now ← Program.get
  match now.khandlers[index]? with
  | none => .panic
  | some handler =>
      if handler.reloadable then pure ()
      else Program.modify fun now => { now with khandlers := now.khandlers.eraseIdx index }

-- The loop from the given place on. More rounds than there are handlers are a panic.
def scan (call : KextCall) : Nat → Nat → Program Notifier Unit
  | index, 0 => do
      let now ← Program.get
      if now.khandlers.length ≤ index then pure () else .panic
  | index, rounds + 1 => do
      let now ← Program.get
      match now.khandlers[index]? with
      | none => pure ()
      | some handler =>
          if call.loaded && !handler.loaded then scan call (index + 1) rounds
          else if named handler call.kmod then
            if (kinfos handler.index).isCurrentBinary call.kmod then invoke call.kmod index handler
            else scan call (index + 1) rounds
          else scan call (index + 1) rounds

def processKext (kmod : Kmod) (loaded : Bool) : Program Notifier Unit := do
  Program.modify fun now => { now with calls := now.calls ++ [⟨kmod, loaded⟩] }
  let now ← Program.get
  scan kinfos ⟨kmod, loaded⟩ 0 now.khandlers.length

-- What `next` leads to. Nothing is known of what is read there once the kext is unlinked.
def nextKmod (kmod : Kmod) (kmods : List Kmod) : Option (Option Kmod) :=
  match kmods.dropWhile (·.address != kmod.address) with
  | [] => none
  | _ :: rest => some rest.head?

-- No lock is held. To follow an unlinked kext, or the list for more rounds than it has kexts, is a
-- panic.
def walk : Nat → Option Kmod → Program Notifier Unit
  | _, none => pure ()
  | 0, some _ => .panic
  | rounds + 1, some kmod => do
      processKext kinfos kmod true
      let now ← Program.get
      match nextKmod kmod now.kmods with
      | none => .panic
      | some next => walk rounds next

def processAlreadyLoadedKexts : Program Notifier Unit := do
  let now ← Program.get
  walk kinfos now.kmods.length now.kmods.head?

def activate (bigSur : Bool) : Program Notifier Unit := do
  let now ← Program.get
  if bigSur && now.waitingForAlreadyLoadedKexts then do
    processAlreadyLoadedKexts kinfos
    Program.modify fun now => { now with waitingForAlreadyLoadedKexts := false }
    Program.modify fun now => { now with activated := true }
  else Program.modify fun now => { now with activated := true }

def onOSKextSaveLoadedKextPanicList : Program Notifier Unit := do
  let now ← Program.get
  if now.activated then do
    let now ← Program.get
    if now.isKextUnloading then pure ()
    else if now.waitingForAlreadyLoadedKexts then do
      processAlreadyLoadedKexts kinfos
      Program.modify fun now => { now with waitingForAlreadyLoadedKexts := false }
    else
      match now.kmods.head? with
      | some kmod => processKext kinfos kmod false
      | none => pure ()
  else pure ()

-- What the kernel does with kexts. An unload may fail before anything is unlinked.
inductive Operation where
  | load (kmod : Kmod)
  | unload (address : Nat) (unlinked : Bool)
deriving DecidableEq

def Operation.link : Operation → List Kmod → List Kmod
  | .load kmod, kmods => kmod :: kmods
  | .unload address true, kmods => kmods.filter (·.address != address)
  | .unload _ false, kmods => kmods

def linked (kmods : List Kmod) (operations : List Operation) : List Kmod :=
  operations.foldl (fun kmods operation => operation.link kmods) kmods

def Notifier.perform (operation : Operation) (now : Notifier) : Notifier :=
  match operation with
  | .load kmod => { now with
      kmods := operation.link now.kmods
      arrivals := if now.activated then now.arrivals ++ [kmod] else now.arrivals }
  | .unload _ _ => { now with kmods := operation.link now.kmods }

def onOSKextUnload (address : Nat) (unlinked : Bool) : Program Notifier Unit := do
  Program.modify fun now => { now with isKextUnloading := true }
  if unlinked then do
    Program.modify (Notifier.perform (.unload address unlinked))
    onOSKextSaveLoadedKextPanicList kinfos
    Program.modify fun now => { now with isKextUnloading := false }
  else Program.modify fun now => { now with isKextUnloading := false }

def Operation.perform : Operation → Program Notifier Unit
  | .load kmod => do
      Program.modify (Notifier.perform (.load kmod))
      onOSKextSaveLoadedKextPanicList kinfos
  | .unload address unlinked => onOSKextUnload kinfos address unlinked

def performAll : List Operation → Program Notifier Unit
  | [] => pure ()
  | operation :: rest => do
      operation.perform kinfos
      performAll rest

end Model

def answers (kinfos : Nat → Binary) (call : KextCall) (handler : KextHandler) : Bool :=
  (!call.loaded || handler.loaded) && named handler call.kmod &&
    (kinfos handler.index).isCurrentBinary call.kmod

def handle (kinfos : Nat → Binary) (handled : List KextHandler × List Delivery) (call : KextCall) :
    List KextHandler × List Delivery :=
  match handled.1.findIdx? (answers kinfos call) with
  | none => handled
  | some index =>
      match handled.1[index]? with
      | none => handled
      | some handler =>
          (if handler.reloadable then handled.1 else handled.1.eraseIdx index,
            handled.2 ++ [deliveryOf handler call.kmod])

def served (kinfos : Nat → Binary) (handlers : List KextHandler) (calls : List KextCall) :
    List KextHandler × List Delivery := calls.foldl (handle kinfos) (handlers, [])

theorem served_append (kinfos : Nat → Binary) (handlers : List KextHandler) (calls : List KextCall)
    (call : KextCall) : served kinfos handlers (calls ++ [call]) =
      handle kinfos (served kinfos handlers calls) call := by
  simp [served]

def Passed (kinfos : Nat → Binary) (call : KextCall) (handlers : List KextHandler) (index : Nat) :
    Prop :=
  ∀ place < index, ∀ handler, handlers[place]? = some handler → answers kinfos call handler = false

theorem Passed.next {kinfos : Nat → Binary} {call : KextCall} {handlers : List KextHandler}
    {index : Nat} {handler : KextHandler} (passed : Passed kinfos call handlers index)
    (found : handlers[index]? = some handler) (refuses : answers kinfos call handler = false) :
    Passed kinfos call handlers (index + 1) := by
  intro place before other present
  rcases Nat.lt_succ_iff_lt_or_eq.mp before with earlier | rfl
  · exact passed place earlier other present
  · rw [found] at present
    exact Option.some.inj present ▸ refuses

theorem handle_passed {kinfos : Nat → Binary} {call : KextCall}
    (handled : List KextHandler × List Delivery) {index : Nat}
    (passed : Passed kinfos call handled.1 index) (all : handled.1.length ≤ index) :
    handle kinfos handled call = handled := by
  have nobody : handled.1.findIdx? (answers kinfos call) = none := by
    rw [List.findIdx?_eq_none_iff]
    intro handler member
    obtain ⟨place, within, rfl⟩ := List.getElem_of_mem member
    exact passed place (Nat.lt_of_lt_of_le within all) _ (List.getElem?_eq_getElem within)
  simp only [handle, nobody]

theorem handle_found {kinfos : Nat → Binary} {call : KextCall}
    (handled : List KextHandler × List Delivery) {index : Nat} {handler : KextHandler}
    (passed : Passed kinfos call handled.1 index) (found : handled.1[index]? = some handler)
    (accepts : answers kinfos call handler = true) :
    handle kinfos handled call =
      (if handler.reloadable then handled.1 else handled.1.eraseIdx index,
        handled.2 ++ [deliveryOf handler call.kmod]) := by
  have first : handled.1.findIdx? (answers kinfos call) = some index := by
    obtain ⟨within, here⟩ := List.getElem?_eq_some_iff.mp found
    rw [List.findIdx?_eq_some_iff_getElem]
    refine ⟨within, here ▸ accepts, fun place before => ?_⟩
    have early := passed place before _ (List.getElem?_eq_getElem (before.trans within))
    simp [early]
  simp only [handle, first, found]

def expected (kinfos : Nat → Binary) (handler : KextHandler) (calls : List KextCall) :
    List Delivery :=
  let hits := (calls.filter (answers kinfos · handler)).map fun call => deliveryOf handler call.kmod
  if handler.reloadable then hits else hits.take 1

structure Apart (handlers : List KextHandler) : Prop where
  indices : (handlers.map (·.index)).Nodup
  names : (handlers.map (·.id.toList.take kmodMaxName)).Nodup

section Served

variable {kinfos : Nat → Binary} {handlers : List KextHandler}

def remains (kinfos : Nat → Binary) (calls : List KextCall) (handler : KextHandler) : Bool :=
  handler.reloadable || !calls.any (answers kinfos · handler)

theorem remains_append (calls : List KextCall) (call : KextCall) (handler : KextHandler) :
    remains kinfos (calls ++ [call]) handler =
      (remains kinfos calls handler && (handler.reloadable || !answers kinfos call handler)) := by
  cases kept : handler.reloadable <;> simp [remains, kept, Bool.not_or]

theorem expected_append_other {call : KextCall} {handler : KextHandler} (calls : List KextCall)
    (refuses : answers kinfos call handler = false) :
    expected kinfos handler (calls ++ [call]) = expected kinfos handler calls := by
  simp [expected, refuses]

theorem expected_append_gone {handler : KextHandler} {calls : List KextCall}
    (gone : remains kinfos calls handler = false) (call : KextCall) :
    expected kinfos handler (calls ++ [call]) = expected kinfos handler calls := by
  obtain ⟨once, told⟩ := Bool.or_eq_false_iff.mp gone
  have some : calls.filter (answers kinfos · handler) ≠ [] := by
    simpa [List.filter_eq_nil_iff] using told
  obtain ⟨first, rest, hits⟩ := List.exists_cons_of_ne_nil some
  simp [expected, once, hits]

theorem expected_append_told {handler : KextHandler} {calls : List KextCall} {call : KextCall}
    (present : remains kinfos calls handler = true) (accepts : answers kinfos call handler = true) :
    expected kinfos handler (calls ++ [call]) =
      expected kinfos handler calls ++ [deliveryOf handler call.kmod] := by
  cases kept : handler.reloadable with
  | true => simp [expected, kept, accepts]
  | false =>
      have none : calls.filter (answers kinfos · handler) = [] := by
        simpa [remains, kept, List.filter_eq_nil_iff] using present
      simp [expected, kept, accepts, none]

theorem Apart.answers_unique (apart : Apart handlers) {call : KextCall}
    {first second : KextHandler} (one : first ∈ handlers) (two : second ∈ handlers)
    (accepts : answers kinfos call first = true) (accepts' : answers kinfos call second = true) :
    first = second := by
  apply List.inj_on_of_nodup_map apart.names one two
  simp only [answers, named, Bool.and_eq_true, beq_iff_eq] at accepts accepts'
  exact accepts.1.2.trans accepts'.1.2.symm

theorem eraseIdx_eq_filter {items : List KextHandler} (different : items.Nodup) {index : Nat}
    {item : KextHandler} (found : items[index]? = some item) :
    items.eraseIdx index = items.filter (· != item) := by
  obtain ⟨within, rfl⟩ := List.getElem?_eq_some_iff.mp found
  rw [← different.erase_getElem index within, different.erase_eq_filter]

structure Tells (kinfos : Nat → Binary) (handlers : List KextHandler) (calls : List KextCall)
    (handled : List KextHandler × List Delivery) : Prop where
  left : handled.1 = handlers.filter (remains kinfos calls)
  told : ∀ handler ∈ handlers,
    handled.2.filter (·.index == handler.index) = expected kinfos handler calls
  known : ∀ delivery ∈ handled.2, ∃ handler ∈ handlers, handler.index = delivery.index

variable {calls : List KextCall} {call : KextCall} {handled : List KextHandler × List Delivery}

theorem Tells.ignored (tells : Tells kinfos handlers calls handled)
    (nobody : ∀ handler ∈ handled.1, answers kinfos call handler = false) :
    Tells kinfos handlers (calls ++ [call]) handled := by
  have refuses {handler : KextHandler} (member : handler ∈ handlers)
      (present : remains kinfos calls handler = true) : answers kinfos call handler = false := by
    apply nobody
    rw [tells.left]
    exact List.mem_filter.mpr ⟨member, present⟩
  constructor
  · rw [tells.left]
    apply List.filter_congr
    intro handler member
    rw [remains_append]
    cases present : remains kinfos calls handler with
    | false => rfl
    | true => simp [refuses member present]
  · intro handler member
    rw [tells.told handler member]
    cases present : remains kinfos calls handler with
    | false => exact (expected_append_gone present call).symm
    | true => exact (expected_append_other calls (refuses member present)).symm
  · exact tells.known

theorem Tells.answered (apart : Apart handlers) (tells : Tells kinfos handlers calls handled)
    {index : Nat} {handler : KextHandler} (found : handled.1[index]? = some handler)
    (accepts : answers kinfos call handler = true) :
    Tells kinfos handlers (calls ++ [call])
      (if handler.reloadable then handled.1 else handled.1.eraseIdx index,
        handled.2 ++ [deliveryOf handler call.kmod]) := by
  have here := List.mem_of_getElem? found
  rw [tells.left] at here
  obtain ⟨member, present⟩ := List.mem_filter.mp here
  have others {other : KextHandler} (among : other ∈ handlers) (different : other ≠ handler) :
      answers kinfos call other = false := by
    rw [Bool.eq_false_iff]
    exact fun accepts' => different (apart.answers_unique among member accepts' accepts)
  constructor
  · have distinct : handled.1.Nodup := by
      rw [tells.left]
      exact (List.Nodup.of_map _ apart.indices).filter _
    dsimp only
    rw [eraseIdx_eq_filter distinct found, tells.left]
    split
    case isTrue kept =>
      apply List.filter_congr
      intro other among
      rw [remains_append]
      by_cases same : other = handler
      · simp [same, kept]
      · simp [others among same]
    case isFalse once =>
      rw [List.filter_filter]
      apply List.filter_congr
      intro other among
      rw [remains_append]
      by_cases same : other = handler
      · simp [same, once, accepts]
      · simp [others among same, same]
  · intro other among
    rw [List.filter_append, tells.told other among]
    by_cases same : other = handler
    · subst same
      rw [expected_append_told present accepts]
      simp [deliveryOf]
    · have different : handler.index ≠ other.index := by
        intro equal
        exact same (List.inj_on_of_nodup_map apart.indices among member equal.symm)
      rw [expected_append_other calls (others among same)]
      simp [deliveryOf, different]
  · intro delivery among
    rcases List.mem_append.mp among with earlier | last
    · exact tells.known delivery earlier
    · rw [List.mem_singleton.mp last]
      exact ⟨handler, member, rfl⟩

theorem Apart.served_tells (apart : Apart handlers) (kinfos : Nat → Binary) (calls : List KextCall) :
    Tells kinfos handlers calls (served kinfos handlers calls) := by
  induction calls using List.reverseRecOn with
  | nil =>
      have all : handlers.filter (remains kinfos []) = handlers :=
        List.filter_eq_self.mpr (by simp [remains])
      exact ⟨all.symm, by simp [served, expected], by simp [served]⟩
  | append_singleton calls call ih =>
      rw [served_append]
      cases first : (served kinfos handlers calls).1.findIdx? (answers kinfos call) with
      | none =>
          have nobody := List.findIdx?_eq_none_iff.mp first
          simp only [handle, first]
          exact ih.ignored nobody
      | some index =>
          obtain ⟨within, accepts, -⟩ := List.findIdx?_eq_some_iff_getElem.mp first
          have found := List.getElem?_eq_getElem within
          simp only [handle, first, found]
          exact ih.answered apart found accepts

end Served

end NootedDeck.Lilu
