import NootedDeck.Shared.Interference
import NootedDeck.Lilu.KextNotifications
import Mathlib.Data.List.Infix

set_option autoImplicit false

-- Lilu's activation walks the kernel's list while the kernel may go on loading kexts. The two
-- parties share the handlers: up to activation they are the walk's, afterwards those of the
-- kernel's hook.

namespace NootedDeck.Lilu

open Interleaving

def loadedBy : List Operation → List Kmod
  | [] => []
  | .load kmod :: rest => kmod :: loadedBy rest
  | .unload _ _ :: rest => loadedBy rest

@[simp] theorem loadedBy_append (first second : List Operation) :
    loadedBy (first ++ second) = loadedBy first ++ loadedBy second := by
  induction first with
  | nil => rfl
  | cons operation rest ih => cases operation <;> simp [loadedBy, ih]

@[simp] theorem linked_concat (kmods : List Kmod) (operations : List Operation)
    (operation : Operation) :
    linked kmods (operations ++ [operation]) = operation.link (linked kmods operations) := by
  simp [linked]

theorem mem_linked {kmods : List Kmod} {operations : List Operation} {kmod : Kmod}
    (member : kmod ∈ linked kmods operations) : kmod ∈ kmods ++ loadedBy operations := by
  induction operations using List.reverseRecOn with
  | nil => exact List.mem_append_left _ member
  | append_singleton operations operation ih =>
      rw [linked_concat] at member
      rw [loadedBy_append, ← List.append_assoc]
      cases operation with
      | load loaded =>
          rcases List.mem_cons.mp member with rfl | older
          · simp [loadedBy]
          · exact List.mem_append_left _ (ih older)
      | unload address unlinked =>
          cases unlinked with
          | false => exact List.mem_append_left _ (ih member)
          | true => exact List.mem_append_left _ (ih (List.mem_of_mem_filter member))

theorem nextKmod_eq {kmods rest : List Kmod} {kmod : Kmod}
    (distinct : (kmods.map (·.address)).Nodup) (here : kmod :: rest <:+ kmods) :
    nextKmod kmod kmods = some rest.head? := by
  obtain ⟨earlier, rfl⟩ := here
  rw [List.map_append, List.nodup_append] at distinct
  have apart : ∀ other ∈ earlier, (other.address != kmod.address) = true := by
    intro other member
    have different := distinct.2.2 _ (List.mem_map_of_mem member) _ List.mem_cons_self
    simpa using different
  rw [nextKmod, List.dropWhile_append_of_pos apart, List.dropWhile_cons_of_neg (by simp)]

inductive Party where
  | activation
  | kexts
deriving DecidableEq

def Party.other : Party → Party
  | .activation => .kexts
  | .kexts => .activation

theorem Party.eq_other {party other : Party} (different : party ≠ other) : other = party.other := by
  cases party <;> cases other <;> first | rfl | exact absurd rfl different

def Party.turn : Party → Bool
  | .activation => false
  | .kexts => true

namespace Notifier

def Idle (kinfos : Nat → Binary) (handlers : List KextHandler) (now : Notifier) : Prop :=
  (now.khandlers, now.deliveries) = served kinfos handlers now.calls

def UpToLast (kinfos : Nat → Binary) (handlers : List KextHandler) (now : Notifier) : Prop :=
  now.deliveries = (served kinfos handlers now.calls).2 ∨
    ∃ earlier last, now.calls = earlier ++ [last] ∧
      now.deliveries = (served kinfos handlers earlier).2

structure Untouched (before after : Notifier) : Prop where
  khandlers : after.khandlers = before.khandlers
  calls : after.calls = before.calls
  deliveries : after.deliveries = before.deliveries
  waiting : after.waitingForAlreadyLoadedKexts = before.waitingForAlreadyLoadedKexts

structure Calm (before after : Notifier) : Prop where
  kmods : after.kmods = before.kmods
  arrivals : after.arrivals = before.arrivals
  unloading : after.isKextUnloading = before.isKextUnloading

section Unchanged

variable {kinfos : Nat → Binary} {handlers : List KextHandler} {first second third : Notifier}

theorem Idle.upToLast (idle : first.Idle kinfos handlers) : first.UpToLast kinfos handlers :=
  Or.inl (congrArg Prod.snd idle)

theorem Untouched.refl (now : Notifier) : Untouched now now := ⟨rfl, rfl, rfl, rfl⟩

theorem Untouched.trans (one : Untouched first second) (two : Untouched second third) :
    Untouched first third :=
  ⟨two.khandlers.trans one.khandlers, two.calls.trans one.calls,
    two.deliveries.trans one.deliveries, two.waiting.trans one.waiting⟩

theorem Idle.untouched (idle : first.Idle kinfos handlers) (untouched : Untouched first second) :
    second.Idle kinfos handlers := by
  rw [Idle, untouched.khandlers, untouched.calls, untouched.deliveries]
  exact idle

theorem Calm.refl (now : Notifier) : Calm now now := ⟨rfl, rfl, rfl⟩

theorem Calm.trans (one : Calm first second) (two : Calm second third) : Calm first third :=
  ⟨two.kmods.trans one.kmods, two.arrivals.trans one.arrivals, two.unloading.trans one.unloading⟩

end Unchanged

end Notifier

open Notifier

structure Session where
  kinfos : Nat → Binary
  bigSur : Bool
  operations : List Operation
  start : Notifier
  inactive : start.activated = false
  unloading : start.isKextUnloading = false
  fresh : start.arrivals = [] ∧ start.calls = [] ∧ start.deliveries = []

namespace Session

section Terms

variable (session : Session)

def walks : Bool := session.bigSur && session.start.waitingForAlreadyLoadedKexts

def leaves : Bool := session.start.waitingForAlreadyLoadedKexts && !session.bigSur

def all : List Kmod := session.start.kmods ++ loadedBy session.operations

def Placed (kmods : List Kmod) : Prop :=
  ∃ done ∈ session.operations.inits, kmods = linked session.start.kmods done

def Spread : Prop :=
  ∀ done ∈ session.operations.inits, ((linked session.start.kmods done).map (·.address)).Nodup

/-- No kext is unlinked that activation may still come to. -/
abbrev Keeps (before after : Notifier) : Prop :=
  session.walks = true → before.activated = false → before.kmods <:+ after.kmods

def Around : Party → Notifier → Notifier → Prop
  | .activation, before, after =>
      (session.Placed before.kmods → session.Placed after.kmods) ∧
        (session.walks = true → before.kmods <:+ after.kmods)
  | .kexts, before, after => Calm before after

structure Walked (now : Notifier) : Prop where
  idle : now.Idle session.kinfos session.start.khandlers
  waiting : now.waitingForAlreadyLoadedKexts = session.leaves
  others : session.walks = false → now.calls = []
  calls : session.walks = true → ∃ walked, session.start.kmods <:+ walked ∧
    walked <:+ now.kmods ∧ now.calls = walked.map (⟨·, true⟩)

-- Before activation the calls are up to the initialisation, afterwards to the kernel.
def Relies : Party → Notifier → Notifier → Prop
  | .activation, before, after =>
      (before.activated = true → after.activated = true) ∧
        (before.activated = false → after.activated = false ∧ Untouched before after ∧
          session.Around .activation before after)
  | .kexts, before, after =>
      Calm before after ∧
        (before.activated = true → after.activated = true ∧ Untouched before after) ∧
        (before.activated = false → after.activated = true → session.Walked after)

def Known (now : Notifier) : Prop := ∀ call ∈ now.calls, call.kmod ∈ session.all

def Reported (now : Notifier) : Prop :=
  now.UpToLast session.kinfos session.start.khandlers ∧ session.Known now

def Guarantees : Party → Notifier → Notifier → Prop
  | .activation, before, after =>
      session.Relies .kexts before after ∧ (session.Reported before → session.Reported after)
  | .kexts, before, after =>
      (session.Keeps before after → session.Relies .activation before after) ∧
        (session.Reported before → session.Reported after)

abbrev Does (party : Party) (post : Notifier → Prop) (program : Program Notifier Unit)
    (now : Notifier) : Prop :=
  program.Safe (session.Relies party) (session.Guarantees party) session.Keeps (fun _ => post) now

end Terms

variable {session : Session} {party : Party} {before after : Notifier}

theorem Spread.nodup (spread : session.Spread) {kmods : List Kmod} (placed : session.Placed kmods) :
    (kmods.map (·.address)).Nodup := by
  obtain ⟨done, early, rfl⟩ := placed
  exact spread done early

theorem Placed.known {kmods : List Kmod} (placed : session.Placed kmods) {kmod : Kmod}
    (member : kmod ∈ kmods) : kmod ∈ session.all := by
  obtain ⟨done, early, rfl⟩ := placed
  obtain ⟨rest, whole⟩ := (List.mem_inits _ _).mp early
  rw [all, ← whole, loadedBy_append, ← List.append_assoc]
  exact List.mem_append_left _ (mem_linked member)

theorem placed_start : session.Placed session.start.kmods :=
  ⟨[], (List.mem_inits _ _).mpr List.nil_prefix, rfl⟩

theorem Around.refl (now : Notifier) : session.Around party now now := by
  cases party with
  | activation => exact ⟨id, fun _ => List.suffix_rfl⟩
  | kexts => exact Calm.refl now

theorem Around.trans {middle : Notifier} (one : session.Around party before middle)
    (two : session.Around party middle after) : session.Around party before after := by
  cases party with
  | activation => exact ⟨two.1 ∘ one.1, fun walks => (one.2 walks).trans (two.2 walks)⟩
  | kexts => exact Calm.trans one two

theorem Around.of_calm (calm : Calm before after) : session.Around party before after := by
  cases party with
  | activation => exact ⟨fun placed => calm.kmods ▸ placed, fun _ => calm.kmods ▸ List.suffix_rfl⟩
  | kexts => exact calm

theorem Walked.later (walked : session.Walked before) (calm : Calm before after)
    (untouched : Untouched before after) : session.Walked after where
  idle := walked.idle.untouched untouched
  waiting := untouched.waiting.trans walked.waiting
  others none := untouched.calls.trans (walked.others none)
  calls walks := by
    rw [untouched.calls, calm.kmods]
    exact walked.calls walks

theorem Relies.own (relied : session.Relies party before after)
    (mine : before.activated = party.turn) :
    after.activated = party.turn ∧ Untouched before after ∧ session.Around party before after := by
  cases party with
  | activation => exact relied.2 mine
  | kexts =>
      obtain ⟨calm, active, _⟩ := relied
      exact ⟨(active mine).1, (active mine).2, calm⟩

theorem compatible : Pool.Compatible session.Relies session.Guarantees session.Keeps := by
  constructor
  · intro party now
    cases party with
    | activation => exact ⟨id, fun inactive => ⟨inactive, .refl now, .refl now⟩⟩
    | kexts =>
        refine ⟨.refl now, fun active => ⟨active, .refl now⟩, fun inactive active => ?_⟩
        cases inactive.symm.trans active
  · intro party first second third one two
    cases party with
    | activation =>
        refine ⟨fun active => two.1 (one.1 active), fun inactive => ?_⟩
        obtain ⟨still, untouched, around⟩ := one.2 inactive
        obtain ⟨yet, more, wider⟩ := two.2 still
        exact ⟨yet, untouched.trans more, around.trans wider⟩
    | kexts =>
        refine ⟨one.1.trans two.1, fun active => ?_, fun inactive active => ?_⟩
        · obtain ⟨still, untouched⟩ := one.2.1 active
          exact ⟨(two.2.1 still).1, untouched.trans (two.2.1 still).2⟩
        · cases middle : second.activated with
          | false => exact two.2.2 middle active
          | true => exact (one.2.2 inactive middle).later two.1 (two.2.1 middle).2
  · intro party other different before after guaranteed allows
    rw [Party.eq_other different]
    cases party with
    | activation => exact guaranteed.1
    | kexts => exact guaranteed.1 allows

theorem guarantees_own (mine : before.activated = party.turn)
    (still : after.activated = before.activated) (calm : Calm before after)
    (reports : session.Reported before → session.Reported after) :
    session.Guarantees party before after := by
  cases party with
  | activation =>
      refine ⟨⟨calm, fun active => ?_, fun _ active => ?_⟩, reports⟩
      · cases mine.symm.trans active
      · cases mine.symm.trans (still.symm.trans active)
  | kexts =>
      refine ⟨fun _ => ⟨fun active => still.trans active, fun inactive => ?_⟩, reports⟩
      cases mine.symm.trans inactive

structure Settled (session : Session) (party : Party) (origin : Notifier) (waiting : Bool)
    (calls : List KextCall)
    (now : Notifier) : Prop where
  mine : now.activated = party.turn
  idle : now.Idle session.kinfos session.start.khandlers
  calls : now.calls = calls
  waiting : now.waitingForAlreadyLoadedKexts = waiting
  around : session.Around party origin now

structure Calling (session : Session) (party : Party) (origin : Notifier) (waiting : Bool)
    (earlier : List KextCall)
    (call : KextCall) (now : Notifier) : Prop where
  mine : now.activated = party.turn
  calls : now.calls = earlier ++ [call]
  handled : (now.khandlers, now.deliveries) =
    served session.kinfos session.start.khandlers earlier
  waiting : now.waitingForAlreadyLoadedKexts = waiting
  around : session.Around party origin now

structure Delivered (session : Session) (party : Party) (origin : Notifier) (waiting : Bool)
    (calls : List KextCall)
    (index : Nat) (handler : KextHandler) (now : Notifier) : Prop where
  mine : now.activated = party.turn
  found : now.khandlers[index]? = some handler
  calls : now.calls = calls
  handled : served session.kinfos session.start.khandlers now.calls =
    (if handler.reloadable then now.khandlers else now.khandlers.eraseIdx index, now.deliveries)
  waiting : now.waitingForAlreadyLoadedKexts = waiting
  around : session.Around party origin now

section Calls

variable {origin now : Notifier} {waiting : Bool} {calls earlier : List KextCall} {call : KextCall}

theorem Settled.later (settled : Settled session party origin waiting calls now)
    (relied : session.Relies party now after) : Settled session party origin waiting calls after := by
  obtain ⟨mine, untouched, around⟩ := relied.own settled.mine
  exact ⟨mine, settled.idle.untouched untouched, untouched.calls.trans settled.calls,
    untouched.waiting.trans settled.waiting, settled.around.trans around⟩

theorem Calling.later (calling : Calling session party origin waiting earlier call now)
    (relied : session.Relies party now after) :
    Calling session party origin waiting earlier call after ∧ after.khandlers = now.khandlers := by
  obtain ⟨mine, untouched, around⟩ := relied.own calling.mine
  refine ⟨⟨mine, untouched.calls.trans calling.calls, ?_, untouched.waiting.trans calling.waiting,
    calling.around.trans around⟩, untouched.khandlers⟩
  rw [untouched.khandlers, untouched.deliveries, calling.handled]

theorem Calling.settled (calling : Calling session party origin waiting earlier call now) {index : Nat}
    (passed : Passed session.kinfos call now.khandlers index) (whole : now.khandlers.length ≤ index) :
    Settled session party origin waiting (earlier ++ [call]) now := by
  refine ⟨calling.mine, ?_, calling.calls, calling.waiting, calling.around⟩
  rw [Idle, calling.calls, served_append, ← calling.handled]
  exact (handle_passed (now.khandlers, now.deliveries) passed whole).symm

theorem Delivered.later {index : Nat} {handler : KextHandler}
    (delivered : Delivered session party origin waiting calls index handler now)
    (relied : session.Relies party now after) :
    Delivered session party origin waiting calls index handler after := by
  obtain ⟨mine, untouched, around⟩ := relied.own delivered.mine
  refine ⟨mine, untouched.khandlers ▸ delivered.found, untouched.calls.trans delivered.calls, ?_,
    untouched.waiting.trans delivered.waiting, delivered.around.trans around⟩
  rw [untouched.khandlers, untouched.calls, untouched.deliveries, delivered.handled]

theorem Delivered.remove_safe {index : Nat} {handler : KextHandler}
    (delivered : Delivered session party origin waiting calls index handler now)
    (once : handler.reloadable = false) :
    session.Does party (Settled session party origin waiting calls)
      (Program.modify fun now => { now with khandlers := now.khandlers.eraseIdx index }) now := by
  intro before relied
  have here := delivered.later relied
  have settled : Settled session party origin waiting calls
      { before with khandlers := before.khandlers.eraseIdx index } := by
    have handled := here.handled
    rw [if_neg (by simp [once])] at handled
    exact ⟨here.mine, handled.symm, here.calls, here.waiting,
      here.around.trans (.of_calm ⟨rfl, rfl, rfl⟩)⟩
  exact ⟨guarantees_own here.mine rfl ⟨rfl, rfl, rfl⟩ (fun reported => ⟨settled.idle.upToLast, reported.2⟩),
    fun _ after => settled.later⟩

theorem Calling.invoke_safe (calling : Calling session party origin waiting earlier call now) {index : Nat}
    {handler : KextHandler} (passed : Passed session.kinfos call now.khandlers index)
    (found : now.khandlers[index]? = some handler)
    (accepts : answers session.kinfos call handler = true) :
    session.Does party (Settled session party origin waiting (earlier ++ [call]))
      (invoke call.kmod index handler) now := by
  simp only [Does, invoke, Program.safe_modify_bind, Program.safe_get_bind]
  intro before relied
  obtain ⟨here, khandlers⟩ := calling.later relied
  rw [← khandlers] at passed found
  have result : served session.kinfos session.start.khandlers before.calls =
      (if handler.reloadable then before.khandlers else before.khandlers.eraseIdx index,
        before.deliveries ++ [deliveryOf handler call.kmod]) := by
    rw [here.calls, served_append, ← here.handled]
    exact handle_found (before.khandlers, before.deliveries) passed found accepts
  have delivered : Delivered session party origin waiting (earlier ++ [call]) index handler
      { before with deliveries := before.deliveries ++ [deliveryOf handler call.kmod] } :=
    ⟨here.mine, found, here.calls, result, here.waiting,
      here.around.trans (.of_calm ⟨rfl, rfl, rfl⟩)⟩
  have near : ({ before with deliveries := before.deliveries ++ [deliveryOf handler call.kmod] } :
      Notifier).UpToLast session.kinfos session.start.khandlers :=
    Or.inl (congrArg Prod.snd result).symm
  refine ⟨guarantees_own here.mine rfl ⟨rfl, rfl, rfl⟩ (fun reported => ⟨near, reported.2⟩),
    fun _ again relied => ?_⟩
  have there := delivered.later relied
  rw [there.found]
  cases kept : handler.reloadable with
  | false =>
      simp only [kept, Bool.false_eq_true, if_false]
      exact there.remove_safe kept
  | true =>
      simp only [kept, if_true]
      have handled := there.handled
      rw [if_pos kept] at handled
      have settled : Settled session party origin waiting (earlier ++ [call]) again :=
        ⟨there.mine, handled.symm, there.calls, there.waiting, there.around⟩
      exact fun after => settled.later

theorem Calling.scan_safe (calling : Calling session party origin waiting earlier call now)
    (index rounds : Nat) (passed : Passed session.kinfos call now.khandlers index)
    (enough : now.khandlers.length ≤ index + rounds) :
    session.Does party (Settled session party origin waiting (earlier ++ [call]))
      (scan session.kinfos call index rounds) now := by
  induction rounds generalizing index now with
  | zero =>
      rw [scan, Does, Program.safe_get_bind]
      intro later relied
      obtain ⟨calling, same⟩ := calling.later relied
      rw [← same] at passed enough
      rw [Nat.add_zero] at enough
      rw [if_pos enough]
      exact fun after => (calling.settled passed enough).later
  | succ rounds ih =>
      rw [scan, Does, Program.safe_get_bind]
      intro later relied
      obtain ⟨calling, same⟩ := calling.later relied
      rw [← same] at passed enough
      have goOn {handler : KextHandler} (found : later.khandlers[index]? = some handler)
          (refuses : answers session.kinfos call handler = false) :=
        ih calling (index + 1) (passed.next found refuses) (by omega)
      cases found : later.khandlers[index]? with
      | none =>
          have whole := List.getElem?_eq_none_iff.mp found
          exact fun after => (calling.settled passed whole).later
      | some handler =>
          dsimp only
          have heeds : (!call.loaded || handler.loaded) = !(call.loaded && !handler.loaded) := by
            cases call.loaded <;> simp
          split
          case isTrue skips => exact goOn found (by simp [answers, heeds, skips])
          case isFalse wanted =>
            split
            case isFalse other => exact goOn found (by simp [answers, other])
            case isTrue same =>
              split
              case isTrue current =>
                exact calling.invoke_safe passed found (by simp [answers, heeds, wanted, same, current])
              case isFalse foreign => exact goOn found (by simp [answers, foreign])

theorem Settled.processKext_safe (settled : Settled session party origin waiting calls now) {kmod : Kmod}
    (known : kmod ∈ session.all) (loaded : Bool) :
    session.Does party (Settled session party origin waiting (calls ++ [⟨kmod, loaded⟩]))
      (processKext session.kinfos kmod loaded) now := by
  simp only [Does, processKext, Program.safe_modify_bind, Program.safe_get_bind]
  intro before relied
  have here := settled.later relied
  have handled := here.idle
  rw [Idle, here.calls] at handled
  have calling : Calling session party origin waiting calls ⟨kmod, loaded⟩
      { before with calls := before.calls ++ [⟨kmod, loaded⟩] } :=
    ⟨here.mine, congrArg (· ++ [_]) here.calls, handled, here.waiting,
      here.around.trans (.of_calm ⟨rfl, rfl, rfl⟩)⟩
  have near : ({ before with calls := before.calls ++ [⟨kmod, loaded⟩] } : Notifier).UpToLast
      session.kinfos session.start.khandlers :=
    Or.inr ⟨before.calls, ⟨kmod, loaded⟩, rfl, congrArg Prod.snd here.idle⟩
  have knows : session.Known before →
      session.Known { before with calls := before.calls ++ [⟨kmod, loaded⟩] } := by
    intro knows
    simpa [Known, or_imp, forall_and, known] using knows
  refine ⟨guarantees_own here.mine rfl ⟨rfl, rfl, rfl⟩ (fun reported => ⟨near, knows reported.2⟩), ?_⟩
  intro _ later relied
  refine (calling.later relied).1.scan_safe 0 _ ?_ (by omega)
  intro place before
  exact absurd before (Nat.not_lt_zero place)

theorem Settled.walk_safe (spread : session.Spread)
    (walking : party = .activation → session.walks = true) (placed : session.Placed origin.kmods)
    (rest : List Kmod) (tail : rest <:+ origin.kmods)
    (settled : Settled session party origin waiting calls now) :
    session.Does party (Settled session party origin waiting (calls ++ rest.map (⟨·, true⟩)))
      (walk session.kinfos rest.length rest.head?) now := by
  induction rest generalizing now calls with
  | nil =>
      rw [List.map_nil, List.append_nil]
      exact fun after => settled.later
  | cons kmod rest ih =>
      have known := placed.known (tail.subset List.mem_cons_self)
      refine (settled.processKext_safe known true).bind (compatible.refl party) ?_
      intro _ middle settled
      rw [Program.safe_get_bind]
      intro later relied
      have here := settled.later relied
      have still : session.Placed later.kmods ∧ kmod :: rest <:+ later.kmods := by
        have around := here.around
        cases party with
        | activation => exact ⟨around.1 placed, tail.trans (around.2 (walking rfl))⟩
        | kexts => exact ⟨around.kmods ▸ placed, around.kmods ▸ tail⟩
      rw [nextKmod_eq (spread.nodup still.1) still.2]
      have onwards := ih ((List.suffix_cons kmod rest).trans tail) here
      rwa [List.append_assoc, List.singleton_append] at onwards

theorem Settled.processAlreadyLoadedKexts_safe (spread : session.Spread)
    (walking : party = .activation → session.walks = true) (placed : session.Placed origin.kmods)
    (settled : Settled session party origin waiting calls now) :
    session.Does party (fun after => ∃ middle, session.Around party origin middle ∧
        Settled session party middle waiting (calls ++ middle.kmods.map (⟨·, true⟩)) after)
      (processAlreadyLoadedKexts session.kinfos) now := by
  rw [processAlreadyLoadedKexts, Does, Program.safe_get_bind]
  intro middle relied
  have here := settled.later relied
  have placed : session.Placed middle.kmods := by
    have around := here.around
    cases party with
    | activation => exact around.1 placed
    | kexts => exact around.kmods ▸ placed
  have settled : Settled session party middle waiting calls middle :=
    ⟨here.mine, here.idle, here.calls, here.waiting, .refl middle⟩
  have walked := settled.walk_safe spread walking placed middle.kmods List.suffix_rfl
  exact walked.imp fun _ after settled => ⟨middle, here.around, settled⟩

theorem Settled.endWait_safe (settled : Settled session party origin waiting calls now) :
    session.Does party (Settled session party origin false calls)
      (Program.modify fun now => { now with waitingForAlreadyLoadedKexts := false }) now := by
  intro before relied
  have here := settled.later relied
  have ended : Settled session party origin false calls
      { before with waitingForAlreadyLoadedKexts := false } :=
    ⟨here.mine, here.idle, here.calls, rfl, here.around.trans (.of_calm ⟨rfl, rfl, rfl⟩)⟩
  exact ⟨guarantees_own here.mine rfl ⟨rfl, rfl, rfl⟩ (fun reported => ⟨ended.idle.upToLast, reported.2⟩),
    fun _ after => ended.later⟩

end Calls

end Session

end NootedDeck.Lilu
