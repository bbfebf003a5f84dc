import NootedDeck.Lilu.KextInterleaving

set_option autoImplicit false

namespace NootedDeck.Lilu

open Interleaving Notifier

namespace Session

section Terms

variable (session : Session)

def present (early : List Kmod) : List KextCall :=
  if session.walks then (early.reverse ++ session.start.kmods).map (⟨·, true⟩) else []

/-- The calls of a run, by what the kernel has done and which kexts it has linked since activation. The
flag tells whether the walk is still to come. -/
inductive Heard (done : List Operation) (late : List Kmod) : Bool → List KextCall → Prop
  -- A kext that is linked just before activation may be told of once more.
  | told (early missed : List Kmod) (straddler : Option Kmod) (calls : List KextCall)
      (prompt : session.leaves = false) (order : loadedBy done = early ++ missed ++ late)
      (straddles : straddler = none ∨ straddler = (early ++ missed).getLast?)
      (made : calls = session.present early ++ (straddler.toList ++ late).map (⟨·, false⟩)) :
      Heard done late false calls
  | pending (leaves : session.leaves = true) (nothing : late = []) : Heard done late true []
  -- The first load that the hook sees starts the walk, and is walked itself.
  | caughtUp (older newer : List Operation) (first : Kmod) (calls : List KextCall)
      (leaves : session.leaves = true) (order : done = older ++ .load first :: newer)
      (since : late = loadedBy newer ∨ late = first :: loadedBy newer)
      (made : calls = (first :: linked session.start.kmods older).map (⟨·, true⟩) ++
        (loadedBy newer).map (⟨·, false⟩)) :
      Heard done late false calls

def Fresh (done : List Operation) (waiting : Bool) (calls : List KextCall) : Prop :=
  waiting = session.leaves ∧
    ∃ early missed, loadedBy done = early ++ missed ∧ calls = session.present early

def Due (done : List Operation) (kmod : Kmod) (late : List Kmod) (waiting : Bool)
    (calls : List KextCall) : Prop :=
  (∃ earlier, late = earlier ++ [kmod] ∧ session.Heard done earlier waiting calls) ∨
    (late = [] ∧ session.Fresh (done ++ [.load kmod]) waiting calls)

structure Stands (done : List Operation) (unloading : Bool)
    (heard : List Kmod → Bool → List KextCall → Prop) (now : Notifier) : Prop where
  kmods : now.kmods = linked session.start.kmods done
  unloading : now.isKextUnloading = unloading
  grown : session.walks = true → now.activated = false →
    now.kmods = (loadedBy done).reverse ++ session.start.kmods
  quiet : now.activated = false → now.arrivals = []
  active : now.activated = true → now.Idle session.kinfos session.start.khandlers ∧
    heard now.arrivals now.waitingForAlreadyLoadedKexts now.calls

end Terms

variable {session : Session}

section Hearing

variable {done : List Operation} {late : List Kmod} {waiting : Bool} {calls : List KextCall}
  {kmod : Kmod}

theorem present_of_leaves (leaves : session.leaves = true) (early : List Kmod) :
    session.present early = [] := by
  have none : session.walks = false := by
    simp only [Session.leaves, Bool.and_eq_true, Bool.not_eq_true'] at leaves
    simp [walks, leaves.2]
  simp [present, none]

theorem Fresh.heard (fresh : session.Fresh done waiting calls) :
    session.Heard done [] waiting calls := by
  obtain ⟨rfl, early, missed, order, rfl⟩ := fresh
  cases leaves : session.leaves with
  | true =>
      rw [present_of_leaves leaves]
      exact .pending leaves rfl
  | false => exact .told early missed none _ leaves (by simpa using order) (Or.inl rfl) (by simp)

theorem Heard.leaves (heard : session.Heard done late true calls) :
    session.leaves = true ∧ late = [] ∧ calls = [] := by
  cases heard with
  | pending leaves nothing => exact ⟨leaves, nothing, rfl⟩

theorem Heard.unload (heard : session.Heard done late waiting calls) (address : Nat)
    (unlinked : Bool) : session.Heard (done ++ [.unload address unlinked]) late waiting calls := by
  cases heard with
  | told early missed straddler _ prompt order straddles made =>
      exact .told early missed straddler _ prompt (by simpa [loadedBy] using order) straddles made
  | pending leaves nothing => exact .pending leaves nothing
  | caughtUp older newer first _ leaves order since made =>
      exact .caughtUp older (newer ++ [.unload address unlinked]) first _ leaves (by simp [order])
        (by simpa [loadedBy] using since) (by simpa [loadedBy] using made)

theorem Due.call (due : session.Due done kmod late false calls) :
    session.Heard (done ++ [.load kmod]) late false (calls ++ [⟨kmod, false⟩]) := by
  rcases due with ⟨earlier, rfl, heard⟩ | ⟨rfl, prompt, early, missed, order, rfl⟩
  · cases heard with
    | told early missed straddler _ prompt order straddles made =>
        exact .told early missed straddler _ prompt (by simp [order, loadedBy]) straddles
          (by simp [made])
    | caughtUp older newer first _ leaves order since made =>
        refine .caughtUp older (newer ++ [.load kmod]) first _ leaves (by simp [order]) ?_
          (by simp [made, loadedBy])
        rcases since with rfl | rfl <;> simp [loadedBy]
  · -- The kext came while Lilu was being activated.
    have last : (early ++ missed).getLast? = some kmod := by
      rw [← order]
      simp [loadedBy]
    exact .told early missed (some kmod) _ prompt.symm (by simpa using order) (Or.inr last.symm)
      (by simp)

theorem Due.catchUp (due : session.Due done kmod late true calls) :
    session.Heard (done ++ [.load kmod]) late false
      (calls ++ (kmod :: linked session.start.kmods done).map (⟨·, true⟩)) := by
  rcases due with ⟨earlier, rfl, heard⟩ | ⟨rfl, leaves, early, missed, order, rfl⟩
  · obtain ⟨leaves, rfl, rfl⟩ := heard.leaves
    exact .caughtUp done [] kmod _ leaves rfl (Or.inr rfl) (by simp [loadedBy])
  · exact .caughtUp done [] kmod _ leaves.symm rfl (Or.inl rfl)
      (by simp [present_of_leaves leaves.symm, loadedBy])

theorem Walked.fresh {now : Notifier} (walked : session.Walked now)
    (grown : session.walks = true → now.kmods = (loadedBy done).reverse ++ session.start.kmods) :
    session.Fresh done now.waitingForAlreadyLoadedKexts now.calls := by
  refine ⟨walked.waiting, ?_⟩
  cases walks : session.walks with
  | false => exact ⟨[], loadedBy done, rfl, by simp [present, walks, walked.others walks]⟩
  | true =>
      obtain ⟨_, ⟨seen, rfl⟩, ⟨missed, whole⟩, calls⟩ := walked.calls walks
      rw [grown walks, ← List.append_assoc] at whole
      have order := congrArg List.reverse (List.append_cancel_right whole)
      rw [List.reverse_append, List.reverse_reverse] at order
      exact ⟨seen.reverse, missed.reverse, order.symm, by simp [present, walks, calls]⟩

end Hearing

section Kernel

variable {done : List Operation} {unloading : Bool} {heard : List Kmod → Bool → List KextCall → Prop}
  {now after : Notifier} {kmod : Kmod}

theorem Stands.later (stands : session.Stands done unloading heard now)
    (fresh : ∀ waiting calls, session.Fresh done waiting calls → heard [] waiting calls)
    (relied : session.Relies .kexts now after) : session.Stands done unloading heard after := by
  obtain ⟨calm, actives, walked⟩ := relied
  have before : after.activated = false → now.activated = false := by
    intro inactive
    by_contra active
    rw [Bool.not_eq_false] at active
    cases inactive.symm.trans (actives active).1
  refine ⟨calm.kmods.trans stands.kmods, calm.unloading.trans stands.unloading, ?_, ?_, ?_⟩
  · exact fun walks inactive => calm.kmods.trans (stands.grown walks (before inactive))
  · exact fun inactive => calm.arrivals.trans (stands.quiet (before inactive))
  · intro active
    cases was : now.activated with
    | true =>
        obtain ⟨_, untouched⟩ := actives was
        rw [calm.arrivals, untouched.waiting, untouched.calls]
        exact ⟨(stands.active was).1.untouched untouched, (stands.active was).2⟩
    | false =>
        have walked := walked was active
        rw [calm.arrivals, stands.quiet was]
        exact ⟨walked.idle, fresh _ _ (walked.fresh fun walks =>
          calm.kmods.trans (stands.grown walks was))⟩

abbrev Ready (session : Session) (done : List Operation) (unloading : Bool) : Notifier → Prop :=
  session.Stands done unloading (session.Heard done)

theorem Ready.later (ready : session.Ready done unloading now)
    (relied : session.Relies .kexts now after) : session.Ready done unloading after :=
  Stands.later ready (fun _ _ fresh => fresh.heard) relied

abbrev Loaded (session : Session) (done : List Operation) (kmod : Kmod) : Notifier → Prop :=
  session.Stands (done ++ [.load kmod]) false (session.Due done kmod)

theorem Loaded.later (loaded : session.Loaded done kmod now)
    (relied : session.Relies .kexts now after) : session.Loaded done kmod after :=
  Stands.later loaded (fun _ _ fresh => Or.inr ⟨rfl, fresh⟩) relied

theorem Loaded.ready (loaded : session.Loaded done kmod now) {calls : List KextCall} {waiting : Bool}
    (settled : Settled session .kexts now waiting calls after)
    (heard : session.Heard (done ++ [.load kmod]) now.arrivals waiting calls) :
    session.Ready (done ++ [.load kmod]) false after := by
  have around : Calm now after := settled.around
  refine ⟨around.kmods.trans loaded.kmods, around.unloading.trans loaded.unloading, ?_, ?_, ?_⟩
  · intro _ inactive
    cases settled.mine.symm.trans inactive
  · intro inactive
    cases settled.mine.symm.trans inactive
  · rw [settled.calls, settled.waiting, around.arrivals]
    exact fun _ => ⟨settled.idle, heard⟩

theorem Loaded.passed (loaded : session.Loaded done kmod now) (inactive : now.activated = false) :
    session.Ready (done ++ [.load kmod]) false now where
  kmods := loaded.kmods
  unloading := loaded.unloading
  grown := loaded.grown
  quiet := loaded.quiet
  active active := by cases inactive.symm.trans active

theorem placed_of_prefix (within : done <+: session.operations) :
    session.Placed (linked session.start.kmods done) := ⟨done, (List.mem_inits _ _).mpr within, rfl⟩

theorem Loaded.hook_safe (spread : session.Spread)
    (within : done ++ [.load kmod] <+: session.operations) (loaded : session.Loaded done kmod now) :
    session.Does .kexts (session.Ready (done ++ [.load kmod]) false)
      (onOSKextSaveLoadedKextPanicList session.kinfos) now := by
  rw [onOSKextSaveLoadedKextPanicList, Does, Program.safe_get_bind]
  intro later relied
  have here := loaded.later relied
  split
  case isFalse off => exact fun after => (here.passed (Bool.eq_false_of_not_eq_true off)).later
  case isTrue active =>
    rw [Program.safe_get_bind]
    intro again more
    have there := here.later more
    have still : again.activated = true := (more.2.1 active).1
    have placed : session.Placed again.kmods := there.kmods ▸ placed_of_prefix within
    have kmods : again.kmods = kmod :: linked session.start.kmods done :=
      there.kmods.trans (linked_concat ..)
    obtain ⟨idle, due⟩ := there.active still
    have settled : Settled session .kexts again again.waitingForAlreadyLoadedKexts again.calls again :=
      ⟨still, idle, rfl, rfl, .refl again⟩
    rw [if_neg (by simp [there.unloading])]
    cases waits : again.waitingForAlreadyLoadedKexts with
    | true =>
        rw [waits] at settled due
        rw [if_pos rfl]
        have walking : Party.kexts = .activation → session.walks = true := by simp
        refine (settled.processAlreadyLoadedKexts_safe spread walking placed).bind
          (compatible.refl .kexts) ?_
        rintro _ walked ⟨middle, around, settled⟩
        refine settled.endWait_safe.imp fun _ after ended => there.ready ?_ due.catchUp
        rw [← kmods, ← around.kmods]
        exact ⟨ended.mine, ended.idle, ended.calls, ended.waiting, around.trans ended.around⟩
    | false =>
        rw [waits] at settled due
        have known := placed.known (kmods ▸ List.mem_cons_self)
        simp only [Bool.false_eq_true, if_false, kmods, List.head?_cons]
        exact (settled.processKext_safe known false).imp fun _ after settled =>
          there.ready settled due.call

theorem Ready.hook_safe (ready : session.Ready done true now) :
    session.Does .kexts (session.Ready done true)
      (onOSKextSaveLoadedKextPanicList session.kinfos) now := by
  rw [onOSKextSaveLoadedKextPanicList, Does, Program.safe_get_bind]
  intro later relied
  have here := ready.later relied
  split
  case isFalse => exact fun after => here.later
  case isTrue =>
    rw [Program.safe_get_bind]
    intro again more
    have there := here.later more
    rw [if_pos there.unloading]
    exact fun after => there.later

theorem guarantees_aside {before : Notifier} (still : after.activated = before.activated)
    (untouched : Untouched before after) (placed : session.Placed after.kmods) :
    session.Guarantees .kexts before after := by
  refine ⟨fun keeps => ⟨fun active => still.trans active, fun inactive => ⟨still.trans inactive,
    untouched, fun _ => placed, fun walks => keeps walks inactive⟩⟩, ?_⟩
  rw [Reported, Reported, Known, Known, UpToLast, UpToLast, untouched.calls, untouched.deliveries]
  exact id

theorem Ready.load (ready : session.Ready done false now) (kmod : Kmod) :
    session.Loaded done kmod (now.perform (.load kmod)) where
  kmods := by
    rw [linked_concat, ← ready.kmods]
    rfl
  unloading := ready.unloading
  grown walks inactive := by
    have grown := ready.grown walks inactive
    simp [Notifier.perform, Operation.link, loadedBy, grown]
  quiet inactive := by
    have off : now.activated = false := inactive
    simp [Notifier.perform, off, ready.quiet off]
  active active := by
    have on : now.activated = true := active
    obtain ⟨idle, heard⟩ := ready.active on
    exact ⟨idle, Or.inl ⟨now.arrivals, by simp [Notifier.perform, on], heard⟩⟩

theorem Ready.load_safe (spread : session.Spread)
    (within : done ++ [.load kmod] <+: session.operations) (ready : session.Ready done false now) :
    session.Does .kexts (session.Ready (done ++ [.load kmod]) false)
      (Operation.perform session.kinfos (.load kmod)) now := by
  rw [Operation.perform, Does, Program.safe_modify_bind]
  intro before relied
  have loaded := (ready.later relied).load kmod
  have placed : session.Placed (before.perform (.load kmod)).kmods :=
    loaded.kmods ▸ placed_of_prefix within
  exact ⟨guarantees_aside rfl ⟨rfl, rfl, rfl, rfl⟩ placed, fun _ => loaded.hook_safe spread within⟩

theorem Ready.flag_safe (within : done <+: session.operations)
    (ready : session.Ready done unloading now) (flag : Bool) :
    session.Does .kexts (session.Ready done flag)
      (Program.modify fun now => { now with isKextUnloading := flag }) now := by
  intro before relied
  have here := ready.later relied
  have flagged : session.Ready done flag { before with isKextUnloading := flag } :=
    ⟨here.kmods, rfl, here.grown, here.quiet, here.active⟩
  exact ⟨guarantees_aside rfl ⟨rfl, rfl, rfl, rfl⟩ (here.kmods ▸ placed_of_prefix within),
    fun _ after => flagged.later⟩

theorem Ready.unloaded (ready : session.Ready done unloading now) {address : Nat} {unlinked : Bool}
    {flag : Bool} (kmods : after.kmods = linked session.start.kmods (done ++ [.unload address unlinked]))
    (grown : session.walks = true → now.activated = false → after.kmods = now.kmods)
    (flagged : after.isKextUnloading = flag) (still : after.activated = now.activated)
    (arrivals : after.arrivals = now.arrivals) (untouched : Untouched now after) :
    session.Ready (done ++ [.unload address unlinked]) flag after where
  kmods := kmods
  unloading := flagged
  grown walks inactive := by
    rw [still] at inactive
    simpa [loadedBy, grown walks inactive] using ready.grown walks inactive
  quiet inactive := arrivals.trans (ready.quiet (still ▸ inactive))
  active active := by
    obtain ⟨idle, heard⟩ := ready.active (still ▸ active)
    rw [arrivals, untouched.waiting, untouched.calls]
    exact ⟨idle.untouched untouched, heard.unload address unlinked⟩

theorem Ready.unlink (ready : session.Ready done true now) {address : Nat}
    (keeps : session.Keeps now (now.perform (.unload address true))) :
    session.Ready (done ++ [.unload address true]) true (now.perform (.unload address true)) := by
  refine ready.unloaded ?_ (fun walks inactive => ?_) ready.unloading rfl rfl
    ⟨rfl, rfl, rfl, rfl⟩
  · rw [linked_concat, ← ready.kmods]
    rfl
  · exact ((keeps walks inactive).eq_of_length_le (List.length_filter_le _ _)).symm

theorem Ready.unload_safe {address : Nat} {unlinked : Bool}
    (within : done ++ [.unload address unlinked] <+: session.operations)
    (ready : session.Ready done false now) :
    session.Does .kexts (session.Ready (done ++ [.unload address unlinked]) false)
      (Operation.perform session.kinfos (.unload address unlinked)) now := by
  have earlier := (List.prefix_append done _).trans within
  refine (ready.flag_safe earlier true).bind (compatible.refl .kexts) fun _ flagged ready => ?_
  cases unlinked with
  | false =>
      refine (ready.flag_safe earlier false).imp fun _ after kept => ?_
      exact kept.unloaded (by rw [kept.kmods, linked_concat]; rfl) (fun _ _ => rfl) kept.unloading rfl
        rfl (.refl after)
  | true =>
      simp only [if_true, Program.safe_modify_bind]
      intro before relied
      have here := ready.later relied
      have kmods : (before.perform (.unload address true)).kmods =
          linked session.start.kmods (done ++ [.unload address true]) := by
        rw [linked_concat, ← here.kmods]
        rfl
      refine ⟨guarantees_aside rfl ⟨rfl, rfl, rfl, rfl⟩ (kmods ▸ placed_of_prefix within), ?_⟩
      intro keeps
      exact (here.unlink keeps).hook_safe.bind (compatible.refl .kexts) fun _ hooked ready =>
        ready.flag_safe within false

theorem Ready.performAll_safe (spread : session.Spread) (rest : List Operation)
    (split : done ++ rest = session.operations) (ready : session.Ready done false now) :
    session.Does .kexts (session.Ready session.operations false)
      (performAll session.kinfos rest) now := by
  induction rest generalizing done now with
  | nil =>
      rw [List.append_nil] at split
      exact fun after relied => split ▸ ready.later relied
  | cons operation rest ih =>
      have onwards : (done ++ [operation]) ++ rest = session.operations := by simpa using split
      have within : done ++ [operation] <+: session.operations := ⟨rest, onwards⟩
      have one : session.Does .kexts (session.Ready (done ++ [operation]) false)
          (operation.perform session.kinfos) now := by
        cases operation with
        | load kmod => exact ready.load_safe spread within
        | unload address unlinked => exact ready.unload_safe within
      exact one.bind (compatible.refl .kexts) fun _ _ ready => ih onwards ready

end Kernel

section Activation

variable {origin now : Notifier} {waiting : Bool} {calls : List KextCall}

theorem settled_start (session : Session) : Settled session .activation session.start
    session.start.waitingForAlreadyLoadedKexts [] session.start where
  mine := session.inactive
  idle := by
    rw [Idle, session.fresh.2.1, session.fresh.2.2]
    rfl
  calls := session.fresh.2.1
  waiting := rfl
  around := .refl _

theorem reported_start (session : Session) : session.Reported session.start := by
  refine ⟨session.settled_start.idle.upToLast, ?_⟩
  rw [Known, session.fresh.2.1]
  exact List.forall_mem_nil _

theorem ready_start (session : Session) : session.Ready [] false session.start where
  kmods := rfl
  unloading := session.unloading
  grown _ _ := rfl
  quiet _ := session.fresh.1
  active active := by cases session.inactive.symm.trans active

theorem Settled.setActivated_safe (settled : Settled session .activation origin waiting calls now)
    (walked : ∀ before, Settled session .activation origin waiting calls before →
      session.Walked { before with activated := true }) :
    session.Does .activation (fun after => after.activated = true)
      (Program.modify fun now => { now with activated := true }) now := by
  intro before relied
  have here := settled.later relied
  have idle : ({ before with activated := true } : Notifier).Idle session.kinfos
      session.start.khandlers := here.idle
  refine ⟨⟨⟨⟨rfl, rfl, rfl⟩, fun active => ?_, fun _ _ => walked before here⟩,
    fun reported => ⟨idle.upToLast, reported.2⟩⟩, fun _ after relied => relied.1 rfl⟩
  cases here.mine.symm.trans active

theorem Settled.walked_none (none : session.walks = false)
    (settled : Settled session .activation session.start
      session.start.waitingForAlreadyLoadedKexts [] now) :
    session.Walked { now with activated := true } where
  idle := settled.idle
  waiting := by
    have left : session.start.waitingForAlreadyLoadedKexts = session.leaves := by
      unfold walks at none
      cases waits : session.start.waitingForAlreadyLoadedKexts <;> simp_all [leaves]
    exact settled.waiting.trans left
  others _ := settled.calls
  calls walks := by cases none.symm.trans walks

theorem Settled.walked {middle : Notifier} (walks : session.walks = true)
    (around : session.Around .activation session.start middle)
    (settled : Settled session .activation middle false (middle.kmods.map (⟨·, true⟩)) now) :
    session.Walked { now with activated := true } where
  idle := settled.idle
  waiting := by
    have prompt : session.bigSur = true := (Bool.and_eq_true_iff.mp walks).1
    simp [settled.waiting, leaves, prompt]
  others none := by cases none.symm.trans walks
  calls _ := ⟨middle.kmods, around.2 walks, settled.around.2 walks, settled.calls⟩

theorem activate_safe (spread : session.Spread) :
    session.Does .activation (fun after => after.activated = true)
      (activate session.kinfos session.bigSur) session.start := by
  rw [activate, Does, Program.safe_get_bind]
  intro later relied
  have here := (settled_start session).later relied
  rw [here.waiting]
  split
  case isTrue walks =>
    have walking := here.processAlreadyLoadedKexts_safe spread (fun _ => walks) placed_start
    refine walking.bind (compatible.refl .activation) ?_
    rintro _ walked ⟨middle, around, settled⟩
    refine settled.endWait_safe.bind (compatible.refl .activation) ?_
    intro _ ended settled
    exact settled.setActivated_safe fun before settled => settled.walked walks around
  case isFalse none =>
    exact here.setActivated_safe fun before settled =>
      settled.walked_none (Bool.eq_false_of_not_eq_true none)

end Activation

def telling (session : Session) : Pool Party Notifier Unit where
  threads
    | .activation => activate session.kinfos session.bigSur
    | .kexts => performAll session.kinfos session.operations
  state := session.start

def Ends (session : Session) : Party → Notifier → Prop
  | .activation, now => now.activated = true
  | .kexts, now => session.Ready session.operations false now

theorem telling_sound (spread : session.Spread) :
    Pool.Sound session.Relies session.Guarantees session.Keeps (fun party _ => session.Ends party)
      session.telling := by
  intro party
  cases party with
  | activation => exact activate_safe spread
  | kexts => exact (ready_start session).performAll_safe spread session.operations rfl

end Session

theorem Session.telling_tells {session : Session} (spread : session.Spread)
    (apart : Apart session.start.khandlers) {schedule : List Party}
    (keeps : session.telling.Keeps session.Keeps schedule)
    (done : ∀ party, (session.telling.interleave schedule).threads party = .done ()) :
    let now := (session.telling.interleave schedule).state
    session.Heard session.operations now.arrivals now.waitingForAlreadyLoadedKexts now.calls ∧
      Tells session.kinfos session.start.khandlers now.calls (now.khandlers, now.deliveries) := by
  have sound := (Session.telling_sound spread).interleave Session.compatible keeps
  have ready := sound.finished Session.compatible (done .kexts)
  obtain ⟨idle, heard⟩ := ready.active (sound.finished Session.compatible (done .activation))
  have tells := apart.served_tells session.kinfos (session.telling.interleave schedule).state.calls
  rw [← idle] at tells
  exact ⟨heard, tells⟩

theorem Tells.answered_of_mem {kinfos : Nat → Binary} {handlers : List KextHandler}
    {calls : List KextCall} {handled : List KextHandler × List Delivery}
    (tells : Tells kinfos handlers calls handled) {delivery : Delivery}
    (member : delivery ∈ handled.2) : ∃ handler ∈ handlers, ∃ call ∈ calls,
      answers kinfos call handler = true ∧ delivery = deliveryOf handler call.kmod := by
  obtain ⟨handler, present, same⟩ := tells.known delivery member
  have told : delivery ∈ expected kinfos handler calls := by
    rw [← tells.told handler present]
    simp [member, same]
  have hits : delivery ∈ (calls.filter (answers kinfos · handler)).map
      fun call => deliveryOf handler call.kmod := by
    unfold expected at told
    split at told
    · exact told
    · exact List.mem_of_mem_take told
  obtain ⟨call, among, rfl⟩ := List.mem_map.mp hits
  obtain ⟨made, accepts⟩ := List.mem_filter.mp among
  exact ⟨handler, present, call, made, accepts, rfl⟩

theorem expected_length_le {kinfos : Nat → Binary} {handler : KextHandler}
    (once : handler.reloadable = false) (calls : List KextCall) :
    (expected kinfos handler calls).length ≤ 1 := by
  simp [expected, once]

/-- Handlers are told of the kexts that are walked and of those that come after activation. -/
theorem kexts_told_once (session : Session) (spread : session.Spread)
    (apart : Apart session.start.khandlers) (schedule : List Party)
    (keeps : session.telling.Keeps session.Keeps schedule) :
    let pool := session.telling.interleave schedule
    (∀ party, pool.threads party ≠ .panic) ∧
      (∀ handler ∈ session.start.khandlers, handler.reloadable = false →
        (pool.state.deliveries.filter (·.index == handler.index)).length ≤ 1) ∧
      (∀ delivery ∈ pool.state.deliveries, ∃ handler ∈ session.start.khandlers,
        ∃ kmod ∈ session.all, named handler kmod = true ∧
          (session.kinfos handler.index).isCurrentBinary kmod = true ∧
          delivery = deliveryOf handler kmod) ∧
      ((∀ party, pool.threads party = .done ()) → ∃ waiting calls,
        session.Heard session.operations pool.state.arrivals waiting calls ∧
          ∀ handler ∈ session.start.khandlers,
            pool.state.deliveries.filter (·.index == handler.index) =
              expected session.kinfos handler calls) := by
  intro pool
  have sound := Session.telling_sound spread
  have now := sound.interleave Session.compatible keeps
  have reported : session.Reported pool.state := by
    apply sound.invariant Session.compatible ?_ session.reported_start keeps
    intro party before after holds guaranteed
    cases party with
    | activation => exact guaranteed.2 holds
    | kexts => exact guaranteed.2 holds
  obtain ⟨calls, known, deliveries⟩ : ∃ calls, (∀ call ∈ calls, call.kmod ∈ session.all) ∧
      pool.state.deliveries = (served session.kinfos session.start.khandlers calls).2 := by
    rcases reported with ⟨all | ⟨earlier, last, split, but⟩, known⟩
    · exact ⟨pool.state.calls, known, all⟩
    · refine ⟨earlier, fun call member => known call ?_, but⟩
      simp [split, member]
  have tells := apart.served_tells session.kinfos calls
  refine ⟨now.not_panic, ?_, ?_, ?_⟩
  · intro handler member once
    rw [deliveries, tells.told handler member]
    exact expected_length_le once calls
  · intro delivery member
    rw [deliveries] at member
    obtain ⟨handler, present, call, made, accepts, same⟩ := tells.answered_of_mem member
    simp only [answers, Bool.and_eq_true] at accepts
    exact ⟨handler, present, call.kmod, known call made, accepts.1.2, accepts.2, same⟩
  · intro done
    obtain ⟨heard, tells⟩ := Session.telling_tells spread apart keeps done
    exact ⟨_, pool.state.calls, heard, tells.told⟩

def framebuffer : Kmod := ⟨"com.apple.kext.AMDRadeonX6000Framebuffer", 0x1000, 0x100, none⟩

def backlight : Kmod := ⟨"com.apple.driver.AppleBacklight", 0x2000, 0x200, none⟩

def waitingFor : Notifier where
  kinfos := ["kernel", framebuffer.name, backlight.name]
  khandlers := [⟨framebuffer.name, 1, true, false⟩, ⟨backlight.name, 2, true, true⟩]
  waitingForAlreadyLoadedKexts := true
  listening := true
  isKextUnloading := false
  activated := false
  code := .noError
  kmods := [framebuffer, ⟨"com.apple.iokit.IOPCIFamily", 0x3000, 0x300, none⟩]
  arrivals := []
  calls := []
  deliveries := []

def collected : Nat → Binary := fun _ => ⟨true, 0, 0⟩

def booting (operations : List Operation) : Session :=
  ⟨collected, true, operations, waitingFor, rfl, rfl, rfl, rfl, rfl⟩

def oneByOne : List Party := List.replicate 20 .activation ++ List.replicate 20 .kexts

def briefly : Session := booting [.load backlight]

theorem kexts_told_once_example :
    briefly.Spread ∧ Apart briefly.start.khandlers ∧ briefly.telling.Keeps briefly.Keeps oneByOne ∧
      (briefly.telling.interleave oneByOne).state.deliveries =
        [⟨1, 0x1000, 0x100⟩, ⟨2, 0x2000, 0x200⟩] ∧
      ∃ waiting calls, briefly.Heard briefly.operations [backlight] waiting calls ∧
        ∀ handler ∈ briefly.start.khandlers,
          (briefly.telling.interleave oneByOne).state.deliveries.filter (·.index == handler.index) =
            expected briefly.kinfos handler calls := by
  have spread : briefly.Spread := by
    unfold Session.Spread
    decide
  have apart : Apart briefly.start.khandlers := ⟨by decide, by decide⟩
  have keeps : briefly.telling.Keeps briefly.Keeps oneByOne := by decide
  have arrivals : (briefly.telling.interleave oneByOne).state.arrivals = [backlight] := by decide
  have ends : ∀ party, (briefly.telling.interleave oneByOne).threads party = .done () := by
    intro party
    rw [← Program.returned_eq_some]
    cases party <;> decide
  obtain ⟨-, -, -, told⟩ := kexts_told_once briefly spread apart oneByOne keeps
  obtain ⟨waiting, calls, heard, expects⟩ := told ends
  rw [arrivals] at heard
  exact ⟨spread, apart, keeps, by decide, waiting, calls, heard, expects⟩

-- A kext that is loaded while activation walks the others is lost.
example :
    ((booting [.load backlight]).telling.interleave
      (List.replicate 9 .activation ++ List.replicate 20 .kexts ++ List.replicate 20 .activation
        )).state.deliveries = [⟨1, 0x1000, 0x100⟩] := by decide

-- One that is linked before the walk, and whose hook runs after it, is told of twice.
example :
    ((booting [.load backlight]).telling.interleave
      ([.kexts] ++ List.replicate 30 .activation ++ List.replicate 20 .kexts)).state.deliveries =
        [⟨2, 0x2000, 0x200⟩, ⟨1, 0x1000, 0x100⟩, ⟨2, 0x2000, 0x200⟩] := by decide

-- The walk follows a kext that was unlinked under it.
example :
    ((booting [.unload 0x1000 true]).telling.interleave
      (List.replicate 4 .activation ++ List.replicate 3 .kexts ++ List.replicate 20 .activation
        )).threads .activation = .panic := rfl

end NootedDeck.Lilu
