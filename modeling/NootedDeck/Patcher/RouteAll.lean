import NootedDeck.Patcher.Hooks
import NootedDeck.Patcher.RoutePreparation

set_option autoImplicit false

namespace NootedDeck.Patcher

open Bytes Interleaving Program

def routeAll (host : Host) (id : Nat) (start : Addr) (size : Nat) :
    List (Given × RouteRequest) → Program Machine Bool
  | [] => pure true
  | (given, request) :: rest => do
      let routed ← request.route (host.under given) id start size
      if routed then routeAll host id start size rest else pure false

structure Turn where
  given : Given
  request : RouteRequest
  origin : Addr
  prepared : Machine

inductive Turns (host : Host) (id : Nat) (start : Addr) (size : Nat) :
    Machine → List Turn → Machine → Prop
  | none (machine : Machine) : Turns host id start size machine [] machine
  | next {machine resolved middle after : Machine} {turn : Turn} {rest : List Turn}
      (resolves : (turn.request.resolve (host.under turn.given) id start size).run machine =
        some (some turn.origin, resolved))
      (prepares : (turn.request.prepare (host.under turn.given) (some turn.origin)).run resolved =
        some ((), turn.prepared))
      (routes : (turn.request.route (host.under turn.given) id start size).run machine =
        some (true, middle))
      (later : Turns host id start size middle rest after) :
      Turns host id start size machine (turn :: rest) after

section Turns

variable {host : Host} {id : Nat} {start : Addr} {size : Nat} {machine after : Machine}

theorem RouteRequest.route_found {request : RouteRequest}
    (ran : (request.route host id start size).run machine = some (true, after)) :
    ∃ origin resolved prepared,
      (request.resolve host id start size).run machine = some (some origin, resolved) ∧
        (request.prepare host (some origin)).run resolved = some ((), prepared) := by
  cases request with
  | pattern request =>
      obtain ⟨origin, resolved, resolves, routes⟩ := run_bind_eq_some.mp ran
      cases origin with
      | none => cases routes
      | some origin =>
          obtain ⟨prepared, prepares⟩ := eraseCoverage_total host origin request.target resolved
          exact ⟨origin, resolved, prepared, resolves, prepares⟩
  | jumpPattern request =>
      obtain ⟨origin, resolved, resolves, routes⟩ := run_bind_eq_some.mp ran
      cases origin with
      | none => cases routes
      | some origin => exact ⟨origin, resolved, resolved, resolves, rfl⟩

theorem routeAll_run_iff {requests : List (Given × RouteRequest)} :
    (routeAll host id start size requests).run machine = some (true, after) ↔
      ∃ turns : List Turn, turns.map (fun turn => (turn.given, turn.request)) = requests ∧
        Turns host id start size machine turns after := by
  constructor
  · intro ran
    induction requests generalizing machine with
    | nil =>
        cases ran
        exact ⟨[], rfl, .none _⟩
    | cons first rest ih =>
        obtain ⟨given, request⟩ := first
        obtain ⟨routed, middle, routes, later⟩ := run_bind_eq_some.mp ran
        cases routed with
        | false => cases later
        | true =>
            obtain ⟨turns, same, turned⟩ := ih later
            obtain ⟨origin, resolved, prepared, resolves, prepares⟩ := request.route_found routes
            exact ⟨⟨given, request, origin, prepared⟩ :: turns, by rw [List.map_cons, same],
              .next resolves prepares routes turned⟩
  · rintro ⟨turns, rfl, turned⟩
    induction turned with
    | none => rfl
    | next resolves prepares routes later ih =>
        rw [List.map_cons, routeAll, run_bind, routes]
        exact ih

def SamePatches (before after : Machine) : Prop :=
  after.memory = before.memory ∧ after.addressSlots = before.addressSlots ∧
    after.tempExecutableMemoryOff = before.tempExecutableMemoryOff

theorem Within.of_same {info : Option Nat} {origin : Addr} {before : Machine}
    (within : Within host info origin before machine) (same : SamePatches machine after) :
    Within host info origin before after := by
  obtain ⟨memory, slots, used⟩ := same
  exact ⟨fun place untouched => (congrFun memory place).trans (within.memory place untouched),
    used ▸ within.used, slots ▸ within.slots⟩

theorem Hooked.of_same {first origin target : Addr} {code : Memory} {original : Option Addr}
    (hooked : Hooked host id first code origin target original machine)
    (same : SamePatches machine after) : Hooked host id first code origin target original after := by
  obtain ⟨memory, slots, used⟩ := same
  refine ⟨?_, fun trampoline given => ?_⟩
  · obtain ⟨form, fits, stored, cell⟩ := hooked.jump
    exact ⟨form, fits, memory ▸ stored, memory ▸ slots ▸ cell⟩
  · obtain ⟨made, chained | ⟨start, size, placed⟩⟩ := hooked.real trampoline given
    · exact ⟨made, Or.inl chained⟩
    · exact ⟨made, Or.inr ⟨start, size, placed.positive, used ▸ placed.used, placed.inside, placed.here,
        memory ▸ placed.copied, memory ▸ placed.tail⟩⟩

theorem RouteRequest.ofImage (request : RouteRequest) (id : Nat) : OfImage id (request.info id) := by
  cases request with
  | pattern => exact Or.inr rfl
  | jumpPattern => exact Or.inl rfl

structure Stepped (host : Host) (id : Nat) (request : RouteRequest) (origin : Addr)
    (prepared after : Machine) : Prop where
  within : Within host (request.info id) origin prepared after
  others : ∀ holder, request.org ≠ some holder →
    after.originals holder = prepared.originals holder
  hooked : ∀ first origins, Ground host id first origins → origin ∈ origins →
    SlotsLeft host id first prepared →
    AllGranted host prepared (request.info id) origin request.target request.org.isSome →
      Hooked host id first prepared.memory origin request.target (request.org.map after.originals) after
  refused : ¬AllGranted host prepared (request.info id) origin request.target request.org.isSome →
    ∀ place, ¬InTemp host place → after.memory place = prepared.memory place

theorem routeFunctionInternal_stepped {request : RouteRequest} {origin value : Addr}
    {stored : Option Nat} {prepared routed : Machine}
    (layout : Layout host prepared (request.info id) origin)
    (ran : (routeFunctionInternal host origin request.target request.org.isSome true .auto
      (request.info id) stored).run prepared = some (value, routed))
    (same : SamePatches routed after)
    (others : ∀ holder, request.org ≠ some holder → stored ≠ some holder ∧
      after.originals holder = routed.originals holder)
    (holds : ∀ holder, request.org = some holder → AllGranted host prepared (request.info id) origin
      request.target request.org.isSome → after.originals holder = value) :
    Stepped host id request origin prepared after := by
  obtain ⟨within, kept, installs, refuses⟩ := routeFunctionInternal_within layout ran
  refine ⟨within.of_same same, fun holder different => ?_, fun first origins ground member left
    admitted => ?_, fun ungranted place outside => ?_⟩
  · obtain ⟨unstored, equal⟩ := others holder different
    exact equal.trans (kept holder unstored)
  · obtain ⟨slot, middle, chosen, prepares, rfl⟩ := installs admitted
    have hooked := (chosen.hooked ground member left (request.ofImage id) prepares stored).of_same same
    have original : (if request.org.isSome then some value else none) =
        request.org.map after.originals := by
      cases org : request.org with
      | none => rfl
      | some holder => simp [holds holder org admitted]
    rw [← original]
    exact hooked
  · rw [same.1, refuses ungranted place outside]

theorem samePatches_setOriginal (machine : Machine) (org : Option Nat) (trampoline : Addr) :
    SamePatches machine (machine.setOriginal org trampoline) := by
  cases org <;> exact ⟨rfl, rfl, rfl⟩

theorem routeMultiple_routes {origin target : Addr} {org : Option Nat} {resolved prepared : Machine}
    (based : origin ≠ 0)
    (prepares : (eraseCoverage host origin target).run resolved = some ((), prepared))
    (routes : (routeMultiple host id origin target org).run resolved = some (true, after)) :
    ∃ value, (routeFunctionInternal host origin target org.isSome true .auto (some id) org).run
      prepared = some (value, after) := by
  simp only [routeMultiple, based, if_false, run_bind, prepares, Option.bind_some] at routes
  by_cases unknown : host.kinfos.length ≤ id
  · rw [if_pos unknown] at routes
    cases routes
  · rw [if_neg unknown] at routes
    obtain ⟨value, routed, routing, answering⟩ := run_bind_eq_some.mp routes
    refine ⟨value, ?_⟩
    generalize (if org.isSome then decide (value ≠ 0) else decide (value = 0)) = success at answering
    cases success with
    | false => cases answering
    | true =>
        cases answering
        exact routing

theorem PatternRouteRequest.stepped {request : PatternRouteRequest} {origin : Addr}
    {resolved prepared : Machine} (based : origin ≠ 0)
    (prepares : (eraseCoverage host origin request.target).run resolved = some ((), prepared))
    (layout : Layout host prepared (some id) origin)
    (routes : (routeMultiple host id origin request.target request.org).run resolved =
      some (true, after)) : Stepped host id (.pattern request) origin prepared after := by
  obtain ⟨value, routing⟩ := routeMultiple_routes based prepares routes
  have stepped := routeFunctionInternal_within layout routing
  refine routeFunctionInternal_stepped layout routing ⟨rfl, rfl, rfl⟩
    (fun holder different => ⟨different, rfl⟩) fun holder given admitted => ?_
  obtain ⟨slot, middle, -, -, rfl⟩ := stepped.2.2.1 admitted
  change request.org = some holder at given
  simp [Machine.setOriginal, given]

theorem JumpPatternRouteRequest.stepped {request : JumpPatternRouteRequest} {origin : Addr}
    {prepared : Machine} (layout : Layout host prepared none origin)
    (routes : (do
      let wrapper ← routeFunctionInternal host origin request.target request.org.isSome true .auto
        none none
      if request.org.isSome then
        if wrapper = 0 then pure false
        else do
          storeOriginal request.org wrapper
          pure true
      else pure (decide (wrapper = 0))).run prepared = some (true, after)) :
    Stepped host id (.jumpPattern request) origin prepared after := by
  obtain ⟨value, routed, routing, answering⟩ := run_bind_eq_some.mp routes
  have ended : after = routed.setOriginal request.org value := by
    cases given : request.org with
    | none =>
        simp only [given, Option.isSome_none, Bool.false_eq_true, if_false, run_pure,
          Option.some.injEq, Prod.mk.injEq] at answering
        exact answering.2.symm
    | some holder =>
        simp only [given, Option.isSome_some, if_true] at answering
        split_ifs at answering with zero
        · cases answering
        · cases answering
          rfl
  subst ended
  refine routeFunctionInternal_stepped layout routing (samePatches_setOriginal ..)
    (fun holder different => ⟨by simp, setOriginal_other routed value different⟩)
    fun holder given admitted => ?_
  change request.org = some holder at given
  simp [Machine.setOriginal, given]

theorem RouteRequest.stepped {request : RouteRequest} {origin : Addr} {resolved prepared : Machine}
    (based : origin ≠ 0)
    (resolves : (request.resolve host id start size).run machine = some (some origin, resolved))
    (prepares : (request.prepare host (some origin)).run resolved = some ((), prepared))
    (layout : Layout host prepared (request.info id) origin)
    (routes : (request.route host id start size).run machine = some (true, after)) :
    Stepped host id request origin prepared after := by
  cases request with
  | pattern request =>
      simp only [RouteRequest.resolve] at resolves
      simp only [RouteRequest.route, PatternRouteRequest.route, run_bind, resolves,
        Option.bind_some] at routes
      exact PatternRouteRequest.stepped based prepares layout routes
  | jumpPattern request =>
      simp only [RouteRequest.resolve] at resolves
      cases prepares
      simp only [RouteRequest.route, JumpPatternRouteRequest.route, run_bind, resolves,
        Option.bind_some] at routes
      exact JumpPatternRouteRequest.stepped layout (by simpa only [run_bind] using routes)

structure Took (host : Host) (id : Nat) (turn : Turn) (machine after : Machine) : Prop where
  within : ∀ info, Within host info turn.origin machine turn.prepared
  found : ∀ place, turn.prepared.memory place = machine.memory place ∨
    turn.prepared.memory place = 0x90
  originals : turn.prepared.originals = machine.originals
  slots : turn.prepared.addressSlots = machine.addressSlots
  stepped : Stepped host id turn.request turn.origin turn.prepared after

theorem Turn.took {turn : Turn} {first : Addr} {origins : List Addr} {resolved : Machine}
    (ground : Ground host id first origins) (member : turn.origin ∈ origins)
    (left : SlotsLeft host id first machine)
    (resolves : (turn.request.resolve host id start size).run machine =
      some (some turn.origin, resolved))
    (prepares : (turn.request.prepare host (some turn.origin)).run resolved = some ((), turn.prepared))
    (routes : (turn.request.route host id start size).run machine = some (true, after)) :
    Took host id turn machine after := by
  have only : OnlyError machine resolved := (resolve_onlyError _ _).finish resolves
  have erased := prepare_erased prepares
  have same : turn.prepared.addressSlots = machine.addressSlots ∧
      turn.prepared.originals = machine.originals := by
    rw [erased.rest, only]
    exact ⟨rfl, rfl⟩
  have leaves : SlotsLeft host id first turn.prepared := by
    rw [SlotsLeft, same.1]
    exact left
  refine ⟨fun info => ?_, fun place => ?_, same.2, same.1, ?_⟩
  · have within : Within host info turn.origin resolved turn.prepared := erased.within
    rw [only] at within
    exact ⟨within.memory, within.used, within.slots⟩
  · have found := erased.memory place
    rw [only] at found
    exact found.imp_right And.right
  · exact RouteRequest.stepped (ground.based _ member) resolves prepares
      (ground.layout member leaves (turn.request.ofImage id)) routes

section Others

variable {turn : Turn} {first origin target : Addr} {origins : List Addr}

theorem Took.left (took : Took host id turn machine after) (ground : Ground host id first origins)
    (left : SlotsLeft host id first machine) :
    SlotsLeft host id first turn.prepared ∧ SlotsLeft host id first after := by
  have prepared : SlotsLeft host id first turn.prepared := by
    rw [SlotsLeft, took.slots]
    exact left
  exact ⟨prepared, prepared.later ground (turn.request.ofImage id) took.stepped.within⟩

theorem Took.hooked (took : Took host id turn machine after) (ground : Ground host id first origins)
    (left : SlotsLeft host id first machine) (member : origin ∈ origins)
    (present : turn.origin ∈ origins) (apart : Memory.Apart origin codeSize turn.origin codeSize)
    {code : Memory} {original : Option Addr}
    (hooked : Hooked host id first code origin target original machine) :
    Hooked host id first code origin target original after := by
  have image := turn.request.ofImage id
  have prepared := hooked.later ground member present apart left image (took.within _)
  exact prepared.later ground member present apart (took.left ground left).1 image took.stepped.within

theorem Took.code (took : Took host id turn machine after) (ground : Ground host id first origins)
    (left : SlotsLeft host id first machine) (member : origin ∈ origins)
    (apart : Memory.Apart origin codeSize turn.origin codeSize) {index : Nat}
    (inside : index < codeSize) :
    after.memory (origin + BitVec.ofNat 64 index) = machine.memory (origin + BitVec.ofNat 64 index) := by
  have image := turn.request.ofImage id
  rw [took.stepped.within.memory _
      (ground.code_untouched member apart (took.left ground left).1 image inside),
    (took.within _).memory _ (ground.code_untouched member apart left image inside)]

theorem Took.original (took : Took host id turn machine after) {holder : Nat}
    (other : turn.request.org ≠ some holder) : after.originals holder = machine.originals holder := by
  rw [took.stepped.others holder other, took.originals]

end Others

def Turn.Separate (first second : Turn) : Prop :=
  Memory.Apart first.origin codeSize second.origin codeSize ∧
    ∀ holder, first.request.org = some holder → second.request.org ≠ some holder

section Runs

variable {turns : List Turn} {first origin : Addr} {origins : List Addr}

theorem Turn.tookUnder {turn : Turn} {resolved : Machine} (ground : Ground host id first origins)
    (member : turn.origin ∈ origins) (left : SlotsLeft host id first machine)
    (resolves : (turn.request.resolve (host.under turn.given) id start size).run machine =
      some (some turn.origin, resolved))
    (prepares : (turn.request.prepare (host.under turn.given) (some turn.origin)).run resolved =
      some ((), turn.prepared))
    (routes : (turn.request.route (host.under turn.given) id start size).run machine =
      some (true, after)) :
    Took (host.under turn.given) id turn machine after ∧ SlotsLeft host id first turn.prepared ∧
      SlotsLeft host id first after := by
  have took := Turn.took (ground.under turn.given) member left resolves prepares routes
  exact ⟨took, took.left (ground.under turn.given) left⟩

theorem Turns.originals (ran : Turns host id start size machine turns after)
    (ground : Ground host id first origins) (members : ∀ turn ∈ turns, turn.origin ∈ origins)
    (left : SlotsLeft host id first machine) {holder : Nat}
    (others : ∀ turn ∈ turns, turn.request.org ≠ some holder) :
    after.originals holder = machine.originals holder := by
  induction ran with
  | none => rfl
  | next resolves prepares routes later ih =>
      rw [List.forall_mem_cons] at members others
      obtain ⟨took, -, leaves⟩ := Turn.tookUnder ground members.1 left resolves prepares routes
      rw [ih members.2 leaves others.2, took.original others.1]

theorem Turns.hooked (ran : Turns host id start size machine turns after)
    (ground : Ground host id first origins) (members : ∀ turn ∈ turns, turn.origin ∈ origins)
    (left : SlotsLeft host id first machine) (member : origin ∈ origins)
    (apart : ∀ turn ∈ turns, Memory.Apart origin codeSize turn.origin codeSize) {target : Addr}
    {code : Memory} {original : Option Addr}
    (hooked : Hooked host id first code origin target original machine) :
    Hooked host id first code origin target original after := by
  induction ran with
  | none => exact hooked
  | @next machine resolved middle after turn rest resolves prepares routes later ih =>
      rw [List.forall_mem_cons] at members apart
      obtain ⟨took, -, leaves⟩ := Turn.tookUnder ground members.1 left resolves prepares routes
      have still := took.hooked (ground.under turn.given) left member members.1 apart.1
        ((hooked_under turn.given).mpr hooked)
      exact ih members.2 leaves apart.2 ((hooked_under turn.given).mp still)

theorem Turns.code (ran : Turns host id start size machine turns after)
    (ground : Ground host id first origins) (members : ∀ turn ∈ turns, turn.origin ∈ origins)
    (left : SlotsLeft host id first machine) (member : origin ∈ origins)
    (apart : ∀ turn ∈ turns, Memory.Apart origin codeSize turn.origin codeSize) {index : Nat}
    (inside : index < codeSize) :
    after.memory (origin + BitVec.ofNat 64 index) = machine.memory (origin + BitVec.ofNat 64 index) := by
  induction ran with
  | none => rfl
  | @next machine resolved middle after turn rest resolves prepares routes later ih =>
      rw [List.forall_mem_cons] at members apart
      obtain ⟨took, -, leaves⟩ := Turn.tookUnder ground members.1 left resolves prepares routes
      rw [ih members.2 leaves apart.2,
        took.code (ground.under turn.given) left member apart.1 inside]

end Runs

structure InPlace (host : Host) (id : Nat) (machine after : Machine) (turn : Turn) : Prop where
  found : ∀ index < codeSize,
    turn.prepared.memory (turn.origin + BitVec.ofNat 64 index) =
        machine.memory (turn.origin + BitVec.ofNat 64 index) ∨
      turn.prepared.memory (turn.origin + BitVec.ofNat 64 index) = 0x90
  hooked : AllGranted (host.under turn.given) turn.prepared (turn.request.info id) turn.origin
      turn.request.target turn.request.org.isSome →
    JumpsTo after.memory turn.origin turn.request.target ∧
      ∀ holder, turn.request.org = some holder → RealTrampoline host.decoder turn.prepared.memory
        after.memory turn.origin (after.originals holder)
  -- the request was answered with success all the same
  refused : ¬AllGranted (host.under turn.given) turn.prepared (turn.request.info id) turn.origin
      turn.request.target turn.request.org.isSome → ∀ index < codeSize,
    after.memory (turn.origin + BitVec.ofNat 64 index) =
      turn.prepared.memory (turn.origin + BitVec.ofNat 64 index)

theorem Took.inPlace {turn : Turn} {rest : List Turn} {middle : Machine} {first : Addr}
    {origins : List Addr} (ground : Ground host id first origins) (left : SlotsLeft host id first machine)
    (took : Took (host.under turn.given) id turn machine middle) (member : turn.origin ∈ origins)
    (members : ∀ turn ∈ rest, turn.origin ∈ origins)
    (later : Turns host id start size middle rest after)
    (separate : ∀ other ∈ rest, turn.Separate other) : InPlace host id machine after turn := by
  have placed := ground.under turn.given
  obtain ⟨prepared, leaves⟩ := took.left placed left
  have apart : ∀ other ∈ rest, Memory.Apart turn.origin codeSize other.origin codeSize :=
    fun other among => (separate other among).1
  refine ⟨fun index _ => took.found _, fun admitted => ?_, fun refused index inside => ?_⟩
  · have stepped := took.stepped.hooked first origins placed member prepared admitted
    have hooked := later.hooked ground members leaves member apart
      ((hooked_under turn.given).mp stepped)
    obtain ⟨form, jump⟩ := hooked.jump
    refine ⟨jump.jumpsTo, fun holder wants => ?_⟩
    rw [later.originals ground members leaves fun other among => (separate other among).2 holder wants]
    rw [wants] at hooked
    exact hooked.realTrampoline
  · rw [later.code ground members leaves member apart inside]
    exact took.stepped.refused refused _
      (Nat.not_lt.mpr ((ground.temp turn.origin member).symm.outside inside))

theorem Turns.inPlace {turns : List Turn} (ran : Turns host id start size machine turns after)
    {first : Addr} {origins : List Addr} (ground : Ground host id first origins)
    (members : ∀ turn ∈ turns, turn.origin ∈ origins) (left : SlotsLeft host id first machine)
    (separate : turns.Pairwise Turn.Separate) : ∀ turn ∈ turns, InPlace host id machine after turn := by
  induction ran with
  | none => simp
  | @next machine resolved middle after turn rest resolves prepares routes later ih =>
      rw [List.forall_mem_cons] at members ⊢
      rw [List.pairwise_cons] at separate
      obtain ⟨took, -, leaves⟩ := Turn.tookUnder ground members.1 left resolves prepares routes
      refine ⟨took.inPlace ground left members.1 members.2 later separate.1, fun other among => ?_⟩
      have settled := ih members.2 leaves separate.2 other among
      refine ⟨fun index inside => ?_, settled.hooked, settled.refused⟩
      rw [← took.code (ground.under turn.given) left (members.2 other among)
        (separate.1 other among).1.symm inside]
      exact settled.found index inside

end Turns

section Example

def pairHost : Host := { exampleHost ⟨true, true, true, true⟩ with kinfos := [⟨fun _ => 0, 0x810⟩] }

def pairMachine : Machine := { exampleMachine with addressSlots := fun _ => 0x800 }

def firstHook : RouteRequest := .pattern ⟨none, 0x1000, 0xFFFFFF8000002000, some 0, none, none⟩

def secondHook : RouteRequest := .pattern ⟨none, 0x3000, 0xFFFFFF8000004000, some 1, none, none⟩

theorem pairGround : Ground pairHost 0 (pairMachine.addressSlots 0) [0x1000, 0x3000] := by
  have both {holds : Addr → Prop} (first : holds 0x1000) (second : holds 0x3000) :
      ∀ origin ∈ [0x1000, 0x3000], holds origin :=
    List.forall_mem_cons.mpr ⟨first, List.forall_mem_singleton.mpr second⟩
  refine ⟨by decide, by decide, both (by decide) (by decide), both (by decide) (by decide), by decide,
    fun slot least most => ?_⟩
  have all : ∀ offset < 9,
      Memory.Apart pairHost.tempExecutableMemory tempExecutableMemorySize
          (BitVec.ofNat 64 (0x800 + offset)) 8 ∧
        (slotReaches 0x1000 (BitVec.ofNat 64 (0x800 + offset)) = true ∧
          Memory.Apart (BitVec.ofNat 64 (0x800 + offset)) 8 0x1000 codeSize) ∧
        slotReaches 0x3000 (BitVec.ofNat 64 (0x800 + offset)) = true ∧
          Memory.Apart (BitVec.ofNat 64 (0x800 + offset)) 8 0x3000 codeSize := by
    decide
  change 0x800 ≤ slot.toNat at least
  change slot.toNat + 8 ≤ 0x810 at most
  have known := all (slot.toNat - 0x800) (by omega)
  rw [Nat.add_sub_cancel' least, BitVec.ofNat_toNat, BitVec.setWidth_eq] at known
  exact ⟨known.1, both known.2.1 known.2.2⟩

def ending {α : Type} (ran : Option (α × Machine)) : Machine :=
  (ran.map Prod.snd).getD pairMachine

theorem ending_eq {α : Type} {ran : Option (α × Machine)} {value : α}
    (returned : ran.map Prod.fst = some value) : ran = some (value, ending ran) := by
  cases ran with
  | none => cases returned
  | some result =>
      cases returned
      rfl

def granted : Given := ⟨fun _ => true, true, ⟨true, true, true, true⟩, ⟨true, true, true, true⟩⟩

def refusing : Given := { granted with outer := ⟨true, true, true, false⟩ }

def turnOf (given : Given) (request : RouteRequest) (origin : Addr) (machine : Machine) : Turn :=
  ⟨given, request, origin, ending ((request.prepare (pairHost.under given) (some origin)).run
    (ending ((request.resolve (pairHost.under given) 0 0 0).run machine)))⟩

def between : Machine := ending ((firstHook.route (pairHost.under granted) 0 0 0).run pairMachine)

end Example

end NootedDeck.Patcher
