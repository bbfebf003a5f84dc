import NootedDeck.Patcher.Route
import NootedDeck.Patcher.RouteOutcome

set_option autoImplicit false

namespace NootedDeck.Patcher

open Bytes Interleaving Program

structure SameCode (before after : Machine) : Prop where
  memory : after.memory = before.memory
  originals : after.originals = before.originals

def OnlyError (before after : Machine) : Prop := after = { before with code := after.code }

section Resolve

variable {host : Host} {id size : Nat} {start : Addr} {before machine : Machine}

theorem solveSymbol_onlyError {symbol : String} (same : OnlyError before machine) :
    (solveSymbol host id symbol).Maintains (OnlyError before) machine := by
  unfold solveSymbol
  simp only
  split_ifs with found
  · exact same
  · refine ⟨same, ?_⟩
    rw [same]
    rfl

theorem solveFrom_onlyError {request : PatternRouteRequest} (same : OnlyError before machine) :
    (request.solveFrom host id start size).Maintains (OnlyError before) machine := by
  unfold PatternRouteRequest.solveFrom
  cases request.symbol with
  | none => exact same
  | some symbol =>
      have cleared : OnlyError before { machine with code := .noError } := by
        rw [same]
        rfl
      simp only [maintains_setError_bind]
      refine ⟨same, ?_⟩
      split_ifs with unbounded
      · exact solveSymbol_onlyError cleared
      · refine (solveSymbol_onlyError cleared).bind fun address middle _ kept => ?_
        split_ifs <;> exact kept

theorem searchFrom_onlyError {request : PatternRouteRequest}
    {destination : Memory → Addr → Option Addr} (same : OnlyError before machine) :
    (request.searchFrom start size destination).Maintains (OnlyError before) machine := by
  unfold PatternRouteRequest.searchFrom
  split
  · split_ifs <;> exact same
  · split_ifs <;> exact same
  · split_ifs
    · exact same
    · simp only [maintains_get_bind]
      refine ⟨same, ?_⟩
      split <;> exact same

theorem resolve_onlyError (request : RouteRequest) (machine : Machine) :
    (request.resolve host id start size).Maintains (OnlyError machine) machine := by
  have same : OnlyError machine machine := rfl
  cases request <;>
  · refine (solveFrom_onlyError same).bind fun origin middle _ kept => ?_
    split_ifs
    · exact searchFrom_onlyError kept
    · exact kept

theorem resolve_maintains {request : RouteRequest} {machine : Machine} :
    (request.resolve host id start size).Maintains (SameCode machine) machine :=
  (resolve_onlyError request machine).imp fun state same => ⟨by rw [same], by rw [same]⟩

theorem PatternRouteRequest.resolve_maintains {request : PatternRouteRequest} {machine : Machine} :
    (request.resolve host id start size).Maintains (SameCode machine) machine :=
  @Patcher.resolve_maintains host id size start (.pattern request) machine

theorem JumpPatternRouteRequest.resolve_maintains {request : JumpPatternRouteRequest}
    {machine : Machine} : (request.resolve host id start size).Maintains (SameCode machine) machine :=
  @Patcher.resolve_maintains host id size start (.jumpPattern request) machine

end Resolve

-- A request says truly whether it put its jump in place, and no `org` holds anything but what it
-- held or a trampoline. `code` is the memory that the route found.
structure Truthful (decoder : Decoder) (origin : Option Addr) (target : Addr) (org : Option Nat)
    (code : Memory) (before after : Machine) (result : Bool) : Prop where
  routed : result = true → ∃ from_, origin = some from_ ∧ JumpsTo after.memory from_ target ∧
    ∀ slot, org = some slot → RealTrampoline decoder code after.memory from_ (after.originals slot)
  unrouted : (∀ from_, origin = some from_ → ¬JumpsTo after.memory from_ target) →
    result = false ∧ ∀ slot, org = some slot → after.originals slot = before.originals slot ∨
      ∃ from_, origin = some from_ ∧ RealTrampoline decoder code after.memory from_ (after.originals slot)

section Outcomes

variable {host : Host} {before machine after : Machine} {info org stored : Option Nat}
  {origin target value : Addr}

theorem truthful_of_unwrapped {final : Machine}
    (outcome : Routed host machine info origin target false stored value after ∨
      Refused host machine info origin target false stored value after)
    (same : final.memory = after.memory) :
    Truthful host.decoder (some origin) target none machine.memory before final
      (decide (value = 0)) := by
  rcases outcome with routed | refused
  · have jumps : JumpsTo final.memory origin target := by
      rw [same]
      exact routed.jumps
    exact ⟨fun _ => ⟨origin, rfl, jumps, by simp⟩, fun absent => absurd jumps (absent origin rfl)⟩
  · have failed : decide (value = 0) = false := by
      rw [refused.value]
      decide
    rw [failed]
    exact ⟨fun done => absurd done (by decide), fun _ => ⟨rfl, by simp⟩⟩

theorem not_truthful_of_refused {slot : Option Nat} {final : Machine}
    (refused : Refused host machine info origin target true stored value after)
    (fresh : ¬JumpsTo machine.memory origin target) (same : final.memory = after.memory) :
    ¬Truthful host.decoder (some origin) target slot machine.memory before final true := by
  intro truthful
  obtain ⟨from_, found, jumps, -⟩ := truthful.routed rfl
  cases found
  rw [JumpsTo, same, refused.unrouted] at jumps
  exact fresh jumps

theorem truthful_of_routed {slot : Nat} {final : Machine}
    (routed : Routed host machine info origin target true stored value after)
    (same : final.memory = after.memory) (holds : final.originals slot = value) :
    Truthful host.decoder (some origin) target (some slot) machine.memory before final true := by
  have jumps : JumpsTo final.memory origin target := by
    rw [same]
    exact routed.jumps
  refine ⟨fun _ => ⟨origin, rfl, jumps, fun other found => ?_⟩, fun absent => ?_⟩
  · cases found
    rw [holds, same]
    exact routed.real rfl
  · exact absurd jumps (absent origin rfl)

theorem wrapper_ne_zero
    (outcome : Routed host machine info origin target true stored value after ∨
      Refused host machine info origin target true stored value after) : value ≠ 0 := by
  rcases outcome with routed | refused
  · exact (routed.real rfl).1
  · rw [refused.value]
    decide

theorem truthful_wrapped_iff {slot : Nat} {final : Machine}
    (outcome : Routed host machine info origin target true stored value after ∨
      Refused host machine info origin target true stored value after)
    (fresh : ¬JumpsTo machine.memory origin target) (same : final.memory = after.memory)
    (holds : Routed host machine info origin target true stored value after →
      final.originals slot = value) :
    Truthful host.decoder (some origin) target (some slot) machine.memory before final true ↔
      RouteGranted host machine info origin target := by
  rcases outcome with routed | refused
  · exact iff_of_true (truthful_of_routed routed same (holds routed)) (routed.granted rfl)
  · exact iff_of_false (not_truthful_of_refused refused fresh same) (refused.ungranted rfl)

end Outcomes

section Answers

variable {host : Host} {id : Nat} {origin : Addr} {before resolved prepared after : Machine}
  {result : Bool}

-- What `routeMultiple` takes for success is a non-zero value with an `org` and zero without; the
-- failure exits return `EINVAL`, which with an `org` passes for a trampoline.
theorem routeMultiple_truthful_iff {target : Addr} {org : Option Nat} (based : origin ≠ 0)
    (prepares : (eraseCoverage host origin target).run resolved = some ((), prepared))
    (layout : Layout host prepared (some id) origin)
    (valid : jumpTarget prepared.memory origin ≠ some 0)
    (fresh : ¬JumpsTo prepared.memory origin target)
    (ran : (routeMultiple host id origin target org).run resolved = some (result, after)) :
    Truthful host.decoder (some origin) target org prepared.memory before after result ↔
      org = none ∨ RouteGranted host prepared (some id) origin target := by
  simp only [routeMultiple, based, if_false, run_bind, prepares, Option.bind_some] at ran
  by_cases unknown : host.kinfos.length ≤ id
  · rw [if_pos unknown] at ran
    simp at ran
  · rw [if_neg unknown] at ran
    obtain ⟨wrapper, routed, routing, answering⟩ := run_bind_eq_some.mp ran
    have outcome := routeFunctionInternal_run layout valid routing
    cases org with
    | none =>
        refine iff_of_true ?_ (Or.inl rfl)
        simp only [Option.isSome_none, Bool.false_eq_true, if_false] at answering
        by_cases success : wrapper = 0
        · simp only [success, decide_true, if_true, run_pure, Option.some.injEq,
            Prod.mk.injEq] at answering
          obtain ⟨rfl, rfl⟩ := answering
          have truthful : Truthful host.decoder (some origin) target none prepared.memory before routed
            (decide (wrapper = 0)) := truthful_of_unwrapped outcome rfl
          rwa [decide_eq_true success] at truthful
        · simp only [success, decide_false, Bool.false_eq_true, if_false, run_bind, run_setError,
            Option.bind_some, run_pure, Option.some.injEq, Prod.mk.injEq] at answering
          obtain ⟨rfl, rfl⟩ := answering
          have truthful : Truthful host.decoder (some origin) target none prepared.memory before
            { routed with code := .noError } (decide (wrapper = 0)) :=
            truthful_of_unwrapped outcome rfl
          rwa [decide_eq_false success] at truthful
    | some slot =>
        simp only [Option.isSome_some, if_true, wrapper_ne_zero outcome, ne_eq, not_false_eq_true,
          decide_true, run_pure, Option.some.injEq, Prod.mk.injEq] at answering
        obtain ⟨rfl, rfl⟩ := answering
        rw [truthful_wrapped_iff outcome fresh rfl fun done => by
          simp only [done.originals, Machine.setOriginal, Function.update_self]]
        simp only [reduceCtorEq, false_or]

theorem jumpPattern_truthful_iff {request : JumpPatternRouteRequest}
    (layout : Layout host prepared none origin) (valid : jumpTarget prepared.memory origin ≠ some 0)
    (fresh : ¬JumpsTo prepared.memory origin request.target)
    (ran : (do
      let wrapper ← routeFunctionInternal host origin request.target request.org.isSome true .auto
        none none
      if request.org.isSome then
        if wrapper = 0 then pure false
        else do
          storeOriginal request.org wrapper
          pure true
      else pure (decide (wrapper = 0))).run prepared = some (result, after)) :
    Truthful host.decoder (some origin) request.target request.org prepared.memory before after result ↔
      request.org = none ∨ RouteGranted host prepared none origin request.target := by
  obtain ⟨wrapper, routed, routing, answering⟩ := run_bind_eq_some.mp ran
  have outcome := routeFunctionInternal_run layout valid routing
  cases given : request.org with
  | none =>
      rw [given] at outcome
      simp only [given, Option.isSome_none, Bool.false_eq_true, if_false, run_pure, Option.some.injEq,
        Prod.mk.injEq] at answering
      obtain ⟨rfl, rfl⟩ := answering
      exact iff_of_true (truthful_of_unwrapped outcome rfl) (Or.inl rfl)
  | some slot =>
      rw [given] at outcome
      simp only [given, Option.isSome_some, if_true, wrapper_ne_zero outcome, if_false, run_bind,
        run_storeOriginal, Option.bind_some, run_pure, Option.some.injEq, Prod.mk.injEq] at answering
      obtain ⟨rfl, rfl⟩ := answering
      rw [truthful_wrapped_iff outcome fresh (setOriginal_memory ..) fun _ => by
        simp only [Machine.setOriginal, Function.update_self]]
      simp only [reduceCtorEq, false_or]

end Answers

/--
Both kinds of request tell the truth about their route exactly if they have no `org` or none of the
failure exits of the route is taken. The machine is `resolved` once the function is found and
`prepared` when the route starts on it.
-/
theorem route_truthful_iff (request : RouteRequest) (host : Host) (id : Nat) (start : Addr) (size : Nat)
    {machine resolved prepared after : Machine} {origin : Option Addr} {result : Bool}
    (resolves : (request.resolve host id start size).run machine = some (origin, resolved))
    (prepares : (request.prepare host origin).run resolved = some ((), prepared))
    (based : ∀ from_, origin = some from_ → from_ ≠ 0)
    (layout : ∀ from_, origin = some from_ → Layout host prepared (request.info id) from_)
    (valid : ∀ from_, origin = some from_ → jumpTarget prepared.memory from_ ≠ some 0)
    (fresh : ∀ from_, origin = some from_ → ¬JumpsTo prepared.memory from_ request.target)
    (ran : (request.route host id start size).run machine = some (result, after)) :
    Truthful host.decoder origin request.target request.org prepared.memory machine after result ↔
      request.org = none ∨ ∀ from_, origin = some from_ →
        RouteGranted host prepared (request.info id) from_ request.target := by
  cases origin with
  | none =>
      have same := resolve_maintains.finish resolves
      have answer : result = false ∧ after = resolved := by
        cases request <;>
        · simp only [RouteRequest.resolve] at resolves
          simp only [RouteRequest.route, PatternRouteRequest.route, JumpPatternRouteRequest.route,
            run_bind, resolves, Option.bind_some, run_pure, Option.some.injEq, Prod.mk.injEq] at ran
          exact ⟨ran.1.symm, ran.2.symm⟩
      obtain ⟨rfl, rfl⟩ := answer
      refine iff_of_true ⟨fun done => absurd done (by decide), fun _ => ⟨rfl, fun slot _ => ?_⟩⟩
        (Or.inr fun from_ found => by simp at found)
      exact Or.inl (congrFun same.originals slot)
  | some from_ =>
      simp only [Option.some.injEq, forall_eq'] at based layout valid fresh ⊢
      cases request with
      | pattern request =>
          simp only [RouteRequest.resolve] at resolves
          simp only [RouteRequest.route, PatternRouteRequest.route, run_bind, resolves,
            Option.bind_some] at ran
          exact routeMultiple_truthful_iff based prepares layout valid fresh ran
      | jumpPattern request =>
          simp only [RouteRequest.resolve] at resolves
          simp only [RouteRequest.prepare, run_pure, Option.some.injEq, Prod.mk.injEq, true_and] at prepares
          subst prepares
          simp only [RouteRequest.route, JumpPatternRouteRequest.route, run_bind, resolves,
            Option.bind_some] at ran
          exact jumpPattern_truthful_iff layout valid fresh (by simpa only [run_bind] using ran)

section Example

def exampleHost (grants : Grants) : Host where
  decoder := ⟨fun _ _ => some 5, fun _ _ _ decoded => by cases decoded; decide⟩
  tempExecutableMemory := 0x10000
  kinfos := [⟨fun _ => 0x1000, 0⟩]
  coverageWriting := fun _ => true
  trampolineWriting := true
  outer := grants
  inner := ⟨true, true, true, true⟩

def exampleMachine : Machine := ⟨fun _ => 0x90, fun _ => 0, .noError, 0, fun _ => 0⟩

def exampleRequest : PatternRouteRequest := ⟨some "function", 0, 0x2000, some 0, none, none⟩

theorem route_truthful_example :
    ∃ after, ((RouteRequest.pattern exampleRequest).route (exampleHost ⟨true, true, true, true⟩) 0 0
        0).run exampleMachine = some (true, after) ∧
      Truthful (exampleHost ⟨true, true, true, true⟩).decoder (some 0x1000) 0x2000 (some 0)
        exampleMachine.memory exampleMachine after true := by
  have resolves : ((RouteRequest.pattern exampleRequest).resolve
      (exampleHost ⟨true, true, true, true⟩) 0 0 0).run exampleMachine =
      some (some 0x1000, exampleMachine) := rfl
  have prepares : ((RouteRequest.pattern exampleRequest).prepare
      (exampleHost ⟨true, true, true, true⟩) (some 0x1000)).run exampleMachine =
      some ((), exampleMachine) := rfl
  refine ⟨_, rfl, (route_truthful_iff _ _ 0 0 0 resolves prepares ?_ ?_ ?_ ?_ rfl).mpr (Or.inr ?_)⟩
  · intro from_ found
    cases found
    decide
  · intro from_ found
    cases found
    exact ⟨by decide, by decide, by decide, fun slot => absurd rfl slot⟩
  all_goals
    intro from_ found
    cases found
    decide

-- Kernel writing is refused: both requests return true, nothing was written, and the jump request
-- hands out `EINVAL` as the original.
theorem route_untruthful_example :
    (∃ after, ((RouteRequest.jumpPattern ⟨exampleRequest, 0⟩).route
        (exampleHost ⟨true, true, true, false⟩) 0 0 0).run exampleMachine = some (true, after) ∧
        ¬JumpsTo after.memory 0x1000 0x2000 ∧ after.originals 0 = einval) ∧
      ∃ after, ((RouteRequest.pattern exampleRequest).route
        (exampleHost ⟨true, true, true, false⟩) 0 0 0).run exampleMachine = some (true, after) ∧
        ¬JumpsTo after.memory 0x1000 0x2000 :=
  ⟨⟨_, rfl, by decide, by decide⟩, ⟨_, rfl, by decide⟩⟩

end Example

end NootedDeck.Patcher
