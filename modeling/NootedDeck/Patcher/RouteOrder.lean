import NootedDeck.Patcher.RouteTruth

set_option autoImplicit false

namespace NootedDeck.Patcher

open Bytes Interleaving Program

-- Another party calls the function: where it comes into the hook, this is what the hook will call
-- as the original.
def Calls (origin target : Addr) (org : Option Nat) (state : Machine) (called : Option Addr) : Prop :=
  called = if JumpsTo state.memory origin target then org.map state.originals else none

instance (origin target : Addr) (org : Option Nat) (state : Machine) (called : Option Addr) :
    Decidable (Calls origin target org state called) :=
  inferInstanceAs (Decidable (_ = _))

def Ordered (decoder : Decoder) (code : Memory) (origin target : Addr) (org : Option Nat)
    (state : Machine) : Prop :=
  ∀ slot, org = some slot → JumpsTo state.memory origin target →
    RealTrampoline decoder code state.memory origin (state.originals slot)

theorem Ordered.of_not_jumpsTo {decoder : Decoder} {code : Memory} {origin target : Addr}
    {org : Option Nat} {state : Machine} (fresh : ¬JumpsTo state.memory origin target) :
    Ordered decoder code origin target org state :=
  fun _ _ jumps => absurd jumps fresh

theorem Ordered.call_ne_zero {decoder : Decoder} {code : Memory} {origin target : Addr} {org : Option Nat}
    {state : Machine} {called : Option Addr} (ordered : Ordered decoder code origin target org state)
    (calls : Calls origin target org state called) : called ≠ some 0 := by
  rw [calls]
  split_ifs with jumps
  · cases org with
    | none => simp
    | some slot => simpa using (ordered slot rfl jumps).1
  · simp

section Pattern

variable {request : PatternRouteRequest} {host : Host} {id size slot : Nat} {start origin : Addr}
  {machine resolved prepared : Machine}

theorem routeMultiple_maintains {target : Addr} (based : origin ≠ 0)
    (prepares : (eraseCoverage host origin target).run resolved = some ((), prepared))
    (layout : Layout host prepared (some id) origin)
    (valid : jumpTarget prepared.memory origin ≠ some 0)
    (erasing : (eraseCoverage host origin target).Maintains
      (fun state => ¬JumpsTo state.memory origin target) resolved) :
    (routeMultiple host id origin target (some slot)).Maintains
      (Ordered host.decoder prepared.memory origin target (some slot)) resolved := by
  simp only [routeMultiple, based, if_false]
  rw [maintains_bind]
  refine ⟨erasing.imp fun _ fresh => .of_not_jumpsTo fresh, fun _ middle erased => ?_⟩
  obtain rfl : prepared = middle := by simpa [prepares] using erased
  have fresh := erasing.finish prepares
  by_cases unknown : host.kinfos.length ≤ id
  · rw [if_pos unknown]
    exact Ordered.of_not_jumpsTo fresh
  · rw [if_neg unknown]
    have routing := (routeFunctionInternal_maintains layout valid fresh).imp
      fun state real => show Ordered host.decoder prepared.memory origin target (some slot) state by
        intro other same jumps
        cases same
        exact real jumps
    refine routing.bind fun wrapper routed _ ordered => ?_
    simp only [Option.isSome_some, if_true]
    split_ifs
    · exact ordered
    · exact ⟨ordered, ordered⟩

theorem PatternRouteRequest.route_maintains (given : request.org = some slot) (based : origin ≠ 0)
    (resolves : (request.resolve host id start size).run machine = some (some origin, resolved))
    (prepares : (eraseCoverage host origin request.target).run resolved = some ((), prepared))
    (layout : Layout host prepared (some id) origin)
    (valid : jumpTarget prepared.memory origin ≠ some 0)
    (erasing : (eraseCoverage host origin request.target).Maintains
      (fun state => ¬JumpsTo state.memory origin request.target) resolved) :
    (request.route host id start size).Maintains
      (Ordered host.decoder prepared.memory origin request.target (some slot)) machine := by
  have same := resolve_maintains.finish resolves
  have fresh : ¬JumpsTo machine.memory origin request.target := by
    rw [← same.memory]
    exact erasing.start
  rw [PatternRouteRequest.route, maintains_bind]
  refine ⟨resolve_maintains.imp fun state same => .of_not_jumpsTo (by rw [same.memory]; exact fresh),
    fun found middle resolved => ?_⟩
  rw [resolves] at resolved
  cases resolved
  simp only [given]
  exact routeMultiple_maintains based prepares layout valid erasing

end Pattern

section Jump

variable {request : JumpPatternRouteRequest} {host : Host} {id size slot : Nat} {start origin : Addr}
  {machine resolved : Machine}

theorem JumpPatternRouteRequest.route_maintains_of_refused
    (resolves : (request.resolve host id start size).run machine = some (some origin, resolved))
    (layout : Layout host resolved none origin) (valid : jumpTarget resolved.memory origin ≠ some 0)
    (fresh : ¬JumpsTo resolved.memory origin request.target)
    (given : request.org = some slot)
    (refused : ¬RouteGranted host resolved none origin request.target) :
    (request.route host id start size).Maintains
      (fun state => ¬JumpsTo state.memory origin request.target) machine := by
  have same := resolve_maintains.finish resolves
  rw [JumpPatternRouteRequest.route, maintains_bind]
  refine ⟨resolve_maintains.imp fun state kept => by rwa [kept.memory, ← same.memory],
    fun found middle ran => ?_⟩
  rw [resolves] at ran
  cases ran
  simp only [given, Option.isSome_some, if_true]
  refine (routeFunctionInternal_maintains_of_refused layout valid fresh refused).bind
    fun wrapper routed _ unrouted => ?_
  split_ifs
  · exact unrouted
  · rw [maintains_storeOriginal_bind]
    exact ⟨unrouted, fun jumps => unrouted (by rwa [setOriginal_memory] at jumps)⟩

-- A jump request stores the original only after the jump is in place: a call in between goes
-- through the null pointer.
theorem JumpPatternRouteRequest.route_unordered {result : Bool} {after : Machine}
    (resolves : (request.resolve host id start size).run machine = some (some origin, resolved))
    (layout : Layout host resolved none origin) (valid : jumpTarget resolved.memory origin ≠ some 0)
    (given : request.org = some slot) (unset : machine.originals slot = 0)
    (granted : RouteGranted host resolved none origin request.target)
    (returns : (request.route host id start size).run machine = some (result, after)) :
    ∃ current : Config Machine (Option Addr) Bool,
      Reachable (Calls origin request.target request.org)
        ⟨request.route host id start size, machine, []⟩ current ∧
      JumpsTo current.state.memory origin request.target ∧ some 0 ∈ current.seen := by
  have same := resolve_maintains.finish resolves
  rw [JumpPatternRouteRequest.route, run_bind, resolves, Option.bind_some] at returns
  simp only [given, Option.isSome_some, if_true] at returns
  obtain ⟨wrapper, routed, routing, -⟩ := run_bind_eq_some.mp returns
  rcases routeFunctionInternal_run layout valid routing with done | refused
  · have holds : routed.originals slot = 0 := by
      rw [done.originals, Machine.setOriginal, same.originals]
      exact unset
    have wrapping : (routeFunctionInternal host origin request.target request.org.isSome true .auto
        none none).run resolved = some (wrapper, routed) := by
      rwa [given]
    refine ⟨⟨_, routed, [some 0]⟩, (reachable_bind resolves []).trans
      ((reachable_bind wrapping []).tail (.look _ _ [] (some 0) ?_)), done.jumps, by simp⟩
    rw [Calls, if_pos done.jumps, given, Option.map_some, holds]
  · exact absurd granted (refused.ungranted rfl)

end Jump

/--
In every interleaving of a request with calls of the function it routes, the hook is not entered
before its original is in place, provided the request is one of `routeMultiple`, has no `org` or
is refused.
-/
theorem route_ordered (request : RouteRequest) (host : Host) (id : Nat) (start : Addr) (size : Nat)
    {machine resolved prepared : Machine} {origin : Addr}
    (ordered : (∃ pattern, request = .pattern pattern) ∨ request.org = none ∨
      ¬RouteGranted host prepared (request.info id) origin request.target)
    (resolves : (request.resolve host id start size).run machine = some (some origin, resolved))
    (prepares : (request.prepare host (some origin)).run resolved = some ((), prepared))
    (based : origin ≠ 0) (layout : Layout host prepared (request.info id) origin)
    (valid : jumpTarget prepared.memory origin ≠ some 0)
    (erasing : (request.prepare host (some origin)).Maintains
      (fun state => ¬JumpsTo state.memory origin request.target) resolved)
    {current : Config Machine (Option Addr) Bool}
    (reached : Reachable (Calls origin request.target request.org)
      ⟨request.route host id start size, machine, []⟩ current) :
    (∀ slot, request.org = some slot → JumpsTo current.state.memory origin request.target →
        RealTrampoline host.decoder prepared.memory current.state.memory origin
          (current.state.originals slot)) ∧
      ∀ called ∈ current.seen, called ≠ some 0 := by
  have maintains : (request.route host id start size).Maintains
      (Ordered host.decoder prepared.memory origin request.target request.org) machine := by
    cases given : request.org with
    | none => exact maintains_of_forall _ _ fun state slot same => by simp at same
    | some slot =>
        cases request with
        | pattern request =>
            exact PatternRouteRequest.route_maintains given based resolves prepares layout valid
              erasing
        | jumpPattern request =>
            have refused := (ordered.resolve_left (by simp)).resolve_left (by simp [given])
            simp only [RouteRequest.prepare, run_pure, Option.some.injEq, Prod.mk.injEq,
              true_and] at prepares
            subst prepares
            exact (JumpPatternRouteRequest.route_maintains_of_refused resolves layout valid
              erasing.start given refused).imp fun _ unrouted => .of_not_jumpsTo unrouted
  have invariant := reached.maintains (fun _ _ ordered calls => ordered.call_ne_zero calls) maintains
    (by simp)
  exact ⟨invariant.1.start, invariant.2⟩

theorem route_ordered_example :
    ∃ after, ((RouteRequest.pattern exampleRequest).route (exampleHost ⟨true, true, true, true⟩) 0 0
        0).run exampleMachine = some (true, after) ∧ JumpsTo after.memory 0x1000 0x2000 ∧
      RealTrampoline (exampleHost ⟨true, true, true, true⟩).decoder exampleMachine.memory after.memory
        0x1000 (after.originals 0) := by
  refine ⟨_, rfl, by decide, ?_⟩
  have resolves : ((RouteRequest.pattern exampleRequest).resolve
      (exampleHost ⟨true, true, true, true⟩) 0 0 0).run exampleMachine =
      some (some 0x1000, exampleMachine) := rfl
  have prepares : ((RouteRequest.pattern exampleRequest).prepare
      (exampleHost ⟨true, true, true, true⟩) (some 0x1000)).run exampleMachine =
      some ((), exampleMachine) := rfl
  refine (route_ordered _ _ 0 0 0 (Or.inl ⟨_, rfl⟩) resolves prepares (by decide)
    ⟨by decide, by decide, by decide, fun slot => absurd rfl slot⟩ (by decide) ?_
    (reachable_run rfl [])).1 0 rfl (by decide)
  -- Three instructions are looked at, none of them counts coverage.
  have fresh : ¬JumpsTo exampleMachine.memory 0x1000 0x2000 := by decide
  exact (⟨fresh, fresh, fresh, fresh⟩ : _ ∧ _ ∧ _ ∧ _)

theorem jumpPattern_unordered_example :
    ∃ current : Config Machine (Option Addr) Bool,
      Reachable (Calls 0x1000 0x2000 (some 0)) ⟨(RouteRequest.jumpPattern ⟨exampleRequest, 0⟩).route
        (exampleHost ⟨true, true, true, true⟩) 0 0 0, exampleMachine, []⟩ current ∧
      JumpsTo current.state.memory 0x1000 0x2000 ∧ current.state.originals 0 = 0 ∧
      some 0 ∈ current.seen := by
  have resolves : ((JumpPatternRouteRequest.mk exampleRequest 0).resolve
      (exampleHost ⟨true, true, true, true⟩) 0 0 0).run exampleMachine =
      some (some 0x1000, exampleMachine) := rfl
  refine ⟨⟨_, _, [some 0]⟩, (reachable_bind resolves []).trans ((reachable_bind rfl []).tail
    (.look _ _ [] (some 0) ?_)), ?_, ?_, by simp⟩
  · decide
  · decide
  · decide

end NootedDeck.Patcher
