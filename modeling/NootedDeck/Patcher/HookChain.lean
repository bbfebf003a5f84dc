import NootedDeck.Patcher.RouteAll

set_option autoImplicit false

namespace NootedDeck.Patcher

open Bytes Interleaving Program

structure Link where
  given : Given
  target : Addr
  holder : Nat

structure Linking (host : Host) (id : Nat) (origin : Addr) (link : Link)
    (machine prepared after : Machine) : Prop where
  prepares : (eraseCoverage (host.under link.given) origin link.target).run machine =
    some ((), prepared)
  routes : (routeMultiple (host.under link.given) id origin link.target (some link.holder)).run
    machine = some (true, after)

/-- Further routes of a function, with nothing that looks like a counter in the jump that is there. -/
inductive Linkings (host : Host) (id : Nat) (origin : Addr) : Machine → List Link → Machine → Prop
  | none (machine : Machine) : Linkings host id origin machine [] machine
  | next {machine prepared middle after : Machine} {link : Link} {rest : List Link}
      (linking : Linking host id origin link machine prepared middle)
      (quiet : prepared.memory = machine.memory)
      (later : Linkings host id origin middle rest after) :
      Linkings host id origin machine (link :: rest) after

section Chain

variable {host : Host} {id : Nat} {first : Addr} {machine prepared after : Machine} {code : Memory}
  {origin target root : Addr} {form : JumpForm}

def JumpForm.jumpType : JumpForm → JumpType
  | .small => .short
  | .slotted _ => .medium
  | .absolute => .long

theorem slotted_argument_ne {slot : Addr} (fits : (JumpForm.slotted slot).Fits origin target) :
    (JumpForm.slotted slot).argument origin target ≠ 0 := by
  obtain ⟨reaches, apart⟩ := fits
  intro zero
  have same := of_decide_eq_true reaches
  change ((JumpForm.slotted slot).argument origin target).signExtend 64 = _ at same
  rw [zero] at same
  have behind : slot = origin + 6#64 := by
    have sum := congrArg (· + (origin + 6#64)) same
    simp only [BitVec.sub_add_cancel] at sum
    rw [← sum]
    simp
  have inside := apart.2
  rw [behind, BitVec.add_comm, BitVec.add_sub_cancel] at inside
  exact absurd inside (by decide)

theorem readChain_indirect (memory : Memory) {argument : BitVec 32}
    (stored : memory.bytes origin mediumJump = [0xFF, 0x25] ++ littleEndian 4 argument.toNat) :
    (readChain memory origin).2 = if argument ≠ 0 then .medium else .long := by
  rw [mediumJump, Memory.bytes_add memory origin 2 4] at stored
  obtain ⟨opcode, disp⟩ := List.append_inj stored rfl
  rw [readChain, if_pos opcode, Memory.load32_of_bytes disp]

theorem JumpPlaced.prevJump (placed : JumpPlaced host id first origin target form machine) :
    (readChain machine.memory origin).2 = form.jumpType := by
  obtain ⟨fits, stored, -⟩ := placed
  cases form with
  | small =>
      rw [JumpForm.size, smallJump, Memory.bytes_add _ origin 1 4, JumpForm.code, JumpForm.disp,
        List.append_nil] at stored
      have opcode : machine.memory.bytes origin 1 = [0xE9] := (List.append_inj stored rfl).1
      have other : machine.memory.bytes origin 2 ≠ [0xFF, 0x25] := by
        rw [Memory.bytes_add _ origin 1 1, opcode]
        simp
      rw [readChain, if_neg other, if_pos opcode]
      rfl
  | slotted slot =>
      rw [JumpForm.code, JumpForm.disp, List.append_nil] at stored
      rw [readChain_indirect _ stored, if_pos (slotted_argument_ne fits)]
      rfl
  | absolute =>
      rw [JumpForm.size, longJump, Memory.bytes_add _ origin 6 8, JumpForm.code] at stored
      obtain ⟨jump, -⟩ := List.append_inj stored (by simp [JumpForm.opcode])
      rw [readChain_indirect _ jump]
      rfl

theorem JumpPlaced.chain (placed : JumpPlaced host id first origin target form machine) :
    (readChain machine.memory origin).1 = target := by
  have jumps : jumpTarget machine.memory origin = some target := placed.jumpsTo
  rw [readChain_fst, jumps, Option.getD_some]

structure Chained (host : Host) (id : Nat) (first : Addr) (code : Memory) (origin newest root : Addr)
    (machine : Machine) : Prop where
  parts : ∃ form start size, JumpPlaced host id first origin newest form machine ∧
    TrampolinePlaced host code origin root start size machine ∧ form.size ≤ size

theorem JumpPlaced.shrinks (placed : JumpPlaced host id first origin target form machine)
    (some : target ≠ 0) (absolute : Bool) {middle : Machine} {info : Option Nat} {wrapped : Bool}
    {trampoline slot : Addr} {minimum : Nat}
    (chosen : Chosen host machine info origin wrapped trampoline slot minimum middle) :
    (jumpForm absolute slot).size ≤ form.size := by
  obtain ⟨long, medium⟩ := chosen.kind (placed.chain ▸ some)
  rw [placed.prevJump] at long medium
  cases form with
  | small => exact absurd rfl long
  | slotted old =>
      rw [jumpForm, if_pos (medium.mp rfl)]
      exact Nat.le_refl _
  | absolute =>
      have unused : slot = 0 := by
        by_contra used
        exact absurd (medium.mpr used) (by decide)
      cases absolute <;> simp [jumpForm, unused, JumpForm.size, smallJump, longJump]

theorem Linking.next {link : Link} (linking : Linking host id origin link machine prepared after)
    (ground : Ground host id first [origin])
    (allow : link.given.outer.Allow (farJump origin link.target))
    (left : SlotsLeft host id first machine) (quiet : prepared.memory = machine.memory)
    (some : target ≠ 0) (chained : Chained host id first code origin target root machine) :
    Chained host id first code origin link.target root after ∧ SlotsLeft host id first after ∧
      after.originals link.holder = target ∧
      ∀ holder ≠ link.holder, after.originals holder = machine.originals holder := by
  have member : origin ∈ [origin] := List.mem_singleton_self origin
  have image : OfImage id (Option.some id) := Or.inr rfl
  have same : prepared = machine := by
    rw [(eraseCoverage_erased linking.prepares).rest, quiet]
  subst same
  have placing := ground.under link.given
  obtain ⟨value, routing⟩ := routeMultiple_routes (ground.based origin member) linking.prepares
    linking.routes
  obtain ⟨within, others, installs, -⟩ :=
    routeFunctionInternal_within (placing.layout member left image) routing
  obtain ⟨form, start, size, placed, copy, covers⟩ := chained.parts
  rw [← jumpPlaced_under link.given] at placed
  rw [← trampolinePlaced_under link.given] at copy
  have again : (readChain prepared.memory origin).1 ≠ 0 := placed.chain ▸ some
  obtain ⟨slot, middle, chosen, prepares, rfl⟩ :=
    installs ⟨allow, fun _ fresh => absurd fresh again⟩
  have shorter := (placed.shrinks some (farJump origin link.target) chosen).trans covers
  refine ⟨⟨_, start, size, (jumpPlaced_under link.given).mp
    (chosen.jumpPlaced placing member left image _), (trampolinePlaced_under link.given).mp ?_,
    shorter⟩, left.later ground image ((within_under link.given).mp within), ?_, ?_⟩
  · exact copy.later placing member left image within fun index less beyond =>
      chosen.behind placing member left image prepares _ less (shorter.trans beyond)
  · rw [← placed.chain, ← chosen.chained rfl again]
    exact Function.update_self ..
  · intro holder different
    exact others holder fun same => different (Option.some.inj same).symm

theorem Linking.begins {link : Link} (linking : Linking host id origin link machine prepared after)
    (ground : Ground host id first [origin]) (left : SlotsLeft host id first machine)
    (fresh : (readChain prepared.memory origin).1 = 0)
    (granted : AllGranted (host.under link.given) prepared (some id) origin link.target true) :
    Chained host id first prepared.memory origin link.target (after.originals link.holder) after ∧
      after.originals link.holder ≠ 0 ∧ SlotsLeft host id first after := by
  have member : origin ∈ [origin] := List.mem_singleton_self origin
  have image : OfImage id (some id) := Or.inr rfl
  have leaves : SlotsLeft host id first prepared := by
    rw [SlotsLeft, (eraseCoverage_erased linking.prepares).rest]
    exact left
  have placing := ground.under link.given
  obtain ⟨value, routing⟩ := routeMultiple_routes (ground.based origin member) linking.prepares
    linking.routes
  obtain ⟨within, -, installs, -⟩ :=
    routeFunctionInternal_within (placing.layout member leaves image) routing
  obtain ⟨slot, middle, chosen, prepares, rfl⟩ := installs granted
  have holds : (middle.setOriginal (some link.holder) value).originals link.holder = value :=
    Function.update_self ..
  obtain ⟨made, start, size, covers, placed⟩ :=
    chosen.trampolinePlaced placing member leaves image prepares fresh (some link.holder)
  have jump := chosen.jumpPlaced placing member leaves image (some link.holder)
  refine ⟨⟨_, start, size, (jumpPlaced_under link.given).mp jump, ?_, covers⟩, ?_,
    leaves.later ground image ((within_under link.given).mp within)⟩
  · exact holds.symm ▸ (trampolinePlaced_under link.given).mp placed
  · exact holds.symm ▸ made

theorem Linkings.chained {links : List Link} (ran : Linkings host id origin machine links after)
    (ground : Ground host id first [origin])
    (allow : ∀ link ∈ links, link.given.outer.Allow (farJump origin link.target))
    (left : SlotsLeft host id first machine) (some : ∀ link ∈ links, link.target ≠ 0)
    {newest : Link} (used : newest.target ≠ 0)
    (chained : Chained host id first code origin newest.target root machine)
    (distinct : ((newest :: links).map (·.holder)).Nodup) :
    Chained host id first code origin (links.getLastD newest).target root after ∧
      (newest :: links).IsChain (fun older newer => after.originals newer.holder = older.target) ∧
      ∀ holder ∉ links.map (·.holder), after.originals holder = machine.originals holder := by
  induction ran generalizing newest with
  | none => exact ⟨chained, .singleton _, fun _ _ => rfl⟩
  | @next machine prepared middle after link rest linking quiet later ih =>
      rw [List.forall_mem_cons] at some allow
      obtain ⟨linked, leaves, original, others⟩ := linking.next ground allow.1 left quiet used chained
      rw [List.map_cons, List.nodup_cons] at distinct
      obtain ⟨ends, links, kept⟩ := ih allow.2 leaves some.2 some.1 linked distinct.2
      rw [List.map_cons, List.nodup_cons] at distinct
      refine ⟨?_, .cons_cons ?_ links, fun holder absent => ?_⟩
      · rw [List.getLastD_cons]
        exact ends
      · rw [kept _ distinct.2.1, original]
      · rw [List.map_cons, List.mem_cons, not_or] at absent
        rw [kept _ absent.2, others _ absent.1]

end Chain

section Example

def olderLink : Link := ⟨granted, 0xFFFFFF8000002000, 0⟩

def newerLink : Link := ⟨granted, 0xFFFFFF8000004000, 1⟩

def linked (host : Host) (link : Link) (machine : Machine) : Machine :=
  ending ((routeMultiple (host.under link.given) 0 0x1000 link.target (some link.holder)).run machine)

theorem chainGround : Ground pairHost 0 (pairMachine.addressSlots 0) [0x1000] :=
  pairGround.subset (by decide)

def counterHost : Host where
  decoder :=
    ⟨fun memory place =>
      some (if memory.bytes place 3 = [0x48, 0xFF, 0x05] then 7
        else if memory.bytes place 2 = [0xFF, 0x25] then 6 else 1),
      fun memory place size decoded => by
        cases decoded
        split_ifs <;> decide⟩
  tempExecutableMemory := 0x10000
  kinfos := [⟨fun _ => 0, 0⟩]
  coverageWriting := fun _ => true
  trampolineWriting := true
  outer := ⟨true, true, true, true⟩
  inner := ⟨true, true, true, true⟩

-- Without a slot the address of the first hook is in the code. This one reads as a counter, so the
-- second route erases it and takes what is left for the original.
example :
    let middle := linked counterHost ⟨granted, 0xFFFFFF801205FF48, 0⟩ exampleMachine
    let after := linked counterHost newerLink middle
    JumpsTo middle.memory 0x1000 0xFFFFFF801205FF48 ∧
      after.originals newerLink.holder = 0xFF90909090909090 := by decide

end Example

end NootedDeck.Patcher
