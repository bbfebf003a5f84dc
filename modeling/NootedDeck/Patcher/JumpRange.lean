import NootedDeck.Shared.MemoryReads
import NootedDeck.Patcher.SolveRequest
import NootedDeck.Patcher.RouteTruth

set_option autoImplicit false

namespace NootedDeck.Patcher

open Bytes Interleaving Program Inspection Inspect

section Decoder

inductive Opcode where
  | extended
  | near
  | short
  | other
  deriving DecidableEq

def opcode (instr : Byte) : Opcode :=
  if instr = 0x0F then .extended
  else if instr = 0xE8 ∨ instr = 0xE9 then .near
  else if 0x70 ≤ instr ∧ instr ≤ 0x7F then .short
  else .other

def Opcode.size : Opcode → Nat
  | .extended => 6
  | .near => 5
  | .short => 2
  | .other => 1

def IsJcc (instr1 : Byte) : Prop := 0x80 ≤ instr1 ∧ instr1 ≤ 0x8F

instance (instr1 : Byte) : Decidable (IsJcc instr1) := inferInstanceAs (Decidable (_ ∧ _))

def landing (start stop offset instrSize : Addr) : Addr :=
  let result :=
    if offset.slt 0 then
      if start < -offset then 0 else start - -offset + instrSize
    else start + offset + instrSize
  if stop ≤ result then 0 else result

def readOperand (start stop : Addr) : Opcode → Inspect Addr
  | .extended =>
      if stop < start + 6#64 then pure 0
      else do
        let instr1 ← readAt (start + 1#64)
        if IsJcc instr1 then do
          let offset ← readInt32 (start + 2#64)
          return landing start stop (offset.signExtend 64) 6#64
        else pure 0
  | .near =>
      if stop < start + 5#64 then pure 0
      else do
        let offset ← readInt32 (start + 1#64)
        return landing start stop (offset.signExtend 64) 5#64
  | .short =>
      if stop < start + 2#64 then pure 0
      else do
        let offset ← readAt (start + 1#64)
        return landing start stop (offset.signExtend 64) 2#64
  | .other => pure 0

def jumpInstReads (start stop : Addr) : Inspect Addr :=
  if start = 0 ∨ stop = 0 then pure 0
  else do
    let instr ← readAt start
    readOperand start stop (opcode instr)

theorem value_jumpInstReads (memory : Memory) (start stop : Addr) :
    (jumpInstReads start stop).value (places memory) = jumpInstDestination memory start stop := by
  simp only [jumpInstReads, opcode, apply_ite (readOperand start stop),
    apply_ite (Inspect.value (places memory)), value_bind, value_readAt]
  simp only [readOperand, apply_ite (Inspect.value (places memory)), value_bind, value_readAt,
    value_readInt32, value_pure]
  rfl

end Decoder

section Instructions

def Opcode.displacement (memory : Memory) (place : Addr) : Opcode → Option Addr
  | .extended =>
      if IsJcc (memory (place + 1#64)) then some ((memory.load32 (place + 2#64)).signExtend 64)
      else none
  | .near => some ((memory.load32 (place + 1#64)).signExtend 64)
  | .short => some ((memory (place + 1#64)).signExtend 64)
  | .other => none

def Opcode.consumed (memory : Memory) (place : Addr) : Opcode → Nat
  | .extended => if IsJcc (memory (place + 1#64)) then 6 else 2
  | .near => 5
  | .short => 2
  | .other => 1

variable (memory : Memory) (place stop : Addr)

theorem value_readOperand (code : Opcode) :
    (readOperand place stop code).value (places memory) =
      if stop < place + BitVec.ofNat 64 code.size then 0
      else
        match code.displacement memory place with
        | none => 0
        | some offset => landing place stop offset (BitVec.ofNat 64 code.size) := by
  cases code with
  | extended =>
      simp only [readOperand, Opcode.displacement, apply_ite (Inspect.value (places memory)),
        value_bind, value_readAt, value_readInt32, value_pure]
      by_cases jump : IsJcc (memory (place + 1#64))
      · simp only [if_pos jump]
        rfl
      · simp only [if_neg jump]
        rfl
  | near | short =>
      simp only [readOperand, Opcode.displacement, apply_ite (Inspect.value (places memory)),
        value_bind, value_readAt, value_readInt32, value_pure]
      rfl
  | other => exact (ite_self _).symm

theorem touched_readOperand (code : Opcode) :
    place.toNat :: (readOperand place stop code).touched (places memory) =
      if stop < place + BitVec.ofNat 64 code.size then [place.toNat]
      else span place (code.consumed memory place) := by
  have two : place + 1#64 + 1#64 = place + 2#64 := BitVec.add_assoc ..
  by_cases short : stop < place + BitVec.ofNat 64 code.size
  · rw [if_pos short]
    cases code with
    | extended | near | short =>
        simp only [Opcode.size] at short
        simp only [readOperand, if_pos short, touched_pure]
    | other => rfl
  · rw [if_neg short]
    cases code with
    | extended =>
        have fits : ¬stop < place + 6#64 := short
        simp only [readOperand, if_neg fits, touched_bind, touched_readAt, value_readAt,
          Opcode.consumed]
        by_cases jump : IsJcc (memory (place + 1#64))
        · rw [if_pos jump, if_pos jump, span_succ, span_succ, two, touched_bind, touched_readInt32]
          rfl
        · rw [if_neg jump, if_neg jump, span_succ, span_succ]
          rfl
    | near =>
        have fits : ¬stop < place + 5#64 := short
        simp only [readOperand, if_neg fits, touched_bind, touched_readInt32, touched_pure,
          List.append_nil, Opcode.consumed, span_succ]
    | short =>
        have fits : ¬stop < place + 2#64 := short
        simp only [readOperand, if_neg fits, touched_bind, touched_readAt, touched_pure,
          List.append_nil, Opcode.consumed, span_succ]
        rfl
    | other =>
        rw [Opcode.consumed, span_succ]
        rfl

def instrSize : Nat := (opcode (memory place)).size

def consumed : Nat := (opcode (memory place)).consumed memory place

def displacement : Option Addr := (opcode (memory place)).displacement memory place

def destination : Option Addr :=
  (displacement memory place).map fun offset =>
    place + offset + BitVec.ofNat 64 (instrSize memory place)

def Underflows : Prop :=
  ∃ offset ∈ displacement memory place, offset.slt 0 = true ∧ place < -offset

theorem landing_of_underflow {offset instrSize : Addr} (negative : offset.slt 0 = true)
    (before : place < -offset) : landing place stop offset instrSize = 0 := by
  simp only [landing, if_pos negative, if_pos before, ite_self]

theorem landing_of_not_underflow {offset instrSize : Addr}
    (reaches : ¬(offset.slt 0 = true ∧ place < -offset)) :
    landing place stop offset instrSize =
      if stop ≤ place + offset + instrSize then 0 else place + offset + instrSize := by
  have result : (if offset.slt 0 then if place < -offset then 0 else place - -offset + instrSize
      else place + offset + instrSize) = place + offset + instrSize := by
    by_cases negative : offset.slt 0 = true
    · have after : ¬place < -offset := fun before => reaches ⟨negative, before⟩
      rw [if_pos negative, if_neg after, sub_neg_eq_add]
    · rw [if_neg negative]
  simp only [landing, result]

def GivesUp : Prop :=
  (place = 0 ∨ stop = 0) ∨ stop < place + BitVec.ofNat 64 (instrSize memory place)

theorem jumpInstDestination_of_givesUp (gives : GivesUp memory place stop) :
    jumpInstDestination memory place stop = 0 := by
  rw [← value_jumpInstReads, jumpInstReads]
  by_cases absent : place = 0 ∨ stop = 0
  · rw [if_pos absent]
    rfl
  · rw [if_neg absent, value_bind, value_readAt, value_readOperand]
    exact if_pos (gives.resolve_left absent)

theorem jumpInstDestination_of_not_givesUp (goes : ¬GivesUp memory place stop) :
    (destination memory place = none → jumpInstDestination memory place stop = 0) ∧
      ∀ leads, destination memory place = some leads →
        (Underflows memory place ∨ stop ≤ leads → jumpInstDestination memory place stop = 0) ∧
        (¬(Underflows memory place ∨ stop ≤ leads) →
          jumpInstDestination memory place stop = leads) := by
  obtain ⟨present, fits⟩ := not_or.mp goes
  have decoded : jumpInstDestination memory place stop =
      match displacement memory place with
      | none => 0
      | some offset => landing place stop offset (BitVec.ofNat 64 (instrSize memory place)) := by
    rw [← value_jumpInstReads, jumpInstReads, if_neg present, value_bind, value_readAt,
      value_readOperand]
    exact if_neg fits
  unfold destination
  cases given : displacement memory place with
  | none =>
      rw [given] at decoded
      exact ⟨fun _ => decoded, nofun⟩
  | some offset =>
      rw [given] at decoded
      constructor
      · nofun
      rintro leads ⟨⟩
      have underflows : Underflows memory place ↔ offset.slt 0 = true ∧ place < -offset := by
        simp only [Underflows, given, Option.mem_def, Option.some.injEq, exists_eq_left']
      rw [underflows, decoded]
      constructor
      · rintro (⟨negative, before⟩ | past)
        · exact landing_of_underflow place stop negative before
        · by_cases under : offset.slt 0 = true ∧ place < -offset
          · exact landing_of_underflow place stop under.1 under.2
          · exact (landing_of_not_underflow place stop under).trans (if_pos past)
      · intro reaches
        obtain ⟨reaches, inside⟩ := not_or.mp reaches
        exact (landing_of_not_underflow place stop reaches).trans (if_neg inside)

theorem jumpInstDestination_eq_zero_or {leads : Addr}
    (given : destination memory place = some leads) :
    jumpInstDestination memory place stop = 0 ∨ jumpInstDestination memory place stop = leads := by
  by_cases gives : GivesUp memory place stop
  · exact Or.inl (jumpInstDestination_of_givesUp memory place stop gives)
  · obtain ⟨-, decoded⟩ := jumpInstDestination_of_not_givesUp memory place stop gives
    obtain ⟨refused, taken⟩ := decoded leads given
    by_cases stops : Underflows memory place ∨ stop ≤ leads
    · exact Or.inl (refused stops)
    · exact Or.inr (taken stops)

theorem touched_jumpInstReads :
    (jumpInstReads place stop).touched (places memory) =
      if place = 0 ∨ stop = 0 then []
      else if stop < place + BitVec.ofNat 64 (instrSize memory place) then [place.toNat]
      else span place (consumed memory place) := by
  unfold jumpInstReads
  by_cases absent : place = 0 ∨ stop = 0
  · rw [if_pos absent, if_pos absent]
    rfl
  · rw [if_neg absent, if_neg absent, touched_bind, value_readAt, touched_readAt]
    exact touched_readOperand memory place stop _

theorem consumed_pos : 0 < consumed memory place := by
  unfold consumed
  cases opcode (memory place) with
  | extended =>
      simp only [Opcode.consumed]
      split_ifs <;> decide
  | near | short | other => exact Nat.succ_pos _

end Instructions

section Range

variable {memory : Memory} {start place : Addr} {size : Nat}

/-- What keeps the decoder and the route in the image: the instruction begins there and ends there,
unless the check of its end stops it, and it does not lead to before the image. -/
def Contained (memory : Memory) (start : Addr) (size : Nat) (place : Addr) : Prop :=
  let stop := start + BitVec.ofNat 64 size
  (place = 0 ∨ stop = 0) ∨
    Inside start size place.toNat ∧
      (stop < place + BitVec.ofNat 64 (instrSize memory place) ∨
        place.toNat + consumed memory place ≤ min (start.toNat + size) (2 ^ 64) ∧
          ∀ leads, destination memory place = some leads →
            leads = 0 ∨ start ≤ leads ∨ stop ≤ leads ∨ Underflows memory place)

theorem reads_inside_iff (started : start ≠ 0) :
    (∀ looked ∈ (jumpInstReads place (start + BitVec.ofNat 64 size)).touched (places memory),
        Inside start size looked) ↔
      (place = 0 ∨ start + BitVec.ofNat 64 size = 0) ∨
        Inside start size place.toNat ∧
          (start + BitVec.ofNat 64 size < place + BitVec.ofNat 64 (instrSize memory place) ∨
            place.toNat + consumed memory place ≤ min (start.toNat + size) (2 ^ 64)) := by
  rw [touched_jumpInstReads]
  split_ifs with absent short
  · exact ⟨fun _ => Or.inl absent, fun _ => nofun⟩
  · simp only [List.forall_mem_singleton, absent, short, false_or, true_or, and_true]
  · have positive := consumed_pos memory place
    rw [span_inside_iff started positive]
    simp only [absent, short, false_or, Inside]
    omega

theorem inside_of_lt {leads : Addr} (below : ¬start + BitVec.ofNat 64 size ≤ leads) :
    Inside start size leads.toNat ↔ start ≤ leads := by
  simp only [BitVec.le_def, BitVec.toNat_add, BitVec.toNat_ofNat, Inside] at *
  omega

theorem destination_inside_iff (goes : ¬GivesUp memory place (start + BitVec.ofNat 64 size)) :
    (jumpInstDestination memory place (start + BitVec.ofNat 64 size) = 0 ∨
        Inside start size
          (jumpInstDestination memory place (start + BitVec.ofNat 64 size)).toNat) ↔
      ∀ leads, destination memory place = some leads →
        leads = 0 ∨ start ≤ leads ∨ start + BitVec.ofNat 64 size ≤ leads ∨
          Underflows memory place := by
  obtain ⟨without, decoded⟩ := jumpInstDestination_of_not_givesUp _ _ _ goes
  cases given : destination memory place with
  | none => simp [without given]
  | some leads =>
      obtain ⟨refused, taken⟩ := decoded leads given
      simp only [Option.some.injEq, forall_eq']
      by_cases stops : Underflows memory place ∨ start + BitVec.ofNat 64 size ≤ leads
      · simp only [refused stops, true_or, true_iff]
        rcases stops with under | past
        · simp only [under, or_true]
        · simp only [past, true_or, or_true]
      · obtain ⟨reaches, below⟩ := not_or.mp stops
        simp only [taken stops, inside_of_lt below, reaches, below, or_false]

theorem contained_iff (started : start ≠ 0) :
    Contained memory start size place ↔
      (∀ looked ∈ (jumpInstReads place (start + BitVec.ofNat 64 size)).touched (places memory),
        Inside start size looked) ∧
      (jumpInstDestination memory place (start + BitVec.ofNat 64 size) = 0 ∨
        Inside start size
          (jumpInstDestination memory place (start + BitVec.ofNat 64 size)).toNat) := by
  rw [reads_inside_iff started]
  by_cases gives : GivesUp memory place (start + BitVec.ofNat 64 size)
  · simp only [jumpInstDestination_of_givesUp _ _ _ gives, true_or, and_true, Contained]
    rcases gives with absent | short
    · simp only [absent, true_or]
    · simp only [short, true_or]
  · obtain ⟨present, fits⟩ := not_or.mp gives
    simp only [destination_inside_iff gives, Contained, present, fits, false_or, and_assoc]

end Range

section Requests

def JumpPatternRouteRequest.construct (symbol : Option String) (pattern mask : Option (List Byte))
    (target : Addr) (org : Option Nat) (jumpInstOff : Nat) : JumpPatternRouteRequest :=
  { PatternRouteRequest.construct symbol pattern mask target org with jumpInstOff }

variable (request : JumpPatternRouteRequest) (host : Host) (id : Nat) (start : Addr) (size : Nat)

def JumpPatternRouteRequest.jumpPlace (memory : Memory) : Option Addr :=
  if symbolAddress host id request.symbol = 0 then
    match patternResolution request.symbol request.pattern request.mask start size memory with
    | .resolves address => some (address + BitVec.ofNat 64 request.jumpInstOff)
    | .fails | .panics => none
  else none

structure Confined (machine : Machine) (place : Addr) : Prop where
  reads : ∀ looked ∈ (jumpInstReads place (start + BitVec.ofNat 64 size)).touched
    (places machine.memory), Inside start size looked
  routed : ∀ origin after, (request.resolve host id start size).run machine =
    some (some origin, after) → Inside start size origin.toNat
  refused : ∀ leads, destination machine.memory place = some leads →
    ¬Inside start size leads.toNat →
    ∃ after, (request.route host id start size).run machine = some (false, after) ∧
      SameCode machine after

variable {request host id start size} {machine : Machine} {place : Addr}

theorem JumpPatternRouteRequest.jumpPlace_eq_some
    (taken : request.jumpPlace host id start size machine.memory = some place) :
    symbolAddress host id request.symbol = 0 ∧
      ∃ address, place = address + BitVec.ofNat 64 request.jumpInstOff ∧
        patternResolution request.symbol request.pattern request.mask start size machine.memory =
          .resolves address := by
  unfold jumpPlace at taken
  split_ifs at taken with missing
  split at taken
  next address resolved =>
    cases taken
    exact ⟨missing, address, rfl, resolved⟩
  all_goals cases taken

theorem JumpPatternRouteRequest.start_ne_zero
    (taken : request.jumpPlace host id start size machine.memory = some place) : start ≠ 0 := by
  obtain ⟨-, address, -, resolved⟩ := jumpPlace_eq_some taken
  exact (patternResolution_resolves resolved).1.1

theorem JumpPatternRouteRequest.resolve_outcome (fresh : request.origin = 0)
    (taken : request.jumpPlace host id start size machine.memory = some place) :
    routeOutcome ((request.resolve host id start size).run machine) =
      if jumpInstDestination machine.memory place (start + BitVec.ofNat 64 size) = 0 then .fails
      else
        .resolves (jumpInstDestination machine.memory place (start + BitVec.ofNat 64 size)) := by
  obtain ⟨code, solved⟩ := request.solveFrom_run host id start size machine fresh
  obtain ⟨missing, address, rfl, resolved⟩ := jumpPlace_eq_some taken
  rw [missing, if_pos (admitted_zero start size)] at solved
  simp only [resolve, run_bind, solved, Option.bind_some, if_true,
    request.searchFrom_outcome start size, resolved, Resolution.follow]
  split_ifs <;> rfl

theorem JumpPatternRouteRequest.route_of_fails
    (fails : routeOutcome ((request.resolve host id start size).run machine) = .fails) :
    ∃ after, (request.route host id start size).run machine = some (false, after) ∧
      SameCode machine after := by
  obtain ⟨after, ran⟩ := routeOutcome_fails fails
  exists after
  constructor
  · simp only [route, run_bind, ran, Option.bind_some, run_pure]
  · exact resolve_maintains.finish ran

theorem confined_iff_contained (fresh : request.origin = 0)
    (taken : request.jumpPlace host id start size machine.memory = some place) :
    Confined request host id start size machine place ↔
      Contained machine.memory start size place := by
  have outcome := request.resolve_outcome fresh taken
  rw [contained_iff (request.start_ne_zero taken)]
  constructor
  · intro confined
    constructor
    · exact confined.reads
    · by_cases zero : jumpInstDestination machine.memory place (start + BitVec.ofNat 64 size) = 0
      · exact Or.inl zero
      · rw [if_neg zero] at outcome
        obtain ⟨after, ran⟩ := routeOutcome_resolves outcome
        exact Or.inr (confined.routed _ after ran)
  · rintro ⟨reads, inside⟩
    constructor
    · exact reads
    · intro origin after ran
      rw [ran] at outcome
      split_ifs at outcome with zero
      · cases outcome
      · injection outcome with same
        rw [same]
        exact inside.resolve_left zero
    · intro leads given outside
      have zero : jumpInstDestination machine.memory place (start + BitVec.ofNat 64 size) = 0 := by
        rcases jumpInstDestination_eq_zero_or _ _ _ given with zero | same
        · exact zero
        · rw [same] at inside ⊢
          exact inside.resolve_right outside
      rw [if_pos zero] at outcome
      exact request.route_of_fails outcome

theorem jump_confined_iff (host : Host) (id : Nat) (symbol : Option String)
    (pattern mask : Option (List Byte)) (target : Addr) (org : Option Nat) (jumpInstOff : Nat)
    (start : Addr) (size : Nat) (machine : Machine) :
    (∀ place, (JumpPatternRouteRequest.construct symbol pattern mask target org
          jumpInstOff).jumpPlace host id start size machine.memory = some place →
        Confined (.construct symbol pattern mask target org jumpInstOff) host id start size machine
          place) ↔
      ∀ place, (JumpPatternRouteRequest.construct symbol pattern mask target org
          jumpInstOff).jumpPlace host id start size machine.memory = some place →
        Contained machine.memory start size place := by
  apply forall₂_congr
  exact fun place taken => confined_iff_contained rfl taken

def exampleJump : Machine :=
  { exampleMachine with memory := (exampleMachine.memory.store 0x1004 [0xE9, 0, 0xFF, 0xFF, 0xFF]) }

-- The jump leads to 0xF09, which is routed although the image begins at 0x1000; and with an offset
-- behind the image the instruction is read there.
theorem jump_before_image_routed :
    (JumpPatternRouteRequest.construct none (some [0xE9]) none 0x2000 none 0).jumpPlace
        (exampleHost ⟨true, true, true, true⟩) 0 0x1000 16 exampleJump.memory = some 0x1004 ∧
      (∃ after, ((JumpPatternRouteRequest.construct none (some [0xE9]) none 0x2000 none 0).route
          (exampleHost ⟨true, true, true, true⟩) 0 0x1000 16).run exampleJump = some (true, after) ∧
        exampleJump.memory 0xF09 = 0x90 ∧ after.memory 0xF09 = 0xE9) ∧
      ¬Confined (.construct none (some [0xE9]) none 0x2000 none 0)
        (exampleHost ⟨true, true, true, true⟩) 0 0x1000 16 exampleJump 0x1004 ∧
      (JumpPatternRouteRequest.construct none (some [0xE9]) none 0x2000 none 32).jumpPlace
        (exampleHost ⟨true, true, true, true⟩) 0 0x1000 16 exampleJump.memory = some 0x1024 ∧
      ¬Confined (.construct none (some [0xE9]) none 0x2000 none 32)
        (exampleHost ⟨true, true, true, true⟩) 0 0x1000 16 exampleJump 0x1024 := by
  constructor
  · rfl
  constructor
  · exact ⟨_, rfl, by decide, by decide⟩
  constructor
  · intro confined
    exact absurd (confined.routed 0xF09 _ rfl).1 (by decide)
  constructor
  · rfl
  · intro confined
    exact absurd (confined.reads 0x1024 (by decide)).2 (by decide)

end Requests

end NootedDeck.Patcher
