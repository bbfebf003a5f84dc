import NootedDeck.Patcher.Route

set_option autoImplicit false

namespace NootedDeck.Patcher

open Bytes Interleaving Program

structure PatternSolveRequest where
  symbol : Option String
  address : Option Nat
  pattern : Option (List Byte)
  mask : Option (List Byte)

def solveSymbolFor (host : Host) (id : Nat) (symbol : String) (start : Addr) (size : Nat) :
    Program Machine Addr :=
  if start = 0 ∨ size = 0 then solveSymbol host id symbol
  else solveSymbolIn host id symbol start size

namespace PatternSolveRequest

variable (request : PatternSolveRequest) (host : Host) (id : Nat) (start : Addr) (size : Nat)

def solveBySymbol (slot : Nat) : Program Machine Bool :=
  match request.symbol with
  | none => pure false
  | some symbol => do
      setError .noError
      let address ← solveSymbolFor host id symbol start size
      storeOriginal (some slot) address
      pure (decide (address ≠ 0))

def solveByPattern (slot : Nat) : Program Machine Bool :=
  match request.pattern with
  | none | some [] => if request.symbol = none then .panic else pure false
  | some pattern =>
      if start = 0 ∨ size = 0 then .panic
      else do
        let machine ← .get
        match findPattern pattern request.mask (machine.memory.bytes start size) 0 with
        | none => pure false
        | some offset => do
            storeOriginal (some slot) (start + BitVec.ofNat 64 offset)
            pure true

def solve : Program Machine Bool :=
  match request.address with
  | none => .panic
  | some slot => do
      let solved ← request.solveBySymbol host id start size slot
      if solved = true then pure true else request.solveByPattern start size slot

end PatternSolveRequest

section Constructors

variable (symbol : Option String) (pattern mask : Option (List Byte))

-- The constructors take the variable by reference, so `address` is never null.
def PatternSolveRequest.construct (slot : Nat) : PatternSolveRequest :=
  { symbol, address := some slot, pattern, mask }

def PatternRouteRequest.construct (target : Addr) (org : Option Nat) : PatternRouteRequest :=
  { symbol, origin := 0, target, org, pattern, mask }

end Constructors

section Resolution

inductive Resolution where
  | panics
  | fails
  | resolves (address : Addr)
  deriving DecidableEq

def Resolution.follow (next : Addr → Option Addr) : Resolution → Resolution
  | .panics => .panics
  | .fails => .fails
  | .resolves address =>
      match next address with
      | none => .fails
      | some destination => .resolves destination

@[simp] theorem Resolution.follow_some (found : Resolution) : found.follow some = found := by
  cases found <;> rfl

def solveOutcome (slot : Nat) : Option (Bool × Machine) → Resolution
  | none => .panics
  | some (false, _) => .fails
  | some (true, machine) => .resolves (machine.originals slot)

def routeOutcome : Option (Option Addr × Machine) → Resolution
  | none => .panics
  | some (none, _) => .fails
  | some (some address, _) => .resolves address

theorem routeOutcome_fails {result : Option (Option Addr × Machine)}
    (fails : routeOutcome result = .fails) : ∃ after, result = some (none, after) := by
  match result, fails with
  | some (none, after), _ => exact ⟨after, rfl⟩

theorem routeOutcome_resolves {result : Option (Option Addr × Machine)} {address : Addr}
    (resolves : routeOutcome result = .resolves address) :
    ∃ after, result = some (some address, after) := by
  match result, resolves with
  | some (some _, after), rfl => exact ⟨after, rfl⟩

variable (host : Host) (id : Nat) (symbol : Option String) (pattern mask : Option (List Byte))
  (start : Addr) (size : Nat) (memory : Memory)

def symbolAddress : Addr :=
  match symbol with
  | none => 0
  | some symbol => (host.kinfos[id]?.map (·.solveSymbol symbol)).getD 0

def Admitted (address : Addr) : Prop :=
  address = 0 ∨ start = 0 ∨ size = 0 ∨
    (start ≤ address ∧ address < start + BitVec.ofNat 64 size)

instance (address : Addr) : Decidable (Admitted start size address) :=
  inferInstanceAs (Decidable (_ ∨ _))

theorem admitted_zero : Admitted start size 0 := Or.inl rfl

def patternResolution : Resolution :=
  match pattern with
  | none | some [] => if symbol = none then .panics else .fails
  | some pattern =>
      if start = 0 ∨ size = 0 then .panics
      else
        match findPattern pattern mask (memory.bytes start size) 0 with
        | none => .fails
        | some offset => .resolves (start + BitVec.ofNat 64 offset)

def resolution : Resolution :=
  let address := symbolAddress host id symbol
  if Admitted start size address then
    if address = 0 then patternResolution symbol pattern mask start size memory
    else .resolves address
  else .panics

end Resolution

section Symbols

variable (host : Host) (id : Nat) (start : Addr) (size : Nat) (machine : Machine)

theorem solveSymbol_run (symbol : String) :
    ∃ code, (solveSymbol host id symbol).run machine =
      some (symbolAddress host id (some symbol), { machine with code }) := by
  simp only [solveSymbol]
  split_ifs with missing
  · exact ⟨machine.code, rfl⟩
  · have zero : symbolAddress host id (some symbol) = 0 := not_not.mp missing
    rw [zero]
    exact ⟨.noSymbolFound, rfl⟩

theorem solveSymbolFor_run (symbol : String) :
    ∃ code, (solveSymbolFor host id symbol start size).run machine =
      if Admitted start size (symbolAddress host id (some symbol)) then
        some (symbolAddress host id (some symbol), { machine with code })
      else none := by
  obtain ⟨code, solved⟩ := solveSymbol_run host id machine symbol
  exists code
  unfold solveSymbolFor
  by_cases unbounded : start = 0 ∨ size = 0
  · have admitted : Admitted start size (symbolAddress host id (some symbol)) := by
      simp only [Admitted]
      tauto
    simp only [if_pos unbounded, if_pos admitted, solved]
  · have checked : Admitted start size (symbolAddress host id (some symbol)) ↔
        symbolAddress host id (some symbol) = 0 ∨ (start ≤ symbolAddress host id (some symbol) ∧
          symbolAddress host id (some symbol) < start + BitVec.ofNat 64 size) := by
      simp only [Admitted]
      tauto
    simp only [if_neg unbounded, solveSymbolIn, run_bind, solved, Option.bind_some, checked]
    split_ifs <;> rfl

theorem PatternRouteRequest.solveFrom_run (request : PatternRouteRequest)
    (fresh : request.origin = 0) :
    ∃ code, (request.solveFrom host id start size).run machine =
      if Admitted start size (symbolAddress host id request.symbol) then
        some (symbolAddress host id request.symbol, { machine with code })
      else none := by
  unfold solveFrom
  cases request.symbol with
  | none =>
      rw [fresh]
      exact ⟨machine.code, (if_pos (admitted_zero start size)).symm⟩
  | some symbol => exact solveSymbolFor_run host id start size { machine with code := .noError } symbol

theorem PatternSolveRequest.solveBySymbol_run (request : PatternSolveRequest) (slot : Nat) :
    ∃ final, final.memory = machine.memory ∧
      (symbolAddress host id request.symbol ≠ 0 →
        final.originals slot = symbolAddress host id request.symbol) ∧
      (request.solveBySymbol host id start size slot).run machine =
        if Admitted start size (symbolAddress host id request.symbol) then
          some (decide (symbolAddress host id request.symbol ≠ 0), final)
        else none := by
  unfold solveBySymbol
  cases request.symbol with
  | none =>
      exact ⟨machine, rfl, fun found => absurd rfl found, (if_pos (admitted_zero start size)).symm⟩
  | some symbol =>
      obtain ⟨code, looked⟩ :=
        solveSymbolFor_run host id start size { machine with code := .noError } symbol
      exists Machine.setOriginal { machine with code } (some slot)
        (symbolAddress host id (some symbol))
      constructor
      · rfl
      constructor
      · exact fun _ => Function.update_self ..
      · simp only [setError, run_bind, run_modify, Option.bind_some, looked]
        split_ifs <;> rfl

end Symbols

section Patterns

variable (start : Addr) (size : Nat) (machine : Machine)

theorem PatternSolveRequest.solveByPattern_outcome (request : PatternSolveRequest) (slot : Nat) :
    solveOutcome slot ((request.solveByPattern start size slot).run machine) =
      patternResolution request.symbol request.pattern request.mask start size machine.memory := by
  unfold solveByPattern patternResolution
  rcases request.pattern with _ | _ | ⟨byte, rest⟩
  · cases request.symbol <;> rfl
  · cases request.symbol <;> rfl
  · by_cases unbounded : start = 0 ∨ size = 0
    · simp only [if_pos unbounded]
      rfl
    · simp only [if_neg unbounded, run_bind, run_get, Option.bind_some]
      split
      · rfl
      · exact congrArg Resolution.resolves (Function.update_self ..)

theorem PatternRouteRequest.searchFrom_outcome (request : PatternRouteRequest)
    (destination : Memory → Addr → Option Addr) :
    routeOutcome ((request.searchFrom start size destination).run machine) =
      (patternResolution request.symbol request.pattern request.mask start size
        machine.memory).follow (destination machine.memory) := by
  unfold searchFrom patternResolution
  rcases request.pattern with _ | _ | ⟨byte, rest⟩
  · cases request.symbol <;> rfl
  · cases request.symbol <;> rfl
  · by_cases unbounded : start = 0 ∨ size = 0
    · simp only [if_pos unbounded]
      rfl
    · simp only [if_neg unbounded, run_bind, run_get, Option.bind_some]
      cases findPattern (byte :: rest) request.mask (machine.memory.bytes start size) 0 with
      | none => rfl
      | some offset =>
          simp only [run_pure, Resolution.follow]
          cases destination machine.memory (start + BitVec.ofNat 64 offset) <;> rfl

end Patterns

section Agreement

variable (host : Host) (id : Nat) (start : Addr) (size : Nat) (machine : Machine)

theorem PatternSolveRequest.solve_outcome (request : PatternSolveRequest) (slot : Nat)
    (given : request.address = some slot) :
    solveOutcome slot ((request.solve host id start size).run machine) =
      resolution host id request.symbol request.pattern request.mask start size machine.memory := by
  obtain ⟨final, kept, held, solved⟩ :=
    request.solveBySymbol_run host id start size machine slot
  simp only [solve, given, run_bind, solved, resolution]
  split_ifs with admitted zero
  · simp only [zero, ne_eq, not_true_eq_false, decide_false, Option.bind_some, Bool.false_eq_true,
      if_false, request.solveByPattern_outcome, kept]
  · simp only [zero, ne_eq, not_false_eq_true, decide_true, Option.bind_some, if_true, run_pure,
      solveOutcome, held zero]
  · rfl

theorem PatternRouteRequest.resolve_outcome (request : PatternRouteRequest)
    (fresh : request.origin = 0) :
    routeOutcome ((request.resolve host id start size).run machine) =
      resolution host id request.symbol request.pattern request.mask start size machine.memory := by
  obtain ⟨code, solved⟩ := request.solveFrom_run host id start size machine fresh
  simp only [resolve, run_bind, solved, resolution]
  split_ifs with admitted zero
  · simp only [zero, Option.bind_some, if_true, request.searchFrom_outcome]
    exact Resolution.follow_some _
  · simp only [Option.bind_some, if_neg zero, run_pure, routeOutcome]
  · rfl

end Agreement

section Places

variable {memory : Memory} {pattern : List Byte} {mask : Option (List Byte)} {start : Addr}
  {size : Nat}

def maskByte (mask : Option (List Byte)) (index : Nat) : Byte :=
  match mask with
  | none => 0xFF
  | some mask => mask.getD index 0

def MaskedMatch (memory : Memory) (pattern : List Byte) (mask : Option (List Byte)) (place : Addr) :
    Prop :=
  ∀ index byte, pattern[index]? = some byte →
    memory (place + BitVec.ofNat 64 index) &&& maskByte mask index = byte

theorem matchesAt_bytes_iff {offset : Nat} (fits : offset + pattern.length ≤ size) :
    matchesAt pattern mask (memory.bytes start size) offset = true ↔
      MaskedMatch memory pattern mask (start + BitVec.ofNat 64 offset) := by
  have here : ∀ index, index < pattern.length →
      (memory.bytes start size)[offset + index]? =
        some (memory (start + BitVec.ofNat 64 offset + BitVec.ofNat 64 index)) := by
    intro index within
    rw [Memory.bytes_getElem? memory start (by omega), BitVec.add_assoc, BitVec.ofNat_add]
  simp only [matchesAt, List.all_eq_true, List.mem_range, MaskedMatch]
  constructor
  · intro agrees index byte member
    have within := (List.getElem?_eq_some_iff.mp member).1
    have same := agrees index within
    cases mask with
    | none =>
        simpa only [here index within, member, beq_iff_eq, Option.some.injEq, maskByte,
          and_allOnes] using same
    | some mask =>
        simpa only [here index within, member, Option.map_some, beq_iff_eq, Option.some.injEq,
          maskByte] using same
  · intro agrees index within
    have same := agrees index pattern[index] (List.getElem?_eq_getElem within)
    cases mask with
    | none =>
        simpa only [here index within, List.getElem?_eq_getElem within, beq_iff_eq,
          Option.some.injEq, maskByte, and_allOnes] using same
    | some mask =>
        simpa only [here index within, List.getElem?_eq_getElem within, Option.map_some,
          beq_iff_eq, Option.some.injEq, maskByte] using same

structure FirstMatch (memory : Memory) (pattern : List Byte) (mask : Option (List Byte))
    (start : Addr) (size offset : Nat) : Prop where
  fits : offset + pattern.length ≤ size
  here : MaskedMatch memory pattern mask (start + BitVec.ofNat 64 offset)
  least : ∀ earlier < offset, ¬MaskedMatch memory pattern mask (start + BitVec.ofNat 64 earlier)

theorem findPattern_eq_some_iff_firstMatch {offset : Nat} (positive : pattern ≠ []) :
    findPattern pattern mask (memory.bytes start size) 0 = some offset ↔
      FirstMatch memory pattern mask start size offset := by
  rw [findPattern_eq_some, Memory.bytes_length]
  constructor
  · rintro ⟨-, here, -, fits, least⟩
    refine ⟨fits, (matchesAt_bytes_iff fits).mp here, fun earlier before matched => ?_⟩
    have misses := least earlier (Nat.zero_le _) before
    rw [(matchesAt_bytes_iff (by omega)).mpr matched] at misses
    cases misses
  · rintro ⟨fits, here, least⟩
    refine ⟨List.length_pos_iff.mpr positive, (matchesAt_bytes_iff fits).mpr here, Nat.zero_le _, fits, ?_⟩
    intro earlier _ before
    have inside : earlier + pattern.length ≤ size := by omega
    exact Bool.eq_false_of_not_eq_true fun matched =>
      least earlier before ((matchesAt_bytes_iff inside).mp matched)

end Places

section Located

variable {host : Host} {id size : Nat} {symbol : Option String} {pattern mask : Option (List Byte)}
  {start address : Addr} {memory : Memory}

structure Located (host : Host) (id : Nat) (symbol : Option String)
    (pattern mask : Option (List Byte)) (start : Addr) (size : Nat) (memory : Memory)
    (address : Addr) : Prop where
  symbolic : symbolAddress host id symbol ≠ 0 → address = symbolAddress host id symbol
  matched : symbolAddress host id symbol = 0 → ∃ bytes offset, pattern = some bytes ∧
    FirstMatch memory bytes mask start size offset ∧ address = start + BitVec.ofNat 64 offset ∧
    (start.toNat + size ≤ 2 ^ 64 → address.toNat + bytes.length ≤ start.toNat + size)
  inside : start ≠ 0 → size ≠ 0 → start.toNat + size ≤ 2 ^ 64 →
    start.toNat ≤ address.toNat ∧ address.toNat < start.toNat + size

theorem Admitted.inside (admitted : Admitted start size address) (found : address ≠ 0)
    (started : start ≠ 0) (sized : size ≠ 0) (unwrapped : start.toNat + size ≤ 2 ^ 64) :
    start.toNat ≤ address.toNat ∧ address.toNat < start.toNat + size := by
  obtain ⟨low, high⟩ : start ≤ address ∧ address < start + BitVec.ofNat 64 size := by
    simp only [Admitted] at admitted
    tauto
  simp only [BitVec.le_def, BitVec.lt_def, BitVec.toNat_add, BitVec.toNat_ofNat] at low high
  omega

theorem FirstMatch.toNat_place {bytes : List Byte} {offset : Nat} (positive : bytes ≠ [])
    (first : FirstMatch memory bytes mask start size offset)
    (unwrapped : start.toNat + size ≤ 2 ^ 64) :
    (start + BitVec.ofNat 64 offset).toNat = start.toNat + offset := by
  have fits := first.fits
  have nonempty := List.length_pos_iff.mpr positive
  simp only [BitVec.toNat_add, BitVec.toNat_ofNat]
  omega

theorem patternResolution_resolves
    (resolved : patternResolution symbol pattern mask start size memory = .resolves address) :
    (start ≠ 0 ∧ size ≠ 0) ∧ ∃ bytes offset, pattern = some bytes ∧ bytes ≠ [] ∧
      FirstMatch memory bytes mask start size offset ∧ address = start + BitVec.ofNat 64 offset := by
  unfold patternResolution at resolved
  rcases pattern with _ | _ | ⟨byte, rest⟩
  · cases symbol <;> cases resolved
  · cases symbol <;> cases resolved
  · by_cases unbounded : start = 0 ∨ size = 0
    · simp only [if_pos unbounded] at resolved
      cases resolved
    · simp only [if_neg unbounded] at resolved
      cases found : findPattern (byte :: rest) mask (memory.bytes start size) 0 with
      | none =>
          rw [found] at resolved
          cases resolved
      | some offset =>
          rw [found] at resolved
          cases resolved
          constructor
          · exact not_or.mp unbounded
          · have positive := List.cons_ne_nil byte rest
            exact ⟨byte :: rest, offset, rfl, positive,
              (findPattern_eq_some_iff_firstMatch positive).mp found, rfl⟩

/-- What there is to find, from the symbol table and the bytes of the image alone. -/
inductive Finds (host : Host) (id : Nat) (symbol : Option String) (pattern mask : Option (List Byte))
    (start : Addr) (size : Nat) (memory : Memory) : Resolution → Prop
  | symbol (found : symbolAddress host id symbol ≠ 0)
      (admitted : Admitted start size (symbolAddress host id symbol)) :
      Finds host id symbol pattern mask start size memory (.resolves (symbolAddress host id symbol))
  | outside (refused : ¬Admitted start size (symbolAddress host id symbol)) :
      Finds host id symbol pattern mask start size memory .panics
  | nothing (missing : symbolAddress host id symbol = 0) (empty : pattern = none ∨ pattern = some []) :
      Finds host id symbol pattern mask start size memory (if symbol = none then .panics else .fails)
  | unbounded (bytes : List Byte) (missing : symbolAddress host id symbol = 0)
      (given : pattern = some bytes) (positive : bytes ≠ []) (range : start = 0 ∨ size = 0) :
      Finds host id symbol pattern mask start size memory .panics
  | matched (bytes : List Byte) (offset : Nat) (missing : symbolAddress host id symbol = 0)
      (given : pattern = some bytes) (positive : bytes ≠ []) (range : start ≠ 0 ∧ size ≠ 0)
      (first : FirstMatch memory bytes mask start size offset) :
      Finds host id symbol pattern mask start size memory (.resolves (start + BitVec.ofNat 64 offset))
  | unmatched (bytes : List Byte) (missing : symbolAddress host id symbol = 0)
      (given : pattern = some bytes) (positive : bytes ≠ []) (range : start ≠ 0 ∧ size ≠ 0)
      (nowhere : ∀ offset, ¬FirstMatch memory bytes mask start size offset) :
      Finds host id symbol pattern mask start size memory .fails

theorem patternResolution_finds (missing : symbolAddress host id symbol = 0) :
    Finds host id symbol pattern mask start size memory
      (patternResolution symbol pattern mask start size memory) := by
  unfold patternResolution
  rcases pattern with _ | _ | ⟨byte, rest⟩
  · exact .nothing missing (Or.inl rfl)
  · exact .nothing missing (Or.inr rfl)
  · have positive := List.cons_ne_nil byte rest
    by_cases unbounded : start = 0 ∨ size = 0
    · simp only [if_pos unbounded]
      exact .unbounded _ missing rfl positive unbounded
    · simp only [if_neg unbounded]
      cases found : findPattern (byte :: rest) mask (memory.bytes start size) 0 with
      | none =>
          refine .unmatched _ missing rfl positive (not_or.mp unbounded) fun offset first => ?_
          rw [(findPattern_eq_some_iff_firstMatch positive).mpr first] at found
          cases found
      | some offset =>
          exact .matched _ offset missing rfl positive (not_or.mp unbounded)
            ((findPattern_eq_some_iff_firstMatch positive).mp found)

theorem resolution_finds :
    Finds host id symbol pattern mask start size memory
      (resolution host id symbol pattern mask start size memory) := by
  simp only [resolution]
  split_ifs with admitted missing
  · exact patternResolution_finds missing
  · exact .symbol missing admitted
  · exact .outside admitted

theorem located_of_resolution
    (resolved : resolution host id symbol pattern mask start size memory = .resolves address) :
    Located host id symbol pattern mask start size memory address := by
  simp only [resolution] at resolved
  split_ifs at resolved with admitted zero
  · obtain ⟨-, bytes, offset, given, positive, first, rfl⟩ := patternResolution_resolves resolved
    have fits := first.fits
    have nonempty := List.length_pos_iff.mpr positive
    constructor
    · exact fun found => absurd zero found
    · intro _
      refine ⟨bytes, offset, given, first, rfl, fun unwrapped => ?_⟩
      rw [first.toNat_place positive unwrapped]
      omega
    · intro _ _ unwrapped
      rw [first.toNat_place positive unwrapped]
      omega
  · cases resolved
    constructor
    · exact fun _ => rfl
    · exact fun missing => absurd missing zero
    · exact fun started sized unwrapped => admitted.inside zero started sized unwrapped

end Located

/-- `Solve` and `Route` find the same function, and they find it in the image. -/
theorem solve_agrees_with_route (host : Host) (id : Nat) (symbol : Option String)
    (pattern mask : Option (List Byte)) (start : Addr) (size : Nat) (machine : Machine) (slot : Nat)
    (target : Addr) (org : Option Nat) :
    solveOutcome slot (((PatternSolveRequest.construct symbol pattern mask slot).solve host id start
        size).run machine) =
      resolution host id symbol pattern mask start size machine.memory ∧
    routeOutcome (((PatternRouteRequest.construct symbol pattern mask target org).resolve host id
        start size).run machine) =
      resolution host id symbol pattern mask start size machine.memory ∧
    Finds host id symbol pattern mask start size machine.memory
      (resolution host id symbol pattern mask start size machine.memory) ∧
    ∀ address, resolution host id symbol pattern mask start size machine.memory = .resolves address →
      Located host id symbol pattern mask start size machine.memory address := by
  constructor
  · exact PatternSolveRequest.solve_outcome host id start size machine _ slot rfl
  constructor
  · exact PatternRouteRequest.resolve_outcome host id start size machine _ rfl
  · exact ⟨resolution_finds, fun address => located_of_resolution⟩

example (host : Host) (id : Nat) :
    resolution host id none (some [0xE8, 0]) (some [0xFF, 0]) 0x1000 8
      (fun address => if address = 0x1003 then 0xE8 else 0x90) = .resolves 0x1003 := rfl

end NootedDeck.Patcher
