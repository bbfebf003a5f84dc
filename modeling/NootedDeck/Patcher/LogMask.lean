import NootedDeck.Shared.Accesses
import NootedDeck.Shared.MemoryReads
import NootedDeck.Patcher.SolveRequest
import NootedDeck.Patcher.RouteTruth

set_option autoImplicit false

namespace NootedDeck.Patcher

open Bytes Interleaving Program Accesses

section Search

def kDalDmLoggerShouldLogPartialPattern : List Byte :=
  [0x48, 0x8D, 0x0D, 0x00, 0x00, 0x00, 0x00, 0x8B, 0x04, 0x81, 0x0F, 0xA3, 0xD0, 0x0F, 0x92, 0xC0]

def kDalDmLoggerShouldLogPartialPatternMask : List Byte :=
  [0xFF, 0xFF, 0xFF, 0x00, 0x00, 0x00, 0x00, 0xFF, 0xFF, 0xFF, 0xFF, 0xFF, 0xFF, 0xFF, 0xFF, 0xFF]

def logEnableMaskMinors : String := "__ZN14AmdDalDmLogger19LogEnableMaskMinorsE"

variable (host : Host) (id : Nat) (slide : Addr) (size : Nat)

-- The lookup with a range where `crash` is not set: a symbol out of range counts as not found.
def solveSymbolQuietly (symbol : String) : Program Machine Addr := do
  let address ← solveSymbol host id symbol
  if address = 0 then pure 0
  else if slide ≤ address ∧ address < slide + BitVec.ofNat 64 size then pure address
  else do
    setError .invalidSymbolFound
    pure 0

def ripRelative (memory : Memory) (instAddress : Addr) : Addr :=
  instAddress + 7#64 + (memory.load32 (instAddress + 3#64)).signExtend 64

def shouldLogOffset (memory : Memory) : Option Nat :=
  findPattern kDalDmLoggerShouldLogPartialPattern (some kDalDmLoggerShouldLogPartialPatternMask)
    (memory.bytes slide size) 0

def findLogEnableMaskMinors : Program Machine Addr := do
  let address ← solveSymbolQuietly host id slide size logEnableMaskMinors
  setError .noError
  if address = 0 then do
    let machine ← .get
    match shouldLogOffset slide size machine.memory with
    | none => .panic
    | some offset => pure (ripRelative machine.memory (slide + BitVec.ofNat 64 offset))
  else pure address

end Search

section Filling

def memset (value : Byte) : Addr → Nat → Access Addr Byte Unit
  | _, 0 => pure ()
  | address, count + 1 => do
      Access.storeTo address value
      memset value (address + 1#64) count

def enableLogs (host : Host) (writing : Bool) (id : Nat) (slide : Addr) (size : Nat) :
    Program Machine Unit := do
  let address ← findLogEnableMaskMinors host id slide size
  if writing then
    .modify fun machine =>
      { machine with memory := ((memset 0xFF address 0x80).run (cells Addr Byte) machine.memory).2 }
  else .panic

theorem memset_trace (value : Byte) (address : Addr) (count : Nat) (memory : Memory) :
    (memset value address count).trace (cells Addr Byte) memory =
      (List.range count).map fun index => (.store, address + BitVec.ofNat 64 index) := by
  induction count generalizing address memory with
  | zero => rfl
  | succ count ih =>
      simp only [memset, Access.trace_bind, Access.trace_storeTo, Access.run_storeTo, ih,
        List.range_succ_eq_map, List.map_cons, List.map_map, Function.comp_def,
        Inspection.add_one_add, BitVec.add_zero, List.singleton_append]

def InImage (slide : Addr) (size : Nat) (address : Addr) : Prop := (address - slide).toNat < size

instance (slide : Addr) (size : Nat) (address : Addr) : Decidable (InImage slide size address) :=
  Nat.decLt _ _

theorem span_inImage_iff {slide address : Addr} {size count : Nat} (sized : size < 2 ^ 64)
    (positive : 0 < count) :
    (∀ index, index < count → InImage slide size (address + BitVec.ofNat 64 index)) ↔
      (address - slide).toNat + count ≤ size := by
  have moved (index : Nat) : (address + BitVec.ofNat 64 index - slide).toNat =
      ((address - slide).toNat + index) % 2 ^ 64 := by
    have swapped : address + BitVec.ofNat 64 index - slide =
        address - slide + BitVec.ofNat 64 index := by ring
    rw [swapped, BitVec.toNat_add, BitVec.toNat_ofNat, Nat.add_mod_mod]
  simp only [InImage, moved]
  have bound := (address - slide).isLt
  constructor
  · intro inside
    by_contra beyond
    have last := inside (min (count - 1) (2 ^ 64 - 1 - (address - slide).toNat)) (by omega)
    omega
  · intro fits index early
    omega

end Filling

section Containment

variable (host : Host) (id : Nat) (slide : Addr) (size : Nat) (memory : Memory)

def OverwritesImage (writing : Bool) (machine : Machine) : Prop :=
  ∀ address found, (findLogEnableMaskMinors host id slide size).run machine = some (address, found) →
    writing = true →
    ∀ access ∈ (memset 0xFF address 0x80).trace (cells Addr Byte) found.memory,
      InImage slide size access.2

def SymbolUsed : Prop :=
  symbolAddress host id (some logEnableMaskMinors) ≠ 0 ∧
    slide ≤ symbolAddress host id (some logEnableMaskMinors) ∧
    symbolAddress host id (some logEnableMaskMinors) < slide + BitVec.ofNat 64 size

instance : Decidable (SymbolUsed host id slide size) := inferInstanceAs (Decidable (_ ∧ _))

structure MaskContained : Prop where
  bySymbol : SymbolUsed host id slide size →
    (symbolAddress host id (some logEnableMaskMinors) - slide).toNat + 0x80 ≤ size
  byPattern : ¬SymbolUsed host id slide size →
    ∀ offset, shouldLogOffset slide size memory = some offset →
      (ripRelative memory (slide + BitVec.ofNat 64 offset) - slide).toNat + 0x80 ≤ size

theorem solveSymbolQuietly_run (machine : Machine) :
    ∃ code, (solveSymbolQuietly host id slide size logEnableMaskMinors).run machine =
      some (if SymbolUsed host id slide size then symbolAddress host id (some logEnableMaskMinors)
        else 0, { machine with code }) := by
  obtain ⟨code, solved⟩ := solveSymbol_run host id machine logEnableMaskMinors
  simp only [solveSymbolQuietly, run_bind, solved, Option.bind_some]
  by_cases missing : symbolAddress host id (some logEnableMaskMinors) = 0
  case pos =>
    have unused : ¬SymbolUsed host id slide size := fun used => used.1 missing
    rw [if_pos missing, if_neg unused]
    exact ⟨code, rfl⟩
  case neg =>
    rw [if_neg missing]
    by_cases inside : slide ≤ symbolAddress host id (some logEnableMaskMinors) ∧
        symbolAddress host id (some logEnableMaskMinors) < slide + BitVec.ofNat 64 size
    case pos =>
      have used : SymbolUsed host id slide size := ⟨missing, inside⟩
      rw [if_pos inside, if_pos used]
      exact ⟨code, rfl⟩
    case neg =>
      have unused : ¬SymbolUsed host id slide size := fun used => inside used.2
      rw [if_neg inside, if_neg unused]
      exact ⟨.invalidSymbolFound, rfl⟩

theorem findLogEnableMaskMinors_run (machine : Machine) :
    (findLogEnableMaskMinors host id slide size).run machine =
      if SymbolUsed host id slide size then
        some (symbolAddress host id (some logEnableMaskMinors), { machine with code := .noError })
      else
        (shouldLogOffset slide size machine.memory).map fun offset =>
          (ripRelative machine.memory (slide + BitVec.ofNat 64 offset),
            { machine with code := .noError }) := by
  obtain ⟨code, solved⟩ := solveSymbolQuietly_run host id slide size machine
  by_cases used : SymbolUsed host id slide size
  case pos =>
    rw [if_pos used] at solved ⊢
    simp only [findLogEnableMaskMinors, run_bind, solved, Option.bind_some, setError, run_modify,
      if_neg used.1, run_pure]
  case neg =>
    rw [if_neg used] at solved ⊢
    simp only [findLogEnableMaskMinors, run_bind, solved, Option.bind_some, setError, run_modify,
      if_true, run_get]
    cases shouldLogOffset slide size machine.memory <;> rfl

theorem enableLogs_outside {machine after : Machine} {writing : Bool}
    (overwrites : OverwritesImage host id slide size writing machine)
    (ran : (enableLogs host writing id slide size).run machine = some ((), after)) {place : Addr}
    (outside : ¬InImage slide size place) : after.memory place = machine.memory place := by
  unfold enableLogs at ran
  obtain ⟨address, found, located, filled⟩ := run_bind_eq_some.mp ran
  cases writing with
  | false => cases filled
  | true =>
      cases filled
      have apart : (Kind.store, place) ∉ (memset 0xFF address 0x80).trace (cells Addr Byte)
          found.memory := fun stored => outside (overwrites address found located rfl _ stored)
      have kept : found.memory = machine.memory := by
        rw [findLogEnableMaskMinors_run] at located
        split_ifs at located
        · cases located
          rfl
        · obtain ⟨offset, -, same⟩ := Option.map_eq_some_iff.mp located
          cases same
          rfl
      exact (Access.run_cells_frame _ _ apart).trans (congrFun kept place)

/--
The mask lies in the image exactly if the symbol is at least as far from its end as the mask is long,
or, without it, the first match of the pattern refers to such a place.
-/
theorem mask_overwrites_image_iff (host : Host) (id : Nat) (slide : Addr) (size : Nat)
    (sized : size < 2 ^ 64) (machine : Machine) (writing : Bool) :
    OverwritesImage host id slide size writing machine ↔
      (writing = true → MaskContained host id slide size machine.memory) := by
  have filled (address : Addr) (memory : Memory) :
      (∀ access ∈ (memset 0xFF address 0x80).trace (cells Addr Byte) memory,
        InImage slide size access.2) ↔ (address - slide).toNat + 0x80 ≤ size := by
    rw [memset_trace, List.forall_mem_map, ← span_inImage_iff sized (by decide)]
    simp only [List.mem_range]
  have ran := findLogEnableMaskMinors_run host id slide size machine
  simp only [OverwritesImage, filled]
  by_cases used : SymbolUsed host id slide size
  case pos =>
    rw [if_pos used] at ran
    simp only [ran, Option.some.injEq, Prod.mk.injEq]
    constructor
    · intro inside allowed
      exact ⟨fun _ => inside _ _ ⟨rfl, rfl⟩ allowed, fun unused => absurd used unused⟩
    · rintro contained _ _ ⟨rfl, rfl⟩ allowed
      exact (contained allowed).bySymbol used
  case neg =>
    rw [if_neg used] at ran
    simp only [ran, Option.map_eq_some_iff, Prod.mk.injEq]
    constructor
    · intro inside allowed
      exact ⟨fun symbol => absurd symbol used,
        fun _ offset found => inside _ _ ⟨offset, found, rfl, rfl⟩ allowed⟩
    · rintro contained _ _ ⟨offset, found, rfl, rfl⟩ allowed
      exact (contained allowed).byPattern used offset found

section Example

def exampleSymbolHost (address : Addr) : Host :=
  { exampleHost ⟨true, true, true, true⟩ with kinfos := [⟨fun _ => address, 0⟩] }

theorem mask_overwrites_image_example :
    OverwritesImage (exampleSymbolHost 0x1F80) 0 0x1000 0x1000 true exampleMachine :=
  (mask_overwrites_image_iff (exampleSymbolHost 0x1F80) 0 0x1000 0x1000 (by decide) exampleMachine
    true).mpr fun _ => ⟨fun _ => by decide, fun unused => absurd (by decide) unused⟩

-- The symbol is the last byte of the image, and the mask goes on behind it.
theorem mask_overwrites_outside_example :
    ¬OverwritesImage (exampleSymbolHost 0x1FFF) 0 0x1000 0x1000 true exampleMachine := by
  intro inside
  have second := inside 0x1FFF exampleMachine rfl rfl (.store, 0x2000) (by
    rw [memset_trace]
    exact List.mem_map.mpr ⟨1, by decide, rfl⟩)
  exact absurd second (by decide)

end Example

end Containment

end NootedDeck.Patcher
