import NootedDeck.Shared.ByteMemory

set_option autoImplicit false

namespace NootedDeck.Patcher

open Bytes Memory

inductive JumpType
  | auto | long | short | medium
  deriving DecidableEq, Repr

def smallJump : Nat := 5
def mediumJump : Nat := 6
def longJump : Nat := 14

-- The three members of `FunctionPatch`: `s`, `m` with the slot that holds the target, and `l`.
inductive JumpForm
  | small
  | slotted (slot : Addr)
  | absolute
  deriving DecidableEq

namespace JumpForm

def size : JumpForm → Nat
  | .small => smallJump
  | .slotted _ => mediumJump
  | .absolute => longJump

def width : JumpForm → Nat
  | .small | .slotted _ => 8
  | .absolute => 16

def opcode : JumpForm → List Byte
  | .small => [0xE9]
  | .slotted _ | .absolute => [0xFF, 0x25]

def argument (origin target : Addr) : JumpForm → BitVec 32
  | .small => (target - (origin + 5#64)).setWidth 32
  | .slotted slot => (slot - (origin + 6#64)).setWidth 32
  | .absolute => 0

def disp (target : Addr) : JumpForm → List Byte
  | .small | .slotted _ => []
  | .absolute => littleEndian 8 target.toNat

def code (origin target : Addr) (form : JumpForm) : List Byte :=
  form.opcode ++ littleEndian 4 (form.argument origin target).toNat ++ form.disp target

end JumpForm

-- `diff != static_cast<mach_vm_address_t>(newArgument)`
def farJump (origin target : Addr) : Bool :=
  decide (((target - (origin + 5#64)).setWidth 32).signExtend 64 ≠ target - (origin + 5#64))

def slotReaches (origin slot : Addr) : Bool :=
  decide (((slot - (origin + 6#64)).setWidth 32).signExtend 64 = slot - (origin + 6#64))

def jumpTarget (memory : Memory) (origin : Addr) : Option Addr :=
  if memory.bytes origin 2 = [0xFF, 0x25] then
    some (memory.load64 (origin + 6#64 + (memory.load32 (origin + 2#64)).signExtend 64))
  else if memory.bytes origin 1 = [0xE9] then
    some (origin + 5#64 + (memory.load32 (origin + 1#64)).signExtend 64)
  else none

def JumpsTo (memory : Memory) (origin target : Addr) : Prop := jumpTarget memory origin = some target

instance (memory : Memory) (origin target : Addr) : Decidable (JumpsTo memory origin target) :=
  inferInstanceAs (Decidable (_ = _))

-- The destination of an earlier route and its type; a null destination is none at all.
def readChain (memory : Memory) (origin : Addr) : Addr × JumpType :=
  if memory.bytes origin 2 = [0xFF, 0x25] then
    let disp := memory.load32 (origin + 2#64)
    (memory.load64 (origin + 6#64 + disp.signExtend 64), if disp ≠ 0 then .medium else .long)
  else if memory.bytes origin 1 = [0xE9] then
    (origin + 5#64 + (memory.load32 (origin + 1#64)).signExtend 64, .short)
  else (0, .auto)

theorem readChain_fst (memory : Memory) (origin : Addr) :
    (readChain memory origin).1 = (jumpTarget memory origin).getD 0 := by
  unfold readChain jumpTarget
  split_ifs <;> rfl

namespace JumpForm

variable {memory : Memory} {origin target : Addr}

theorem code_length (origin target : Addr) (form : JumpForm) :
    (form.code origin target).length = form.size := by
  cases form <;> simp [code, opcode, disp, size, smallJump, mediumJump, longJump]

theorem jumpsTo_small (near : farJump origin target = false)
    (stored : memory.bytes origin smallJump = code origin target .small) :
    JumpsTo memory origin target := by
  rw [smallJump, bytes_add memory origin 1 4, code, disp, List.append_nil, JumpForm.opcode] at stored
  obtain ⟨opcode, argument⟩ := List.append_inj stored rfl
  have relative := load32_of_bytes argument
  have other : memory.bytes origin 2 ≠ [0xFF, 0x25] := by
    rw [bytes_add memory origin 1 1, opcode]
    simp
  rw [JumpsTo, jumpTarget, if_neg other, if_pos opcode]
  simp only [farJump, ne_eq, decide_eq_false_iff_not, not_not] at near
  rw [relative, JumpForm.argument, near, BitVec.add_comm, BitVec.sub_add_cancel]

theorem jumpsTo_cell {cell : Addr} {argument : BitVec 32}
    (reaches : argument.signExtend 64 = cell - (origin + 6#64))
    (stored : memory.bytes origin mediumJump = [0xFF, 0x25] ++ littleEndian 4 argument.toNat)
    (holds : memory.load64 cell = target) : JumpsTo memory origin target := by
  rw [mediumJump, bytes_add memory origin 2 4] at stored
  obtain ⟨opcode, argument⟩ := List.append_inj stored (by simp)
  have relative := load32_of_bytes argument
  rw [JumpsTo, jumpTarget, if_pos opcode, relative, reaches, BitVec.add_comm, BitVec.sub_add_cancel,
    holds]

theorem jumpsTo_slotted {slot : Addr} (reaches : slotReaches origin slot = true)
    (stored : memory.bytes origin mediumJump = code origin target (.slotted slot))
    (holds : memory.load64 slot = target) : JumpsTo memory origin target := by
  refine jumpsTo_cell (of_decide_eq_true reaches) ?_ holds
  simpa [code, disp, opcode, argument] using stored

theorem jumpsTo_absolute (stored : memory.bytes origin longJump = code origin target .absolute) :
    JumpsTo memory origin target := by
  rw [longJump, bytes_add memory origin 6 8] at stored
  obtain ⟨jump, cell⟩ := List.append_inj stored (by simp [opcode])
  have after : (0 : BitVec 32).signExtend 64 = origin + 6#64 - (origin + 6#64) := by
    rw [BitVec.sub_self]
    rfl
  exact jumpsTo_cell after jump (load64_of_bytes cell)

end JumpForm

end NootedDeck.Patcher
