import NootedDeck.Shared.Program
import NootedDeck.Patcher.Jump
import NootedDeck.Patcher.Search

set_option autoImplicit false

namespace NootedDeck.Patcher

open Bytes Interleaving

structure Decoder where
  length : Memory → Addr → Option Nat
  positive : ∀ memory address size, length memory address = some size → 0 < size

def sizeLoop (decoder : Decoder) (memory : Memory) (min : Nat) : Nat → Addr → Nat → Nat
  | 0, _, total => total
  | fuel + 1, addr, total =>
      match decoder.length memory addr with
      | none => 0
      | some len =>
          if total + len < min then
            sizeLoop decoder memory min fuel (addr + BitVec.ofNat 64 len) (total + len)
          else total + len

def quickInstructionSize (decoder : Decoder) (memory : Memory) (addr : Addr) (min : Nat) : Nat :=
  -- An instruction has at least one byte, so `min` rounds are enough.
  sizeLoop decoder memory min (min + 1) addr 0

structure Grants where
  opcode : Bool
  argument : Bool
  disp : Bool
  writing : Bool

structure MachInfo where
  solveSymbol : String → Addr
  addressSlotsEnd : Addr

-- What the patcher finds around it. `inner` is granted to the route at the end of a trampoline.
structure Host where
  decoder : Decoder
  tempExecutableMemory : Addr
  kinfos : List MachInfo
  coverageWriting : Nat → Bool
  trampolineWriting : Bool
  outer : Grants
  inner : Grants

structure Given where
  coverageWriting : Nat → Bool
  trampolineWriting : Bool
  outer : Grants
  inner : Grants

def Host.under (host : Host) (given : Given) : Host :=
  { host with
    coverageWriting := given.coverageWriting
    trampolineWriting := given.trampolineWriting
    outer := given.outer
    inner := given.inner }

-- What the patcher changes. `originals` are the variables that the requests' `org` point to.
structure Machine where
  memory : Memory
  originals : Nat → Addr
  code : Error
  tempExecutableMemoryOff : Nat
  addressSlots : Nat → Addr

def tempExecutableMemorySize : Nat := 4096
def pageSize : Nat := 4096
def einval : Addr := 22

namespace Machine

def write (machine : Machine) (address : Addr) (data : List Byte) : Machine :=
  { machine with memory := machine.memory.store address data }

def setOriginal (machine : Machine) (org : Option Nat) (trampoline : Addr) : Machine :=
  match org with
  | none => machine
  | some slot =>
      { machine with originals := Function.update machine.originals slot trampoline }

end Machine

def setError (code : Error) : Program Machine Unit := .modify fun machine => { machine with code }

def store (address : Addr) (data : List Byte) : Program Machine Unit :=
  .modify fun machine => machine.write address data

def storeOriginal (org : Option Nat) (trampoline : Addr) : Program Machine Unit :=
  .modify fun machine => machine.setOriginal org trampoline

def getAddressSlot (host : Host) (id : Nat) : Program Machine Addr := do
  let machine ← .get
  let slot := machine.addressSlots id
  let slotsEnd := (host.kinfos[id]?.map (·.addressSlotsEnd)).getD 0
  if slot ≠ 0 ∧ slot + 8#64 ≤ slotsEnd then
    .modify fun machine =>
      { machine with addressSlots := Function.update machine.addressSlots id (slot + 8#64) }
    pure slot
  else pure 0

def jumpForm (absolute : Bool) (addressSlot : Addr) : JumpForm :=
  if addressSlot ≠ 0 then .slotted addressSlot else if absolute then .absolute else .small

def writeCode (origin target : Addr) (form : JumpForm) (kept : List Byte) : Program Machine Unit :=
  if origin.toNat % form.width = 0 then
    -- An aligned patch is swapped in whole, with the bytes of the function that follow it.
    store origin (form.code origin target ++ kept)
  else do
    if form = .absolute then store (origin + 6#64) (form.disp target)
    store origin form.opcode
    store (origin + BitVec.ofNat 64 form.opcode.length)
      (littleEndian 4 (form.argument origin target).toNat)

def writeJump (origin target : Addr) (form : JumpForm) (kept : List Byte) : Program Machine Unit :=
  match form with
  | .slotted slot => do
      store slot (littleEndian 8 target.toNat)
      writeCode origin target form kept
  | .small | .absolute => writeCode origin target form kept

def installJump (grants : Grants) (origin target : Addr) (absolute kernelRoute : Bool)
    (addressSlot : Addr) : Program Machine Bool := do
  let form := jumpForm absolute addressSlot
  let machine ← .get
  let kept := machine.memory.bytes (origin + BitVec.ofNat 64 form.size) (form.width - form.size)
  if grants.opcode = false ∨ grants.argument = false ∨ (absolute = true ∧ grants.disp = false) then
    setError .memoryIssue
    pure false
  else if kernelRoute = true ∧ grants.writing = false then
    setError .memoryProtection
    pure false
  -- A slot taken over from an earlier route may come without its patch, which is then used.
  else if addressSlot ≠ 0 ∧ grants.disp = false then .panic
  else do
    writeJump origin target form kept
    pure true

def wrapperSlot (host : Host) (absolute : Bool) (jumpType : JumpType) :
    Option Nat → Program Machine Addr
  | none => pure 0
  | some id =>
      if absolute = true ∧ (jumpType = .auto ∨ jumpType = .long) then getAddressSlot host id
      else pure 0

def selectTrampoline (createTrampoline : Addr → Nat → Program Machine Addr) (host : Host)
    (origin : Addr) (buildWrapper absolute : Bool) (jumpType : JumpType) (info : Option Nat) :
    Program Machine (Option (Addr × Addr)) := do
  let machine ← .get
  let (chain, prevJump) := readChain machine.memory origin
  if chain ≠ 0 then
    -- An unconditional route over an earlier one forgets where that one led.
    let trampoline := if buildWrapper then chain else 0
    if prevJump = .short ∨ jumpType = .short then .panic
    else if prevJump = .medium then
      match info with
      | none => .panic
      | some id => do
          let addressSlot ← getAddressSlot host id
          if addressSlot = 0 then .panic else pure (some (trampoline, addressSlot))
    else pure (some (trampoline, 0))
  else if buildWrapper then do
    let addressSlot ← wrapperSlot host absolute jumpType info
    let trampoline ← createTrampoline origin
      (if absolute then (if addressSlot ≠ 0 then mediumJump else longJump) else smallJump)
    pure (if trampoline = 0 then none else some (trampoline, addressSlot))
  else pure (some (0, 0))

-- `routeFunctionInternal` up to the `createTrampoline` it calls, which calls it in turn.
def routeWith (createTrampoline : Addr → Nat → Program Machine Addr) (host : Host) (grants : Grants)
    (origin target : Addr) (buildWrapper kernelRoute : Bool) (jumpType : JumpType)
    (info : Option Nat) (org : Option Nat) : Program Machine Addr := do
  let absolute := farJump origin target || jumpType = .long
  if jumpType = .short ∧ absolute = true then
    setError .memoryIssue
    pure einval
  else do
    let selected ← selectTrampoline createTrampoline host origin buildWrapper absolute jumpType info
    match selected with
    | none => pure einval
    | some (trampoline, addressSlot) => do
        storeOriginal org trampoline
        let installed ← installJump grants origin target absolute kernelRoute addressSlot
        pure (if installed then trampoline else einval)

def createTrampoline (host : Host) (func : Addr) (min : Nat) : Program Machine Addr := do
  if host.trampolineWriting = false then
    setError .memoryProtection
    pure 0
  else do
    let machine ← .get
    let off := quickInstructionSize host.decoder machine.memory func min
    if off = 0 ∨ pageSize - longJump < off then
      setError .disasmFailure
      pure 0
    else do
      let tempDataPtr :=
        host.tempExecutableMemory + BitVec.ofNat 64 machine.tempExecutableMemoryOff
      let used := machine.tempExecutableMemoryOff + off + longJump
      -- The memory stays used when there turns out not to be enough of it.
      .modify fun machine => { machine with tempExecutableMemoryOff := used }
      if tempExecutableMemorySize ≤ used then
        setError .disasmFailure
        pure 0
      else do
        store tempDataPtr (machine.memory.bytes func off)
        setError .noError
        -- The wrapper is not asked for, so no further trampoline is made.
        let _ ← routeWith (fun _ _ => pure 0) host host.inner (tempDataPtr + BitVec.ofNat 64 off)
          (func + BitVec.ofNat 64 off) false true .auto none none
        let routed ← .get
        pure (if routed.code = .noError then tempDataPtr else 0)

def routeFunctionInternal (host : Host) (origin target : Addr) (buildWrapper kernelRoute : Bool)
    (jumpType : JumpType) (info : Option Nat) (org : Option Nat) : Program Machine Addr :=
  routeWith (createTrampoline host) host host.outer origin target buildWrapper kernelRoute jumpType
    info org

def nopBytes : Nat → Addr → Program Machine Unit
  | 0, _ => pure ()
  | count + 1, addr => do
      store addr [0x90]
      nopBytes count (addr + 1#64)

def eraseCoverageLoop (host : Host) (limit : Int) : Nat → Nat → Addr → Nat → Program Machine Unit
  | 0, _, _, _ => pure ()
  | count + 1, i, addr, totalInstSize => do
      let machine ← .get
      let instSize := quickInstructionSize host.decoder machine.memory addr 1
      if instSize = 0 then pure ()
      else do
        -- `inc qword ptr [rip + disp32]`
        if instSize = 7 ∧ machine.memory.bytes addr 3 = [0x48, 0xFF, 0x05] ∧
            host.coverageWriting i = true then
          nopBytes 7 addr
        if 0 < limit ∧ limit ≤ (totalInstSize + instSize : Nat) then pure ()
        else
          eraseCoverageLoop host limit count (i + 1) (addr + BitVec.ofNat 64 instSize)
            (totalInstSize + instSize)

def eraseCoverageInstPrefix (host : Host) (addr : Addr) (count : Nat) (limit : Int) :
    Program Machine Unit :=
  eraseCoverageLoop host limit count 0 addr 0

end NootedDeck.Patcher
