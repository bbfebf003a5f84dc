import NootedDeck.Patcher.RouteFunction

set_option autoImplicit false

namespace NootedDeck.Patcher

open Bytes Interleaving

-- `symbol`, `org`, `pattern` and `mask` are `none` where the source has a null pointer.
structure PatternRouteRequest where
  symbol : Option String
  origin : Addr
  target : Addr
  org : Option Nat
  pattern : Option (List Byte)
  mask : Option (List Byte)

structure JumpPatternRouteRequest extends PatternRouteRequest where
  jumpInstOff : Nat

def solveSymbol (host : Host) (id : Nat) (symbol : String) : Program Machine Addr := do
  let address := (host.kinfos[id]?.map (·.solveSymbol symbol)).getD 0
  if address ≠ 0 then pure address
  else do
    setError .noSymbolFound
    pure 0

def solveSymbolIn (host : Host) (id : Nat) (symbol : String) (start : Addr) (size : Nat) :
    Program Machine Addr := do
  let address ← solveSymbol host id symbol
  if address = 0 ∨ (start ≤ address ∧ address < start + BitVec.ofNat 64 size) then pure address
  else .panic

def jumpInstDestination (memory : Memory) (start stop : Addr) : Addr :=
  let relative (offset : BitVec 64) (instrSize : BitVec 64) : Addr :=
    let result :=
      if offset.slt 0 then
        -- A destination before address zero is no destination.
        if start < -offset then 0 else start - -offset + instrSize
      else start + offset + instrSize
    if stop ≤ result then 0 else result
  if start = 0 ∨ stop = 0 then 0
  else
    let instr := memory start
    if instr = 0x0F then
      if stop < start + 6#64 then 0
      else
        let instr1 := memory (start + 1#64)
        if 0x80 ≤ instr1 ∧ instr1 ≤ 0x8F then
          relative ((memory.load32 (start + 2#64)).signExtend 64) 6
        else 0
    else if instr = 0xE8 ∨ instr = 0xE9 then
      if stop < start + 5#64 then 0
      else relative ((memory.load32 (start + 1#64)).signExtend 64) 5
    else if 0x70 ≤ instr ∧ instr ≤ 0x7F then
      if stop < start + 2#64 then 0
      else relative ((memory (start + 1#64)).signExtend 64) 2
    else 0

namespace PatternRouteRequest

def solveFrom (request : PatternRouteRequest) (host : Host) (id : Nat) (start : Addr) (size : Nat) :
    Program Machine Addr :=
  match request.symbol with
  | none => pure request.origin
  | some symbol => do
      setError .noError
      if start = 0 ∨ size = 0 then solveSymbol host id symbol
      else solveSymbolIn host id symbol start size

def searchFrom (request : PatternRouteRequest) (start : Addr) (size : Nat)
    (destination : Memory → Addr → Option Addr) : Program Machine (Option Addr) :=
  match request.pattern with
  | none | some [] => if request.symbol = none then .panic else pure none
  | some pattern =>
      if start = 0 ∨ size = 0 then .panic
      else do
        let machine ← .get
        match findPattern pattern request.mask (machine.memory.bytes start size) 0 with
        | none => pure none
        | some offset => pure (destination machine.memory (start + BitVec.ofNat 64 offset))

def resolve (request : PatternRouteRequest) (host : Host) (id : Nat) (start : Addr) (size : Nat) :
    Program Machine (Option Addr) := do
  let origin ← request.solveFrom host id start size
  if origin = 0 then request.searchFrom start size fun _ address => some address
  else pure (some origin)

end PatternRouteRequest

def JumpPatternRouteRequest.resolve (request : JumpPatternRouteRequest) (host : Host) (id : Nat)
    (start : Addr) (size : Nat) : Program Machine (Option Addr) := do
  let origin ← request.solveFrom host id start size
  if origin = 0 then
    request.searchFrom start size fun memory address =>
      let origin := jumpInstDestination memory (address + BitVec.ofNat 64 request.jumpInstOff)
        (start + BitVec.ofNat 64 size)
      if origin = 0 then none else some origin
  else pure (some origin)

def eraseCoverage (host : Host) (origin target : Addr) : Program Machine Unit :=
  if target ≠ 0 then eraseCoverageInstPrefix host origin 5 longJump else pure ()

-- `routeMultiple` with a single request whose symbol is null already: its first loop does nothing.
def routeMultiple (host : Host) (id : Nat) (origin target : Addr) (org : Option Nat) :
    Program Machine Bool :=
  if origin = 0 then pure true
  else do
    eraseCoverage host origin target
    -- `kinfos[id]` is not checked in the source.
    if host.kinfos.length ≤ id then .panic
    else do
      let wrapper ← routeFunctionInternal host origin target org.isSome true .auto (some id) org
      -- With an original zero means failure, without one it means success.
      let routed := if org.isSome then decide (wrapper ≠ 0) else decide (wrapper = 0)
      if routed = true then pure true
      else do
        setError .noError
        pure false

def PatternRouteRequest.route (request : PatternRouteRequest) (host : Host) (id : Nat) (start : Addr)
    (size : Nat) : Program Machine Bool := do
  let resolved ← request.resolve host id start size
  match resolved with
  | none => pure false
  | some origin => routeMultiple host id origin request.target request.org

def JumpPatternRouteRequest.route (request : JumpPatternRouteRequest) (host : Host) (id : Nat)
    (start : Addr) (size : Nat) : Program Machine Bool := do
  let resolved ← request.resolve host id start size
  match resolved with
  | none => pure false
  | some origin => do
      let wrapper ← routeFunctionInternal host origin request.target request.org.isSome true .auto
        none none
      if request.org.isSome then
        if wrapper = 0 then pure false
        else do
          storeOriginal request.org wrapper
          pure true
      else pure (decide (wrapper = 0))

inductive RouteRequest
  | pattern (request : PatternRouteRequest)
  | jumpPattern (request : JumpPatternRouteRequest)

namespace RouteRequest

def target : RouteRequest → Addr
  | .pattern request => request.target
  | .jumpPattern request => request.target

def org : RouteRequest → Option Nat
  | .pattern request => request.org
  | .jumpPattern request => request.org

def info (id : Nat) : RouteRequest → Option Nat
  | .pattern _ => some id
  | .jumpPattern _ => none

def resolve (host : Host) (id : Nat) (start : Addr) (size : Nat) :
    RouteRequest → Program Machine (Option Addr)
  | .pattern request => request.resolve host id start size
  | .jumpPattern request => request.resolve host id start size

def prepare (host : Host) (origin : Option Addr) : RouteRequest → Program Machine Unit
  | .pattern request =>
      match origin with
      | none => pure ()
      | some origin => eraseCoverage host origin request.target
  | .jumpPattern _ => pure ()

def route (host : Host) (id : Nat) (start : Addr) (size : Nat) : RouteRequest → Program Machine Bool
  | .pattern request => request.route host id start size
  | .jumpPattern request => request.route host id start size

end RouteRequest

end NootedDeck.Patcher
