import NootedDeck.Shared.ByteMemory
import NootedDeck.Shared.Program

set_option autoImplicit false

namespace NootedDeck.Compression

open Bytes Interleaving Program

-- the size of the ring buffer
def rbsize : Nat := 4096
-- the longest match
def uplim : Nat := 18
def threshold : Nat := 2
-- the index of no node
def nil : Nat := rbsize

structure EncodeState where
  lchild : Nat → Nat
  -- The roots of the trees follow the nodes, one for each character.
  rchild : Nat → Nat
  parent : Nat → Nat
  -- The first bytes of the ring buffer are there once more behind it.
  textBuf : Nat → Byte
  matchPosition : Nat
  matchLength : Nat

def initState : EncodeState where
  lchild := fun _ => 0
  rchild := fun index => if rbsize < index ∧ index ≤ rbsize + 256 then nil else 0
  parent := fun index => if index < rbsize then nil else 0
  textBuf := fun index => if index < rbsize - uplim then 0x20 else 0
  matchPosition := 0
  matchLength := 0

section Cells

variable {α : Type}

def cell (size : Nat) (cells : EncodeState → Nat → α) (index : Nat) : Program EncodeState α := do
  let sp ← .get
  if index < size then pure (cells sp index) else .panic

def setCell (size index : Nat) (update : EncodeState → EncodeState) : Program EncodeState Unit :=
  if index < size then .modify update else .panic

end Cells

def lchildAt : Nat → Program EncodeState Nat := cell (rbsize + 1) (·.lchild)

def rchildAt : Nat → Program EncodeState Nat := cell (rbsize + 257) (·.rchild)

def parentAt : Nat → Program EncodeState Nat := cell (rbsize + 1) (·.parent)

def textAt : Nat → Program EncodeState Byte := cell (rbsize + uplim - 1) (·.textBuf)

def setLchild (index value : Nat) : Program EncodeState Unit :=
  setCell (rbsize + 1) index fun sp => { sp with lchild := Function.update sp.lchild index value }

def setRchild (index value : Nat) : Program EncodeState Unit :=
  setCell (rbsize + 257) index fun sp => { sp with rchild := Function.update sp.rchild index value }

def setParent (index value : Nat) : Program EncodeState Unit :=
  setCell (rbsize + 1) index fun sp => { sp with parent := Function.update sp.parent index value }

def setText (index : Nat) (value : Byte) : Program EncodeState Unit :=
  setCell (rbsize + uplim - 1) index fun sp =>
    { sp with textBuf := Function.update sp.textBuf index value }

def compareStrings (r p : Nat) : Nat → Nat → Int → Program EncodeState (Nat × Int)
  | 0, i, cmp => pure (i, cmp)
  | count + 1, i, _ => do
      let key ← textAt (r + i)
      let text ← textAt (p + i)
      let cmp := (key.toNat : Int) - text.toNat
      if cmp ≠ 0 then pure (i, cmp) else compareStrings r p count (i + 1) cmp

def insertLoop (r : Nat) : Nat → Nat → Int → Program EncodeState (Option Nat)
  | 0, _, _ => .panic
  | fuel + 1, p, cmp => do
      let next ← if 0 ≤ cmp then rchildAt p else lchildAt p
      if next = nil then do
        if 0 ≤ cmp then setRchild p r else setLchild p r
        setParent r p
        pure none
      else do
        let (i, cmp) ← compareStrings r next (uplim - 1) 1 cmp
        let sp ← .get
        if sp.matchLength < i then do
          .modify fun sp => { sp with matchPosition := next, matchLength := i }
          if uplim ≤ i then pure (some next) else insertLoop r fuel next cmp
        else insertLoop r fuel next cmp

def unlink (p q : Nat) : Program EncodeState Unit := do
  let up ← parentAt p
  if (← rchildAt up) = p then setRchild up q else setLchild up q
  setParent p nil

def replaceNode (r p : Nat) : Program EncodeState Unit := do
  setParent r (← parentAt p)
  setLchild r (← lchildAt p)
  setRchild r (← rchildAt p)
  setParent (← lchildAt p) r
  setParent (← rchildAt p) r
  unlink p r

def insertNode (r : Nat) : Program EncodeState Unit := do
  let key ← textAt r
  setLchild r nil
  setRchild r nil
  .modify fun sp => { sp with matchLength := 0 }
  match ← insertLoop r (rbsize + 1) (rbsize + 1 + key.toNat) 1 with
  | none => pure ()
  | some p => replaceNode r p

def lastOnRight : Nat → Nat → Program EncodeState Nat
  | 0, _ => .panic
  | fuel + 1, q => do
      let next ← rchildAt q
      if next = nil then pure q else lastOnRight fuel next

def takeLeft (q p : Nat) : Program EncodeState Unit := do
  setLchild q (← lchildAt p)
  setParent (← lchildAt p) q

def takeRight (q p : Nat) : Program EncodeState Unit := do
  setRchild q (← rchildAt p)
  setParent (← rchildAt p) q

def detachLast (q : Nat) : Program EncodeState Unit := do
  setRchild (← parentAt q) (← lchildAt q)
  setParent (← lchildAt q) (← parentAt q)

def replacement (p : Nat) : Program EncodeState Nat := do
  if (← rchildAt p) = nil then lchildAt p
  else if (← lchildAt p) = nil then rchildAt p
  else do
    let first ← lchildAt p
    if (← rchildAt first) = nil then do
      takeRight first p
      pure first
    else do
      let q ← lastOnRight (rbsize + 1) first
      detachLast q
      takeLeft q p
      takeRight q p
      pure q

def deleteNode (p : Nat) : Program EncodeState Unit := do
  if (← parentAt p) = nil then pure ()
  else do
    let q ← replacement p
    setParent q (← parentAt p)
    unlink p q

structure CodeBuf where
  flags : Byte
  codes : List Byte
  mask : Byte

def CodeBuf.empty : CodeBuf := ⟨0, [], 1⟩

def CodeBuf.put (buf : CodeBuf) (code : Byte) : Program EncodeState CodeBuf :=
  if buf.codes.length + 1 < 17 then pure { buf with codes := buf.codes ++ [code] } else .panic

-- If the destination is too short, what was written to it is left.
def send (dstlen : Nat) : List Byte → List Byte → Except (List Byte) (List Byte)
  | dst, [] => .ok dst
  | dst, code :: rest => if dst.length < dstlen then send dstlen (dst ++ [code]) rest else .error dst

structure Encoder where
  src : List Byte
  dst : List Byte
  buf : CodeBuf
  len : Nat
  s : Nat
  r : Nat

def ring (index : Nat) : Nat := index % rbsize

def Encoder.advanced (encoder : Encoder) : Encoder :=
  { encoder with s := ring (encoder.s + 1), r := ring (encoder.r + 1) }

def readOn : Nat → Encoder → Program EncodeState (Nat × Encoder)
  | 0, encoder => pure (0, encoder)
  | count + 1, encoder =>
      match encoder.src with
      | [] => pure (count + 1, encoder)
      | c :: rest => do
          deleteNode encoder.s
          setText encoder.s c
          if encoder.s < uplim - 1 then setText (encoder.s + rbsize) c
          let encoder := { encoder.advanced with src := rest }
          insertNode encoder.r
          readOn count encoder

def runOut : Nat → Encoder → Program EncodeState Encoder
  | 0, encoder => pure encoder
  | count + 1, encoder => do
      deleteNode encoder.s
      let encoder := { encoder.advanced with len := encoder.len - 1 }
      if encoder.len ≠ 0 then insertNode encoder.r
      runOut count encoder

def codeNext (encoder : Encoder) : Program EncodeState (Nat × CodeBuf) := do
  let sp ← .get
  let matchLength := min sp.matchLength encoder.len
  if matchLength ≤ threshold then do
    let c ← textAt encoder.r
    let buf ← { encoder.buf with flags := encoder.buf.flags ||| encoder.buf.mask }.put c
    pure (1, buf)
  else do
    let position : BitVec 32 := BitVec.ofNat 32 sp.matchPosition
    let buf ← encoder.buf.put (position.setWidth 8)
    let buf ← buf.put (((position >>> 4) &&& 0xF0#32 |||
      BitVec.ofNat 32 (matchLength - (threshold + 1))).setWidth 8)
    pure (matchLength, buf)

def flush (dstlen : Nat) (dst : List Byte) (buf : CodeBuf) : Except (List Byte) (List Byte × CodeBuf) :=
  let buf := { buf with mask := buf.mask <<< 1 }
  if buf.mask = 0 then (send dstlen dst (buf.flags :: buf.codes)).map fun dst => (dst, .empty)
  else .ok (dst, buf)

def encodeLoop (dstlen : Nat) : Nat → Encoder → Program EncodeState (Except (List Byte) Encoder)
  | 0, _ => .panic
  | fuel + 1, encoder => do
      let (matchLength, buf) ← codeNext encoder
      .modify fun sp => { sp with matchLength }
      match flush dstlen encoder.dst buf with
      | .error written => pure (.error written)
      | .ok (dst, buf) => do
          let (left, encoder) ← readOn matchLength { encoder with dst, buf }
          let encoder ← runOut left encoder
          if 0 < encoder.len then encodeLoop dstlen fuel encoder else pure (.ok encoder)

def readFirst : Nat → List Byte → Program EncodeState Unit
  | _, [] => pure ()
  | index, c :: rest => do
      setText index c
      readFirst (index + 1) rest

def insertSpaces (r : Nat) : Nat → Nat → Program EncodeState Unit
  | 0, _ => pure ()
  | count + 1, i => do
      insertNode (r - i)
      insertSpaces r count (i + 1)

def sendRemaining (dstlen : Nat) (encoder : Encoder) : Except (List Byte) (List Byte) :=
  if 0 < encoder.buf.codes.length then send dstlen encoder.dst (encoder.buf.flags :: encoder.buf.codes)
  else .ok encoder.dst

def compressLzss (allocated : Bool) (dstlen : Nat) (src : List Byte) :
    Program EncodeState (Except (List Byte) (List Byte)) :=
  if allocated = false then pure (.error [])
  else do
    .modify fun _ => initState
    let r := rbsize - uplim
    let first := src.take uplim
    readFirst r first
    if first.length = 0 then pure (.error [])
    else do
      insertSpaces r uplim 1
      insertNode r
      let coded ← encodeLoop dstlen src.length ⟨src.drop uplim, [], .empty, first.length, 0, r⟩
      pure (coded.bind (sendRemaining dstlen))

structure Decoder where
  src : List Byte
  dst : List Byte
  textBuf : Nat → Byte
  r : Nat
  flags : BitVec 32

def Decoder.output (decoder : Decoder) (c : Byte) : Decoder :=
  { decoder with
    dst := decoder.dst ++ [c]
    textBuf := Function.update decoder.textBuf decoder.r c
    r := ring (decoder.r + 1) }

-- A full destination ends the copying, but not the decoding.
def copyFrom (dstlen i : Nat) : Nat → Nat → Decoder → Decoder
  | 0, _, decoder => decoder
  | count + 1, k, decoder =>
      if decoder.dst.length < dstlen then
        copyFrom dstlen i count (k + 1) (decoder.output (decoder.textBuf (ring (i + k))))
      else decoder

def decodeUnit (dstlen : Nat) (decoder : Decoder) : Decoder × Bool :=
  if decoder.flags &&& 1 ≠ 0 then
    match decoder.src with
    | [] => (decoder, false)
    | c :: rest =>
        let decoder := { decoder with src := rest }
        if decoder.dst.length < dstlen then (decoder.output c, true) else (decoder, false)
  else
    match decoder.src with
    | i :: j :: rest =>
        let position := i.toNat ||| (j.toNat &&& 0xF0) <<< 4
        let count := (j.toNat &&& 0x0F) + threshold + 1
        (copyFrom dstlen position count 0 { decoder with src := rest }, true)
    | _ => ({ decoder with src := [] }, false)

-- There is no result if the loop goes on for too long.
def decodeLoop (dstlen : Nat) : Nat → Decoder → Option Decoder
  | 0, _ => none
  | fuel + 1, decoder =>
      let decoder := { decoder with flags := decoder.flags >>> 1 }
      if decoder.flags &&& 0x100 = 0 then
        match decoder.src with
        | [] => some decoder
        | c :: rest =>
            let (decoder, more) := decodeUnit dstlen
              { decoder with src := rest, flags := c.setWidth 32 ||| 0xFF00 }
            if more then decodeLoop dstlen fuel decoder else some decoder
      else
        let (decoder, more) := decodeUnit dstlen decoder
        if more then decodeLoop dstlen fuel decoder else some decoder

-- The buffer is not initialised where the first bytes go.
def Decoder.start (uninitialised : Nat → Byte) (src : List Byte) : Decoder where
  src
  dst := []
  textBuf := fun index => if index < rbsize - uplim then 0x20 else uninitialised index
  r := rbsize - uplim
  flags := 0

def decompressLzss (uninitialised : Nat → Byte) (dstlen : Nat) (src : List Byte) : Option (List Byte) :=
  (decodeLoop dstlen (src.length + 1) (.start uninitialised src)).map (·.dst)

def modeLzvn : BitVec 32 := 0x6E767A6C
def modeLzss : BitVec 32 := 0x73737A6C
def modeZlib : BitVec 32 := 0x9C787A6C

structure Decoders where
  lzvn : Nat → List Byte → List Byte
  zlib : Nat → List Byte → List Byte

def decode (decoders : Decoders) (uninitialised : Nat → Byte) (compression : BitVec 32) (dstlen : Nat)
    (src : List Byte) : Option (List Byte) :=
  if compression = modeLzss then decompressLzss uninitialised dstlen src
  else if compression = modeLzvn then some (decoders.lzvn dstlen src)
  else if compression = modeZlib then some (decoders.zlib dstlen src)
  else some []

def decompressInternal (decoders : Decoders) (uninitialised : Nat → Byte) (allocated checkResult : Bool)
    (compression : BitVec 32) (dstlen : Nat) (src : List Byte) : Option (Option (List Byte)) :=
  if allocated = false then some none
  else
    (decode decoders uninitialised compression dstlen src).map fun decompressed =>
      if checkResult = false ∨ decompressed.length = dstlen then some decompressed else none

def compress (allocated stateAllocated : Bool) (compression : BitVec 32) (dstlen : Nat) (src : List Byte) :
    Program EncodeState (Except (List Byte) (List Byte)) :=
  if allocated = false then pure (.error [])
  else if compression = modeLzss then compressLzss stateAllocated dstlen src
  else pure (.error [])

end NootedDeck.Compression
