import NootedDeck.Vbios.Vfct

set_option autoImplicit false

namespace NootedDeck.Vbios

inductive Source where
  | property
  | vfctStrict
  | vram
  | expansionROM
  | vfctRelaxed
deriving DecidableEq

def Image.contents (image : Image) : List (BitVec 8) := (List.range image.size).map image.bytes

structure Copy where
  source : Source
  contents : List (BitVec 8)
deriving DecidableEq

inductive Mapping where
  | bar0
  | expansionROM
deriving DecidableEq

structure Gpu where
  layout : VfctLayout
  ids : DeviceIds
  binImage : Option Image
  platformExpert : Bool
  vfct : Option Image
  -- `OSData` counts its bytes in 32 bits
  vfctShort : ∀ table ∈ vfct, table.size < 2 ^ 32
  bar0 : Option Image
  expansionROM : Option Image
  atombiosImageSize : Nat
  imageSizeShort : atombiosImageSize < 2 ^ 32
  -- what lies behind the buffer the expansion ROM is copied to
  behindCopy : Nat → BitVec 8
  allocates : Source → Bool

structure Fetch where
  vbiosData : Option Copy
  expansionROMBase : BitVec 32
  mapped : List Mapping
deriving DecidableEq

def Fetch.map (fetch : Fetch) (mapping : Mapping) : Fetch :=
  { fetch with mapped := mapping :: fetch.mapped }

def Fetch.release (fetch : Fetch) (mapping : Mapping) : Fetch :=
  { fetch with mapped := fetch.mapped.erase mapping }

-- The first three are the panics of the source; the last is a loop that would not end.
inductive Stop where
  | noPlatformExpert
  | emptyVFCT
  | allocation
  | endless
deriving DecidableEq

variable (gpu : Gpu)

def withBytes (source : Source) (image : Image) (fetch : Fetch) : Except Stop Fetch :=
  if gpu.allocates source then .ok { fetch with vbiosData := some ⟨source, image.contents⟩ }
  else .error .allocation

def vfctSource (strict : Bool) : Source := if strict then .vfctStrict else .vfctRelaxed

def getVBIOSFromVFCT (strict : Bool) (fetch : Fetch) : Except Stop (Bool × Fetch) :=
  if gpu.platformExpert then
    match gpu.vfct with
    | none => .ok (false, fetch)
    | some table =>
        if table.size = 0 then .error .emptyVFCT
        else
          match (searchVFCT gpu.layout gpu.ids strict table.size).value table.bytes with
          | .absent => .ok (false, fetch)
          | .unfinished => .error .endless
          | .found start length => do
              let copied ← withBytes gpu (vfctSource strict)
                ⟨fun place => table.bytes (start + place), length⟩ fetch
              return (true, copied)
  else .error .noPlatformExpert

def vramSize : Nat := 256 * 1024

def getVBIOSFromVRAM (fetch : Fetch) : Except Stop (Bool × Fetch) :=
  match gpu.bar0 with
  | none => .ok (false, fetch)
  | some bar0 =>
      let mapped := fetch.map .bar0
      if bar0.size = 0 then .ok (false, mapped.release .bar0)
      else if (checkATOMBIOS vramSize).value bar0.bytes then do
        -- the size is fixed, whatever the length of the mapping
        let copied ← withBytes gpu .vram ⟨bar0.bytes, vramSize⟩ mapped
        return (true, copied.release .bar0)
      else .ok (false, mapped.release .bar0)

def getVBIOSFromExpansionROM (fetch : Fetch) : Except Stop (Bool × Fetch) :=
  let expansionROMBase := fetch.expansionROMBase
  if expansionROMBase = 0 then .ok (false, fetch)
  else
    match gpu.expansionROM with
    | none => .ok (false, fetch)
    | some rom =>
        let mapped := fetch.map .expansionROM
        let length := min rom.size gpu.atombiosImageSize
        if length = 0 then .ok (false, mapped.release .expansionROM)
        else do
          let enabled := { mapped with expansionROMBase := expansionROMBase ||| 1 }
          let copied ← withBytes gpu .expansionROM
            ⟨rom.bytes, (BitVec.ofNat 32 length).toNat⟩ enabled
          let disabled :=
            { copied.release .expansionROM with expansionROMBase := expansionROMBase }
          -- the copy is checked, not the ROM
          let buffer := fun place => if place < length then rom.bytes place else gpu.behindCopy place
          if (checkATOMBIOS length).value buffer then return (true, disabled)
          else return (false, { disabled with vbiosData := none })

def orTry (first : Except Stop (Bool × Fetch)) (next : Fetch → Except Stop (Bool × Fetch)) :
    Except Stop (Bool × Fetch) := do
  let (found, fetch) ← first
  if found then return (true, fetch) else next fetch

def getVBIOSFallbacks (fetch : Fetch) : Except Stop (Bool × Fetch) :=
  orTry (getVBIOSFromVFCT gpu true fetch) fun fetch =>
    orTry (getVBIOSFromVRAM gpu fetch) fun fetch =>
      orTry (getVBIOSFromExpansionROM gpu fetch) fun fetch =>
        getVBIOSFromVFCT gpu false fetch

def getVBIOS (fetch : Fetch) : Except Stop (Bool × Fetch) :=
  match gpu.binImage with
  | none => getVBIOSFallbacks gpu fetch
  | some image =>
      if image.Accepted then
        -- the result of `OSData::withData` is not looked at
        let copied := if gpu.allocates .property then some ⟨.property, image.contents⟩ else none
        .ok (true, { fetch with vbiosData := copied })
      else getVBIOSFallbacks gpu fetch

end NootedDeck.Vbios
