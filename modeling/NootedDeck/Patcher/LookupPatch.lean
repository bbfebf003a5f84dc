import NootedDeck.Patcher.Search
import Mathlib.Tactic.SplitIfs

set_option autoImplicit false

namespace NootedDeck.Patcher

open Bytes Windows

-- Where a kext runs and what it holds there. Kernel pointers never reach the ends of the address
-- space, so pointer arithmetic is on unbounded integers.
structure Image where
  address : Int
  bytes : List Byte
  deriving DecidableEq

def Image.window (image : Image) (address : Int) (size : Nat) : List Byte :=
  Windows.window image.bytes (address - image.address).toNat size

def Image.write (image : Image) (address : Int) (bytes : List Byte) : Image :=
  { image with bytes := overwrite image.bytes (address - image.address).toNat bytes }

inductive LoadIndex
  | unloaded
  | loaded
  deriving DecidableEq, Repr

structure LookupPatch where
  kext : Option LoadIndex
  find : List Byte
  replace : List Byte
  count : Nat
  sized : replace.length = find.length

def LookupPatch.size (patch : LookupPatch) : Nat := patch.find.length

-- `while (currentAddress < endingAddress && memcmp(..) != 0) currentAddress++`
def lookupScan (patch : LookupPatch) (image : Image) (endingAddress : Int) : Nat → Int → Int
  | 0, currentAddress => currentAddress
  | fuel + 1, currentAddress =>
      if currentAddress < endingAddress ∧ image.window currentAddress patch.size ≠ patch.find then
        lookupScan patch image endingAddress fuel (currentAddress + 1)
      else currentAddress

-- The number of changes and the new image. It is `none` where the source never returns: a patch
-- without a count whose replacement matches again.
def lookupLoop (patch : LookupPatch) (endingAddress : Int) :
    Nat → Nat → Int → Image → Nat → Option (Nat × Image)
  | 0, i, currentAddress, image, changes =>
      if currentAddress < endingAddress ∧ (i < patch.count ∨ patch.count = 0) then none
      else some (changes, image)
  | fuel + 1, i, currentAddress, image, changes =>
      if currentAddress < endingAddress ∧ (i < patch.count ∨ patch.count = 0) then
        let currentAddress := lookupScan patch image endingAddress
          (endingAddress - currentAddress).toNat currentAddress
        if currentAddress ≠ endingAddress then
          lookupLoop patch endingAddress fuel (i + 1) currentAddress
            (image.write currentAddress patch.replace) (changes + 1)
        else lookupLoop patch endingAddress fuel (i + 1) currentAddress image changes
      else some (changes, image)

def uintptrMax : Int := 2 ^ 64 - 1

def applyLookupPatch (enable disable : Bool) (patch : LookupPatch) (image : Image)
    (startingAddress : Int) (maxSize : Nat) (code : Error) : Option (Error × Image) :=
  if patch.kext = some .unloaded then some (.memoryIssue, image)
  else
    let kextAddress := image.address
    -- The kernel's size is not known, the source assumes the maximum.
    let kextSize : Int := if patch.kext = none then uintptrMax - kextAddress else image.bytes.length
    let currentAddress := if kextAddress < startingAddress then startingAddress else kextAddress
    let lastAddress := kextAddress + kextSize
    let endingAddress :=
      (if 0 < maxSize ∧ startingAddress + maxSize < lastAddress then startingAddress + maxSize
        else lastAddress) - patch.size
    if enable = false then some (.memoryProtection, image)
    else
      let fuel := if patch.count = 0 then (endingAddress - currentAddress).toNat + 1 else patch.count
      (lookupLoop patch endingAddress fuel 0 currentAddress image 0).map fun (changes, image) =>
        if disable = false then (.memoryProtection, image)
        else if changes ≠ patch.count then (.memoryIssue, image)
        else (code, image)

structure MaskedLookupPatch extends LookupPatch where
  findMask : Option (List Byte)
  replaceMask : Option (List Byte)
  skip : Nat

structure Writing where
  enable : Bool
  disable : Bool
  replacement : Nat → Bool

def MaskedLookupPatch.apply (writing : Writing) (patch : MaskedLookupPatch) (image : Image)
    (start : Int) (size : Nat) : Option (Bool × Image) :=
  if patch.findMask = none ∧ patch.replaceMask = none ∧ patch.skip = 0 then
    (applyLookupPatch writing.enable writing.disable patch.toLookupPatch image start size
      .noError).map fun (code, image) => (decide (code = .noError), image)
  else if start = 0 ∨ size = 0 then none
  else
    let data := image.window start size
    let result := findAndReplaceWithMask writing.replacement data patch.find patch.findMask
      patch.replace patch.replaceMask patch.count patch.skip
    some (result.1, image.write start result.2)

end NootedDeck.Patcher
