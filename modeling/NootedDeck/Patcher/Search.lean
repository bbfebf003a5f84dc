import NootedDeck.Shared.ByteMemory
import NootedDeck.Shared.Windows

set_option autoImplicit false

namespace NootedDeck.Patcher

open Bytes Windows

inductive Error
  | noError | noKinfoFound | noSymbolFound | kernInitFailure | kernRunningInitFailure
  | kextListeningFailure | disasmFailure | memoryIssue | memoryProtection | pointerRange
  | alreadyDone | lockError | unsupported | invalidSymbolFound
  deriving DecidableEq, Repr

def matchesAt (pattern : List Byte) (mask : Option (List Byte)) (data : List Byte)
    (offset : Nat) : Bool :=
  (List.range pattern.length).all fun i =>
    match mask with
    | none => data[offset + i]? == pattern[i]?
    | some mask => data[offset + i]?.map (· &&& mask.getD i 0) == pattern[i]?

-- The offset of the first match from `dataOffset` on, as `*dataOffset` holds it on success.
def findPattern (pattern : List Byte) (mask : Option (List Byte)) (data : List Byte)
    (dataOffset : Nat) : Option Nat :=
  if pattern.length = 0 ∨ data.length < pattern.length then none
  else
    -- The source runs while `currOffset <= lastOffset`: the last window is searched too.
    firstIn (matchesAt pattern mask data) dataOffset (data.length - pattern.length + 1)

def maskedReplacement (replace : List Byte) (replaceMask : Option (List Byte))
    (old : List Byte) : List Byte :=
  match replaceMask with
  | none => replace
  | some mask =>
      List.zipWith (fun byte (new : Byte × Byte) => (byte &&& ~~~new.2) ||| (new.1 &&& new.2))
        old (replace.zip mask)

-- `writable n` is whether kernel writing could be enabled for the replacement number `n`. The cursor
-- moves on in every round, so the length of the data bounds the rounds.
def replaceLoop (writable : Nat → Bool) (find : List Byte) (findMask : Option (List Byte))
    (replace : List Byte) (replaceMask : Option (List Byte)) :
    Nat → List Byte → Nat → Nat → Nat → Nat → Bool × List Byte
  | 0, data, _, _, _, replCount => (decide (0 < replCount), data)
  | fuel + 1, data, dataOffset, count, skip, replCount =>
      match findPattern find findMask data dataOffset with
      | none => (decide (0 < replCount), data)
      | some place =>
          if 0 < skip then
            replaceLoop writable find findMask replace replaceMask fuel data
              (place + find.length) count (skip - 1) replCount
          else if writable replCount = false then (false, data)
          else
            let new := overwrite data place
              (maskedReplacement replace replaceMask (window data place find.length))
            if count = 1 then (true, new)
            else
              replaceLoop writable find findMask replace replaceMask fuel new
                (place + replace.length) (count - 1) 0 (replCount + 1)

def findAndReplaceWithMask (writable : Nat → Bool) (data find : List Byte)
    (findMask : Option (List Byte)) (replace : List Byte) (replaceMask : Option (List Byte))
    (count skip : Nat) : Bool × List Byte :=
  if data.length < find.length then (false, data)
  else
    replaceLoop writable find findMask replace replaceMask (data.length + 1) data 0 count skip 0

theorem matchesAt_none_iff (pattern data : List Byte) (offset : Nat) :
    matchesAt pattern none data offset = true ↔ window data offset pattern.length = pattern := by
  simp only [matchesAt, List.all_eq_true, List.mem_range, beq_iff_eq, window_eq_iff]

theorem and_allOnes (byte : Byte) : byte &&& 0xFF = byte := BitVec.and_allOnes

theorem matchesAt_allOnes (pattern data : List Byte) (offset : Nat) :
    matchesAt pattern (some (List.replicate pattern.length 0xFF)) data offset =
      matchesAt pattern none data offset := by
  unfold matchesAt
  rw [Bool.eq_iff_iff, List.all_eq_true, List.all_eq_true]
  apply forall₂_congr
  intro index member
  have within := List.mem_range.mp member
  have ones : (fun byte : Byte => byte &&& (List.replicate pattern.length 0xFF).getD index 0) = id := by
    funext byte
    simp only [List.getD_eq_getElem?_getD, List.getElem?_replicate, within, if_true,
      Option.getD_some, and_allOnes, id]
  simp only [ones, Option.map_id_fun, id]

theorem findPattern_allOnes (pattern data : List Byte) (offset : Nat) :
    findPattern pattern (some (List.replicate pattern.length 0xFF)) data offset =
      findPattern pattern none data offset := by
  simp only [findPattern, funext (matchesAt_allOnes pattern data)]

theorem maskedReplacement_allOnes (replace old : List Byte) (sized : old.length = replace.length) :
    maskedReplacement replace (some (List.replicate replace.length 0xFF)) old = replace := by
  apply List.ext_getElem
  · simp [maskedReplacement, sized]
  · intro index left right
    simpa [maskedReplacement] using and_allOnes replace[index]

theorem findPattern_eq_some {pattern data : List Byte} {mask : Option (List Byte)}
    {start place : Nat} :
    findPattern pattern mask data start = some place ↔
      0 < pattern.length ∧ matchesAt pattern mask data place = true ∧ start ≤ place ∧
        place + pattern.length ≤ data.length ∧
        ∀ earlier, start ≤ earlier → earlier < place →
          matchesAt pattern mask data earlier = false := by
  unfold findPattern
  split_ifs with short
  · simp only [false_iff]
    rintro ⟨positive, -, -, fits, -⟩
    omega
  · rw [firstIn_eq_some]
    constructor
    · rintro ⟨here, low, high, least⟩
      exact ⟨by omega, here, low, by omega, least⟩
    · rintro ⟨-, here, low, fits, least⟩
      exact ⟨here, low, by omega, least⟩

end NootedDeck.Patcher
