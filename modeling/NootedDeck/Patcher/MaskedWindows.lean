import NootedDeck.Patcher.LookupPatch

set_option autoImplicit false

namespace NootedDeck.Patcher

open Bytes Windows

section Reference

def newByte (replace : List Byte) (replaceMask : Option (List Byte)) (index : Nat) (byte : Byte) :
    Byte :=
  match replaceMask with
  | none => replace.getD index 0
  | some mask => (byte &&& ~~~mask.getD index 0) ||| (replace.getD index 0 &&& mask.getD index 0)

def keep (count : Nat) (places : List Nat) : List Nat :=
  if count = 0 then places else places.take count

theorem keep_cons (count place : Nat) (rest : List Nat) :
    keep count (place :: rest) =
      if count = 1 then [place] else place :: keep (count - 1) rest := by
  match count with
  | 0 => rfl
  | 1 => rfl
  | count + 2 => simp [keep]

def permitted (writable : Nat → Bool) : Nat → List Nat → List Nat
  | _, [] => []
  | number, place :: rest =>
      if writable number then place :: permitted writable (number + 1) rest else []

end Reference

section Loop

variable {find replace : List Byte} {findMask replaceMask : Option (List Byte)}

theorem newByte_beyond {mask : List Byte} {index : Nat} (beyond : mask.length ≤ index) :
    newByte replace (some mask) index = id := by
  funext byte
  have zero : mask.getD index 0 = 0 := by
    rw [List.getD_eq_getElem?_getD, List.getElem?_eq_none beyond, Option.getD_none]
  have nothing : replace.getD index 0 &&& (0 : Byte) = 0 := BitVec.and_zero
  have everything : byte &&& ~~~(0 : Byte) = byte := and_allOnes byte
  simp only [newByte, zero, nothing, everything]
  exact BitVec.or_zero

theorem overwrite_eq_changeWindow {data bytes : List Byte} {place size : Nat}
    {change : Nat → Byte → Byte} (fits : place + size ≤ data.length) (short : bytes.length ≤ size)
    (written : ∀ index < bytes.length, bytes[index]? = data[place + index]?.map (change index))
    (kept : ∀ index, bytes.length ≤ index → index < size → change index = id) :
    overwrite data place bytes = changeWindow change size data place := by
  apply List.ext_getElem?
  intro index
  rw [overwrite_getElem? (by omega), changeWindow_getElem?]
  by_cases covered : place ≤ index ∧ index < place + size
  case neg => rw [if_neg (by omega), if_neg covered]
  case pos =>
    obtain ⟨offset, rfl⟩ := Nat.exists_eq_add_of_le covered.1
    rw [if_pos covered, Nat.add_sub_cancel_left]
    by_cases reached : offset < bytes.length
    · rw [if_pos (by omega), written offset reached]
    · rw [if_neg (by omega), kept offset (by omega) (by omega), Option.map_id, id]

theorem overwrite_maskedReplacement (replaceMask : Option (List Byte)) {data : List Byte}
    {place : Nat} (sized : replace.length = find.length) (fits : place + find.length ≤ data.length) :
    overwrite data place (maskedReplacement replace replaceMask (window data place find.length)) =
      changeWindow (newByte replace replaceMask) find.length data place := by
  have length := window_length fits
  have old : ∀ index < find.length,
      (window data place find.length)[index]? = data[place + index]? := by
    intro index within
    rw [window_getElem?, if_pos within]
  cases replaceMask with
  | none =>
      apply overwrite_eq_changeWindow fits (Nat.le_of_eq sized)
      · intro index within
        have inData : place + index < data.length := by omega
        have inNew : index < replace.length := within
        simp [newByte, inData, inNew]
      · intro index beyond within
        have inNew : replace.length ≤ index := beyond
        omega
  | some mask =>
      have written : (maskedReplacement replace (some mask) (window data place find.length)).length =
          min find.length mask.length := by
        simp [maskedReplacement, sized, length]
      apply overwrite_eq_changeWindow fits (by omega)
      · intro index within
        have inData : place + index < data.length := by omega
        have inNew : index < replace.length := by omega
        have inMask : index < mask.length := by omega
        simp only [maskedReplacement, List.getElem?_zipWith, old index (by omega)]
        simp [newByte, inData, inNew, inMask]
      · intro index beyond within
        exact newByte_beyond (by omega)

theorem matchesAt_congr {pattern data other : List Byte} {mask : Option (List Byte)} {place : Nat}
    (same : ∀ index, place ≤ index → data[index]? = other[index]?) :
    matchesAt pattern mask data place = matchesAt pattern mask other place := by
  simp only [matchesAt, same _ (Nat.le_add_right place _)]

theorem findPattern_eq_firstIn_masked {data : List Byte} (positive : find ≠ []) (offset : Nat) :
    findPattern find findMask data offset =
      firstIn (matchesAt find findMask data) offset (data.length + 1 - find.length) := by
  have some_byte := List.length_pos_iff.mpr positive
  unfold findPattern
  split_ifs with short
  · symm
    rw [firstIn_eq_none]
    intro place low high
    omega
  · congr 1
    omega

def windowsFrom (find : List Byte) (findMask : Option (List Byte)) (data : List Byte)
    (fuel offset : Nat) : List Nat :=
  greedy (matchesAt find findMask data) find.length (data.length + 1 - find.length) fuel offset

theorem windowsFrom_inside {data : List Byte} {fuel offset place : Nat}
    (member : place ∈ windowsFrom find findMask data fuel offset) :
    place + find.length ≤ data.length := by
  have bounds := greedy_bounds member
  omega

theorem windowsFrom_changeWindow (change : Nat → Byte → Byte) (data : List Byte) (fuel place : Nat) :
    windowsFrom find findMask (changeWindow change find.length data place) fuel
        (place + find.length) =
      windowsFrom find findMask data fuel (place + find.length) := by
  have length : (changeWindow change find.length data place).length = data.length := by
    simp [changeWindow]
  rw [windowsFrom, length]
  apply greedy_congr
  intro later above _
  apply matchesAt_congr
  intro index behind
  rw [changeWindow_getElem?, if_neg (by omega)]

/--
The loop searches the data it is rewriting. It never looks again at what it rewrote, so the windows
are those of the data it started with.
-/
theorem replaceLoop_eq_windows (writable : Nat → Bool) (positive : find ≠ [])
    (sized : replace.length = find.length) (fuel count offset skip number : Nat) (data : List Byte) :
    let wanted := keep count ((windowsFrom find findMask data fuel offset).drop skip)
    let places := permitted writable number wanted
    replaceLoop writable find findMask replace replaceMask fuel data offset count skip number =
      (decide (places = wanted) && decide (0 < number + wanted.length),
        places.foldl (changeWindow (newByte replace replaceMask) find.length) data) := by
  induction fuel generalizing count offset skip number data with
  | zero => simp [windowsFrom, greedy, keep, permitted, replaceLoop]
  | succ fuel ih =>
      rw [replaceLoop, findPattern_eq_firstIn_masked positive]
      cases first : firstIn (matchesAt find findMask data) offset (data.length + 1 - find.length) with
      | none => simp [windowsFrom, greedy, first, keep, permitted]
      | some place =>
          obtain ⟨-, low, high, -⟩ := firstIn_eq_some.mp first
          have windows : windowsFrom find findMask data (fuel + 1) offset =
              place :: windowsFrom find findMask data fuel (place + find.length) := by
            simp only [windowsFrom, greedy, first]
          have rewritten := overwrite_maskedReplacement replaceMask sized
            (by omega : place + find.length ≤ data.length)
          rw [windows]
          cases skip with
          | succ skip => exact ih count (place + find.length) skip number data
          | zero =>
              simp only [Nat.lt_irrefl, if_false, List.drop_zero, keep_cons, rewritten]
              cases allowed : writable number with
              | false => by_cases last : count = 1 <;> simp [last, permitted, allowed]
              | true =>
                  by_cases last : count = 1
                  · simp [last, permitted, allowed]
                  · have rest := ih (count - 1) (place + find.length) 0 (number + 1)
                      (changeWindow (newByte replace replaceMask) find.length data place)
                    simp only [windowsFrom_changeWindow, List.drop_zero] at rest
                    simp [last, permitted, allowed, sized, rest, Nat.add_assoc, Nat.add_comm 1]

theorem permitted_all {writable : Nat → Bool} (all : ∀ number, writable number = true) (number : Nat)
    (places : List Nat) : permitted writable number places = places := by
  induction places generalizing number with
  | nil => rfl
  | cons place rest ih => simp only [permitted, all, if_true, ih]

theorem permitted_sublist (writable : Nat → Bool) (number : Nat) (places : List Nat) :
    (permitted writable number places).Sublist places := by
  induction places generalizing number with
  | nil => exact List.Sublist.slnil
  | cons first rest ih =>
      rw [permitted]
      split
      · exact (ih _).cons_cons first
      · exact List.nil_sublist _

theorem permitted_map (writable : Nat → Bool) (number base : Nat) (places : List Nat) :
    permitted writable number (places.map (base + ·)) =
      (permitted writable number places).map (base + ·) := by
  induction places generalizing number with
  | nil => rfl
  | cons first rest ih =>
      simp only [List.map_cons, permitted, ih]
      split <;> rfl

theorem keep_sublist (count : Nat) (places : List Nat) : (keep count places).Sublist places := by
  rw [keep]
  split
  · exact List.Sublist.refl _
  · exact List.take_sublist _ _

theorem keep_map (count base : Nat) (places : List Nat) :
    keep count (places.map (base + ·)) = (keep count places).map (base + ·) := by
  simp only [keep, apply_ite (List.map _), List.map_take]

theorem findAndReplaceWithMask_eq_windows (writable : Nat → Bool) (positive : find ≠ [])
    (sized : replace.length = find.length) (findMask replaceMask : Option (List Byte))
    (count skip : Nat) (data : List Byte) :
    let wanted := keep count ((windowsFrom find findMask data (data.length + 1) 0).drop skip)
    let places := permitted writable 0 wanted
    findAndReplaceWithMask writable data find findMask replace replaceMask count skip =
      (decide (places = wanted) && decide (0 < wanted.length),
        changeWindows (newByte replace replaceMask) find.length places data) := by
  intro wanted places
  have spaced : Spaced find.length places := by
    have some_windows := (permitted_sublist writable 0 wanted).trans
      ((keep_sublist count _).trans (List.drop_sublist skip _))
    exact List.Pairwise.sublist some_windows (greedy_spaced ..)
  rw [findAndReplaceWithMask, ← foldl_changeWindow _ _ spaced]
  split
  next short =>
    have empty : windowsFrom find findMask data (data.length + 1) 0 = [] := by
      rw [List.eq_nil_iff_forall_not_mem]
      intro place member
      have fits := windowsFrom_inside member
      omega
    have nothing : wanted = [] := by simp [wanted, empty, keep]
    simp [places, nothing, permitted]
  next => simpa using replaceLoop_eq_windows writable positive sized (data.length + 1) count 0 skip 0 data

end Loop

section Apply

variable (patch : MaskedLookupPatch) (image : Image) (start : Int) (size : Nat)

def MaskedLookupPatch.wantedWindows : List Nat :=
  let base := (start - image.address).toNat
  let windows := greedy (matchesAt patch.find patch.findMask image.bytes) patch.find.length
    (base + (size + 1 - patch.find.length)) (size + 1) base
  keep patch.count (windows.drop patch.skip)

def MaskedLookupPatch.keptWindows (writable : Nat → Bool) : List Nat :=
  permitted writable 0 (patch.wantedWindows image start size)

def MaskedLookupPatch.rewritten (writable : Nat → Bool) : Image :=
  let places := patch.keptWindows image start size writable
  let change := newByte patch.replace patch.replaceMask
  { image with bytes := changeWindows change patch.find.length places image.bytes }

theorem matchesAt_window {pattern data : List Byte} {mask : Option (List Byte)}
    {base length place : Nat} (fits : place + pattern.length ≤ length) :
    matchesAt pattern mask (window data base length) place =
      matchesAt pattern mask data (base + place) := by
  rw [matchesAt, matchesAt, Bool.eq_iff_iff, List.all_eq_true, List.all_eq_true]
  apply forall₂_congr
  intro index member
  have within := List.mem_range.mp member
  rw [window_getElem?, if_pos (by omega), Nat.add_assoc]

theorem keptWindows_eq (writable : Nat → Bool)
    (inside : (start - image.address).toNat + size ≤ image.bytes.length) :
    patch.keptWindows image start size writable =
      (permitted writable 0 (keep patch.count ((windowsFrom patch.find patch.findMask
        (image.window start size) (size + 1) 0).drop patch.skip))).map
          ((start - image.address).toNat + ·) := by
  have length : (image.window start size).length = size := window_length inside
  have shifted := greedy_shift (matchesAt patch.find patch.findMask image.bytes) patch.find.length
    (start - image.address).toNat (size + 1 - patch.find.length) (size + 1) 0
  have windows : windowsFrom patch.find patch.findMask (image.window start size) (size + 1) 0 =
      greedy (fun place => matchesAt patch.find patch.findMask image.bytes
        ((start - image.address).toNat + place)) patch.find.length (size + 1 - patch.find.length)
        (size + 1) 0 := by
    rw [windowsFrom, length]
    exact greedy_congr fun place _ high => matchesAt_window (by omega)
  simp only [Nat.add_zero] at shifted
  simp only [MaskedLookupPatch.keptWindows, MaskedLookupPatch.wantedWindows, shifted, windows,
    ← List.map_drop, keep_map, permitted_map]

/--
The image after a masked patch is the reference, which looks at the image before the patch only.
Without a range there is a panic, and a refusal to write to the kernel ends the patch.
-/
theorem apply_masked_image (writing : Writing)
    (masked : patch.findMask ≠ none ∨ patch.replaceMask ≠ none ∨ 0 < patch.skip)
    (positive : patch.find ≠ []) (low : image.address ≤ start)
    (high : start + size ≤ image.address + image.bytes.length) :
    (patch.apply writing image start size).map Prod.snd =
        (if start = 0 ∨ size = 0 then none
        else some (patch.rewritten image start size writing.replacement)) ∧
      ((∀ number, writing.replacement number = true) →
        patch.keptWindows image start size writing.replacement =
          patch.wantedWindows image start size) := by
  have inside : (start - image.address).toNat + size ≤ image.bytes.length := by omega
  have path : ¬ (patch.findMask = none ∧ patch.replaceMask = none ∧ patch.skip = 0) := by
    rintro ⟨noFind, noReplace, noSkip⟩
    rcases masked with present | present | present
    · exact present noFind
    · exact present noReplace
    · omega
  constructor
  · rw [MaskedLookupPatch.apply, if_neg path]
    split
    case isTrue => rfl
    case isFalse =>
      have length : (image.window start size).length = size := window_length inside
      have places := keptWindows_eq patch image start size writing.replacement inside
      simp only [Option.map_some, findAndReplaceWithMask_eq_windows writing.replacement positive
        patch.sized, length, Image.write, MaskedLookupPatch.rewritten, places]
      rw [← overwrite_changeWindows _ _ inside]
      · rfl
      · intro place member
        have window := ((permitted_sublist ..).trans (keep_sublist ..)).subset member
        have fits := windowsFrom_inside (List.mem_of_mem_drop window)
        omega
  · exact fun writable => permitted_all writable 0 _

def examplePatch : MaskedLookupPatch where
  kext := some .loaded
  find := [0x74, 0x10]
  replace := [0xEB, 0x20]
  count := 0
  sized := rfl
  findMask := some [0xFF, 0xF0]
  replaceMask := some [0xFF, 0xF0]
  skip := 1

def exampleImage : Image := ⟨0x1000, [0x74, 0x11, 0x90, 0x74, 0x12, 0x74, 0x74, 0x13]⟩

theorem apply_masked_image_example :
    (examplePatch.apply ⟨true, true, fun _ => true⟩ exampleImage 0x1000 8).map Prod.snd =
      some ⟨0x1000, [0x74, 0x11, 0x90, 0xEB, 0x22, 0x74, 0xEB, 0x23]⟩ :=
  (apply_masked_image examplePatch exampleImage 0x1000 8 ⟨true, true, fun _ => true⟩
    (Or.inl (by decide)) (by decide) (by decide) (by decide)).1.trans (by decide)

end Apply

end NootedDeck.Patcher
