import NootedDeck.Patcher.LookupPatch

set_option autoImplicit false

namespace NootedDeck.Patcher

open Bytes Windows

-- What a round of `applyLookupPatch` does, in offsets from the start of the image: the search
-- stops before `stop` and goes on from the place that was just rewritten.
def lookupRounds (find replace : List Byte) (stop : Nat) : Nat → Nat → List Byte → Nat × List Byte
  | 0, _, data => (0, data)
  | rounds + 1, offset, data =>
      match firstIn (matchesAt find none data) offset stop with
      | none => (0, data)
      | some place =>
          let rest := lookupRounds find replace stop rounds place (overwrite data place replace)
          (rest.1 + 1, rest.2)

-- What a round of `findAndReplaceWithMask` does without masks: the last window is searched too and
-- the search goes on after the place that was just rewritten.
def replaceRounds (find replace : List Byte) : Nat → Nat → List Byte → Nat × List Byte
  | 0, _, data => (0, data)
  | rounds + 1, offset, data =>
      match findPattern find none data offset with
      | none => (0, data)
      | some place =>
          let rest := replaceRounds find replace rounds (place + find.length)
            (overwrite data place replace)
          (rest.1 + 1, rest.2)

theorem lookupScan_eq (patch : LookupPatch) (image : Image) (stop fuel offset : Nat)
    (enough : stop = offset + fuel) :
    lookupScan patch image (image.address + stop) fuel (image.address + offset) =
      image.address + ((firstIn (matchesAt patch.find none image.bytes) offset stop).getD stop : Nat) := by
  induction fuel generalizing offset with
  | zero =>
      have nothing : firstIn (matchesAt patch.find none image.bytes) offset stop = none := by
        rw [firstIn_eq_none]
        intro place low high
        omega
      simp only [lookupScan, nothing, Option.getD_none]
      omega
  | succ fuel ih =>
      have here : image.window (image.address + offset) patch.size =
          window image.bytes offset patch.find.length := by
        simp [Image.window, LookupPatch.size]
      have next := ih (offset + 1) (by omega)
      by_cases found : window image.bytes offset patch.find.length = patch.find
      · have first : firstIn (matchesAt patch.find none image.bytes) offset stop = some offset := by
          rw [firstIn_eq_some, matchesAt_none_iff]
          exact ⟨found, Nat.le_refl _, by omega, fun _ _ _ => by omega⟩
        simp only [lookupScan, here, found, ne_eq, not_true_eq_false, and_false, if_false, first,
          Option.getD_some]
      · have skip : firstIn (matchesAt patch.find none image.bytes) offset stop =
            firstIn (matchesAt patch.find none image.bytes) (offset + 1) stop := by
          apply firstIn_skip
          rw [Bool.eq_false_iff, ne_eq, matchesAt_none_iff]
          exact found
        have inside : image.address + (offset : Int) < image.address + (stop : Int) := by omega
        rw [lookupScan, here, if_pos ⟨inside, found⟩, skip, ← next]
        congr 1
        omega

theorem lookupLoop_eq (patch : LookupPatch) (address : Int) (stop rounds offset changes : Nat)
    (data : List Byte) (before : offset ≤ stop) (within : rounds ≤ patch.count)
    (counted : 0 < patch.count) :
    lookupLoop patch (address + stop) rounds (patch.count - rounds) (address + offset)
        ⟨address, data⟩ changes =
      some (changes + (lookupRounds patch.find patch.replace stop rounds offset data).1,
        ⟨address, (lookupRounds patch.find patch.replace stop rounds offset data).2⟩) := by
  induction rounds generalizing offset changes data with
  | zero =>
      have exceeded : ¬(address + (offset : Int) < address + (stop : Int) ∧
          (patch.count - 0 < patch.count ∨ patch.count = 0)) := by omega
      simp only [lookupLoop, exceeded, if_false, lookupRounds, Nat.add_zero]
  | succ rounds ih =>
      have scanned := lookupScan_eq patch ⟨address, data⟩ stop (stop - offset) offset (by omega)
      have fuel : (address + (stop : Int) - (address + (offset : Int))).toNat = stop - offset := by omega
      have next : patch.count - (rounds + 1) + 1 = patch.count - rounds := by omega
      by_cases inside : offset < stop
      · have guard : address + (offset : Int) < address + (stop : Int) ∧
            (patch.count - (rounds + 1) < patch.count ∨ patch.count = 0) := by omega
        simp only at scanned
        rw [lookupLoop, if_pos guard, fuel, scanned]
        cases first : firstIn (matchesAt patch.find none data) offset stop with
        | none =>
            -- The cursor is at the end of the search, so the loop stops with no further change.
            have stopped := ih stop changes data (Nat.le_refl _) (by omega)
            have nothing : lookupRounds patch.find patch.replace stop rounds stop data = (0, data) := by
              cases rounds with
              | zero => rfl
              | succ rounds =>
                  have empty : firstIn (matchesAt patch.find none data) stop stop = none := by
                    rw [firstIn_eq_none]
                    intro place low high
                    omega
                  simp only [lookupRounds, empty]
            simp only [Option.getD_none, ne_eq, not_true_eq_false, if_false, next, stopped, nothing,
              lookupRounds, first]
        | some place =>
            obtain ⟨-, -, below, -⟩ := firstIn_eq_some.mp first
            have moved : address + (place : Int) ≠ address + (stop : Int) := by omega
            have written : (⟨address, data⟩ : Image).write (address + place) patch.replace =
                ⟨address, overwrite data place patch.replace⟩ := by
              simp [Image.write]
            have rest := ih place (changes + 1) (overwrite data place patch.replace)
              (by omega) (by omega)
            simp only [Option.getD_some, ne_eq, moved, not_false_eq_true, if_true, next, written,
              rest, lookupRounds, first, Nat.add_assoc, Nat.add_comm 1]
      · have exceeded : ¬(address + (offset : Int) < address + (stop : Int) ∧
            (patch.count - (rounds + 1) < patch.count ∨ patch.count = 0)) := by omega
        have nothing : firstIn (matchesAt patch.find none data) offset stop = none := by
          rw [firstIn_eq_none]
          intro place low high
          omega
        simp only [lookupLoop, exceeded, if_false, lookupRounds, nothing, Nat.add_zero]

theorem replaceRounds_positive (find replace : List Byte) (rounds offset place : Nat)
    (data : List Byte) (first : findPattern find none data offset = some place) :
    0 < (replaceRounds find replace (rounds + 1) offset data).1 := by
  simp only [replaceRounds, first, Nat.succ_pos]

theorem replaceRounds_length (find replace : List Byte) (sized : replace.length = find.length)
    (rounds offset : Nat) (data : List Byte) :
    (replaceRounds find replace rounds offset data).2.length = data.length := by
  induction rounds generalizing offset data with
  | zero => rfl
  | succ rounds ih =>
      rw [replaceRounds]
      cases first : findPattern find none data offset with
      | none => rfl
      | some place =>
          obtain ⟨-, -, -, fits, -⟩ := findPattern_eq_some.mp first
          rw [ih, overwrite_length (by omega)]

theorem replaceLoop_eq (find replace : List Byte) (sized : replace.length = find.length)
    (fuel count offset replCount : Nat) (data : List Byte) (counted : 0 < count)
    (enough : data.length < fuel + offset) :
    replaceLoop (fun _ => true) find (some (List.replicate find.length 0xFF)) replace
        (some (List.replicate replace.length 0xFF)) fuel data offset count 0 replCount =
      (decide (0 < replCount + (replaceRounds find replace count offset data).1),
        (replaceRounds find replace count offset data).2) := by
  induction fuel generalizing count offset replCount data with
  | zero =>
      have nothing : findPattern find none data offset = none := by
        cases found : findPattern find none data offset with
        | none => rfl
        | some place =>
            obtain ⟨-, -, low, fits, -⟩ := findPattern_eq_some.mp found
            omega
      obtain ⟨rounds, rfl⟩ := Nat.exists_eq_add_of_lt counted
      simp only [replaceLoop, replaceRounds, nothing, Nat.add_zero]
  | succ fuel ih =>
      obtain ⟨rounds, rfl⟩ : ∃ rounds, count = rounds + 1 := ⟨count - 1, by omega⟩
      rw [replaceLoop, findPattern_allOnes]
      cases found : findPattern find none data offset with
      | none => simp only [replaceRounds, found, Nat.add_zero]
      | some place =>
          obtain ⟨positive, -, low, fits, -⟩ := findPattern_eq_some.mp found
          have new : maskedReplacement replace (some (List.replicate replace.length 0xFF))
              (window data place find.length) = replace :=
            maskedReplacement_allOnes replace _ (by rw [window_length fits, sized])
          have room : place + replace.length ≤ data.length := by omega
          have length := overwrite_length room
          simp only [Nat.lt_irrefl, if_false, Bool.true_eq_false, new, replaceRounds, found]
          by_cases last : rounds = 0
          · subst last
            simp [replaceRounds]
          · have more : rounds + 1 ≠ 1 := by omega
            have rest := ih rounds (place + replace.length) (replCount + 1)
              (overwrite data place replace) (by omega) (by omega)
            rw [if_neg more, Nat.add_sub_cancel, rest, sized]
            congr 2
            simp only [Nat.add_assoc, Nat.add_comm 1]

end NootedDeck.Patcher
