import NootedDeck.Patcher.LookupAgreement
import NootedDeck.Patcher.MaskedWindows
import Mathlib.Data.List.Dedup

set_option autoImplicit false

namespace NootedDeck.Patcher

open Bytes Windows

section Plain

variable {find replace : List Byte}

def lookupPlaces (find replace : List Byte) (stop : Nat) : Nat → Nat → List Byte → List Nat
  | 0, _, _ => []
  | rounds + 1, offset, data =>
      match firstIn (matchesAt find none data) offset stop with
      | none => []
      | some place =>
          place :: lookupPlaces find replace stop rounds place (overwrite data place replace)

theorem lookupRounds_eq_places (find replace : List Byte) (stop rounds offset : Nat) (data : List Byte) :
    lookupRounds find replace stop rounds offset data =
      ((lookupPlaces find replace stop rounds offset data).length,
        (lookupPlaces find replace stop rounds offset data).foldl
          (fun data place => overwrite data place replace) data) := by
  induction rounds generalizing offset data with
  | zero => rfl
  | succ rounds ih =>
      simp only [lookupRounds, lookupPlaces]
      cases firstIn (matchesAt find none data) offset stop with
      | none => rfl
      | some place => simp [ih]

def reappears (find replace data : List Byte) (place next : Nat) : Bool :=
  if place + find.length ≤ next then matchesAt find none data next
  else decide (replace.drop (next - place) ++ window data (place + find.length) (next - place) = find)

def reappearances (find replace data : List Byte) (stop : Nat) : Nat → Nat → List Nat
  | 0, _ => []
  | fuel + 1, place =>
      match firstIn (reappears find replace data place) (place + 1) stop with
      | none => []
      | some next => next :: reappearances find replace data stop fuel next

-- The places where the pattern is, or turns up as the ones before are rewritten. The last window of the
-- image is not looked at, and a replacement equal to the pattern keeps the search in one place.
def plainOccurrences (find replace data : List Byte) : List Nat :=
  let stop := data.length - find.length
  match firstIn (matchesAt find none data) 0 stop with
  | none => []
  | some place =>
      place :: if find = replace then [] else reappearances find replace data stop data.length place

theorem matchesAt_overwrite {data current : List Byte} {place next stop : Nat}
    (sized : replace.length = find.length) (limit : stop + find.length ≤ data.length)
    (length : current.length = data.length)
    (agree : ∀ index, place + find.length ≤ index → current[index]? = data[index]?)
    (low : place ≤ next) (high : next < stop) :
    matchesAt find none (overwrite current place replace) next =
      reappears find replace data place next := by
  have room : place + replace.length ≤ current.length := by omega
  rw [reappears]
  split
  next behind =>
    apply matchesAt_congr
    intro index above
    rw [overwrite_outside room (by omega), agree index (by omega)]
  next inside =>
    have overlap := window_overwrite_overlap room (by omega : next - place ≤ replace.length)
    rw [Nat.add_sub_cancel' low, sized] at overlap
    rw [Bool.eq_iff_iff, matchesAt_none_iff, overlap, decide_eq_true_iff, window_congr]
    exact agree

theorem lookupPlaces_eq_reappearances {data current : List Byte} {stop : Nat}
    (sized : replace.length = find.length) (changes : find ≠ replace)
    (limit : stop + find.length ≤ data.length) (rounds fuel place : Nat)
    (length : current.length = data.length) (here : place < stop)
    (agree : ∀ index, place + find.length ≤ index → current[index]? = data[index]?)
    (enough : stop ≤ fuel + place) :
    lookupPlaces find replace stop rounds place (overwrite current place replace) =
      (reappearances find replace data stop fuel place).take rounds := by
  induction rounds generalizing current fuel place with
  | zero => rfl
  | succ rounds ih =>
      obtain ⟨fuel, rfl⟩ : ∃ more, fuel = more + 1 := ⟨fuel - 1, by omega⟩
      -- what was just written is not the pattern
      have gone : reappears find replace data place place = false := by
        have some_byte : 0 < find.length := by
          by_contra empty
          have noBytes := List.length_eq_zero_iff.mp (by omega : find.length = 0)
          have noReplacement := List.length_eq_zero_iff.mp (by omega : replace.length = 0)
          exact changes (noBytes.trans noReplacement.symm)
        rw [reappears, if_neg (by omega), Nat.sub_self, decide_eq_false_iff_not]
        simpa [window] using Ne.symm changes
      have search : firstIn (matchesAt find none (overwrite current place replace)) place stop =
          firstIn (reappears find replace data place) (place + 1) stop := by
        rw [← firstIn_skip gone]
        exact firstIn_congr fun next low high =>
          matchesAt_overwrite sized limit length agree low high
      rw [lookupPlaces, reappearances, search]
      cases first : firstIn (reappears find replace data place) (place + 1) stop with
      | none => rfl
      | some next =>
          obtain ⟨-, low, high, -⟩ := firstIn_eq_some.mp first
          have room : place + replace.length ≤ current.length := by omega
          have later := ih fuel next ((overwrite_length room).trans length) high
            (fun index behind => by rw [overwrite_outside room (by omega), agree index (by omega)])
            (by omega)
          simp only [List.take_succ_cons, later]

theorem reappearances_above {data : List Byte} {stop fuel place next : Nat}
    (member : next ∈ reappearances find replace data stop fuel place) : place < next := by
  induction fuel generalizing place with
  | zero => cases member
  | succ fuel ih =>
      rw [reappearances] at member
      split at member
      · cases member
      next first found =>
        obtain ⟨-, low, -⟩ := firstIn_eq_some.mp found
        rcases List.mem_cons.mp member with rfl | later
        · omega
        · have above := ih later
          omega

theorem reappearances_nodup (data : List Byte) (stop fuel place : Nat) :
    (reappearances find replace data stop fuel place).Nodup := by
  induction fuel generalizing place with
  | zero => exact List.nodup_nil
  | succ fuel ih =>
      rw [reappearances]
      split
      · exact List.nodup_nil
      · exact List.nodup_cons.mpr ⟨fun again => Nat.lt_irrefl _ (reappearances_above again), ih _⟩

theorem plainOccurrences_nodup (data : List Byte) : (plainOccurrences find replace data).Nodup := by
  rw [plainOccurrences]
  split
  · exact List.nodup_nil
  · split
    · exact List.nodup_singleton _
    · exact List.nodup_cons.mpr
        ⟨fun again => Nat.lt_irrefl _ (reappearances_above again), reappearances_nodup ..⟩

theorem lookupPlaces_eq_take (sized : replace.length = find.length) (changes : find ≠ replace)
    (rounds : Nat) (data : List Byte) :
    lookupPlaces find replace (data.length - find.length) rounds 0 data =
      (plainOccurrences find replace data).take rounds := by
  cases rounds with
  | zero => rfl
  | succ rounds =>
      simp only [lookupPlaces, plainOccurrences, if_neg changes]
      cases first : firstIn (matchesAt find none data) 0 (data.length - find.length) with
      | none => rfl
      | some place =>
          obtain ⟨-, -, high, -⟩ := firstIn_eq_some.mp first
          have limit : data.length - find.length + find.length ≤ data.length := by omega
          have later := lookupPlaces_eq_reappearances sized changes limit rounds data.length place
            rfl high (fun _ _ => rfl) (by omega)
          simp only [List.take_succ_cons, later]

theorem lookupPlaces_unchanged (stop rounds offset : Nat) (data : List Byte)
    (limit : stop ≤ data.length - find.length) :
    lookupPlaces find find stop rounds offset data =
      match firstIn (matchesAt find none data) offset stop with
      | none => []
      | some place => List.replicate rounds place := by
  induction rounds generalizing offset with
  | zero => cases firstIn (matchesAt find none data) offset stop <;> rfl
  | succ rounds ih =>
      rw [lookupPlaces]
      cases first : firstIn (matchesAt find none data) offset stop with
      | none => rfl
      | some place =>
          obtain ⟨found, low, high, -⟩ := firstIn_eq_some.mp first
          simp only [overwrite_same (by omega) ((matchesAt_none_iff ..).mp found), ih place,
            firstIn_again first, List.replicate_succ]

theorem lookupPlaces_changes {data : List Byte} {stop rounds : Nat}
    (sized : replace.length = find.length) (changes : find ≠ replace)
    (limit : stop + find.length ≤ data.length)
    (written : lookupPlaces find replace stop rounds 0 data ≠ []) :
    (lookupPlaces find replace stop rounds 0 data).foldl
      (fun data place => overwrite data place replace) data ≠ data := by
  obtain ⟨differ, inside, apart, same⟩ := exists_first_difference sized changes
  intro unchanged
  have image : (lookupRounds find replace stop rounds 0 data).2 = data :=
    (congrArg Prod.snd (lookupRounds_eq_places find replace stop rounds 0 data)).trans unchanged
  cases rounds with
  | zero => exact written rfl
  | succ rounds =>
      rw [lookupPlaces] at written
      rw [lookupRounds] at image
      cases first : firstIn (matchesAt find none data) 0 stop with
      | none => simp [first] at written
      | some place =>
          obtain ⟨found, -, high, -⟩ := firstIn_eq_some.mp first
          have room : place + replace.length ≤ data.length := by omega
          have length : stop + find.length ≤ (overwrite data place replace).length := by
            rw [overwrite_length room]
            exact limit
          have kept := lookupRounds_keeps sized same rounds place place stop _ inside length
            (Nat.le_refl _) (overwrite_inside room (by omega))
          have before := window_eq_iff.mp ((matchesAt_none_iff ..).mp found) differ inside
          simp only [first] at image
          rw [image, before] at kept
          exact apart kept

theorem foldl_lookupPlaces {data : List Byte} {stop : Nat} (sized : replace.length = find.length)
    (limit : stop + find.length ≤ data.length) (rounds offset : Nat) :
    (lookupPlaces find replace stop rounds offset data).foldl
        (fun data place => overwrite data place replace) data =
      (lookupPlaces find replace stop rounds offset data).foldl
        (changeWindow (newByte replace none) find.length) data := by
  induction rounds generalizing offset data with
  | zero => rfl
  | succ rounds ih =>
      rw [lookupPlaces]
      cases first : firstIn (matchesAt find none data) offset stop with
      | none => rfl
      | some place =>
          obtain ⟨-, -, high, -⟩ := firstIn_eq_some.mp first
          have new : overwrite data place replace =
              changeWindow (newByte replace none) find.length data place :=
            overwrite_maskedReplacement none sized (by omega)
          have length : (overwrite data place replace).length = data.length :=
            overwrite_length (by omega)
          rw [List.foldl_cons, List.foldl_cons, ih (length ▸ limit), new]

end Plain

section AllOrNothing

variable (patch : MaskedLookupPatch) (writing : Writing) (address : Int) (data : List Byte)

def MaskedLookupPatch.Plain : Prop :=
  patch.findMask = none ∧ patch.replaceMask = none ∧ patch.skip = 0

instance : Decidable patch.Plain := inferInstanceAs (Decidable (_ ∧ _ ∧ _))

def MaskedLookupPatch.occurrences : List Nat :=
  if patch.Plain then plainOccurrences patch.find patch.replace data
  else if patch.find = [] then []
  else (windowsFrom patch.find patch.findMask data (data.length + 1) 0).drop patch.skip

def MaskedLookupPatch.places : List Nat :=
  if patch.Plain then
    lookupPlaces patch.find patch.replace (data.length - patch.find.length) patch.count 0 data
  else keep patch.count (patch.occurrences data)

def MaskedLookupPatch.rewriting : List Byte :=
  (patch.places data).foldl
    (changeWindow (newByte patch.replace patch.replaceMask) patch.find.length) data

/--
`Apply` leaves the rewritten image, tells whether these were `count` windows, and has changed nothing
when it says no.
-/
def MaskedLookupPatch.AllOrNothing : Prop :=
  ∀ result image, patch.apply writing ⟨address, data⟩ address data.length = some (result, image) →
    image = ⟨address, patch.rewriting data⟩ ∧
      (result = true ↔ (patch.places data).dedup.length = patch.count) ∧
      (result = false → image = ⟨address, data⟩)

variable {patch writing address data}

theorem rewriting_plain (plain : patch.Plain) (data : List Byte) :
    patch.rewriting data =
      (patch.places data).foldl (fun data place => overwrite data place patch.replace) data := by
  rw [MaskedLookupPatch.rewriting, MaskedLookupPatch.places, if_pos plain, plain.2.1]
  by_cases long : patch.find.length ≤ data.length
  · exact (foldl_lookupPlaces patch.sized (by omega) patch.count 0).symm
  · have nothing (rounds : Nat) : lookupPlaces patch.find patch.replace
        (data.length - patch.find.length) rounds 0 data = [] := by
      have stop : data.length - patch.find.length = 0 := by omega
      cases rounds <;> simp [lookupPlaces, stop, firstIn]
    rw [nothing, List.foldl_nil, List.foldl_nil]

theorem apply_plain (plain : patch.Plain) (loaded : patch.kext = some .loaded)
    (counted : 1 ≤ patch.count) (enabled : writing.enable = true) (disabled : writing.disable = true) :
    patch.apply writing ⟨address, data⟩ address data.length =
      some (decide ((patch.places data).length = patch.count),
        ⟨address, patch.rewriting data⟩) := by
  have unmasked : patch = patch.toLookupPatch.unmasked := by
    obtain ⟨noFind, noReplace, noSkip⟩ := plain
    cases patch
    simp_all [LookupPatch.unmasked]
  rw [rewriting_plain plain, MaskedLookupPatch.places, if_pos plain]
  by_cases long : patch.find.length ≤ data.length
  · have outcome := apply_unmasked_long patch.toLookupPatch writing address data loaded counted enabled
      disabled long
    rw [← unmasked, lookupRounds_eq_places] at outcome
    exact outcome
  · have outcome := apply_unmasked_short patch.toLookupPatch writing address data loaded counted enabled
      disabled (by omega)
    have nothing : lookupPlaces patch.find patch.replace (data.length - patch.find.length) patch.count
        0 data = [] := by
      obtain ⟨count, more⟩ : ∃ count, patch.count = count + 1 := ⟨patch.count - 1, by omega⟩
      have none_before : data.length - patch.find.length = 0 := by omega
      rw [more, lookupPlaces, none_before]
      rfl
    rw [← unmasked] at outcome
    have some_count : ¬ 0 = patch.count := by omega
    simp [outcome, nothing, some_count]

theorem apply_undisabled (plain : patch.Plain) (loaded : patch.kext = some .loaded)
    (enabled : writing.enable = true) (refused : writing.disable = false) (image : Image) (start : Int)
    (size : Nat) :
    patch.apply writing image start size =
      (patch.apply { writing with disable := true } image start size).map
        fun outcome => (false, outcome.2) := by
  have path : patch.findMask = none ∧ patch.replaceMask = none ∧ patch.skip = 0 := plain
  simp only [MaskedLookupPatch.apply, if_pos path, applyLookupPatch, loaded, enabled, refused,
    reduceCtorEq, Option.some.injEq, if_false, if_true, Bool.true_eq_false, Option.map_map]
  congr 1
  funext changed
  simp only [Function.comp_apply]
  split_ifs <;> rfl

theorem apply_plain_undisabled (plain : patch.Plain) (loaded : patch.kext = some .loaded)
    (counted : 1 ≤ patch.count) (enabled : writing.enable = true) (refused : writing.disable = false)
    (address : Int) (data : List Byte) :
    patch.apply writing ⟨address, data⟩ address data.length =
      some (false, ⟨address, patch.rewriting data⟩) := by
  have written : patch.apply { writing with disable := true } ⟨address, data⟩ address data.length = _ :=
    apply_plain plain loaded counted enabled rfl
  rw [apply_undisabled plain loaded enabled refused, written, Option.map_some]

theorem places_spaced_masked (masked : ¬ patch.Plain) (data : List Byte) :
    Spaced patch.find.length (patch.places data) := by
  rw [MaskedLookupPatch.places, if_neg masked, MaskedLookupPatch.occurrences, if_neg masked]
  apply List.Pairwise.sublist (keep_sublist _ _)
  split
  · exact List.Pairwise.nil
  · exact List.Pairwise.sublist (List.drop_sublist _ _) (greedy_spaced ..)

theorem rewriting_masked (masked : ¬ patch.Plain) (data : List Byte) :
    patch.rewriting data =
      changeWindows (newByte patch.replace patch.replaceMask) patch.find.length
        (patch.places data) data :=
  foldl_changeWindow _ _ (places_spaced_masked masked data) data

theorem apply_masked (masked : ¬ patch.Plain) (based : address ≠ 0) (nonempty : data ≠ [])
    (writable : ∀ number, writing.replacement number = true) :
    patch.apply writing ⟨address, data⟩ address data.length =
      some (decide (0 < (patch.places data).length), ⟨address, patch.rewriting data⟩) := by
  have range : ¬ (address = 0 ∨ data.length = 0) := by simp [based, nonempty]
  have whole : Image.window ⟨address, data⟩ address data.length = data := by
    simp [Image.window, window]
  have result : findAndReplaceWithMask writing.replacement data patch.find patch.findMask
      patch.replace patch.replaceMask patch.count patch.skip =
      (decide (0 < (patch.places data).length), patch.rewriting data) := by
    rw [rewriting_masked masked]
    by_cases positive : patch.find = []
    · have nothing : patch.places data = [] := by
        simp [MaskedLookupPatch.places, MaskedLookupPatch.occurrences, masked, positive, keep]
      simp [nothing, findAndReplaceWithMask, positive, replaceLoop, findPattern, changeWindows_nil]
    · have windows := findAndReplaceWithMask_eq_windows writing.replacement positive patch.sized
        patch.findMask patch.replaceMask patch.count patch.skip data
      simpa only [permitted_all writable, decide_true, Bool.true_and, MaskedLookupPatch.places,
        MaskedLookupPatch.occurrences, if_neg masked, if_neg positive] using windows
  have length : (patch.rewriting data).length = data.length := by
    rw [rewriting_masked masked, changeWindows, List.length_mapIdx]
  have path : ¬ (patch.findMask = none ∧ patch.replaceMask = none ∧ patch.skip = 0) := masked
  rw [MaskedLookupPatch.apply, if_neg path, if_neg range]
  simp only [whole, result, Image.write, Int.sub_self, Int.toNat_zero, overwrite_all length]

theorem places_nodup_masked (masked : ¬ patch.Plain) (data : List Byte) :
    (patch.places data).Nodup := by
  by_cases positive : patch.find = []
  · simp [MaskedLookupPatch.places, MaskedLookupPatch.occurrences, masked, positive, keep]
  · have some_byte := List.length_pos_iff.mpr positive
    exact (places_spaced_masked masked data).imp fun apart => by omega

theorem keep_length {count : Nat} (counted : 1 ≤ count) (places : List Nat) :
    (keep count places).length = min count places.length := by
  rw [keep, if_neg (by omega), List.length_take]

theorem allOrNothing_of_outcome {told : Bool}
    (outcome : patch.apply writing ⟨address, data⟩ address data.length =
      some (told, ⟨address, patch.rewriting data⟩)) :
    patch.AllOrNothing writing address data ↔
      (told = true ↔ (patch.places data).dedup.length = patch.count) ∧
        (told = false → patch.rewriting data = data) := by
  constructor
  · intro all
    obtain ⟨-, tells, keeps⟩ := all _ _ outcome
    exact ⟨tells, fun failed => congrArg Image.bytes (keeps failed)⟩
  · rintro ⟨tells, keeps⟩ result image ran
    cases outcome.symm.trans ran
    exact ⟨rfl, tells, fun failed => by rw [keeps failed]⟩

theorem rewriting_of_none (nothing : patch.places data = []) : patch.rewriting data = data := by
  rw [MaskedLookupPatch.rewriting, nothing, List.foldl_nil]

theorem allOrNothing_of_panic (masked : ¬ patch.Plain) (missing : address = 0 ∨ data.length = 0) :
    patch.AllOrNothing writing address data := by
  have path : ¬ (patch.findMask = none ∧ patch.replaceMask = none ∧ patch.skip = 0) := masked
  intro result image ran
  rw [MaskedLookupPatch.apply, if_neg path, if_pos missing] at ran
  cases ran

theorem allOrNothing_masked_iff (masked : ¬ patch.Plain) (counted : 1 ≤ patch.count)
    (based : address ≠ 0) (writable : ∀ number, writing.replacement number = true) :
    patch.AllOrNothing writing address data ↔
      patch.occurrences data = [] ∨ patch.count ≤ (patch.occurrences data).length := by
  by_cases nonempty : data = []
  case pos =>
    have nothing : patch.occurrences data = [] := by
      rw [MaskedLookupPatch.occurrences, if_neg masked]
      split
      · rfl
      next positive =>
        have some_byte := List.length_pos_iff.mpr positive
        rw [List.eq_nil_iff_forall_not_mem]
        intro place member
        have fits := windowsFrom_inside (List.mem_of_mem_drop member)
        rw [nonempty, List.length_nil] at fits
        omega
    have empty : data.length = 0 := by simp [nonempty]
    exact iff_of_true (allOrNothing_of_panic masked (Or.inr empty)) (Or.inl nothing)
  case neg =>
    have outcome := apply_masked masked based nonempty writable
    have length : (patch.places data).length = min patch.count (patch.occurrences data).length := by
      rw [MaskedLookupPatch.places, if_neg masked, keep_length counted]
    have distinct := (places_nodup_masked masked data).dedup
    have unchanged : decide (0 < (patch.places data).length) = false →
        patch.rewriting data = data := by
      intro failed
      exact rewriting_of_none (List.length_eq_zero_iff.mp (by simpa using failed))
    rw [allOrNothing_of_outcome outcome, decide_eq_true_iff, distinct, length,
      ← List.length_eq_zero_iff]
    rw [length] at unchanged
    constructor
    · rintro ⟨told, -⟩
      omega
    · intro complete
      exact ⟨by omega, unchanged⟩

theorem plainOccurrences_short {find replace : List Byte} (short : ¬ find.length ≤ data.length) :
    plainOccurrences find replace data = [] := by
  have stop : data.length - find.length = 0 := by omega
  simp only [plainOccurrences, stop]
  rfl

section PlainPath

variable (plain : patch.Plain)

include plain

theorem occurrences_plain (data : List Byte) :
    patch.occurrences data = plainOccurrences patch.find patch.replace data := by
  rw [MaskedLookupPatch.occurrences, if_pos plain]

theorem places_plain (data : List Byte) :
    patch.places data = lookupPlaces patch.find patch.replace (data.length - patch.find.length)
      patch.count 0 data := by
  rw [MaskedLookupPatch.places, if_pos plain]

theorem places_eq_take (data : List Byte) (changes : patch.find ≠ patch.replace) :
    patch.places data = (patch.occurrences data).take patch.count := by
  rw [places_plain plain, occurrences_plain plain]
  exact lookupPlaces_eq_take patch.sized changes patch.count data

theorem places_of_same (data : List Byte) (same : patch.find = patch.replace) :
    (patch.occurrences data = [] ∧ patch.places data = []) ∨
      ∃ place, patch.occurrences data = [place] ∧
        patch.places data = List.replicate patch.count place ∧
        overwrite data place patch.replace = data := by
  have listed := occurrences_plain plain data
  have places := places_plain plain data
  rw [← same] at places ⊢
  rw [lookupPlaces_unchanged _ _ _ _ (Nat.le_refl _)] at places
  simp only [plainOccurrences, if_pos same] at listed
  cases first : firstIn (matchesAt patch.find none data) 0 (data.length - patch.find.length) with
  | none =>
      simp only [first] at places listed
      exact Or.inl ⟨listed, places⟩
  | some place =>
      simp only [first] at places listed
      obtain ⟨found, -, high, -⟩ := firstIn_eq_some.mp first
      have unchanged := overwrite_same (by omega) ((matchesAt_none_iff ..).mp found)
      exact Or.inr ⟨place, listed, places, unchanged⟩

theorem rewritten_ne (counted : 1 ≤ patch.count) (changes : patch.find ≠ patch.replace)
    (found : patch.occurrences data ≠ []) : patch.rewriting data ≠ data := by
  have long : patch.find.length ≤ data.length := by
    by_contra short
    exact found ((occurrences_plain plain data).trans (plainOccurrences_short short))
  have written : patch.places data ≠ [] := by
    rw [places_eq_take plain data changes]
    intro none_taken
    rcases List.take_eq_nil_iff.mp none_taken with zero | none_found
    · omega
    · exact found none_found
  rw [rewriting_plain plain]
  rw [places_plain plain] at written ⊢
  exact lookupPlaces_changes patch.sized changes (by omega) written

theorem allOrNothing_plain_iff (loaded : patch.kext = some .loaded)
    (counted : 1 ≤ patch.count) (enabled : writing.enable = true) (disabled : writing.disable = true)
    (changes : patch.find ≠ patch.replace) :
    patch.AllOrNothing writing address data ↔
      patch.occurrences data = [] ∨ patch.count ≤ (patch.occurrences data).length := by
  have outcome : patch.apply writing ⟨address, data⟩ address data.length = _ :=
    apply_plain plain loaded counted enabled disabled
  have taken := places_eq_take plain data changes
  have length : (patch.places data).length = min patch.count (patch.occurrences data).length := by
    rw [taken, List.length_take]
  have distinct : (patch.places data).dedup = patch.places data := by
    rw [taken, occurrences_plain plain]
    exact ((plainOccurrences_nodup data).sublist (List.take_sublist _ _)).dedup
  rw [allOrNothing_of_outcome outcome, decide_eq_true_iff, distinct]
  constructor
  · rintro ⟨-, keeps⟩
    by_contra partly
    obtain ⟨found, few⟩ := not_or.mp partly
    have failed : ¬ (patch.places data).length = patch.count := by omega
    exact rewritten_ne plain counted changes found (keeps (decide_eq_false failed))
  · intro complete
    refine ⟨Iff.rfl, fun failed => rewriting_of_none ?_⟩
    have few := of_decide_eq_false failed
    have none_found : patch.occurrences data = [] := by
      rcases complete with none | enough
      · exact none
      · omega
    rw [taken, none_found, List.take_nil]

theorem allOrNothing_same_iff (loaded : patch.kext = some .loaded)
    (counted : 1 ≤ patch.count) (enabled : writing.enable = true) (disabled : writing.disable = true)
    (same : patch.find = patch.replace) :
    patch.AllOrNothing writing address data ↔
      patch.occurrences data = [] ∨ patch.count ≤ (patch.occurrences data).length := by
  have outcome : patch.apply writing ⟨address, data⟩ address data.length = _ :=
    apply_plain plain loaded counted enabled disabled
  have some_count : patch.count ≠ 0 := by omega
  rcases places_of_same plain data same with ⟨listed, places⟩ | ⟨place, listed, places, -⟩
  case inl =>
    have fails : patch.AllOrNothing writing address data := by
      rw [allOrNothing_of_outcome outcome]
      simp [places, some_count.symm, rewriting_of_none places]
    exact iff_of_true fails (Or.inl listed)
  case inr =>
    have distinct : (patch.places data).dedup.length = 1 := by
      rw [places, List.replicate_dedup some_count, List.length_singleton]
    have succeeds : (patch.places data).length = patch.count := by
      rw [places, List.length_replicate]
    rw [listed, List.length_singleton, allOrNothing_of_outcome outcome, decide_eq_true succeeds,
      distinct]
    constructor
    · rintro ⟨told, -⟩
      have one := told.mp rfl
      exact Or.inr (by omega)
    · intro complete
      have one : patch.count = 1 := by
        rcases complete with none | enough
        · cases none
        · omega
      simp [one]

theorem allOrNothing_undisabled_iff (loaded : patch.kext = some .loaded)
    (counted : 1 ≤ patch.count) (enabled : writing.enable = true)
    (refused : writing.disable = false) :
    patch.AllOrNothing writing address data ↔
      patch.occurrences data = [] ∨ (patch.find = patch.replace ∧ patch.count ≠ 1) := by
  have some_count : patch.count ≠ 0 := by omega
  have outcome := apply_plain_undisabled plain loaded counted enabled refused address data
  have told : patch.AllOrNothing writing address data ↔
      (patch.places data).dedup.length ≠ patch.count ∧ patch.rewriting data = data := by
    rw [allOrNothing_of_outcome outcome]
    simp
  rw [told]
  by_cases same : patch.find = patch.replace
  case pos =>
    rcases places_of_same plain data same with
      ⟨listed, places⟩ | ⟨place, listed, places, unchanged⟩
    case inl => simp [listed, places, some_count.symm, rewriting_of_none places]
    case inr =>
      have again : ∀ rounds, (List.replicate rounds place).foldl
          (fun data place => overwrite data place patch.replace) data = data := by
        intro rounds
        induction rounds with
        | zero => rfl
        | succ rounds ih => rw [List.replicate_succ, List.foldl_cons, unchanged, ih]
      rw [rewriting_plain plain, places, again, listed, List.replicate_dedup some_count, List.length_singleton]
      simp [same, eq_comm]
  case neg =>
    simp only [same, false_and, or_false]
    constructor
    · rintro ⟨-, unchanged⟩
      by_contra found
      exact rewritten_ne plain counted same found unchanged
    · intro none_found
      have nothing : patch.places data = [] := by
        rw [places_eq_take plain data same, none_found, List.take_nil]
      exact ⟨by simpa [nothing] using some_count.symm, rewriting_of_none nothing⟩

end PlainPath

theorem apply_returns_iff (loaded : patch.kext = some .loaded) (counted : 1 ≤ patch.count)
    (enabled : writing.enable = true) (writable : ∀ number, writing.replacement number = true) :
    patch.apply writing ⟨address, data⟩ address data.length = none ↔
      ¬ patch.Plain ∧ (address = 0 ∨ data = []) := by
  by_cases plain : patch.Plain
  · cases disabled : writing.disable with
    | false =>
        rw [apply_plain_undisabled plain loaded counted enabled disabled]
        simp [plain]
    | true =>
        have outcome : patch.apply writing ⟨address, data⟩ address data.length = _ :=
          apply_plain plain loaded counted enabled disabled
        simp [plain, outcome]
  · by_cases missing : address = 0 ∨ data = []
    · have path : ¬ (patch.findMask = none ∧ patch.replaceMask = none ∧ patch.skip = 0) := plain
      simp [MaskedLookupPatch.apply, if_neg path, plain, missing]
    · obtain ⟨based, nonempty⟩ := not_or.mp missing
      simp [apply_masked plain based nonempty writable, missing]

/--
`Apply` does all or nothing, and says which, exactly if the image has none of what it looks for or at
least as much as it is to replace. At address 0 the masked path panics; the plain path fails as well
if kernel writing cannot be disabled again, and rewriting a pattern with itself goes unseen then.
-/
theorem allOrNothing_iff (patch : MaskedLookupPatch) (writing : Writing) (address : Int)
    (data : List Byte) (loaded : patch.kext = some .loaded) (counted : 1 ≤ patch.count)
    (enabled : writing.enable = true) (writable : ∀ number, writing.replacement number = true) :
    (patch.apply writing ⟨address, data⟩ address data.length = none ↔
      ¬ patch.Plain ∧ (address = 0 ∨ data = [])) ∧
    (patch.AllOrNothing writing address data ↔
      (¬ patch.Plain ∧ address = 0) ∨ patch.occurrences data = [] ∨
        (if patch.Plain ∧ writing.disable = false then patch.find = patch.replace ∧ patch.count ≠ 1
        else patch.count ≤ (patch.occurrences data).length)) := by
  refine ⟨apply_returns_iff loaded counted enabled writable, ?_⟩
  by_cases plain : patch.Plain
  case pos =>
    simp only [plain, not_true_eq_false, false_and, false_or, true_and]
    cases disabled : writing.disable with
    | false => exact allOrNothing_undisabled_iff plain loaded counted enabled disabled
    | true =>
        simp only [Bool.true_eq_false, if_false]
        by_cases same : patch.find = patch.replace
        · exact allOrNothing_same_iff plain loaded counted enabled disabled same
        · exact allOrNothing_plain_iff plain loaded counted enabled disabled same
  case neg =>
    simp only [plain, not_false_eq_true, true_and, false_and, if_false]
    by_cases based : address = 0
    case pos => exact iff_of_true (allOrNothing_of_panic plain (Or.inl based)) (Or.inl based)
    case neg =>
      simp only [based, false_or]
      exact allOrNothing_masked_iff plain counted based writable

theorem allOrNothing_two_matches :
    (⟨some .loaded, [1, 2], [3, 4], 2, rfl⟩ : LookupPatch).fullyMasked.AllOrNothing
      ⟨true, true, fun _ => true⟩ 4096 [1, 2, 0, 1, 2, 0] :=
  (allOrNothing_iff _ _ 4096 [1, 2, 0, 1, 2, 0] rfl (by decide) rfl (fun _ => rfl)).2.mpr
    (Or.inr (Or.inr (by decide)))

-- Two windows are wanted and there is one: a failure that leaves it rewritten, or a success.
theorem one_match_of_two_rewritten :
    ¬ (⟨some .loaded, [1, 2], [3, 4], 2, rfl⟩ : LookupPatch).unmasked.AllOrNothing
        ⟨true, true, fun _ => true⟩ 4096 [1, 2, 0, 0] ∧
      ¬ (⟨some .loaded, [1, 2], [3, 4], 2, rfl⟩ : LookupPatch).fullyMasked.AllOrNothing
        ⟨true, true, fun _ => true⟩ 4096 [1, 2, 0, 0] := by
  constructor
  · intro all
    have unchanged := (all false ⟨4096, [3, 4, 0, 0]⟩ (by decide)).2.2 rfl
    exact absurd unchanged (by decide)
  · intro all
    have told := (all true ⟨4096, [3, 4, 0, 0]⟩ (by decide)).2.1.mp rfl
    exact absurd told (by decide)

end AllOrNothing

end NootedDeck.Patcher
