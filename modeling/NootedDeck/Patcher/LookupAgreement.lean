import NootedDeck.Patcher.LookupRounds

set_option autoImplicit false

namespace NootedDeck.Patcher

open Bytes Windows

def matchWindowsFrom (find data : List Byte) (fuel offset : Nat) : List Nat :=
  greedy (matchesAt find none data) find.length (data.length - find.length + 1) fuel offset

def matchWindows (find data : List Byte) : List Nat :=
  matchWindowsFrom find data (data.length + 1) 0

def Reproduces (find replace data : List Byte) (place : Nat) : Prop :=
  ∃ shift < find.length, 0 < shift ∧ place + shift + find.length < data.length ∧
    replace.drop shift ++ window data (place + find.length) shift = find

instance (find replace data : List Byte) (place : Nat) :
    Decidable (Reproduces find replace data place) := by
  unfold Reproduces
  infer_instance

structure Separate (find replace data : List Byte) (rounds : Nat) (places : List Nat) : Prop where
  enough : rounds ≤ places.length
  beforeLast : ∀ place ∈ places.take rounds, place + find.length < data.length
  quiet : ∀ place ∈ places.take (rounds - 1), ¬Reproduces find replace data place

theorem separate_zero (find replace data : List Byte) (places : List Nat) :
    Separate find replace data 0 places :=
  ⟨Nat.zero_le _, by simp, by simp⟩

theorem separate_cons (find replace data : List Byte) (rounds place : Nat) (places : List Nat) :
    Separate find replace data (rounds + 1) (place :: places) ↔
      place + find.length < data.length ∧ (rounds ≠ 0 → ¬Reproduces find replace data place) ∧
        Separate find replace data rounds places := by
  cases rounds with
  | zero =>
      refine ⟨fun separate => ⟨separate.beforeLast place (by simp), by simp, separate_zero ..⟩, ?_⟩
      exact fun ⟨before, _, _⟩ => ⟨by simp, by simpa using before, by simp⟩
  | succ rounds =>
      constructor
      · intro ⟨enough, before, quiet⟩
        refine ⟨before place (by simp), fun _ => quiet place (by simp), ?_⟩
        refine ⟨by simpa using enough, fun next member => before next ?_,
          fun next member => quiet next ?_⟩
        · exact List.mem_cons_of_mem _ member
        · exact List.mem_cons_of_mem _ member
      · intro ⟨before, quiet, rest⟩
        refine ⟨by simpa using rest.enough, fun next member => ?_, fun next member => ?_⟩
        · rcases List.mem_cons.mp member with rfl | member
          · exact before
          · exact rest.beforeLast next member
        · rcases List.mem_cons.mp member with rfl | member
          · exact quiet (by omega)
          · exact rest.quiet next member

section Differing

variable {find replace : List Byte} (sized : replace.length = find.length) {differ : Nat}
  (same : ∀ index < differ, find[index]? = replace[index]?)

include sized same

theorem overwrite_match_below {data : List Byte} {place index : Nat}
    (found : window data place find.length = find)
    (fits : place + find.length ≤ data.length) (below : index < place + differ) :
    (overwrite data place replace)[index]? = data[index]? := by
  have room : place + replace.length ≤ data.length := by omega
  rw [overwrite_getElem? room]
  by_cases within : place ≤ index ∧ index < place + replace.length
  · have here := window_eq_iff.mp found (index - place) (by omega)
    rw [if_pos within, ← same (index - place) (by omega), ← here]
    congr 1
    omega
  · rw [if_neg within]

theorem replaceRounds_below (rounds offset index : Nat) (data : List Byte)
    (below : index < offset + differ) :
    (replaceRounds find replace rounds offset data).2[index]? = data[index]? := by
  induction rounds generalizing offset data with
  | zero => rfl
  | succ rounds ih =>
      rw [replaceRounds]
      cases first : findPattern find none data offset with
      | none => rfl
      | some place =>
          obtain ⟨-, found, low, fits, -⟩ := findPattern_eq_some.mp first
          simp only
          rw [ih (place + find.length) _ (by omega)]
          exact overwrite_match_below sized same ((matchesAt_none_iff ..).mp found) fits (by omega)

theorem lookupRounds_keeps (rounds offset place stop : Nat) (data : List Byte)
    (inside : differ < find.length) (limit : stop + find.length ≤ data.length)
    (from_place : place ≤ offset) (changed : data[place + differ]? = replace[differ]?) :
    (lookupRounds find replace stop rounds offset data).2[place + differ]? = replace[differ]? := by
  induction rounds generalizing offset data with
  | zero => exact changed
  | succ rounds ih =>
      rw [lookupRounds]
      cases first : firstIn (matchesAt find none data) offset stop with
      | none => exact changed
      | some next =>
          obtain ⟨found, low, high, -⟩ := firstIn_eq_some.mp first
          have room : next + replace.length ≤ data.length := by omega
          refine ih next _ (by rw [overwrite_length room]; exact limit) (by omega) ?_
          by_cases again : next = place
          · subst again
            exact overwrite_inside room (by omega)
          · rw [overwrite_match_below sized same ((matchesAt_none_iff ..).mp found) (by omega)
              (by omega)]
            exact changed

-- A match inside the window just written: the plain search rewrites it, the masked search has
-- passed it, and the images never meet again.
theorem rounds_differ_of_match {data : List Byte} {rounds offset next stop place : Nat}
    (inside : differ < find.length) (apart : find[differ]? ≠ replace[differ]?)
    (limit : stop + find.length ≤ data.length)
    (first : firstIn (matchesAt find none data) offset stop = some place) (passed : place < next) :
    (lookupRounds find replace stop (rounds + 1) offset data).2 ≠
      (replaceRounds find replace (rounds + 1) next data).2 := by
  intro agree
  obtain ⟨found, low, high, -⟩ := firstIn_eq_some.mp first
  have room : place + replace.length ≤ data.length := by omega
  have plain : (lookupRounds find replace stop (rounds + 1) offset data).2[place + differ]? =
      replace[differ]? := by
    rw [lookupRounds, first]
    exact lookupRounds_keeps sized same rounds place place stop _ inside
      (by rw [overwrite_length room]; exact limit) (Nat.le_refl _) (overwrite_inside room (by omega))
  have masked : (replaceRounds find replace (rounds + 1) next data).2[place + differ]? =
      find[differ]? := by
    rw [replaceRounds_below sized same _ _ _ _ (by omega)]
    exact window_eq_iff.mp ((matchesAt_none_iff ..).mp found) differ inside
  exact apart (by rw [← masked, ← agree, plain])

end Differing

theorem exists_first_difference {find replace : List Byte} (sized : replace.length = find.length)
    (changes : find ≠ replace) :
    ∃ differ < find.length, find[differ]? ≠ replace[differ]? ∧
      ∀ index < differ, find[index]? = replace[index]? := by
  have some_index : ∃ index : Nat, find[index]? ≠ replace[index]? := by
    by_contra none_differs
    exact changes (List.ext_getElem? fun index => by
      by_contra differs
      exact none_differs ⟨index, differs⟩)
  refine ⟨Nat.find some_index, ?_, Nat.find_spec some_index, fun index lower => ?_⟩
  · by_contra beyond
    refine Nat.find_spec some_index ?_
    rw [List.getElem?_eq_none (by omega), List.getElem?_eq_none (by omega)]
  · by_contra differs
    exact Nat.find_min some_index lower differs

theorem findPattern_eq_firstIn {find data : List Byte} (positive : 0 < find.length)
    (long : find.length ≤ data.length) (offset : Nat) :
    findPattern find none data offset =
      firstIn (matchesAt find none data) offset (data.length - find.length + 1) := by
  rw [findPattern, if_neg (by omega)]

theorem findPattern_congr {find data other : List Byte} {offset : Nat}
    (length : data.length = other.length)
    (agree : ∀ index, offset ≤ index → data[index]? = other[index]?) :
    findPattern find none data offset = findPattern find none other offset := by
  unfold findPattern
  rw [length]
  congr 1
  apply firstIn_congr
  intro place low _
  rw [Bool.eq_iff_iff, matchesAt_none_iff, matchesAt_none_iff,
    window_congr fun index from_place => agree index (by omega)]

-- Where no window between the cursors matches, the plain search finds what the masked search
-- finds, but for the last window of the image.
theorem lookup_first_eq {find data : List Byte} {offset next : Nat} (positive : 0 < find.length)
    (long : find.length ≤ data.length) (low : offset ≤ next)
    (quiet : ∀ place, offset ≤ place → place < next → place + find.length < data.length →
      matchesAt find none data place = false) :
    firstIn (matchesAt find none data) offset (data.length - find.length) =
      (findPattern find none data next).filter fun place =>
        decide (place + find.length < data.length) := by
  rw [findPattern_eq_firstIn positive long]
  cases first : firstIn (matchesAt find none data) next (data.length - find.length + 1) with
  | none =>
      rw [firstIn_eq_none] at first
      rw [Option.filter_none, firstIn_eq_none]
      intro place lower below
      by_cases early : place < next
      · exact quiet place lower early (by omega)
      · exact first place (by omega) (by omega)
  | some place =>
      obtain ⟨found, lower, below, least⟩ := firstIn_eq_some.mp first
      have before : ∀ earlier, offset ≤ earlier → earlier < place →
          matchesAt find none data earlier = false := by
        intro earlier after lower'
        by_cases early : earlier < next
        · exact quiet earlier after early (by omega)
        · exact least earlier (by omega) lower'
      by_cases last : place + find.length < data.length
      · rw [Option.filter_some, decide_eq_true last, if_pos rfl, firstIn_eq_some]
        exact ⟨found, by omega, by omega, before⟩
      · rw [Option.filter_some, decide_eq_false last, if_neg (by simp), firstIn_eq_none]
        exact fun earlier after lower' => before earlier after (by omega)

theorem matchWindowsFrom_eq {find data : List Byte} {fuel offset : Nat}
    (positive : 0 < find.length) (long : find.length ≤ data.length)
    (enough : data.length < fuel + offset) :
    matchWindowsFrom find data fuel offset =
      match findPattern find none data offset with
      | none => []
      | some place => place :: matchWindowsFrom find data (fuel - 1) (place + find.length) := by
  cases fuel with
  | zero =>
      have nothing : findPattern find none data offset = none := by
        rw [findPattern_eq_firstIn positive long, firstIn_eq_none]
        intro place low high
        omega
      rw [nothing]
      rfl
  | succ fuel => rw [findPattern_eq_firstIn positive long]; rfl

theorem reproduces_iff_match {find replace data current : List Byte} {place : Nat}
    (sized : replace.length = find.length) (changes : find ≠ replace)
    (length : current.length = data.length)
    (agree : ∀ index, place + find.length ≤ index → current[index]? = data[index]?)
    (fits : place + find.length ≤ data.length) :
    Reproduces find replace data place ↔
      ∃ next, place ≤ next ∧ next < place + find.length ∧ next + find.length < data.length ∧
        matchesAt find none (overwrite current place replace) next = true := by
  have room : place + replace.length ≤ current.length := by omega
  have written : ∀ shift ≤ find.length, window (overwrite current place replace) (place + shift)
      find.length = replace.drop shift ++ window data (place + find.length) shift := by
    intro shift within
    have overlap := window_overwrite_overlap room (by omega : shift ≤ replace.length)
    rwa [sized, window_congr agree] at overlap
  constructor
  · intro ⟨shift, within, positive, before, again⟩
    refine ⟨place + shift, by omega, by omega, before, ?_⟩
    rw [matchesAt_none_iff, written shift (by omega), again]
  · intro ⟨next, low, high, before, found⟩
    rw [matchesAt_none_iff, ← Nat.add_sub_cancel' low, written (next - place) (by omega)] at found
    refine ⟨next - place, by omega, ?_, by omega, found⟩
    -- A match at the very place would be the replacement itself.
    by_contra zero
    have none_shifted : next - place = 0 := by omega
    rw [none_shifted] at found
    exact changes (by simpa [window] using found.symm)

theorem rounds_differ_of_reproduces {find replace data current : List Byte} {place : Nat}
    (sized : replace.length = find.length) (changes : find ≠ replace)
    (length : current.length = data.length)
    (agree : ∀ index, place + find.length ≤ index → current[index]? = data[index]?)
    (fits : place + find.length ≤ data.length) (again : Reproduces find replace data place)
    (rounds : Nat) :
    (lookupRounds find replace (data.length - find.length) (rounds + 1) place
        (overwrite current place replace)).2 ≠
      (replaceRounds find replace (rounds + 1) (place + find.length)
        (overwrite current place replace)).2 := by
  have written : (overwrite current place replace).length = data.length := by
    rw [overwrite_length (by omega), length]
  obtain ⟨differ, inside, apart, same⟩ := exists_first_difference sized changes
  obtain ⟨shifted, low, high, before, found⟩ :=
    (reproduces_iff_match sized changes length agree fits).mp again
  cases second : firstIn (matchesAt find none (overwrite current place replace)) place
      (data.length - find.length) with
  | none =>
      rw [firstIn_eq_none] at second
      simpa [found] using second shifted low (by omega)
  | some other =>
      obtain ⟨-, -, -, least⟩ := firstIn_eq_some.mp second
      have early : other ≤ shifted := by
        by_contra later
        simpa [found] using least shifted low (by omega)
      exact rounds_differ_of_match sized same inside apart (by omega) second (by omega)

-- The image the searches work on is `current`; it still is the original from the masked cursor on.
theorem rounds_agree_iff {find replace data : List Byte} (positive : 0 < find.length)
    (long : find.length ≤ data.length) (sized : replace.length = find.length)
    (changes : find ≠ replace) (rounds offset next fuel : Nat) (current : List Byte)
    (length : current.length = data.length)
    (agree : ∀ index, next ≤ index → current[index]? = data[index]?) (low : offset ≤ next)
    (quiet : ∀ place, offset ≤ place → place < next → place + find.length < data.length →
      matchesAt find none current place = false)
    (enough : data.length < fuel + next) :
    ((lookupRounds find replace (data.length - find.length) rounds offset current).1 = rounds ∧
      (lookupRounds find replace (data.length - find.length) rounds offset current).2 =
        (replaceRounds find replace rounds next current).2) ↔
      Separate find replace data rounds (matchWindowsFrom find data fuel next) := by
  induction rounds generalizing offset next fuel current with
  | zero => simp only [lookupRounds, replaceRounds, separate_zero, and_self]
  | succ rounds ih =>
      have longer : find.length ≤ current.length := by omega
      have first := lookup_first_eq positive longer low (by rwa [length])
      rw [length, findPattern_congr length agree] at first
      rw [matchWindowsFrom_eq positive long enough, lookupRounds, replaceRounds, first,
        findPattern_congr length agree]
      cases found : findPattern find none data next with
      | none =>
          refine iff_of_false (fun both => ?_) (fun separate => ?_)
          · simp at both
          · simpa using separate.enough
      | some place =>
          obtain ⟨-, -, lower, fits, -⟩ := findPattern_eq_some.mp found
          rw [separate_cons]
          by_cases before : place + find.length < data.length
          · have kept : (some place).filter (fun place => decide (place + find.length < data.length)) =
                some place := by simp [before]
            have room : place + replace.length ≤ current.length := by omega
            have written : (overwrite current place replace).length = data.length := by
              rw [overwrite_length room, length]
            have after : ∀ index, place + find.length ≤ index →
                (overwrite current place replace)[index]? = data[index]? := by
              intro index beyond
              rw [overwrite_outside room (by omega), agree index (by omega)]
            simp only [kept, Nat.add_right_cancel_iff, before, true_and]
            by_cases last : rounds = 0
            · subst last
              simp only [lookupRounds, replaceRounds, separate_zero, ne_eq, not_true_eq_false,
                false_implies, and_self]
            · by_cases again : Reproduces find replace data place
              · refine iff_of_false (fun both => ?_) (fun conditions => conditions.1 last again)
                obtain ⟨rounds, rfl⟩ := Nat.exists_eq_succ_of_ne_zero last
                exact rounds_differ_of_reproduces sized changes length
                  (fun index beyond => agree index (by omega)) fits again rounds both.2
              · have still : ∀ other, place ≤ other → other < place + find.length →
                    other + find.length < data.length →
                    matchesAt find none (overwrite current place replace) other = false := by
                  intro other low' high' before'
                  rw [Bool.eq_false_iff]
                  exact fun found' => again ((reproduces_iff_match sized changes length
                    (fun index beyond => agree index (by omega)) fits).mpr
                      ⟨other, low', high', before', found'⟩)
                rw [ih place (place + find.length) (fuel - 1) _ written after (by omega) still
                  (by omega)]
                simp only [again, not_false_eq_true, implies_true, true_and]
          · have dropped : (some place).filter
                (fun place => decide (place + find.length < data.length)) = none := by
              rw [Option.filter_some, decide_eq_false before, if_neg (by simp)]
            refine iff_of_false (fun both => ?_) (fun conditions => before conditions.1)
            simp [dropped] at both

theorem lookupRounds_unchanged (find : List Byte) (stop rounds offset : Nat) (data : List Byte)
    (limit : stop + find.length ≤ data.length) :
    lookupRounds find find stop rounds offset data =
      ((if (firstIn (matchesAt find none data) offset stop).isSome then rounds else 0), data) := by
  induction rounds generalizing offset with
  | zero => simp [lookupRounds]
  | succ rounds ih =>
      rw [lookupRounds]
      cases first : firstIn (matchesAt find none data) offset stop with
      | none => rfl
      | some place =>
          obtain ⟨found, low, high, -⟩ := firstIn_eq_some.mp first
          simp only [overwrite_same (by omega) ((matchesAt_none_iff ..).mp found), ih place,
            firstIn_again first, Option.isSome_some, if_true]

theorem replaceRounds_unchanged (find : List Byte) (rounds offset : Nat) (data : List Byte) :
    (replaceRounds find find rounds offset data).2 = data := by
  induction rounds generalizing offset with
  | zero => rfl
  | succ rounds ih =>
      rw [replaceRounds]
      cases first : findPattern find none data offset with
      | none => rfl
      | some place =>
          obtain ⟨-, found, -, fits, -⟩ := findPattern_eq_some.mp first
          simp only [overwrite_same fits ((matchesAt_none_iff ..).mp found), ih]

def LookupPatch.unmasked (patch : LookupPatch) : MaskedLookupPatch :=
  { patch with findMask := none, replaceMask := none, skip := 0 }

def LookupPatch.fullyMasked (patch : LookupPatch) : MaskedLookupPatch :=
  { patch with
    findMask := some (List.replicate patch.find.length 0xFF)
    replaceMask := some (List.replicate patch.replace.length 0xFF)
    skip := 0 }

section Apply

variable (patch : LookupPatch) (writing : Writing) (address : Int) (data : List Byte)
  (loaded : patch.kext = some .loaded) (positive : patch.find ≠ []) (counted : 1 ≤ patch.count)
  (enabled : writing.enable = true) (disabled : writing.disable = true)
  (writable : ∀ number, writing.replacement number = true)

include loaded enabled disabled counted in
theorem apply_unmasked_long (long : patch.find.length ≤ data.length) :
    patch.unmasked.apply writing ⟨address, data⟩ address data.length =
      some (decide ((lookupRounds patch.find patch.replace (data.length - patch.find.length)
          patch.count 0 data).1 = patch.count),
        ⟨address, (lookupRounds patch.find patch.replace (data.length - patch.find.length)
          patch.count 0 data).2⟩) := by
  have stop : address + (data.length : Int) - (patch.size : Int) =
      address + ((data.length - patch.find.length : Nat) : Int) := by
    rw [LookupPatch.size]
    omega
  have rounds := lookupLoop_eq patch address (data.length - patch.find.length) patch.count 0 0 data
    (Nat.zero_le _) (Nat.le_refl _) counted
  rw [Nat.sub_self, Nat.cast_zero, Int.add_zero, Nat.zero_add] at rounds
  have some_count : patch.count ≠ 0 := by omega
  simp only [MaskedLookupPatch.apply, LookupPatch.unmasked, and_self, if_true, applyLookupPatch,
    loaded, reduceCtorEq, Option.some.injEq, if_false, Int.lt_irrefl, and_false, enabled,
    Bool.true_eq_false, some_count, stop, rounds, Option.map_some, disabled, ne_eq]
  split_ifs with few <;> simp_all

include loaded enabled disabled counted in
theorem apply_unmasked_short (short : data.length < patch.find.length) :
    patch.unmasked.apply writing ⟨address, data⟩ address data.length =
      some (false, ⟨address, data⟩) := by
  have exceeded : ¬address < address + (data.length : Int) - (patch.size : Int) := by
    rw [LookupPatch.size]
    omega
  obtain ⟨count, more⟩ : ∃ count, patch.count = count + 1 := ⟨patch.count - 1, by omega⟩
  simp [MaskedLookupPatch.apply, LookupPatch.unmasked, applyLookupPatch, loaded, enabled, disabled,
    more, lookupLoop, exceeded]

include counted writable in
theorem apply_fullyMasked (based : address ≠ 0) (nonempty : data ≠ []) :
    patch.fullyMasked.apply writing ⟨address, data⟩ address data.length =
      some (decide (0 < (replaceRounds patch.find patch.replace patch.count 0 data).1),
        ⟨address, (replaceRounds patch.find patch.replace patch.count 0 data).2⟩) := by
  have whole : window data 0 data.length = data := by simp [window]
  have every : writing.replacement = fun _ => true := funext writable
  have some_bytes : ¬(address = 0 ∨ data.length = 0) := by simp [based, nonempty]
  have length := replaceRounds_length patch.find patch.replace patch.sized patch.count 0 data
  have result : findAndReplaceWithMask (fun _ => true) data patch.find
      (some (List.replicate patch.find.length 0xFF)) patch.replace
      (some (List.replicate patch.replace.length 0xFF)) patch.count 0 =
      (decide (0 < (replaceRounds patch.find patch.replace patch.count 0 data).1),
        (replaceRounds patch.find patch.replace patch.count 0 data).2) := by
    rw [findAndReplaceWithMask]
    split_ifs with short
    · have nothing : findPattern patch.find none data 0 = none := by
        rw [findPattern, if_pos (Or.inr short)]
      obtain ⟨count, more⟩ : ∃ count, patch.count = count + 1 := ⟨patch.count - 1, by omega⟩
      simp [more, replaceRounds, nothing]
    · rw [replaceLoop_eq _ _ patch.sized _ _ _ _ _ (by omega) (by omega), Nat.zero_add]
  simp only [MaskedLookupPatch.apply, LookupPatch.fullyMasked, reduceCtorEq, false_and, if_false,
    some_bytes, Image.window, Int.sub_self, Int.toNat_zero, whole, every, result, Image.write,
    overwrite_all length]

include positive in
theorem matchWindows_eq_nil :
    matchWindows patch.find data = [] ↔ findPattern patch.find none data 0 = none := by
  have some_byte := List.length_pos_iff.mpr positive
  by_cases long : patch.find.length ≤ data.length
  · rw [matchWindows, matchWindowsFrom_eq some_byte long (by omega)]
    cases findPattern patch.find none data 0 <;> simp
  · have nothing : findPattern patch.find none data 0 = none := by
      rw [findPattern, if_pos (by omega)]
    have absent : firstIn (matchesAt patch.find none data) 0 (data.length - patch.find.length + 1) =
        none := by
      rw [firstIn_eq_none]
      intro place _ _
      rw [Bool.eq_false_iff, ne_eq, matchesAt_none_iff]
      intro found
      have shorter := congrArg List.length found
      simp only [window, List.length_take, List.length_drop] at shorter
      omega
    simp [matchWindows, matchWindowsFrom, greedy, absent, nothing]

include loaded enabled disabled counted in
theorem apply_unmasked_ne_none :
    patch.unmasked.apply writing ⟨address, data⟩ address data.length ≠ none := by
  by_cases long : patch.find.length ≤ data.length
  · rw [apply_unmasked_long patch writing address data loaded counted enabled disabled long]
    exact Option.some_ne_none _
  · rw [apply_unmasked_short patch writing address data loaded counted enabled disabled (by omega)]
    exact Option.some_ne_none _

theorem apply_fullyMasked_panics (missing : address = 0 ∨ data = []) :
    patch.fullyMasked.apply writing ⟨address, data⟩ address data.length = none := by
  have empty : address = 0 ∨ data.length = 0 := by simpa using missing
  simp only [MaskedLookupPatch.apply, LookupPatch.fullyMasked, reduceCtorEq, false_and, if_false,
    empty, if_true]

include loaded positive counted enabled disabled writable in
theorem apply_agree_of_no_match (based : address ≠ 0) (nonempty : data ≠ [])
    (nothing : findPattern patch.find none data 0 = none) :
    patch.unmasked.apply writing ⟨address, data⟩ address data.length =
      patch.fullyMasked.apply writing ⟨address, data⟩ address data.length := by
  obtain ⟨count, more⟩ : ∃ count, patch.count = count + 1 := ⟨patch.count - 1, by omega⟩
  have masked : replaceRounds patch.find patch.replace patch.count 0 data = (0, data) := by
    simp only [more, replaceRounds, nothing]
  rw [apply_fullyMasked patch writing address data counted writable based nonempty, masked]
  by_cases long : patch.find.length ≤ data.length
  · have first := lookup_first_eq (List.length_pos_iff.mpr positive) long (Nat.le_refl 0) (by omega)
    rw [apply_unmasked_long patch writing address data loaded counted enabled disabled long]
    simp [more, lookupRounds, first, nothing]
  · rw [apply_unmasked_short patch writing address data loaded counted enabled disabled (by omega)]
    rfl

include loaded counted enabled disabled writable in
theorem apply_agree_of_match (based : address ≠ 0) (nonempty : data ≠ []) {place : Nat}
    (found : findPattern patch.find none data 0 = some place) :
    patch.unmasked.apply writing ⟨address, data⟩ address data.length =
        patch.fullyMasked.apply writing ⟨address, data⟩ address data.length ↔
      (lookupRounds patch.find patch.replace (data.length - patch.find.length) patch.count 0 data).1 =
          patch.count ∧
        (lookupRounds patch.find patch.replace (data.length - patch.find.length) patch.count 0 data).2 =
          (replaceRounds patch.find patch.replace patch.count 0 data).2 := by
  obtain ⟨-, -, -, fits, -⟩ := findPattern_eq_some.mp found
  obtain ⟨count, more⟩ : ∃ count, patch.count = count + 1 := ⟨patch.count - 1, by omega⟩
  have answered : 0 < (replaceRounds patch.find patch.replace patch.count 0 data).1 := by
    rw [more]
    exact replaceRounds_positive _ _ _ _ _ _ found
  rw [apply_unmasked_long patch writing address data loaded counted enabled disabled (by omega),
    apply_fullyMasked patch writing address data counted writable based nonempty,
    decide_eq_true answered]
  simp only [Option.some.injEq, Prod.mk.injEq, decide_eq_true_eq, Image.mk.injEq, true_and]

end Apply

-- The plain path leaves the last window out, goes on from the place it rewrote and wants exactly
-- `count` changes; the masked path does neither and is content with one. `Start` or `Size` of zero
-- panics on the masked path only.
theorem apply_unmasked_eq_fullyMasked_iff (patch : LookupPatch) (writing : Writing) (address : Int)
    (data : List Byte) (loaded : patch.kext = some .loaded) (positive : patch.find ≠ [])
    (counted : 1 ≤ patch.count) (enabled : writing.enable = true) (disabled : writing.disable = true)
    (writable : ∀ number, writing.replacement number = true) :
    patch.unmasked.apply writing ⟨address, data⟩ address data.length =
        patch.fullyMasked.apply writing ⟨address, data⟩ address data.length ↔
      address ≠ 0 ∧ data ≠ [] ∧
        (matchWindows patch.find data = [] ∨
          (patch.find = patch.replace ∧
            ∀ place ∈ (matchWindows patch.find data).head?,
              place + patch.find.length < data.length) ∨
          (patch.find ≠ patch.replace ∧
            Separate patch.find patch.replace data patch.count (matchWindows patch.find data))) := by
  have some_byte := List.length_pos_iff.mpr positive
  by_cases missing : address = 0 ∨ data = []
  · -- The masked path panics, the plain path answers.
    rw [apply_fullyMasked_panics patch writing address data missing]
    exact iff_of_false
      (apply_unmasked_ne_none patch writing address data loaded counted enabled disabled)
      (fun conditions => missing.elim conditions.1 conditions.2.1)
  · obtain ⟨based, nonempty⟩ := not_or.mp missing
    simp only [ne_eq, based, nonempty, not_false_eq_true, true_and]
    cases found : findPattern patch.find none data 0 with
    | none =>
        exact iff_of_true
          (apply_agree_of_no_match patch writing address data loaded positive counted enabled disabled
            writable based nonempty found)
          (Or.inl ((matchWindows_eq_nil patch data positive).mpr found))
    | some place =>
        obtain ⟨-, -, -, fits, -⟩ := findPattern_eq_some.mp found
        have long : patch.find.length ≤ data.length := by omega
        have windows : (matchWindows patch.find data).head? = some place := by
          rw [matchWindows, matchWindowsFrom_eq some_byte long (by omega), found]
          rfl
        have some_window : matchWindows patch.find data ≠ [] := by
          intro empty
          simp [empty] at windows
        rw [apply_agree_of_match patch writing address data loaded counted enabled disabled writable
          based nonempty found]
        simp only [some_window, false_or]
        by_cases changes : patch.find = patch.replace
        · -- Rewriting a match with itself: every round finds the first match again.
          have some_count : patch.count ≠ 0 := by omega
          have first := lookup_first_eq some_byte long (Nat.le_refl 0) (by omega)
          rw [← changes, lookupRounds_unchanged _ _ _ _ _ (by omega), replaceRounds_unchanged, first,
            found, windows]
          by_cases before : place + patch.find.length < data.length
          · simp [before]
          · simp [Option.filter_some, before, some_count.symm]
        · simp only [changes, false_and, not_false_eq_true, true_and, false_or]
          exact rounds_agree_iff some_byte long patch.sized changes patch.count 0 0 _ data rfl
            (fun _ _ => rfl) (Nat.le_refl 0) (by omega) (by omega)

theorem apply_paths_agree_on_two_matches :
    (⟨some .loaded, [1, 2], [3, 4], 2, rfl⟩ : LookupPatch).unmasked.apply ⟨true, true, fun _ => true⟩
        ⟨4096, [1, 2, 0, 1, 2, 0]⟩ 4096 6 =
      (⟨some .loaded, [1, 2], [3, 4], 2, rfl⟩ : LookupPatch).fullyMasked.apply
        ⟨true, true, fun _ => true⟩ ⟨4096, [1, 2, 0, 1, 2, 0]⟩ 4096 6 :=
  (apply_unmasked_eq_fullyMasked_iff _ _ 4096 [1, 2, 0, 1, 2, 0] rfl (by decide) (by decide) rfl rfl
    (fun _ => rfl)).mpr
    ⟨by decide, by decide, Or.inr (Or.inr ⟨by decide, by decide, by decide, by decide⟩)⟩

-- The only match is the last window: the plain path leaves the image alone and reports a failure.
theorem apply_paths_differ_on_last_window :
    (⟨some .loaded, [1, 2], [3, 4], 1, rfl⟩ : LookupPatch).unmasked.apply ⟨true, true, fun _ => true⟩
        ⟨4096, [0, 1, 2]⟩ 4096 3 = some (false, ⟨4096, [0, 1, 2]⟩) ∧
      (⟨some .loaded, [1, 2], [3, 4], 1, rfl⟩ : LookupPatch).fullyMasked.apply
        ⟨true, true, fun _ => true⟩ ⟨4096, [0, 1, 2]⟩ 4096 3 = some (true, ⟨4096, [0, 3, 4]⟩) := by
  decide

end NootedDeck.Patcher
