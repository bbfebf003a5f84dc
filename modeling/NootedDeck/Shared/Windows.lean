import Mathlib.Data.List.Basic

set_option autoImplicit false

namespace Windows

variable {α : Type}

def window (data : List α) (offset size : Nat) : List α := (data.drop offset).take size

def overwrite (data : List α) (offset : Nat) (bytes : List α) : List α :=
  data.take offset ++ bytes ++ data.drop (offset + bytes.length)

theorem window_getElem? (data : List α) (offset size index : Nat) :
    (window data offset size)[index]? = if index < size then data[offset + index]? else none := by
  rw [window, List.getElem?_take, List.getElem?_drop]

theorem window_length {data : List α} {offset size : Nat} (inside : offset + size ≤ data.length) :
    (window data offset size).length = size := by
  simp only [window, List.length_take, List.length_drop]
  omega

theorem window_eq_iff {data word : List α} {offset : Nat} :
    window data offset word.length = word ↔
      ∀ index < word.length, data[offset + index]? = word[index]? := by
  constructor
  · intro same index within
    rw [← same, window_getElem?, if_pos within]
  · intro same
    apply List.ext_getElem?
    intro index
    rw [window_getElem?]
    by_cases within : index < word.length
    · rw [if_pos within, same index within]
    · rw [if_neg within, List.getElem?_eq_none (by omega)]

@[simp] theorem overwrite_length {data bytes : List α} {offset : Nat}
    (inside : offset + bytes.length ≤ data.length) :
    (overwrite data offset bytes).length = data.length := by
  simp only [overwrite, List.length_append, List.length_take, List.length_drop]
  omega

theorem overwrite_getElem? {data bytes : List α} {offset : Nat}
    (inside : offset + bytes.length ≤ data.length) (index : Nat) :
    (overwrite data offset bytes)[index]? =
      if offset ≤ index ∧ index < offset + bytes.length then bytes[index - offset]?
      else data[index]? := by
  have taken : (data.take offset).length = offset := by
    rw [List.length_take]
    omega
  rw [overwrite, List.append_assoc, List.getElem?_append, taken]
  by_cases early : index < offset
  · rw [if_pos early, List.getElem?_take, if_pos early, if_neg (by omega)]
  · rw [if_neg early, List.getElem?_append]
    by_cases within : index < offset + bytes.length
    · rw [if_pos (by omega), if_pos ⟨by omega, within⟩]
    · rw [if_neg (by omega), if_neg (by omega), List.getElem?_drop]
      congr 1
      omega

theorem overwrite_outside {data bytes : List α} {offset index : Nat}
    (inside : offset + bytes.length ≤ data.length)
    (outside : index < offset ∨ offset + bytes.length ≤ index) :
    (overwrite data offset bytes)[index]? = data[index]? := by
  rw [overwrite_getElem? inside, if_neg (by omega)]

theorem overwrite_inside {data bytes : List α} {offset index : Nat}
    (inside : offset + bytes.length ≤ data.length) (within : index < bytes.length) :
    (overwrite data offset bytes)[offset + index]? = bytes[index]? := by
  rw [overwrite_getElem? inside, if_pos (by omega), Nat.add_sub_cancel_left]

theorem overwrite_same {data bytes : List α} {offset : Nat}
    (inside : offset + bytes.length ≤ data.length)
    (same : window data offset bytes.length = bytes) : overwrite data offset bytes = data := by
  apply List.ext_getElem?
  intro index
  rw [overwrite_getElem? inside]
  by_cases within : offset ≤ index ∧ index < offset + bytes.length
  · have here := window_eq_iff.mp same (index - offset) (by omega)
    rw [if_pos within, ← here]
    congr 1
    omega
  · rw [if_neg within]

theorem overwrite_all {data other : List α} (sized : other.length = data.length) :
    overwrite data 0 other = other := by
  simp [overwrite, sized]

-- A window over the place just written: the tail of what was written, then what followed it.
theorem window_overwrite_overlap {data bytes : List α} {offset shift : Nat}
    (inside : offset + bytes.length ≤ data.length) (within : shift ≤ bytes.length) :
    window (overwrite data offset bytes) (offset + shift) bytes.length =
      bytes.drop shift ++ window data (offset + bytes.length) shift := by
  apply List.ext_getElem?
  intro index
  rw [window_getElem?, List.getElem?_append, List.length_drop, window_getElem?,
    overwrite_getElem? inside]
  by_cases inWindow : index < bytes.length
  · rw [if_pos inWindow]
    by_cases early : index < bytes.length - shift
    · rw [if_pos early, if_pos (by omega), List.getElem?_drop]
      congr 1
      omega
    · rw [if_neg early, if_neg (by omega), if_pos (by omega)]
      congr 1
      omega
  · rw [if_neg inWindow, if_neg (by omega), if_neg (by omega)]

theorem window_congr {data other : List α} {offset size : Nat}
    (same : ∀ index, offset ≤ index → data[index]? = other[index]?) :
    window data offset size = window other offset size := by
  apply List.ext_getElem?
  intro index
  rw [window_getElem?, window_getElem?, same (offset + index) (by omega)]

def firstIn (found : Nat → Bool) (start stop : Nat) : Option Nat :=
  (List.range' start (stop - start)).find? found

theorem firstIn_eq_some {found : Nat → Bool} {start stop place : Nat} :
    firstIn found start stop = some place ↔
      found place = true ∧ start ≤ place ∧ place < stop ∧
        ∀ earlier, start ≤ earlier → earlier < place → found earlier = false := by
  simp only [firstIn, List.find?_range'_eq_some, List.mem_range'_1, Bool.not_eq_true']
  constructor
  · rintro ⟨here, bounds, least⟩
    exact ⟨here, bounds.1, by omega, least⟩
  · rintro ⟨here, low, high, least⟩
    exact ⟨here, ⟨low, by omega⟩, least⟩

theorem firstIn_eq_none {found : Nat → Bool} {start stop : Nat} :
    firstIn found start stop = none ↔
      ∀ place, start ≤ place → place < stop → found place = false := by
  simp only [firstIn, List.find?_range'_eq_none, Bool.not_eq_true']
  constructor
  · exact fun absent place low high => absent place low (by omega)
  · exact fun absent place low high => absent place low (by omega)

theorem firstIn_congr {found other : Nat → Bool} {start stop : Nat}
    (same : ∀ place, start ≤ place → place < stop → found place = other place) :
    firstIn found start stop = firstIn other start stop := by
  cases first : firstIn other start stop with
  | none =>
      rw [firstIn_eq_none] at first ⊢
      exact fun place low high => (same place low high).trans (first place low high)
  | some place =>
      rw [firstIn_eq_some] at first ⊢
      obtain ⟨here, low, high, least⟩ := first
      refine ⟨(same place low high).trans here, low, high, fun earlier low' lower => ?_⟩
      exact (same earlier low' (by omega)).trans (least earlier low' lower)

theorem firstIn_again {found : Nat → Bool} {start stop place : Nat}
    (first : firstIn found start stop = some place) : firstIn found place stop = some place := by
  obtain ⟨here, -, high, -⟩ := firstIn_eq_some.mp first
  exact firstIn_eq_some.mpr ⟨here, Nat.le_refl _, high, fun _ _ _ => by omega⟩

theorem firstIn_skip {found : Nat → Bool} {start stop : Nat} (absent : found start = false) :
    firstIn found start stop = firstIn found (start + 1) stop := by
  by_cases here : start < stop
  · have count : stop - start = stop - (start + 1) + 1 := by omega
    rw [firstIn, count, List.range'_succ, List.find?_cons, absent]
    rfl
  · have ended : stop - start = 0 ∧ stop - (start + 1) = 0 := by omega
    rw [firstIn, firstIn, ended.1, ended.2]
    rfl

def greedy (found : Nat → Bool) (size stop : Nat) : Nat → Nat → List Nat
  | 0, _ => []
  | fuel + 1, start =>
      match firstIn found start stop with
      | none => []
      | some place => place :: greedy found size stop fuel (place + size)

theorem greedy_congr {found other : Nat → Bool} {size stop fuel start : Nat}
    (same : ∀ place, start ≤ place → place < stop → found place = other place) :
    greedy found size stop fuel start = greedy other size stop fuel start := by
  induction fuel generalizing start with
  | zero => rfl
  | succ fuel ih =>
      simp only [greedy, firstIn_congr same]
      cases first : firstIn other start stop with
      | none => rfl
      | some place =>
          obtain ⟨-, low, -⟩ := firstIn_eq_some.mp first
          have rest : greedy found size stop fuel (place + size) =
              greedy other size stop fuel (place + size) :=
            ih fun later above => same later (by omega)
          simp only [rest]

theorem firstIn_shift (found : Nat → Bool) (base start stop : Nat) :
    firstIn found (base + start) (base + stop) =
      (firstIn (fun place => found (base + place)) start stop).map (base + ·) := by
  cases first : firstIn (fun place => found (base + place)) start stop with
  | none =>
      rw [Option.map_none, firstIn_eq_none]
      intro place low high
      have absent := firstIn_eq_none.mp first (place - base) (by omega) (by omega)
      rwa [Nat.add_sub_cancel' (by omega)] at absent
  | some place =>
      obtain ⟨here, low, high, least⟩ := firstIn_eq_some.mp first
      rw [Option.map_some, firstIn_eq_some]
      constructor
      · exact here
      constructor
      · omega
      constructor
      · omega
      · intro earlier above below
        have absent := least (earlier - base) (by omega) (by omega)
        rwa [Nat.add_sub_cancel' (by omega)] at absent

theorem greedy_shift (found : Nat → Bool) (size base stop fuel start : Nat) :
    greedy found size (base + stop) fuel (base + start) =
      (greedy (fun place => found (base + place)) size stop fuel start).map (base + ·) := by
  induction fuel generalizing start with
  | zero => rfl
  | succ fuel ih =>
      simp only [greedy, firstIn_shift]
      cases firstIn (fun place => found (base + place)) start stop with
      | none => rfl
      | some place =>
          simp only [Option.map_some, List.map_cons, Nat.add_assoc, ih]

def Spaced (size : Nat) (places : List Nat) : Prop :=
  places.Pairwise fun earlier later => earlier + size ≤ later

theorem greedy_bounds {found : Nat → Bool} {size stop fuel start place : Nat}
    (member : place ∈ greedy found size stop fuel start) : start ≤ place ∧ place < stop := by
  induction fuel generalizing start with
  | zero => cases member
  | succ fuel ih =>
      rw [greedy] at member
      split at member
      · cases member
      next first found =>
        obtain ⟨-, low, high, -⟩ := firstIn_eq_some.mp found
        rcases List.mem_cons.mp member with rfl | later
        · exact ⟨low, high⟩
        · have bounds := ih later
          omega

theorem greedy_spaced (found : Nat → Bool) (size stop fuel start : Nat) :
    Spaced size (greedy found size stop fuel start) := by
  induction fuel generalizing start with
  | zero => exact List.Pairwise.nil
  | succ fuel ih =>
      rw [greedy]
      split
      · exact List.Pairwise.nil
      · exact List.Pairwise.cons (fun later member => (greedy_bounds member).1) (ih _)

section Rewriting

variable (change : Nat → α → α) (size : Nat)

def covers (index place : Nat) : Bool := decide (place ≤ index ∧ index < place + size)

def changeWindow (data : List α) (place : Nat) : List α :=
  data.mapIdx fun index value =>
    if place ≤ index ∧ index < place + size then change (index - place) value else value

def changeWindows (places : List Nat) (data : List α) : List α :=
  data.mapIdx fun index value =>
    match places.find? (covers size index) with
    | some place => change (index - place) value
    | none => value

theorem changeWindow_getElem? (data : List α) (place index : Nat) :
    (changeWindow change size data place)[index]? =
      if place ≤ index ∧ index < place + size then data[index]?.map (change (index - place))
      else data[index]? := by
  rw [changeWindow, List.getElem?_mapIdx]
  split <;> simp

theorem changeWindows_getElem? (places : List Nat) (data : List α) (index : Nat) :
    (changeWindows change size places data)[index]? =
      match places.find? (covers size index) with
      | some place => data[index]?.map (change (index - place))
      | none => data[index]? := by
  rw [changeWindows, List.getElem?_mapIdx]
  split <;> simp

theorem changeWindows_nil (data : List α) : changeWindows change size [] data = data := by
  apply List.ext_getElem?
  intro index
  rw [changeWindows_getElem?]
  rfl

theorem foldl_changeWindow {places : List Nat} (spaced : Spaced size places) (data : List α) :
    places.foldl (changeWindow change size) data = changeWindows change size places data := by
  induction places generalizing data with
  | nil => exact (changeWindows_nil change size data).symm
  | cons place rest ih =>
      obtain ⟨apart, later⟩ := List.pairwise_cons.mp spaced
      rw [List.foldl_cons, ih later]
      apply List.ext_getElem?
      intro index
      rw [changeWindows_getElem?, changeWindows_getElem?, changeWindow_getElem?, List.find?_cons]
      by_cases covered : place ≤ index ∧ index < place + size
      · -- no later window reaches back to this one
        have alone : rest.find? (covers size index) = none := by
          rw [List.find?_eq_none]
          intro other member
          have behind := apart other member
          simp only [covers, decide_eq_true_iff]
          omega
        simp only [alone, covers, covered, and_self, decide_true, if_true]
      · simp only [covers, covered, decide_false, if_false]

theorem find_covers_map (base index : Nat) (places : List Nat) :
    (places.map (base + ·)).find? (covers size (base + index)) =
      (places.find? (covers size index)).map (base + ·) := by
  rw [List.find?_map]
  congr 2
  funext place
  simp only [Function.comp_apply, covers, decide_eq_decide]
  omega

theorem overwrite_changeWindows {data : List α} {base length : Nat} {places : List Nat}
    (inside : base + length ≤ data.length) (within : ∀ place ∈ places, place + size ≤ length) :
    overwrite data base (changeWindows change size places (window data base length)) =
      changeWindows change size (places.map (base + ·)) data := by
  have part : (changeWindows change size places (window data base length)).length = length := by
    rw [changeWindows, List.length_mapIdx, window_length inside]
  apply List.ext_getElem?
  intro index
  rw [overwrite_getElem? (by omega), part, changeWindows_getElem? change size (places.map _)]
  by_cases inPart : base ≤ index ∧ index < base + length
  · obtain ⟨offset, rfl⟩ := Nat.exists_eq_add_of_le inPart.1
    rw [if_pos inPart, Nat.add_sub_cancel_left, changeWindows_getElem?, window_getElem?,
      if_pos (by omega), find_covers_map]
    cases places.find? (covers size offset) with
    | none => rfl
    | some place => simp only [Option.map_some, Nat.add_sub_add_left]
  · have uncovered : (places.map (base + ·)).find? (covers size index) = none := by
      rw [List.find?_eq_none]
      intro moved member
      obtain ⟨place, listed, rfl⟩ := List.mem_map.mp member
      have fits := within place listed
      simp only [covers, decide_eq_true_iff]
      omega
    rw [if_neg inPart, uncovered]

end Rewriting

end Windows
