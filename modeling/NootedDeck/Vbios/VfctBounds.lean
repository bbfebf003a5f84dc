import NootedDeck.Vbios.VfctLoop

set_option autoImplicit false

namespace NootedDeck.Vbios

open Inspection Inspect

section Layout

-- `auto *VFCT` hides the structure of the same name: `sizeof(VFCT)` is the size of the pointer.
def sizeofPointer : Nat := 8

structure DeclaredLayout extends VfctLayout where
  sizeofStructure : Nat
  imageOffsetPlace : Nat
  guarded : sizeofVFCT = sizeofPointer
  imageOffset : vbiosImageOffset = readDouble imageOffsetPlace
  imageOffsetInside : imageOffsetPlace + 4 ≤ sizeofStructure
  headerInside : ∀ memory, Within memory sizeofHeader header

end Layout

section Reads

variable {layout : DeclaredLayout} {ids : DeviceIds} {strict : Bool} {table : Image}
variable {data : BytesNoCopy table.size}

theorem within_pass (offset : BitVec 32) :
    Within table.bytes table.size (pass layout.toVfctLayout ids strict data offset) := by
  unfold pass
  split_ifs with before header
  · rw [within_bind]
    constructor
    · exact within_shift _ _ (layout.headerInside _) (data.whole _ _ header)
    · dsimp only
      split_ifs <;> exact within_pure _ _ _
  all_goals exact within_pure _ _ _

theorem within_selectFrom (fuel : Nat) (offset : BitVec 32) :
    Within table.bytes table.size
      (selectFrom layout.toVfctLayout ids strict data fuel offset) := by
  induction fuel generalizing offset with
  | zero => exact within_pure _ _ _
  | succ fuel ih =>
      rw [selectFrom, within_bind]
      constructor
      · exact within_pass offset
      · cases (pass layout.toVfctLayout ids strict data offset).value table.bytes with
        | leaves | chooses => exact within_pure _ _ _
        | continues start next => exact ih next

theorem within_selectVFCT_iff :
    Within table.bytes table.size (selectVFCT layout.toVfctLayout ids strict data) ↔
      (sizeofPointer ≤ table.size → layout.imageOffsetPlace + 4 ≤ table.size) := by
  unfold selectVFCT
  rw [within_unless, within_bind, layout.guarded, Nat.not_lt, layout.imageOffset]
  simp only [within_selectFrom, and_true, readDouble, within_bind, within_readWord, within_pure]
  constructor
  · intro inside guarded
    have field := inside guarded
    omega
  · intro inside guarded
    have field := inside guarded
    omega

theorem selectFrom_chosen_fits (short : table.size < 2 ^ 32) {start length : Nat} (fuel : Nat)
    (offset : BitVec 32)
    (chosen : (selectFrom layout.toVfctLayout ids strict data fuel offset).value table.bytes =
      .chosen start length) : start + length ≤ table.size := by
  induction fuel generalizing offset with
  | zero => cases chosen
  | succ fuel ih =>
      rw [selectFrom_value_succ] at chosen
      rcases pass_value short offset with left | ⟨checked, value⟩
      · rw [left] at chosen
        cases chosen
      · rw [value] at chosen
        split_ifs at chosen
        · cases chosen
          exact checked.fits
        · exact ih _ chosen

theorem search_found_fits (short : table.size < 2 ^ 32) {start length : Nat}
    (found : (searchVFCT layout.toVfctLayout ids strict table.size).value table.bytes =
      .found start length) : start + length ≤ table.size := by
  rw [searchVFCT_eq_bind, value_bind] at found
  cases selected : (selectVFCT layout.toVfctLayout ids strict (rangeChecked table.size)).value
      table.bytes with
  | nothing | unfinished =>
      rw [selected] at found
      cases found
  | chosen first size =>
      simp only [selected, Selection.check, checkContent, value_bind, value_pure] at found
      split_ifs at found
      cases found
      unfold selectVFCT at selected
      split_ifs at selected
      · cases selected
      · rw [value_bind] at selected
        exact selectFrom_chosen_fits short _ _ selected

end Reads

section Bounds

def copied : Verdict → List Nat
  | .found start length => List.range' start length
  | .absent | .unfinished => []

def ownReads (gpu : Gpu) (strict : Bool) (table : Image) : List Nat :=
  (selectVFCT gpu.layout gpu.ids strict (rangeChecked table.size)).touched table.bytes ++
    copied ((searchVFCT gpu.layout gpu.ids strict table.size).value table.bytes)

theorem touched_searchVFCT (gpu : Gpu) (strict : Bool) (table : Image) :
    (searchVFCT gpu.layout gpu.ids strict table.size).touched table.bytes =
      (selectVFCT gpu.layout gpu.ids strict (rangeChecked table.size)).touched table.bytes ++
        ((selectVFCT gpu.layout gpu.ids strict (rangeChecked table.size)).value
          table.bytes).check.touched table.bytes := by
  rw [searchVFCT_eq_bind, touched_bind]

structure KeepsToTable (layout : DeclaredLayout) (gpu : Gpu) (strict : Bool) (table : Image) :
    Prop where
  reads : ∀ place ∈ ownReads gpu strict table, place < table.size
  tooShort : table.size < layout.sizeofStructure →
    ∀ fetch, getVBIOSFromVFCT gpu strict fetch = .ok (false, fetch)

variable {layout : DeclaredLayout} {gpu : Gpu} {table : Image} (strict : Bool)

theorem ownReads_inside_iff (declared : gpu.layout = layout.toVfctLayout)
    (present : gpu.vfct = some table) :
    (∀ place ∈ ownReads gpu strict table, place < table.size) ↔
      (sizeofPointer ≤ table.size → layout.imageOffsetPlace + 4 ≤ table.size) := by
  have short := gpu.vfctShort table present
  have image : ∀ place ∈ copied ((searchVFCT gpu.layout gpu.ids strict table.size).value
      table.bytes), place < table.size := by
    rw [declared]
    cases found : (searchVFCT layout.toVfctLayout gpu.ids strict table.size).value table.bytes with
    | absent | unfinished => exact List.forall_mem_nil _
    | found start length =>
        have fits := search_found_fits short found
        simp only [copied, List.mem_range'_1]
        omega
  rw [ownReads, List.forall_mem_append, and_iff_left image, declared]
  exact within_selectVFCT_iff

theorem getVBIOSFromVFCT_false_iff (expert : gpu.platformExpert = true)
    (present : gpu.vfct = some table) :
    (∀ fetch, getVBIOSFromVFCT gpu strict fetch = .ok (false, fetch)) ↔
      table.size ≠ 0 ∧ ∀ entry, vfctEntry gpu.layout gpu.ids strict table = some entry →
        ¬(entry.image gpu.layout table).Accepted := by
  by_cases empty : table.size = 0
  case pos =>
    constructor
    · intro returns
      have panicked := returns ⟨none, 0, []⟩
      simp only [getVBIOSFromVFCT, if_pos expert, present, if_pos empty] at panicked
      cases panicked
    · exact fun filled => absurd empty filled.1
  case neg =>
    rw [and_iff_right empty]
    simp only [getVBIOSFromVFCT, if_pos expert, present, if_neg empty,
      searchVFCT_value (gpu.vfctShort table present)]
    cases vfctEntry gpu.layout gpu.ids strict table with
    | none =>
        constructor
        · intro returns entry found
          cases found
        · exact fun refused fetch => rfl
    | some entry =>
        simp only [Option.some.injEq, forall_eq', verdictOf]
        by_cases accepted : (entry.image gpu.layout table).Accepted
        case neg =>
          simp only [if_neg accepted]
          exact iff_of_true (fun _ => trivial) accepted
        case pos =>
          simp only [accepted, if_true, not_true, iff_false]
          intro returns
          have copied := returns ⟨none, 0, []⟩
          unfold withBytes at copied
          split_ifs at copied <;> cases copied

/--
The function keeps to the table exactly if there is one, the guard refuses it or it reaches past the
field, and a table shorter than its structure has no acceptable image all the same.
-/
theorem vfct_reads_inside_iff (layout : DeclaredLayout) (gpu : Gpu)
    (declared : gpu.layout = layout.toVfctLayout) (expert : gpu.platformExpert = true)
    (table : Image) (present : gpu.vfct = some table) (strict : Bool) :
    KeepsToTable layout gpu strict table ↔
      table.size ≠ 0 ∧
        (sizeofPointer ≤ table.size → layout.imageOffsetPlace + 4 ≤ table.size) ∧
        (table.size < layout.sizeofStructure →
          ∀ entry, vfctEntry gpu.layout gpu.ids strict table = some entry →
            ¬(entry.image gpu.layout table).Accepted) := by
  have reads := ownReads_inside_iff strict declared present
  have returns := getVBIOSFromVFCT_false_iff strict expert present
  constructor
  · rintro ⟨inside, tooShort⟩
    have filled : table.size ≠ 0 := by
      intro empty
      have structured := layout.imageOffsetInside
      exact (returns.mp (tooShort (by omega))).1 empty
    exact ⟨filled, reads.mp inside, fun short => (returns.mp (tooShort short)).2⟩
  · rintro ⟨filled, inside, refused⟩
    exact ⟨reads.mpr inside, fun short => returns.mpr ⟨filled, refused short⟩⟩

section Example

def pointerLayout : DeclaredLayout where
  toVfctLayout := { acpiLayout with sizeofVFCT := sizeofPointer }
  sizeofStructure := 76
  imageOffsetPlace := 0x34
  guarded := rfl
  imageOffset := rfl
  imageOffsetInside := by decide
  headerInside := by
    intro memory
    simp only [acpiLayout, readDouble, within_bind, within_readWord, within_pure]
    decide

def exampleTableGpu (table : Image) (short : table.size < 2 ^ 32) : Gpu :=
  { exampleVfctGpu with
    layout := pointerLayout.toVfctLayout
    vfct := some table
    vfctShort := fun _ same => Option.some.inj same ▸ short }

theorem vfct_reads_inside_example :
    KeepsToTable pointerLayout (exampleTableGpu exampleTable (by decide)) true exampleTable :=
  (vfct_reads_inside_iff pointerLayout (exampleTableGpu exampleTable (by decide)) rfl rfl
    exampleTable rfl true).mpr ⟨by decide, by decide, fun short => absurd short (by decide)⟩

-- A header of the firmware's tables alone is 36 bytes long: the guard lets it pass, and the field
-- at 0x34 is read behind it.
theorem vfct_reads_outside_example :
    ¬KeepsToTable pointerLayout (exampleTableGpu ⟨exampleTable.bytes, 36⟩ (by decide)) true
      ⟨exampleTable.bytes, 36⟩ := by
  intro keeps
  have field := keeps.reads 0x34 (by decide)
  exact absurd field (by decide)

end Example

end Bounds

end NootedDeck.Vbios
