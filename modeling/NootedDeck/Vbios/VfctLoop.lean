import NootedDeck.Vbios.VfctReference

set_option autoImplicit false

namespace NootedDeck.Vbios

open Inspection Inspect

section Passes

structure BytesNoCopy (length : Nat) where
  present : Nat → Nat → Bool
  whole : ∀ start numBytes, present start numBytes = true → start + numBytes ≤ length

def rangeChecked (length : Nat) : BytesNoCopy length where
  present := fun start numBytes => decide (InRange length start numBytes)
  whole := fun _ _ inRange => (of_decide_eq_true inRange).2

-- How a pass ends. `start` is what is handed to `getBytesNoCopy` for the image.
inductive Pass where
  | leaves
  | chooses (start length : Nat)
  | continues (start next : BitVec 32)
  deriving DecidableEq

inductive Selection where
  | nothing
  | chosen (start length : Nat)
  | unfinished
  deriving DecidableEq

variable (layout : VfctLayout) (ids : DeviceIds) (strict : Bool) {length : Nat}
variable (data : BytesNoCopy length)

def pass (offset : BitVec 32) : Inspect Pass :=
  if offset.toNat < length then
    if data.present offset.toNat layout.sizeofHeader then do
      let vhdr ← layout.header.shift offset.toNat
      let start := BitVec.ofNat 32 (offset.toNat + layout.sizeofHeader)
      if data.present start.toNat vhdr.imageLength.toNat then
        if vhdr.selects ids strict then return .chooses start.toNat vhdr.imageLength.toNat
        else
          let next := offset.toNat + layout.sizeofHeader + vhdr.imageLength.toNat
          return .continues start (BitVec.ofNat 32 next)
      else return .leaves
    else return .leaves
  else return .leaves

def selectFrom : Nat → BitVec 32 → Inspect Selection
  | 0, _ => pure .unfinished
  | fuel + 1, offset => do
      match ← pass layout ids strict data offset with
      | .leaves => pure .nothing
      | .chooses start length => pure (.chosen start length)
      | .continues _ next => selectFrom fuel next

def selectVFCT : Inspect Selection :=
  if length < layout.sizeofVFCT then pure .nothing
  else do
    let offset ← layout.vbiosImageOffset
    selectFrom layout ids strict data (length + 1) offset

def Selection.check : Selection → Inspect Verdict
  | .nothing => pure .absent
  | .chosen start length => checkContent start length
  | .unfinished => pure .unfinished

theorem scanVFCT_eq_bind (fuel : Nat) (offset : BitVec 32) :
    scanVFCT layout ids strict length fuel offset =
      selectFrom layout ids strict (rangeChecked length) fuel offset >>= Selection.check := by
  induction fuel generalizing offset with
  | zero => rfl
  | succ fuel ih =>
      simp only [scanVFCT, selectFrom, pass, rangeChecked, decide_eq_true_eq]
      by_cases before : offset.toNat < length
      case neg =>
        simp only [if_neg before]
        rfl
      case pos =>
        by_cases header : InRange length offset.toNat layout.sizeofHeader
        case neg =>
          simp only [if_pos before, if_neg header]
          rfl
        case pos =>
          simp only [if_pos before, if_pos header, bind_assoc]
          apply congrArg (layout.header.shift offset.toNat >>= ·)
          funext vhdr
          split_ifs
          · rfl
          · exact ih _
          · rfl

theorem searchVFCT_eq_bind :
    searchVFCT layout ids strict length =
      selectVFCT layout ids strict (rangeChecked length) >>= Selection.check := by
  unfold searchVFCT selectVFCT
  split_ifs
  · rfl
  · simp only [bind_assoc, scanVFCT_eq_bind]

end Passes

section Progress

variable {layout : VfctLayout} {ids : DeviceIds} {strict : Bool} {table : Image}
variable {data : BytesNoCopy table.size} {offset : BitVec 32}

structure Checked (layout : VfctLayout) (table : Image) (data : BytesNoCopy table.size)
    (offset : BitVec 32) : Prop where
  before : offset.toNat < table.size
  header : data.present offset.toNat layout.sizeofHeader = true
  image : data.present (offset.toNat + layout.sizeofHeader)
    (headerAt layout table offset.toNat).imageLength.toNat = true

theorem pass_value (short : table.size < 2 ^ 32) (offset : BitVec 32) :
    (pass layout ids strict data offset).value table.bytes = .leaves ∨
      Checked layout table data offset ∧
        (pass layout ids strict data offset).value table.bytes =
          if (headerAt layout table offset.toNat).selects ids strict then
            .chooses (offset.toNat + layout.sizeofHeader)
              (headerAt layout table offset.toNat).imageLength.toNat
          else
            .continues (BitVec.ofNat 32 (offset.toNat + layout.sizeofHeader))
              (BitVec.ofNat 32 (offset.toNat + layout.sizeofHeader +
                (headerAt layout table offset.toNat).imageLength.toNat)) := by
  unfold pass
  by_cases before : offset.toNat < table.size
  case neg =>
    rw [if_neg before]
    exact Or.inl rfl
  case pos =>
    by_cases header : data.present offset.toNat layout.sizeofHeader = true
    case neg =>
      rw [if_pos before, if_neg header]
      exact Or.inl rfl
    case pos =>
      rw [if_pos before, if_pos header]
      simp only [value_bind, header_value, toNat_narrowed (data.whole _ _ header) short]
      by_cases image : data.present (offset.toNat + layout.sizeofHeader)
          (headerAt layout table offset.toNat).imageLength.toNat = true
      case neg =>
        rw [if_neg image]
        exact Or.inl rfl
      case pos =>
        rw [if_pos image]
        simp only [apply_ite (Inspect.value table.bytes), value_pure]
        exact Or.inr ⟨⟨before, header, image⟩, trivial⟩

theorem Checked.fits (checked : Checked layout table data offset) :
    offset.toNat + layout.sizeofHeader +
      (headerAt layout table offset.toNat).imageLength.toNat ≤ table.size :=
  data.whole _ _ checked.image

structure MovesOn (layout : VfctLayout) (table : Image) (offset start next : BitVec 32) : Prop where
  increases : offset.toNat < next.toNat
  inside : next.toNat ≤ table.size
  image : start.toNat = offset.toNat + layout.sizeofHeader
  entry : next.toNat = offset.toNat + (layout.sizeofHeader +
    (headerAt layout table offset.toNat).imageLength.toNat)

theorem pass_movesOn (short : table.size < 2 ^ 32) {start next : BitVec 32}
    (goes : (pass layout ids strict data offset).value table.bytes = .continues start next) :
    MovesOn layout table offset start next := by
  rcases pass_value short offset with left | ⟨checked, value⟩
  · rw [left] at goes
    cases goes
  · rw [value] at goes
    split_ifs at goes
    cases goes
    have positive := layout.positive
    have fits := checked.fits
    have narrowed : ∀ sum, sum ≤ table.size → (BitVec.ofNat 32 sum).toNat = sum :=
      fun sum bound => toNat_narrowed bound short
    constructor
    case image => exact narrowed _ (by omega)
    all_goals
      rw [narrowed _ fits]
      omega

theorem selectFrom_value_succ (fuel : Nat) :
    (selectFrom layout ids strict data (fuel + 1) offset).value table.bytes =
      match (pass layout ids strict data offset).value table.bytes with
      | .leaves => .nothing
      | .chooses start length => .chosen start length
      | .continues _ next => (selectFrom layout ids strict data fuel next).value table.bytes := by
  rw [selectFrom, value_bind]
  cases (pass layout ids strict data offset).value table.bytes <;> rfl

theorem selectFrom_finished (short : table.size < 2 ^ 32) (fuel : Nat) (offset : BitVec 32)
    (enough : table.size - offset.toNat < fuel) :
    (selectFrom layout ids strict data fuel offset).value table.bytes ≠ .unfinished := by
  induction fuel generalizing offset with
  | zero => omega
  | succ fuel ih =>
      rw [selectFrom_value_succ]
      cases goes : (pass layout ids strict data offset).value table.bytes with
      | leaves | chooses => nofun
      | continues start next =>
          have moved := pass_movesOn short goes
          have increases := moved.increases
          have inside := moved.inside
          exact ih next (by omega)

theorem searchVFCT_finished (layout : VfctLayout) (ids : DeviceIds) (strict : Bool)
    (short : table.size < 2 ^ 32) :
    (searchVFCT layout ids strict table.size).value table.bytes ≠ .unfinished := by
  have finished : (selectVFCT layout ids strict (rangeChecked table.size)).value table.bytes ≠
      .unfinished := by
    unfold selectVFCT
    split_ifs
    · intro finished
      cases finished
    · rw [value_bind]
      exact selectFrom_finished short _ _ (by omega)
  rw [searchVFCT_eq_bind, value_bind]
  cases selected : (selectVFCT layout ids strict (rangeChecked table.size)).value table.bytes with
  | nothing =>
      intro finished
      cases finished
  | chosen start length =>
      simp only [Selection.check, checkContent, value_bind, value_pure]
      split_ifs <;> exact Verdict.noConfusion
  | unfinished => exact absurd selected finished

/--
Whatever the table holds, a pass that does not return moves `Offset` on by the whole entry, and the
loop is left after at most one pass for each byte of the table.
-/
theorem vfct_loop_terminates (layout : VfctLayout) (ids : DeviceIds) (strict : Bool) (table : Image)
    (short : table.size < 2 ^ 32) (data : BytesNoCopy table.size) :
    (∀ offset start next,
        (pass layout ids strict data offset).value table.bytes = .continues start next →
        MovesOn layout table offset start next) ∧
      (∀ offset fuel, table.size < fuel →
        (selectFrom layout ids strict data fuel offset).value table.bytes ≠ .unfinished) ∧
      (searchVFCT layout ids strict table.size).value table.bytes ≠ .unfinished :=
  ⟨fun _ _ _ goes => pass_movesOn short goes,
    fun offset fuel enough => selectFrom_finished short fuel offset (by omega),
    searchVFCT_finished layout ids strict short⟩

theorem vfct_loop_terminates_example :
    MovesOn acpiLayout exampleTable 0x4C 0x68 0xB2 ∧
      (searchVFCT acpiLayout ⟨0x1002, 0x1640, 4, 0, 0⟩ true 0xB2).value exampleTable.bytes ≠
        .unfinished :=
  have terminates := vfct_loop_terminates acpiLayout ⟨0x1002, 0x1640, 4, 0, 0⟩ true exampleTable
    (by decide) (rangeChecked 0xB2)
  ⟨terminates.1 0x4C 0x68 0xB2 (by decide), terminates.2.2⟩

end Progress

end NootedDeck.Vbios
