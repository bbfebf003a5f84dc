import NootedDeck.Patcher.JumpRange

set_option autoImplicit false

namespace NootedDeck.Patcher

open Bytes Inspection Inspect

section Branches

-- `RelativeBranch memory place length displacement`: a branch of that length starts at `place`.
inductive RelativeBranch (memory : Memory) (place : Addr) : Nat → Int → Prop
  | jcc (escape : memory place = 0x0F) (condition : IsJcc (memory (place + 1#64))) :
      RelativeBranch memory place 6 (memory.load32 (place + 2#64)).toInt
  | near (instr : memory place = 0xE8 ∨ memory place = 0xE9) :
      RelativeBranch memory place 5 (memory.load32 (place + 1#64)).toInt
  | short (instr : 0x70 ≤ memory place ∧ memory place ≤ 0x7F) :
      RelativeBranch memory place 2 (memory (place + 1#64)).toInt

variable {memory : Memory} {place stop : Addr}

theorem opcode_extended {instr : Byte} : opcode instr = .extended ↔ instr = 0x0F := by
  unfold opcode
  split_ifs with escape
  · exact iff_of_true rfl escape
  all_goals exact iff_of_false nofun escape

theorem opcode_near {instr : Byte} : opcode instr = .near ↔ instr = 0xE8 ∨ instr = 0xE9 := by
  unfold opcode
  split_ifs with escape near
  · subst escape
    decide
  · exact iff_of_true rfl near
  all_goals exact iff_of_false nofun near

theorem opcode_short {instr : Byte} :
    opcode instr = .short ↔ 0x70 ≤ instr ∧ instr ≤ 0x7F := by
  unfold opcode
  split_ifs with escape near short
  · subst escape
    decide
  · rcases near with rfl | rfl <;> decide
  · exact iff_of_true rfl short
  · exact iff_of_false nofun short

theorem relativeBranch_iff {length : Nat} {distance : Int} :
    RelativeBranch memory place length distance ↔
      length = instrSize memory place ∧
        ∃ offset, displacement memory place = some offset ∧ offset.toInt = distance := by
  constructor
  · intro branch
    cases branch with
    | jcc escape condition =>
        simp only [instrSize, displacement, opcode_extended.mpr escape, Opcode.displacement,
          if_pos condition]
        exact ⟨rfl, _, rfl, BitVec.toInt_signExtend_of_le (by decide)⟩
    | near instr =>
        simp only [instrSize, displacement, opcode_near.mpr instr]
        exact ⟨rfl, _, rfl, BitVec.toInt_signExtend_of_le (by decide)⟩
    | short instr =>
        simp only [instrSize, displacement, opcode_short.mpr instr]
        exact ⟨rfl, _, rfl, BitVec.toInt_signExtend_of_le (by decide)⟩
  · rintro ⟨rfl, offset, given, rfl⟩
    unfold displacement at given
    unfold instrSize
    cases code : opcode (memory place) with
    | extended =>
        simp only [code, Opcode.displacement] at given
        split_ifs at given with condition
        cases given
        rw [BitVec.toInt_signExtend_of_le (by decide)]
        exact .jcc (opcode_extended.mp code) condition
    | near =>
        rw [code] at given
        cases given
        rw [BitVec.toInt_signExtend_of_le (by decide)]
        exact .near (opcode_near.mp code)
    | short =>
        rw [code] at given
        cases given
        rw [BitVec.toInt_signExtend_of_le (by decide)]
        exact .short (opcode_short.mp code)
    | other =>
        rw [code] at given
        cases given

theorem RelativeBranch.distance_lt {length : Nat} {distance : Int}
    (branch : RelativeBranch memory place length distance) : distance < 2 ^ 31 := by
  cases branch with
  | jcc => exact BitVec.toInt_lt
  | near => exact BitVec.toInt_lt
  | short =>
      have narrow : (memory (place + 1#64)).toInt < 2 ^ 7 := BitVec.toInt_lt
      omega

theorem not_underflow_iff (place offset : Addr) :
    ¬(offset.slt 0 = true ∧ place < -offset) ↔ 0 ≤ (place.toNat : Int) + offset.toInt := by
  have placed := place.isLt
  have bound := offset.isLt
  have zero : (0 : Addr).toInt = 0 := rfl
  simp only [BitVec.slt_iff_toInt_lt, zero, BitVec.lt_def, BitVec.toNat_neg,
    BitVec.toInt_eq_toNat_cond offset]
  split_ifs <;> omega

theorem toNat_target (place offset : Addr) (size : Nat)
    (low : 0 ≤ (place.toNat : Int) + offset.toInt)
    (high : (place.toNat : Int) + offset.toInt + size < 2 ^ 64) :
    ((place + offset + BitVec.ofNat 64 size).toNat : Int) =
      place.toNat + offset.toInt + size := by
  have placed := place.isLt
  have bound := offset.isLt
  simp only [BitVec.toNat_add, BitVec.toNat_ofNat, BitVec.toInt_eq_toNat_cond] at low high ⊢
  split_ifs at low high ⊢ <;> omega

end Branches

section Decoding

variable {memory : Memory} {start stop : Addr}

theorem destination_of_displacement {offset : Addr}
    (given : displacement memory start = some offset) :
    destination memory start =
      some (start + offset + BitVec.ofNat 64 (instrSize memory start)) := by
  rw [destination, given, Option.map_some]

theorem underflows_iff {offset : Addr} (given : displacement memory start = some offset) :
    Underflows memory start ↔ (start.toNat : Int) + offset.toInt < 0 := by
  simp only [Underflows, given, Option.mem_def, Option.some.injEq, exists_eq_left']
  rw [← not_iff_not, not_underflow_iff, Int.not_lt]

structure DecodesBranches (memory : Memory) (start stop : Addr) : Prop where
  taken : ∀ length distance, RelativeBranch memory start length distance →
    start.toNat + length ≤ stop.toNat →
    (length : Int) ≤ start.toNat + length + distance →
    start.toNat + length + distance < stop.toNat →
    ((jumpInstDestination memory start stop).toNat : Int) = start.toNat + length + distance
  justified : jumpInstDestination memory start stop ≠ 0 →
    jumpInstDestination memory start stop < stop ∧
      ∃ length distance, RelativeBranch memory start length distance ∧
        start.toNat + length ≤ stop.toNat ∧
        ((jumpInstDestination memory start stop).toNat : Int) = start.toNat + length + distance
  reads : ∀ place ∈ (jumpInstReads start stop).touched (places memory), place < stop.toNat

theorem instrSize_le (memory : Memory) (place : Addr) : instrSize memory place ≤ 6 := by
  unfold instrSize
  cases opcode (memory place) <;> decide

theorem consumed_le_instrSize (memory : Memory) (place : Addr) :
    consumed memory place ≤ instrSize memory place := by
  unfold consumed instrSize
  cases opcode (memory place) with
  | extended =>
      simp only [Opcode.consumed]
      split_ifs <;> decide
  | near | short | other => exact Nat.le_refl _

theorem givesUp_iff (positive : 0 < start) (before : start < stop)
    (room : stop.toNat + 2 ^ 32 ≤ 2 ^ 64) :
    GivesUp memory start stop ↔ stop.toNat < start.toNat + instrSize memory start := by
  have small := instrSize_le memory start
  simp only [BitVec.lt_def] at positive before
  simp only [GivesUp, ← BitVec.toNat_inj, BitVec.lt_def, BitVec.toNat_add, BitVec.toNat_ofNat]
  omega

theorem jumpInstDestination_decodes (memory : Memory) (start stop : Addr) (positive : 0 < start)
    (before : start < stop) (room : stop.toNat + 2 ^ 32 ≤ 2 ^ 64) :
    DecodesBranches memory start stop := by
  have gives : GivesUp memory start stop ↔ _ := givesUp_iff positive before room
  have ordered : start.toNat < stop.toNat := before
  constructor
  case taken =>
    intro length distance branch fits reached below
    obtain ⟨rfl, offset, given, rfl⟩ := relativeBranch_iff.mp branch
    have leads := destination_of_displacement given
    have landed := toNat_target start offset (instrSize memory start) (by omega) (by omega)
    have stays : ¬(Underflows memory start ∨
        stop ≤ start + offset + BitVec.ofNat 64 (instrSize memory start)) := by
      rw [not_or, underflows_iff given, BitVec.le_def]
      exact ⟨by omega, by omega⟩
    obtain ⟨-, decoded⟩ :=
      jumpInstDestination_of_not_givesUp memory start stop (gives.not.mpr (by omega))
    rw [(decoded _ leads).2 stays, landed]
    omega
  case justified =>
    intro found
    have goes : ¬GivesUp memory start stop :=
      fun stopped => found (jumpInstDestination_of_givesUp memory start stop stopped)
    obtain ⟨without, decoded⟩ := jumpInstDestination_of_not_givesUp memory start stop goes
    cases given : displacement memory start with
    | none => exact absurd (without (by rw [destination, given, Option.map_none])) found
    | some offset =>
        obtain ⟨refused, taken⟩ := decoded _ (destination_of_displacement given)
        have stays := mt refused found
        have branch : RelativeBranch memory start (instrSize memory start) offset.toInt :=
          relativeBranch_iff.mpr ⟨rfl, offset, given, rfl⟩
        have near := branch.distance_lt
        have small := instrSize_le memory start
        rw [taken stays]
        rw [not_or, underflows_iff given, BitVec.not_le] at stays
        have landed := toNat_target start offset (instrSize memory start) (by omega) (by omega)
        exact ⟨stays.2, _, _, branch, Nat.not_lt.mp (gives.not.mp goes), by omega⟩
  case reads =>
    rw [touched_jumpInstReads]
    split_ifs with absent short
    · exact List.forall_mem_nil _
    · exact List.forall_mem_singleton.mpr ordered
    · have fits : ¬GivesUp memory start stop := not_or.mpr ⟨absent, short⟩
      have within := consumed_le_instrSize memory start
      simp only [span, List.forall_mem_map, List.mem_range, BitVec.toNat_add, BitVec.toNat_ofNat]
      intro index early
      have ended := gives.not.mp fits
      omega

def exampleCall : Memory := fun place =>
  if place = 0x1000 then 0xE8
  else if place = 0x1001 then 0xF6
  else if 0x1002 ≤ place ∧ place ≤ 0x1004 then 0xFF
  else 0

theorem jumpInstDestination_decodes_example :
    DecodesBranches exampleCall 0x1000 0x1005 ∧
      jumpInstDestination exampleCall 0x1000 0x1005 = 0xFFB :=
  ⟨jumpInstDestination_decodes exampleCall 0x1000 0x1005 (by decide) (by decide) (by decide),
    by decide⟩

end Decoding

end NootedDeck.Patcher
