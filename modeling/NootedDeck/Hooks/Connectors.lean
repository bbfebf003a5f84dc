import Mathlib.Data.BitVec
import NootedDeck.Shared.Accesses
import NootedDeck.Shared.Program
import NootedDeck.Hooks.Wrappers

set_option autoImplicit false

namespace NootedDeck.Hooks

open Accesses Access Interleaving

-- `paths` is the memory from the first path on; the table has `pathCount` of them.
structure DispObjInfoTable (Path : Type) (width : Nat) where
  formatRev : BitVec 8
  contentRev : BitVec 8
  pathCount : BitVec width
  paths : Nat → Path

variable {Path : Type} {width : Nat} (devTag : Path → Nat)

section Compaction

-- The loop from `i` on, with `rest` rounds to go. It returns `objInfo->pathCount`.
def compactPaths : Nat → Nat → Nat → BitVec width → Access Nat Path (BitVec width)
  | 0, _, _, pathCount => pure pathCount
  | rest + 1, i, j, pathCount => do
      let path ← loadFrom i
      if devTag path ≠ 0 then do
        let path ← loadFrom i
        storeTo j path
        compactPaths rest (i + 1) (j + 1) pathCount
      else compactPaths rest (i + 1) j (pathCount - 1)

def validPaths (paths : Nat → Path) (i rest : Nat) : List Path :=
  (contents paths i rest).filter fun path => devTag path ≠ 0

theorem validPaths_succ (paths : Nat → Path) (i rest : Nat) :
    validPaths devTag paths i (rest + 1) =
      if devTag (paths i) ≠ 0 then paths i :: validPaths devTag paths (i + 1) rest
      else validPaths devTag paths (i + 1) rest := by
  simp [validPaths, contents_succ, List.filter_cons]

-- The loop writes behind itself: what is still to come has not changed.
theorem validPaths_update (paths : Nat → Path) {i j : Nat} (behind : j < i) (path : Path)
    (rest : Nat) :
    validPaths devTag (Function.update paths j path) i rest = validPaths devTag paths i rest := by
  have same : contents (Function.update paths j path) i rest = contents paths i rest := by
    apply contents_congr
    intro index later _
    exact Function.update_of_ne (by omega) _ _
  rw [validPaths, same, validPaths]

theorem validPaths_length_le (paths : Nat → Path) (i rest : Nat) :
    (validPaths devTag paths i rest).length ≤ rest := by
  calc (validPaths devTag paths i rest).length
    _ ≤ (contents paths i rest).length := List.length_filter_le _ _
    _ = rest := length_contents paths i rest

section Rounds

variable {paths : Nat → Path} {i j : Nat} (rest : Nat) (pathCount : BitVec width)

theorem compactPaths_run_valid (valid : devTag (paths i) ≠ 0) :
    (compactPaths devTag (rest + 1) i j pathCount).run (cells Nat Path) paths =
      (compactPaths devTag rest (i + 1) (j + 1) pathCount).run (cells Nat Path)
        (Function.update paths j (paths i)) := by
  rw [compactPaths, run_bind, run_loadFrom, cells_load, if_pos valid]
  rfl

theorem compactPaths_run_invalid (invalid : ¬devTag (paths i) ≠ 0) :
    (compactPaths devTag (rest + 1) i j pathCount).run (cells Nat Path) paths =
      (compactPaths devTag rest (i + 1) j (pathCount - 1)).run (cells Nat Path) paths := by
  rw [compactPaths, run_bind, run_loadFrom, cells_load, if_neg invalid]

theorem compactPaths_trace_valid (valid : devTag (paths i) ≠ 0) :
    (compactPaths devTag (rest + 1) i j pathCount).trace (cells Nat Path) paths =
      [(.load, i), (.load, i), (.store, j)] ++
        (compactPaths devTag rest (i + 1) (j + 1) pathCount).trace (cells Nat Path)
          (Function.update paths j (paths i)) := by
  rw [compactPaths, trace_bind, run_loadFrom, cells_load, if_pos valid]
  rfl

theorem compactPaths_trace_invalid (invalid : ¬devTag (paths i) ≠ 0) :
    (compactPaths devTag (rest + 1) i j pathCount).trace (cells Nat Path) paths =
      (.load, i) :: (compactPaths devTag rest (i + 1) j (pathCount - 1)).trace (cells Nat Path) paths := by
  rw [compactPaths, trace_bind, run_loadFrom, cells_load, if_neg invalid]
  rfl

end Rounds

theorem compactPaths_run (rest i j : Nat) (behind : j ≤ i) (pathCount : BitVec width)
    (paths : Nat → Path) :
    (compactPaths devTag rest i j pathCount).run (cells Nat Path) paths =
      (pathCount - BitVec.ofNat width (rest - (validPaths devTag paths i rest).length),
        placed paths j (validPaths devTag paths i rest)) := by
  induction rest generalizing i j pathCount paths with
  | zero => simp [compactPaths, validPaths, placed_nil]
  | succ rest ih =>
      by_cases valid : devTag (paths i) ≠ 0
      next =>
        have later := ih (i + 1) (j + 1) (by omega) pathCount (Function.update paths j (paths i))
        rw [validPaths_update devTag paths (by omega), placed_update] at later
        rw [compactPaths_run_valid devTag rest pathCount valid, later, validPaths_succ, if_pos valid,
          List.length_cons, Nat.add_sub_add_right]
      next =>
        have bound := validPaths_length_le devTag paths (i + 1) rest
        have fewer : rest + 1 - (validPaths devTag paths (i + 1) rest).length =
            1 + (rest - (validPaths devTag paths (i + 1) rest).length) := by omega
        rw [compactPaths_run_invalid devTag rest pathCount valid, ih (i + 1) j (by omega),
          validPaths_succ, if_neg valid, fewer, BitVec.ofNat_add, sub_sub]
        rfl

theorem compactPaths_trace (rest i j : Nat) (behind : j ≤ i) (pathCount : BitVec width)
    (paths : Nat → Path) :
    ∀ access ∈ (compactPaths devTag rest i j pathCount).trace (cells Nat Path) paths,
      access.2 < i + rest := by
  induction rest generalizing i j pathCount paths with
  | zero => exact List.forall_mem_nil _
  | succ rest ih =>
      have total : i + (rest + 1) = i + 1 + rest := by omega
      rw [total]
      by_cases valid : devTag (paths i) ≠ 0
      next =>
        rw [compactPaths_trace_valid devTag rest pathCount valid, List.forall_mem_append]
        constructor
        · simp only [List.forall_mem_cons]
          exact ⟨by omega, by omega, by omega, List.forall_mem_nil _⟩
        · exact ih (i + 1) (j + 1) (by omega) pathCount _
      next =>
        rw [compactPaths_trace_invalid devTag rest pathCount valid, List.forall_mem_cons]
        exact ⟨by omega, ih (i + 1) j (by omega) (pathCount - 1) paths⟩

end Compaction

section Calls

structure Connectors (Path : Type) (width : Nat) where
  fixedVBIOS : Bool
  tables : Pointer → DispObjInfoTable Path width

namespace DispObjInfoTable

variable (table : DispObjInfoTable Path width)

def Fixable : Prop := table.formatRev = 1 ∧ (table.contentRev = 4 ∨ table.contentRev = 5)

instance : Decidable table.Fixable := inferInstanceAs (Decidable (_ ∧ _))

def fix : DispObjInfoTable Path width :=
  if table.Fixable then
    let n := table.pathCount.toNat
    let (pathCount, paths) :=
      (compactPaths devTag n 0 0 table.pathCount).run (cells Nat Path) table.paths
    { table with pathCount, paths }
  else table

def pathAccesses : List (Kind × Nat) :=
  if table.Fixable then
    (compactPaths devTag table.pathCount.toNat 0 0 table.pathCount).trace (cells Nat Path) table.paths
  else []

def connected : List Path := validPaths devTag table.paths 0 table.pathCount.toNat

theorem fix_of_fixable (fixable : table.Fixable) :
    (table.fix devTag).pathCount.toNat = (table.connected devTag).length ∧
      (table.fix devTag).paths = placed table.paths 0 (table.connected devTag) := by
  have bound : (table.connected devTag).length ≤ table.pathCount.toNat :=
    validPaths_length_le devTag table.paths 0 table.pathCount.toNat
  have small := table.pathCount.isLt
  simp only [fix, if_pos fixable, compactPaths_run devTag _ 0 0 (Nat.le_refl 0)]
  constructor
  · -- as many as were counted down for, so the count does not wrap
    generalize removed : table.pathCount.toNat - (table.connected devTag).length = missing
    have fits : (BitVec.ofNat width missing).toNat = missing :=
      Nat.mod_eq_of_lt (by omega)
    change (table.pathCount - BitVec.ofNat width (_ - (table.connected devTag).length)).toNat = _
    rw [removed, BitVec.toNat_sub_of_le (BitVec.le_def.mpr (by omega)), fits]
    omega
  · rfl

theorem pathAccesses_lt :
    ∀ access ∈ table.pathAccesses devTag, access.2 < table.pathCount.toNat := by
  unfold pathAccesses
  split_ifs
  · have inside := compactPaths_trace devTag table.pathCount.toNat 0 0 (Nat.le_refl 0)
      table.pathCount table.paths
    rwa [Nat.zero_add] at inside
  · exact List.forall_mem_nil _

end DispObjInfoTable

variable (objInfo : Pointer → Pointer)
variable (orgGetNumberOfConnectors : Pointer → (Pointer → DispObjInfoTable Path width) → BitVec 32)

def wrapGetNumberOfConnectors (object : Pointer) (connectors : Connectors Path width) :
    BitVec 32 × Connectors Path width :=
  let connectors :=
    if connectors.fixedVBIOS then connectors
    else
      let table := connectors.tables (objInfo object)
      ⟨true, Function.update connectors.tables (objInfo object) (table.fix devTag)⟩
  (orgGetNumberOfConnectors object connectors.tables, connectors)

structure Fixed (before after : DispObjInfoTable Path width) : Prop where
  count : before.Fixable → after.pathCount.toNat = (before.connected devTag).length
  paths : before.Fixable →
    contents after.paths 0 after.pathCount.toNat = before.connected devTag
  accesses : ∀ access ∈ before.pathAccesses devTag, access.2 < before.pathCount.toNat
  others : ¬before.Fixable → after = before

theorem fixed_fix (table : DispObjInfoTable Path width) : Fixed devTag table (table.fix devTag) := by
  constructor
  case count => exact fun fixable => (table.fix_of_fixable devTag fixable).1
  case paths =>
    intro fixable
    obtain ⟨count, paths⟩ := table.fix_of_fixable devTag fixable
    rw [count, paths, contents_placed]
  case accesses => exact table.pathAccesses_lt devTag
  case others => exact fun other => if_neg other

theorem wrapGetNumberOfConnectors_again {connectors : Connectors Path width}
    (done : connectors.fixedVBIOS = true) (object : Pointer) :
    (wrapGetNumberOfConnectors devTag objInfo orgGetNumberOfConnectors object connectors).2 =
      connectors := by
  simp only [wrapGetNumberOfConnectors, if_pos done]

theorem stateAfter_again {connectors : Connectors Path width}
    (done : connectors.fixedVBIOS = true) (calls : List Pointer) :
    stateAfter (wrapGetNumberOfConnectors devTag objInfo orgGetNumberOfConnectors) connectors calls =
      connectors := by
  induction calls with
  | nil => rfl
  | cons object rest ih =>
      rw [stateAfter, List.foldl_cons,
        wrapGetNumberOfConnectors_again devTag objInfo orgGetNumberOfConnectors done object]
      exact ih

/-- The first call compacts the table of its object, and no later call changes any table. -/
theorem connectors_fixed_once (connectors : Connectors Path width)
    (fresh : connectors.fixedVBIOS = false) (object : Pointer) :
    let after :=
      (wrapGetNumberOfConnectors devTag objInfo orgGetNumberOfConnectors object connectors).2
    Fixed devTag (connectors.tables (objInfo object)) (after.tables (objInfo object)) ∧
      (∀ other, other ≠ objInfo object → after.tables other = connectors.tables other) ∧
      ∀ calls,
        (stateAfter (wrapGetNumberOfConnectors devTag objInfo orgGetNumberOfConnectors) after
          calls).tables = after.tables := by
  intro after
  have fixes : after = ⟨true, Function.update connectors.tables (objInfo object)
      ((connectors.tables (objInfo object)).fix devTag)⟩ := by
    simp only [after, wrapGetNumberOfConnectors, fresh, Bool.false_eq_true, if_false]
  rw [fixes]
  constructor
  · simp only [Function.update_self]
    exact fixed_fix devTag _
  constructor
  · intro other apart
    exact Function.update_of_ne apart _ _
  · intro calls
    rw [stateAfter_again devTag objInfo orgGetNumberOfConnectors rfl]

def exampleConnectors : Connectors Nat 8 where
  fixedVBIOS := false
  tables := fun _ => ⟨1, 4, 3, fun index => if index = 1 then 0 else index + 1⟩

theorem connectors_fixed_once_example :
    Fixed id (exampleConnectors.tables 0x20)
      ((wrapGetNumberOfConnectors id (fun _ => 0x20) (fun _ _ => 0) 0x10 exampleConnectors).2.tables
        0x20) :=
  (connectors_fixed_once id (fun _ => 0x20) (fun _ _ => 0) exampleConnectors rfl 0x10).1

example :
    ((wrapGetNumberOfConnectors id (fun _ => 0x20) (fun _ _ => 0) 0x10 exampleConnectors).2.tables
      0x20).pathCount = 2 := by decide

end Calls

end NootedDeck.Hooks
