import Mathlib.Data.List.Basic
import Mathlib.Logic.Function.Basic

set_option autoImplicit false

namespace Accesses

inductive Access (ι ν α : Type) where
  | done (value : α)
  | load (place : ι) (next : ν → Access ι ν α)
  | store (place : ι) (value : ν) (next : Access ι ν α)

inductive Kind where
  | load
  | store
  deriving DecidableEq

structure Storage (σ ι ν : Type) where
  load : ι → σ → ν
  store : ι → ν → σ → σ

def cells (ι ν : Type) [DecidableEq ι] : Storage (ι → ν) ι ν where
  load := fun place cells => cells place
  store := fun place value cells => Function.update cells place value

section Cells

variable {ι ν : Type} [DecidableEq ι] (place : ι) (state : ι → ν)

@[simp] theorem cells_load : (cells ι ν).load place state = state place := rfl

@[simp] theorem cells_store (value : ν) :
    (cells ι ν).store place value state = Function.update state place value := rfl

end Cells

namespace Access

variable {σ ι ν α β : Type}

def bind : Access ι ν α → (α → Access ι ν β) → Access ι ν β
  | .done value, rest => rest value
  | .load place next, rest => .load place fun loaded => (next loaded).bind rest
  | .store place value next, rest => .store place value (next.bind rest)

instance : Monad (Access ι ν) where
  pure := .done
  bind := bind

def loadFrom (place : ι) : Access ι ν ν := .load place .done

def storeTo (place : ι) (value : ν) : Access ι ν Unit := .store place value (.done ())

section Runs

variable (storage : Storage σ ι ν)

def run : Access ι ν α → σ → α × σ
  | .done value, state => (value, state)
  | .load place next, state => (next (storage.load place state)).run state
  | .store place value next, state => next.run (storage.store place value state)

def trace : Access ι ν α → σ → List (Kind × ι)
  | .done _, _ => []
  | .load place next, state => (.load, place) :: (next (storage.load place state)).trace state
  | .store place value next, state => (.store, place) :: next.trace (storage.store place value state)

variable (state : σ)

@[simp] theorem run_pure (value : α) :
    (pure value : Access ι ν α).run storage state = (value, state) := rfl

@[simp] theorem run_loadFrom (place : ι) :
    (loadFrom place).run storage state = (storage.load place state, state) := rfl

@[simp] theorem run_storeTo (place : ι) (value : ν) :
    (storeTo place value).run storage state = ((), storage.store place value state) := rfl

@[simp] theorem run_bind (program : Access ι ν α) (rest : α → Access ι ν β) :
    (program >>= rest).run storage state =
      (rest (program.run storage state).1).run storage (program.run storage state).2 := by
  change (program.bind rest).run storage state = _
  induction program generalizing state with
  | done value => rfl
  | load place next ih => exact ih _ state
  | store place value next ih => exact ih _

@[simp] theorem trace_pure (value : α) : (pure value : Access ι ν α).trace storage state = [] := rfl

@[simp] theorem trace_loadFrom (place : ι) :
    (loadFrom place).trace storage state = [(.load, place)] := rfl

@[simp] theorem trace_storeTo (place : ι) (value : ν) :
    (storeTo place value).trace storage state = [(.store, place)] := rfl

@[simp] theorem trace_bind (program : Access ι ν α) (rest : α → Access ι ν β) :
    (program >>= rest).trace storage state =
      program.trace storage state ++
        (rest (program.run storage state).1).trace storage (program.run storage state).2 := by
  change (program.bind rest).trace storage state = _
  induction program generalizing state with
  | done value => rfl
  | load place next ih => exact congrArg (List.cons _) (ih _ state)
  | store place value next ih => exact congrArg (List.cons _) (ih _)

end Runs

theorem run_cells_frame [DecidableEq ι] (program : Access ι ν α) (state : ι → ν) {place : ι}
    (apart : (.store, place) ∉ program.trace (cells ι ν) state) :
    (program.run (cells ι ν) state).2 place = state place := by
  induction program generalizing state with
  | done value => rfl
  | load other next ih => exact ih _ state (List.not_mem_of_not_mem_cons apart)
  | store other value next ih =>
      have later := List.not_mem_of_not_mem_cons apart
      have different : place ≠ other := by
        rintro rfl
        exact apart List.mem_cons_self
      rw [run, ih _ later, cells_store, Function.update_of_ne different]

end Access

section Consecutive

variable {ν : Type} (state : Nat → ν)

def placed (start : Nat) (written : List ν) : Nat → ν := fun index =>
  if start ≤ index then (written[index - start]?).getD (state index) else state index

theorem placed_nil (start : Nat) : placed state start [] = state := by
  funext index
  simp [placed]

theorem placed_update (start : Nat) (value : ν) (written : List ν) :
    placed (Function.update state start value) (start + 1) written =
      placed state start (value :: written) := by
  funext index
  rcases Nat.lt_trichotomy index start with before | rfl | after
  · have later : ¬start + 1 ≤ index := by omega
    simp only [placed, if_neg later, if_neg (Nat.not_le.mpr before),
      Function.update_of_ne (Nat.ne_of_lt before)]
  · have early : ¬index + 1 ≤ index := by omega
    simp only [placed, if_neg early, Nat.le_refl, if_true, Nat.sub_self, Function.update_self,
      List.getElem?_cons_zero, Option.getD_some]
  · have next : index - start = index - (start + 1) + 1 := by omega
    simp only [placed, if_pos (Nat.succ_le_of_lt after), if_pos (Nat.le_of_lt after), next,
      List.getElem?_cons_succ, Function.update_of_ne (Nat.ne_of_gt after)]

def contents (start count : Nat) : List ν := (List.range' start count).map state

@[simp] theorem length_contents (start count : Nat) : (contents state start count).length = count := by
  simp [contents]

@[simp] theorem contents_zero (start : Nat) : contents state start 0 = [] := rfl

theorem contents_succ (start count : Nat) :
    contents state start (count + 1) = state start :: contents state (start + 1) count := by
  rw [contents, List.range'_succ, List.map_cons, contents]

theorem contents_add (start count more : Nat) :
    contents state start (count + more) =
      contents state start count ++ contents state (start + count) more := by
  rw [contents, ← List.range'_append_1, List.map_append, contents, contents]

theorem take_contents (start count more : Nat) :
    (contents state start (count + more)).take count = contents state start count := by
  rw [contents_add, List.take_left' (length_contents state start count)]

theorem drop_contents (start count more : Nat) :
    (contents state start (count + more)).drop count = contents state (start + count) more := by
  rw [contents_add, List.drop_left' (length_contents state start count)]

theorem contents_congr {state state' : Nat → ν} {start count : Nat}
    (same : ∀ index, start ≤ index → index < start + count → state index = state' index) :
    contents state start count = contents state' start count := by
  apply List.map_congr_left
  intro index member
  obtain ⟨least, most⟩ := List.mem_range'_1.mp member
  exact same index least most

theorem contents_placed (start : Nat) (written : List ν) :
    contents (placed state start written) start written.length = written := by
  apply List.ext_getElem
  · simp
  · intro index _ within
    simp [contents, placed, within]

theorem contents_placed_add (start : Nat) (written : List ν) (more : Nat) :
    contents (placed state start written) start (written.length + more) =
      written ++ contents state (start + written.length) more := by
  have later : contents (placed state start written) (start + written.length) more =
      contents state (start + written.length) more := by
    apply contents_congr
    intro index least _
    have outside : written.length ≤ index - start := by omega
    simp [placed, List.getElem?_eq_none outside]
  rw [contents_add, contents_placed, later]

-- What is written in the middle leaves what is before it and behind it.
theorem contents_placed_within (start before : Nat) (written : List ν) (more : Nat) :
    contents (placed state (start + before) written) start (before + (written.length + more)) =
      contents state start before ++
        (written ++ contents state (start + before + written.length) more) := by
  have earlier : contents (placed state (start + before) written) start before =
      contents state start before := by
    apply contents_congr
    intro index _ most
    exact if_neg (Nat.not_le.mpr most)
  rw [contents_add, contents_placed_add, earlier]

def storeFrom : Nat → List ν → Access Nat ν Unit
  | _, [] => pure ()
  | start, value :: rest => do
      Access.storeTo start value
      storeFrom (start + 1) rest

theorem run_storeFrom (start : Nat) (written : List ν) :
    (storeFrom start written).run (cells Nat ν) state = ((), placed state start written) := by
  induction written generalizing start state with
  | nil => rw [placed_nil]; rfl
  | cons value rest ih =>
      simp only [storeFrom, Access.run_bind, Access.run_storeTo, cells_store, ih, placed_update]

theorem trace_storeFrom (start : Nat) (written : List ν) :
    (storeFrom start written).trace (cells Nat ν) state =
      (List.range' start written.length).map (Prod.mk .store) := by
  induction written generalizing start state with
  | nil => rfl
  | cons value rest ih =>
      simp only [storeFrom, Access.trace_bind, Access.trace_storeTo, Access.run_storeTo, cells_store,
        ih, List.length_cons, List.range'_succ, List.map_cons, List.singleton_append]

end Consecutive

end Accesses
