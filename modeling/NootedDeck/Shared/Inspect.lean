import Mathlib.Data.List.Basic

set_option autoImplicit false

namespace Inspection

inductive Inspect (α : Type) where
  | done (value : α)
  | byte (offset : Nat) (next : BitVec 8 → Inspect α)

namespace Inspect

variable {α β : Type}

def bind : Inspect α → (α → Inspect β) → Inspect β
  | .done value, rest => rest value
  | .byte offset next, rest => .byte offset fun read => (next read).bind rest

instance : Monad Inspect where
  pure := .done
  bind := bind

def readByte (offset : Nat) : Inspect (BitVec 8) := .byte offset .done

def readWord (offset : Nat) : Inspect (BitVec 16) := do
  let low ← readByte offset
  let high ← readByte (offset + 1)
  return high ++ low

def readBytes (offset : Nat) : Nat → Inspect (List (BitVec 8))
  | 0 => pure []
  | length + 1 => do
      let first ← readByte offset
      let rest ← readBytes (offset + 1) length
      return first :: rest

def value (memory : Nat → BitVec 8) : Inspect α → α
  | .done value => value
  | .byte offset next => (next (memory offset)).value memory

def touched (memory : Nat → BitVec 8) : Inspect α → List Nat
  | .done _ => []
  | .byte offset next => offset :: (next (memory offset)).touched memory

def shift (base : Nat) : Inspect α → Inspect α
  | .done value => .done value
  | .byte offset next => .byte (base + offset) fun read => (next read).shift base

section Equations

variable (memory : Nat → BitVec 8)

@[simp] theorem value_pure (result : α) : (pure result : Inspect α).value memory = result := rfl

@[simp] theorem touched_pure (result : α) : (pure result : Inspect α).touched memory = [] := rfl

@[simp] theorem value_readByte (offset : Nat) : (readByte offset).value memory = memory offset := rfl

@[simp] theorem value_bind (inspect : Inspect α) (rest : α → Inspect β) :
    (inspect >>= rest).value memory = (rest (inspect.value memory)).value memory := by
  change (inspect.bind rest).value memory = _
  induction inspect with
  | done result => rfl
  | byte offset next ih => exact ih (memory offset)

@[simp] theorem touched_bind (inspect : Inspect α) (rest : α → Inspect β) :
    (inspect >>= rest).touched memory =
      inspect.touched memory ++ (rest (inspect.value memory)).touched memory := by
  change (inspect.bind rest).touched memory = _
  induction inspect with
  | done result => rfl
  | byte offset next ih => exact congrArg (List.cons offset) (ih (memory offset))

@[simp] theorem value_readWord (offset : Nat) :
    (readWord offset).value memory = memory (offset + 1) ++ memory offset := rfl

@[simp] theorem touched_readWord (offset : Nat) :
    (readWord offset).touched memory = [offset, offset + 1] := rfl

theorem value_unless {stop : Prop} [Decidable stop] (rest : Inspect Bool) :
    (if stop then pure false else rest).value memory = true ↔ ¬ stop ∧ rest.value memory = true := by
  by_cases early : stop <;> simp [early]

theorem value_shift (base : Nat) (inspect : Inspect α) :
    (inspect.shift base).value memory = inspect.value fun offset => memory (base + offset) := by
  induction inspect with
  | done result => rfl
  | byte offset next ih => exact ih _

theorem touched_shift (base : Nat) (inspect : Inspect α) :
    (inspect.shift base).touched memory =
      (inspect.touched fun offset => memory (base + offset)).map (base + ·) := by
  induction inspect with
  | done result => rfl
  | byte offset next ih => exact congrArg (List.cons (base + offset)) (ih _)

end Equations

theorem bind_assoc {γ : Type} (inspect : Inspect α) (middle : α → Inspect β) (rest : β → Inspect γ) :
    (inspect >>= middle) >>= rest = inspect >>= fun result => middle result >>= rest := by
  induction inspect with
  | done result => rfl
  | byte offset next ih => exact congrArg (Inspect.byte offset) (funext ih)

def Within (memory : Nat → BitVec 8) (limit : Nat) (inspect : Inspect α) : Prop :=
  ∀ offset ∈ inspect.touched memory, offset < limit

section Within

variable (memory : Nat → BitVec 8) (limit : Nat)

theorem within_pure (result : α) : Within memory limit (pure result) := nofun

theorem within_bind (inspect : Inspect α) (rest : α → Inspect β) :
    Within memory limit (inspect >>= rest) ↔
      Within memory limit inspect ∧ Within memory limit (rest (inspect.value memory)) := by
  simp only [Within, touched_bind, List.forall_mem_append]

theorem within_unless {stop : Prop} [Decidable stop] (result : α) (rest : Inspect α) :
    Within memory limit (if stop then pure result else rest) ↔
      (¬ stop → Within memory limit rest) := by
  by_cases early : stop <;> simp [early, within_pure]

theorem within_shift {base bound : Nat} {inspect : Inspect α}
    (within : Within (fun offset => memory (base + offset)) bound inspect)
    (fits : base + bound ≤ limit) : Within memory limit (inspect.shift base) := by
  simp only [Within, touched_shift, List.forall_mem_map]
  intro offset looked
  have inside := within offset looked
  omega

theorem within_readByte (offset : Nat) : Within memory limit (readByte offset) ↔ offset < limit := by
  simp [Within, readByte, touched]

theorem within_readWord (offset : Nat) :
    Within memory limit (readWord offset) ↔ offset + 1 < limit := by
  simp only [Within, touched_readWord, List.forall_mem_cons, List.not_mem_nil]
  constructor
  · exact fun within => within.2.1
  · exact fun last => ⟨Nat.lt_of_succ_lt last, last, nofun⟩

theorem within_readBytes (offset length : Nat) :
    Within memory limit (readBytes offset (length + 1)) ↔ offset + length < limit := by
  induction length generalizing offset with
  | zero => simp [readBytes, within_bind, within_readByte, within_pure]
  | succ length ih =>
      rw [readBytes, within_bind, within_bind, ih, within_readByte]
      simp only [within_pure, and_true]
      omega

end Within

end Inspect

end Inspection
