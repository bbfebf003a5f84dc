import NootedDeck.Shared.ByteMemory

set_option autoImplicit false

namespace Bytes

structure Saved where
  address : Addr
  original : List Byte

def Saved.Covers (saved : Saved) (place : Addr) : Prop :=
  (place - saved.address).toNat < saved.original.length

instance (saved : Saved) (place : Addr) : Decidable (saved.Covers place) :=
  inferInstanceAs (Decidable (_ < _))

namespace Memory

def save (memory : Memory) (address : Addr) (count : Nat) : Saved :=
  ⟨address, memory.bytes address count⟩

@[simp] theorem save_covers (memory : Memory) (address place : Addr) (count : Nat) :
    (memory.save address count).Covers place ↔ (place - address).toNat < count := by
  simp [save, Saved.Covers]

theorem store_save (memory other : Memory) (address place : Addr) (count : Nat) :
    memory.store (other.save address count).address (other.save address count).original place =
      if (place - address).toNat < count then other place else memory place := by
  have here : address + BitVec.ofNat 64 (place - address).toNat = place := by
    rw [BitVec.ofNat_toNat, BitVec.setWidth_eq, BitVec.add_comm, BitVec.sub_add_cancel]
  by_cases inside : (place - address).toNat < count
  · rw [if_pos inside, store, save, bytes_getElem? other address inside, here, Option.getD_some]
  · rw [if_neg inside, store_outside]
    rw [save, bytes_length]
    exact Nat.le_of_not_lt inside

def restore (memory : Memory) (log : List Saved) : Memory :=
  log.foldl (fun memory saved => memory.store saved.address saved.original) memory

@[simp] theorem restore_nil (memory : Memory) : memory.restore [] = memory := rfl

@[simp] theorem restore_cons (memory : Memory) (saved : Saved) (log : List Saved) :
    memory.restore (saved :: log) = (memory.store saved.address saved.original).restore log := rfl

theorem restore_append (memory : Memory) (log more : List Saved) :
    memory.restore (log ++ more) = (memory.restore log).restore more := by
  simp [restore]

theorem restore_congr {memory other : Memory} {log : List Saved} {place : Addr}
    (known : (∃ saved ∈ log, saved.Covers place) ∨ memory place = other place) :
    memory.restore log place = other.restore log place := by
  induction log generalizing memory other with
  | nil => simpa using known
  | cons saved rest ih =>
      rw [restore_cons, restore_cons]
      apply ih
      by_cases later : ∃ saved ∈ rest, saved.Covers place
      · exact Or.inl later
      · right
        by_cases here : saved.Covers place
        · rw [store, store, List.getElem?_eq_getElem here, Option.getD_some, Option.getD_some]
        · rw [store_outside _ _ _ _ (Nat.le_of_not_lt here),
            store_outside _ _ _ _ (Nat.le_of_not_lt here)]
          simpa [here, later] using known

theorem restore_uncovered {memory : Memory} {log : List Saved} {place : Addr}
    (outside : ∀ saved ∈ log, ¬saved.Covers place) : memory.restore log place = memory place := by
  induction log generalizing memory with
  | nil => rfl
  | cons saved rest ih =>
      rw [List.forall_mem_cons] at outside
      rw [restore_cons, ih outside.2, store_outside _ _ _ _ (Nat.le_of_not_lt outside.1)]

theorem restore_saves (memory other : Memory) (places : List (Addr × Nat)) (place : Addr)
    (covered : ∃ range ∈ places, (place - range.1).toNat < range.2) :
    memory.restore (places.map fun range => other.save range.1 range.2) place = other place := by
  induction places generalizing memory with
  | nil => simp at covered
  | cons range rest ih =>
      rw [List.map_cons, restore_cons]
      by_cases later : ∃ range ∈ rest, (place - range.1).toNat < range.2
      · exact ih _ later
      · have here : (place - range.1).toNat < range.2 := by
          rw [List.exists_mem_cons_iff] at covered
          exact covered.resolve_right later
        rw [restore_uncovered, store_save, if_pos here]
        intro saved member
        obtain ⟨range, present, rfl⟩ := List.mem_map.mp member
        rw [save_covers]
        exact fun inside => later ⟨range, present, inside⟩

end Memory

end Bytes
