import NootedDeck.Patcher.RouteFunction

set_option autoImplicit false

namespace NootedDeck.Patcher

open Bytes Interleaving Program

@[simp] theorem run_setError (code : Error) (machine : Machine) :
    (setError code).run machine = some ((), { machine with code }) := rfl

@[simp] theorem run_store (address : Addr) (data : List Byte) (machine : Machine) :
    (store address data).run machine = some ((), machine.write address data) := rfl

@[simp] theorem maintains_store (good : Machine → Prop) (address : Addr) (data : List Byte)
    (machine : Machine) :
    (store address data).Maintains good machine ↔ good machine ∧ good (machine.write address data) :=
  Iff.rfl

@[simp] theorem maintains_setError_bind {α : Type} (good : Machine → Prop) (code : Error)
    (rest : Unit → Program Machine α) (machine : Machine) :
    (setError code >>= rest).Maintains good machine ↔
      good machine ∧ (rest ()).Maintains good { machine with code } := Iff.rfl

@[simp] theorem maintains_store_bind {α : Type} (good : Machine → Prop) (address : Addr)
    (data : List Byte) (rest : Unit → Program Machine α) (machine : Machine) :
    (store address data >>= rest).Maintains good machine ↔
      good machine ∧ (rest ()).Maintains good (machine.write address data) := Iff.rfl

@[simp] theorem run_storeOriginal (org : Option Nat) (trampoline : Addr) (machine : Machine) :
    (storeOriginal org trampoline).run machine = some ((), machine.setOriginal org trampoline) := rfl

@[simp] theorem setOriginal_memory (machine : Machine) (org : Option Nat) (trampoline : Addr) :
    (machine.setOriginal org trampoline).memory = machine.memory := by
  cases org <;> rfl

@[simp] theorem maintains_storeOriginal_bind {α : Type} (good : Machine → Prop) (org : Option Nat)
    (trampoline : Addr) (rest : Unit → Program Machine α) (machine : Machine) :
    (storeOriginal org trampoline >>= rest).Maintains good machine ↔
      good machine ∧ (rest ()).Maintains good (machine.setOriginal org trampoline) := Iff.rfl

theorem sizeLoop_covers (decoder : Decoder) (memory : Memory) (min fuel total : Nat) (addr : Addr)
    (enough : min ≤ fuel + total) :
    sizeLoop decoder memory min fuel addr total = 0 ∨
      min ≤ sizeLoop decoder memory min fuel addr total := by
  induction fuel generalizing addr total with
  | zero => exact Or.inr (by simpa [sizeLoop] using enough)
  | succ fuel ih =>
      rw [sizeLoop]
      cases decoded : decoder.length memory addr with
      | none => exact Or.inl rfl
      | some len =>
          have positive := decoder.positive memory addr len decoded
          simp only
          split_ifs with short
          · exact ih (total + len) _ (by omega)
          · exact Or.inr (by omega)

theorem quickInstructionSize_covers (decoder : Decoder) (memory : Memory) (addr : Addr) (min : Nat) :
    quickInstructionSize decoder memory addr min = 0 ∨
      min ≤ quickInstructionSize decoder memory addr min :=
  sizeLoop_covers decoder memory min (min + 1) 0 addr (by omega)

inductive Decodes (decoder : Decoder) (memory : Memory) : Addr → Nat → Prop
  | none (addr : Addr) : Decodes decoder memory addr 0
  | next {addr : Addr} {len rest : Nat} (one : decoder.length memory addr = some len)
      (more : Decodes decoder memory (addr + BitVec.ofNat 64 len) rest) :
      Decodes decoder memory addr (len + rest)

theorem sizeLoop_decodes (decoder : Decoder) (memory : Memory) (min fuel total : Nat) (addr : Addr) :
    sizeLoop decoder memory min fuel addr total = 0 ∨
      ∃ size, sizeLoop decoder memory min fuel addr total = total + size ∧
        Decodes decoder memory addr size := by
  induction fuel generalizing addr total with
  | zero => exact Or.inr ⟨0, rfl, .none addr⟩
  | succ fuel ih =>
      rw [sizeLoop]
      cases decoded : decoder.length memory addr with
      | none => exact Or.inl rfl
      | some len =>
          simp only
          split_ifs with short
          · refine (ih (total + len) _).imp_right ?_
            rintro ⟨size, same, decodes⟩
            exact ⟨len + size, by rw [same, Nat.add_assoc], .next decoded decodes⟩
          · exact Or.inr ⟨len, rfl, .next decoded (.none _)⟩

theorem quickInstructionSize_decodes (decoder : Decoder) (memory : Memory) (addr : Addr) (min : Nat) :
    quickInstructionSize decoder memory addr min = 0 ∨
      Decodes decoder memory addr (quickInstructionSize decoder memory addr min) := by
  refine (sizeLoop_decodes decoder memory min (min + 1) 0 addr).imp_right ?_
  rintro ⟨size, same, decodes⟩
  rwa [quickInstructionSize, same, Nat.zero_add]

structure Keeps (fixed : Addr → Prop) (before after : Machine) : Prop where
  originals : after.originals = before.originals
  memory : ∀ place, fixed place → after.memory place = before.memory place

theorem Keeps.refl (fixed : Addr → Prop) (machine : Machine) : Keeps fixed machine machine :=
  ⟨rfl, fun _ _ => rfl⟩

theorem Keeps.write {fixed : Addr → Prop} {before after : Machine} (keeps : Keeps fixed before after)
    {address : Addr} {data : List Byte}
    (outside : ∀ place, fixed place → data.length ≤ (place - address).toNat) :
    Keeps fixed before (after.write address data) :=
  ⟨keeps.originals, fun place member =>
    (Memory.store_outside _ _ _ _ (outside place member)).trans (keeps.memory place member)⟩

theorem Keeps.bytes {fixed : Addr → Prop} {before after : Machine} (keeps : Keeps fixed before after)
    {address : Addr} {count : Nat}
    (member : ∀ index < count, fixed (address + BitVec.ofNat 64 index)) :
    after.memory.bytes address count = before.memory.bytes address count :=
  Memory.bytes_congr fun index within => keeps.memory _ (member index within)

-- Memory once the jump is there, whatever the order of the writes was.
def installed (memory : Memory) (origin target : Addr) (form : JumpForm) : Memory :=
  match form with
  | .slotted slot =>
      (memory.store slot (littleEndian 8 target.toNat)).store origin (form.code origin target)
  | .small | .absolute => memory.store origin (form.code origin target)

def Untouched (origin : Addr) (form : JumpForm) (place : Addr) : Prop :=
  form.size ≤ (place - origin).toNat ∧ ∀ slot, form = .slotted slot → 8 ≤ (place - slot).toNat

def SlotApart (origin : Addr) (form : JumpForm) : Prop :=
  ∀ slot, form = .slotted slot → Memory.Apart slot 8 origin 16

section WriteJump

variable {origin target : Addr} {form : JumpForm}

theorem store_code_kept (memory : Memory) (form : JumpForm) :
    memory.store origin (form.code origin target ++
        memory.bytes (origin + BitVec.ofNat 64 form.size) (form.width - form.size)) =
      memory.store origin (form.code origin target) := by
  have size := JumpForm.code_length origin target form
  have short : (form.code origin target).length + (form.width - form.size) ≤ 2 ^ 64 := by
    rw [size]
    cases form <;> simp [JumpForm.size, JumpForm.width, smallJump, mediumJump, longJump]
  have kept := Memory.store_append_bytes memory origin (form.code origin target) _ short
  rwa [size] at kept

theorem store_code_parts (memory : Memory) (form : JumpForm) (inline : form ≠ .absolute) :
    (memory.store origin form.opcode).store (origin + BitVec.ofNat 64 form.opcode.length)
        (littleEndian 4 (form.argument origin target).toNat) =
      memory.store origin (form.code origin target) := by
  have none : form.disp target = [] := by cases form <;> first | rfl | exact absurd rfl inline
  rw [JumpForm.code, none, List.append_nil, Memory.store_append]
  cases form <;> simp [JumpForm.opcode]

theorem store_code_parts_absolute (memory : Memory) :
    ((memory.store (origin + 6#64) (JumpForm.absolute.disp target)).store origin
        JumpForm.absolute.opcode).store
        (origin + BitVec.ofNat 64 JumpForm.absolute.opcode.length)
        (littleEndian 4 (JumpForm.absolute.argument origin target).toNat) =
      memory.store origin (JumpForm.absolute.code origin target) := by
  have six : (JumpForm.absolute.opcode ++
      littleEndian 4 (JumpForm.absolute.argument origin target).toNat).length = 6 := by
    simp [JumpForm.opcode]
  have eight : (JumpForm.absolute.disp target).length = 8 := by simp [JumpForm.disp]
  have apart : Memory.Apart (origin + 6#64) 8 origin 6 := by
    have origin_lt := origin.isLt
    simp only [Memory.Apart, BitVec.toNat_sub, BitVec.toNat_add, BitVec.toNat_ofNat]
    omega
  rw [← Memory.store_append _ _ _ _ (by simp [JumpForm.opcode]), Memory.store_comm _
    (by rw [six, eight]; exact apart), JumpForm.code, Memory.store_append _ _ _ (JumpForm.disp _ _)
    (by rw [six, eight]; omega), six]

theorem writeCode_run (machine : Machine) (form : JumpForm) :
    (writeCode origin target form (machine.memory.bytes (origin + BitVec.ofNat 64 form.size)
        (form.width - form.size))).run machine =
      some ((), machine.write origin (form.code origin target)) := by
  unfold writeCode
  by_cases aligned : origin.toNat % form.width = 0
  · simp only [aligned, if_true, run_store, Machine.write, store_code_kept]
  · by_cases inline : form = .absolute
    · subst inline
      simp only [aligned, if_false, if_true, run_bind, run_store, Option.bind_some, Machine.write,
        store_code_parts_absolute]
    · simp only [aligned, inline, if_false, run_bind, run_store, Option.bind_some, Machine.write,
        store_code_parts _ _ inline]

theorem writeCode_maintains (before machine : Machine) (form : JumpForm) {fixed : Addr → Prop}
    (keeps : Keeps fixed before machine)
    (outside : ∀ place, fixed place → form.size ≤ (place - origin).toNat) :
    (writeCode origin target form (machine.memory.bytes (origin + BitVec.ofNat 64 form.size)
        (form.width - form.size))).Maintains (Keeps fixed before) machine := by
  have opcode : ∀ place, fixed place → form.opcode.length ≤ (place - origin).toNat := by
    intro place member
    refine Nat.le_trans ?_ (outside place member)
    cases form <;> simp [JumpForm.opcode, JumpForm.size, smallJump, mediumJump, longJump]
  have argument : ∀ place, fixed place →
      (littleEndian 4 (form.argument origin target).toNat).length ≤
        (place - (origin + BitVec.ofNat 64 form.opcode.length)).toNat := by
    intro place member
    refine Memory.outside_part (outside place member) ?_
    cases form <;> simp [JumpForm.opcode, JumpForm.size, smallJump, mediumJump, longJump]
  have disp : form = .absolute → ∀ place, fixed place →
      (form.disp target).length ≤ (place - (origin + 6#64)).toNat := by
    rintro rfl place member
    exact Memory.outside_part (outside place member) (by simp [JumpForm.disp, JumpForm.size, longJump])
  unfold writeCode
  by_cases aligned : origin.toNat % form.width = 0
  · simp only [aligned, if_true, maintains_store, Machine.write, store_code_kept]
    refine ⟨keeps, keeps.write fun place member => ?_⟩
    rw [JumpForm.code_length]
    exact outside place member
  · by_cases inline : form = .absolute
    · subst inline
      have cell := keeps.write (disp rfl)
      have jump := cell.write opcode
      simp only [aligned, if_false, if_true, maintains_store_bind, maintains_store]
      exact ⟨keeps, cell, jump, jump.write argument⟩
    · have jump := keeps.write opcode
      simp only [aligned, inline, if_false, maintains_store_bind, maintains_store]
      exact ⟨keeps, jump, jump.write argument⟩

theorem SlotApart.kept {slot : Addr} {data : List Byte} (machine : Machine)
    (apart : SlotApart origin (.slotted slot)) (sized : data.length = 8) :
    machine.memory.bytes (origin + BitVec.ofNat 64 (JumpForm.slotted slot).size)
        ((JumpForm.slotted slot).width - (JumpForm.slotted slot).size) =
      (machine.write slot data).memory.bytes
        (origin + BitVec.ofNat 64 (JumpForm.slotted slot).size)
        ((JumpForm.slotted slot).width - (JumpForm.slotted slot).size) := by
  refine (Memory.bytes_store_apart _ ?_).symm
  rw [sized]
  exact (apart slot rfl).symm.part (by simp [JumpForm.size, JumpForm.width, mediumJump])
    (by simp [JumpForm.size, JumpForm.width, mediumJump])

theorem writeJump_run (machine : Machine) (form : JumpForm) (apart : SlotApart origin form) :
    (writeJump origin target form (machine.memory.bytes (origin + BitVec.ofNat 64 form.size)
        (form.width - form.size))).run machine =
      some ((), { machine with memory := installed machine.memory origin target form }) := by
  cases form with
  | small | absolute => exact writeCode_run machine _
  | slotted slot =>
      have kept := apart.kept machine (littleEndian_length 8 target.toNat)
      simp only [writeJump, run_bind, run_store, Option.bind_some, kept]
      exact writeCode_run _ _

theorem writeJump_maintains (before machine : Machine) (form : JumpForm)
    (apart : SlotApart origin form) {fixed : Addr → Prop} (keeps : Keeps fixed before machine)
    (outside : ∀ place, fixed place → Untouched origin form place) :
    (writeJump origin target form (machine.memory.bytes (origin + BitVec.ofNat 64 form.size)
        (form.width - form.size))).Maintains (Keeps fixed before) machine := by
  cases form with
  | small | absolute =>
      exact writeCode_maintains before machine _ keeps fun place member => (outside place member).1
  | slotted slot =>
      have kept := apart.kept machine (littleEndian_length 8 target.toNat)
      have cell : ∀ place, fixed place →
          (littleEndian 8 target.toNat).length ≤ (place - slot).toNat := by
        intro place member
        rw [littleEndian_length]
        exact (outside place member).2 slot rfl
      simp only [writeJump, maintains_store_bind, kept]
      exact ⟨keeps, writeCode_maintains before _ _ (keeps.write cell)
        fun place member => (outside place member).1⟩

end WriteJump

def JumpForm.Fits (origin target : Addr) (form : JumpForm) : Prop :=
  match form with
  | .small => farJump origin target = false
  | .slotted slot => slotReaches origin slot = true ∧ Memory.Apart slot 8 origin 16
  | .absolute => True

theorem jumpsTo_installed (memory : Memory) (origin target : Addr) (form : JumpForm)
    (fits : form.Fits origin target) : JumpsTo (installed memory origin target form) origin target := by
  have stored (memory : Memory) : (memory.store origin (form.code origin target)).bytes origin form.size =
      form.code origin target := by
    have length := JumpForm.code_length origin target form
    rw [← length]
    refine Memory.bytes_store _ _ _ ?_
    rw [length]
    cases form <;> simp [JumpForm.size, smallJump, mediumJump, longJump]
  cases form with
  | small => exact JumpForm.jumpsTo_small fits (stored memory)
  | absolute => exact JumpForm.jumpsTo_absolute (stored memory)
  | slotted slot =>
      refine JumpForm.jumpsTo_slotted fits.1 (stored _) (Memory.load64_of_bytes ?_)
      have apart : Memory.Apart slot 8 origin (JumpForm.code origin target (.slotted slot)).length := by
        rw [JumpForm.code_length]
        exact fits.2.mono (Nat.le_refl _) (by simp [JumpForm.size, mediumJump])
      rw [installed, Memory.bytes_store_apart _ apart]
      simpa using Memory.bytes_store memory slot (littleEndian 8 target.toNat) (by simp)

def Grants.Allow (grants : Grants) (absolute : Bool) : Prop :=
  grants.opcode = true ∧ grants.argument = true ∧ (absolute = true → grants.disp = true) ∧
    grants.writing = true

instance (grants : Grants) (absolute : Bool) : Decidable (grants.Allow absolute) :=
  inferInstanceAs (Decidable (_ ∧ _))

theorem installJump_run {grants : Grants} {origin target addressSlot : Addr} {absolute ok : Bool}
    {machine after : Machine} (apart : SlotApart origin (jumpForm absolute addressSlot))
    (ran : (installJump grants origin target absolute true addressSlot).run machine =
      some (ok, after)) :
    (ok = true ∧ grants.Allow absolute ∧ after = { machine with
        memory := installed machine.memory origin target (jumpForm absolute addressSlot) }) ∨
      (ok = false ∧ ¬grants.Allow absolute ∧ ∃ code, code ≠ .noError ∧ after = { machine with code }) := by
  simp only [installJump, run_bind, run_get, Option.bind_some] at ran
  split_ifs at ran with unallocated locked unslotted
  · right
    simp only [run_bind, run_setError, Option.bind_some, run_pure, Option.some.injEq,
      Prod.mk.injEq] at ran
    refine ⟨ran.1.symm, fun allow => ?_, _, by decide, ran.2.symm⟩
    obtain ⟨opcode, argument, disp, -⟩ := allow
    simp_all
  · right
    simp only [run_bind, run_setError, Option.bind_some, run_pure, Option.some.injEq,
      Prod.mk.injEq] at ran
    refine ⟨ran.1.symm, fun allow => ?_, _, by decide, ran.2.symm⟩
    simp [allow.2.2.2] at locked
  · simp at ran
  · left
    rw [run_bind, writeJump_run _ _ apart] at ran
    simp only [Option.bind_some, run_pure, Option.some.injEq, Prod.mk.injEq] at ran
    refine ⟨ran.1.symm, ?_, ran.2.symm⟩
    simp only [not_or, not_and, Bool.not_eq_false, forall_const] at unallocated locked
    exact ⟨unallocated.1, unallocated.2.1, unallocated.2.2, locked⟩

theorem installJump_maintains {grants : Grants} {origin target addressSlot : Addr} {absolute : Bool}
    {before machine : Machine} (apart : SlotApart origin (jumpForm absolute addressSlot))
    {fixed : Addr → Prop} (keeps : Keeps fixed before machine)
    (outside : ∀ place, fixed place → Untouched origin (jumpForm absolute addressSlot) place) :
    (installJump grants origin target absolute true addressSlot).Maintains (Keeps fixed before)
      machine := by
  have error (code : Error) : Keeps fixed before { machine with code } := ⟨keeps.1, keeps.2⟩
  simp only [installJump, maintains_get_bind]
  refine ⟨keeps, ?_⟩
  split_ifs
  · exact ⟨keeps, error _⟩
  · exact ⟨keeps, error _⟩
  · exact keeps
  · exact (writeJump_maintains before machine _ apart keeps outside).bind fun _ _ _ kept => kept

theorem installJump_maintains_of_refused {grants : Grants} {origin target addressSlot : Addr}
    {absolute : Bool} {machine : Machine} {good : Machine → Prop} (refused : ¬grants.Allow absolute)
    (start : good machine) (error : ∀ code, good { machine with code }) :
    (installJump grants origin target absolute true addressSlot).Maintains good machine := by
  simp only [installJump, maintains_get_bind]
  refine ⟨start, ?_⟩
  split_ifs with unallocated locked unslotted
  · exact ⟨start, error _⟩
  · exact ⟨start, error _⟩
  · exact start
  · simp only [not_or, not_and, Bool.not_eq_false, forall_const] at unallocated locked
    exact absurd ⟨unallocated.1, unallocated.2.1, unallocated.2.2, locked⟩ refused

theorem slotApart_direct (origin : Addr) (absolute : Bool) :
    SlotApart origin (jumpForm absolute 0) := by
  cases absolute <;> exact fun _ slotted => by simp [jumpForm] at slotted

section Plain

variable {build : Addr → Nat → Program Machine Addr} {host : Host} {grants : Grants}
  {origin target : Addr} {machine : Machine}

theorem selectTrampoline_plain {absolute : Bool} {selected : Option (Addr × Addr)} {after : Machine}
    (ran : (selectTrampoline build host origin false absolute .auto none).run machine =
      some (selected, after)) : selected = some (0, 0) ∧ after = machine := by
  simp only [selectTrampoline, run_bind, run_get, Option.bind_some, Bool.false_eq_true,
    if_false] at ran
  split_ifs at ran <;> simp_all

theorem selectTrampoline_plain_maintains {absolute : Bool} {good : Machine → Prop}
    (start : good machine) :
    (selectTrampoline build host origin false absolute .auto none).Maintains good machine := by
  simp only [selectTrampoline, maintains_get_bind, Bool.false_eq_true, if_false]
  refine ⟨start, ?_⟩
  split_ifs <;> exact start

theorem routeWith_plain_run {value : Addr} {after : Machine}
    (ran : (routeWith build host grants origin target false true .auto none none).run machine =
      some (value, after)) :
    (grants.Allow (farJump origin target) ∧ after = { machine with
        memory := installed machine.memory origin target (jumpForm (farJump origin target) 0) }) ∨
      (¬grants.Allow (farJump origin target) ∧ ∃ code, code ≠ .noError ∧ after = { machine with code }) := by
  simp only [routeWith, reduceCtorEq, false_and, if_false, decide_false, Bool.or_false] at ran
  obtain ⟨selected, middle, selecting, routing⟩ := run_bind_eq_some.mp ran
  obtain ⟨rfl, rfl⟩ := selectTrampoline_plain selecting
  simp only [run_bind, run_storeOriginal, Option.bind_some, Machine.setOriginal] at routing
  obtain ⟨⟨ok, final⟩, installing, returning⟩ := Option.bind_eq_some_iff.mp routing
  simp only [run_pure, Option.some.injEq, Prod.mk.injEq] at returning
  obtain ⟨-, rfl⟩ := returning
  rcases installJump_run (slotApart_direct _ _) installing with ⟨-, allow, same⟩ | ⟨-, refused, same⟩
  · exact Or.inl ⟨allow, same⟩
  · exact Or.inr ⟨refused, same⟩

theorem routeWith_plain_maintains {before : Machine} {fixed : Addr → Prop}
    (keeps : Keeps fixed before machine)
    (outside : ∀ place, fixed place → longJump ≤ (place - origin).toNat) :
    (routeWith build host grants origin target false true .auto none none).Maintains
      (Keeps fixed before) machine := by
  have untouched : ∀ place, fixed place →
      Untouched origin (jumpForm (farJump origin target) 0) place := by
    intro place member
    refine ⟨Nat.le_trans ?_ (outside place member), fun slot slotted => ?_⟩
    · cases farJump origin target <;> simp [jumpForm, JumpForm.size, smallJump, longJump]
    · cases far : farJump origin target <;> simp [jumpForm, far] at slotted
  simp only [routeWith, reduceCtorEq, false_and, if_false, decide_false, Bool.or_false]
  refine (selectTrampoline_plain_maintains keeps).bind fun selected middle selecting kept => ?_
  obtain ⟨rfl, rfl⟩ := selectTrampoline_plain selecting
  simp only [maintains_storeOriginal_bind, Machine.setOriginal]
  exact ⟨kept,
    (installJump_maintains (slotApart_direct _ _) kept untouched).bind fun _ _ _ kept => kept⟩

end Plain

structure Copied (host : Host) (before after : Memory) (func trampoline : Addr) (size : Nat) : Prop where
  inside : ∃ start, trampoline = host.tempExecutableMemory + BitVec.ofNat 64 start ∧
    start + size + longJump ≤ tempExecutableMemorySize
  whole : Decodes host.decoder before func size
  prologue : after.bytes trampoline size = before.bytes func size
  jump : ∃ form, form = jumpForm (farJump (trampoline + BitVec.ofNat 64 size)
      (func + BitVec.ofNat 64 size)) 0 ∧
    after.bytes (trampoline + BitVec.ofNat 64 size) form.size =
      form.code (trampoline + BitVec.ofNat 64 size) (func + BitVec.ofNat 64 size)

def InTemp (host : Host) (place : Addr) : Prop :=
  (place - host.tempExecutableMemory).toNat < tempExecutableMemorySize

theorem inTemp_of_lt (host : Host) {start : Nat} (within : start < tempExecutableMemorySize) :
    InTemp host (host.tempExecutableMemory + BitVec.ofNat 64 start) := by
  rw [InTemp, BitVec.add_comm, BitVec.add_sub_cancel, BitVec.toNat_ofNat]
  exact Nat.lt_of_le_of_lt (Nat.mod_le _ _) within

theorem direct_size_le (absolute : Bool) : (jumpForm absolute 0).size ≤ longJump := by
  cases absolute <;> simp [jumpForm, JumpForm.size, smallJump, longJump]

theorem Copied.of_same {host : Host} {before middle after : Memory} {func trampoline : Addr} {size : Nat}
    (copied : Copied host before middle func trampoline size)
    (same : ∀ place, InTemp host place → after place = middle place) :
    Copied host before after func trampoline size := by
  obtain ⟨start, rfl, room⟩ := copied.inside
  have part (offset count : Nat) (inside : start + offset + count ≤ tempExecutableMemorySize) :
      after.bytes (host.tempExecutableMemory + BitVec.ofNat 64 start + BitVec.ofNat 64 offset) count =
        middle.bytes (host.tempExecutableMemory + BitVec.ofNat 64 start + BitVec.ofNat 64 offset)
          count := by
    refine Memory.bytes_congr fun index within => same _ ?_
    rw [BitVec.add_assoc, BitVec.add_assoc, ← BitVec.ofNat_add, ← BitVec.ofNat_add]
    exact inTemp_of_lt host (by omega)
  refine ⟨⟨start, rfl, room⟩, copied.whole, ?_, ?_⟩
  · have prologue := part 0 size (by omega)
    rw [BitVec.add_zero] at prologue
    rw [prologue, copied.prologue]
  · obtain ⟨form, rfl, stored⟩ := copied.jump
    refine ⟨_, rfl, ?_⟩
    have within := direct_size_le (farJump (host.tempExecutableMemory + BitVec.ofNat 64 start +
      BitVec.ofNat 64 size) (func + BitVec.ofNat 64 size))
    rw [part size _ (by omega), stored]

theorem Copied.jumpsTo {host : Host} {before after : Memory} {func trampoline : Addr} {size : Nat}
    (copied : Copied host before after func trampoline size) :
    JumpsTo after (trampoline + BitVec.ofNat 64 size) (func + BitVec.ofNat 64 size) := by
  obtain ⟨form, rfl, stored⟩ := copied.jump
  cases far : farJump (trampoline + BitVec.ofNat 64 size) (func + BitVec.ofNat 64 size) with
  | false =>
      rw [far] at stored
      exact JumpForm.jumpsTo_small far stored
  | true =>
      rw [far] at stored
      exact JumpForm.jumpsTo_absolute stored

theorem installed_direct (memory : Memory) (origin target : Addr) (absolute : Bool) :
    installed memory origin target (jumpForm absolute 0) =
      memory.store origin ((jumpForm absolute 0).code origin target) := by
  cases absolute <;> rfl

theorem copied_installed (host : Host) (memory : Memory) (func : Addr) {start size : Nat}
    (positive : 0 < size) (room : start + size + longJump ≤ tempExecutableMemorySize)
    (whole : Decodes host.decoder memory func size) :
    Copied host memory
      (installed (memory.store (host.tempExecutableMemory + BitVec.ofNat 64 start) (memory.bytes func size))
        (host.tempExecutableMemory + BitVec.ofNat 64 start + BitVec.ofNat 64 size)
        (func + BitVec.ofNat 64 size)
        (jumpForm (farJump (host.tempExecutableMemory + BitVec.ofNat 64 start + BitVec.ofNat 64 size)
          (func + BitVec.ofNat 64 size)) 0))
      func (host.tempExecutableMemory + BitVec.ofNat 64 start) size := by
  generalize pointed : host.tempExecutableMemory + BitVec.ofNat 64 start = pointer
  generalize shaped : jumpForm (farJump (pointer + BitVec.ofNat 64 size)
    (func + BitVec.ofNat 64 size)) 0 = form
  have within : form.size ≤ longJump := by
    rw [← shaped]
    exact direct_size_le _
  have small : longJump = 14 ∧ tempExecutableMemorySize = 4096 := ⟨rfl, rfl⟩
  have sized := JumpForm.code_length (pointer + BitVec.ofNat 64 size) (func + BitVec.ofNat 64 size) form
  refine ⟨⟨start, pointed.symm, room⟩, whole, ?_, form, shaped.symm, ?_⟩
  · have apart : Memory.Apart pointer size (pointer + BitVec.ofNat 64 size)
        (form.code (pointer + BitVec.ofNat 64 size) (func + BitVec.ofNat 64 size)).length := by
      rw [sized]
      exact Memory.apart_next pointer positive (by omega)
    have stored := Memory.bytes_store memory pointer (memory.bytes func size)
      (by rw [Memory.bytes_length]; omega)
    rw [← shaped, installed_direct, shaped, Memory.bytes_store_apart _ apart]
    rwa [Memory.bytes_length] at stored
  · rw [← shaped, installed_direct, shaped, ← sized]
    exact Memory.bytes_store _ _ _ (by omega)

def TrampolineGranted (host : Host) (machine : Machine) (func : Addr) (min : Nat) : Prop :=
  let off := quickInstructionSize host.decoder machine.memory func min
  let tempDataPtr := host.tempExecutableMemory + BitVec.ofNat 64 machine.tempExecutableMemoryOff
  host.trampolineWriting = true ∧ 0 < off ∧ off ≤ pageSize - longJump ∧
    machine.tempExecutableMemoryOff + off + longJump < tempExecutableMemorySize ∧
    host.inner.Allow (farJump (tempDataPtr + BitVec.ofNat 64 off) (func + BitVec.ofNat 64 off))

instance (host : Host) (machine : Machine) (func : Addr) (min : Nat) :
    Decidable (TrampolineGranted host machine func min) := by
  unfold TrampolineGranted
  infer_instance

section CreateTrampoline

variable {host : Host} {machine : Machine} {func : Addr} {min : Nat}

theorem createTrampoline_maintains {before : Machine}
    (keeps : Keeps (fun place => ¬InTemp host place) before machine) :
    (createTrampoline host func min).Maintains (Keeps (fun place => ¬InTemp host place) before)
      machine := by
  have error {state : Machine} (kept : Keeps (fun place => ¬InTemp host place) before state)
      (code : Error) : Keeps (fun place => ¬InTemp host place) before { state with code } :=
    ⟨kept.1, kept.2⟩
  have used (offset : Nat) : Keeps (fun place => ¬InTemp host place) before
      { machine with tempExecutableMemoryOff := offset } := ⟨keeps.1, keeps.2⟩
  unfold createTrampoline
  split_ifs with locked
  · exact ⟨keeps, error keeps _⟩
  · simp only [maintains_get_bind]
    refine ⟨keeps, ?_⟩
    split_ifs with unsupported full
    · exact ⟨keeps, error keeps _⟩
    · simp only [maintains_modify_bind]
      exact ⟨keeps, used _, error (used _) _⟩
    · -- Both writes, of the prologue and of the jump behind it, are in the part just taken.
      have outside (start count : Nat) (place : Addr) (member : ¬InTemp host place)
          (room : start + count ≤ tempExecutableMemorySize) :
          count ≤ (place - (host.tempExecutableMemory + BitVec.ofNat 64 start)).toNat :=
        Memory.outside_part (Nat.le_of_not_lt member) room
      have prologue (place : Addr) (member : ¬InTemp host place) :
          (machine.memory.bytes func (quickInstructionSize host.decoder machine.memory func min)).length ≤
            (place - (host.tempExecutableMemory +
              BitVec.ofNat 64 machine.tempExecutableMemoryOff)).toNat := by
        rw [Memory.bytes_length]
        exact outside _ _ place member (by omega)
      simp only [maintains_modify_bind, maintains_store_bind, maintains_setError_bind]
      have copied := (used (machine.tempExecutableMemoryOff +
        quickInstructionSize host.decoder machine.memory func min + longJump)).write prologue
      refine ⟨keeps, used _, copied, ?_⟩
      refine (routeWith_plain_maintains (error copied _) fun place member => ?_).bind
        fun _ routed _ kept => ⟨kept, kept⟩
      rw [BitVec.add_assoc, ← BitVec.ofNat_add]
      exact outside _ _ place member (by omega)

theorem createTrampoline_run {value : Addr} {after : Machine} (mapped : 0 < host.tempExecutableMemory.toNat)
    (bounded : host.tempExecutableMemory.toNat + tempExecutableMemorySize ≤ 2 ^ 64)
    (ran : (createTrampoline host func min).run machine = some (value, after)) :
    (value = 0 ∧ ¬TrampolineGranted host machine func min) ∨
      (value ≠ 0 ∧ TrampolineGranted host machine func min ∧
        ∃ size, min ≤ size ∧ Copied host machine.memory after.memory func value size) := by
  unfold createTrampoline at ran
  split_ifs at ran with locked
  · simp only [run_bind, run_setError, Option.bind_some, run_pure, Option.some.injEq,
      Prod.mk.injEq] at ran
    exact Or.inl ⟨ran.1.symm, fun granted => by simp [granted.1] at locked⟩
  · simp only [run_bind, run_get, Option.bind_some] at ran
    split_ifs at ran with unsupported full
    · simp only [run_bind, run_setError, Option.bind_some, run_pure, Option.some.injEq,
        Prod.mk.injEq] at ran
      refine Or.inl ⟨ran.1.symm, fun granted => ?_⟩
      have positive := granted.2.1
      have short := granted.2.2.1
      omega
    · simp only [run_bind, run_modify, run_setError, Option.bind_some, run_pure, Option.some.injEq,
        Prod.mk.injEq] at ran
      refine Or.inl ⟨ran.1.symm, fun granted => ?_⟩
      have room := granted.2.2.2.1
      omega
    · simp only [run_bind, run_modify, run_setError, run_store, Option.bind_some] at ran
      obtain ⟨⟨inner, routed⟩, routing, returning⟩ := Option.bind_eq_some_iff.mp ran
      simp only [run_get, run_pure, Option.bind_some, Option.some.injEq, Prod.mk.injEq] at returning
      obtain ⟨returned, rfl⟩ := returning
      have writable : host.trampolineWriting = true := by simpa using locked
      have covers := quickInstructionSize_covers host.decoder machine.memory func min
      have whole := (quickInstructionSize_decodes host.decoder machine.memory func min).resolve_left
        (by omega)
      rcases routeWith_plain_run routing with ⟨allow, rfl⟩ | ⟨refused, code, failed, rfl⟩
      · refine Or.inr ⟨?_, ⟨writable, by omega, by omega, by omega, allow⟩,
          quickInstructionSize host.decoder machine.memory func min, by omega, ?_⟩
        · have room : tempExecutableMemorySize = 4096 := rfl
          rw [← returned, if_pos rfl]
          intro null
          have zero := congrArg BitVec.toNat null
          simp only [BitVec.toNat_add, BitVec.toNat_ofNat, BitVec.ofNat_eq_ofNat] at zero
          omega
        · rw [← returned, if_pos rfl]
          exact copied_installed host machine.memory func (by omega) (by omega) whole
      · refine Or.inl ⟨?_, fun granted => refused granted.2.2.2.2⟩
        rw [← returned, if_neg failed]

end CreateTrampoline

end NootedDeck.Patcher
