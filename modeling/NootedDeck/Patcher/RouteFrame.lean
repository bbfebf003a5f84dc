import NootedDeck.Patcher.RouteOutcome

set_option autoImplicit false

namespace NootedDeck.Patcher

open Bytes Interleaving Program

def Unused (host : Host) (machine : Machine) (place : Addr) : Prop :=
  machine.tempExecutableMemoryOff ≤ (place - host.tempExecutableMemory).toNat ∧ InTemp host place

-- Counters are erased up to seven bytes beyond the longest jump.
def codeSize : Nat := 24

def Touches (host : Host) (machine : Machine) (info : Option Nat) (origin place : Addr) : Prop :=
  Unused host machine place ∨ (place - origin).toNat < codeSize ∨
    (nextSlot host machine info ≠ 0 ∧ (place - nextSlot host machine info).toNat < 8)

structure Within (host : Host) (info : Option Nat) (origin : Addr) (before state : Machine) : Prop where
  memory : ∀ place, ¬Touches host before info origin place →
    state.memory place = before.memory place
  used : before.tempExecutableMemoryOff ≤ state.tempExecutableMemoryOff
  slots : state.addressSlots = before.addressSlots ∨ ∃ id, info = some id ∧
    nextSlot host before info ≠ 0 ∧
    state.addressSlots = Function.update before.addressSlots id (before.addressSlots id + 8#64)

section Within

variable {host : Host} {info : Option Nat} {origin : Addr} {before machine : Machine}

theorem Within.refl (host : Host) (info : Option Nat) (origin : Addr) (machine : Machine) :
    Within host info origin machine machine :=
  ⟨fun _ _ => rfl, Nat.le_refl _, Or.inl rfl⟩

theorem Within.error (within : Within host info origin before machine) (code : Error) :
    Within host info origin before { machine with code } :=
  ⟨within.memory, within.used, within.slots⟩

theorem Within.setOriginal (within : Within host info origin before machine) (org : Option Nat)
    (trampoline : Addr) : Within host info origin before (machine.setOriginal org trampoline) := by
  cases org with
  | none => exact within
  | some slot => exact ⟨within.memory, within.used, within.slots⟩

theorem setOriginal_other (machine : Machine) {org : Option Nat} (trampoline : Addr) {holder : Nat}
    (different : org ≠ some holder) :
    (machine.setOriginal org trampoline).originals holder = machine.originals holder := by
  cases org with
  | none => rfl
  | some slot =>
      have other : holder ≠ slot := fun same => different (congrArg some same.symm)
      exact Function.update_of_ne other ..

theorem Within.write (within : Within host info origin before machine) (address : Addr)
    (data : List Byte) (outside : ∀ place, ¬Touches host before info origin place →
      data.length ≤ (place - address).toNat) :
    Within host info origin before (machine.write address data) :=
  ⟨fun place member => (Memory.store_outside _ _ _ _ (outside place member)).trans
    (within.memory place member), within.used, within.slots⟩

theorem outside_unused {place : Addr} (untouched : ¬Touches host before info origin place)
    {start count : Nat} (unused : before.tempExecutableMemoryOff ≤ start)
    (room : start + count ≤ tempExecutableMemorySize) :
    count ≤ (place - (host.tempExecutableMemory + BitVec.ofNat 64 start)).toNat := by
  have size : tempExecutableMemorySize = 4096 := rfl
  have free : ¬Unused host before place := fun free => untouched (Or.inl free)
  by_cases inTemp : InTemp host place
  · have early : (place - host.tempExecutableMemory).toNat < start := by
      by_contra late
      exact free ⟨by omega, inTemp⟩
    have place_lt := place.isLt
    have base_lt := host.tempExecutableMemory.isLt
    simp only [BitVec.toNat_sub, BitVec.toNat_add, BitVec.toNat_ofNat] at *
    omega
  · exact Memory.outside_part (Nat.le_of_not_lt inTemp) room

theorem outside_jump {place slot : Addr} (untouched : ¬Touches host before info origin place)
    (absolute : Bool) (known : slot = 0 ∨ slot = nextSlot host before info) :
    Untouched origin (jumpForm absolute slot) place := by
  simp only [Touches, not_or, not_and, Nat.not_lt] at untouched
  obtain ⟨-, code, cell⟩ := untouched
  refine ⟨(jumpForm_size_le absolute slot).trans (Nat.le_trans (by decide) code), ?_⟩
  intro slot' slotted
  obtain ⟨rfl, used⟩ := slot_of_slotted known slotted
  exact cell used

theorem Within.installed (within : Within host info origin before machine) {target slot : Addr}
    {absolute : Bool} (known : slot = 0 ∨ slot = nextSlot host before info) :
    Within host info origin before { machine with
      memory := installed machine.memory origin target (jumpForm absolute slot) } :=
  ⟨fun place member => (installed_untouched _ (outside_jump member absolute known)).trans
    (within.memory place member), within.used, within.slots⟩

structure Placed (host : Host) (before after : Machine) (func trampoline : Addr) (size : Nat) : Prop where
  copied : Copied host before.memory after.memory func trampoline size
  start : trampoline = host.tempExecutableMemory + BitVec.ofNat 64 before.tempExecutableMemoryOff
  used : before.tempExecutableMemoryOff + size + longJump = after.tempExecutableMemoryOff
  room : after.tempExecutableMemoryOff ≤ tempExecutableMemorySize

theorem createTrampoline_within {func value : Addr} {min : Nat} {after : Machine}
    (within : Within host info origin before machine)
    (ran : (createTrampoline host func min).run machine = some (value, after)) :
    Within host info origin before after ∧ after.addressSlots = machine.addressSlots ∧
      (value ≠ 0 → ∃ size, min ≤ size ∧ 0 < size ∧ Placed host machine after func value size) := by
  unfold createTrampoline at ran
  split_ifs at ran with locked
  · simp only [run_bind, run_setError, Option.bind_some, run_pure, Option.some.injEq,
      Prod.mk.injEq] at ran
    obtain ⟨rfl, rfl⟩ := ran
    exact ⟨within.error _, rfl, fun made => absurd rfl made⟩
  · simp only [run_bind, run_get, Option.bind_some] at ran
    have covers := quickInstructionSize_covers host.decoder machine.memory func min
    have decodes := quickInstructionSize_decodes host.decoder machine.memory func min
    generalize quickInstructionSize host.decoder machine.memory func min = size at ran covers decodes
    have grown : Within host info origin before { machine with
        tempExecutableMemoryOff := machine.tempExecutableMemoryOff + size + longJump } :=
      ⟨within.memory, by have used := within.used; simp only; omega, within.slots⟩
    split_ifs at ran with unsupported full
    · simp only [run_bind, run_setError, Option.bind_some, run_pure, Option.some.injEq,
        Prod.mk.injEq] at ran
      obtain ⟨rfl, rfl⟩ := ran
      exact ⟨within.error _, rfl, fun made => absurd rfl made⟩
    · simp only [run_bind, run_modify, run_setError, Option.bind_some, run_pure, Option.some.injEq,
        Prod.mk.injEq] at ran
      obtain ⟨rfl, rfl⟩ := ran
      exact ⟨grown.error _, rfl, fun made => absurd rfl made⟩
    · simp only [run_bind, run_modify, run_setError, run_store, Option.bind_some] at ran
      obtain ⟨⟨inner, routed⟩, routing, returning⟩ := Option.bind_eq_some_iff.mp ran
      simp only [run_get, run_pure, Option.bind_some, Option.some.injEq, Prod.mk.injEq] at returning
      obtain ⟨returned, rfl⟩ := returning
      have room : machine.tempExecutableMemoryOff + (size + longJump) ≤ tempExecutableMemorySize := by
        omega
      have prologue := grown.write _ (machine.memory.bytes func size) fun place untouched => by
        rw [Memory.bytes_length]
        exact outside_unused untouched within.used (by omega)
      rcases routeWith_plain_run routing with ⟨allow, rfl⟩ | ⟨refused, code, failed, rfl⟩
      · refine ⟨?_, rfl, ?_⟩
        · rw [installed_direct]
          refine (prologue.error .noError).write _ _ fun place untouched => ?_
          rw [JumpForm.code_length, BitVec.add_assoc, ← BitVec.ofNat_add]
          exact (direct_size_le _).trans
            (outside_unused untouched (Nat.le_trans within.used (Nat.le_add_right _ _)) (by omega))
        · intro made
          rw [if_pos rfl] at returned
          subst returned
          exact ⟨size, by omega, by omega,
            ⟨copied_installed host machine.memory func (by omega) (by omega)
              (decodes.resolve_left (by omega)), rfl, rfl,
              Nat.le_of_lt (Nat.not_le.mp full)⟩⟩
      · rw [if_neg failed] at returned
        exact ⟨(prologue.error _).error _, rfl, fun made => absurd returned.symm made⟩

def SlotTaken (host : Host) (info : Option Nat) (before after : Machine) (slot : Addr) : Prop :=
  slot = nextSlot host before info ∧ ∃ id, info = some id ∧
    after.addressSlots = Function.update before.addressSlots id (before.addressSlots id + 8#64)

theorem getAddressSlot_within {id : Nat} {slot : Addr} {after : Machine} (origin : Addr)
    (ran : (getAddressSlot host id).run machine = some (slot, after)) :
    (∃ slots, after = { machine with addressSlots := slots }) ∧
      Within host (some id) origin machine after ∧
      (slot ≠ 0 → SlotTaken host (some id) machine after slot) := by
  unfold getAddressSlot at ran
  simp only [run_bind, run_get, Option.bind_some] at ran
  split_ifs at ran with available
  · have next : nextSlot host machine (some id) = machine.addressSlots id := if_pos available
    simp only [run_bind, run_modify, Option.bind_some, run_pure, Option.some.injEq,
      Prod.mk.injEq] at ran
    obtain ⟨rfl, rfl⟩ := ran
    refine ⟨⟨_, rfl⟩, ⟨fun _ _ => rfl, Nat.le_refl _, Or.inr ⟨id, rfl, ?_, rfl⟩⟩, fun _ => ?_⟩
    · rw [next]
      exact available.1
    · exact ⟨next.symm, id, rfl, rfl⟩
  · simp only [run_pure, Option.some.injEq, Prod.mk.injEq] at ran
    obtain ⟨rfl, rfl⟩ := ran
    exact ⟨⟨_, rfl⟩, Within.refl .., fun taken => absurd rfl taken⟩

structure Chosen (host : Host) (before : Machine) (info : Option Nat) (origin : Addr)
    (buildWrapper : Bool) (trampoline slot : Addr) (minimum : Nat) (after : Machine) : Prop where
  within : Within host info origin before after
  kind : (readChain before.memory origin).1 ≠ 0 → (readChain before.memory origin).2 ≠ .short ∧
    ((readChain before.memory origin).2 = .medium ↔ slot ≠ 0)
  slot : slot ≠ 0 → SlotTaken host info before after slot
  plain : buildWrapper = false → trampoline = 0
  chained : buildWrapper = true → (readChain before.memory origin).1 ≠ 0 →
    trampoline = (readChain before.memory origin).1
  placed : buildWrapper = true → (readChain before.memory origin).1 = 0 →
    trampoline ≠ 0 ∧ ∃ size, minimum ≤ size ∧ 0 < size ∧ Placed host before after origin trampoline size

theorem wrapperSlot_within {absolute : Bool} {slot : Addr} {after : Machine} (origin : Addr)
    (ran : (wrapperSlot host absolute .auto info).run machine = some (slot, after)) :
    (∃ slots, after = { machine with addressSlots := slots }) ∧
      Within host info origin machine after ∧
      (slot ≠ 0 → SlotTaken host info machine after slot ∧ absolute = true) := by
  cases info with
  | none =>
      cases ran
      exact ⟨⟨_, rfl⟩, Within.refl .., fun taken => absurd rfl taken⟩
  | some id =>
      cases absolute with
      | false =>
          cases ran
          exact ⟨⟨_, rfl⟩, Within.refl .., fun taken => absurd rfl taken⟩
      | true =>
          obtain ⟨same, within, taken⟩ := getAddressSlot_within origin ran
          exact ⟨same, within, fun used => ⟨taken used, rfl⟩⟩

theorem minimum_eq {absolute : Bool} {slot : Addr} (far : slot ≠ 0 → absolute = true) :
    (if absolute then (if slot ≠ 0 then mediumJump else longJump) else smallJump) =
      (jumpForm absolute slot).size := by
  cases absolute with
  | false =>
      have none : slot = 0 := by
        by_contra used
        exact absurd (far used) (by decide)
      subst none
      rfl
  | true =>
      by_cases used : slot = 0
      · subst used
        rfl
      · rw [jumpForm, if_pos rfl, if_pos used, if_pos used]
        rfl

theorem selectTrampoline_again {absolute buildWrapper : Bool} {selected : Option (Addr × Addr)}
    {after : Machine} (chained : (readChain machine.memory origin).1 ≠ 0)
    (ran : (selectTrampoline (createTrampoline host) host origin buildWrapper absolute .auto info).run
      machine = some (selected, after)) :
    ∃ trampoline slot, selected = some (trampoline, slot) ∧
      Chosen host machine info origin buildWrapper trampoline slot (jumpForm absolute slot).size after := by
  have chosen {slot : Addr} {final : Machine} (within : Within host info origin machine final)
      (taken : slot ≠ 0 → SlotTaken host info machine final slot)
      (kind : (readChain machine.memory origin).2 ≠ .short ∧
        ((readChain machine.memory origin).2 = .medium ↔ slot ≠ 0)) :
      Chosen host machine info origin buildWrapper
        (if buildWrapper then (readChain machine.memory origin).1 else 0) slot
        (jumpForm absolute slot).size final := by
    refine ⟨within, fun _ => kind, taken, fun plain => by rw [plain]; rfl, fun wrapped _ => ?_,
      fun _ fresh => absurd fresh chained⟩
    rw [wrapped]
    rfl
  simp only [selectTrampoline, run_bind, run_get, Option.bind_some, reduceCtorEq, or_false, ne_eq,
    chained, not_false_eq_true, if_true] at ran
  generalize (if buildWrapper = true then (readChain machine.memory origin).1 else 0) = trampoline
    at ran chosen
  split_ifs at ran with short medium
  · cases ran
  · cases info with
    | none => cases ran
    | some id =>
        obtain ⟨slot, middle, taking, returning⟩ := run_bind_eq_some.mp ran
        obtain ⟨-, within, taken⟩ := getAddressSlot_within origin taking
        split_ifs at returning with empty
        · cases returning
        · cases returning
          exact ⟨_, _, rfl, chosen within taken ⟨short, iff_of_true medium empty⟩⟩
  · cases ran
    exact ⟨_, _, rfl, chosen (Within.refl ..) (fun taken => absurd rfl taken)
      ⟨short, iff_of_false medium (not_not_intro rfl)⟩⟩

theorem selectTrampoline_new {absolute buildWrapper : Bool} {selected : Option (Addr × Addr)}
    {after : Machine} (fresh : (readChain machine.memory origin).1 = 0)
    (ran : (selectTrampoline (createTrampoline host) host origin buildWrapper absolute .auto info).run
      machine = some (selected, after)) :
    Within host info origin machine after ∧
      ∀ trampoline slot, selected = some (trampoline, slot) →
        Chosen host machine info origin buildWrapper trampoline slot (jumpForm absolute slot).size after := by
  simp only [selectTrampoline, run_bind, run_get, Option.bind_some, fresh, ne_eq,
    not_true_eq_false, if_false] at ran
  cases buildWrapper with
  | false =>
      cases ran
      refine ⟨Within.refl .., fun trampoline slot same => ?_⟩
      cases same
      exact ⟨Within.refl .., fun chained => absurd fresh chained, fun taken => absurd rfl taken,
        fun _ => rfl, fun wrapped => absurd wrapped (by decide),
        fun wrapped => absurd wrapped (by decide)⟩
  | true =>
      simp only [if_true] at ran
      obtain ⟨slot, middle, taking, creating⟩ := run_bind_eq_some.mp ran
      obtain ⟨⟨slots, rfl⟩, within, taken⟩ := wrapperSlot_within origin taking
      obtain ⟨trampoline, final, created, returning⟩ := run_bind_eq_some.mp creating
      obtain ⟨within, slots, placed⟩ := createTrampoline_within within created
      rw [minimum_eq fun used => (taken used).2] at placed
      simp only [run_pure, Option.some.injEq, Prod.mk.injEq] at returning
      obtain ⟨rfl, rfl⟩ := returning
      refine ⟨within, fun trampoline' slot' same => ?_⟩
      split_ifs at same with zero
      cases same
      obtain ⟨size, covers, positive, placed⟩ := placed zero
      refine ⟨within, fun chained => absurd fresh chained, fun used => ?_,
        fun plain => absurd plain (by decide), fun _ chained => absurd fresh chained,
        fun _ _ => ⟨zero, size, covers, positive, placed.copied, placed.start, placed.used, placed.room⟩⟩
      obtain ⟨⟨next, id, same, updated⟩, -⟩ := taken used
      exact ⟨next, id, same, slots.trans updated⟩

theorem selectTrampoline_chosen {absolute buildWrapper : Bool} {selected : Option (Addr × Addr)}
    {after : Machine}
    (ran : (selectTrampoline (createTrampoline host) host origin buildWrapper absolute .auto info).run
      machine = some (selected, after)) :
    Within host info origin machine after ∧
      ∀ trampoline slot, selected = some (trampoline, slot) →
        Chosen host machine info origin buildWrapper trampoline slot (jumpForm absolute slot).size after := by
  by_cases chained : (readChain machine.memory origin).1 = 0
  · exact selectTrampoline_new chained ran
  · obtain ⟨trampoline, slot, rfl, chosen⟩ := selectTrampoline_again chained ran
    refine ⟨chosen.within, fun trampoline' slot' same => ?_⟩
    cases same
    exact chosen

theorem Chosen.slotKnown {buildWrapper : Bool} {trampoline slot : Addr} {minimum : Nat}
    {after : Machine}
    (chosen : Chosen host machine info origin buildWrapper trampoline slot minimum after) :
    slot = 0 ∨ slot = nextSlot host machine info := by
  by_cases used : slot = 0
  · exact Or.inl used
  · exact Or.inr (chosen.slot used).1

def AllGranted (host : Host) (machine : Machine) (info : Option Nat) (origin target : Addr)
    (buildWrapper : Bool) : Prop :=
  host.outer.Allow (farJump origin target) ∧
    (buildWrapper = true → (readChain machine.memory origin).1 = 0 →
      TrampolineGranted host machine origin (wrapperSize host machine info origin target))

theorem routeFunctionInternal_within {target value : Addr} {buildWrapper : Bool} {org : Option Nat}
    {after : Machine} (layout : Layout host machine info origin)
    (ran : (routeFunctionInternal host origin target buildWrapper true .auto info org).run machine =
      some (value, after)) :
    Within host info origin machine after ∧
      (∀ holder, org ≠ some holder → after.originals holder = machine.originals holder) ∧
      (AllGranted host machine info origin target buildWrapper →
        ∃ slot middle, Chosen host machine info origin buildWrapper value slot
          (jumpForm (farJump origin target) slot).size middle ∧
          Prepared host machine origin middle ∧ after = { middle.setOriginal org value with
            memory := installed middle.memory origin target (jumpForm (farJump origin target) slot) }) ∧
      (¬AllGranted host machine info origin target buildWrapper →
        ∀ place, ¬InTemp host place → after.memory place = machine.memory place) := by
  simp only [routeFunctionInternal, routeWith, reduceCtorEq, false_and, if_false, decide_false,
    Bool.or_false] at ran
  obtain ⟨selected, middle, selecting, routing⟩ := run_bind_eq_some.mp ran
  obtain ⟨within, chosen⟩ := selectTrampoline_chosen selecting
  have prepared := selectTrampoline_maintains.finish selecting
  cases selected with
  | none =>
      cases routing
      refine ⟨within, fun _ _ => congrFun prepared.keeps.originals _, fun admitted => ?_,
        fun _ => prepared.keeps.memory⟩
      rcases selectTrampoline_run layout selecting with ⟨_, _, same, -⟩ | ⟨-, wrapped, fresh, refused⟩
      · cases same
      · exact absurd (admitted.2 wrapped fresh) refused
  | some pair =>
      obtain ⟨trampoline, slot⟩ := pair
      have chosen := chosen trampoline slot rfl
      have apart : SlotApart origin (jumpForm (farJump origin target) slot) :=
        (layout.fits chosen.slotKnown).2
      have others (holder : Nat) (different : org ≠ some holder) :
          (middle.setOriginal org trampoline).originals holder = machine.originals holder := by
        rw [← prepared.keeps.originals]
        exact setOriginal_other middle trampoline different
      simp only [run_bind, run_storeOriginal, Option.bind_some] at routing
      obtain ⟨⟨ok, final⟩, installing, returning⟩ := Option.bind_eq_some_iff.mp routing
      simp only [run_pure, Option.some.injEq, Prod.mk.injEq] at returning
      obtain ⟨rfl, rfl⟩ := returning
      rcases installJump_run apart installing with ⟨rfl, allow, rfl⟩ | ⟨rfl, refused, code, -, rfl⟩
      · refine ⟨?_, others, fun _ => ⟨slot, middle, chosen, prepared, ?_⟩, fun ungranted => ?_⟩
        · exact (within.setOriginal org trampoline).installed chosen.slotKnown
        · simp only [setOriginal_memory, if_true]
        · refine absurd ⟨allow, fun wrapped fresh => ?_⟩ ungranted
          rcases selectTrampoline_run layout selecting with ⟨_, _, same, selection⟩ | ⟨none, -⟩
          · exact ((selection.wrapped wrapped).2.1 fresh).1
          · cases none
      · refine ⟨(within.setOriginal org trampoline).error code, others,
          fun admitted => absurd admitted.1 refused, fun _ place outside => ?_⟩
        simpa only [setOriginal_memory] using prepared.keeps.memory place outside

end Within

end NootedDeck.Patcher
