import NootedDeck.Patcher.RouteFunctionSpec

set_option autoImplicit false

namespace NootedDeck.Patcher

open Bytes Interleaving Program

def nextSlot (host : Host) (machine : Machine) : Option Nat → Addr
  | none => 0
  | some id =>
      let slot := machine.addressSlots id
      if slot ≠ 0 ∧ slot + 8#64 ≤ (host.kinfos[id]?.map (·.addressSlotsEnd)).getD 0 then slot else 0

/--
Memory is laid out as the patcher relies on: the trampolines are in memory of its own, and the
slots are at the start of the patched image, within reach of its code.
-/
structure Layout (host : Host) (machine : Machine) (info : Option Nat) (origin : Addr) : Prop where
  mapped : 0 < host.tempExecutableMemory.toNat
  bounded : host.tempExecutableMemory.toNat + tempExecutableMemorySize ≤ 2 ^ 64
  apart : Memory.Apart host.tempExecutableMemory tempExecutableMemorySize origin 16
  slot : nextSlot host machine info ≠ 0 → slotReaches origin (nextSlot host machine info) = true ∧
    Memory.Apart (nextSlot host machine info) 8 origin 16 ∧
    Memory.Apart host.tempExecutableMemory tempExecutableMemorySize (nextSlot host machine info) 8

-- `trampoline` is where the code of `origin` jumped to when it was `before`, or a copy of its first
-- instructions that goes on in the part of it that is still there. That the copied instructions do
-- the same elsewhere is not part of it.
def RealTrampoline (decoder : Decoder) (before after : Memory) (origin trampoline : Addr) : Prop :=
  trampoline ≠ 0 ∧
    (jumpTarget before origin = some trampoline ∨
      ∃ size, 0 < size ∧ Decodes decoder before origin size ∧
        after.bytes trampoline size = before.bytes origin size ∧
        JumpsTo after (trampoline + BitVec.ofNat 64 size) (origin + BitVec.ofNat 64 size) ∧
        ∀ index < 16, size ≤ index →
          after (origin + BitVec.ofNat 64 index) = before (origin + BitVec.ofNat 64 index))

def wrapperSize (host : Host) (machine : Machine) (info : Option Nat) (origin target : Addr) : Nat :=
  (jumpForm (farJump origin target)
    (if farJump origin target then nextSlot host machine info else 0)).size

def RouteGranted (host : Host) (machine : Machine) (info : Option Nat) (origin target : Addr) : Prop :=
  host.outer.Allow (farJump origin target) ∧
    ((readChain machine.memory origin).1 = 0 →
      TrampolineGranted host machine origin (wrapperSize host machine info origin target))

instance (host : Host) (machine : Machine) (info : Option Nat) (origin target : Addr) :
    Decidable (RouteGranted host machine info origin target) :=
  inferInstanceAs (Decidable (_ ∧ _))

theorem setOriginal_originals {machine other : Machine} (org : Option Nat) (trampoline : Addr)
    (same : machine.originals = other.originals) :
    (machine.setOriginal org trampoline).originals = (other.setOriginal org trampoline).originals := by
  cases org <;> simp [Machine.setOriginal, same]

theorem installed_untouched {origin target place : Addr} {form : JumpForm} (memory : Memory)
    (untouched : Untouched origin form place) : installed memory origin target form place = memory place := by
  have code : (form.code origin target).length ≤ (place - origin).toNat := by
    rw [JumpForm.code_length]
    exact untouched.1
  cases form with
  | small | absolute => exact Memory.store_outside _ _ _ _ code
  | slotted slot =>
      rw [installed, Memory.store_outside _ _ _ _ code]
      exact Memory.store_outside _ _ _ _ (by simpa using untouched.2 slot rfl)

theorem getAddressSlot_run (host : Host) (id : Nat) (machine : Machine) :
    ∃ slots, (getAddressSlot host id).run machine =
      some (nextSlot host machine (some id), { machine with addressSlots := slots }) := by
  unfold getAddressSlot nextSlot
  simp only [run_bind, run_get, Option.bind_some]
  split_ifs with available
  · exact ⟨_, rfl⟩
  · exact ⟨_, rfl⟩

theorem getAddressSlot_maintains {host : Host} {id : Nat} {machine : Machine} {good : Machine → Prop}
    (start : good machine) (slots : ∀ slots, good { machine with addressSlots := slots }) :
    (getAddressSlot host id).Maintains good machine := by
  simp only [getAddressSlot, maintains_get_bind]
  refine ⟨start, ?_⟩
  split_ifs with available
  · exact ⟨start, slots _⟩
  · exact start

section Layout

variable {host : Host} {machine : Machine} {info : Option Nat} {origin target slot : Addr}

theorem Layout.fits (layout : Layout host machine info origin)
    (known : slot = 0 ∨ slot = nextSlot host machine info) :
    (jumpForm (farJump origin target) slot).Fits origin target ∧
      SlotApart origin (jumpForm (farJump origin target) slot) := by
  by_cases none : slot = 0
  · subst none
    refine ⟨?_, slotApart_direct _ _⟩
    cases far : farJump origin target
    · exact far
    · trivial
  · obtain rfl := known.resolve_left none
    obtain ⟨reaches, apart, -⟩ := layout.slot none
    have form (absolute : Bool) : jumpForm absolute (nextSlot host machine info) =
        .slotted (nextSlot host machine info) := by rw [jumpForm, if_pos none]
    rw [form]
    exact ⟨⟨reaches, apart⟩, fun _ same => by cases same; exact apart⟩

theorem slot_of_slotted {slot' : Addr} {absolute : Bool}
    (known : slot = 0 ∨ slot = nextSlot host machine info)
    (slotted : jumpForm absolute slot = .slotted slot') :
    slot' = nextSlot host machine info ∧ nextSlot host machine info ≠ 0 := by
  by_cases none : slot = 0
  · cases absolute <;> simp [jumpForm, none] at slotted
  · obtain rfl := known.resolve_left none
    simp only [jumpForm, ne_eq, none, not_false_eq_true, if_true, JumpForm.slotted.injEq] at slotted
    exact ⟨slotted.symm, none⟩

theorem jumpForm_size_le (absolute : Bool) (slot : Addr) : (jumpForm absolute slot).size ≤ 16 := by
  unfold jumpForm
  split_ifs <;> simp [JumpForm.size, smallJump, mediumJump, longJump]

theorem Layout.untouched_of_inTemp (layout : Layout host machine info origin) (absolute : Bool)
    (known : slot = 0 ∨ slot = nextSlot host machine info) {place : Addr} (inTemp : InTemp host place) :
    Untouched origin (jumpForm absolute slot) place := by
  have back : host.tempExecutableMemory +
      BitVec.ofNat 64 (place - host.tempExecutableMemory).toNat = place := by
    rw [BitVec.ofNat_toNat, BitVec.setWidth_eq, BitVec.add_comm, BitVec.sub_add_cancel]
  refine ⟨?_, fun slot' slotted => ?_⟩
  · have beyond := layout.apart.outside inTemp
    rw [back] at beyond
    exact Nat.le_trans (jumpForm_size_le absolute slot) beyond
  · obtain ⟨rfl, used⟩ := slot_of_slotted known slotted
    have beyond := (layout.slot used).2.2.outside inTemp
    rwa [back] at beyond

theorem Layout.untouched_of_code (layout : Layout host machine info origin) (absolute : Bool)
    (known : slot = 0 ∨ slot = nextSlot host machine info) {index : Nat} (within : index < 16)
    (after : (jumpForm absolute slot).size ≤ index) :
    Untouched origin (jumpForm absolute slot) (origin + BitVec.ofNat 64 index) := by
  refine ⟨?_, fun slot' slotted => ?_⟩
  · rw [BitVec.add_comm, BitVec.add_sub_cancel, BitVec.toNat_ofNat, Nat.mod_eq_of_lt (by omega)]
    exact after
  · obtain ⟨rfl, used⟩ := slot_of_slotted known slotted
    exact (layout.slot used).2.1.symm.outside within

end Layout

structure Selection (host : Host) (before : Machine) (info : Option Nat) (origin target : Addr)
    (buildWrapper : Bool) (trampoline slot : Addr) (after : Machine) : Prop where
  slotKnown : slot = 0 ∨ slot = nextSlot host before info
  plain : buildWrapper = false → trampoline = 0
  wrapped : buildWrapper = true → trampoline ≠ 0 ∧
    ((readChain before.memory origin).1 = 0 →
      TrampolineGranted host before origin (wrapperSize host before info origin target) ∧
        ∃ size, (jumpForm (farJump origin target) slot).size ≤ size ∧
          Copied host before.memory after.memory origin trampoline size) ∧
    ((readChain before.memory origin).1 ≠ 0 → trampoline = (readChain before.memory origin).1)

section Select

variable {host : Host} {machine : Machine} {info : Option Nat} {origin target : Addr}
  {buildWrapper : Bool}

theorem wrapperSize_eq (slot : Addr) (info : Option Nat)
    (same : slot = if farJump origin target then nextSlot host machine info else 0) :
    (if farJump origin target then (if slot ≠ 0 then mediumJump else longJump) else smallJump) =
        wrapperSize host machine info origin target ∧
      (jumpForm (farJump origin target) slot).size = wrapperSize host machine info origin target := by
  subst same
  unfold wrapperSize
  cases farJump origin target with
  | false => exact ⟨rfl, rfl⟩
  | true =>
      refine ⟨?_, rfl⟩
      simp only [if_true, jumpForm]
      split_ifs <;> rfl

theorem wrapperSlot_run (host : Host) (machine : Machine) (info : Option Nat) (absolute : Bool) :
    ∃ slots, (wrapperSlot host absolute .auto info).run machine =
      some (if absolute then nextSlot host machine info else 0,
        { machine with addressSlots := slots }) := by
  cases info with
  | none => exact ⟨machine.addressSlots, by cases absolute <;> rfl⟩
  | some id =>
      cases absolute with
      | false => exact ⟨machine.addressSlots, rfl⟩
      | true => simpa [wrapperSlot] using getAddressSlot_run host id machine

theorem selectTrampoline_run_chained {selected : Option (Addr × Addr)} {after : Machine}
    (chained : (readChain machine.memory origin).1 ≠ 0)
    (ran : (selectTrampoline (createTrampoline host) host origin buildWrapper (farJump origin target)
      .auto info).run machine = some (selected, after)) :
    ∃ trampoline slot, selected = some (trampoline, slot) ∧
      Selection host machine info origin target buildWrapper trampoline slot after := by
  have selection {slot : Addr} {final : Machine}
      (known : slot = 0 ∨ slot = nextSlot host machine info) :
      Selection host machine info origin target buildWrapper
        (if buildWrapper then (readChain machine.memory origin).1 else 0) slot final := by
    refine ⟨known, fun plain => by rw [plain]; rfl, fun wrapped => ?_⟩
    rw [wrapped, if_pos rfl]
    exact ⟨chained, fun zero => absurd zero chained, fun _ => rfl⟩
  simp only [selectTrampoline, run_bind, run_get, Option.bind_some, reduceCtorEq, or_false, ne_eq,
    chained, not_false_eq_true, if_true] at ran
  generalize (if buildWrapper = true then (readChain machine.memory origin).1 else 0) = taken
    at ran selection
  split_ifs at ran with short medium
  · simp at ran
  · cases info with
    | none => simp at ran
    | some id =>
        obtain ⟨slots, slotted⟩ := getAddressSlot_run host id machine
        simp only [run_bind, slotted, Option.bind_some] at ran
        split_ifs at ran with empty
        · simp at ran
        · simp only [run_pure, Option.some.injEq, Prod.mk.injEq] at ran
          exact ⟨_, _, ran.1.symm, selection (Or.inr rfl)⟩
  · simp only [run_pure, Option.some.injEq, Prod.mk.injEq] at ran
    exact ⟨_, _, ran.1.symm, selection (Or.inl rfl)⟩

theorem selectTrampoline_run {selected : Option (Addr × Addr)} {after : Machine}
    (layout : Layout host machine info origin)
    (ran : (selectTrampoline (createTrampoline host) host origin buildWrapper (farJump origin target)
      .auto info).run machine = some (selected, after)) :
    (∃ trampoline slot, selected = some (trampoline, slot) ∧
        Selection host machine info origin target buildWrapper trampoline slot after) ∨
      (selected = none ∧ buildWrapper = true ∧ (readChain machine.memory origin).1 = 0 ∧
        ¬TrampolineGranted host machine origin (wrapperSize host machine info origin target)) := by
  by_cases chained : (readChain machine.memory origin).1 = 0
  · simp only [selectTrampoline, run_bind, run_get, Option.bind_some, chained, ne_eq,
      not_true_eq_false, if_false] at ran
    cases buildWrapper with
    | false =>
        simp only [Bool.false_eq_true, if_false, run_pure, Option.some.injEq, Prod.mk.injEq] at ran
        exact Or.inl ⟨0, 0, ran.1.symm, Or.inl rfl, fun _ => rfl, fun wrapped => by simp at wrapped⟩
    | true =>
        simp only [if_true] at ran
        obtain ⟨slot, middle, slotting, creating⟩ := run_bind_eq_some.mp ran
        obtain ⟨slots, slotted⟩ := wrapperSlot_run host machine info (farJump origin target)
        rw [slotted] at slotting
        simp only [Option.some.injEq, Prod.mk.injEq] at slotting
        obtain ⟨given, rfl⟩ := slotting
        obtain ⟨asked, size⟩ := wrapperSize_eq slot info given.symm
        obtain ⟨trampoline, final, created, returning⟩ := run_bind_eq_some.mp creating
        simp only [ne_eq] at asked
        simp only [asked] at created
        simp only [run_pure, Option.some.injEq, Prod.mk.injEq] at returning
        obtain ⟨returned, rfl⟩ := returning
        rcases createTrampoline_run layout.mapped layout.bounded created with
          ⟨zero, refused⟩ | ⟨some_address, granted, copied⟩
        · exact Or.inr ⟨by rw [← returned, if_pos zero], rfl, chained, refused⟩
        · refine Or.inl ⟨trampoline, slot, by rw [← returned, if_neg some_address], ?_, by simp, ?_⟩
          · rw [← given]
            split_ifs
            · exact Or.inr rfl
            · exact Or.inl rfl
          · rw [size]
            exact fun _ => ⟨some_address, fun _ => ⟨granted, copied⟩, fun chain => absurd chained chain⟩
  · exact Or.inl (selectTrampoline_run_chained chained ran)

-- Before anything is written into the function only the patcher's own memory has changed, and not
-- even that where the function was routed before.
structure Prepared (host : Host) (before : Machine) (origin : Addr) (state : Machine) : Prop where
  keeps : Keeps (fun place => ¬InTemp host place) before state
  chained : (readChain before.memory origin).1 ≠ 0 → state.memory = before.memory

theorem Prepared.refl (host : Host) (machine : Machine) (origin : Addr) :
    Prepared host machine origin machine :=
  ⟨Keeps.refl _ _, fun _ => rfl⟩

theorem wrapperSlot_maintains {absolute : Bool} {good : Machine → Prop} (start : good machine)
    (slots : ∀ slots, good { machine with addressSlots := slots }) :
    (wrapperSlot host absolute .auto info).Maintains good machine := by
  cases info with
  | none => exact start
  | some id =>
      cases absolute with
      | false => exact start
      | true => simpa [wrapperSlot] using getAddressSlot_maintains start slots

theorem selectTrampoline_maintains {absolute : Bool} :
    (selectTrampoline (createTrampoline host) host origin buildWrapper absolute .auto info).Maintains
      (Prepared host machine origin) machine := by
  have start := Prepared.refl host machine origin
  have slots (slots : Nat → Addr) :
      Prepared host machine origin { machine with addressSlots := slots } :=
    ⟨⟨rfl, fun _ _ => rfl⟩, fun _ => rfl⟩
  simp only [selectTrampoline, maintains_get_bind]
  refine ⟨start, ?_⟩
  by_cases chained : (readChain machine.memory origin).1 = 0
  · simp only [chained, ne_eq, not_true_eq_false, if_false]
    cases buildWrapper with
    | false => exact start
    | true =>
        refine (wrapperSlot_maintains start slots).bind fun slot middle _ kept => ?_
        exact ((createTrampoline_maintains kept.keeps).imp fun _ keeps =>
          ⟨keeps, fun chain => absurd chained chain⟩).bind fun _ _ _ created => created
  · simp only [ne_eq, chained, not_false_eq_true, if_true, reduceCtorEq, or_false]
    generalize (if buildWrapper = true then (readChain machine.memory origin).1 else 0) = taken
    split_ifs
    · exact start
    · cases info with
      | none => exact start
      | some id =>
          refine (getAddressSlot_maintains start slots).bind fun slot middle _ kept => ?_
          split_ifs <;> exact kept
    · exact start

theorem not_inTemp_code (layout : Layout host machine info origin) {index : Nat} (within : index < 16) :
    ¬InTemp host (origin + BitVec.ofNat 64 index) :=
  Nat.not_lt.mpr (layout.apart.symm.outside within)

theorem jumpTarget_eq_none_iff (memory : Memory) (origin : Addr) :
    jumpTarget memory origin = none ↔
      memory.bytes origin 2 ≠ [0xFF, 0x25] ∧ memory.bytes origin 1 ≠ [0xE9] := by
  unfold jumpTarget
  split_ifs <;> simp_all

theorem Prepared.jumpTarget_eq {state : Machine} (prepared : Prepared host machine origin state)
    (layout : Layout host machine info origin) (valid : jumpTarget machine.memory origin ≠ some 0) :
    jumpTarget state.memory origin = jumpTarget machine.memory origin := by
  by_cases chained : (readChain machine.memory origin).1 = 0
  · -- Only the opcode decides that there is no jump, and the code is not in the patcher's memory.
    have absent : jumpTarget machine.memory origin = none := by
      rw [readChain_fst] at chained
      cases jump : jumpTarget machine.memory origin with
      | none => rfl
      | some other =>
          rw [jump] at chained
          exact absurd (jump.trans (congrArg some chained)) valid
    have same (count : Nat) (within : count ≤ 16) :
        state.memory.bytes origin count = machine.memory.bytes origin count :=
      prepared.keeps.bytes fun index less => not_inTemp_code layout (by omega)
    rw [absent]
    rw [jumpTarget_eq_none_iff] at absent ⊢
    rwa [same 2 (by omega), same 1 (by omega)]
  · rw [prepared.chained chained]

theorem Selection.real {trampoline slot : Addr} {middle : Machine} {memory : Memory}
    (selection : Selection host machine info origin target true trampoline slot middle)
    (layout : Layout host machine info origin) (prepared : Prepared host machine origin middle)
    (same : ∀ place, Untouched origin (jumpForm (farJump origin target) slot) place →
      memory place = middle.memory place) :
    RealTrampoline host.decoder machine.memory memory origin trampoline := by
  obtain ⟨some_address, copies, chains⟩ := selection.wrapped rfl
  refine ⟨some_address, ?_⟩
  by_cases chained : (readChain machine.memory origin).1 = 0
  · right
    obtain ⟨granted, size, covers, copied⟩ := copies chained
    have still := copied.of_same fun place inTemp =>
      same place (layout.untouched_of_inTemp _ selection.slotKnown inTemp)
    have positive : 0 < (jumpForm (farJump origin target) slot).size := by
      unfold jumpForm
      split_ifs <;> simp [JumpForm.size, smallJump, mediumJump, longJump]
    refine ⟨size, by omega, still.whole, still.prologue, still.jumpsTo, fun index within after => ?_⟩
    rw [same _ (layout.untouched_of_code _ selection.slotKnown within (by omega)),
      prepared.keeps.memory _ (not_inTemp_code layout within)]
  · left
    have chain := chains chained
    rw [readChain_fst] at chain chained
    cases jump : jumpTarget machine.memory origin with
    | none => simp [jump] at chained
    | some other => rw [chain, jump, Option.getD_some]

end Select

structure Routed (host : Host) (before : Machine) (info : Option Nat) (origin target : Addr)
    (buildWrapper : Bool) (org : Option Nat) (value : Addr) (after : Machine) : Prop where
  jumps : JumpsTo after.memory origin target
  plain : buildWrapper = false → value = 0
  real : buildWrapper = true → RealTrampoline host.decoder before.memory after.memory origin value
  granted : buildWrapper = true → RouteGranted host before info origin target
  originals : after.originals = (before.setOriginal org value).originals

structure Refused (host : Host) (before : Machine) (info : Option Nat) (origin target : Addr)
    (buildWrapper : Bool) (org : Option Nat) (value : Addr) (after : Machine) : Prop where
  value : value = einval
  unrouted : jumpTarget after.memory origin = jumpTarget before.memory origin
  ungranted : buildWrapper = true → ¬RouteGranted host before info origin target
  originals : after.originals = before.originals ∨
    ∃ trampoline, (buildWrapper = true →
        RealTrampoline host.decoder before.memory after.memory origin trampoline) ∧
      after.originals = (before.setOriginal org trampoline).originals

section Route

variable {host : Host} {machine : Machine} {info : Option Nat} {origin target : Addr}
  {buildWrapper : Bool} {org : Option Nat}

theorem routeFunctionInternal_run {value : Addr} {after : Machine}
    (layout : Layout host machine info origin) (valid : jumpTarget machine.memory origin ≠ some 0)
    (ran : (routeFunctionInternal host origin target buildWrapper true .auto info org).run machine =
      some (value, after)) :
    Routed host machine info origin target buildWrapper org value after ∨
      Refused host machine info origin target buildWrapper org value after := by
  simp only [routeFunctionInternal, routeWith, reduceCtorEq, false_and, if_false, decide_false,
    Bool.or_false] at ran
  obtain ⟨selected, middle, selecting, routing⟩ := run_bind_eq_some.mp ran
  have prepared := selectTrampoline_maintains.finish selecting
  have unrouted := prepared.jumpTarget_eq layout valid
  rcases selectTrampoline_run layout selecting with
    ⟨trampoline, slot, rfl, selection⟩ | ⟨rfl, wrapped, chained, refused⟩
  · simp only [run_bind, run_storeOriginal, Option.bind_some] at routing
    obtain ⟨⟨ok, final⟩, installing, returning⟩ := Option.bind_eq_some_iff.mp routing
    simp only [run_pure, Option.some.injEq, Prod.mk.injEq] at returning
    obtain ⟨rfl, rfl⟩ := returning
    obtain ⟨fits, apart⟩ := layout.fits selection.slotKnown
    have originals := setOriginal_originals org trampoline prepared.keeps.originals
    rcases installJump_run apart installing with ⟨rfl, allow, rfl⟩ | ⟨rfl, refused, code, -, rfl⟩
    · left
      refine ⟨jumpsTo_installed _ _ _ _ fits, selection.plain, fun wrapped => ?_, fun wrapped => ?_,
        originals⟩
      · subst wrapped
        refine selection.real layout prepared fun place untouched => ?_
        exact (installed_untouched _ untouched).trans (by rw [setOriginal_memory])
      · exact ⟨allow, fun chained => ((selection.wrapped wrapped).2.1 chained).1⟩
    · right
      refine ⟨rfl, ?_, fun _ granted => refused granted.1, Or.inr ⟨trampoline, fun wrapped => ?_,
        originals⟩⟩
      · simp only [setOriginal_memory]
        exact unrouted
      · subst wrapped
        refine selection.real layout prepared fun place untouched => ?_
        simp only [setOriginal_memory]
  · right
    simp only [run_pure, Option.some.injEq, Prod.mk.injEq] at routing
    obtain ⟨rfl, rfl⟩ := routing
    exact ⟨rfl, unrouted, fun _ granted => refused (granted.2 chained), Or.inl prepared.keeps.originals⟩

-- Up to the jump a route only prepares it, with the trampoline stored last.
theorem routeFunctionInternal_maintains_of {good : Machine → Prop}
    (layout : Layout host machine info origin)
    (early : ∀ state, Prepared host machine origin state → good state)
    (late : ∀ trampoline slot middle,
      Selection host machine info origin target buildWrapper trampoline slot middle →
      Prepared host machine origin middle →
      (installJump host.outer origin target (farJump origin target) true slot).Maintains good
        (middle.setOriginal org trampoline)) :
    (routeFunctionInternal host origin target buildWrapper true .auto info org).Maintains good
      machine := by
  simp only [routeFunctionInternal, routeWith, reduceCtorEq, false_and, if_false, decide_false,
    Bool.or_false]
  rw [maintains_bind]
  refine ⟨selectTrampoline_maintains.imp early, fun selected middle selecting => ?_⟩
  have prepared := selectTrampoline_maintains.finish selecting
  rcases selectTrampoline_run layout selecting with ⟨trampoline, slot, rfl, selection⟩ | ⟨rfl, -⟩
  · simp only [maintains_storeOriginal_bind]
    exact ⟨early middle prepared, (late trampoline slot middle selection prepared).bind
      fun _ _ _ kept => kept⟩
  · exact early middle prepared

theorem Prepared.not_jumpsTo {state : Machine} (prepared : Prepared host machine origin state)
    (layout : Layout host machine info origin) (valid : jumpTarget machine.memory origin ≠ some 0)
    (fresh : ¬JumpsTo machine.memory origin target) : ¬JumpsTo state.memory origin target := by
  rwa [JumpsTo, prepared.jumpTarget_eq layout valid]

-- While a route runs that stores the original itself, the function does not jump to the hook
-- before the original can be called.
theorem routeFunctionInternal_maintains {slot : Nat} (layout : Layout host machine info origin)
    (valid : jumpTarget machine.memory origin ≠ some 0)
    (fresh : ¬JumpsTo machine.memory origin target) :
    (routeFunctionInternal host origin target true true .auto info (some slot)).Maintains
      (fun state => JumpsTo state.memory origin target →
        RealTrampoline host.decoder machine.memory state.memory origin (state.originals slot))
      machine := by
  apply routeFunctionInternal_maintains_of layout
  · intro state prepared jumps
    exact absurd jumps (prepared.not_jumpsTo layout valid fresh)
  · intro trampoline addressSlot middle selection prepared
    obtain ⟨-, apart⟩ := layout.fits selection.slotKnown
    refine (installJump_maintains apart (Keeps.refl _ _) fun _ member => member).imp ?_
    -- The original is in its slot, and no write of the jump reaches it or the copy.
    intro state keeps _
    have stored : state.originals slot = trampoline := by
      simp only [keeps.originals, Machine.setOriginal, Function.update_self]
    rw [stored]
    exact selection.real layout prepared keeps.memory

theorem routeFunctionInternal_maintains_of_refused (layout : Layout host machine info origin)
    (valid : jumpTarget machine.memory origin ≠ some 0)
    (fresh : ¬JumpsTo machine.memory origin target)
    (refused : ¬RouteGranted host machine info origin target) :
    (routeFunctionInternal host origin target true true .auto info org).Maintains
      (fun state => ¬JumpsTo state.memory origin target) machine := by
  apply routeFunctionInternal_maintains_of layout
  · exact fun state prepared => prepared.not_jumpsTo layout valid fresh
  · intro trampoline slot middle selection prepared
    have locked : ¬host.outer.Allow (farJump origin target) := fun allow =>
      refused ⟨allow, fun chained => ((selection.wrapped rfl).2.1 chained).1⟩
    have stored : ¬JumpsTo (middle.setOriginal org trampoline).memory origin target := by
      rw [setOriginal_memory]
      exact prepared.not_jumpsTo layout valid fresh
    exact installJump_maintains_of_refused locked stored fun _ => stored

end Route

end NootedDeck.Patcher
