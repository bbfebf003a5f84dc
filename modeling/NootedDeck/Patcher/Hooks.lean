import NootedDeck.Patcher.RouteFrame

set_option autoImplicit false

namespace NootedDeck.Patcher

open Bytes Interleaving Program

def slotsEnd (host : Host) (id : Nat) : Addr := (host.kinfos[id]?.map (·.addressSlotsEnd)).getD 0

structure Ground (host : Host) (id : Nat) (first : Addr) (origins : List Addr) : Prop where
  mapped : 0 < host.tempExecutableMemory.toNat
  bounded : host.tempExecutableMemory.toNat + tempExecutableMemorySize ≤ 2 ^ 64
  based : ∀ origin ∈ origins, origin ≠ 0
  temp : ∀ origin ∈ origins,
    Memory.Apart host.tempExecutableMemory tempExecutableMemorySize origin codeSize
  last : (slotsEnd host id).toNat + 8 < 2 ^ 64
  slots : ∀ slot : Addr, first.toNat ≤ slot.toNat → slot.toNat + 8 ≤ (slotsEnd host id).toNat →
    Memory.Apart host.tempExecutableMemory tempExecutableMemorySize slot 8 ∧
      ∀ origin ∈ origins, slotReaches origin slot = true ∧ Memory.Apart slot 8 origin codeSize

def SlotsLeft (host : Host) (id : Nat) (first : Addr) (machine : Machine) : Prop :=
  machine.addressSlots id = 0 ∨ first.toNat ≤ (machine.addressSlots id).toNat ∧
    (machine.addressSlots id).toNat ≤ (slotsEnd host id).toNat

section Ground

variable {host : Host} {id : Nat} {first : Addr} {origins : List Addr} {machine after : Machine}
  {info : Option Nat} {origin : Addr}

theorem Ground.subset (ground : Ground host id first origins) {fewer : List Addr}
    (among : fewer ⊆ origins) : Ground host id first fewer :=
  ⟨ground.mapped, ground.bounded, fun origin member => ground.based origin (among member),
    fun origin member => ground.temp origin (among member), ground.last, fun slot least most =>
      ⟨(ground.slots slot least most).1, fun origin member =>
        (ground.slots slot least most).2 origin (among member)⟩⟩

def OfImage (id : Nat) (info : Option Nat) : Prop := info = none ∨ info = some id

theorem SlotsLeft.next (left : SlotsLeft host id first machine) (ground : Ground host id first origins)
    (image : OfImage id info) (some : nextSlot host machine info ≠ 0) :
    info = Option.some id ∧ nextSlot host machine info = machine.addressSlots id ∧
      first.toNat ≤ (machine.addressSlots id).toNat ∧
      (machine.addressSlots id + 8#64).toNat = (machine.addressSlots id).toNat + 8 ∧
      (machine.addressSlots id).toNat + 8 ≤ (slotsEnd host id).toNat := by
  rcases image with rfl | rfl
  · exact absurd rfl some
  · simp only [nextSlot] at some
    split_ifs at some with available
    · obtain ⟨nonzero, room⟩ := available
      have last := ground.last
      obtain ⟨least, most⟩ := left.resolve_left nonzero
      have advanced : (machine.addressSlots id + 8#64).toNat = (machine.addressSlots id).toNat + 8 := by
        rw [BitVec.toNat_add]
        exact Nat.mod_eq_of_lt (by simp only [BitVec.toNat_ofNat]; omega)
      refine ⟨rfl, if_pos ⟨nonzero, room⟩, least, advanced, ?_⟩
      rw [← advanced]
      exact room
    · exact absurd rfl some

theorem Ground.layout (ground : Ground host id first origins) (member : origin ∈ origins)
    (left : SlotsLeft host id first machine) (image : OfImage id info) :
    Layout host machine info origin := by
  refine ⟨ground.mapped, ground.bounded, ?_, fun some => ?_⟩
  · exact (ground.temp origin member).mono (Nat.le_refl _) (by decide)
  · obtain ⟨-, same, least, -, most⟩ := left.next ground image some
    rw [same]
    obtain ⟨temp, code⟩ := ground.slots _ least most
    obtain ⟨reaches, apart⟩ := code origin member
    exact ⟨reaches, apart.mono (Nat.le_refl _) (by decide), temp⟩

theorem SlotsLeft.later (left : SlotsLeft host id first machine)
    (ground : Ground host id first origins) (image : OfImage id info)
    (within : Within host info origin machine after) : SlotsLeft host id first after := by
  rcases within.slots with same | ⟨id', named, some, updated⟩
  · rw [SlotsLeft, same]
    exact left
  · obtain ⟨rfl, -, least, advanced, most⟩ := left.next ground image some
    cases named
    right
    rw [updated, Function.update_self, advanced]
    exact ⟨by omega, most⟩

theorem Ground.code_untouched (ground : Ground host id first origins) {other : Addr}
    (member : origin ∈ origins)
    (apart : Memory.Apart origin codeSize other codeSize) (left : SlotsLeft host id first machine)
    (image : OfImage id info) {index : Nat} (within : index < codeSize) :
    ¬Touches host machine info other (origin + BitVec.ofNat 64 index) := by
  rintro (⟨-, inTemp⟩ | code | ⟨some, cell⟩)
  · exact Nat.not_lt.mpr ((ground.temp origin member).symm.outside within) inTemp
  · exact Nat.not_lt.mpr (apart.outside within) code
  · obtain ⟨-, same, least, -, most⟩ := left.next ground image some
    rw [same] at cell
    have slot := ((ground.slots _ least most).2 origin member).2
    exact Nat.not_lt.mpr (slot.symm.outside within) cell

theorem Ground.slot_untouched (ground : Ground host id first origins) {slot : Addr}
    (present : origin ∈ origins) (least : first.toNat ≤ slot.toNat)
    (most : slot.toNat + 8 ≤ (slotsEnd host id).toNat)
    (given : slot.toNat + 8 ≤ (machine.addressSlots id).toNat) (left : SlotsLeft host id first machine)
    (image : OfImage id info) {index : Nat} (within : index < 8) :
    ¬Touches host machine info origin (slot + BitVec.ofNat 64 index) := by
  obtain ⟨temp, code⟩ := ground.slots slot least most
  rintro (⟨-, inTemp⟩ | code' | ⟨some, cell⟩)
  · exact Nat.not_lt.mpr (temp.symm.outside within) inTemp
  · exact Nat.not_lt.mpr ((code origin present).2.outside within) code'
  · obtain ⟨-, same, -, -, more⟩ := left.next ground image some
    have last := ground.last
    rw [same] at cell
    have slot_lt := slot.isLt
    simp only [BitVec.toNat_sub, BitVec.toNat_add, BitVec.toNat_ofNat] at cell
    omega

theorem Ground.temp_untouched (ground : Ground host id first origins) (present : origin ∈ origins)
    (left : SlotsLeft host id first machine) (image : OfImage id info) {offset : Nat}
    (used : offset < machine.tempExecutableMemoryOff) (inside : offset < tempExecutableMemorySize) :
    ¬Touches host machine info origin (host.tempExecutableMemory + BitVec.ofNat 64 offset) := by
  rintro (⟨unused, -⟩ | code | ⟨some, cell⟩)
  · have small : tempExecutableMemorySize = 4096 := rfl
    rw [BitVec.add_comm, BitVec.add_sub_cancel, BitVec.toNat_ofNat,
      Nat.mod_eq_of_lt (by omega)] at unused
    omega
  · exact Nat.not_lt.mpr ((ground.temp origin present).outside inside) code
  · obtain ⟨-, same, least, -, most⟩ := left.next ground image some
    rw [same] at cell
    exact Nat.not_lt.mpr ((ground.slots _ least most).1.outside inside) cell

end Ground

structure JumpPlaced (host : Host) (id : Nat) (first : Addr) (origin target : Addr) (form : JumpForm)
    (machine : Machine) : Prop where
  fits : form.Fits origin target
  stored : machine.memory.bytes origin form.size = form.code origin target
  cell : ∀ slot, form = .slotted slot → machine.memory.bytes slot 8 = littleEndian 8 target.toNat ∧
    first.toNat ≤ slot.toNat ∧ slot.toNat + 8 ≤ (slotsEnd host id).toNat ∧
    slot.toNat + 8 ≤ (machine.addressSlots id).toNat

structure TrampolinePlaced (host : Host) (code : Memory) (origin trampoline : Addr) (start size : Nat)
    (machine : Machine) : Prop where
  positive : 0 < size
  used : start + size + longJump ≤ machine.tempExecutableMemoryOff
  inside : start + size + longJump ≤ tempExecutableMemorySize
  here : trampoline = host.tempExecutableMemory + BitVec.ofNat 64 start
  copied : Copied host code machine.memory origin trampoline size
  tail : ∀ index < 16, size ≤ index →
    machine.memory (origin + BitVec.ofNat 64 index) = code (origin + BitVec.ofNat 64 index)

/--
A hook that is in place. `code` is the memory that the route found; the jump, its slot and the copy of
the beginning are where later routes do not write.
-/
structure Hooked (host : Host) (id : Nat) (first : Addr) (code : Memory) (origin target : Addr)
    (original : Option Addr) (machine : Machine) : Prop where
  jump : ∃ form, JumpPlaced host id first origin target form machine
  real : ∀ trampoline, original = some trampoline → trampoline ≠ 0 ∧
    (jumpTarget code origin = some trampoline ∨
      ∃ start size, TrampolinePlaced host code origin trampoline start size machine)

section Hooked

variable {host : Host} {id : Nat} {first : Addr} {origins : List Addr} {machine after : Machine}
  {info : Option Nat} {code : Memory} {origin target : Addr} {original : Option Addr} {form : JumpForm}

theorem JumpPlaced.jumpsTo (placed : JumpPlaced host id first origin target form machine) :
    JumpsTo machine.memory origin target := by
  obtain ⟨fits, stored, cell⟩ := placed
  cases form with
  | small => exact JumpForm.jumpsTo_small fits stored
  | absolute => exact JumpForm.jumpsTo_absolute stored
  | slotted slot =>
      exact JumpForm.jumpsTo_slotted fits.1 stored (Memory.load64_of_bytes (cell slot rfl).1)

theorem TrampolinePlaced.real {trampoline : Addr} {start size : Nat} (made : trampoline ≠ 0)
    (placed : TrampolinePlaced host code origin trampoline start size machine) :
    RealTrampoline host.decoder code machine.memory origin trampoline :=
  ⟨made, Or.inr ⟨size, placed.positive, placed.copied.whole, placed.copied.prologue,
    placed.copied.jumpsTo, placed.tail⟩⟩

theorem Hooked.realTrampoline {trampoline : Addr}
    (hooked : Hooked host id first code origin target (some trampoline) machine) :
    RealTrampoline host.decoder code machine.memory origin trampoline := by
  obtain ⟨made, chained | ⟨start, size, placed⟩⟩ := hooked.real trampoline rfl
  · exact ⟨made, Or.inl chained⟩
  · exact placed.real made

theorem JumpForm.size_le (form : JumpForm) : form.size ≤ 16 := by
  cases form <;> simp [JumpForm.size, smallJump, mediumJump, longJump]

theorem copied_later {before middle final : Memory} {trampoline : Addr} {start size : Nat}
    (copied : Copied host before middle origin trampoline size)
    (here : trampoline = host.tempExecutableMemory + BitVec.ofNat 64 start)
    (same : ∀ offset < start + size + longJump,
      final (host.tempExecutableMemory + BitVec.ofNat 64 offset) =
        middle (host.tempExecutableMemory + BitVec.ofNat 64 offset)) :
    Copied host before final origin trampoline size := by
  have part (offset count : Nat) (inside : offset + count ≤ size + longJump) :
      final.bytes (trampoline + BitVec.ofNat 64 offset) count =
        middle.bytes (trampoline + BitVec.ofNat 64 offset) count := by
    refine Memory.bytes_congr fun index within => ?_
    rw [here, BitVec.add_assoc, BitVec.add_assoc, ← BitVec.ofNat_add, ← BitVec.ofNat_add]
    exact same _ (by omega)
  refine ⟨copied.inside, copied.whole, ?_, ?_⟩
  · have prologue := part 0 size (by omega)
    rw [BitVec.add_zero] at prologue
    rw [prologue, copied.prologue]
  · obtain ⟨form, rfl, stored⟩ := copied.jump
    have short := direct_size_le (farJump (trampoline + BitVec.ofNat 64 size)
      (origin + BitVec.ofNat 64 size))
    exact ⟨_, rfl, (part size _ (by omega)).trans stored⟩

theorem Within.slots_le (within : Within host info origin machine after)
    (left : SlotsLeft host id first machine) (ground : Ground host id first origins)
    (image : OfImage id info) : (machine.addressSlots id).toNat ≤ (after.addressSlots id).toNat := by
  rcases within.slots with same | ⟨id', named, some, updated⟩
  · rw [same]
  · obtain ⟨rfl, -, -, advanced, -⟩ := left.next ground image some
    cases named
    rw [updated, Function.update_self, advanced]
    omega

theorem JumpPlaced.later (placed : JumpPlaced host id first origin target form machine)
    (ground : Ground host id first origins) {other : Addr} (present : other ∈ origins)
    (left : SlotsLeft host id first machine) (image : OfImage id info)
    (within : Within host info other machine after)
    (function : ∀ index < 16, after.memory (origin + BitVec.ofNat 64 index) =
      machine.memory (origin + BitVec.ofNat 64 index)) :
    JumpPlaced host id first origin target form after := by
  refine ⟨placed.fits, ?_, fun slot slotted => ?_⟩
  · rw [Memory.bytes_congr fun index inside => function index
      (Nat.lt_of_lt_of_le inside form.size_le), placed.stored]
  · obtain ⟨holds, least, most, given⟩ := placed.cell slot slotted
    refine ⟨?_, least, most, given.trans (within.slots_le left ground image)⟩
    rw [Memory.bytes_congr fun index inside =>
      within.memory _ (ground.slot_untouched present least most given left image inside), holds]

theorem TrampolinePlaced.later {trampoline : Addr} {start size : Nat}
    (placed : TrampolinePlaced host code origin trampoline start size machine)
    (ground : Ground host id first origins) {other : Addr} (present : other ∈ origins)
    (left : SlotsLeft host id first machine) (image : OfImage id info)
    (within : Within host info other machine after)
    (function : ∀ index < 16, size ≤ index → after.memory (origin + BitVec.ofNat 64 index) =
      machine.memory (origin + BitVec.ofNat 64 index)) :
    TrampolinePlaced host code origin trampoline start size after := by
  have used := placed.used
  have inside := placed.inside
  refine ⟨placed.positive, used.trans within.used, inside, placed.here, ?_, ?_⟩
  · refine copied_later placed.copied placed.here fun offset below => within.memory _ ?_
    exact ground.temp_untouched present left image (by omega) (by omega)
  · intro index less beyond
    rw [function index less beyond, placed.tail index less beyond]

theorem Hooked.later (hooked : Hooked host id first code origin target original machine)
    (ground : Ground host id first origins) (member : origin ∈ origins) {other : Addr}
    (present : other ∈ origins) (apart : Memory.Apart origin codeSize other codeSize)
    (left : SlotsLeft host id first machine) (image : OfImage id info)
    (within : Within host info other machine after) :
    Hooked host id first code origin target original after := by
  have function (index : Nat) (inside : index < 16) :
      after.memory (origin + BitVec.ofNat 64 index) = machine.memory (origin + BitVec.ofNat 64 index) :=
    within.memory _ (ground.code_untouched member apart left image (Nat.lt_of_lt_of_le inside (by decide)))
  constructor
  · obtain ⟨form, placed⟩ := hooked.jump
    exact ⟨form, placed.later ground present left image within function⟩
  · intro trampoline same
    obtain ⟨made, chained | ⟨start, size, placed⟩⟩ := hooked.real trampoline same
    · exact ⟨made, Or.inl chained⟩
    · exact ⟨made, Or.inr ⟨start, size,
        placed.later ground present left image within fun index less _ => function index less⟩⟩

theorem installed_stored (memory : Memory) (origin target : Addr) (form : JumpForm)
    (fits : form.Fits origin target) :
    (installed memory origin target form).bytes origin form.size = form.code origin target ∧
      ∀ slot, form = .slotted slot →
        (installed memory origin target form).bytes slot 8 = littleEndian 8 target.toNat := by
  have length := JumpForm.code_length origin target form
  have stored (memory : Memory) :
      (memory.store origin (form.code origin target)).bytes origin form.size =
        form.code origin target := by
    rw [← length]
    refine Memory.bytes_store _ _ _ ?_
    rw [length]
    exact form.size_le.trans (by decide)
  cases form with
  | small | absolute => exact ⟨stored memory, fun _ slotted => by cases slotted⟩
  | slotted slot =>
      refine ⟨stored _, fun _ same => ?_⟩
      cases same
      have apart : Memory.Apart slot 8 origin (JumpForm.code origin target (.slotted slot)).length := by
        rw [length]
        exact fits.2.mono (Nat.le_refl _) (JumpForm.size_le _)
      rw [installed, Memory.bytes_store_apart _ apart]
      simpa using Memory.bytes_store memory slot (littleEndian 8 target.toNat) (by simp)

section Under

variable (given : Given)

theorem Ground.under (ground : Ground host id first origins) :
    Ground (host.under given) id first origins :=
  ⟨ground.mapped, ground.bounded, ground.based, ground.temp, ground.last, ground.slots⟩

theorem within_under {before : Machine} :
    Within (host.under given) info origin before after ↔ Within host info origin before after :=
  ⟨fun ⟨memory, used, slots⟩ => ⟨memory, used, slots⟩, fun ⟨memory, used, slots⟩ => ⟨memory, used, slots⟩⟩

theorem jumpPlaced_under : JumpPlaced (host.under given) id first origin target form machine ↔
    JumpPlaced host id first origin target form machine :=
  ⟨fun ⟨fits, stored, cell⟩ => ⟨fits, stored, cell⟩, fun ⟨fits, stored, cell⟩ => ⟨fits, stored, cell⟩⟩

theorem trampolinePlaced_under {trampoline : Addr} {start size : Nat} :
    TrampolinePlaced (host.under given) code origin trampoline start size machine ↔
      TrampolinePlaced host code origin trampoline start size machine := by
  constructor
  · rintro ⟨positive, used, inside, here, ⟨room, whole, prologue, jump⟩, tail⟩
    exact ⟨positive, used, inside, here, ⟨room, whole, prologue, jump⟩, tail⟩
  · rintro ⟨positive, used, inside, here, ⟨room, whole, prologue, jump⟩, tail⟩
    exact ⟨positive, used, inside, here, ⟨room, whole, prologue, jump⟩, tail⟩

theorem hooked_under : Hooked (host.under given) id first code origin target original machine ↔
    Hooked host id first code origin target original machine := by
  constructor
  · rintro ⟨jump, real⟩
    simp only [jumpPlaced_under, trampolinePlaced_under] at jump real
    exact ⟨jump, real⟩
  · rintro ⟨jump, real⟩
    refine ⟨?_, ?_⟩ <;> simpa only [jumpPlaced_under, trampolinePlaced_under]

end Under

section Chosen

variable {middle : Machine} {buildWrapper : Bool} {trampoline slot : Addr}

theorem setOriginal_counters (machine : Machine) (org : Option Nat) (trampoline : Addr) :
    (machine.setOriginal org trampoline).addressSlots = machine.addressSlots ∧
      (machine.setOriginal org trampoline).tempExecutableMemoryOff = machine.tempExecutableMemoryOff := by
  cases org <;> exact ⟨rfl, rfl⟩

def Machine.jumping (middle : Machine) (org : Option Nat) (trampoline origin target : Addr)
    (form : JumpForm) : Machine :=
  { middle.setOriginal org trampoline with memory := installed middle.memory origin target form }

theorem Chosen.jumpPlaced (ground : Ground host id first origins) (member : origin ∈ origins)
    (left : SlotsLeft host id first machine) (image : OfImage id info)
    (chosen : Chosen host machine info origin buildWrapper trampoline slot
      (jumpForm (farJump origin target) slot).size middle) (org : Option Nat) :
    JumpPlaced host id first origin target (jumpForm (farJump origin target) slot)
      (middle.jumping org trampoline origin target (jumpForm (farJump origin target) slot)) := by
  have fits : (jumpForm (farJump origin target) slot).Fits origin target :=
    ((ground.layout member left image).fits chosen.slotKnown).1
  obtain ⟨stored, cell⟩ := installed_stored middle.memory origin target _ fits
  refine ⟨fits, stored, fun slot' slotted => ⟨cell slot' slotted, ?_⟩⟩
  obtain ⟨rfl, some⟩ := slot_of_slotted chosen.slotKnown slotted
  have used : slot ≠ 0 := by
    rintro rfl
    cases far : farJump origin target <;> simp [jumpForm, far] at slotted
  obtain ⟨-, id', named, updated⟩ := chosen.slot used
  obtain ⟨rfl, same, least, advanced, most⟩ := left.next ground image some
  cases named
  change _ ∧ _ ∧ _ ≤ ((middle.setOriginal org trampoline).addressSlots id).toNat
  rw [same, (setOriginal_counters ..).1, updated, Function.update_self, advanced]
  exact ⟨least, most, Nat.le_refl _⟩

theorem Chosen.behind (ground : Ground host id first origins) (member : origin ∈ origins)
    (left : SlotsLeft host id first machine) (image : OfImage id info)
    (chosen : Chosen host machine info origin buildWrapper trampoline slot
      (jumpForm (farJump origin target) slot).size middle)
    (prepared : Prepared host machine origin middle) (org : Option Nat) {index : Nat} (less : index < 16)
    (beyond : (jumpForm (farJump origin target) slot).size ≤ index) :
    (middle.jumping org trampoline origin target (jumpForm (farJump origin target) slot)).memory
        (origin + BitVec.ofNat 64 index) = machine.memory (origin + BitVec.ofNat 64 index) := by
  have layout := ground.layout member left image
  have kept := layout.untouched_of_code _ chosen.slotKnown less beyond
  exact (installed_untouched _ kept).trans (prepared.keeps.memory _ (not_inTemp_code layout less))

theorem Chosen.trampolinePlaced (ground : Ground host id first origins) (member : origin ∈ origins)
    (left : SlotsLeft host id first machine) (image : OfImage id info)
    (chosen : Chosen host machine info origin true trampoline slot
      (jumpForm (farJump origin target) slot).size middle)
    (prepared : Prepared host machine origin middle) (fresh : (readChain machine.memory origin).1 = 0)
    (org : Option Nat) :
    trampoline ≠ 0 ∧ ∃ start size, (jumpForm (farJump origin target) slot).size ≤ size ∧
      TrampolinePlaced host machine.memory origin trampoline start size
        (middle.jumping org trampoline origin target (jumpForm (farJump origin target) slot)) := by
  have layout := ground.layout member left image
  obtain ⟨made, size, covers, positive, placed⟩ := chosen.placed rfl fresh
  have inside : machine.tempExecutableMemoryOff + size + longJump ≤ tempExecutableMemorySize :=
    placed.used ▸ placed.room
  refine ⟨made, machine.tempExecutableMemoryOff, size, covers, positive, ?_, inside, placed.start, ?_,
    fun index less beyond => ?_⟩
  · change _ ≤ (middle.setOriginal org trampoline).tempExecutableMemoryOff
    rw [(setOriginal_counters ..).2, placed.used]
  · exact placed.copied.of_same fun place inTemp =>
      installed_untouched _ (layout.untouched_of_inTemp _ chosen.slotKnown inTemp)
  · exact chosen.behind ground member left image prepared org less (covers.trans beyond)

theorem Chosen.hooked (ground : Ground host id first origins) (member : origin ∈ origins)
    (left : SlotsLeft host id first machine) (image : OfImage id info)
    (chosen : Chosen host machine info origin buildWrapper trampoline slot
      (jumpForm (farJump origin target) slot).size middle)
    (prepared : Prepared host machine origin middle) (org : Option Nat) :
    Hooked host id first machine.memory origin target (if buildWrapper then some trampoline else none)
      (middle.jumping org trampoline origin target (jumpForm (farJump origin target) slot)) := by
  refine ⟨⟨_, chosen.jumpPlaced ground member left image org⟩, fun trampoline' same => ?_⟩
  cases buildWrapper with
  | false => cases same
  | true =>
      cases same
      by_cases fresh : (readChain machine.memory origin).1 = 0
      · obtain ⟨made, start, size, -, placed⟩ :=
          chosen.trampolinePlaced ground member left image prepared fresh org
        exact ⟨made, Or.inr ⟨start, size, placed⟩⟩
      · have chain := chosen.chained rfl fresh
        rw [readChain_fst] at chain fresh
        refine ⟨chain ▸ fresh, Or.inl ?_⟩
        cases jump : jumpTarget machine.memory origin with
        | none => simp [jump] at fresh
        | some other => rw [chain, jump, Option.getD_some]

end Chosen

end Hooked

end NootedDeck.Patcher
