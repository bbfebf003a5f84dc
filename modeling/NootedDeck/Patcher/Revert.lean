import NootedDeck.Patcher.HookChain
import NootedDeck.Shared.UndoLog

set_option autoImplicit false

namespace NootedDeck.Patcher

open Bytes Interleaving Program

structure PatchObject where
  serial : Nat
  saved : Saved

structure Recorder where
  machine : Machine
  kpatches : List PatchObject
  created : Nat
  -- the patches that were deleted, by their serial numbers
  freed : List Nat

def Recorder.initial (machine : Machine) : Recorder := ⟨machine, [], 0, []⟩

structure Pushes where
  opcode : Bool
  argument : Bool
  disp : Bool

def Pushes.list (pushes : Pushes) : List Bool := [pushes.opcode, pushes.argument, pushes.disp]

def Pushes.all (pushes : Pushes) : Bool := pushes.opcode && pushes.argument && pushes.disp

def JumpForm.places (origin : Addr) : JumpForm → List (Addr × Nat)
  | .small => [(origin, 1), (origin + 1#64, 4)]
  | .slotted slot => [(origin, 2), (origin + 2#64, 4), (slot, 8)]
  | .absolute => [(origin, 2), (origin + 2#64, 4), (origin + 6#64, 8)]

def onMachine {α : Type} (program : Program Machine α) : Program Recorder α :=
  program.focus (·.machine) fun machine recorder => { recorder with machine }

def Recorder.deleting (recorder : Recorder) (objects : List PatchObject) : Recorder :=
  { recorder with freed := objects.map (·.serial) ++ recorder.freed }

def deletePatches : List PatchObject → Program Recorder Unit
  | [] => pure ()
  | object :: rest => do
      let recorder ← .get
      if object.serial ∈ recorder.freed then .panic
      else do
        .modify (·.deleting [object])
        deletePatches rest

def eraseAt (index : Nat) : Program Recorder Unit := do
  let recorder ← .get
  match recorder.kpatches[index]? with
  -- what is behind the end of the vector is deleted
  | none => .panic
  | some object => do
      deletePatches [object]
      .modify fun recorder => { recorder with kpatches := recorder.kpatches.eraseIdx index }

def eraseTimes (index : Nat) : Nat → Program Recorder Unit
  | 0 => pure ()
  | count + 1 => do
      eraseAt index
      eraseTimes index count

def numbered (created : Nat) (saves : List Saved) : List PatchObject :=
  saves.mapIdx fun index saved => ⟨created + index, saved⟩

def record (pushes : Pushes) (saves : List Saved) : Program Recorder Unit := do
  let recorder ← .get
  let objects := numbered recorder.created saves
  let pushed := ((objects.zip pushes.list).filter (·.2)).map (·.1)
  .modify fun recorder =>
    { recorder with
      kpatches := recorder.kpatches ++ pushed
      created := recorder.created + saves.length }
  if pushed.length = saves.length then pure ()
  else do
    -- The results of the pushes are truth values, but they are used as indices.
    eraseTimes 1 pushed.length
    deletePatches objects

structure Routing where
  given : Given
  origin : Addr
  target : Addr
  buildWrapper : Bool
  info : Option Nat
  org : Option Nat
  pushes : Pushes

def Routing.perform (routing : Routing) (host : Host) : Program Recorder Addr := do
  let absolute := farJump routing.origin routing.target
  let before ← .get
  let selected ← onMachine (selectTrampoline (createTrampoline host) host routing.origin
    routing.buildWrapper absolute .auto routing.info)
  match selected with
  | none => pure einval
  | some (trampoline, addressSlot) => do
      onMachine (storeOriginal routing.org trampoline)
      -- The patches are created before anything is written.
      let found ← .get
      let installed ← onMachine
        (installJump host.outer routing.origin routing.target absolute true addressSlot)
      if installed then do
        -- A route on top of another is not taken back.
        if (readChain before.machine.memory routing.origin).1 = 0 then
          record routing.pushes (((jumpForm absolute addressSlot).places routing.origin).map
            fun place => found.machine.memory.save place.1 place.2)
        pure trampoline
      else pure einval

def performRoutes (host : Host) : List Routing → Program Recorder Unit
  | [] => pure ()
  | routing :: rest => do
      let _ ← routing.perform (host.under routing.given)
      performRoutes host rest

def restorePatches : List PatchObject → Program Recorder Unit
  | [] => pure ()
  | object :: rest => do
      let recorder ← .get
      if object.serial ∈ recorder.freed then .panic
      else do
        .modify fun recorder =>
          { recorder with
            machine := recorder.machine.write object.saved.address object.saved.original }
        restorePatches rest

def deinit (host : Host) (writing : Bool) : Program Recorder Unit := do
  let recorder ← .get
  if host.kinfos.length > 0 ∧ writing = true then restorePatches recorder.kpatches
  deletePatches recorder.kpatches
  .modify fun recorder => { recorder with kpatches := [] }

section Recording

variable {host : Host} {recorder after : Recorder} {routing : Routing}

theorem run_onMachine {α : Type} (program : Program Machine α) (recorder : Recorder) :
    (onMachine program).run recorder =
      (program.run recorder.machine).map fun result => (result.1, { recorder with machine := result.2 }) := by
  rw [onMachine, run_focus]
  · exact fun _ _ => rfl
  · exact fun _ _ _ => rfl
  · exact fun _ => rfl

theorem run_onMachine_eq_some {α : Type} {program : Program Machine α} {value : α}
    (ran : (onMachine program).run recorder = some (value, after)) :
    ∃ machine, program.run recorder.machine = some (value, machine) ∧ after = { recorder with machine } := by
  rw [run_onMachine, Option.map_eq_some_iff] at ran
  obtain ⟨⟨returned, machine⟩, ran, same⟩ := ran
  cases same
  exact ⟨machine, ran, rfl⟩

theorem places_length (origin : Addr) (form : JumpForm) : (form.places origin).length ≤ 3 := by
  cases form <;> simp [JumpForm.places]

@[simp] theorem numbered_saved (created : Nat) (saves : List Saved) :
    (numbered created saves).map (·.saved) = saves := by
  apply List.ext_getElem <;> simp [numbered]

theorem numbered_serials (created : Nat) (saves : List Saved) :
    (numbered created saves).map (·.serial) = List.range' created saves.length := by
  apply List.ext_getElem <;> simp [numbered]

def Recorder.keeping (recorder : Recorder) (saves : List Saved) : Recorder :=
  { recorder with
    kpatches := recorder.kpatches ++ numbered recorder.created saves
    created := recorder.created + saves.length }

theorem record_run {pushes : Pushes} (all : pushes.all = true) {saves : List Saved}
    (few : saves.length ≤ 3) (recorder : Recorder) :
    (record pushes saves).run recorder = some ((), recorder.keeping saves) := by
  obtain ⟨opcode, argument, disp⟩ := pushes
  simp only [Pushes.all, Bool.and_eq_true] at all
  obtain ⟨⟨rfl, rfl⟩, rfl⟩ := all
  have length : (numbered recorder.created saves).length = saves.length := by simp [numbered]
  have same : ((numbered recorder.created saves).zip [true, true, true]).map Prod.fst =
      numbered recorder.created saves := by
    rw [List.map_fst_zip]
    simpa [length] using few
  have granted : ∀ object ∈ (numbered recorder.created saves).zip [true, true, true],
      object.2 = true := by
    intro object member
    simpa using (List.of_mem_zip member).2
  simp only [record, Pushes.list, run_bind, run_get, Option.bind_some, List.filter_eq_self.mpr granted,
    same, run_modify, length, if_true, run_pure, Recorder.keeping]

def Routing.form (routing : Routing) (slot : Addr) : JumpForm :=
  jumpForm (farJump routing.origin routing.target) slot

def Routing.saves (routing : Routing) (slot : Addr) (memory : Memory) : List Saved :=
  ((routing.form slot).places routing.origin).map fun place => memory.save place.1 place.2

def Recorder.jumping (recorder : Recorder) (routing : Routing) (middle : Machine)
    (value slot : Addr) : Recorder :=
  { recorder with
    machine := middle.jumping routing.org value routing.origin routing.target (routing.form slot) }

inductive Performed (host : Host) (routing : Routing) (recorder : Recorder) : Recorder → Prop
  | refused {machine : Machine} (within : Within host routing.info routing.origin recorder.machine machine)
      (same : ∀ place, ¬InTemp host place → machine.memory place = recorder.machine.memory place) :
      Performed host routing recorder { recorder with machine }
  | fresh {value slot : Addr} {middle : Machine}
      (chosen : Chosen host recorder.machine routing.info routing.origin routing.buildWrapper value slot
        (routing.form slot).size middle)
      (prepared : Prepared host recorder.machine routing.origin middle)
      (unrouted : (readChain recorder.machine.memory routing.origin).1 = 0) :
      Performed host routing recorder
        ((recorder.jumping routing middle value slot).keeping (routing.saves slot middle.memory))
  | again {value slot : Addr} {middle : Machine}
      (chosen : Chosen host recorder.machine routing.info routing.origin routing.buildWrapper value slot
        (routing.form slot).size middle)
      (prepared : Prepared host recorder.machine routing.origin middle)
      (routed : (readChain recorder.machine.memory routing.origin).1 ≠ 0) :
      Performed host routing recorder (recorder.jumping routing middle value slot)

theorem Routing.performed {value : Addr} (all : routing.pushes.all = true)
    (layout : Layout host recorder.machine routing.info routing.origin)
    (ran : (routing.perform host).run recorder = some (value, after)) :
    Performed host routing recorder after := by
  simp only [Routing.perform, run_bind, run_get, Option.bind_some] at ran
  obtain ⟨⟨selected, chosenIn⟩, selecting, going⟩ := Option.bind_eq_some_iff.mp ran
  obtain ⟨middle, selects, rfl⟩ := run_onMachine_eq_some selecting
  obtain ⟨within, chosen⟩ := selectTrampoline_chosen selects
  have prepared := selectTrampoline_maintains.finish selects
  cases selected with
  | none =>
      cases going
      exact .refused within prepared.keeps.memory
  | some pair =>
      obtain ⟨trampoline, slot⟩ := pair
      have chosen := chosen trampoline slot rfl
      have apart : SlotApart routing.origin (routing.form slot) := (layout.fits chosen.slotKnown).2
      simp only [run_bind, run_onMachine, run_storeOriginal, Option.map_some, Option.bind_some,
        run_get] at going
      obtain ⟨⟨installed, final⟩, installing, ending⟩ := Option.bind_eq_some_iff.mp going
      obtain ⟨⟨answer, machine⟩, installs, same⟩ := Option.map_eq_some_iff.mp installing
      cases same
      rcases installJump_run apart installs with ⟨rfl, -, rfl⟩ | ⟨rfl, -, code, -, rfl⟩
      · simp only [if_true, setOriginal_memory] at ending
        by_cases unrouted : (readChain recorder.machine.memory routing.origin).1 = 0
        · have few : (routing.saves slot middle.memory).length ≤ 3 := by
            simpa [Routing.saves] using places_length routing.origin (routing.form slot)
          rw [if_pos unrouted] at ending
          change (record routing.pushes (routing.saves slot middle.memory) >>= fun _ =>
            pure trampoline).run (recorder.jumping routing middle trampoline slot) = _ at ending
          rw [run_bind, record_run all few] at ending
          cases ending
          exact .fresh chosen prepared unrouted
        · rw [if_neg unrouted] at ending
          cases ending
          exact .again chosen prepared unrouted
      · cases ending
        refine .refused ((within.setOriginal routing.org trampoline).error code) fun place outside => ?_
        rw [← prepared.keeps.memory place outside, ← setOriginal_memory middle routing.org trampoline]

theorem Routing.perform_routes (all : routing.pushes.all = true) (recorder : Recorder) :
    ((routing.perform host).run recorder).map (fun result => (result.1, result.2.machine)) =
      (routeFunctionInternal host routing.origin routing.target routing.buildWrapper true .auto
        routing.info routing.org).run recorder.machine := by
  simp only [Routing.perform, routeFunctionInternal, routeWith, reduceCtorEq, false_and, if_false,
    decide_false, Bool.or_false, run_bind, run_get, Option.bind_some, run_onMachine]
  cases (selectTrampoline (createTrampoline host) host routing.origin routing.buildWrapper
    (farJump routing.origin routing.target) .auto routing.info).run recorder.machine with
  | none => rfl
  | some selected =>
      obtain ⟨_ | ⟨trampoline, slot⟩, middle⟩ := selected
      · rfl
      · simp only [Option.map_some, Option.bind_some, run_bind, run_onMachine, run_storeOriginal, run_get]
        cases (installJump host.outer routing.origin routing.target
          (farJump routing.origin routing.target) true slot).run
            (middle.setOriginal routing.org trampoline) with
        | none => rfl
        | some installed =>
            obtain ⟨_ | _, final⟩ := installed
            · rfl
            · simp only [Option.map_some, Option.bind_some, if_true]
              by_cases unrouted : (readChain recorder.machine.memory routing.origin).1 = 0
              · rw [if_pos unrouted, run_bind, record_run all (by simpa using places_length _ _)]
                rfl
              · rw [if_neg unrouted]
                rfl

theorem Chosen.jumping_within {machine middle : Machine} {info : Option Nat} {buildWrapper : Bool}
    {origin trampoline slot : Addr} {minimum : Nat}
    (chosen : Chosen host machine info origin buildWrapper trampoline slot minimum middle)
    (org : Option Nat) (target : Addr) (absolute : Bool) :
    Within host info origin machine
      (middle.jumping org trampoline origin target (jumpForm absolute slot)) := by
  have stored := (chosen.within.setOriginal org trampoline)
  cases org <;> exact stored.installed chosen.slotKnown

theorem Performed.within (performed : Performed host routing recorder after) :
    Within host routing.info routing.origin recorder.machine after.machine := by
  cases performed with
  | refused within => exact within
  | fresh chosen | again chosen =>
      exact chosen.jumping_within routing.org routing.target _

end Recording

theorem offset_iff (origin place : Addr) (start count : Nat) (small : start + count ≤ 16) :
    (place - (origin + BitVec.ofNat 64 start)).toNat < count ↔
      start ≤ (place - origin).toNat ∧ (place - origin).toNat < start + count := by
  have origin_lt := origin.isLt
  have place_lt := place.isLt
  simp only [BitVec.toNat_sub, BitVec.toNat_add, BitVec.toNat_ofNat]
  omega

theorem places_iff (origin place : Addr) (form : JumpForm) :
    (∃ range ∈ form.places origin, (place - range.1).toNat < range.2) ↔ ¬Untouched origin form place := by
  have one := offset_iff origin place 1 4 (by decide)
  have two := offset_iff origin place 2 4 (by decide)
  have six := offset_iff origin place 6 8 (by decide)
  cases form with
  | small =>
      simp only [JumpForm.places, List.exists_mem_cons_iff, List.not_mem_nil, false_and, exists_false,
        or_false, one, Untouched, JumpForm.size, smallJump, reduceCtorEq, false_implies, implies_true,
        and_true]
      omega
  | slotted slot =>
      simp only [JumpForm.places, List.exists_mem_cons_iff, List.not_mem_nil, false_and, exists_false,
        or_false, two, Untouched, JumpForm.size, mediumJump, JumpForm.slotted.injEq, forall_eq']
      omega
  | absolute =>
      simp only [JumpForm.places, List.exists_mem_cons_iff, List.not_mem_nil, false_and, exists_false,
        or_false, two, six, Untouched, JumpForm.size, longJump, reduceCtorEq, false_implies,
        implies_true, and_true]
      omega

section Revert

variable {host : Host} {id : Nat} {first origin : Addr} {origins : List Addr} {start : Memory}
  {recorder after : Recorder} {routing : Routing}

def InSlots (host : Host) (id : Nat) (first place : Addr) : Prop :=
  first.toNat ≤ place.toNat ∧ place.toNat < (slotsEnd host id).toNat

instance (host : Host) (place : Addr) : Decidable (InTemp host place) :=
  inferInstanceAs (Decidable (_ < _))

instance (host : Host) (id : Nat) (first place : Addr) : Decidable (InSlots host id first place) :=
  inferInstanceAs (Decidable (_ ∧ _))

theorem outside_slot {slot place : Addr} (least : first.toNat ≤ slot.toNat)
    (most : slot.toNat + 8 ≤ (slotsEnd host id).toNat) (outside : ¬InSlots host id first place) :
    8 ≤ (place - slot).toNat := by
  have bound := (slotsEnd host id).isLt
  have place_lt := place.isLt
  simp only [InSlots, not_and, Nat.not_lt] at outside
  simp only [BitVec.toNat_sub]
  omega

def Covered (recorder : Recorder) (place : Addr) : Prop :=
  ∃ object ∈ recorder.kpatches, object.saved.Covers place

inductive FunctionKept (host : Host) (id : Nat) (first : Addr) (start : Memory) (recorder : Recorder)
    (origin : Addr) : Prop
  | unrouted (same : ∀ index < 16, recorder.machine.memory (origin + BitVec.ofNat 64 index) =
      start (origin + BitVec.ofNat 64 index))
  | routed {target : Addr} {form : JumpForm} (some : target ≠ 0)
      (placed : JumpPlaced host id first origin target form recorder.machine)
      (covered : ∀ place, (place - origin).toNat < form.size → Covered recorder place)

structure Live (created : Nat) (freed kept : List Nat) : Prop where
  distinct : kept.Nodup
  live : ∀ serial ∈ kept, serial < created ∧ serial ∉ freed
  unused : ∀ serial ∈ freed, serial < created

theorem Live.more {created count : Nat} {freed kept : List Nat} (known : Live created freed kept) :
    Live (created + count) freed (kept ++ List.range' created count) := by
  have less {serial : Nat} (old : serial < created) : serial < created + count :=
    Nat.lt_of_lt_of_le old (Nat.le_add_right _ _)
  refine ⟨List.nodup_append.mpr ⟨known.distinct, List.nodup_range', ?_⟩, fun serial member => ?_,
    fun serial member => less (known.unused serial member)⟩
  · intro old among new added
    exact Nat.ne_of_lt (Nat.lt_of_lt_of_le (known.live old among).1 (List.mem_range'_1.mp added).1)
  · rcases List.mem_append.mp member with old | new
    · exact ⟨less (known.live serial old).1, (known.live serial old).2⟩
    · obtain ⟨least, most⟩ := List.mem_range'_1.mp new
      exact ⟨most, fun gone => Nat.not_lt.mpr least (known.unused serial gone)⟩

structure Revertible (host : Host) (id : Nat) (first : Addr) (origins : List Addr) (start : Memory)
    (recorder : Recorder) : Prop where
  left : SlotsLeft host id first recorder.machine
  serials : Live recorder.created recorder.freed (recorder.kpatches.map (·.serial))
  functions : ∀ origin ∈ origins, FunctionKept host id first start recorder origin
  restores : ∀ place, ¬InTemp host place → ¬InSlots host id first place →
    recorder.machine.memory.restore (recorder.kpatches.map (·.saved)) place = start place

theorem FunctionKept.later (kept : FunctionKept host id first start recorder origin)
    (ground : Ground host id first origins) (left : SlotsLeft host id first recorder.machine)
    {info : Option Nat} (image : OfImage id info) {other : Addr} (present : other ∈ origins)
    (within : Within host info other recorder.machine after.machine)
    (same : ∀ index < 16, after.machine.memory (origin + BitVec.ofNat 64 index) =
      recorder.machine.memory (origin + BitVec.ofNat 64 index))
    (more : ∀ object ∈ recorder.kpatches, object ∈ after.kpatches) :
    FunctionKept host id first start after origin := by
  cases kept with
  | unrouted before => exact .unrouted fun index less => (same index less).trans (before index less)
  | routed some placed covered =>
      refine .routed some (placed.later ground present left image within same) fun place inside => ?_
      obtain ⟨object, member, covers⟩ := covered place inside
      exact ⟨object, more object member, covers⟩

theorem FunctionKept.elsewhere (kept : FunctionKept host id first start recorder origin)
    (ground : Ground host id first origins) (left : SlotsLeft host id first recorder.machine)
    (image : OfImage id routing.info) (member : origin ∈ origins) (present : routing.origin ∈ origins)
    (apart : Memory.Apart origin codeSize routing.origin codeSize)
    (performed : Performed host routing recorder after) :
    FunctionKept host id first start after origin := by
  refine kept.later ground left image present performed.within (fun index less => ?_) ?_
  · exact performed.within.memory _ (ground.code_untouched member apart left image
      (Nat.lt_of_lt_of_le less (by decide)))
  · cases performed with
    | refused | again => exact fun _ member => member
    | fresh => exact fun _ => List.mem_append_left _

theorem Chosen.untouched {middle : Machine} {value slot place : Addr}
    (chosen : Chosen host recorder.machine routing.info routing.origin routing.buildWrapper value slot
      (routing.form slot).size middle)
    (ground : Ground host id first origins) (left : SlotsLeft host id first recorder.machine)
    (image : OfImage id routing.info) (outside : ¬InSlots host id first place)
    (beyond : ¬(place - routing.origin).toNat < (routing.form slot).size) :
    Untouched routing.origin (routing.form slot) place := by
  refine ⟨Nat.le_of_not_lt beyond, fun slot' slotted => ?_⟩
  obtain ⟨rfl, used⟩ := slot_of_slotted chosen.slotKnown slotted
  obtain ⟨-, same, least, -, most⟩ := left.next ground image used
  rw [same]
  exact outside_slot least most outside

theorem jumping_untouched {middle : Machine} {value slot place : Addr}
    (prepared : Prepared host recorder.machine routing.origin middle) (outside : ¬InTemp host place)
    (untouched : Untouched routing.origin (routing.form slot) place) :
    (recorder.jumping routing middle value slot).machine.memory place =
      recorder.machine.memory place :=
  (installed_untouched _ untouched).trans (prepared.keeps.memory place outside)

theorem readChain_unrouted {memory : Memory} (none : jumpTarget start origin = none)
    (same : ∀ index < 16, memory (origin + BitVec.ofNat 64 index) =
      start (origin + BitVec.ofNat 64 index)) : (readChain memory origin).1 = 0 := by
  have bytes {count : Nat} (short : count ≤ 16) : memory.bytes origin count = start.bytes origin count :=
    Memory.bytes_congr fun index less => same index (Nat.lt_of_lt_of_le less short)
  obtain ⟨indirect, direct⟩ := (jumpTarget_eq_none_iff start origin).mp none
  rw [← bytes (by decide)] at indirect direct
  rw [readChain_fst, (jumpTarget_eq_none_iff memory origin).mpr ⟨indirect, direct⟩]
  rfl

section Step

variable {middle : Machine} {value slot : Addr}
  (ground : Ground host id first origins) (image : OfImage id routing.info)
  (present : routing.origin ∈ origins)
  (chosen : Chosen host recorder.machine routing.info routing.origin routing.buildWrapper value slot
    (routing.form slot).size middle)
  (prepared : Prepared host recorder.machine routing.origin middle)

include ground image present chosen prepared

theorem Revertible.fresh (revertible : Revertible host id first origins start recorder)
    (some : routing.target ≠ 0)
    (same : ∀ index < 16, recorder.machine.memory (routing.origin + BitVec.ofNat 64 index) =
      start (routing.origin + BitVec.ofNat 64 index)) :
    let after := (recorder.jumping routing middle value slot).keeping (routing.saves slot middle.memory)
    FunctionKept host id first start after routing.origin ∧
      ∀ place, ¬InTemp host place → ¬InSlots host id first place →
        after.machine.memory.restore (after.kpatches.map (·.saved)) place = start place := by
  intro after
  have saved : after.kpatches.map (·.saved) =
      recorder.kpatches.map (·.saved) ++ routing.saves slot middle.memory := by
    simp [after, Recorder.keeping, Recorder.jumping]
  have covers {place : Addr} (inside : (place - routing.origin).toNat < (routing.form slot).size) :
      ∃ range ∈ (routing.form slot).places routing.origin, (place - range.1).toNat < range.2 :=
    (places_iff routing.origin place (routing.form slot)).mpr fun untouched =>
      Nat.not_lt.mpr untouched.1 inside
  constructor
  · refine .routed some (chosen.jumpPlaced ground present revertible.left image routing.org)
      fun place inside => ?_
    obtain ⟨range, member, within⟩ := covers inside
    have kept : middle.memory.save range.1 range.2 ∈ after.kpatches.map (·.saved) := by
      rw [saved]
      exact List.mem_append_right _ (List.mem_map_of_mem member)
    obtain ⟨object, among, equal⟩ := List.mem_map.mp kept
    exact ⟨object, among, by rw [equal, Memory.save_covers]; exact within⟩
  · intro place temp slots
    rw [saved, Memory.restore_append]
    by_cases inside : (place - routing.origin).toNat < (routing.form slot).size
    · have here : routing.origin + BitVec.ofNat 64 (place - routing.origin).toNat = place := by
        rw [BitVec.ofNat_toNat, BitVec.setWidth_eq, BitVec.add_comm, BitVec.sub_add_cancel]
      have before := same _ (Nat.lt_of_lt_of_le inside (routing.form slot).size_le)
      rw [here] at before
      rw [Routing.saves, Memory.restore_saves _ _ _ _ (covers inside),
        prepared.keeps.memory place temp, before]
    · have untouched := chosen.untouched ground revertible.left image slots inside
      rw [Memory.restore_uncovered, ← revertible.restores place temp slots]
      · apply Memory.restore_congr
        exact Or.inr (jumping_untouched prepared temp untouched)
      · intro entry member
        obtain ⟨range, present, rfl⟩ := List.mem_map.mp member
        rw [Memory.save_covers]
        exact fun within => (places_iff routing.origin place _).mp ⟨range, present, within⟩ untouched

theorem Revertible.again (revertible : Revertible host id first origins start recorder)
    (some : routing.target ≠ 0) {target : Addr} {form : JumpForm} (used : target ≠ 0)
    (placed : JumpPlaced host id first routing.origin target form recorder.machine)
    (covered : ∀ place, (place - routing.origin).toNat < form.size → Covered recorder place) :
    let after := recorder.jumping routing middle value slot
    FunctionKept host id first start after routing.origin ∧
      ∀ place, ¬InTemp host place → ¬InSlots host id first place →
        after.machine.memory.restore (after.kpatches.map (·.saved)) place = start place := by
  intro after
  have shorter : (routing.form slot).size ≤ form.size := placed.shrinks used _ chosen
  constructor
  · exact .routed some (chosen.jumpPlaced ground present revertible.left image routing.org)
      fun place inside => covered place (Nat.lt_of_lt_of_le inside shorter)
  · intro place temp slots
    rw [← revertible.restores place temp slots]
    apply Memory.restore_congr
    by_cases inside : (place - routing.origin).toNat < (routing.form slot).size
    · obtain ⟨object, member, covers⟩ := covered place (Nat.lt_of_lt_of_le inside shorter)
      exact Or.inl ⟨object.saved, List.mem_map_of_mem member, covers⟩
    · exact Or.inr (jumping_untouched prepared temp
        (chosen.untouched ground revertible.left image slots inside))

end Step

theorem functionKept_under (given : Given) :
    FunctionKept (host.under given) id first start recorder origin ↔
      FunctionKept host id first start recorder origin := by
  constructor
  · rintro (⟨same⟩ | ⟨some, placed, covered⟩)
    · exact .unrouted same
    · exact .routed some ((jumpPlaced_under given).mp placed) covered
  · rintro (⟨same⟩ | ⟨some, placed, covered⟩)
    · exact .unrouted same
    · exact .routed some ((jumpPlaced_under given).mpr placed) covered

theorem revertible_under (given : Given) :
    Revertible (host.under given) id first origins start recorder ↔
      Revertible host id first origins start recorder := by
  constructor
  · rintro ⟨left, serials, functions, restores⟩
    exact ⟨left, serials, by simpa only [functionKept_under] using functions, restores⟩
  · rintro ⟨left, serials, functions, restores⟩
    exact ⟨left, serials, by simpa only [functionKept_under] using functions, restores⟩

theorem Revertible.step (revertible : Revertible host id first origins start recorder)
    (ground : Ground host id first origins) (image : OfImage id routing.info)
    (present : routing.origin ∈ origins) (some : routing.target ≠ 0)
    (apart : ∀ origin ∈ origins, origin ≠ routing.origin →
      Memory.Apart origin codeSize routing.origin codeSize)
    (none : jumpTarget start routing.origin = none)
    (performed : Performed host routing recorder after) :
    Revertible host id first origins start after := by
  have left := revertible.left.later ground image performed.within
  have functions (own : FunctionKept host id first start after routing.origin) :
      ∀ origin ∈ origins, FunctionKept host id first start after origin := by
    intro origin member
    by_cases same : origin = routing.origin
    · exact same ▸ own
    · exact (revertible.functions origin member).elsewhere ground revertible.left image member present
        (apart origin member same) performed
  have kept := revertible.functions routing.origin present
  cases performed with
  | refused within same =>
      have layout := ground.layout present revertible.left image
      refine ⟨left, revertible.serials, functions ?_, fun place temp slots => ?_⟩
      · exact kept.later ground revertible.left image present within
          (fun index less => same _ (not_inTemp_code layout less)) fun _ member => member
      · rw [← revertible.restores place temp slots]
        exact Memory.restore_congr (Or.inr (same place temp))
  | fresh chosen prepared unrouted =>
      cases kept with
      | routed used placed => exact absurd (placed.chain.symm.trans unrouted) used
      | unrouted same =>
          obtain ⟨own, restores⟩ :=
            revertible.fresh ground image present chosen prepared some same
          refine ⟨left, ?_, functions own, restores⟩
          rw [Recorder.keeping, List.map_append, numbered_serials]
          exact revertible.serials.more
  | again chosen prepared routed =>
      cases kept with
      | unrouted same => exact absurd (readChain_unrouted none same) routed
      | routed used placed covered =>
          obtain ⟨own, restores⟩ :=
            revertible.again ground image present chosen prepared some used placed covered
          exact ⟨left, revertible.serials, functions own, restores⟩

theorem Revertible.run {routings : List Routing}
    (revertible : Revertible host id first origins start recorder)
    (ground : Ground host id first origins)
    (separate : ∀ one ∈ origins, ∀ other ∈ origins, one = other ∨ Memory.Apart one codeSize other codeSize)
    (none : ∀ origin ∈ origins, jumpTarget start origin = none)
    (asked : ∀ routing ∈ routings, routing.origin ∈ origins ∧ routing.target ≠ 0 ∧
      OfImage id routing.info ∧ routing.pushes.all = true)
    (ran : (performRoutes host routings).run recorder = some ((), after)) :
    Revertible host id first origins start after := by
  induction routings generalizing recorder with
  | nil =>
      cases ran
      exact revertible
  | cons routing rest ih =>
      rw [List.forall_mem_cons] at asked
      obtain ⟨⟨present, some, image, all⟩, later⟩ := asked
      obtain ⟨value, middle, performs, going⟩ := run_bind_eq_some.mp ran
      have placing := ground.under routing.given
      have layout := placing.layout present revertible.left image
      refine ih ((revertible_under routing.given).mp ?_) later going
      exact ((revertible_under routing.given).mpr revertible).step placing image present some
        (fun origin member different => (separate origin member _ present).resolve_left different)
        (none _ present) (routing.performed all layout performs)

def Recorder.restored (recorder : Recorder) (log : List Saved) : Recorder :=
  { recorder with machine.memory := recorder.machine.memory.restore log }

theorem restorePatches_run {objects : List PatchObject} (recorder : Recorder)
    (live : ∀ object ∈ objects, object.serial ∉ recorder.freed) :
    (restorePatches objects).run recorder = some ((), recorder.restored (objects.map (·.saved))) := by
  induction objects generalizing recorder with
  | nil => rfl
  | cons object rest ih =>
      rw [List.forall_mem_cons] at live
      simp only [restorePatches, run_bind, run_get, Option.bind_some, if_neg live.1, run_modify]
      exact ih _ live.2

theorem deletePatches_run {objects : List PatchObject} (recorder : Recorder)
    (live : ∀ object ∈ objects, object.serial ∉ recorder.freed)
    (distinct : (objects.map (·.serial)).Nodup) :
    ∃ freed, (deletePatches objects).run recorder = some ((), { recorder with freed }) := by
  induction objects generalizing recorder with
  | nil => exact ⟨_, rfl⟩
  | cons object rest ih =>
      rw [List.forall_mem_cons] at live
      rw [List.map_cons, List.nodup_cons] at distinct
      simp only [deletePatches, run_bind, run_get, Option.bind_some, if_neg live.1, run_modify]
      refine ih _ (fun later member => ?_) distinct.2
      simp only [Recorder.deleting, List.map_cons, List.map_nil, List.singleton_append, List.mem_cons,
        not_or]
      exact ⟨fun same => distinct.1 (same ▸ List.mem_map_of_mem member), live.2 later member⟩

end Revert

section Example

def grown : Pushes := ⟨true, true, true⟩

def olderRouting : Routing := ⟨granted, 0x1000, 0xFFFFFF8000002000, true, some 0, some 0, grown⟩

def otherRouting : Routing := ⟨granted, 0x3000, 0x4000, true, some 0, some 1, grown⟩

def newerRouting : Routing := ⟨granted, 0x1000, 0xFFFFFF8000006000, true, some 0, some 2, grown⟩

def routings : List Routing := [olderRouting, otherRouting, newerRouting]

def kept (ran : Option (Unit × Recorder)) : Recorder :=
  (ran.map Prod.snd).getD (.initial pairMachine)

theorem kept_eq {ran : Option (Unit × Recorder)} (ended : ran.isSome = true) :
    ran = some ((), kept ran) := by
  cases ran with
  | none => cases ended
  | some result => rfl

-- One of the pushes fails. The erasure takes a patch of the first route, and the one that was pushed
-- stays although it is deleted, so that writing the patches back uses it.
example :
    let routed := kept ((performRoutes pairHost
      [olderRouting, { otherRouting with pushes := ⟨true, false, true⟩ }]).run (.initial pairMachine))
    routed.kpatches.map (·.serial) = [0, 2, 3] ∧ routed.freed = [4, 3, 1] ∧
      ((deinit pairHost true).run routed).isNone = true := by decide

end Example

end NootedDeck.Patcher
