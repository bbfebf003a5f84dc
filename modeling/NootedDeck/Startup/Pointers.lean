import NootedDeck.Startup.Module

set_option autoImplicit false

namespace NootedDeck.Startup

open Interleaving Program

structure Sound (deck : Deck) : Prop where
  vbiosData : deck.pointers.vbiosData = none
  uses : ∀ entry ∈ deck.uses, entry.2.Meets entry.1
  routed : Hook.wrapIH40IVRingInitHardware ∉ deck.routed

structure Ready (deck : Deck) : Prop extends Sound deck where
  gpu : deck.pointers.gpu.isSome

section Steps

variable {α : Type} {deck : Deck}

theorem panicUnless_maintains {good : Deck → Prop} {condition : Bool} {rest : Unit → Program Deck α}
    (holds : good deck) (later : condition = true → (rest ()).Maintains good deck) :
    (panicUnless condition >>= rest).Maintains good deck := by
  cases condition with
  | true => exact later rfl
  | false => exact holds

theorem panicUnless_last {good : Deck → Prop} {condition : Bool} (holds : good deck) :
    (panicUnless condition).Maintains good deck := by
  cases condition <;> exact holds

theorem Ready.used (ready : Ready deck) (made : Use) (meets : deck.pointers.Meets made) :
    Ready { deck with uses := deck.uses ++ [(made, deck.pointers)] } := by
  refine ⟨⟨ready.vbiosData, fun entry member => ?_, ready.routed⟩, ready.gpu⟩
  rcases List.mem_append.mp member with earlier | last
  · exact ready.uses entry earlier
  · rw [List.mem_singleton.mp last]
    exact meets

theorem Ready.installed (ready : Ready deck) {hook : Hook}
    (other : hook ≠ .wrapIH40IVRingInitHardware) :
    Ready { deck with routed := deck.routed ++ [hook] } := by
  refine ⟨⟨ready.vbiosData, ready.uses, fun member => ?_⟩, ready.gpu⟩
  rcases List.mem_append.mp member with earlier | last
  · exact ready.routed earlier
  · exact other (List.mem_singleton.mp last).symm

theorem routeWhileGranted_maintains {failed : Program Deck Unit} {granted : Hook → Bool}
    {hooks : List Hook} (stopped : ∀ deck, Ready deck → failed.Maintains Ready deck)
    (others : Hook.wrapIH40IVRingInitHardware ∉ hooks) (ready : Ready deck) :
    (routeWhileGranted failed granted hooks).Maintains Ready deck := by
  induction hooks generalizing deck with
  | nil => exact ready
  | cons hook rest ih =>
      rw [List.mem_cons, not_or] at others
      rw [routeWhileGranted]
      split
      · exact ⟨ready, ih others.2 (ready.installed (Ne.symm others.1))⟩
      · exact stopped deck ready

theorem routeAll_maintains {granted : Hook → Bool} {hooks : List Hook}
    (others : Hook.wrapIH40IVRingInitHardware ∉ hooks) (ready : Ready deck) :
    (routeAll granted hooks).Maintains Ready deck :=
  routeWhileGranted_maintains (fun _ ready => ready) others ready

theorem routeSome_maintains {granted : Hook → Bool} {hooks : List Hook}
    (others : Hook.wrapIH40IVRingInitHardware ∉ hooks) (ready : Ready deck) :
    (routeSome granted hooks).Maintains Ready deck :=
  routeWhileGranted_maintains (fun _ ready => ready) others ready

theorem setProperty32Bit_maintains (key : String) (value : BitVec 32) (ready : Ready deck) :
    (setProperty32Bit key value).Maintains Ready deck := by
  have used := ready.used .setProperty32Bit ready.gpu
  refine ⟨ready, used, panicUnless_maintains used fun _ => ⟨used, ?_⟩⟩
  exact ⟨⟨used.vbiosData, used.uses, used.routed⟩, used.gpu⟩

theorem setProperties_maintains (properties : List (String × BitVec 32)) (ready : Ready deck) :
    (setProperties properties).Maintains Ready deck := by
  induction properties generalizing deck with
  | nil => exact ready
  | cons property rest ih =>
      exact (setProperty32Bit_maintains property.1 property.2 ready).bind fun _ _ _ later => ih later

theorem mapRegisters_maintains (mapping : Option Mmio.Aperture) (ready : Ready deck) :
    (mapRegisters mapping).Maintains Ready deck := by
  have mapped : Ready { deck with pointers := { deck.pointers with rMMIO := mapping } } :=
    ⟨⟨ready.vbiosData, ready.uses, ready.routed⟩, ready.gpu⟩
  refine ⟨ready, panicUnless_maintains mapped fun present => ?_⟩
  have first := mapped.used .readRegion32Bit present
  exact ⟨mapped, first, first.used .readRegion32Bit present⟩

theorem initHWLate_maintains (mapping : Option Mmio.Aperture) (ready : Ready deck) :
    (initHWLate mapping).Maintains Ready deck := by
  have used := ready.used .initHWLate ready.gpu
  refine ⟨ready, used, ?_⟩
  change Program.Maintains Ready (if deck.pointers.rMMIO.isSome then _ else _) _
  split
  · exact used
  · exact panicUnless_maintains used fun _ => mapRegisters_maintains mapping used

end Steps

section Callbacks

variable {deck : Deck}

theorem processKext_maintains (load : KextLoad) (ready : Ready deck) :
    (processKext load).Maintains Ready deck := by
  rw [processKext]
  split
  · refine (routeAll_maintains (by split <;> decide) ready).bind fun _ _ _ ready => ?_
    refine ⟨ready, panicUnless_maintains ready fun _ => ?_⟩
    refine (routeAll_maintains (by split <;> decide) ready).bind fun _ _ _ ready => ?_
    exact panicUnless_last ready
  · rw [backlight]
    split
    · exact panicUnless_maintains ready fun _ => routeAll_maintains (by decide) ready
    · exact routeSome_maintains (by decide) ready
    · exact routeSome_maintains (by decide) ready
    · exact ready
  · refine (setProperties_maintains logProperties ready).bind fun _ _ _ ready => ?_
    refine (routeAll_maintains (by decide) ready).bind fun _ _ _ ready => ?_
    exact panicUnless_last ready
  · refine (initHWLate_maintains load.mapping ready).bind fun _ _ _ ready => ?_
    refine panicUnless_maintains ready fun _ => ?_
    refine (routeAll_maintains (by decide) ready).bind fun _ _ _ ready => ?_
    refine ⟨ready, (routeAll_maintains (by split <;> decide) ready).bind fun _ _ _ ready => ?_⟩
    exact panicUnless_last ready
  · refine (initHWLate_maintains load.mapping ready).bind fun _ _ _ ready => ?_
    exact panicUnless_maintains ready fun _ => routeAll_maintains (by decide) ready
  · exact ready

theorem kextsLoaded_maintains (loads : List KextLoad) (ready : Ready deck) :
    (kextsLoaded loads).Maintains Ready deck := by
  induction loads generalizing deck with
  | nil => exact ready
  | cons load rest ih =>
      have loaded : (kextLoaded load).Maintains Ready deck := by
        refine ⟨ready, ?_⟩
        change Program.Maintains Ready (if load.callback ∈ deck.registered then _ else _) deck
        split
        · exact processKext_maintains load ready
        · exact ready
      exact loaded.bind fun _ _ _ ready => ih ready

theorem processPatcher_maintains (hardware : Hardware) (sound : Sound deck) :
    (processPatcher hardware).Maintains Sound deck ∧
      ∀ final, (processPatcher hardware).run deck = some ((), final) → Ready final := by
  have found : Sound { deck with pointers := { deck.pointers with gpu := hardware.videoBuiltIn } } :=
    ⟨sound.vbiosData, sound.uses, sound.routed⟩
  have routes : knownDevice hardware.videoBuiltIn = true →
      (routeAll hardware.granted [.wrapSafeMetaCast, .wrapAddDrivers]).Maintains Ready
        { deck with pointers := { deck.pointers with gpu := hardware.videoBuiltIn } } := by
    intro known
    refine routeAll_maintains (by decide) ⟨found, ?_⟩
    cases present : hardware.videoBuiltIn with
    | none => rw [present] at known; cases known
    | some device => rfl
  constructor
  · refine panicUnless_maintains sound fun _ => ⟨sound, panicUnless_maintains found fun known => ?_⟩
    exact (routes known).imp fun _ ready => ready.toSound
  · intro final ran
    cases listed : hardware.deviceInfo with
    | false => simp [processPatcher, panicUnless, listed] at ran
    | true =>
        cases known : knownDevice hardware.videoBuiltIn with
        | false => simp [processPatcher, panicUnless, known] at ran
        | true =>
            simp only [processPatcher, panicUnless, listed, known] at ran
            exact (routes known).finish ran

theorem sound_of_unused (vbiosData : deck.pointers.vbiosData = none) (unused : deck.uses = [])
    (unrouted : deck.routed = []) : Sound deck := by
  constructor
  · exact vbiosData
  · simp only [unused, List.not_mem_nil, false_imp_iff, implies_true]
  · simp only [unrouted, List.not_mem_nil, not_false_eq_true]

theorem startModule_maintains (boot : Boot) :
    (startModule boot).Maintains Sound Deck.initial := by
  have initial : Sound Deck.initial := sound_of_unused rfl rfl rfl
  refine ⟨initial, panicUnless_maintains initial fun _ => ⟨initial, ?_⟩⟩
  have loaded : Sound { Deck.initial with moduleLoaded := true } := sound_of_unused rfl rfl rfl
  exact panicUnless_maintains loaded fun _ => ⟨loaded, sound_of_unused rfl rfl rfl⟩

theorem runModule_maintains (boot : Boot) (hardware : Hardware) (loads : List KextLoad) :
    (runModule boot hardware loads).Maintains Sound Deck.initial := by
  refine (startModule_maintains boot).bind fun _ started _ sound => ?_
  obtain ⟨patched, ready⟩ := processPatcher_maintains hardware sound
  refine patched.bind fun _ final ran _ => ?_
  exact (kextsLoaded_maintains loads (ready final ran)).imp fun _ ready => ready.toSound

end Callbacks

section Runs

def InOrder (config : Config Deck (Hook × Pointers) Unit) : Prop :=
  (∀ entry ∈ config.state.uses, entry.2.Meets entry.1) ∧
    ∀ call ∈ config.seen, ∀ made ∈ call.1.uses, call.2.Meets made

/--
In every run the callbacks and the hooks find the pointers they use, exactly as long as the routed
`PopulateVRAMInfo` is not called.
-/
theorem run_inOrder_iff (boot : Boot) (hardware : Hardware) (loads : List KextLoad)
    (config : Config Deck (Hook × Pointers) Unit)
    (reached : Reachable Calls ⟨runModule boot hardware loads, Deck.initial, []⟩ config) :
    InOrder config ↔ ∀ call ∈ config.seen, call.1 ≠ .populateVRAMInfo := by
  have looks : ∀ (deck : Deck) (call : Hook × Pointers), Sound deck → Calls deck call →
      call.1 ≠ .wrapIH40IVRingInitHardware ∧ call.2.vbiosData = none := by
    rintro deck call sound ⟨routed, pointers⟩
    exact ⟨fun same => sound.routed (same ▸ routed), pointers ▸ sound.vbiosData⟩
  have kept := runModule_maintains boot hardware loads
  obtain ⟨sound, calls⟩ := reached.maintains looks kept (List.forall_mem_nil _)
  constructor
  · intro inOrder call member populated
    obtain ⟨image, fetched, -⟩ : call.2.Meets .getVBIOSDataTable :=
      inOrder.2 call member _ (by rw [populated]; exact List.mem_singleton_self _)
    rw [(calls call member).2] at fetched
    cases fetched
  · intro uncalled
    refine ⟨sound.start.uses, fun call member made uses => ?_⟩
    rcases Hook.eq_of_mem_uses uses with populated | unrouted
    · exact absurd populated (uncalled call member)
    · exact absurd unrouted (calls call member).1

def exampleBoot : Boot := ⟨.ventura, false, true⟩

def exampleHardware : Hardware := ⟨true, some ⟨0x1002, 0x163F⟩, fun _ => true⟩

def exampleLoad (callback : Callback) : KextLoad where
  callback := callback
  kext := .radeonX6000Framebuffer
  dpDelay := false
  mapping := some Mmio.exampleAperture
  solved := true
  granted := fun _ => true
  completed := true

theorem exampleRun :
    ∃ final, (runModule exampleBoot exampleHardware
        [exampleLoad .debugEnabler, exampleLoad .vanGoghX6000FB]).run Deck.initial =
          some ((), final) ∧
      final.uses.map Prod.fst = List.replicate 7 .setProperty32Bit ++
        [.initHWLate, .readRegion32Bit, .readRegion32Bit] ∧
      .populateVRAMInfo ∈ final.routed ∧ final.pointers.vbiosData = none :=
  ⟨_, rfl, rfl, by decide, rfl⟩

theorem run_inOrder_example :
    ∃ final, (runModule exampleBoot exampleHardware
        [exampleLoad .debugEnabler, exampleLoad .vanGoghX6000FB]).run Deck.initial =
          some ((), final) ∧
      final.uses.map Prod.fst = List.replicate 7 .setProperty32Bit ++
        [.initHWLate, .readRegion32Bit, .readRegion32Bit] ∧
      InOrder ⟨.done (), final, []⟩ := by
  obtain ⟨final, ran, uses, -, -⟩ := exampleRun
  have inOrder := run_inOrder_iff exampleBoot exampleHardware
    [exampleLoad .debugEnabler, exampleLoad .vanGoghX6000FB] _ (reachable_run ran [])
  exact ⟨final, ran, uses, inOrder.mpr (List.forall_mem_nil _)⟩

-- After the same run the framebuffer driver calls the function that was routed.
theorem populateVRAMInfo_without_vbios :
    ∃ config, Reachable Calls ⟨runModule exampleBoot exampleHardware
        [exampleLoad .debugEnabler, exampleLoad .vanGoghX6000FB], Deck.initial, []⟩ config ∧
      ¬ InOrder config := by
  obtain ⟨final, ran, -, routed, unset⟩ := exampleRun
  have look : Calls final (.populateVRAMInfo, final.pointers) := ⟨routed, rfl⟩
  refine ⟨_, (reachable_run ran []).tail (.look _ _ [] _ look), ?_⟩
  rintro ⟨-, calls⟩
  obtain ⟨image, fetched, -⟩ := calls _ (List.mem_singleton_self _) .getVBIOSDataTable
    (List.mem_singleton_self _)
  cases unset.symm.trans fetched

end Runs

end NootedDeck.Startup
