import NootedDeck.Hooks.Wrappers

set_option autoImplicit false

namespace NootedDeck.Hooks

inductive HookCall : Type → Type 1 where
  | createAppleHDAFunctionGroup (devID : Pointer) : HookCall Pointer
  | createAppleHDAWidget (devID : Pointer) : HookCall Pointer
  | setAttributeForConnection (framebuffer : Pointer) (connectIndex attr : BitVec 32)
      (value : BitVec 64) : HookCall IOReturn
  | getAttributeForConnection (framebuffer : Pointer) (connectIndex attr : BitVec 32)
      (value : Pointer) : HookCall IOReturn
  | safeMetaCast (object toMeta : Pointer) : HookCall Pointer

namespace HookCall

variable {κ α : Type} (originals : Originals κ)

def hook : HookCall α → Routine κ α
  | createAppleHDAFunctionGroup devID => wrapCreateAppleHDAFunctionGroup originals devID
  | createAppleHDAWidget devID => wrapCreateAppleHDAWidget originals devID
  | setAttributeForConnection framebuffer connectIndex attr value =>
      wrapSetAttributeForConnection originals framebuffer connectIndex attr value
  | getAttributeForConnection framebuffer connectIndex attr value =>
      wrapGetAttributeForConnection originals framebuffer connectIndex attr value
  | safeMetaCast object toMeta => wrapSafeMetaCast originals object toMeta

def original : HookCall α → Routine κ α
  | createAppleHDAFunctionGroup devID => originals.createAppleHDAFunctionGroup devID
  | createAppleHDAWidget devID => originals.createAppleHDAWidget devID
  | setAttributeForConnection framebuffer connectIndex attr value =>
      originals.setAttributeForConnection framebuffer connectIndex attr value
  | getAttributeForConnection framebuffer connectIndex attr value =>
      originals.getAttributeForConnection framebuffer connectIndex attr value
  | safeMetaCast object toMeta => originals.safeMetaCast object toMeta

def Outside (world : World κ) : HookCall α → Prop
  | createAppleHDAFunctionGroup devID | createAppleHDAWidget devID =>
      isVanGoghHDMI originals world devID = false
  | setAttributeForConnection _ _ attr _ | getAttributeForConnection _ _ attr _ =>
      attr ≠ fbAttributeBacklight
  | safeMetaCast object toMeta =>
      (originals.safeMetaCast object toMeta world).1 ≠ 0 ∨
        ∀ ent ∈ originals.metaClassMap, ent.1 ≠ toMeta ∧ ent.2 ≠ toMeta

def Forwarded (world : World κ) : HookCall α → Prop
  | createAppleHDAWidget devID =>
      originals.createAppleHDAFunctionGroup devID world = originals.createAppleHDAWidget devID world
  | _ => True

end HookCall

section Transparency

variable {κ α : Type} (originals : Originals κ)

theorem counterpart_eq_none {toMeta : Pointer} {map : List (Pointer × Pointer)}
    (absent : ∀ ent ∈ map, ent.1 ≠ toMeta ∧ ent.2 ≠ toMeta) : counterpart toMeta map = none := by
  induction map with
  | nil => rfl
  | cons ent rest ih =>
      rw [List.forall_mem_cons] at absent
      rw [counterpart, if_neg absent.1.1, if_neg absent.1.2]
      exact ih absent.2

theorem wrapSafeMetaCast_outside {object toMeta : Pointer} {world : World κ}
    (outside : (HookCall.safeMetaCast object toMeta).Outside originals world) :
    wrapSafeMetaCast originals object toMeta world = originals.safeMetaCast object toMeta world := by
  rw [wrapSafeMetaCast]
  generalize cast : originals.safeMetaCast object toMeta world = result
  obtain ⟨returnValue, after⟩ := result
  by_cases null : returnValue = 0
  · have absent := outside.resolve_left fun accepted => accepted (by rw [cast, null])
    simp [null, counterpart_eq_none absent]
  · exact if_pos null

/--
A call that a hook does not exist to change has the result and the effect of the function that was
replaced, exactly if the hook does not forward a widget to a function-group constructor that treats it
otherwise.
-/
theorem hook_transparent_iff (call : HookCall α) (world : World κ)
    (outside : call.Outside originals world) :
    call.hook originals world = call.original originals world ↔ call.Forwarded originals world := by
  cases call with
  | createAppleHDAFunctionGroup devID =>
      have other : isVanGoghHDMI originals world devID = false := outside
      simp [HookCall.hook, HookCall.original, HookCall.Forwarded, wrapCreateAppleHDAFunctionGroup, other]
  | createAppleHDAWidget devID =>
      have other : isVanGoghHDMI originals world devID = false := outside
      simp [HookCall.hook, HookCall.original, HookCall.Forwarded, wrapCreateAppleHDAWidget, other]
  | setAttributeForConnection framebuffer connectIndex attr value =>
      have other : attr ≠ fbAttributeBacklight := outside
      simp [HookCall.hook, HookCall.original, HookCall.Forwarded, wrapSetAttributeForConnection, other]
  | getAttributeForConnection framebuffer connectIndex attr value =>
      have other : attr ≠ fbAttributeBacklight := outside
      simp [HookCall.hook, HookCall.original, HookCall.Forwarded, wrapGetAttributeForConnection, other]
  | safeMetaCast object toMeta =>
      simp only [HookCall.hook, HookCall.original, HookCall.Forwarded,
        wrapSafeMetaCast_outside originals outside]

def exampleOriginals : Originals Unit where
  createAppleHDAFunctionGroup := fun _ world => (0x1000, world)
  createAppleHDAWidget := fun _ world => (0x2000, world)
  setAttributeForConnection := fun _ _ _ _ world => (0, world)
  getAttributeForConnection := fun _ _ _ _ world => (0, world)
  safeMetaCast := fun object _ world => (object, world)
  allocFunctionGroupTahiti := fun world => (0x3000, world)
  allocWidget1002AAA0 := fun world => (0x4000, world)
  dcLinkSetBacklightLevel := fun _ _ _ world => (true, world)
  dcLinkSetBacklightLevelNits := fun _ _ _ _ world => (true, world)
  member16 := fun _ _ _ => 0x8086
  member32 := fun _ _ _ => 0x2805
  store := fun _ _ world => world
  metaClassMap := List.replicate 5 (0, 0)

def exampleWorld : World Unit := ⟨(), ⟨0, 0xFFFF, 512000, 0, false⟩⟩

theorem hook_transparent_example :
    (HookCall.createAppleHDAFunctionGroup 0x100).hook exampleOriginals exampleWorld =
      (0x1000, exampleWorld) :=
  (hook_transparent_iff exampleOriginals (.createAppleHDAFunctionGroup 0x100) exampleWorld rfl).mpr
    trivial

theorem widget_hook_opaque :
    (HookCall.createAppleHDAWidget 0x100).Outside exampleOriginals exampleWorld ∧
      ((HookCall.createAppleHDAWidget 0x100).hook exampleOriginals exampleWorld).1 = 0x1000 ∧
      ((HookCall.createAppleHDAWidget 0x100).original exampleOriginals exampleWorld).1 = 0x2000 :=
  ⟨rfl, rfl, rfl⟩

end Transparency

end NootedDeck.Hooks
