import NootedDeck.Shared.Accesses
import NootedDeck.Mmio.Registers

set_option autoImplicit false

namespace NootedDeck.Mmio

open Accesses Accesses.Access Interleaving

variable (aperture : Aperture)

section Accesses

def mapping : Storage Device (BitVec 32) (BitVec 32) where
  load := Device.load aperture
  store := Device.store aperture

def readAccesses (region : BitVec 32) : Accesses.Access (BitVec 32) (BitVec 32) (BitVec 32) :=
  if aperture.Covers region then loadFrom region
  else do
    storeTo aperture.pcieIndex2 region
    loadFrom aperture.pcieData2

def writeAccesses (region value : BitVec 32) : Accesses.Access (BitVec 32) (BitVec 32) Unit :=
  if aperture.Covers region then storeTo region value
  else do
    storeTo aperture.pcieIndex2 region
    storeTo aperture.pcieData2 value

instance (region : BitVec 32) : Decidable (aperture.Plain region) :=
  decidable_of_iff (region ≠ aperture.pcieIndex2 ∧ region ≠ aperture.pcieData2)
    ⟨fun apart => ⟨apart.1, apart.2⟩, fun plain => ⟨plain.notIndex, plain.notData⟩⟩

theorem readRegion32Bit_accesses (region : BitVec 32) (device : Device) :
    (readRegion32Bit aperture region).run device =
      some ((readAccesses aperture region).run (mapping aperture) device) := by
  unfold readRegion32Bit readAccesses
  split_ifs <;> rfl

theorem writeRegion32Bit_accesses (region value : BitVec 32) (device : Device) :
    (writeRegion32Bit aperture region value).run device =
      some ((writeAccesses aperture region value).run (mapping aperture) device) := by
  unfold writeRegion32Bit writeAccesses
  split_ifs <;> rfl

inductive Call where
  | read (region : BitVec 32)
  | write (region value : BitVec 32)
  deriving DecidableEq

def Call.region : Call → BitVec 32
  | .read region => region
  | .write region _ => region

def Call.accesses : Call → Accesses.Access (BitVec 32) (BitVec 32) (Option (BitVec 32))
  | .read region => do
      let value ← readAccesses aperture region
      return some value
  | .write region value => do
      writeAccesses aperture region value
      return none

def perform (call : Call) (device : Device) : Option (BitVec 32) × Device :=
  (call.accesses aperture).run (mapping aperture) device

def Call.apply (registers : BitVec 32 → BitVec 32) : Call → BitVec 32 → BitVec 32
  | .read _ => registers
  | .write region value => Function.update registers region value

variable {aperture}

theorem perform_read {region : BitVec 32} (plain : aperture.Plain region) (device : Device) :
    perform aperture (.read region) device =
      (some (device.registers region), reached aperture region device) := by
  have ran := readRegion32Bit_run plain device
  rw [readRegion32Bit_accesses, Option.some.injEq] at ran
  simp only [perform, Call.accesses, run_bind, ran, run_pure]

theorem perform_registers {call : Call} (plain : aperture.Plain call.region) (device : Device) :
    (perform aperture call device).2.registers = call.apply device.registers := by
  cases call with
  | read region =>
      have plain : aperture.Plain region := plain
      rw [perform_read plain, reached_registers]
      rfl
  | write region value =>
      have plain : aperture.Plain region := plain
      have ran := writeRegion32Bit_run plain value device
      rw [writeRegion32Bit_accesses, Option.some.injEq] at ran
      simp only [perform, Call.accesses, run_bind, ran, run_pure, Call.apply]

end Accesses

section Law

def lastWritten (initial region : BitVec 32) (calls : List Call) : BitVec 32 :=
  ((calls.filterMap fun call =>
    match call with
    | .read _ => none
    | .write other value => if other = region then some value else none).getLast?).getD initial

theorem lastWritten_concat (initial region : BitVec 32) (calls : List Call) (call : Call) :
    lastWritten initial region (calls ++ [call]) =
      call.apply (fun _ => lastWritten initial region calls) region := by
  cases call with
  | read other => simp [lastWritten, Call.apply]
  | write other value =>
      by_cases same : other = region
      · simp [lastWritten, Call.apply, same]
      · simp [lastWritten, Call.apply, same, Ne.symm same]

variable {aperture}

theorem stateAfter_registers (device : Device) (calls : List Call)
    (plain : ∀ call ∈ calls, aperture.Plain call.region) (region : BitVec 32) :
    (stateAfter (perform aperture) device calls).registers region =
      lastWritten (device.registers region) region calls := by
  induction calls using List.reverseRecOn with
  | nil => rfl
  | append_singleton earlier call ih =>
      have before := ih fun other member => plain other (List.mem_append_left _ member)
      have here := plain call (List.mem_append_right _ (List.mem_singleton_self call))
      rw [stateAfter_concat, perform_registers here, lastWritten_concat]
      cases call with
      | read other => exact before
      | write other value =>
          by_cases same : region = other
          · simp [Call.apply, same]
          · simpa [Call.apply, same] using before

-- A direct access to a word that begins inside the mapping and ends behind it.
def Aperture.Straddled (aperture : Aperture) (region : BitVec 32) : Prop :=
  region.toNat * 4 < aperture.length ∧ aperture.length < region.toNat * 4 + 4

instance (aperture : Aperture) (region : BitVec 32) : Decidable (aperture.Straddled region) :=
  inferInstanceAs (Decidable (_ ∧ _))

structure KeepsStorage (aperture : Aperture) (device : Device) (earlier : List Call) (call : Call) :
    Prop where
  returned : ∀ region, call = .read region →
    (perform aperture call (stateAfter (perform aperture) device earlier)).1 =
      some (lastWritten (device.registers region) region earlier)
  others : ∀ region, (∀ value, call ≠ .write region value) →
    (perform aperture call (stateAfter (perform aperture) device earlier)).2.registers region =
      (stateAfter (perform aperture) device earlier).registers region
  inside : ∀ access ∈ (call.accesses aperture).trace (mapping aperture)
    (stateAfter (perform aperture) device earlier), access.2.toNat * 4 + 4 ≤ aperture.length

theorem accesses_places (call : Call) (device : Device) :
    ((call.accesses aperture).trace (mapping aperture) device).map Prod.snd =
      if aperture.Covers call.region then [call.region]
      else [aperture.pcieIndex2, aperture.pcieData2] := by
  cases call with
  | read region =>
      by_cases covered : aperture.Covers region <;>
        simp [Call.accesses, Call.region, readAccesses, covered]
  | write region value =>
      by_cases covered : aperture.Covers region <;>
        simp [Call.accesses, Call.region, writeAccesses, covered]

theorem trace_inside_iff (whole : aperture.pcieIndex2.toNat * 4 + 4 ≤ aperture.length ∧
      aperture.pcieData2.toNat * 4 + 4 ≤ aperture.length) (call : Call) (device : Device) :
    (∀ access ∈ (call.accesses aperture).trace (mapping aperture) device,
        access.2.toNat * 4 + 4 ≤ aperture.length) ↔ ¬aperture.Straddled call.region := by
  have places : (∀ access ∈ (call.accesses aperture).trace (mapping aperture) device,
      access.2.toNat * 4 + 4 ≤ aperture.length) ↔
      ∀ index ∈ ((call.accesses aperture).trace (mapping aperture) device).map Prod.snd,
        index.toNat * 4 + 4 ≤ aperture.length := by
    rw [List.forall_mem_map]
  rw [places, accesses_places]
  unfold Aperture.Straddled
  split_ifs with covered
  · have begins : call.region.toNat * 4 < aperture.length := covered
    rw [List.forall_mem_singleton]
    omega
  · have beyond : ¬call.region.toNat * 4 < aperture.length := covered
    simp only [List.forall_mem_cons, whole, true_and]
    exact iff_of_true (List.forall_mem_nil _) fun straddled => beyond straddled.1

/--
The mapped registers and the others together are storage for a single caller exactly if no call is
for the word across the end of the mapping.
-/
theorem storage_kept_iff (aperture : Aperture)
    (whole : aperture.pcieIndex2.toNat * 4 + 4 ≤ aperture.length ∧
      aperture.pcieData2.toNat * 4 + 4 ≤ aperture.length)
    (device : Device) (calls : List Call) (plain : ∀ call ∈ calls, aperture.Plain call.region) :
    (∀ earlier call later, calls = earlier ++ call :: later →
        KeepsStorage aperture device earlier call) ↔
      ∀ call ∈ calls, ¬aperture.Straddled call.region := by
  constructor
  · intro keeps call member
    obtain ⟨earlier, later, split⟩ := List.append_of_mem member
    exact (trace_inside_iff whole call _).mp (keeps earlier call later split).inside
  · rintro apart earlier call later rfl
    have here := plain call (by simp)
    have before := stateAfter_registers device earlier
      fun other member => plain other (List.mem_append_left _ member)
    constructor
    case returned =>
      rintro region rfl
      have here : aperture.Plain region := here
      rw [perform_read here, before]
    case others =>
      intro region untouched
      rw [perform_registers here]
      cases call with
      | read other => rfl
      | write other value =>
          have apart : region ≠ other := by
            rintro rfl
            exact untouched value rfl
          exact Function.update_of_ne apart _ _
    case inside => exact (trace_inside_iff whole call _).mpr (apart call (by simp))

section Example

def oddAperture : Aperture :=
  { exampleAperture with length := 1022, indexMapped := by decide, dataMapped := by decide }

theorem storage_kept_example :
    KeepsStorage oddAperture ⟨0, fun _ => 7⟩ [.write 0x40 1, .write 0x1000 2] (.read 0x40) :=
  (storage_kept_iff oddAperture (by decide) ⟨0, fun _ => 7⟩
    [.write 0x40 1, .write 0x1000 2, .read 0x40] (by decide)).mpr (by decide)
    [.write 0x40 1, .write 0x1000 2] (.read 0x40) [] rfl

-- The last word of that mapping is read across its end.
theorem storage_left_example :
    ¬∀ earlier call later, [Call.read 255] = earlier ++ call :: later →
      KeepsStorage oddAperture ⟨0, fun _ => 7⟩ earlier call := by
  intro keeps
  have inside := (keeps [] (.read 255) [] rfl).inside (.load, 255) (by decide)
  exact absurd inside (by decide)

end Example

end Law

end NootedDeck.Mmio
