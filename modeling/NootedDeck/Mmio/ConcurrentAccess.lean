import NootedDeck.Mmio.Registers

set_option autoImplicit false

-- A region beyond the aperture takes two transactions: the store that selects it and the transfer.
-- Nothing keeps another caller from selecting a region of its own in between.

namespace NootedDeck.Mmio

open Interleaving

inductive Access where
  | read (region : BitVec 32)
  | write (region value : BitVec 32)
deriving DecidableEq

namespace Access

def region : Access → BitVec 32
  | .read region => region
  | .write region _ => region

def call (aperture : Aperture) : Access → Program Device (Option (BitVec 32))
  | .read region => do
      let value ← readRegion32Bit aperture region
      return some value
  | .write region value => do
      writeRegion32Bit aperture region value
      return none

def transfer (aperture : Aperture) : Access → Program Device (Option (BitVec 32))
  | .read _ => .read fun device => .done (some (device.load aperture aperture.pcieData2))
  | .write _ value => .write (Device.store aperture aperture.pcieData2 value) (.done none)

def perform : Access → (BitVec 32 → BitVec 32) → Option (BitVec 32) × (BitVec 32 → BitVec 32)
  | .read region, registers => (some (registers region), registers)
  | .write region value, registers => (none, Function.update registers region value)

theorem call_beyond {aperture : Aperture} {access : Access}
    (beyond : ¬ aperture.Covers access.region) :
    access.call aperture =
      .write (Device.store aperture aperture.pcieIndex2 access.region)
        (access.transfer aperture) := by
  cases access with
  | read region =>
      have indirect : readRegion32Bit aperture region = _ := if_neg beyond
      rw [call, indirect]
      rfl
  | write region value =>
      have indirect : writeRegion32Bit aperture region value = _ := if_neg beyond
      rw [call, indirect]
      rfl

theorem transfer_ne_done {aperture : Aperture} (access : Access) (value : Option (BitVec 32)) :
    access.transfer aperture ≠ .done value := by
  cases access <;> nofun

theorem call_ne_transfer {aperture : Aperture} {access : Access}
    (beyond : ¬ aperture.Covers access.region) :
    access.call aperture ≠ access.transfer aperture := by
  rw [call_beyond beyond]
  cases access with
  | read region => nofun
  | write region value => exact fun same => transfer_ne_done _ _ (Program.write.inj same).2

end Access

abbrev Callers (ι : Type) := Pool ι Device (Option (BitVec 32))

variable {ι : Type} [DecidableEq ι] (aperture : Aperture) (calls : ι → Access)

def start (device : Device) : Callers ι := ⟨fun caller => (calls caller).call aperture, device⟩

def Linearized (device : Device) (callers : Callers ι) : Prop :=
  ∃ order : List ι, order.Nodup ∧
    callers.state.registers = stateAfter (fun caller => (calls caller).perform) device.registers order ∧
    ∀ caller value, callers.threads caller = .done value ↔
      (caller, value) ∈ outcomes (fun caller => (calls caller).perform) device.registers order

def Undisturbed (callers : Callers ι) (caller : ι) : Prop :=
  callers.threads caller = (calls caller).call aperture →
    ∀ other, callers.threads other = (calls other).transfer aperture →
      (calls other).region = (calls caller).region

variable {aperture calls}

theorem advance_transfer {callers : Callers ι} {caller : ι}
    (selected : callers.threads caller = (calls caller).transfer aperture)
    (own : callers.state.selector = (calls caller).region) :
    callers.advance caller =
      ⟨Function.update callers.threads caller
          (.done ((calls caller).perform callers.state.registers).1),
        ⟨callers.state.selector, ((calls caller).perform callers.state.registers).2⟩⟩ := by
  cases access : calls caller with
  | read region =>
      rw [access] at selected own
      have named : callers.state.registers callers.state.selector =
          callers.state.registers region := congrArg _ own
      rw [Pool.advance_read selected, Device.load_data, named]
      rfl
  | write region value =>
      rw [access] at selected own
      rw [Pool.advance_write selected, Device.store_data, own]
      rfl

variable (aperture calls) in
structure Progress (device : Device) (order : List ι) (callers : Callers ι) : Prop where
  nodup : order.Nodup
  registers : callers.state.registers =
    stateAfter (fun caller => (calls caller).perform) device.registers order
  returned : ∀ caller ∈ order, ∀ value, callers.threads caller = .done value ↔
    (caller, value) ∈ outcomes (fun caller => (calls caller).perform) device.registers order
  underway : ∀ caller ∉ order, callers.threads caller = (calls caller).call aperture ∨
    callers.threads caller = (calls caller).transfer aperture ∧
      callers.state.selector = (calls caller).region

namespace Progress

variable {device : Device} {order : List ι} {callers : Callers ι}

theorem linearized (beyond : ∀ caller, ¬ aperture.Covers (calls caller).region)
    (progress : Progress aperture calls device order callers) : Linearized calls device callers := by
  refine ⟨order, progress.nodup, progress.registers, fun caller value => ?_⟩
  by_cases finished : caller ∈ order
  · exact progress.returned caller finished value
  · refine iff_of_false (fun returned => ?_) (fun outcome => finished ?_)
    · rcases progress.underway caller finished with atStart | ⟨selected, -⟩
      · rw [atStart, Access.call_beyond (beyond caller)] at returned
        cases returned
      · exact Access.transfer_ne_done _ _ (selected.symm.trans returned)
    · exact (mem_order_iff _ device.registers order caller).mpr ⟨value, outcome⟩

theorem select {caller : ι} (beyond : ¬ aperture.Covers (calls caller).region)
    (progress : Progress aperture calls device order callers) (unfinished : caller ∉ order)
    (atStart : callers.threads caller = (calls caller).call aperture)
    (undisturbed : Undisturbed aperture calls callers caller) :
    Progress aperture calls device order (callers.advance caller) := by
  rw [Pool.advance_write (atStart.trans (Access.call_beyond beyond)), Device.store_index]
  refine ⟨progress.nodup, progress.registers, fun other finished value => ?_, fun other unreturned => ?_⟩
  · have different : other ≠ caller := fun same => unfinished (same ▸ finished)
    simpa only [Function.update_of_ne different] using progress.returned other finished value
  · by_cases same : other = caller
    · subst same
      exact Or.inr ⟨Function.update_self .., rfl⟩
    · simp only [Function.update_of_ne same]
      refine (progress.underway other unreturned).imp_right fun waiting => ⟨waiting.1, ?_⟩
      exact (undisturbed atStart other waiting.1).symm

theorem transfer {caller : ι} (progress : Progress aperture calls device order callers)
    (unfinished : caller ∉ order)
    (selected : callers.threads caller = (calls caller).transfer aperture)
    (own : callers.state.selector = (calls caller).region) :
    Progress aperture calls device (order ++ [caller]) (callers.advance caller) := by
  rw [advance_transfer selected own]
  refine ⟨?_, ?_, fun other finished value => ?_, fun other unreturned => ?_⟩
  · rw [List.nodup_append]
    exact ⟨progress.nodup, by simp, by rintro first member _ last rfl; simp_all⟩
  · rw [stateAfter_concat, ← progress.registers]
  · rw [outcomes_concat, ← progress.registers, List.mem_append, List.mem_singleton, Prod.mk.injEq]
    by_cases same : other = caller
    · subst same
      have absent : (other, value) ∉
          outcomes (fun caller => (calls caller).perform) device.registers order :=
        fun earlier => unfinished ((mem_order_iff _ _ _ _).mpr ⟨value, earlier⟩)
      simp only [Function.update_self, Program.done.injEq, absent, false_or, true_and, eq_comm]
    · have earlier : other ∈ order :=
        (List.mem_append.mp finished).resolve_right (same ∘ List.mem_singleton.mp)
      simp only [Function.update_of_ne same, progress.returned other earlier value, same, false_and,
        or_false]
  · have different : other ≠ caller := by
      rintro rfl
      exact unreturned (by simp)
    simp only [Function.update_of_ne different]
    exact progress.underway other fun earlier => unreturned (List.mem_append_left _ earlier)

theorem advance (beyond : ∀ caller, ¬ aperture.Covers (calls caller).region) (caller : ι)
    (progress : Progress aperture calls device order callers)
    (undisturbed : Undisturbed aperture calls callers caller) :
    ∃ later, Progress aperture calls device later (callers.advance caller) := by
  by_cases finished : caller ∈ order
  · obtain ⟨value, outcome⟩ := (mem_order_iff _ device.registers order caller).mp finished
    rw [Pool.advance_done ((progress.returned caller finished value).mpr outcome)]
    exact ⟨order, progress⟩
  · rcases progress.underway caller finished with atStart | ⟨selected, own⟩
    · exact ⟨order, progress.select (beyond caller) finished atStart undisturbed⟩
    · exact ⟨order ++ [caller], progress.transfer finished selected own⟩

end Progress

/--
In every interleaving in which no caller selects a region while another is about to transfer to a
different one, the calls that returned are calls made one after the other.
-/
theorem undisturbed_linearized (beyond : ∀ caller, ¬ aperture.Covers (calls caller).region)
    (device : Device) (schedule : List ι)
    (undisturbed : (start aperture calls device).Allows (Undisturbed aperture calls) schedule) :
    Linearized calls device ((start aperture calls device).interleave schedule) := by
  have initial : Progress aperture calls device [] (start aperture calls device) :=
    ⟨List.nodup_nil, rfl, nofun, fun caller _ => Or.inl rfl⟩
  obtain ⟨order, progress⟩ := Pool.interleave_invariant
    (fun callers => ∃ order, Progress aperture calls device order callers)
    (fun callers caller ⟨_, progress⟩ allowed => progress.advance beyond caller allowed)
    schedule _ ⟨[], initial⟩ undisturbed
  exact progress.linearized beyond

def exampleCalls (caller : Bool) : Access := if caller then .write 1000 7 else .write 2000 9

def exampleDevice : Device := ⟨0, fun _ => 0⟩

theorem undisturbed_linearized_example :
    Linearized exampleCalls exampleDevice
      ((start exampleAperture exampleCalls exampleDevice).interleave [true, true, false, false]) := by
  have beyond : ∀ caller, ¬ exampleAperture.Covers (exampleCalls caller).region := by decide
  refine undisturbed_linearized beyond exampleDevice _ ⟨?_, ?_, ?_, ?_, trivial⟩
  · rintro - (_ | _) waiting
    · exact absurd waiting (Access.call_ne_transfer (beyond false))
    · rfl
  · intro atStart
    exact absurd atStart.symm (Access.call_ne_transfer (beyond true))
  · rintro - (_ | _) waiting
    · rfl
    · exact absurd waiting.symm (Access.transfer_ne_done _ _)
  · intro atStart
    exact absurd atStart.symm (Access.call_ne_transfer (beyond false))

theorem exampleCalls_written (registers : BitVec 32 → BitVec 32) (order : List Bool)
    (written : true ∈ order ∨ registers 1000 = 7) :
    stateAfter (fun caller => (exampleCalls caller).perform) registers order 1000 = 7 := by
  induction order generalizing registers with
  | nil => simpa [stateAfter] using written
  | cons caller rest ih =>
      refine ih _ ?_
      cases caller <;> simp_all [exampleCalls, Access.perform]

-- Each caller selects its region before the other transfers: both values land in region 2000.
theorem disturbed_update_lost :
    let callers := (start exampleAperture exampleCalls exampleDevice).interleave
      [true, false, true, false]
    (∀ caller, callers.threads caller = .done none) ∧ callers.state.registers 1000 = 0 ∧
      ¬ Linearized exampleCalls exampleDevice callers := by
  have returned : ∀ caller, ((start exampleAperture exampleCalls exampleDevice).interleave
      [true, false, true, false]).threads caller = .done none := by
    intro caller
    cases caller <;> rfl
  refine ⟨returned, rfl, ?_⟩
  rintro ⟨order, -, registers, outcome⟩
  have written : true ∈ order :=
    (mem_order_iff _ _ _ _).mpr ⟨none, (outcome true none).mp (returned true)⟩
  have kept := congrFun registers 1000
  rw [exampleCalls_written _ order (Or.inl written)] at kept
  exact absurd kept (by decide)

end NootedDeck.Mmio
