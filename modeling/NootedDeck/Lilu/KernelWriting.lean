import Mathlib.Data.BitVec
import NootedDeck.Shared.Locking

set_option autoImplicit false

namespace NootedDeck.Lilu

open Locking

def cr0WP : BitVec 64 := BitVec.twoPow 64 16

structure Processor where
  interrupts : Bool
  cr0 : BitVec 64

def Processor.writeProtected (processor : Processor) : Bool := processor.cr0 &&& cr0WP != 0

-- `interruptsDisabled` and `writeProtectionDisabled` are static; `faulted` records a write to
-- protected memory.
structure Kernel (ι μ : Type) where
  processors : ι → Processor
  interruptsDisabled : Bool
  writeProtectionDisabled : Bool
  memory : μ
  faulted : Bool

variable {ι μ : Type} [DecidableEq ι]

namespace Kernel

def setProcessor (kernel : Kernel ι μ) (cpu : ι) (processor : Processor) : Kernel ι μ :=
  { kernel with processors := Function.update kernel.processors cpu processor }

-- `honours`: under some hypervisors writes to CR0 have no effect.
def setCr0 (honours : ι → Bool) (cpu : ι) (value : BitVec 64) (kernel : Kernel ι μ) : Kernel ι μ :=
  if honours cpu then kernel.setProcessor cpu { kernel.processors cpu with cr0 := value } else kernel

def store (cpu : ι) (update : μ → μ) (kernel : Kernel ι μ) : Kernel ι μ :=
  if (kernel.processors cpu).writeProtected then { kernel with faulted := true }
  else { kernel with memory := update kernel.memory }

end Kernel

abbrev Code (ι μ α : Type) := Thread (Kernel ι μ) α

def setInterrupts (cpu : ι) (enable : Bool) : Code ι μ Bool := do
  let kernel ← Thread.get
  Thread.modify fun now => now.setProcessor cpu { now.processors cpu with interrupts := enable }
  pure ((kernel.processors cpu).interrupts != enable)

def setWPBit (honours : ι → Bool) (cpu : ι) (enable : Bool) : Code ι μ Bool := do
  let kernel ← Thread.get
  let cr0 := (kernel.processors cpu).cr0
  if enable = true ∧ kernel.writeProtectionDisabled = false then do
    Thread.modify (Kernel.setCr0 honours cpu (cr0 ||| cr0WP))
    let now ← Thread.get
    pure (now.processors cpu).writeProtected
  else do
    Thread.onlyIf (!enable) do
      Thread.modify fun now => { now with writeProtectionDisabled := cr0 &&& cr0WP == 0 }
      Thread.onlyIf (cr0 &&& cr0WP != 0)
        (Thread.modify (Kernel.setCr0 honours cpu (cr0 &&& ~~~cr0WP)))
    let now ← Thread.get
    pure (!(now.processors cpu).writeProtected)

def beginWriting (lock : Bool) (cpu : ι) : Code ι μ Unit := do
  Thread.onlyIf lock Thread.lock
  let changed ← setInterrupts cpu false
  Thread.modify fun now => { now with interruptsDisabled := !changed }

def endWriting (lock : Bool) (cpu : ι) : Code ι μ Unit := do
  let kernel ← Thread.get
  Thread.onlyIf (!kernel.interruptsDisabled) do
    let _ ← setInterrupts cpu true
    pure ()
  Thread.onlyIf lock Thread.unlock

def setKernelWriting (honours : ι → Bool) (lock : Bool) (cpu : ι) (enable : Bool) :
    Code ι μ Bool := do
  Thread.onlyIf enable (beginWriting lock cpu)
  let success ← setWPBit honours cpu (!enable)
  -- Where the bit cannot be changed, enabling ends as disabling does.
  Thread.onlyIf (!(enable && success)) (endWriting lock cpu)
  pure success

def stores (cpu : ι) : List (μ → μ) → Code ι μ Unit
  | [] => pure ()
  | update :: rest => do
      Thread.modify (Kernel.store cpu update)
      stores cpu rest

def patch (honours : ι → Bool) (lock : Bool) (cpu : ι) (updates : List (μ → μ)) : Code ι μ Bool := do
  let success ← setKernelWriting honours lock cpu true
  if success then do
    stores cpu updates
    let _ ← setKernelWriting honours lock cpu false
    pure true
  else pure false

def patches (honours : ι → Bool) (lock : Bool) (cpu : ι) :
    List (List (μ → μ)) → Code ι μ (List Bool)
  | [] => pure []
  | updates :: rest => do
      let success ← patch honours lock cpu updates
      let more ← patches honours lock cpu rest
      pure (success :: more)

section Bits

theorem cr0WP_clear (cr0 : BitVec 64) : (cr0 &&& ~~~cr0WP) &&& cr0WP = 0 := by
  rw [BitVec.and_assoc, BitVec.and_comm (~~~cr0WP), BitVec.and_not_self]
  exact BitVec.and_zero

theorem cr0WP_bit (cr0 : BitVec 64) : cr0 &&& cr0WP = 0 ↔ cr0.getLsbD 16 = false := by
  rw [cr0WP, BitVec.and_twoPow]
  cases cr0.getLsbD 16 <;> decide

theorem getLsbD_cr0WP (index : Nat) : cr0WP.getLsbD index = decide (16 = index) := by
  simp [cr0WP, BitVec.getLsbD_twoPow]

theorem cr0WP_set_again {cr0 : BitVec 64} (set : cr0 &&& cr0WP ≠ 0) :
    (cr0 &&& ~~~cr0WP) ||| cr0WP = cr0 := by
  have bit : cr0.getLsbD 16 = true := by
    rw [ne_eq, cr0WP_bit, Bool.not_eq_false] at set
    exact set
  apply BitVec.eq_of_getLsbD_eq
  intro index within
  simp only [BitVec.getLsbD_or, BitVec.getLsbD_and, BitVec.getLsbD_not, getLsbD_cr0WP,
    decide_eq_true within, Bool.true_and]
  by_cases same : 16 = index
  · subst same
    simp only [bit, decide_true, Bool.or_true]
  · simp only [same, decide_false, Bool.not_false, Bool.and_true, Bool.or_false]

theorem cr0WP_clear_of_clear {cr0 : BitVec 64} (clear : cr0 &&& cr0WP = 0) :
    cr0 &&& ~~~cr0WP = cr0 := by
  have bit := (cr0WP_bit cr0).mp clear
  apply BitVec.eq_of_getLsbD_eq
  intro index within
  simp only [BitVec.getLsbD_and, BitVec.getLsbD_not, getLsbD_cr0WP, decide_eq_true within,
    Bool.true_and]
  by_cases same : 16 = index
  · subst same
    simp only [bit, Bool.false_and]
  · simp only [same, decide_false, Bool.not_false, Bool.and_true]

theorem writeProtected_iff (processor : Processor) :
    processor.writeProtected = true ↔ processor.cr0 &&& cr0WP ≠ 0 := by
  simp [Processor.writeProtected]

theorem writeProtected_clear (interrupts : Bool) (cr0 : BitVec 64) :
    Processor.writeProtected ⟨interrupts, cr0 &&& ~~~cr0WP⟩ = false := by
  simp [Processor.writeProtected, cr0WP_clear]

theorem cr0_clear_of_unprotected {processor : Processor}
    (unprotected : processor.writeProtected = false) : processor.cr0 &&& ~~~cr0WP = processor.cr0 := by
  apply cr0WP_clear_of_clear
  simpa [Processor.writeProtected] using unprotected

end Bits

section Protocol

variable (honours : ι → Bool) (initial : ι → Processor)

def Restored (kernel : Kernel ι μ) : Prop := kernel.processors = initial

def Relies (cpu : ι) (before after : Kernel ι μ) : Prop :=
  after.processors cpu = before.processors cpu

def Guarantees (cpu : ι) (before after : Kernel ι μ) : Prop :=
  (∀ other, other ≠ cpu → after.processors other = before.processors other) ∧
    after.faulted = before.faulted

def granted (cpu : ι) : Bool := honours cpu || !(initial cpu).writeProtected

structure Quiet (cpu : ι) (kernel : Kernel ι μ) : Prop where
  processors : kernel.processors = Function.update initial cpu ⟨false, (initial cpu).cr0⟩
  interruptsDisabled : kernel.interruptsDisabled = !(initial cpu).interrupts

structure Writing (cpu : ι) (kernel : Kernel ι μ) : Prop where
  processors : kernel.processors =
    Function.update initial cpu ⟨false, (initial cpu).cr0 &&& ~~~cr0WP⟩
  interruptsDisabled : kernel.interruptsDisabled = !(initial cpu).interrupts
  writeProtectionDisabled : kernel.writeProtectionDisabled = !(initial cpu).writeProtected
  granted : granted honours initial cpu = true

variable {honours initial} {cpu : ι}

omit [DecidableEq ι] in
theorem compatible : Pool.Compatible (@Relies ι μ) Guarantees := by
  constructor
  · intro cpu kernel
    rfl
  · intro cpu first second third before after
    exact after.trans before
  · intro cpu other different before after guaranteed
    exact guaranteed.1 other (Ne.symm different)

theorem guarantees_setProcessor (kernel : Kernel ι μ) (processor : Processor) :
    Guarantees cpu kernel (kernel.setProcessor cpu processor) :=
  ⟨fun _ different => Function.update_of_ne different .., rfl⟩

theorem guarantees_setCr0 (kernel : Kernel ι μ) (value : BitVec 64) :
    Guarantees cpu kernel (kernel.setCr0 honours cpu value) := by
  unfold Kernel.setCr0
  split
  · exact guarantees_setProcessor kernel _
  · exact ⟨fun _ _ => rfl, rfl⟩

omit [DecidableEq ι] in
theorem guarantees_static (kernel : Kernel ι μ) (interrupts protection : Bool) :
    Guarantees cpu kernel { kernel with
      interruptsDisabled := interrupts, writeProtectionDisabled := protection } :=
  ⟨fun _ _ => rfl, rfl⟩

theorem setWPBit_false_safe {kernel : Kernel ι μ} {post : Bool → Bool → Kernel ι μ → Prop}
    (next : ∀ after : Kernel ι μ,
      after.processors = (if honours cpu || !(kernel.processors cpu).writeProtected then
        Function.update kernel.processors cpu
          { kernel.processors cpu with cr0 := (kernel.processors cpu).cr0 &&& ~~~cr0WP }
        else kernel.processors) →
      after.interruptsDisabled = kernel.interruptsDisabled →
      after.writeProtectionDisabled = !(kernel.processors cpu).writeProtected →
      post true (honours cpu || !(kernel.processors cpu).writeProtected) after) :
    Thread.Safe (Restored initial) (Relies cpu) (Guarantees cpu) post true
      (setWPBit honours cpu false) kernel := by
  simp only [setWPBit, Bool.false_eq_true, false_and, if_false, Bool.not_false, Thread.onlyIf_true,
    Thread.bind_assoc, Thread.safe_get_bind, Thread.safe_modify_bind]
  refine ⟨guarantees_static kernel _ _, ?_⟩
  have bit : ((kernel.processors cpu).cr0 &&& cr0WP == 0) = !(kernel.processors cpu).writeProtected := by
    simp [Processor.writeProtected, bne]
  simp only [bit, bne, Bool.not_not]
  cases shielded : (kernel.processors cpu).writeProtected with
  | false =>
      simp only [shielded, Bool.not_false, Bool.or_true, if_true,
        cr0_clear_of_unprotected shielded, Function.update_eq_self] at next
      simp only [Thread.onlyIf_false, Thread.pure_bind, Thread.safe_get_bind, Thread.safe_pure,
        shielded, Bool.not_false]
      exact next _ rfl rfl rfl
  | true =>
      simp only [shielded, Bool.not_true, Bool.or_false] at next
      simp only [Thread.onlyIf_true, Thread.safe_get_bind, Thread.safe_modify_bind, Thread.safe_pure]
      refine ⟨guarantees_setCr0 _ _, ?_⟩
      cases honoured : honours cpu with
      | false =>
          simp only [honoured, Bool.false_eq_true, if_false] at next
          simp only [Kernel.setCr0, honoured, Bool.false_eq_true, if_false, shielded, Bool.not_true]
          exact next _ rfl rfl rfl
      | true =>
          simp only [honoured, if_true] at next
          simp only [Kernel.setCr0, honoured, if_true, Kernel.setProcessor, Function.update_self,
            writeProtected_clear, Bool.not_false]
          exact next _ rfl rfl rfl

theorem setWPBit_true_safe {kernel : Kernel ι μ} {post : Bool → Bool → Kernel ι μ → Prop}
    (next : ∀ success, ∀ after : Kernel ι μ,
      after.processors = (if honours cpu && !kernel.writeProtectionDisabled then
        Function.update kernel.processors cpu
          { kernel.processors cpu with cr0 := (kernel.processors cpu).cr0 ||| cr0WP }
        else kernel.processors) →
      after.interruptsDisabled = kernel.interruptsDisabled → post true success after) :
    Thread.Safe (Restored initial) (Relies cpu) (Guarantees cpu) post true
      (setWPBit honours cpu true) kernel := by
  cases remembered : kernel.writeProtectionDisabled with
  | false =>
      simp only [remembered, Bool.not_false, Bool.and_true] at next
      simp only [setWPBit, remembered, and_self, if_true, Thread.safe_get_bind,
        Thread.safe_modify_bind, Thread.safe_pure]
      refine ⟨guarantees_setCr0 _ _, next _ _ ?_ ?_⟩
      · unfold Kernel.setCr0
        split <;> rfl
      · unfold Kernel.setCr0
        split <;> rfl
  | true =>
      simp only [remembered, Bool.not_true, Bool.and_false, Bool.false_eq_true, if_false] at next
      simp only [setWPBit, remembered, Bool.true_eq_false, and_false, if_false, Bool.not_true,
        Thread.onlyIf_false, Thread.pure_bind, Thread.safe_get_bind, Thread.safe_pure]
      exact next _ kernel rfl rfl

theorem Quiet.endWriting_safe {kernel : Kernel ι μ} (quiet : Quiet initial cpu kernel) :
    Thread.Safe (Restored initial) (Relies cpu) (Guarantees cpu) (fun held _ _ => held = false) true
      (endWriting true cpu) kernel := by
  simp only [endWriting, setInterrupts, Thread.onlyIf_true, Thread.bind_assoc, Thread.safe_get_bind,
    quiet.interruptsDisabled, Bool.not_not]
  cases enabled : (initial cpu).interrupts with
  | false =>
      have restored : Restored initial kernel := by
        rw [Restored, quiet.processors, ← enabled]
        exact Function.update_eq_self cpu initial
      exact ⟨restored, fun _ _ => rfl⟩
  | true =>
      simp only [Thread.onlyIf_true, Thread.bind_assoc, Thread.safe_get_bind, Thread.safe_modify_bind,
        Thread.pure_bind]
      refine ⟨guarantees_setProcessor kernel _, ?_, fun _ _ => rfl⟩
      simp only [Restored, Kernel.setProcessor, quiet.processors, Function.update_self,
        Function.update_idem]
      rw [← enabled]
      exact Function.update_eq_self cpu initial

theorem Quiet.writeProtected {kernel : Kernel ι μ} (quiet : Quiet initial cpu kernel) :
    (kernel.processors cpu).writeProtected = (initial cpu).writeProtected := by
  rw [quiet.processors, Function.update_self]
  rfl

theorem Quiet.setWPBit_safe {kernel : Kernel ι μ} (quiet : Quiet initial cpu kernel) :
    Thread.Safe (Restored initial) (Relies cpu) (Guarantees cpu)
      (fun held success after => held = true ∧ success = granted honours initial cpu ∧
        (success = true → Writing honours initial cpu after) ∧
        (success = false → Quiet initial cpu after))
      true (setWPBit honours cpu false) kernel := by
  apply setWPBit_false_safe
  intro after processors interrupts protection
  rw [quiet.writeProtected] at processors protection ⊢
  rw [quiet.interruptsDisabled] at interrupts
  refine ⟨rfl, rfl, fun success => ?_, fun failure => ?_⟩
  · rw [if_pos success] at processors
    refine ⟨?_, interrupts, protection, success⟩
    simp only [processors, quiet.processors, Function.update_self, Function.update_idem]
  · rw [if_neg (by simp [failure])] at processors
    exact ⟨processors.trans quiet.processors, interrupts⟩

theorem setKernelWriting_true_safe (kernel : Kernel ι μ) :
    Thread.Safe (Restored initial) (Relies cpu) (Guarantees cpu)
      (fun held success after => success = granted honours initial cpu ∧ held = success ∧
        (success = true → Writing honours initial cpu after))
      false (setKernelWriting honours true cpu true) kernel := by
  simp only [setKernelWriting, beginWriting, setInterrupts, Thread.onlyIf_true, Thread.bind_assoc,
    Thread.safe_lock_bind, Thread.safe_get_bind, Thread.safe_modify_bind, Thread.pure_bind,
    Bool.not_true, Bool.true_and]
  intro taken _ restored
  refine ⟨guarantees_setProcessor taken _, guarantees_static _ _ _, ?_⟩
  have quiet : Quiet initial cpu { taken.setProcessor cpu
      { taken.processors cpu with interrupts := false } with
        interruptsDisabled := !((taken.processors cpu).interrupts != false) } := by
    rw [← restored]
    constructor
    · rfl
    · simp
  refine quiet.setWPBit_safe.bind (compatible.refl cpu) ?_
  rintro _ success after ⟨rfl, answer, writing, failing⟩
  cases success with
  | true => exact ⟨answer, rfl, writing⟩
  | false =>
      refine (failing rfl).endWriting_safe.bind (compatible.refl cpu) ?_
      rintro _ _ last rfl
      exact fun _ _ => ⟨answer, rfl, fun success => by cases success⟩

theorem Writing.setKernelWriting_safe {kernel : Kernel ι μ}
    (writing : Writing honours initial cpu kernel) :
    Thread.Safe (Restored initial) (Relies cpu) (Guarantees cpu) (fun held _ _ => held = false) true
      (setKernelWriting honours true cpu false) kernel := by
  have back : Thread.Safe (Restored initial) (Relies cpu) (Guarantees cpu)
      (fun held _ after => held = true ∧ Quiet initial cpu after) true (setWPBit honours cpu true)
      kernel := by
    apply setWPBit_true_safe
    intro success after processors interrupts
    refine ⟨rfl, ?_, interrupts.trans writing.interruptsDisabled⟩
    rw [processors, writing.processors, writing.writeProtectionDisabled, Bool.not_not,
      Function.update_self, Function.update_idem]
    cases shielded : (initial cpu).writeProtected with
    | false =>
        rw [Bool.and_false, if_neg (by decide), cr0_clear_of_unprotected shielded]
    | true =>
        have honoured : honours cpu = true := by
          simpa [Lilu.granted, shielded] using writing.granted
        rw [honoured, if_pos (by decide), cr0WP_set_again ((writeProtected_iff _).mp shielded)]
  simp only [setKernelWriting, Thread.onlyIf_false, Thread.pure_bind, Bool.not_false,
    Bool.false_and, Thread.onlyIf_true]
  refine back.bind (compatible.refl cpu) ?_
  rintro _ success after ⟨rfl, quiet⟩
  refine quiet.endWriting_safe.bind (compatible.refl cpu) ?_
  rintro _ _ last rfl
  exact fun _ _ => rfl

theorem Writing.stores_safe {kernel : Kernel ι μ} (writing : Writing honours initial cpu kernel)
    (updates : List (μ → μ)) :
    Thread.Safe (Restored initial) (Relies cpu) (Guarantees cpu)
      (fun held _ after => held = true ∧ Writing honours initial cpu after) true
      (stores cpu updates) kernel := by
  induction updates generalizing kernel with
  | nil => exact ⟨rfl, writing⟩
  | cons update rest ih =>
      have writable : (kernel.processors cpu).writeProtected = false := by
        rw [writing.processors, Function.update_self, writeProtected_clear]
      simp only [stores, Thread.safe_modify_bind, Kernel.store, writable, Bool.false_eq_true,
        if_false]
      constructor
      · exact ⟨fun _ _ => rfl, rfl⟩
      · exact ih ⟨writing.processors, writing.interruptsDisabled, writing.writeProtectionDisabled,
          writing.granted⟩

theorem patch_safe (updates : List (μ → μ)) (kernel : Kernel ι μ) :
    Thread.Safe (Restored initial) (Relies cpu) (Guarantees cpu)
      (fun held success _ => held = false ∧ success = granted honours initial cpu) false
      (patch honours true cpu updates) kernel := by
  refine (setKernelWriting_true_safe kernel).bind (compatible.refl cpu) ?_
  rintro held success after ⟨answer, rfl, writing⟩
  cases held with
  | false => exact fun _ _ => ⟨rfl, answer⟩
  | true =>
      simp only [if_true]
      refine ((writing rfl).stores_safe updates).bind (compatible.refl cpu) ?_
      rintro _ _ stored ⟨rfl, writing⟩
      refine writing.setKernelWriting_safe.bind (compatible.refl cpu) ?_
      rintro _ _ last rfl
      exact fun _ _ => ⟨rfl, answer⟩

theorem patches_safe (calls : List (List (μ → μ))) (kernel : Kernel ι μ) :
    Thread.Safe (Restored initial) (Relies cpu) (Guarantees cpu)
      (fun held results _ => held = false ∧
        results = List.replicate calls.length (granted honours initial cpu)) false
      (patches honours true cpu calls) kernel := by
  induction calls generalizing kernel with
  | nil => exact fun _ _ => ⟨rfl, rfl⟩
  | cons updates rest ih =>
      refine (patch_safe updates kernel).bind (compatible.refl cpu) ?_
      rintro _ success after ⟨rfl, answer⟩
      refine (ih after).bind (compatible.refl cpu) ?_
      rintro _ results last ⟨rfl, answers⟩
      exact fun _ _ => ⟨rfl, by rw [answer, answers]; rfl⟩

section Pools

variable (honours : ι → Bool) (kernel : Kernel ι μ) (calls : ι → List (List (μ → μ)))

def patchers (lock : Bool) (schedule : List ι) : Pool ι (Kernel ι μ) (List Bool) :=
  Pool.interleave ⟨fun cpu => patches honours lock cpu (calls cpu), kernel, none⟩ schedule

theorem patchers_sound (schedule : List ι) :
    Pool.Sound (Restored kernel.processors) Relies Guarantees
      (fun cpu held results _ => held = false ∧
        results = List.replicate (calls cpu).length (granted honours kernel.processors cpu))
      (patchers honours kernel calls true schedule) := by
  apply Pool.Sound.interleave compatible
  constructor
  · intro _
    rfl
  · intro cpu
    exact patches_safe (calls cpu) kernel

def Undisturbed (owner : Option ι) (state : Kernel ι μ) : Prop :=
  state.faulted = kernel.faulted ∧
    ∀ cpu, owner ≠ some cpu → state.processors cpu = kernel.processors cpu

theorem patchers_undisturbed (schedule : List ι) :
    Undisturbed kernel (patchers honours kernel calls true schedule).owner
      (patchers honours kernel calls true schedule).state := by
  apply (patchers_sound honours kernel calls []).invariant compatible (Undisturbed kernel)
  · intro cpu state unlocked
    exact ⟨unlocked.1, fun other _ => unlocked.2 other (by simp)⟩
  · intro cpu before after held guaranteed
    refine ⟨guaranteed.2.trans held.1, fun other different => ?_⟩
    have apart : other ≠ cpu := fun same => different (congrArg some same.symm)
    exact (guaranteed.1 other apart).trans (held.2 other different)
  · intro cpu state held restored
    exact ⟨held.1, fun other _ => congrFun restored other⟩
  · exact ⟨rfl, fun _ _ => rfl⟩

/--
However the patches of any number of processors interleave: no write meets protected memory, every
processor but the one that holds the lock has its interrupts and its write protection as they were,
and a patch is refused exactly where write protection is on and cannot be turned off.
-/
theorem patches_restore (schedule : List ι) :
    (patchers honours kernel calls true schedule).state.faulted = kernel.faulted ∧
      (∀ cpu, (patchers honours kernel calls true schedule).owner ≠ some cpu →
        (patchers honours kernel calls true schedule).state.processors cpu =
          kernel.processors cpu) ∧
      ∀ cpu results, (patchers honours kernel calls true schedule).threads cpu = .done results →
        (patchers honours kernel calls true schedule).owner ≠ some cpu ∧
          results = List.replicate (calls cpu).length
            (honours cpu || !(kernel.processors cpu).writeProtected) := by
  obtain ⟨unfaulted, processors⟩ := patchers_undisturbed honours kernel calls schedule
  refine ⟨unfaulted, processors, fun cpu results done => ?_⟩
  obtain ⟨released, answers⟩ := (patchers_sound honours kernel calls schedule).finished compatible done
  exact ⟨of_decide_eq_false released, answers⟩

end Pools

-- Without the lock a processor can take over what another one remembered: the first one had its
-- interrupts on and ends with them off.
example :
    let kernel : Kernel Bool Unit :=
      ⟨fun cpu => ⟨cpu, cr0WP⟩, false, false, (), false⟩
    let pool := patchers (fun _ => true) kernel (fun _ => [[]]) false
      (List.replicate 7 true ++ List.replicate 7 false ++ List.replicate 7 true ++
        List.replicate 7 false)
    (pool.state.processors true).interrupts = false ∧ pool.threads true = .done [true] := by
  constructor <;> rfl

end Protocol

end NootedDeck.Lilu
