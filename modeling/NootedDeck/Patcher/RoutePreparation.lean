import NootedDeck.Patcher.RouteFrame
import NootedDeck.Patcher.RouteTruth

set_option autoImplicit false

namespace NootedDeck.Patcher

open Bytes Interleaving Program

structure Erased (origin : Addr) (before after : Machine) : Prop where
  rest : after = { before with memory := after.memory }
  memory : ∀ place, after.memory place = before.memory place ∨
    (place - origin).toNat < codeSize ∧ after.memory place = 0x90

section Erased

variable {host : Host} {origin : Addr} {machine after : Machine}

theorem Erased.refl (origin : Addr) (machine : Machine) : Erased origin machine machine :=
  ⟨rfl, fun _ => Or.inl rfl⟩

theorem Erased.trans {middle : Machine} (one : Erased origin machine middle)
    (two : Erased origin middle after) : Erased origin machine after := by
  constructor
  · rw [two.rest, one.rest]
  · intro place
    rcases two.memory place with same | erased
    · rw [same]
      exact one.memory place
    · exact Or.inr erased

theorem nopBytes_erased {count offset : Nat} (inside : offset + count ≤ codeSize)
    (ran : (nopBytes count (origin + BitVec.ofNat 64 offset)).run machine = some ((), after)) :
    Erased origin machine after := by
  induction count generalizing offset machine with
  | zero =>
      cases ran
      exact .refl origin _
  | succ count ih =>
      simp only [nopBytes, run_bind, run_store, Option.bind_some] at ran
      rw [BitVec.add_assoc, ← BitVec.ofNat_add] at ran
      refine Erased.trans ⟨rfl, fun place => ?_⟩ (ih (by omega) ran)
      have size : codeSize = 24 := rfl
      by_cases here : (place - (origin + BitVec.ofNat 64 offset)).toNat < 1
      · right
        have zero : place - (origin + BitVec.ofNat 64 offset) = 0 :=
          BitVec.eq_of_toNat_eq (Nat.lt_one_iff.mp here)
        obtain rfl := sub_eq_zero.mp zero
        constructor
        · rw [BitVec.add_comm, BitVec.add_sub_cancel, BitVec.toNat_ofNat, Nat.mod_eq_of_lt (by omega)]
          omega
        · simp [Machine.write, Memory.store]
      · exact Or.inl (Memory.store_outside _ _ _ _ (Nat.le_of_not_lt here))

-- An instruction is only looked at while fewer bytes than the limit are behind.
theorem eraseCoverageLoop_erased {count index total : Nat} (short : total < longJump)
    (ran : (eraseCoverageLoop host longJump count index (origin + BitVec.ofNat 64 total) total).run
      machine = some ((), after)) : Erased origin machine after := by
  induction count generalizing index total machine with
  | zero =>
      cases ran
      exact .refl origin _
  | succ count ih =>
      have size : codeSize = 24 ∧ longJump = 14 := ⟨rfl, rfl⟩
      simp only [eraseCoverageLoop, run_bind, run_get, Option.bind_some] at ran
      generalize quickInstructionSize host.decoder machine.memory (origin + BitVec.ofNat 64 total) 1 =
        instSize at ran
      rw [BitVec.add_assoc, ← BitVec.ofNat_add] at ran
      have goOn {middle : Machine} (more : ¬((0 : Int) < longJump ∧ (longJump : Int) ≤ (total + instSize : Nat)))
          (later : (eraseCoverageLoop host longJump count (index + 1)
            (origin + BitVec.ofNat 64 (total + instSize)) (total + instSize)).run middle =
            some ((), after)) : Erased origin middle after := ih (by omega) later
      split_ifs at ran with unknown counter done done
      · cases ran
        exact .refl origin _
      · obtain ⟨_, middle, erasing, later⟩ := run_bind_eq_some.mp ran
        cases later
        exact nopBytes_erased (by omega) erasing
      · obtain ⟨_, middle, erasing, later⟩ := run_bind_eq_some.mp ran
        exact (nopBytes_erased (by omega) erasing).trans (goOn done later)
      · cases ran
        exact .refl origin _
      · exact goOn done ran

theorem nopBytes_total (count : Nat) (address : Addr) (machine : Machine) :
    ∃ after, (nopBytes count address).run machine = some ((), after) := by
  induction count generalizing address machine with
  | zero => exact ⟨machine, rfl⟩
  | succ count ih => exact ih _ _

theorem eraseCoverageLoop_total (host : Host) (limit : Int) (count index total : Nat) (address : Addr)
    (machine : Machine) :
    ∃ after, (eraseCoverageLoop host limit count index address total).run machine =
      some ((), after) := by
  induction count generalizing index total address machine with
  | zero => exact ⟨machine, rfl⟩
  | succ count ih =>
      simp only [eraseCoverageLoop, run_bind, run_get, Option.bind_some]
      obtain ⟨erased, erases⟩ := nopBytes_total 7 address machine
      split_ifs
      · exact ⟨machine, rfl⟩
      · rw [run_bind, erases]
        exact ⟨erased, rfl⟩
      · rw [run_bind, erases]
        exact ih _ _ _ _
      · exact ⟨machine, rfl⟩
      · exact ih _ _ _ _

theorem eraseCoverage_total (host : Host) (origin target : Addr) (machine : Machine) :
    ∃ after, (eraseCoverage host origin target).run machine = some ((), after) := by
  unfold eraseCoverage
  split_ifs
  · exact eraseCoverageLoop_total host _ _ _ _ _ machine
  · exact ⟨machine, rfl⟩

theorem eraseCoverage_erased {target : Addr}
    (ran : (eraseCoverage host origin target).run machine = some ((), after)) :
    Erased origin machine after := by
  unfold eraseCoverage at ran
  split_ifs at ran with hooked
  · rw [eraseCoverageInstPrefix, ← BitVec.add_zero origin] at ran
    exact eraseCoverageLoop_erased (by decide) ran
  · cases ran
    exact .refl origin _

theorem Erased.within {info : Option Nat} (erased : Erased origin machine after) :
    Within host info origin machine after := by
  refine ⟨fun place untouched => ?_, ?_, ?_⟩
  · rcases erased.memory place with same | ⟨inside, -⟩
    · exact same
    · exact absurd (Or.inr (Or.inl inside)) untouched
  · rw [erased.rest]
  · rw [erased.rest]
    exact Or.inl rfl

end Erased

theorem prepare_erased {host : Host} {request : RouteRequest} {origin : Addr}
    {resolved prepared : Machine}
    (prepares : (request.prepare host (some origin)).run resolved = some ((), prepared)) :
    Erased origin resolved prepared := by
  cases request with
  | pattern request => exact eraseCoverage_erased prepares
  | jumpPattern request =>
      cases prepares
      exact .refl origin _

end NootedDeck.Patcher
