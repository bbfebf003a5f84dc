import Mathlib.Logic.Function.Basic
import Mathlib.Logic.Relation

set_option autoImplicit false

-- Every read and every write of the shared state is a step of its own, so the states between two
-- accesses are visible. Parties that only look at the state are observers.

namespace Interleaving

inductive Program (σ α : Type) where
  | done (value : α)
  | panic
  | read (next : σ → Program σ α)
  | write (update : σ → σ) (next : Program σ α)

namespace Program

variable {σ τ α β γ : Type}

def bind : Program σ α → (α → Program σ β) → Program σ β
  | .done value, rest => rest value
  | .panic, _ => .panic
  | .read next, rest => .read fun state => (next state).bind rest
  | .write update next, rest => .write update (next.bind rest)

instance : Monad (Program σ) where
  pure := .done
  bind := bind

def get : Program σ σ := .read .done

def modify (update : σ → σ) : Program σ Unit := .write update (.done ())

def returned : Program σ α → Option α
  | .done value => some value
  | .panic | .read _ | .write _ _ => none

theorem returned_eq_some {program : Program σ α} {value : α} :
    program.returned = some value ↔ program = .done value := by
  cases program <;> simp [returned]

def run : Program σ α → σ → Option (α × σ)
  | .done value, state => some (value, state)
  | .panic, _ => none
  | .read next, state => (next state).run state
  | .write update next, state => next.run (update state)

@[simp] theorem run_pure (value : α) (state : σ) :
    (pure value : Program σ α).run state = some (value, state) := rfl

@[simp] theorem run_panic (state : σ) : (panic : Program σ α).run state = none := rfl

@[simp] theorem run_get (state : σ) : (get : Program σ σ).run state = some (state, state) := rfl

@[simp] theorem run_modify (update : σ → σ) (state : σ) :
    (modify update).run state = some ((), update state) := rfl

@[simp] theorem run_bind (program : Program σ α) (rest : α → Program σ β) (state : σ) :
    (program >>= rest).run state =
      (program.run state).bind fun result => (rest result.1).run result.2 := by
  change (program.bind rest).run state = _
  induction program generalizing state with
  | done value => rfl
  | panic => rfl
  | read next ih => exact ih state state
  | write update next ih => exact ih (update state)

theorem run_bind_eq_some {program : Program σ α} {rest : α → Program σ β} {state final : σ}
    {value : β} :
    (program >>= rest).run state = some (value, final) ↔
      ∃ first middle, program.run state = some (first, middle) ∧
        (rest first).run middle = some (value, final) := by
  rw [run_bind, Option.bind_eq_some_iff, Prod.exists]

def Maintains (good : σ → Prop) : Program σ α → σ → Prop
  | .done _, state => good state
  | .panic, state => good state
  | .read next, state => good state ∧ (next state).Maintains good state
  | .write update next, state => good state ∧ next.Maintains good (update state)

theorem Maintains.start {good : σ → Prop} {program : Program σ α} {state : σ}
    (maintains : program.Maintains good state) : good state := by
  cases program with
  | done | panic => exact maintains
  | read | write => exact maintains.1

theorem Maintains.finish {good : σ → Prop} {program : Program σ α} {state final : σ} {value : α}
    (maintains : program.Maintains good state) (ran : program.run state = some (value, final)) :
    good final := by
  induction program generalizing state with
  | done => cases ran; exact maintains
  | panic => cases ran
  | read next ih => exact ih state maintains.2 ran
  | write update next ih => exact ih maintains.2 ran

theorem Maintains.imp {good better : σ → Prop} {program : Program σ α} {state : σ}
    (maintains : program.Maintains good state) (implies : ∀ state, good state → better state) :
    program.Maintains better state := by
  induction program generalizing state with
  | done | panic => exact implies _ maintains
  | read next ih => exact ⟨implies _ maintains.1, ih state maintains.2⟩
  | write update next ih => exact ⟨implies _ maintains.1, ih maintains.2⟩

theorem maintains_of_forall {good : σ → Prop} (program : Program σ α) (state : σ)
    (always : ∀ state, good state) : program.Maintains good state := by
  induction program generalizing state with
  | done | panic => exact always state
  | read next ih => exact ⟨always state, ih state state⟩
  | write update next ih => exact ⟨always state, ih (update state)⟩

@[simp] theorem maintains_get_bind (good : σ → Prop) (rest : σ → Program σ α) (state : σ) :
    (get >>= rest).Maintains good state ↔ good state ∧ (rest state).Maintains good state := Iff.rfl

@[simp] theorem maintains_modify_bind (good : σ → Prop) (update : σ → σ) (rest : Unit → Program σ α)
    (state : σ) :
    (modify update >>= rest).Maintains good state ↔
      good state ∧ (rest ()).Maintains good (update state) := Iff.rfl

theorem maintains_bind (good : σ → Prop) (program : Program σ α) (rest : α → Program σ β)
    (state : σ) :
    (program >>= rest).Maintains good state ↔
      program.Maintains good state ∧
        ∀ value final, program.run state = some (value, final) →
          (rest value).Maintains good final := by
  change (program.bind rest).Maintains good state ↔ _
  induction program generalizing state with
  | done value =>
      constructor
      · intro maintains
        refine ⟨maintains.start, ?_⟩
        rintro _ _ ⟨⟩
        exact maintains
      · exact fun both => both.2 value state rfl
  | panic => simp [bind, Maintains, run]
  | read next ih => simp only [bind, Maintains, run, ih, and_assoc]
  | write update next ih => simp only [bind, Maintains, run, ih, and_assoc]

theorem Maintains.bind {good : σ → Prop} {program : Program σ α} {rest : α → Program σ β} {state : σ}
    (first : program.Maintains good state)
    (second : ∀ value final, program.run state = some (value, final) → good final →
      (rest value).Maintains good final) : (program >>= rest).Maintains good state :=
  (maintains_bind good program rest state).mpr
    ⟨first, fun value final ran => second value final ran (first.finish ran)⟩

def focus (view : τ → σ) (put : σ → τ → τ) : Program σ α → Program τ α
  | .done value => .done value
  | .panic => .panic
  | .read next => .read fun state => (next (view state)).focus view put
  | .write update next => .write (fun state => put (update (view state)) state) (next.focus view put)

theorem run_focus {view : τ → σ} {put : σ → τ → τ} (view_put : ∀ part state, view (put part state) = part)
    (put_put : ∀ part other state, put part (put other state) = put part state)
    (put_view : ∀ state, put (view state) state = state) (program : Program σ α) (state : τ) :
    (program.focus view put).run state =
      (program.run (view state)).map fun result => (result.1, put result.2 state) := by
  induction program generalizing state with
  | done value => simp [focus, run, put_view]
  | panic => rfl
  | read next ih => exact ih (view state) state
  | write update next ih => simp only [focus, run, ih, view_put, put_put]

end Program

structure Config (σ ω α : Type) where
  program : Program σ α
  state : σ
  seen : List ω

section Observed

variable {σ ω α : Type}

inductive Step (observes : σ → ω → Prop) : Config σ ω α → Config σ ω α → Prop
  | read (next : σ → Program σ α) (state : σ) (seen : List ω) :
      Step observes ⟨.read next, state, seen⟩ ⟨next state, state, seen⟩
  | write (update : σ → σ) (next : Program σ α) (state : σ) (seen : List ω) :
      Step observes ⟨.write update next, state, seen⟩ ⟨next, update state, seen⟩
  | look (program : Program σ α) (state : σ) (seen : List ω) (sight : ω)
      (possible : observes state sight) :
      Step observes ⟨program, state, seen⟩ ⟨program, state, seen ++ [sight]⟩

def Reachable (observes : σ → ω → Prop) : Config σ ω α → Config σ ω α → Prop :=
  Relation.ReflTransGen (Step observes)

theorem Reachable.maintains {observes : σ → ω → Prop} {good : σ → Prop} {fine : ω → Prop}
    {start current : Config σ ω α} (reached : Reachable observes start current)
    (looks : ∀ state sight, good state → observes state sight → fine sight)
    (maintains : start.program.Maintains good start.state)
    (before : ∀ sight ∈ start.seen, fine sight) :
    current.program.Maintains good current.state ∧ ∀ sight ∈ current.seen, fine sight := by
  induction reached with
  | refl => exact ⟨maintains, before⟩
  | tail _ step ih =>
      obtain ⟨holds, seen⟩ := ih
      cases step with
      | read | write => exact ⟨holds.2, seen⟩
      | look program state earlier sight possible =>
          refine ⟨holds, fun other member => ?_⟩
          rcases List.mem_append.mp member with member | member
          · exact seen other member
          · rw [List.mem_singleton.mp member]
            exact looks state sight holds.start possible

theorem reachable_bind {β : Type} {observes : σ → ω → Prop} {program : Program σ α}
    {rest : α → Program σ β} {state middle : σ} {value : α}
    (ran : program.run state = some (value, middle)) (seen : List ω) :
    Reachable observes ⟨program >>= rest, state, seen⟩ ⟨rest value, middle, seen⟩ := by
  change Reachable observes ⟨program.bind rest, state, seen⟩ _
  induction program generalizing state with
  | done => cases ran; exact .refl
  | panic => cases ran
  | read next ih => exact .head (.read _ state seen) (ih state ran)
  | write update next ih => exact .head (.write update _ state seen) (ih ran)

theorem reachable_run {observes : σ → ω → Prop} {program : Program σ α} {state final : σ}
    {value : α} (ran : program.run state = some (value, final)) (seen : List ω) :
    Reachable observes ⟨program, state, seen⟩ ⟨.done value, final, seen⟩ := by
  induction program generalizing state with
  | done => cases ran; exact .refl
  | panic => cases ran
  | read next ih => exact .head (.read next state seen) (ih state ran)
  | write update next ih => exact .head (.write update next state seen) (ih ran)

end Observed

structure Pool (ι σ α : Type) where
  threads : ι → Program σ α
  state : σ

namespace Pool

variable {ι σ α : Type} [DecidableEq ι]

def advance (pool : Pool ι σ α) (thread : ι) : Pool ι σ α :=
  match pool.threads thread with
  | .read next => { pool with threads := Function.update pool.threads thread (next pool.state) }
  | .write update next => ⟨Function.update pool.threads thread next, update pool.state⟩
  | .done _ | .panic => pool

theorem advance_read {pool : Pool ι σ α} {thread : ι} {next : σ → Program σ α}
    (reads : pool.threads thread = .read next) :
    pool.advance thread =
      ⟨Function.update pool.threads thread (next pool.state), pool.state⟩ := by
  rw [advance, reads]

theorem advance_write {pool : Pool ι σ α} {thread : ι} {update : σ → σ} {next : Program σ α}
    (writes : pool.threads thread = .write update next) :
    pool.advance thread = ⟨Function.update pool.threads thread next, update pool.state⟩ := by
  rw [advance, writes]

theorem advance_done {pool : Pool ι σ α} {thread : ι} {value : α}
    (finished : pool.threads thread = .done value) : pool.advance thread = pool := by
  rw [advance, finished]

def interleave (pool : Pool ι σ α) (schedule : List ι) : Pool ι σ α := schedule.foldl advance pool

def Allows (allowed : Pool ι σ α → ι → Prop) : Pool ι σ α → List ι → Prop
  | _, [] => True
  | pool, thread :: rest => allowed pool thread ∧ Allows allowed (pool.advance thread) rest

instance Allows.decidable {allowed : Pool ι σ α → ι → Prop}
    [decides : ∀ pool thread, Decidable (allowed pool thread)] :
    ∀ (pool : Pool ι σ α) (schedule : List ι), Decidable (Allows allowed pool schedule)
  | _, [] => .isTrue trivial
  | pool, thread :: rest =>
      @instDecidableAnd _ _ (decides pool thread) (Allows.decidable (pool.advance thread) rest)

theorem interleave_invariant {allowed : Pool ι σ α → ι → Prop} (invariant : Pool ι σ α → Prop)
    (step : ∀ pool thread, invariant pool → allowed pool thread → invariant (pool.advance thread))
    (schedule : List ι) (pool : Pool ι σ α) (start : invariant pool)
    (allows : Allows allowed pool schedule) : invariant (pool.interleave schedule) := by
  induction schedule generalizing pool with
  | nil => exact start
  | cons thread rest ih => exact ih (pool.advance thread) (step pool thread start allows.1) allows.2

end Pool

section Sequential

variable {ι σ α : Type} (act : ι → σ → α × σ)

def stateAfter (state : σ) (order : List ι) : σ := order.foldl (fun state actor => (act actor state).2) state

def outcomes : σ → List ι → List (ι × α)
  | _, [] => []
  | state, actor :: rest => (actor, (act actor state).1) :: outcomes (act actor state).2 rest

theorem stateAfter_concat (state : σ) (order : List ι) (actor : ι) :
    stateAfter act state (order ++ [actor]) = (act actor (stateAfter act state order)).2 := by
  simp [stateAfter]

theorem outcomes_concat (state : σ) (order : List ι) (actor : ι) :
    outcomes act state (order ++ [actor]) =
      outcomes act state order ++ [(actor, (act actor (stateAfter act state order)).1)] := by
  induction order generalizing state with
  | nil => rfl
  | cons first rest ih => simp [outcomes, stateAfter, ih]

theorem mem_order_iff (state : σ) (order : List ι) (actor : ι) :
    actor ∈ order ↔ ∃ value, (actor, value) ∈ outcomes act state order := by
  induction order generalizing state with
  | nil => simp [outcomes]
  | cons first rest ih => simp [outcomes, ih (act first state).2, exists_or]

end Sequential

end Interleaving
