import NootedDeck.Shared.Program

set_option autoImplicit false

-- What a program may do to the shared state is its guarantee; what it counts on from the others is
-- its rely. Each program is checked on its own, and the checks hold together in every interleaving
-- whose writes are allowed.

namespace Interleaving

namespace Program

variable {σ α β : Type}

section Safe

variable (rely guarantee allowed : σ → σ → Prop)

def Safe (post : α → σ → Prop) : Program σ α → σ → Prop
  | .done value, state => ∀ later, rely state later → post value later
  | .panic, _ => False
  | .read next, state => ∀ later, rely state later → Safe post (next later) later
  | .write update next, state => ∀ later, rely state later →
      guarantee later (update later) ∧
        (allowed later (update later) → Safe post next (update later))

variable {rely guarantee allowed}

section Steps

variable (post : β → σ → Prop) (state : σ)

theorem safe_pure (value : β) :
    Safe rely guarantee allowed post (pure value) state ↔ ∀ later, rely state later → post value later :=
  Iff.rfl

theorem safe_get_bind (rest : σ → Program σ β) :
    Safe rely guarantee allowed post (get >>= rest) state ↔
      ∀ later, rely state later → Safe rely guarantee allowed post (rest later) later := Iff.rfl

theorem safe_modify_bind (update : σ → σ) (rest : Unit → Program σ β) :
    Safe rely guarantee allowed post (modify update >>= rest) state ↔
      ∀ later, rely state later → guarantee later (update later) ∧
        (allowed later (update later) → Safe rely guarantee allowed post (rest ()) (update later)) := Iff.rfl

end Steps

theorem Safe.later {post : α → σ → Prop}
    (trans : ∀ first second third, rely first second → rely second third → rely first third)
    {program : Program σ α} {state later : σ} (safe : Safe rely guarantee allowed post program state)
    (relied : rely state later) : Safe rely guarantee allowed post program later := by
  cases program with
  | panic => exact safe
  | done | read | write => exact fun last more => safe last (trans state later last relied more)

theorem Safe.bind {post : α → σ → Prop} {result : β → σ → Prop} (refl : ∀ state, rely state state)
    {program : Program σ α} {rest : α → Program σ β} {state : σ}
    (safe : Safe rely guarantee allowed post program state)
    (next : ∀ value state, post value state → Safe rely guarantee allowed result (rest value) state) :
    Safe rely guarantee allowed result (program >>= rest) state := by
  change Safe rely guarantee allowed result (program.bind rest) state
  induction program generalizing state with
  | done value => exact next value state (safe state (refl state))
  | panic => exact safe
  | read following ih => exact fun later relied => ih later (safe later relied)
  | write update following ih =>
      exact fun later relied => ⟨(safe later relied).1, fun allows => ih ((safe later relied).2 allows)⟩

theorem Safe.imp {post weaker : α → σ → Prop} {program : Program σ α} {state : σ}
    (safe : Safe rely guarantee allowed post program state)
    (implies : ∀ value state, post value state → weaker value state) :
    Safe rely guarantee allowed weaker program state := by
  induction program generalizing state with
  | done value => exact fun later relied => implies value later (safe later relied)
  | panic => exact safe
  | read following ih => exact fun later relied => ih later (safe later relied)
  | write update following ih =>
      exact fun later relied => ⟨(safe later relied).1, fun allows => ih ((safe later relied).2 allows)⟩

end Safe

end Program

namespace Pool

variable {ι σ α : Type} [DecidableEq ι] (rely guarantee : ι → σ → σ → Prop)
  (allowed : σ → σ → Prop) (post : ι → α → σ → Prop)

def Sound (pool : Pool ι σ α) : Prop :=
  ∀ thread, (pool.threads thread).Safe (rely thread) (guarantee thread) allowed (post thread) pool.state

structure Compatible : Prop where
  refl : ∀ thread state, rely thread state state
  trans : ∀ thread first second third, rely thread first second → rely thread second third →
    rely thread first third
  kept : ∀ thread other, thread ≠ other → ∀ before after, guarantee thread before after →
    allowed before after → rely other before after

def Keeps (pool : Pool ι σ α) (schedule : List ι) : Prop :=
  Allows (fun pool thread => allowed pool.state (pool.advance thread).state) pool schedule

variable {rely guarantee allowed post}

instance (pool : Pool ι σ α) (schedule : List ι) [DecidableRel allowed] :
    Decidable (Keeps allowed pool schedule) :=
  inferInstanceAs (Decidable (Allows _ pool schedule))

theorem Sound.update {pool : Pool ι σ α} (compatible : Compatible rely guarantee allowed)
    (sound : Sound rely guarantee allowed post pool) {thread : ι} {next : Program σ α} {state : σ}
    (changed : state = pool.state ∨ guarantee thread pool.state state ∧ allowed pool.state state)
    (safe : next.Safe (rely thread) (guarantee thread) allowed (post thread) state) :
    Sound rely guarantee allowed post ⟨Function.update pool.threads thread next, state⟩ := by
  intro other
  by_cases same : other = thread
  · subst same
    simpa only [Function.update_self] using safe
  · simp only [Function.update_of_ne same]
    rcases changed with rfl | ⟨guaranteed, allows⟩
    · exact sound other
    · exact (sound other).later (compatible.trans other)
        (compatible.kept thread other (Ne.symm same) _ _ guaranteed allows)

theorem Sound.advance {pool : Pool ι σ α} (compatible : Compatible rely guarantee allowed)
    (sound : Sound rely guarantee allowed post pool) {thread : ι}
    (allows : allowed pool.state (pool.advance thread).state) :
    Sound rely guarantee allowed post (pool.advance thread) := by
  have here := sound thread
  cases at_ : pool.threads thread with
  | done | panic =>
      simp only [Pool.advance, at_]
      exact sound
  | read next =>
      rw [at_] at here
      rw [advance_read at_]
      exact sound.update compatible (Or.inl rfl) (here _ (compatible.refl thread _))
  | write update next =>
      rw [at_] at here
      rw [advance_write at_] at allows ⊢
      obtain ⟨guaranteed, safe⟩ := here _ (compatible.refl thread _)
      exact sound.update compatible (Or.inr ⟨guaranteed, allows⟩) (safe allows)

theorem Sound.advance_state {pool : Pool ι σ α} (compatible : Compatible rely guarantee allowed)
    (sound : Sound rely guarantee allowed post pool) (thread : ι) :
    (pool.advance thread).state = pool.state ∨
      guarantee thread pool.state (pool.advance thread).state := by
  have here := sound thread
  unfold Pool.advance
  cases at_ : pool.threads thread with
  | done | panic | read => exact Or.inl rfl
  | write update next =>
      rw [at_] at here
      exact Or.inr (here _ (compatible.refl thread _)).1

theorem Sound.interleave {pool : Pool ι σ α} (compatible : Compatible rely guarantee allowed)
    (sound : Sound rely guarantee allowed post pool) {schedule : List ι}
    (keeps : Keeps allowed pool schedule) :
    Sound rely guarantee allowed post (pool.interleave schedule) :=
  interleave_invariant _ (fun _ _ sound allows => sound.advance compatible allows) schedule pool sound
    keeps

theorem Sound.invariant {pool : Pool ι σ α} (compatible : Compatible rely guarantee allowed)
    (sound : Sound rely guarantee allowed post pool) {holds : σ → Prop}
    (kept : ∀ thread before after, holds before → guarantee thread before after → holds after)
    (start : holds pool.state) {schedule : List ι} (keeps : Keeps allowed pool schedule) :
    holds (pool.interleave schedule).state := by
  have both := interleave_invariant
    (fun pool => Sound rely guarantee allowed post pool ∧ holds pool.state) ?_ schedule pool
    ⟨sound, start⟩ keeps
  · exact both.2
  · intro pool thread good allows
    refine ⟨good.1.advance compatible allows, ?_⟩
    rcases good.1.advance_state compatible thread with same | guaranteed
    · exact same ▸ good.2
    · exact kept thread _ _ good.2 guaranteed

omit [DecidableEq ι] in
theorem Sound.not_panic {pool : Pool ι σ α} (sound : Sound rely guarantee allowed post pool) (thread : ι) :
    pool.threads thread ≠ .panic := by
  intro panics
  have safe := sound thread
  rw [panics] at safe
  exact safe

omit [DecidableEq ι] in
theorem Sound.finished {pool : Pool ι σ α} (compatible : Compatible rely guarantee allowed)
    (sound : Sound rely guarantee allowed post pool) {thread : ι} {value : α}
    (done : pool.threads thread = .done value) : post thread value pool.state := by
  have safe := sound thread
  rw [done] at safe
  exact safe _ (compatible.refl thread _)

end Pool

end Interleaving
