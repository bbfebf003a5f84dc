import Mathlib.Logic.Function.Basic

set_option autoImplicit false

namespace Locking

inductive Thread (σ α : Type) where
  | done (value : α)
  | panic
  | read (next : σ → Thread σ α)
  | write (update : σ → σ) (next : Thread σ α)
  | acquire (next : Thread σ α)
  | tryAcquire (next : Bool → Thread σ α)
  | release (next : Thread σ α)

namespace Thread

variable {σ α β : Type}

def bind : Thread σ α → (α → Thread σ β) → Thread σ β
  | .done value, rest => rest value
  | .panic, _ => .panic
  | .read next, rest => .read fun state => (next state).bind rest
  | .write update next, rest => .write update (next.bind rest)
  | .acquire next, rest => .acquire (next.bind rest)
  | .tryAcquire next, rest => .tryAcquire fun taken => (next taken).bind rest
  | .release next, rest => .release (next.bind rest)

instance : Monad (Thread σ) where
  pure := .done
  bind := bind

def get : Thread σ σ := .read .done

def modify (update : σ → σ) : Thread σ Unit := .write update (.done ())

def lock : Thread σ Unit := .acquire (.done ())

def tryLock : Thread σ Bool := .tryAcquire .done

def unlock : Thread σ Unit := .release (.done ())

def onlyIf (condition : Bool) (action : Thread σ Unit) : Thread σ Unit :=
  if condition then action else .done ()

section Binds

variable {γ : Type}

@[simp] theorem pure_bind (value : α) (rest : α → Thread σ β) : pure value >>= rest = rest value := rfl

@[simp] theorem bind_assoc (thread : Thread σ α) (next : α → Thread σ β) (rest : β → Thread σ γ) :
    thread >>= next >>= rest = thread >>= fun value => next value >>= rest := by
  change (thread.bind next).bind rest = thread.bind fun value => (next value).bind rest
  induction thread with
  | done | panic => rfl
  | read following ih | tryAcquire following ih => simp only [bind, ih]
  | write update following ih => simp only [bind, ih]
  | acquire following ih | release following ih => simp only [bind, ih]

@[simp] theorem onlyIf_true (action : Thread σ Unit) : onlyIf true action = action := rfl

@[simp] theorem onlyIf_false (action : Thread σ Unit) : onlyIf false action = pure () := rfl

end Binds

section Safe

variable (free : σ → Prop) (rely guarantee : σ → σ → Prop)

/--
The thread reads what it relies on, writes only with the lock held and as it guarantees, and leaves
the state free when it releases the lock. `post` is told whether the lock is still held at the end.
-/
def Safe (post : Bool → α → σ → Prop) : Bool → Thread σ α → σ → Prop
  | false, .done value, state => ∀ later, rely state later → post false value later
  | true, .done value, state => post true value state
  | _, .panic, _ => True
  | false, .read next, state => ∀ later, rely state later → Safe post false (next later) later
  | true, .read next, state => Safe post true (next state) state
  | false, .write _ _, _ => False
  | true, .write update next, state =>
      guarantee state (update state) ∧ Safe post true next (update state)
  | false, .acquire next, state =>
      ∀ later, rely state later → free later → Safe post true next later
  | true, .acquire _, _ => False
  | false, .tryAcquire next, state => ∀ later, rely state later →
      (free later → Safe post true (next true) later) ∧ Safe post false (next false) later
  | true, .tryAcquire next, state => Safe post true (next false) state
  | false, .release _, _ => False
  | true, .release next, state => free state ∧ Safe post false next state

variable {free rely guarantee}

section Held

variable (post : Bool → β → σ → Prop) (state : σ)

@[simp] theorem safe_pure (value : β) :
    Safe free rely guarantee post true (pure value) state ↔ post true value state := Iff.rfl

@[simp] theorem safe_get_bind (rest : σ → Thread σ β) :
    Safe free rely guarantee post true (get >>= rest) state ↔
      Safe free rely guarantee post true (rest state) state := Iff.rfl

theorem safe_get_bind_unlocked (rest : σ → Thread σ β) :
    Safe free rely guarantee post false (get >>= rest) state ↔
      ∀ later, rely state later →
        Safe free rely guarantee post false (rest later) later := Iff.rfl

@[simp] theorem safe_modify_bind (update : σ → σ) (rest : Unit → Thread σ β) :
    Safe free rely guarantee post true (modify update >>= rest) state ↔
      guarantee state (update state) ∧
        Safe free rely guarantee post true (rest ()) (update state) := Iff.rfl

@[simp] theorem safe_lock_bind (rest : Unit → Thread σ β) :
    Safe free rely guarantee post false (lock >>= rest) state ↔
      ∀ later, rely state later → free later →
        Safe free rely guarantee post true (rest ()) later := Iff.rfl

@[simp] theorem safe_unlock_bind (rest : Unit → Thread σ β) :
    Safe free rely guarantee post true (unlock >>= rest) state ↔
      free state ∧ Safe free rely guarantee post false (rest ()) state := Iff.rfl

end Held

theorem Safe.later {post : Bool → α → σ → Prop}
    (trans : ∀ first second third, rely first second → rely second third → rely first third)
    {thread : Thread σ α} {state later : σ}
    (safe : Safe free rely guarantee post false thread state) (relied : rely state later) :
    Safe free rely guarantee post false thread later := by
  have after {last : σ} (more : rely later last) : rely state last :=
    trans state later last relied more
  cases thread with
  | done | read | tryAcquire => exact fun last more => safe last (after more)
  | panic => trivial
  | write | release => exact safe
  | acquire next => exact fun last more => safe last (after more)

theorem Safe.bind {post : Bool → α → σ → Prop} {result : Bool → β → σ → Prop}
    (refl : ∀ state, rely state state) {thread : Thread σ α} {rest : α → Thread σ β} {held : Bool}
    {state : σ} (safe : Safe free rely guarantee post held thread state)
    (next : ∀ held value state, post held value state →
      Safe free rely guarantee result held (rest value) state) :
    Safe free rely guarantee result held (thread >>= rest) state := by
  change Safe free rely guarantee result held (thread.bind rest) state
  induction thread generalizing held state with
  | done value =>
      cases held with
      | false => exact next false value state (safe state (refl state))
      | true => exact next true value state safe
  | panic => cases held <;> trivial
  | read following ih =>
      cases held with
      | false => exact fun later relied => ih later (safe later relied)
      | true => exact ih state safe
  | write update following ih =>
      cases held with
      | false => exact safe
      | true => exact ⟨safe.1, ih safe.2⟩
  | acquire following ih =>
      cases held with
      | false => exact fun later relied free => ih (safe later relied free)
      | true => exact safe
  | tryAcquire following ih =>
      cases held with
      | false =>
          exact fun later relied =>
            ⟨fun free => ih true ((safe later relied).1 free), ih false (safe later relied).2⟩
      | true => exact ih false safe
  | release following ih =>
      cases held with
      | false => exact safe
      | true => exact ⟨safe.1, ih safe.2⟩

theorem Safe.imp {post weaker : Bool → α → σ → Prop} {thread : Thread σ α} {held : Bool} {state : σ}
    (safe : Safe free rely guarantee post held thread state)
    (implies : ∀ held value state, post held value state → weaker held value state) :
    Safe free rely guarantee weaker held thread state := by
  induction thread generalizing held state with
  | done value =>
      cases held with
      | false => exact fun later relied => implies _ _ _ (safe later relied)
      | true => exact implies _ _ _ safe
  | panic => cases held <;> trivial
  | read following ih =>
      cases held with
      | false => exact fun later relied => ih later (safe later relied)
      | true => exact ih state safe
  | write update following ih =>
      cases held with
      | false => exact safe
      | true => exact ⟨safe.1, ih safe.2⟩
  | acquire following ih =>
      cases held with
      | false => exact fun later relied free => ih (safe later relied free)
      | true => exact safe
  | tryAcquire following ih =>
      cases held with
      | false =>
          exact fun later relied =>
            ⟨fun free => ih true ((safe later relied).1 free), ih false (safe later relied).2⟩
      | true => exact ih false safe
  | release following ih =>
      cases held with
      | false => exact safe
      | true => exact ⟨safe.1, ih safe.2⟩

end Safe

end Thread

structure Pool (ι σ α : Type) where
  threads : ι → Thread σ α
  state : σ
  owner : Option ι

namespace Pool

variable {ι σ α : Type} [DecidableEq ι]

-- A thread that waits for the lock stays where it is.
def advance (pool : Pool ι σ α) (thread : ι) : Pool ι σ α :=
  match pool.threads thread with
  | .done _ | .panic => pool
  | .read next => { pool with threads := Function.update pool.threads thread (next pool.state) }
  | .write update next =>
      { pool with
        threads := Function.update pool.threads thread next
        state := update pool.state }
  | .acquire next =>
      match pool.owner with
      | none =>
          { pool with
            threads := Function.update pool.threads thread next
            owner := some thread }
      | some _ => pool
  | .tryAcquire next =>
      match pool.owner with
      | none =>
          { pool with
            threads := Function.update pool.threads thread (next true)
            owner := some thread }
      | some _ => { pool with threads := Function.update pool.threads thread (next false) }
  | .release next =>
      { pool with
        threads := Function.update pool.threads thread next
        owner := none }

def interleave (pool : Pool ι σ α) (schedule : List ι) : Pool ι σ α := schedule.foldl advance pool

section Sound

variable (free : σ → Prop) (rely guarantee : ι → σ → σ → Prop) (post : ι → Bool → α → σ → Prop)

structure Sound (pool : Pool ι σ α) : Prop where
  unlocked : pool.owner = none → free pool.state
  threads : ∀ thread, (pool.threads thread).Safe free (rely thread) (guarantee thread) (post thread)
    (decide (pool.owner = some thread)) pool.state

structure Compatible : Prop where
  refl : ∀ thread state, rely thread state state
  trans : ∀ thread first second third, rely thread first second → rely thread second third →
    rely thread first third
  kept : ∀ thread other, thread ≠ other → ∀ before after, guarantee thread before after →
    rely other before after

variable {free rely guarantee post}

theorem Sound.update {pool : Pool ι σ α} (compatible : Compatible rely guarantee)
    (sound : Sound free rely guarantee post pool) {thread : ι} {next : Thread σ α} {state : σ}
    {owner : Option ι} (freed : owner = none → free state)
    (others : ∀ other, other ≠ thread → (owner = some other ↔ pool.owner = some other))
    (changed : state = pool.state ∨
      pool.owner = some thread ∧ guarantee thread pool.state state)
    (safe : next.Safe free (rely thread) (guarantee thread) (post thread)
      (decide (owner = some thread)) state) :
    Sound free rely guarantee post ⟨Function.update pool.threads thread next, state, owner⟩ := by
  constructor
  · exact freed
  · intro other
    by_cases same : other = thread
    · subst same
      simpa only [Function.update_self] using safe
    · simp only [Function.update_of_ne same, others other same]
      have kept := sound.threads other
      rcases changed with unchanged | ⟨owned, guaranteed⟩
      · simpa only [unchanged] using kept
      · have waiting : pool.owner ≠ some other := by
          intro holds
          exact same (Option.some.inj (holds.symm.trans owned))
        simp only [decide_eq_false waiting] at kept ⊢
        exact kept.later (compatible.trans other)
          (compatible.kept thread other (Ne.symm same) _ _ guaranteed)

theorem Sound.advance {pool : Pool ι σ α} (compatible : Compatible rely guarantee)
    (sound : Sound free rely guarantee post pool) (thread : ι) :
    Sound free rely guarantee post (pool.advance thread) := by
  have here := sound.threads thread
  have still : ∀ other, other ≠ thread → (pool.owner = some other ↔ pool.owner = some other) :=
    fun _ _ => Iff.rfl
  have taken (none : pool.owner = none) :
      ∀ other, other ≠ thread → (some thread = some other ↔ pool.owner = some other) := by
    intro other different
    simp [none, Ne.symm different]
  unfold Pool.advance
  by_cases owned : pool.owner = some thread
  · -- The owner of the lock takes its step.
    have holds : decide (pool.owner = some thread) = true := decide_eq_true owned
    have held : pool.owner ≠ none := by simp [owned]
    cases at_ : pool.threads thread with
    | done | panic => exact sound
    | read next =>
        rw [at_, holds] at here
        exact sound.update compatible (fun none => absurd none held) still (Or.inl rfl)
          (holds ▸ here)
    | write update next =>
        rw [at_, holds] at here
        exact sound.update compatible (fun none => absurd none held) still
          (Or.inr ⟨owned, here.1⟩) (holds ▸ here.2)
    | acquire next =>
        rw [at_, holds] at here
        exact here.elim
    | tryAcquire next =>
        rw [at_, holds] at here
        simp only [owned]
        exact sound.update compatible (fun none => by simp at none) (fun other _ => by rw [owned])
          (Or.inl rfl) (by rw [decide_eq_true rfl]; exact here)
    | release next =>
        rw [at_, holds] at here
        refine sound.update compatible (fun _ => here.1) (fun other different => ?_) (Or.inl rfl)
          here.2
        simp [owned, Ne.symm different]
  · have waits : decide (pool.owner = some thread) = false := decide_eq_false owned
    cases at_ : pool.threads thread with
    | done | panic => exact sound
    | read next =>
        rw [at_, waits] at here
        exact sound.update compatible sound.unlocked still (Or.inl rfl)
          (waits ▸ here _ (compatible.refl _ _))
    | write update next =>
        rw [at_, waits] at here
        exact here.elim
    | acquire next =>
        rw [at_, waits] at here
        cases none : pool.owner with
        | some other => exact sound
        | none =>
            have safe := here _ (compatible.refl _ _) (sound.unlocked none)
            exact sound.update compatible (fun some => by cases some) (taken none) (Or.inl rfl)
              (by simpa using safe)
    | tryAcquire next =>
        rw [at_, waits] at here
        obtain ⟨succeeds, fails⟩ := here _ (compatible.refl _ _)
        cases none : pool.owner with
        | some other =>
            rw [none] at owned
            have elsewhere : decide (some other = some thread) = false := decide_eq_false owned
            exact sound.update compatible (fun some => by cases some) (fun _ _ => by rw [none])
              (Or.inl rfl) (elsewhere ▸ fails)
        | none =>
            exact sound.update compatible (fun some => by cases some) (taken none) (Or.inl rfl)
              (by simpa using succeeds (sound.unlocked none))
    | release next =>
        rw [at_, waits] at here
        exact here.elim

theorem Sound.advance_cases {pool : Pool ι σ α}
    (sound : Sound free rely guarantee post pool) (thread : ι) :
    ((pool.advance thread).state = pool.state ∧ (pool.advance thread).owner = pool.owner) ∨
      (pool.owner = some thread ∧ (pool.advance thread).owner = some thread ∧
        guarantee thread pool.state (pool.advance thread).state) ∨
      ((pool.advance thread).state = pool.state ∧ pool.owner = none ∧
        (pool.advance thread).owner = some thread) ∨
      ((pool.advance thread).state = pool.state ∧ pool.owner = some thread ∧
        (pool.advance thread).owner = none ∧ free pool.state) := by
  have here := sound.threads thread
  unfold Pool.advance
  cases at_ : pool.threads thread with
  | done | panic | read => exact Or.inl ⟨rfl, rfl⟩
  | write update next =>
      by_cases owned : pool.owner = some thread
      · rw [at_, decide_eq_true owned] at here
        exact Or.inr (Or.inl ⟨owned, owned, here.1⟩)
      · rw [at_, decide_eq_false owned] at here
        exact here.elim
  | acquire | tryAcquire =>
      cases none : pool.owner with
      | none => exact Or.inr (Or.inr (Or.inl ⟨rfl, rfl, rfl⟩))
      | some other => exact Or.inl ⟨rfl, by simp only [none]⟩
  | release next =>
      by_cases owned : pool.owner = some thread
      · rw [at_, decide_eq_true owned] at here
        exact Or.inr (Or.inr (Or.inr ⟨rfl, owned, rfl, here.1⟩))
      · rw [at_, decide_eq_false owned] at here
        exact here.elim

theorem Sound.interleave {pool : Pool ι σ α} (compatible : Compatible rely guarantee)
    (sound : Sound free rely guarantee post pool) (schedule : List ι) :
    Sound free rely guarantee post (pool.interleave schedule) := by
  induction schedule generalizing pool with
  | nil => exact sound
  | cons thread rest ih => exact ih (sound.advance compatible thread)

theorem Sound.invariant {pool : Pool ι σ α} (compatible : Compatible rely guarantee)
    (sound : Sound free rely guarantee post pool) (holds : Option ι → σ → Prop)
    (acquired : ∀ thread state, holds none state → holds (some thread) state)
    (written : ∀ thread before after, holds (some thread) before → guarantee thread before after →
      holds (some thread) after)
    (released : ∀ thread state, holds (some thread) state → free state → holds none state)
    (start : holds pool.owner pool.state) (schedule : List ι) :
    holds (pool.interleave schedule).owner (pool.interleave schedule).state := by
  induction schedule generalizing pool with
  | nil => exact start
  | cons thread rest ih =>
      refine ih (sound.advance compatible thread) ?_
      rcases sound.advance_cases thread with
        ⟨same, still⟩ | ⟨owned, still, guaranteed⟩ | ⟨same, none, taken⟩ | ⟨same, owned, given, freed⟩
      · rwa [same, still]
      · rw [owned] at start
        rw [still]
        exact written thread _ _ start guaranteed
      · rw [none] at start
        rw [same, taken]
        exact acquired thread _ start
      · rw [owned] at start
        rw [same, given]
        exact released thread _ start freed

theorem Sound.finished {pool : Pool ι σ α} (compatible : Compatible rely guarantee)
    (sound : Sound free rely guarantee post pool) {thread : ι} {value : α}
    (done : pool.threads thread = .done value) :
    post thread (decide (pool.owner = some thread)) value pool.state := by
  have safe := sound.threads thread
  rw [done] at safe
  by_cases owned : pool.owner = some thread
  · rw [decide_eq_true owned] at safe ⊢
    exact safe
  · rw [decide_eq_false owned] at safe ⊢
    exact safe _ (compatible.refl _ _)

end Sound

end Pool

end Locking
