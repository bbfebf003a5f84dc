import NootedDeck.Shared.Accesses

set_option autoImplicit false

namespace CStrings

open Accesses Access

variable {ν : Type} [DecidableEq ν] (nul : ν)

def text (values : List ν) : List ν := values.takeWhile (· ≠ nul)

theorem text_eq_take (values : List ν) : text nul values = values.take (text nul values).length :=
  List.prefix_iff_eq_take.mp (List.takeWhile_prefix _)

theorem length_text_le (values : List ν) : (text nul values).length ≤ values.length :=
  (List.takeWhile_prefix _).length_le

theorem text_append {first : List ν} (free : nul ∉ first) (rest : List ν) :
    text nul (first ++ rest) = first ++ text nul rest := by
  apply List.takeWhile_append_of_pos
  intro value member
  exact decide_eq_true (ne_of_mem_of_not_mem member free)

theorem text_append_nul {first : List ν} (free : nul ∉ first) (rest : List ν) :
    text nul (first ++ nul :: rest) = first := by
  rw [text_append nul free]
  simp [text]

def strnlen : Nat → Nat → Access Nat ν Nat
  | _, 0 => pure 0
  | start, limit + 1 => do
      let value ← loadFrom start
      if value = nul then pure 0
      else do
        let length ← strnlen (start + 1) limit
        pure (length + 1)

-- `source` is given without its terminator. Nothing is written where `dst` has none.
def strlcat (dst : Nat) (source : List ν) (size : Nat) : Access Nat ν Nat := do
  let length ← strnlen nul dst size
  if length = size then pure (size + source.length)
  else do
    storeFrom (dst + length) (source.take (size - length - 1) ++ [nul])
    pure (length + source.length)

def appended (source values : List ν) : List ν :=
  let length := (text nul values).length
  if length = values.length then values
  else
    let added := source.take (values.length - length - 1) ++ [nul]
    text nul values ++ (added ++ values.drop (length + added.length))

section Runs

variable (state : Nat → ν)

theorem strnlen_run (start limit : Nat) :
    (strnlen nul start limit).run (cells Nat ν) state =
      ((text nul (contents state start limit)).length, state) := by
  induction limit generalizing start with
  | zero => rfl
  | succ limit ih =>
      rw [strnlen, run_bind, run_loadFrom, cells_load, contents_succ]
      by_cases ends : state start = nul
      · simp [text, ends]
      · simp [text, ends, ih]

theorem strnlen_trace (start limit : Nat) :
    ∀ access ∈ (strnlen nul start limit).trace (cells Nat ν) state, access.1 = .load := by
  induction limit generalizing start with
  | zero => exact List.forall_mem_nil _
  | succ limit ih =>
      rw [strnlen, trace_bind, run_loadFrom, cells_load, trace_loadFrom]
      by_cases ends : state start = nul
      · simp [ends]
      · simpa [ends] using ih (start + 1)

theorem text_contents {start : Nat} {string : List ν} (free : nul ∉ string)
    (held : contents state start (string.length + 1) = string ++ [nul]) (more : Nat) :
    text nul (contents state start (string.length + 1 + more)) = string := by
  rw [contents_add, held, List.append_assoc, List.singleton_append, text_append_nul nul free]

theorem string_unique {start : Nat} {string other : List ν} (free : nul ∉ string)
    (held : contents state start (string.length + 1) = string ++ [nul]) (freeOther : nul ∉ other)
    (heldOther : contents state start (other.length + 1) = other ++ [nul]) : string = other := by
  have total : string.length + 1 + other.length = other.length + 1 + string.length := by omega
  rw [← text_contents nul state free held other.length, total,
    text_contents nul state freeOther heldOther]

variable (dst : Nat) (source : List ν) (size : Nat)

theorem strlcat_contents :
    contents ((strlcat nul dst source size).run (cells Nat ν) state).2 dst size =
      appended nul source (contents state dst size) := by
  have within := length_text_le nul (contents state dst size)
  have same := text_eq_take nul (contents state dst size)
  simp only [appended, strlcat, run_bind, strnlen_run, length_contents] at within ⊢
  generalize (text nul (contents state dst size)).length = length at within same ⊢
  by_cases full : length = size
  · simp only [if_pos full, run_pure]
  · have room : (source.take (size - length - 1) ++ [nul]).length ≤ size - length := by
      simp only [List.length_append, List.length_take, List.length_singleton]
      omega
    generalize source.take (size - length - 1) ++ [nul] = added at room ⊢
    obtain ⟨more, rfl⟩ : ∃ more, size = length + (added.length + more) :=
      ⟨size - length - added.length, by omega⟩
    have kept := take_contents state dst length (added.length + more)
    have left := drop_contents state dst (length + added.length) more
    simp only [if_neg full, run_bind, run_storeFrom, run_pure, contents_placed_within]
    rw [same, kept, ← Nat.add_assoc, left, Nat.add_assoc]

theorem strlcat_stores {place : Nat}
    (stored : (.store, place) ∈ (strlcat nul dst source size).trace (cells Nat ν) state) :
    dst ≤ place ∧ place < dst + size := by
  have within := length_text_le nul (contents state dst size)
  simp only [strlcat, trace_bind, strnlen_run, length_contents] at within stored
  generalize (text nul (contents state dst size)).length = length at within stored
  rcases List.mem_append.mp stored with scanned | written
  · exact absurd (strnlen_trace nul state dst size _ scanned) Kind.noConfusion
  by_cases full : length = size
  · rw [if_pos full] at written
    exact absurd written List.not_mem_nil
  · rw [if_neg full, trace_bind, trace_storeFrom] at written
    simp only [List.length_append, List.length_take, List.length_singleton, trace_pure,
      List.append_nil, List.mem_map, List.mem_range'_1, Prod.mk.injEq, true_and,
      exists_eq_right] at written
    omega

end Runs

theorem appended_append {first : List ν} (free : nul ∉ first) (source rest : List ν) :
    appended nul source (first ++ rest) = first ++ appended nul source rest := by
  simp only [appended, text_append nul free, List.length_append, Nat.add_left_cancel_iff,
    Nat.add_sub_add_left]
  by_cases full : (text nul rest).length = rest.length
  · simp only [if_pos full]
  · simp only [if_neg full, List.append_assoc, Nat.add_assoc, List.drop_length_add_append]

theorem appended_cons {value : ν} (goesOn : value ≠ nul) (source rest : List ν) :
    appended nul source (value :: rest) = value :: appended nul source rest :=
  appended_append nul (List.not_mem_cons_of_ne_of_not_mem goesOn.symm List.not_mem_nil) source rest

theorem appended_nul (source rest : List ν) :
    appended nul source (nul :: rest) =
      source.take rest.length ++ nul :: rest.drop (source.take rest.length).length := by
  simp [appended, text]

-- A buffer that comes to hold `tail` held it before, unless `source` can fill in for a part of it.
theorem appended_eq_iff {source tail values : List ν} (whole : nul ∉ source) (free : nul ∉ tail)
    (apart : ∀ part ∈ tail.tails, part ≠ [] → ¬part <+: source)
    (exact : values.length = tail.length + 1) :
    appended nul source values = tail ++ [nul] ↔ values = tail ++ [nul] := by
  induction tail generalizing values with
  | nil =>
      obtain ⟨value, rfl⟩ := List.length_eq_one_iff.mp exact
      by_cases ends : value = nul
      · subst ends
        simp [appended_nul]
      · rw [appended_cons nul ends]
        rfl
  | cons byte tail ih =>
      obtain ⟨value, rest, rfl⟩ := List.exists_cons_of_length_eq_add_one exact
      obtain ⟨different, later⟩ := List.ne_and_not_mem_of_not_mem_cons free
      by_cases ends : value = nul
      · subst ends
        constructor
        · intro filled
          have part := congrArg (text value) filled
          rw [appended_nul, text_append_nul value (fun early => whole (List.mem_of_mem_take early)),
            text_append_nul value free] at part
          exact absurd (part ▸ List.take_prefix _ source) (apart _ (by simp) (by simp))
        · intro held
          exact absurd (List.cons.inj held).1 different
      · rw [appended_cons nul ends, List.cons_append, List.cons.injEq, List.cons.injEq,
          ih later (fun part member => apart part (by simp [member])) (by simpa using exact)]

end CStrings
