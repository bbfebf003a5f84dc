import NootedDeck.Compression.Codes

set_option autoImplicit false

namespace NootedDeck.Compression

open Bytes

def Decoder.loaded (decoder : Decoder) : Option Decoder :=
  if decoder.flags >>> 1 &&& 0x100 = 0 then
    match decoder.src with
    | [] => none
    | c :: rest => some { decoder with src := rest, flags := c.setWidth 32 ||| 0xFF00 }
  else some { decoder with flags := decoder.flags >>> 1 }

section Rounds

variable {dstlen room fuel : Nat} {decoder next : Decoder}

theorem decodeLoop_none (nothing : decoder.loaded = none) :
    decodeLoop dstlen (fuel + 1) decoder = some { decoder with flags := decoder.flags >>> 1 } := by
  rw [decodeLoop]
  rw [Decoder.loaded] at nothing
  split_ifs at nothing with reload
  simp only [if_pos reload]
  cases more : decoder.src with
  | nil => rfl
  | cons => simp [more] at nothing

theorem decodeLoop_some (loads : decoder.loaded = some next) :
    decodeLoop dstlen (fuel + 1) decoder = decodeFrom dstlen fuel next := by
  rw [decodeLoop]
  rw [Decoder.loaded] at loads
  split_ifs at loads with reload
  · simp only [if_pos reload]
    cases more : decoder.src with
    | nil => simp [more] at loads
    | cons c rest =>
        simp only [more, Option.some.injEq] at loads
        rw [← loads]
        rfl
  · simp only [if_neg reload]
    rw [← Option.some.inj loads]
    rfl

theorem loaded_dst (loads : decoder.loaded = some next) :
    next.dst = decoder.dst ∧ next.src.length ≤ decoder.src.length := by
  rw [Decoder.loaded] at loads
  split_ifs at loads
  · cases more : decoder.src with
    | nil => simp [more] at loads
    | cons c rest =>
        simp only [more, Option.some.injEq] at loads
        simp [← loads]
  · simp [← Option.some.inj loads]

theorem decodeUnit_less (goes : (decodeUnit dstlen decoder).2 = true) :
    (decodeUnit dstlen decoder).1.src.length < decoder.src.length := by
  rw [decodeUnit] at *
  split_ifs at * with letter
  · cases more : decoder.src with
    | nil => simp [more] at goes
    | cons c rest =>
        simp only [more] at *
        split_ifs at *
        simp [Decoder.output]
  · rcases more : decoder.src with _ | ⟨i, _ | ⟨j, rest⟩⟩
    · simp [more] at goes
    · simp [more] at goes
    · simp only [copyFrom_src, List.length_cons]
      omega

theorem decodeLoop_ends (enough : decoder.src.length < fuel) :
    ∃ last, decodeLoop dstlen fuel decoder = some last := by
  induction fuel generalizing decoder with
  | zero => omega
  | succ fuel ih =>
      cases loads : decoder.loaded with
      | none => exact ⟨_, decodeLoop_none loads⟩
      | some next =>
          have less := (loaded_dst loads).2
          rw [decodeLoop_some loads, decodeFrom]
          by_cases goes : (decodeUnit dstlen next).2 = true
          · have shorter := decodeUnit_less goes
            rw [if_pos goes]
            exact ih (by omega)
          · exact ⟨_, if_neg goes⟩

theorem decodeLoop_fuel {other : Nat} (enough : decoder.src.length < fuel)
    (too : decoder.src.length < other) :
    decodeLoop dstlen fuel decoder = decodeLoop dstlen other decoder := by
  induction fuel generalizing other decoder with
  | zero => omega
  | succ fuel ih =>
      obtain ⟨other, rfl⟩ : ∃ less, other = less + 1 := ⟨other - 1, by omega⟩
      cases loads : decoder.loaded with
      | none => rw [decodeLoop_none loads, decodeLoop_none loads]
      | some next =>
          have less := (loaded_dst loads).2
          rw [decodeLoop_some loads, decodeLoop_some loads, decodeFrom, decodeFrom]
          by_cases goes : (decodeUnit dstlen next).2 = true
          · have shorter := decodeUnit_less goes
            simp only [if_pos goes]
            exact ih (by omega) (by omega)
          · simp only [if_neg goes]

theorem copyFrom_grows (dstlen position count k : Nat) (decoder : Decoder) :
    ∃ more, (copyFrom dstlen position count k decoder).dst = decoder.dst ++ more := by
  induction count generalizing k decoder with
  | zero => exact ⟨[], (List.append_nil _).symm⟩
  | succ count ih =>
      rw [copyFrom]
      by_cases short : decoder.dst.length < dstlen
      · obtain ⟨more, grows⟩ := ih (k + 1) (decoder.output (decoder.textBuf (ring (position + k))))
        rw [if_pos short, grows, Decoder.output, List.append_assoc]
        exact ⟨_, rfl⟩
      · rw [if_neg short]
        exact ⟨[], (List.append_nil _).symm⟩

theorem decodeUnit_grows (dstlen : Nat) (decoder : Decoder) :
    ∃ more, (decodeUnit dstlen decoder).1.dst = decoder.dst ++ more := by
  rw [decodeUnit]
  split_ifs
  · cases decoder.src with
    | nil => exact ⟨[], (List.append_nil _).symm⟩
    | cons c rest =>
        by_cases short : decoder.dst.length < dstlen
        · simp only [if_pos short]
          exact ⟨[c], rfl⟩
        · simp only [if_neg short]
          exact ⟨[], (List.append_nil _).symm⟩
  · rcases decoder.src with _ | ⟨i, _ | ⟨j, rest⟩⟩
    · exact ⟨[], (List.append_nil _).symm⟩
    · exact ⟨[], (List.append_nil _).symm⟩
    · exact copyFrom_grows _ _ _ _ _

theorem decodeUnit_full (full : dstlen ≤ decoder.dst.length) :
    (decodeUnit dstlen decoder).1.dst = decoder.dst := by
  have stop := Nat.not_lt.mpr full
  rw [decodeUnit]
  split_ifs
  · cases decoder.src with
    | nil => rfl
    | cons => simp only [if_neg stop]
  · rcases decoder.src with _ | ⟨i, _ | ⟨j, rest⟩⟩
    · rfl
    · rfl
    · simp only [copyFrom, if_neg stop]

theorem decodeLoop_grows {last : Decoder} (runs : decodeLoop dstlen fuel decoder = some last) :
    ∃ more, last.dst = decoder.dst ++ more := by
  induction fuel generalizing decoder with
  | zero => cases runs
  | succ fuel ih =>
      cases loads : decoder.loaded with
      | none =>
          cases (decodeLoop_none loads).symm.trans runs
          exact ⟨[], (List.append_nil _).symm⟩
      | some next =>
          obtain ⟨first, unit⟩ := decodeUnit_grows dstlen next
          rw [decodeLoop_some loads, decodeFrom] at runs
          rw [← (loaded_dst loads).1]
          split_ifs at runs
          · obtain ⟨more, grows⟩ := ih runs
            exact ⟨first ++ more, by rw [grows, unit, List.append_assoc]⟩
          · cases runs
            exact ⟨first, unit⟩

theorem decodeLoop_full {last : Decoder} (full : dstlen ≤ decoder.dst.length)
    (runs : decodeLoop dstlen fuel decoder = some last) : last.dst = decoder.dst := by
  induction fuel generalizing decoder with
  | zero => cases runs
  | succ fuel ih =>
      cases loads : decoder.loaded with
      | none =>
          cases (decodeLoop_none loads).symm.trans runs
          rfl
      | some next =>
          have same := (loaded_dst loads).1
          have unit := decodeUnit_full (same ▸ full)
          rw [decodeLoop_some loads, decodeFrom] at runs
          split_ifs at runs
          · rw [ih (unit ▸ same ▸ full) runs, unit, same]
          · cases runs
            rw [unit, same]

def Cut (dstlen : Nat) (less more : Decoder) : Prop :=
  less = more ∧ less.dst.length ≤ dstlen ∨
    less.dst.length = dstlen ∧ ∃ rest, more.dst = less.dst ++ rest

theorem copyFrom_cut (fits : dstlen ≤ room) (position count k : Nat) (short : decoder.dst.length ≤ dstlen) :
    Cut dstlen (copyFrom dstlen position count k decoder) (copyFrom room position count k decoder) := by
  induction count generalizing k decoder with
  | zero => exact Or.inl ⟨rfl, short⟩
  | succ count ih =>
      by_cases less : decoder.dst.length < dstlen
      · rw [copyFrom, copyFrom, if_pos less, if_pos (Nat.lt_of_lt_of_le less fits)]
        exact ih (k + 1) (by simpa [Decoder.output] using Nat.succ_le_of_lt less)
      · refine Or.inr ⟨?_, ?_⟩
        · rw [copyFrom, if_neg less]
          omega
        · have stopped : copyFrom dstlen position (count + 1) k decoder = decoder := if_neg less
          rw [stopped]
          exact copyFrom_grows _ _ _ _ _

theorem decodeUnit_cut (fits : dstlen ≤ room) (less : decoder.dst.length < dstlen) :
    (decodeUnit dstlen decoder).2 = (decodeUnit room decoder).2 ∧
      Cut dstlen (decodeUnit dstlen decoder).1 (decodeUnit room decoder).1 := by
  rw [decodeUnit, decodeUnit]
  split_ifs
  · cases decoder.src with
    | nil => exact ⟨rfl, Or.inl ⟨rfl, Nat.le_of_lt less⟩⟩
    | cons c rest =>
        simp only [if_pos less, if_pos (Nat.lt_of_lt_of_le less fits), true_and]
        exact Or.inl ⟨rfl, by simpa [Decoder.output] using Nat.succ_le_of_lt less⟩
  · rcases decoder.src with _ | ⟨i, _ | ⟨j, rest⟩⟩
    · exact ⟨rfl, Or.inl ⟨rfl, Nat.le_of_lt less⟩⟩
    · exact ⟨rfl, Or.inl ⟨rfl, Nat.le_of_lt less⟩⟩
    · exact ⟨rfl, copyFrom_cut fits _ _ _ (Nat.le_of_lt less)⟩

theorem decodeLoop_take {less more : Decoder} (fits : dstlen ≤ room)
    (short : decoder.dst.length ≤ dstlen) (first : decodeLoop dstlen fuel decoder = some less)
    (second : decodeLoop room fuel decoder = some more) : less.dst = more.dst.take dstlen := by
  induction fuel generalizing decoder with
  | zero => cases first
  | succ fuel ih =>
      by_cases full : dstlen ≤ decoder.dst.length
      · obtain ⟨rest, grows⟩ := decodeLoop_grows second
        rw [decodeLoop_full full first, grows, List.take_left' (Nat.le_antisymm short full)]
      cases loads : decoder.loaded with
      | none =>
          cases (decodeLoop_none loads).symm.trans first
          cases (decodeLoop_none loads).symm.trans second
          exact (List.take_of_length_le short).symm
      | some next =>
          have same := (loaded_dst loads).1
          obtain ⟨goes, cut⟩ := decodeUnit_cut fits (show next.dst.length < dstlen by rw [same]; omega)
          rw [decodeLoop_some loads, decodeFrom] at first second
          rw [goes] at first
          rcases cut with ⟨equal, short⟩ | ⟨full, rest, grows⟩
          · rw [← equal] at second
            split_ifs at first second
            · exact ih short first second
            · cases first
              cases second
              exact (List.take_of_length_le short).symm
          · split_ifs at first second
            · obtain ⟨later, grows'⟩ := decodeLoop_grows second
              rw [decodeLoop_full (Nat.le_of_eq full.symm) first, grows', grows, List.append_assoc,
                List.take_left' full]
            · cases first
              cases second
              rw [grows, List.take_left' full]

end Rounds

theorem decompressLzss_ends (uninitialised : Nat → Byte) (dstlen : Nat) (src : List Byte) :
    ∃ decoded, decompressLzss uninitialised dstlen src = some decoded := by
  obtain ⟨last, runs⟩ : ∃ last, decodeLoop dstlen (src.length + 1) (.start uninitialised src) = some last :=
    decodeLoop_ends (Nat.lt_succ_self _)
  exact ⟨last.dst, by rw [decompressLzss, runs, Option.map_some]⟩

theorem decompressLzss_take {uninitialised : Nat → Byte} {src decoded : List Byte} {dstlen room : Nat}
    (fits : dstlen ≤ room) (whole : decompressLzss uninitialised room src = some decoded) :
    decompressLzss uninitialised dstlen src = some (decoded.take dstlen) := by
  obtain ⟨short, runs⟩ := decompressLzss_ends uninitialised dstlen src
  obtain ⟨more, second, rfl⟩ := Option.map_eq_some_iff.mp whole
  obtain ⟨less, first, rfl⟩ := Option.map_eq_some_iff.mp runs
  rw [runs, decodeLoop_take fits (Nat.zero_le _) first second]

/-- Any input is decoded to its end, within the destination, and a shorter destination gets the
beginning. -/
theorem decompressLzss_any (uninitialised : Nat → Byte) (src : List Byte) {dstlen room fuel : Nat}
    (fits : dstlen ≤ room) (enough : src.length < fuel) :
    ∃ decoded, decompressLzss uninitialised room src = some decoded ∧ decoded.length ≤ room ∧
      decompressLzss uninitialised dstlen src = some (decoded.take dstlen) ∧
      (decodeLoop dstlen fuel (.start uninitialised src)).map (·.dst) = some (decoded.take dstlen) := by
  obtain ⟨decoded, runs⟩ := decompressLzss_ends uninitialised room src
  have short := decompressLzss_take fits runs
  refine ⟨decoded, runs, ?_, short, ?_⟩
  · have same := decompressLzss_take (Nat.le_refl room) runs
    rw [runs] at same
    rw [Option.some.inj same]
    exact List.length_take_le _ _
  · rw [← short, decompressLzss, decodeLoop_fuel enough (Nat.lt_succ_self _)]
    rfl

theorem decompressLzss_any_example :
    (decodeLoop 2 9 (.start (fun _ => 0) [0x07, 0x61, 0x62, 0x63])).map (·.dst) =
      some [0x61, 0x62] := by
  have known : decompressLzss (fun _ => 0) 4 [0x07, 0x61, 0x62, 0x63] = some [0x61, 0x62, 0x63] := by
    decide
  obtain ⟨decoded, whole, -, -, runs⟩ := decompressLzss_any (fun _ => 0) [0x07, 0x61, 0x62, 0x63]
    (show 2 ≤ 4 by decide) (show 4 < 9 by decide)
  cases known.symm.trans whole
  exact runs

end NootedDeck.Compression
