import NootedDeck.Compression.Lzss

set_option autoImplicit false

-- The code is a list of units in groups of eight, each group with a byte that says which of its
-- units are letters. Places in the text are counted from the beginning, with the spaces before the
-- first byte.

namespace NootedDeck.Compression

open Bytes

inductive Token where
  | letter (c : Byte)
  | copy (position count : Nat)

namespace Token

def isLetter : Token → Bool
  | .letter _ => true
  | .copy .. => false

def span : Token → Nat
  | .letter _ => 1
  | .copy _ count => count

def code : Token → List Byte
  | .letter c => [c]
  | .copy position count =>
      [(BitVec.ofNat 32 position).setWidth 8,
        ((BitVec.ofNat 32 position >>> 4) &&& 0xF0#32 |||
          BitVec.ofNat 32 (count - (threshold + 1))).setWidth 8]

end Token

def flagsOf : List Token → Byte
  | [] => 0
  | token :: rest => flagsOf rest <<< 1 ||| if token.isLetter then 1 else 0

def packGroup (group : List Token) : List Byte := flagsOf group :: group.flatMap Token.code

structure Packed where
  groups : List (List Token)
  last : List Token
  full : ∀ group ∈ groups, group.length = 8
  short : last.length < 8

def Packed.tokens (packed : Packed) : List Token := packed.groups.flatten ++ packed.last

def Packed.code (packed : Packed) : List Byte :=
  packed.groups.flatMap packGroup ++ if packed.last = [] then [] else packGroup packed.last

def base : Nat := rbsize - uplim

def stream (src : List Byte) (place : Nat) : Byte :=
  if place < base then 0x20 else (src[place - base]?).getD 0

def Token.Means (src : List Byte) (place : Nat) : Token → Prop
  | .letter c => c = stream src place
  | .copy position count => threshold < count ∧ count ≤ uplim ∧
      ∃ earlier < place, place + uplim ≤ earlier + rbsize ∧ position = ring earlier ∧
        ∀ k < count, stream src (earlier + k) = stream src (place + k)

def Mean (src : List Byte) : Nat → List Token → Nat → Prop
  | place, [], last => place = last
  | place, token :: rest, last => token.Means src place ∧ Mean src (place + token.span) rest last

section Meaning

variable {src : List Byte} {place last : Nat} {token : Token} {tokens more : List Token}

theorem Mean.append {middle : Nat} (first : Mean src place tokens middle) (second : Mean src middle more last) :
    Mean src place (tokens ++ more) last := by
  induction tokens generalizing place with
  | nil =>
      cases first
      exact second
  | cons token rest ih => exact ⟨first.1, ih first.2⟩

theorem Mean.split (mean : Mean src place (tokens ++ more) last) :
    ∃ middle, Mean src place tokens middle ∧ Mean src middle more last := by
  induction tokens generalizing place with
  | nil => exact ⟨place, rfl, mean⟩
  | cons token rest ih =>
      obtain ⟨middle, first, second⟩ := ih mean.2
      exact ⟨middle, ⟨mean.1, first⟩, second⟩

theorem Token.Means.span_pos (means : token.Means src place) : 0 < token.span := by
  cases token with
  | letter => exact Nat.one_pos
  | copy => exact Nat.lt_of_le_of_lt (Nat.zero_le _) means.1

theorem Token.Means.code_le (means : token.Means src place) : token.code.length ≤ token.span := by
  cases token with
  | letter => exact Nat.le_refl _
  | copy => exact Nat.le_of_lt means.1

theorem code_pos (token : Token) : 0 < token.code.length := by
  cases token <;> simp [Token.code]

theorem code_le_two (token : Token) : token.code.length ≤ 2 := by
  cases token <;> simp [Token.code]

theorem Mean.le (mean : Mean src place tokens last) : place + tokens.length ≤ last := by
  induction tokens generalizing place with
  | nil => exact Nat.le_of_eq mean
  | cons token rest ih =>
      have later := ih mean.2
      have some := mean.1.span_pos
      rw [List.length_cons]
      omega

theorem Mean.code_le (mean : Mean src place tokens last) :
    place + (tokens.flatMap Token.code).length ≤ last := by
  induction tokens generalizing place with
  | nil => exact Nat.le_of_eq mean
  | cons token rest ih =>
      have later := ih mean.2
      have some := mean.1.code_le
      rw [List.flatMap_cons, List.length_append]
      omega

end Meaning

section Flags

theorem flagsOf_getLsbD (tokens : List Token) {k : Nat} (inside : k < 8) :
    (flagsOf tokens).getLsbD k = (tokens[k]?.map Token.isLetter).getD false := by
  induction tokens generalizing k with
  | nil => simp [flagsOf]
  | cons token rest ih =>
      cases k with
      | zero => cases letter : token.isLetter <;> simp [flagsOf, letter]
      | succ k =>
          have later := ih (show k < 8 by omega)
          rw [BitVec.getLsbD_eq_getElem (by omega)] at later
          cases letter : token.isLetter <;> simp [flagsOf, letter, inside, later]

theorem flagsOf_append (tokens : List Token) (token : Token) (few : tokens.length < 8) :
    flagsOf (tokens ++ [token]) =
      flagsOf tokens ||| if token.isLetter then 1#8 <<< tokens.length else 0 := by
  apply BitVec.eq_of_getLsbD_eq
  intro k inside
  rw [BitVec.getLsbD_or, flagsOf_getLsbD _ inside, flagsOf_getLsbD _ inside]
  rcases Nat.lt_trichotomy k tokens.length with before | rfl | behind
  · rw [List.getElem?_append_left before]
    cases token.isLetter <;> simp [before]
  · cases letter : token.isLetter <;> simp [letter, few]
  · have nothing : tokens[k]? = none := List.getElem?_eq_none (Nat.le_of_lt behind)
    have beyond : (tokens ++ [token])[k]? = none := List.getElem?_eq_none (by simp; omega)
    have shifted : k - tokens.length ≠ 0 := by omega
    cases token.isLetter <;> simp [nothing, beyond, inside, shifted]

def flagWord (flags : Byte) (k : Nat) : BitVec 32 := (flags.setWidth 32 ||| 0xFF00) >>> k

theorem flagWord_letter (flags : Byte) {k : Nat} (inside : k < 8) :
    flagWord flags k &&& 1 ≠ 0 ↔ flags.getLsbD k = true := by
  have upper : (0xFF00 : BitVec 32).getLsbD k = false := by
    revert k
    decide
  have bit : (flagWord flags k).getLsbD 0 = flags.getLsbD k := by
    rw [flagWord, BitVec.getLsbD_ushiftRight, BitVec.getLsbD_or, BitVec.getLsbD_setWidth]
    simp only [Nat.add_zero, upper, Bool.or_false, Nat.lt_trans inside (by decide : 8 < 32), decide_true,
      Bool.true_and]
  rw [show (1 : BitVec 32) = BitVec.twoPow 32 0 from rfl, BitVec.and_twoPow, bit]
  cases flags.getLsbD k <;> decide

theorem flagWord_more (flags : Byte) {k : Nat} (inside : k ≤ 8) :
    flagWord flags k &&& 0x100 = 0 ↔ k = 8 := by
  have upper : (0xFF00#32).getLsbD (k + 8) = decide (k ≠ 8) := by
    revert k
    decide
  have bit : (flagWord flags k).getLsbD 8 = decide (k ≠ 8) := by
    simp [flagWord, upper]
  rw [show (0x100 : BitVec 32) = BitVec.twoPow 32 8 from rfl, BitVec.and_twoPow, bit]
  by_cases last : k = 8
  · simp [last]
  · simp only [last, ne_eq, not_false_eq_true, decide_true, if_true, iff_false]
    decide

end Flags

section Copies

theorem upper_digit : ∀ high < 16, ∀ low < 16, (16 * high + low) &&& 0xF0 = 16 * high := by decide

theorem lower_digit : ∀ high < 16, ∀ low < 16, (16 * high + low) &&& 0x0F = low := by decide

theorem join_digits : ∀ high < 16, ∀ low < 16, 16 * high ||| low = 16 * high + low := by decide

theorem copy_second {position count : Nat} (inside : position < rbsize) (long : threshold < count)
    (short : count ≤ uplim) :
    (((BitVec.ofNat 32 position >>> 4) &&& 0xF0#32 |||
      BitVec.ofNat 32 (count - (threshold + 1))).setWidth 8).toNat =
      16 * (position / 256) + (count - (threshold + 1)) := by
  simp only [rbsize, threshold, uplim] at *
  have high : position / 256 < 16 := by omega
  have low : count - 3 < 16 := by omega
  have split : position >>> 4 = 16 * (position / 256) + position / 16 % 16 := by
    rw [Nat.shiftRight_eq_div_pow]
    omega
  have word : position % 2 ^ 32 = position := Nat.mod_eq_of_lt (by omega)
  have rest : (count - (2 + 1)) % 2 ^ 32 = count - 3 := Nat.mod_eq_of_lt (by omega)
  simp only [BitVec.toNat_setWidth, BitVec.toNat_or, BitVec.toNat_and, BitVec.toNat_ushiftRight,
    BitVec.toNat_ofNat, word, rest, split]
  rw [show 0xF0 % 2 ^ 32 = 0xF0 from rfl, upper_digit _ high _ (by omega), join_digits _ high _ low]
  omega

theorem copy_first {position : Nat} : ((BitVec.ofNat 32 position).setWidth 8).toNat = position % 256 := by
  simp only [BitVec.toNat_setWidth, BitVec.toNat_ofNat]
  omega

theorem copy_position {position low : Nat} (inside : position < rbsize) (small : low < 16) :
    position % 256 ||| ((16 * (position / 256) + low) &&& 0xF0) <<< 4 = position := by
  simp only [rbsize] at inside
  have high : position / 256 < 16 := by omega
  rw [upper_digit _ high _ small, Nat.or_comm, Nat.shiftLeft_eq,
    show 16 * (position / 256) * 2 ^ 4 = (position / 256) <<< 8 by rw [Nat.shiftLeft_eq]; omega,
    ← Nat.shiftLeft_add_eq_or_of_lt (Nat.mod_lt _ (by decide)), Nat.shiftLeft_eq]
  omega

end Copies

section Decoding

structure Decoded (src : List Byte) (place : Nat) (decoder : Decoder) : Prop where
  least : base ≤ place
  most : place ≤ base + src.length
  r : decoder.r = ring place
  dst : decoder.dst = src.take (place - base)
  text : ∀ earlier < place, place ≤ earlier + rbsize →
    decoder.textBuf (ring earlier) = stream src earlier

variable {src : List Byte} {place dstlen : Nat} {decoder : Decoder}

theorem ring_add (index k : Nat) : ring (ring index + k) = ring (index + k) := by
  simp [ring]

theorem ring_lt (index : Nat) : ring index < rbsize := Nat.mod_lt _ (by decide)

theorem ring_ne {earlier place : Nat} (before : earlier < place) (near : place < earlier + rbsize) :
    ring earlier ≠ ring place := by
  simp only [ring, rbsize] at *
  omega

theorem Decoded.reading (decoded : Decoded src place decoder) (rest : List Byte) (flags : BitVec 32) :
    Decoded src place { decoder with src := rest, flags } :=
  ⟨decoded.least, decoded.most, decoded.r, decoded.dst, decoded.text⟩

theorem Decoded.output (decoded : Decoded src place decoder) (more : place < base + src.length) :
    Decoded src (place + 1) (decoder.output (stream src place)) := by
  refine ⟨Nat.le_succ_of_le decoded.least, more, ?_, ?_, fun earlier before near => ?_⟩
  · rw [Decoder.output, decoded.r, ring_add]
  · have least := decoded.least
    have inside : place - base < src.length := by omega
    have next : place + 1 - base = place - base + 1 := by omega
    rw [Decoder.output, decoded.dst, next, stream, if_neg (Nat.not_lt.mpr decoded.least),
      List.take_add_one, List.getElem?_eq_getElem inside]
    rfl
  · simp only [Decoder.output, decoded.r]
    by_cases same : earlier = place
    · rw [same, Function.update_self]
    · have other := ring_ne (show earlier < place by omega) (by omega)
      rw [Function.update_of_ne other]
      exact decoded.text earlier (by omega) (by omega)

theorem Decoded.room (decoded : Decoded src place decoder) (more : place < base + src.length)
    (enough : src.length ≤ dstlen) : decoder.dst.length < dstlen := by
  rw [decoded.dst, List.length_take]
  have least := decoded.least
  omega

theorem Decoded.copy {earlier count k position : Nat} (decoded : Decoded src (place + k) decoder)
    (fits : place + k + count ≤ base + src.length) (enough : src.length ≤ dstlen)
    (before : earlier < place) (near : place ≤ earlier + rbsize) (found : position = ring earlier)
    (same : ∀ i < k + count, stream src (earlier + i) = stream src (place + i)) :
    Decoded src (place + k + count) (copyFrom dstlen position count k decoder) := by
  induction count generalizing k decoder with
  | zero => exact decoded
  | succ count ih =>
      have c : decoder.textBuf (ring (position + k)) = stream src (place + k) := by
        rw [found, ring_add, decoded.text _ (by omega) (by omega), same k (by omega)]
      rw [copyFrom, if_pos (decoded.room (by omega) enough), c]
      have next := ih (k := k + 1) (decoded.output (by omega)) (by omega) fun i less => same i (by omega)
      rwa [show place + k + (count + 1) = place + (k + 1) + count by omega]

theorem copyFrom_src (position count k : Nat) :
    (copyFrom dstlen position count k decoder).src = decoder.src ∧
      (copyFrom dstlen position count k decoder).flags = decoder.flags := by
  induction count generalizing k decoder with
  | zero => exact ⟨rfl, rfl⟩
  | succ count ih =>
      rw [copyFrom]
      split_ifs
      · exact ih _
      · exact ⟨rfl, rfl⟩

theorem Decoded.unit {token : Token} {rest : List Byte} (decoded : Decoded src place decoder)
    (means : token.Means src place) (fits : place + token.span ≤ base + src.length)
    (enough : src.length ≤ dstlen) (code : decoder.src = token.code ++ rest)
    (flag : decoder.flags &&& 1 ≠ 0 ↔ token.isLetter = true) :
    ∃ after, decodeUnit dstlen decoder = (after, true) ∧ Decoded src (place + token.span) after ∧
      after.src = rest ∧ after.flags = decoder.flags := by
  have reading := decoded.reading rest decoder.flags
  cases token with
  | letter c =>
      have letter : decoder.flags &&& 1 ≠ 0 := flag.mpr rfl
      have code : decoder.src = c :: rest := code
      have room := decoded.room (Nat.lt_of_succ_le fits) enough
      refine ⟨{ decoder with src := rest }.output c, ?_, ?_, rfl, rfl⟩
      · simp only [decodeUnit, if_pos letter, code, if_pos room]
      · rw [show c = stream src place from means]
        exact reading.output (Nat.lt_of_succ_le fits)
  | copy position count =>
      obtain ⟨long, short, earlier, before, near, found, same⟩ := means
      have inside : position < rbsize := found ▸ ring_lt earlier
      have letter : ¬decoder.flags &&& 1 ≠ 0 := fun letter => by cases flag.mp letter
      have low : count - (threshold + 1) < 16 := by
        simp only [threshold, uplim] at *
        omega
      refine ⟨copyFrom dstlen position count 0 { decoder with src := rest }, ?_, ?_, ?_⟩
      · have high : position / 256 < 16 := by
          simp only [rbsize] at inside
          omega
        have whole : count - (threshold + 1) + threshold + 1 = count := by omega
        simp only [decodeUnit, if_neg letter, code, Token.code, List.cons_append, List.nil_append,
          copy_first, copy_second inside long short, copy_position inside low,
          lower_digit _ high _ low, whole]
      · refine Decoded.copy (k := 0) reading fits enough before (by omega) found fun i less => ?_
        exact same i (by simpa [Token.span] using less)
      · exact copyFrom_src position count 0

theorem flagWord_succ (flags : Byte) (k : Nat) : flagWord flags k >>> 1 = flagWord flags (k + 1) := by
  rw [flagWord, flagWord, BitVec.shiftRight_add]

def decodeFrom (dstlen fuel : Nat) (decoder : Decoder) : Option Decoder :=
  if (decodeUnit dstlen decoder).2 then decodeLoop dstlen fuel (decodeUnit dstlen decoder).1
  else some (decodeUnit dstlen decoder).1

theorem decodeLoop_more {fuel k : Nat} {flags : Byte} (known : decoder.flags = flagWord flags k)
    (inside : k < 7) : decodeLoop dstlen (fuel + 1) decoder =
      decodeFrom dstlen fuel { decoder with flags := flagWord flags (k + 1) } := by
  have more := (flagWord_more flags (show k + 1 ≤ 8 by omega)).not.mpr (by omega)
  simp only [decodeLoop, known, flagWord_succ, if_neg more]
  rfl

theorem decodeLoop_flags {fuel : Nat} {flags : Byte} {rest : List Byte}
    (none : decoder.flags >>> 1 &&& 0x100 = 0) (code : decoder.src = flags :: rest) :
    decodeLoop dstlen (fuel + 1) decoder =
      decodeFrom dstlen fuel { decoder with src := rest, flags := flagWord flags 0 } := by
  simp only [decodeLoop, if_pos none, code]
  rfl

variable {last : Nat} {tokens : List Token} {rest : List Byte}

theorem Decoded.units {flags : Byte} {k : Nat} {token : Token} (decoded : Decoded src place decoder)
    (mean : Mean src place (token :: tokens) last) (fits : last ≤ base + src.length)
    (enough : src.length ≤ dstlen) (code : decoder.src = (token :: tokens).flatMap Token.code ++ rest)
    (known : decoder.flags = flagWord flags k) (inside : k + tokens.length < 8)
    (letters : ∀ i, (inside : i < (token :: tokens).length) →
      flags.getLsbD (k + i) = (token :: tokens)[i].isLetter) :
    ∃ after, Decoded src last after ∧ after.src = rest ∧
      after.flags = flagWord flags (k + tokens.length) ∧
      ∀ fuel, decodeFrom dstlen (fuel + tokens.length) decoder = decodeLoop dstlen fuel after := by
  induction tokens generalizing place decoder k token with
  | nil =>
      obtain ⟨means, ends⟩ := mean
      have ends : place + token.span = last := ends
      have flag : decoder.flags &&& 1 ≠ 0 ↔ token.isLetter = true := by
        rw [known, flagWord_letter flags (by omega)]
        exact iff_of_eq (congrArg (· = true) (letters 0 (by simp)))
      obtain ⟨after, unit, decoded, left, same⟩ :=
        decoded.unit means (ends ▸ fits) enough (by simpa using code) flag
      exact ⟨after, ends ▸ decoded, left, same.trans known, fun fuel => by rw [decodeFrom, unit]; rfl⟩
  | cons next tokens ih =>
      obtain ⟨means, later⟩ := mean
      have flag : decoder.flags &&& 1 ≠ 0 ↔ token.isLetter = true := by
        rw [known, flagWord_letter flags (by omega)]
        exact iff_of_eq (congrArg (· = true) (letters 0 (by simp)))
      have bound := later.le
      rw [List.length_cons] at inside
      obtain ⟨middle, unit, decoded, left, same⟩ := decoded.unit means (by omega) enough
        (show decoder.src = token.code ++ ((next :: tokens).flatMap Token.code ++ rest) by
          rw [code, List.flatMap_cons, List.append_assoc]) flag
      obtain ⟨after, ended, left', flags', runs⟩ := ih (k := k + 1)
        (decoded.reading middle.src (flagWord flags (k + 1))) later left rfl (by omega) fun i less => by
          have := letters (i + 1) (by simpa using less)
          rwa [show k + (i + 1) = k + 1 + i by omega] at this
      refine ⟨after, ended, left', by rw [flags', List.length_cons]; congr 1; omega, fun fuel => ?_⟩
      rw [decodeFrom, unit, List.length_cons, ← Nat.add_assoc,
        if_pos rfl, decodeLoop_more (same.trans known) (by omega)]
      exact runs fuel

theorem Decoded.group (decoded : Decoded src place decoder) (some : tokens ≠ [])
    (mean : Mean src place tokens last) (fits : last ≤ base + src.length) (enough : src.length ≤ dstlen)
    (code : decoder.src = packGroup tokens ++ rest) (few : tokens.length ≤ 8)
    (none : decoder.flags >>> 1 &&& 0x100 = 0) :
    ∃ after, Decoded src last after ∧ after.src = rest ∧
      after.flags = flagWord (flagsOf tokens) (tokens.length - 1) ∧
      ∀ fuel, decodeLoop dstlen (fuel + tokens.length) decoder = decodeLoop dstlen fuel after := by
  cases tokens with
  | nil => exact absurd rfl some
  | cons token tokens =>
      rw [List.length_cons] at few
      obtain ⟨after, ended, left, flags, runs⟩ :=
        (decoded.reading ((token :: tokens).flatMap Token.code ++ rest)
          (flagWord (flagsOf (token :: tokens)) 0)).units mean fits enough rfl rfl (by omega)
          fun i less => by
            rw [List.length_cons] at less
            rw [Nat.zero_add, flagsOf_getLsbD _ (by omega), List.getElem?_eq_getElem (by simpa using less)]
            rfl
      refine ⟨after, ended, left, by simpa using flags, fun fuel => ?_⟩
      rw [List.length_cons, ← Nat.add_assoc, decodeLoop_flags none (show decoder.src =
        flagsOf (token :: tokens) :: ((token :: tokens).flatMap Token.code ++ rest) from code)]
      exact runs fuel

theorem Decoded.groups {groups : List (List Token)} (decoded : Decoded src place decoder)
    (full : ∀ group ∈ groups, group.length = 8) (mean : Mean src place groups.flatten last)
    (fits : last ≤ base + src.length) (enough : src.length ≤ dstlen)
    (code : decoder.src = groups.flatMap packGroup ++ rest)
    (none : decoder.flags >>> 1 &&& 0x100 = 0) :
    ∃ after, Decoded src last after ∧ after.src = rest ∧ after.flags >>> 1 &&& 0x100 = 0 ∧
      ∀ fuel, decodeLoop dstlen (fuel + 8 * groups.length) decoder = decodeLoop dstlen fuel after := by
  induction groups generalizing place decoder with
  | nil => exact ⟨decoder, (show place = last from mean) ▸ decoded, code, none, fun _ => rfl⟩
  | cons group groups ih =>
      rw [List.forall_mem_cons] at full
      obtain ⟨middle, first, second⟩ := Mean.split mean
      have bound := second.le
      obtain ⟨between, ended, left, flags, runs⟩ := decoded.group
        (fun nothing => by simp [nothing] at full) first (by omega) enough
        (show decoder.src = packGroup group ++ (groups.flatMap packGroup ++ rest) by
          rw [code, List.flatMap_cons, List.append_assoc]) (by omega) none
      rw [full.1] at flags runs
      have again : between.flags >>> 1 &&& 0x100 = 0 := by
        rw [flags, flagWord_succ, flagWord_more _ (by decide)]
      obtain ⟨after, ended, left, none, runs'⟩ := ih ended full.2 second left again
      refine ⟨after, ended, left, none, fun fuel => ?_⟩
      rw [← runs', ← runs, List.length_cons]
      congr 1

theorem length_le_flatMap (tokens : List Token) : tokens.length ≤ (tokens.flatMap Token.code).length := by
  induction tokens with
  | nil => exact Nat.le_refl _
  | cons token rest ih =>
      have some := code_pos token
      rw [List.flatMap_cons, List.length_append, List.length_cons]
      omega

theorem length_le_code (groups : List (List Token)) (full : ∀ group ∈ groups, group.length = 8) :
    8 * groups.length ≤ (groups.flatMap packGroup).length := by
  induction groups with
  | nil => exact Nat.le_refl _
  | cons group groups ih =>
      rw [List.forall_mem_cons] at full
      have later := ih full.2
      have units := length_le_flatMap group
      rw [List.flatMap_cons, List.length_append, List.length_cons, packGroup, List.length_cons]
      omega

theorem decompressLzss_code {packed : Packed} (uninitialised : Nat → Byte)
    (mean : Mean src base packed.tokens (base + src.length)) (enough : src.length ≤ dstlen) :
    decompressLzss uninitialised dstlen packed.code = some src := by
  obtain ⟨groups, last, full, short⟩ := packed
  obtain ⟨middle, first, second⟩ := Mean.split mean
  have bound := second.le
  let start : Decoder :=
    { src := Packed.code ⟨groups, last, full, short⟩, dst := [], flags := 0, r := base
      textBuf := fun index => if index < base then 0x20 else uninitialised index }
  have started : Decoded src base start := by
    refine ⟨Nat.le_refl _, Nat.le_add_right _ _, rfl, by simp [start], fun earlier before _ => ?_⟩
    have inside : ring earlier = earlier := Nat.mod_eq_of_lt (Nat.lt_trans before (by decide))
    rw [inside, stream, if_pos before]
    exact if_pos before
  obtain ⟨between, decoded, left, none, runs⟩ :=
    started.groups full first (by omega) enough rfl (show (0 : BitVec 32) >>> 1 &&& 0x100 = 0 by decide)
  have whole {after : Decoder} (ended : Decoded src (base + src.length) after) :
      (some after).map (·.dst) = some src := by
    rw [Option.map_some, ended.dst, Nat.add_sub_cancel_left, List.take_length]
  have sized := length_le_code groups full
  change (decodeLoop dstlen (start.src.length + 1) start).map (·.dst) = some src
  by_cases ends : last = []
  · have code : start.src = groups.flatMap packGroup := by simp [start, Packed.code, ends]
    have nothing : between.src = [] := by rw [left, if_pos ends]
    subst ends
    obtain ⟨fuel, enough⟩ := Nat.exists_eq_add_of_le' (code ▸ sized)
    rw [enough, Nat.add_right_comm, runs]
    simp only [decodeLoop, if_pos none, nothing]
    exact whole ((show middle = _ from second) ▸ decoded.reading [] _)
  · have code : start.src = groups.flatMap packGroup ++ packGroup last := by
      simp [start, Packed.code, ends]
    rw [if_neg ends] at left
    obtain ⟨after, ended, empty, flags, runs'⟩ := decoded.group ends second (by omega) enough
      (show between.src = packGroup last ++ [] by simpa using left) (Nat.le_of_lt short) none
    have some := List.length_pos_of_ne_nil ends
    have units := length_le_flatMap last
    obtain ⟨fuel, fueled⟩ : ∃ fuel, start.src.length + 1 =
        fuel + 1 + last.length + 8 * groups.length := by
      refine ⟨start.src.length - last.length - 8 * groups.length, ?_⟩
      rw [code, List.length_append, packGroup, List.length_cons]
      omega
    have letter : ¬flagWord (flagsOf last) (last.length - 1 + 1) &&& 1 ≠ 0 := by
      rw [Nat.sub_add_cancel some, flagWord_letter _ short, flagsOf_getLsbD _ short]
      simp
    rw [fueled, runs, runs', decodeLoop_more flags (by omega), decodeFrom]
    simp only [decodeUnit, if_neg letter, empty, Bool.false_eq_true, if_false]
    exact whole (ended.reading [] _)

end Decoding

end NootedDeck.Compression
