import NootedDeck.Compression.Decoding
import NootedDeck.Compression.Window
import NootedDeck.Shared.Accesses

set_option autoImplicit false

namespace NootedDeck.Compression

open Bytes Interleaving Program

structure Buffered (tokens : List Token) (buf : CodeBuf) : Prop where
  few : tokens.length < 8
  flags : buf.flags = flagsOf tokens
  codes : buf.codes = tokens.flatMap Token.code
  mask : buf.mask = 1#8 <<< tokens.length

theorem codes_length (tokens : List Token) : (tokens.flatMap Token.code).length ≤ 2 * tokens.length := by
  induction tokens with
  | nil => exact Nat.le_refl _
  | cons token rest ih =>
      have few := code_le_two token
      rw [List.flatMap_cons, List.length_append, List.length_cons]
      omega

theorem run_put (buf : CodeBuf) (code : Byte) (sp : EncodeState) (room : buf.codes.length < 16) :
    (buf.put code).run sp = some (⟨buf.flags, buf.codes ++ [code], buf.mask⟩, sp) := by
  rw [CodeBuf.put, if_pos (by omega)]
  rfl

section Coding

variable {src : List Byte} {place : Nat} {sp : EncodeState} {encoder : Encoder} {tokens : List Token}

def CodeBuf.coding (buf : CodeBuf) (tokens : List Token) : CodeBuf :=
  ⟨flagsOf tokens, tokens.flatMap Token.code, buf.mask⟩

theorem Encoding.codeLetter (encoding : Encoding src place sp encoder) (some : 0 < encoder.len)
    (buffered : Buffered tokens encoder.buf) (short : min sp.matchLength encoder.len ≤ threshold) :
    (codeNext encoder).run sp =
      Option.some ((1, encoder.buf.coding (tokens ++ [.letter (stream src place)])), sp) := by
  have text : sp.textBuf encoder.r = stream src place := by
    rw [encoding.r]
    have := encoding.short
    exact encoding.window.once place (by omega) (by simp only [uplim, rbsize] at *; omega)
  have inside : encoder.r < rbsize + uplim - 1 := by
    rw [encoding.r]
    have := ring_lt place
    simp only [uplim]
    omega
  have room : encoder.buf.codes.length < 16 := by
    have := codes_length tokens
    have := buffered.few
    rw [buffered.codes]
    omega
  have put := run_put ⟨encoder.buf.flags ||| encoder.buf.mask, encoder.buf.codes, encoder.buf.mask⟩
    (stream src place) sp room
  simp only [Compression.codeNext, run_bind, run_get, Option.bind_some, if_pos short,
    run_textAt sp inside, text, put, run_pure]
  simp [CodeBuf.coding, flagsOf_append _ _ buffered.few, Token.isLetter, Token.code, buffered.codes,
    buffered.flags, buffered.mask]

theorem codeCopy (buffered : Buffered tokens encoder.buf) (long : ¬min sp.matchLength encoder.len ≤ threshold) :
    (codeNext encoder).run sp = some ((min sp.matchLength encoder.len,
      encoder.buf.coding (tokens ++ [.copy sp.matchPosition (min sp.matchLength encoder.len)])), sp) := by
  have room : encoder.buf.codes.length < 15 := by
    have := codes_length tokens
    have := buffered.few
    rw [buffered.codes]
    omega
  have again (code : Byte) : (encoder.buf.codes ++ [code]).length < 16 := by
    rw [List.length_append, List.length_singleton]
    omega
  simp only [Compression.codeNext, run_bind, run_get, Option.bind_some, if_neg long,
    run_put encoder.buf _ sp (Nat.lt_succ_of_lt room), run_put ⟨_, _ ++ [_], _⟩ _ sp (again _), run_pure]
  simp [CodeBuf.coding, flagsOf_append _ _ buffered.few, Token.isLetter, Token.code, buffered.codes,
    buffered.flags]

theorem Encoding.codeNext (encoding : Encoding src place sp encoder)
    (found : Found src place encoder.len sp) (some : 0 < encoder.len)
    (buffered : Buffered tokens encoder.buf) :
    ∃ token, (codeNext encoder).run sp =
        Option.some ((token.span, encoder.buf.coding (tokens ++ [token])), sp) ∧
      token.Means src place ∧ token.span ≤ encoder.len := by
  by_cases short : min sp.matchLength encoder.len ≤ threshold
  · exact ⟨.letter (stream src place), encoding.codeLetter some buffered short, rfl, some⟩
  · refine ⟨.copy sp.matchPosition (min sp.matchLength encoder.len), codeCopy buffered short,
      ⟨by omega, ?_, ?_⟩, Nat.min_le_right _ _⟩
    · exact Nat.le_trans (Nat.min_le_left _ _) found.short
    · obtain ⟨earlier, before, near, same, equal⟩ := found.found (by omega)
      exact ⟨earlier, before, near, same, fun k less => equal k (by omega) (by omega)⟩

end Coding

theorem send_eq {dstlen : Nat} {dst : List Byte} (codes : List Byte) (fits : dst.length ≤ dstlen) :
    send dstlen dst codes =
      if dst.length + codes.length ≤ dstlen then .ok (dst ++ codes)
      else .error ((dst ++ codes).take dstlen) := by
  induction codes generalizing dst with
  | nil => simp [send, fits]
  | cons code rest ih =>
      rw [send]
      by_cases room : dst.length < dstlen
      · rw [if_pos room, ih (by simpa using Nat.succ_le_of_lt room)]
        simp [Nat.add_assoc, Nat.add_comm, Nat.add_left_comm]
      · have full : (dst ++ code :: rest).take dstlen = dst :=
          List.take_left' (Nat.le_antisymm fits (Nat.le_of_not_lt room))
        rw [if_neg room, if_neg (by simp; omega), full]

section Groups

variable {groups : List (List Token)}

theorem flatten_length (full : ∀ group ∈ groups, group.length = 8) :
    groups.flatten.length = 8 * groups.length := by
  induction groups with
  | nil => rfl
  | cons group rest ih =>
      have first := full group List.mem_cons_self
      have later := ih fun group member => full group (List.mem_cons_of_mem _ member)
      rw [List.flatten_cons, List.length_append, List.length_cons]
      omega

theorem packed_length (groups : List (List Token)) :
    (groups.flatMap packGroup).length = groups.length + (groups.flatten.flatMap Token.code).length := by
  induction groups with
  | nil => rfl
  | cons group rest ih =>
      simp only [List.flatMap_cons, List.length_append, ih, packGroup, List.length_cons,
        List.flatten_cons, List.flatMap_append]
      omega

theorem Packed.code_length {src : List Byte} (packed : Packed) {last count : Nat}
    (mean : Mean src base packed.tokens last) (most : last ≤ base + count) :
    packed.code.length ≤ count + (count + 7) / 8 := by
  have units := mean.le
  have codes := mean.code_le
  have groups := packed_length packed.groups
  have whole := flatten_length packed.full
  rw [Packed.tokens, List.length_append, whole] at units
  rw [Packed.tokens, List.flatMap_append, List.length_append] at codes
  rw [Packed.code, List.length_append, groups]
  by_cases none : packed.last = []
  · rw [if_pos none, List.length_nil]
    omega
  · have some := List.length_pos_iff.mpr none
    rw [if_neg none, packGroup, List.length_cons]
    omega

end Groups

structure Sent (src : List Byte) (dstlen place : Nat) (groups : List (List Token)) (tokens : List Token)
    (dst : List Byte) (buf : CodeBuf) : Prop where
  full : ∀ group ∈ groups, group.length = 8
  buffered : Buffered tokens buf
  fits : dst.length ≤ dstlen
  sent : dst = groups.flatMap packGroup
  mean : Mean src base (groups.flatten ++ tokens) place

section Sending

variable {src dst : List Byte} {dstlen place : Nat} {groups : List (List Token)} {tokens : List Token}
  {token : Token} {buf : CodeBuf}

theorem Sent.means (sent : Sent src dstlen place groups tokens dst buf) (means : token.Means src place) :
    Mean src base (groups.flatten ++ (tokens ++ [token])) (place + token.span) := by
  rw [← List.append_assoc]
  exact sent.mean.append ⟨means, rfl⟩

theorem Buffered.mask_shift (buffered : Buffered tokens buf) :
    buf.mask <<< 1 = 1#8 <<< (tokens.length + 1) := by
  rw [buffered.mask, BitVec.shiftLeft_add]

theorem Buffered.flush_full (buffered : Buffered tokens buf) (last : tokens.length = 7)
    (fits : dst.length ≤ dstlen) :
    flush dstlen dst (buf.coding (tokens ++ [token])) =
      if dst.length + (packGroup (tokens ++ [token])).length ≤ dstlen then
        .ok (dst ++ packGroup (tokens ++ [token]), .empty)
      else .error ((dst ++ packGroup (tokens ++ [token])).take dstlen) := by
  have gone : 1#8 <<< (7 + 1) = 0 := by decide
  rw [flush, CodeBuf.coding, buffered.mask_shift, last, if_pos gone, ← packGroup, send_eq _ fits]
  by_cases room : dst.length + (packGroup (tokens ++ [token])).length ≤ dstlen <;>
    simp [room, Except.map]

theorem Buffered.flush_more (buffered : Buffered tokens buf) (more : tokens.length < 7) :
    ∃ buf', flush dstlen dst (buf.coding (tokens ++ [token])) = .ok (dst, buf') ∧
      Buffered (tokens ++ [token]) buf' := by
  have bit : ∀ count < 7, 1#8 <<< (count + 1) ≠ 0 := by decide
  refine ⟨⟨flagsOf (tokens ++ [token]), (tokens ++ [token]).flatMap Token.code, buf.mask <<< 1⟩, ?_,
    ⟨by simpa using Nat.succ_lt_succ more, rfl, rfl, by simpa using buffered.mask_shift⟩⟩
  rw [flush, CodeBuf.coding, if_neg]
  rw [buffered.mask_shift]
  exact bit _ more

theorem Sent.flush (sent : Sent src dstlen place groups tokens dst buf) (means : token.Means src place)
    (inside : place + token.span ≤ base + src.length) :
    (∃ full, flush dstlen dst (buf.coding (tokens ++ [token])) = .error full ∧ full.length = dstlen ∧
      dstlen < src.length + (src.length + 7) / 8) ∨
    ∃ dst' buf' groups' tokens', flush dstlen dst (buf.coding (tokens ++ [token])) = .ok (dst', buf') ∧
      Sent src dstlen (place + token.span) groups' tokens' dst' buf' := by
  have mean := sent.means means
  have few := sent.buffered.few
  by_cases last : tokens.length = 7
  · have full : ∀ group ∈ groups ++ [tokens ++ [token]], group.length = 8 := by
      intro group member
      rcases List.mem_append.mp member with old | new
      · exact sent.full group old
      · rw [List.mem_singleton.mp new, List.length_append, last]
        rfl
    have whole : dst ++ packGroup (tokens ++ [token]) =
        (groups ++ [tokens ++ [token]]).flatMap packGroup := by
      rw [List.flatMap_append, ← sent.sent]
      simp
    have means : Mean src base ((groups ++ [tokens ++ [token]]).flatten ++ []) (place + token.span) := by
      simpa using mean
    rw [sent.buffered.flush_full last sent.fits]
    by_cases room : dst.length + (packGroup (tokens ++ [token])).length ≤ dstlen
    · rw [if_pos room]
      exact Or.inr ⟨_, _, groups ++ [tokens ++ [token]], [], rfl, full, ⟨by decide, rfl, rfl, rfl⟩,
        by rwa [List.length_append], whole, means⟩
    · have most := Packed.code_length ⟨groups ++ [tokens ++ [token]], [], full, by decide⟩ means inside
      rw [Packed.code, ← whole, if_pos rfl, List.append_nil, List.length_append] at most
      refine Or.inl ⟨_, if_neg room, ?_, by omega⟩
      rw [List.length_take, List.length_append]
      omega
  · obtain ⟨buf', flushed, buffered⟩ := sent.buffered.flush_more (by omega)
    exact Or.inr ⟨dst, buf', groups, tokens ++ [token], flushed, sent.full, buffered, sent.fits, sent.sent, mean⟩

end Sending

section Loop

variable {src : List Byte} {dstlen place : Nat} {sp : EncodeState} {encoder : Encoder}
  {groups : List (List Token)} {tokens : List Token}

theorem Encoding.coded (encoding : Encoding src place sp encoder) (matchLength : Nat) (dst : List Byte)
    (buf : CodeBuf) : Encoding src place { sp with matchLength } { encoder with dst, buf } := by
  obtain ⟨trees, forest, within⟩ := encoding.held
  exact ⟨encoding.least, encoding.r, encoding.s, encoding.short, encoding.most, encoding.rest,
    encoding.ended, encoding.window, trees,
    ⟨forest.held, forest.distinct, forest.first, forest.out⟩, within⟩

theorem Encoding.advance (encoding : Encoding src place sp encoder) {count : Nat} (some : 0 < count)
    (most : count ≤ encoder.len) :
    ∃ left middle next between after, (Compression.readOn count encoder).run sp =
        Option.some ((left, middle), between) ∧
      (Compression.runOut left middle).run between = Option.some (next, after) ∧
      Encoding src (place + count) after next ∧ SameCode encoder next ∧
      (0 < next.len → Found src (place + count) next.len after) := by
  obtain ⟨done, left, middle, between, reads, total, reading, length, kept, ends, found⟩ :=
    encoding.readOn count
  obtain ⟨next, after, leaves, encodes, -, same, matched⟩ := reading.runOut ends (by omega)
  rw [Nat.add_assoc, total] at encodes matched
  refine ⟨left, middle, next, between, after, reads, leaves, encodes,
    ⟨same.dst.trans kept.dst, same.buf.trans kept.buf⟩, matched ?_⟩
  by_cases read : 0 < done
  · exact Or.inr (found (Or.inr read))
  · exact Or.inl (by omega)

theorem Encoding.encodeLoop {fuel : Nat} (encoding : Encoding src place sp encoder)
    (found : Found src place encoder.len sp) (some : 0 < encoder.len)
    (sent : Sent src dstlen place groups tokens encoder.dst encoder.buf)
    (enough : base + src.length ≤ place + fuel) :
    ∃ result after, (encodeLoop dstlen fuel encoder).run sp = Option.some (result, after) ∧
      ((∃ full, result = .error full ∧ full.length = dstlen ∧ dstlen < src.length + (src.length + 7) / 8) ∨
        ∃ next groups tokens, result = .ok next ∧
          Sent src dstlen (base + src.length) groups tokens next.dst next.buf) := by
  induction fuel generalizing place sp encoder groups tokens with
  | zero =>
      have := encoding.most
      omega
  | succ fuel ih =>
      obtain ⟨token, codes, means, most⟩ := encoding.codeNext found some sent.buffered
      have inside := encoding.most
      have positive := means.span_pos
      rcases sent.flush means (by omega) with ⟨full, flushed, short⟩ | ⟨dst, buf, groups, tokens, flushed, sent⟩
      · refine ⟨.error full, { sp with matchLength := token.span }, ?_, Or.inl ⟨full, rfl, short⟩⟩
        rw [Compression.encodeLoop]
        simp only [run_bind, codes, Option.bind_some, run_modify, flushed, run_pure]
      · obtain ⟨left, middle, next, between, after, reads, leaves, encodes, same, found⟩ :=
          (encoding.coded token.span dst buf).advance positive most
        have runs : (Compression.encodeLoop dstlen (fuel + 1) encoder).run sp =
            (if 0 < next.len then Compression.encodeLoop dstlen fuel next else pure (.ok next)).run
              after := by
          rw [Compression.encodeLoop]
          simp only [run_bind, codes, Option.bind_some, run_modify, flushed, reads, leaves]
        rw [runs]
        have kept : Sent src dstlen (place + token.span) groups tokens next.dst next.buf := by
          rw [same.dst, same.buf]
          exact sent
        by_cases more : 0 < next.len
        · rw [if_pos more]
          exact ih encodes (found more) more kept (by omega)
        · rw [if_neg more]
          refine ⟨.ok next, after, rfl, Or.inr ⟨next, groups, tokens, rfl, ?_⟩⟩
          have least : next.len < uplim := Nat.lt_of_le_of_lt (Nat.le_of_not_lt more) (by decide)
          rw [← encodes.ended least, Nat.eq_zero_of_not_pos more]
          exact kept

end Loop

section Start

variable {src : List Byte} {sp : EncodeState}

theorem forest_initState : Forest initState fun _ => [] := by
  refine ⟨fun c => ⟨.nil, rfl, ?_⟩, fun _ => List.nodup_nil, by simp, fun p inside _ => if_pos inside⟩
  have bounds := root_bounds c
  change (if rbsize < root c ∧ root c ≤ rbsize + 256 then nil else 0) = nil
  exact if_pos ⟨bounds.1, Nat.le_of_lt_succ bounds.2⟩

theorem run_readFirst (index : Nat) (first : List Byte) (sp : EncodeState)
    (inside : index + first.length ≤ rbsize + uplim - 1) :
    (readFirst index first).run sp =
      some ((), { sp with textBuf := Accesses.placed sp.textBuf index first }) := by
  induction first generalizing index sp with
  | nil => rw [Accesses.placed_nil]; rfl
  | cons c rest ih =>
      rw [List.length_cons] at inside
      simp only [readFirst, run_bind, run_setText sp c (by omega : index < rbsize + uplim - 1),
        Option.bind_some, ih (index + 1) _ (by omega), Accesses.placed_update]

theorem window_first (src : List Byte) :
    Window src (base + (src.take uplim).length)
      (Accesses.placed initState.textBuf base (src.take uplim)) := by
  have short : (src.take uplim).length ≤ uplim := List.length_take_le _ _
  have last : base + uplim = rbsize := by decide
  refine ⟨fun place inside _ => ?_, fun place inside _ late => by omega⟩
  have same : ring place = place := Nat.mod_eq_of_lt (by omega)
  rw [same, stream, Accesses.placed]
  by_cases spaces : place < base
  · rw [if_neg (Nat.not_le.mpr spaces), if_pos spaces]
    exact if_pos spaces
  · have known : (src.take uplim)[place - base]? = src[place - base]? :=
      List.getElem?_take_of_lt (by omega)
    have some : place - base < src.length := by
      rw [List.length_take] at inside
      omega
    rw [if_pos (Nat.le_of_not_lt spaces), if_neg spaces, known, List.getElem?_eq_getElem some]
    rfl

theorem insertSpaces_run {trees : Byte → List Nat} (count i : Nat) (forest : Forest sp trees)
    (some : 0 < i) (enough : i + count ≤ base + 1)
    (near : ∀ c, ∀ p ∈ trees c, base < p + i ∧ p < base) :
    ∃ after more, (insertSpaces base count i).run sp = Option.some ((), after) ∧
      after.textBuf = sp.textBuf ∧ Forest after more ∧
      ∀ c, ∀ p ∈ more c, base < p + (i + count) ∧ p < base := by
  induction count generalizing sp trees i with
  | zero => exact ⟨sp, trees, rfl, rfl, forest, near⟩
  | succ count ih =>
      have fresh : ∀ c, base - i ∉ trees c := fun c member => by
        have := near c _ member
        omega
      obtain ⟨inserted, middle, inserts, text, -, among, grown⟩ :=
        forest.insert (show base - i < rbsize by simp only [base, rbsize]; omega) fresh
      have wider : ∀ c, ∀ p ∈ Function.update trees (sp.textBuf (base - i)) inserted c,
          base < p + (i + 1) ∧ p < base := by
        intro c p member
        rcases mem_grown among member with rfl | old
        · omega
        · have := near c p old
          omega
      obtain ⟨after, more, runs, same, forest, near⟩ := ih (i + 1) grown (Nat.succ_pos i) (by omega) wider
      refine ⟨after, more, ?_, same.trans text, forest, fun c p member => ?_⟩
      · rw [insertSpaces, run_bind, inserts]
        exact runs
      · have := near c p member
        omega

def begun (src : List Byte) : EncodeState :=
  { initState with textBuf := Accesses.placed initState.textBuf base (src.take uplim) }

def firstEncoder (src : List Byte) : Encoder :=
  ⟨src.drop uplim, [], .empty, (src.take uplim).length, 0, base⟩

theorem encoding_first (src : List Byte) :
    ∃ between after, (insertSpaces base uplim 1).run (begun src) = some ((), between) ∧
      (insertNode base).run between = some ((), after) ∧
      Encoding src base after (firstEncoder src) ∧ Found src base (firstEncoder src).len after := by
  have short : (src.take uplim).length ≤ uplim := List.length_take_le _ _
  have last : base - 1 + uplim + 1 = rbsize := by decide
  have positive : 0 < base := by decide
  have empty : Forest (begun src) fun _ => [] := forest_initState.write (by simp)
  obtain ⟨between, spaces, runs, text, forest, near⟩ :=
    insertSpaces_run uplim 1 empty Nat.one_pos (by decide) (by simp)
  have within : Within spaces (base - 1 + uplim + 1) (base - 1) := fun c p member => by
    have := near c p member
    exact ⟨p, by omega, by omega, (Nat.mod_eq_of_lt (by omega)).symm⟩
  have window : Window src (base + (src.take uplim).length) between.textBuf := text ▸ window_first src
  obtain ⟨after, trees, inserts, same, forest, within, found⟩ :=
    within.insert forest window (show base - 1 + 1 + _ = _ by omega) short
  rw [show base - 1 + 1 = base by omega] at inserts within found
  refine ⟨between, after, runs, inserts, ⟨Nat.le_refl _, rfl, rfl, short, ?_, ?_, fun less => ?_,
    same ▸ window, trees, forest, within⟩, found⟩
  · exact Nat.add_le_add_left (List.length_take_le' _ _) _
  · change src.drop uplim = src.drop (base + (src.take uplim).length - base)
    rw [Nat.add_sub_cancel_left, List.length_take]
    by_cases long : uplim ≤ src.length
    · rw [Nat.min_eq_left long]
    · rw [List.drop_eq_nil_of_le (by omega), List.drop_eq_nil_of_le (by omega)]
  · change (src.take uplim).length < uplim at less
    change base + (src.take uplim).length = base + src.length
    rw [List.length_take] at *
    omega

end Start

theorem compressLzss_run (dstlen : Nat) (src : List Byte) (sp : EncodeState) :
    (compressLzss true dstlen src).run sp =
      if src = [] then some (.error [], begun src)
      else (do
        insertSpaces base uplim 1
        insertNode base
        let coded ← encodeLoop dstlen src.length (firstEncoder src)
        pure (coded.bind (sendRemaining dstlen))).run (begun src) := by
  have reads : (readFirst (rbsize - uplim) (src.take uplim)).run initState = some ((), begun src) := by
    refine run_readFirst base (src.take uplim) initState ?_
    have : (src.take uplim).length ≤ uplim := List.length_take_le _ _
    have : base + uplim ≤ rbsize + uplim - 1 := by decide
    omega
  have nothing : (src.take uplim).length = 0 ↔ src = [] := by simp [uplim]
  rw [compressLzss, if_neg (by simp)]
  by_cases empty : src = []
  · simp only [run_bind, run_modify, Option.bind_some, reads, if_pos (nothing.mpr empty), run_pure,
      if_pos empty]
  · simp only [run_bind, run_modify, Option.bind_some, reads, if_neg (mt nothing.mp empty), if_neg empty]
    rfl

theorem Sent.sendRemaining {src : List Byte} {dstlen : Nat} {groups : List (List Token)}
    {tokens : List Token} {encoder : Encoder}
    (sent : Sent src dstlen (base + src.length) groups tokens encoder.dst encoder.buf) :
    ∃ packed : Packed, Mean src base packed.tokens (base + src.length) ∧
      sendRemaining dstlen encoder =
        if packed.code.length ≤ dstlen then .ok packed.code else .error (packed.code.take dstlen) := by
  have codes : encoder.buf.codes = tokens.flatMap Token.code := sent.buffered.codes
  refine ⟨⟨groups, tokens, sent.full, sent.buffered.few⟩, sent.mean, ?_⟩
  by_cases empty : tokens = []
  · simp only [Packed.code, if_pos empty, List.append_nil, ← sent.sent, if_pos sent.fits]
    rw [Compression.sendRemaining, codes, empty]
    rfl
  · have some : 0 < (tokens.flatMap Token.code).length :=
      Nat.lt_of_lt_of_le (List.length_pos_iff.mpr empty) (length_le_flatMap tokens)
    simp only [Packed.code, if_neg empty, ← sent.sent]
    rw [Compression.sendRemaining, codes, if_pos some, send_eq _ sent.fits, sent.buffered.flags,
      List.length_append, packGroup]

def Compressed (src code : List Byte) : Prop :=
  ∃ packed : Packed, Mean src base packed.tokens (base + src.length) ∧ code = packed.code

theorem Compressed.short {src code : List Byte} (compressed : Compressed src code) :
    code.length ≤ src.length + (src.length + 7) / 8 := by
  obtain ⟨packed, mean, rfl⟩ := compressed
  exact packed.code_length mean (Nat.le_refl _)

theorem Compressed.decodes {src code : List Byte} (compressed : Compressed src code)
    (uninitialised : Nat → Byte) (size : Nat) :
    decompressLzss uninitialised size code = some (src.take size) := by
  obtain ⟨packed, mean, rfl⟩ := compressed
  exact decompressLzss_take (Nat.le_max_left size src.length)
    (decompressLzss_code uninitialised mean (Nat.le_max_right size src.length))

/-- Within the bounds of its arrays, the encoder makes such a code of every text. Only a text that is
empty or a destination shorter than what the text may need is refused, and then all of it was written. -/
theorem compressLzss_compressed (dstlen : Nat) (src : List Byte) (sp : EncodeState) :
    ∃ result after, (compressLzss true dstlen src).run sp = some (result, after) ∧
      (src = [] ∧ result = .error [] ∨
        (∃ full, result = .error full ∧ full.length = dstlen ∧
          dstlen < src.length + (src.length + 7) / 8) ∨
        ∃ code, result = .ok code ∧ code.length ≤ dstlen ∧ Compressed src code) := by
  rw [compressLzss_run]
  by_cases empty : src = []
  · exact ⟨.error [], begun src, if_pos empty, Or.inl ⟨empty, rfl⟩⟩
  rw [if_neg empty]
  obtain ⟨between, after, spaces, inserts, encoding, found⟩ := encoding_first src
  have some : 0 < (firstEncoder src).len := by
    simpa [firstEncoder, uplim, Nat.pos_iff_ne_zero] using empty
  have sent : Sent src dstlen base [] [] (firstEncoder src).dst (firstEncoder src).buf :=
    ⟨by simp, ⟨by decide, rfl, rfl, rfl⟩, Nat.zero_le _, rfl, rfl⟩
  obtain ⟨coded, last, loops, known⟩ := encoding.encodeLoop found some sent (Nat.le_refl _)
  refine ⟨coded.bind (sendRemaining dstlen), last, ?_, Or.inr ?_⟩
  · simp only [run_bind, spaces, inserts, loops, Option.bind_some, run_pure]
  rcases known with ⟨full, rfl, short⟩ | ⟨next, groups, tokens, rfl, sent⟩
  · exact Or.inl ⟨full, rfl, short⟩
  · obtain ⟨packed, mean, sends⟩ := sent.sendRemaining
    have most := packed.code_length mean (Nat.le_refl _)
    simp only [Except.bind, sends]
    by_cases room : packed.code.length ≤ dstlen
    · exact Or.inr ⟨packed.code, if_pos room, room, packed, mean, rfl⟩
    · refine Or.inl ⟨_, if_neg room, ?_, by omega⟩
      rw [List.length_take]
      omega

/-- What was compressed is what any destination that is not longer gets back. -/
theorem decompress_compress (dstlen : Nat) (src : List Byte) (sp : EncodeState) :
    ∃ result after, (compress true true modeLzss dstlen src).run sp = some (result, after) ∧
      (∀ written, result = .error written → src = [] ∨ dstlen < src.length + (src.length + 7) / 8) ∧
      ∀ code, result = .ok code → code.length ≤ dstlen ∧ ∀ decoders uninitialised size,
        decompressInternal decoders uninitialised true true modeLzss size code =
          some (if size ≤ src.length then some (src.take size) else none) := by
  obtain ⟨result, after, runs, known⟩ := compressLzss_compressed dstlen src sp
  refine ⟨result, after, runs, ?_, ?_⟩
  · intro written failed
    rcases known with ⟨empty, -⟩ | ⟨full, -, -, short⟩ | ⟨code, ended, -⟩
    · exact Or.inl empty
    · exact Or.inr short
    · rw [failed] at ended
      cases ended
  · rintro code rfl
    rcases known with ⟨-, ended⟩ | ⟨full, ended, -⟩ | ⟨code, ⟨⟩, fits, compressed⟩
    · cases ended
    · cases ended
    · refine ⟨fits, fun decoders uninitialised size => ?_⟩
      have decodes := compressed.decodes uninitialised size
      by_cases less : size ≤ src.length <;>
        simp [decompressInternal, decode, decodes, less]

end NootedDeck.Compression
