import NootedDeck.Compression.Codes
import NootedDeck.Compression.Trees

set_option autoImplicit false

namespace NootedDeck.Compression

open Bytes Interleaving Program

structure Window (src : List Byte) (last : Nat) (text : Nat → Byte) : Prop where
  once : ∀ place < last, last ≤ place + rbsize → text (ring place) = stream src place
  again : ∀ place < last, last ≤ place + rbsize → rbsize ≤ place → ring place < uplim - 1 →
    text (ring place + rbsize) = stream src place

section Text

variable {src : List Byte} {last place : Nat} {text : Nat → Byte}

-- A string may go on in the bytes that are there once more.
theorem Window.string {k : Nat} (window : Window src last text) (inside : place + k < last)
    (near : last ≤ place + rbsize) (short : k < uplim) : text (ring place + k) = stream src (place + k) := by
  by_cases wraps : ring place + k < rbsize
  · have same : ring (place + k) = ring place + k := by
      simp only [ring, rbsize] at *
      omega
    rw [← same]
    exact window.once _ inside (by omega)
  · have same : ring (place + k) + rbsize = ring place + k := by
      simp only [ring, rbsize, uplim] at *
      omega
    rw [← same]
    refine window.again _ inside (by omega) ?_ ?_
    · have := Nat.mod_le place rbsize
      simp only [ring] at wraps
      omega
    · simp only [ring, rbsize, uplim] at *
      omega

def written (text : Nat → Byte) (s : Nat) (c : Byte) : Nat → Byte :=
  if s < uplim - 1 then Function.update (Function.update text s c) (s + rbsize) c
  else Function.update text s c

theorem written_ring (s : Nat) (c : Byte) {index : Nat} (inside : index < rbsize) :
    written text s c index = if index = s then c else text index := by
  by_cases first : s < uplim - 1
  · have other : index ≠ s + rbsize := by omega
    rw [written, if_pos first, Function.update_of_ne other, Function.update_apply]
  · rw [written, if_neg first, Function.update_apply]

theorem written_again (s : Nat) (c : Byte) {index : Nat} (inside : s < rbsize)
    (first : index < uplim - 1) :
    written text s c (index + rbsize) = if index = s then c else text (index + rbsize) := by
  have other : index + rbsize ≠ s := by omega
  by_cases same : index = s
  · subst same
    rw [written, if_pos first, Function.update_self, if_pos rfl]
  · have apart : index + rbsize ≠ s + rbsize := by omega
    rw [if_neg same, written]
    split_ifs
    · rw [Function.update_of_ne apart, Function.update_of_ne other]
    · rw [Function.update_of_ne other]

theorem Window.write (window : Window src last text) :
    Window src (last + 1) (written text (ring last) (stream src last)) := by
  refine ⟨fun place before near => ?_, fun place before near late first => ?_⟩
  · rw [written_ring _ _ (ring_lt place)]
    by_cases same : place = last
    · rw [same, if_pos rfl]
    · rw [if_neg (ring_ne (by omega) (by omega)), window.once place (by omega) (by omega)]
  · rw [written_again _ _ (ring_lt last) first]
    by_cases same : place = last
    · rw [same, if_pos rfl]
    · rw [if_neg (ring_ne (by omega) (by omega)), window.again place (by omega) (by omega) late first]

end Text

def Within (trees : Byte → List Nat) (least last : Nat) : Prop :=
  ∀ c, ∀ p ∈ trees c, ∃ place, least ≤ place + rbsize ∧ place ≤ last ∧ p = ring place

structure Found (src : List Byte) (place len : Nat) (sp : EncodeState) : Prop where
  short : sp.matchLength ≤ uplim
  found : 0 < sp.matchLength → ∃ earlier < place, place + uplim ≤ earlier + rbsize ∧
    sp.matchPosition = ring earlier ∧
    ∀ k < sp.matchLength, k < len → stream src (earlier + k) = stream src (place + k)

section Steps

variable {src : List Byte} {place last : Nat} {sp : EncodeState} {trees : Byte → List Nat}

theorem Within.delete (forest : Forest sp trees) (within : Within trees (place + uplim) place) :
    ∃ after fewer, (deleteNode (ring (place + uplim))).run sp = some ((), after) ∧
      after.textBuf = sp.textBuf ∧ Forest after fewer ∧ Within fewer (place + uplim + 1) place ∧
      ∀ c, ring (place + uplim) ∉ fewer c := by
  obtain ⟨after, deletes, text, fewer⟩ := forest.delete (ring_lt (place + uplim))
  refine ⟨after, _, deletes, text, fewer, fun c p member => ?_, by simp⟩
  obtain ⟨old, other⟩ := List.mem_filter.mp member
  obtain ⟨earlier, least, most, rfl⟩ := within c p old
  refine ⟨earlier, ?_, most, rfl⟩
  have different : earlier + rbsize ≠ place + uplim := by
    intro same
    have equal : ring earlier = ring (place + uplim) := by
      rw [← same]
      simp [ring]
    simp [equal] at other
  omega

theorem mem_grown {inserted : List Nat} {c d : Byte} {p cell : Nat}
    (among : ∀ q ∈ inserted, q = cell ∨ q ∈ trees d) (member : p ∈ Function.update trees d inserted c) :
    p = cell ∨ p ∈ trees c := by
  by_cases same : c = d
  · subst same
    exact among p (by simpa using member)
  · exact Or.inr (by simpa [Function.update_of_ne same] using member)

theorem Within.insert {len : Nat} (forest : Forest sp trees)
    (within : Within trees (place + uplim + 1) place) (window : Window src last sp.textBuf)
    (read : place + 1 + len = last) (short : len ≤ uplim) :
    ∃ after more, (insertNode (ring (place + 1))).run sp = some ((), after) ∧
      after.textBuf = sp.textBuf ∧ Forest after more ∧ Within more (place + 1 + uplim) (place + 1) ∧
      Found src (place + 1) len after := by
  have fresh : ∀ c, ring (place + 1) ∉ trees c := by
    intro c member
    obtain ⟨earlier, least, most, same⟩ := within c _ member
    exact ring_ne (show earlier < place + 1 by omega) (by simp only [uplim] at least; omega) same.symm
  obtain ⟨inserted, after, inserts, text, matched, among, grown⟩ :=
    forest.insert (ring_lt (place + 1)) fresh
  refine ⟨after, _, inserts, text, grown, fun c p member => ?_, matched.short, fun some => ?_⟩
  · rcases mem_grown among member with rfl | old
    · exact ⟨place + 1, by simp only [uplim, rbsize]; omega, Nat.le_refl _, rfl⟩
    · obtain ⟨earlier, least, most, same⟩ := within c p old
      exact ⟨earlier, by omega, by omega, same⟩
  · obtain ⟨member, same⟩ := matched.found some
    obtain ⟨earlier, least, most, found⟩ := within _ _ member
    refine ⟨earlier, by omega, by omega, found, fun k less inside => ?_⟩
    have equal := same k less
    have reach : k < uplim := Nat.lt_of_lt_of_le inside short
    rw [text, found, window.string (by omega) (by omega) reach,
      window.string (by omega) (by simp only [uplim, rbsize] at *; omega) reach] at equal
    exact equal

end Steps

structure Encoding (src : List Byte) (place : Nat) (sp : EncodeState) (encoder : Encoder) : Prop where
  least : base ≤ place
  r : encoder.r = ring place
  s : encoder.s = ring (place + uplim)
  short : encoder.len ≤ uplim
  most : place + encoder.len ≤ base + src.length
  rest : encoder.src = src.drop (place + encoder.len - base)
  -- less is read ahead only at the end of the text
  ended : encoder.len < uplim → place + encoder.len = base + src.length
  window : Window src (place + encoder.len) sp.textBuf
  held : ∃ trees, Forest sp trees ∧ Within trees (place + uplim) place

section Rounds

variable {src : List Byte} {place : Nat} {sp : EncodeState} {encoder : Encoder}

theorem Forest.write {trees : Byte → List Nat} {text : Nat → Byte} (forest : Forest sp trees)
    (same : ∀ c, ∀ p ∈ trees c, text p = sp.textBuf p) : Forest { sp with textBuf := text } trees :=
  ⟨forest.held, forest.distinct, fun c p member =>
    ⟨(forest.first c p member).1, (same c p member).trans (forest.first c p member).2⟩, forest.out⟩

theorem run_setText {index : Nat} (sp : EncodeState) (c : Byte) (inside : index < rbsize + uplim - 1) :
    (setText index c).run sp =
      some ((), { sp with textBuf := Function.update sp.textBuf index c }) := by
  rw [setText, setCell, if_pos inside, run_modify]

theorem run_write {α : Type} {s : Nat} (sp : EncodeState) (c : Byte) (inside : s < rbsize)
    (rest : Program EncodeState α) :
    (do setText s c
        if s < uplim - 1 then setText (s + rbsize) c
        rest).run sp = rest.run { sp with textBuf := written sp.textBuf s c } := by
  have once : s < rbsize + uplim - 1 := by simp only [uplim]; omega
  simp only [run_bind, run_setText sp c once, Option.bind_some, written]
  by_cases first : s < uplim - 1
  · have again : s + rbsize < rbsize + uplim - 1 := by omega
    simp only [if_pos first, run_bind, run_setText _ c again, Option.bind_some]
  · simp only [if_neg first]

theorem Encoding.next (encoding : Encoding src place sp encoder) {c : Byte} {rest : List Byte}
    (more : encoder.src = c :: rest) :
    encoder.len = uplim ∧ place + uplim < base + src.length ∧ c = stream src (place + uplim) ∧
      rest = src.drop (place + 1 + uplim - base) := by
  have least := encoding.least
  have whole : encoder.len = uplim := by
    by_contra less
    have ended := encoding.ended (Nat.lt_of_le_of_ne encoding.short less)
    have nothing := encoding.rest
    rw [ended, Nat.add_sub_cancel_left, List.drop_length, more] at nothing
    cases nothing
  have dropped := encoding.rest
  rw [whole, more] at dropped
  have inside : place + uplim - base < src.length := by
    by_contra beyond
    rw [List.drop_eq_nil_of_le (by omega)] at dropped
    cases dropped
  rw [List.drop_eq_getElem_cons inside] at dropped
  injection dropped with first later
  refine ⟨whole, by omega, ?_, by rw [later, show place + 1 + uplim - base = place + uplim - base + 1 by omega]⟩
  rw [stream, if_neg (by omega), List.getElem?_eq_getElem inside, first]
  rfl

theorem Encoding.read (encoding : Encoding src place sp encoder) {c : Byte} {rest : List Byte}
    (more : encoder.src = c :: rest) :
    ∃ after, (∀ count, (readOn (count + 1) encoder).run sp =
        (readOn count { encoder.advanced with src := rest }).run after) ∧
      Encoding src (place + 1) after { encoder.advanced with src := rest } ∧
      Found src (place + 1) encoder.len after := by
  obtain ⟨whole, inside, begins, later⟩ := encoding.next more
  obtain ⟨trees, forest, within⟩ := encoding.held
  obtain ⟨deleted, fewer, deletes, text, remaining, within, gone⟩ := within.delete forest
  have window : Window src (place + 1 + encoder.len)
      (written deleted.textBuf (ring (place + uplim)) c) := by
    have := encoding.window.write
    rwa [whole, ← begins, ← text, show place + uplim + 1 = place + 1 + encoder.len by omega] at this
  have kept : Forest { deleted with textBuf := written deleted.textBuf (ring (place + uplim)) c } fewer := by
    refine remaining.write fun d p member => ?_
    have other : p ≠ ring (place + uplim) := by
      rintro rfl
      exact gone d member
    rw [written_ring _ _ (remaining.first d p member).1, if_neg other]
  obtain ⟨after, grown, inserts, same, forest, within, found⟩ :=
    within.insert kept window rfl encoding.short
  refine ⟨after, fun count => ?_, ⟨Nat.le_succ_of_le encoding.least, ?_, ?_, encoding.short, ?_, ?_, ?_, ?_,
    grown, forest, within⟩, found⟩
  · rw [readOn, more]
    change (deleteNode encoder.s >>= fun _ => (do
      setText encoder.s c
      if encoder.s < uplim - 1 then setText (encoder.s + rbsize) c
      insertNode (ring (encoder.r + 1)) >>= fun _ =>
        readOn count { encoder.advanced with src := rest })).run sp = _
    rw [run_bind, encoding.s, deletes, Option.bind_some, run_write deleted c (ring_lt _), run_bind,
      encoding.r, ring_add, inserts]
    rfl
  · rw [Encoder.advanced, encoding.r, ring_add]
  · rw [Encoder.advanced, encoding.s, ring_add, show place + 1 + uplim = place + uplim + 1 by omega]
  · simp only [Encoder.advanced]
    omega
  · simp only [Encoder.advanced, whole]
    exact later
  · simp only [Encoder.advanced, whole, Nat.lt_irrefl, false_implies]
  · simp only [Encoder.advanced, same]
    exact window

structure SameCode (encoder next : Encoder) : Prop where
  dst : next.dst = encoder.dst
  buf : next.buf = encoder.buf

theorem Encoding.readOn (encoding : Encoding src place sp encoder) (count : Nat) :
    ∃ done left next after, (readOn count encoder).run sp = some ((left, next), after) ∧
      done + left = count ∧ Encoding src (place + done) after next ∧ next.len = encoder.len ∧
      SameCode encoder next ∧ (0 < left → next.src = []) ∧
      (Found src place encoder.len sp ∨ 0 < done → Found src (place + done) next.len after) := by
  induction count generalizing place sp encoder with
  | zero => exact ⟨0, 0, encoder, sp, rfl, rfl, encoding, rfl, ⟨rfl, rfl⟩, by simp, by simp⟩
  | succ count ih =>
      cases more : encoder.src with
      | nil =>
          refine ⟨0, count + 1, encoder, sp, ?_, by omega, encoding, rfl, ⟨rfl, rfl⟩, fun _ => more, by simp⟩
          rw [Compression.readOn, more]
          rfl
      | cons c rest =>
          obtain ⟨middle, reads, reading, found⟩ := encoding.read more
          obtain ⟨done, left, next, after, runs, counted, read, same, kept, ends, matched⟩ := ih reading
          refine ⟨done + 1, left, next, after, (reads count).trans runs, by omega, ?_, same,
            ⟨kept.dst, kept.buf⟩, ends, fun _ => ?_⟩
          · rwa [show place + (done + 1) = place + 1 + done by omega]
          · rw [show place + (done + 1) = place + 1 + done by omega]
            exact matched (Or.inl found)

theorem Encoding.at_end (encoding : Encoding src place sp encoder) (ends : encoder.src = []) :
    place + encoder.len = base + src.length := by
  have most := encoding.most
  have least := encoding.least
  have rest := encoding.rest
  rw [ends] at rest
  have beyond := List.drop_eq_nil_iff.mp rest.symm
  omega

theorem Encoding.leave (encoding : Encoding src place sp encoder) (ends : encoder.src = [])
    (some : 0 < encoder.len) :
    ∃ after, (∀ count, (runOut (count + 1) encoder).run sp =
        (runOut count { encoder.advanced with len := encoder.len - 1 }).run after) ∧
      Encoding src (place + 1) after { encoder.advanced with len := encoder.len - 1 } ∧
      (0 < encoder.len - 1 → Found src (place + 1) (encoder.len - 1) after) := by
  have last := encoding.at_end ends
  have short := encoding.short
  have read : place + 1 + (encoder.len - 1) = place + encoder.len := by omega
  obtain ⟨trees, forest, within⟩ := encoding.held
  obtain ⟨deleted, fewer, deletes, text, remaining, within, -⟩ := within.delete forest
  have encodes {after : EncodeState} {more : Byte → List Nat} (same : after.textBuf = sp.textBuf)
      (grown : Forest after more) (within : Within more (place + 1 + uplim) (place + 1)) :
      Encoding src (place + 1) after { encoder.advanced with len := encoder.len - 1 } := by
    refine ⟨Nat.le_succ_of_le encoding.least, ?_, ?_, Nat.le_trans (Nat.sub_le _ _) short, ?_, ?_, ?_, ?_,
      more, grown, within⟩
    · rw [Encoder.advanced, encoding.r, ring_add]
    · rw [Encoder.advanced, encoding.s, ring_add, show place + 1 + uplim = place + uplim + 1 by omega]
    · simp only [read]
      exact encoding.most
    · simp only [Encoder.advanced, read]
      exact encoding.rest
    · simp only [read]
      exact fun _ => last
    · simp only [read, same]
      exact encoding.window
  by_cases more : encoder.len - 1 = 0
  · refine ⟨deleted, fun count => ?_, encodes text remaining fun c p member => ?_, fun more' => by omega⟩
    · simp only [runOut, run_bind, encoding.s, deletes, Option.bind_some, Encoder.advanced, more, ne_eq,
        not_true_eq_false, if_false]
    · obtain ⟨earlier, least, most, same⟩ := within c p member
      exact ⟨earlier, by omega, by omega, same⟩
  · obtain ⟨after, grown, inserts, same, forest, within, found⟩ :=
      within.insert remaining (text ▸ encoding.window) read (by omega)
    refine ⟨after, fun count => ?_, encodes (same.trans text) forest within, fun _ => found⟩
    simp only [runOut, run_bind, encoding.s, deletes, Option.bind_some, Encoder.advanced, more, ne_eq,
      not_false_eq_true, if_true, encoding.r, ring_add, inserts]

theorem Encoding.runOut (encoding : Encoding src place sp encoder) {count : Nat}
    (ends : 0 < count → encoder.src = []) (enough : count ≤ encoder.len) :
    ∃ next after, (runOut count encoder).run sp = some (next, after) ∧
      Encoding src (place + count) after next ∧ next.len = encoder.len - count ∧ SameCode encoder next ∧
      ((0 < count ∨ Found src place encoder.len sp) → 0 < next.len →
        Found src (place + count) next.len after) := by
  induction count generalizing place sp encoder with
  | zero => exact ⟨encoder, sp, rfl, encoding, rfl, ⟨rfl, rfl⟩, fun known _ => known.resolve_left (by simp)⟩
  | succ count ih =>
      obtain ⟨middle, leaves, left, found⟩ := encoding.leave (ends (Nat.succ_pos _)) (by omega)
      obtain ⟨next, after, runs, encodes, length, kept, matched⟩ :=
        ih left (fun _ => ends (Nat.succ_pos _)) (Nat.le_sub_one_of_lt enough)
      refine ⟨next, after, (leaves count).trans runs, ?_, ?_, ⟨kept.dst, kept.buf⟩, fun _ some => ?_⟩
      · rwa [show place + (count + 1) = place + 1 + count by omega]
      · rw [length]
        change encoder.len - 1 - count = encoder.len - (count + 1)
        omega
      · rw [show place + (count + 1) = place + 1 + count by omega]
        refine matched (Or.inr (found ?_)) some
        rw [length] at some
        change 0 < encoder.len - 1 - count at some
        omega

end Rounds

end NootedDeck.Compression
