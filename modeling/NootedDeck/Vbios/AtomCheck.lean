import NootedDeck.Vbios.AtomBios

set_option autoImplicit false

namespace NootedDeck.Vbios

open Inspection Inspect

namespace Image

variable (image : Image)

def temp : Nat := (image.word 0x48 + 4).toNat

def Signed : Prop := image.bytes 0 = 0x55 ∧ image.bytes 1 = 0xAA

def TagAt (offset : Nat) : Prop :=
  (List.range 4).map (fun index => image.bytes (offset + index)) ∈ atomTags

theorem checkTag_iff (offset : Nat) :
    (checkTag offset).value image.bytes = true ↔ image.TagAt offset := by
  simp only [checkTag, value_bind, value_pure, List.contains_iff_mem]
  rfl

theorem temp_eq : image.temp = (image.header + 4) % 2 ^ 16 := rfl

theorem header_lt : image.header < 2 ^ 16 := (image.word 0x48).isLt

theorem word_eq_zero_iff : image.word 0x48 = 0 ↔ image.header = 0 := by
  simp only [← BitVec.toNat_inj]
  rfl

end Image

/--
The check looks only at bytes of the image, exactly unless it gets past the signature and the image
ends inside the header pointer, or inside the tag.
-/
theorem checkATOMBIOS_within_iff (image : Image) :
    (∀ offset ∈ (checkATOMBIOS image.size).touched image.bytes, offset < image.size) ↔
      (0x49 ≤ image.size → image.Signed →
        image.size ≠ 0x49 ∧
          (image.header ≠ 0 → image.temp ≤ image.size → image.temp + 4 ≤ image.size)) := by
  change Within image.bytes image.size (checkATOMBIOS image.size) ↔ _
  have word : (readWord 0x48).value image.bytes = image.word 0x48 := rfl
  have tag : ∀ offset, Within image.bytes image.size (checkTag offset) ↔ offset + 3 < image.size := by
    intro offset
    simp only [checkTag, within_bind, within_readBytes, within_pure, and_true]
  rw [checkATOMBIOS, within_unless, within_bind, within_readByte, value_readByte, within_unless,
    within_bind, within_readByte, value_readByte, within_unless, checkHeader, within_bind,
    within_readWord, word, within_unless, within_unless, tag, image.word_eq_zero_iff]
  simp only [ne_eq, not_not, Nat.not_lt, Image.Signed, and_imp]
  constructor
  · intro inside long first second
    obtain ⟨pointer, atTag⟩ := ((inside long).2 first).2 second
    exact ⟨by omega, fun header reaches => atTag header reaches⟩
  · intro inside long
    have later : image.bytes 0 = 0x55 → image.bytes 1 = 0xAA → 0x48 + 1 < image.size ∧
        (¬ image.header = 0 → image.temp ≤ image.size → image.temp + 3 < image.size) := by
      intro first second
      obtain ⟨longer, atTag⟩ := inside long first second
      exact ⟨by omega, fun header reaches => atTag header reaches⟩
    exact ⟨by omega, fun first => ⟨by omega, fun second => later first second⟩⟩

-- An image of 0x49 bytes has only half of its header pointer.
theorem header_pointer_outside :
    ¬ ∀ offset ∈ (checkATOMBIOS 0x49).touched exampleBytes, offset < 0x49 := by
  decide

structure Image.IsAtom (image : Image) : Prop where
  signed : image.Signed
  pointer : 0x4A ≤ image.size
  header : image.header ≠ 0
  inside : image.header + 8 ≤ image.size
  tag : image.TagAt (image.header + 4)

structure Image.Unmistakable (image : Image) : Prop where
  -- the pointer is cut off, and what lies behind the image completes it
  cut : image.size = 0x49 → image.temp ≤ image.size → ¬ image.TagAt image.temp
  -- the tag is cut off, and what lies behind the image completes it
  straddling : 0x4A ≤ image.size → image.header < 0xFFFC → image.header + 4 ≤ image.size →
    image.size < image.header + 8 → ¬ image.TagAt (image.header + 4)
  -- `Temp` wraps to the start of the image
  wrapped : 0x4A ≤ image.size → 0xFFFC ≤ image.header →
    (image.TagAt (image.header - 0xFFFC) ↔
      image.header + 8 ≤ image.size ∧ image.TagAt (image.header + 4))

theorem accepted_iff_signed (image : Image) :
    image.Accepted ↔ 0x49 ≤ image.size ∧ image.Signed ∧ image.header ≠ 0 ∧
      image.temp ≤ image.size ∧ image.TagAt image.temp := by
  rw [accepted_iff, Image.Signed, ne_eq, ne_eq, image.word_eq_zero_iff, image.checkTag_iff]
  simp only [and_assoc]
  rfl

theorem isAtom_iff (image : Image) :
    image.IsAtom ↔ 0x4A ≤ image.size ∧ image.Signed ∧ image.header ≠ 0 ∧
      image.header + 8 ≤ image.size ∧ image.TagAt (image.header + 4) :=
  ⟨fun atom => ⟨atom.pointer, atom.signed, atom.header, atom.inside, atom.tag⟩,
    fun ⟨pointer, signed, header, inside, tag⟩ => ⟨signed, pointer, header, inside, tag⟩⟩

theorem Image.temp_of_lt {image : Image} (low : image.header < 0xFFFC) :
    image.temp = image.header + 4 := by
  rw [image.temp_eq]
  omega

theorem Image.temp_of_le {image : Image} (high : 0xFFFC ≤ image.header) :
    image.temp = image.header - 0xFFFC := by
  have small := image.header_lt
  rw [image.temp_eq]
  omega

theorem tag_iff_unmistakable {image : Image} (long : 0x49 ≤ image.size) :
    ((image.temp ≤ image.size ∧ image.TagAt image.temp) ↔
      (0x4A ≤ image.size ∧ image.header + 8 ≤ image.size ∧ image.TagAt (image.header + 4))) ↔
      image.Unmistakable := by
  constructor
  case mp =>
    intro agree
    constructor
    case cut =>
      intro cut reaches tag
      have pointer := (agree.mp ⟨reaches, tag⟩).1
      omega
    case straddling =>
      intro _ low reaches ends tag
      rw [Image.temp_of_lt low] at agree
      have inside := (agree.mp ⟨reaches, tag⟩).2.1
      omega
    case wrapped =>
      intro pointer high
      rw [Image.temp_of_le high] at agree
      have small := image.header_lt
      have reaches : image.header - 0xFFFC ≤ image.size := by omega
      simpa only [reaches, pointer, true_and] using agree
  case mpr =>
    intro unmistakable
    by_cases pointer : 0x4A ≤ image.size
    case neg =>
      have cut : image.size = 0x49 := by omega
      simp only [pointer, false_and, iff_false, not_and]
      exact unmistakable.cut cut
    case pos =>
      simp only [pointer, true_and]
      by_cases high : 0xFFFC ≤ image.header
      case pos =>
        have small := image.header_lt
        have reaches : image.header - 0xFFFC ≤ image.size := by omega
        simpa only [Image.temp_of_le high, reaches, true_and] using unmistakable.wrapped pointer high
      case neg =>
        have low : image.header < 0xFFFC := by omega
        rw [Image.temp_of_lt low]
        constructor
        · intro ⟨reaches, tag⟩
          have inside : image.header + 8 ≤ image.size := by
            by_contra ends
            exact unmistakable.straddling pointer low reaches (by omega) tag
          exact ⟨inside, tag⟩
        · intro ⟨inside, tag⟩
          exact ⟨by omega, tag⟩

/--
The check accepts exactly the ATOM images, except where the end of the image cuts the header pointer
or the tag, or the tag's offset wraps.
-/
theorem accepted_iff_isAtom_iff (image : Image) :
    (image.Accepted ↔ image.IsAtom) ↔
      (0x49 ≤ image.size → image.Signed → image.header ≠ 0 → image.Unmistakable) := by
  rw [accepted_iff_signed, isAtom_iff]
  by_cases long : 0x49 ≤ image.size
  case neg =>
    have short : ¬ 0x4A ≤ image.size := by omega
    simp only [long, short, false_and, false_imp_iff]
  case pos =>
    by_cases signed : image.Signed
    case neg => simp only [signed, false_and, and_false, false_imp_iff, imp_true_iff]
    case pos =>
      by_cases header : image.header = 0
      case pos => simp [header]
      case neg =>
        simp only [long, signed, header, ne_eq, not_false_eq_true, true_and, true_imp_iff]
        exact tag_iff_unmistakable long

def wrappingBytes : Nat → BitVec 8
  | 0x00 => 0x55
  | 0x01 => 0xAA
  | 0x02 => 0x41
  | 0x03 => 0x54
  | 0x04 => 0x4F
  | 0x05 => 0x4D
  | 0x48 => 0xFE
  | 0x49 => 0xFF
  | _ => 0

theorem wrapped_tag_accepted :
    Image.Accepted ⟨wrappingBytes, 0x100⟩ ∧ ¬ Image.IsAtom ⟨wrappingBytes, 0x100⟩ := by
  constructor
  · decide
  · intro atom
    exact absurd atom.inside (by decide)

end NootedDeck.Vbios
