import Mathlib.Data.BitVec
import NootedDeck.Shared.CStrings
import NootedDeck.Shared.ByteMemory

set_option autoImplicit false

namespace NootedDeck.Drivers

open Accesses Access CStrings Bytes

structure FWMetadata where
  data : Addr
  length : BitVec 32
  deriving DecidableEq

structure FWDescriptor where
  name : List Byte
  metadata : FWMetadata
  terminated : 0 ∉ name

def sameString : List Byte → (Nat → Byte) → Nat → Bool
  | [], memory, start => decide (memory start = 0)
  | byte :: rest, memory, start => decide (memory start = byte) && sameString rest memory (start + 1)

-- `none` is the panic for a name that is not there.
def getFirmwareNamed : List FWDescriptor → (Nat → Byte) → Nat → Option FWMetadata
  | [], _, _ => none
  | descriptor :: firmware, memory, name =>
      if sameString descriptor.name memory name then some descriptor.metadata
      else getFirmwareNamed firmware memory name

-- ".xml"
def xmlSuffix : List Byte := [0x2E, 0x78, 0x6D, 0x6C]

def totalLength (identifier : List Byte) : Nat := identifier.length + 5

def fillFilename (identifier : List Byte) : Access Nat Byte Nat := do
  storeFrom 0 identifier
  strlcat 0 0 xmlSuffix (totalLength identifier)

-- `allocated` is what `new` returned and what lies behind it.
def filename (identifier : List Byte) (allocated : Nat → Byte) : Nat → Byte :=
  ((fillFilename identifier).run (cells Nat Byte) allocated).2

def getDriverXMLForBundle (firmware : List FWDescriptor) (identifier : List Byte)
    (allocated : Nat → Byte) : Option (Addr × BitVec 64) :=
  (getFirmwareNamed firmware (filename identifier allocated) 0).map fun driversXML =>
    (driversXML.data, driversXML.length.setWidth 64)

section Lookup

variable (memory : Nat → Byte)

theorem sameString_iff (name : List Byte) (start : Nat) :
    sameString name memory start = true ↔
      contents memory start (name.length + 1) = name ++ [0] := by
  induction name generalizing start with
  | nil => simp [sameString, contents_succ]
  | cons byte rest ih => simp [sameString, contents_succ memory start, ih]

theorem getFirmwareNamed_eq_find (firmware : List FWDescriptor) {wanted : List Byte}
    (free : 0 ∉ wanted) {start : Nat}
    (held : contents memory start (wanted.length + 1) = wanted ++ [0]) :
    getFirmwareNamed firmware memory start =
      (firmware.find? (·.name = wanted)).map FWDescriptor.metadata := by
  induction firmware with
  | nil => rfl
  | cons descriptor firmware ih =>
      by_cases named : descriptor.name = wanted
      · have same : sameString descriptor.name memory start = true :=
          (sameString_iff memory _ start).mpr (named ▸ held)
        rw [getFirmwareNamed, if_pos same, List.find?_cons_of_pos (by simpa using named)]
        rfl
      · have other : ¬sameString descriptor.name memory start = true := by
          intro same
          have heldOther := (sameString_iff memory _ start).mp same
          exact named (string_unique 0 memory descriptor.terminated heldOther free held)
        rw [getFirmwareNamed, if_neg other, List.find?_cons_of_neg (by simpa using named), ih]

end Lookup

section Filename

variable {identifier : List Byte} (allocated : Nat → Byte)

theorem contents_filename (free : 0 ∉ identifier) :
    contents (filename identifier allocated) 0 (totalLength identifier) =
      identifier ++ appended 0 xmlSuffix (contents allocated identifier.length 5) := by
  rw [filename, fillFilename, run_bind, run_storeFrom, strlcat_contents, totalLength,
    contents_placed_add, appended_append 0 free, Nat.zero_add]

theorem fillFilename_stores (identifier : List Byte) {place : Nat}
    (stored : (.store, place) ∈ (fillFilename identifier).trace (cells Nat Byte) allocated) :
    place < totalLength identifier := by
  rw [fillFilename, trace_bind, List.mem_append, trace_storeFrom] at stored
  rcases stored with copied | added
  · simp only [List.mem_map, List.mem_range'_1, Prod.mk.injEq, true_and, exists_eq_right] at copied
    rw [totalLength]
    omega
  · have within := (strlcat_stores 0 _ 0 xmlSuffix _ added).2
    rwa [Nat.zero_add] at within

theorem appended_xmlSuffix_iff {values : List Byte} (exact : values.length = 5) :
    appended 0 xmlSuffix values = xmlSuffix ++ [0] ↔
      values.head? = some 0 ∨ values = xmlSuffix ++ [0] := by
  obtain ⟨first, rest, rfl⟩ := List.exists_cons_of_length_eq_add_one exact
  have four : rest.length = 4 := Nat.succ.inj exact
  by_cases ends : first = 0
  · subst ends
    simp [appended_nul, four, xmlSuffix]
  · have held : appended 0 xmlSuffix rest = [0x78, 0x6D, 0x6C] ++ [0] ↔
        rest = [0x78, 0x6D, 0x6C] ++ [0] :=
      appended_eq_iff 0 (by decide) (by decide) (by decide) four
    have goesOn : ¬(first :: rest).head? = some 0 := by simpa using ends
    rw [appended_cons 0 ends, or_iff_right goesOn]
    change first :: _ = 0x2E :: ([0x78, 0x6D, 0x6C] ++ [0]) ↔
      first :: rest = 0x2E :: ([0x78, 0x6D, 0x6C] ++ [0])
    rw [List.cons.injEq, List.cons.injEq, held]

structure NamesXML (identifier : List Byte) (allocated : Nat → Byte) : Prop where
  name : contents (filename identifier allocated) 0 (totalLength identifier) =
    identifier ++ xmlSuffix ++ [0]
  stores : ∀ place, (.store, place) ∈ (fillFilename identifier).trace (cells Nat Byte) allocated →
    place < totalLength identifier

theorem getDriverXMLForBundle_eq_find (firmware : List FWDescriptor) (free : 0 ∉ identifier)
    (names : NamesXML identifier allocated) :
    getDriverXMLForBundle firmware identifier allocated =
      (firmware.find? (·.name = identifier ++ xmlSuffix)).map fun descriptor =>
        (descriptor.metadata.data, descriptor.metadata.length.setWidth 64) := by
  have whole : 0 ∉ identifier ++ xmlSuffix := List.not_mem_append free (by decide)
  have held := names.name
  have total : totalLength identifier = (identifier ++ xmlSuffix).length + 1 := by
    simp [totalLength, xmlSuffix]
  rw [total] at held
  rw [getDriverXMLForBundle, getFirmwareNamed_eq_find _ firmware whole held, Option.map_map]
  rfl

/-- The name is right where the allocation has a terminator, or the suffix itself, in its place. -/
theorem names_xml_iff (free : 0 ∉ identifier) (allocated : Nat → Byte) :
    NamesXML identifier allocated ↔
      allocated identifier.length = 0 ∨
        contents allocated identifier.length 5 = xmlSuffix ++ [0] := by
  have suffix := appended_xmlSuffix_iff (length_contents allocated identifier.length 5)
  have first : (contents allocated identifier.length 5).head? = some 0 ↔
      allocated identifier.length = 0 := by
    rw [contents_succ, List.head?_cons, Option.some.injEq]
  rw [first] at suffix
  rw [← suffix]
  constructor
  · intro names
    have name := names.name
    rw [contents_filename allocated free, List.append_assoc] at name
    exact List.append_cancel_left name
  · intro named
    constructor
    case name => rw [contents_filename allocated free, named, List.append_assoc]
    case stores => exact fun place => fillFilename_stores allocated identifier

theorem names_xml_example : NamesXML [0x61] (fun _ => 0) :=
  (names_xml_iff (by decide) _).mpr (Or.inl rfl)

def exampleDescriptor : FWDescriptor :=
  ⟨[0x61, 0x2E, 0x78, 0x6D, 0x6C], ⟨0x1000, 16⟩, by decide⟩

-- Without a terminator `strlcat` leaves the buffer as it is, and the lookup panics.
theorem names_xml_uncleared_example :
    ¬NamesXML [0x61] (fun _ => 0xAA) ∧
      getDriverXMLForBundle [exampleDescriptor] [0x61] (fun _ => 0xAA) = none := by
  constructor
  · intro names
    exact absurd names.name (by decide)
  · decide

end Filename

end NootedDeck.Drivers
