import NootedDeck.Vbios.Sources

set_option autoImplicit false

namespace NootedDeck.Vbios

section Specification

variable (gpu : Gpu) (base : BitVec 32)

def sourceRange : Source → Option Image
  | .property => gpu.binImage
  | .vfctStrict | .vfctRelaxed => gpu.vfct
  | .vram => gpu.bar0
  | .expansionROM => gpu.expansionROM

def vfctImage (strict : Bool) : Option Image :=
  gpu.vfct.bind fun table =>
    (vfctEntry gpu.layout gpu.ids strict table).map fun entry => entry.image gpu.layout table

def romImage (rom : Image) : Image where
  bytes := fun place =>
    if place < min rom.size gpu.atombiosImageSize then rom.bytes place else gpu.behindCopy place
  size := min rom.size gpu.atombiosImageSize

def sourceImage : Source → Option Image
  | .property => gpu.binImage
  | .vfctStrict => vfctImage gpu true
  | .vram => gpu.bar0.map fun bar0 => ⟨bar0.bytes, min bar0.size vramSize⟩
  | .expansionROM => if base = 0 then none else gpu.expansionROM.map (romImage gpu)
  | .vfctRelaxed => vfctImage gpu false

-- What `CheckATOMBIOS` reads behind a source, as behind a BAR0 mapping that is too short, is
-- arbitrary memory here and never a fault.
def yields (source : Source) : Option Image :=
  (sourceImage gpu base source).filter fun image => decide image.Accepted

def fallbacks : List Source := [.vfctStrict, .vram, .expansionROM, .vfctRelaxed]

def firstYield (sources : List Source) : Option Copy :=
  sources.findSome? fun source => (yields gpu base source).map fun image => ⟨source, image.contents⟩

def Copy.TakenFrom (copy : Copy) (range : Image) : Prop :=
  ∃ start, start + copy.contents.length ≤ range.size ∧
    copy.contents = Image.contents ⟨fun place => range.bytes (start + place), copy.contents.length⟩

structure Fetched (start : Fetch) (result : Bool) (final : Fetch) : Prop where
  result : result = (firstYield gpu start.expansionROMBase (.property :: fallbacks)).isSome
  data : final.vbiosData = firstYield gpu start.expansionROMBase (.property :: fallbacks)
  inside : ∀ copy ∈ final.vbiosData, ∃ range ∈ sourceRange gpu copy.source, copy.TakenFrom range
  register : final.expansionROMBase = start.expansionROMBase
  released : final.mapped = start.mapped

def FetchedOrOutOfMemory (start : Fetch) : Except Stop (Bool × Fetch) → Prop
  | .error stop => stop = .allocation
  | .ok (result, final) => Fetched gpu start result final

end Specification

section Ranges

variable {gpu : Gpu} {base : BitVec 32}

theorem contents_length (image : Image) : image.contents.length = image.size := by
  simp [Image.contents]

theorem contents_congr {image other : Image} (same : image.size = other.size)
    (bytes : ∀ place < image.size, image.bytes place = other.bytes place) :
    image.contents = other.contents := by
  rw [Image.contents, Image.contents, ← same]
  exact List.map_congr_left fun place member => bytes place (List.mem_range.mp member)

theorem entry_inside {layout : VfctLayout} {table : Image} {offset : Nat} {entry : Entry}
    (member : entry ∈ entriesFrom layout table offset) :
    entry.offset + layout.sizeofHeader + entry.header.imageLength.toNat ≤ table.size := by
  fun_induction entriesFrom layout table offset with
  | case1 offset fits ih =>
      rcases List.mem_cons.mp member with rfl | later
      · exact fits.2.2
      · exact ih later
  | case2 => cases member

theorem sourceImage_taken {source : Source} {image : Image}
    (holds : sourceImage gpu base source = some image) :
    ∃ range ∈ sourceRange gpu source, (⟨source, image.contents⟩ : Copy).TakenFrom range := by
  have whole : ∀ (range : Image), image.size ≤ range.size →
      (∀ place < image.size, image.bytes place = range.bytes place) →
      (⟨source, image.contents⟩ : Copy).TakenFrom range := by
    intro range fits same
    refine ⟨0, by simpa [contents_length] using fits, contents_congr (contents_length image).symm ?_⟩
    simpa using same
  have entry : ∀ strict, vfctImage gpu strict = some image →
      ∃ table ∈ gpu.vfct, (⟨source, image.contents⟩ : Copy).TakenFrom table := by
    intro strict found
    obtain ⟨table, present, found⟩ := Option.bind_eq_some_iff.mp found
    obtain ⟨entry, listed, rfl⟩ := Option.map_eq_some_iff.mp found
    refine ⟨table, present, entry.offset + gpu.layout.sizeofHeader, ?_, ?_⟩
    · rw [vfctEntry] at listed
      split at listed
      · cases listed
      · rw [contents_length]
        exact entry_inside (List.mem_of_find?_eq_some listed)
    · rw [contents_length]
      rfl
  cases source with
  | property => exact ⟨image, holds, whole image (Nat.le_refl _) fun _ _ => rfl⟩
  | vfctStrict => exact entry true holds
  | vfctRelaxed => exact entry false holds
  | vram =>
      obtain ⟨bar0, present, rfl⟩ := Option.map_eq_some_iff.mp holds
      exact ⟨bar0, present, whole bar0 (Nat.min_le_left ..) fun _ _ => rfl⟩
  | expansionROM =>
      rw [sourceImage] at holds
      split at holds
      · cases holds
      · obtain ⟨rom, present, rfl⟩ := Option.map_eq_some_iff.mp holds
        exact ⟨rom, present, whole rom (Nat.min_le_left ..) fun _ inside => if_pos inside⟩

theorem firstYield_taken {sources : List Source} {copy : Copy}
    (found : firstYield gpu base sources = some copy) :
    ∃ range ∈ sourceRange gpu copy.source, copy.TakenFrom range := by
  obtain ⟨source, -, yielded⟩ := List.exists_of_findSome?_eq_some found
  obtain ⟨image, accepted, rfl⟩ := Option.map_eq_some_iff.mp yielded
  exact sourceImage_taken (Option.filter_eq_some_iff.mp accepted).1

end Ranges

section Stages

variable {gpu : Gpu}

theorem yields_eq_some {base : BitVec 32} {source : Source} {image : Image} :
    yields gpu base source = some image ↔
      sourceImage gpu base source = some image ∧ image.Accepted := by
  rw [yields, Option.filter_eq_some_iff, decide_eq_true_iff]

theorem yields_eq_none {base : BitVec 32} {source : Source}
    (rejected : ∀ image, sourceImage gpu base source = some image → ¬ image.Accepted) :
    yields gpu base source = none := by
  cases found : yields gpu base source with
  | none => rfl
  | some image =>
      obtain ⟨held, accepted⟩ := yields_eq_some.mp found
      exact absurd accepted (rejected image held)

variable (gpu) in
def attempt (source : Source) (fetch : Fetch) : Except Stop (Bool × Fetch) :=
  match yields gpu fetch.expansionROMBase source with
  | none => .ok (false, fetch)
  | some image => do
      let copied ← withBytes gpu source image fetch
      return (true, copied)

theorem getVBIOSFromVFCT_eq (expert : gpu.platformExpert = true)
    (filled : ∀ table ∈ gpu.vfct, table.size ≠ 0) (strict : Bool) (fetch : Fetch) :
    getVBIOSFromVFCT gpu strict fetch = attempt gpu (vfctSource strict) fetch := by
  have holds : sourceImage gpu fetch.expansionROMBase (vfctSource strict) = vfctImage gpu strict := by
    cases strict <;> rfl
  rw [getVBIOSFromVFCT, if_pos expert, attempt]
  cases present : gpu.vfct with
  | none =>
      rw [yields, holds, vfctImage, present]
      rfl
  | some table =>
      simp only [if_neg (filled table present), searchVFCT_value (gpu.vfctShort table present)]
      rw [yields, holds, vfctImage, present]
      cases found : vfctEntry gpu.layout gpu.ids strict table with
      | none => simp [verdictOf, found]
      | some entry =>
          by_cases accepted : (entry.image gpu.layout table).Accepted
          · simp [verdictOf, found, accepted, Option.filter]
            rfl
          · simp [verdictOf, found, accepted, Option.filter]

theorem release_map (fetch : Fetch) (mapping : Mapping) :
    (fetch.map mapping).release mapping = fetch := by
  simp [Fetch.map, Fetch.release]

theorem getVBIOSFromVRAM_eq
    (long : ∀ bar0 ∈ gpu.bar0, bar0.size ≠ 0 → Image.Accepted ⟨bar0.bytes, vramSize⟩ →
      gpu.allocates .vram = true → vramSize ≤ bar0.size) (fetch : Fetch) :
    getVBIOSFromVRAM gpu fetch = attempt gpu .vram fetch ∨
      getVBIOSFromVRAM gpu fetch = .error .allocation := by
  rw [getVBIOSFromVRAM, attempt]
  cases present : gpu.bar0 with
  | none =>
      left
      simp [yields, sourceImage, present]
  | some bar0 =>
      have holds : sourceImage gpu fetch.expansionROMBase .vram =
          some ⟨bar0.bytes, min bar0.size vramSize⟩ := by
        rw [sourceImage, present]
        rfl
      by_cases taken : bar0.size ≠ 0 ∧ Image.Accepted ⟨bar0.bytes, vramSize⟩
      · have accepted := taken.2
        rw [Image.Accepted] at accepted
        simp only [if_neg taken.1, accepted, if_true, withBytes]
        cases memory : gpu.allocates .vram with
        | false => exact Or.inr rfl
        | true =>
            left
            rw [Nat.min_eq_right (long bar0 present taken.1 taken.2 memory)] at holds
            simp [yields_eq_some.mpr ⟨holds, taken.2⟩, Fetch.map, Fetch.release, bind, Except.bind]
      · left
        have nothing : yields gpu fetch.expansionROMBase .vram = none := by
          refine yields_eq_none fun image held small => taken ⟨fun zero => ?_, ?_⟩
          · cases held.symm.trans holds
            have long := Image.size_of_accepted _ small
            rw [zero] at long
            cases (Nat.zero_min vramSize ▸ long)
          · cases held.symm.trans holds
            exact Image.Accepted.mono (Nat.min_le_right ..) small
        simp only [nothing, release_map]
        by_cases zero : bar0.size = 0
        · rw [if_pos zero]
        · have rejected : ¬ (checkATOMBIOS vramSize).value bar0.bytes = true :=
            fun accepted => taken ⟨zero, accepted⟩
          rw [if_neg zero, if_neg rejected]

theorem rom_contents (rom : Image) :
    Image.contents ⟨rom.bytes, (BitVec.ofNat 32 (min rom.size gpu.atombiosImageSize)).toNat⟩ =
      (romImage gpu rom).contents := by
  have fits : min rom.size gpu.atombiosImageSize < 2 ^ 32 :=
    Nat.lt_of_le_of_lt (Nat.min_le_right ..) gpu.imageSizeShort
  rw [BitVec.toNat_ofNat, Nat.mod_eq_of_lt fits]
  exact contents_congr rfl fun place inside => (if_pos inside).symm

-- The ROM is copied before it is checked, so running out of memory does not depend on the verdict.
theorem getVBIOSFromExpansionROM_eq (fetch : Fetch) (empty : fetch.vbiosData = none) :
    getVBIOSFromExpansionROM gpu fetch = attempt gpu .expansionROM fetch ∨
      getVBIOSFromExpansionROM gpu fetch = .error .allocation := by
  rw [getVBIOSFromExpansionROM, attempt]
  by_cases absent : fetch.expansionROMBase = 0
  · left
    simp [absent, yields, sourceImage]
  cases present : gpu.expansionROM with
  | none =>
      left
      simp [yields, sourceImage, present]
  | some rom =>
      have holds : sourceImage gpu fetch.expansionROMBase .expansionROM = some (romImage gpu rom) := by
        rw [sourceImage, if_neg absent, present]
        rfl
      by_cases short : min rom.size gpu.atombiosImageSize = 0
      · left
        have nothing : yields gpu fetch.expansionROMBase .expansionROM = none := by
          refine yields_eq_none fun image held accepted => ?_
          cases held.symm.trans holds
          have long := (romImage gpu rom).size_of_accepted accepted
          rw [romImage, short] at long
          cases long
        simp only [if_neg absent, short, if_true, release_map, nothing]
      cases memory : gpu.allocates .expansionROM with
      | false =>
          right
          simp only [if_neg absent, if_neg short, withBytes, memory, Bool.false_eq_true, if_false]
          rfl
      | true =>
          left
          simp only [if_neg absent, if_neg short, withBytes, memory, if_true, rom_contents]
          by_cases accepted : (romImage gpu rom).Accepted
          · have checked : (checkATOMBIOS (min rom.size gpu.atombiosImageSize)).value
                (romImage gpu rom).bytes = true := accepted
            rw [romImage] at checked
            simp only [yields_eq_some.mpr ⟨holds, accepted⟩, checked, bind, Except.bind, if_true,
              Fetch.map, Fetch.release, List.erase_cons_head]
          · have nothing : yields gpu fetch.expansionROMBase .expansionROM = none := by
              refine yields_eq_none fun image held => ?_
              cases held.symm.trans holds
              exact accepted
            have checked : ¬ (checkATOMBIOS (min rom.size gpu.atombiosImageSize)).value
                (romImage gpu rom).bytes = true := accepted
            rw [romImage] at checked
            simp only [nothing, checked, bind, Except.bind, Bool.false_eq_true, if_false, Fetch.map,
              Fetch.release, List.erase_cons_head, ← empty]
            rfl

end Stages

section Ladder

variable {gpu : Gpu}

variable (gpu) in
def Settles (sources : List Source) (start : Fetch) (outcome : Except Stop (Bool × Fetch)) : Prop :=
  outcome = .error .allocation ∨
    outcome = .ok ((firstYield gpu start.expansionROMBase sources).isSome,
      { start with vbiosData := firstYield gpu start.expansionROMBase sources })

theorem settles_nil {start : Fetch} (empty : start.vbiosData = none) :
    Settles gpu [] start (.ok (false, start)) := by
  right
  simp [firstYield, ← empty]

theorem settles_cons {source : Source} {sources : List Source} {start : Fetch}
    {stage : Except Stop (Bool × Fetch)} {rest : Fetch → Except Stop (Bool × Fetch)}
    (tried : stage = attempt gpu source start ∨ stage = .error .allocation)
    (later : yields gpu start.expansionROMBase source = none →
      Settles gpu sources start (rest start)) :
    Settles gpu (source :: sources) start (orTry stage rest) := by
  rcases tried with rfl | rfl
  · cases found : yields gpu start.expansionROMBase source with
    | none =>
        have same : firstYield gpu start.expansionROMBase (source :: sources) =
            firstYield gpu start.expansionROMBase sources := by
          simp [firstYield, found]
        rw [attempt, found, Settles, same]
        exact later found
    | some image =>
        have first : firstYield gpu start.expansionROMBase (source :: sources) =
            some ⟨source, image.contents⟩ := by
          simp [firstYield, found]
        rw [attempt, found, Settles, first]
        cases memory : gpu.allocates source with
        | true => simp [orTry, withBytes, memory, bind, Except.bind, pure, Except.pure]
        | false => simp [orTry, withBytes, memory, bind, Except.bind]
  · exact Or.inl rfl

theorem settles_last {source : Source} {start : Fetch} (empty : start.vbiosData = none) :
    Settles gpu [source] start (attempt gpu source start) := by
  have ladder : orTry (attempt gpu source start) (fun fetch => .ok (false, fetch)) =
      attempt gpu source start := by
    rw [attempt]
    cases yields gpu start.expansionROMBase source with
    | none => rfl
    | some image => cases memory : gpu.allocates source <;> simp [orTry, withBytes, memory] <;> rfl
  rw [← ladder]
  exact settles_cons (Or.inl rfl) fun _ => settles_nil empty

end Ladder

section Outcome

variable {gpu : Gpu}

variable (gpu) in
/-- What the code leaves unchecked does not come up: the copy of an accepted property is allocated;
without one, there is a platform expert, the VFCT is not empty, and a mapping of BAR 0 that is copied
is as long as what is copied of it. -/
def Unexceptional (base : BitVec 32) : Prop :=
  match yields gpu base .property with
  | some _ => gpu.allocates .property = true
  | none =>
      gpu.platformExpert = true ∧ (∀ table ∈ gpu.vfct, table.size ≠ 0) ∧
        (yields gpu base .vfctStrict = none →
          ∀ bar0 ∈ gpu.bar0, bar0.size ≠ 0 → Image.Accepted ⟨bar0.bytes, vramSize⟩ →
            gpu.allocates .vram = true → vramSize ≤ bar0.size)

theorem getVBIOSFallbacks_settles {start : Fetch} (empty : start.vbiosData = none)
    (expert : gpu.platformExpert = true) (filled : ∀ table ∈ gpu.vfct, table.size ≠ 0)
    (long : yields gpu start.expansionROMBase .vfctStrict = none →
      ∀ bar0 ∈ gpu.bar0, bar0.size ≠ 0 → Image.Accepted ⟨bar0.bytes, vramSize⟩ →
        gpu.allocates .vram = true → vramSize ≤ bar0.size) :
    Settles gpu fallbacks start (getVBIOSFallbacks gpu start) := by
  refine settles_cons (Or.inl (getVBIOSFromVFCT_eq expert filled true start)) fun nothing => ?_
  refine settles_cons (getVBIOSFromVRAM_eq (long nothing) start) fun _ => ?_
  refine settles_cons (getVBIOSFromExpansionROM_eq start empty) fun _ => ?_
  rw [getVBIOSFromVFCT_eq expert filled false start]
  exact settles_last empty

theorem fetched_of_settles {start : Fetch} {outcome : Except Stop (Bool × Fetch)}
    (settles : Settles gpu (.property :: fallbacks) start outcome) :
    FetchedOrOutOfMemory gpu start outcome := by
  rcases settles with rfl | rfl
  · rfl
  · exact ⟨rfl, rfl, fun copy found => firstYield_taken found, rfl, rfl⟩

theorem getVBIOS_of_none {base : BitVec 32} (nothing : yields gpu base .property = none)
    (fetch : Fetch) : getVBIOS gpu fetch = getVBIOSFallbacks gpu fetch := by
  rw [getVBIOS]
  cases present : gpu.binImage with
  | none => rfl
  | some image =>
      have rejected : ¬ image.Accepted := by
        intro accepted
        have held : sourceImage gpu base .property = some image := present
        rw [yields_eq_some.mpr ⟨held, accepted⟩] at nothing
        cases nothing
      exact if_neg rejected

theorem getVBIOS_of_some {base : BitVec 32} {image : Image}
    (found : yields gpu base .property = some image) (fetch : Fetch) :
    getVBIOS gpu fetch = .ok (true, { fetch with
      vbiosData := if gpu.allocates .property then some ⟨.property, image.contents⟩ else none }) := by
  obtain ⟨present, accepted⟩ := yields_eq_some.mp found
  rw [sourceImage] at present
  simp only [getVBIOS, present, if_pos accepted]

theorem not_fetched_of_stop {start : Fetch} (stop : Stop)
    (stopped : getVBIOSFromVFCT gpu true start = .error stop) (other : stop ≠ .allocation) :
    ¬ FetchedOrOutOfMemory gpu start (getVBIOSFallbacks gpu start) := by
  rw [getVBIOSFallbacks, stopped]
  exact other

theorem not_fetched_of_short {start : Fetch} (expert : gpu.platformExpert = true)
    (filled : ∀ table ∈ gpu.vfct, table.size ≠ 0)
    (nothing : yields gpu start.expansionROMBase .vfctStrict = none) {bar0 : Image}
    (present : gpu.bar0 = some bar0) (mapped : bar0.size ≠ 0)
    (accepted : Image.Accepted ⟨bar0.bytes, vramSize⟩) (memory : gpu.allocates .vram = true)
    (short : bar0.size < vramSize) :
    ¬ FetchedOrOutOfMemory gpu start (getVBIOSFallbacks gpu start) := by
  have vram : getVBIOSFromVRAM gpu start = .ok (true, { start with
      vbiosData := some ⟨.vram, Image.contents ⟨bar0.bytes, vramSize⟩⟩ }) := by
    rw [Image.Accepted] at accepted
    simp [getVBIOSFromVRAM, present, mapped, accepted, withBytes, memory, bind, Except.bind,
      Fetch.map, Fetch.release, pure, Except.pure]
  have strict : getVBIOSFromVFCT gpu true start = .ok (false, start) := by
    rw [getVBIOSFromVFCT_eq expert filled, vfctSource, if_pos rfl, attempt, nothing]
  rw [getVBIOSFallbacks, strict]
  simp only [orTry, bind, Except.bind, vram]
  intro fetched
  obtain ⟨range, same, start, fits, -⟩ := fetched.inside _ rfl
  cases (Option.mem_def.mp same).symm.trans present
  simp only [contents_length] at fits
  omega

/--
From a null `VBIOSData`, the VBIOS is fetched as the order of the sources prescribes, or memory runs
out on the way, exactly if nothing the code leaves unchecked comes up.
-/
theorem getVBIOS_fetched_iff (gpu : Gpu) (base : BitVec 32) (mapped : List Mapping) :
    FetchedOrOutOfMemory gpu ⟨none, base, mapped⟩ (getVBIOS gpu ⟨none, base, mapped⟩) ↔
      Unexceptional gpu base := by
  rw [Unexceptional]
  cases found : yields gpu base .property with
  | some image =>
      have first : firstYield gpu base (.property :: fallbacks) =
          some ⟨.property, image.contents⟩ := by
        simp [firstYield, found]
      rw [getVBIOS_of_some found]
      constructor
      · intro fetched
        by_contra failed
        have data := fetched.data
        rw [first, if_neg failed] at data
        cases data
      · intro memory
        refine fetched_of_settles (Or.inr ?_)
        rw [first, if_pos memory]
        rfl
  | none =>
      have later : firstYield gpu base (.property :: fallbacks) = firstYield gpu base fallbacks := by
        simp [firstYield, found]
      rw [getVBIOS_of_none found]
      constructor
      · intro fetched
        have expert : gpu.platformExpert = true := by
          by_contra missing
          refine not_fetched_of_stop .noPlatformExpert ?_ nofun fetched
          rw [getVBIOSFromVFCT, if_neg missing]
        have filled : ∀ table ∈ gpu.vfct, table.size ≠ 0 := by
          intro table present zero
          refine not_fetched_of_stop .emptyVFCT ?_ nofun fetched
          rw [getVBIOSFromVFCT, if_pos expert, Option.mem_def.mp present]
          exact if_pos zero
        refine ⟨expert, filled, fun nothing bar0 present filledBar accepted memory => ?_⟩
        by_contra short
        exact not_fetched_of_short expert filled nothing present filledBar accepted memory
          (Nat.lt_of_not_le short) fetched
      · rintro ⟨expert, filled, long⟩
        refine fetched_of_settles ?_
        rw [Settles, later]
        exact getVBIOSFallbacks_settles rfl expert filled long

def exampleGpu : Gpu where
  layout := ⟨76, pure 0, 28, pure ⟨0, 0, 0, 0, 0, 0⟩, by decide⟩
  ids := ⟨0x1002, 0x163F, 4, 0, 0⟩
  binImage := some ⟨exampleBytes, 0x4A⟩
  platformExpert := true
  vfct := none
  vfctShort := nofun
  bar0 := none
  expansionROM := none
  atombiosImageSize := 0x10000
  imageSizeShort := by decide
  behindCopy := fun _ => 0
  allocates := fun _ => false

theorem getVBIOS_true_without_data :
    getVBIOS exampleGpu ⟨none, 0, []⟩ = .ok (true, ⟨none, 0, []⟩) ∧
      ¬ FetchedOrOutOfMemory exampleGpu ⟨none, 0, []⟩ (getVBIOS exampleGpu ⟨none, 0, []⟩) := by
  have returned : getVBIOS exampleGpu ⟨none, 0, []⟩ = .ok (true, ⟨none, 0, []⟩) := by rfl
  refine ⟨returned, fun fetched => ?_⟩
  rw [returned] at fetched
  have result := fetched.result
  rw [← fetched.data] at result
  cases result

end Outcome

end NootedDeck.Vbios
