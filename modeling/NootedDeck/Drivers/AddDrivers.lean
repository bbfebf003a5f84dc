import Mathlib.Data.List.Basic
import Mathlib.Data.BitVec
import Mathlib.Tactic.SplitIfs

set_option autoImplicit false

namespace NootedDeck.Drivers

structure OSString where
  length : Nat
  cString : Option String
  deriving DecidableEq

inductive Property
  | string (value : OSString)
  | other
  deriving DecidableEq

structure Driver where
  serial : Nat
  dictionary : Option (Option Property)
  deriving DecidableEq

def Driver.bundleIdentifier (object : Driver) : Option String :=
  match object.dictionary with
  | some (some (.string identifier)) => if identifier.length = 0 then none else identifier.cString
  | _ => none

def driverBundleIdentifiers : List String :=
  ["com.apple.kext.AMDRadeonX6000", "com.apple.kext.AMDRadeonX6000Framebuffer",
    "com.apple.driver.AppleGFXHDA"]

-- The variables of the loop. `examined` and `injected` record what it did: the objects it looked
-- at and the bundles whose drivers it added.
structure Scan where
  array : List Driver
  driverIndex : Nat
  driverCount : Nat
  matchedDrivers : BitVec 8
  examined : List Driver
  injected : List String

def setObject (array : List Driver) (index : Nat) (object : Driver) : List Driver :=
  if index ≤ array.length then array.insertIdx index object else array

def injectDrivers : List Driver → Scan → Scan
  | [], scan => scan
  | driver :: drivers, scan =>
      injectDrivers drivers { scan with
        array := setObject scan.array scan.driverIndex driver
        driverIndex := (scan.driverIndex + 1) % 2 ^ 32
        driverCount := (scan.driverCount + 1) % 2 ^ 32 }

def matchedBit (matchedDrivers : BitVec 8) (index : Nat) : Bool :=
  decide (matchedDrivers.setWidth 32 &&& (1#32 <<< index) ≠ 0)

def setMatched (matchedDrivers : BitVec 8) (index : Nat) : BitVec 8 :=
  (matchedDrivers.setWidth 32 ||| (1#32 <<< index)).setWidth 8

def matchIdentifiers (driverXML : String → Option (List Driver)) (identifier : String) :
    Nat → List String → Scan → Option Scan
  | _, [], scan => some scan
  | index, target :: targets, scan =>
      if matchedBit scan.matchedDrivers index then
        matchIdentifiers driverXML identifier (index + 1) targets scan
      else if identifier = target then
        (driverXML identifier).map fun drivers =>
          injectDrivers drivers { scan with
            matchedDrivers := setMatched scan.matchedDrivers index
            injected := scan.injected ++ [identifier] }
      else matchIdentifiers driverXML identifier (index + 1) targets scan

def examineDriver (driverXML : String → Option (List Driver)) (object : Driver) (scan : Scan) :
    Option Scan :=
  match object.bundleIdentifier with
  | none => some scan
  | some identifier => matchIdentifiers driverXML identifier 0 driverBundleIdentifiers scan

-- `none` is the panic for an index out of bounds, or fuel that did not suffice.
def scanDrivers (driverXML : String → Option (List Driver)) : Nat → Scan → Option Scan
  | 0, scan => if scan.driverIndex < scan.driverCount then none else some scan
  | fuel + 1, scan =>
      if scan.driverIndex < scan.driverCount then
        match scan.array[scan.driverIndex]? with
        | none => none
        | some object =>
            (examineDriver driverXML object { scan with examined := scan.examined ++ [object] }).bind
              fun scan => scanDrivers driverXML fuel
                { scan with driverIndex := (scan.driverIndex + 1) % 2 ^ 32 }
      else some scan

def wrapAddDrivers (driverXML : String → Option (List Driver)) (matchedDrivers : BitVec 8)
    (array : List Driver) : Option Scan :=
  scanDrivers driverXML array.length ⟨array, 0, array.length % 2 ^ 32, matchedDrivers, [], []⟩

def addDriversCalls (driverXML : String → Option (List Driver)) :
    BitVec 8 → List (List Driver) → Option (List Scan)
  | _, [] => some []
  | matchedDrivers, array :: arrays =>
      (wrapAddDrivers driverXML matchedDrivers array).bind fun scan =>
        (addDriversCalls driverXML scan.matchedDrivers arrays).map (scan :: ·)

-- The reference. A driver has the drivers of its bundle put before it if it is the first of the
-- whole run with that identifier; `earlier` are all the drivers before it.
def newBundle (earlier : List Driver) (object : Driver) : Option String :=
  match object.bundleIdentifier with
  | none => none
  | some identifier =>
      if identifier ∈ driverBundleIdentifiers ∧
          ∀ other ∈ earlier, other.bundleIdentifier ≠ some identifier then some identifier
      else none

def passedOn (lists : String → List Driver) : List Driver → List Driver → List Driver
  | _, [] => []
  | earlier, object :: rest =>
      ((newBundle earlier object).map lists).getD [] ++ object :: passedOn lists (earlier ++ [object]) rest

def newBundles : List Driver → List Driver → List String
  | _, [] => []
  | earlier, object :: rest =>
      (newBundle earlier object).toList ++ newBundles (earlier ++ [object]) rest

theorem matchedBit_eq_getLsbD (matchedDrivers : BitVec 8) {index : Nat} (small : index < 8) :
    matchedBit matchedDrivers index = matchedDrivers.getLsbD index := by
  have within : index < 32 := by omega
  have apart : BitVec.twoPow 32 index ≠ 0#32 := by
    intro zero
    have marked : (BitVec.twoPow 32 index).getLsbD index = true := by simp [within]
    simp [zero] at marked
  rw [matchedBit, ← BitVec.twoPow_eq, BitVec.and_twoPow, BitVec.getLsbD_setWidth]
  cases matchedDrivers.getLsbD index <;> simp [within, apart]

theorem matchedBit_setMatched (matchedDrivers : BitVec 8) (index other : Fin 3) :
    matchedBit (setMatched matchedDrivers index) other =
      (decide (index = other) || matchedBit matchedDrivers other) := by
  have first : (index : Nat) < 32 := by omega
  have second : (other : Nat) < 8 := by omega
  rw [matchedBit_eq_getLsbD _ second, matchedBit_eq_getLsbD _ second, setMatched,
    ← BitVec.twoPow_eq]
  simp [BitVec.getLsbD_twoPow, Fin.ext_iff, first, second, Bool.or_comm]

theorem driverBundleIdentifiers_nodup : driverBundleIdentifiers.Nodup := by decide

theorem index_lt {index : Nat} {identifier : String}
    (known : driverBundleIdentifiers[index]? = some identifier) : index < 3 :=
  (List.getElem?_eq_some_iff.mp known).1

def Remembers (matchedDrivers : BitVec 8) (earlier : List Driver) : Prop :=
  ∀ index identifier, driverBundleIdentifiers[index]? = some identifier →
    (matchedBit matchedDrivers index = true ↔
      ∃ other ∈ earlier, other.bundleIdentifier = some identifier)

theorem remembers_nil : Remembers 0 [] := by
  intro index identifier known
  have clear : ∀ index : Fin 3, matchedBit 0 index = false := by decide
  have small := clear ⟨index, index_lt known⟩
  simp_all

theorem Remembers.append_old {matchedDrivers : BitVec 8} {earlier : List Driver} {object : Driver}
    (remembers : Remembers matchedDrivers earlier) (old : newBundle earlier object = none) :
    Remembers matchedDrivers (earlier ++ [object]) := by
  intro index identifier known
  rw [remembers index identifier known]
  simp only [List.mem_append, List.mem_singleton, or_and_right, exists_or, exists_eq_left]
  refine ⟨Or.inl, fun either => either.elim id fun named => ?_⟩
  -- The object names the bundle, so it can only be old because an earlier one does.
  by_contra absent
  have member : identifier ∈ driverBundleIdentifiers := List.mem_of_getElem? known
  simp only [newBundle, named] at old
  rw [if_pos ⟨member, fun other among same => absent ⟨other, among, same⟩⟩] at old
  cases old

theorem newBundle_eq_some {earlier : List Driver} {object : Driver} {identifier : String}
    (new : newBundle earlier object = some identifier) :
    object.bundleIdentifier = some identifier ∧ identifier ∈ driverBundleIdentifiers ∧
      ∀ other ∈ earlier, other.bundleIdentifier ≠ some identifier := by
  unfold newBundle at new
  cases named : object.bundleIdentifier with
  | none => simp [named] at new
  | some other =>
      simp only [named] at new
      split_ifs at new with first
      cases new
      exact ⟨rfl, first⟩

theorem Remembers.append_new {matchedDrivers : BitVec 8} {earlier : List Driver} {object : Driver}
    {identifier : String} {index : Nat} (remembers : Remembers matchedDrivers earlier)
    (new : newBundle earlier object = some identifier)
    (known : driverBundleIdentifiers[index]? = some identifier) :
    Remembers (setMatched matchedDrivers index) (earlier ++ [object]) := by
  obtain ⟨named, -, -⟩ := newBundle_eq_some new
  intro other identifier' known'
  have bits := matchedBit_setMatched matchedDrivers ⟨index, index_lt known⟩ ⟨other, index_lt known'⟩
  simp only [Fin.mk.injEq] at bits
  simp only [bits, List.mem_append, List.mem_singleton, or_and_right, exists_or, exists_eq_left,
    Bool.or_eq_true, decide_eq_true_eq, remembers other identifier' known', named,
    Option.some.injEq]
  rw [or_comm]
  refine or_congr_right ⟨fun same => ?_, fun same => ?_⟩
  · subst same
    exact Option.some.inj (known.symm.trans known')
  · subst same
    exact (List.getElem?_inj (index_lt known) driverBundleIdentifiers_nodup).mp (known.trans known'.symm)

theorem setObject_append (done rest : List Driver) (object : Driver) :
    setObject (done ++ rest) done.length object = done ++ object :: rest := by
  have inside : done.length ≤ (done ++ rest).length := by simp
  rw [setObject, if_pos inside]
  induction done with
  | nil => rfl
  | cons driver done ih => simpa using ih (by simp)

theorem injectDrivers_eq (drivers done rest examined : List Driver) (matchedDrivers : BitVec 8)
    (injected : List String) (fits : (done ++ drivers ++ rest).length < 2 ^ 32) :
    injectDrivers drivers
        ⟨done ++ rest, done.length, (done ++ rest).length, matchedDrivers, examined, injected⟩ =
      ⟨done ++ drivers ++ rest, (done ++ drivers).length, (done ++ drivers ++ rest).length,
        matchedDrivers, examined, injected⟩ := by
  induction drivers generalizing done with
  | nil => simp [injectDrivers]
  | cons driver drivers ih =>
      have next := ih (done ++ [driver]) (by simpa using fits)
      simp only [List.length_append, List.length_cons] at fits
      have index : (done.length + 1) % 2 ^ 32 = (done ++ [driver]).length := by
        rw [Nat.mod_eq_of_lt (by omega), List.length_append, List.length_singleton]
      have count : ((done ++ rest).length + 1) % 2 ^ 32 = (done ++ [driver] ++ rest).length := by
        rw [Nat.mod_eq_of_lt (by simp only [List.length_append]; omega)]
        simp only [List.length_append, List.length_singleton]
        omega
      rw [injectDrivers, setObject_append]
      simp only [index, count]
      simpa using next

theorem matchIdentifiers_eq (driverXML : String → Option (List Driver)) (identifier : String)
    (index : Nat) (targets : List String) (scan : Scan) :
    matchIdentifiers driverXML identifier index targets scan =
      match (targets.zipIdx index).find? fun entry =>
        !matchedBit scan.matchedDrivers entry.2 && decide (identifier = entry.1) with
      | none => some scan
      | some entry => (driverXML identifier).map fun drivers =>
          injectDrivers drivers { scan with
            matchedDrivers := setMatched scan.matchedDrivers entry.2
            injected := scan.injected ++ [identifier] } := by
  induction targets generalizing index with
  | nil => rfl
  | cons target targets ih =>
      rw [matchIdentifiers, List.zipIdx_cons, List.find?_cons]
      by_cases taken : matchedBit scan.matchedDrivers index = true
      · simp only [taken, if_true, Bool.not_true, Bool.false_and, ih]
      · by_cases same : identifier = target
        · simp [taken, same]
        · simp only [taken, same, Bool.false_eq_true, if_false, decide_false, Bool.and_false, ih]

theorem length_le_passedOn (lists : String → List Driver) (earlier rest : List Driver) :
    rest.length ≤ (passedOn lists earlier rest).length := by
  induction rest generalizing earlier with
  | nil => exact Nat.zero_le _
  | cons object rest ih =>
      have shorter := ih (earlier ++ [object])
      simp only [passedOn, List.length_append, List.length_cons]
      omega

section Scan

variable {driverXML : String → Option (List Driver)} {lists : String → List Driver}
  (provides : ∀ identifier ∈ driverBundleIdentifiers, driverXML identifier = some (lists identifier))

variable (driverXML) in
theorem examineDriver_old {earlier : List Driver} {object : Driver} (scan : Scan)
    (remembers : Remembers scan.matchedDrivers earlier) (old : newBundle earlier object = none) :
    examineDriver driverXML object scan = some scan := by
  unfold examineDriver
  cases named : object.bundleIdentifier with
  | none => rfl
  | some identifier =>
      have nothing : (driverBundleIdentifiers.zipIdx 0).find? (fun entry =>
          !matchedBit scan.matchedDrivers entry.2 && decide (identifier = entry.1)) = none := by
        rw [List.find?_eq_none]
        intro entry member free
        simp only [Bool.and_eq_true, Bool.not_eq_true', decide_eq_true_eq] at free
        have known : driverBundleIdentifiers[entry.2]? = some identifier := by
          rw [free.2]
          exact List.mem_zipIdx_iff_getElem?.mp member
        have later := remembers.append_old old entry.2 identifier known
        rw [free.1] at later
        simp [named] at later
      simp only [matchIdentifiers_eq, nothing]

include provides in
theorem examineDriver_new {earlier : List Driver} {object : Driver} {identifier : String} (scan : Scan)
    (remembers : Remembers scan.matchedDrivers earlier)
    (new : newBundle earlier object = some identifier) :
    ∃ index, driverBundleIdentifiers[index]? = some identifier ∧
      examineDriver driverXML object scan =
        some (injectDrivers (lists identifier) { scan with
          matchedDrivers := setMatched scan.matchedDrivers index
          injected := scan.injected ++ [identifier] }) := by
  obtain ⟨named, member, first⟩ := newBundle_eq_some new
  cases found : (driverBundleIdentifiers.zipIdx 0).find? fun entry =>
      !matchedBit scan.matchedDrivers entry.2 && decide (identifier = entry.1) with
  | none =>
      rw [List.find?_eq_none] at found
      obtain ⟨index, known⟩ := List.getElem?_of_mem member
      have free : ¬matchedBit scan.matchedDrivers index = true := by
        rw [remembers index identifier known]
        exact fun ⟨other, among, same⟩ => first other among same
      have taken := found (identifier, index) (List.mem_zipIdx_iff_getElem?.mpr known)
      simp [free] at taken
  | some entry =>
      have free := List.find?_some found
      simp only [Bool.and_eq_true, Bool.not_eq_true', decide_eq_true_eq] at free
      refine ⟨entry.2, ?_, ?_⟩
      · rw [free.2]
        exact List.mem_zipIdx_iff_getElem?.mp (List.mem_of_find?_eq_some found)
      · simp only [examineDriver, named, matchIdentifiers_eq, found, provides identifier member,
          Option.map_some]

-- The index is at the first driver of `rest`, everything in `done` is behind it.
include provides in
theorem scanDrivers_eq (rest done earlier examined : List Driver) (injected : List String)
    (matchedDrivers : BitVec 8) (remembers : Remembers matchedDrivers earlier)
    (fits : (done ++ passedOn lists earlier rest).length < 2 ^ 32) :
    ∃ matchedDrivers', Remembers matchedDrivers' (earlier ++ rest) ∧
      scanDrivers driverXML rest.length
          ⟨done ++ rest, done.length, (done ++ rest).length, matchedDrivers, examined, injected⟩ =
        some ⟨done ++ passedOn lists earlier rest, (done ++ passedOn lists earlier rest).length,
          (done ++ passedOn lists earlier rest).length, matchedDrivers', examined ++ rest,
          injected ++ newBundles earlier rest⟩ := by
  induction rest generalizing done earlier examined injected matchedDrivers with
  | nil => exact ⟨matchedDrivers, by simpa using remembers, by simp [scanDrivers, passedOn, newBundles]⟩
  | cons object rest ih =>
      have longer := length_le_passedOn lists (earlier ++ [object]) rest
      have inside : done.length < (done ++ object :: rest).length := by simp
      have here : (done ++ object :: rest)[done.length]? = some object := by simp
      simp only [List.length_cons, scanDrivers, inside, if_true, here]
      cases new : newBundle earlier object with
      | none =>
          simp only [passedOn, new, Option.map_none, Option.getD_none, List.nil_append] at fits ⊢
          obtain ⟨matchedDrivers', kept, scanned⟩ := ih (done ++ [object]) (earlier ++ [object])
            (examined ++ [object]) injected matchedDrivers (remembers.append_old new)
            (by simpa using fits)
          have index : (done.length + 1) % 2 ^ 32 = (done ++ [object]).length := by
            simp only [List.length_append, List.length_cons] at fits
            rw [Nat.mod_eq_of_lt (by omega), List.length_append, List.length_singleton]
          refine ⟨matchedDrivers', by simpa using kept, ?_⟩
          have looked := examineDriver_old driverXML ⟨done ++ object :: rest, done.length,
            (done ++ object :: rest).length, matchedDrivers, examined ++ [object], injected⟩ remembers new
          simp only [looked, Option.bind_some, index, newBundles, new, Option.toList_none,
            List.nil_append]
          simpa using scanned
      | some identifier =>
          simp only [passedOn, new, Option.map_some, Option.getD_some] at fits ⊢
          have room : (done ++ lists identifier ++ object :: rest).length < 2 ^ 32 := by
            simp only [List.length_append, List.length_cons] at fits ⊢
            omega
          obtain ⟨bit, known, looked⟩ := examineDriver_new provides ⟨done ++ object :: rest,
            done.length, (done ++ object :: rest).length, matchedDrivers, examined ++ [object],
            injected⟩ remembers new
          obtain ⟨matchedDrivers', kept, scanned⟩ := ih (done ++ lists identifier ++ [object])
            (earlier ++ [object]) (examined ++ [object]) (injected ++ [identifier])
            (setMatched matchedDrivers bit) (remembers.append_new new known) (by simpa using fits)
          have index : ((done ++ lists identifier).length + 1) % 2 ^ 32 =
              (done ++ lists identifier ++ [object]).length := by
            simp only [List.length_append, List.length_cons] at room
            rw [Nat.mod_eq_of_lt (by simp only [List.length_append]; omega)]
            simp only [List.length_append, List.length_singleton]
          refine ⟨matchedDrivers', by simpa using kept, ?_⟩
          rw [looked, injectDrivers_eq _ _ _ _ _ _ room, Option.bind_some]
          simp only [index, newBundles, new, Option.toList_some]
          simpa using scanned

-- What a run should do: each call passes on its array with the lists of the bundles that come up
-- for the first time, after having looked at every driver of the array once and at nothing else.
def expectedCalls (lists : String → List Driver) :
    List Driver → List (List Driver) → List (List Driver × List Driver × List String)
  | _, [] => []
  | earlier, array :: arrays =>
      (passedOn lists earlier array, array, newBundles earlier array) ::
        expectedCalls lists (earlier ++ array) arrays

def Scan.summary (scan : Scan) : List Driver × List Driver × List String :=
  (scan.array, scan.examined, scan.injected)

include provides in
theorem wrapAddDrivers_eq (array earlier : List Driver) (matchedDrivers : BitVec 8)
    (remembers : Remembers matchedDrivers earlier)
    (fits : (passedOn lists earlier array).length < 2 ^ 32) :
    ∃ scan, wrapAddDrivers driverXML matchedDrivers array = some scan ∧
      scan.summary = (passedOn lists earlier array, array, newBundles earlier array) ∧
      Remembers scan.matchedDrivers (earlier ++ array) := by
  have shorter := length_le_passedOn lists earlier array
  have count : array.length % 2 ^ 32 = array.length := Nat.mod_eq_of_lt (by omega)
  obtain ⟨matchedDrivers', kept, scanned⟩ :=
    scanDrivers_eq provides array [] earlier [] [] matchedDrivers remembers fits
  rw [wrapAddDrivers, count]
  exact ⟨_, scanned, rfl, kept⟩

include provides in
theorem addDriversCalls_eq (arrays : List (List Driver)) (earlier : List Driver)
    (matchedDrivers : BitVec 8) (remembers : Remembers matchedDrivers earlier)
    (fits : ∀ call ∈ expectedCalls lists earlier arrays, call.1.length < 2 ^ 32) :
    ∃ scans, addDriversCalls driverXML matchedDrivers arrays = some scans ∧
      scans.map Scan.summary = expectedCalls lists earlier arrays := by
  induction arrays generalizing earlier matchedDrivers with
  | nil => exact ⟨[], rfl, rfl⟩
  | cons array arrays ih =>
      rw [expectedCalls, List.forall_mem_cons] at fits
      obtain ⟨scan, wrapped, summary, kept⟩ :=
        wrapAddDrivers_eq provides array earlier matchedDrivers remembers fits.1
      obtain ⟨scans, rest, summaries⟩ := ih (earlier ++ array) scan.matchedDrivers kept fits.2
      refine ⟨scan :: scans, ?_, ?_⟩
      · rw [addDriversCalls, wrapped, Option.bind_some, rest, Option.map_some]
      · rw [List.map_cons, summary, summaries, expectedCalls]

end Scan

theorem newBundles_nodup (earlier rest : List Driver) :
    (newBundles earlier rest).Nodup ∧ ∀ identifier ∈ newBundles earlier rest,
      ∀ other ∈ earlier, other.bundleIdentifier ≠ some identifier := by
  induction rest generalizing earlier with
  | nil => exact ⟨List.nodup_nil, by simp [newBundles]⟩
  | cons object rest ih =>
      obtain ⟨distinct, fresh⟩ := ih (earlier ++ [object])
      cases new : newBundle earlier object with
      | none =>
          simp only [newBundles, new, Option.toList_none, List.nil_append]
          exact ⟨distinct, fun identifier member other among =>
            fresh identifier member other (List.mem_append_left _ among)⟩
      | some identifier =>
          obtain ⟨named, -, first⟩ := newBundle_eq_some new
          simp only [newBundles, new, Option.toList_some, List.singleton_append, List.nodup_cons,
            List.forall_mem_cons]
          refine ⟨⟨fun again => ?_, distinct⟩, first, fun other member earlierDriver among =>
            fresh other member earlierDriver (List.mem_append_left _ among)⟩
          exact fresh identifier again object (by simp) named

theorem newBundles_append (earlier left right : List Driver) :
    newBundles earlier (left ++ right) = newBundles earlier left ++ newBundles (earlier ++ left) right := by
  induction left generalizing earlier with
  | nil => simp [newBundles]
  | cons object left ih => simp [newBundles, ih]

theorem expectedCalls_injected (lists : String → List Driver) (earlier : List Driver)
    (arrays : List (List Driver)) :
    (expectedCalls lists earlier arrays).flatMap (fun call => call.2.2) =
      newBundles earlier arrays.flatten := by
  induction arrays generalizing earlier with
  | nil => rfl
  | cons array arrays ih =>
      rw [expectedCalls, List.flatMap_cons, ih, List.flatten_cons, newBundles_append]

/--
Over every run of `addDrivers` calls the array passed on is the array given with the list of each
target bundle put before the first driver of the run that names it; the drivers of the array given
are examined once each and in order, and no bundle is injected twice.
-/
theorem addDrivers_passes_on (driverXML : String → Option (List Driver)) (lists : String → List Driver)
    (provides : ∀ identifier ∈ driverBundleIdentifiers, driverXML identifier = some (lists identifier))
    (arrays : List (List Driver))
    (fits : ∀ call ∈ expectedCalls lists [] arrays, call.1.length < 2 ^ 32) :
    ∃ scans, addDriversCalls driverXML 0 arrays = some scans ∧
      scans.map (fun scan => (scan.array, scan.examined, scan.injected)) =
        expectedCalls lists [] arrays ∧
      (scans.flatMap fun scan => scan.injected).Nodup := by
  obtain ⟨scans, ran, summaries⟩ := addDriversCalls_eq provides arrays [] 0 remembers_nil fits
  refine ⟨scans, ran, summaries, ?_⟩
  have injected := expectedCalls_injected lists [] arrays
  rw [← summaries, List.flatMap_map] at injected
  change scans.flatMap (fun scan => scan.injected) = _ at injected
  rw [injected]
  exact (newBundles_nodup [] arrays.flatten).1

theorem addDrivers_passes_on_example :
    ∃ scans, addDriversCalls (fun _ => some [⟨100, none⟩, ⟨101, none⟩]) 0
        [[⟨0, none⟩, ⟨1, some (some (.string ⟨28, some "com.apple.driver.AppleGFXHDA"⟩))⟩,
          ⟨2, some (some (.string ⟨28, some "com.apple.driver.AppleGFXHDA"⟩))⟩],
          [⟨3, some (some (.string ⟨28, some "com.apple.driver.AppleGFXHDA"⟩))⟩]] = some scans ∧
      scans.map (fun scan => scan.array.map (·.serial)) = [[0, 100, 101, 1, 2], [3]] := by
  obtain ⟨scans, ran, summaries, -⟩ := addDrivers_passes_on
    (fun _ => some [⟨100, none⟩, ⟨101, none⟩]) (fun _ => [⟨100, none⟩, ⟨101, none⟩]) (fun _ _ => rfl)
    [[⟨0, none⟩, ⟨1, some (some (.string ⟨28, some "com.apple.driver.AppleGFXHDA"⟩))⟩,
      ⟨2, some (some (.string ⟨28, some "com.apple.driver.AppleGFXHDA"⟩))⟩],
      [⟨3, some (some (.string ⟨28, some "com.apple.driver.AppleGFXHDA"⟩))⟩]] (by decide)
  refine ⟨scans, ran, ?_⟩
  have arrays := congrArg (List.map fun call => call.1.map (·.serial)) summaries
  rw [List.map_map] at arrays
  exact arrays

end NootedDeck.Drivers
