import Mathlib.Data.List.Nodup
import Mathlib.Logic.Function.Basic

set_option autoImplicit false

-- Every cell has a parent and two children, and a cell `none` stands for no cell. The parent of
-- `none` is scratch: it is written, but nobody reads it.

namespace Linked

inductive Side where
  | left
  | right
  deriving DecidableEq

inductive PlaceTree (ι : Type) where
  | nil
  | node (left : PlaceTree ι) (place : ι) (right : PlaceTree ι)

def PlaceTree.places {ι : Type} : PlaceTree ι → List ι
  | .nil => []
  | .node left place right => left.places ++ place :: right.places

structure Links (ι : Type) where
  child : Side → ι → ι
  parent : ι → ι

theorem PlaceTree.nodup_node {ι : Type} {left right : PlaceTree ι} {place : ι} :
    (PlaceTree.node left place right).places.Nodup ↔
      left.places.Nodup ∧ right.places.Nodup ∧ place ∉ left.places ∧ place ∉ right.places ∧
        ∀ cell ∈ left.places, cell ∉ right.places := by
  simp only [PlaceTree.places, List.nodup_append, List.nodup_cons, List.mem_cons]
  grind

namespace Links

variable {ι : Type}

def Holds (links : Links ι) (none : ι) : PlaceTree ι → ι → ι → Prop
  | .nil, root, _ => root = none
  | .node left place right, root, up =>
      root = place ∧ place ≠ none ∧ links.parent place = up ∧
        Holds links none left (links.child .left place) place ∧
        Holds links none right (links.child .right place) place

structure Confined (links : Links ι) (none : ι) (after : Links ι) (places : List ι) (up : ι)
    (side : Side) : Prop where
  parent : ∀ cell, cell ≠ none → cell ∉ places → after.parent cell = links.parent cell
  child : ∀ other cell, cell ∉ places → ¬(other = side ∧ cell = up) →
    after.child other cell = links.child other cell

section Holds

variable {links after : Links ι} {none root up : ι} {tree left right : PlaceTree ι} {place : ι}

theorem Holds.ne_none (holds : links.Holds none tree root up) : none ∉ tree.places := by
  induction tree generalizing root up with
  | nil => simp [PlaceTree.places]
  | node left place right ihl ihr =>
      obtain ⟨-, used, -, before, behind⟩ := holds
      simp [PlaceTree.places, ihl before, ihr behind, Ne.symm used]

theorem Holds.root_cases (holds : links.Holds none tree root up) :
    tree = .nil ∧ root = none ∨ root ∈ tree.places := by
  cases tree with
  | nil => exact Or.inl ⟨rfl, holds⟩
  | node left place right => exact Or.inr (by simp [PlaceTree.places, holds.1])

theorem Holds.child_ne (holds : links.Holds none (.node left place right) place up)
    (distinct : (PlaceTree.node left place right).places.Nodup) (side : Side) :
    links.child side place ≠ place := by
  obtain ⟨-, used, -, before, behind⟩ := holds
  obtain ⟨-, -, away, beyond, -⟩ := PlaceTree.nodup_node.mp distinct
  cases side with
  | left => grind [before.root_cases]
  | right => grind [behind.root_cases]

theorem Holds.congr (holds : links.Holds none tree root up)
    (child : ∀ side, ∀ cell ∈ tree.places, after.child side cell = links.child side cell)
    (parent : ∀ cell ∈ tree.places, after.parent cell = links.parent cell) :
    after.Holds none tree root up := by
  induction tree generalizing root up with
  | nil => exact holds
  | node left place right ihl ihr =>
      obtain ⟨rfl, used, above, before, behind⟩ := holds
      simp only [PlaceTree.places, List.mem_append, List.mem_cons] at child parent
      have here (side : Side) := child side root (by simp)
      refine ⟨rfl, used, (parent root (by simp)).trans above, ?_, ?_⟩
      · rw [here]
        exact ihl before (fun side cell member => child side cell (Or.inl member))
          fun cell member => parent cell (Or.inl member)
      · rw [here]
        exact ihr behind (fun side cell member => child side cell (Or.inr (Or.inr member)))
          fun cell member => parent cell (Or.inr (Or.inr member))

theorem Holds.child_mem (holds : links.Holds none tree root up) (member : place ∈ tree.places)
    (side : Side) : links.child side place = none ∨ links.child side place ∈ tree.places := by
  induction tree generalizing root up with
  | nil => simp [PlaceTree.places] at member
  | node left here right ihl ihr =>
      obtain ⟨-, -, -, before, behind⟩ := holds
      simp only [PlaceTree.places, List.mem_append, List.mem_cons] at member ⊢
      rcases member with earlier | rfl | later
      · exact (ihl before earlier).imp id Or.inl
      · cases side with
        | left => grind [before.root_cases]
        | right => grind [behind.root_cases]
      · exact (ihr behind later).imp id fun below => Or.inr (Or.inr below)

structure Part (links : Links ι) (none up : ι) (side : Side) (tree : PlaceTree ι) (place : ι)
    (left right : PlaceTree ι) : Prop where
  holds : links.Holds none (.node left place right) place (links.parent place)
  distinct : (PlaceTree.node left place right).places.Nodup
  away : links.parent place ∉ (PlaceTree.node left place right).places
  inside : ∀ cell ∈ (PlaceTree.node left place right).places, cell ∈ tree.places
  hangs : links.parent place = up ∧ links.child side up = place ∨ links.parent place ∈ tree.places

theorem Holds.part {side : Side} (holds : links.Holds none tree (links.child side up) up)
    (distinct : tree.places.Nodup) (away : up ∉ tree.places) (member : place ∈ tree.places) :
    ∃ left right, Part links none up side tree place left right := by
  induction tree generalizing side up with
  | nil => simp [PlaceTree.places] at member
  | node left here right ihl ihr =>
      have whole := holds
      obtain ⟨root, used, above, before, behind⟩ := holds
      obtain ⟨first, second, beside, beyond, -⟩ := PlaceTree.nodup_node.mp distinct
      simp only [PlaceTree.places, List.mem_append, List.mem_cons] at member
      rcases member with earlier | rfl | later
      · obtain ⟨_, _, part⟩ := ihl before first beside earlier
        refine ⟨_, _, part.holds, part.distinct, part.away, fun cell among => ?_, Or.inr ?_⟩
        · simp [PlaceTree.places, part.inside cell among]
        · rcases part.hangs with ⟨same, -⟩ | among
          · simp [PlaceTree.places, same]
          · simp [PlaceTree.places, among]
      · rw [root, ← above] at whole
        exact ⟨_, _, whole, distinct, by rwa [above], fun _ among => among, Or.inl ⟨above, root⟩⟩
      · obtain ⟨_, _, part⟩ := ihr behind second beyond later
        refine ⟨_, _, part.holds, part.distinct, part.away, fun cell among => ?_, Or.inr ?_⟩
        · simp [PlaceTree.places, part.inside cell among]
        · rcases part.hangs with ⟨same, -⟩ | among
          · simp [PlaceTree.places, same]
          · simp [PlaceTree.places, among]

theorem Holds.moved {other : ι} (holds : links.Holds none tree root up) (distinct : tree.places.Nodup)
    (child : ∀ side, ∀ cell ∈ tree.places, after.child side cell = links.child side cell)
    (parent : ∀ cell ∈ tree.places, cell ≠ root → after.parent cell = links.parent cell)
    (moved : root ∈ tree.places → after.parent root = other) : after.Holds none tree root other := by
  cases tree with
  | nil => exact holds
  | node left place right =>
      obtain ⟨rfl, used, above, before, behind⟩ := holds
      obtain ⟨-, -, away, beyond, -⟩ := PlaceTree.nodup_node.mp distinct
      simp only [PlaceTree.places, List.mem_append, List.mem_cons] at child parent moved
      have here (side : Side) := child side root (by simp)
      refine ⟨rfl, used, moved (by simp), ?_, ?_⟩
      · rw [here]
        refine before.congr (fun side cell member => child side cell (Or.inl member))
          fun cell member => parent cell (Or.inl member) ?_
        exact fun same => away (same ▸ member)
      · rw [here]
        refine behind.congr (fun side cell member => child side cell (Or.inr (Or.inr member)))
          fun cell member => parent cell (Or.inr (Or.inr member)) ?_
        exact fun same => beyond (same ▸ member)

theorem Holds.confined {places : List ι} {at_ : ι} {side : Side}
    (holds : links.Holds none tree root up) (confined : links.Confined none after places at_ side)
    (apart : ∀ cell ∈ tree.places, cell ∉ places ∧ cell ≠ at_) : after.Holds none tree root up := by
  refine holds.congr (fun other cell member => ?_) fun cell member => ?_
  · exact confined.child other cell (apart cell member).1 fun same => (apart cell member).2 same.2
  · exact confined.parent cell (fun same => holds.ne_none (same ▸ member)) (apart cell member).1

structure Edited (links : Links ι) (none up : ι) (side : Side) (tree : PlaceTree ι) (fresh places : List ι)
    (after : Links ι) : Prop where
  holds : ∃ edited : PlaceTree ι, edited.places = places ∧ after.Holds none edited (after.child side up) up
  confined : links.Confined none after (fresh ++ tree.places) up side

theorem Edited.under_left {fresh places : List ι} {here : ι} {side : Side}
    (edited : links.Edited none here .left left fresh places after)
    (holds : links.Holds none (.node left here right) (links.child side up) up)
    (distinct : (PlaceTree.node left here right).places.Nodup)
    (away : up ∉ (PlaceTree.node left here right).places)
    (apart : ∀ cell ∈ fresh, cell ≠ up ∧ cell ∉ (PlaceTree.node left here right).places) :
    links.Edited none up side (.node left here right) fresh (places ++ here :: right.places) after := by
  obtain ⟨root, used, above, before, behind⟩ := holds
  obtain ⟨-, -, beside, beyond, disjoint⟩ := PlaceTree.nodup_node.mp distinct
  obtain ⟨⟨fewer, order, holds⟩, confined⟩ := edited
  simp only [PlaceTree.places, List.mem_append, List.mem_cons, not_or] at away apart
  have untouched : here ∉ fresh ++ left.places := by grind
  refine ⟨⟨.node fewer here right, by rw [PlaceTree.places, order], ?_⟩, ⟨fun cell some outside => ?_,
    fun other cell outside _ => ?_⟩⟩
  · rw [confined.child side up (by grind) (by simp [away]), root]
    refine ⟨rfl, used, (confined.parent here used untouched).trans above, holds, ?_⟩
    rw [confined.child .right here untouched (by simp)]
    exact behind.confined confined (by grind)
  · simp only [PlaceTree.places, List.mem_append, List.mem_cons, not_or] at outside
    exact confined.parent cell some (by simp [outside])
  · simp only [PlaceTree.places, List.mem_append, List.mem_cons, not_or] at outside
    exact confined.child other cell (by simp [outside]) (by simp [outside])

theorem Edited.under_right {fresh places : List ι} {here : ι} {side : Side}
    (edited : links.Edited none here .right right fresh places after)
    (holds : links.Holds none (.node left here right) (links.child side up) up)
    (distinct : (PlaceTree.node left here right).places.Nodup)
    (away : up ∉ (PlaceTree.node left here right).places)
    (apart : ∀ cell ∈ fresh, cell ≠ up ∧ cell ∉ (PlaceTree.node left here right).places) :
    links.Edited none up side (.node left here right) fresh (left.places ++ here :: places) after := by
  obtain ⟨root, used, above, before, behind⟩ := holds
  obtain ⟨-, -, beside, beyond, disjoint⟩ := PlaceTree.nodup_node.mp distinct
  obtain ⟨⟨fewer, order, holds⟩, confined⟩ := edited
  simp only [PlaceTree.places, List.mem_append, List.mem_cons, not_or] at away apart
  have untouched : here ∉ fresh ++ right.places := by grind
  refine ⟨⟨.node left here fewer, by rw [PlaceTree.places, order], ?_⟩, ⟨fun cell some outside => ?_,
    fun other cell outside _ => ?_⟩⟩
  · rw [confined.child side up (by grind) (by simp [away]), root]
    refine ⟨rfl, used, (confined.parent here used untouched).trans above, ?_, holds⟩
    rw [confined.child .left here untouched (by simp)]
    exact before.confined confined (by grind)
  · simp only [PlaceTree.places, List.mem_append, List.mem_cons, not_or] at outside
    exact confined.parent cell some (by simp [outside])
  · simp only [PlaceTree.places, List.mem_append, List.mem_cons, not_or] at outside
    exact confined.child other cell (by simp [outside]) (by simp [outside])

/-- What inserting a cell gives: the cells of the tree with the new one among them, which may have taken
the place of another one. -/
structure Inserted (links : Links ι) (none up : ι) (side : Side) (tree : PlaceTree ι) (new : ι)
    (places : List ι) (after : Links ι) : Prop where
  edited : links.Edited none up side tree [new] places after
  distinct : places.Nodup
  among : ∀ cell ∈ places, cell = new ∨ cell ∈ tree.places
  present : new ∈ places
  gone : ∀ cell ∈ tree.places, cell ∉ places → after.parent cell = none

theorem Inserted.under_left {here new : ι} {places : List ι} {side : Side}
    (inserted : links.Inserted none here .left left new places after)
    (holds : links.Holds none (.node left here right) (links.child side up) up)
    (distinct : (PlaceTree.node left here right).places.Nodup)
    (away : up ∉ (PlaceTree.node left here right).places) (apart : up ≠ new)
    (fresh : new ∉ (PlaceTree.node left here right).places) :
    links.Inserted none up side (.node left here right) new (places ++ here :: right.places) after := by
  have edited := inserted.edited.under_left holds distinct away (by simp [Ne.symm apart, fresh])
  obtain ⟨-, order, among, present, gone⟩ := inserted
  obtain ⟨first, second, beside, beyond, disjoint⟩ := PlaceTree.nodup_node.mp distinct
  simp only [PlaceTree.places, List.mem_append, List.mem_cons, not_or] at fresh
  refine ⟨edited, ?_, ?_, by simp [*], ?_⟩
  · simp only [List.nodup_append, List.nodup_cons, List.mem_cons]
    grind
  · simp only [PlaceTree.places, List.mem_append, List.mem_cons]
    grind
  · simp only [PlaceTree.places, List.mem_append, List.mem_cons]
    grind

theorem Inserted.under_right {here new : ι} {places : List ι} {side : Side}
    (inserted : links.Inserted none here .right right new places after)
    (holds : links.Holds none (.node left here right) (links.child side up) up)
    (distinct : (PlaceTree.node left here right).places.Nodup)
    (away : up ∉ (PlaceTree.node left here right).places) (apart : up ≠ new)
    (fresh : new ∉ (PlaceTree.node left here right).places) :
    links.Inserted none up side (.node left here right) new (left.places ++ here :: places) after := by
  have edited := inserted.edited.under_right holds distinct away (by simp [Ne.symm apart, fresh])
  obtain ⟨-, order, among, present, gone⟩ := inserted
  obtain ⟨first, second, beside, beyond, disjoint⟩ := PlaceTree.nodup_node.mp distinct
  simp only [PlaceTree.places, List.mem_append, List.mem_cons, not_or] at fresh
  refine ⟨edited, ?_, ?_, by simp [*], ?_⟩
  · simp only [List.nodup_append, List.nodup_cons, List.mem_cons]
    grind
  · simp only [PlaceTree.places, List.mem_append, List.mem_cons]
    grind
  · simp only [PlaceTree.places, List.mem_append, List.mem_cons]
    grind

end Holds

section Changes

variable [DecidableEq ι]

def setChild (links : Links ι) (side : Side) (place value : ι) : Links ι :=
  { links with
    child := fun other cell => if other = side ∧ cell = place then value else links.child other cell }

def setParent (links : Links ι) (place value : ι) : Links ι :=
  { links with parent := fun cell => if cell = place then value else links.parent cell }

def below (links : Links ι) (place : ι) : Side :=
  if links.child .right (links.parent place) = place then .right else .left

variable (links : Links ι)

theorem child_setChild (side other : Side) (place value cell : ι) :
    (links.setChild side place value).child other cell =
      if other = side ∧ cell = place then value else links.child other cell := rfl

@[simp] theorem parent_setChild (side : Side) (place value : ι) :
    (links.setChild side place value).parent = links.parent := rfl

@[simp] theorem child_setParent (place value : ι) :
    (links.setParent place value).child = links.child := rfl

theorem parent_setParent (place value cell : ι) :
    (links.setParent place value).parent cell = if cell = place then value else links.parent cell := rfl

def hang (side : Side) (up new : ι) : Links ι := (links.setChild side up new).setParent new up

def bypass (none place below : ι) : Links ι :=
  let links := links.setParent below (links.parent place)
  let links := links.setChild (links.below place) (links.parent place) below
  links.setParent place none

def rightmost (none : ι) : Nat → ι → Option ι
  | 0, _ => .none
  | fuel + 1, place =>
      if links.child .right place = none then some place
      else rightmost none fuel (links.child .right place)

def detach (last : ι) : Links ι :=
  (links.setChild .right (links.parent last) (links.child .left last)).setParent (links.child .left last)
    (links.parent last)

def adopt (side : Side) (place new : ι) : Links ι :=
  (links.setChild side new (links.child side place)).setParent (links.child side place) new

/-- What takes the place of a cell: the only child or, if there are two, the cell to the left, which then
has both sides below it. -/
def replacement (none : ι) (fuel : Nat) (place : ι) : Option (ι × Links ι) :=
  if links.child .right place = none then some (links.child .left place, links)
  else if links.child .left place = none then some (links.child .right place, links)
  else if links.child .right (links.child .left place) = none then
    some (links.child .left place, links.adopt .right place (links.child .left place))
  else
    (links.rightmost none fuel (links.child .left place)).map fun last =>
      (last, ((links.detach last).adopt .left place last).adopt .right place last)

def remove (none : ι) (fuel : Nat) (place : ι) : Option (Links ι) :=
  (links.replacement none fuel place).map fun replaced => replaced.2.bypass none place replaced.1

def supplant (none place new : ι) : Links ι :=
  let links := links.setParent new (links.parent place)
  let links := links.setChild .left new (links.child .left place)
  let links := links.setChild .right new (links.child .right place)
  let links := links.setParent (links.child .left place) new
  let links := links.setParent (links.child .right place) new
  let links := links.setChild (links.below place) (links.parent place) new
  links.setParent place none

end Changes

section Supplant

variable [DecidableEq ι] {links : Links ι} {none up place new : ι} {side : Side} {left right : PlaceTree ι}

theorem below_eq (above : links.parent place = up) (hangs : links.child side up = place)
    (only : side = .left → links.child .right up ≠ place) : links.below place = side := by
  cases side with
  | left => simp [below, above, only rfl]
  | right => simp [below, above, hangs]

theorem Holds.supplant (holds : links.Holds none (.node left place right) place up)
    (distinct : (PlaceTree.node left place right).places.Nodup)
    (hangs : links.child side up = place) (only : side = .left → links.child .right up ≠ place)
    (fresh : new ∉ (PlaceTree.node left place right).places) (used : new ≠ none)
    (away : up ∉ (PlaceTree.node left place right).places) (apart : up ≠ new) :
    links.Edited none up side (.node left place right) [new] (left.places ++ new :: right.places)
        (links.supplant none place new) ∧
      (links.supplant none place new).parent place = none := by
  have found := below_eq holds.2.2.1 hangs only
  have leftward := holds.child_ne distinct .left
  have rightward := holds.child_ne distinct .right
  have different : place ≠ new := fun same => fresh (by simp [PlaceTree.places, same])
  obtain ⟨-, known, above, before, behind⟩ := holds
  have child (other : Side) (cell : ι) : (links.supplant none place new).child other cell =
      if other = side ∧ cell = up then new
      else if cell = new then links.child other place else links.child other cell := by
    rw [← found]
    cases other <;> simp [Links.supplant, below, child_setChild, parent_setParent, different, leftward.symm,
      rightward.symm, above, apart]
  have parent (cell : ι) : (links.supplant none place new).parent cell =
      if cell = place then none
      else if cell = links.child .right place ∨ cell = links.child .left place then new
      else if cell = new then up else links.parent cell := by
    simp [Links.supplant, child_setChild, parent_setParent, different, above]
    grind
  obtain ⟨first, second, beside, beyond, disjoint⟩ := PlaceTree.nodup_node.mp distinct
  simp only [PlaceTree.places, List.mem_append, List.mem_cons, not_or] at fresh away
  have lefts := before.root_cases
  have rights := behind.root_cases
  have before_none := before.ne_none
  have behind_none := behind.ne_none
  have hung : (links.supplant none place new).child side up = new := by simp [child]
  refine ⟨⟨⟨.node left new right, rfl, ?_⟩, ⟨fun cell some outside => ?_,
    fun other cell outside elsewhere => ?_⟩⟩, by simp [parent]⟩
  · rw [hung]
    have here (other : Side) :
        (links.supplant none place new).child other new = links.child other place := by
      simp [child, Ne.symm apart]
    refine ⟨rfl, used, by grind, ?_, ?_⟩
    · rw [here]
      exact before.moved first (by grind) (by grind) (by grind)
    · rw [here]
      exact behind.moved second (by grind) (by grind) (by grind)
  · simp only [PlaceTree.places, List.mem_append, List.mem_cons, List.not_mem_nil, or_false, not_or] at outside
    rw [parent]
    grind
  · simp only [PlaceTree.places, List.mem_append, List.mem_cons, List.not_mem_nil, or_false, not_or] at outside
    rw [child, if_neg elsewhere, if_neg outside.1]

theorem hang_edited (empty : ∀ other, links.child other new = none)
    (used : new ≠ none) (apart : up ≠ new) :
    links.Edited none up side .nil [new] [new] (links.hang side up new) := by
  have hung : (links.hang side up new).child side up = new := by simp [hang, child_setChild]
  refine ⟨⟨.node .nil new .nil, rfl, ?_⟩, ⟨fun cell _ outside => ?_, fun other cell _ elsewhere => ?_⟩⟩
  · rw [hung]
    simp [hang, Holds, child_setChild, parent_setParent, Ne.symm apart, empty, used]
  · simp [hang, parent_setParent, List.mem_singleton.not.mp outside]
  · simp [hang, child_setChild, elsewhere]

theorem hang_inserted (empty : ∀ other, links.child other new = none) (used : new ≠ none)
    (apart : up ≠ new) : links.Inserted none up side .nil new [new] (links.hang side up new) :=
  ⟨hang_edited empty used apart, by simp, by simp, by simp, by simp [PlaceTree.places]⟩

theorem Holds.supplant_inserted (holds : links.Holds none (.node left place right) place up)
    (distinct : (PlaceTree.node left place right).places.Nodup)
    (hangs : links.child side up = place) (only : side = .left → links.child .right up ≠ place)
    (fresh : new ∉ (PlaceTree.node left place right).places) (used : new ≠ none)
    (away : up ∉ (PlaceTree.node left place right).places) (apart : up ≠ new) :
    links.Inserted none up side (.node left place right) new (left.places ++ new :: right.places)
      (links.supplant none place new) := by
  obtain ⟨edited, gone⟩ := holds.supplant distinct hangs only fresh used away apart
  obtain ⟨first, second, -, -, disjoint⟩ := PlaceTree.nodup_node.mp distinct
  simp only [PlaceTree.places, List.mem_append, List.mem_cons, not_or] at fresh
  refine ⟨edited, ?_, ?_, by simp [*], ?_⟩
  · simp only [List.nodup_append, List.nodup_cons, List.mem_cons]
    grind
  · simp only [PlaceTree.places, List.mem_append, List.mem_cons]
    grind
  · simp only [PlaceTree.places, List.mem_append, List.mem_cons]
    grind

end Supplant

section Remove

variable [DecidableEq ι] {links : Links ι} {none up place root : ι} {side : Side} {tree left right : PlaceTree ι}

theorem Holds.bypass {other : ι} (holds : links.Holds none tree root other) (distinct : tree.places.Nodup)
    (used : place ≠ none) (above : links.parent place = up) (hangs : links.child side up = place)
    (only : side = .left → links.child .right up ≠ place)
    (fresh : place ∉ tree.places) (away : up ∉ tree.places) :
    (links.bypass none place root).child side up = root ∧
      (links.bypass none place root).Holds none tree root up ∧
      links.Confined none (links.bypass none place root) (place :: tree.places) up side ∧
      (links.bypass none place root).parent place = none := by
  have found := below_eq above hangs only
  have roots := holds.root_cases
  have different : place ≠ root := by grind
  have child (other : Side) (cell : ι) : (links.bypass none place root).child other cell =
      if other = side ∧ cell = up then root else links.child other cell := by
    rw [← found]
    simp [Links.bypass, below, child_setChild, parent_setParent, above, different]
  have parent (cell : ι) : (links.bypass none place root).parent cell =
      if cell = place then none else if cell = root then up else links.parent cell := by
    simp [Links.bypass, parent_setParent, above]
  refine ⟨by simp [child], holds.moved distinct (by grind) (by grind) (by grind),
    ⟨by grind, by grind⟩, by simp [parent]⟩

theorem child_adopt (other : Side) (new cell : ι) :
    (links.adopt side place new).child other cell =
      if other = side ∧ cell = new then links.child side place else links.child other cell := rfl

theorem parent_adopt (new cell : ι) :
    (links.adopt side place new).parent cell =
      if cell = links.child side place then new else links.parent cell := rfl

theorem child_detach (other : Side) (last cell : ι) :
    (links.detach last).child other cell =
      if other = .right ∧ cell = links.parent last then links.child .left last
      else links.child other cell := rfl

theorem parent_detach (last cell : ι) :
    (links.detach last).parent cell =
      if cell = links.child .left last then links.parent last else links.parent cell := rfl

theorem rightmost_mem {places : List ι} {fuel : Nat} {last : ι}
    (closed : ∀ cell ∈ places, links.child .right cell = none ∨ links.child .right cell ∈ places)
    (member : place ∈ places) (found : links.rightmost none fuel place = some last) : last ∈ places := by
  induction fuel generalizing place with
  | zero => cases found
  | succ fuel ih =>
      simp only [Links.rightmost] at found
      split_ifs at found with ends
      · cases found
        exact member
      · exact ih ((closed place member).resolve_left ends) found

theorem Holds.rightmost {fuel : Nat} (holds : links.Holds none (.node left place right) place up)
    (enough : (PlaceTree.node left place right).places.length ≤ fuel) :
    links.rightmost none fuel place = (PlaceTree.node left place right).places.getLast? := by
  induction right generalizing left place up fuel with
  | nil =>
      obtain ⟨-, -, -, -, ends⟩ := holds
      have ends : links.child .right place = none := ends
      cases fuel with
      | zero => simp [PlaceTree.places] at enough
      | succ fuel => simp [Links.rightmost, ends, PlaceTree.places]
  | node before next behind _ ih =>
      obtain ⟨-, -, -, -, holds⟩ := holds
      have rest := holds
      obtain ⟨root, known, -⟩ := holds
      rw [root] at rest
      cases fuel with
      | zero => simp [PlaceTree.places] at enough
      | succ fuel =>
          have fewer : (PlaceTree.node before next behind).places.length ≤ fuel := by
            simp only [PlaceTree.places, List.length_append, List.length_cons] at enough ⊢
            omega
          simp only [Links.rightmost, root, if_neg known, ih rest fewer]
          simp [PlaceTree.places, List.getLast?_append, List.getLast?_cons]

theorem Holds.detach (holds : links.Holds none (.node left place right) place up)
    (distinct : (PlaceTree.node left place right).places.Nodup) (more : right ≠ .nil)
    (away : up ∉ (PlaceTree.node left place right).places) :
    ∃ last tree, tree.places ++ [last] = (PlaceTree.node left place right).places ∧ place ∈ tree.places ∧
      (links.detach last).Holds none tree place up ∧
      links.Confined none (links.detach last) (PlaceTree.node left place right).places place .right := by
  induction right generalizing left place up with
  | nil => exact absurd rfl more
  | node before next behind _ ih =>
      obtain ⟨-, used, above, lefts, holds⟩ := holds
      have rest := holds
      obtain ⟨root, known, under, befores, behinds⟩ := holds
      rw [root] at rest
      obtain ⟨first, second, beside, beyond, disjoint⟩ := PlaceTree.nodup_node.mp distinct
      have left_none := lefts.ne_none
      cases behind with
      | nil =>
          obtain ⟨firsts, -, besides, -⟩ := PlaceTree.nodup_node.mp second
          simp only [PlaceTree.places, List.mem_append, List.mem_cons, List.not_mem_nil, or_false, not_or]
            at beyond disjoint away
          have ends := befores.root_cases
          refine ⟨next, .node left place before, by simp [PlaceTree.places], by simp [PlaceTree.places], ⟨rfl, used,
            ?_, ?_, ?_⟩, ⟨fun cell some outside => ?_, fun other cell outside elsewhere => ?_⟩⟩
          · rw [parent_detach]
            grind
          · rw [child_detach, if_neg (by simp)]
            refine lefts.congr (fun side cell member => ?_) fun cell member => ?_
            · rw [child_detach]
              grind
            · rw [parent_detach]
              grind
          · rw [child_detach, if_pos ⟨rfl, under.symm⟩]
            refine befores.moved firsts (fun side cell member => ?_) (fun cell member inner => ?_) ?_
            · rw [child_detach]
              grind
            · rw [parent_detach, if_neg inner]
            · rw [parent_detach, if_pos rfl]
              exact fun _ => under
          · simp only [PlaceTree.places, List.mem_append, List.mem_cons] at outside
            rw [parent_detach]
            grind
          · rw [child_detach, under, if_neg elsewhere]
      | node third last fourth =>
          have below : place ∉ (PlaceTree.node before next (.node third last fourth)).places := beyond
          obtain ⟨last, tree, order, kept, holds, confined⟩ := ih rest second (by simp) below
          refine ⟨last, .node left place tree, ?_, by simp [PlaceTree.places], ⟨rfl, used, ?_, ?_, ?_⟩, ⟨?_, ?_⟩⟩
          · rw [PlaceTree.places, PlaceTree.places, ← order]
            simp
          · rw [confined.parent place used below, above]
          · rw [confined.child _ _ below (by grind [PlaceTree.places])]
            exact lefts.confined confined fun cell member =>
              ⟨disjoint cell member, fun same => disjoint cell member (by simp [same, PlaceTree.places])⟩
          · rw [confined.child _ _ below (by grind [PlaceTree.places]), root]
            exact holds
          · intro cell some outside
            simp only [PlaceTree.places, List.mem_append, List.mem_cons, not_or] at outside
            exact confined.parent cell some (by simp [PlaceTree.places, outside])
          · intro other cell outside elsewhere
            simp only [PlaceTree.places, List.mem_append, List.mem_cons, not_or] at outside
            exact confined.child other cell (by simp [PlaceTree.places, outside]) (by simp [outside])

structure Removed (links : Links ι) (none up : ι) (side : Side) (place : ι) (tree : PlaceTree ι)
    (after : Links ι) : Prop where
  edited : links.Edited none up side tree [] (tree.places.filter (· ≠ place)) after
  parent : after.parent place = none

theorem filter_absent {places : List ι} (absent : place ∉ places) :
    places.filter (· ≠ place) = places :=
  List.filter_eq_self.mpr fun _ member => decide_eq_true fun same => absent (same ▸ member)

theorem filter_node (distinct : (PlaceTree.node left place right).places.Nodup) :
    (PlaceTree.node left place right).places.filter (· ≠ place) = left.places ++ right.places := by
  obtain ⟨-, -, beside, beyond, -⟩ := PlaceTree.nodup_node.mp distinct
  rw [PlaceTree.places, List.filter_append, List.filter_cons_of_neg (by simp), filter_absent beside,
    filter_absent beyond]

theorem filter_left {here : ι} (distinct : (PlaceTree.node left here right).places.Nodup)
    (member : place ∈ left.places) : (PlaceTree.node left here right).places.filter (· ≠ place) =
      left.places.filter (· ≠ place) ++ here :: right.places := by
  obtain ⟨-, -, beside, -, disjoint⟩ := PlaceTree.nodup_node.mp distinct
  have other : here ≠ place := fun same => beside (same ▸ member)
  rw [PlaceTree.places, List.filter_append, List.filter_cons_of_pos (by simpa using other),
    filter_absent (disjoint place member)]

theorem filter_right {here : ι} (distinct : (PlaceTree.node left here right).places.Nodup)
    (member : place ∈ right.places) : (PlaceTree.node left here right).places.filter (· ≠ place) =
      left.places ++ here :: right.places.filter (· ≠ place) := by
  obtain ⟨-, -, -, beyond, disjoint⟩ := PlaceTree.nodup_node.mp distinct
  have other : here ≠ place := fun same => beyond (same ▸ member)
  have absent : place ∉ left.places := fun earlier => disjoint place earlier member
  rw [PlaceTree.places, List.filter_append, List.filter_cons_of_pos (by simpa using other),
    filter_absent absent]

structure Joined (links : Links ι) (none : ι) (left right : PlaceTree ι) (root : ι) (after : Links ι) :
    Prop where
  holds : ∃ tree : PlaceTree ι, tree.places = left.places ++ right.places ∧ ∃ up, after.Holds none tree root up
  parent : ∀ cell, cell ≠ none → cell ∉ left.places ++ right.places →
    after.parent cell = links.parent cell
  child : ∀ side cell, cell ∉ left.places ++ right.places → after.child side cell = links.child side cell

theorem Holds.joined_neighbour {previous : ι}
    (holds : links.Holds none (.node (.node left previous .nil) place right) place up)
    (distinct : (PlaceTree.node (.node left previous .nil) place right).places.Nodup) :
    Joined links none (.node left previous .nil) right previous (links.adopt .right place previous) := by
  obtain ⟨-, used, above, before, behind⟩ := holds
  obtain ⟨first, second, beside, beyond, disjoint⟩ := PlaceTree.nodup_node.mp distinct
  obtain ⟨root, known, under, befores, -⟩ := before
  obtain ⟨firsts, -, besides, -⟩ := PlaceTree.nodup_node.mp first
  simp only [PlaceTree.places, List.mem_append, List.mem_cons, List.not_mem_nil, or_false, not_or]
    at beside disjoint
  have rights := behind.root_cases
  refine ⟨⟨.node left previous right, by simp [PlaceTree.places], _, rfl, known, rfl, ?_, ?_⟩,
    fun cell some outside => ?_, fun other cell outside => ?_⟩
  · rw [child_adopt, if_neg (by simp)]
    refine befores.congr (fun side cell member => ?_) fun cell member => ?_
    · rw [child_adopt]
      grind
    · have some := befores.ne_none
      rw [parent_adopt]
      grind
  · rw [child_adopt, if_pos ⟨rfl, rfl⟩]
    refine behind.moved second (fun side cell member => ?_) (fun cell member inner => ?_) ?_
    · rw [child_adopt]
      grind
    · rw [parent_adopt, if_neg inner]
    · rw [parent_adopt, if_pos rfl]
      exact fun _ => rfl
  · simp only [PlaceTree.places, List.mem_append, List.mem_cons, List.not_mem_nil, or_false, not_or] at outside
    rw [parent_adopt]
    grind
  · simp only [PlaceTree.places, List.mem_append, List.mem_cons, List.not_mem_nil, or_false, not_or] at outside
    rw [child_adopt]
    grind

theorem Holds.joined_last {shorter : PlaceTree ι} {previous last : ι}
    (holds : links.Holds none (.node left place right) place up)
    (distinct : (PlaceTree.node left place right).places.Nodup) (root : links.child .left place = previous)
    (order : shorter.places ++ [last] = left.places) (kept : previous ∈ shorter.places)
    (detached : (links.detach last).Holds none shorter previous place)
    (confined : links.Confined none (links.detach last) left.places previous .right) :
    Joined links none left right last
      (((links.detach last).adopt .left place last).adopt .right place last) := by
  have inner := holds.child_ne distinct .right
  obtain ⟨-, used, above, before, behind⟩ := holds
  obtain ⟨first, second, beside, beyond, disjoint⟩ := PlaceTree.nodup_node.mp distinct
  have left_none := before.ne_none
  have rights := behind.root_cases
  have right_none := behind.ne_none
  rw [← order] at first left_none beside disjoint
  simp only [List.mem_append, List.mem_cons, List.not_mem_nil, or_false, not_or, List.nodup_append,
    List.nodup_singleton] at first left_none beside disjoint
  have same (other : Side) : (links.detach last).child other place = links.child other place :=
    confined.child other place (by grind) (by grind)
  have child (other : Side) (cell : ι) :
      (((links.detach last).adopt .left place last).adopt .right place last).child other cell =
        if cell = last then links.child other place else (links.detach last).child other cell := by
    cases other <;> simp [child_adopt, same]
  have parent (cell : ι) :
      (((links.detach last).adopt .left place last).adopt .right place last).parent cell =
        if cell = links.child .right place ∨ cell = previous then last
        else (links.detach last).parent cell := by
    simp [child_adopt, parent_adopt, same, root]
    grind
  generalize ((links.detach last).adopt .left place last).adopt .right place last = middle at child parent
  refine ⟨⟨.node shorter last right, by simp [PlaceTree.places, ← order], _, rfl, Ne.symm left_none.2, rfl, ?_,
    ?_⟩, fun cell some outside => ?_, fun other cell outside => ?_⟩
  · rw [child, if_pos rfl, root]
    exact detached.moved first.1 (by grind) (by grind) (by grind)
  · rw [child, if_pos rfl]
    refine behind.moved second (fun side cell member => ?_) (fun cell member inner => ?_) ?_
    · rw [child, if_neg (by grind)]
      exact confined.child side cell (by grind) (by grind)
    · rw [parent, if_neg (by grind)]
      exact confined.parent cell (by grind) (by grind)
    · rw [parent, if_pos (Or.inl rfl)]
      exact fun _ => rfl
  · rw [← order] at outside
    rw [parent, if_neg (by grind)]
    exact confined.parent cell some (by grind)
  · rw [← order] at outside
    rw [child, if_neg (by grind)]
    exact confined.child other cell (by grind) (by grind)

theorem Holds.replacement {fuel : Nat} (holds : links.Holds none (.node left place right) place up)
    (distinct : (PlaceTree.node left place right).places.Nodup) (enough : left.places.length ≤ fuel) :
    ∃ root after, links.replacement none fuel place = some (root, after) ∧
      Joined links none left right root after := by
  have whole := holds
  obtain ⟨-, used, above, before, behind⟩ := holds
  by_cases last : links.child .right place = none
  · obtain ⟨rfl, -⟩ | member := behind.root_cases
    · refine ⟨_, _, by rw [Links.replacement, if_pos last], ?_⟩
      exact ⟨⟨left, by simp [PlaceTree.places], _, before⟩, fun _ _ _ => rfl, fun _ _ _ => rfl⟩
    · exact absurd member (last ▸ behind.ne_none)
  · cases left with
    | nil =>
        have leaf : links.child .left place = none := before
        refine ⟨_, _, by rw [Links.replacement, if_neg last, if_pos leaf], ?_⟩
        exact ⟨⟨right, by simp [PlaceTree.places], _, behind⟩, fun _ _ _ => rfl, fun _ _ _ => rfl⟩
    | node left previous inner =>
        have root := before.1
        have some : links.child .left place ≠ none := root ▸ before.2.1
        cases inner with
        | nil =>
            have ends : links.child .right previous = none := before.2.2.2.2
            refine ⟨_, _, by rw [Links.replacement, if_neg last, if_neg some, root, if_pos ends], ?_⟩
            exact whole.joined_neighbour distinct
        | node third next fourth =>
            have more : links.child .right previous ≠ none := by
              rw [before.2.2.2.2.1]
              exact before.2.2.2.2.2.1
            rw [root] at before
            obtain ⟨first, second, beside, -⟩ := PlaceTree.nodup_node.mp distinct
            obtain ⟨found, shorter, order, kept, detached, confined⟩ :=
              before.detach first (by simp) beside
            refine ⟨_, _, ?_, whole.joined_last distinct root order kept detached confined⟩
            rw [Links.replacement, if_neg last, if_neg some, root, if_neg more, before.rightmost enough,
              ← order]
            simp

theorem Joined.removed {middle : Links ι} (joined : Joined links none left right root middle)
    (distinct : (PlaceTree.node left place right).places.Nodup)
    (used : place ≠ none) (above : links.parent place = up) (hangs : links.child side up = place)
    (only : side = .left → links.child .right up ≠ place)
    (away : up ∉ (PlaceTree.node left place right).places) :
    Removed links none up side place (.node left place right) (middle.bypass none place root) := by
  obtain ⟨first, second, beside, beyond, disjoint⟩ := PlaceTree.nodup_node.mp distinct
  obtain ⟨⟨tree, order, other, holds⟩, parent, child⟩ := joined
  have fresh : place ∉ left.places ++ right.places := by simp [beside, beyond]
  simp only [PlaceTree.places, List.mem_append, List.mem_cons, not_or] at away
  have same (other : Side) : middle.child other up = links.child other up :=
    child other up (by simp [away])
  have kept : tree.places.Nodup := by
    rw [order]
    exact List.nodup_append.mpr ⟨first, second, fun cell member other among same =>
      disjoint cell member (same ▸ among)⟩
  obtain ⟨hung, moved, bypassed, gone⟩ := holds.bypass kept used
    ((parent place used fresh).trans above) ((same side).trans hangs)
    (fun left => by rw [same]; exact only left) (order ▸ fresh) (by simp [order, away])
  refine ⟨⟨⟨tree, by rw [filter_node distinct, order], by rw [hung]; exact moved⟩,
    ⟨fun cell some outside => ?_, fun other cell outside elsewhere => ?_⟩⟩, gone⟩
  · simp only [PlaceTree.places, List.nil_append, List.mem_append, List.mem_cons, not_or] at outside
    rw [bypassed.parent cell some (by simp [order, outside]), parent cell some (by simp [outside])]
  · simp only [PlaceTree.places, List.nil_append, List.mem_append, List.mem_cons, not_or] at outside
    rw [bypassed.child other cell (by simp [order, outside]) elsewhere,
      child other cell (by simp [outside])]

theorem Holds.remove {fuel : Nat} (holds : links.Holds none (.node left place right) place up)
    (distinct : (PlaceTree.node left place right).places.Nodup) (hangs : links.child side up = place)
    (only : side = .left → links.child .right up ≠ place)
    (away : up ∉ (PlaceTree.node left place right).places) (enough : left.places.length ≤ fuel) :
    ∃ after, links.remove none fuel place = some after ∧
      Removed links none up side place (.node left place right) after := by
  obtain ⟨root, middle, replaces, joined⟩ := holds.replacement distinct enough
  refine ⟨_, by rw [Links.remove, replaces]; rfl, ?_⟩
  exact joined.removed distinct holds.2.1 holds.2.2.1 hangs only away

theorem Holds.remove_mem {fuel : Nat} (holds : links.Holds none tree (links.child side up) up)
    (distinct : tree.places.Nodup) (only : side = .left → links.child .right up ∉ tree.places)
    (away : up ∉ tree.places) (member : place ∈ tree.places) (enough : tree.places.length ≤ fuel) :
    ∃ after, links.remove none fuel place = some after ∧ Removed links none up side place tree after := by
  induction tree generalizing side up with
  | nil => simp [PlaceTree.places] at member
  | node left here right ihl ihr =>
      have whole := holds
      obtain ⟨root, used, above, before, behind⟩ := holds
      obtain ⟨first, second, beside, beyond, disjoint⟩ := PlaceTree.nodup_node.mp distinct
      simp only [PlaceTree.places, List.length_append, List.length_cons] at enough
      rcases List.mem_append.mp member with earlier | later
      · have lower : links.child .right here ∉ left.places := by
          have := before.ne_none
          grind [behind.root_cases]
        obtain ⟨after, removes, ⟨edited, gone⟩⟩ :=
          ihl before first (fun _ => lower) beside earlier (by omega)
        refine ⟨after, removes, ?_, gone⟩
        rw [filter_left distinct earlier]
        exact edited.under_left whole distinct away (by simp)
      rcases List.mem_cons.mp later with rfl | later
      · rw [root] at whole
        refine whole.remove distinct root (fun left same => ?_) away (by omega)
        exact only left (by simp [same, PlaceTree.places])
      · obtain ⟨after, removes, ⟨edited, gone⟩⟩ := ihr behind second (by simp) beyond later (by omega)
        refine ⟨after, removes, ?_, gone⟩
        rw [filter_right distinct later]
        exact edited.under_right whole distinct away (by simp)

end Remove

end Links

end Linked
