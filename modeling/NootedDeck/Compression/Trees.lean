import NootedDeck.Compression.Lzss
import NootedDeck.Shared.LinkedTrees

set_option autoImplicit false

namespace NootedDeck.Compression

open Bytes Interleaving Program Linked

def EncodeState.links (sp : EncodeState) : Links Nat where
  child := fun side => match side with
    | .left => sp.lchild
    | .right => sp.rchild
  parent := sp.parent

def EncodeState.withLinks (sp : EncodeState) (links : Links Nat) : EncodeState :=
  { sp with lchild := links.child .left, rchild := links.child .right, parent := links.parent }

section Cells

variable (sp : EncodeState) (links other : Links Nat)

@[simp] theorem links_withLinks : (sp.withLinks links).links = links := by
  obtain ⟨child, parent⟩ := links
  simp only [EncodeState.links, EncodeState.withLinks, Links.mk.injEq, and_true]
  funext side
  cases side <;> rfl

@[simp] theorem withLinks_withLinks : (sp.withLinks links).withLinks other = sp.withLinks other := rfl

@[simp] theorem withLinks_textBuf : (sp.withLinks links).textBuf = sp.textBuf := rfl

@[simp] theorem withLinks_matchLength : (sp.withLinks links).matchLength = sp.matchLength := rfl

@[simp] theorem withLinks_matchPosition : (sp.withLinks links).matchPosition = sp.matchPosition := rfl

@[simp] theorem withLinks_links : sp.withLinks sp.links = sp := rfl

variable {index : Nat} (value : Nat)

theorem run_lchildAt (inside : index < rbsize + 1) :
    (lchildAt index).run sp = some (sp.links.child .left index, sp) := by
  simp only [lchildAt, cell, run_bind, run_get, Option.bind_some, if_pos inside]
  rfl

theorem run_rchildAt (inside : index < rbsize + 257) :
    (rchildAt index).run sp = some (sp.links.child .right index, sp) := by
  simp only [rchildAt, cell, run_bind, run_get, Option.bind_some, if_pos inside]
  rfl

theorem run_parentAt (inside : index < rbsize + 1) :
    (parentAt index).run sp = some (sp.links.parent index, sp) := by
  simp only [parentAt, cell, run_bind, run_get, Option.bind_some, if_pos inside]
  rfl

theorem run_textAt (inside : index < rbsize + uplim - 1) :
    (textAt index).run sp = some (sp.textBuf index, sp) := by
  simp only [textAt, cell, run_bind, run_get, Option.bind_some, if_pos inside]
  rfl

theorem run_setLchild (inside : index < rbsize + 1) :
    (setLchild index value).run sp = some ((), sp.withLinks (sp.links.setChild .left index value)) := by
  rw [setLchild, setCell, if_pos inside, run_modify]
  congr 2
  simp only [EncodeState.withLinks, EncodeState.links, Links.setChild, EncodeState.mk.injEq, and_true]
  constructor <;> funext cell <;> simp [Function.update_apply]

theorem run_setRchild (inside : index < rbsize + 257) :
    (setRchild index value).run sp = some ((), sp.withLinks (sp.links.setChild .right index value)) := by
  rw [setRchild, setCell, if_pos inside, run_modify]
  congr 2
  simp only [EncodeState.withLinks, EncodeState.links, Links.setChild, EncodeState.mk.injEq, and_true]
  constructor <;> funext cell <;> simp [Function.update_apply]

theorem run_setParent (inside : index < rbsize + 1) :
    (setParent index value).run sp = some ((), sp.withLinks (sp.links.setParent index value)) := by
  rw [setParent, setCell, if_pos inside, run_modify]
  congr 2
  simp only [EncodeState.withLinks, EncodeState.links, Links.setParent, EncodeState.mk.injEq, and_true,
    true_and]
  funext cell
  simp [Function.update_apply]

end Cells

structure Seated (links : Links Nat) (p : Nat) : Prop where
  inside : p < rbsize
  child : ∀ side, links.child side p ≤ rbsize ∧ links.child side p ≠ p
  parent : links.parent p < rbsize + 257
  below : links.child .right (links.parent p) ≠ p → links.parent p < rbsize + 1

section Runs

variable {sp : EncodeState} {r p q : Nat}

theorem unlink_run (seated : Seated sp.links p) : (unlink p q).run sp = some ((),
    sp.withLinks ((sp.links.setChild (sp.links.below p) (sp.links.parent p) q).setParent p nil)) := by
  have own : p < rbsize + 1 := Nat.lt_succ_of_lt seated.inside
  simp only [unlink, run_bind, run_parentAt sp own, run_rchildAt sp seated.parent, Option.bind_some]
  by_cases right : sp.links.child .right (sp.links.parent p) = p
  · simp only [if_pos right, run_bind, run_setRchild sp _ seated.parent, Option.bind_some,
      run_setParent _ _ own, links_withLinks, withLinks_withLinks, Links.below]
  · simp only [if_neg right, run_bind, run_setLchild sp _ (seated.below right), Option.bind_some,
      run_setParent _ _ own, links_withLinks, withLinks_withLinks, Links.below]

theorem replaceNode_run (sp : EncodeState) (seated : Seated sp.links p) (fresh : r < rbsize) (different : p ≠ r)
    (apart : sp.links.parent p ≠ r) :
    (replaceNode r p).run sp = some ((), sp.withLinks (sp.links.supplant nil p r)) := by
  have own : p < rbsize + 1 := Nat.lt_succ_of_lt seated.inside
  have new : r < rbsize + 1 := Nat.lt_succ_of_lt fresh
  have wide : r < rbsize + 257 := Nat.lt_of_lt_of_le new (by decide)
  have wider : p < rbsize + 257 := Nat.lt_of_lt_of_le own (by decide)
  let adopting := ((sp.links.setParent r (sp.links.parent p)).setChild .left r
    (sp.links.child .left p)).setChild .right r (sp.links.child .right p)
  let adopted := (adopting.setParent (adopting.child .left p) r).setParent (adopting.child .right p) r
  have child (side : Side) : adopting.child side p = sp.links.child side p := by
    simp [adopting, Links.child_setChild, different]
  have within (side : Side) : adopting.child side p < rbsize + 1 := by
    rw [child]
    exact Nat.lt_succ_of_le (seated.child side).1
  have parent : adopted.parent p = sp.links.parent p := by
    simp [adopted, adopting, Links.parent_setParent, child, different, (seated.child _).2.symm]
  have above : adopted.child .right (sp.links.parent p) = sp.links.child .right (sp.links.parent p) := by
    simp [adopted, adopting, Links.child_setChild, apart]
  have again : Seated adopted p := by
    refine ⟨seated.inside, fun side => ?_, by rw [parent]; exact seated.parent, ?_⟩
    · change adopting.child side p ≤ rbsize ∧ adopting.child side p ≠ p
      rw [child]
      exact seated.child side
    · rw [parent, above]
      exact seated.below
  have reaches : (replaceNode r p).run sp = (unlink p r).run (sp.withLinks adopted) := by
    simp only [replaceNode, run_bind, run_parentAt _ own, run_setParent _ _ new, run_lchildAt _ own,
      run_rchildAt _ wider, run_setLchild _ _ new, run_setRchild _ _ wide, Option.bind_some,
      links_withLinks, withLinks_withLinks]
    change Option.bind ((setParent (adopting.child .left p) r).run (sp.withLinks adopting)) _ = _
    simp only [run_setParent _ _ (within _), Option.bind_some, links_withLinks, withLinks_withLinks,
      Links.child_setParent]
    rfl
  rw [reaches, unlink_run (by simpa using again)]
  simp only [links_withLinks, withLinks_withLinks]
  rfl

theorem takeRight_run (inside : p < rbsize) (new : q < rbsize) (different : p ≠ q)
    (child : sp.links.child .right p ≤ rbsize) :
    (takeRight q p).run sp = some ((), sp.withLinks (sp.links.adopt .right p q)) := by
  have wide : p < rbsize + 257 := Nat.lt_of_lt_of_le inside (by decide)
  have room : q < rbsize + 257 := Nat.lt_of_lt_of_le new (by decide)
  have same : (sp.links.setChild .right q (sp.links.child .right p)).child .right p =
      sp.links.child .right p := by simp [Links.child_setChild, different]
  simp only [takeRight, run_bind, run_rchildAt _ wide, Option.bind_some, run_setRchild _ _ room,
    links_withLinks, same, run_setParent _ _ (Nat.lt_succ_of_le child), withLinks_withLinks]
  rfl

theorem takeLeft_run (inside : p < rbsize) (new : q < rbsize) (different : p ≠ q)
    (child : sp.links.child .left p ≤ rbsize) :
    (takeLeft q p).run sp = some ((), sp.withLinks (sp.links.adopt .left p q)) := by
  have own : p < rbsize + 1 := Nat.lt_succ_of_lt inside
  have room : q < rbsize + 1 := Nat.lt_succ_of_lt new
  have same : (sp.links.setChild .left q (sp.links.child .left p)).child .left p =
      sp.links.child .left p := by simp [Links.child_setChild, different]
  simp only [takeLeft, run_bind, run_lchildAt _ own, Option.bind_some, run_setLchild _ _ room,
    links_withLinks, same, run_setParent _ _ (Nat.lt_succ_of_le child), withLinks_withLinks]
  rfl

theorem detachLast_run (inside : q < rbsize) (above : sp.links.parent q < rbsize)
    (child : sp.links.child .left q ≤ rbsize) :
    (detachLast q).run sp = some ((), sp.withLinks (sp.links.detach q)) := by
  have own : q < rbsize + 1 := Nat.lt_succ_of_lt inside
  have room : sp.links.parent q < rbsize + 257 := Nat.lt_of_lt_of_le above (by decide)
  have same : (sp.links.setChild .right (sp.links.parent q) (sp.links.child .left q)).child .left q =
      sp.links.child .left q := by simp [Links.child_setChild]
  simp only [detachLast, run_bind, run_lchildAt _ own, run_parentAt _ own, Option.bind_some,
    run_setRchild _ _ room, links_withLinks, same, run_setParent _ _ (Nat.lt_succ_of_le child),
    withLinks_withLinks]
  rfl

theorem lastOnRight_run {places : List Nat} {fuel : Nat} (sp : EncodeState)
    (small : ∀ cell ∈ places, cell < rbsize)
    (closed : ∀ cell ∈ places, sp.links.child .right cell = nil ∨ sp.links.child .right cell ∈ places)
    (member : q ∈ places) :
    (lastOnRight fuel q).run sp = (sp.links.rightmost nil fuel q).map fun last => (last, sp) := by
  induction fuel generalizing q with
  | zero => rfl
  | succ fuel ih =>
      have inside : q < rbsize + 257 := Nat.lt_of_lt_of_le (small q member) (by decide)
      simp only [lastOnRight, run_bind, run_rchildAt sp inside, Option.bind_some, Links.rightmost]
      by_cases last : sp.links.child .right q = nil
      · simp only [if_pos last]
        rfl
      · rw [if_neg last, if_neg last]
        exact ih ((closed q member).resolve_left last)

theorem replacement_run {left right : PlaceTree Nat} {up : Nat}
    (holds : sp.links.Holds nil (.node left p right) p up)
    (distinct : (PlaceTree.node left p right).places.Nodup)
    (small : ∀ cell ∈ (PlaceTree.node left p right).places, cell < rbsize) :
    (replacement p).run sp = (sp.links.replacement nil (rbsize + 1) p).map fun replaced =>
      (replaced.1, sp.withLinks replaced.2) := by
  have small' {cell : Nat} (member : cell ∈ left.places) : cell < rbsize :=
    small cell (by simp [PlaceTree.places, member])
  have self : p ∈ (PlaceTree.node left p right).places := by simp [PlaceTree.places]
  have own : p < rbsize + 1 := Nat.lt_succ_of_lt (small p self)
  have wide : p < rbsize + 257 := Nat.lt_of_lt_of_le own (by decide)
  have children (side : Side) : sp.links.child side p ≤ rbsize := by
    rcases holds.child_mem self side with nothing | member
    · exact Nat.le_of_eq nothing
    · exact Nat.le_of_lt (small _ member)
  obtain ⟨-, -, -, before, behind⟩ := holds
  obtain ⟨first, -, beside, -⟩ := PlaceTree.nodup_node.mp distinct
  simp only [replacement, run_bind, run_rchildAt sp wide, Option.bind_some, Links.replacement]
  by_cases last : sp.links.child .right p = nil
  · simp only [if_pos last, run_lchildAt sp own]
    rfl
  by_cases leaf : sp.links.child .left p = nil
  · simp only [if_neg last, if_pos leaf, run_bind, run_lchildAt sp own, Option.bind_some,
      run_rchildAt sp wide]
    rfl
  have root := before.root_cases.resolve_left fun nothing => leaf nothing.2
  have other {cell : Nat} (member : cell ∈ left.places) : p ≠ cell := fun same => beside (same ▸ member)
  simp only [if_neg last, if_neg leaf, run_bind, run_lchildAt sp own, Option.bind_some,
    run_rchildAt sp (Nat.lt_of_lt_of_le (small' root) (by decide : rbsize ≤ rbsize + 257))]
  by_cases near : sp.links.child .right (sp.links.child .left p) = nil
  · simp only [if_pos near, run_bind, takeRight_run (small p self) (small' root)
      (other root) (children _), Option.bind_some, run_pure, Option.map_some]
  · simp only [if_neg near, run_bind, lastOnRight_run sp (fun _ => small')
      (fun _ member => before.child_mem member _) root]
    cases found : sp.links.rightmost nil (rbsize + 1) (sp.links.child .left p) with
    | none => rfl
    | some q =>
        have member := Links.rightmost_mem (fun _ member => before.child_mem member _) root found
        have above : sp.links.parent q < rbsize := by
          obtain ⟨_, _, part⟩ := before.part first beside member
          rcases part.hangs with ⟨same, -⟩ | among
          · rw [same]
            exact small p self
          · exact small' among
        have lower : sp.links.child .left q ≤ rbsize := by
          rcases before.child_mem member .left with nothing | among
          · exact Nat.le_of_eq nothing
          · exact Nat.le_of_lt (small' among)
        have left : (sp.links.detach q).child .left p ≤ rbsize := by
          rw [Links.child_detach, if_neg (by simp)]
          exact children .left
        have right : ((sp.links.detach q).adopt .left p q).child .right p ≤ rbsize := by
          rw [Links.child_adopt, if_neg (by simp), Links.child_detach]
          split_ifs
          · exact lower
          · exact children .right
        simp only [Option.map_some, Option.bind_some, detachLast_run (small' member) above lower,
          takeLeft_run (small p self) (small' member) (other member),
          takeRight_run (small p self) (small' member) (other member), links_withLinks,
          withLinks_withLinks, left, right, run_pure]

theorem bypass_run (seated : Seated sp.links p) (within : q ≤ rbsize) (different : p ≠ q) :
    (do setParent q (← parentAt p)
        unlink p q : Program EncodeState Unit).run sp =
      some ((), sp.withLinks (sp.links.bypass nil p q)) := by
  have own : p < rbsize + 1 := Nat.lt_succ_of_lt seated.inside
  have parent : (sp.links.setParent q (sp.links.parent p)).parent p = sp.links.parent p := by
    simp [Links.parent_setParent, different]
  have again : Seated (sp.withLinks (sp.links.setParent q (sp.links.parent p))).links p := by
    rw [links_withLinks]
    refine ⟨seated.inside, seated.child, by rw [parent]; exact seated.parent, ?_⟩
    rw [parent]
    exact seated.below
  simp only [run_bind, run_parentAt sp own, Option.bind_some, run_setParent sp _ (Nat.lt_succ_of_le within),
    unlink_run again, links_withLinks, withLinks_withLinks]
  rfl

variable {tree left right : PlaceTree Nat} {up : Nat}

theorem Seated.of_part (part : sp.links.Part nil up .right tree p left right)
    (small : ∀ cell ∈ tree.places, cell < rbsize) (above : up < rbsize + 257) : Seated sp.links p := by
  have self : p ∈ (PlaceTree.node left p right).places := by simp [PlaceTree.places]
  refine ⟨small p (part.inside p self), fun side => ⟨?_, part.holds.child_ne part.distinct side⟩, ?_,
    fun elsewhere => ?_⟩
  · rcases part.holds.child_mem self side with nothing | member
    · exact Nat.le_of_eq nothing
    · exact Nat.le_of_lt (small _ (part.inside _ member))
  · rcases part.hangs with ⟨same, -⟩ | member
    · rwa [same]
    · exact Nat.lt_of_lt_of_le (small _ member) (by decide)
  · rcases part.hangs with ⟨same, hangs⟩ | member
    · exact absurd (same ▸ hangs) elsewhere
    · exact Nat.lt_succ_of_lt (small _ member)

theorem length_le_of_small {places : List Nat} (distinct : places.Nodup)
    (small : ∀ cell ∈ places, cell < rbsize) : places.length ≤ rbsize := by
  have subset : places ⊆ List.range rbsize := fun cell member => List.mem_range.mpr (small cell member)
  simpa using (List.subperm_of_subset distinct subset).length_le

theorem deleteNode_part (part : sp.links.Part nil up .right tree p left right)
    (small : ∀ cell ∈ tree.places, cell < rbsize) (above : rbsize < up) (room : up < rbsize + 257) :
    (deleteNode p).run sp = (sp.links.remove nil (rbsize + 1) p).map fun links =>
      ((), sp.withLinks links) := by
  have self : p ∈ (PlaceTree.node left p right).places := by simp [PlaceTree.places]
  have seated := Seated.of_part part small room
  have own : p < rbsize + 1 := Nat.lt_succ_of_lt seated.inside
  have placed : sp.links.parent p ≠ nil := by
    rcases part.hangs with ⟨same, -⟩ | member
    · rw [same]
      exact Nat.ne_of_gt above
    · exact Nat.ne_of_lt (small _ member)
  have inside : ∀ cell ∈ (PlaceTree.node left p right).places, cell < rbsize := fun cell member =>
    small cell (part.inside cell member)
  have enough : left.places.length ≤ rbsize + 1 :=
    Nat.le_succ_of_le (length_le_of_small (PlaceTree.nodup_node.mp part.distinct).1 fun cell member =>
      inside cell (by simp [PlaceTree.places, member]))
  obtain ⟨q, middle, replaces, joined⟩ := part.holds.replacement part.distinct enough
  have away := part.away
  obtain ⟨-, -, beside, beyond, -⟩ := PlaceTree.nodup_node.mp part.distinct
  simp only [PlaceTree.places, List.mem_append, List.mem_cons, not_or] at away
  have fresh : p ∉ left.places ++ right.places := by simp [beside, beyond]
  have parent := joined.parent p (Nat.ne_of_lt seated.inside) fresh
  have again : Seated (sp.withLinks middle).links p := by
    rw [links_withLinks]
    refine ⟨seated.inside, fun side => ?_, by rw [parent]; exact seated.parent, ?_⟩
    · rw [joined.child side p fresh]
      exact seated.child side
    · rw [parent, joined.child .right _ (by simp [away])]
      exact seated.below
  have root : q = nil ∨ q ∈ left.places ++ right.places := by
    obtain ⟨joint, order, _, holds⟩ := joined.holds
    rw [← order]
    exact holds.root_cases.imp And.right id
  have within : q ≤ rbsize := by
    rcases root with nothing | member
    · exact Nat.le_of_eq nothing
    · refine Nat.le_of_lt (small q (part.inside q ?_))
      rcases List.mem_append.mp member with earlier | later <;> simp [PlaceTree.places, *]
  have different : p ≠ q := by
    rcases root with nothing | member
    · rw [nothing]
      exact Nat.ne_of_lt seated.inside
    · exact fun same => fresh (same ▸ member)
  have bypasses := bypass_run again within different
  simp only [links_withLinks, withLinks_withLinks] at bypasses
  simp only [deleteNode, run_bind, run_parentAt sp own, Option.bind_some, if_neg placed,
    replacement_run part.holds part.distinct inside, replaces, Option.map_some, Links.remove]
  simpa only [run_bind] using bypasses

end Runs

section Insertion

variable {sp : EncodeState} {r p : Nat} {places : List Nat}

theorem compareStrings_run (sp : EncodeState) (count i : Nat) (cmp : Int)
    (inside : r + i + count < rbsize + uplim) (within : p + i + count < rbsize + uplim) :
    ∃ j cmp', (compareStrings r p count i cmp).run sp = some ((j, cmp'), sp) ∧ i ≤ j ∧ j ≤ i + count ∧
      ∀ k, i ≤ k → k < j → sp.textBuf (p + k) = sp.textBuf (r + k) := by
  induction count generalizing i cmp with
  | zero => exact ⟨i, cmp, rfl, Nat.le_refl _, Nat.le_refl _, by omega⟩
  | succ count ih =>
      simp only [compareStrings, run_bind, run_textAt sp (show r + i < rbsize + uplim - 1 by omega),
        run_textAt sp (show p + i < rbsize + uplim - 1 by omega), Option.bind_some]
      by_cases differ : ((sp.textBuf (r + i)).toNat : Int) - (sp.textBuf (p + i)).toNat ≠ 0
      · rw [if_pos differ]
        exact ⟨i, _, rfl, Nat.le_refl _, Nat.le_add_right _ _, by omega⟩
      · rw [if_neg differ]
        obtain ⟨j, cmp', runs, least, most, same⟩ := ih (i + 1) _ (by omega) (by omega)
        refine ⟨j, cmp', runs, by omega, by omega, fun k from_ less => ?_⟩
        by_cases first : k = i
        · subst first
          exact BitVec.eq_of_toNat_eq (by omega)
        · exact same k (by omega) less

structure Matches (sp : EncodeState) (r : Nat) (places : List Nat) : Prop where
  short : sp.matchLength ≤ uplim
  found : 0 < sp.matchLength → sp.matchPosition ∈ places ∧
    ∀ k < sp.matchLength, sp.textBuf (sp.matchPosition + k) = sp.textBuf (r + k)

def sideOf (cmp : Int) : Side := if 0 ≤ cmp then .right else .left

def descend (r fuel p : Nat) (cmp : Int) : Program EncodeState Unit := do
  match ← insertLoop r fuel p cmp with
  | none => pure ()
  | some q => replaceNode r q

structure Below (sp : EncodeState) (r p : Nat) (side : Side) (tree : PlaceTree Nat) : Prop where
  holds : sp.links.Holds nil tree (sp.links.child side p) p
  distinct : tree.places.Nodup
  away : p ∉ tree.places
  only : side = .left → sp.links.child .right p ∉ tree.places ∧ p < rbsize + 1
  room : p < rbsize + 257
  fresh : r ∉ tree.places
  other : p ≠ r
  empty : ∀ side, sp.links.child side r = nil
  begins : ∀ cell ∈ tree.places, cell < rbsize ∧ sp.textBuf cell = sp.textBuf r

theorem descend_leaf {fuel : Nat} {cmp : Int} (below : Below sp r p (sideOf cmp) .nil)
    (inside : r < rbsize) :
    (descend r (fuel + 1) p cmp).run sp = some ((), sp.withLinks (sp.links.hang (sideOf cmp) p r)) := by
  have new : r < rbsize + 1 := Nat.lt_succ_of_lt inside
  have ends := below.holds
  by_cases right : 0 ≤ cmp
  · have side : sideOf cmp = .right := if_pos right
    rw [side] at ends
    have ends : sp.links.child .right p = nil := ends
    simp only [descend, insertLoop, run_bind, if_pos right, run_rchildAt sp below.room, Option.bind_some,
      ends, if_true, run_setRchild sp _ below.room, run_setParent _ _ new, run_pure, links_withLinks,
      withLinks_withLinks, side]
    rfl
  · have side : sideOf cmp = .left := if_neg right
    have narrow := (below.only side).2
    rw [side] at ends
    have ends : sp.links.child .left p = nil := ends
    simp only [descend, insertLoop, run_bind, if_neg right, run_lchildAt sp narrow, Option.bind_some,
      ends, if_true, run_setLchild sp _ narrow, run_setParent _ _ new, run_pure, links_withLinks,
      withLinks_withLinks, side]
    rfl

theorem descend_node {fuel here : Nat} {cmp : Int} {left right : PlaceTree Nat}
    (below : Below sp r p (sideOf cmp) (.node left here right)) (inside : r < rbsize) :
    ∃ j cmp', 1 ≤ j ∧ j ≤ uplim ∧ (∀ k < j, sp.textBuf (here + k) = sp.textBuf (r + k)) ∧
      (descend r (fuel + 1) p cmp).run sp =
        if sp.matchLength < j then
          if uplim ≤ j then (replaceNode r here).run { sp with matchPosition := here, matchLength := j }
          else (descend r fuel here cmp').run { sp with matchPosition := here, matchLength := j }
        else (descend r fuel here cmp').run sp := by
  obtain ⟨small, begins⟩ := below.begins here (by simp [PlaceTree.places])
  have hangs := below.holds.1
  have some : here ≠ nil := below.holds.2.1
  obtain ⟨j, cmp', compares, least, most, same⟩ := compareStrings_run sp (uplim - 1) 1 cmp
    (show r + 1 + (uplim - 1) < rbsize + uplim by simp only [uplim]; omega)
    (show here + 1 + (uplim - 1) < rbsize + uplim by simp only [uplim]; omega)
  refine ⟨j, cmp', least, most, fun k less => ?_, ?_⟩
  · by_cases first : k = 0
    · subst first
      exact begins
    · exact same k (by omega) less
  · by_cases right : 0 ≤ cmp
    · rw [show sideOf cmp = .right from if_pos right] at hangs
      simp only [descend, insertLoop, if_pos right, run_bind, run_rchildAt sp below.room, hangs,
        Option.bind_some, if_neg some, compares, run_get]
      split_ifs <;> rfl
    · have side : sideOf cmp = .left := if_neg right
      rw [side] at hangs
      simp only [descend, insertLoop, if_neg right, run_bind, run_lchildAt sp (below.only side).2, hangs,
        Option.bind_some, if_neg some, compares, run_get]
      split_ifs <;> rfl

theorem Below.left {side : Side} {here : Nat} {left right : PlaceTree Nat}
    (below : Below sp r p side (.node left here right)) : Below sp r here .left left := by
  obtain ⟨-, -, -, before, behind⟩ := below.holds
  obtain ⟨first, -, beside, -, disjoint⟩ := PlaceTree.nodup_node.mp below.distinct
  have begins := below.begins
  have fresh := below.fresh
  simp only [PlaceTree.places, List.mem_append, List.mem_cons, not_or] at begins fresh
  refine ⟨before, first, beside, fun _ => ⟨?_, Nat.lt_succ_of_lt (begins here (by simp)).1⟩,
    Nat.lt_of_lt_of_le (begins here (by simp)).1 (by decide), fresh.1, Ne.symm fresh.2.1, below.empty,
    fun cell member => begins cell (Or.inl member)⟩
  have := before.ne_none
  grind [behind.root_cases]

theorem Below.right {side : Side} {here : Nat} {left right : PlaceTree Nat}
    (below : Below sp r p side (.node left here right)) : Below sp r here .right right := by
  obtain ⟨-, -, -, -, behind⟩ := below.holds
  obtain ⟨-, second, -, beyond, -⟩ := PlaceTree.nodup_node.mp below.distinct
  have begins := below.begins
  have fresh := below.fresh
  simp only [PlaceTree.places, List.mem_append, List.mem_cons, not_or] at begins fresh
  exact ⟨behind, second, beyond, by simp, Nat.lt_of_lt_of_le (begins here (by simp)).1 (by decide),
    fresh.2.2, Ne.symm fresh.2.1, below.empty, fun cell member => begins cell (Or.inr (Or.inr member))⟩

theorem Below.same {side : Side} {tree : PlaceTree Nat} {next : EncodeState} (below : Below sp r p side tree)
    (links : next.links = sp.links) (text : next.textBuf = sp.textBuf) : Below next r p side tree :=
  ⟨links ▸ below.holds, below.distinct, below.away, links ▸ below.only, below.room, below.fresh,
    below.other, links ▸ below.empty, text ▸ below.begins⟩

theorem Below.seated {side : Side} {here : Nat} {left right : PlaceTree Nat}
    (below : Below sp r p side (.node left here right)) : Seated sp.links here := by
  have holds := below.holds
  rw [holds.1] at holds
  have self : here ∈ (PlaceTree.node left here right).places := by simp [PlaceTree.places]
  have above : sp.links.parent here = p := holds.2.2.1
  refine ⟨(below.begins here self).1, fun other => ⟨?_, holds.child_ne below.distinct other⟩, ?_, ?_⟩
  · rcases holds.child_mem self other with nothing | member
    · exact Nat.le_of_eq nothing
    · exact Nat.le_of_lt (below.begins _ member).1
  · rw [above]
    exact below.room
  · rw [above]
    intro elsewhere
    cases side with
    | left => exact (below.only rfl).2
    | right => exact absurd below.holds.1 elsewhere

theorem descend_run {tree : PlaceTree Nat} {fuel : Nat} {cmp : Int} (below : Below sp r p (sideOf cmp) tree)
    (inside : r < rbsize) (enough : tree.places.length < fuel)
    (among : ∀ cell ∈ tree.places, cell ∈ places) (known : Matches sp r places) :
    ∃ inserted after, (descend r fuel p cmp).run sp = some ((), after) ∧ after.textBuf = sp.textBuf ∧
      Matches after r places ∧ sp.links.Inserted nil p (sideOf cmp) tree r inserted after.links := by
  have used : r ≠ nil := Nat.ne_of_lt inside
  induction tree generalizing sp p cmp fuel with
  | nil =>
      obtain ⟨fuel, rfl⟩ := Nat.exists_eq_add_one_of_ne_zero (Nat.ne_of_gt enough)
      refine ⟨[r], _, descend_leaf below inside, rfl, ⟨known.short, known.found⟩, ?_⟩
      rw [links_withLinks]
      exact Links.hang_inserted below.empty used below.other
  | node left here right ihl ihr =>
      obtain ⟨fuel, rfl⟩ := Nat.exists_eq_add_one_of_ne_zero (Nat.ne_of_gt (Nat.lt_of_le_of_lt
        (Nat.zero_le _) enough))
      simp only [PlaceTree.places, List.length_append, List.length_cons, List.mem_append, List.mem_cons]
        at enough among
      obtain ⟨j, cmp', least, most, same, runs⟩ := descend_node below inside
      -- what the rest of the way does from a state with the same links
      have further (next : EncodeState) (links : next.links = sp.links) (text : next.textBuf = sp.textBuf)
          (matched : Matches next r places) :
          ∃ inserted after, (descend r fuel here cmp').run next = some ((), after) ∧
            after.textBuf = sp.textBuf ∧ Matches after r places ∧
            sp.links.Inserted nil p (sideOf cmp) (.node left here right) r inserted after.links := by
        by_cases side : sideOf cmp' = .right
        · have lower := (side ▸ below.right).same links text
          obtain ⟨inserted, after, ran, unchanged, better, grown⟩ := ihr lower (show _ < fuel by omega)
            (fun cell member => among cell (Or.inr (Or.inr member))) matched
          rw [links, side] at grown
          exact ⟨_, after, ran, unchanged.trans text, better, grown.under_right below.holds below.distinct
            below.away below.other below.fresh⟩
        · have side : sideOf cmp' = .left := by
            cases found : sideOf cmp' with
            | left => rfl
            | right => exact absurd found side
          have lower := (side ▸ below.left).same links text
          obtain ⟨inserted, after, ran, unchanged, better, grown⟩ := ihl lower (show _ < fuel by omega)
            (fun cell member => among cell (Or.inl member)) matched
          rw [links, side] at grown
          exact ⟨_, after, ran, unchanged.trans text, better, grown.under_left below.holds below.distinct
            below.away below.other below.fresh⟩
      rw [runs]
      split_ifs with longer full
      · have hangs := below.holds.1
        have above : sp.links.parent here = p := below.holds.2.2.1
        have holds := below.holds
        rw [hangs] at holds
        have replaces := replaceNode_run { sp with matchPosition := here, matchLength := j }
          below.seated inside below.right.other fun same => below.other (above.symm.trans same)
        refine ⟨left.places ++ r :: right.places, _, replaces, rfl, ⟨most, fun _ => ⟨among here (by simp), same⟩⟩, ?_⟩
        rw [links_withLinks]
        refine holds.supplant_inserted below.distinct hangs (fun left same => ?_) below.fresh used below.away
          below.other
        exact (below.only left).1 (by simp [same, PlaceTree.places])
      · exact further _ rfl rfl ⟨most, fun _ => ⟨among here (by simp), same⟩⟩
      · exact further _ rfl rfl known

end Insertion

def root (c : Byte) : Nat := rbsize + 1 + c.toNat

structure Forest (sp : EncodeState) (trees : Byte → List Nat) : Prop where
  held : ∀ c, ∃ tree : PlaceTree Nat, tree.places = trees c ∧
    sp.links.Holds nil tree (sp.links.child .right (root c)) (root c)
  distinct : ∀ c, (trees c).Nodup
  first : ∀ c, ∀ p ∈ trees c, p < rbsize ∧ sp.textBuf p = c
  out : ∀ p < rbsize, (∀ c, p ∉ trees c) → sp.parent p = nil

section Forest

variable {sp : EncodeState} {trees : Byte → List Nat} {c : Byte} {p : Nat}

theorem root_bounds (c : Byte) : rbsize < root c ∧ root c < rbsize + 257 := by
  have := c.isLt
  simp only [root]
  omega

theorem root_injective {c d : Byte} (same : root c = root d) : c = d := by
  simp only [root] at same
  exact BitVec.eq_of_toNat_eq (by omega)

theorem Forest.root_away (forest : Forest sp trees) (c d : Byte) : root c ∉ trees d := fun member =>
  Nat.lt_asymm (root_bounds c).1 (forest.first d _ member).1

theorem Forest.edit (forest : Forest sp trees) {tree : PlaceTree Nat} {fresh places : List Nat}
    {after : EncodeState} (whole : tree.places = trees c)
    (edited : sp.links.Edited nil (root c) .right tree fresh places after.links)
    (text : after.textBuf = sp.textBuf) (distinct : places.Nodup)
    (apart : ∀ cell ∈ fresh, cell < rbsize ∧ ∀ d, cell ∉ trees d)
    (first : ∀ cell ∈ places, cell < rbsize ∧ sp.textBuf cell = c)
    (out : ∀ cell < rbsize, cell ∈ fresh ++ tree.places → cell ∉ places → after.parent cell = nil) :
    Forest after (Function.update trees c places) := by
  refine ⟨fun d => ?_, fun d => ?_, fun d p member => ?_, fun p inside absent => ?_⟩
  · by_cases same : d = c
    · subst same
      simpa using edited.holds
    · obtain ⟨tree', whole', holds⟩ := forest.held d
      refine ⟨tree', by rw [Function.update_of_ne same, whole'], ?_⟩
      have other : root d ∉ fresh ++ tree.places := by
        rw [whole, List.mem_append, not_or]
        exact ⟨fun member => Nat.lt_asymm (root_bounds d).1 (apart _ member).1, forest.root_away d c⟩
      rw [edited.confined.child _ _ other fun equal => same (root_injective equal.2)]
      refine holds.confined edited.confined fun cell member => ?_
      rw [whole'] at member
      obtain ⟨small, begins⟩ := forest.first d cell member
      refine ⟨fun among => ?_, fun equal => forest.root_away c d (equal ▸ member)⟩
      rcases List.mem_append.mp among with new | old
      · exact (apart cell new).2 d member
      · rw [whole] at old
        exact same (begins.symm.trans (forest.first c cell old).2)
  · by_cases same : d = c
    · subst same
      simpa using distinct
    · simpa [Function.update_of_ne same] using forest.distinct d
  · rw [text]
    by_cases same : d = c
    · subst same
      exact first p (by simpa using member)
    · exact forest.first d p (by simpa [Function.update_of_ne same] using member)
  · by_cases among : p ∈ fresh ++ tree.places
    · exact out p inside among (by simpa using absent c)
    · refine (edited.confined.parent p (Nat.ne_of_lt inside) among).trans
        (forest.out p inside fun d member => ?_)
      by_cases same : d = c
      · subst same
        exact among (List.mem_append_right _ (whole ▸ member))
      · exact absent d (by simpa [Function.update_of_ne same] using member)

theorem Forest.delete (forest : Forest sp trees) (inside : p < rbsize) :
    ∃ after, (deleteNode p).run sp = some ((), after) ∧ after.textBuf = sp.textBuf ∧
      Forest after fun c => (trees c).filter (· ≠ p) := by
  by_cases present : ∃ c, p ∈ trees c
  · obtain ⟨c, member⟩ := present
    obtain ⟨tree, whole, holds⟩ := forest.held c
    have distinct : tree.places.Nodup := whole ▸ forest.distinct c
    have away : root c ∉ tree.places := whole ▸ forest.root_away c c
    have small : ∀ cell ∈ tree.places, cell < rbsize := fun cell among =>
      (forest.first c cell (whole ▸ among)).1
    obtain ⟨left, right, part⟩ := holds.part distinct away (whole ▸ member)
    obtain ⟨after, removes, removed⟩ := holds.remove_mem distinct (by simp) away (whole ▸ member)
      (Nat.le_succ_of_le (length_le_of_small distinct small))
    refine ⟨sp.withLinks after, ?_, rfl, ?_⟩
    · rw [deleteNode_part part small (root_bounds c).1 (root_bounds c).2, removes]
      rfl
    · have others : (fun d => (trees d).filter (· ≠ p)) =
          Function.update trees c (tree.places.filter (· ≠ p)) := by
        funext d
        by_cases same : d = c
        · subst same
          rw [Function.update_self, whole]
        · have absent : p ∉ trees d := fun among =>
            same ((forest.first d p among).2.symm.trans (forest.first c p member).2)
          rw [Function.update_of_ne same, Links.filter_absent absent]
      rw [others]
      refine forest.edit whole (by simpa using removed.edited) rfl (distinct.filter _) (by simp)
        (fun cell among => forest.first c cell (whole ▸ (List.mem_filter.mp among).1)) ?_
      intro cell _ among gone
      have same : cell = p := by simpa [show cell ∈ tree.places by simpa using among] using gone
      rw [same]
      exact removed.parent
  · simp only [not_exists] at present
    refine ⟨sp, ?_, rfl, ?_⟩
    · have out : sp.links.parent p = nil := forest.out p inside present
      simp only [deleteNode, run_bind, run_parentAt sp (Nat.lt_succ_of_lt inside), Option.bind_some,
        if_pos out, run_pure]
    · simpa only [Links.filter_absent (present _)] using forest

def EncodeState.cleared (sp : EncodeState) (p : Nat) : EncodeState :=
  { sp.withLinks ((sp.links.setChild .left p nil).setChild .right p nil) with matchLength := 0 }

theorem links_cleared (sp : EncodeState) (p : Nat) :
    (sp.cleared p).links = (sp.links.setChild .left p nil).setChild .right p nil := by
  rw [← links_withLinks sp ((sp.links.setChild .left p nil).setChild .right p nil)]
  rfl

theorem child_cleared (sp : EncodeState) (side : Side) (p cell : Nat) :
    (sp.cleared p).links.child side cell = if cell = p then nil else sp.links.child side cell := by
  rw [links_cleared]
  cases side <;> simp [Links.child_setChild]

theorem insertNode_descend {r : Nat} (sp : EncodeState) (inside : r < rbsize) :
    (insertNode r).run sp =
      (descend r (rbsize + 1) (root (sp.textBuf r)) 1).run (sp.cleared r) := by
  have new : r < rbsize + 1 := Nat.lt_succ_of_lt inside
  have wide : r < rbsize + 257 := Nat.lt_of_lt_of_le new (by decide)
  simp only [insertNode, run_bind, run_textAt sp (show r < rbsize + uplim - 1 by simp only [uplim]; omega),
    Option.bind_some, run_setLchild sp _ new, run_setRchild _ _ wide, run_modify, links_withLinks,
    withLinks_withLinks, descend, root]
  rfl

theorem Forest.cleared (forest : Forest sp trees) (inside : p < rbsize) (fresh : ∀ c, p ∉ trees c) :
    Forest (sp.cleared p) trees := by
  refine ⟨fun c => ?_, forest.distinct, forest.first, forest.out⟩
  obtain ⟨tree, whole, holds⟩ := forest.held c
  have away : root c ≠ p := fun same => Nat.lt_asymm (root_bounds c).1 (same ▸ inside)
  refine ⟨tree, whole, ?_⟩
  rw [child_cleared, if_neg away]
  refine holds.congr (fun side cell member => ?_) fun _ _ => rfl
  have other : cell ≠ p := by
    rintro rfl
    exact fresh c (whole ▸ member)
  rw [child_cleared, if_neg other]

theorem Forest.insert (forest : Forest sp trees) (inside : p < rbsize) (fresh : ∀ c, p ∉ trees c) :
    ∃ inserted after, (insertNode p).run sp = some ((), after) ∧ after.textBuf = sp.textBuf ∧
      Matches after p (trees (sp.textBuf p)) ∧
      (∀ cell ∈ inserted, cell = p ∨ cell ∈ trees (sp.textBuf p)) ∧
      Forest after (Function.update trees (sp.textBuf p) inserted) := by
  have cleared := forest.cleared inside fresh
  rw [insertNode_descend sp inside]
  generalize begins : sp.textBuf p = c
  obtain ⟨tree, whole, holds⟩ := cleared.held c
  have distinct : tree.places.Nodup := whole ▸ forest.distinct c
  have small : ∀ cell ∈ tree.places, cell < rbsize ∧ sp.textBuf cell = c := fun cell member =>
    forest.first c cell (whole ▸ member)
  have below : Below (sp.cleared p) p (root c) (sideOf 1) tree := by
    refine ⟨holds, distinct, whole ▸ forest.root_away c c, by simp [sideOf], (root_bounds c).2, ?_,
      fun same => Nat.lt_asymm (root_bounds c).1 (same ▸ inside), ?_, fun cell member => ?_⟩
    · rw [whole]
      exact fresh c
    · simp [child_cleared]
    · obtain ⟨less, equal⟩ := small cell member
      exact ⟨less, equal.trans begins.symm⟩
  have enough : tree.places.length < rbsize + 1 :=
    Nat.lt_succ_of_le (length_le_of_small distinct fun cell member => (small cell member).1)
  have nothing : Matches (sp.cleared p) p (trees c) :=
    ⟨Nat.zero_le _, fun some => absurd some (Nat.lt_irrefl 0)⟩
  obtain ⟨inserted, after, runs, same, matched, grown⟩ :=
    descend_run below inside enough (fun cell member => whole ▸ member) nothing
  have among : ∀ cell ∈ inserted, cell = p ∨ cell ∈ trees c := whole ▸ grown.among
  refine ⟨inserted, after, runs, same, matched, among,
    cleared.edit whole grown.edited same grown.distinct ?_ (fun cell member => ?_) fun cell _ old gone => ?_⟩
  · simpa using ⟨inside, fresh⟩
  · rcases among cell member with rfl | old
    · exact ⟨inside, begins⟩
    · exact forest.first c cell old
  · refine grown.gone cell ?_ gone
    rcases List.mem_cons.mp old with rfl | old
    · exact absurd grown.present gone
    · exact old

end Forest

end NootedDeck.Compression
