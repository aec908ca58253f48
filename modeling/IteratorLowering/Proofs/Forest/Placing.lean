import IteratorLowering.Proofs.Forest.Editing
import IteratorLowering.Proofs.Forest.Relinking

/-!
# Edits step by step

Every edit first takes statements out of the lists that hold them and then puts them somewhere. The
lemmas here say for each of these steps when it fails, with which error, and what it leaves.

A `Spot` is a place for statements: before or after a member of a block, or at the head or the
tail of a block. `Spot.insertAll` puts statements there one after the other, as a splice does. It
can only fail at the first of them, and then it has changed nothing (`Spot.insertAll_of_fault`);
otherwise all of them end up next to each other (`Spot.exists_insertAll`).
-/

set_option autoImplicit false
set_option relaxedAutoImplicit false

namespace IteratorLowering

namespace Program

/-- Whether a statement is a branch of a conditional. -/
def isBranch (program : Program) (id : StmtId) : Bool :=
  match (program.parent id).map program.kind with
  | some (.branch ..) => true
  | some (.action _) | some (.block ..) | none => false

/-- Why a statement cannot be taken out of the list that holds it, if it cannot. -/
def unlinkFault? (program : Program) (id : StmtId) : Option EditError :=
  if program.isBranch id then some (.branchRemoval id) else none

/-- Why a statement is no member of a block, if it is none. -/
def memberFault? (program : Program) (id : StmtId) : Option EditError :=
  if program.isBranch id then some (.branchRemoval id)
  else if program.parent id = none then some (.detached id)
  else none

/-- Why a statement is no block, if it is none. -/
def blockFault? (program : Program) (id : StmtId) : Option EditError :=
  if (program.kind id).isBlock then none else some (.notABlock id)

variable {program middle : Program} {id block new : StmtId} {moved : List StmtId}

/-- Where a statement stands. -/
inductive Standing (program : Program) (id : StmtId) : Prop
  | free (hparent : program.parent id = none)
  | member {block : StmtId} {info : Option BlockInfo} {before after : List StmtId}
    (hparent : program.parent id = some block)
    (hkind : program.kind block = .block info (before ++ id :: after))
  | branch (hbranch : program.isBranch id = true)

theorem WellLinked.standing (h : program.WellLinked) (id : StmtId) : program.Standing id := by
  cases hparent : program.parent id with
  | none => exact .free hparent
  | some parent =>
    have hchild := h.child_of_parent hparent
    cases hkind : program.kind parent with
    | action => simp [hkind, StmtKind.children] at hchild
    | branch => exact .branch (by simp [isBranch, hparent, hkind])
    | block info body =>
      rw [hkind] at hchild
      obtain ⟨before, after, rfl⟩ := List.append_of_mem hchild
      exact .member hparent hkind

theorem isBranch_of_free (h : program.parent id = none) : program.isBranch id = false := by
  simp [isBranch, h]

theorem parent_of_isBranch (h : program.isBranch id = true) :
    ∃ parent condition thenBlock elseBlock, program.parent id = some parent ∧
      program.kind parent = .branch condition thenBlock elseBlock := by
  cases hparent : program.parent id with
  | none => simp [isBranch, hparent] at h
  | some parent =>
    cases hkind : program.kind parent with
    | action | block => simp [isBranch, hparent, hkind] at h
    | branch condition thenBlock elseBlock =>
      exact ⟨parent, condition, thenBlock, elseBlock, rfl, hkind⟩

theorem unlinkFault?_eq_none : program.unlinkFault? id = none ↔ program.isBranch id = false := by
  simp [unlinkFault?]

theorem unlinkFault?_eq_some {error : EditError} :
    program.unlinkFault? id = some error ↔
      program.isBranch id = true ∧ error = .branchRemoval id := by
  rw [unlinkFault?]
  cases program.isBranch id <;> simp [eq_comm]

theorem exists_kind_of_blockFault_none (h : program.blockFault? id = none) :
    ∃ info body, program.kind id = .block info body := by
  cases hkind : program.kind id with
  | action | branch => simp [blockFault?, hkind, StmtKind.isBlock] at h
  | block info body => exact ⟨info, body, rfl⟩

/-- What is taken out is no branch afterwards, and what was a branch besides is one. -/
theorem Unlinks.isBranch_eq (h : program.Unlinks moved middle) :
    middle.isBranch id = if id ∈ moved then false else program.isBranch id := by
  by_cases hmem : id ∈ moved
  · rw [if_pos hmem, isBranch, h.parent_eq, if_pos hmem]
    rfl
  · rw [if_neg hmem, isBranch, isBranch, h.parent_eq, if_neg hmem]
    cases program.parent id with
    | none => rfl
    | some parent =>
      rw [Option.map_some, Option.map_some, h.kind_eq]
      cases program.kind parent <;> rfl

/-! ### Positions -/

theorem positionInParent_of_free (h : program.parent id = none) :
    program.positionInParent id = .error (.detached id) := by
  rw [positionInParent, h]

theorem positionInParent_of_isBranch (h : program.isBranch id = true) :
    program.positionInParent id = .error (.branchRemoval id) := by
  obtain ⟨_, _, _, _, hparent, hkind⟩ := parent_of_isBranch h
  simp only [positionInParent, hparent, hkind]

theorem positionInParent_of_member {info : Option BlockInfo} {before after : List StmtId}
    (hparent : program.parent id = some block)
    (hkind : program.kind block = .block info (before ++ id :: after)) (hnot : id ∉ before) :
    program.positionInParent id = .ok (block, before.length) := by
  have hfound : (before ++ id :: after).idxOf? id = some before.length := by
    rw [List.idxOf?, List.findIdx?_append, List.findIdx?_eq_none_iff.mpr fun other hother ↦ ?_]
    · simp [List.findIdx?_cons]
    · exact beq_eq_false_iff_ne.mpr fun heq ↦ hnot (heq ▸ hother)
  simp only [positionInParent, hparent, hkind, hfound]

end Program

namespace Edit

variable {program middle : Program} {id block new : StmtId} {error : EditError}
variable {info : Option BlockInfo} {body before after : List StmtId}

theorem position_of_ok {found : StmtId × Nat} (h : program.positionInParent id = .ok found) :
    Edit.position id program = .ok found program := by
  have hget : (get : Edit Program) program = .ok program program := rfl
  rw [Edit.position, bind_eq_of_eq_ok hget, h]
  rfl

theorem position_of_error (h : program.positionInParent id = .error error) :
    Edit.position id program = .error error program := by
  have hget : (get : Edit Program) program = .ok program program := rfl
  rw [Edit.position, bind_eq_of_eq_ok hget, h]
  rfl

/-- No position is found for a statement that is no member of a block. -/
theorem position_of_memberFault (h : program.memberFault? id = some error) :
    Edit.position id program = .error error program := by
  refine position_of_error ?_
  unfold Program.memberFault? at h
  split at h
  · rename_i hbranch
    rw [Program.positionInParent_of_isBranch hbranch, Option.some.inj h]
  · split at h
    · rename_i hfree
      rw [Program.positionInParent_of_free hfree, Option.some.inj h]
    · cases h

theorem modifyBody_of_block (hkind : program.kind block = .block info body)
    (change : List StmtId → List StmtId) :
    Edit.modifyBody block change program =
      .ok () (program.setKind block (.block info (change body))) := by
  have hget : (get : Edit Program) program = .ok program program := rfl
  rw [Edit.modifyBody, bind_eq_of_eq_ok hget, hkind]
  rfl

theorem modifyBody_of_blockFault (h : program.blockFault? block = some error)
    (change : List StmtId → List StmtId) :
    Edit.modifyBody block change program = .error error program := by
  have hget : (get : Edit Program) program = .ok program program := rfl
  rw [Edit.modifyBody, bind_eq_of_eq_ok hget]
  unfold Program.blockFault? at h
  split at h
  · cases h
  · rename_i hblock
    obtain rfl := Option.some.inj h
    cases hkind : program.kind block with
    | action | branch => rfl
    | block => simp [hkind, StmtKind.isBlock] at hblock

/-! ### Taking statements out -/

theorem remove_of_member (hparent : program.parent id = some block)
    (hkind : program.kind block = .block info (before ++ id :: after)) (hnot : id ∉ before) :
    Edit.remove id program =
      .ok () ((program.setKind block (.block info (before ++ after))).setParent id none) := by
  have hposition := position_of_ok (Program.positionInParent_of_member hparent hkind hnot)
  have herase : (before ++ id :: after).eraseIdx before.length = before ++ after := by
    rw [List.eraseIdx_append_of_length_le (Nat.le_refl _), Nat.sub_self]
    rfl
  rw [Edit.remove, bind_eq_of_eq_ok hposition]
  dsimp only
  rw [bind_eq_of_eq_ok (modifyBody_of_block hkind _), herase]
  rfl

theorem remove_of_memberFault (h : program.memberFault? id = some error) :
    Edit.remove id program = .error error program :=
  bind_eq_of_eq_error (position_of_memberFault h)

theorem detach_of_free (h : program.parent new = none) :
    Edit.detach new program = .ok () program := by
  have hget : (get : Edit Program) program = .ok program program := rfl
  rw [Edit.detach, bind_eq_of_eq_ok hget, h]
  rfl

theorem detach_of_parent {parent : StmtId} (h : program.parent new = some parent) :
    Edit.detach new program = Edit.remove new program := by
  have hget : (get : Edit Program) program = .ok program program := rfl
  rw [Edit.detach, bind_eq_of_eq_ok hget, h]
  rfl

theorem detach_of_isBranch (h : program.isBranch new = true) :
    Edit.detach new program = .error (.branchRemoval new) program := by
  obtain ⟨_, _, _, _, hparent, -⟩ := Program.parent_of_isBranch h
  rw [detach_of_parent hparent]
  exact remove_of_memberFault (by rw [Program.memberFault?, if_pos h])

/-- A member of a block can be removed. -/
theorem exists_remove (h : program.WellLinked) (hfault : program.memberFault? id = none) :
    ∃ final, Edit.remove id program = .ok () final ∧ program.Unlinks [id] final ∧
      final.WellLinked := by
  obtain hparent | ⟨hparent, hkind⟩ | hbranch := h.standing id
  · simp [Program.memberFault?, Program.isBranch_of_free hparent, hparent] at hfault
  · rename_i block info before after
    have hnodup := h.nodup_children block
    rw [hkind] at hnodup
    have hnot := (List.nodup_append.mp hnodup).2.2
    exact ⟨_, remove_of_member hparent hkind fun hmem ↦ hnot id hmem id List.mem_cons_self rfl,
      h.unlinks_detach hkind, h.detach hkind⟩
  · simp [Program.memberFault?, hbranch] at hfault

/-- What is no branch can be taken out of the list that holds it, if there is one. -/
theorem exists_detach (h : program.WellLinked) (hbranch : program.isBranch new = false) :
    ∃ middle, Edit.detach new program = .ok () middle ∧ program.Unlinks [new] middle ∧
      middle.WellLinked := by
  cases hparent : program.parent new with
  | none =>
    refine ⟨program, detach_of_free hparent, h.unlinks_of_parent fun id hid ↦ ?_, h⟩
    rwa [List.mem_singleton.mp hid]
  | some parent =>
    rw [detach_of_parent hparent]
    exact exists_remove h (by simp [Program.memberFault?, hbranch, hparent])

theorem exists_takeBody (h : program.WellLinked) (hkind : program.kind block = .block info body) :
    ∃ middle, Edit.takeBody block program = .ok body middle ∧ program.Unlinks body middle ∧
      middle.WellLinked := by
  have hget : (get : Edit Program) program = .ok program program := rfl
  refine ⟨_, ?_, h.unlinks_release hkind, h.release hkind⟩
  rw [Edit.takeBody, bind_eq_of_eq_ok hget, hkind]
  rfl

theorem takeBody_of_blockFault (h : program.blockFault? block = some error) :
    Edit.takeBody block program = .error error program := by
  have hget : (get : Edit Program) program = .ok program program := rfl
  rw [Edit.takeBody, bind_eq_of_eq_ok hget]
  unfold Program.blockFault? at h
  split at h
  · cases h
  · rename_i hblock
    obtain rfl := Option.some.inj h
    cases hkind : program.kind block with
    | action | branch => rfl
    | block => simp [hkind, StmtKind.isBlock] at hblock

/-! ### Putting statements somewhere -/

theorem insertAt_of_free (hkind : program.kind block = .block info (before ++ after))
    (hnew : program.parent new = none) :
    Edit.insertAt block before.length new program =
      .ok () (program.attach block info before new after) := by
  have hinsert : (before ++ after).insertIdx before.length new = before ++ new :: after := by
    rw [Program.insertIdx_of_le new (by simp), List.take_left, List.drop_left]
  rw [Edit.insertAt, bind_eq_of_eq_ok (detach_of_free hnew),
    bind_eq_of_eq_ok (modifyBody_of_block hkind _), hinsert]
  rfl

theorem insertAt_of_blockFault {position : Nat} (hnew : program.parent new = none)
    (h : program.blockFault? block = some error) :
    Edit.insertAt block position new program = .error error program := by
  rw [Edit.insertAt, bind_eq_of_eq_ok (detach_of_free hnew)]
  exact bind_eq_of_eq_error (modifyBody_of_blockFault h _)

theorem insertBefore_of_member (hnew : program.parent new = none)
    (hparent : program.parent id = some block)
    (hkind : program.kind block = .block info (before ++ id :: after)) (hnot : id ∉ before) :
    Edit.insertBefore id new program =
      .ok () (program.attach block info before new (id :: after)) := by
  have hposition := position_of_ok (Program.positionInParent_of_member hparent hkind hnot)
  rw [Edit.insertBefore, bind_eq_of_eq_ok (detach_of_free hnew), bind_eq_of_eq_ok hposition]
  exact insertAt_of_free hkind hnew

theorem insertAfter_of_member (hnew : program.parent new = none)
    (hparent : program.parent id = some block)
    (hkind : program.kind block = .block info (before ++ id :: after)) (hnot : id ∉ before) :
    Edit.insertAfter id new program =
      .ok () (program.attach block info (before ++ [id]) new after) := by
  have hposition := position_of_ok (Program.positionInParent_of_member hparent hkind hnot)
  have hkind' : program.kind block = .block info ((before ++ [id]) ++ after) := by simpa using hkind
  rw [Edit.insertAfter, bind_eq_of_eq_ok (detach_of_free hnew), bind_eq_of_eq_ok hposition,
    ← insertAt_of_free hkind' hnew, List.length_append]
  rfl

theorem insertAtTail_of_block (hnew : program.parent new = none)
    (hkind : program.kind block = .block info body) :
    Edit.insertAtTail block new program = .ok () (program.attach block info body new []) := by
  have hget : (get : Edit Program) program = .ok program program := rfl
  rw [Edit.insertAtTail, bind_eq_of_eq_ok (detach_of_free hnew), bind_eq_of_eq_ok hget,
    Program.blockBody_of_kind hkind]
  exact insertAt_of_free (by rwa [List.append_nil]) hnew

theorem insertBefore_of_memberFault (hnew : program.parent new = none)
    (h : program.memberFault? id = some error) :
    Edit.insertBefore id new program = .error error program := by
  rw [Edit.insertBefore, bind_eq_of_eq_ok (detach_of_free hnew)]
  exact bind_eq_of_eq_error (position_of_memberFault h)

theorem insertAfter_of_memberFault (hnew : program.parent new = none)
    (h : program.memberFault? id = some error) :
    Edit.insertAfter id new program = .error error program := by
  rw [Edit.insertAfter, bind_eq_of_eq_ok (detach_of_free hnew)]
  exact bind_eq_of_eq_error (position_of_memberFault h)

theorem insertAtTail_of_blockFault (hnew : program.parent new = none)
    (h : program.blockFault? block = some error) :
    Edit.insertAtTail block new program = .error error program := by
  have hget : (get : Edit Program) program = .ok program program := rfl
  rw [Edit.insertAtTail, bind_eq_of_eq_ok (detach_of_free hnew), bind_eq_of_eq_ok hget]
  exact insertAt_of_blockFault hnew h

end Edit

/-- A place for statements. -/
inductive Spot where
  /-- Right before a member of a block. -/
  | before (anchor : StmtId)
  /-- Right after a member of a block. -/
  | after (anchor : StmtId)
  | head (block : StmtId)
  | tail (block : StmtId)
  deriving DecidableEq, Repr

namespace Spot

/-- Put a statement there. -/
def insert : Spot → StmtId → Edit Unit
  | .before anchor => Edit.insertBefore anchor
  | .after anchor => Edit.insertAfter anchor
  | .head block => Edit.insertAtHead block
  | .tail block => Edit.insertAtTail block

/-- Move the members of a block there. -/
def splice : Spot → StmtId → Edit Unit
  | .before anchor => Edit.spliceBefore anchor
  | .after anchor => Edit.spliceAfter anchor
  | .head block => Edit.spliceAtHead block
  | .tail block => Edit.spliceAtTail block

/-- Put statements there one after the other, behind those that were put there already. -/
def insertAll (spot : Spot) (done rest : List StmtId) : Edit Unit :=
  match spot with
  | .before anchor => rest.forM (Edit.insertBefore anchor)
  | .after anchor => Edit.insertChain (done.getLast?.getD anchor) rest
  | .head block => Edit.insertFrom block done.length rest
  | .tail block => rest.forM (Edit.insertAtTail block)

/-- Whether the spot is between two parts of the member list of a block. -/
def Between (block : StmtId) (before after : List StmtId) : Spot → Prop
  | .before anchor => after.head? = some anchor
  | .after anchor => before.getLast? = some anchor
  | .head target => target = block ∧ before = []
  | .tail target => target = block ∧ after = []

/-- Why nothing can be put there once the given statements are taken out of the lists that hold
them, if nothing can. -/
def fault? (program : Program) (moved : List StmtId) : Spot → Option EditError
  | .before anchor | .after anchor =>
    if anchor ∈ moved then some (.detached anchor) else program.memberFault? anchor
  | .head block | .tail block => program.blockFault? block

variable {spot : Spot} {program middle : Program} {block new : StmtId} {error : EditError}
variable {info : Option BlockInfo} {before after moved done rest : List StmtId}

@[simp] theorem fault?_before_nil {anchor : StmtId} :
    (Spot.before anchor).fault? program [] = program.memberFault? anchor := by
  rw [fault?, if_neg List.not_mem_nil]

@[simp] theorem fault?_after_nil {anchor : StmtId} :
    (Spot.after anchor).fault? program [] = program.memberFault? anchor := by
  rw [fault?, if_neg List.not_mem_nil]

theorem fault?_of_unlinks (h : program.Unlinks moved middle) :
    spot.fault? middle [] = spot.fault? program moved := by
  have hmember : ∀ anchor, middle.memberFault? anchor =
      if anchor ∈ moved then some (.detached anchor) else program.memberFault? anchor := by
    intro anchor
    rw [Program.memberFault?, Program.memberFault?, h.isBranch_eq, h.parent_eq]
    by_cases hmem : anchor ∈ moved <;> simp [hmem]
  have hblock : ∀ target, middle.blockFault? target = program.blockFault? target := by
    intro target
    rw [Program.blockFault?, Program.blockFault?, h.kind_eq, StmtKind.isBlock_without]
  cases spot with
  | before anchor => exact fault?_before_nil.trans (hmember anchor)
  | after anchor => exact fault?_after_nil.trans (hmember anchor)
  | head target | tail target => exact hblock target

/-- A spot where something can be put is between two parts of a member list. -/
theorem exists_between (h : program.WellLinked) (hfault : spot.fault? program [] = none) :
    ∃ block info before after, spot.Between block before after ∧
      program.kind block = .block info (before ++ after) := by
  have hmember : ∀ {anchor}, program.memberFault? anchor = none → ∃ block info before after,
      program.kind block = .block info (before ++ anchor :: after) := by
    intro anchor hnone
    obtain hparent | ⟨_, hkind⟩ | hbranch := h.standing anchor
    · simp [Program.memberFault?, Program.isBranch_of_free hparent, hparent] at hnone
    · exact ⟨_, _, _, _, hkind⟩
    · simp [Program.memberFault?, hbranch] at hnone
  cases spot with
  | before anchor =>
    obtain ⟨block, info, before, after, hkind⟩ := hmember (fault?_before_nil.symm.trans hfault)
    exact ⟨block, info, before, anchor :: after, rfl, hkind⟩
  | after anchor =>
    obtain ⟨block, info, before, after, hkind⟩ := hmember (fault?_after_nil.symm.trans hfault)
    exact ⟨block, info, before ++ [anchor], after, List.getLast?_concat, by simpa using hkind⟩
  | head target =>
    obtain ⟨info, body, hkind⟩ := Program.exists_kind_of_blockFault_none hfault
    exact ⟨target, info, [], body, ⟨rfl, rfl⟩, hkind⟩
  | tail target =>
    obtain ⟨info, body, hkind⟩ := Program.exists_kind_of_blockFault_none hfault
    exact ⟨target, info, body, [], ⟨rfl, rfl⟩, by rwa [List.append_nil]⟩

theorem insertAll_nil : spot.insertAll done [] program = .ok () program := by
  cases spot <;> rfl

/-- Where the spot is between two parts of a list, the next statement goes between them. -/
theorem insertAll_cons (hspot : spot.Between block before after)
    (hholds : program.Holds block info ((before ++ done) ++ after))
    (hnodup : ((before ++ done) ++ after).Nodup) (hnew : program.parent new = none) :
    spot.insertAll done (new :: rest) program =
      spot.insertAll (done ++ [new]) rest
        (program.attach block info (before ++ done) new after) := by
  have hkind := hholds.kind
  cases spot with
  | before anchor =>
    obtain ⟨after, rfl⟩ := List.head?_eq_some_iff.mp hspot
    have hnot : anchor ∉ before ++ done := fun hmem ↦
      (List.nodup_append.mp hnodup).2.2 anchor hmem anchor List.mem_cons_self rfl
    exact bind_eq_of_eq_ok
      (Edit.insertBefore_of_member hnew (hholds.parent anchor (by simp)) hkind hnot)
  | after anchor =>
    -- The last statement that was put there is the anchor of the next one.
    have hlast : (before ++ done).getLast? = some (done.getLast?.getD anchor) := by
      rw [List.getLast?_append, hspot]
      cases done.getLast? <;> rfl
    obtain ⟨front, hfront⟩ := List.getLast?_eq_some_iff.mp hlast
    rw [hfront] at hkind hnodup
    have hparent := hholds.parent (done.getLast?.getD anchor) (by simp [hfront])
    have hnot : done.getLast?.getD anchor ∉ front := fun hmem ↦
      (List.nodup_append.mp (List.nodup_append.mp hnodup).1).2.2 _ hmem _ List.mem_cons_self rfl
    have hinsert := Edit.insertAfter_of_member hnew hparent (by simpa using hkind) hnot
    rw [← hfront] at hinsert
    change (Edit.insertAfter (done.getLast?.getD anchor) new >>=
      fun _ ↦ Edit.insertChain new rest) program = _
    rw [bind_eq_of_eq_ok hinsert, insertAll, List.getLast?_concat]
    rfl
  | head target =>
    obtain ⟨rfl, rfl⟩ := hspot
    change (Edit.insertAt target done.length new >>=
      fun _ ↦ Edit.insertFrom target (done.length + 1) rest) program = _
    rw [List.nil_append] at hkind ⊢
    rw [bind_eq_of_eq_ok (Edit.insertAt_of_free hkind hnew), insertAll, List.length_append]
    rfl
  | tail target =>
    obtain ⟨rfl, rfl⟩ := hspot
    rw [List.append_nil] at hkind
    exact bind_eq_of_eq_ok (Edit.insertAtTail_of_block hnew hkind)

/-- Statements that stand nowhere end up next to each other. -/
theorem exists_insertAll (hspot : spot.Between block before after)
    (hholds : program.Holds block info (before ++ done ++ after))
    (hnodup : (before ++ (done ++ rest) ++ after).Nodup)
    (hrest : ∀ id ∈ rest, program.Has id ∧ program.parent id = none) :
    ∃ final, spot.insertAll done rest program = .ok () final ∧
      program.Relinks
        (fun id ↦ if id = block then .block info (before ++ (done ++ rest) ++ after)
          else program.kind id)
        (fun id ↦ if id ∈ rest then some block else program.parent id) final := by
  -- What was put there so far stands behind the first part, and the next statement goes behind it.
  induction rest generalizing done program with
  | nil =>
    refine ⟨program, insertAll_nil, ?_⟩
    refine (Program.Relinks.refl program).congr (fun id _ ↦ ?_) fun id _ ↦ rfl
    split
    · rename_i heq
      rw [heq, hholds.kind, List.append_nil]
    · rfl
  | cons new rest ih =>
    obtain ⟨hnew, hfree⟩ := hrest new List.mem_cons_self
    have hnodup' : ((before ++ done) ++ after).Nodup := by
      refine hnodup.sublist (((List.append_sublist_append_left _).mpr ?_).append_right after)
      exact List.sublist_append_left ..
    have hfresh : new ∉ rest := by
      have hdone := (List.nodup_append.mp (List.nodup_append.mp hnodup).1).2.1
      exact (List.nodup_cons.mp (List.nodup_append.mp hdone).2.1).1
    have hattach : program.Relinks _ _ (program.attach block info (before ++ done) new after) :=
      Program.relinks_attach
    have hholds' := hholds.attach hnew
    rw [List.append_assoc before done] at hholds'
    obtain ⟨final, hrun, hrelinks⟩ := ih hholds' (by simpa using hnodup) fun id hid ↦ by
      obtain ⟨hhas, hparent⟩ := hrest id (List.mem_cons_of_mem _ hid)
      have hne : id ≠ new := fun heq ↦ hfresh (heq ▸ hid)
      exact ⟨hattach.has_iff.mpr hhas, by rw [hattach.parent_eq hhas, if_neg hne, hparent]⟩
    refine ⟨final, (insertAll_cons hspot hholds hnodup' hfree).trans hrun, ?_⟩
    refine (hattach.trans hrelinks).congr (fun id hid ↦ ?_) fun id hid ↦ ?_
    · rw [hattach.kind_eq hid]
      by_cases heq : id = block <;> simp [heq]
    · rw [hattach.parent_eq hid]
      by_cases heq : id = new <;> simp [heq]

/-- Where nothing can be put, the first statement is not put, and nothing changes. -/
theorem insertAll_of_fault (hfault : spot.fault? program [] = some error)
    (hnew : program.parent new = none) :
    spot.insertAll [] (new :: rest) program = .error error program := by
  cases spot with
  | before anchor =>
    rw [fault?_before_nil] at hfault
    exact bind_eq_of_eq_error (Edit.insertBefore_of_memberFault hnew hfault)
  | after anchor =>
    rw [fault?_after_nil] at hfault
    exact bind_eq_of_eq_error (Edit.insertAfter_of_memberFault hnew hfault)
  | head target => exact bind_eq_of_eq_error (Edit.insertAt_of_blockFault hnew hfault)
  | tail target => exact bind_eq_of_eq_error (Edit.insertAtTail_of_blockFault hnew hfault)

/-- A single statement is taken out first and then put there. -/
theorem insert_eq_insertAll (hdetach : Edit.detach new program = .ok () middle)
    (hfree : middle.parent new = none) :
    spot.insert new program = spot.insertAll [] [new] middle := by
  have hagain := Edit.detach_of_free hfree
  cases spot with
  | before anchor =>
    change Edit.insertBefore anchor new program =
      (Edit.insertBefore anchor new >>= fun _ ↦ pure ()) middle
    rw [bind_pure_unit, Edit.insertBefore, bind_eq_of_eq_ok hdetach, bind_eq_of_eq_ok hagain]
  | after anchor =>
    change Edit.insertAfter anchor new program =
      (Edit.insertAfter anchor new >>= fun _ ↦ pure ()) middle
    rw [bind_pure_unit, Edit.insertAfter, bind_eq_of_eq_ok hdetach, bind_eq_of_eq_ok hagain]
  | head target =>
    change Edit.insertAtHead target new program =
      (Edit.insertAt target 0 new >>= fun _ ↦ pure ()) middle
    rw [bind_pure_unit, Edit.insertAtHead, bind_eq_of_eq_ok hdetach]
  | tail target =>
    change Edit.insertAtTail target new program =
      (Edit.insertAtTail target new >>= fun _ ↦ pure ()) middle
    rw [bind_pure_unit, Edit.insertAtTail, bind_eq_of_eq_ok hdetach, bind_eq_of_eq_ok hagain]

theorem insert_of_isBranch (h : program.isBranch new = true) :
    spot.insert new program = .error (.branchRemoval new) program := by
  have hdetach := Edit.detach_of_isBranch h
  cases spot <;> exact bind_eq_of_eq_error hdetach

/-- The members of a block are taken out first and then put there. -/
theorem splice_eq_insertAll {scratch : StmtId}
    (htake : Edit.takeBody scratch program = .ok moved middle) :
    spot.splice scratch program = spot.insertAll [] moved middle := by
  cases spot <;> exact bind_eq_of_eq_ok htake

theorem splice_of_blockFault {scratch : StmtId} (h : program.blockFault? scratch = some error) :
    spot.splice scratch program = .error error program := by
  have htake := Edit.takeBody_of_blockFault h
  cases spot <;> exact bind_eq_of_eq_error htake

end Spot

end IteratorLowering
