import IteratorLowering.Proofs.Forest.Placing

/-!
# What edits do, and when they fail

A `ForestEdit` is one of the edits that move statements which exist. Before it runs, the links of
the program decide how it ends: `ForestEdit.fault?` is the error it fails with, if it fails. An edit
that does not fail puts the statements where it was told to, next to each other, and the rest of the
forest only loses them (`ForestEdit.Places`, `ForestEdit.exists_run`). An edit that fails has at
most taken the statements out of the lists that held them (`ForestEdit.exists_failed_run`).

The statement that is put somewhere may be the body of a function or contain the place it is put
to. Its links are then described as well, although the forest is no forest any more.
-/

set_option autoImplicit false
set_option relaxedAutoImplicit false

namespace IteratorLowering

/-! ### Replacing statements -/

theorem Edit.replaceBranch_eq_exchange {condition : Operand} {thenBlock old : StmtId}
    {elseBlock : Option StmtId} (new : StmtId)
    (hnodup : (StmtKind.branch condition thenBlock elseBlock).children.Nodup)
    (hold : old ∈ (StmtKind.branch condition thenBlock elseBlock).children) :
    ∃ thenBlock' elseBlock',
      Edit.replaceBranch thenBlock elseBlock old new = some (thenBlock', elseBlock') ∧
      (StmtKind.branch condition thenBlock elseBlock).exchange old new =
        .branch condition thenBlock' elseBlock' := by
  by_cases hthen : thenBlock = old
  · refine ⟨new, elseBlock, by rw [Edit.replaceBranch, if_pos hthen], ?_⟩
    cases elseBlock with
    | none => simp [StmtKind.exchange, hthen]
    | some elseBlock =>
      have helse : elseBlock ≠ old := by
        rintro rfl
        simp [StmtKind.children, hthen] at hnodup
      simp [StmtKind.exchange, hthen, helse]
  · cases elseBlock with
    | none => simp [StmtKind.children, Ne.symm hthen] at hold
    | some elseBlock =>
      have helse : elseBlock = old := by
        simpa [StmtKind.children, Ne.symm hthen, eq_comm] using hold
      refine ⟨thenBlock, some new, ?_, ?_⟩
      · rw [Edit.replaceBranch, if_neg hthen, if_pos (congrArg some helse)]
      · simp [StmtKind.exchange, hthen, helse]

namespace Edit

variable {program middle : Program} {old new parent : StmtId} {function : FnId}

/-- A child of a statement is replaced where it stands. -/
theorem replace_of_parent (hlinked : middle.WellLinked)
    (hdetach : Edit.detach new program = .ok () middle)
    (hparent : middle.parent old = some parent) :
    Edit.replace old new program =
      .ok () (((middle.setKind parent ((middle.kind parent).exchange old new)).setParent new
        (some parent)).setParent old none) := by
  have hchild := hlinked.child_of_parent hparent
  have hnodup := hlinked.nodup_children parent
  have hget : (get : Edit Program) middle = .ok middle middle := rfl
  rw [Edit.replace, bind_eq_of_eq_ok hdetach, bind_eq_of_eq_ok hget, hparent]
  cases hkind : middle.kind parent with
  | action =>
    rw [hkind] at hchild
    cases hchild
  | block info body =>
    have hmember : old ∈ body := by rwa [hkind] at hchild
    have hbody : body.Nodup := by rwa [hkind] at hnodup
    obtain ⟨position, hposition⟩ := Option.isSome_iff_exists.mp (List.isSome_idxOf?.mpr hmember)
    simp only [hkind, hposition, set_idxOf_eq_map hbody hposition]
    rfl
  | branch condition thenBlock elseBlock =>
    rw [hkind] at hchild hnodup
    obtain ⟨_, _, hbranch, hexchange⟩ := replaceBranch_eq_exchange new hnodup hchild
    simp only [hkind, hbranch, hexchange]
    rfl

/-- The body of a function is replaced by another one. -/
theorem replace_of_owner (hdetach : Edit.detach new program = .ok () middle)
    (hparent : middle.parent old = none) (howner : (middle.stmt old).bodyOf = some function) :
    Edit.replace old new program =
      .ok () (((middle.setBodyOf old none).setBodyOf new (some function)).modifyFunction function
        fun definition ↦ { definition with body := new }) := by
  have hget : (get : Edit Program) middle = .ok middle middle := rfl
  rw [Edit.replace, bind_eq_of_eq_ok hdetach, bind_eq_of_eq_ok hget, hparent]
  simp only [howner]
  rfl

theorem replace_of_detached (hdetach : Edit.detach new program = .ok () middle)
    (hparent : middle.parent old = none) (howner : (middle.stmt old).bodyOf = none) :
    Edit.replace old new program = .error (.detached old) middle := by
  have hget : (get : Edit Program) middle = .ok middle middle := rfl
  rw [Edit.replace, bind_eq_of_eq_ok hdetach, bind_eq_of_eq_ok hget, hparent]
  simp only [howner]
  rfl

end Edit

namespace Program

variable {program middle : Program} {old new parent : StmtId} {function : FnId}

theorem Unlinks.putsInPlace (h : program.Unlinks [new] middle) (hne : old ≠ new) :
    program.PutsInPlace old new parent
      (((middle.setKind parent ((middle.kind parent).exchange old new)).setParent new
        (some parent)).setParent old none) := by
  refine (Relinks.trans h ((((Relinks.refl middle).setKind parent _).setParent new _).setParent
    old none)).congr (fun id _ ↦ ?_) fun id _ ↦ ?_
  · split
    · rename_i heq
      rw [h.kind_eq, heq]
    · exact h.kind_eq
  · by_cases hnew : id = new
    · simp [hnew, hne.symm]
    · simp [hnew, h.parent_eq]

/-- Where the new statement stood nowhere or in a block, it is the body afterwards. -/
theorem Unlinks.takesOverBody (h : program.Unlinks [new] middle)
    (hfunction : function.index < program.functions.size) :
    program.TakesOverBody old new function
      (((middle.setBodyOf old none).setBodyOf new (some function)).modifyFunction function
        fun definition ↦ { definition with body := new }) := by
  refine ⟨?_, fun {id} hid ↦ ?_, fun other ↦ ?_, ?_⟩
  · rw [← h.size]
    simp [setBodyOf, modifyFunction, modifyStmt]
  · have hmiddle := h.has_iff.mpr hid
    change ((middle.setBodyOf old none).setBodyOf new (some function)).stmt id = _
    rw [stmt_setBodyOf ((has_setBodyOf ..).mpr hmiddle), stmt_setBodyOf hmiddle, h.stmt hid]
    simp
  · have hfunctions := h.functions_eq
    refine (function_modifyFunction ..).trans ?_
    change (if other = function ∧ function.index < middle.functions.size then
      { middle.function other with body := new } else middle.function other) = _
    rw [Program.function, hfunctions]
    by_cases heq : other = function <;> simp [heq, hfunction, bodyOf, Program.function]
  · obtain ⟨statements, rfl⟩ := h.arenas
    exact ⟨_, _, by simp [setBodyOf, modifyStmt], rfl⟩

end Program

/-! ### Edits -/

/-- An edit of statements that exist. -/
inductive ForestEdit where
  /-- Put a statement somewhere. -/
  | insert (spot : Spot) (new : StmtId)
  /-- Move the members of a block somewhere. -/
  | splice (spot : Spot) (scratch : StmtId)
  /-- Put a statement where another one is. -/
  | replace (old new : StmtId)
  /-- Take a statement out of its block. -/
  | remove (id : StmtId)
  deriving DecidableEq, Repr

/-- The block that a spot is the head or the tail of. -/
def Spot.target? : Spot → Option StmtId
  | .before _ | .after _ => none
  | .head block | .tail block => some block

namespace ForestEdit

def run : ForestEdit → Edit Unit
  | insert spot new => spot.insert new
  | splice spot scratch => spot.splice scratch
  | replace old new => Edit.replace old new
  | remove id => Edit.remove id

/-- The statements that an edit takes out of the lists that hold them. -/
def moved (program : Program) : ForestEdit → List StmtId
  | insert _ new => [new]
  | splice _ scratch => program.blockBody scratch
  | replace _ new => [new]
  | remove id => [id]

/-- The error that an edit fails with, if it fails. The move is checked first, then the place. -/
def fault? (program : Program) : ForestEdit → Option EditError
  | insert spot new => (program.unlinkFault? new).or (spot.fault? program [new])
  | splice spot scratch =>
    (program.blockFault? scratch).or
      (if program.blockBody scratch = [] then none
        else spot.fault? program (program.blockBody scratch))
  | replace old new =>
    (program.unlinkFault? new).or
      (if old ≠ new ∧ (program.parent old).isSome ∨ (program.stmt old).bodyOf.isSome then none
        else some (.detached old))
  | remove id => program.memberFault? id

/-- What an edit has done to the forest when it has not failed. A block whose members were moved to
its own head or tail has them still; otherwise it is empty. -/
def Places (program final : Program) : ForestEdit → Prop
  | insert spot new =>
    ∃ block before after, spot.Between block before after ∧
      program.PutsBetween [new] block before after final
  | splice spot scratch =>
    (program.blockBody scratch = [] ∧ program.Unlinks [] final ∨
      ∃ block before after, spot.Between block before after ∧
        program.PutsBetween (program.blockBody scratch) block before after final) ∧
    final.blockBody scratch =
      if spot.target? = some scratch then program.blockBody scratch else []
  | replace old new =>
    (∃ parent, program.parent old = some parent ∧ program.PutsInPlace old new parent final) ∨
      ∃ function, (program.stmt old).bodyOf = some function ∧
        program.TakesOverBody old new function final
  | remove id => program.Unlinks [id] final

variable {program middle final : Program} {edit : ForestEdit} {error : EditError}
variable {spot : Spot} {new old scratch id block : StmtId} {moved before after : List StmtId}

/-! ### Putting statements somewhere -/

/-- Statements that were taken out of the lists that held them can be put where nothing is amiss. -/
theorem exists_putsBetween (hlinked : middle.WellLinked) (hunlinks : program.Unlinks moved middle)
    (hmoved : ∀ id ∈ moved, program.Has id) (hnodup : moved.Nodup)
    (hfault : spot.fault? program moved = none) :
    ∃ final, spot.insertAll [] moved middle = .ok () final ∧
      ∃ block before after, spot.Between block before after ∧
        program.PutsBetween moved block before after final := by
  rw [← Spot.fault?_of_unlinks hunlinks] at hfault
  obtain ⟨block, info, before, after, hspot, hkind⟩ := Spot.exists_between hlinked hfault
  have hfree : ∀ id ∈ moved, middle.parent id = none := fun id hid ↦ by
    rw [hunlinks.parent_eq, if_pos hid]
  have hmembers : (before ++ after).Nodup := by
    have := hlinked.nodup_children block
    rwa [hkind] at this
  have hfresh : ∀ id ∈ moved, id ∉ before ++ after := fun id hid hmember ↦ by
    have hparent := (hlinked.holds hkind).parent id hmember
    rw [hfree id hid] at hparent
    cases hparent
  have hall : (moved ++ (before ++ after)).Nodup :=
    List.nodup_append.mpr ⟨hnodup, hmembers, fun id hid _ hmember heq ↦
      hfresh id hid (heq ▸ hmember)⟩
  have hbetween : (before ++ ([] ++ moved) ++ after).Nodup := by
    rw [List.nil_append]
    refine (List.perm_append_comm.append_right after).nodup_iff.mpr ?_
    rwa [List.append_assoc]
  obtain ⟨final, hrun, hrelinks⟩ := Spot.exists_insertAll hspot
    (by simpa using hlinked.holds hkind) hbetween
    fun id hid ↦ ⟨hunlinks.has_iff.mpr (hmoved id hid), hfree id hid⟩
  exact ⟨final, hrun, block, before, after, hspot, hunlinks.putsBetween hkind hrelinks⟩

/-- Where something is amiss, the statements stay outside of all lists. -/
theorem insertAll_of_unlinks (hunlinks : program.Unlinks moved middle) (hmoved : moved ≠ [])
    (hfault : spot.fault? program moved = some error) :
    spot.insertAll [] moved middle = .error error middle := by
  rw [← Spot.fault?_of_unlinks hunlinks] at hfault
  obtain ⟨new, rest, rfl⟩ := List.exists_cons_of_ne_nil hmoved
  exact Spot.insertAll_of_fault hfault (by rw [hunlinks.parent_eq, if_pos List.mem_cons_self])

/-! ### The four edits -/

theorem exists_run_insert (h : program.WellLinked) (hnew : program.Has new)
    (hfault : (insert spot new).fault? program = none) :
    ∃ final, (insert spot new).run program = .ok () final ∧
      (insert spot new).Places program final := by
  obtain ⟨hunlink, hspot⟩ := Option.or_eq_none_iff.mp hfault
  obtain ⟨middle, hdetach, hunlinks, hlinked⟩ :=
    Edit.exists_detach h (Program.unlinkFault?_eq_none.mp hunlink)
  obtain ⟨final, hrun, hplaces⟩ := exists_putsBetween hlinked hunlinks
    (fun id hid ↦ List.mem_singleton.mp hid ▸ hnew) (List.nodup_singleton new) hspot
  have hfree : middle.parent new = none := by
    rw [hunlinks.parent_eq, if_pos (List.mem_singleton_self new)]
  exact ⟨final, (Spot.insert_eq_insertAll hdetach hfree).trans hrun, hplaces⟩

theorem exists_failed_insert (h : program.WellLinked)
    (hfault : (insert spot new).fault? program = some error) :
    ∃ final, (insert spot new).run program = .error error final ∧
      (final = program ∨ program.Unlinks [new] final) := by
  obtain hunlink | ⟨hunlink, hspot⟩ := Option.or_eq_some_iff.mp hfault
  · obtain ⟨hbranch, rfl⟩ := Program.unlinkFault?_eq_some.mp hunlink
    exact ⟨program, Spot.insert_of_isBranch hbranch, .inl rfl⟩
  · obtain ⟨middle, hdetach, hunlinks, -⟩ :=
      Edit.exists_detach h (Program.unlinkFault?_eq_none.mp hunlink)
    have hfree : middle.parent new = none := by
      rw [hunlinks.parent_eq, if_pos (List.mem_singleton_self new)]
    have hrun := insertAll_of_unlinks hunlinks (List.cons_ne_nil new []) hspot
    exact ⟨middle, (Spot.insert_eq_insertAll hdetach hfree).trans hrun, .inr hunlinks⟩

/-- The members of a block leave it, except that they come back to it if the spot is there. -/
theorem blockBody_of_putsBetween (hscratch : program.Has scratch)
    (hspot : spot.Between block before after)
    (hputs : program.PutsBetween (program.blockBody scratch) block before after final) :
    final.blockBody scratch =
      if spot.target? = some scratch then program.blockBody scratch else [] := by
  have hleft : (program.blockBody scratch).filter (· ∉ program.blockBody scratch) = [] :=
    List.filter_eq_nil_iff.mpr fun id hid ↦ by simpa using hid
  rw [hputs.blockBody_eq hscratch]
  by_cases hself : scratch = block
  · subst hself
    obtain ⟨rfl, rfl⟩ := List.append_eq_nil_iff.mp (hputs.members.symm.trans hleft)
    have htarget : spot.target? = some scratch := by
      cases spot with
      | before anchor | after anchor => cases hspot
      | head target | tail target => exact congrArg some hspot.1
    rw [if_pos htarget, if_pos rfl, List.nil_append, List.append_nil]
  · have htarget : spot.target? ≠ some scratch := by
      rintro heq
      cases spot with
      | before anchor | after anchor => cases heq
      | head target | tail target => exact hself ((Option.some.inj heq).symm.trans hspot.1)
    rw [if_neg htarget, if_neg hself, hleft]

theorem exists_run_splice (h : program.WellLinked)
    (hfault : (splice spot scratch).fault? program = none) :
    ∃ final, (splice spot scratch).run program = .ok () final ∧
      (splice spot scratch).Places program final := by
  obtain ⟨hblock, hspot⟩ := Option.or_eq_none_iff.mp hfault
  obtain ⟨info, body, hkind⟩ := Program.exists_kind_of_blockFault_none hblock
  obtain ⟨middle, htake, hunlinks, hlinked⟩ := Edit.exists_takeBody h hkind
  have hbody := Program.blockBody_of_kind hkind
  have hrun : spot.splice scratch program = spot.insertAll [] body middle :=
    Spot.splice_eq_insertAll htake
  rw [hbody] at hspot
  by_cases hempty : body = []
  · subst hempty
    refine ⟨middle, hrun.trans Spot.insertAll_nil, .inl ⟨hbody, hunlinks⟩, ?_⟩
    rw [hunlinks.blockBody_eq, hbody]
    split <;> rfl
  · have hmember : ∀ id ∈ body, id ∈ (program.kind scratch).children := fun id hid ↦ by rwa [hkind]
    have hnodup := h.nodup_children scratch
    rw [hkind] at hnodup
    obtain ⟨final, hinsert, block, before, after, hbetween, hputs⟩ :=
      exists_putsBetween hlinked hunlinks (fun id hid ↦ h.has_of_child (hmember id hid)) hnodup
        ((if_neg hempty).symm.trans hspot)
    rw [← hbody] at hputs
    exact ⟨final, hrun.trans hinsert, .inr ⟨block, before, after, hbetween, hputs⟩,
      blockBody_of_putsBetween (Program.has_of_kind_block hkind) hbetween hputs⟩

theorem exists_failed_splice (h : program.WellLinked)
    (hfault : (splice spot scratch).fault? program = some error) :
    ∃ final, (splice spot scratch).run program = .error error final ∧
      (final = program ∨ program.Unlinks (program.blockBody scratch) final) := by
  obtain hblock | ⟨hblock, hspot⟩ := Option.or_eq_some_iff.mp hfault
  · exact ⟨program, Spot.splice_of_blockFault hblock, .inl rfl⟩
  · obtain ⟨info, body, hkind⟩ := Program.exists_kind_of_blockFault_none hblock
    obtain ⟨middle, htake, hunlinks, -⟩ := Edit.exists_takeBody h hkind
    rw [Program.blockBody_of_kind hkind] at hspot ⊢
    have hne : body ≠ [] := by
      rintro rfl
      cases hspot
    have hrun := insertAll_of_unlinks hunlinks hne ((if_neg hne).symm.trans hspot)
    exact ⟨middle, (Spot.splice_eq_insertAll htake).trans hrun, .inr hunlinks⟩

theorem exists_run_replace (h : program.WellLinked)
    (hfault : (replace old new).fault? program = none) :
    ∃ final, (replace old new).run program = .ok () final ∧
      (replace old new).Places program final := by
  obtain ⟨hunlink, hold⟩ := Option.or_eq_none_iff.mp hfault
  obtain ⟨middle, hdetach, hunlinks, hlinked⟩ :=
    Edit.exists_detach h (Program.unlinkFault?_eq_none.mp hunlink)
  have hplace : old ≠ new ∧ (program.parent old).isSome ∨ (program.stmt old).bodyOf.isSome := by
    by_contra hnone
    rw [if_neg hnone] at hold
    cases hold
  cases howner : (program.stmt old).bodyOf with
  | some function =>
    have hparent : middle.parent old = none := by
      rw [hunlinks.parent_eq, h.parent_of_owner howner, ite_self]
    exact ⟨_, Edit.replace_of_owner hdetach hparent (hunlinks.owner_eq.trans howner),
      .inr ⟨function, howner, hunlinks.takesOverBody (h.body_of_bodyOf howner).1⟩⟩
  | none =>
    obtain ⟨hne, hparent⟩ := hplace.resolve_right (by simp [howner])
    obtain ⟨parent, hparent⟩ := Option.isSome_iff_exists.mp hparent
    have hmiddle : middle.parent old = some parent := by
      rw [hunlinks.parent_eq, if_neg fun hmem ↦ hne (List.mem_singleton.mp hmem), hparent]
    exact ⟨_, Edit.replace_of_parent hlinked hdetach hmiddle,
      .inl ⟨parent, hparent, hunlinks.putsInPlace hne⟩⟩

theorem exists_failed_replace (h : program.WellLinked)
    (hfault : (replace old new).fault? program = some error) :
    ∃ final, (replace old new).run program = .error error final ∧
      (final = program ∨ program.Unlinks [new] final) := by
  obtain hunlink | ⟨hunlink, hold⟩ := Option.or_eq_some_iff.mp hfault
  · obtain ⟨hbranch, rfl⟩ := Program.unlinkFault?_eq_some.mp hunlink
    exact ⟨program, bind_eq_of_eq_error (Edit.detach_of_isBranch hbranch), .inl rfl⟩
  · obtain ⟨middle, hdetach, hunlinks, -⟩ :=
      Edit.exists_detach h (Program.unlinkFault?_eq_none.mp hunlink)
    split at hold
    · cases hold
    · rename_i hplace
      obtain rfl := Option.some.inj hold
      obtain ⟨hparent, howner⟩ := not_or.mp hplace
      have howner : (program.stmt old).bodyOf = none := by simpa using howner
      have hfree : middle.parent old = none := by
        rw [hunlinks.parent_eq]
        by_cases heq : old = new
        · rw [if_pos (List.mem_singleton.mpr heq)]
        · have hparent : program.parent old = none := by simpa [heq] using hparent
          rw [hparent, ite_self]
      exact ⟨middle, Edit.replace_of_detached hdetach hfree (hunlinks.owner_eq.trans howner),
        .inr hunlinks⟩

theorem exists_failed_remove (hfault : (remove id).fault? program = some error) :
    ∃ final, (remove id).run program = .error error final ∧
      (final = program ∨ program.Unlinks [id] final) :=
  ⟨program, Edit.remove_of_memberFault hfault, .inl rfl⟩

/-! ### All edits -/

theorem exists_run (h : program.WellLinked) (hmoved : ∀ id ∈ edit.moved program, program.Has id)
    (hfault : edit.fault? program = none) :
    ∃ final, edit.run program = .ok () final ∧ edit.Places program final := by
  cases edit with
  | insert spot new => exact exists_run_insert h (hmoved new (List.mem_singleton_self new)) hfault
  | splice spot scratch => exact exists_run_splice h hfault
  | replace old new => exact exists_run_replace h hfault
  | remove id =>
    obtain ⟨final, hrun, hunlinks, -⟩ := Edit.exists_remove h hfault
    exact ⟨final, hrun, hunlinks⟩

theorem exists_failed_run (h : program.WellLinked) (hfault : edit.fault? program = some error) :
    ∃ final, edit.run program = .error error final ∧
      (final = program ∨ program.Unlinks (edit.moved program) final) := by
  cases edit with
  | insert spot new => exact exists_failed_insert h hfault
  | splice spot scratch => exact exists_failed_splice h hfault
  | replace old new => exact exists_failed_replace h hfault
  | remove id => exact exists_failed_remove hfault

/-- A function that holds a block with a statement in it and another statement. -/
def blockAndNoop : Program where
  types := builtinTypes
  statements := #[
    { kind := .plain [⟨1⟩, ⟨3⟩], bodyOf := some ⟨0⟩, span := .none },
    { kind := .plain [⟨2⟩], parent := some ⟨0⟩, span := .none },
    { kind := .action .noop, parent := some ⟨1⟩, span := .none },
    { kind := .action .noop, parent := some ⟨0⟩, span := .none }]
  functions := #[{ name := "main", retType := .void, body := ⟨0⟩ }]

/-- An edit that does not fail puts exactly the statements that it moves where it was told to, and
the rest of the program only loses them. -/
theorem places_of_run (h : program.WellLinked)
    (hmoved : ∀ id ∈ edit.moved program, program.Has id) (hrun : edit.run program = .ok () final) :
    edit.Places program final := by
  cases hfault : edit.fault? program with
  | none =>
    obtain ⟨_, hrun', hplaces⟩ := exists_run h hmoved hfault
    rw [hrun] at hrun'
    cases hrun'
    exact hplaces
  | some error =>
    obtain ⟨_, hrun', -⟩ := exists_failed_run h hfault
    rw [hrun] at hrun'
    cases hrun'

/-- The member of a block is moved right behind the block. -/
theorem places_splice_blockAndNoop :
    blockAndNoop.WellLinked ∧
    (∀ id ∈ (splice (.after ⟨1⟩) ⟨1⟩).moved blockAndNoop, blockAndNoop.Has id) ∧
    ∃ final, (splice (.after ⟨1⟩) ⟨1⟩).run blockAndNoop = .ok () final ∧
      final.blockBody ⟨0⟩ = [⟨1⟩, ⟨2⟩, ⟨3⟩] ∧
      (splice (.after ⟨1⟩) ⟨1⟩).Places blockAndNoop final :=
  ⟨by decide, by decide, _, rfl, by decide, places_of_run (by decide) (by decide) rfl⟩

/-- A block whose members are moved to its own head holds them still. -/
theorem splice_into_itself :
    blockAndNoop.WellLinked ∧
    ∃ final, (splice (.head ⟨1⟩) ⟨1⟩).run blockAndNoop = .ok () final ∧
      final.blockBody ⟨1⟩ ≠ [] :=
  ⟨by decide, _, rfl, by decide⟩

/-- An edit fails with the error that the links foretell, and it fails only if they foretell one. It
has then taken the statements that it moves out of the lists that held them, or done nothing. -/
theorem fails_iff_and_unlinks (h : program.WellLinked)
    (hmoved : ∀ id ∈ edit.moved program, program.Has id) :
    (∀ error, (∃ final, edit.run program = .error error final) ↔
      edit.fault? program = some error) ∧
    ∀ error final, edit.run program = .error error final →
      final = program ∨ program.Unlinks (edit.moved program) final := by
  cases hfault : edit.fault? program with
  | none =>
    obtain ⟨_, hrun, -⟩ := exists_run h hmoved hfault
    simp [hrun]
  | some error =>
    obtain ⟨final, hrun, hleft⟩ := exists_failed_run h hfault
    simpa [hrun, eq_comm] using hleft

/-- No statement is put before itself, but it is taken out of its block. -/
theorem fails_insert_blockAndNoop :
    blockAndNoop.WellLinked ∧
    (∀ id ∈ (insert (.before ⟨3⟩) ⟨3⟩).moved blockAndNoop, blockAndNoop.Has id) ∧
    ∃ final, (insert (.before ⟨3⟩) ⟨3⟩).run blockAndNoop = .error (.detached ⟨3⟩) final ∧
      final.blockBody ⟨0⟩ = [⟨1⟩] ∧
      (insert (.before ⟨3⟩) ⟨3⟩).fault? blockAndNoop = some (.detached ⟨3⟩) ∧
      (final = blockAndNoop ∨
        blockAndNoop.Unlinks ((insert (.before ⟨3⟩) ⟨3⟩).moved blockAndNoop) final) :=
  have h := @fails_iff_and_unlinks blockAndNoop (insert (.before ⟨3⟩) ⟨3⟩) (by decide) (by decide)
  ⟨by decide, by decide, _, rfl, by decide, (h.1 _).mp ⟨_, rfl⟩, h.2 _ _ rfl⟩

end ForestEdit

end IteratorLowering
