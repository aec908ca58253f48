import IteratorLowering.Program.Cursor
import IteratorLowering.Proofs.Forest.Outcomes
import IteratorLowering.Proofs.Forest.Updating

/-!
# Scratch blocks

Statements are emitted into a block that stands nowhere, one after the other
(`Program.PutsAtEnd`), and are then moved together to the head or the tail of another block. Both
are described by what every statement is afterwards. The move fails only if there is something to be
moved and the other statement is no block (`Edit.exists_spliceAtEnd`, `Edit.exists_failed_splice`).
-/

set_option autoImplicit false
set_option relaxedAutoImplicit false

namespace IteratorLowering

namespace Program

variable {program final : Program} {block : StmtId} {members : List StmtId} {action : Action}

/-- A new action is the last member of a block, and all else is as it was. -/
structure PutsAtEnd (program : Program) (block : StmtId) (members : List StmtId) (action : Action)
    (final : Program) : Prop where
  linked : final.WellLinked
  arenas : ∃ statements, final = { program with statements }
  has : ∀ {id}, program.Has id → final.Has id
  stmt : ∀ {id}, program.Has id → id ≠ block → final.stmt id = program.stmt id
  block : final.kind block = .plain (members ++ [program.nextStmt])
  new : final.kind program.nextStmt = .action action

/-- What an emitter leaves behind. -/
theorem ensures_emitAction (h : program.WellLinked) {cursor : Cursor}
    (hblock : program.kind cursor.block = .plain members) (action : Action) :
    Ensures (cursor.emit (.action action)) program (fun _ ↦ True)
      fun _ final ↦ program.PutsAtEnd cursor.block members action final := by
  refine ensures_modifyGet_bind.mpr (ensures_modify_bind.mpr (ensures_pure.mpr ⟨trivial, ?_⟩))
  rw [newStmt_fst]
  set made := (program.newStmt (.action action) cursor.span).2 with hmade
  have hhas : program.Has cursor.block := has_of_kind_block hblock
  have hne : ∀ {id}, program.Has id → id ≠ program.nextStmt := by
    rintro _ hid rfl
    exact program.not_has_nextStmt hid
  have hkind (id : StmtId) :
      made.kind id = if id = program.nextStmt then .action action else program.kind id :=
    kind_newStmt ..
  have hmadeBlock : made.kind cursor.block = .block none (members ++ []) := by
    rw [hkind, if_neg (hne hhas), hblock, List.append_nil]
    rfl
  have hlinked : made.WellLinked := h.newStmt _ (List.forall_mem_nil _) .nil
  have hnew : made.Detached program.nextStmt :=
    WellLinked.detached_newStmt program _ (List.forall_mem_nil _)
  have hfinal : made.appendMember cursor.block program.nextStmt =
      (made.setKind cursor.block (.block none (members ++ [program.nextStmt]))).setParent
        program.nextStmt (some cursor.block) := by
    rw [appendMember, hmadeBlock]
    simp
  have hmadeHas : ∀ {id}, program.Has id → made.Has id := fun hid ↦
    (has_newStmt ..).mpr (.inl hid)
  rw [hfinal]
  refine ⟨hlinked.attach hmadeBlock hnew, ?_, fun hid ↦ by simpa using hmadeHas hid,
    fun {id} hid hblock ↦ ?_, ?_, ?_⟩
  · obtain ⟨statements, harenas⟩ := program.newStmt_arenas (.action action) cursor.span
    rw [hmade, harenas]
    exact ⟨_, rfl⟩
  · rw [setParent, stmt_modifyStmt, if_neg fun hand ↦ hne hid hand.1, setKind, stmt_modifyStmt,
      if_neg fun hand ↦ hblock hand.1]
    exact stmt_newStmt_of_not_mem program _ hid List.not_mem_nil
  · rw [kind_setParent, kind_setKind, if_pos ⟨rfl, hmadeHas hhas⟩]
    rfl
  · rw [kind_setParent, kind_setKind, if_neg fun hand ↦ hne hhas hand.1.symm, hkind, if_pos rfl]

end Program

namespace Edit

open ForestEdit

variable {program : Program} {block scratch : StmtId} {members : List StmtId}

/-- The members of a scratch block become the first or the last members of another block. -/
theorem exists_splice_of_between (h : program.WellLinked)
    (hscratch : program.kind scratch = .plain members) (hne : scratch ≠ block)
    (hblock : (program.kind block).isBlock = true ∨ members = []) {spot : Spot}
    {join : List StmtId → List StmtId} (hjoin : members = [] → ∀ body, join body = body)
    (hfault : spot.fault? program members = program.blockFault? block)
    (hbetween : ∀ {target before after}, spot.Between target before after →
      target = block ∧ before ++ members ++ after = join (before ++ after)) :
    ∃ final, spot.splice scratch program = .ok () final ∧ final.WellLinked ∧
      program.Relinks
        (fun id ↦ if id = block then (program.kind id).mapMembers join
          else if id = scratch then .plain [] else program.kind id)
        (fun id ↦ if id ∈ members then some block else program.parent id) final := by
  have hbody : program.blockBody scratch = members := Program.blockBody_of_kind hscratch
  have hnone : (ForestEdit.splice spot scratch).fault? program = none := by
    have hplain : program.blockFault? scratch = none := by
      rw [Program.blockFault?, hscratch]
      rfl
    rw [ForestEdit.fault?, hbody, hplain, hfault, Option.none_or, Program.blockFault?]
    rcases hblock with hblock | rfl
    · rw [if_pos hblock, ite_self]
    · rw [if_pos rfl]
  obtain ⟨final, hrun, hplaces, -⟩ := exists_run_splice h hnone
  have hlinked : final.WellLinked := by
    have hstays : Stays .everything program (spot.splice scratch) := by
      cases spot with
      | before anchor => exact fits_spliceBefore (.everything h) trivial
      | after anchor => exact fits_spliceAfter (.everything h) trivial
      | head target => exact fits_spliceAtHead (.everything h) trivial
      | tail target => exact fits_spliceAtTail (.everything h) trivial
    exact (hstays.of_eq_ok hrun).1.wellLinked h
  refine ⟨final, hrun, hlinked, ?_⟩
  -- Nothing but the scratch block holds what is moved.
  have hholder {id member : StmtId} (hmember : member ∈ (program.kind id).children)
      (hmoved : member ∈ members) : id = scratch := by
    refine h.eq_of_child hmember ?_
    rw [hscratch]
    exact hmoved
  have hwithout {id : StmtId} (hid : id ≠ scratch) :
      (program.kind id).without members = program.kind id :=
    StmtKind.without_eq_self fun member hmember hmoved ↦ hid (hholder hmember hmoved)
  have hemptied : (program.kind scratch).without members = .plain [] := by
    rw [hscratch, StmtKind.plain, StmtKind.without_block]
    exact congrArg _ (List.filter_eq_nil_iff.mpr fun member hmember ↦ by simpa using hmember)
  rw [hbody] at hplaces
  rcases hplaces with ⟨rfl, hunlinks⟩ | ⟨target, before, after, hspot, hputs⟩
  · refine Program.Relinks.congr hunlinks (fun id _ ↦ ?_) fun id _ ↦ by simp
    by_cases hid : id = block
    · subst hid
      rw [if_pos rfl, hwithout hne.symm]
      cases program.kind id <;> simp [StmtKind.mapMembers, hjoin rfl]
    · rw [if_neg hid]
      split
      · rename_i heq
        rw [heq, hemptied]
      · exact hwithout ‹_›
  · obtain ⟨rfl, heq⟩ := hbetween hspot
    refine hputs.relinks.congr (fun id _ ↦ ?_) fun id _ ↦ rfl
    by_cases hid : id = target
    · subst hid
      have hapart : (program.blockBody id).filter (· ∉ members) = program.blockBody id :=
        List.filter_eq_self.mpr fun member hmember ↦ decide_eq_true fun hmoved ↦
          hne (hholder (Program.mem_children_of_mem_blockBody hmember) hmoved).symm
      rw [if_pos rfl, if_pos rfl, heq, ← hputs.members, hapart]
      cases hkind : program.kind id with
      | action | branch => rfl
      | block info body => simp [StmtKind.mapMembers, Program.blockBody, hkind]
    · rw [if_neg hid, if_neg hid]
      split
      · rename_i heq
        rw [heq, hemptied]
      · exact hwithout ‹_›

theorem exists_spliceAtHead (h : program.WellLinked)
    (hscratch : program.kind scratch = .plain members) (hne : scratch ≠ block)
    (hblock : (program.kind block).isBlock = true ∨ members = []) :
    ∃ final, Edit.spliceAtHead block scratch program = .ok () final ∧ final.WellLinked ∧
      program.Relinks
        (fun id ↦ if id = block then (program.kind id).mapMembers (members ++ ·)
          else if id = scratch then .plain [] else program.kind id)
        (fun id ↦ if id ∈ members then some block else program.parent id) final :=
  @exists_splice_of_between program block scratch members h hscratch hne hblock (.head block)
    (members ++ ·) (by rintro rfl; exact fun _ ↦ rfl) rfl
    (by rintro _ _ _ ⟨rfl, rfl⟩; exact ⟨rfl, rfl⟩)

theorem exists_spliceAtTail (h : program.WellLinked)
    (hscratch : program.kind scratch = .plain members) (hne : scratch ≠ block)
    (hblock : (program.kind block).isBlock = true ∨ members = []) :
    ∃ final, Edit.spliceAtTail block scratch program = .ok () final ∧ final.WellLinked ∧
      program.Relinks
        (fun id ↦ if id = block then (program.kind id).mapMembers (· ++ members)
          else if id = scratch then .plain [] else program.kind id)
        (fun id ↦ if id ∈ members then some block else program.parent id) final :=
  @exists_splice_of_between program block scratch members h hscratch hne hblock (.tail block)
    (· ++ members) (by rintro rfl; exact List.append_nil) rfl
    (by rintro _ _ _ ⟨rfl, rfl⟩; exact ⟨rfl, by simp⟩)

/-- Where the other statement is no block, the members of a scratch block cannot be moved. -/
theorem exists_failed_spliceAtHead (h : program.WellLinked)
    (hscratch : program.kind scratch = .plain members) (hmembers : members ≠ [])
    (hblock : (program.kind block).isBlock = false) :
    ∃ final, Edit.spliceAtHead block scratch program = .error (.notABlock block) final := by
  have hfault : (ForestEdit.splice (.head block) scratch).fault? program =
      some (.notABlock block) := by
    rw [ForestEdit.fault?, Program.blockBody_of_kind hscratch, if_neg hmembers, Spot.fault?,
      Program.blockFault?, Program.blockFault?, hscratch, hblock]
    rfl
  obtain ⟨final, hrun, -⟩ := exists_failed_splice h hfault
  exact ⟨final, hrun⟩

/-- The members of two scratch blocks are put around the members of another block. -/
theorem exists_wrap (h : program.WellLinked) {entry exit : StmtId} {first last : List StmtId}
    (hentry : program.kind entry = .plain first) (hexit : program.kind exit = .plain last)
    (hapart : entry ≠ exit) (hentryNe : entry ≠ block) (hexitNe : exit ≠ block)
    (hblock : (program.kind block).isBlock = true ∨ first = [] ∧ last = []) :
    ∃ middle final, Edit.spliceAtHead block entry program = .ok () middle ∧
      Edit.spliceAtTail block exit middle = .ok () final ∧ final.WellLinked ∧
      program.Relinks
        (fun id ↦ if id = block then (program.kind id).mapMembers (first ++ · ++ last)
          else if id = entry ∨ id = exit then .plain [] else program.kind id)
        (fun id ↦ if id ∈ first ++ last then some block else program.parent id) final := by
  obtain ⟨middle, hhead, hmiddle, hfirst⟩ :=
    exists_spliceAtHead h hentry hentryNe (hblock.imp_right And.left)
  have hexitMiddle : middle.kind exit = .plain last := by
    rw [hfirst.kind_eq (Program.has_of_kind_block hexit), if_neg hexitNe, if_neg hapart.symm, hexit]
  have hblockMiddle : (middle.kind block).isBlock = true ∨ last = [] := by
    refine hblock.imp (fun hisBlock ↦ ?_) And.right
    cases hkind : program.kind block with
    | action | branch => simp [hkind, StmtKind.isBlock] at hisBlock
    | block =>
      rw [hfirst.kind_eq (Program.has_of_kind_block hkind), if_pos rfl, hkind]
      rfl
  obtain ⟨final, htail, hfinal, hlast⟩ :=
    exists_spliceAtTail hmiddle hexitMiddle hexitNe hblockMiddle
  refine ⟨middle, final, hhead, htail, hfinal, (hfirst.trans hlast).congr (fun id hid ↦ ?_)
    fun id hid ↦ ?_⟩
  · rw [hfirst.kind_eq hid]
    by_cases heq : id = block
    · simp only [if_pos heq]
      cases program.kind id <;> rfl
    · simp only [if_neg heq]
      by_cases hentryEq : id = entry <;> by_cases hexitEq : id = exit <;> simp [hentryEq, hexitEq]
  · rw [hfirst.parent_eq hid]
    by_cases hlastMem : id ∈ last <;> by_cases hfirstMem : id ∈ first <;> simp [hlastMem, hfirstMem]

end Edit

end IteratorLowering
