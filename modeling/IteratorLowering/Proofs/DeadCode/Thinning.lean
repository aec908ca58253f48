import IteratorLowering.Proofs.Passes.Cleanups
import IteratorLowering.Proofs.Simulation.Rewriting

/-!
# What is left after removing dead code

`program.Thins dead gone final` says that `final` is what is left of `program` after statements were
taken out of their blocks that do nothing as long as the `dead` variables are not read, and after
assignments to such variables whose expressions have an effect were cut down to the expressions.
Both passes thin a program (`ensures_removeDeadRounds`, `ensures_removeDeadExpressions`), and when
they succeed, nothing is left that they could remove.

Every round of `removeDeadVariables` shortens the body of the function, so the bound on the number
of rounds never cuts it off (`removeDeadRounds_eq`).
-/

set_option autoImplicit false
set_option relaxedAutoImplicit false

namespace IteratorLowering

namespace StmtKind

/-- Statements that do nothing if the dead variables are not read. -/
inductive Droppable (dead : SymId → Prop) : StmtKind → Prop
  | define {symbol : SymId} (h : dead symbol) : Droppable dead (.action (.define symbol))
  | assign {target : SymId} {value : Expr} (h : dead target) (hpure : value.isPure = true) :
      Droppable dead (.action (.assign target value))
  | evaluate {value : Expr} (hpure : value.isPure = true) :
      Droppable dead (.action (.evaluate value))
  | noop : Droppable dead (.action .noop)

/-- A statement and what is left of it. -/
inductive Thinned (dead : SymId → Prop) (gone : List StmtId) : StmtKind → StmtKind → Prop
  | action (inner : Action) : Thinned dead gone (.action inner) (.action inner)
  | unread {target : SymId} {value : Expr} (h : dead target) (heffect : value.isPure = false) :
      Thinned dead gone (.action (.assign target value)) (.action (.evaluate value))
  | branch (condition : Operand) (thenBlock : StmtId) (elseBlock : Option StmtId) :
      Thinned dead gone (.branch condition thenBlock elseBlock)
        (.branch condition thenBlock elseBlock)
  | block (info : Option BlockInfo) {body body' : List StmtId}
      (h : body' = body.filter (· ∉ gone)) :
      Thinned dead gone (.block info body) (.block info body')

variable {dead dead' : SymId → Prop} {gone gone' : List StmtId} {kind kind' kind'' : StmtKind}

theorem Droppable.mono (hdead : ∀ symbol, dead symbol → dead' symbol) (h : Droppable dead kind) :
    Droppable dead' kind := by
  cases h with
  | define h => exact .define (hdead _ h)
  | assign h hpure => exact .assign (hdead _ h) hpure
  | evaluate hpure => exact .evaluate hpure
  | noop => exact .noop

namespace Thinned

theorem of_forall (h : ∀ child ∈ kind.children, child ∉ gone) : Thinned dead gone kind kind := by
  cases kind with
  | action inner => exact .action inner
  | branch condition thenBlock elseBlock => exact .branch condition thenBlock elseBlock
  | block info body =>
    exact .block info (List.filter_eq_self.mpr fun id hid ↦ decide_eq_true (h id hid)).symm

theorem mono (hdead : ∀ symbol, dead symbol → dead' symbol) (h : Thinned dead gone kind kind') :
    Thinned dead' gone kind kind' := by
  cases h with
  | action inner => exact .action inner
  | unread h heffect => exact .unread (hdead _ h) heffect
  | branch => exact .branch ..
  | block info h => exact .block info h

theorem trans (h : Thinned dead gone kind kind') (h' : Thinned dead gone' kind' kind'') :
    Thinned dead (gone ++ gone') kind kind'' := by
  cases h with
  | action inner =>
    cases h' with
    | action => exact .action inner
    | unread h heffect => exact .unread h heffect
  | unread h heffect => cases h'; exact .unread h heffect
  | branch => cases h'; exact .branch ..
  | block info h =>
    cases h' with
    | block _ h' =>
      refine .block info ?_
      rw [h', h, List.filter_filter]
      refine List.filter_congr fun id _ ↦ ?_
      simp [Bool.and_comm]

theorem defined? (h : Thinned dead gone kind kind') : kind'.defined? = kind.defined? := by
  cases h <;> rfl

theorem reads (h : Thinned dead gone kind kind') : kind'.reads = kind.reads := by
  cases h <;> rfl

theorem gotoTarget? (h : Thinned dead gone kind kind') : kind'.gotoTarget? = kind.gotoTarget? := by
  cases h <;> rfl

theorem children_subset (h : Thinned dead gone kind kind') : kind'.children ⊆ kind.children := by
  cases h with
  | block info h =>
    subst h
    exact List.filter_subset_self _
  | _ => exact List.Subset.refl _

theorem of_block {info : Option BlockInfo} {body' : List StmtId}
    (h : Thinned dead gone kind (.block info body')) :
    ∃ body, kind = .block info body ∧ body' ⊆ body := by
  cases h with
  | block _ h =>
    subst h
    exact ⟨_, rfl, List.filter_subset_self _⟩

theorem not_mem_children {info : Option BlockInfo} {body : List StmtId} {id : StmtId}
    (h : Thinned dead gone (.block info body) kind') (hid : id ∈ gone) : id ∉ kind'.children := by
  cases h with
  | block _ h =>
    subst h
    exact fun hmem ↦ of_decide_eq_true (List.mem_filter.mp hmem).2 hid

/-- What does nothing afterwards did nothing before. -/
theorem droppable (h : Thinned dead gone kind kind') (h' : Droppable dead kind') :
    Droppable dead kind := by
  cases h with
  | unread _ heffect =>
    cases h' with
    | evaluate hpure => rw [heffect] at hpure; cases hpure
  | action => exact h'
  | branch => exact h'
  | block => cases h'

end Thinned

end StmtKind

namespace Program

/-- What is left of a program after dead code was removed. -/
structure Thins (dead : SymId → Prop) (gone : List StmtId) (program program' : Program) : Prop where
  tables : program' = { program with statements := program'.statements }
  kind : ∀ id, (program.kind id).Thinned dead gone (program'.kind id)
  droppable : ∀ id ∈ gone, (program.kind id).Droppable dead
  member : ∀ id ∈ gone, ∃ block info body, program.kind block = .block info body ∧ id ∈ body

variable {dead dead' : SymId → Prop} {gone gone' : List StmtId}
variable {program program' program'' : Program}

namespace Thins

theorem refl (dead : SymId → Prop) (program : Program) : program.Thins dead [] program where
  tables := rfl
  kind _ := .of_forall fun _ _ ↦ List.not_mem_nil
  droppable _ h := nomatch h
  member _ h := nomatch h

theorem mono (hdead : ∀ symbol, dead symbol → dead' symbol) (h : program.Thins dead gone program') :
    program.Thins dead' gone program' where
  tables := h.tables
  kind id := (h.kind id).mono hdead
  droppable id hid := (h.droppable id hid).mono hdead
  member := h.member

theorem trans (h : program.Thins dead gone program') (h' : program'.Thins dead gone' program'') :
    program.Thins dead (gone ++ gone') program'' where
  tables := by rw [h'.tables, h.tables]
  kind id := (h.kind id).trans (h'.kind id)
  droppable id hid := by
    rcases List.mem_append.mp hid with hid | hid
    · exact h.droppable id hid
    · exact (h.kind id).droppable (h'.droppable id hid)
  member id hid := by
    rcases List.mem_append.mp hid with hid | hid
    · exact h.member id hid
    · obtain ⟨block, info, body', hblock, hbody⟩ := h'.member id hid
      obtain ⟨body, hkind, hsubset⟩ := (hblock ▸ h.kind block).of_block
      exact ⟨block, info, body, hkind, hsubset hbody⟩

/-- A statement that does nothing is taken out of its block. -/
theorem remove (hlinked : program.WellLinked) {block id : StmtId} {info : Option BlockInfo}
    {before after : List StmtId} (hkind : program.kind block = .block info (before ++ id :: after))
    (hdrop : (program.kind id).Droppable dead) :
    program.Thins dead [id]
      ((program.setKind block (.block info (before ++ after))).setParent id none) where
  tables := rfl
  kind other := by
    rw [kind_setParent, kind_setKind]
    have hchild : id ∈ (program.kind block).children := by
      rw [hkind]
      exact List.mem_append_right _ List.mem_cons_self
    split
    · rename_i hother
      obtain ⟨rfl, -⟩ := hother
      have hnodup := hlinked.nodup_children other
      rw [hkind] at hnodup
      obtain ⟨hnot, -⟩ := List.nodup_cons.mp (List.perm_middle.nodup_iff.mp hnodup)
      rw [hkind]
      refine .block info ?_
      rw [List.filter_append, List.filter_cons_of_neg (by simp), ← List.filter_append]
      refine (List.filter_eq_self.mpr fun member hmember ↦ ?_).symm
      refine decide_eq_true fun hmem ↦ hnot ?_
      rwa [← List.mem_singleton.mp hmem]
    · rename_i hother
      refine .of_forall fun child hmember hmem ↦ hother ⟨?_, has_of_kind_block hkind⟩
      rw [List.mem_singleton.mp hmem] at hmember
      exact hlinked.eq_of_child hmember hchild
  droppable other hother := by rwa [List.mem_singleton.mp hother]
  member other hother := by
    rw [List.mem_singleton.mp hother]
    exact ⟨block, info, _, hkind, List.mem_append_right _ List.mem_cons_self⟩

/-- An assignment to a dead variable is cut down to its expression. -/
theorem evaluate {id : StmtId} {target : SymId} {value : Expr}
    (hkind : program.kind id = .action (.assign target value)) (hdead : dead target)
    (heffect : value.isPure = false) :
    program.Thins dead [] (program.setKind id (.action (.evaluate value))) where
  tables := rfl
  kind other := by
    rw [kind_setKind]
    split
    · rename_i hother
      obtain ⟨rfl, -⟩ := hother
      rw [hkind]
      exact .unread hdead heffect
    · exact .of_forall fun _ _ ↦ List.not_mem_nil
  droppable _ h := nomatch h
  member _ h := nomatch h

theorem function (h : program.Thins dead gone program') (id : FnId) :
    program'.function id = program.function id := by
  rw [h.tables]
  rfl

theorem symbol (h : program.Thins dead gone program') (id : SymId) :
    program'.symbol id = program.symbol id := by
  rw [h.tables]
  rfl

theorem hasFunction (h : program.Thins dead gone program') (id : FnId) :
    program'.HasFunction id ↔ program.HasFunction id := by
  rw [h.tables]
  rfl

section

variable (h : program.Thins dead gone program') (hlinked : program.WellLinked)
variable (hlinked' : program'.WellLinked)

include h hlinked hlinked'

/-- What stands in a function afterwards stood there before. -/
theorem standsIn {function : FnId} {id : StmtId} (hid : program'.StandsIn function id) :
    program.StandsIn function id := by
  obtain ⟨root, hunder, hbody⟩ := hid
  refine ⟨root, Relation.ReflTransGen.mono (fun child parent hparent ↦ ?_) _ _ hunder, ?_⟩
  · exact hlinked.parent_of_child
      ((h.kind parent).children_subset (hlinked'.child_of_parent hparent))
  · obtain ⟨hfunction, hroot⟩ := hlinked'.body_of_bodyOf hbody
    rw [← hroot, bodyOf, h.function]
    exact hlinked.bodyOf_body ((h.hasFunction function).mp hfunction)

theorem stands {id : StmtId} (hid : program'.Stands id) : program.Stands id := by
  obtain ⟨function, hfunction, hid⟩ := hid
  exact ⟨function, (h.hasFunction function).mp hfunction, h.standsIn hlinked hlinked' hid⟩

theorem functionStmts_subset {function : FnId} (hfunction : program.HasFunction function) :
    program'.functionStmts function ⊆ program.functionStmts function := fun _ hid ↦
  (hlinked.mem_functionStmts_iff hfunction).mpr (h.standsIn hlinked hlinked'
    ((hlinked'.mem_functionStmts_iff ((h.hasFunction function).mpr hfunction)).mp hid))

/-- What was taken out stands nowhere. -/
theorem not_standsIn {function : FnId} {id : StmtId} (hid : id ∈ gone) :
    ¬ program'.StandsIn function id := by
  obtain ⟨block, info, body, hblock, hbody⟩ := h.member id hid
  have hchild : id ∈ (program.kind block).children := by
    rw [hblock]
    exact hbody
  rintro ⟨root, hunder, howner⟩
  rcases hunder.cases_head with rfl | ⟨parent, hparent, -⟩
  · obtain ⟨hfunction, hroot⟩ := hlinked'.body_of_bodyOf howner
    have hnone := hlinked.parent_body ((h.hasFunction function).mp hfunction)
    rw [bodyOf, ← h.function, ← bodyOf, hroot, hlinked.parent_of_child hchild] at hnone
    cases hnone
  · -- Its parent would be the block that it was taken out of.
    have hmember := hlinked'.child_of_parent hparent
    obtain rfl := hlinked.eq_of_child ((h.kind parent).children_subset hmember) hchild
    exact (hblock ▸ h.kind parent).not_mem_children hid hmember

/-- Taking a statement out of a function shortens its body. -/
theorem length_functionStmts_lt {function : FnId} (hfunction : program.HasFunction function)
    {id : StmtId} (hid : id ∈ program.functionStmts function) (hgone : id ∈ gone) :
    (program'.functionStmts function).length < (program.functionStmts function).length := by
  have hfunction' := (h.hasFunction function).mpr hfunction
  have hnodup := (hlinked'.unfolds_walk (.root (hlinked'.parent_body hfunction'))
    (hlinked'.has_body hfunction')).2.1
  have hsubset : program'.functionStmts function ⊆ (program.functionStmts function).erase id :=
    fun other hother ↦ by
      refine (List.mem_erase_of_ne ?_).mpr
        (h.functionStmts_subset hlinked hlinked' hfunction hother)
      rintro rfl
      exact h.not_standsIn hlinked hlinked' hgone
        ((hlinked'.mem_functionStmts_iff hfunction').mp hother)
  have hle := (List.subperm_of_subset hnodup hsubset).length_le
  rw [List.length_erase_of_mem hid] at hle
  have := List.length_pos_of_mem hid
  unfold functionStmts at *
  omega

theorem declares {function : FnId} (hfunction : program.HasFunction function) {symbol : SymId}
    (hsymbol : program'.DeclaresIn function symbol) : program.DeclaresIn function symbol := by
  obtain ⟨id, hid, hdefined⟩ := hsymbol
  exact ⟨id, h.functionStmts_subset hlinked hlinked' hfunction hid,
    (h.kind id).defined?.symm.trans hdefined⟩

end

end Thins

theorem mem_unreadLocals {function : FnId} {symbol : SymId} :
    symbol ∈ program.unreadLocals function ↔ program.DeclaresIn function symbol ∧
      (program.symbol symbol).kind = .var ∧ symbol ∉ (program.function function).retSym ∧
        ∀ id ∈ program.functionStmts function, symbol ∉ (program.kind id).reads := by
  simp only [unreadLocals, List.mem_eraseDups, List.mem_filter, List.mem_filterMap, DeclaresIn,
    Bool.and_eq_true, Bool.not_eq_true', beq_iff_eq, bne_iff_ne, List.contains_eq_mem,
    decide_eq_false_iff_not, List.mem_flatMap, not_exists, not_and, Option.mem_def, and_assoc,
    ne_eq, eq_comm (a := some symbol)]

end Program

/-! ### The passes -/

variable {dead : List SymId} {program : Program} {function : FnId}

/-- A statement that does nothing may be removed. -/
theorem ensures_removeDroppable {dead : SymId → Prop} (hlinked : program.WellLinked) {id : StmtId}
    (hdrop : (program.kind id).Droppable dead) :
    Ensures (liftM (Edit.remove id) : Pass PUnit) program (fun _ ↦ True) fun _ final ↦
      program.Thins dead [id] final ∧ final.WellLinked := by
  exact Ensures.edit (Edit.ensures_remove_of_listed trivial fun hkind _ ↦
    ⟨trivial, .remove hlinked hkind hdrop, hlinked.detach hkind⟩)

/-- What is left after the uses of dead variables in some statements were removed. -/
theorem ensures_removeDeadUse (hlinked : program.WellLinked) {id : StmtId} :
    Ensures (removeDeadUse dead id) program (fun _ ↦ True) fun _ final ↦
      ∃ gone, program.Thins (· ∈ dead) gone final ∧ final.WellLinked ∧
        ∀ symbol ∈ dead, (program.kind id).defined? = some symbol → id ∈ gone := by
  have hkept (hnone : ∀ symbol ∈ dead, (program.kind id).defined? ≠ some symbol) :
      ∃ gone, program.Thins (· ∈ dead) gone program ∧ program.WellLinked ∧
        ∀ symbol ∈ dead, (program.kind id).defined? = some symbol → id ∈ gone :=
    ⟨[], .refl _ program, hlinked, fun symbol hsymbol h ↦ absurd h (hnone symbol hsymbol)⟩
  unfold removeDeadUse
  rw [ensures_get_bind]
  split
  · rename_i symbol hkind
    refine ensures_ite (fun hdead ↦ ?_) fun hdead ↦ .pure trivial (hkept fun other hother h ↦ ?_)
    · have hdrop : (program.kind id).Droppable (· ∈ dead) :=
        hkind ▸ .define (List.contains_iff_mem.mp hdead)
      exact (ensures_removeDroppable hlinked hdrop).mono (fun _ h ↦ h) fun _ final _ hfinal ↦
        ⟨[id], hfinal.1, hfinal.2, fun _ _ _ ↦ List.mem_singleton_self id⟩
    · rw [hkind] at h
      cases h
      exact hdead (List.contains_iff_mem.mpr hother)
  · rename_i target value hkind
    refine ensures_ite (fun hdead ↦ ?_) fun _ ↦ .pure trivial (hkept fun _ _ h ↦ ?_)
    · have htarget := List.contains_iff_mem.mp hdead
      refine ensures_ite (fun hpure ↦ ?_) fun heffect ↦ ?_
      · have hdrop : (program.kind id).Droppable (· ∈ dead) := hkind ▸ .assign htarget hpure
        exact (ensures_removeDroppable hlinked hdrop).mono (fun _ h ↦ h) fun _ final _ hfinal ↦
          ⟨[id], hfinal.1, hfinal.2, fun _ _ _ ↦ List.mem_singleton_self id⟩
      · rw [ensures_modify]
        refine ⟨trivial, [], .evaluate hkind htarget (Bool.eq_false_iff.mpr heffect), ?_,
          fun _ _ h ↦ by rw [hkind] at h; cases h⟩
        refine hlinked.congr (fun other ↦ ?_) (fun _ ↦ Program.parent_setKind ..)
          (fun _ ↦ Program.owner_setKind ..) rfl
        rw [Program.kind_setKind]
        split
        · rename_i hother
          rw [hother.1, hkind]
          rfl
        · rfl
    · rw [hkind] at h
      cases h
  · rename_i hdefine _
    refine .pure trivial (hkept fun symbol _ h ↦ ?_)
    cases hkind : program.kind id with
    | action inner =>
      rw [hkind] at h
      cases inner with
      | define other => exact hdefine other hkind
      | _ => cases h
    | branch | block =>
      rw [hkind] at h
      cases h

theorem ensures_removeDeadUses {ids : List StmtId} (hlinked : program.WellLinked) :
    Ensures (ids.forM (removeDeadUse dead)) program (fun _ ↦ True) fun _ final ↦
      ∃ gone, program.Thins (· ∈ dead) gone final ∧ final.WellLinked ∧
        ∀ id ∈ ids, ∀ symbol ∈ dead, (program.kind id).defined? = some symbol → id ∈ gone := by
  induction ids generalizing program with
  | nil => exact .pure trivial ⟨[], .refl _ program, hlinked, nofun⟩
  | cons id rest ih =>
    refine (ensures_removeDeadUse hlinked).bind fun _ middle _ ⟨gone, hthins, hmiddle, hid⟩ ↦ ?_
    refine (ih hmiddle).mono (fun _ h ↦ h) fun _ final _ ⟨gone', hthins', hfinal, hrest⟩ ↦ ?_
    refine ⟨gone ++ gone', hthins.trans hthins', hfinal, fun other hother symbol hsymbol h ↦ ?_⟩
    rcases List.mem_cons.mp hother with rfl | hother
    · exact List.mem_append_left _ (hid symbol hsymbol h)
    · refine List.mem_append_right _ (hrest other hother symbol hsymbol ?_)
      rw [(hthins.kind other).defined?, h]

/-- What a round of removing dead variables leaves. -/
theorem ensures_removeDeadRound (hlinked : program.WellLinked)
    (hfunction : program.HasFunction function) (hdead : program.unreadLocals function ≠ []) :
    Ensures ((program.functionStmts function).forM
        (removeDeadUse (program.unreadLocals function))) program (fun _ ↦ True) fun _ final ↦
      ∃ gone, program.Thins (· ∈ program.unreadLocals function) gone final ∧ final.WellLinked ∧
        (final.functionStmts function).length < (program.functionStmts function).length := by
  refine (ensures_removeDeadUses hlinked).mono (fun _ h ↦ h)
    fun _ final _ ⟨gone, hthins, hfinal, hgone⟩ ↦ ⟨gone, hthins, hfinal, ?_⟩
  obtain ⟨symbol, hsymbol⟩ := List.exists_mem_of_ne_nil _ hdead
  obtain ⟨⟨id, hid, hdefined⟩, -⟩ := Program.mem_unreadLocals.mp hsymbol
  exact hthins.length_functionStmts_lt hlinked hfinal hfunction hid
    (hgone id hid symbol hsymbol hdefined)

namespace Program

/-- The dead variables are local variables of the function, are not its result, and are read
nowhere in what is left of it. -/
structure DeadIn (dead : SymId → Prop) (function : FnId) (program final : Program) : Prop where
  declared : ∀ {symbol}, dead symbol → program.DeclaresIn function symbol
  isVar : ∀ {symbol}, dead symbol → (program.symbol symbol).kind = .var
  not_retSym : ∀ {symbol}, dead symbol → symbol ∉ (program.function function).retSym
  unread : ∀ {symbol}, dead symbol → ∀ id ∈ final.functionStmts function,
    symbol ∉ (final.kind id).reads

end Program

/-- With enough rounds, every variable is read in what is left. -/
theorem ensures_removeDeadRounds (hlinked : program.WellLinked)
    (hfunction : program.HasFunction function) {rounds count : Nat}
    (hrounds : (program.functionStmts function).length < rounds) :
    Ensures (removeDeadRounds function rounds count) program (fun _ ↦ True) fun _ final ↦
      ∃ dead gone, program.Thins dead gone final ∧ final.WellLinked ∧
        program.DeadIn dead function final ∧ final.unreadLocals function = [] := by
  induction rounds generalizing program count with
  | zero => cases hrounds
  | succ rounds ih =>
    unfold removeDeadRounds
    rw [ensures_get_bind]
    dsimp only
    split
    · rename_i hnone
      exact .pure trivial ⟨fun _ ↦ False, [], .refl _ program, hlinked,
        ⟨False.elim, False.elim, False.elim, False.elim⟩, List.isEmpty_iff.mp hnone⟩
    · rename_i hsome
      refine (ensures_removeDeadRound hlinked hfunction fun h ↦ hsome (List.isEmpty_iff.mpr h)).bind
        ?_
      rintro _ middle - ⟨gone, hthins, hmiddle, hlt⟩
      have hfunction' := (hthins.hasFunction function).mpr hfunction
      refine (ih hmiddle hfunction' (by omega)).mono (fun _ h ↦ h) ?_
      rintro _ final - ⟨dead, gone', hthins', hfinal, hdead, hnone⟩
      refine ⟨fun symbol ↦ symbol ∈ program.unreadLocals function ∨ dead symbol, gone ++ gone',
        (hthins.mono fun _ ↦ .inl).trans (hthins'.mono fun _ ↦ .inr), hfinal, ?_, hnone⟩
      constructor
      · rintro symbol (hsymbol | hsymbol)
        · exact (Program.mem_unreadLocals.mp hsymbol).1
        · exact hthins.declares hlinked hmiddle hfunction (hdead.declared hsymbol)
      · rintro symbol (hsymbol | hsymbol)
        · exact (Program.mem_unreadLocals.mp hsymbol).2.1
        · exact hthins.symbol symbol ▸ hdead.isVar hsymbol
      · rintro symbol (hsymbol | hsymbol)
        · exact (Program.mem_unreadLocals.mp hsymbol).2.2.1
        · exact hthins.function function ▸ hdead.not_retSym hsymbol
      · rintro symbol (hsymbol | hsymbol) id hid
        · -- The later rounds read nothing that was not read before.
          rw [(hthins'.kind id).reads, (hthins.kind id).reads]
          exact (Program.mem_unreadLocals.mp hsymbol).2.2.2 id
            (hthins.functionStmts_subset hlinked hmiddle hfunction
              (hthins'.functionStmts_subset hmiddle hfinal hfunction' hid))
        · exact hdead.unread hsymbol id hid

/-- More rounds than there are statements in the function make no difference. -/
theorem removeDeadRounds_eq (hlinked : program.WellLinked)
    (hfunction : program.HasFunction function) {rounds rounds' count : Nat}
    (hrounds : (program.functionStmts function).length < rounds)
    (hrounds' : (program.functionStmts function).length < rounds') :
    removeDeadRounds function rounds count program =
      removeDeadRounds function rounds' count program := by
  induction rounds generalizing program rounds' count with
  | zero => cases hrounds
  | succ rounds ih =>
    obtain ⟨rounds', rfl⟩ : ∃ less, rounds' = less + 1 := ⟨rounds' - 1, by omega⟩
    by_cases hnone : program.unreadLocals function = []
    · change (if (program.unreadLocals function).isEmpty then _ else _ : Pass Nat) program =
        (if (program.unreadLocals function).isEmpty then _ else _ : Pass Nat) program
      rw [if_pos (List.isEmpty_iff.mpr hnone), if_pos (List.isEmpty_iff.mpr hnone)]
    · have hround := ensures_removeDeadRound hlinked hfunction hnone
      change (if (program.unreadLocals function).isEmpty then _ else _ : Pass Nat) program =
        (if (program.unreadLocals function).isEmpty then _ else _ : Pass Nat) program
      rw [if_neg fun h ↦ hnone (List.isEmpty_iff.mp h),
        if_neg fun h ↦ hnone (List.isEmpty_iff.mp h)]
      change EStateM.bind _ _ _ = EStateM.bind _ _ _
      unfold EStateM.bind
      cases hrun : (program.functionStmts function).forM
        (removeDeadUse (program.unreadLocals function)) program with
      | error => rfl
      | ok value middle =>
        obtain ⟨-, gone, hthins, hmiddle, hlt⟩ := hround.of_eq_ok hrun
        exact ih hmiddle ((hthins.hasFunction function).mpr hfunction) (by omega) (by omega)

/-- What is left when all statements were looked at that do nothing by themselves. -/
theorem ensures_removeIdle {ids : List StmtId} {count : Nat} (hlinked : program.WellLinked) :
    Ensures (ids.foldlM (removeIf Program.isIdle) count) program (fun _ ↦ True) fun _ final ↦
      ∃ gone, program.Thins (fun _ ↦ False) gone final ∧ final.WellLinked ∧
        ∀ id ∈ ids, program.isIdle id = true → id ∈ gone := by
  induction ids generalizing program count with
  | nil => exact .pure trivial ⟨[], .refl _ program, hlinked, nofun⟩
  | cons id rest ih =>
    rw [List.foldlM_cons]
    have hstep : Ensures (removeIf Program.isIdle count id) program (fun _ ↦ True) fun _ final ↦
        ∃ gone, program.Thins (fun _ ↦ False) gone final ∧ final.WellLinked ∧
          (program.isIdle id = true → id ∈ gone) := by
      unfold removeIf
      rw [ensures_get_bind]
      refine ensures_ite (fun hidle ↦ ?_) fun hidle ↦
        .pure trivial ⟨[], .refl _ program, hlinked, fun h ↦ absurd h hidle⟩
      have hdrop : (program.kind id).Droppable fun _ ↦ False := by
        unfold Program.isIdle at hidle
        split at hidle
        · rename_i hkind
          exact hkind ▸ .evaluate hidle
        · rename_i hkind
          exact hkind ▸ .noop
        · cases hidle
      exact (ensures_removeDroppable hlinked hdrop).bind fun _ final _ hfinal ↦ .pure trivial
        ⟨[id], hfinal.1, hfinal.2, fun _ ↦ List.mem_singleton_self id⟩
    refine hstep.bind fun count' middle _ ⟨gone, hthins, hmiddle, hid⟩ ↦ ?_
    refine (ih hmiddle).mono (fun _ h ↦ h) fun _ final _ ⟨gone', hthins', hfinal, hrest⟩ ↦ ?_
    refine ⟨gone ++ gone', hthins.trans hthins', hfinal, fun other hother h ↦ ?_⟩
    rcases List.mem_cons.mp hother with rfl | hother
    · exact List.mem_append_left _ (hid h)
    · refine List.mem_append_right _ (hrest other hother ?_)
      have hkind := hthins.kind other
      unfold Program.isIdle at h ⊢
      revert hkind h
      generalize program.kind other = kind, middle.kind other = kind'
      intro h hkind
      cases hkind with
      | action => exact h
      | _ => cases h

theorem ensures_removeDeadExpressions (hlinked : program.WellLinked)
    (hfunction : program.HasFunction function) :
    Ensures (removeDeadExpressions function) program (fun _ ↦ True) fun _ final ↦
      ∃ gone, program.Thins (fun _ ↦ False) gone final ∧ final.WellLinked ∧
        ∀ id ∈ final.functionStmts function, final.isIdle id = false := by
  unfold removeDeadExpressions
  rw [ensures_get_bind]
  refine (ensures_removeIdle hlinked).mono (fun _ h ↦ h)
    fun _ final _ ⟨gone, hthins, hfinal, hgone⟩ ↦ ⟨gone, hthins, hfinal, fun id hid ↦ ?_⟩
  refine Bool.eq_false_iff.mpr fun hidle ↦ ?_
  refine hthins.not_standsIn hlinked hfinal (hgone id ?_ ?_)
    ((hfinal.mem_functionStmts_iff ((hthins.hasFunction function).mpr hfunction)).mp hid)
  · exact hthins.functionStmts_subset hlinked hfinal hfunction hid
  · have hkind := hthins.kind id
    unfold Program.isIdle at hidle ⊢
    revert hkind hidle
    generalize program.kind id = kind, final.kind id = kind'
    intro hidle hkind
    cases hkind with
    | action => exact hidle
    | unread hfalse => exact hfalse.elim
    | _ => cases hidle

end IteratorLowering
