import IteratorLowering.Proofs.Passes.Inlining
import IteratorLowering.Simplify.Confined
import IteratorLowering.Simplify.Iterator
import Mathlib.Data.Option.Basic

/-!
# Cleanups within a scope

Removing jumps and dead code takes out actions, and forwarding copies renames symbols that no
loop header mentions, so every scope allows them. Only two cleanups move other statements:
breaking up confined regions, and collapsing blocks, which puts the members of a plain block in
its place (`ensures_collapseBlock`).
-/

set_option autoImplicit false
set_option relaxedAutoImplicit false

namespace IteratorLowering

variable {scope : Scope} {program : Program}

/-! ### Removing actions -/

theorem stays_removeAction {id : StmtId} (h : (program.kind id).isAction = true) :
    Stays scope program (liftM (Edit.remove id) : Pass PUnit) :=
  (Edit.ensures_remove (.inr h)).stays.edit

theorem stays_removeIf {removable : Program → StmtId → Bool} {count : Nat} {id : StmtId}
    (h : removable program id = true → (program.kind id).isAction = true) :
    Stays scope program (removeIf removable count id) := by
  unfold removeIf
  refine ensures_get_bind.mpr ?_
  split
  · rename_i hremovable
    exact Ensures.seq (stays_removeAction (h hremovable)) fun _ _ _ _ ↦ .stay trivial
  · exact .stay trivial

namespace Program

theorem isAction_of_isFallThrough {id : StmtId} (h : program.isFallThrough id = true) :
    (program.kind id).isAction = true := by
  unfold isFallThrough at h
  cases hkind : program.kind id with
  | action => rfl
  | branch | block => simp [hkind, StmtKind.gotoTarget?] at h

theorem isAction_of_isIdleLabel {targets : List SymId} {id : StmtId}
    (h : program.isIdleLabel targets id = true) : (program.kind id).isAction = true := by
  unfold isIdleLabel at h
  cases hkind : program.kind id with
  | action => rfl
  | branch | block => simp [hkind, StmtKind.defined?] at h

theorem isAction_of_isIdle {id : StmtId} (h : program.isIdle id = true) :
    (program.kind id).isAction = true := by
  unfold isIdle at h
  cases hkind : program.kind id with
  | action => rfl
  | branch | block => simp [hkind] at h

end Program

theorem stays_removeGotos {function : FnId} : Stays scope program (removeGotos function) := by
  unfold removeGotos
  refine ensures_get_bind.mpr ?_
  refine Ensures.seq (.foldlM fun _ _ _ _ _ ↦
    stays_removeIf Program.isAction_of_isFallThrough) fun jumps _ _ _ ↦ ?_
  exact ensures_get_bind.mpr (.foldlM fun _ _ _ _ _ ↦
    stays_removeIf Program.isAction_of_isIdleLabel)

theorem stays_removeDeadUse {dead : List SymId} {id : StmtId} :
    Stays scope program (removeDeadUse dead id) := by
  unfold removeDeadUse
  refine ensures_get_bind.mpr ?_
  split
  · rename_i symbol hkind
    split
    · exact stays_removeAction (by rw [hkind]; rfl)
    · exact .stay trivial
  · rename_i target value hkind
    split
    · split
      · exact stays_removeAction (by rw [hkind]; rfl)
      · exact stays_modify (.setAction (by rw [hkind]; rfl) _)
    · exact .stay trivial
  · exact .stay trivial

theorem stays_removeDeadRounds {function : FnId} {rounds count : Nat} :
    Stays scope program (removeDeadRounds function rounds count) := by
  induction rounds generalizing program count with
  | zero => exact .stay trivial
  | succ rounds ih =>
    unfold removeDeadRounds
    refine ensures_get_bind.mpr ?_
    dsimp only
    split
    · exact .stay trivial
    · exact Ensures.seq (.forM fun _ _ _ _ ↦ stays_removeDeadUse) fun _ _ _ _ ↦ ih

theorem stays_removeDeadVariables {function : FnId} :
    Stays scope program (removeDeadVariables function) :=
  ensures_get_bind.mpr stays_removeDeadRounds

theorem stays_removeDeadExpressions {function : FnId} :
    Stays scope program (removeDeadExpressions function) :=
  ensures_get_bind.mpr (.foldlM fun _ _ _ _ _ ↦ stays_removeIf Program.isAction_of_isIdle)

/-! ### Forwarding copies -/

namespace StmtKind

theorem loopHeader?_mapSymbols (f : SymId → SymId) (kind : StmtKind) :
    (kind.mapSymbols f).loopHeader? = kind.loopHeader?.map (List.map (Operand.mapSymbols f)) := by
  cases kind with
  | action | branch => rfl
  | block info body => rcases info with _ | ⟨_ | _ | _ | _ | _⟩ <;> rfl

/-- A symbol that the header of a loop does not mention may be replaced. -/
theorem loopHeader?_mapSymbols_of_not_mem {kind : StmtKind} {old new : SymId}
    (h : ∀ header, kind.loopHeader? = some header → old ∉ operandSymbols header) :
    (kind.mapSymbols fun symbol ↦ if symbol = old then new else symbol).loopHeader? =
      kind.loopHeader? := by
  rw [loopHeader?_mapSymbols]
  cases hheader : kind.loopHeader? with
  | none => rfl
  | some header =>
    have hsame : ∀ operand ∈ header,
        operand.mapSymbols (fun symbol ↦ if symbol = old then new else symbol) = operand := by
      intro operand hoperand
      cases operand with
      | lit => rfl
      | sym symbol =>
        have hne : symbol ≠ old := by
          rintro rfl
          exact h header hheader (List.mem_flatMap.mpr ⟨_, hoperand, List.mem_singleton_self _⟩)
        rw [Operand.mapSymbols, if_neg hne]
    rw [Option.map_some, List.map_congr_left hsame, List.map_id']

/-- The symbols of a loop header are pinned. -/
theorem pinned_of_loopHeader? {kind : StmtKind} {header : List Operand}
    (h : kind.loopHeader? = some header) : kind.pinned = operandSymbols header := by
  unfold loopHeader? at h
  split at h
  · cases h
    rfl
  · cases h

end StmtKind

namespace Program

/-- What stays the same where copies are forwarded: the children of statements, the headers of
loops, and the bodies of functions. -/
structure SameShape (program program' : Program) : Prop where
  children : ∀ id, (program'.kind id).children = (program.kind id).children
  header : ∀ id, (program'.kind id).loopHeader? = (program.kind id).loopHeader?
  size : program'.statements.size = program.statements.size
  body : ∀ function, program'.bodyOf function = program.bodyOf function

namespace SameShape

variable {program' program'' : Program}

theorem refl (program : Program) : program.SameShape program :=
  ⟨fun _ ↦ rfl, fun _ ↦ rfl, rfl, fun _ ↦ rfl⟩

theorem trans (first : program.SameShape program') (second : program'.SameShape program'') :
    program.SameShape program'' :=
  ⟨fun id ↦ (second.children id).trans (first.children id),
    fun id ↦ (second.header id).trans (first.header id), second.size.trans first.size,
    fun function ↦ (second.body function).trans (first.body function)⟩

theorem walk (h : program.SameShape program') (root : StmtId) :
    program'.walk root = program.walk root :=
  walk_congr h.children h.size root

end SameShape

/-- Replacing a symbol of one statement keeps the shape if no header mentions it. -/
theorem reworks_mapSymbols (id : StmtId) {old new : SymId}
    (h : ∀ header, (program.kind id).loopHeader? = some header → old ∉ operandSymbols header) :
    program.Reworks scope (program.setKind id ((program.kind id).mapSymbols
        fun symbol ↦ if symbol = old then new else symbol)) ∧
      program.SameShape (program.setKind id ((program.kind id).mapSymbols
        fun symbol ↦ if symbol = old then new else symbol)) := by
  have hheader := @StmtKind.loopHeader?_mapSymbols_of_not_mem (program.kind id) old new h
  refine ⟨.setKind id (StmtKind.children_mapSymbols ..) (StmtKind.isAction_mapSymbols ..)
    (.inl hheader), fun other ↦ ?_, fun other ↦ ?_, by simp [setKind, modifyStmt], fun _ ↦ rfl⟩
  · rw [kind_setKind]
    split
    · rename_i hother
      rw [hother.1, StmtKind.children_mapSymbols]
    · rfl
  · rw [kind_setKind]
    split
    · rename_i hother
      rw [hother.1, hheader]
    · rfl

theorem reworks_replaceSymbolIn {statements : List StmtId} {old new : SymId}
    (h : ∀ id ∈ statements, ∀ header, (program.kind id).loopHeader? = some header →
      old ∉ operandSymbols header) :
    program.Reworks scope (program.replaceSymbolIn statements old new) ∧
      program.SameShape (program.replaceSymbolIn statements old new) := by
  induction statements generalizing program with
  | nil => exact ⟨.refl scope program, .refl program⟩
  | cons first rest ih =>
    obtain ⟨hreworks, hshape⟩ :=
      @reworks_mapSymbols scope program first old new (h first List.mem_cons_self)
    have hrest := ih fun id hid header hheader ↦
      h id (List.mem_cons_of_mem _ hid) header ((hshape.header id).symm.trans hheader)
    exact ⟨hreworks.trans hrest.1, hshape.trans hrest.2⟩

theorem forwardingSites?_eq_some {uses : SymbolUses} {body copy : StmtId} {target source : SymId}
    {readers : List StmtId}
    (h : program.forwardingSites? uses body copy target source = some readers) :
    target ∉ uses.pinned ∧ readers = program.copyReaders body copy target := by
  obtain ⟨_, hforwardable, h⟩ := Option.bind_eq_some_iff.mp h
  obtain ⟨block, _, h⟩ := Option.bind_eq_some_iff.mp h
  obtain ⟨position, _, h⟩ := Option.bind_eq_some_iff.mp h
  obtain ⟨_, _, h⟩ := Option.bind_eq_some_iff.mp h
  obtain ⟨_, _, h⟩ := Option.bind_eq_some_iff.mp h
  rw [Option.guard_eq_some'] at hforwardable
  refine ⟨fun hmem ↦ ?_, (Option.some.inj h).symm⟩
  simp [isForwardable, hmem] at hforwardable

/-- Forwarding a copy replaces a symbol that was not pinned when the uses were gathered. -/
theorem reworks_forwardCopy {start : Program} {function : FnId} {count : Nat} {id : StmtId}
    (hshape : start.SameShape program) :
    program.Reworks scope
        (forwardCopy (start.symbolUses function) (start.bodyOf function) (count, program) id).2 ∧
      program.SameShape
        (forwardCopy (start.symbolUses function) (start.bodyOf function)
          (count, program) id).2 := by
  have hrefl : program.Reworks scope program ∧ program.SameShape program :=
    ⟨.refl scope program, .refl program⟩
  unfold forwardCopy
  dsimp only
  split
  · exact hrefl
  · rename_i target source hcopy
    split
    · exact hrefl
    · rename_i readers hreaders
      obtain ⟨hpinned, rfl⟩ := forwardingSites?_eq_some hreaders
      refine reworks_replaceSymbolIn fun reader hreader header hheader hmem ↦ hpinned ?_
      -- A reader whose header mentions the target was walked when the uses were gathered.
      have hwalk := (List.mem_filter.mp (List.mem_filter.mp hreader).1).1
      rw [hshape.walk] at hwalk
      have hstart := StmtKind.pinned_of_loopHeader? ((hshape.header reader).symm.trans hheader)
      exact List.mem_append_left _ (List.mem_flatMap.mpr ⟨reader, hwalk, hstart ▸ hmem⟩)

theorem reworks_forwardCopies (function : FnId) :
    program.Reworks scope (program.forwardCopies function).2 := by
  have hfold : ∀ (ids : List StmtId) (result : Nat × Program), program.SameShape result.2 →
      result.2.Reworks scope (ids.foldl
        (forwardCopy (program.symbolUses function) (program.bodyOf function)) result).2 := by
    intro ids
    induction ids with
    | nil => exact fun result _ ↦ .refl scope result.2
    | cons first rest ih =>
      intro result hshape
      obtain ⟨hreworks, hstep⟩ :=
        @reworks_forwardCopy scope result.2 program function result.1 first hshape
      exact hreworks.trans (ih _ (hshape.trans hstep))
  exact hfold _ (0, program) (.refl program)

end Program

/-! ### Collapsing blocks -/

/-- Members that are put before a statement get its parent. -/
theorem ensures_insertMembers {anchor : StmtId} {members : List StmtId}
    (hanchor : program.Has anchor) (hcompound : (program.kind anchor).isAction = false)
    (hmembers : ∀ member ∈ members, program.Has member ∧ (program.stmt member).bodyOf = none)
    (hnodup : members.Nodup) :
    Ensures (members.forM (Edit.insertBefore anchor)) program
      (program.Reworks (Scope.only members)) fun _ final ↦ ∀ member ∈ members, anchor ≠ member ∧
        ((program.kind member).isAction = false →
          final.parent member = program.parent anchor) := by
  induction members generalizing program with
  | nil => exact .stay nofun
  | cons new rest ih =>
    obtain ⟨hnew, hrest⟩ := List.nodup_cons.mp hnodup
    obtain ⟨hhas, howner⟩ := hmembers new List.mem_cons_self
    have hloose : program.Loose (Scope.only [new]) new :=
      ⟨hhas, howner, .inl (List.mem_singleton_self new)⟩
    refine Ensures.seq ((Edit.ensures_insertBefore hloose).within (Scope.only_le_only (by simp)))
      fun _ middle _ hinserted ↦ ?_
    obtain ⟨hstep, hne, block, hparent, hanchorParent⟩ := hinserted
    have hplace := (hstep.place hanchor hcompound fun h ↦ hne (List.mem_singleton.mp h)).1
    have hrestMembers : ∀ member ∈ rest,
        middle.Has member ∧ (middle.stmt member).bodyOf = none := fun member hmember ↦ by
      obtain ⟨hhas, howner⟩ := hmembers member (List.mem_cons_of_mem _ hmember)
      exact ⟨hstep.has hhas, hstep.ownerless id hhas howner⟩
    refine ((ih (hstep.has hanchor) ((hstep.isAction hanchor).trans hcompound) hrestMembers
      hrest).within (Scope.only_le_only (List.subset_cons_self ..))).mono (fun _ h ↦ h) ?_
    rintro _ final _ ⟨hafter, hfinal⟩ member hmember
    rcases List.mem_cons.mp hmember with rfl | hmember
    · refine ⟨hne, fun haction ↦ ?_⟩
      have hmiddle := (hstep.isAction hhas).trans haction
      rw [(hafter.place (hstep.has hhas) hmiddle hnew).1, hparent, ← hanchorParent, hplace]
    · obtain ⟨hneMember, hmoved⟩ := hfinal member hmember
      refine ⟨hneMember, fun haction ↦ ?_⟩
      have hhas := (hmembers member (List.mem_cons_of_mem _ hmember)).1
      rw [hmoved ((hstep.isAction hhas).trans haction), hplace]

/-- A program in which a plain block that stood in a block was replaced by its members. -/
structure Program.Collapsed (program : Program) (id : StmtId) (final : Program) : Prop where
  block : (program.kind id).children = program.blockBody id
  unmarked : (program.kind id).isForLoop = false
  inside : (program.parent id).isSome = true
  members : ∀ member ∈ program.blockBody id, (program.kind member).isAction = false →
    final.parent member = program.parent id
  detached : final.parent id = none ∧ (final.stmt id).bodyOf = none

theorem Program.eq_block_of_isCollapsible {id : StmtId} (h : program.isCollapsible id = true) :
    (∃ body, program.kind id = .block none body) ∧ (program.parent id).isSome = true := by
  unfold isCollapsible blockInfo? at h
  cases hkind : program.kind id with
  | action | branch => simp [hkind, StmtKind.isBlock] at h
  | block info body =>
    cases hparent : program.parent id with
    | none => simp [hparent] at h
    | some parent =>
      cases info with
      | some => simp [hkind, StmtKind.blockInfo?] at h
      | none => exact ⟨⟨body, rfl⟩, rfl⟩

/-- The members of a plain block take its place in the order they have. -/
theorem ensures_spliceOut {id : StmtId} (hlinked : program.WellLinked) (hhas : program.Has id)
    (hcompound : (program.kind id).isAction = false) :
    Ensures (Edit.spliceBefore id id) program (program.Reworks (Scope.only (program.blockBody id)))
      fun _ final ↦ ∀ member ∈ program.blockBody id, id ≠ member ∧
        ((program.kind member).isAction = false → final.parent member = program.parent id) := by
  unfold Edit.spliceBefore
  refine (Edit.ensures_takeBody hlinked fun _ ↦ .inl).seq fun members middle h hmembers ↦ ?_
  obtain ⟨rfl, hnodup, hloose⟩ := hmembers
  refine (ensures_insertMembers (h.has hhas) ((h.isAction hhas).trans hcompound)
    (fun member hmember ↦ ⟨(hloose member hmember).1.has, (hloose member hmember).1.owner⟩)
    hnodup).mono (fun _ h ↦ h) fun _ final _ hfinal member hmember ↦ ?_
  have hnot : id ∉ program.blockBody id := fun hself ↦ (hfinal id hself).1 rfl
  refine ⟨(hfinal member hmember).1, fun haction ↦ ?_⟩
  have hhasMember := hlinked.has_of_child (Program.mem_children_of_mem_blockBody hmember)
  rw [(hfinal member hmember).2 ((h.isAction hhasMember).trans haction),
    (h.place hhas hcompound hnot).1]

theorem ensures_collapseBlock {count : Nat} {id : StmtId} (hlinked : program.WellLinked) :
    Ensures (collapseBlock count id) program
      (program.Reworks (Scope.only (id :: program.blockBody id))) fun _ final ↦
        program.Collapsed id final ∨ final = program := by
  unfold collapseBlock
  refine ensures_get_bind.mpr ?_
  split
  · rename_i hcollapsible
    obtain ⟨⟨body, hkind⟩, hparent⟩ := Program.eq_block_of_isCollapsible hcollapsible
    have hhas := Program.has_of_kind_block hkind
    have hcompound : (program.kind id).isAction = false := by rw [hkind]; rfl
    refine Ensures.seq ((ensures_spliceOut hlinked hhas hcompound).within
      (Scope.only_le_only (List.subset_cons_self ..))).edit fun _ middle _ hspliced ↦ ?_
    obtain ⟨h, hmembers⟩ := hspliced
    have hremove : middle.Movable (Scope.only [id]) id := .inl (List.mem_singleton_self id)
    refine Ensures.seq ((Edit.ensures_remove hremove).within (Scope.only_le_only (by simp))).edit
      fun _ final _ hremoved ↦ .stay (.inl ?_)
    obtain ⟨hlast, -, hdetached, -, howner⟩ := hremoved
    refine ⟨by rw [Program.blockBody, hkind]; rfl, by rw [hkind]; rfl, hparent,
      fun member hmember haction ↦ ?_, hdetached, ?_⟩
    · obtain ⟨hne, hplaced⟩ := hmembers member hmember
      have hhasMember := hlinked.has_of_child (Program.mem_children_of_mem_blockBody hmember)
      have hmiddle := (h.isAction hhasMember).trans haction
      rw [(hlast.place (h.has hhasMember) hmiddle fun hmem ↦
        hne (List.mem_singleton.mp hmem).symm).1, hplaced haction]
    · obtain ⟨parent, hparent⟩ := Option.isSome_iff_exists.mp hparent
      rw [howner, h.ownerless not_false hhas (hlinked.ownerless_of_parent hparent)]
  · exact .stay (.inr rfl)

theorem stays_collapseBlocks {function : FnId} (hlinked : program.WellLinked) :
    Stays Scope.everything program (collapseBlocks function) := by
  refine ensures_get_bind.mpr
    ((Scope.Fits.everything hlinked).foldlM fun id _ count middle hfit ↦ ?_)
  exact ((ensures_collapseBlock hfit.wellLinked).within (Scope.only_le_everything _)).stays

/-! ### Confined regions -/

theorem stays_emitFragment {anchor : StmtId} {declarations members : List StmtId}
    (hfit : scope.Fits program)
    (hdeclarations : ∀ declaration ∈ declarations, program.Loose scope declaration)
    (hmembers : ∀ member ∈ members, program.Loose scope member) :
    Stays scope program (emitFragment anchor declarations members) := by
  unfold emitFragment
  refine ensures_get_bind.mpr ?_
  have hsofar := Program.Reworks.refl scope program
  refine hsofar.next
    (Edit.ensures_newStmt nofun .nil nofun (.inr (hfit.new program.not_has_nextStmt)))
    fun fragment _ hsofar hfragment ↦ ?_
  refine hsofar.next (Edit.ensures_insertBefore ⟨hfragment.1.has, hfragment.1.owner,
    hfragment.2.1⟩).edit fun _ _ hsofar _ ↦ ?_
  refine hsofar.next (.forM fun declaration hdeclaration middle h ↦ ?_) fun _ _ hsofar _ ↦ ?_
  · exact (Edit.ensures_insertBefore ((hsofar.trans h).loose hfit.calm
      (hdeclarations declaration hdeclaration))).stays.edit
  · exact .forM fun member hmember middle h ↦ (Edit.ensures_insertAtTail
      ((hsofar.trans h).loose hfit.calm (hmembers member hmember))).stays.edit

/-- Each run of members goes into a block of its own. -/
theorem stays_fragmentMembers {ids declarations members : List StmtId} (hfit : scope.Fits program)
    (hids : ∀ id ∈ ids, program.Loose scope id)
    (hdeclarations : ∀ declaration ∈ declarations, program.Loose scope declaration)
    (hmembers : ∀ member ∈ members, program.Loose scope member) :
    Stays scope program (fragmentMembers ids declarations members) := by
  induction ids generalizing program declarations members with
  | nil => exact .stay trivial
  | cons id rest ih =>
    have hid := hids id List.mem_cons_self
    have hrest := fun other hother ↦ hids other (List.mem_cons_of_mem id hother)
    -- A run is only ever continued by the statement at hand.
    have hadd : ∀ {run : List StmtId} (condition : Bool),
        (∀ other ∈ run, program.Loose scope other) →
        ∀ other ∈ if condition then run ++ [id] else run, program.Loose scope other := by
      intro run condition hrun other hother
      cases condition with
      | false => exact hrun other hother
      | true =>
        rcases List.mem_append.mp hother with hother | hother
        · exact hrun other hother
        · exact List.mem_singleton.mp hother ▸ hid
    unfold fragmentMembers
    refine ensures_get_bind.mpr ?_
    dsimp only
    refine ensures_ite (fun _ ↦ ?_) fun _ ↦ ih hfit hrest (hadd _ hdeclarations) (hadd _ hmembers)
    refine Ensures.seq (stays_emitFragment hfit (hadd _ hdeclarations) (hadd _ hmembers))
      fun _ middle h _ ↦ ?_
    exact ih (hfit.after h) (fun other hother ↦ h.loose hfit.calm (hrest other hother)) nofun nofun

theorem reworks_unmark (blocks : List StmtId) :
    program.Reworks Scope.everything
      (blocks.foldl (fun program block ↦ program.setBlockInfo block none) program) := by
  induction blocks generalizing program with
  | nil => exact .refl _ program
  | cons block rest ih => exact .trans (.setBlockInfo block rfl fun _ ↦ trivial) ih

theorem stays_fragmentConfined (hlinked : program.WellLinked) :
    Stays Scope.everything program fragmentConfined := by
  unfold fragmentConfined
  refine ensures_get_bind.mpr ?_
  dsimp only
  have hfit := Scope.Fits.everything hlinked
  refine hfit.seq (hfit.forM fun block _ middle hfit ↦ ?_) fun _ middle hfit ↦ ?_
  · refine ensures_get_bind.mpr (stays_fragmentMembers hfit (fun member hmember ↦ ?_) nofun nofun)
    exact hfit.loose_child trivial (Program.mem_children_of_mem_blockBody hmember)
  · refine Ensures.seq (stays_modify (reworks_unmark _)) fun _ _ _ _ ↦ .stay trivial

/-! ### The cleanups of an iterator -/

/-- What is done with an iterator after its blocks were collapsed is allowed by every scope. -/
theorem stays_tidyCollapsed {config : LoweringConfig} {function : FnId} :
    Stays scope program (do
      let _ ← removeGotos function
      if config.copyPropagation then
        modify fun program => (program.forwardCopies function).2
      if config.deadCodeElimination then
        let _ ← removeDeadVariables function
        let _ ← removeDeadExpressions function : Pass Unit) := by
  refine Ensures.seq stays_removeGotos fun _ middle _ _ ↦ ?_
  have hdead : ∀ middle : Program, Stays scope middle (do
      if config.deadCodeElimination then
        let _ ← removeDeadVariables function
        let _ ← removeDeadExpressions function : Pass Unit) := by
    intro middle
    split
    · exact Ensures.seq stays_removeDeadVariables fun _ _ _ _ ↦ stays_removeDeadExpressions.ignore
    · exact .stay trivial
  dsimp only
  split
  · exact Ensures.seq (stays_modify (Program.reworks_forwardCopies function)) fun _ _ _ _ ↦ hdead _
  · exact hdead middle

theorem stays_tidyIterator {config : LoweringConfig} {function : FnId}
    (hlinked : program.WellLinked) :
    Stays Scope.everything program (tidyIterator config function) :=
  Ensures.seq (stays_collapseBlocks hlinked) fun _ _ _ _ ↦ stays_tidyCollapsed

end IteratorLowering
