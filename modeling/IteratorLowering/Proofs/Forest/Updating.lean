import IteratorLowering.Proofs.Forest.Reworking

/-!
# Single updates within a scope

The lemmas here say which single updates of a program stay within a scope: a changed statement, a
statement put into a block or taken out of it, one statement in the place of another, a statement
that is made, and new symbols, types and functions.
-/

set_option autoImplicit false
set_option relaxedAutoImplicit false

namespace IteratorLowering

namespace Program

variable {scope : Scope} {program program' : Program}

namespace Reworks

/-! ### Statements -/

/-- An update that neither makes a statement nor changes what a statement is. -/
theorem of_statements {statements : Array Stmt} (hprogram : program' = { program with statements })
    (hlinked : program.WellLinked → program'.WellLinked)
    (hhas : ∀ id, program'.Has id ↔ program.Has id)
    (hkind : ∀ id, (program'.kind id).isAction = (program.kind id).isAction ∧
      ((program'.kind id).loopHeader? = (program.kind id).loopHeader? ∨ scope.marked id ∧
        ((program'.kind id).isForLoop = true → (program.kind id).isForLoop = true)))
    (howner : ∀ id, (program'.stmt id).bodyOf = (program.stmt id).bodyOf)
    (hparent : ∀ id, program'.parent id = program.parent id ∨ program.Movable scope id) :
    program.Reworks scope program' where
  wellLinked := hlinked
  has h := (hhas _).mpr h
  ownerless _ id _ h := (howner id).trans h
  body _ _ _ := by subst hprogram; rfl
  isAction {id} _ := (hkind id).1
  place {id} _ haction hmoved := by
    refine ⟨(hparent id).resolve_right ?_, howner id⟩
    rintro (h | h)
    · exact hmoved h
    · rw [haction] at h
      cases h
  header {id} _ hmarked := (hkind id).2.resolve_right fun h ↦ hmarked h.1
  isForLoop {id} _ hloop := by
    rcases (hkind id).2 with h | h
    · rwa [← StmtKind.isForLoop_congr h]
    · exact h.2 hloop
  no_loop _ id h := by
    rw [Program.kind, stmt_of_not_has fun hhas' ↦ h ((hhas id).mp hhas')]
    rfl
  grows := hprogram ▸ .of_statements program statements

/-- A statement may change as long as its children and its header stay. -/
theorem setKind (id : StmtId) {kind : StmtKind}
    (hchildren : kind.children = (program.kind id).children)
    (haction : kind.isAction = (program.kind id).isAction)
    (hheader : kind.loopHeader? = (program.kind id).loopHeader? ∨ scope.marked id ∧
      (kind.isForLoop = true → (program.kind id).isForLoop = true)) :
    program.Reworks scope (program.setKind id kind) := by
  refine of_statements rfl (fun h ↦ h.congr ?_ (parent_setKind _ _ · _) (owner_setKind _ _ · _) rfl)
    (has_setKind _ _ · _) (fun other ↦ ?_) (owner_setKind _ _ · _)
    (fun other ↦ .inl (parent_setKind ..))
  · intro other
    rw [kind_setKind]
    split
    · rename_i hother
      rw [hother.1, hchildren]
    · rfl
  · rw [kind_setKind]
    split
    · rename_i hother
      rw [hother.1]
      exact ⟨haction, hheader⟩
    · exact ⟨rfl, .inl rfl⟩

/-- An action may become any other action. -/
theorem setAction {id : StmtId} (h : (program.kind id).isAction = true)
    (action : Action) : program.Reworks scope (program.setKind id (.action action)) := by
  cases hkind : program.kind id with
  | action => exact .setKind id (hkind ▸ rfl) (hkind ▸ rfl) (.inl (hkind ▸ rfl))
  | branch | block => simp [hkind, StmtKind.isAction] at h

/-- The symbols of an action may be replaced, and those of a loop whose header may change. -/
theorem mapSymbols (id : StmtId) (f : SymId → SymId)
    (hmarked : (program.kind id).isForLoop = true → scope.marked id) :
    program.Reworks scope (program.setKind id ((program.kind id).mapSymbols f)) := by
  refine setKind id (StmtKind.children_mapSymbols ..) (StmtKind.isAction_mapSymbols ..) ?_
  have hsame := (program.kind id).isForLoop_mapSymbols f
  cases hloop : (program.kind id).isForLoop with
  | true => exact .inr ⟨hmarked hloop, fun _ ↦ rfl⟩
  | false =>
    rw [StmtKind.loopHeader?_eq_none hloop, StmtKind.loopHeader?_eq_none (hsame.trans hloop)]
    exact .inl rfl

/-- The symbols of a whole tree may be replaced if those of its loops may. -/
theorem mapSymbolsIn (root : StmtId) (f : SymId → SymId)
    (hmarked : ∀ id ∈ program.walk root, (program.kind id).isForLoop = true → scope.marked id) :
    program.Reworks scope (program.mapSymbolsIn root f) := by
  have hfold : ∀ (ids : List StmtId) (program : Program),
      (∀ id ∈ ids, (program.kind id).isForLoop = true → scope.marked id) →
      program.Reworks scope (ids.foldl
        (fun program id ↦ program.setKind id ((program.kind id).mapSymbols f)) program) := by
    intro ids
    induction ids with
    | nil => exact fun program _ ↦ .refl scope program
    | cons first rest ih =>
      intro program hids
      refine (mapSymbols first f (hids first List.mem_cons_self)).trans (ih _ fun id hid hloop ↦ ?_)
      refine hids id (List.mem_cons_of_mem _ hid) ?_
      rw [kind_setKind] at hloop
      split at hloop
      · rename_i heq
        rwa [heq.1, ← StmtKind.isForLoop_mapSymbols f]
      · exact hloop
  exact hfold (program.walk root) program hmarked

theorem substitute (root : StmtId) (old new : SymId)
    (hmarked : ∀ id ∈ program.walk root, (program.kind id).isForLoop = true → scope.marked id) :
    program.Reworks scope (program.substitute root old new) :=
  mapSymbolsIn root _ hmarked

/-- A block may be given a marker that makes it no for-loop. -/
theorem setBlockInfo (id : StmtId) {info : Option BlockInfo}
    (hinfo : (StmtKind.block info []).isForLoop = false)
    (hmarked : (program.kind id).isForLoop = true → scope.marked id) :
    program.Reworks scope (program.setBlockInfo id info) := by
  unfold Program.setBlockInfo
  split
  · rename_i old body hkind
    have hloop := StmtKind.isForLoop_congr (StmtKind.loopHeader?_block info body [])
    refine setKind id (hkind ▸ rfl) (hkind ▸ rfl) ?_
    cases hold : (program.kind id).isForLoop with
    | true => exact .inr ⟨hmarked hold, fun _ ↦ rfl⟩
    | false =>
      rw [StmtKind.loopHeader?_eq_none hold, StmtKind.loopHeader?_eq_none (hloop.trans hinfo)]
      exact .inl rfl
  · exact .refl scope program
  · exact .refl scope program

variable {block id new old parent : StmtId} {info : Option BlockInfo} {before after : List StmtId}

theorem attach (hkind : program.kind block = .block info (before ++ after))
    (hnew : program.Detached new) (hmovable : program.Movable scope new) :
    program.Reworks scope ((program.setKind block (.block info (before ++ new :: after))).setParent
      new (some block)) := by
  refine of_statements rfl (fun h ↦ h.attach hkind hnew) (fun other ↦ ?_) (fun other ↦ ?_)
    (fun other ↦ ?_) (fun other ↦ ?_)
  · rw [has_setParent, has_setKind]
  · rw [kind_setParent, kind_setKind]
    split
    · rename_i hother
      rw [hother.1, hkind]
      exact ⟨rfl, .inl (StmtKind.loopHeader?_block ..)⟩
    · exact ⟨rfl, .inl rfl⟩
  · rw [owner_setParent, owner_setKind]
  · rw [parent_setParent, parent_setKind]
    split
    · rename_i hother
      exact .inr (hother.1 ▸ hmovable)
    · exact .inl rfl

theorem detach (hkind : program.kind block = .block info (before ++ id :: after))
    (hmovable : program.Movable scope id) :
    program.Reworks scope
      ((program.setKind block (.block info (before ++ after))).setParent id none) := by
  refine of_statements rfl (fun h ↦ h.detach hkind) (fun other ↦ ?_) (fun other ↦ ?_)
    (fun other ↦ ?_) (fun other ↦ ?_)
  · rw [has_setParent, has_setKind]
  · rw [kind_setParent, kind_setKind]
    split
    · rename_i hother
      rw [hother.1, hkind]
      exact ⟨rfl, .inl (StmtKind.loopHeader?_block ..)⟩
    · exact ⟨rfl, .inl rfl⟩
  · rw [owner_setParent, owner_setKind]
  · rw [parent_setParent, parent_setKind]
    split
    · rename_i hother
      exact .inr (hother.1 ▸ hmovable)
    · exact .inl rfl

theorem release {body : List StmtId} (hkind : program.kind block = .block info body)
    (hmovable : ∀ member ∈ body, program.Movable scope member) :
    program.Reworks scope ((program.setKind block (.block info [])).adopt body none) := by
  obtain ⟨statements, hstatements⟩ :=
    (program.setKind block (.block info [])).adopt_arenas body none
  refine of_statements hstatements (fun h ↦ h.release hkind) (fun other ↦ ?_) (fun other ↦ ?_)
    (fun other ↦ ?_) (fun other ↦ ?_)
  · rw [has_adopt, has_setKind]
  · rw [kind_adopt, kind_setKind]
    split
    · rename_i hother
      rw [hother.1, hkind]
      exact ⟨rfl, .inl (StmtKind.loopHeader?_block ..)⟩
    · exact ⟨rfl, .inl rfl⟩
  · rw [owner_adopt, owner_setKind]
  · simp only [parent_adopt, parent_setKind]
    split
    · rename_i hother
      exact .inr (hmovable other hother.1)
    · exact .inl rfl

theorem exchange {kind : StmtKind} (hold : old ∈ (program.kind parent).children)
    (hnew : program.Detached new)
    (hkind : kind.children =
      (program.kind parent).children.map fun child ↦ if child = old then new else child)
    (haction : kind.isAction = (program.kind parent).isAction)
    (hheader : kind.loopHeader? = (program.kind parent).loopHeader?)
    (hmovable : program.Movable scope old) (hmovable' : program.Movable scope new) :
    program.Reworks scope (((program.setKind parent kind).setParent new (some parent)).setParent old
      none) := by
  refine of_statements rfl (fun h ↦ h.exchange hold hnew hkind) (fun other ↦ ?_) (fun other ↦ ?_)
    (fun other ↦ ?_) (fun other ↦ ?_)
  · rw [has_setParent, has_setParent, has_setKind]
  · rw [kind_setParent, kind_setParent, kind_setKind]
    split
    · rename_i hother
      rw [hother.1]
      exact ⟨haction, .inl hheader⟩
    · exact ⟨rfl, .inl rfl⟩
  · rw [owner_setParent, owner_setParent, owner_setKind]
  · rw [parent_setParent, parent_setParent, parent_setKind]
    split
    · rename_i hother
      exact .inr (hother.1 ▸ hmovable)
    · split
      · rename_i hother
        exact .inr (hother.1 ▸ hmovable')
      · exact .inl rfl

/-- A function may be given a new body where bodies may be given at all. -/
theorem exchangeBody {function : FnId} (hrooting : scope.rooting)
    (hold : (program.stmt old).bodyOf = some function) (hnew : program.Detached new)
    (hmovable : program.Movable scope old) (hmovable' : program.Movable scope new) :
    program.Reworks scope (program.moveBody old new function) := by
  have hkind := program.kind_moveBody old new function
  refine ⟨fun h ↦ h.exchangeBody hold hnew, (has_moveBody ..).mpr,
    fun hcalm ↦ absurd hrooting hcalm, fun hcalm ↦ absurd hrooting hcalm, fun _ ↦ by rw [hkind],
    fun {id} _ haction hmoved ↦ ⟨?_, ?_⟩,
    fun _ _ ↦ by rw [hkind], fun _ h ↦ by rwa [hkind] at h, fun _ id h ↦ ?_, ?_⟩
  · exact parent_moveBody ..
  · have hne : ∀ {other}, program.Movable scope other → id ≠ other := by
      rintro _ hother rfl
      exact hother.elim hmoved fun h ↦ by simp [haction] at h
    rw [owner_moveBody (has_of_bodyOf hold) hnew.has, if_neg (hne hmovable'), if_neg (hne hmovable)]
  · rw [hkind, Program.kind, stmt_of_not_has h]
    rfl
  · refine ⟨fun h ↦ ⟨h, rfl⟩, fun h ↦ ⟨h, rfl⟩, fun {other} h ↦ ⟨?_, ?_⟩⟩
    · rwa [HasFunction, size_functions_moveBody]
    · rw [moveBody, function_modifyFunction]
      split <;> exact ⟨rfl, fun _ ↦ rfl⟩

/-- A statement may be made of detached ones that may be moved. -/
theorem newStmt {kind : StmtKind} (span : Span)
    (hchildren : ∀ child ∈ kind.children, program.Detached child ∧ program.Movable scope child)
    (hnodup : kind.children.Nodup) (hloop : kind.isForLoop = true → scope.looping) :
    program.Reworks scope (program.newStmt kind span).2 := by
  have hhas : ∀ child ∈ kind.children, program.Has child := fun child h ↦ (hchildren child h).1.has
  have hne : ∀ {id}, program.Has id → id ≠ program.nextStmt := by
    rintro _ h rfl
    exact program.not_has_nextStmt h
  have hkind : ∀ {id}, program.Has id →
      (program.newStmt kind span).2.kind id = program.kind id := fun h ↦ by
    rw [kind_newStmt, if_neg (hne h)]
  have howner : ∀ {id}, program.Has id →
      ((program.newStmt kind span).2.stmt id).bodyOf = (program.stmt id).bodyOf := fun h ↦ by
    rw [owner_newStmt, if_neg (hne h)]
  refine ⟨fun h ↦ h.newStmt span (fun child hc ↦ (hchildren child hc).1) hnodup,
    fun h ↦ (has_newStmt ..).mpr (.inl h), fun _ {_} h hnone ↦ (howner h).trans hnone,
    fun _ _ _ ↦ ?_, fun h ↦ by rw [hkind h], fun {id} h haction hmoved ↦ ⟨?_, howner h⟩,
    fun h _ ↦ by rw [hkind h], fun h hloop ↦ hkind h ▸ hloop, fun hlooping id h ↦ ?_, ?_⟩
  · obtain ⟨statements, hstatements⟩ := program.newStmt_arenas kind span
    rw [hstatements]
    rfl
  · rw [parent_newStmt _ _ _ _ hhas, if_neg, if_neg (hne h)]
    intro hmem
    exact (hchildren id hmem).2.elim hmoved fun h ↦ by simp [haction] at h
  · rw [kind_newStmt]
    split
    · exact eq_false_of_ne_true fun h ↦ hlooping (hloop h)
    · rw [Program.kind, stmt_of_not_has h]
      rfl
  · obtain ⟨statements, hstatements⟩ := program.newStmt_arenas kind span
    rw [hstatements]
    exact .of_statements program statements

/-- Every action can be made. -/
theorem newAction (action : Action) (span : Span) :
    program.Reworks scope (program.newStmt (.action action) span).2 :=
  newStmt span nofun .nil nofun

/-- Every empty block that is no for-loop can be made. -/
theorem newBlock (info : Option BlockInfo) (span : Span)
    (hloop : (StmtKind.block info []).isForLoop = true → scope.looping) :
    program.Reworks scope (program.newStmt (.block info []) span).2 :=
  newStmt span nofun .nil hloop

/-! ### Symbols, types and functions -/

/-- A pass may be followed by an update that leaves the statements and the bodies alone. -/
theorem thenTables {middle : Program} (first : program.Reworks scope middle)
    (hstatements : program'.statements = middle.statements)
    (hsize : program'.functions.size = middle.functions.size)
    (hbody : ∀ id, program'.bodyOf id = middle.bodyOf id) (hgrows : program.Grows program') :
    program.Reworks scope program' := by
  have hstmt : ∀ id, program'.stmt id = middle.stmt id := fun id ↦ by
    rw [stmt, stmt, hstatements]
  have hkind : ∀ id, program'.kind id = middle.kind id := fun id ↦ by
    rw [Program.kind, hstmt, Program.kind]
  have hparent : ∀ id, program'.parent id = middle.parent id := fun id ↦ by
    rw [parent, hstmt, parent]
  refine ⟨fun h ↦ (first.wellLinked h).of_tables hstatements hsize hbody, fun h ↦ ?_,
    fun hcalm {_} h hnone ↦ hstmt _ ▸ first.ownerless hcalm h hnone,
    fun hcalm {_} h ↦ (hbody _).trans (first.body hcalm h),
    fun h ↦ hkind _ ▸ first.isAction h,
    fun h haction hmoved ↦ hstmt _ ▸ hparent _ ▸ first.place h haction hmoved,
    fun h hmarked ↦ hkind _ ▸ first.header h hmarked,
    fun h hloop ↦ first.isForLoop h (hkind _ ▸ hloop),
    fun hlooping _ h ↦ hkind _ ▸ first.no_loop hlooping h, hgrows⟩
  simpa only [Has, hstatements] using first.has h

/-- An update that leaves the statements and the bodies alone. -/
theorem of_tables (hstatements : program'.statements = program.statements)
    (hsize : program'.functions.size = program.functions.size)
    (hbody : ∀ id, program'.bodyOf id = program.bodyOf id) (hgrows : program.Grows program') :
    program.Reworks scope program' :=
  (refl scope program).thenTables hstatements hsize hbody hgrows

theorem addSymbol (entry : Symbol) : program.Reworks scope (program.addSymbol entry).2 := by
  refine of_tables rfl rfl (fun _ ↦ rfl)
    ⟨fun {id} h ↦ ⟨?_, ?_⟩, fun h ↦ ⟨h, rfl⟩, fun h ↦ ⟨h, rfl, fun _ ↦ rfl⟩⟩
  · simp only [HasSymbol, Program.addSymbol, Array.size_push] at h ⊢
    omega
  · simp only [symbolType, symbol, Program.addSymbol, Array.getD_eq_getD_getElem?,
      Array.getElem?_push, if_neg (Nat.ne_of_lt h)]

theorem symbolType_setOwner (program : Program) (id other : SymId) (owner : FnId) :
    (program.setOwner id owner).symbolType other = program.symbolType other := by
  simp only [symbolType, symbol, Program.setOwner, modifySymbol, Array.getD_eq_getD_getElem?,
    Array.getElem?_modify]
  split
  · cases program.symbols[other.index]? <;> rfl
  · rfl

theorem setOwner (id : SymId) (owner : FnId) :
    program.Reworks scope (program.setOwner id owner) := by
  refine of_tables rfl rfl (fun _ ↦ rfl)
    ⟨fun h ↦ ⟨?_, symbolType_setOwner ..⟩, fun h ↦ ⟨h, rfl⟩, fun h ↦ ⟨h, rfl, fun _ ↦ rfl⟩⟩
  simpa [HasSymbol, Program.setOwner, modifySymbol] using h

/-- The symbols of a tree may be handed over to a function. -/
theorem claimLocals (function : FnId) (root : StmtId) :
    program.Reworks scope (program.claimLocals function root) := by
  have hfold : ∀ {step : Program → StmtId → Program},
      (∀ (program : Program) id, program.Reworks scope (step program id)) →
        ∀ (ids : List StmtId) (program : Program),
          program.Reworks scope (ids.foldl step program) := by
    intro step hstep ids
    induction ids with
    | nil => exact .refl scope
    | cons first rest ih => exact fun program ↦ Reworks.trans (hstep program first) (ih _)
  refine hfold (fun program id ↦ ?_) (program.walk root) program
  split
  · exact setOwner _ function
  · exact .refl scope program

theorem addType (definition : TypeDef) : program.Reworks scope (program.addType definition).2 := by
  refine of_tables rfl rfl (fun _ ↦ rfl)
    ⟨fun h ↦ ⟨h, rfl⟩, fun {id} h ↦ ⟨?_, ?_⟩, fun h ↦ ⟨h, rfl, fun _ ↦ rfl⟩⟩
  · simp only [HasType, Program.addType, Array.size_push] at h ⊢
    omega
  · simp only [type, Program.addType, Array.getD_eq_getD_getElem?, Array.getElem?_push,
      if_neg (Nat.ne_of_lt h)]

theorem setRefType (id : TypeId) (reference : Option TypeId) :
    program.Reworks scope
      (program.modifyType id fun target ↦ { target with refType := reference }) := by
  refine of_tables rfl rfl (fun _ ↦ rfl)
    ⟨fun h ↦ ⟨h, rfl⟩, fun {other} h ↦ ⟨?_, ?_⟩, fun h ↦ ⟨h, rfl, fun _ ↦ rfl⟩⟩
  · simpa [HasType, modifyType] using h
  · simp only [type, modifyType, Array.getD_eq_getD_getElem?, Array.getElem?_modify]
    split
    · cases program.types[other.index]? <;> rfl
    · rfl

theorem refOf (id : TypeId) : program.Reworks scope (program.refOf id).2 := by
  cases href : (program.type id).refType with
  | some existing =>
    simp only [Program.refOf, href]
    exact .refl scope program
  | none =>
    simp only [Program.refOf, href]
    exact (addType _).trans (setRefType id _)

theorem setTable (table : FunctionTable) : program.Reworks scope { program with table } :=
  of_tables rfl rfl (fun _ ↦ rfl)
    ⟨fun h ↦ ⟨h, rfl⟩, fun h ↦ ⟨h, rfl⟩, fun h ↦ ⟨h, rfl, fun _ ↦ rfl⟩⟩

/-- A function that is no iterator may be given formals. -/
theorem setFormals {function : FnId} (hiterator : (program.function function).isIterator = false)
    (change : List SymId → List SymId) :
    program.Reworks scope (program.modifyFunction function fun definition ↦
      { definition with formals := change definition.formals }) := by
  refine of_tables rfl (by simp [modifyFunction]) (fun other ↦ ?_)
    ⟨fun h ↦ ⟨h, rfl⟩, fun h ↦ ⟨h, rfl⟩, fun {other} h ↦ ⟨?_, ?_, fun hother ↦ ?_⟩⟩
  · rw [bodyOf, function_modifyFunction]
    split <;> rfl
  · simpa [HasFunction, modifyFunction] using h
  · rw [function_modifyFunction]
    split <;> rfl
  · rw [function_modifyFunction, if_neg]
    rintro ⟨rfl, -⟩
    rw [hiterator] at hother
    cases hother

/-- A function that is no iterator may be given one more formal. -/
theorem addFormal {function : FnId} (hplain : program.IsPlain function) (name : String)
    (type : TypeId) : program.Reworks scope (program.addFormal function name type).2 := by
  have hsymbol : program.Reworks scope
      (program.addSymbol { name, kind := .arg, type, owner := some function }).2 := addSymbol _
  exact hsymbol.trans (setFormals (hsymbol.grows.isPlain hplain).plain (· ++ [_]))

end Reworks

/-! ### Making functions -/

/-- The program with a function added whose body is a statement that stands nowhere. -/
def withFunction (program : Program) (definition : FnDef) : Program :=
  let owned := program.setBodyOf definition.body (some ⟨program.functions.size⟩)
  { owned with functions := owned.functions.push definition }

theorem function_withFunction (program : Program) (definition : FnDef) (id : FnId) :
    (program.withFunction definition).function id =
      if id = ⟨program.functions.size⟩ then definition else program.function id := by
  obtain ⟨i⟩ := id
  simp only [function, withFunction, setBodyOf, modifyStmt, FnId.mk.injEq,
    Array.getD_eq_getD_getElem?, Array.getElem?_push]
  split <;> simp

theorem bodyOf_withFunction (program : Program) (definition : FnDef) (id : FnId) :
    (program.withFunction definition).bodyOf id =
      if id = ⟨program.functions.size⟩ then definition.body else program.bodyOf id := by
  rw [bodyOf, function_withFunction]
  split <;> rfl

theorem size_functions_withFunction (program : Program) (definition : FnDef) :
    (program.withFunction definition).functions.size = program.functions.size + 1 := by
  simp [withFunction, setBodyOf, modifyStmt]

theorem kind_withFunction (program : Program) (definition : FnDef) (id : StmtId) :
    (program.withFunction definition).kind id = program.kind id :=
  kind_setBodyOf ..

theorem parent_withFunction (program : Program) (definition : FnDef) (id : StmtId) :
    (program.withFunction definition).parent id = program.parent id :=
  parent_setBodyOf ..

theorem owner_withFunction {definition : FnDef} (hbody : program.Has definition.body)
    (id : StmtId) : ((program.withFunction definition).stmt id).bodyOf =
      if id = definition.body then some ⟨program.functions.size⟩
      else (program.stmt id).bodyOf := by
  refine (owner_setBodyOf ..).trans ?_
  simp only [hbody, and_true]

/-- Every function but the last one has been there before. -/
theorem ne_or_eq_of_lt_succ {size : Nat} {function : FnId} (h : function.index < size + 1) :
    (function.index < size ∧ function ≠ ⟨size⟩) ∨ function = ⟨size⟩ := by
  obtain ⟨index⟩ := function
  rcases Nat.lt_succ_iff_lt_or_eq.mp h with hlt | rfl
  · refine .inl ⟨hlt, ?_⟩
    rintro ⟨⟩
    exact Nat.lt_irrefl _ hlt
  · exact .inr rfl

theorem WellLinked.withFunction (h : program.WellLinked) {definition : FnDef}
    (hbody : program.Detached definition.body) :
    (program.withFunction definition).WellLinked := by
  constructor
  · intro id child
    rw [kind_withFunction, parent_withFunction]
    exact h.parent_of_child
  · intro id parent
    rw [kind_withFunction, parent_withFunction]
    exact h.child_of_parent
  · intro id
    rw [kind_withFunction]
    exact h.nodup_children id
  · intro function hfunction
    rw [size_functions_withFunction] at hfunction
    rw [bodyOf_withFunction, parent_withFunction]
    obtain ⟨hlt, hne⟩ | rfl := ne_or_eq_of_lt_succ hfunction
    · rw [if_neg hne]
      exact h.parent_body hlt
    · rw [if_pos rfl]
      exact hbody.parent
  · intro function hfunction
    rw [size_functions_withFunction] at hfunction
    rw [bodyOf_withFunction, owner_withFunction hbody.has]
    obtain ⟨hlt, hne⟩ | rfl := ne_or_eq_of_lt_succ hfunction
    · have hold := h.bodyOf_body hlt
      have hneBody : program.bodyOf function ≠ definition.body := fun heq ↦ by
        rw [heq, hbody.owner] at hold
        cases hold
      rw [if_neg hne, if_neg hneBody, hold]
    · rw [if_pos rfl, if_pos rfl]
  · intro id function hid
    rw [owner_withFunction hbody.has] at hid
    rw [size_functions_withFunction, bodyOf_withFunction]
    split at hid
    · rename_i heq
      cases hid
      exact ⟨Nat.lt_succ_self _, by rw [if_pos rfl, heq]⟩
    · obtain ⟨hlt, rfl⟩ := h.body_of_bodyOf hid
      have hne : function ≠ ⟨program.functions.size⟩ := by
        rintro rfl
        exact Nat.lt_irrefl _ hlt
      exact ⟨Nat.lt_succ_of_lt hlt, if_neg hne⟩

theorem newFunction_eq (program : Program) (name : String) (retType : TypeId) (span : Span) :
    program.newFunction name retType span =
      (⟨program.functions.size⟩, (program.newStmt (.plain []) span).2.withFunction
        { name, retType, body := program.nextStmt, span }) := rfl

/-- What is known of a function that was just made and flagged. -/
theorem function_newFlagged (program : Program) (name : String) (retType : TypeId) (span : Span)
    (change : FnFlags → FnFlags) :
    ((program.newFunction name retType span).2.modifyFunction ⟨program.functions.size⟩
      fun definition ↦ { definition with flags := change definition.flags }).HasFunction
        ⟨program.functions.size⟩ ∧
    ((program.newFunction name retType span).2.modifyFunction ⟨program.functions.size⟩
      fun definition ↦ { definition with flags := change definition.flags }).function
        ⟨program.functions.size⟩ =
      { name, retType, body := program.nextStmt, span, flags := change {} } := by
  obtain ⟨statements, hstatements⟩ := program.newStmt_arenas (.plain []) span
  have hfunctions : (program.newStmt (.plain []) span).2.functions = program.functions := by
    rw [hstatements]
  have hhas :
      program.functions.size < (program.newFunction name retType span).2.functions.size := by
    rw [newFunction_eq, size_functions_withFunction, hfunctions]
    exact Nat.lt_succ_self _
  refine ⟨by simpa [HasFunction, modifyFunction] using hhas, ?_⟩
  rw [function_modifyFunction, if_pos ⟨rfl, hhas⟩, newFunction_eq, function_withFunction,
    hfunctions, if_pos rfl]

namespace Reworks

theorem newFunction (name : String) (retType : TypeId) (span : Span) :
    program.Reworks scope (program.newFunction name retType span).2 := by
  rw [newFunction_eq]
  set made := program.newStmt (.plain []) span with hmade
  have hstep : program.Reworks scope made.2 := newBlock none span nofun
  have hdetached : made.2.Detached program.nextStmt :=
    WellLinked.detached_newStmt program span nofun
  have hkind {definition : FnDef} := made.2.kind_withFunction definition
  have howner : ∀ {definition : FnDef} {id}, program.Has id → definition.body = program.nextStmt →
      ((made.2.withFunction definition).stmt id).bodyOf = (made.2.stmt id).bodyOf := by
    intro definition id h hbody
    refine (owner_setBodyOf ..).trans (if_neg ?_)
    rintro ⟨rfl, -⟩
    exact program.not_has_nextStmt (hbody ▸ h)
  refine ⟨fun h ↦ (hstep.wellLinked h).withFunction hdetached,
    fun h ↦ (has_setBodyOf ..).mpr (hstep.has h), fun hcalm {_} h hnone ↦ ?_,
    fun hcalm {function} h ↦ ?_,
    fun h ↦ hkind _ ▸ hstep.isAction h, fun {id} h haction hmoved ↦ ⟨?_, ?_⟩,
    fun h hmarked ↦ hkind _ ▸ hstep.header h hmarked,
    fun h hloop ↦ hstep.isForLoop h (hkind _ ▸ hloop),
    fun hlooping _ h ↦ hkind _ ▸ hstep.no_loop hlooping h, ?_⟩
  · exact (howner h rfl).trans (hstep.ownerless hcalm h hnone)
  · rw [bodyOf_withFunction, if_neg, hstep.body hcalm h]
    rintro rfl
    exact Nat.lt_irrefl _ (hstep.grows.function h).1
  · exact (parent_setBodyOf ..).trans (hstep.place h haction hmoved).1
  · exact (howner h rfl).trans (hstep.place h haction hmoved).2
  · refine hstep.grows.trans ⟨fun h ↦ ⟨h, rfl⟩, fun h ↦ ⟨h, rfl⟩, fun {id} h ↦ ?_⟩
    have hne : id ≠ ⟨made.2.functions.size⟩ := by
      rintro rfl
      exact Nat.lt_irrefl _ h
    rw [function_withFunction, if_neg hne]
    refine ⟨?_, rfl, fun _ ↦ rfl⟩
    rw [HasFunction, size_functions_withFunction]
    exact Nat.lt_succ_of_lt h

/-- A function that was just made may be flagged. -/
theorem newFlagged (name : String) (retType : TypeId) (span : Span) (change : FnFlags → FnFlags) :
    program.Reworks scope ((program.newFunction name retType span).2.modifyFunction
      ⟨program.functions.size⟩ fun definition ↦
        { definition with flags := change definition.flags }) := by
  have hmade : program.Reworks scope (program.newFunction name retType span).2 :=
    newFunction name retType span
  refine hmade.thenTables rfl (by simp [modifyFunction]) (fun id ↦ ?_)
    ⟨fun h ↦ hmade.grows.symbol h, fun h ↦ hmade.grows.type h, fun {id} h ↦ ?_⟩
  · rw [bodyOf, function_modifyFunction]
    split <;> rfl
  · have hne : id ≠ ⟨program.functions.size⟩ := by
      rintro rfl
      exact Nat.lt_irrefl _ h
    rw [function_modifyFunction, if_neg fun hid ↦ hne hid.1]
    refine ⟨?_, (hmade.grows.function h).2⟩
    simpa [HasFunction, modifyFunction] using (hmade.grows.function h).1

end Reworks

end Program

end IteratorLowering
