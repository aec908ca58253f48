import IteratorLowering.Proofs.Forest.Unfolding
import Mathlib.Logic.Function.Iterate

/-!
# Replacing symbols

What a statement is sent to by a replacement of symbols depends on the symbols that it mentions
(`StmtKind.mapSymbols_congr`), and replacing twice is replacing once by the composed function
(`StmtKind.mapSymbols_mapSymbols`). A replacement in a whole tree is made in a statement as often as
the walk lists it (`Program.stmt_mapSymbolsIn_eq_iterate`), which is once for the statements of a
tree without repeats (`Program.stmt_mapSymbolsIn`), and it leaves every walk as it is
(`Program.walk_mapSymbolsIn`).
-/

set_option autoImplicit false
set_option relaxedAutoImplicit false

namespace IteratorLowering

/-! ### In a statement -/

section

variable {f g : SymId → SymId}

theorem Operand.mapSymbols_congr {operand : Operand}
    (h : ∀ symbol ∈ operand.symbols, f symbol = g symbol) :
    operand.mapSymbols f = operand.mapSymbols g := by
  cases operand with
  | sym symbol => exact congrArg Operand.sym (h symbol (List.mem_singleton_self symbol))
  | lit value => rfl

theorem map_mapSymbols_congr {operands : List Operand}
    (h : ∀ symbol ∈ operandSymbols operands, f symbol = g symbol) :
    operands.map (Operand.mapSymbols f) = operands.map (Operand.mapSymbols g) :=
  List.map_congr_left fun operand hoperand ↦ Operand.mapSymbols_congr fun symbol hsymbol ↦
    h symbol (List.mem_flatMap.mpr ⟨operand, hoperand, hsymbol⟩)

theorem Expr.mapSymbols_congr {value : Expr} (h : ∀ symbol ∈ value.symbols, f symbol = g symbol) :
    value.mapSymbols f = value.mapSymbols g := by
  cases value with
  | use operand => exact congrArg Expr.use (Operand.mapSymbols_congr h)
  | prim op args => exact congrArg (Expr.prim op) (map_mapSymbols_congr h)
  | call callee args => exact congrArg (Expr.call callee) (map_mapSymbols_congr h)
  | tableCall slot args =>
    obtain ⟨hslot, hargs⟩ := List.forall_mem_append.mp h
    exact congrArg₂ Expr.tableCall (Operand.mapSymbols_congr hslot) (map_mapSymbols_congr hargs)
  | cast type operand => exact congrArg (Expr.cast type) (Operand.mapSymbols_congr h)
  | fieldAddress | fieldValue | hasClass | addressOf | deref =>
    simp only [mapSymbols, h _ (List.mem_singleton_self _)]

/-- What a statement is sent to depends on the symbols that it mentions. -/
theorem StmtKind.mapSymbols_congr {kind : StmtKind}
    (h : ∀ symbol ∈ kind.symbols, f symbol = g symbol) : kind.mapSymbols f = kind.mapSymbols g := by
  obtain ⟨hnamed, hreads⟩ := List.forall_mem_append.mp h
  cases kind with
  | action inner =>
    refine congrArg StmtKind.action ?_
    cases inner with
    | define symbol => exact congrArg Action.define (hnamed symbol (List.mem_singleton_self symbol))
    | goto label => exact congrArg Action.goto (hnamed label (List.mem_singleton_self label))
    | assign target value =>
      exact congrArg₂ Action.assign (hnamed target (List.mem_singleton_self target))
        (Expr.mapSymbols_congr hreads)
    | evaluate value => exact congrArg Action.evaluate (Expr.mapSymbols_congr hreads)
    | yield value => exact congrArg Action.yield (Operand.mapSymbols_congr hreads)
    | ret value => exact congrArg Action.ret (Operand.mapSymbols_congr hreads)
    | store reference value =>
      obtain ⟨hreference, hvalue⟩ := List.forall_mem_cons.mp hreads
      exact congrArg₂ Action.store hreference (Operand.mapSymbols_congr hvalue)
    | setField base field value =>
      obtain ⟨hbase, hvalue⟩ := List.forall_mem_cons.mp hreads
      simp only [Action.mapSymbols, hbase, Operand.mapSymbols_congr hvalue]
    | fail message => rfl
    | noop => rfl
  | branch condition thenBlock elseBlock =>
    simp only [mapSymbols, Operand.mapSymbols_congr hreads]
  | block info body =>
    cases info with
    | none => rfl
    | some info =>
      cases info with
      | forLoop header => simp only [mapSymbols, Option.map_some, BlockInfo.mapSymbols,
          map_mapSymbols_congr hreads]
      | whileLoop condition => simp only [mapSymbols, Option.map_some, BlockInfo.mapSymbols,
          Operand.mapSymbols_congr hreads]
      | confined | parallel | on => rfl

theorem Operand.mapSymbols_id (operand : Operand) : operand.mapSymbols id = operand := by
  cases operand <;> rfl

theorem map_mapSymbols_id (operands : List Operand) :
    operands.map (Operand.mapSymbols id) = operands :=
  List.map_id'' Operand.mapSymbols_id operands

theorem Expr.mapSymbols_id (value : Expr) : value.mapSymbols id = value := by
  cases value <;> simp [mapSymbols, Operand.mapSymbols_id, map_mapSymbols_id]

theorem StmtKind.mapSymbols_id (kind : StmtKind) : kind.mapSymbols id = kind := by
  rcases kind with inner | _ | ⟨_ | info, _⟩
  · cases inner <;> simp [mapSymbols, Action.mapSymbols, Expr.mapSymbols_id, Operand.mapSymbols_id]
  · simp [mapSymbols, Operand.mapSymbols_id]
  · rfl
  · cases info <;>
      simp [mapSymbols, BlockInfo.mapSymbols, Operand.mapSymbols_id, map_mapSymbols_id]

end

section

variable (f g : SymId → SymId)

theorem Operand.mapSymbols_mapSymbols (operand : Operand) :
    (operand.mapSymbols f).mapSymbols g = operand.mapSymbols (g ∘ f) := by
  cases operand <;> rfl

theorem map_mapSymbols_mapSymbols (operands : List Operand) :
    (operands.map (Operand.mapSymbols f)).map (Operand.mapSymbols g) =
      operands.map (Operand.mapSymbols (g ∘ f)) := by
  rw [List.map_map]
  exact List.map_congr_left fun operand _ ↦ operand.mapSymbols_mapSymbols f g

theorem Expr.mapSymbols_mapSymbols (value : Expr) :
    (value.mapSymbols f).mapSymbols g = value.mapSymbols (g ∘ f) := by
  cases value <;>
    simp only [mapSymbols, Operand.mapSymbols_mapSymbols, map_mapSymbols_mapSymbols,
      Function.comp_apply]

theorem Action.mapSymbols_mapSymbols (action : Action) :
    (action.mapSymbols f).mapSymbols g = action.mapSymbols (g ∘ f) := by
  cases action <;>
    simp only [mapSymbols, Operand.mapSymbols_mapSymbols, Expr.mapSymbols_mapSymbols,
      Function.comp_apply]

/-- Replacing twice is replacing once. -/
theorem StmtKind.mapSymbols_mapSymbols (kind : StmtKind) :
    (kind.mapSymbols f).mapSymbols g = kind.mapSymbols (g ∘ f) := by
  rcases kind with inner | _ | ⟨_ | info, _⟩
  · exact congrArg StmtKind.action (inner.mapSymbols_mapSymbols f g)
  · simp only [mapSymbols, Operand.mapSymbols_mapSymbols]
  · rfl
  · cases info <;>
      simp only [mapSymbols, Option.map_some, BlockInfo.mapSymbols, Operand.mapSymbols_mapSymbols,
        map_mapSymbols_mapSymbols]

end

namespace Program

variable {program : Program} {root : StmtId}

/-! ### In a tree -/

/-- The symbols that the statements of a function declare or place. -/
def DeclaresIn (program : Program) (function : FnId) (symbol : SymId) : Prop :=
  ∃ id ∈ program.functionStmts function, (program.kind id).defined? = some symbol

instance (program : Program) (function : FnId) (symbol : SymId) :
    Decidable (program.DeclaresIn function symbol) :=
  inferInstanceAs (Decidable (∃ id ∈ _, _))

theorem mem_definedSymbols {root : StmtId} {symbol : SymId} :
    symbol ∈ program.definedSymbols root ↔
      ∃ id ∈ program.walk root, (program.kind id).defined? = some symbol := by
  rw [definedSymbols, List.mem_eraseDups, List.mem_filterMap]

/-- Replacing symbols in statements one after another replaces them in a statement as often as it is
listed. -/
theorem stmt_foldl_mapSymbols (f : SymId → SymId) (ids : List StmtId) {id : StmtId}
    (hid : program.Has id) :
    (ids.foldl (fun program id ↦ program.setKind id ((program.kind id).mapSymbols f))
      program).stmt id = { program.stmt id with
        kind := (program.kind id).mapSymbols f^[ids.count id] } := by
  induction ids generalizing program with
  | nil =>
    rw [List.count_nil, Function.iterate_zero, StmtKind.mapSymbols_id]
    rfl
  | cons first rest ih =>
    rw [List.foldl_cons, ih ((has_setKind ..).mpr hid), kind_setKind, setKind, stmt_modifyStmt]
    by_cases heq : id = first
    · subst heq
      simp only [hid, and_self, if_true, StmtKind.mapSymbols_mapSymbols, List.count_cons_self,
        Function.iterate_succ]
    · simp only [heq, false_and, if_false, List.count_cons_of_ne (Ne.symm heq)]

/-- Replacing symbols in statements changes statements only. -/
theorem foldl_mapSymbols_arenas (f : SymId → SymId) (ids : List StmtId) (program : Program) :
    ∃ statements, statements.size = program.statements.size ∧
      ids.foldl (fun program id ↦ program.setKind id ((program.kind id).mapSymbols f)) program =
        { program with statements } := by
  induction ids generalizing program with
  | nil => exact ⟨program.statements, rfl, rfl⟩
  | cons first rest ih =>
    obtain ⟨statements, hsize, heq⟩ :=
      ih (program.setKind first ((program.kind first).mapSymbols f))
    exact ⟨statements, hsize.trans Array.size_modify, heq⟩

/-- A replacement in a tree is made in a statement as often as the walk lists it. -/
theorem stmt_mapSymbolsIn_eq_iterate (f : SymId → SymId) {id : StmtId} (hid : program.Has id) :
    (program.mapSymbolsIn root f).stmt id = { program.stmt id with
      kind := (program.kind id).mapSymbols f^[(program.walk root).count id] } :=
  stmt_foldl_mapSymbols f _ hid

/-- If it does not matter how often the walk lists a statement, a replacement in a tree changes each
statement of the tree once and nothing else. -/
theorem stmt_mapSymbolsIn_of_iterate {f : SymId → SymId} {id : StmtId}
    (hf : id ∈ program.walk root → f^[(program.walk root).count id] = f) (hid : program.Has id) :
    (program.mapSymbolsIn root f).stmt id = { program.stmt id with
      kind := if id ∈ program.walk root then (program.kind id).mapSymbols f
        else program.kind id } := by
  rw [stmt_mapSymbolsIn_eq_iterate f hid]
  by_cases hmem : id ∈ program.walk root
  · rw [if_pos hmem, hf hmem]
  · rw [if_neg hmem, List.count_eq_zero_of_not_mem hmem, Function.iterate_zero,
      StmtKind.mapSymbols_id]

/-- A replacement in a tree without repeats changes the statements of the tree and nothing else. -/
theorem stmt_mapSymbolsIn (hnodup : (program.walk root).Nodup) (f : SymId → SymId) {id : StmtId}
    (hid : program.Has id) :
    (program.mapSymbolsIn root f).stmt id = { program.stmt id with
      kind := if id ∈ program.walk root then (program.kind id).mapSymbols f
        else program.kind id } := by
  refine stmt_mapSymbolsIn_of_iterate (fun hmem ↦ ?_) hid
  rw [List.count_eq_one_of_mem hnodup hmem, Function.iterate_one]

theorem mapSymbolsIn_arenas (root : StmtId) (f : SymId → SymId) :
    ∃ statements, statements.size = program.statements.size ∧
      program.mapSymbolsIn root f = { program with statements } :=
  foldl_mapSymbols_arenas f _ program

theorem size_mapSymbolsIn (root : StmtId) (f : SymId → SymId) :
    (program.mapSymbolsIn root f).statements.size = program.statements.size := by
  obtain ⟨statements, hsize, heq⟩ := @mapSymbolsIn_arenas program root f
  rw [heq, hsize]

theorem has_mapSymbolsIn (f : SymId → SymId) {id : StmtId} :
    (program.mapSymbolsIn root f).Has id ↔ program.Has id := by
  rw [Has, Has, size_mapSymbolsIn]

theorem children_mapSymbolsIn (f : SymId → SymId) (id : StmtId) :
    ((program.mapSymbolsIn root f).kind id).children = (program.kind id).children := by
  by_cases hid : program.Has id
  · rw [Program.kind, stmt_mapSymbolsIn_eq_iterate f hid, StmtKind.children_mapSymbols]
  · rw [Program.kind, stmt_of_not_has ((has_mapSymbolsIn f).not.mpr hid), Program.kind,
      stmt_of_not_has hid]

/-- A replacement of symbols leaves every tree its statements and their order. -/
theorem walk_mapSymbolsIn (f : SymId → SymId) (other : StmtId) :
    (program.mapSymbolsIn root f).walk other = program.walk other :=
  walk_congr (children_mapSymbolsIn f) (size_mapSymbolsIn root f) other

end Program

end IteratorLowering
