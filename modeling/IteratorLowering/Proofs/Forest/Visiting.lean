import IteratorLowering.Proofs.Forest.Renaming

/-!
# Visiting and replacing symbols

A statement is visited by listing its symbols and rewritten by replacing them, and each of the two
goes through the operands on its own. What a statement has in its operands is said here without
them: which symbols it mentions (`StmtKind.Mentions`), and when two statements differ in nothing but
their symbols (`StmtKind.SameForm`). The visitor sees every mention and nothing else
(`StmtKind.mem_symbols`). A replacement keeps the form (`StmtKind.sameForm_mapSymbols`), and the
form and what the visitor sees determine a statement (`StmtKind.SameForm.eq_mapSymbols`), so no
operand is left out by both.

When one symbol has been replaced by another in the tree of a statement, no statement of the tree
mentions the old symbol, and those that mention the new one are those that mentioned either
(`Program.Substitutes`). Nothing is asked of the links of the program. The walk may list a statement
twice, since making this replacement once more changes nothing (`SymId.iterate_replace`).
-/

set_option autoImplicit false
set_option relaxedAutoImplicit false

namespace IteratorLowering

/-! ### Mentions -/

/-- An expression that has a symbol in it. -/
inductive Expr.Mentions (symbol : SymId) : Expr → Prop
  | use : Mentions symbol (.use (.sym symbol))
  | prim {op : PrimOp} {args : List Operand} (h : .sym symbol ∈ args) :
      Mentions symbol (.prim op args)
  | call {callee : FnId} {args : List Operand} (h : .sym symbol ∈ args) :
      Mentions symbol (.call callee args)
  | slot {args : List Operand} : Mentions symbol (.tableCall (.sym symbol) args)
  | argument {slot : Operand} {args : List Operand} (h : .sym symbol ∈ args) :
      Mentions symbol (.tableCall slot args)
  | fieldAddress {field : FieldRef} : Mentions symbol (.fieldAddress symbol field)
  | fieldValue {field : FieldRef} : Mentions symbol (.fieldValue symbol field)
  | cast {type : TypeId} : Mentions symbol (.cast type (.sym symbol))
  | hasClass {type : TypeId} : Mentions symbol (.hasClass symbol type)
  | addressOf : Mentions symbol (.addressOf symbol)
  | deref : Mentions symbol (.deref symbol)

/-- A statement that has a symbol in its own operands or in the header of its block. -/
inductive StmtKind.Mentions (symbol : SymId) : StmtKind → Prop
  | define : Mentions symbol (.action (.define symbol))
  | target {value : Expr} : Mentions symbol (.action (.assign symbol value))
  | assigned {target : SymId} {value : Expr} (h : value.Mentions symbol) :
      Mentions symbol (.action (.assign target value))
  | evaluated {value : Expr} (h : value.Mentions symbol) :
      Mentions symbol (.action (.evaluate value))
  | reference {value : Operand} : Mentions symbol (.action (.store symbol value))
  | stored {reference : SymId} : Mentions symbol (.action (.store reference (.sym symbol)))
  | base {field : FieldRef} {value : Operand} :
      Mentions symbol (.action (.setField symbol field value))
  | field {base : SymId} {field : FieldRef} :
      Mentions symbol (.action (.setField base field (.sym symbol)))
  | yield : Mentions symbol (.action (.yield (.sym symbol)))
  | ret : Mentions symbol (.action (.ret (.sym symbol)))
  | goto : Mentions symbol (.action (.goto symbol))
  | condition {thenBlock : StmtId} {elseBlock : Option StmtId} :
      Mentions symbol (.branch (.sym symbol) thenBlock elseBlock)
  | forLoop {header : List Operand} {body : List StmtId} (h : .sym symbol ∈ header) :
      Mentions symbol (.block (some (.forLoop header)) body)
  | whileLoop {body : List StmtId} :
      Mentions symbol (.block (some (.whileLoop (.sym symbol))) body)

section

variable {symbol : SymId}

theorem Operand.mem_symbols {operand : Operand} :
    symbol ∈ operand.symbols ↔ operand = .sym symbol := by
  cases operand <;> simp [symbols, eq_comm]

theorem mem_operandSymbols {operands : List Operand} :
    symbol ∈ operandSymbols operands ↔ .sym symbol ∈ operands := by
  simp [operandSymbols, Operand.mem_symbols]

theorem Expr.mem_symbols {value : Expr} : symbol ∈ value.symbols ↔ value.Mentions symbol := by
  constructor
  · intro h
    cases value <;> simp only [symbols, Operand.mem_symbols, mem_operandSymbols, List.mem_append,
      List.mem_singleton] at h
    case tableCall =>
      obtain rfl | hargs := h
      · exact .slot
      · exact .argument hargs
    all_goals first
      | subst h; constructor
      | exact .prim h
      | exact .call h
  · intro h
    cases h <;> simp_all [symbols, Operand.mem_symbols, mem_operandSymbols]

/-- The visitor of the symbols sees every mention and nothing else. -/
theorem StmtKind.mem_symbols {kind : StmtKind} : symbol ∈ kind.symbols ↔ kind.Mentions symbol := by
  rw [symbols, List.mem_append, Option.mem_toList]
  constructor
  · rintro (hnamed | hread)
    · rcases kind with inner | _ | _
      · cases inner <;> cases hnamed <;> constructor
      · cases hnamed
      · cases hnamed
    · rcases kind with inner | ⟨condition, _, _⟩ | ⟨_ | info, _⟩
      · cases inner <;> simp only [reads, Action.reads, Expr.mem_symbols, Operand.mem_symbols,
          List.mem_cons, List.not_mem_nil] at hread
        case assign => exact .assigned hread
        case evaluate => exact .evaluated hread
        case store | setField => obtain rfl | rfl := hread <;> constructor
        case yield | ret => subst hread; constructor
      · rw [Operand.mem_symbols.mp hread]
        exact .condition
      · cases hread
      · cases info with
        | forLoop header => exact .forLoop (mem_operandSymbols.mp hread)
        | whileLoop condition =>
          rw [Operand.mem_symbols.mp hread]
          exact .whileLoop
        | confined | parallel | on => cases hread
  · intro h
    cases h <;> simp_all [named?, reads, Action.named?, Action.reads, BlockInfo.symbols,
      Expr.mem_symbols, Operand.mem_symbols, mem_operandSymbols]

end

/-! ### Forms -/

/-- Operands that are both symbols, or both the same constant. -/
inductive Operand.SameForm : Operand → Operand → Prop
  | sym {symbol symbol' : SymId} : SameForm (.sym symbol) (.sym symbol')
  | lit (value : Lit) : SameForm (.lit value) (.lit value)

/-- Expressions that differ in their symbols only. -/
inductive Expr.SameForm : Expr → Expr → Prop
  | use {operand operand' : Operand} (h : operand.SameForm operand') :
      SameForm (.use operand) (.use operand')
  | prim (op : PrimOp) {args args' : List Operand} (h : List.Forall₂ Operand.SameForm args args') :
      SameForm (.prim op args) (.prim op args')
  | call (callee : FnId) {args args' : List Operand}
      (h : List.Forall₂ Operand.SameForm args args') :
      SameForm (.call callee args) (.call callee args')
  | tableCall {slot slot' : Operand} {args args' : List Operand} (hslot : slot.SameForm slot')
      (hargs : List.Forall₂ Operand.SameForm args args') :
      SameForm (.tableCall slot args) (.tableCall slot' args')
  | fieldAddress {base base' : SymId} (field : FieldRef) :
      SameForm (.fieldAddress base field) (.fieldAddress base' field)
  | fieldValue {base base' : SymId} (field : FieldRef) :
      SameForm (.fieldValue base field) (.fieldValue base' field)
  | cast (type : TypeId) {value value' : Operand} (h : value.SameForm value') :
      SameForm (.cast type value) (.cast type value')
  | hasClass {value value' : SymId} (type : TypeId) :
      SameForm (.hasClass value type) (.hasClass value' type)
  | addressOf {symbol symbol' : SymId} : SameForm (.addressOf symbol) (.addressOf symbol')
  | deref {symbol symbol' : SymId} : SameForm (.deref symbol) (.deref symbol')

/-- Markers of blocks that differ in the symbols of a header only. -/
inductive BlockInfo.SameForm : BlockInfo → BlockInfo → Prop
  | forLoop {header header' : List Operand} (h : List.Forall₂ Operand.SameForm header header') :
      SameForm (.forLoop header) (.forLoop header')
  | whileLoop {condition condition' : Operand} (h : condition.SameForm condition') :
      SameForm (.whileLoop condition) (.whileLoop condition')
  | confined : SameForm .confined .confined
  | parallel (kind : ParallelKind) : SameForm (.parallel kind) (.parallel kind)
  | on (nonBlocking : Bool) : SameForm (.on nonBlocking) (.on nonBlocking)

/-- Actions that differ in their symbols only. -/
inductive Action.SameForm : Action → Action → Prop
  | define {symbol symbol' : SymId} : SameForm (.define symbol) (.define symbol')
  | assign {target target' : SymId} {value value' : Expr} (h : value.SameForm value') :
      SameForm (.assign target value) (.assign target' value')
  | store {reference reference' : SymId} {value value' : Operand} (h : value.SameForm value') :
      SameForm (.store reference value) (.store reference' value')
  | setField {base base' : SymId} (field : FieldRef) {value value' : Operand}
      (h : value.SameForm value') :
      SameForm (.setField base field value) (.setField base' field value')
  | evaluate {value value' : Expr} (h : value.SameForm value') :
      SameForm (.evaluate value) (.evaluate value')
  | yield {value value' : Operand} (h : value.SameForm value') :
      SameForm (.yield value) (.yield value')
  | ret {value value' : Operand} (h : value.SameForm value') : SameForm (.ret value) (.ret value')
  | goto {label label' : SymId} : SameForm (.goto label) (.goto label')
  | fail (message : String) : SameForm (.fail message) (.fail message)
  | noop : SameForm .noop .noop

/-- Statements that differ in the symbols of their own operands only. -/
inductive StmtKind.SameForm : StmtKind → StmtKind → Prop
  | action {inner inner' : Action} (h : inner.SameForm inner') :
      SameForm (.action inner) (.action inner')
  | branch {condition condition' : Operand} (thenBlock : StmtId) (elseBlock : Option StmtId)
      (h : condition.SameForm condition') :
      SameForm (.branch condition thenBlock elseBlock) (.branch condition' thenBlock elseBlock)
  | block {info info' : Option BlockInfo} (body : List StmtId)
      (h : Option.Rel BlockInfo.SameForm info info') :
      SameForm (.block info body) (.block info' body)

section

variable (f : SymId → SymId)

theorem Operand.sameForm_mapSymbols (operand : Operand) :
    operand.SameForm (operand.mapSymbols f) := by
  cases operand <;> constructor

theorem sameForm_map_mapSymbols (operands : List Operand) :
    List.Forall₂ Operand.SameForm operands (operands.map (Operand.mapSymbols f)) :=
  List.forall₂_map_right_iff.mpr (List.forall₂_same.mpr fun operand _ ↦
    operand.sameForm_mapSymbols f)

theorem Expr.sameForm_mapSymbols (value : Expr) : value.SameForm (value.mapSymbols f) := by
  cases value with
  | use operand => exact .use (operand.sameForm_mapSymbols f)
  | prim op args => exact .prim op (sameForm_map_mapSymbols f args)
  | call callee args => exact .call callee (sameForm_map_mapSymbols f args)
  | tableCall slot args =>
    exact .tableCall (slot.sameForm_mapSymbols f) (sameForm_map_mapSymbols f args)
  | cast type operand => exact .cast type (operand.sameForm_mapSymbols f)
  | fieldAddress | fieldValue | hasClass | addressOf | deref => constructor

theorem BlockInfo.sameForm_mapSymbols (info : BlockInfo) :
    info.SameForm (info.mapSymbols f) := by
  cases info with
  | forLoop header => exact .forLoop (sameForm_map_mapSymbols f header)
  | whileLoop condition => exact .whileLoop (condition.sameForm_mapSymbols f)
  | confined | parallel | on => constructor

theorem Action.sameForm_mapSymbols (action : Action) :
    action.SameForm (action.mapSymbols f) := by
  cases action with
  | assign target value => exact .assign (value.sameForm_mapSymbols f)
  | evaluate value => exact .evaluate (value.sameForm_mapSymbols f)
  | store reference value => exact .store (value.sameForm_mapSymbols f)
  | setField base field value => exact .setField field (value.sameForm_mapSymbols f)
  | yield value => exact .yield (value.sameForm_mapSymbols f)
  | ret value => exact .ret (value.sameForm_mapSymbols f)
  | define | goto | fail | noop => constructor

/-- A replacement changes nothing but symbols. -/
theorem StmtKind.sameForm_mapSymbols (kind : StmtKind) :
    kind.SameForm (kind.mapSymbols f) := by
  rcases kind with inner | ⟨condition, thenBlock, elseBlock⟩ | ⟨_ | info, body⟩
  · exact .action (inner.sameForm_mapSymbols f)
  · exact .branch thenBlock elseBlock (condition.sameForm_mapSymbols f)
  · exact .block body .none
  · exact .block body (.some (info.sameForm_mapSymbols f))

end

section

variable {f : SymId → SymId}

theorem Operand.SameForm.length_symbols {operand operand' : Operand}
    (h : operand.SameForm operand') :
    operand'.symbols.length = (operand.symbols.map f).length := by
  cases h <;> rfl

theorem Operand.SameForm.eq_mapSymbols {operand operand' : Operand}
    (h : operand.SameForm operand') (hsymbols : operand'.symbols = operand.symbols.map f) :
    operand' = operand.mapSymbols f := by
  cases h with
  | sym => exact congrArg Operand.sym (List.singleton_inj.mp hsymbols)
  | lit value => rfl

theorem eq_map_mapSymbols {operands operands' : List Operand}
    (h : List.Forall₂ Operand.SameForm operands operands')
    (hsymbols : operandSymbols operands' = (operandSymbols operands).map f) :
    operands' = operands.map (Operand.mapSymbols f) := by
  induction h with
  | nil => rfl
  | cons hfirst _ ih =>
    rw [operandSymbols, operandSymbols, List.flatMap_cons, List.flatMap_cons, List.map_append]
      at hsymbols
    obtain ⟨hhead, htail⟩ := List.append_inj hsymbols hfirst.length_symbols
    rw [List.map_cons, hfirst.eq_mapSymbols hhead, ih htail]

theorem Expr.SameForm.eq_mapSymbols {value value' : Expr} (h : value.SameForm value')
    (hsymbols : value'.symbols = value.symbols.map f) : value' = value.mapSymbols f := by
  cases h with
  | use h => exact congrArg Expr.use (h.eq_mapSymbols hsymbols)
  | prim op h => exact congrArg (Expr.prim op) (eq_map_mapSymbols h hsymbols)
  | call callee h => exact congrArg (Expr.call callee) (eq_map_mapSymbols h hsymbols)
  | tableCall hslot hargs =>
    rw [symbols, symbols, List.map_append] at hsymbols
    obtain ⟨hfirst, hrest⟩ := List.append_inj hsymbols hslot.length_symbols
    exact congrArg₂ Expr.tableCall (hslot.eq_mapSymbols hfirst) (eq_map_mapSymbols hargs hrest)
  | cast type h => exact congrArg (Expr.cast type) (h.eq_mapSymbols hsymbols)
  | fieldAddress | fieldValue | hasClass | addressOf | deref =>
    rw [mapSymbols, ← List.singleton_inj.mp hsymbols]

theorem BlockInfo.SameForm.eq_mapSymbols {info info' : BlockInfo} (h : info.SameForm info')
    (hsymbols : info'.symbols = info.symbols.map f) : info' = info.mapSymbols f := by
  cases h with
  | forLoop h => exact congrArg BlockInfo.forLoop (eq_map_mapSymbols h hsymbols)
  | whileLoop h => exact congrArg BlockInfo.whileLoop (h.eq_mapSymbols hsymbols)
  | confined | parallel | on => rfl

theorem Action.SameForm.eq_mapSymbols {action action' : Action} (h : action.SameForm action')
    (hsymbols : (StmtKind.action action').symbols = (StmtKind.action action).symbols.map f) :
    action' = action.mapSymbols f := by
  cases h with
  | define => exact congrArg Action.define (List.singleton_inj.mp hsymbols)
  | goto => exact congrArg Action.goto (List.singleton_inj.mp hsymbols)
  | assign h =>
    obtain ⟨htarget, hvalue⟩ := List.cons_eq_cons.mp hsymbols
    exact congrArg₂ Action.assign htarget (h.eq_mapSymbols hvalue)
  | store h =>
    obtain ⟨hreference, hvalue⟩ := List.cons_eq_cons.mp hsymbols
    exact congrArg₂ Action.store hreference (h.eq_mapSymbols hvalue)
  | setField field h =>
    obtain ⟨hbase, hvalue⟩ := List.cons_eq_cons.mp hsymbols
    rw [mapSymbols, ← hbase, ← h.eq_mapSymbols hvalue]
  | evaluate h => exact congrArg Action.evaluate (h.eq_mapSymbols hsymbols)
  | yield h => exact congrArg Action.yield (h.eq_mapSymbols hsymbols)
  | ret h => exact congrArg Action.ret (h.eq_mapSymbols hsymbols)
  | fail message => rfl
  | noop => rfl

/-- A statement of the same form in which the visitor sees the images is the result of the
replacement. So the visitor misses no symbol. -/
theorem StmtKind.SameForm.eq_mapSymbols {kind kind' : StmtKind} (h : kind.SameForm kind')
    (hsymbols : kind'.symbols = kind.symbols.map f) : kind' = kind.mapSymbols f := by
  cases h with
  | action h => exact congrArg StmtKind.action (h.eq_mapSymbols hsymbols)
  | branch thenBlock elseBlock h =>
    rw [mapSymbols, ← h.eq_mapSymbols hsymbols]
  | block body h =>
    cases h with
    | none => rfl
    | some h => rw [mapSymbols, Option.map_some, ← h.eq_mapSymbols hsymbols]

end

/-! ### Replacing one symbol -/

/-- What stands for a symbol once the first symbol has been replaced by the second. -/
def SymId.replace (old new symbol : SymId) : SymId := if symbol = old then new else symbol

section

variable {old new : SymId} {kind : StmtKind}

theorem SymId.replace_ne (h : old ≠ new) (symbol : SymId) : replace old new symbol ≠ old := by
  unfold replace
  split
  · exact Ne.symm h
  · assumption

theorem SymId.replace_eq_new_iff {symbol : SymId} :
    replace old new symbol = new ↔ symbol = old ∨ symbol = new := by
  unfold replace
  split <;> simp_all

/-- A symbol that has been replaced is not there to be replaced again. -/
theorem SymId.iterate_replace (h : old ≠ new) (count : Nat) :
    (replace old new)^[count + 1] = replace old new := by
  induction count with
  | zero => exact Function.iterate_one _
  | succ count ih =>
    funext symbol
    rw [Function.iterate_succ', ih, Function.comp_apply]
    exact if_neg (replace_ne h symbol)

theorem StmtKind.mentions_mapSymbols {f : SymId → SymId} {symbol : SymId} :
    (kind.mapSymbols f).Mentions symbol ↔ ∃ before, kind.Mentions before ∧ f before = symbol := by
  simp only [← mem_symbols, symbols_mapSymbols, List.mem_map]

theorem StmtKind.not_mentions_old (h : old ≠ new) :
    ¬ (kind.mapSymbols (SymId.replace old new)).Mentions old := by
  rw [mentions_mapSymbols]
  rintro ⟨before, -, heq⟩
  exact SymId.replace_ne h before heq

theorem StmtKind.mentions_new_iff :
    (kind.mapSymbols (SymId.replace old new)).Mentions new ↔
      kind.Mentions old ∨ kind.Mentions new := by
  simp only [mentions_mapSymbols, SymId.replace_eq_new_iff, and_or_left, exists_or,
    exists_eq_right]

end

namespace Program

variable {program : Program} {root id : StmtId} {old new symbol : SymId}

theorem mem_statementsMentioning :
    id ∈ program.statementsMentioning root symbol ↔
      id ∈ program.walk root ∧ (program.kind id).Mentions symbol := by
  rw [statementsMentioning, List.mem_filter, StmtKind.mentions, List.contains_iff_mem,
    StmtKind.mem_symbols]

/-- In the tree of a statement one symbol has been replaced by another. The tree still consists of
the same statements, and each of them is what it was but for this symbol. Nothing else has changed.
What is said of mentions is said of handles in use, since the default entry mentions a symbol. -/
structure Substitutes (program : Program) (root : StmtId) (old new : SymId) (final : Program) :
    Prop where
  walk : final.walk root = program.walk root
  inside : ∀ {id}, program.Has id → id ∈ program.walk root → final.stmt id =
    { program.stmt id with kind := (program.kind id).mapSymbols (SymId.replace old new) }
  not_mentions : ∀ {id}, program.Has id → id ∉ final.statementsMentioning root old
  mentions_iff : ∀ {id}, program.Has id → (id ∈ final.statementsMentioning root new ↔
    id ∈ program.statementsMentioning root old ∨ id ∈ program.statementsMentioning root new)
  outside : ∀ {id}, id ∉ program.walk root → final.stmt id = program.stmt id
  arenas : ∃ statements, statements.size = program.statements.size ∧
    final = { program with statements }

theorem stmt_substitute (h : old ≠ new) (hid : program.Has id) :
    (program.substitute root old new).stmt id = { program.stmt id with
      kind := if id ∈ program.walk root then (program.kind id).mapSymbols (SymId.replace old new)
        else program.kind id } := by
  refine stmt_mapSymbolsIn_of_iterate (f := SymId.replace old new) (fun hmem ↦ ?_) hid
  obtain ⟨count, hcount⟩ := Nat.exists_add_one_eq.mpr (List.count_pos_iff.mpr hmem)
  rw [← hcount, SymId.iterate_replace h]

theorem substitutes (program : Program) (root : StmtId) (h : old ≠ new) :
    program.Substitutes root old new (program.substitute root old new) := by
  have hwalk : (program.substitute root old new).walk root = program.walk root :=
    walk_mapSymbolsIn _ root
  have hinside {id : StmtId} (hid : program.Has id) (hmem : id ∈ program.walk root) :
      (program.substitute root old new).stmt id = { program.stmt id with
        kind := (program.kind id).mapSymbols (SymId.replace old new) } := by
    rw [stmt_substitute h hid, if_pos hmem]
  have houtside {id : StmtId} (hout : id ∉ program.walk root) :
      (program.substitute root old new).stmt id = program.stmt id := by
    by_cases hid : program.Has id
    · rw [stmt_substitute h hid, if_neg hout]
      rfl
    · rw [stmt_of_not_has hid, substitute, stmt_of_not_has ((has_mapSymbolsIn _).not.mpr hid)]
  have hmentions {id : StmtId} (hid : program.Has id) (symbol : SymId) :
      id ∈ (program.substitute root old new).statementsMentioning root symbol ↔
        id ∈ program.walk root ∧
          ((program.kind id).mapSymbols (SymId.replace old new)).Mentions symbol := by
    rw [mem_statementsMentioning, hwalk]
    refine and_congr_right fun hmem ↦ ?_
    rw [Program.kind, hinside hid hmem]
  refine ⟨hwalk, hinside, fun hid hmem ↦ ?_, fun hid ↦ ?_, houtside, mapSymbolsIn_arenas ..⟩
  · exact StmtKind.not_mentions_old h ((hmentions hid old).mp hmem).2
  · rw [hmentions hid, StmtKind.mentions_new_iff, mem_statementsMentioning,
      mem_statementsMentioning, and_or_left]

end Program

/-- Visiting and replacing see the same symbols, and no others are there to be seen. A replacement
sends the visited sequence to its image and leaves everything else in the statement, which is the
only statement of which that holds. Replacing by the identity changes nothing, and replacing twice
is replacing once. So the mentions of a symbol in a tree are found, and all of them go when another
symbol takes its place. -/
theorem visits_exactly_what_is_replaced :
    (∀ (kind : StmtKind) (f : SymId → SymId),
      (kind.mapSymbols f).symbols = kind.symbols.map f ∧ kind.SameForm (kind.mapSymbols f) ∧
        ∀ other, kind.SameForm other → other.symbols = kind.symbols.map f →
          other = kind.mapSymbols f) ∧
    (∀ kind : StmtKind, kind.mapSymbols id = kind) ∧
    (∀ (kind : StmtKind) (f g : SymId → SymId),
      (kind.mapSymbols f).mapSymbols g = kind.mapSymbols (g ∘ f)) ∧
    (∀ (program : Program) (root id : StmtId) (symbol : SymId),
      id ∈ program.statementsMentioning root symbol ↔
        id ∈ program.walk root ∧ (program.kind id).Mentions symbol) ∧
    ∀ (program : Program) (root : StmtId) (old new : SymId), old ≠ new →
      program.Substitutes root old new (program.substitute root old new) :=
  ⟨fun kind f ↦ ⟨kind.symbols_mapSymbols f, kind.sameForm_mapSymbols f,
      fun _ hform hsymbols ↦ hform.eq_mapSymbols hsymbols⟩,
    StmtKind.mapSymbols_id, fun kind f g ↦ kind.mapSymbols_mapSymbols f g,
    fun _ _ _ _ ↦ Program.mem_statementsMentioning,
    fun program root _ _ hne ↦ program.substitutes root hne⟩

/-- One function with a loop and a call behind it. The loop tests a variable and changes it, and the
call is passed the variable. -/
def loopBeforeCall : Program where
  types := builtinTypes
  statements := #[
    { kind := .plain [⟨1⟩, ⟨4⟩], span := .none, bodyOf := some ⟨0⟩ },
    { kind := .block (some (.whileLoop (.sym ⟨0⟩))) [⟨2⟩, ⟨3⟩], span := .none, parent := some ⟨0⟩ },
    { kind := .action (.assign ⟨0⟩ (.prim .add [.sym ⟨1⟩, .sym ⟨0⟩])), span := .none,
      parent := some ⟨1⟩ },
    { kind := .action (.store ⟨1⟩ (.int 1)), span := .none, parent := some ⟨1⟩ },
    { kind := .action (.evaluate (.call ⟨0⟩ [.sym ⟨0⟩])), span := .none, parent := some ⟨0⟩ }]
  functions := #[{ name := "main", retType := .void, body := ⟨0⟩ }]

/-- In the loop the variable gives way to the other one, and the call keeps it. -/
theorem visits_and_replaces_loopBeforeCall :
    (⟨0⟩ : SymId) ≠ ⟨1⟩ ∧
    loopBeforeCall.walk ⟨1⟩ = [⟨1⟩, ⟨2⟩, ⟨3⟩] ∧
    loopBeforeCall.statementsMentioning ⟨1⟩ ⟨0⟩ = [⟨1⟩, ⟨2⟩] ∧
    loopBeforeCall.Substitutes ⟨1⟩ ⟨0⟩ ⟨1⟩ (loopBeforeCall.substitute ⟨1⟩ ⟨0⟩ ⟨1⟩) ∧
    (loopBeforeCall.substitute ⟨1⟩ ⟨0⟩ ⟨1⟩).kind ⟨2⟩ =
      .action (.assign ⟨1⟩ (.prim .add [.sym ⟨1⟩, .sym ⟨1⟩])) ∧
    ((loopBeforeCall.substitute ⟨1⟩ ⟨0⟩ ⟨1⟩).kind ⟨4⟩).Mentions ⟨0⟩ := by
  obtain ⟨-, -, -, -, hreplaces⟩ := visits_exactly_what_is_replaced
  have hsubstitutes := hreplaces loopBeforeCall ⟨1⟩ ⟨0⟩ ⟨1⟩ (by decide)
  refine ⟨by decide, by decide, by decide, hsubstitutes, ?_, ?_⟩
  · rw [Program.kind, hsubstitutes.inside (by decide) (by decide)]
    rfl
  · rw [Program.kind, hsubstitutes.outside (by decide)]
    exact .evaluated (.call (List.mem_singleton_self _))

end IteratorLowering
