import IteratorLowering.Proofs.Forest.Enclosing
import IteratorLowering.Proofs.Forest.Renaming
import IteratorLowering.Proofs.Simulation.Runs
import IteratorLowering.Simplify.Gotos

/-!
# Programs with rewritten statements

What has to be checked of a statement, so that it corresponds to its image, is what it mentions
(`Correspondence.Allows`). Where a program differs from another one in its statements only and
keeps their handles, a statement corresponds to itself wherever it stands
(`Correspondence.rewriting`), and what is left to be checked is each statement that stands and the
stretches that were rewritten (`Correspondence.sound_rewriting`).

All this takes for granted that every function that is called has been made
(`Program.CallsKnown`).
-/

set_option autoImplicit false
set_option relaxedAutoImplicit false

namespace IteratorLowering

/-- Replace the statements that are nested in a statement. -/
def StmtKind.mapStmts (image : StmtId → StmtId) : StmtKind → StmtKind
  | .action inner => .action inner
  | .branch condition thenBlock elseBlock =>
    .branch condition (image thenBlock) (elseBlock.map image)
  | .block info body => .block info (body.map image)

theorem StmtKind.mapStmts_id (kind : StmtKind) : kind.mapStmts id = kind := by
  cases kind <;> simp [mapStmts]

/-- The expression that a statement evaluates. -/
def StmtKind.expression? : StmtKind → Option Expr
  | .action inner => inner.expression?
  | .branch .. | .block .. => none

theorem Action.gotoTarget?_eq_jump? (inner : Action) :
    (StmtKind.action inner).gotoTarget? = inner.jump? := by
  cases inner <;> rfl

theorem StmtKind.mem_symbols_of_gotoTarget? {kind : StmtKind} {label : SymId}
    (h : kind.gotoTarget? = some label) : label ∈ kind.symbols := by
  cases kind with
  | action inner =>
    cases inner with
    | goto =>
      cases h
      exact List.mem_cons_self
    | _ => cases h
  | branch | block => cases h

theorem Expr.address?_subset {value : Expr} {symbol : SymId} (h : symbol ∈ value.address?) :
    symbol ∈ value.symbols := by
  cases value with
  | addressOf other =>
    cases h
    exact List.mem_singleton_self symbol
  | _ => cases h

theorem StmtKind.symbols_subset_of_expression? {kind : StmtKind} {value : Expr}
    (h : kind.expression? = some value) : value.symbols ⊆ kind.reads := by
  cases kind with
  | action inner => cases inner <;> cases h <;> exact List.Subset.refl _
  | branch | block => cases h

namespace Program

instance (program : Program) (id : FnId) : Decidable (program.HasFunction id) :=
  inferInstanceAs (Decidable (_ < _))

/-- Whether a statement stands in some function. -/
def Stands (program : Program) (id : StmtId) : Prop :=
  ∃ function, program.HasFunction function ∧ program.StandsIn function id

/-- Every function that a statement, the table or a type names has been made. -/
structure CallsKnown (program : Program) : Prop where
  callee : ∀ {id}, program.Stands id → ∀ value ∈ (program.kind id).expression?,
    ∀ function ∈ value.callee?, program.HasFunction function
  slot : ∀ {slot function}, program.table.get? slot = some function →
    program.HasFunction function
  iterator : ∀ {type function}, (program.type type).iteratorFn = some function →
    program.HasFunction function

/-- It is enough that every entry of the arenas names functions that have been made. -/
theorem callsKnown_of_forall {program : Program}
    (hstatements : ∀ stmt ∈ program.statements, ∀ value ∈ stmt.kind.expression?,
      ∀ function ∈ value.callee?, program.HasFunction function)
    (htable : ∀ function ∈ program.table.slots, program.HasFunction function)
    (htypes : ∀ type ∈ program.types, ∀ function ∈ type.iteratorFn,
      program.HasFunction function) : program.CallsKnown where
  callee {id} _ value hvalue function hfunction := by
    by_cases hid : program.Has id
    · refine hstatements (program.stmt id) ?_ value hvalue function hfunction
      rw [stmt, Array.getD_eq_getD_getElem?, Array.getElem?_eq_getElem hid]
      exact Array.getElem_mem hid
    · rw [Program.kind, stmt_of_not_has hid] at hvalue
      cases hvalue
  slot h := htable _ (Array.mem_of_getElem? h)
  iterator {id function} h := by
    by_cases hid : id.index < program.types.size
    · refine htypes (program.type id) ?_ function h
      rw [type, Array.getD_eq_getD_getElem?, Array.getElem?_eq_getElem hid]
      exact Array.getElem_mem hid
    · rw [type, Array.getD_eq_getD_getElem?, Array.getElem?_eq_none (Nat.not_lt.mp hid)] at h
      cases h

/-- The symbols that a function mentions: as a formal, as its result, or in a statement. -/
def Mentions (program : Program) (function : FnId) (symbol : SymId) : Prop :=
  symbol ∈ (program.function function).formals ∨ symbol ∈ (program.function function).retSym ∨
    ∃ id ∈ program.functionStmts function, symbol ∈ (program.kind id).symbols

/-- No other function mentions what the function declares. -/
def DeclaresAlone (program : Program) (function : FnId) : Prop :=
  ∀ {symbol}, program.DeclaresIn function symbol →
    ∀ {other}, program.HasFunction other → program.Mentions other symbol → other = function

/-- The only function declares alone. -/
theorem declaresAlone_of_size_eq_one {program : Program} (h : program.functions.size = 1)
    {function : FnId} (hfunction : program.HasFunction function) :
    program.DeclaresAlone function := by
  intro symbol _ other hother _
  obtain ⟨first⟩ := function
  obtain ⟨second⟩ := other
  simp only [HasFunction, h, Nat.lt_one_iff] at hfunction hother
  rw [hfunction, hother]

theorem WellLinked.stands_body {program : Program} (h : program.WellLinked) {function : FnId}
    (hfunction : program.HasFunction function) : program.Stands (program.bodyOf function) :=
  ⟨function, hfunction, h.standsIn_body hfunction⟩

theorem WellLinked.stands_child {program : Program} (h : program.WellLinked) {id child : StmtId}
    (hid : program.Stands id) (hchild : child ∈ (program.kind id).children) :
    program.Stands child := by
  obtain ⟨function, hfunction, hstands⟩ := hid
  exact ⟨function, hfunction, hstands.inside (.single (h.parent_of_child hchild))⟩

end Program

namespace Correspondence

variable {c : Correspondence}

/-! ### Statements and their images -/

/-- What a statement mentions corresponds. -/
structure Allows (c : Correspondence) (kind : StmtKind) : Prop where
  reads : c.Reads kind.reads
  named : ∀ symbol ∈ kind.named?, c.named symbol
  jump : ∀ label ∈ kind.gotoTarget?, c.jumped label
  value : ∀ value ∈ kind.expression?, c.Evaluates value

theorem Allows.action {inner : Action} (h : c.Allows (.action inner)) :
    c.Kinds (.action inner) (.action (inner.mapSymbols c.rename)) :=
  .action (.same h.reads h.named (Action.gotoTarget?_eq_jump? inner ▸ h.jump) h.value)

theorem Allows.branch {condition : Operand} {thenBlock thenBlock' : StmtId}
    {elseBlock elseBlock' : Option StmtId} (h : c.Allows (.branch condition thenBlock elseBlock))
    (hthen : c.pairs thenBlock thenBlock') (helse : Option.Rel c.pairs elseBlock elseBlock') :
    c.Kinds (.branch condition thenBlock elseBlock)
      (.branch (condition.mapSymbols c.rename) thenBlock' elseBlock') :=
  .branch h.reads hthen helse

theorem Allows.block {info : Option BlockInfo} {body body' : List StmtId}
    (h : c.Allows (.block info body)) (hbody : c.Members body body') :
    c.Kinds (.block info body) (.block (info.map (BlockInfo.mapSymbols c.rename)) body') := by
  rcases info with _ | (header | condition | _ | _ | _)
  · exact .plain rfl rfl hbody
  · exact .forLoop h.reads hbody
  · exact .whileLoop h.reads hbody
  all_goals exact .plain rfl rfl hbody

/-- Members that correspond to their images one by one. -/
theorem Members.of_forall {body : List StmtId} {image : StmtId → StmtId}
    (h : ∀ id ∈ body, c.pairs id (image id)) : c.Members body (body.map image) := by
  induction body with
  | nil => exact .nil
  | cons id rest ih =>
    exact .cons (h id List.mem_cons_self)
      (ih fun other hother ↦ h other (List.mem_cons_of_mem _ hother))

/-- A statement corresponds to its image if its children do. -/
theorem Allows.kinds {kind : StmtKind} (h : c.Allows kind) {image : StmtId → StmtId}
    (hchildren : ∀ child ∈ kind.children, c.pairs child (image child)) :
    c.Kinds kind ((kind.mapSymbols c.rename).mapStmts image) := by
  cases kind with
  | action inner => exact h.action
  | branch condition thenBlock elseBlock =>
    refine h.branch (hchildren thenBlock List.mem_cons_self) ?_
    cases elseBlock with
    | none => exact .none
    | some elseBlock =>
      exact .some (hchildren elseBlock (List.mem_cons_of_mem _ (List.mem_singleton_self elseBlock)))
  | block info body => exact h.block (.of_forall hchildren)

/-! ### Statements that keep their handles -/

/-- Statements stand for themselves where they stand, and symbols keep their names. -/
def rewriting (source target : Program) (kept shared jumped : SymId → Prop)
    (standing : StmtId → Prop) (stretch : List StmtId → List StmtId → Prop) : Correspondence where
  source := source
  target := target
  rename := id
  kept := kept
  named := fun _ ↦ True
  shared := shared
  jumped := jumped
  called := source.HasFunction
  pairs := fun id id' ↦ id' = id ∧ standing id
  stretch := stretch

variable {source target : Program} {kept shared jumped : SymId → Prop} {standing : StmtId → Prop}
variable {stretch : List StmtId → List StmtId → Prop}

/-- A statement that was not rewritten stands for itself if its children do. -/
theorem Allows.kinds_self {kind : StmtKind}
    (h : (rewriting source target kept shared jumped standing stretch).Allows kind)
    (hchildren : ∀ child ∈ kind.children, standing child) :
    (rewriting source target kept shared jumped standing stretch).Kinds kind kind := by
  have hkinds :=
    h.kinds fun child hchild ↦ ⟨(id_eq child : id child = child), hchildren child hchild⟩
  rwa [show (rewriting source target kept shared jumped standing stretch).rename = id from rfl,
    StmtKind.mapSymbols_id, StmtKind.mapStmts_id] at hkinds

/-- A block whose members were rewritten. -/
theorem Allows.block_self {info : Option BlockInfo} {body body' : List StmtId}
    (h : (rewriting source target kept shared jumped standing stretch).Allows (.block info body))
    (hbody : (rewriting source target kept shared jumped standing stretch).Members body body') :
    (rewriting source target kept shared jumped standing stretch).Kinds (.block info body)
      (.block info body') := by
  have hinfo := StmtKind.mapSymbols_id (.block info [])
  rw [StmtKind.mapSymbols, StmtKind.block.injEq] at hinfo
  have hkinds := h.block hbody
  rwa [show (rewriting source target kept shared jumped standing stretch).rename = id from rfl,
    hinfo.1] at hkinds

/-- An assignment that nothing reads, cut down to its expression. -/
theorem Evaluates.kinds_unread {assigned : SymId} {value : Expr} (hassigned : ¬ kept assigned)
    (hvalue : (rewriting source target kept shared jumped standing stretch).Evaluates value) :
    (rewriting source target kept shared jumped standing stretch).Kinds
      (.action (.assign assigned value)) (.action (.evaluate value)) := by
  have hkinds : (rewriting source target kept shared jumped standing stretch).Kinds
      (.action (.assign assigned value)) (.action (.evaluate (value.mapSymbols id))) :=
    .action (.unread hassigned hvalue)
  rwa [Expr.mapSymbols_id] at hkinds

theorem sound_rewriting (htarget : target = { source with statements := target.statements })
    (hcalls : source.CallsKnown) (hkept : ∀ {symbol}, shared symbol → kept symbol)
    (hret : ∀ {function}, source.HasFunction function →
      ∀ symbol ∈ (source.function function).retSym, kept symbol)
    (hbody : ∀ {function}, source.HasFunction function → standing (source.bodyOf function))
    (hstatement : ∀ {id}, standing id →
      (rewriting source target kept shared jumped standing stretch).Kinds (source.kind id)
        (target.kind id))
    (hstretch : ∀ {ids ids'}, stretch ids ids' → ids ≠ [] ∧ ∀ {label}, jumped label →
      (∀ id ∈ ids, (source.kind id).defined? ≠ some label) ∧
        ∀ id ∈ ids', (target.kind id).defined? ≠ some label) :
    (rewriting source target kept shared jumped standing stretch).Sound := by
  have hsymbol : ∀ symbol, target.symbol symbol = source.symbol symbol := fun symbol ↦ by
    rw [htarget]
    rfl
  have hfunction : ∀ function, target.function function = source.function function :=
    fun function ↦ by
      rw [htarget]
      rfl
  exact {
    injective := Function.injective_id
    symbolName := fun _ ↦ congrArg Symbol.name (hsymbol _)
    symbolType := fun _ ↦ congrArg Symbol.type (hsymbol _)
    isLabel := fun _ ↦ congrArg Symbol.isLabel (hsymbol _)
    named := fun _ ↦ trivial
    kept := hkept
    label := fun _ ↦ trivial
    types := by
      change target.types = source.types
      rw [htarget]
    table := by
      change target.table = source.table
      rw [htarget]
    functionName := fun function ↦ congrArg FnDef.name (hfunction function)
    slot := hcalls.slot
    iterator := hcalls.iterator
    function := fun {function} hknown ↦ by
      have heq : (rewriting source target kept shared jumped standing stretch).target.function
          function = source.function function := hfunction function
      rw [heq]
      exact ⟨rfl, rfl, rfl, (List.map_id _).symm, Option.map_id.symm ▸ rfl, hret hknown,
        rfl, hbody hknown⟩
    statement := by
      rintro id _ ⟨rfl, hstanding⟩
      exact hstatement hstanding
    stretch_ne_nil := fun h ↦ (hstretch h).1
    stretch_label := fun h _ hlabel ↦ (hstretch h).2 hlabel }

end Correspondence

end IteratorLowering
