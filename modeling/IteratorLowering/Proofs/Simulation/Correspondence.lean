import IteratorLowering.Evaluation.Run
import Mathlib.Logic.Relator

/-!
# Programs that correspond

A `Correspondence` says which statements of two programs stand for each other, how the symbols of
the first are called in the second, and which of the first one's variables the second one has.
Statement lists need not match one to one: a stretch of the first list may have a stretch of the
second for it, which does the same in another way (`Correspondence.Members.stretch`).

`Correspondence.Sound` lists what has to be checked of the two programs. It says nothing about runs
except that a correspondence which is sound, and whose stretches do the same, is followed by every
run.
-/

set_option autoImplicit false
set_option relaxedAutoImplicit false

namespace IteratorLowering

/-- The expression that an action evaluates. -/
def Action.expression? : Action → Option Expr
  | .assign _ value | .evaluate value => some value
  | .define _ | .store .. | .setField .. | .yield _ | .ret _ | .goto _ | .fail _ | .noop => none

/-- The local whose address the expression is. -/
def Expr.address? : Expr → Option SymId
  | .addressOf symbol => some symbol
  | .use _ | .prim .. | .call .. | .tableCall .. | .fieldAddress .. | .fieldValue .. | .cast ..
  | .hasClass .. | .deref _ => none

/-- The function that the expression calls by name. -/
def Expr.callee? : Expr → Option FnId
  | .call callee _ => some callee
  | .use _ | .prim .. | .tableCall .. | .fieldAddress .. | .fieldValue .. | .cast .. | .hasClass ..
  | .addressOf _ | .deref _ => none

/-- The label that the action jumps to. -/
def Action.jump? : Action → Option SymId
  | .goto label => some label
  | .define _ | .assign .. | .store .. | .setField .. | .evaluate _ | .yield _ | .ret _ | .fail _
  | .noop => none

/-- Whether a block is run once as it stands, whatever its marker is. -/
def isPlainInfo : Option BlockInfo → Bool
  | some (.whileLoop _) | some (.forLoop _) => false
  | none | some .confined | some (.parallel _) | some (.on _) => true

/-- How the statements and symbols of two programs correspond. -/
structure Correspondence where
  source : Program
  target : Program
  rename : SymId → SymId
  /-- The variables that both runs give the same values. -/
  kept : SymId → Prop
  /-- The symbols whose entries the two programs share. -/
  named : SymId → Prop
  /-- The variables that references may lead to. -/
  shared : SymId → Prop
  /-- The labels that are jumped to. -/
  jumped : SymId → Prop
  /-- The functions that are called. -/
  called : FnId → Prop
  pairs : StmtId → StmtId → Prop
  /-- Stretches of statement lists that do the same. -/
  stretch : List StmtId → List StmtId → Prop

namespace Correspondence

variable (c : Correspondence)

/-- The names of the variables that references may lead to. -/
def names (symbol symbol' : SymId) : Prop := c.shared symbol ∧ symbol' = c.rename symbol

/-- Statement lists that correspond member by member and stretch by stretch. -/
inductive Members : List StmtId → List StmtId → Prop
  | nil : Members [] []
  | cons {id id' : StmtId} {rest rest' : List StmtId} (h : c.pairs id id')
      (more : Members rest rest') : Members (id :: rest) (id' :: rest')
  | stretch {ids ids' rest rest' : List StmtId} (h : c.stretch ids ids')
      (more : Members rest rest') : Members (ids ++ rest) (ids' ++ rest')

/-- The symbols that are read are kept, and so are their entries. -/
def Reads (symbols : List SymId) : Prop := ∀ symbol ∈ symbols, c.kept symbol

/-- The expression reads what is kept, refers to what is shared and calls what corresponds. -/
structure Evaluates (value : Expr) : Prop where
  reads : c.Reads value.symbols
  address : ∀ symbol ∈ value.address?, c.shared symbol
  callee : ∀ function ∈ value.callee?, c.called function

/-- Actions that do the same, up to the values of the variables that are not kept. -/
inductive Actions : Action → Action → Prop
  | same {inner : Action} (hreads : c.Reads inner.reads)
      (hnamed : ∀ symbol ∈ inner.named?, c.named symbol)
      (hjump : ∀ label ∈ inner.jump?, c.jumped label)
      (hvalue : ∀ value ∈ inner.expression?, c.Evaluates value) :
      Actions inner (inner.mapSymbols c.rename)
  | unread {target : SymId} {value : Expr} (htarget : ¬ c.kept target)
      (hvalue : c.Evaluates value) :
      Actions (.assign target value) (.evaluate (value.mapSymbols c.rename))

/-- Statements that do the same. -/
inductive Kinds : StmtKind → StmtKind → Prop
  | action {inner inner' : Action} (h : c.Actions inner inner') :
      Kinds (.action inner) (.action inner')
  | branch {condition : Operand} {thenBlock thenBlock' : StmtId}
      {elseBlock elseBlock' : Option StmtId} (hcondition : c.Reads condition.symbols)
      (hthen : c.pairs thenBlock thenBlock') (helse : Option.Rel c.pairs elseBlock elseBlock') :
      Kinds (.branch condition thenBlock elseBlock)
        (.branch (condition.mapSymbols c.rename) thenBlock' elseBlock')
  | plain {info info' : Option BlockInfo} {body body' : List StmtId}
      (hinfo : isPlainInfo info = true) (hinfo' : isPlainInfo info' = true)
      (hbody : c.Members body body') : Kinds (.block info body) (.block info' body')
  | whileLoop {condition : Operand} {body body' : List StmtId}
      (hcondition : c.Reads condition.symbols) (hbody : c.Members body body') :
      Kinds (.block (some (.whileLoop condition)) body)
        (.block (some (.whileLoop (condition.mapSymbols c.rename))) body')
  | forLoop {header : List Operand} {body body' : List StmtId}
      (hheader : c.Reads (operandSymbols header)) (hbody : c.Members body body') :
      Kinds (.block (some (.forLoop header)) body)
        (.block (some (.forLoop (header.map (Operand.mapSymbols c.rename)))) body')

/-- Functions that do the same. -/
structure Functions (definition definition' : FnDef) : Prop where
  name : definition'.name = definition.name
  flags : definition'.flags = definition.flags
  iteratorInfo : definition'.iteratorInfo = definition.iteratorInfo
  formals : definition'.formals = definition.formals.map c.rename
  retSym : definition'.retSym = definition.retSym.map c.rename
  kept : ∀ symbol ∈ definition.retSym, c.kept symbol
  body : c.pairs definition.body definition'.body

/-- What is checked of programs that correspond. -/
structure Sound : Prop where
  injective : Function.Injective c.rename
  symbolName : ∀ {symbol}, c.named symbol →
    c.target.symbolName (c.rename symbol) = c.source.symbolName symbol
  symbolType : ∀ {symbol}, c.named symbol →
    c.target.symbolType (c.rename symbol) = c.source.symbolType symbol
  isLabel : ∀ {symbol}, c.named symbol →
    (c.target.symbol (c.rename symbol)).isLabel = (c.source.symbol symbol).isLabel
  named : ∀ {symbol}, c.kept symbol → c.named symbol
  kept : ∀ {symbol}, c.shared symbol → c.kept symbol
  label : ∀ {symbol}, c.jumped symbol → c.named symbol
  types : c.target.types = c.source.types
  table : c.target.table = c.source.table
  functionName : ∀ id, c.target.functionName id = c.source.functionName id
  slot : ∀ {slot function}, c.source.table.get? slot = some function → c.called function
  iterator : ∀ {type function}, (c.source.type type).iteratorFn = some function →
    c.called function
  function : ∀ {id}, c.called id → c.Functions (c.source.function id) (c.target.function id)
  statement : ∀ {id id'}, c.pairs id id' → c.Kinds (c.source.kind id) (c.target.kind id')
  stretch_ne_nil : ∀ {ids ids'}, c.stretch ids ids' → ids ≠ []
  stretch_label : ∀ {ids ids'}, c.stretch ids ids' → ∀ {label}, c.jumped label →
    (∀ id ∈ ids, (c.source.kind id).defined? ≠ some label) ∧
      ∀ id ∈ ids', (c.target.kind id).defined? ≠ some (c.rename label)

variable {c}

namespace Sound

variable (h : c.Sound)

include h

theorem biUnique_names : Relator.BiUnique c.names := by
  constructor
  · rintro first second _ ⟨_, rfl⟩ ⟨_, heq⟩
    exact h.injective heq
  · rintro _ first second ⟨_, rfl⟩ ⟨_, rfl⟩
    rfl

theorem type (id : TypeId) : c.target.type id = c.source.type id := by
  rw [Program.type, Program.type, h.types]

/-- Corresponding statements place a label that is jumped to together. -/
theorem defined?_eq_iff {id id' : StmtId} (hpair : c.pairs id id') {label : SymId} :
    (c.source.kind id).defined? = some label ↔
      (c.target.kind id').defined? = some (c.rename label) := by
  have hkinds := h.statement hpair
  revert hkinds
  generalize c.source.kind id = kind, c.target.kind id' = kind'
  intro hkinds
  cases hkinds with
  | action hinner =>
    cases hinner with
    | same =>
      rename_i inner _ _ _ _
      cases inner with
      | define symbol =>
        simp only [StmtKind.defined?, Action.mapSymbols, Option.some.injEq, h.injective.eq_iff]
      | _ => simp [StmtKind.defined?, Action.mapSymbols]
    | unread => simp [StmtKind.defined?]
  | _ => simp [StmtKind.defined?]

/-- Corresponding loops and blocks have corresponding members. -/
theorem blockBody {id id' : StmtId} (hpair : c.pairs id id') :
    c.Members (c.source.blockBody id) (c.target.blockBody id') := by
  have hkinds := h.statement hpair
  unfold Program.blockBody
  revert hkinds
  generalize c.source.kind id = kind, c.target.kind id' = kind'
  intro hkinds
  cases hkinds with
  | action => exact .nil
  | branch => exact .nil
  | plain _ _ hbody => exact hbody
  | whileLoop _ hbody => exact hbody
  | forLoop _ hbody => exact hbody

omit h in
theorem afterLabel?_append {ids rest : List StmtId} {label : SymId} (program : Program)
    (hids : ∀ id ∈ ids, (program.kind id).defined? ≠ some label) :
    program.afterLabel? label (ids ++ rest) = program.afterLabel? label rest := by
  induction ids with
  | nil => rfl
  | cons id ids ih =>
    rw [List.cons_append, Program.afterLabel?, if_neg (hids id List.mem_cons_self)]
    exact ih fun other hother ↦ hids other (List.mem_cons_of_mem _ hother)

/-- A jump leads to corresponding places of corresponding lists, or leaves both. -/
theorem afterLabel? {label : SymId} (hlabel : c.jumped label) {body body' : List StmtId}
    (hbody : c.Members body body') :
    Option.Rel c.Members (c.source.afterLabel? label body)
      (c.target.afterLabel? (c.rename label) body') := by
  induction hbody with
  | nil => exact .none
  | @cons id id' rest rest' hpair more ih =>
    unfold Program.afterLabel?
    by_cases hdefined : (c.source.kind id).defined? = some label
    · rw [if_pos hdefined, if_pos ((h.defined?_eq_iff hpair).mp hdefined)]
      exact .some more
    · rw [if_neg hdefined, if_neg fun h' ↦ hdefined ((h.defined?_eq_iff hpair).mpr h')]
      exact ih
  | stretch hstretch more ih =>
    obtain ⟨hids, hids'⟩ := h.stretch_label hstretch hlabel
    rw [afterLabel?_append _ hids, afterLabel?_append _ hids']
    exact ih

end Sound

end Correspondence

end IteratorLowering
