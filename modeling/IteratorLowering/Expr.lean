import IteratorLowering.Ident

/-!
# Operands and expressions

An expression is a single operation over operands, so function bodies stay in a flat
three-address shape. `Expr.symbols` lists the symbols that an expression mentions, from left to
right and with repeats, and `Expr.mapSymbols` replaces them. The two agree:
`Expr.symbols_mapSymbols`.
-/

set_option autoImplicit false
set_option relaxedAutoImplicit false

namespace IteratorLowering

/-- A literal constant. -/
inductive Lit where
  | int (value : Int64)
  | bool (value : Bool)
  | str (value : String)
  | void
  deriving DecidableEq, Repr, Inhabited

/-- A leaf value: a symbol or a constant. -/
inductive Operand where
  | sym (symbol : SymId)
  | lit (value : Lit)
  deriving DecidableEq, Repr, Inhabited

namespace Operand

/-- The constant without a value of interest. -/
def void : Operand := .lit .void

/-- An integer constant. -/
def int (value : Int64) : Operand := .lit (.int value)

/-- A truth constant. -/
def bool (value : Bool) : Operand := .lit (.bool value)

/-- The symbol of an operand that is one. -/
def symbol? : Operand → Option SymId
  | .sym symbol => some symbol
  | .lit _ => none

/-- The symbols that the operand mentions. -/
def symbols : Operand → List SymId
  | .sym symbol => [symbol]
  | .lit _ => []

/-- Replace the symbol of the operand, if it is one. -/
def mapSymbols (f : SymId → SymId) : Operand → Operand
  | .sym symbol => .sym (f symbol)
  | .lit value => .lit value

theorem symbols_mapSymbols (f : SymId → SymId) (operand : Operand) :
    (operand.mapSymbols f).symbols = operand.symbols.map f := by
  cases operand <;> rfl

end Operand

/-- The symbols that a list of operands mentions, in order. -/
def operandSymbols (operands : List Operand) : List SymId := operands.flatMap Operand.symbols

theorem operandSymbols_map (f : SymId → SymId) (operands : List Operand) :
    operandSymbols (operands.map (Operand.mapSymbols f)) = (operandSymbols operands).map f := by
  induction operands with
  | nil => rfl
  | cons operand rest ih =>
    simp only [operandSymbols, List.map_cons, List.flatMap_cons, List.map_append,
      Operand.symbols_mapSymbols] at ih ⊢
    rw [ih]

/-- The selector of a member access. -/
inductive FieldRef where
  /-- A 1-based ordinal among the fields after the header, used while the layout is pending. -/
  | ordinal (number : Nat)
  /-- A position in the field list. -/
  | index (position : Nat)
  deriving DecidableEq, Repr, Inhabited

/-- A primitive operation. -/
inductive PrimOp where
  | add | sub | mul | lt | le | gt | ge | eq | ne | and | or | not
  deriving DecidableEq, Repr, Inhabited

/-- Whether the operation compares its operands. -/
def PrimOp.isComparison : PrimOp → Bool
  | .lt | .le | .gt | .ge | .eq | .ne => true
  | .add | .sub | .mul | .and | .or | .not => false

/-- The right-hand side of an assignment, or the payload of an expression statement. -/
inductive Expr where
  | use (operand : Operand)
  | prim (op : PrimOp) (args : List Operand)
  /-- A direct call. -/
  | call (callee : FnId) (args : List Operand)
  /-- An indirect call through a slot of the function table. -/
  | tableCall (slot : Operand) (args : List Operand)
  /-- The address of a field. -/
  | fieldAddress (base : SymId) (field : FieldRef)
  /-- The value of a field. -/
  | fieldValue (base : SymId) (field : FieldRef)
  | cast (type : TypeId) (value : Operand)
  /-- Whether the runtime class of the value is exactly the class. -/
  | hasClass (value : SymId) (type : TypeId)
  /-- The address of a local. -/
  | addressOf (symbol : SymId)
  /-- The value behind a reference. -/
  | deref (symbol : SymId)
  deriving DecidableEq, Repr, Inhabited

namespace Expr

/-- Every symbol that the expression mentions, from left to right. -/
def symbols : Expr → List SymId
  | .use operand => operand.symbols
  | .prim _ args => operandSymbols args
  | .call _ args => operandSymbols args
  | .tableCall slot args => slot.symbols ++ operandSymbols args
  | .fieldAddress base _ => [base]
  | .fieldValue base _ => [base]
  | .cast _ value => value.symbols
  | .hasClass value _ => [value]
  | .addressOf symbol => [symbol]
  | .deref symbol => [symbol]

/-- Replace every symbol of the expression. -/
def mapSymbols (f : SymId → SymId) : Expr → Expr
  | .use operand => .use (operand.mapSymbols f)
  | .prim op args => .prim op (args.map (Operand.mapSymbols f))
  | .call callee args => .call callee (args.map (Operand.mapSymbols f))
  | .tableCall slot args => .tableCall (slot.mapSymbols f) (args.map (Operand.mapSymbols f))
  | .fieldAddress base field => .fieldAddress (f base) field
  | .fieldValue base field => .fieldValue (f base) field
  | .cast type value => .cast type (value.mapSymbols f)
  | .hasClass value type => .hasClass (f value) type
  | .addressOf symbol => .addressOf (f symbol)
  | .deref symbol => .deref (f symbol)

/-- Whether evaluating the expression has no observable effect. -/
def isPure : Expr → Bool
  | .call .. | .tableCall .. | .deref _ => false
  | .use _ | .prim .. | .fieldAddress .. | .fieldValue .. | .cast .. | .hasClass ..
  | .addressOf _ => true

theorem symbols_mapSymbols (f : SymId → SymId) (expression : Expr) :
    (expression.mapSymbols f).symbols = expression.symbols.map f := by
  cases expression <;>
    simp [symbols, mapSymbols, Operand.symbols_mapSymbols, operandSymbols_map]

end Expr

end IteratorLowering
