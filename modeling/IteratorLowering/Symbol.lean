import IteratorLowering.Ident

/-!
# Symbols

A `Symbol` is a local variable, a formal parameter or a jump label. It belongs to the function
named by its owner; a symbol that was just made may have no owner yet.
-/

set_option autoImplicit false
set_option relaxedAutoImplicit false

namespace IteratorLowering

/-- What a symbol stands for. -/
inductive SymKind where
  /-- A local variable. -/
  | var
  /-- A formal parameter of the owning function. -/
  | arg
  /-- A jump target. -/
  | label
  deriving DecidableEq, Repr, Inhabited

/-- Remarks on a symbol. -/
structure SymFlags where
  /-- A temporary made during lowering or building. -/
  temp : Bool := false
  /-- A trailing parameter that carries the function's result out. -/
  retArg : Bool := false
  deriving DecidableEq, Repr, Inhabited

/-- A variable, formal or label. -/
structure Symbol where
  name : String
  kind : SymKind
  type : TypeId
  /-- The function whose frame holds the symbol. -/
  owner : Option FnId := none
  flags : SymFlags := {}
  deriving DecidableEq, Repr, Inhabited

/-- Whether the symbol is a jump target. -/
def Symbol.isLabel (symbol : Symbol) : Bool := symbol.kind == .label

end IteratorLowering
