/-!
# Handles of the program arenas

A program stores its types, symbols, statements and functions in four arenas, and each arena is
addressed by a handle type of its own: `TypeId`, `SymId`, `StmtId` and `FnId`. A handle is the
position of its entry, handles are given out in order of creation, and nothing is ever freed, so
a handle stays valid for the life of the program.

The five builtin types stand at the front of every program: `TypeId.void`, `TypeId.bool`,
`TypeId.int`, `TypeId.str` and `TypeId.object`.
-/

set_option autoImplicit false
set_option relaxedAutoImplicit false

namespace IteratorLowering

/-- Handle of a type definition. -/
structure TypeId where
  index : Nat
  deriving DecidableEq, Repr, Inhabited

/-- Handle of a symbol: a variable, a formal or a label. -/
structure SymId where
  index : Nat
  deriving DecidableEq, Repr, Inhabited

/-- Handle of a statement. -/
structure StmtId where
  index : Nat
  deriving DecidableEq, Repr, Inhabited

/-- Handle of a function definition. -/
structure FnId where
  index : Nat
  deriving DecidableEq, Repr, Inhabited

namespace TypeId

/-- The builtin type without values of interest. -/
def void : TypeId := ⟨0⟩

/-- The builtin type of truth values. -/
def bool : TypeId := ⟨1⟩

/-- The builtin type of 64-bit integers. -/
def int : TypeId := ⟨2⟩

/-- The builtin type of texts. -/
def str : TypeId := ⟨3⟩

/-- The root class, from which every class derives. -/
def object : TypeId := ⟨4⟩

end TypeId

/-- The written form of a statement handle, as error messages show it. -/
def StmtId.text (statement : StmtId) : String := s!"s{statement.index}"

end IteratorLowering
