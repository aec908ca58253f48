import IteratorLowering.Ident
import IteratorLowering.Span

/-!
# Functions and the iterator protocol

A `FnDef` is a function of the program. A function flagged as an iterator yields values when it
runs, and calling it builds an instance record instead of running it. Its `IteratorInfo` names
the instance types and the six `ProtocolOp` functions that advance, test and fetch.
-/

set_option autoImplicit false
set_option relaxedAutoImplicit false

namespace IteratorLowering

/-- What a function is used for. -/
structure FnFlags where
  /-- The body yields values, and calling the function builds an instance record. -/
  iterator : Bool := false
  /-- Marked for unconditional inlining at loops. -/
  inlineIterator : Bool := false
  /-- A leader-side dispatch helper. -/
  toLeader : Bool := false
  /-- A follower-side dispatch helper. -/
  toFollower : Bool := false
  /-- The copy routine for values of its single formal's type. -/
  autoCopy : Bool := false
  /-- The destroy routine for values of its single formal's type. -/
  autoDestroy : Bool := false
  /-- Provided by the runtime, without a body to lower. -/
  external : Bool := false
  /-- Synthesized by the lowering. -/
  generated : Bool := false
  deriving DecidableEq, Repr, Inhabited

/-- The flags set in either. -/
def FnFlags.union (first second : FnFlags) : FnFlags where
  iterator := first.iterator || second.iterator
  inlineIterator := first.inlineIterator || second.inlineIterator
  toLeader := first.toLeader || second.toLeader
  toFollower := first.toFollower || second.toFollower
  autoCopy := first.autoCopy || second.autoCopy
  autoDestroy := first.autoDestroy || second.autoDestroy
  external := first.external || second.external
  generated := first.generated || second.generated

/-- An operation of the iterator protocol. -/
inductive ProtocolOp where
  | zip1 | zip2 | zip3 | zip4 | hasMore | getValue
  deriving DecidableEq, Repr, Inhabited

/-- Every protocol operation, in order. -/
def ProtocolOp.all : List ProtocolOp := [.zip1, .zip2, .zip3, .zip4, .hasMore, .getValue]

/-- What is needed to drive an iterator through its protocol. -/
structure IteratorInfo where
  recordType : TypeId
  classType : TypeId
  getIterator : FnId
  zip1 : FnId
  zip2 : FnId
  zip3 : FnId
  zip4 : FnId
  hasMore : FnId
  getValue : FnId
  deriving DecidableEq, Repr, Inhabited

/-- The function behind a protocol operation. -/
def IteratorInfo.protocolFn (info : IteratorInfo) : ProtocolOp → FnId
  | .zip1 => info.zip1
  | .zip2 => info.zip2
  | .zip3 => info.zip3
  | .zip4 => info.zip4
  | .hasMore => info.hasMore
  | .getValue => info.getValue

/-- A function definition. -/
structure FnDef where
  name : String
  formals : List SymId := []
  retType : TypeId
  /-- The symbol that holds the returned value at the end of the body. -/
  retSym : Option SymId := none
  /-- The root block. -/
  body : StmtId
  flags : FnFlags := {}
  iteratorInfo : Option IteratorInfo := none
  /-- The receiver formal of a method. -/
  receiver : Option SymId := none
  span : Span := .none
  deriving DecidableEq, Repr, Inhabited

/-- Whether calling the function builds an instance record. -/
def FnDef.isIterator (function : FnDef) : Bool := function.flags.iterator

end IteratorLowering
