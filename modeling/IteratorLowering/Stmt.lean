import IteratorLowering.Expr
import IteratorLowering.Span

/-!
# Statements

A statement is an `Action`, which has no statement inside, or one of the two forms that nest:
the conditional and the block. A block's `BlockInfo` turns it into a loop or a restricted
region. The arena entry `Stmt` adds the links of the statement forest to the statement's kind.

The visitors look at a statement's own operands and not at nested statements. `reads` lists the
symbols that are read, `written?` is the local that is overwritten, `symbols` lists all of them
in the order written, and `mapSymbols` replaces them; see `StmtKind.symbols_mapSymbols`.
-/

set_option autoImplicit false
set_option relaxedAutoImplicit false

namespace IteratorLowering

/-- The flavours of parallel blocks. -/
inductive ParallelKind where
  | begin
  | cobegin
  | coforall
  deriving DecidableEq, Repr, Inhabited

/-- The marker that turns a plain block into a loop or a restricted region. -/
inductive BlockInfo where
  /-- A loop over the elements of an iterator. A well-formed header is the index and the
  iterator instance. -/
  | forLoop (header : List Operand)
  /-- A loop that runs while the condition holds, testing before each round. -/
  | whileLoop (condition : Operand)
  /-- A region that must not span a suspension point. -/
  | confined
  | parallel (kind : ParallelKind)
  | on (nonBlocking : Bool)
  deriving DecidableEq, Repr, Inhabited

namespace BlockInfo

/-- The header of a loop over an iterator instance. -/
def forEach (index iterator : SymId) : BlockInfo := .forLoop [.sym index, .sym iterator]

/-- The index and the iterator of a well-formed for-loop header. -/
def forHeader? : BlockInfo → Option (SymId × SymId)
  | .forLoop [.sym index, .sym iterator] => some (index, iterator)
  | _ => none

/-- The symbols of the header. -/
def symbols : BlockInfo → List SymId
  | .forLoop header => operandSymbols header
  | .whileLoop condition => condition.symbols
  | .confined | .parallel _ | .on _ => []

/-- Replace the symbols of the header. -/
def mapSymbols (f : SymId → SymId) : BlockInfo → BlockInfo
  | .forLoop header => .forLoop (header.map (Operand.mapSymbols f))
  | .whileLoop condition => .whileLoop (condition.mapSymbols f)
  | .confined => .confined
  | .parallel kind => .parallel kind
  | .on nonBlocking => .on nonBlocking

theorem symbols_mapSymbols (f : SymId → SymId) (info : BlockInfo) :
    (info.mapSymbols f).symbols = info.symbols.map f := by
  cases info <;> simp [symbols, mapSymbols, Operand.symbols_mapSymbols, operandSymbols_map]

end BlockInfo

/-- A statement without nested statements. -/
inductive Action where
  /-- Declares a local, or places a label. -/
  | define (symbol : SymId)
  | assign (target : SymId) (value : Expr)
  /-- A write through a reference. -/
  | store (reference : SymId) (value : Operand)
  | setField (base : SymId) (field : FieldRef) (value : Operand)
  /-- An expression evaluated for its effect. -/
  | evaluate (value : Expr)
  | yield (value : Operand)
  | ret (value : Operand)
  | goto (label : SymId)
  /-- Ends execution with a fixed message. -/
  | fail (message : String)
  | noop
  deriving DecidableEq, Repr, Inhabited

namespace Action

/-- The symbols that the action reads. -/
def reads : Action → List SymId
  | .define _ | .goto _ | .fail _ | .noop => []
  | .assign _ value | .evaluate value => value.symbols
  | .store reference value => reference :: value.symbols
  | .setField base _ value => base :: value.symbols
  | .yield value | .ret value => value.symbols

/-- The symbol that the action names without reading it. -/
def named? : Action → Option SymId
  | .define symbol | .goto symbol | .assign symbol _ => some symbol
  | .store .. | .setField .. | .evaluate _ | .yield _ | .ret _ | .fail _ | .noop => none

/-- The local that the action overwrites. -/
def written? : Action → Option SymId
  | .assign target _ => some target
  | .define _ | .store .. | .setField .. | .evaluate _ | .yield _ | .ret _ | .goto _ | .fail _
  | .noop => none

/-- Replace every symbol of the action. -/
def mapSymbols (f : SymId → SymId) : Action → Action
  | .define symbol => .define (f symbol)
  | .assign target value => .assign (f target) (value.mapSymbols f)
  | .store reference value => .store (f reference) (value.mapSymbols f)
  | .setField base field value => .setField (f base) field (value.mapSymbols f)
  | .evaluate value => .evaluate (value.mapSymbols f)
  | .yield value => .yield (value.mapSymbols f)
  | .ret value => .ret (value.mapSymbols f)
  | .goto label => .goto (f label)
  | .fail message => .fail message
  | .noop => .noop

theorem reads_mapSymbols (f : SymId → SymId) (action : Action) :
    (action.mapSymbols f).reads = action.reads.map f := by
  cases action <;>
    simp [reads, mapSymbols, Expr.symbols_mapSymbols, Operand.symbols_mapSymbols]

theorem named?_mapSymbols (f : SymId → SymId) (action : Action) :
    (action.mapSymbols f).named? = action.named?.map f := by
  cases action <;> rfl

end Action

/-- A statement, as far as it does not depend on where it stands. -/
inductive StmtKind where
  | action (action : Action)
  /-- A conditional. Both branches are statements of their own, normally blocks. -/
  | branch (condition : Operand) (thenBlock : StmtId) (elseBlock : Option StmtId)
  | block (info : Option BlockInfo) (body : List StmtId)
  deriving DecidableEq, Repr, Inhabited

namespace StmtKind

/-- The direct child statements, in order of execution. -/
def children : StmtKind → List StmtId
  | .action _ => []
  | .branch _ thenBlock elseBlock => thenBlock :: elseBlock.toList
  | .block _ body => body

/-- The symbols that the statement reads, block headers included. -/
def reads : StmtKind → List SymId
  | .action inner => inner.reads
  | .branch condition _ _ => condition.symbols
  | .block info _ => (info.map BlockInfo.symbols).getD []

/-- The symbol that the statement names without reading it. -/
def named? : StmtKind → Option SymId
  | .action inner => inner.named?
  | .branch .. | .block .. => none

/-- The local that the statement overwrites. -/
def written? : StmtKind → Option SymId
  | .action inner => inner.written?
  | .branch .. | .block .. => none

/-- Every symbol that the statement's own operands mention, in the order written. -/
def symbols (kind : StmtKind) : List SymId := kind.named?.toList ++ kind.reads

/-- Whether the statement's own operands mention the symbol. -/
def mentions (kind : StmtKind) (symbol : SymId) : Bool := kind.symbols.contains symbol

/-- Replace every symbol of the statement's own operands. -/
def mapSymbols (f : SymId → SymId) : StmtKind → StmtKind
  | .action inner => .action (inner.mapSymbols f)
  | .branch condition thenBlock elseBlock =>
    .branch (condition.mapSymbols f) thenBlock elseBlock
  | .block info body => .block (info.map (BlockInfo.mapSymbols f)) body

/-- Whether the statement is a block of any kind. -/
def isBlock : StmtKind → Bool
  | .block .. => true
  | .action _ | .branch .. => false

/-- Whether the statement hands a value to the loop that consumes the iterator. -/
def isYield : StmtKind → Bool
  | .action (.yield _) => true
  | _ => false

/-- Whether the statement leaves the function. -/
def isReturn : StmtKind → Bool
  | .action (.ret _) => true
  | _ => false

/-- The marker of a marked block. -/
def blockInfo? : StmtKind → Option BlockInfo
  | .block info _ => info
  | .action _ | .branch .. => none

/-- The symbol that the statement declares or places. -/
def defined? : StmtKind → Option SymId
  | .action (.define symbol) => some symbol
  | _ => none

/-- The index and the iterator of a for-loop with a well-formed header. -/
def forHeader? (kind : StmtKind) : Option (SymId × SymId) :=
  kind.blockInfo?.bind BlockInfo.forHeader?

/-- Whether the statement is a loop over an iterator, well formed or not. -/
def isForLoop : StmtKind → Bool
  | .block (some (.forLoop _)) _ => true
  | _ => false

/-- A plain block without a marker. -/
def plain (body : List StmtId) : StmtKind := .block none body

theorem reads_mapSymbols (f : SymId → SymId) (kind : StmtKind) :
    (kind.mapSymbols f).reads = kind.reads.map f := by
  cases kind with
  | action inner => exact inner.reads_mapSymbols f
  | branch condition thenBlock elseBlock => exact condition.symbols_mapSymbols f
  | block info body =>
    cases info with
    | none => rfl
    | some info => exact info.symbols_mapSymbols f

theorem named?_mapSymbols (f : SymId → SymId) (kind : StmtKind) :
    (kind.mapSymbols f).named? = kind.named?.map f := by
  cases kind with
  | action inner => exact inner.named?_mapSymbols f
  | branch => rfl
  | block => rfl

/-- Visiting after a replacement sees the replaced symbols, in the same order. -/
theorem symbols_mapSymbols (f : SymId → SymId) (kind : StmtKind) :
    (kind.mapSymbols f).symbols = kind.symbols.map f := by
  simp only [symbols, reads_mapSymbols, named?_mapSymbols, List.map_append]
  cases kind.named? <;> rfl

@[simp] theorem children_mapSymbols (f : SymId → SymId) (kind : StmtKind) :
    (kind.mapSymbols f).children = kind.children := by
  cases kind <;> rfl

end StmtKind

/-- An arena entry: a statement and its links in the statement forest. -/
structure Stmt where
  kind : StmtKind
  span : Span
  /-- The block or conditional around the statement; none for function bodies and for detached
  statements. -/
  parent : Option StmtId := none
  /-- The function whose body the statement is. -/
  bodyOf : Option FnId := none
  deriving DecidableEq, Repr, Inhabited

end IteratorLowering
