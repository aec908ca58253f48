import IteratorLowering.Lowering.Fault

/-!
# Forwarding copies

`forwardCopies` replaces the reads of a temporary that only copies another symbol by reads of
that symbol. It does so where the temporary is assigned once, all its reads come later in the
block of the copy, and the copied symbol cannot change over that stretch: it is either a formal
that is never assigned, or a local that is assigned once, earlier in the same block, and not
declared again after that. A symbol whose address is taken, which stands in a loop header, or
which holds the function's result is left alone.

`SymbolUses` is what the pass knows about the function. It is gathered once, before the first
copy is forwarded.
-/

set_option autoImplicit false
set_option relaxedAutoImplicit false

namespace IteratorLowering

/-- Where the symbols of a function are assigned and declared, and which must stay as they
are. -/
structure SymbolUses where
  assignments : List (SymId × StmtId) := []
  declarations : List (SymId × StmtId) := []
  pinned : List SymId := []
  deriving Repr, Inhabited

namespace SymbolUses

/-- The assignments to a symbol, in program order. -/
def assignmentsOf (uses : SymbolUses) (symbol : SymId) : List StmtId :=
  (uses.assignments.filter fun use => use.1 == symbol).map Prod.snd

/-- The declarations of a symbol, in program order. -/
def declarationsOf (uses : SymbolUses) (symbol : SymId) : List StmtId :=
  (uses.declarations.filter fun use => use.1 == symbol).map Prod.snd

end SymbolUses

/-- The symbols that a statement pins down: one whose address it takes, and those of the header
of a for-loop. -/
def StmtKind.pinned : StmtKind → List SymId
  | .action (.assign _ (.addressOf symbol)) => [symbol]
  | .action (.evaluate (.addressOf symbol)) => [symbol]
  | .block (some (.forLoop header)) _ => operandSymbols header
  | _ => []

/-- The target and the source of a statement that copies a symbol. -/
def StmtKind.copy? : StmtKind → Option (SymId × SymId)
  | .action (.assign target (.use (.sym source))) => some (target, source)
  | _ => none

namespace Program

/-- The uses of symbols in the body of a function. -/
def symbolUses (program : Program) (function : FnId) : SymbolUses :=
  let body := program.functionStmts function
  { assignments := body.filterMap fun id =>
      (program.kind id).written?.map fun symbol => (symbol, id)
    declarations := body.filterMap fun id =>
      (program.kind id).defined?.map fun symbol => (symbol, id)
    pinned := (body.flatMap fun id => (program.kind id).pinned) ++
      (program.function function).retSym.toList }

/-- Whether the symbols of a copy allow it to be forwarded. -/
def isForwardable (program : Program) (uses : SymbolUses) (id : StmtId) (target source : SymId) :
    Bool :=
  let entry := program.symbol target
  target != source && entry.kind == .var && entry.flags.temp &&
    entry.type == program.symbolType source && uses.assignmentsOf target == [id] &&
    !uses.pinned.contains target && !uses.pinned.contains source

/-- Whether a symbol is declared again inside one of the statements. -/
def isRedeclared (program : Program) (uses : SymbolUses) (symbol : SymId)
    (statements : List StmtId) : Bool :=
  (uses.declarationsOf symbol).any fun declaration =>
    statements.any fun statement => program.isWithin declaration statement

/-- Whether a symbol keeps its value from before the statement at a position of a block to the
block's end. -/
def isStable (program : Program) (uses : SymbolUses) (siblings : List StmtId) (position : Nat)
    (symbol : SymId) : Bool :=
  match (program.symbol symbol).kind with
  | .arg => (uses.assignmentsOf symbol).isEmpty
  | .label => false
  | .var =>
    match uses.assignmentsOf symbol with
    | [assignment] =>
      match (siblings.take position).idxOf? assignment with
      | some assigned => !program.isRedeclared uses symbol (siblings.drop (assigned + 1))
      | none => false
    | _ => false

/-- The statements that mention the target of a copy, apart from the copy itself and from
declarations. -/
def copyReaders (program : Program) (body copy : StmtId) (target : SymId) : List StmtId :=
  (program.statementsMentioning body target).filter fun id =>
    id != copy && (program.kind id).defined?.isNone

/-- The statements in which a copy can be replaced by its source, if it can be forwarded. -/
def forwardingSites? (program : Program) (uses : SymbolUses) (body copy : StmtId)
    (target source : SymId) : Option (List StmtId) := do
  guard (program.isForwardable uses copy target source)
  let block ← program.parent copy
  let siblings := program.blockBody block
  let position ← siblings.idxOf? copy
  let later := siblings.drop (position + 1)
  let readers := program.copyReaders body copy target
  guard (readers.all fun reader => later.any fun statement => program.isWithin reader statement)
  guard (program.isStable uses siblings position source)
  return readers

/-- Replace a symbol by another in the statements themselves. -/
def replaceSymbolIn (program : Program) (statements : List StmtId) (old new : SymId) : Program :=
  statements.foldl
    (fun program id => program.setKind id ((program.kind id).mapSymbols fun symbol =>
      if symbol = old then new else symbol)) program

/-- Forward a statement, if it is a copy that can be forwarded, and count it. -/
def forwardCopy (uses : SymbolUses) (body : StmtId) (result : Nat × Program) (id : StmtId) :
    Nat × Program :=
  let (count, program) := result
  match (program.kind id).copy? with
  | none => result
  | some (target, source) =>
    match program.forwardingSites? uses body id target source with
    | none => result
    | some readers => (count + 1, program.replaceSymbolIn readers target source)

/-- Forward the copies of a function, in program order, and tell how many. -/
def forwardCopies (program : Program) (function : FnId) : Nat × Program :=
  (program.functionStmts function).foldl
    (forwardCopy (program.symbolUses function) (program.bodyOf function)) (0, program)

end Program

end IteratorLowering
