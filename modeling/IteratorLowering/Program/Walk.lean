import IteratorLowering.Program.Basic

/-!
# Walking the statement forest

Downwards, `Program.walk` lists a statement and everything nested in it in preorder. Upwards,
`Program.ancestors` lists a statement and everything around it, innermost first, and the
enclosing function and block are read off that list.

Both follow links for at most as many levels as there are statements. In a forest no path is
longer, so nothing is cut off.
-/

set_option autoImplicit false
set_option relaxedAutoImplicit false

namespace IteratorLowering

namespace Program

/-- The statements of the subtree, in preorder, down to the given number of levels. -/
def preorder (program : Program) : Nat → StmtId → List StmtId
  | 0, id => [id]
  | depth + 1, id => id :: (program.kind id).children.flatMap (program.preorder depth)

/-- The subtree of a statement in preorder, the statement itself first. -/
def walk (program : Program) (root : StmtId) : List StmtId :=
  program.preorder program.statements.size root

/-- Every statement of a function's body, in preorder. -/
def functionStmts (program : Program) (function : FnId) : List StmtId :=
  program.walk (program.bodyOf function)

/-- The statement and its ancestors, innermost first, up to the given number of levels. -/
def upwards (program : Program) : Nat → StmtId → List StmtId
  | 0, id => [id]
  | levels + 1, id =>
    match program.parent id with
    | some parent => id :: program.upwards levels parent
    | none => [id]

/-- The statement and its ancestors, innermost first. -/
def ancestors (program : Program) (id : StmtId) : List StmtId :=
  program.upwards program.statements.size id

/-- The function whose body contains the statement. -/
def enclosingFunction? (program : Program) (id : StmtId) : Option FnId :=
  (program.ancestors id).getLast?.bind fun root => (program.stmt root).bodyOf

/-- The nearest block strictly around the statement. -/
def enclosingBlock? (program : Program) (id : StmtId) : Option StmtId :=
  (program.ancestors id).tail.find? fun ancestor => (program.kind ancestor).isBlock

/-- Whether the second statement is the first or one of its ancestors. -/
def isWithin (program : Program) (id ancestor : StmtId) : Bool :=
  (program.ancestors id).contains ancestor

/-- The first statement of the subtree that declares or places the symbol. -/
def findDefinition? (program : Program) (root : StmtId) (symbol : SymId) : Option StmtId :=
  (program.walk root).find? fun id => (program.kind id).defined? == some symbol

/-- The symbols declared or placed in the subtree, without repeats, in preorder. -/
def definedSymbols (program : Program) (root : StmtId) : List SymId :=
  ((program.walk root).filterMap fun id => (program.kind id).defined?).eraseDups

/-- The statements of the subtree whose own operands mention the symbol. -/
def statementsMentioning (program : Program) (root : StmtId) (symbol : SymId) : List StmtId :=
  (program.walk root).filter fun id => (program.kind id).mentions symbol

/-- The yield statements of the subtree. -/
def yieldsIn (program : Program) (root : StmtId) : List StmtId :=
  (program.walk root).filter fun id => (program.kind id).isYield

/-- Replace every symbol mentioned in the subtree. -/
def mapSymbolsIn (program : Program) (root : StmtId) (f : SymId → SymId) : Program :=
  (program.walk root).foldl
    (fun program id => program.setKind id ((program.kind id).mapSymbols f)) program

/-- Replace one symbol by another throughout the subtree. -/
def substitute (program : Program) (root : StmtId) (old new : SymId) : Program :=
  program.mapSymbolsIn root fun symbol => if symbol = old then new else symbol

/-- Make a function the owner of every symbol declared or placed in the subtree. -/
def claimLocals (program : Program) (function : FnId) (root : StmtId) : Program :=
  (program.walk root).foldl
    (fun program id =>
      match (program.kind id).defined? with
      | some symbol => program.setOwner symbol function
      | none => program) program

end Program

end IteratorLowering
