import IteratorLowering.FiniteMap
import IteratorLowering.FunctionTable
import IteratorLowering.Function
import IteratorLowering.Stmt
import IteratorLowering.Symbol
import IteratorLowering.Types

/-!
# Programs

A `Program` owns the arenas of types, symbols, statements and functions, the table of indirectly
called functions, and the registries of copy and destroy routines. Statements form trees through
block bodies and branches; every statement records its parent, and a statement that is the body
of a function records the function.

This module holds the arenas themselves: reading an entry, changing an entry, and making a new
one. Every `new…` and `add…` function hands out the next handle of its arena. Reading a handle
that was never handed out gives a default entry.
-/

set_option autoImplicit false
set_option relaxedAutoImplicit false

namespace IteratorLowering

/-- A whole program. -/
structure Program where
  types : Array TypeDef
  symbols : Array Symbol := #[]
  statements : Array Stmt := #[]
  functions : Array FnDef := #[]
  /-- The slots addressed by indirect calls. -/
  table : FunctionTable := {}
  /-- The registered copy routine of a type. -/
  autoCopy : FiniteMap TypeId FnId := .empty
  /-- The registered destroy routine of a type. -/
  autoDestroy : FiniteMap TypeId FnId := .empty
  deriving Repr, Inhabited

/-- The types that every program starts with, at the positions of their handles. -/
def builtinTypes : Array TypeDef := #[
  { name := "void", kind := .void },
  { name := "bool", kind := .bool },
  { name := "int", kind := .int },
  { name := "string", kind := .str },
  { name := "object", kind := .heapClass, flags := { object := true } }]

namespace Program

/-- The program with the builtin types and nothing else. -/
def empty : Program := { types := builtinTypes }

/-! ### Types -/

/-- The definition of a type. -/
def type (program : Program) (id : TypeId) : TypeDef := program.types.getD id.index default

/-- Change the definition of a type. -/
def modifyType (program : Program) (id : TypeId) (change : TypeDef → TypeDef) : Program :=
  { program with types := program.types.modify id.index change }

/-- Add a type. -/
def addType (program : Program) (definition : TypeDef) : TypeId × Program :=
  (⟨program.types.size⟩, { program with types := program.types.push definition })

/-- The handles of all types, in order. -/
def typeIds (program : Program) : List TypeId := (List.range program.types.size).map TypeId.mk

/-- The name of a type. -/
def typeName (program : Program) (id : TypeId) : String := (program.type id).name

/-- The type with one level of reference stripped. -/
def valueType (program : Program) (id : TypeId) : TypeId :=
  match (program.type id).kind with
  | .ref target => target
  | _ => id

/-- Whether the type is a reference type. -/
def isRef (program : Program) (id : TypeId) : Bool :=
  match (program.type id).kind with
  | .ref _ => true
  | _ => false

/-- The reference type of a type, made and remembered on first request. The reference type of
an argument bundle is flagged as such. -/
def refOf (program : Program) (id : TypeId) : TypeId × Program :=
  let target := program.type id
  match target.refType with
  | some existing => (existing, program)
  | none =>
    let definition : TypeDef :=
      { name := "_ref_" ++ target.name
        kind := .ref id
        flags := { refArgBundle := target.flags.argBundle } }
    let (reference, program) := program.addType definition
    (reference, program.modifyType id fun target => { target with refType := some reference })

/-- The iterator function behind an iterator record or class type, seen through a reference. -/
def iteratorFnOf (program : Program) (id : TypeId) : Option FnId :=
  (program.type (program.valueType id)).iteratorFn

/-! ### Symbols -/

/-- The entry of a symbol. -/
def symbol (program : Program) (id : SymId) : Symbol := program.symbols.getD id.index default

/-- Change the entry of a symbol. -/
def modifySymbol (program : Program) (id : SymId) (change : Symbol → Symbol) : Program :=
  { program with symbols := program.symbols.modify id.index change }

/-- Add a symbol. -/
def addSymbol (program : Program) (entry : Symbol) : SymId × Program :=
  (⟨program.symbols.size⟩, { program with symbols := program.symbols.push entry })

/-- A new symbol without an owner. -/
def newSymbol (program : Program) (name : String) (kind : SymKind) (type : TypeId) :
    SymId × Program :=
  program.addSymbol { name, kind, type }

/-- A new temporary without an owner. -/
def newTemp (program : Program) (name : String) (type : TypeId) : SymId × Program :=
  program.addSymbol { name, kind := .var, type, flags := { temp := true } }

/-- A new temporary of a function. -/
def newLocal (program : Program) (owner : FnId) (name : String) (type : TypeId) :
    SymId × Program :=
  program.addSymbol { name, kind := .var, type, owner := some owner, flags := { temp := true } }

/-- A new label of a function. -/
def newLabel (program : Program) (owner : FnId) (name : String) : SymId × Program :=
  program.addSymbol { name, kind := .label, type := .void, owner := some owner }

/-- A symbol like an existing one, without an owner. -/
def cloneSymbol (program : Program) (id : SymId) : SymId × Program :=
  program.addSymbol { program.symbol id with owner := none }

/-- The type of a symbol. -/
def symbolType (program : Program) (id : SymId) : TypeId := (program.symbol id).type

/-- The name of a symbol. -/
def symbolName (program : Program) (id : SymId) : String := (program.symbol id).name

/-- Hand a symbol over to a function. -/
def setOwner (program : Program) (id : SymId) (owner : FnId) : Program :=
  program.modifySymbol id fun symbol => { symbol with owner := some owner }

/-! ### Statements -/

/-- The entry of a statement. -/
def stmt (program : Program) (id : StmtId) : Stmt := program.statements.getD id.index default

/-- Change the entry of a statement. -/
def modifyStmt (program : Program) (id : StmtId) (change : Stmt → Stmt) : Program :=
  { program with statements := program.statements.modify id.index change }

/-- The kind of a statement. -/
def kind (program : Program) (id : StmtId) : StmtKind := (program.stmt id).kind

/-- The span of a statement. -/
def span (program : Program) (id : StmtId) : Span := (program.stmt id).span

/-- The block or conditional around a statement. -/
def parent (program : Program) (id : StmtId) : Option StmtId := (program.stmt id).parent

/-- Replace the kind of a statement. -/
def setKind (program : Program) (id : StmtId) (kind : StmtKind) : Program :=
  program.modifyStmt id fun stmt => { stmt with kind }

/-- Record the parent of a statement. -/
def setParent (program : Program) (id : StmtId) (parent : Option StmtId) : Program :=
  program.modifyStmt id fun stmt => { stmt with parent }

/-- Record which function a statement is the body of. -/
def setBodyOf (program : Program) (id : StmtId) (function : Option FnId) : Program :=
  program.modifyStmt id fun stmt => { stmt with bodyOf := function }

/-- A new detached statement, which becomes the parent of its children. -/
def newStmt (program : Program) (kind : StmtKind) (span : Span) : StmtId × Program :=
  let id : StmtId := ⟨program.statements.size⟩
  let program := { program with statements := program.statements.push { kind, span } }
  (id, kind.children.foldl (fun program child => program.setParent child (some id)) program)

/-- A new detached empty block without a source location. -/
def newScratch (program : Program) : StmtId × Program := program.newStmt (.plain []) .none

/-- The members of a block; none for any other statement. -/
def blockBody (program : Program) (id : StmtId) : List StmtId :=
  match program.kind id with
  | .block _ body => body
  | .action _ | .branch .. => []

/-- The marker of a marked block. -/
def blockInfo? (program : Program) (id : StmtId) : Option BlockInfo :=
  (program.kind id).blockInfo?

/-- Give a block a new marker, or none. Other statements stay as they are. -/
def setBlockInfo (program : Program) (id : StmtId) (info : Option BlockInfo) : Program :=
  match program.kind id with
  | .block _ body => program.setKind id (.block info body)
  | .action _ | .branch .. => program

/-! ### Functions -/

/-- The definition of a function. -/
def function (program : Program) (id : FnId) : FnDef := program.functions.getD id.index default

/-- Change the definition of a function. -/
def modifyFunction (program : Program) (id : FnId) (change : FnDef → FnDef) : Program :=
  { program with functions := program.functions.modify id.index change }

/-- The handles of all functions, in order. -/
def functionIds (program : Program) : List FnId :=
  (List.range program.functions.size).map FnId.mk

/-- The name of a function. -/
def functionName (program : Program) (id : FnId) : String := (program.function id).name

/-- The body of a function. -/
def bodyOf (program : Program) (id : FnId) : StmtId := (program.function id).body

/-- Add a function, which takes over its body, its formals and its return symbol. -/
def addFunction (program : Program) (definition : FnDef) : FnId × Program :=
  let id : FnId := ⟨program.functions.size⟩
  let program := program.setBodyOf definition.body (some id)
  let owned := definition.formals ++ definition.retSym.toList
  let program := owned.foldl (fun program symbol => program.setOwner symbol id) program
  (id, { program with functions := program.functions.push definition })

/-- A new function with an empty body and no formals. -/
def newFunction (program : Program) (name : String) (retType : TypeId) (span : Span) :
    FnId × Program :=
  let (body, program) := program.newStmt (.plain []) span
  program.addFunction { name, retType, body, span }

/-- Append a formal to a function. -/
def addFormal (program : Program) (function : FnId) (name : String) (type : TypeId) :
    SymId × Program :=
  let (formal, program) :=
    program.addSymbol { name, kind := .arg, type, owner := some function }
  (formal, program.modifyFunction function fun definition =>
    { definition with formals := definition.formals ++ [formal] })

/-- The first function with the name. -/
def findFunction? (program : Program) (name : String) : Option FnId :=
  program.functionIds.find? fun id => program.functionName id == name

end Program

/-- A change of a program that cannot fail. -/
abbrev Build := StateM Program

end IteratorLowering
