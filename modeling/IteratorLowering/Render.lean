import IteratorLowering.Program.Walk
import IteratorLowering.Text.Quoted

/-!
# Functions as readable text

`Program.render` writes a function as indented pseudo-code: a heading with the formals and the
return type, and the body with two blanks per level. Symbols, functions and types are written by
their names.
-/

set_option autoImplicit false
set_option relaxedAutoImplicit false

namespace IteratorLowering

/-- The name of a primitive operation. -/
def PrimOp.text : PrimOp → String
  | .add => "Add"
  | .sub => "Sub"
  | .mul => "Mul"
  | .lt => "Lt"
  | .le => "Le"
  | .gt => "Gt"
  | .ge => "Ge"
  | .eq => "Eq"
  | .ne => "Ne"
  | .and => "And"
  | .or => "Or"
  | .not => "Not"

/-- The written form of a field selector: a number sign in front of an ordinal, and a plain
number for a position. -/
def FieldRef.text : FieldRef → String
  | .ordinal number => s!"#{number}"
  | .index position => toString position

/-- The keyword in front of a parallel block. -/
def ParallelKind.text : ParallelKind → String
  | .begin => "begin"
  | .cobegin => "cobegin"
  | .coforall => "coforall"

namespace Program

/-- The written form of an operand. -/
def operandText (program : Program) : Operand → String
  | .sym symbol => program.symbolName symbol
  | .lit (.int value) => toString value.toInt
  | .lit (.bool value) => if value then "true" else "false"
  | .lit (.str value) => Text.quote value
  | .lit .void => "void"

/-- The written form of a list of operands, without the parentheses. -/
def operandsText (program : Program) (operands : List Operand) : String :=
  ", ".intercalate (operands.map program.operandText)

/-- The written form of an expression. -/
def exprText (program : Program) : Expr → String
  | .use operand => program.operandText operand
  | .prim op args => op.text ++ "(" ++ program.operandsText args ++ ")"
  | .call callee args => program.functionName callee ++ "(" ++ program.operandsText args ++ ")"
  | .tableCall slot args =>
    "ftable[" ++ program.operandText slot ++ "](" ++ program.operandsText args ++ ")"
  | .fieldAddress base field => "&" ++ program.symbolName base ++ "." ++ field.text
  | .fieldValue base field => program.symbolName base ++ "." ++ field.text
  | .cast type value =>
    "cast<" ++ program.typeName type ++ ">(" ++ program.operandText value ++ ")"
  | .hasClass value type =>
    "is<" ++ program.typeName type ++ ">(" ++ program.symbolName value ++ ")"
  | .addressOf symbol => "&" ++ program.symbolName symbol
  | .deref symbol => "*" ++ program.symbolName symbol

/-- The written form of a declaration: a name with a type, or a label with a colon. -/
def declarationText (program : Program) (symbol : SymId) : String :=
  program.symbolName symbol ++ ": " ++ program.typeName (program.symbolType symbol)

/-- The written form of a statement without nested statements. -/
def actionText (program : Program) : Action → String
  | .define symbol =>
    if (program.symbol symbol).isLabel then program.symbolName symbol ++ ":"
    else "def " ++ program.declarationText symbol
  | .assign target value => program.symbolName target ++ " = " ++ program.exprText value
  | .store reference value =>
    "*" ++ program.symbolName reference ++ " = " ++ program.operandText value
  | .setField base field value =>
    program.symbolName base ++ "." ++ field.text ++ " = " ++ program.operandText value
  | .evaluate value => program.exprText value
  | .yield value => "yield " ++ program.operandText value
  | .ret value => "return " ++ program.operandText value
  | .goto label => "goto " ++ program.symbolName label
  | .fail message => "runtime_error " ++ Text.quote message
  | .noop => "noop"

/-- What is written in front of a block's opening brace, with a blank after it. -/
def blockHeading (program : Program) : Option BlockInfo → String
  | none => ""
  | some (.forLoop header) => "for (" ++ program.operandsText header ++ ") "
  | some (.whileLoop condition) => "while " ++ program.operandText condition ++ " "
  | some .confined => "local "
  | some (.parallel kind) => kind.text ++ " "
  | some (.on nonBlocking) => if nonBlocking then "on_nb " else "on "

/-- A line at a nesting depth. -/
def renderLine (depth : Nat) (text : String) : String :=
  "".pushn ' ' (2 * depth) ++ text ++ "\n"

/-- The lines of a statement at a nesting depth, down to the given number of levels. -/
def renderStmt (program : Program) : Nat → Nat → StmtId → String
  | 0, _, _ => ""
  | levels + 1, depth, id =>
    match program.kind id with
    | .action action => renderLine depth (program.actionText action)
    | .branch condition thenBlock elseBlock =>
      renderLine depth ("if " ++ program.operandText condition) ++
        program.renderStmt levels depth thenBlock ++
        match elseBlock with
        | some elseBlock =>
          renderLine depth "else" ++ program.renderStmt levels depth elseBlock
        | none => ""
    | .block info body =>
      renderLine depth (program.blockHeading info ++ "\x7b") ++
        String.join (body.map (program.renderStmt levels (depth + 1))) ++
        renderLine depth "\x7d"

/-- A function as indented pseudo-code. -/
def render (program : Program) (id : FnId) : String :=
  let definition := program.function id
  "fn " ++ definition.name ++ "(" ++
    ", ".intercalate (definition.formals.map program.declarationText) ++ ") -> " ++
    program.typeName definition.retType ++ "\n" ++
    program.renderStmt (program.statements.size + 1) 0 definition.body

end Program

end IteratorLowering
