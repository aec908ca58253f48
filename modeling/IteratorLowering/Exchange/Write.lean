import IteratorLowering.Exchange.Datum
import IteratorLowering.Program.Tree
import IteratorLowering.Render

/-!
# Writing statements in the exchange form

Operands are leaves: a symbol, or a literal behind a letter for its type. Expressions and
statements are lists that start with the name of their form, and a statement whose span is known
is wrapped in a list that gives it. `StmtTree.toDatum` writes a whole statement.
-/

set_option autoImplicit false
set_option relaxedAutoImplicit false

namespace IteratorLowering

/-- The written form of a literal: its value behind a letter for the type. -/
def Lit.code : Lit → String
  | .int value => "i:" ++ toString value.toInt
  | .bool value => if value then "b:true" else "b:false"
  | .str value => "s:" ++ value
  | .void => "v"

/-- An operand in the exchange form. -/
def Operand.toDatum : Operand → Datum
  | .sym symbol => .symbol symbol
  | .lit value => .text value.code

/-- Operands in the exchange form. -/
def operandsDatum (operands : List Operand) : Datum := .list (operands.map Operand.toDatum)

/-- A field selector in the exchange form: a number sign in front of an ordinal, and a point in
front of a position. -/
def FieldRef.toDatum : FieldRef → Datum
  | .ordinal number => .text s!"#{number}"
  | .index position => .text s!".{position}"

/-- An expression in the exchange form. -/
def Expr.toDatum : Expr → Datum
  | .use operand => .tagged "use" [operand.toDatum]
  | .prim op args => .tagged "prim" [.text op.text, operandsDatum args]
  | .call callee args => .tagged "call" [.number callee.index, operandsDatum args]
  | .tableCall slot args => .tagged "ftable" [slot.toDatum, operandsDatum args]
  | .fieldAddress base field => .tagged "addrm" [.symbol base, field.toDatum]
  | .fieldValue base field => .tagged "getm" [.symbol base, field.toDatum]
  | .cast type value => .tagged "cast" [.number type.index, value.toDatum]
  | .hasClass value type => .tagged "cid" [.symbol value, .number type.index]
  | .addressOf symbol => .tagged "addr" [.symbol symbol]
  | .deref symbol => .tagged "deref" [.symbol symbol]

/-- The marker of a block in the exchange form. -/
def BlockInfo.toDatum : BlockInfo → Datum
  | .forLoop header => .tagged "for" [operandsDatum header]
  | .whileLoop condition => .tagged "while" [condition.toDatum]
  | .confined => .tagged "local" []
  | .parallel kind => .tagged kind.text []
  | .on nonBlocking => .tagged "on" [.bool nonBlocking]

/-- An action in the exchange form. -/
def Action.toDatum : Action → Datum
  | .define symbol => .tagged "def" [.symbol symbol]
  | .assign target value => .tagged "assign" [.symbol target, value.toDatum]
  | .store reference value => .tagged "store" [.symbol reference, value.toDatum]
  | .setField base field value =>
    .tagged "setm" [.symbol base, field.toDatum, value.toDatum]
  | .evaluate value => .tagged "eval" [value.toDatum]
  | .yield value => .tagged "yield" [value.toDatum]
  | .ret value => .tagged "return" [value.toDatum]
  | .goto label => .tagged "goto" [.symbol label]
  | .fail message => .tagged "error" [.text message]
  | .noop => .tagged "noop" []

/-- A datum together with the span of its statement, where that is known. -/
def Datum.atSpan (span : Span) (datum : Datum) : Datum :=
  if span.isNone then datum else .tagged "@" [.number span.start, .number span.stop, datum]

namespace StmtTree

mutual

/-- A statement in the exchange form. -/
def toDatum : StmtTree → Datum
  | .action span inner => inner.toDatum.atSpan span
  | .branch span condition thenTree elseTree =>
    (Datum.tagged "cond"
      (condition.toDatum :: thenTree.toDatum :: optionDatum elseTree)).atSpan span
  | .block span info members =>
    (Datum.tagged "block"
      [.ofOption (info.map BlockInfo.toDatum), .list (datumOfAll members)]).atSpan span

/-- Statements in the exchange form. -/
def datumOfAll : List StmtTree → List Datum
  | [] => []
  | tree :: rest => tree.toDatum :: datumOfAll rest

/-- The branch of a conditional that may be missing, in the exchange form. -/
def optionDatum : Option StmtTree → List Datum
  | none => []
  | some tree => [tree.toDatum]

end

end StmtTree

end IteratorLowering
