import IteratorLowering.Exchange.Datum
import IteratorLowering.Program.Tree
import IteratorLowering.Render

/-!
# Reading statements from the exchange form

The readers accept what the writers produce, and refuse with `none` what is no operand, field
selector, expression, block marker or statement. `StmtTree.ofDatum?` reads a whole statement.
-/

set_option autoImplicit false
set_option relaxedAutoImplicit false

namespace IteratorLowering

/-- The literal with the written form. Everything behind `s:` is the text of a text. -/
def Lit.ofCode? (code : String) : Option Lit :=
  match code.toList with
  | 'i' :: ':' :: digits =>
    (String.ofList digits).toInt?.map fun number => .int (Int64.ofInt number)
  | 'b' :: ':' :: value =>
    if value = "true".toList then some (.bool true)
    else if value = "false".toList then some (.bool false)
    else none
  | 's' :: ':' :: value => some (.str (String.ofList value))
  | ['v'] => some .void
  | _ => none

/-- Read an operand. -/
def Operand.ofDatum? (datum : Datum) : Option Operand :=
  match datum.symbol? with
  | some symbol => some (.sym symbol)
  | none => do return .lit (← Lit.ofCode? (← datum.text?))

/-- Read operands. -/
def operandsOfDatum? (datum : Datum) : Option (List Operand) := do
  (← datum.list?).mapM Operand.ofDatum?

/-- Read a field selector. -/
def FieldRef.ofDatum? (datum : Datum) : Option FieldRef := do
  match (← datum.text?).toList with
  | '#' :: digits => return .ordinal (← (String.ofList digits).toNat?)
  | '.' :: digits => return .index (← (String.ofList digits).toNat?)
  | _ => none

/-- Every primitive operation. -/
def PrimOp.all : List PrimOp :=
  [.add, .sub, .mul, .lt, .le, .gt, .ge, .eq, .ne, .and, .or, .not]

/-- The primitive operation with the name. -/
def PrimOp.ofText? (text : String) : Option PrimOp := PrimOp.all.find? fun op => op.text == text

theorem PrimOp.ofText?_text (op : PrimOp) : PrimOp.ofText? op.text = some op := by
  cases op <;> rfl

/-- Read an expression. -/
def Expr.ofDatum? : Datum → Option Expr
  | .list [.text "use", operand] => return .use (← Operand.ofDatum? operand)
  | .list [.text "prim", .text op, args] =>
    return .prim (← PrimOp.ofText? op) (← operandsOfDatum? args)
  | .list [.text "call", .number callee, args] => return .call ⟨callee⟩ (← operandsOfDatum? args)
  | .list [.text "ftable", slot, args] =>
    return .tableCall (← Operand.ofDatum? slot) (← operandsOfDatum? args)
  | .list [.text "addrm", base, field] =>
    return .fieldAddress (← base.symbol?) (← FieldRef.ofDatum? field)
  | .list [.text "getm", base, field] =>
    return .fieldValue (← base.symbol?) (← FieldRef.ofDatum? field)
  | .list [.text "cast", .number type, value] => return .cast ⟨type⟩ (← Operand.ofDatum? value)
  | .list [.text "cid", value, .number type] => return .hasClass (← value.symbol?) ⟨type⟩
  | .list [.text "addr", symbol] => return .addressOf (← symbol.symbol?)
  | .list [.text "deref", symbol] => return .deref (← symbol.symbol?)
  | _ => none

/-- Read the marker of a block; a plain block has none. -/
def BlockInfo.ofDatum? : Datum → Option (Option BlockInfo)
  | .null => some none
  | .list [.text "for", header] => return some (.forLoop (← operandsOfDatum? header))
  | .list [.text "while", condition] => return some (.whileLoop (← Operand.ofDatum? condition))
  | .list [.text "local"] => some (some .confined)
  | .list [.text "begin"] => some (some (.parallel .begin))
  | .list [.text "cobegin"] => some (some (.parallel .cobegin))
  | .list [.text "coforall"] => some (some (.parallel .coforall))
  | .list [.text "on", .bool nonBlocking] => some (some (.on nonBlocking))
  | _ => none

/-- Read an action. -/
def Action.ofDatum? : Datum → Option Action
  | .list [.text "def", symbol] => return .define (← symbol.symbol?)
  | .list [.text "assign", target, value] =>
    return .assign (← target.symbol?) (← Expr.ofDatum? value)
  | .list [.text "store", reference, value] =>
    return .store (← reference.symbol?) (← Operand.ofDatum? value)
  | .list [.text "setm", base, field, value] =>
    return .setField (← base.symbol?) (← FieldRef.ofDatum? field) (← Operand.ofDatum? value)
  | .list [.text "eval", value] => return .evaluate (← Expr.ofDatum? value)
  | .list [.text "yield", value] => return .yield (← Operand.ofDatum? value)
  | .list [.text "return", value] => return .ret (← Operand.ofDatum? value)
  | .list [.text "goto", label] => return .goto (← label.symbol?)
  | .list [.text "error", .text message] => some (.fail message)
  | .list [.text "noop"] => some .noop
  | _ => none

namespace StmtTree

mutual

/-- Read a statement, which has the span unless it gives one itself. -/
def ofDatumAt? (span : Span) : Datum → Option StmtTree
  | .list [.text "@", .number start, .number stop, inner] => ofDatumAt? ⟨start, stop⟩ inner
  | .list [.text "cond", condition, thenTree] =>
    return .branch span (← Operand.ofDatum? condition) (← ofDatumAt? .none thenTree) none
  | .list [.text "cond", condition, thenTree, elseTree] =>
    return .branch span (← Operand.ofDatum? condition) (← ofDatumAt? .none thenTree)
      (some (← ofDatumAt? .none elseTree))
  | .list [.text "block", info, .list members] =>
    return .block span (← BlockInfo.ofDatum? info) (← ofData? members)
  | datum => return .action span (← Action.ofDatum? datum)

/-- Read statements. -/
def ofData? : List Datum → Option (List StmtTree)
  | [] => some []
  | datum :: rest => return (← ofDatumAt? .none datum) :: (← ofData? rest)

end

/-- Read a statement. -/
def ofDatum? (datum : Datum) : Option StmtTree := ofDatumAt? .none datum

end StmtTree

end IteratorLowering
