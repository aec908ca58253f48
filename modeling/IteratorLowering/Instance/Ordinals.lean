import IteratorLowering.Lowering.Fault

/-!
# Resolving ordinal field accesses

The formals of a copied iterator are read from its instance by ordinal. Once no loop is left,
`resolveOrdinals` replaces every ordinal by the position that it has in the type of the instance.
An address of a field that is assigned to something of the field's own type becomes a read of the
field's value.
-/

set_option autoImplicit false
set_option relaxedAutoImplicit false

namespace IteratorLowering

/-- The position and the type of the field with an ordinal in the type of a symbol. -/
def resolveOrdinal (base : SymId) (ordinal : Nat) (span : Span) : Pass (Nat × TypeId) := do
  let program ← get
  let definition := program.type (program.valueType (program.symbolType base))
  let found := do
    let position ← definition.ordinalField? ordinal
    let field ← definition.field? position
    return (position, field.type)
  Pass.require found (.noOrdinalField definition.name ordinal) span

/-- The assignment of a field's address with the ordinal resolved: a read of the value where the
target has the field's type, and an address where it is a reference to that type. -/
def resolveAddress (target base : SymId) (ordinal : Nat) (span : Span) : Pass Action := do
  let (position, fieldType) ← resolveOrdinal base ordinal span
  let program ← get
  let targetType := program.symbolType target
  if targetType = fieldType then
    return .assign target (.fieldValue base (.index position))
  else if (program.type fieldType).refType = some targetType then
    return .assign target (.fieldAddress base (.index position))
  else Pass.fault .ordinalTypeMismatch span

/-- An action with its ordinal resolved, or nothing if it has none to resolve. -/
def resolveAction (action : Action) (span : Span) : Pass (Option Action) := do
  match action with
  | .assign target (.fieldAddress base (.ordinal ordinal)) =>
    return some (← resolveAddress target base ordinal span)
  | .assign target (.fieldValue base (.ordinal ordinal)) =>
    let (position, _) ← resolveOrdinal base ordinal span
    return some (.assign target (.fieldValue base (.index position)))
  | .setField base (.ordinal ordinal) value =>
    let (position, _) ← resolveOrdinal base ordinal span
    return some (.setField base (.index position) value)
  | .evaluate (.fieldAddress _ (.ordinal _)) => Pass.fault .looseOrdinal span
  | _ => return none

/-- Resolve the ordinal of a statement, if it has one, and count it. -/
def resolveStatement (count : Nat) (id : StmtId) : Pass Nat := do
  let program ← get
  match program.kind id with
  | .action action =>
    match ← resolveAction action (program.span id) with
    | some resolved =>
      modify fun program => program.setKind id (.action resolved)
      return count + 1
    | none => return count
  | .branch .. | .block .. => return count

/-- Resolve the ordinals of all functions, and tell how many statements had one. -/
def resolveOrdinals : Pass Nat := do
  let program ← get
  (program.functionIds.flatMap program.functionStmts).foldlM resolveStatement 0

end IteratorLowering
