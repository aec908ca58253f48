import IteratorLowering.Lowering.Fault

/-!
# Removing jumps to the next statement

`removeGotos` drops every jump whose label is placed right after it, and then every label that
nothing jumps to.
-/

set_option autoImplicit false
set_option relaxedAutoImplicit false

namespace IteratorLowering

/-- The label that a statement jumps to. -/
def StmtKind.gotoTarget? : StmtKind → Option SymId
  | .action (.goto label) => some label
  | _ => none

namespace Program

/-- Whether a statement jumps to the statement after it. -/
def isFallThrough (program : Program) (id : StmtId) : Bool :=
  match (program.kind id).gotoTarget? with
  | some label =>
    (program.nextSibling? id).any fun next => (program.kind next).defined? == some label
  | none => false

/-- Whether a statement places a label that is none of the targets. -/
def isIdleLabel (program : Program) (targets : List SymId) (id : StmtId) : Bool :=
  match (program.kind id).defined? with
  | some symbol => (program.symbol symbol).isLabel && !targets.contains symbol
  | none => false

end Program

/-- Remove a statement if it is of the kind in question at the time it is looked at. -/
def removeIf (removable : Program → StmtId → Bool) (count : Nat) (id : StmtId) : Pass Nat := do
  if removable (← get) id then
    Edit.remove id
    return count + 1
  else
    return count

/-- Remove the jumps to the next statement and the idle labels in the body of a function, and
tell how many statements went. -/
def removeGotos (function : FnId) : Pass Nat := do
  let jumps ← ((← get).functionStmts function).foldlM (removeIf Program.isFallThrough) 0
  let program ← get
  let rest := program.functionStmts function
  let targets := rest.filterMap fun id => (program.kind id).gotoTarget?
  rest.foldlM (removeIf fun program => program.isIdleLabel targets) jumps

end IteratorLowering
