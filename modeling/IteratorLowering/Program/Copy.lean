import IteratorLowering.Program.Walk

/-!
# Copies of statement trees

`Program.copyTree` copies a subtree. Symbols declared inside it get clones of their own, unless
the given `SymbolMap` already sends them somewhere, and every mention is then resolved through
the map. The copy is detached, its children are made before their parents, and the clones belong
to no function until they are claimed.
-/

set_option autoImplicit false
set_option relaxedAutoImplicit false

namespace IteratorLowering

/-- A substitution of symbols. -/
abbrev SymbolMap := FiniteMap SymId SymId

/-- The symbol that a symbol is sent to; the symbol itself where the map is silent. -/
def SymbolMap.resolve (map : SymbolMap) (symbol : SymId) : SymId :=
  (map.find? symbol).getD symbol

/-- Send every listed symbol that is not mapped yet to a clone of its own. -/
def SymbolMap.cloneMissing (map : SymbolMap) : List SymId → Build SymbolMap
  | [] => return map
  | symbol :: rest => do
    if map.contains symbol then
      SymbolMap.cloneMissing map rest
    else
      let clone ← modifyGet fun program => program.cloneSymbol symbol
      SymbolMap.cloneMissing (map.insert symbol clone) rest

namespace Program

/-- Copy a statement and what is nested in it, down to the given number of levels, resolving
symbols through the map. Children are made before their parents. -/
def copyNode (map : SymbolMap) : Nat → StmtId → Build StmtId
  | 0, _ => modifyGet fun program => program.newStmt (.action .noop) .none
  | depth + 1, id => do
    let source := (← get).stmt id
    let kind ← match source.kind with
      | .action action => pure (StmtKind.action action)
      | .branch condition thenBlock elseBlock => do
        let thenCopy ← copyNode map depth thenBlock
        match elseBlock with
        | some elseBlock =>
          let elseCopy ← copyNode map depth elseBlock
          pure (StmtKind.branch condition thenCopy (some elseCopy))
        | none => pure (StmtKind.branch condition thenCopy none)
      | .block info body => do
        let members ← body.mapM (copyNode map depth)
        pure (StmtKind.block info members)
    modifyGet fun program => program.newStmt (kind.mapSymbols map.resolve) source.span

/-- Copy the subtree of a statement. Symbols declared in it are cloned unless the map already
sends them somewhere. Gives the copy and the completed map. -/
def copyTree (root : StmtId) (map : SymbolMap) : Build (StmtId × SymbolMap) := do
  let program ← get
  let map ← map.cloneMissing (program.definedSymbols root)
  let copy ← copyNode map program.statements.size root
  return (copy, map)

end Program

end IteratorLowering
