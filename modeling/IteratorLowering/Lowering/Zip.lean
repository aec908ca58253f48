import IteratorLowering.Analysis.IteratorTypes
import IteratorLowering.Lowering.Loop

/-!
# Zippered loops

A zippered loop binds a tuple of iterators to an index tuple of the same shape. `zipSetup` opens
the header into one pair of an iterator and an index for each leaf: the components are read into
temporaries in front of the loop, and a `ZipSetup` says which index temporaries there are and how
the index tuple is put together from them.

`fuseLoop` turns a loop whose iterators all yield exactly once, at the top level of their bodies,
into a block that runs once: the parts of the iterators before the yield, the yielded values, the
index tuple, the body of the loop, and the parts after the yield.
-/

set_option autoImplicit false
set_option relaxedAutoImplicit false

namespace IteratorLowering

/-- A write of an index temporary to a field of an index tuple. -/
structure IndexStore where
  tuple : SymId
  field : Nat
  value : SymId
  deriving DecidableEq, Repr, Inhabited

/-- A loop header opened into its leaves. -/
structure ZipSetup where
  /-- The iterator and the index of each leaf, from left to right. -/
  components : List (SymId × SymId) := []
  /-- The index temporaries, which are declared at the head of the loop. -/
  indexDefs : List SymId := []
  /-- The writes that put the index together, inner tuples first. -/
  indexStores : List IndexStore := []
  deriving DecidableEq, Repr, Inhabited

/-- One setup after the other. -/
def ZipSetup.append (first second : ZipSetup) : ZipSetup where
  components := first.components ++ second.components
  indexDefs := first.indexDefs ++ second.indexDefs
  indexStores := first.indexStores ++ second.indexStores

/-- The types of the fields of a type, seen through a reference, if it is a tuple. -/
def Program.tupleFields? (program : Program) (type : TypeId) : Option (List TypeId) :=
  let definition := program.type (program.valueType type)
  if definition.isTuple then some (definition.fields.map FieldDef.type) else none

/-- Emit an action right before a statement. -/
def emitBefore (anchor : StmtId) (action : Action) (span : Span) : Pass Unit := do
  let id ← newAction action span
  Edit.insertBefore anchor id

/-- Read the component of an iterator tuple at a position into a new local in front of the
loop. -/
def readComponent (block : StmtId) (owner : FnId) (tuple : SymId) (position : Nat)
    (type : TypeId) : Pass SymId := do
  let span := (← get).span block
  let component ← modifyGet fun program => program.newLocal owner "_iterator" type
  emitBefore block (.define component) span
  emitBefore block (.assign component (.fieldValue tuple (.index position))) span
  return component

/-- Open a header into its leaves, looking into tuples down to the given number of levels. -/
def zipSetupTo (block : StmtId) (owner : FnId) : Nat → SymId → SymId → Pass ZipSetup
  | 0, index, iterator => return { components := [(iterator, index)] }
  | depth + 1, index, iterator => do
    let program ← get
    match program.tupleFields? (program.symbolType iterator) with
    | none => return { components := [(iterator, index)] }
    | some iteratorTypes =>
      let indexType := program.type (program.valueType (program.symbolType index))
      let indexTypes := indexType.fields.map FieldDef.type
      if !indexType.isTuple || iteratorTypes.length != indexTypes.length then
        Pass.fault (.zipArity iteratorTypes.length indexTypes.length) (program.span block)
      (iteratorTypes.zip indexTypes).zipIdx.foldlM (fun setup ((iteratorType, type), position) => do
        let component ← readComponent block owner iterator position iteratorType
        let componentIndex ← modifyGet fun program => program.newLocal owner "_index" type
        let inner ← zipSetupTo block owner depth componentIndex component
        return setup.append
          { components := inner.components
            indexDefs := componentIndex :: inner.indexDefs
            indexStores := inner.indexStores ++ [⟨index, position, componentIndex⟩] }) {}

/-- Open the header of a loop into its leaves. A tuple nests no deeper than there are types. -/
def zipSetup (block : StmtId) (index iterator : SymId) (owner : FnId) : Pass ZipSetup := do
  zipSetupTo block owner (← get).types.size index iterator

/-- A loop that is being fused: its block's span, the function that holds it, and the statement
that keeps the place of the yields. -/
structure FusedLoop where
  span : Span
  owner : FnId
  split : StmtId
  deriving DecidableEq, Repr, Inhabited

/-- Put the members of a copied iterator body before the place of the yields, as far as they come
before the yield, and drop returns. Gives the moves that stand for the yields, and the members
after the yield. -/
def placeMembers (loop : FusedLoop) (index : SymId) :
    Bool → List StmtId → Pass (List StmtId × List StmtId)
  | _, [] => return ([], [])
  | afterYield, id :: rest => do
    match (← get).kind id with
    | .action (.yield value) =>
      let move ← newAction (.assign index (.use value)) loop.span
      let (moves, tails) ← placeMembers loop index true rest
      return (move :: moves, tails)
    | .action (.ret _) => placeMembers loop index afterYield rest
    | _ =>
      if afterYield then
        let (moves, tails) ← placeMembers loop index afterYield rest
        return (moves, id :: tails)
      else
        Edit.insertBefore loop.split id
        placeMembers loop index afterYield rest

/-- Copy the body of a component's iterator into the fused loop. -/
def fuseComponent (loop : FusedLoop) (component : SymId × SymId) :
    Pass (List StmtId × List StmtId) := do
  let (source, index) := component
  let iterator ← instanceIterator source .zipperedNonIterator loop.span
  let (copy, _) ← Program.copyTree ((← get).bodyOf iterator) .empty
  rebindFormals copy iterator source loop.owner
  placeMembers loop index false (← Edit.takeBody copy)

/-- Replace a loop by its fused form. -/
def fuseLoop (block : StmtId) (setup : ZipSetup) (owner : FnId) : Pass Unit := do
  let span := (← get).span block
  modify fun program => program.setBlockInfo block none
  let split ← newAction .noop span
  Edit.insertAtHead block split
  let parts ← setup.components.mapM (fuseComponent { span, owner, split })
  let stores ← setup.indexStores.mapM fun store =>
    (newAction (.setField store.tuple (.index store.field) (.sym store.value)) span :
      Build StmtId)
  Edit.insertChain split (parts.flatMap Prod.fst ++ stores)
  (parts.flatMap Prod.snd).forM fun id => (Edit.insertAtTail block id : Edit Unit)
  setup.indexDefs.reverse.forM fun index => do
    let declaration ← newAction (.define index) span
    Edit.insertAtHead block declaration
  Edit.remove split
  modify fun program => program.claimLocals owner block

end IteratorLowering
