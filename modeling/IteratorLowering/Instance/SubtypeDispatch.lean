import IteratorLowering.Lowering.Fault
import IteratorLowering.Program.Cursor

/-!
# Runtime subtypes of instance records

An instance record with runtime subtypes carries in its first field an object whose class tells
which subtype it is. `addSubtypeDispatch` puts a test for each subtype at the head of the function
that makes the instance: on a match the record is rebuilt as a record of the subtype, field by
field and by name, and handed to the function that makes instances of the subtype.
-/

set_option autoImplicit false
set_option relaxedAutoImplicit false

namespace IteratorLowering

/-- Where a field of a subtype's record comes from: a position of the base record and one of the
subtype's, with the types of both fields. -/
structure FieldCopy where
  source : Nat
  target : Nat
  sourceType : TypeId
  targetType : TypeId
  deriving DecidableEq, Repr, Inhabited

/-- One test of a subtype: the record type of the subtype, the class that its records carry, the
function that makes its instances, and where its fields come from. -/
structure SubtypeCase where
  record : TypeId
  discriminator : TypeId
  getIterator : FnId
  copies : List FieldCopy
  deriving DecidableEq, Repr, Inhabited

namespace Program

/-- The subtypes of a type other than the root class. -/
def properSubtypes (program : Program) (type : TypeId) : List TypeId :=
  (program.type type).subtypes.filter fun child => child != TypeId.object

/-- The instance functions of the iterators whose records have subtypes, each with the record
type. -/
def subtypeTargets (program : Program) : List (FnId × TypeId) :=
  program.functionIds.filterMap fun id =>
    match (program.function id).iteratorInfo with
    | some info =>
      if (program.properSubtypes info.recordType).isEmpty then none
      else some (info.getIterator, info.recordType)
    | none => none

/-- The function that makes instances of the iterator behind a type. -/
def getIteratorOf? (program : Program) (type : TypeId) : Option FnId := do
  let iterator ← program.iteratorFnOf type
  let info ← (program.function iterator).iteratorInfo
  return info.getIterator

end Program

/-- Where the fields of a subtype's record come from in the base record, by name. -/
def fieldCopies (base child : TypeId) (span : Span) : Pass (List FieldCopy) := do
  let program ← get
  let baseType := program.type base
  (program.type child).fields.zipIdx.mapM fun (field, target) => do
    let absent : Fault := .noFieldNamed baseType.name field.name
    let source ← Pass.require (baseType.fieldNamed? field.name) absent span
    let sourceField ← Pass.require (baseType.field? source) absent span
    return { source, target, sourceType := sourceField.type, targetType := field.type }

/-- What there is to know about a subtype of a record. -/
def subtypeCase (base child : TypeId) (span : Span) : Pass SubtypeCase := do
  let program ← get
  let getIterator ← Pass.require (program.getIteratorOf? child) .noSubtypeIterator span
  let first ← Pass.require ((program.type child).field? 0) .noSubtypeDiscriminator span
  let copies ← fieldCopies base child span
  return { record := child, discriminator := first.type, getIterator, copies }

/-- Emit the copy of a field from one record to another, with a cast where the types differ. -/
def emitFieldCopy (cursor : Cursor) (source target : SymId) (copy : FieldCopy) : Build Unit := do
  let value ← cursor.fresh "_field" copy.sourceType
  let _ ← cursor.assign value (.fieldValue source (.index copy.source))
  if copy.sourceType = copy.targetType then
    let _ ← cursor.setField target (.index copy.target) (.sym value)
  else
    let cast ← cursor.fresh "_field" copy.targetType
    let _ ← cursor.assign cast (.cast copy.targetType (.sym value))
    let _ ← cursor.setField target (.index copy.target) (.sym cast)

/-- Emit the test of a subtype: on a match the record is rebuilt, and the instance of the subtype
is returned. -/
def emitSubtypeCase (cursor : Cursor) (record : SymId) (tagType : TypeId) (subtype : SubtypeCase) :
    Build Unit := do
  let program ← get
  let instanceType := (program.function subtype.getIterator).retType
  let returned := (program.function cursor.function).retType
  let tag ← cursor.fresh "_tag" tagType
  let _ ← cursor.assign tag (.fieldValue record (.index 0))
  let isSubtype ← cursor.fresh "_cid" .bool
  let _ ← cursor.assign isSubtype (.hasClass tag subtype.discriminator)
  let thenBlock ← cursor.openIf (.sym isSubtype)
  let inner := cursor.into thenBlock
  let rebuilt ← inner.fresh "_record" subtype.record
  subtype.copies.forM (emitFieldCopy inner record rebuilt)
  let made ← inner.fresh "_class" instanceType
  let _ ← inner.assign made (.call subtype.getIterator [.sym rebuilt])
  let result ← inner.fresh "_ret" returned
  let _ ← inner.assign result (.cast returned (.sym made))
  let _ ← inner.ret (.sym result)

/-- Put the tests of all subtypes of a record at the head of the function that makes the instance,
and count them. -/
def addSubtypeCases (count : Nat) (target : FnId × TypeId) : Pass Nat := do
  let (getIterator, record) := target
  let program ← get
  let definition := program.function getIterator
  let span := definition.span
  let formal ← Pass.require definition.formals.head? .noRecordFormal span
  let tag ← Pass.require ((program.type record).field? 0) .noDiscriminator span
  let children := program.properSubtypes record
  let cascade ← modifyGet Program.newScratch
  let cursor : Cursor := { function := getIterator, block := cascade, span }
  children.forM fun child => do
    let subtype ← subtypeCase record child span
    (emitSubtypeCase cursor formal tag.type subtype : Build Unit)
  Edit.spliceAtHead ((← get).bodyOf getIterator) cascade
  return count + children.length

/-- Add tests for the runtime subtypes of all instance records, and tell how many. -/
def addSubtypeDispatch : Pass Nat := do
  ((← get).subtypeTargets).foldlM addSubtypeCases 0

end IteratorLowering
