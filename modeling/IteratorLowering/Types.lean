import IteratorLowering.Ident

/-!
# Type definitions

A `TypeDef` describes one type of the program: its kind, its ordered fields, and the metadata
that links an iterator's record and class types to the iterator function. Fields are selected by
position; `TypeDef.ordinalField?` finds the position behind a 1-based ordinal, which counts the
fields after the header.
-/

set_option autoImplicit false
set_option relaxedAutoImplicit false

namespace IteratorLowering

/-- The structural kind of a type. -/
inductive TypeKind where
  | void
  | bool
  | int
  | str
  /-- A value aggregate with positional fields. -/
  | record
  /-- A heap object with a runtime class identity. -/
  | heapClass
  /-- A reference to a value of another type. -/
  | ref (target : TypeId)
  /-- A first-class function value, which is a slot of the function table. -/
  | fnRef
  deriving DecidableEq, Repr, Inhabited

/-- What a type is used for, beyond its kind. -/
structure TypeFlags where
  /-- An anonymous positional aggregate, used for zippered iteration. -/
  tuple : Bool := false
  /-- The instance record made by calling an iterator function. -/
  iteratorRecord : Bool := false
  /-- The instance class that holds the resumable state of one iteration. -/
  iteratorClass : Bool := false
  /-- A synthesized record that carries the captures of an extracted loop body. -/
  argBundle : Bool := false
  /-- The reference type of an argument bundle. -/
  refArgBundle : Bool := false
  /-- The root class. -/
  object : Bool := false
  deriving DecidableEq, Repr, Inhabited

/-- Which ends of a range receiver type are bounded. -/
inductive RangeBounds where
  | bounded
  | boundedLow
  | boundedHigh
  | unbounded
  deriving DecidableEq, Repr, Inhabited

/-- A named and typed field of a record or class. -/
structure FieldDef where
  name : String
  type : TypeId
  deriving DecidableEq, Repr, Inhabited

/-- A type definition. -/
structure TypeDef where
  name : String
  kind : TypeKind
  flags : TypeFlags := {}
  fields : List FieldDef := []
  /-- How many leading fields correspond to no formal of the iterator. -/
  headerFields : Nat := 0
  /-- The runtime subtypes, in order of declaration. -/
  subtypes : List TypeId := []
  /-- The iterator function that this record or class type was made for. -/
  iteratorFn : Option FnId := none
  /-- Set on range receiver types. -/
  range : Option RangeBounds := none
  /-- The reference type of this type, once one has been asked for. -/
  refType : Option TypeId := none
  deriving DecidableEq, Repr, Inhabited

namespace TypeDef

/-- Whether values of the type are made of fields. -/
def isAggregate (type : TypeDef) : Bool := type.kind == .record || type.kind == .heapClass

/-- Whether the type is a zippering tuple. -/
def isTuple (type : TypeDef) : Bool := type.flags.tuple

/-- The position of the field with the 1-based ordinal, counted after the header fields. -/
def ordinalField? (type : TypeDef) (ordinal : Nat) : Option Nat :=
  match ordinal with
  | 0 => none
  | before + 1 =>
    let index := type.headerFields + before
    if index < type.fields.length then some index else none

/-- The position of the first field with the name. -/
def fieldNamed? (type : TypeDef) (name : String) : Option Nat :=
  type.fields.findIdx? fun field => field.name == name

/-- The field at a position. -/
def field? (type : TypeDef) (index : Nat) : Option FieldDef := type.fields[index]?

theorem lt_length_of_ordinalField? {type : TypeDef} {ordinal index : Nat}
    (h : type.ordinalField? ordinal = some index) : index < type.fields.length := by
  cases ordinal with
  | zero => simp [ordinalField?] at h
  | succ before =>
    simp only [ordinalField?, Option.ite_none_right_eq_some, Option.some.injEq] at h
    omega

end TypeDef

end IteratorLowering
