import IteratorLowering.Function
import IteratorLowering.Symbol
import IteratorLowering.Types

/-!
# Names of kinds, operations and flags

The names under which the exchange form writes the kinds of types and symbols, the bounds of ranges,
the operations of the iterator protocol, and the flags of types, symbols and functions. A set of
flags is a list of names; it is written in the order in which the flags are declared and read in any
order.
-/

set_option autoImplicit false
set_option relaxedAutoImplicit false

namespace IteratorLowering

/-- The names of the flags that are set. -/
def setNames (flags : List (String × Bool)) : List String :=
  (flags.filter Prod.snd).map Prod.fst

/-- The names of the flags of a type. -/
def TypeFlags.names (flags : TypeFlags) : List String :=
  setNames [("TUPLE", flags.tuple), ("ITERATOR_RECORD", flags.iteratorRecord),
    ("ITERATOR_CLASS", flags.iteratorClass), ("ARG_BUNDLE", flags.argBundle),
    ("REF_ARG_BUNDLE", flags.refArgBundle), ("OBJECT", flags.object)]

/-- The flags of a type with the names. -/
def TypeFlags.ofNames (names : List String) : TypeFlags where
  tuple := names.contains "TUPLE"
  iteratorRecord := names.contains "ITERATOR_RECORD"
  iteratorClass := names.contains "ITERATOR_CLASS"
  argBundle := names.contains "ARG_BUNDLE"
  refArgBundle := names.contains "REF_ARG_BUNDLE"
  object := names.contains "OBJECT"

/-- The names of the flags of a symbol. -/
def SymFlags.names (flags : SymFlags) : List String :=
  setNames [("TEMP", flags.temp), ("RET_ARG", flags.retArg)]

/-- The flags of a symbol with the names. -/
def SymFlags.ofNames (names : List String) : SymFlags where
  temp := names.contains "TEMP"
  retArg := names.contains "RET_ARG"

/-- The names of the flags of a function. -/
def FnFlags.names (flags : FnFlags) : List String :=
  setNames [("ITERATOR_FN", flags.iterator), ("INLINE_ITERATOR", flags.inlineIterator),
    ("TO_LEADER", flags.toLeader), ("TO_FOLLOWER", flags.toFollower),
    ("AUTO_COPY", flags.autoCopy), ("AUTO_DESTROY", flags.autoDestroy),
    ("EXTERN", flags.external), ("GENERATED", flags.generated)]

/-- The flags of a function with the names. -/
def FnFlags.ofNames (names : List String) : FnFlags where
  iterator := names.contains "ITERATOR_FN"
  inlineIterator := names.contains "INLINE_ITERATOR"
  toLeader := names.contains "TO_LEADER"
  toFollower := names.contains "TO_FOLLOWER"
  autoCopy := names.contains "AUTO_COPY"
  autoDestroy := names.contains "AUTO_DESTROY"
  external := names.contains "EXTERN"
  generated := names.contains "GENERATED"

/-- The kind of symbol with the name. -/
def SymKind.ofName? : String → Option SymKind
  | "var" => some .var
  | "arg" => some .arg
  | "label" => some .label
  | _ => none

/-- The name of a kind of symbol. -/
def SymKind.name : SymKind → String
  | .var => "var"
  | .arg => "arg"
  | .label => "label"

/-- The kind of type with the name. A reference type has a target and no name. -/
def TypeKind.ofName? : String → Option TypeKind
  | "void" => some .void
  | "bool" => some .bool
  | "int" => some .int
  | "string" => some .str
  | "record" => some .record
  | "class" => some .heapClass
  | "fnref" => some .fnRef
  | _ => none

/-- The name of a kind of type, or the target of a reference. -/
def TypeKind.nameOrTarget : TypeKind → String ⊕ TypeId
  | .void => .inl "void"
  | .bool => .inl "bool"
  | .int => .inl "int"
  | .str => .inl "string"
  | .record => .inl "record"
  | .heapClass => .inl "class"
  | .fnRef => .inl "fnref"
  | .ref target => .inr target

/-- The bounds with the name. -/
def RangeBounds.ofName? : String → Option RangeBounds
  | "Bounded" => some .bounded
  | "BoundedLow" => some .boundedLow
  | "BoundedHigh" => some .boundedHigh
  | "Unbounded" => some .unbounded
  | _ => none

/-- The name of the bounds. -/
def RangeBounds.name : RangeBounds → String
  | .bounded => "Bounded"
  | .boundedLow => "BoundedLow"
  | .boundedHigh => "BoundedHigh"
  | .unbounded => "Unbounded"

/-- The name of a protocol operation. -/
def ProtocolOp.name : ProtocolOp → String
  | .zip1 => "Zip1"
  | .zip2 => "Zip2"
  | .zip3 => "Zip3"
  | .zip4 => "Zip4"
  | .hasMore => "HasMore"
  | .getValue => "GetValue"

/-- The protocol operation with the name. -/
def ProtocolOp.ofName? (name : String) : Option ProtocolOp :=
  ProtocolOp.all.find? fun op => op.name == name

theorem TypeFlags.ofNames_names (flags : TypeFlags) : ofNames flags.names = flags := by
  obtain ⟨tuple, record, iterator, bundle, reference, object⟩ := flags
  revert tuple record iterator bundle reference object
  decide

theorem SymFlags.ofNames_names (flags : SymFlags) : ofNames flags.names = flags := by
  obtain ⟨temp, result⟩ := flags
  revert temp result
  decide

theorem SymKind.ofName?_name (kind : SymKind) : ofName? kind.name = some kind := by
  cases kind <;> rfl

theorem RangeBounds.ofName?_name (bounds : RangeBounds) : ofName? bounds.name = some bounds := by
  cases bounds <;> rfl

theorem ProtocolOp.ofName?_name (op : ProtocolOp) : ofName? op.name = some op := by
  cases op <;> rfl

end IteratorLowering
