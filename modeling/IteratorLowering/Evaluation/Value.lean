import IteratorLowering.Ident

/-!
# Run-time values

A `Value` is what a variable or a field holds while a program runs. Records and classes are
objects on a heap, named by `ObjId`, and a reference names the `Place` that it points at. Truth
values and integers convert into each other: `Value.asInt?` and `Value.asBool?`.
-/

set_option autoImplicit false
set_option relaxedAutoImplicit false

namespace IteratorLowering

/-- Handle of a heap object; handles are given out in order of allocation. -/
structure ObjId where
  index : Nat
  deriving DecidableEq, Repr, Inhabited

/-- The written form of an object handle. -/
def ObjId.text (object : ObjId) : String := s!"ObjId({object.index})"

/-- What a reference points at. -/
inductive Place where
  /-- A local of the frame at a depth of the call stack. -/
  | slot (frame : Nat) (symbol : SymId)
  /-- A field of an object. -/
  | field (object : ObjId) (index : Nat)
  deriving DecidableEq, Repr, Inhabited

/-- The written form of a place. The symbol's number is left out. -/
def Place.text : Place → String
  | .slot frame _ => "Local \x7b frame: " ++ toString frame ++ ", sym: %_ \x7d"
  | .field object index =>
    "Field \x7b obj: " ++ object.text ++ ", index: " ++ toString index ++ " \x7d"

/-- A run-time value. -/
inductive Value where
  | void
  /-- An aggregate or reference that was never set. -/
  | nil
  | int (value : Int64)
  | bool (value : Bool)
  | str (value : String)
  | obj (object : ObjId)
  | ref (place : Place)
  deriving DecidableEq, Repr, Inhabited

namespace Value

/-- The value as an integer; a truth value counts as one or zero. -/
def asInt? : Value → Option Int64
  | .int value => some value
  | .bool value => some (if value then 1 else 0)
  | .void | .nil | .str _ | .obj _ | .ref _ => none

/-- The value as a truth value; every integer but zero counts as true. -/
def asBool? : Value → Option Bool
  | .bool value => some value
  | .int value => some (value != 0)
  | .void | .nil | .str _ | .obj _ | .ref _ => none

/-- Whether two values are equal. Integers and truth values compare as integers. -/
def equal (first second : Value) : Bool :=
  match first.asInt?, second.asInt? with
  | some firstInt, some secondInt => firstInt == secondInt
  | _, _ => first == second

/-- The written form of a value in messages. The contents of a text are left out. -/
def text : Value → String
  | .void => "Void"
  | .nil => "Nil"
  | .int value => "Int(" ++ toString value.toInt ++ ")"
  | .bool value => "Bool(" ++ (if value then "true" else "false") ++ ")"
  | .str _ => "Str(Name(_))"
  | .obj object => "Obj(" ++ object.text ++ ")"
  | .ref place => "Ref(" ++ place.text ++ ")"

end Value

end IteratorLowering
