import IteratorLowering.Ident

/-!
# Nested lists as an exchange form

Programs are exchanged with tools as nested lists of numbers and texts. A `Datum` is such a list;
a symbol stays a leaf of its own, so that a reader of the output can rename symbols without
looking into texts. `Datum.symbols` lists the symbols from left to right.
-/

set_option autoImplicit false
set_option relaxedAutoImplicit false

namespace IteratorLowering

/-- A nested list of plain values. -/
inductive Datum where
  | null
  | bool (value : Bool)
  | number (value : Nat)
  | text (value : String)
  | symbol (id : SymId)
  | list (items : List Datum)
  deriving Repr, Inhabited

namespace Datum

mutual

/-- The symbols of a datum, from left to right and with repeats. -/
def symbols : Datum → List SymId
  | .null | .bool _ | .number _ | .text _ => []
  | .symbol id => [id]
  | .list items => symbolsOfAll items

/-- The symbols of several data, from left to right and with repeats. -/
def symbolsOfAll : List Datum → List SymId
  | [] => []
  | item :: rest => item.symbols ++ symbolsOfAll rest

end

/-- A list that starts with a tag. -/
def tagged (tag : String) (items : List Datum) : Datum := .list (.text tag :: items)

/-- A datum that may be missing. -/
def ofOption : Option Datum → Datum
  | none => .null
  | some datum => datum

/-- The text of a text. -/
def text? : Datum → Option String
  | .text value => some value
  | _ => none

/-- The items of a list. -/
def list? : Datum → Option (List Datum)
  | .list items => some items
  | _ => none

/-- The symbol of a leaf. A text counts as one if it is a percent sign and the number of the
symbol. -/
def symbol? : Datum → Option SymId
  | .symbol id => some id
  | .text value =>
    match value.toList with
    | '%' :: digits => (String.ofList digits).toNat?.map SymId.mk
    | _ => none
  | _ => none

@[simp] theorem symbolsOfAll_eq_flatMap (items : List Datum) :
    symbolsOfAll items = items.flatMap symbols := by
  induction items with
  | nil => rfl
  | cons item rest ih => simp [symbolsOfAll, ih]

end Datum

end IteratorLowering
