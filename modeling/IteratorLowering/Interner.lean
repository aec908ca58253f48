/-!
# Interned names

An `Interner` gives each distinct text a small number, its `Name`, so that consumers which
compare names often can compare numbers. The empty text has number `0` from the start and an
interner that holds nothing else counts as empty.
-/

set_option autoImplicit false
set_option relaxedAutoImplicit false

namespace IteratorLowering

/-- The number of an interned text. -/
structure Name where
  index : Nat
  deriving DecidableEq, Repr, Inhabited

/-- A table of distinct texts; the number of a text is its position. -/
structure Interner where
  texts : Array String := #[""]
  deriving Repr, Inhabited

namespace Interner

/-- The interner that holds only the empty text. -/
def new : Interner := {}

/-- The number of a text that is already interned. -/
def get? (interner : Interner) (text : String) : Option Name :=
  (interner.texts.toList.idxOf? text).map Name.mk

/-- The number of a text, interning it first if it is new. -/
def intern (interner : Interner) (text : String) : Name × Interner :=
  match interner.get? text with
  | some name => (name, interner)
  | none => (⟨interner.texts.size⟩, { interner with texts := interner.texts.push text })

/-- The text behind a name; the empty text for a number that was never given out. -/
def lookup (interner : Interner) (name : Name) : String := interner.texts.getD name.index ""

/-- The number of interned texts, the empty text included. -/
def size (interner : Interner) : Nat := interner.texts.size

/-- Whether nothing but the empty text has been interned. -/
def isEmpty (interner : Interner) : Bool := interner.size ≤ 1

end Interner

end IteratorLowering
