import IteratorLowering.Ident

/-!
# The table of indirectly called functions

An indirect call names a slot of the `FunctionTable`. The table only grows, so a slot that was
handed out keeps its function for good, and emitted code may embed the slot as a constant:
`get?_register_of_lt`.
-/

set_option autoImplicit false
set_option relaxedAutoImplicit false

namespace IteratorLowering

/-- The functions reachable through indirect calls, by slot. -/
structure FunctionTable where
  slots : Array FnId := #[]
  deriving Repr, Inhabited

namespace FunctionTable

/-- Put a function into the next free slot and tell the slot. -/
def register (table : FunctionTable) (function : FnId) : Nat × FunctionTable :=
  (table.slots.size, { table with slots := table.slots.push function })

/-- The function in a slot. -/
def get? (table : FunctionTable) (slot : Nat) : Option FnId := table.slots[slot]?

/-- The first slot that holds the function. -/
def slotOf? (table : FunctionTable) (function : FnId) : Option Nat :=
  table.slots.toList.idxOf? function

/-- The number of slots handed out. -/
def size (table : FunctionTable) : Nat := table.slots.size

/-- Whether no slot has been handed out. -/
def isEmpty (table : FunctionTable) : Bool := table.slots.isEmpty

theorem get?_register_self (table : FunctionTable) (function : FnId) :
    (table.register function).2.get? (table.register function).1 = some function := by
  simp [register, get?]

theorem get?_register_of_lt (table : FunctionTable) (function : FnId) {slot : Nat}
    (h : slot < table.size) : (table.register function).2.get? slot = table.get? slot := by
  simp only [size] at h
  simp only [register, get?]
  rw [Array.getElem?_push_lt h, Array.getElem?_eq_getElem h]

end FunctionTable

end IteratorLowering
