/-!
# Finite maps with a remembered order

A `FiniteMap` holds its bindings in the order in which the keys were first bound. Reading a key
after `insert` or `erase` is settled by `find?_insert_self`, `find?_insert_of_ne`,
`find?_erase_self` and `find?_erase_of_ne`, so a proof never opens the list of bindings.
-/

set_option autoImplicit false
set_option relaxedAutoImplicit false

namespace IteratorLowering

/-- A map with finitely many bindings, at most one of which is read for each key. -/
structure FiniteMap (Key Value : Type) where
  bindings : List (Key × Value) := []
  deriving Repr, Inhabited

namespace FiniteMap

variable {Key Value : Type} [DecidableEq Key]

/-- The map without bindings. -/
def empty : FiniteMap Key Value := ⟨[]⟩

/-- The value of the first binding of a key in a list of bindings. -/
def lookup (key : Key) : List (Key × Value) → Option Value
  | [] => none
  | (other, value) :: rest => if other = key then some value else lookup key rest

/-- The bindings with the first binding of the key replaced, or a new one at the end. -/
def bind (key : Key) (value : Value) : List (Key × Value) → List (Key × Value)
  | [] => [(key, value)]
  | (other, old) :: rest =>
    if other = key then (other, value) :: rest else (other, old) :: bind key value rest

/-- The value bound to a key. -/
def find? (map : FiniteMap Key Value) (key : Key) : Option Value := lookup key map.bindings

/-- Whether the key is bound. -/
def contains (map : FiniteMap Key Value) (key : Key) : Bool := (map.find? key).isSome

/-- Bind a key, in place if it was bound before. -/
def insert (map : FiniteMap Key Value) (key : Key) (value : Value) : FiniteMap Key Value :=
  ⟨bind key value map.bindings⟩

/-- Remove every binding of a key. -/
def erase (map : FiniteMap Key Value) (key : Key) : FiniteMap Key Value :=
  ⟨map.bindings.filter fun binding => binding.1 ≠ key⟩

/-- The bound keys, in order of their first binding. -/
def keys (map : FiniteMap Key Value) : List Key := map.bindings.map Prod.fst

@[simp] theorem find?_empty (key : Key) : (empty : FiniteMap Key Value).find? key = none := rfl

theorem lookup_bind_self (key : Key) (value : Value) (bindings : List (Key × Value)) :
    lookup key (bind key value bindings) = some value := by
  induction bindings with
  | nil => simp [bind, lookup]
  | cons binding rest ih =>
    obtain ⟨other, old⟩ := binding
    by_cases h : other = key <;> simp [bind, lookup, h, ih]

theorem lookup_bind_of_ne {key other : Key} (h : other ≠ key) (value : Value)
    (bindings : List (Key × Value)) :
    lookup other (bind key value bindings) = lookup other bindings := by
  induction bindings with
  | nil => simp [bind, lookup, h.symm]
  | cons binding rest ih =>
    obtain ⟨bound, old⟩ := binding
    by_cases hbound : bound = key
    · simp [bind, lookup, hbound, h.symm]
    · simp only [bind, if_neg hbound, lookup, ih]

theorem lookup_filter_self (key : Key) (bindings : List (Key × Value)) :
    lookup key (bindings.filter fun binding => binding.1 ≠ key) = none := by
  induction bindings with
  | nil => rfl
  | cons binding rest ih =>
    obtain ⟨bound, old⟩ := binding
    by_cases h : bound = key <;> simp_all [lookup]

theorem lookup_filter_of_ne {key other : Key} (h : other ≠ key) (bindings : List (Key × Value)) :
    lookup other (bindings.filter fun binding => binding.1 ≠ key) = lookup other bindings := by
  induction bindings with
  | nil => rfl
  | cons binding rest ih =>
    obtain ⟨bound, old⟩ := binding
    by_cases hbound : bound = key
    · simp_all [lookup, h.symm]
    · by_cases hother : bound = other <;> simp_all [lookup]

@[simp] theorem find?_insert_self (map : FiniteMap Key Value) (key : Key) (value : Value) :
    (map.insert key value).find? key = some value :=
  lookup_bind_self key value map.bindings

theorem find?_insert_of_ne (map : FiniteMap Key Value) {key other : Key} (h : other ≠ key)
    (value : Value) : (map.insert key value).find? other = map.find? other :=
  lookup_bind_of_ne h value map.bindings

@[simp] theorem find?_erase_self (map : FiniteMap Key Value) (key : Key) :
    (map.erase key).find? key = none :=
  lookup_filter_self key map.bindings

theorem find?_erase_of_ne (map : FiniteMap Key Value) {key other : Key} (h : other ≠ key) :
    (map.erase key).find? other = map.find? other :=
  lookup_filter_of_ne h map.bindings

end FiniteMap

end IteratorLowering
