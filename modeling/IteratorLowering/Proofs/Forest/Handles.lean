import IteratorLowering.Proofs.Forest.Reworking

/-!
# Types behind handles

What is read off a handle stays the same while a program grows, if the handle is in use. A handle
that is not in use reads as a symbol of the builtin type without values, which is no instance of
an iterator. So where an iterator is found behind a symbol, all handles on the way are in use, and
the iterator is found there later too (`Grows.iteratorFnOf`).
-/

set_option autoImplicit false
set_option relaxedAutoImplicit false

namespace IteratorLowering

namespace Program

variable {program program' : Program} {type : TypeId} {symbol : SymId}

/-- Whether the first type is the builtin type without values, whatever its reference type is. -/
structure StartsWithVoid (program : Program) : Prop where
  has : program.HasType .void
  void : { program.type .void with refType := none } = { name := "void", kind := .void }

/-- Whether the handles that symbols, reference types and functions hold are in use. -/
structure Resolved (program : Program) : Prop where
  void : program.StartsWithVoid
  symbol : ∀ {id}, program.HasSymbol id → program.HasType (program.symbolType id)
  target : ∀ {id}, program.HasType id → program.HasType (program.valueType id)
  formal : ∀ {id formal}, program.HasFunction id → formal ∈ (program.function id).formals →
    program.HasSymbol formal

theorem type_of_not_has (h : ¬ program.HasType type) : program.type type = default := by
  rw [Program.type, Array.getD_eq_getD_getElem?, Array.getElem?_eq_none (Nat.not_lt.mp h)]
  rfl

theorem symbolType_of_not_has (h : ¬ program.HasSymbol symbol) :
    program.symbolType symbol = .void := by
  rw [symbolType, Program.symbol, Array.getD_eq_getD_getElem?,
    Array.getElem?_eq_none (Nat.not_lt.mp h)]
  rfl

theorem symbolKind_of_not_has (h : ¬ program.HasSymbol symbol) :
    (program.symbol symbol).kind = .var := by
  rw [Program.symbol, Array.getD_eq_getD_getElem?, Array.getElem?_eq_none (Nat.not_lt.mp h)]
  rfl

theorem function_of_not_has {id : FnId} (h : ¬ program.HasFunction id) :
    program.function id = default := by
  rw [Program.function, Array.getD_eq_getD_getElem?, Array.getElem?_eq_none (Nat.not_lt.mp h)]
  rfl

theorem valueType_of_not_has (h : ¬ program.HasType type) : program.valueType type = type := by
  rw [valueType, type_of_not_has h]
  rfl

theorem StartsWithVoid.iteratorFnOf (h : program.StartsWithVoid) :
    program.iteratorFnOf .void = none := by
  have hkind : (program.type .void).kind = .void := congrArg TypeDef.kind h.void
  have hnone : (program.type .void).iteratorFn = none := congrArg TypeDef.iteratorFn h.void
  rw [Program.iteratorFnOf, valueType, hkind, hnone]

namespace Grows

theorem startsWithVoid (h : program.Grows program') (hvoid : program.StartsWithVoid) :
    program'.StartsWithVoid :=
  ⟨(h.type hvoid.has).1, (h.type hvoid.has).2.trans hvoid.void⟩

theorem type_flags (h : program.Grows program') (htype : program.HasType type) :
    (program'.type type).flags = (program.type type).flags := by
  have hflags := congrArg TypeDef.flags (h.type htype).2
  exact hflags

theorem type_iteratorFn (h : program.Grows program') (htype : program.HasType type) :
    (program'.type type).iteratorFn = (program.type type).iteratorFn := by
  have hiterator := congrArg TypeDef.iteratorFn (h.type htype).2
  exact hiterator

theorem valueType (h : program.Grows program') (htype : program.HasType type) :
    program'.valueType type = program.valueType type := by
  have hkind := congrArg TypeDef.kind (h.type htype).2
  dsimp only at hkind
  rw [Program.valueType, Program.valueType, hkind]

/-- An iterator that is found behind a symbol is found there later too. -/
theorem iteratorFnOf (h : program.Grows program') (hvoid : program.StartsWithVoid)
    {iterator : FnId}
    (hiterator : program.iteratorFnOf (program.symbolType symbol) = some iterator) :
    program'.iteratorFnOf (program'.symbolType symbol) = some iterator := by
  have hsymbol : program.HasSymbol symbol := by
    by_contra hout
    rw [symbolType_of_not_has hout, hvoid.iteratorFnOf] at hiterator
    cases hiterator
  -- A type that is not in use is behind no reference and belongs to no iterator.
  have hnone : ∀ {id}, ¬ program.HasType id → (program.type id).iteratorFn = none := fun hout ↦ by
    rw [type_of_not_has hout]
    rfl
  have htarget : program.HasType (program.valueType (program.symbolType symbol)) := by
    by_contra hout
    rw [Program.iteratorFnOf, hnone hout] at hiterator
    cases hiterator
  have htype : program.HasType (program.symbolType symbol) := by
    by_contra hout
    exact hout (valueType_of_not_has hout ▸ htarget)
  rw [(h.symbol hsymbol).2, Program.iteratorFnOf, h.valueType htype, h.type_iteratorFn htarget]
  exact hiterator

end Grows

/-! ### Checking handles -/

instance (program : Program) (id : SymId) : Decidable (program.HasSymbol id) :=
  inferInstanceAs (Decidable (_ < _))

instance (program : Program) (id : TypeId) : Decidable (program.HasType id) :=
  inferInstanceAs (Decidable (_ < _))

/-- The handles in the entries of the arenas are in use. -/
def ChecksHandles (program : Program) : Prop :=
  (program.HasType .void ∧
    { program.type .void with refType := none } = { name := "void", kind := .void }) ∧
  (∀ index < program.symbols.size, program.HasType (program.symbolType ⟨index⟩)) ∧
  (∀ index < program.types.size, program.HasType (program.valueType ⟨index⟩)) ∧
  ∀ index < program.functions.size, ∀ formal ∈ (program.function ⟨index⟩).formals,
    program.HasSymbol formal

instance (program : Program) : Decidable program.ChecksHandles :=
  inferInstanceAs (Decidable (_ ∧ _))

theorem checksHandles_iff : program.ChecksHandles ↔ program.Resolved :=
  ⟨fun ⟨⟨hhas, hvoid⟩, hsymbols, htypes, hfunctions⟩ ↦
      ⟨⟨hhas, hvoid⟩, fun h ↦ hsymbols _ h, fun h ↦ htypes _ h, fun h ↦ hfunctions _ h _⟩,
    fun h ↦ ⟨⟨h.void.has, h.void.void⟩, fun _ hindex ↦ h.symbol hindex,
      fun _ hindex ↦ h.target hindex, fun _ hindex _ ↦ h.formal hindex⟩⟩

instance (program : Program) : Decidable program.Resolved :=
  decidable_of_iff program.ChecksHandles checksHandles_iff

end Program

end IteratorLowering
