import IteratorLowering.Lowering.Context
import IteratorLowering.Proofs.Forest.Handles
import IteratorLowering.Proofs.Frame.Invariant

/-!
# Signatures up to equivalent types

Where no type counts for two things at once (`Program.BundlesApart`), every type has a class
(`Program.typeClass`), and two types are equivalent if and only if their classes are the same
(`Program.equivalentTypes_iff`). So equivalence of types is an equivalence relation
(`Program.BundlesApart.equivalence`), and two functions have equivalent formals if and only if they
have the same signature, which is the list of the classes of their formals
(`Program.equivalentFormals_iff`).

Signatures are told from the handles of symbols and types. They stay while a program is enlarged, as
long as these handles are in use (`Program.Enlarges.signature`).
-/

set_option autoImplicit false
set_option relaxedAutoImplicit false

namespace IteratorLowering

/-- What a type passes for in a formal of a loop body. -/
inductive TypeClass where
  | function
  | bundle
  | bundleReference
  | other (type : TypeId)
  deriving DecidableEq, Repr

namespace Program

variable {program final : Program} {type : TypeId}

/-- Whether no type is both an argument bundle and a reference to one, and no type of function
references is either. -/
def BundlesApart (program : Program) : Prop :=
  ∀ type, ¬ ((program.type type).flags.argBundle = true ∧
      (program.type type).flags.refArgBundle = true) ∧
    ((program.type type).kind = .fnRef → (program.type type).flags.argBundle = false ∧
      (program.type type).flags.refArgBundle = false)

/-- What a type passes for. -/
def typeClass (program : Program) (type : TypeId) : TypeClass :=
  if (program.type type).kind = .fnRef then .function
  else if (program.type type).flags.argBundle then .bundle
  else if (program.type type).flags.refArgBundle then .bundleReference
  else .other type

/-- What the formals of a function pass for. -/
def signature (program : Program) (function : FnId) : List TypeClass :=
  (program.formalTypes function).map program.typeClass

/-- Types are equivalent if they pass for the same. -/
theorem equivalentTypes_iff (h : program.BundlesApart) {first second : TypeId} :
    program.equivalentTypes first second = true ↔
      program.typeClass first = program.typeClass second := by
  obtain ⟨hboth, hnone⟩ := h first
  obtain ⟨hboth', hnone'⟩ := h second
  simp only [equivalentTypes, Bool.or_eq_true, Bool.and_eq_true, beq_iff_eq, typeClass]
  by_cases heq : first = second
  · simp [heq]
  by_cases hfunction : (program.type first).kind = .fnRef <;>
    by_cases hfunction' : (program.type second).kind = .fnRef <;>
    by_cases hbundle : (program.type first).flags.argBundle = true <;>
    by_cases hbundle' : (program.type second).flags.argBundle = true <;>
    by_cases href : (program.type first).flags.refArgBundle = true <;>
    by_cases href' : (program.type second).flags.refArgBundle = true <;> simp_all

/-- Equivalence of types is an equivalence relation. -/
theorem BundlesApart.equivalence (h : program.BundlesApart) :
    Equivalence fun first second ↦ program.equivalentTypes first second = true where
  refl _ := (equivalentTypes_iff h).mpr rfl
  symm hfirst := (equivalentTypes_iff h).mpr ((equivalentTypes_iff h).mp hfirst).symm
  trans hfirst hsecond := (equivalentTypes_iff h).mpr
    (((equivalentTypes_iff h).mp hfirst).trans ((equivalentTypes_iff h).mp hsecond))

/-- Lists of types are equivalent place by place if their classes are the same. -/
theorem forall₂_equivalentTypes_iff (h : program.BundlesApart) {first second : List TypeId} :
    List.Forall₂ (fun type other ↦ program.equivalentTypes type other = true) first second ↔
      first.map program.typeClass = second.map program.typeClass := by
  simp only [equivalentTypes_iff h]
  rw [← List.forall₂_eq_eq_eq, List.forall₂_map_left_iff, List.forall₂_map_right_iff]

/-- Functions have equivalent formals if they have the same signature. -/
theorem equivalentFormals_iff (h : program.BundlesApart) {first second : FnId} :
    program.equivalentFormals first second = true ↔
      program.signature first = program.signature second := by
  rw [signature, signature, ← forall₂_equivalentTypes_iff h, List.forall₂_iff_zip]
  simp only [equivalentFormals, Bool.and_eq_true, beq_iff_eq, List.all_eq_true, Prod.forall]

/-! ### Signatures that stay -/

/-- Whether the handles of types and symbols that the entries of a program hold are in use. -/
structure WellTyped (program : Program) : Prop where
  void : program.HasType .void
  int : program.HasType .int
  symbol : ∀ {id}, program.HasSymbol id → program.HasType (program.symbolType id)
  reference : ∀ {id reference}, program.HasType id → (program.type id).refType = some reference →
    program.HasType reference
  field : ∀ {id}, program.HasType id → ∀ field ∈ (program.type id).fields,
    program.HasType field.type
  formal : ∀ {id}, program.HasFunction id → ∀ formal ∈ (program.function id).formals,
    program.HasSymbol formal
  returned : ∀ {id}, program.HasFunction id → program.HasType (program.function id).retType
  instances : ∀ {id info}, program.HasFunction id →
    (program.function id).iteratorInfo = some info → program.HasType info.classType

namespace WellTyped

/-- A symbol that is not there has the type without values. -/
theorem symbolType (h : program.WellTyped) (symbol : SymId) :
    program.HasType (program.symbolType symbol) := by
  by_cases hsymbol : program.HasSymbol symbol
  · exact h.symbol hsymbol
  · rw [symbolType_of_not_has hsymbol]
    exact h.void

theorem formalTypes (h : program.WellTyped) (function : FnId) :
    ∀ type ∈ program.formalTypes function, program.HasType type := by
  intro type htype
  obtain ⟨formal, -, rfl⟩ := List.mem_map.mp htype
  exact h.symbolType formal

end WellTyped

namespace Enlarges

theorem typeClass (h : program.Enlarges final) (htype : program.HasType type) :
    final.typeClass type = program.typeClass type := by
  rw [Program.typeClass, h.kind_type htype, h.flags_type htype, Program.typeClass]

/-- The signature of a function stays if the function keeps its formals. -/
theorem signature (h : program.Enlarges final) (htyped : program.WellTyped) {function : FnId}
    (hfunction : program.HasFunction function)
    (hformals : (final.function function).formals = (program.function function).formals) :
    final.signature function = program.signature function := by
  have htypes : final.formalTypes function = program.formalTypes function := by
    rw [formalTypes, hformals, formalTypes]
    exact List.map_congr_left fun formal hformal ↦
      h.symbolType (htyped.formal hfunction formal hformal)
  rw [Program.signature, htypes, Program.signature]
  exact List.map_congr_left fun type htype ↦ h.typeClass (htyped.formalTypes function type htype)

end Enlarges

/-! ### Checking types -/

/-- No entry in the table of types is a bundle and something else. -/
def ChecksBundles (program : Program) : Prop :=
  ∀ index < program.types.size, ¬ ((program.type ⟨index⟩).flags.argBundle = true ∧
      (program.type ⟨index⟩).flags.refArgBundle = true) ∧
    ((program.type ⟨index⟩).kind = .fnRef → (program.type ⟨index⟩).flags.argBundle = false ∧
      (program.type ⟨index⟩).flags.refArgBundle = false)

instance (program : Program) : Decidable program.ChecksBundles :=
  inferInstanceAs (Decidable (∀ index < program.types.size, _))

/-- A handle that is not in use reads as a type without flags, so it need not be checked. -/
theorem checksBundles_iff : program.ChecksBundles ↔ program.BundlesApart := by
  refine ⟨fun h type ↦ ?_, fun h index _ ↦ h ⟨index⟩⟩
  by_cases htype : program.HasType type
  · exact h type.index htype
  · rw [type_of_not_has htype]
    decide

instance (program : Program) : Decidable program.BundlesApart :=
  decidable_of_iff program.ChecksBundles checksBundles_iff

/-- The handles of types and symbols that the entries of the arenas hold are in use. -/
def ChecksTypes (program : Program) : Prop :=
  (program.HasType .void ∧ program.HasType .int) ∧
  (∀ index < program.symbols.size, program.HasType (program.symbolType ⟨index⟩)) ∧
  (∀ index < program.types.size,
    (∀ reference ∈ (program.type ⟨index⟩).refType, program.HasType reference) ∧
    ∀ field ∈ (program.type ⟨index⟩).fields, program.HasType field.type) ∧
  ∀ index < program.functions.size,
    (∀ formal ∈ (program.function ⟨index⟩).formals, program.HasSymbol formal) ∧
    program.HasType (program.function ⟨index⟩).retType ∧
    ∀ info ∈ (program.function ⟨index⟩).iteratorInfo, program.HasType info.classType

instance (program : Program) : Decidable program.ChecksTypes :=
  inferInstanceAs (Decidable (_ ∧ _))

theorem checksTypes_iff : program.ChecksTypes ↔ program.WellTyped := by
  constructor
  · rintro ⟨⟨hvoid, hint⟩, hsymbols, htypes, hfunctions⟩
    exact ⟨hvoid, hint, fun h ↦ hsymbols _ h, fun h ↦ (htypes _ h).1 _, fun h ↦ (htypes _ h).2,
      fun h ↦ (hfunctions _ h).1, fun h ↦ (hfunctions _ h).2.1, fun h ↦ (hfunctions _ h).2.2 _⟩
  · intro h
    exact ⟨⟨h.void, h.int⟩, fun _ hindex ↦ h.symbol hindex,
      fun _ hindex ↦ ⟨fun _ ↦ h.reference hindex, h.field hindex⟩,
      fun _ hindex ↦ ⟨h.formal hindex, h.returned hindex, fun _ ↦ h.instances hindex⟩⟩

instance (program : Program) : Decidable program.WellTyped :=
  decidable_of_iff program.ChecksTypes checksTypes_iff

end Program

end IteratorLowering
