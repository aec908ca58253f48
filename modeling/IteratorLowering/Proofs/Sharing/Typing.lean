import IteratorLowering.Proofs.Passes.Headers
import IteratorLowering.Proofs.Sharing.Signatures
import IteratorLowering.Proofs.Sharing.Tables

/-!
# Programs that stay typed

A program stays well typed, and keeps bundles apart, while symbols and types are added to it
(`Program.TypedWith`): a new symbol needs a type that is there, and a new type is a bundle or a
reference, which counts as a reference to a bundle only if it is one. A new function makes the
number of functions grow by one, which tells functions that were made one after the other apart.
-/

set_option autoImplicit false
set_option relaxedAutoImplicit false

namespace IteratorLowering

namespace Program

/-- A well-typed program with the types of another one and some functions more. -/
structure TypedWith (start : Program) (made : Nat) (program : Program) : Prop where
  typed : program.WellTyped
  apart : program.BundlesApart
  type : ∀ {id}, start.HasType id → program.HasType id
  functions : program.functions.size = start.functions.size + made

variable {start program final : Program} {made : Nat} {type : TypeId} {owner : FnId}

namespace TypedWith

theorem refl (htyped : program.WellTyped) (hapart : program.BundlesApart) :
    program.TypedWith 0 program :=
  ⟨htyped, hapart, id, rfl⟩

theorem of_sameTables (h : start.TypedWith made program) (hsame : program.SameTables final) :
    start.TypedWith made final := by
  have htype (id : TypeId) : final.type id = program.type id := by
    rw [Program.type, hsame.types, Program.type]
  have hhasType (id : TypeId) : final.HasType id ↔ program.HasType id := by
    rw [HasType, hsame.types, HasType]
  have hsymbolType (id : SymId) : final.symbolType id = program.symbolType id := by
    rw [symbolType, symbol, hsame.symbols, symbolType, symbol]
  have hhasSymbol (id : SymId) : final.HasSymbol id ↔ program.HasSymbol id := by
    rw [HasSymbol, hsame.symbols, HasSymbol]
  have hhasFunction (id : FnId) : final.HasFunction id ↔ program.HasFunction id := by
    rw [HasFunction, hsame.functions, HasFunction]
  refine ⟨?_, fun id ↦ by rw [htype]; exact h.apart id, fun hid ↦ (hhasType _).mpr (h.type hid),
    hsame.functions.trans h.functions⟩
  constructor
  case void => exact (hhasType _).mpr h.typed.void
  case int => exact (hhasType _).mpr h.typed.int
  case symbol =>
    intro id hid
    rw [hsymbolType, hhasType]
    exact h.typed.symbol ((hhasSymbol id).mp hid)
  case reference =>
    intro id reference hid href
    rw [htype] at href
    exact (hhasType _).mpr (h.typed.reference ((hhasType id).mp hid) href)
  case field =>
    intro id hid field hfield
    rw [htype] at hfield
    exact (hhasType _).mpr (h.typed.field ((hhasType id).mp hid) field hfield)
  case formal =>
    intro id hid formal hformal
    rw [hsame.function] at hformal
    exact (hhasSymbol _).mpr (h.typed.formal ((hhasFunction id).mp hid) formal hformal)
  case returned =>
    intro id hid
    rw [hsame.function, hhasType]
    exact h.typed.returned ((hhasFunction id).mp hid)
  case instances =>
    intro id info hid hinfo
    rw [hsame.function] at hinfo
    exact (hhasType _).mpr (h.typed.instances ((hhasFunction id).mp hid) hinfo)

/-- A symbol may be added that has a type that is there. -/
theorem addSymbol (h : start.TypedWith made program) {entry : Symbol}
    (htype : program.HasType entry.type) : start.TypedWith made (program.addSymbol entry).2 := by
  have henlarges : program.Enlarges (program.addSymbol entry).2 := .addSymbol program entry
  refine ⟨{ h.typed with symbol := fun {id} hid ↦ ?_, formal := fun hid formal hformal ↦ ?_ },
    h.apart, h.type, h.functions⟩
  · by_cases hold : program.HasSymbol id
    · rw [henlarges.symbolType hold]
      exact h.typed.symbol hold
    · have heq : id = ⟨program.symbols.size⟩ := by
        obtain ⟨index⟩ := id
        simp only [HasSymbol, Program.addSymbol, Array.size_push] at hid hold
        rw [show index = program.symbols.size by omega]
      rw [heq]
      exact (symbolType_addSymbol program entry).symm ▸ htype
  · exact (henlarges.symbol (h.typed.formal hid formal hformal)).1

theorem setOwner (h : start.TypedWith made program) (symbol : SymId) (owner : FnId) :
    start.TypedWith made (program.setOwner symbol owner) := by
  have hhas (id : SymId) : (program.setOwner symbol owner).HasSymbol id ↔ program.HasSymbol id := by
    simp [HasSymbol, Program.setOwner, modifySymbol]
  refine ⟨{ h.typed with symbol := fun {id} hid ↦ ?_, formal := fun hid formal hformal ↦ ?_ },
    h.apart, h.type, h.functions⟩
  · rw [(Enlarges.setOwner program symbol owner).symbolType ((hhas id).mp hid)]
    exact h.typed.symbol ((hhas id).mp hid)
  · exact (hhas formal).mpr (h.typed.formal hid formal hformal)

theorem claimLocals (h : start.TypedWith made program) (owner : FnId) (root : StmtId) :
    start.TypedWith made (program.claimLocals owner root) := by
  unfold Program.claimLocals
  generalize program.walk root = ids
  induction ids generalizing program with
  | nil => exact h
  | cons first rest ih =>
    refine ih ?_
    dsimp only
    split
    · exact h.setOwner _ owner
    · exact h

/-- A function that is there may get one more formal. -/
theorem addFormal (h : start.TypedWith made program) (owner : FnId) (name : String)
    (htype : program.HasType type) :
    start.TypedWith made (program.addFormal owner name type).2 := by
  set first := (program.addSymbol { name, kind := .arg, type, owner := some owner }).2
  have hfirst : start.TypedWith made first := h.addSymbol htype
  have hfunction (id : FnId) : ∃ formals, (∀ formal ∈ formals, formal = ⟨program.symbols.size⟩) ∧
      (program.addFormal owner name type).2.function id =
        { first.function id with formals := (first.function id).formals ++ formals } := by
    have hmodified := function_modifyFunction first owner id fun definition ↦
      { definition with formals := definition.formals ++ [⟨program.symbols.size⟩] }
    by_cases heq : id = owner ∧ owner.index < first.functions.size
    · refine ⟨[⟨program.symbols.size⟩], by simp, hmodified.trans ?_⟩
      rw [if_pos heq, heq.1]
    · refine ⟨[], by simp, hmodified.trans ?_⟩
      rw [if_neg heq, List.append_nil]
  have hhas (id : FnId) : (program.addFormal owner name type).2.HasFunction id ↔
      first.HasFunction id := by
    simp [HasFunction, Program.addFormal, modifyFunction, first]
  refine ⟨{ hfirst.typed with
    formal := fun {id} hid formal hformal ↦ ?_
    returned := fun {id} hid ↦ ?_
    instances := fun {id info} hid hinfo ↦ ?_ }, hfirst.apart, hfirst.type, ?_⟩
  · obtain ⟨formals, hnew, heq⟩ := hfunction id
    rw [heq] at hformal
    rcases List.mem_append.mp hformal with hformal | hformal
    · exact hfirst.typed.formal ((hhas id).mp hid) formal hformal
    · rw [hnew formal hformal]
      exact hasSymbol_addSymbol program _
  · obtain ⟨formals, -, heq⟩ := hfunction id
    rw [heq]
    exact hfirst.typed.returned ((hhas id).mp hid)
  · obtain ⟨formals, -, heq⟩ := hfunction id
    rw [heq] at hinfo
    exact hfirst.typed.instances ((hhas id).mp hid) hinfo
  · simpa [Program.addFormal, modifyFunction, first] using hfirst.functions

theorem register (h : start.TypedWith made program) (function : FnId) :
    start.TypedWith made { program with table := (program.table.register function).2 } :=
  h.of_sameTables ⟨rfl, rfl, rfl, fun _ ↦ rfl⟩

theorem hasType_addType (program : Program) (definition : TypeDef) (id : TypeId) :
    (program.addType definition).2.HasType id ↔
      program.HasType id ∨ id = ⟨program.types.size⟩ := by
  obtain ⟨index⟩ := id
  simp only [HasType, Program.addType, Array.size_push, TypeId.mk.injEq]
  omega

theorem type_addType (program : Program) (definition : TypeDef) (id : TypeId) :
    (program.addType definition).2.type id =
      if id = ⟨program.types.size⟩ then definition else program.type id := by
  obtain ⟨index⟩ := id
  simp only [Program.type, Program.addType, Array.getD_eq_getD_getElem?, Array.getElem?_push,
    TypeId.mk.injEq]
  split <;> rfl

/-- A type may be added that has no reference type yet, if its fields have types that are there and
it counts for one thing only. -/
theorem addType (h : start.TypedWith made program) {definition : TypeDef}
    (hreference : definition.refType = none)
    (hfields : ∀ field ∈ definition.fields, program.HasType field.type)
    (hkind : definition.kind ≠ .fnRef)
    (hflags : ¬ (definition.flags.argBundle = true ∧ definition.flags.refArgBundle = true)) :
    start.TypedWith made (program.addType definition).2 := by
  have hhas (id : TypeId) (hid : program.HasType id) : (program.addType definition).2.HasType id :=
    (hasType_addType ..).mpr (.inl hid)
  have hold {id : TypeId} (hid : (program.addType definition).2.HasType id)
      (hne : id ≠ ⟨program.types.size⟩) : program.HasType id :=
    ((hasType_addType ..).mp hid).resolve_right hne
  refine ⟨?_, fun id ↦ ?_, fun hid ↦ hhas _ (h.type hid), h.functions⟩
  · exact {
      void := hhas _ h.typed.void
      int := hhas _ h.typed.int
      symbol := fun hid ↦ hhas _ (h.typed.symbol hid)
      reference := fun {id reference} hid href ↦ by
        rw [type_addType] at href
        split at href
        · rw [hreference] at href
          cases href
        · exact hhas _ (h.typed.reference (hold hid ‹_›) href)
      field := fun {id} hid field hfield ↦ by
        rw [type_addType] at hfield
        split at hfield
        · exact hhas _ (hfields field hfield)
        · exact hhas _ (h.typed.field (hold hid ‹_›) field hfield)
      formal := h.typed.formal
      returned := fun hid ↦ hhas _ (h.typed.returned hid)
      instances := fun hid hinfo ↦ hhas _ (h.typed.instances hid hinfo) }
  · rw [type_addType]
    split
    · exact ⟨hflags, fun heq ↦ absurd heq hkind⟩
    · exact h.apart id

/-- A type may be given a reference type that is there. -/
theorem setRefType (h : start.TypedWith made program) (id : TypeId) {reference : TypeId}
    (hreference : program.HasType reference) :
    start.TypedWith made
      (program.modifyType id fun target ↦ { target with refType := some reference }) := by
  have hhas (other : TypeId) : (program.modifyType id fun target ↦
      { target with refType := some reference }).HasType other ↔ program.HasType other := by
    simp [HasType, modifyType]
  have htype (other : TypeId) : ∃ refType, (refType = (program.type other).refType ∨
      refType = some reference) ∧ (program.modifyType id fun target ↦
        { target with refType := some reference }).type other =
          { program.type other with refType } := by
    rw [type_modifyType]
    split
    · rename_i heq
      exact ⟨_, .inr rfl, by rw [heq.1]⟩
    · exact ⟨_, .inl rfl, rfl⟩
  refine ⟨?_, fun other ↦ ?_, fun hid ↦ (hhas _).mpr (h.type hid), h.functions⟩
  · exact {
      void := (hhas _).mpr h.typed.void
      int := (hhas _).mpr h.typed.int
      symbol := fun hid ↦ (hhas _).mpr (h.typed.symbol hid)
      reference := fun {other found} hid href ↦ by
        obtain ⟨refType, hwhich, heq⟩ := htype other
        rw [heq] at href
        rcases hwhich with hsame | hnew
        · exact (hhas _).mpr (h.typed.reference ((hhas _).mp hid) (hsame.symm.trans href))
        · exact (hhas _).mpr (Option.some.inj (hnew.symm.trans href) ▸ hreference)
      field := fun {other} hid field hfield ↦ by
        obtain ⟨refType, -, heq⟩ := htype other
        rw [heq] at hfield
        exact (hhas _).mpr (h.typed.field ((hhas _).mp hid) field hfield)
      formal := h.typed.formal
      returned := fun hid ↦ (hhas _).mpr (h.typed.returned hid)
      instances := fun hid hinfo ↦ (hhas _).mpr (h.typed.instances hid hinfo) }
  · obtain ⟨refType, -, heq⟩ := htype other
    rw [heq]
    exact h.apart other

/-- A reference type that is asked for is there afterwards. -/
theorem refOf (h : start.TypedWith made program) (htype : program.HasType type) :
    start.TypedWith made (program.refOf type).2 ∧
      (program.refOf type).2.HasType (program.refOf type).1 := by
  cases href : (program.type type).refType with
  | some existing =>
    simp only [Program.refOf, href]
    exact ⟨h, h.typed.reference htype href⟩
  | none =>
    simp only [Program.refOf, href]
    set definition : TypeDef :=
      { name := "_ref_" ++ (program.type type).name
        kind := .ref type
        flags := { refArgBundle := (program.type type).flags.argBundle } }
    have hadded : start.TypedWith made (program.addType definition).2 :=
      h.addType rfl (by simp [definition]) (by simp [definition]) (by simp [definition])
    have hnew : (program.addType definition).2.HasType (program.addType definition).1 :=
      (hasType_addType ..).mpr (.inr rfl)
    exact ⟨hadded.setRefType type hnew, by simpa [HasType, modifyType] using hnew⟩

/-- The other functions stay as they are when one is made. -/
theorem function_newFlagged_of_has {id : FnId} (hid : program.HasFunction id) (name : String)
    (span : Span) (change : FnFlags → FnFlags) :
    ((program.newFunction name .void span).2.modifyFunction ⟨program.functions.size⟩
      fun definition ↦ { definition with flags := change definition.flags }).function id =
        program.function id := by
  obtain ⟨statements, hstatements⟩ := program.newStmt_arenas (.plain []) span
  have hne : id ≠ ⟨program.functions.size⟩ := by
    rintro rfl
    exact Nat.lt_irrefl _ hid
  have hwith := function_withFunction (program.newStmt (.plain []) span).2
    { name, retType := .void, body := program.nextStmt, span } id
  refine (function_modifyFunction ..).trans ((if_neg fun heq ↦ hne heq.1).trans (hwith.trans ?_))
  rw [hstatements]
  exact if_neg hne

/-- A function without formals and without a result may be made. -/
theorem newFlagged (h : start.TypedWith made program) (name : String) (span : Span)
    (change : FnFlags → FnFlags) :
    start.TypedWith (made + 1) ((program.newFunction name .void span).2.modifyFunction
      ⟨program.functions.size⟩ fun definition ↦
        { definition with flags := change definition.flags }) := by
  obtain ⟨statements, hstatements⟩ := program.newStmt_arenas (.plain []) span
  obtain ⟨-, hmade⟩ := program.function_newFlagged name .void span change
  have hother {id : FnId} (hid : program.HasFunction id) :=
    function_newFlagged_of_has hid name span change
  set final := (program.newFunction name .void span).2.modifyFunction ⟨program.functions.size⟩
    fun definition ↦ { definition with flags := change definition.flags }
  have hsize : final.functions.size = program.functions.size + 1 := by
    simp [final, newFunction_eq, withFunction, modifyFunction, setBodyOf, modifyStmt, hstatements]
  have htables : final.symbols = program.symbols ∧ final.types = program.types := by
    constructor <;>
      simp [final, newFunction_eq, withFunction, modifyFunction, setBodyOf, modifyStmt, hstatements]
  have hwithout : start.TypedWith made { final with functions := program.functions } :=
    h.of_sameTables (.of_functions htables.1 htables.2 rfl)
  have hcases {id : FnId} (hid : final.HasFunction id) :
      id = ⟨program.functions.size⟩ ∨ program.HasFunction id := by
    rw [HasFunction, hsize] at hid
    exact (ne_or_eq_of_lt_succ hid).symm.imp_right And.left
  refine ⟨{ hwithout.typed with
    formal := fun {id} hid formal hformal ↦ ?_
    returned := fun {id} hid ↦ ?_
    instances := fun {id info} hid hinfo ↦ ?_ }, hwithout.apart, hwithout.type, ?_⟩
  · rcases hcases hid with rfl | hold
    · rw [hmade] at hformal
      cases hformal
    · rw [hother hold] at hformal
      exact hwithout.typed.formal hold formal hformal
  · rcases hcases hid with rfl | hold
    · rw [hmade]
      exact hwithout.typed.void
    · rw [hother hold]
      exact hwithout.typed.returned hold
  · rcases hcases hid with rfl | hold
    · rw [hmade] at hinfo
      cases hinfo
    · rw [hother hold] at hinfo
      exact hwithout.typed.instances hold hinfo
  · rw [hsize, h.functions, Nat.add_assoc]

theorem trans {middle : Program} {more : Nat} (first : start.TypedWith made middle)
    (second : middle.TypedWith more final) : start.TypedWith (made + more) final where
  typed := second.typed
  apart := second.apart
  type := second.type ∘ first.type
  functions := by rw [second.functions, first.functions, Nat.add_assoc]

end TypedWith

end Program

variable {start program : Program} {made : Nat} {type : TypeId} {cursor : Cursor}

section

variable {m : Type → Type} [Monad m] [MonadStateOf Program m] [Runs m Program] {α : Type}

/-- Whether a program stays typed when a computation gives a result. -/
abbrev Program.KeepsTyped (start : Program) (made : Nat) (program : Program)
    (computation : m α) : Prop :=
  Ensures computation program (fun _ ↦ True) fun _ final ↦ start.TypedWith made final

theorem Program.TypedWith.leaves (h : start.TypedWith made program) {computation : m α}
    (hleaves : program.LeavesTables computation) : start.KeepsTyped made program computation :=
  hleaves.mono (fun _ _ ↦ trivial) fun _ _ hsame _ ↦ h.of_sameTables hsame

theorem Program.keepsTyped_modifyGet {change : Program → α × Program}
    (h : start.TypedWith made (change program).2) :
    start.KeepsTyped made program (modifyGet change : m α) :=
  ensures_modifyGet.mpr ⟨trivial, h⟩

theorem Program.keepsTyped_modify {change : Program → Program}
    (h : start.TypedWith made (change program)) :
    start.KeepsTyped made program (modify change : m PUnit) :=
  ensures_modify.mpr ⟨trivial, h⟩

theorem Program.typed_refOf (h : start.TypedWith made program) (htype : program.HasType type) :
    Ensures (modifyGet fun program ↦ program.refOf type : m TypeId) program (fun _ ↦ True)
      fun reference final ↦ start.TypedWith made final ∧ final.HasType reference :=
  ensures_modifyGet.mpr ⟨trivial, h.refOf htype⟩

/-- What is seen from a program in between is seen from the start. -/
theorem Program.TypedWith.rebase {more : Nat} {result : α → Program → Prop} {computation : m α}
    (h : start.TypedWith made program)
    (hrest : Ensures computation program (fun _ ↦ True)
      fun value final ↦ program.TypedWith more final ∧ result value final) :
    Ensures computation program (fun _ ↦ True)
      fun value final ↦ start.TypedWith (made + more) final ∧ result value final :=
  hrest.mono (fun _ _ ↦ trivial) fun _ _ _ hresult ↦ ⟨h.trans hresult.1, hresult.2⟩

/-- The same for a computation that makes no function. -/
theorem Program.TypedWith.rebase_zero {result : α → Program → Prop} {computation : m α}
    (h : start.TypedWith made program)
    (hrest : Ensures computation program (fun _ ↦ True)
      fun value final ↦ program.TypedWith 0 final ∧ result value final) :
    Ensures computation program (fun _ ↦ True)
      fun value final ↦ start.TypedWith made final ∧ result value final :=
  h.rebase hrest

/-- The same for a computation that makes no function and gives nothing of interest. -/
theorem Program.TypedWith.rebaseSame {computation : m α} (h : start.TypedWith made program)
    (hrest : program.KeepsTyped 0 program computation) :
    start.KeepsTyped made program computation :=
  hrest.mono (fun _ _ ↦ trivial) fun _ _ _ hresult ↦ h.trans hresult

end

namespace Cursor

theorem keepsTyped_emit (h : start.TypedWith made program) {kind : StmtKind} :
    start.KeepsTyped made program (cursor.emit kind) :=
  h.leaves leavesTables_emit

theorem keepsTyped_fresh (h : start.TypedWith made program) {name : String}
    (htype : program.HasType type) : start.KeepsTyped made program (cursor.fresh name type) := by
  unfold Cursor.fresh
  refine ensures_modifyGet_bind.mpr ?_
  exact (keepsTyped_emit (h.addSymbol htype)).bind fun _ _ _ h ↦ .pure trivial h

end Cursor

end IteratorLowering
