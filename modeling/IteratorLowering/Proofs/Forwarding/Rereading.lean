import IteratorLowering.Proofs.ControlFlow.Dissolving
import IteratorLowering.Proofs.Forest.Visiting
import IteratorLowering.Proofs.Simulation.Rewriting
import IteratorLowering.Simplify.Copies

/-!
# Statements that read other symbols

A statement does more than read: it declares, jumps to and writes symbols, takes addresses, and
names what a loop goes over. Where it only reads other symbols than before (`StmtKind.Rereads`), it
does all this as it did. A program whose statements do, and which is the same otherwise
(`Program.Rereading`), has the same trees, calls the same functions and uses its symbols in the same
way (`Program.Rereading.symbolUses`).
-/

set_option autoImplicit false
set_option relaxedAutoImplicit false

namespace IteratorLowering

/-! ### Statements -/

namespace StmtKind

variable {kind : StmtKind} {f : SymId → SymId}

/-- The symbols that a statement does not just read. -/
def fixed (kind : StmtKind) : List SymId := kind.named?.toList ++ kind.pinned

theorem written?_mapSymbols (f : SymId → SymId) (kind : StmtKind) :
    (kind.mapSymbols f).written? = kind.written?.map f := by
  rcases kind with inner | _ | _
  · cases inner <;> rfl
  all_goals rfl

theorem defined?_mapSymbols (f : SymId → SymId) (kind : StmtKind) :
    (kind.mapSymbols f).defined? = kind.defined?.map f := by
  rcases kind with inner | _ | _
  · cases inner <;> rfl
  all_goals rfl

theorem gotoTarget?_mapSymbols (f : SymId → SymId) (kind : StmtKind) :
    (kind.mapSymbols f).gotoTarget? = kind.gotoTarget?.map f := by
  rcases kind with inner | _ | _
  · cases inner <;> rfl
  all_goals rfl

theorem expression?_mapSymbols (f : SymId → SymId) (kind : StmtKind) :
    (kind.mapSymbols f).expression? = kind.expression?.map (Expr.mapSymbols f) := by
  rcases kind with inner | _ | _
  · cases inner <;> rfl
  all_goals rfl

theorem pinned_mapSymbols (f : SymId → SymId) (kind : StmtKind) :
    (kind.mapSymbols f).pinned = kind.pinned.map f := by
  rcases kind with inner | _ | ⟨_ | info, _⟩
  · cases inner with
    | assign target value | evaluate value => cases value <;> rfl
    | _ => rfl
  · rfl
  · rfl
  · cases info with
    | forLoop header => exact operandSymbols_map f header
    | _ => rfl

theorem written?_subset : kind.written?.toList ⊆ kind.fixed := by
  rcases kind with inner | _ | _
  · cases inner <;> simp [fixed, written?, named?, Action.written?, Action.named?]
  all_goals simp [written?]

theorem defined?_subset : kind.defined?.toList ⊆ kind.fixed := by
  rcases kind with inner | _ | _
  · cases inner <;> simp [fixed, defined?, named?, Action.named?]
  all_goals simp [defined?]

theorem gotoTarget?_subset : kind.gotoTarget?.toList ⊆ kind.fixed := by
  rcases kind with inner | _ | _
  · cases inner <;> simp [fixed, gotoTarget?, named?, Action.named?]
  all_goals simp [gotoTarget?]

/-- A symbol that a statement names is declared, jumped to or written. -/
theorem mem_named? {symbol : SymId} : kind.named? = some symbol ↔
    kind.defined? = some symbol ∨ kind.gotoTarget? = some symbol ∨ kind.written? = some symbol := by
  rcases kind with inner | _ | _
  · cases inner <;> simp [named?, defined?, gotoTarget?, written?, Action.named?, Action.written?]
  all_goals simp [named?, defined?, gotoTarget?, written?]

theorem address?_subset {value : Expr} (hvalue : value ∈ kind.expression?) :
    value.address?.toList ⊆ kind.pinned := by
  cases value with
  | addressOf symbol =>
    rcases kind with inner | _ | _
    · cases inner with
      | assign | evaluate =>
        obtain rfl := Option.some.inj hvalue
        exact List.Subset.refl _
      | _ => cases hvalue
    all_goals cases hvalue
  | _ => exact List.nil_subset _

/-- The second statement reads other symbols than the first one and is the same otherwise. -/
structure Rereads (kind : StmtKind) (f : SymId → SymId) (kind' : StmtKind) : Prop where
  eq : kind' = kind.mapSymbols f
  fixed : ∀ symbol ∈ kind.fixed, f symbol = symbol

namespace Rereads

variable {kind' : StmtKind} (h : kind.Rereads f kind')

include h

theorem map_eq {found : Option SymId} (hfound : found.toList ⊆ kind.fixed) :
    found.map f = found := by
  cases found with
  | none => rfl
  | some symbol =>
    exact congrArg some (h.fixed symbol (hfound (List.mem_singleton_self symbol)))

theorem named? : kind'.named? = kind.named? := by
  rw [h.eq, named?_mapSymbols, h.map_eq (List.subset_append_left _ _)]

theorem written? : kind'.written? = kind.written? := by
  rw [h.eq, written?_mapSymbols, h.map_eq written?_subset]

theorem defined? : kind'.defined? = kind.defined? := by
  rw [h.eq, defined?_mapSymbols, h.map_eq defined?_subset]

theorem gotoTarget? : kind'.gotoTarget? = kind.gotoTarget? := by
  rw [h.eq, gotoTarget?_mapSymbols, h.map_eq gotoTarget?_subset]

theorem pinned : kind'.pinned = kind.pinned := by
  rw [h.eq, pinned_mapSymbols]
  exact (List.map_congr_left fun symbol hsymbol ↦
    h.fixed symbol (List.mem_append_right _ hsymbol)).trans (List.map_id _)

theorem children : kind'.children = kind.children := by
  rw [h.eq, children_mapSymbols]

/-- The same functions are called, and the same addresses are taken. -/
theorem exists_expression? {value' : Expr} (hvalue : value' ∈ kind'.expression?) :
    ∃ value ∈ kind.expression?,
      value'.callee? = value.callee? ∧ value'.address? = value.address? := by
  rw [h.eq, expression?_mapSymbols] at hvalue
  obtain ⟨value, hfound, rfl⟩ := Option.map_eq_some_iff.mp hvalue
  refine ⟨value, hfound, by cases value <;> rfl, ?_⟩
  have haddress : (value.mapSymbols f).address? = value.address?.map f := by cases value <;> rfl
  rw [haddress, h.map_eq (List.Subset.trans (address?_subset hfound)
    (List.subset_append_right _ _))]

/-- A copy sets the same variable, though it may copy another one. -/
theorem exists_copy {target source' : SymId}
    (hcopy : kind' = .action (.assign target (.use (.sym source')))) :
    ∃ source, kind = .action (.assign target (.use (.sym source))) := by
  have hnamed := h.named?
  have heq := h.eq.symm
  rw [hcopy] at hnamed heq
  cases kind with
  | action inner =>
    cases inner with
    | assign other value =>
      obtain rfl : target = other := Option.some.inj hnamed
      obtain ⟨-, hvalue⟩ := Action.assign.inj (StmtKind.action.inj heq)
      cases value with
      | use operand =>
        cases operand with
        | sym source => exact ⟨source, rfl⟩
        | lit => cases hvalue
      | _ => cases hvalue
    | _ => cases heq
  | branch | block => cases heq

end Rereads

end StmtKind

theorem Program.blockBody_of_rereads {program final : Program} {id : StmtId} {f : SymId → SymId}
    (h : (program.kind id).Rereads f (final.kind id)) :
    final.blockBody id = program.blockBody id := by
  unfold blockBody
  rw [h.eq]
  cases program.kind id <;> rfl

/-! ### Programs -/

namespace Program

variable {program final : Program} {function : FnId}

section

variable (hsame : final = { program with statements := final.statements })

include hsame

theorem function_of_same : final.function = program.function := by
  rw [hsame]
  rfl

theorem type_of_same : final.type = program.type := by
  rw [hsame]
  rfl

theorem symbol_of_same : final.symbol = program.symbol := by
  rw [hsame]
  rfl

theorem symbolName_of_same (symbol : SymId) :
    final.symbolName symbol = program.symbolName symbol :=
  congrArg Symbol.name (congrFun (symbol_of_same hsame) symbol)

theorem symbolType_of_same (symbol : SymId) :
    final.symbolType symbol = program.symbolType symbol :=
  congrArg Symbol.type (congrFun (symbol_of_same hsame) symbol)

end

/-- The statements of the second program read other symbols, but only such as the function mentions,
and nothing else has changed. -/
structure Rereading (program final : Program) (function : FnId) : Prop where
  same : final = { program with statements := final.statements }
  size : final.statements.size = program.statements.size
  parent : ∀ id, final.parent id = program.parent id
  owner : ∀ id, (final.stmt id).bodyOf = (program.stmt id).bodyOf
  rereads : ∀ id, ∃ f, (program.kind id).Rereads f (final.kind id) ∧ ∀ symbol, f symbol = symbol ∨
    ∃ other ∈ program.functionStmts function, f symbol ∈ (program.kind other).symbols

namespace Rereading

theorem refl (program : Program) (function : FnId) : program.Rereading program function where
  same := rfl
  size := rfl
  parent _ := rfl
  owner _ := rfl
  rereads _ := ⟨_, ⟨(StmtKind.mapSymbols_id _).symm, fun _ _ ↦ rfl⟩, fun _ ↦ .inl rfl⟩

variable (h : program.Rereading final function)

include h

theorem children (id : StmtId) : (final.kind id).children = (program.kind id).children := by
  obtain ⟨f, hrereads, -⟩ := h.rereads id
  exact hrereads.children

theorem defined? (id : StmtId) : (final.kind id).defined? = (program.kind id).defined? := by
  obtain ⟨f, hrereads, -⟩ := h.rereads id
  exact hrereads.defined?

theorem gotoTarget? (id : StmtId) :
    (final.kind id).gotoTarget? = (program.kind id).gotoTarget? := by
  obtain ⟨f, hrereads, -⟩ := h.rereads id
  exact hrereads.gotoTarget?

theorem bodyOf (other : FnId) : final.bodyOf other = program.bodyOf other := by
  rw [h.same]
  rfl

theorem hasFunction (other : FnId) : final.HasFunction other ↔ program.HasFunction other := by
  rw [h.same]
  rfl

theorem functionStmts (other : FnId) : final.functionStmts other = program.functionStmts other := by
  rw [Program.functionStmts, Program.functionStmts, h.bodyOf]
  exact walk_congr h.children h.size _

theorem under : final.Under = program.Under := by
  unfold Under
  simp only [h.parent]

theorem wellLinked (hlinked : program.WellLinked) : final.WellLinked := by
  refine hlinked.congr h.children h.parent h.owner ?_
  rw [h.same]

theorem stands (id : StmtId) : final.Stands id ↔ program.Stands id := by
  unfold Stands StandsIn
  simp only [h.hasFunction, h.under, h.owner]

theorem callsKnown (hcalls : program.CallsKnown) : final.CallsKnown := by
  refine ⟨fun {id} hid value' hvalue' other hother ↦ ?_, fun {slot other} hslot ↦ ?_,
    fun {type other} hiterator ↦ ?_⟩
  · obtain ⟨f, hrereads, -⟩ := h.rereads id
    obtain ⟨value, hvalue, hcallee, -⟩ := hrereads.exists_expression? hvalue'
    have hstands := (h.stands id).mp hid
    exact (h.hasFunction other).mpr (hcalls.callee hstands value hvalue other (hcallee ▸ hother))
  · rw [h.same] at hslot
    exact (h.hasFunction other).mpr (hcalls.slot hslot)
  · rw [h.same] at hiterator
    exact (h.hasFunction other).mpr (hcalls.iterator hiterator)

theorem symbolUses : final.symbolUses function = program.symbolUses function := by
  have hkind (id : StmtId) : (final.kind id).written? = (program.kind id).written? ∧
      (final.kind id).pinned = (program.kind id).pinned := by
    obtain ⟨f, hrereads, -⟩ := h.rereads id
    exact ⟨hrereads.written?, hrereads.pinned⟩
  simp only [Program.symbolUses, h.functionStmts, h.defined?, hkind, function_of_same h.same]

/-- What the function mentions it mentioned before. -/
theorem mentioned {id : StmtId} (hid : id ∈ program.functionStmts function) {symbol : SymId}
    (hsymbol : symbol ∈ (final.kind id).symbols) :
    ∃ other ∈ program.functionStmts function, symbol ∈ (program.kind other).symbols := by
  obtain ⟨f, hrereads, hmentioned⟩ := h.rereads id
  rw [hrereads.eq, StmtKind.symbols_mapSymbols] at hsymbol
  obtain ⟨before, hbefore, rfl⟩ := List.mem_map.mp hsymbol
  rcases hmentioned before with heq | hother
  · exact ⟨id, hid, heq.symm ▸ hbefore⟩
  · exact hother

theorem trans {last : Program} (h' : final.Rereading last function) :
    program.Rereading last function where
  same := by
    rw [h'.same, h.same]
  size := h'.size.trans h.size
  parent id := (h'.parent id).trans (h.parent id)
  owner id := (h'.owner id).trans (h.owner id)
  rereads id := by
    obtain ⟨f, hrereads, hmentioned⟩ := h.rereads id
    obtain ⟨g, hrereads', hmentioned'⟩ := h'.rereads id
    refine ⟨g ∘ f, ⟨?_, fun symbol hsymbol ↦ ?_⟩, fun symbol ↦ ?_⟩
    · rw [hrereads'.eq, hrereads.eq, StmtKind.mapSymbols_mapSymbols]
    · have hfixed : (final.kind id).fixed = (program.kind id).fixed := by
        rw [StmtKind.fixed, hrereads.named?, hrereads.pinned, StmtKind.fixed]
      rw [Function.comp_apply, hrereads.fixed symbol hsymbol]
      exact hrereads'.fixed symbol (hfixed ▸ hsymbol)
    · rw [Function.comp_apply]
      rcases hmentioned' (f symbol) with heq | ⟨other, hother, hsymbol⟩
      · rw [heq]
        exact hmentioned symbol
      · rw [h.functionStmts] at hother
        exact .inr (h.mentioned hother hsymbol)

end Rereading

end Program

end IteratorLowering
