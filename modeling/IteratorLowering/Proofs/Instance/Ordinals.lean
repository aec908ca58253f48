import IteratorLowering.Proofs.Evaluation.IndexTuples
import IteratorLowering.Proofs.Fragments.Breaking
import IteratorLowering.Proofs.Passes.Cleanups
import IteratorLowering.Proofs.Passes.Instances

/-!
# What becomes of ordinals

Resolving the ordinals of a program replaces each of them by a position and leaves every other
statement as it is; an address becomes a value where the target has the field's own type
(`Program.ResolvesAction`). The position is the one at which the evaluator finds the ordinal in an
object of the static type (`Eval.fieldIndex_of_locates`, `Eval.action_of_resolves`).

The one access that is passed over is a value that is read and dropped (`StmtKind.dropsOrdinal`).
All other ordinals are gone afterwards, each has been counted once, and resolving again does
nothing (`resolves_resolveOrdinals`).
-/

set_option autoImplicit false
set_option relaxedAutoImplicit false

namespace IteratorLowering

/-! ### Statements with ordinals -/

/-- Whether an expression selects a field by an ordinal. -/
def Expr.mentionsOrdinal : Expr → Bool
  | .fieldAddress _ (.ordinal _) | .fieldValue _ (.ordinal _) => true
  | _ => false

theorem Expr.exists_of_mentionsOrdinal {value : Expr} (h : value.mentionsOrdinal = true) :
    ∃ base number, value = .fieldAddress base (.ordinal number) ∨
      value = .fieldValue base (.ordinal number) := by
  unfold mentionsOrdinal at h
  split at h
  · exact ⟨_, _, .inl rfl⟩
  · exact ⟨_, _, .inr rfl⟩
  · cases h

/-- Whether an action selects a field by an ordinal. -/
def Action.mentionsOrdinal : Action → Bool
  | .assign _ value | .evaluate value => value.mentionsOrdinal
  | .setField _ (.ordinal _) _ => true
  | _ => false

namespace StmtKind

/-- Whether a statement selects a field by an ordinal. -/
def mentionsOrdinal : StmtKind → Bool
  | .action inner => inner.mentionsOrdinal
  | .branch .. | .block .. => false

/-- Whether a statement reads a field by an ordinal and drops the value. -/
def dropsOrdinal : StmtKind → Bool
  | .action (.evaluate (.fieldValue _ (.ordinal _))) => true
  | _ => false

/-- Whether a statement has an ordinal that is resolved. -/
def isPending (kind : StmtKind) : Bool := kind.mentionsOrdinal && !kind.dropsOrdinal

theorem exists_of_isPending {inner : Action} (h : (StmtKind.action inner).isPending = true) :
    (∃ target base number, inner = .assign target (.fieldAddress base (.ordinal number))) ∨
      (∃ target base number, inner = .assign target (.fieldValue base (.ordinal number))) ∨
      (∃ base number value, inner = .setField base (.ordinal number) value) ∨
      ∃ base number, inner = .evaluate (.fieldAddress base (.ordinal number)) := by
  obtain ⟨hmentions, hdrops⟩ := Bool.and_eq_true_iff.mp h
  cases inner with
  | assign target value =>
    obtain ⟨base, number, rfl | rfl⟩ := Expr.exists_of_mentionsOrdinal hmentions
    · exact .inl ⟨target, base, number, rfl⟩
    · exact .inr (.inl ⟨target, base, number, rfl⟩)
  | setField base field value =>
    cases field with
    | index => cases hmentions
    | ordinal number => exact .inr (.inr (.inl ⟨base, number, value, rfl⟩))
  | evaluate value =>
    obtain ⟨base, number, rfl | rfl⟩ := Expr.exists_of_mentionsOrdinal hmentions
    · exact .inr (.inr (.inr ⟨base, number, rfl⟩))
    · cases hdrops
  | _ => cases hmentions

end StmtKind

namespace Program

/-- The static type of a variable has a field with an ordinal, at a position. -/
structure Locates (program : Program) (base : SymId) (number position : Nat) (field : FieldDef) :
    Prop where
  ordinal : (program.type (program.valueType (program.symbolType base))).ordinalField? number =
    some position
  found : (program.type (program.valueType (program.symbolType base))).field? position = some field

/-- An action that accesses a field of a variable by ordinal, and the action that accesses it by
position. -/
inductive ResolvesAction (program : Program) (base : SymId) : Action → Action → Prop
  | narrowed {target : SymId} {number position : Nat} {field : FieldDef}
      (hlocates : program.Locates base number position field)
      (htype : program.symbolType target = field.type) :
      ResolvesAction program base (.assign target (.fieldAddress base (.ordinal number)))
        (.assign target (.fieldValue base (.index position)))
  | address {target : SymId} {number position : Nat} {field : FieldDef}
      (hlocates : program.Locates base number position field)
      (htype : program.symbolType target ≠ field.type)
      (href : (program.type field.type).refType = some (program.symbolType target)) :
      ResolvesAction program base (.assign target (.fieldAddress base (.ordinal number)))
        (.assign target (.fieldAddress base (.index position)))
  | value {target : SymId} {number position : Nat} {field : FieldDef}
      (hlocates : program.Locates base number position field) :
      ResolvesAction program base (.assign target (.fieldValue base (.ordinal number)))
        (.assign target (.fieldValue base (.index position)))
  | store {value : Operand} {number position : Nat} {field : FieldDef}
      (hlocates : program.Locates base number position field) :
      ResolvesAction program base (.setField base (.ordinal number) value)
        (.setField base (.index position) value)

/-- What becomes of a statement: without an ordinal that is resolved it stays, and otherwise its
access is by position. -/
inductive ResolvesKind (program : Program) : StmtKind → StmtKind → Prop
  | kept {kind : StmtKind} (hkind : kind.isPending = false) : ResolvesKind program kind kind
  | resolved {base : SymId} {inner new : Action} (h : program.ResolvesAction base inner new) :
      ResolvesKind program (.action inner) (.action new)

variable {program : Program} {kind kind' : StmtKind} {base : SymId} {inner new : Action}

theorem ResolvesAction.isPending (h : program.ResolvesAction base inner new) :
    (StmtKind.action inner).isPending = true ∧ (StmtKind.action new).mentionsOrdinal = false := by
  cases h <;> exact ⟨rfl, rfl⟩

namespace ResolvesKind

/-- Only values that are dropped are left with an ordinal. -/
theorem isPending_eq_false (h : program.ResolvesKind kind kind') : kind'.isPending = false := by
  cases h with
  | kept hkind => exact hkind
  | resolved h => rw [StmtKind.isPending, h.isPending.2, Bool.false_and]

theorem eq_of_not_pending (h : program.ResolvesKind kind kind') (hkind : kind.isPending = false) :
    kind' = kind := by
  cases h with
  | kept => rfl
  | resolved h => cases h.isPending.1.symm.trans hkind

theorem children_eq (h : program.ResolvesKind kind kind') : kind'.children = kind.children := by
  cases h <;> rfl

theorem loopHeader?_eq (h : program.ResolvesKind kind kind') :
    kind'.loopHeader? = kind.loopHeader? := by
  cases h <;> rfl

/-- Positions depend on the types alone. -/
theorem with_statements {statements : Array Stmt}
    (h : { program with statements }.ResolvesKind kind kind') :
    program.ResolvesKind kind kind' := by
  cases h with
  | kept hkind => exact .kept hkind
  | resolved h =>
    cases h with
    | narrowed h htype => exact .resolved (.narrowed ⟨h.ordinal, h.found⟩ htype)
    | address h htype href => exact .resolved (.address ⟨h.ordinal, h.found⟩ htype href)
    | value h => exact .resolved (.value ⟨h.ordinal, h.found⟩)
    | store h => exact .resolved (.store ⟨h.ordinal, h.found⟩)

end ResolvesKind

/-! ### Programs with ordinals resolved -/

/-- A program in which the ordinals of the listed statements have been resolved, and nothing else
has been changed. -/
structure ResolvesIn (program : Program) (ids : List StmtId) (final : Program) : Prop where
  tables : final = { program with statements := final.statements }
  stmt : ∀ id, final.stmt id = { program.stmt id with kind := final.kind id }
  size : final.statements.size = program.statements.size
  listed : ∀ id ∈ ids, program.ResolvesKind (program.kind id) (final.kind id)
  unlisted : ∀ id ∉ ids, final.kind id = program.kind id

namespace ResolvesIn

variable {middle final : Program} {id : StmtId} {ids rest : List StmtId}

theorem refl (program : Program) : program.ResolvesIn [] program :=
  ⟨rfl, fun _ ↦ rfl, rfl, nofun, fun _ _ ↦ rfl⟩

theorem keep (hkind : (program.kind id).isPending = false) : program.ResolvesIn [id] program :=
  ⟨rfl, fun _ ↦ rfl, rfl, fun _ hother ↦ List.mem_singleton.mp hother ▸ .kept hkind,
    fun _ _ ↦ rfl⟩

theorem setKind (h : program.ResolvesKind (program.kind id) kind) (hhas : program.Has id) :
    program.ResolvesIn [id] (program.setKind id kind) where
  tables := rfl
  stmt other := by
    rw [kind_setKind, Program.setKind, stmt_modifyStmt]
    split <;> rfl
  size := by simp [Program.setKind, modifyStmt]
  listed other hother := by
    obtain rfl := List.mem_singleton.mp hother
    rwa [kind_setKind, if_pos ⟨rfl, hhas⟩]
  unlisted other hother := by
    rw [kind_setKind, if_neg fun h ↦ hother (List.mem_singleton.mpr h.1)]

/-- What has been resolved is left alone, so a statement may be listed again. -/
theorem cons (hfirst : program.ResolvesIn [id] middle) (hrest : middle.ResolvesIn rest final) :
    program.ResolvesIn (id :: rest) final where
  tables := hrest.tables.trans (by rw [hfirst.tables])
  stmt other := by rw [hrest.stmt, hfirst.stmt]
  size := hrest.size.trans hfirst.size
  listed other hother := by
    have hlater : other ∈ rest → program.ResolvesKind (middle.kind other) (final.kind other) :=
      fun hmem ↦ ResolvesKind.with_statements (hfirst.tables ▸ hrest.listed other hmem)
    by_cases hid : other = id
    · have hnow := hid ▸ hfirst.listed id (List.mem_singleton_self id)
      have hsame : final.kind other = middle.kind other := by
        by_cases hmem : other ∈ rest
        · exact (hlater hmem).eq_of_not_pending hnow.isPending_eq_false
        · exact hrest.unlisted other hmem
      exact hsame ▸ hnow
    · rw [← hfirst.unlisted other (hid ∘ List.mem_singleton.mp)]
      exact hlater ((List.mem_cons.mp hother).resolve_left hid)
  unlisted other hother := by
    rw [hrest.unlisted other (hother ∘ List.mem_cons_of_mem id),
      hfirst.unlisted other (hother ∘ fun h ↦ List.mem_singleton.mp h ▸ List.mem_cons_self)]

theorem sameShape (h : program.ResolvesIn ids final) : program.SameShape final where
  children id := by
    by_cases hid : id ∈ ids
    · exact (h.listed id hid).children_eq
    · rw [h.unlisted id hid]
  header id := by
    by_cases hid : id ∈ ids
    · exact (h.listed id hid).loopHeader?_eq
    · rw [h.unlisted id hid]
  size := h.size
  body function := by rw [h.tables]; rfl

theorem allStmts_eq (h : program.ResolvesIn ids final) : final.allStmts = program.allStmts := by
  have hids : final.functionIds = program.functionIds := by rw [h.tables]; rfl
  rw [allStmts, allStmts, hids]
  refine List.flatMap_congr fun function _ ↦ ?_
  rw [functionStmts, functionStmts, h.sameShape.body, h.sameShape.walk]

end ResolvesIn

/-- A statement stands in one place of one function. -/
theorem WellLinked.nodup_allStmts (hlinked : program.WellLinked) : program.allStmts.Nodup := by
  refine List.nodup_flatMap.mpr ⟨fun function hfunction ↦ ?_, ?_⟩
  · exact (hlinked.unfolds_functionStmts (mem_functionIds.mp hfunction)).2
  refine program.nodup_functionIds.imp_of_mem fun hfirst hsecond hne id hid hid' ↦ hne ?_
  exact hlinked.standsIn_unique ((hlinked.mem_functionStmts_iff (mem_functionIds.mp hfirst)).mp hid)
    ((hlinked.mem_functionStmts_iff (mem_functionIds.mp hsecond)).mp hid')

end Program

/-! ### Resolving the ordinals of a program -/

section

variable {program final : Program} {base target : SymId} {number count : Nat} {span : Span}
variable {inner : Action} {id : StmtId}

theorem locates_resolveOrdinal :
    Ensures (resolveOrdinal base number span) program (Eq program) fun found _ ↦
      ∃ field, program.Locates base number found.1 field ∧ found.2 = field.type := by
  refine ensures_get_bind.mpr (ensures_require rfl fun found hfound ↦ ?_)
  obtain ⟨position, hposition, hfound⟩ := Option.bind_eq_some_iff.mp hfound
  obtain ⟨field, hfield, hfound⟩ := Option.bind_eq_some_iff.mp hfound
  obtain rfl := Option.some.inj hfound
  exact ⟨field, ⟨hposition, hfield⟩, rfl⟩

/-- An address becomes a value where the target has the field's type, and only there. -/
theorem resolves_resolveAddress :
    Ensures (resolveAddress target base number span) program (Eq program) fun new _ ↦
      program.ResolvesAction base (.assign target (.fieldAddress base (.ordinal number))) new := by
  refine locates_resolveOrdinal.bind fun found middle hmiddle hfound ↦ ?_
  obtain ⟨position, type⟩ := found
  obtain ⟨field, hlocates, rfl⟩ := hfound
  subst hmiddle
  refine ensures_get_bind.mpr ?_
  dsimp only
  split
  · exact .pure rfl (.narrowed hlocates ‹_›)
  · split
    · exact .pure rfl (.address hlocates ‹_› ‹_›)
    · exact ensures_fault.mpr rfl

theorem resolves_resolveAction :
    Ensures (resolveAction inner span) program (Eq program) fun result _ ↦
      (∀ new, result = some new → ∃ base, program.ResolvesAction base inner new) ∧
        (result = none → (StmtKind.action inner).isPending = false) := by
  unfold resolveAction
  split
  · refine resolves_resolveAddress.bind fun new middle hmiddle hnew ↦ .pure hmiddle ⟨?_, nofun⟩
    exact fun _ heq ↦ Option.some.inj heq ▸ ⟨_, hnew⟩
  · refine locates_resolveOrdinal.bind fun found middle hmiddle hfound ↦ .pure hmiddle ⟨?_, nofun⟩
    obtain ⟨field, hlocates, -⟩ := hfound
    exact fun _ heq ↦ Option.some.inj heq ▸ ⟨_, .value hlocates⟩
  · refine locates_resolveOrdinal.bind fun found middle hmiddle hfound ↦ .pure hmiddle ⟨?_, nofun⟩
    obtain ⟨field, hlocates, -⟩ := hfound
    exact fun _ heq ↦ Option.some.inj heq ▸ ⟨_, .store hlocates⟩
  · exact ensures_fault.mpr rfl
  · rename_i haddress hvalue hstore hloose
    refine .pure rfl ⟨nofun, fun _ ↦ Bool.eq_false_iff.mpr fun hpending ↦ ?_⟩
    rcases StmtKind.exists_of_isPending hpending with
      ⟨_, _, _, h⟩ | ⟨_, _, _, h⟩ | ⟨_, _, _, h⟩ | ⟨_, _, h⟩
    · exact haddress _ _ _ h
    · exact hvalue _ _ _ h
    · exact hstore _ _ _ h
    · exact hloose _ _ h

/-- A statement with an ordinal to resolve is counted, and no other statement changes. -/
theorem resolves_resolveStatement :
    Ensures (resolveStatement count id) program (fun _ ↦ True) fun total final ↦
      program.ResolvesIn [id] final ∧
        total = count + if (program.kind id).isPending then 1 else 0 := by
  have hkeep : (program.kind id).isPending = false →
      program.ResolvesIn [id] program ∧
        count = count + if (program.kind id).isPending then 1 else 0 := fun hkind ↦
    ⟨.keep hkind, by simp [hkind]⟩
  unfold resolveStatement
  refine ensures_get_bind.mpr ?_
  split
  · rename_i inner hkind
    refine (resolves_resolveAction.tagged.mono (fun _ _ ↦ trivial) fun _ _ _ h ↦ h).bind
      fun result middle _ hresult ↦ ?_
    obtain ⟨rfl, hresult⟩ := hresult
    split
    · rename_i new
      obtain ⟨base, hnew⟩ := hresult.1 new rfl
      have hhas : program.Has id := by
        by_contra hout
        rw [Program.kind, Program.stmt_of_not_has hout] at hkind
        cases hkind
        cases hnew
      refine ensures_modify_bind.mpr (.pure trivial ⟨.setKind (hkind ▸ .resolved hnew) hhas, ?_⟩)
      rw [hkind, if_pos hnew.isPending.1]
    · exact .pure trivial (hkeep (hkind ▸ hresult.2 rfl))
  · rename_i hkind
    exact .pure trivial (hkeep (by rw [hkind]; rfl))
  · rename_i hkind
    exact .pure trivial (hkeep (by rw [hkind]; rfl))

theorem resolves_foldlM {ids : List StmtId} (hids : ids.Nodup) :
    Ensures (ids.foldlM resolveStatement count) program (fun _ ↦ True) fun total final ↦
      program.ResolvesIn ids final ∧
        total = count + ids.countP fun id ↦ (program.kind id).isPending := by
  induction ids generalizing program count with
  | nil => exact .pure trivial ⟨.refl program, rfl⟩
  | cons id rest ih =>
    obtain ⟨hid, hrest⟩ := List.nodup_cons.mp hids
    rw [List.foldlM_cons]
    refine resolves_resolveStatement.bind fun middle now _ hfirst ↦ ?_
    refine (ih hrest).mono (fun _ h ↦ h) fun total final _ hlater ↦ ?_
    refine ⟨hfirst.1.cons hlater.1, ?_⟩
    -- The statements that come later have not been changed yet.
    have hcount : rest.countP (fun id ↦ (now.kind id).isPending) =
        rest.countP fun id ↦ (program.kind id).isPending :=
      List.countP_congr fun other hother ↦ by
        rw [hfirst.1.unlisted other fun h ↦ hid (List.mem_singleton.mp h ▸ hother)]
    rw [hlater.2, hfirst.2, hcount, List.countP_cons]
    omega

/-- A statement without an ordinal to resolve is passed over. -/
theorem resolveStatement_of_not_pending (hkind : (program.kind id).isPending = false) :
    resolveStatement count id program = .ok count program := by
  have haction : ∀ inner, program.kind id = .action inner →
      resolveAction inner (program.span id) program = .ok none program := by
    intro inner hinner
    rw [hinner] at hkind
    unfold resolveAction
    split
    · cases hkind
    · cases hkind
    · cases hkind
    · cases hkind
    · rfl
  unfold resolveStatement
  rw [bind_eq_of_eq_ok (show (get : Pass Program) program = .ok program program from rfl)]
  cases hinner : program.kind id with
  | action inner =>
    dsimp only
    rw [bind_eq_of_eq_ok (haction inner hinner)]
    rfl
  | branch | block => rfl

theorem foldlM_of_not_pending {ids : List StmtId}
    (hids : ∀ id ∈ ids, (program.kind id).isPending = false) :
    ids.foldlM resolveStatement count program = .ok count program := by
  induction ids with
  | nil => rfl
  | cons id rest ih =>
    rw [List.foldlM_cons,
      bind_eq_of_eq_ok (resolveStatement_of_not_pending (hids id List.mem_cons_self))]
    exact ih fun other hother ↦ hids other (List.mem_cons_of_mem _ hother)

end

/-- Resolving ordinals leaves none but in values that are read and dropped, counts each statement
that has one to resolve, and has nothing to do when it is repeated. -/
theorem resolves_resolveOrdinals {program final : Program} {count : Nat}
    (hlinked : program.WellLinked) (h : resolveOrdinals program = .ok count final) :
    program.ResolvesIn program.allStmts final ∧
      (count = program.allStmts.countP fun id ↦ (program.kind id).isPending) ∧
      (∀ id ∈ final.allStmts, (final.kind id).mentionsOrdinal → (final.kind id).dropsOrdinal) ∧
      resolveOrdinals final = .ok 0 final := by
  obtain ⟨-, hresolves, hcount⟩ :=
    (resolves_foldlM hlinked.nodup_allStmts).of_eq_ok (show program.allStmts.foldlM
      resolveStatement 0 program = .ok count final from h)
  have hdone : ∀ id ∈ final.allStmts, (final.kind id).isPending = false := fun id hid ↦
    (hresolves.listed id (hresolves.allStmts_eq ▸ hid)).isPending_eq_false
  refine ⟨hresolves, by rw [hcount, Nat.zero_add], fun id hid hmentions ↦ ?_,
    foldlM_of_not_pending hdone⟩
  have hkind := hdone id hid
  rwa [StmtKind.isPending, hmentions, Bool.true_and, Bool.not_eq_eq_eq_not, Bool.not_false]
    at hkind

/-- A function that writes a field of an instance by ordinal, takes its address into a variable of
the field's type, and reads it for nothing. -/
def accessesByOrdinal : Program where
  types := builtinTypes.push
    { name := "_ic_walk", kind := .heapClass, headerFields := 1,
      fields := [⟨"super", .object⟩, ⟨"lo", .int⟩] }
  symbols := #[
    { name := "ic", kind := .arg, type := ⟨5⟩, owner := some ⟨0⟩ },
    { name := "t", kind := .var, type := .int, owner := some ⟨0⟩ }]
  statements := #[
    { kind := .plain [⟨1⟩, ⟨2⟩, ⟨3⟩], bodyOf := some ⟨0⟩, span := .none },
    { kind := .action (.setField ⟨0⟩ (.ordinal 1) (.int 3)), parent := some ⟨0⟩, span := .none },
    { kind := .action (.assign ⟨1⟩ (.fieldAddress ⟨0⟩ (.ordinal 1))), parent := some ⟨0⟩,
      span := .none },
    { kind := .action (.evaluate (.fieldValue ⟨0⟩ (.ordinal 1))), parent := some ⟨0⟩,
      span := .none }]
  functions := #[{ name := "main", formals := [⟨0⟩], retType := .void, body := ⟨0⟩ }]

/-- The write and the address are resolved and counted, and the dropped read keeps its ordinal. -/
theorem resolves_accessesByOrdinal :
    ∃ final, resolveOrdinals accessesByOrdinal = .ok 2 final ∧
      accessesByOrdinal.ResolvesIn accessesByOrdinal.allStmts final ∧
      final.kind ⟨1⟩ = .action (.setField ⟨0⟩ (.index 1) (.int 3)) ∧
      final.kind ⟨2⟩ = .action (.assign ⟨1⟩ (.fieldValue ⟨0⟩ (.index 1))) ∧
      final.kind ⟨3⟩ = .action (.evaluate (.fieldValue ⟨0⟩ (.ordinal 1))) ∧
      resolveOrdinals final = .ok 0 final := by
  have hrun : resolveOrdinals accessesByOrdinal = .ok 2 _ := eq_ok_of_run (by decide +kernel)
  obtain ⟨hresolves, -, -, hagain⟩ := resolves_resolveOrdinals (by decide) hrun
  exact ⟨_, hrun, hresolves, by decide +kernel, by decide +kernel, by decide +kernel, hagain⟩

/-! ### What a field access finds -/

namespace Eval

variable {program : Program} {limits : Limits} {execute : Executor} {rounds frame : Nat}
variable {machine : Machine} {base : SymId} {number position : Nat} {field : FieldDef}
variable {object : ObjId} {held : Object}

/-- In an object of the static type that has all its fields, the ordinal is at the position. -/
theorem fieldIndex_of_locates (h : program.Locates base number position field)
    (hheld : machine.heap[object.index]? = some held)
    (htype : held.type = program.valueType (program.symbolType base))
    (hfields : held.fields.size = (program.type held.type).fields.length) :
    fieldIndex program object (.ordinal number) machine = .ok position machine ∧
      fieldIndex program object (.index position) machine = .ok position machine := by
  have hposition := h.ordinal
  rw [← htype] at hposition
  constructor
  · have hobject : machine.object object = held := by
      rw [Machine.object, Array.getD_eq_getD_getElem?, hheld, Option.getD_some]
    unfold fieldIndex
    rw [bind_of_ok (show (get : Eval Machine) machine = .ok machine machine from rfl), hobject]
    dsimp only
    rw [hposition]
    rfl
  · exact fieldIndex_of_lt hheld (hfields ▸ TypeDef.lt_length_of_ordinalField? hposition)

section

variable {selector : FieldRef} (hobject : objectOf program frame base machine = .ok object machine)
variable (hposition : fieldIndex program object selector machine = .ok position machine)

include hobject hposition

theorem action_fieldAddress {target : SymId} :
    action program limits execute rounds frame (.assign target (.fieldAddress base selector))
        machine =
      .ok .normal (machine.setLocal frame target (.ref (.field object position))) := by
  unfold action expression
  dsimp only
  rw [bind_assoc, bind_of_ok hobject, bind_assoc, bind_of_ok hposition]
  rfl

theorem action_fieldValue {target : SymId} :
    action program limits execute rounds frame (.assign target (.fieldValue base selector))
        machine =
      .ok .normal (machine.setLocal frame target (machine.fieldValue object position)) := by
  unfold action expression
  dsimp only
  rw [bind_assoc, bind_of_ok hobject, bind_assoc, bind_of_ok hposition]
  rfl

theorem action_setField {value : Operand} :
    action program limits execute rounds frame (.setField base selector value) machine =
      (Eval.operand program frame value >>= fun value ↦ do
        modify fun machine ↦ machine.setField object position value
        return .normal) machine := by
  unfold action
  dsimp only
  cases hvalue : Eval.operand program frame value machine with
  | ok found middle =>
    obtain rfl := looks_operand _ _ _ hvalue
    rw [bind_of_ok hvalue, bind_of_ok hvalue, bind_of_ok hobject, bind_of_ok hposition]
  | error error middle => rw [bind_of_error hvalue, bind_of_error hvalue]

end

/-- A resolved access does what the access by ordinal does, except that where the target has the
field's type the address of the field is replaced by the value behind it. -/
theorem action_of_resolves {inner new : Action} (h : program.ResolvesAction base inner new)
    (hobject : objectOf program frame base machine = .ok object machine)
    (hheld : machine.heap[object.index]? = some held)
    (htype : held.type = program.valueType (program.symbolType base))
    (hfields : held.fields.size = (program.type held.type).fields.length) :
    action program limits execute rounds frame new machine =
        action program limits execute rounds frame inner machine ∨
      ∃ target position field, (program.type held.type).field? position = some field ∧
        program.symbolType target = field.type ∧
        action program limits execute rounds frame inner machine =
          .ok .normal (machine.setLocal frame target (.ref (.field object position))) ∧
        action program limits execute rounds frame new machine =
          .ok .normal (machine.setLocal frame target (machine.fieldValue object position)) := by
  have hfound : ∀ {number position field}, program.Locates base number position field →
      fieldIndex program object (.ordinal number) machine = .ok position machine ∧
        fieldIndex program object (.index position) machine = .ok position machine :=
    fun hlocates ↦ fieldIndex_of_locates hlocates hheld htype hfields
  cases h with
  | @narrowed target number position field hlocates hnarrow =>
    obtain ⟨hordinal, hposition⟩ := hfound hlocates
    exact .inr ⟨target, position, field, htype ▸ hlocates.found, hnarrow,
      action_fieldAddress hobject hordinal, action_fieldValue hobject hposition⟩
  | address hlocates =>
    obtain ⟨hordinal, hposition⟩ := hfound hlocates
    exact .inl ((action_fieldAddress hobject hposition).trans
      (action_fieldAddress hobject hordinal).symm)
  | value hlocates =>
    obtain ⟨hordinal, hposition⟩ := hfound hlocates
    exact .inl ((action_fieldValue hobject hposition).trans
      (action_fieldValue hobject hordinal).symm)
  | store hlocates =>
    obtain ⟨hordinal, hposition⟩ := hfound hlocates
    exact .inl ((action_setField hobject hposition).trans (action_setField hobject hordinal).symm)

/-- The instance that `accessesByOrdinal` is called with. -/
def callWithInstance : Machine where
  heap := #[{ type := ⟨5⟩, fields := #[.nil, .int 7] }]
  frames :=
    #[{ function := ⟨0⟩, locals := (FiniteMap.empty.insert ⟨0⟩ (.obj ⟨0⟩)).insert ⟨1⟩ .nil }]

/-- What an action does in the call. -/
def inCallWithInstance (inner : Action) : EStateM.Result EvalError Machine Flow :=
  action accessesByOrdinal {} (Eval.execute accessesByOrdinal {} 0) 0 0 inner callWithInstance

/-- Taking the address by ordinal leaves a reference in the variable, and the resolved statement the
number that the field holds. -/
theorem action_of_resolves_accessesByOrdinal :
    ∃ target position field, (accessesByOrdinal.type ⟨5⟩).field? position = some field ∧
      accessesByOrdinal.symbolType target = field.type ∧
      inCallWithInstance (.assign ⟨1⟩ (.fieldAddress ⟨0⟩ (.ordinal 1))) =
        .ok .normal (callWithInstance.setLocal 0 target (.ref (.field ⟨0⟩ position))) ∧
      inCallWithInstance (.assign ⟨1⟩ (.fieldValue ⟨0⟩ (.index 1))) =
        .ok .normal
          (callWithInstance.setLocal 0 target (callWithInstance.fieldValue ⟨0⟩ position)) ∧
      callWithInstance.fieldValue ⟨0⟩ 1 = .int 7 := by
  have hlocates : accessesByOrdinal.Locates ⟨0⟩ 1 1 ⟨"lo", .int⟩ := ⟨rfl, rfl⟩
  have hresolves :
      accessesByOrdinal.ResolvesAction ⟨0⟩ (.assign ⟨1⟩ (.fieldAddress ⟨0⟩ (.ordinal 1)))
      (.assign ⟨1⟩ (.fieldValue ⟨0⟩ (.index 1))) := .narrowed hlocates rfl
  have hlocal : callWithInstance.local? 0 ⟨0⟩ = some (.obj ⟨0⟩) := rfl
  have hheld : callWithInstance.heap[0]? = some { type := ⟨5⟩, fields := #[.nil, .int 7] } := rfl
  have hne : inCallWithInstance (.assign ⟨1⟩ (.fieldValue ⟨0⟩ (.index 1))) ≠
      inCallWithInstance (.assign ⟨1⟩ (.fieldAddress ⟨0⟩ (.ordinal 1))) := fun hsame ↦
    absurd (congrArg (fun result ↦ (left result).local? 0 ⟨1⟩) hsame) (by decide)
  obtain ⟨target, position, field, hfield, htarget, hold, hnew⟩ :=
    (action_of_resolves hresolves (objectOf_of_local? hlocal) hheld rfl rfl).resolve_left hne
  exact ⟨target, position, field, hfield, htarget, hold, hnew, rfl⟩

end Eval

end IteratorLowering
