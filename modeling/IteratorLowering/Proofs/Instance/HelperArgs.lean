import IteratorLowering.Proofs.ControlFlow.Dissolving
import IteratorLowering.Proofs.Instance.Prefacing

/-!
# What a dispatch helper passes on

The foreign formals among the arguments of a call are counted from left to right, and the value of
each one is read from the field after the header that has its number (`Program.ReadsFields`,
`ReadsFields.getElem?`). The formal itself only decides whether the field is read by value or by
address. So the fields are the right ones where the call passes the formals of the iterator from
the first one on, in their order and without repeats (`ReadsFields.read_own_field`); otherwise the
field of another formal may be read.

All other arguments, and all statements but the calls, stay as they are
(`exists_prefaces_readHelperArgs`).
-/

set_option autoImplicit false
set_option relaxedAutoImplicit false

namespace IteratorLowering

namespace Program

/-- How the value of a foreign formal is read from a field of the iterator. -/
inductive FormalField (program : Program) (iterator formal : SymId) (position : Nat) : Expr → Prop
  | byValue {field : FieldDef}
      (hfield : (program.type (program.valueType (program.symbolType iterator))).field? position =
        some field)
      (htype : field.type = program.symbolType formal) :
      FormalField program iterator formal position (.fieldValue iterator (.index position))
  | byAddress {field : FieldDef}
      (hfield : (program.type (program.valueType (program.symbolType iterator))).field? position =
        some field)
      (htype : field.type ≠ program.symbolType formal)
      (href : (program.type field.type).refType = some (program.symbolType formal)) :
      FormalField program iterator formal position (.fieldAddress iterator (.index position))

/-- An action was made after a program. -/
structure Made (program final : Program) (id : StmtId) (inner : Action) : Prop where
  new : ¬ program.Has id
  has : final.Has id
  kind : final.kind id = .action inner

/-- The arguments of a call before and after the foreign formals among them were replaced by
copies, and the statements that declare and read the copies, given the position of the next field
to read. -/
inductive ReadsFields (program final : Program) (helper : FnId) (iterator : SymId) :
    Nat → List Operand → List Operand → List SymId → List StmtId → Prop
  | nil {position : Nat} : ReadsFields program final helper iterator position [] [] [] []
  | own {position : Nat} {arg : Operand} {args args' : List Operand} {copies : List SymId}
      {reads : List StmtId} (hown : program.foreignFormal? helper arg = none)
      (more : ReadsFields program final helper iterator position args args' copies reads) :
      ReadsFields program final helper iterator position (arg :: args) (arg :: args') copies reads
  | foreign {position : Nat} {arg : Operand} {args args' : List Operand} {copies : List SymId}
      {reads : List StmtId} {formal copy : SymId} {declaration read : StmtId} {value : Expr}
      (hforeign : program.foreignFormal? helper arg = some formal)
      (hvalue : program.FormalField iterator formal position value)
      (hcopy : program.Introduces final (program.symbolType formal) copy)
      (hdeclaration : program.Made final declaration (.define copy))
      (hread : program.Made final read (.assign copy value))
      (more : ReadsFields program final helper iterator (position + 1) args args' copies reads) :
      ReadsFields program final helper iterator position (arg :: args) (.sym copy :: args')
        (copy :: copies) (declaration :: read :: reads)

variable {program now final : Program} {prefaces : Prefaces} {helper : FnId}
variable {iterator formal : SymId} {call : StmtId} {position : Nat} {args args' : List Operand}
variable {copies : List SymId} {reads : List StmtId}

theorem KeepsMade.made (h : program.KeepsMade now final) {id : StmtId} {inner : Action}
    (hmade : program.Made now id inner) : program.Made final id inner :=
  ⟨hmade.new, h.has hmade.has, (h.kind hmade.has hmade.new).2.trans hmade.kind⟩

theorem KeepsMade.introduces (h : program.KeepsMade now final) {type : TypeId} {copy : SymId}
    (hcopy : program.Introduces now type copy) : program.Introduces final type copy where
  new := hcopy.new
  has := (h.symbol hcopy.has).1
  type := by rw [symbolType, (h.symbol hcopy.has).2, ← hcopy.type, symbolType]
  notLabel := by rw [(h.symbol hcopy.has).2, hcopy.notLabel]

theorem ReadsFields.keep
    (h : program.ReadsFields now helper iterator position args args' copies reads)
    (hkeeps : program.KeepsMade now final) :
    program.ReadsFields final helper iterator position args args' copies reads := by
  induction h with
  | nil => exact .nil
  | own hown _ ih => exact .own hown ih
  | foreign hforeign hvalue hcopy hdeclaration hread _ ih =>
    exact .foreign hforeign hvalue (hkeeps.introduces hcopy) (hkeeps.made hdeclaration)
      (hkeeps.made hread) ih

/-- The foreign formals among some arguments, from left to right. -/
def foreignFormals (program : Program) (helper : FnId) (args : List Operand) : List SymId :=
  args.filterMap (program.foreignFormal? helper)

theorem foreignFormals_cons_own {arg : Operand} (h : program.foreignFormal? helper arg = none) :
    program.foreignFormals helper (arg :: args) = program.foreignFormals helper args :=
  List.filterMap_cons_none h

theorem foreignFormals_cons_foreign {arg : Operand}
    (h : program.foreignFormal? helper arg = some formal) :
    program.foreignFormals helper (arg :: args) =
      formal :: program.foreignFormals helper args :=
  List.filterMap_cons_some h

/-- An argument of the helper's own stays. A foreign formal becomes a local that is read from the
field whose number is that of the foreign formals before it. -/
theorem ReadsFields.getElem?
    (h : program.ReadsFields final helper iterator position args args' copies reads)
    {index : Nat} {arg : Operand} (harg : args[index]? = some arg) :
    (program.foreignFormal? helper arg = none → args'[index]? = some arg) ∧
      ∀ formal, program.foreignFormal? helper arg = some formal → ∃ copy read value,
        args'[index]? = some (.sym copy) ∧ read ∈ reads ∧
          program.FormalField iterator formal
            (position + (program.foreignFormals helper (args.take index)).length) value ∧
          program.Made final read (.assign copy value) := by
  induction h generalizing index with
  | nil => cases harg
  | own hown _ ih =>
    cases index with
    | zero =>
      obtain rfl := Option.some.inj harg
      exact ⟨fun _ ↦ rfl, fun formal hforeign ↦ by cases hown.symm.trans hforeign⟩
    | succ index =>
      rw [List.take_succ_cons, foreignFormals_cons_own hown]
      exact ih harg
  | @foreign position _ _ _ _ _ formal copy _ read value hforeign hvalue hcopy _ hread _ ih =>
    cases index with
    | zero =>
      obtain rfl := Option.some.inj harg
      refine ⟨fun hown ↦ ?_, fun formal' hforeign' ↦ ?_⟩
      · cases hown.symm.trans hforeign
      obtain rfl := Option.some.inj (hforeign.symm.trans hforeign')
      exact ⟨copy, read, value, rfl, List.mem_cons_of_mem _ List.mem_cons_self, hvalue, hread⟩
    | succ index =>
      refine ⟨(ih harg).1, fun formal' hforeign' ↦ ?_⟩
      obtain ⟨copy', read', value', hcopy', hmem, hvalue', hread'⟩ := (ih harg).2 formal' hforeign'
      refine ⟨copy', read', value', hcopy',
        List.mem_cons_of_mem _ (List.mem_cons_of_mem _ hmem), ?_, hread'⟩
      rw [List.take_succ_cons, foreignFormals_cons_foreign hforeign, List.length_cons,
        Nat.add_comm _ 1, ← Nat.add_assoc]
      exact hvalue'

/-- Where the foreign formals are the first formals of the iterator in their order, each of them is
read from its own field. -/
theorem ReadsFields.read_own_field {formals : List SymId}
    (h : program.ReadsFields final helper iterator position args args' copies reads)
    (hformals : formals.Nodup) (hfirst : program.foreignFormals helper args <+: formals)
    {index : Nat} {arg : Operand} (harg : args[index]? = some arg)
    (hforeign : program.foreignFormal? helper arg = some formal) :
    ∃ copy read value, args'[index]? = some (.sym copy) ∧ read ∈ reads ∧
      program.FormalField iterator formal (position + formals.idxOf formal) value ∧
      program.Made final read (.assign copy value) := by
  have hnumber : formals.idxOf formal =
      (program.foreignFormals helper (args.take index)).length := by
    obtain ⟨rest, rfl⟩ := hfirst
    obtain ⟨hindex, rfl⟩ := List.getElem?_eq_some_iff.mp harg
    have hsplit : program.foreignFormals helper args =
        program.foreignFormals helper (args.take index) ++
          formal :: program.foreignFormals helper (args.drop (index + 1)) := by
      rw [← foreignFormals_cons_foreign hforeign, ← List.drop_eq_getElem_cons hindex,
        foreignFormals, foreignFormals, foreignFormals, ← List.filterMap_append,
        List.take_append_drop]
    rw [hsplit, List.append_assoc] at hformals
    rw [hsplit, List.append_assoc, List.cons_append, List.idxOf_append_of_notMem,
      List.idxOf_cons_self, Nat.add_zero]
    exact fun hmem ↦ List.disjoint_of_nodup_append hformals hmem List.mem_cons_self
  rw [hnumber]
  exact (h.getElem? harg).2 formal hforeign

namespace Prefaced

variable (h : program.Prefaced prefaces now)

include h

theorem type_eq (type : TypeId) : now.type type = program.type type := by
  rw [Program.type, Program.type, h.types]

theorem symbolType_eq {symbol : SymId} (hsymbol : program.HasSymbol symbol) :
    now.symbolType symbol = program.symbolType symbol := by
  rw [symbolType, symbolType, (h.symbol hsymbol).2]

theorem valueType_eq (type : TypeId) : now.valueType type = program.valueType type := by
  rw [valueType, valueType, h.type_eq]

/-- New variables are no formals. -/
theorem foreignFormal?_eq (operand : Operand) :
    now.foreignFormal? helper operand = program.foreignFormal? helper operand := by
  cases operand with
  | lit => rfl
  | sym symbol =>
    by_cases hsymbol : program.HasSymbol symbol
    · unfold foreignFormal?
      rw [Operand.symbol?, Option.filter_some, Option.filter_some, (h.symbol hsymbol).2]
    · have hnone : ∀ {program : Program}, (program.symbol symbol).kind = .var →
          program.foreignFormal? helper (.sym symbol) = none := by
        intro program hkind
        simp [foreignFormal?, Operand.symbol?, hkind]
      rw [hnone (h.newSymbol hsymbol), hnone (symbolKind_of_not_has hsymbol)]

theorem formalField (hiterator : program.HasSymbol iterator) (hformal : program.HasSymbol formal)
    {value : Expr} (hvalue : now.FormalField iterator formal position value) :
    program.FormalField iterator formal position value := by
  cases hvalue with
  | byValue hfield htype =>
    rw [h.symbolType_eq hiterator, h.valueType_eq, h.type_eq] at hfield
    rw [h.symbolType_eq hformal] at htype
    exact .byValue hfield htype
  | byAddress hfield htype href =>
    rw [h.symbolType_eq hiterator, h.valueType_eq, h.type_eq] at hfield
    rw [h.symbolType_eq hformal] at htype
    rw [h.symbolType_eq hformal, h.type_eq] at href
    exact .byAddress hfield htype href

theorem newLocal (owner : FnId) (name : String) (type : TypeId) :
    program.Prefaced prefaces (now.newLocal owner name type).2 ∧
      program.KeepsMade now (now.newLocal owner name type).2 :=
  h.addSymbol rfl

theorem introduces_newLocal (hformal : program.HasSymbol formal) (owner : FnId) (name : String) :
    program.Introduces (now.newLocal owner name (now.symbolType formal)).2
      (program.symbolType formal) (now.newLocal owner name (now.symbolType formal)).1 where
  new hsymbol := now.not_hasSymbol_addSymbol _ (h.symbol hsymbol).1
  has := now.hasSymbol_addSymbol _
  type := (now.symbolType_addSymbol _).trans (h.symbolType_eq hformal)
  notLabel := by
    simp [Program.newLocal, Program.symbol, Program.addSymbol, Symbol.isLabel]

end Prefaced

/-- A foreign formal is a symbol of the program. -/
theorem hasSymbol_of_foreignFormal? {operand : Operand}
    (h : program.foreignFormal? helper operand = some formal) : program.HasSymbol formal := by
  by_contra hsymbol
  obtain ⟨-, hkind⟩ := Option.filter_eq_some_iff.mp h
  simp [symbolKind_of_not_has hsymbol] at hkind

end Program

namespace Program

/-- A call of a helper has got its foreign formals from the fields after the header. -/
def Supplied (program final : Program) (prefaces : Prefaces) (helper : FnId) (iterator : SymId)
    (call : StmtId) : Prop :=
  ∃ copies, program.ReadsFields final helper iterator
      (program.type (program.valueType (program.symbolType iterator))).headerFields
      (program.unprefaced call).args (prefaces call).args copies (prefaces call).reads ∧
        copies.Nodup

/-- The formal of the iterator at a place of a call is read from the field that it has after the
header. -/
def ReadsOwnField (program final : Program) (prefaces : Prefaces) (iterator : SymId) (call : StmtId)
    (formals : List SymId) (formal : SymId) (index : Nat) : Prop :=
  ∃ copy read value, (prefaces call).args[index]? = some (.sym copy) ∧
    read ∈ (prefaces call).reads ∧
    program.FormalField iterator formal
      ((program.type (program.valueType (program.symbolType iterator))).headerFields +
        formals.idxOf formal) value ∧
    program.Made final read (.assign copy value)

theorem Supplied.keep {program now final : Program} {prefaces prefaces' : Prefaces} {helper : FnId}
    {iterator : SymId} {call : StmtId} (h : program.Supplied now prefaces helper iterator call)
    (hkeeps : program.KeepsMade now final) (hsame : prefaces' call = prefaces call) :
    program.Supplied final prefaces' helper iterator call := by
  obtain ⟨copies, hreads, hnodup⟩ := h
  exact ⟨copies, hsame ▸ hreads.keep hkeeps, hnodup⟩

end Program

/-! ### One call -/

section

open Program

variable {program now : Program} {prefaces : Prefaces} {helper : FnId} {iterator formal : SymId}
variable {call : StmtId} {position count : Nat} {args : List Operand}

/-- The field at the position is read into a new local right before the call. -/
theorem reads_readFormalField (hlinked : program.WellLinked) (h : program.Prefaced prefaces now)
    (hcall : program.Has call) (hiterator : program.HasSymbol iterator)
    (hformal : program.HasSymbol formal) :
    Ensures (readFormalField helper iterator call formal position) now (fun _ ↦ True)
      fun copy final ↦ program.KeepsMade now final ∧ ¬ now.HasSymbol copy ∧
        program.Introduces final (program.symbolType formal) copy ∧
        ∃ declaration read value, program.FormalField iterator formal position value ∧
          program.Made final declaration (.define copy) ∧
          program.Made final read (.assign copy value) ∧
          program.Prefaced (prefaces.push call [declaration, read]) final := by
  unfold readFormalField
  refine ensures_get_bind.mpr ?_
  refine ensures_require_bind trivial fun field hfield ↦ ?_
  -- However the value is read, it goes into a new local before the call.
  have hread : ∀ value, now.FormalField iterator formal position value →
      (∀ target, (StmtKind.action (.assign target value)).directCallee? = none) →
      Ensures (do
        let copy ← modifyGet fun current =>
          current.newLocal helper "_field" (now.symbolType formal)
        let declaration ← newAction (.define copy) (now.span call)
        Edit.insertBefore call declaration
        let read ← newAction (.assign copy value) (now.span call)
        Edit.insertBefore call read
        return copy : Pass SymId) now (fun _ ↦ True) fun copy final ↦
          program.KeepsMade now final ∧ ¬ now.HasSymbol copy ∧
            program.Introduces final (program.symbolType formal) copy ∧
            ∃ declaration read value, program.FormalField iterator formal position value ∧
              program.Made final declaration (.define copy) ∧
              program.Made final read (.assign copy value) ∧
              program.Prefaced (prefaces.push call [declaration, read]) final := by
    intro value hvalue hnocall
    refine ensures_modifyGet_bind.mpr ?_
    obtain ⟨hsecond, hkeeps⟩ := h.newLocal helper "_field" (now.symbolType formal)
    have hcopy := h.introduces_newLocal hformal helper "_field"
    refine (hsecond.ensures_newAction rfl).build.bind fun declaration third _ hmade ↦ ?_
    obtain ⟨hkeeps', hthird, hdetached, hnew, hkind⟩ := hmade
    have hdeclaration : program.Made third declaration (.define _) := ⟨hnew, hdetached.has, hkind⟩
    refine (hthird.ensures_insertBefore hlinked hcall hdetached hnew).edit.bind
      fun _ fourth _ hinserted ↦ ?_
    obtain ⟨hkeeps'', hfourth⟩ := hinserted
    refine (hfourth.ensures_newAction (hnocall _)).build.bind fun read fifth _ hmade ↦ ?_
    obtain ⟨hkeeps₃, hfifth, hdetached, hnew, hkind⟩ := hmade
    have hread : program.Made fifth read (.assign _ value) := ⟨hnew, hdetached.has, hkind⟩
    refine (hfifth.ensures_insertBefore hlinked hcall hdetached hnew).edit.bind
      fun _ final _ hinserted ↦ ?_
    obtain ⟨hkeeps₄, hfinal⟩ := hinserted
    have hlate : program.KeepsMade third final :=
      IsTrans.trans _ _ _ hkeeps'' (IsTrans.trans _ _ _ hkeeps₃ hkeeps₄)
    have hafter : program.KeepsMade _ final := IsTrans.trans _ _ _ hkeeps' hlate
    refine .pure trivial ⟨IsTrans.trans _ _ _ hkeeps hafter, now.not_hasSymbol_addSymbol _,
      hafter.introduces hcopy, declaration, read, value, h.formalField hiterator hformal hvalue,
      hlate.made hdeclaration, hkeeps₄.made hread, ?_⟩
    rwa [Prefaces.push_push] at hfinal
  dsimp only
  split
  · rw [pure_bind]
    exact hread _ (.byValue hfield ‹_›) fun _ ↦ rfl
  · split
    · rw [pure_bind]
      exact hread _ (.byAddress hfield ‹_› ‹_›) fun _ ↦ rfl
    · exact ensures_throw_bind.mpr trivial

/-- The foreign formals are counted from left to right. -/
theorem reads_replaceForeign (hlinked : program.WellLinked) (h : program.Prefaced prefaces now)
    (hcall : program.Has call) (hiterator : program.HasSymbol iterator) :
    Ensures (replaceForeign helper iterator call position args) now (fun _ ↦ True)
      fun result final ↦ program.KeepsMade now final ∧ ∃ copies reads,
        program.ReadsFields final helper iterator position args result.1 copies reads ∧
          program.Prefaced (prefaces.push call reads) final ∧ copies.Nodup ∧
          (∀ copy ∈ copies, ¬ now.HasSymbol copy) ∧ result.2 = copies.length := by
  induction args generalizing now prefaces position with
  | nil =>
    exact .pure trivial ⟨Std.Refl.refl now, [], [], .nil, (prefaces.push_nil call).symm ▸ h, .nil,
      nofun, rfl⟩
  | cons arg rest ih =>
    unfold replaceForeign
    refine ensures_get_bind.mpr ?_
    rw [h.foreignFormal?_eq]
    split
    · rename_i formal hforeign
      have hformal := hasSymbol_of_foreignFormal? hforeign
      refine (reads_readFormalField hlinked h hcall hiterator hformal).bind
        fun copy middle _ hcopy ↦ ?_
      obtain ⟨hkeeps, hnew, hcopy, declaration, read, value, hvalue, hdeclaration, hread,
        hmiddle⟩ := hcopy
      refine (ih hmiddle).bind fun result final _ hrest ↦ ?_
      obtain ⟨hkeeps', copies, reads, hreads, hfinal, hnodup, hcopies, hcount⟩ := hrest
      refine .pure trivial ⟨IsTrans.trans _ _ _ hkeeps hkeeps', copy :: copies,
        declaration :: read :: reads, .foreign hforeign hvalue (hkeeps'.introduces hcopy)
        (hkeeps'.made hdeclaration) (hkeeps'.made hread) hreads, ?_, ?_, ?_, ?_⟩
      · rwa [Prefaces.push_push] at hfinal
      · exact List.nodup_cons.mpr ⟨fun hmem ↦ hcopies copy hmem hcopy.has, hnodup⟩
      · intro other hother
        rcases List.mem_cons.mp hother with rfl | hother
        · exact hnew
        · exact fun hsymbol ↦ hcopies other hother (hkeeps.symbol hsymbol).1
      · rw [hcount, List.length_cons]
    · rename_i hown
      refine (ih h).bind fun result final _ hrest ↦ .pure trivial ?_
      obtain ⟨hkeeps, copies, reads, hreads, hfinal⟩ := hrest
      exact ⟨hkeeps, copies, reads, .own hown hreads, hfinal⟩

/-- The arguments of a call are replaced and no other statement is given a preface. -/
theorem reads_readHelperCall (hlinked : program.WellLinked) (h : program.Prefaced prefaces now)
    (hiterator : program.HasSymbol iterator) {callee : FnId}
    (hcallee : (program.kind call).directCallee? = some callee)
    (hbare : prefaces call = program.unprefaced call) :
    Ensures (readHelperCall helper iterator count call) now (fun _ ↦ True)
      fun _ final ↦ program.KeepsMade now final ∧ ∃ prefaces' : Prefaces,
        program.Prefaced prefaces' final ∧
          program.Supplied final prefaces' helper iterator call ∧
          ∀ other, other ≠ call → prefaces' other = prefaces other := by
  obtain ⟨inner, args, hinner, hargs⟩ := StmtKind.exists_callArgs?_eq hcallee
  have hcall : program.Has call := by
    by_contra hout
    rw [Program.kind, stmt_of_not_has hout] at hcallee
    cases hcallee
  have hnow : (now.kind call).callArgs? = some (program.unprefaced call).args := by
    rw [h.kind hcall, StmtKind.callArgs?_preface hargs, hbare]
  unfold readHelperCall
  refine ensures_get_bind.mpr ?_
  rw [hnow]
  dsimp only
  refine (reads_replaceForeign hlinked h hcall hiterator).bind fun result middle _ hresult ↦ ?_
  obtain ⟨hkeeps, copies, reads, hreads, hmiddle, hnodup, -, -⟩ := hresult
  obtain ⟨hfinal, hkeeps'⟩ := hmiddle.setArgs hcall hinner result.1
  refine ensures_modify_bind.mpr (.pure trivial ⟨IsTrans.trans _ _ _ hkeeps hkeeps', _, hfinal,
    ⟨copies, ?_, hnodup⟩, fun other hother ↦ ?_⟩)
  · rw [h.symbolType_eq hiterator, h.valueType_eq, h.type_eq] at hreads
    simp only [Prefaces.setArgs, Function.update_self, Prefaces.push, hbare]
    exact hreads.keep hkeeps'
  · rw [Prefaces.setArgs, Function.update_of_ne hother, Prefaces.push,
      Function.update_of_ne hother]

/-- The calls of one helper are taken one after the other. -/
theorem reads_foldlM_readHelperCall {calls : List StmtId} (hlinked : program.WellLinked)
    (h : program.Prefaced prefaces now) (hiterator : program.HasSymbol iterator)
    (hnodup : calls.Nodup)
    (hcalls : ∀ call ∈ calls, (program.kind call).directCallee?.isSome ∧
      prefaces call = program.unprefaced call) :
    Ensures (calls.foldlM (readHelperCall helper iterator) count) now (fun _ ↦ True)
      fun _ final ↦ program.KeepsMade now final ∧ ∃ prefaces' : Prefaces,
        program.Prefaced prefaces' final ∧
          (∀ call ∈ calls, program.Supplied final prefaces' helper iterator call) ∧
          ∀ other, other ∉ calls → prefaces' other = prefaces other := by
  induction calls generalizing now prefaces count with
  | nil => exact .pure trivial ⟨Std.Refl.refl now, prefaces, h, nofun, fun _ _ ↦ rfl⟩
  | cons call rest ih =>
    obtain ⟨hcall, hrest⟩ := List.nodup_cons.mp hnodup
    obtain ⟨hcallee, hbare⟩ := hcalls call List.mem_cons_self
    obtain ⟨callee, hcallee⟩ := Option.isSome_iff_exists.mp hcallee
    rw [List.foldlM_cons]
    refine (reads_readHelperCall hlinked h hiterator hcallee hbare).bind
      fun count middle _ hmiddle ↦ ?_
    obtain ⟨hkeeps, prefaces', hmiddle, hsupplied, hothers⟩ := hmiddle
    have hlater : ∀ other ∈ rest, other ≠ call := fun other hother heq ↦ hcall (heq ▸ hother)
    refine (ih hmiddle hrest fun other hother ↦ ?_).mono (fun _ h ↦ h) fun count final _ hfinal ↦ ?_
    · obtain ⟨hcallee, hbare⟩ := hcalls other (List.mem_cons_of_mem _ hother)
      exact ⟨hcallee, (hothers other (hlater other hother)).trans hbare⟩
    · obtain ⟨hkeeps', prefaces'', hfinal, hlast, hothers'⟩ := hfinal
      refine ⟨IsTrans.trans _ _ _ hkeeps hkeeps', prefaces'', hfinal, fun other hother ↦ ?_,
        fun other hother ↦ ?_⟩
      · rcases List.mem_cons.mp hother with rfl | hother
        · exact hsupplied.keep hkeeps' (hothers' other hcall)
        · exact hlast other hother
      · rw [hothers' other (hother ∘ List.mem_cons_of_mem call),
          hothers other fun heq ↦ hother (heq ▸ List.mem_cons_self)]

end

/-! ### All helpers -/

namespace Program

/-- A call that returns an iterator record, in a dispatch helper with an iterator as the first
formal. -/
structure HelperCall (program : Program) (helper : FnId) (iterator : SymId) (call : StmtId) :
    Prop where
  has : program.HasFunction helper
  dispatch : program.isDispatchHelper helper = true
  first : (program.function helper).formals.head? = some iterator
  call : call ∈ program.recordCalls helper

/-- Whether the formals of all functions are symbols of the program. -/
def HasFormals (program : Program) : Prop :=
  ∀ function, ∀ formal ∈ (program.function function).formals, program.HasSymbol formal

variable {program now : Program} {prefaces : Prefaces} {helper : FnId} {call : StmtId}

theorem has_of_mem_recordCalls (h : call ∈ program.recordCalls helper) :
    program.Has call ∧ (program.kind call).directCallee?.isSome := by
  obtain ⟨-, hcallee⟩ := List.mem_filter.mp h
  have hsome : (program.kind call).directCallee?.isSome := by
    cases hkind : (program.kind call).directCallee? with
    | none =>
      rw [hkind] at hcallee
      cases hcallee
    | some => rfl
  refine ⟨?_, hsome⟩
  by_contra hout
  rw [Program.kind, stmt_of_not_has hout] at hsome
  cases hsome

/-- A call stands in one helper. -/
theorem eq_of_mem_recordCalls (hlinked : program.WellLinked) {other : FnId}
    (hhelper : program.HasFunction helper) (hother : program.HasFunction other)
    (h : call ∈ program.recordCalls helper) (h' : call ∈ program.recordCalls other) :
    helper = other := by
  rw [recordCalls, List.mem_filter, hlinked.mem_functionStmts_iff hhelper] at h
  rw [recordCalls, List.mem_filter, hlinked.mem_functionStmts_iff hother] at h'
  exact hlinked.standsIn_unique h.1 h'.1

namespace Prefaced

variable (h : program.Prefaced prefaces now)

include h

theorem function_eq (function : FnId) : now.function function = program.function function := by
  rw [Program.function, Program.function, h.functions]

theorem isIteratorRecord_eq (type : TypeId) :
    now.isIteratorRecord type = program.isIteratorRecord type := by
  rw [isIteratorRecord, isIteratorRecord, h.valueType_eq, h.type_eq]

theorem returnsIteratorRecord_eq (hformals : program.HasFormals) (callee : FnId) :
    now.returnsIteratorRecord callee = program.returnsIteratorRecord callee := by
  unfold returnsIteratorRecord
  dsimp only
  rw [h.function_eq, h.isIteratorRecord_eq]
  cases hlast : (program.function callee).formals.getLast? with
  | none => rfl
  | some formal =>
    have hformal := hformals callee formal (List.mem_of_getLast? hlast)
    simp only [Option.any_some, (h.symbol hformal).2, h.isIteratorRecord_eq]

theorem mem_recordCalls_iff (hlinked : program.WellLinked) (hformals : program.HasFormals)
    (hhelper : program.HasFunction helper) :
    call ∈ now.recordCalls helper ↔ call ∈ program.recordCalls helper := by
  by_cases hcall : program.Has call
  · rw [recordCalls, recordCalls, List.mem_filter, List.mem_filter,
      h.mem_functionStmts_iff hlinked hhelper hcall, h.kind hcall, StmtKind.directCallee?_preface,
      funext (h.returnsIteratorRecord_eq hformals)]
  · refine iff_of_false (fun hmem ↦ ?_) fun hmem ↦ hcall (has_of_mem_recordCalls hmem).1
    have hcallee := (has_of_mem_recordCalls hmem).2
    rw [(h.newKind hcall).2] at hcallee
    cases hcallee

end Prefaced

end Program

section

open Program

variable {program now : Program} {prefaces : Prefaces} {helper : FnId} {count : Nat}

theorem reads_readHelper (hlinked : program.WellLinked) (hformals : program.HasFormals)
    (h : program.Prefaced prefaces now) (hhelper : program.HasFunction helper)
    (hdispatch : program.isDispatchHelper helper = true)
    (hbare : ∀ call ∈ program.recordCalls helper, prefaces call = program.unprefaced call) :
    Ensures (readHelper count helper) now (fun _ ↦ True)
      fun _ final ↦ program.KeepsMade now final ∧ ∃ prefaces' : Prefaces,
        program.Prefaced prefaces' final ∧
          (∀ iterator call, program.HelperCall helper iterator call →
            program.Supplied final prefaces' helper iterator call) ∧
          ∀ other, (∀ iterator, ¬ program.HelperCall helper iterator other) →
            prefaces' other = prefaces other := by
  have hmem : ∀ {call}, call ∈ now.recordCalls helper ↔ call ∈ program.recordCalls helper :=
    h.mem_recordCalls_iff hlinked hformals hhelper
  unfold readHelper
  refine ensures_get_bind.mpr ?_
  rw [h.function_eq]
  split
  · rename_i hnone
    refine .pure trivial ⟨Std.Refl.refl now, prefaces, h, fun iterator call hcall ↦ ?_,
      fun _ _ ↦ rfl⟩
    cases hnone.symm.trans hcall.first
  · rename_i iterator hfirst
    have hiterator := hformals helper iterator (List.mem_of_head? hfirst)
    have hnodup : (now.recordCalls helper).Nodup :=
      (h.linked.unfolds_functionStmts (h.hasFunction_iff.mpr hhelper)).2.filter _
    refine (reads_foldlM_readHelperCall hlinked h hiterator hnodup fun call hcall ↦ ?_).mono
      (fun _ h ↦ h) fun _ final _ hfinal ↦ ?_
    · exact ⟨(has_of_mem_recordCalls (hmem.mp hcall)).2, hbare call (hmem.mp hcall)⟩
    · obtain ⟨hkeeps, prefaces', hfinal, hsupplied, hothers⟩ := hfinal
      refine ⟨hkeeps, prefaces', hfinal, fun iterator' call hcall ↦ ?_, fun other hother ↦ ?_⟩
      · obtain rfl := Option.some.inj (hfirst.symm.trans hcall.first)
        exact hsupplied call (hmem.mpr hcall.call)
      · exact hothers other fun hcall ↦ hother iterator ⟨hhelper, hdispatch, hfirst, hmem.mp hcall⟩

theorem reads_foldlM_readHelper {helpers : List FnId} (hlinked : program.WellLinked)
    (hformals : program.HasFormals) (h : program.Prefaced prefaces now)
    (hhelpers : ∀ helper ∈ helpers,
      program.HasFunction helper ∧ program.isDispatchHelper helper = true)
    (hnodup : helpers.Nodup)
    (hbare : ∀ helper ∈ helpers, ∀ call ∈ program.recordCalls helper,
      prefaces call = program.unprefaced call) :
    Ensures (helpers.foldlM readHelper count) now (fun _ ↦ True)
      fun _ final ↦ program.KeepsMade now final ∧ ∃ prefaces' : Prefaces,
        program.Prefaced prefaces' final ∧
          (∀ helper ∈ helpers, ∀ iterator call, program.HelperCall helper iterator call →
            program.Supplied final prefaces' helper iterator call) ∧
          ∀ other, (∀ helper ∈ helpers, ∀ iterator, ¬ program.HelperCall helper iterator other) →
            prefaces' other = prefaces other := by
  induction helpers generalizing now prefaces count with
  | nil => exact .pure trivial ⟨Std.Refl.refl now, prefaces, h, nofun, fun _ _ ↦ rfl⟩
  | cons helper rest ih =>
    obtain ⟨hhelper, hrest⟩ := List.nodup_cons.mp hnodup
    have hhas := fun other hother ↦ hhelpers other (List.mem_cons_of_mem helper hother)
    obtain ⟨hfunction, hdispatch⟩ := hhelpers helper List.mem_cons_self
    rw [List.foldlM_cons]
    refine (reads_readHelper hlinked hformals h hfunction hdispatch
      (hbare helper List.mem_cons_self)).bind fun count middle _ hmiddle ↦ ?_
    obtain ⟨hkeeps, prefaces', hmiddle, hsupplied, hothers⟩ := hmiddle
    -- No call of this helper is one of a later helper.
    have hapart : ∀ other ∈ rest, ∀ call ∈ program.recordCalls other,
        call ∉ program.recordCalls helper := fun other hother call hcall hcall' ↦
      hhelper (eq_of_mem_recordCalls hlinked hfunction (hhas other hother).1 hcall' hcall ▸ hother)
    refine (ih hmiddle hhas hrest fun other hother call hcall ↦ ?_).mono (fun _ h ↦ h)
      fun count final _ hfinal ↦ ?_
    · rw [hothers call fun _ hcall' ↦ hapart other hother call hcall hcall'.call]
      exact hbare other (List.mem_cons_of_mem _ hother) call hcall
    · obtain ⟨hkeeps', prefaces'', hfinal, hlast, hothers'⟩ := hfinal
      refine ⟨IsTrans.trans _ _ _ hkeeps hkeeps', prefaces'', hfinal,
        fun other hother iterator call hcall ↦ ?_, fun id hid ↦ ?_⟩
      · rcases List.mem_cons.mp hother with rfl | hother
        · exact (hsupplied iterator call hcall).keep hkeeps'
            (hothers' call fun later hlater _ hlate ↦
              hapart later hlater call hlate.call hcall.call)
        · exact hlast other hother iterator call hcall
      · rw [hothers' id fun other hother ↦ hid other (List.mem_cons_of_mem _ hother),
          hothers id (hid helper List.mem_cons_self)]

end

/-- What becomes of a program when dispatch helpers are rewritten: the calls of the helpers that
return iterator records have their foreign formals from the fields after the header, in the order
of the arguments, and nothing else changes. Where a call passes the first formals of the iterator in
their order, each of them is read from its own field. -/
theorem exists_prefaces_readHelperArgs {program final : Program} {count : Nat}
    (hlinked : program.WellLinked) (hformals : program.HasFormals)
    (h : readHelperArgs program = .ok count final) :
    ∃ prefaces : Prefaces, program.Prefaced prefaces final ∧
      (∀ helper iterator call, program.HelperCall helper iterator call →
        program.Supplied final prefaces helper iterator call) ∧
      (∀ id, (∀ helper iterator, ¬ program.HelperCall helper iterator id) →
        prefaces id = program.unprefaced id) ∧
      ∀ helper iterator call, program.HelperCall helper iterator call →
        ∀ formals : List SymId, formals.Nodup →
          program.foreignFormals helper (program.unprefaced call).args <+: formals →
            ∀ {index : Nat} {arg : Operand} {formal : SymId},
              (program.unprefaced call).args[index]? = some arg →
                program.foreignFormal? helper arg = some formal →
                  program.ReadsOwnField final prefaces iterator call formals formal index := by
  have hids : ∀ helper ∈ program.functionIds.filter program.isDispatchHelper,
      program.HasFunction helper ∧ program.isDispatchHelper helper = true := by
    intro helper hhelper
    obtain ⟨hid, hdispatch⟩ := List.mem_filter.mp hhelper
    exact ⟨Program.mem_functionIds.mp hid, hdispatch⟩
  have hnodup : (program.functionIds.filter program.isDispatchHelper).Nodup :=
    program.nodup_functionIds.filter _
  obtain ⟨-, -, prefaces, hfinal, hsupplied, hothers⟩ :=
    (reads_foldlM_readHelper hlinked hformals (.refl hlinked) hids hnodup
      fun _ _ _ _ ↦ rfl).of_eq_ok h
  have hall : ∀ helper iterator call, program.HelperCall helper iterator call →
      program.Supplied final prefaces helper iterator call := by
    intro helper iterator call hcall
    have hhelper := List.mem_filter.mpr ⟨Program.mem_functionIds.mpr hcall.has, hcall.dispatch⟩
    exact hsupplied helper hhelper iterator call hcall
  refine ⟨prefaces, hfinal, hall, fun id hid ↦ hothers id fun helper _ ↦ hid helper, ?_⟩
  intro helper iterator call hcall formals hdistinct hfirst index arg formal harg hforeign
  obtain ⟨copies, hreads, -⟩ := hall helper iterator call hcall
  exact hreads.read_own_field hdistinct hfirst harg hforeign

/-- A helper that calls an iterator with both formals of the iterator that it was made from, and
with a number between them. -/
def leaderOfRange : Program where
  types := builtinTypes ++ #[
    { name := "_ir_range", kind := .record, fields := [⟨"lo", .int⟩, ⟨"hi", .int⟩],
      flags := { iteratorRecord := true }, iteratorFn := some ⟨0⟩ },
    { name := "_ic_range", kind := .heapClass, headerFields := 1,
      fields := [⟨"super", .object⟩, ⟨"lo", .int⟩, ⟨"hi", .int⟩], iteratorFn := some ⟨0⟩ }]
  symbols := #[
    { name := "lo", kind := .arg, type := .int, owner := some ⟨0⟩ },
    { name := "hi", kind := .arg, type := .int, owner := some ⟨0⟩ },
    { name := "ic", kind := .arg, type := ⟨6⟩, owner := some ⟨2⟩ },
    { name := "leader", kind := .var, type := ⟨5⟩, owner := some ⟨2⟩ }]
  statements := #[
    { kind := .plain [], bodyOf := some ⟨0⟩, span := .none },
    { kind := .plain [], bodyOf := some ⟨1⟩, span := .none },
    { kind := .plain [⟨3⟩], bodyOf := some ⟨2⟩, span := .none },
    { kind := .action (.assign ⟨3⟩ (.call ⟨1⟩ [.sym ⟨0⟩, .int 2, .sym ⟨1⟩])), parent := some ⟨2⟩,
      span := .none }]
  functions := #[
    { name := "range", formals := [⟨0⟩, ⟨1⟩], retType := .int, body := ⟨0⟩,
      flags := { iterator := true } },
    { name := "make", retType := ⟨5⟩, body := ⟨1⟩ },
    { name := "_to_leader", formals := [⟨2⟩], retType := .void, body := ⟨2⟩,
      flags := { toLeader := true } }]

/-- The formals are read from the fields behind the header, and the number is passed on. -/
theorem readsOwnField_leaderOfRange :
    ∃ final prefaces, readHelperArgs leaderOfRange = .ok 2 final ∧
      leaderOfRange.Prefaced prefaces final ∧
      leaderOfRange.Supplied final prefaces ⟨2⟩ ⟨2⟩ ⟨3⟩ ∧
      leaderOfRange.ReadsOwnField final prefaces ⟨2⟩ ⟨3⟩ [⟨0⟩, ⟨1⟩] ⟨0⟩ 0 ∧
      leaderOfRange.ReadsOwnField final prefaces ⟨2⟩ ⟨3⟩ [⟨0⟩, ⟨1⟩] ⟨1⟩ 2 ∧
      prefaces ⟨0⟩ = leaderOfRange.unprefaced ⟨0⟩ := by
  have hlinked : leaderOfRange.WellLinked := by decide
  have hformals : leaderOfRange.HasFormals := by
    rintro ⟨index⟩
    match index with
    | 0 | 1 | 2 => decide
    | _ + 3 => exact nofun
  have hrun : readHelperArgs leaderOfRange = .ok 2 _ := eq_ok_of_run (by decide +kernel)
  have hcall : leaderOfRange.HelperCall ⟨2⟩ ⟨2⟩ ⟨3⟩ :=
    ⟨by decide, by decide, by decide, by decide +kernel⟩
  have hnone : ∀ helper iterator, ¬ leaderOfRange.HelperCall helper iterator ⟨0⟩ :=
    fun helper iterator h ↦ Bool.false_ne_true (Program.has_of_mem_recordCalls h.call).2
  have harg : (leaderOfRange.unprefaced ⟨3⟩).args = [.sym ⟨0⟩, .int 2, .sym ⟨1⟩] := rfl
  have hlo : (leaderOfRange.unprefaced ⟨3⟩).args[0]? = some (.sym ⟨0⟩) := by rw [harg]; rfl
  have hhi : (leaderOfRange.unprefaced ⟨3⟩).args[2]? = some (.sym ⟨1⟩) := by rw [harg]; rfl
  obtain ⟨prefaces, hprefaced, hsupplied, hothers, hown⟩ :=
    exists_prefaces_readHelperArgs hlinked hformals hrun
  exact ⟨_, prefaces, hrun, hprefaced, hsupplied _ _ _ hcall,
    hown _ _ _ hcall [⟨0⟩, ⟨1⟩] (by decide) (by decide) hlo (by decide),
    hown _ _ _ hcall [⟨0⟩, ⟨1⟩] (by decide) (by decide) hhi (by decide), hothers _ hnone⟩

end IteratorLowering
