import IteratorLowering.Lowering.Protocol
import IteratorLowering.Proofs.Dispatch.Appending

/-!
# The shape of a protocol call

A protocol call is a cascade of conditionals. Each one tests for a subtype and calls the operation
of the subtype on a cast copy of the instance, or goes on with the next one in its else-branch; the
innermost else-branch calls the operation of the static type (`Program.Dispatches`). The variables
for the tests, the copies and the values to be cast are new (`Program.Temporary`).

`dispatches_protocolCall` says that this is what is built, where all types are iterators', and that
it is left alone by whatever leaves the new statements alone.
-/

set_option autoImplicit false
set_option relaxedAutoImplicit false

namespace IteratorLowering

namespace Program

/-- A list of statements that calls a function on a variable and leaves what it returns in the
result, if there is one. -/
inductive CallsInto (program lowered : Program) (callee : FnId) (arg : SymId) :
    Option SymId → List StmtId → Prop
  | dropped {id : StmtId}
      (hcall : lowered.kind id = .action (.evaluate (.call callee [.sym arg]))) :
      CallsInto program lowered callee arg none [id]
  | stored {id : StmtId} {result : SymId}
      (hcall : lowered.kind id = .action (.assign result (.call callee [.sym arg])))
      (htype : (lowered.function callee).retType = lowered.symbolType result) :
      CallsInto program lowered callee arg (some result) [id]
  | converted {declare id last : StmtId} {value result : SymId}
      (hvalue : program.Temporary lowered value) (hne : value ≠ arg)
      (hdeclare : lowered.kind declare = .action (.define value))
      (hcall : lowered.kind id = .action (.assign value (.call callee [.sym arg])))
      (hlast : lowered.kind last =
        .action (.assign result (.cast (lowered.symbolType result) (.sym value))))
      (htype : (lowered.function callee).retType ≠ lowered.symbolType result) :
      CallsInto program lowered callee arg (some result) [declare, id, last]

/-- A list of statements that goes on in one of two blocks, by whether an instance is of a class. -/
inductive TestsFor (program lowered : Program) (instanceSym : SymId) (subtype : TypeId)
    (thenBlock elseBlock : StmtId) : List StmtId → Prop
  | mk {declare test branch : StmtId} {flag : SymId} (hflag : program.Temporary lowered flag)
      (hdeclare : lowered.kind declare = .action (.define flag))
      (htest : lowered.kind test = .action (.assign flag (.hasClass instanceSym subtype)))
      (hbranch : lowered.kind branch = .branch (.sym flag) thenBlock (some elseBlock)) :
      TestsFor program lowered instanceSym subtype thenBlock elseBlock [declare, test, branch]

/-- A list of statements that calls a function on an instance cast to a class. -/
inductive CallsCast (program lowered : Program) (instanceSym : SymId) (result : Option SymId)
    (subtype : TypeId) (callee : FnId) : List StmtId → Prop
  | mk {declare cast : StmtId} {child : SymId} {ids : List StmtId}
      (hchild : program.Temporary lowered child)
      (hdeclare : lowered.kind declare = .action (.define child))
      (hcast : lowered.kind cast = .action (.assign child (.cast subtype (.sym instanceSym))))
      (hcall : program.CallsInto lowered callee child result ids) :
      CallsCast program lowered instanceSym result subtype callee (declare :: cast :: ids)

/-- A list of statements that tests the class of an instance for one subtype after the other, and
calls the function of the first that it is, or else of the static type. -/
inductive Dispatches (program lowered : Program) (instanceSym : SymId) (result : Option SymId)
    (base : FnId) : List (TypeId × FnId) → List StmtId → Prop
  | base {ids : List StmtId} (hcall : program.CallsInto lowered base instanceSym result ids) :
      Dispatches program lowered instanceSym result base [] ids
  | test {subtype : TypeId} {callee : FnId} {rest : List (TypeId × FnId)}
      {thenBlock elseBlock : StmtId} {ids thenIds elseIds : List StmtId}
      (htest : program.TestsFor lowered instanceSym subtype thenBlock elseBlock ids)
      (hthen : lowered.kind thenBlock = .plain thenIds)
      (hcall : program.CallsCast lowered instanceSym result subtype callee thenIds)
      (helse : lowered.kind elseBlock = .plain elseIds)
      (hrest : Dispatches program lowered instanceSym result base rest elseIds) :
      Dispatches program lowered instanceSym result base ((subtype, callee) :: rest) ids

variable {program program' middle final lowered : Program} {block : StmtId} {symbol : SymId}

/-! ### Fewer symbols -/

theorem CallsInto.mono {callee : FnId} {arg : SymId} {result : Option SymId} {ids : List StmtId}
    (h : program'.CallsInto lowered callee arg result ids)
    (hsub : ∀ {id}, program.HasSymbol id → program'.HasSymbol id) :
    program.CallsInto lowered callee arg result ids := by
  cases h with
  | dropped hcall => exact .dropped hcall
  | stored hcall htype => exact .stored hcall htype
  | converted hvalue hne hdeclare hcall hlast htype =>
    exact .converted (hvalue.mono hsub) hne hdeclare hcall hlast htype

theorem CallsCast.mono {instanceSym : SymId} {result : Option SymId} {subtype : TypeId}
    {callee : FnId} {ids : List StmtId}
    (h : program'.CallsCast lowered instanceSym result subtype callee ids)
    (hsub : ∀ {id}, program.HasSymbol id → program'.HasSymbol id) :
    program.CallsCast lowered instanceSym result subtype callee ids := by
  obtain ⟨hchild, hdeclare, hcast, hcall⟩ := h
  exact ⟨hchild.mono hsub, hdeclare, hcast, hcall.mono hsub⟩

theorem Dispatches.mono {instanceSym : SymId} {result : Option SymId} {base : FnId}
    {targets : List (TypeId × FnId)} {ids : List StmtId}
    (h : program'.Dispatches lowered instanceSym result base targets ids)
    (hsub : ∀ {id}, program.HasSymbol id → program'.HasSymbol id) :
    program.Dispatches lowered instanceSym result base targets ids := by
  induction h with
  | base hcall => exact .base (hcall.mono hsub)
  | test htest hthen hcall helse _ ih =>
    obtain ⟨hflag, hdeclare, htest, hbranch⟩ := htest
    exact .test ⟨hflag.mono hsub, hdeclare, htest, hbranch⟩ hthen (hcall.mono hsub) helse ih

end Program

/-! ### What is emitted -/

open Program

variable {program : Program} {cursor : Cursor} {body : List StmtId} {callee base : FnId}
variable {arg instanceSym : SymId} {result : Option SymId}

theorem appends_emitProtocolCall (harg : program.HasSymbol arg)
    (hresult : ∀ symbol ∈ result, program.HasSymbol symbol) :
    Appends cursor.block program (emitProtocolCall cursor callee arg result) (fun _ _ ↦ True)
      fun _ lowered ids ↦ program.CallsInto lowered callee arg result ids := by
  unfold emitProtocolCall
  cases result with
  | none =>
    refine appends_emit.bind fun id first _ _ ↦ .pure trivial ?_
    rintro lowered - _ ⟨rfl, hcall⟩
    exact .dropped hcall
  | some result =>
    have hsymbol := hresult result rfl
    refine .get_bind ?_
    dsimp only
    split
    next htype =>
      refine appends_emit.bind fun id first hfirst _ ↦ .pure trivial ?_
      rintro lowered hspares _ ⟨rfl, hcall⟩
      refine .stored hcall ?_
      rw [hspares.retType, hfirst.function, htype, hspares.symbolType (hfirst.symbol hsymbol).1,
        hfirst.symbolType hsymbol]
    next htype =>
      refine appends_fresh.bind fun value first hfirst hvalue ↦ ?_
      refine appends_emit.bind fun call second hsecond _ ↦ ?_
      refine appends_emit.bind fun last third hthird _ ↦ .pure trivial ?_
      rintro lowered hspares _ ⟨rfl, hlast⟩ _ ⟨rfl, hcall⟩ _ ⟨hvalue, -, declare, rfl, hdeclare⟩
      have hall := (hfirst.inside hsecond (.inr rfl)).inside hthird (.inr rfl)
      have hresultType : lowered.symbolType result = program.symbolType result :=
        (hspares.symbolType (hall.symbol hsymbol).1).trans (hall.symbolType hsymbol)
      refine .converted hvalue ?_ hdeclare hcall (hresultType ▸ hlast) ?_
      · rintro rfl
        exact hvalue.new harg
      · rw [hresultType, hspares.retType, hall.function]
        exact htype

/-- The part of a cascade that calls the operation of a subtype. -/
def emitCastCall (instanceSym : SymId) (result : Option SymId) (cursor : Cursor) (subtype : TypeId)
    (callee : FnId) : Build Unit := do
  let child ← cursor.fresh "_child_it" subtype
  let _ ← cursor.assign child (.cast subtype (.sym instanceSym))
  emitProtocolCall cursor callee child result

theorem emitDispatch_cons (subtype : TypeId) (rest : List (TypeId × FnId)) :
    emitDispatch instanceSym result base cursor ((subtype, callee) :: rest) = (do
      let isSubtype ← cursor.fresh "_cid" .bool
      let _ ← cursor.assign isSubtype (.hasClass instanceSym subtype)
      let branches ← cursor.openIfElse (.sym isSubtype)
      emitCastCall instanceSym result (cursor.into branches.1) subtype callee
      emitDispatch instanceSym result base (cursor.into branches.2) rest) :=
  rfl

theorem appends_emitCastCall {subtype : TypeId}
    (hresult : ∀ symbol ∈ result, program.HasSymbol symbol) :
    Appends cursor.block program (emitCastCall instanceSym result cursor subtype callee)
      (fun _ _ ↦ True)
      fun _ lowered ids ↦ program.CallsCast lowered instanceSym result subtype callee ids := by
  unfold emitCastCall
  refine appends_fresh.bind fun child first hfirst hchild ↦ ?_
  refine appends_emit.bind fun cast second hsecond _ ↦ ?_
  have hsofar := hfirst.inside hsecond (.inr rfl)
  refine (appends_emitProtocolCall (hsecond.symbol hchild).1
    fun symbol hsymbol ↦ (hsofar.symbol (hresult symbol hsymbol)).1).mono ?_
  rintro _ lowered ids hcall _ ⟨rfl, hcast⟩ _ ⟨hchild, -, declare, rfl, hdeclare⟩
  exact ⟨hchild, hdeclare, hcast, hcall.mono fun h ↦ (hsofar.symbol h).1⟩

theorem appends_emitDispatch {targets : List (TypeId × FnId)}
    (hinstance : program.HasSymbol instanceSym)
    (hresult : ∀ symbol ∈ result, program.HasSymbol symbol) :
    Appends cursor.block program (emitDispatch instanceSym result base cursor targets)
      (fun _ _ ↦ True)
      fun _ lowered ids ↦ program.Dispatches lowered instanceSym result base targets ids := by
  induction targets generalizing program cursor with
  | nil => exact (appends_emitProtocolCall hinstance hresult).mono fun _ _ _ h ↦ .base h
  | cons target rest ih =>
    obtain ⟨subtype, callee⟩ := target
    rw [emitDispatch_cons]
    refine appends_fresh.bind fun flag first hfirst hflag ↦ ?_
    refine appends_emit.bind fun test second hsecond _ ↦ ?_
    have hsofar := hfirst.inside hsecond (.inr rfl)
    have hlater {middle : Program} (hmiddle : second.Emits cursor.block middle) {symbol : SymId}
        (h : program.HasSymbol symbol) : middle.HasSymbol symbol :=
      (hmiddle.symbol (hsofar.symbol h).1).1
    refine (appends_openIfElse
      (fun thenBlock middle hmiddle ↦ (@appends_emitCastCall middle (cursor.into thenBlock) callee
        instanceSym result subtype fun symbol h ↦ hlater hmiddle (hresult symbol h)).mono
          fun _ _ _ h ↦ h.mono (hlater hmiddle))
      fun elseBlock middle hmiddle ↦ (@ih middle (cursor.into elseBlock) (hlater hmiddle hinstance)
        fun symbol h ↦ hlater hmiddle (hresult symbol h)).mono
          fun _ _ _ h ↦ h.mono (hlater hmiddle)).mono ?_
    rintro _ lowered _ ⟨branch, thenBlock, elseBlock, thenIds, elseIds, rfl, hbranch, hthen, helse,
      hcall, hrest⟩ _ ⟨rfl, htest⟩ _ ⟨hflag, -, declare, rfl, hdeclare⟩
    exact .test ⟨hflag, hdeclare, htest, hbranch⟩ hthen hcall helse hrest

/-! ### What is built -/

/-- What is known of the iterator behind a type, if there is one. -/
def Program.protocol? (program : Program) (type : TypeId) : Option IteratorInfo :=
  (program.iteratorFnOf type).bind fun iterator => (program.function iterator).iteratorInfo

variable {owner : FnId} {op : ProtocolOp}

theorem protocolFnFor_eq {type : TypeId} {info : IteratorInfo}
    (h : program.protocol? type = some info) :
    protocolFnFor owner op type program = .ok (info.protocolFn op) program := by
  change Pass.require ((program.protocol? type).map _) _ _ program = _
  rw [h]
  rfl

variable (owner) in
/-- Each subtype gets the function behind its operation. -/
theorem exists_mapM_protocolFnFor {subtypes : List TypeId}
    (h : ∀ subtype ∈ subtypes, (program.protocol? subtype).isSome) :
    ∃ targets : List (TypeId × FnId),
      (subtypes.mapM fun subtype => do return (subtype, ← protocolFnFor owner op subtype) :
        Pass (List (TypeId × FnId))) program = .ok targets program ∧
      targets.map Prod.fst = subtypes ∧
      ∀ target ∈ targets, ∃ info, program.protocol? target.1 = some info ∧
        target.2 = info.protocolFn op := by
  induction subtypes with
  | nil => exact ⟨[], rfl, rfl, nofun⟩
  | cons subtype rest ih =>
    rw [List.forall_mem_cons] at h
    obtain ⟨info, hinfo⟩ := Option.isSome_iff_exists.mp h.1
    obtain ⟨targets, hrun, hfirst, htargets⟩ := ih h.2
    refine ⟨(subtype, info.protocolFn op) :: targets, ?_, by rw [List.map_cons, hfirst],
      List.forall_mem_cons.mpr ⟨⟨info, hinfo, rfl⟩, htargets⟩⟩
    rw [List.mapM_cons, bind_assoc, bind_eq_of_eq_ok (protocolFnFor_eq hinfo), pure_bind,
      bind_eq_of_eq_ok hrun]
    rfl

/-- Where the static type and all types below it are iterators', a protocol call is built, and it
tests for the runtime subtypes in turn. -/
theorem dispatches_protocolCall {type : TypeId} {info : IteratorInfo}
    (htype : program.valueType (program.symbolType instanceSym) = type)
    (hinstance : program.HasSymbol instanceSym)
    (hresult : ∀ symbol ∈ result, program.HasSymbol symbol)
    (hbase : program.protocol? type = some info)
    (hsubtypes : ∀ subtype ∈ program.runtimeSubtypes type, (program.protocol? subtype).isSome) :
    ∃ targets block final, protocolCall owner op instanceSym result program = .ok block final ∧
      targets.map Prod.fst = program.runtimeSubtypes type ∧
      (∀ target ∈ targets, ∃ info, program.protocol? target.1 = some info ∧
        target.2 = info.protocolFn op) ∧
      ∀ {lowered}, final.Spares (fun id ↦ ¬ program.Has id) lowered →
        ∃ ids, lowered.kind block = .plain ids ∧
          program.Dispatches lowered instanceSym result (info.protocolFn op) targets ids := by
  subst htype
  obtain ⟨targets, hrun, hfirst, htargets⟩ := exists_mapM_protocolFnFor owner hsubtypes
  let base := info.protocolFn op
  let scratch : Program := program.newScratch.2
  let cursor : Cursor := { function := owner, block := program.nextStmt }
  have hscratch : program.Emits program.nextStmt scratch := .newStmt _ program (.plain []) .none
  have hblock : scratch.kind cursor.block = .plain [] :=
    (program.kind_newStmt (.plain []) .none _).trans (if_pos rfl)
  have hsymbol {symbol : SymId} (h : program.HasSymbol symbol) := (hscratch.symbol h).1
  have hemits := (@appends_emitDispatch scratch cursor base instanceSym result targets
    (hsymbol hinstance) fun symbol hmem ↦ hsymbol (hresult symbol hmem)).emits hblock
  obtain ⟨-, ids, hids, hdispatches⟩ := hemits.2 _ rfl
  refine ⟨targets, program.nextStmt,
    (emitDispatch instanceSym result base cursor targets scratch).2,
    ?_, hfirst, htargets, fun hspares ↦ ⟨ids, ?_, ?_⟩⟩
  · unfold protocolCall
    rw [bind_eq_of_eq_ok (show (get : Pass Program) program = .ok program program from rfl),
      bind_eq_of_eq_ok hrun, bind_eq_of_eq_ok (protocolFnFor_eq hbase)]
    rfl
  · exact (hspares.kind (has_of_kind_block hids) program.not_has_nextStmt).trans hids
  · exact (hdispatches (hspares.mono (mt fun h ↦ (hscratch.kind h).1))).mono hsymbol

end IteratorLowering
