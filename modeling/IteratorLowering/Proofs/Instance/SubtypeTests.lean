import IteratorLowering.Instance.SubtypeDispatch
import IteratorLowering.Proofs.Dispatch.Appending

/-!
# The shape of the tests for subtypes

The tests for the subtypes of a record stand one after the other. Each of them reads the first field
of the record and asks for its class; on a match the fields are copied by name into a new record,
from which the instance of the subtype is made and returned (`Program.TestsSubtype`,
`Program.Rebuilds`). What is known about a subtype is read off the types before anything is emitted
(`Program.Describes`).
-/

set_option autoImplicit false
set_option relaxedAutoImplicit false

namespace IteratorLowering

namespace Program

/-- A list of statements that copies a field from one record to another, with a cast where the types
differ. -/
inductive CopiesField (program lowered : Program) (source target : SymId) (copy : FieldCopy) :
    List StmtId → Prop
  | plain {declare read write : StmtId} {value : SymId} (hvalue : program.Temporary lowered value)
      (hne : value ≠ target) (hdeclare : lowered.kind declare = .action (.define value))
      (hread : lowered.kind read =
        .action (.assign value (.fieldValue source (.index copy.source))))
      (hwrite : lowered.kind write =
        .action (.setField target (.index copy.target) (.sym value)))
      (htype : copy.sourceType = copy.targetType) :
      CopiesField program lowered source target copy [declare, read, write]
  | cast {declare read declareCast convert write : StmtId} {value converted : SymId}
      (hvalue : program.Temporary lowered value) (hne : value ≠ target)
      (hdeclare : lowered.kind declare = .action (.define value))
      (hread : lowered.kind read =
        .action (.assign value (.fieldValue source (.index copy.source))))
      (hconverted : program.Temporary lowered converted) (hneCast : converted ≠ target)
      (happart : value ≠ converted)
      (hdeclareCast : lowered.kind declareCast = .action (.define converted))
      (hconvert : lowered.kind convert =
        .action (.assign converted (.cast copy.targetType (.sym value))))
      (hwrite : lowered.kind write =
        .action (.setField target (.index copy.target) (.sym converted)))
      (htype : copy.sourceType ≠ copy.targetType) :
      CopiesField program lowered source target copy [declare, read, declareCast, convert, write]

/-- A list of statements that rebuilds a record as one of a subtype and returns the instance made
from it. -/
inductive Rebuilds (program lowered : Program) (record : SymId) (returned : TypeId)
    (subtype : SubtypeCase) : List StmtId → Prop
  | mk {declare declareMade call declareResult convert last : StmtId} {parts : List (List StmtId)}
      {rebuilt made result : SymId} (hrebuilt : program.Temporary lowered rebuilt)
      (htype : lowered.symbolType rebuilt = subtype.record)
      (hdeclare : lowered.kind declare = .action (.define rebuilt))
      (hcopies : List.Forall₂ (program.CopiesField lowered record rebuilt) subtype.copies parts)
      (hmade : program.Temporary lowered made) (hneMade : made ≠ rebuilt)
      (hdeclareMade : lowered.kind declareMade = .action (.define made))
      (hcall : lowered.kind call =
        .action (.assign made (.call subtype.getIterator [.sym rebuilt])))
      (hresult : program.Temporary lowered result) (hneResult : result ≠ made)
      (hdeclareResult : lowered.kind declareResult = .action (.define result))
      (hconvert : lowered.kind convert = .action (.assign result (.cast returned (.sym made))))
      (hlast : lowered.kind last = .action (.ret (.sym result))) :
      Rebuilds program lowered record returned subtype
        (declare :: (parts.flatten ++ [declareMade, call, declareResult, convert, last]))

/-- A list of statements that tests for a subtype of a record. -/
inductive TestsSubtype (program lowered : Program) (record : SymId) (returned : TypeId)
    (subtype : SubtypeCase) : List StmtId → Prop
  | mk {declareTag read declareFlag test branch thenBlock : StmtId} {thenIds : List StmtId}
      {tag flag : SymId} (htag : program.Temporary lowered tag)
      (hdeclareTag : lowered.kind declareTag = .action (.define tag))
      (hread : lowered.kind read = .action (.assign tag (.fieldValue record (.index 0))))
      (hflag : program.Temporary lowered flag) (hne : flag ≠ tag)
      (hdeclareFlag : lowered.kind declareFlag = .action (.define flag))
      (htest : lowered.kind test = .action (.assign flag (.hasClass tag subtype.discriminator)))
      (hbranch : lowered.kind branch = .branch (.sym flag) thenBlock none)
      (hthen : lowered.kind thenBlock = .plain thenIds)
      (hrebuilds : program.Rebuilds lowered record returned subtype thenIds) :
      TestsSubtype program lowered record returned subtype
        [declareTag, read, declareFlag, test, branch]

/-- A list of statements that tests for the subtypes of a record one after the other. -/
inductive TestsSubtypes (program lowered : Program) (record : SymId) (returned : TypeId) :
    List SubtypeCase → List StmtId → Prop
  | nil : TestsSubtypes program lowered record returned [] []
  | cons {subtype : SubtypeCase} {cases : List SubtypeCase} {ids rest : List StmtId}
      (htest : program.TestsSubtype lowered record returned subtype ids)
      (hrest : TestsSubtypes program lowered record returned cases rest) :
      TestsSubtypes program lowered record returned (subtype :: cases) (ids ++ rest)

/-- Where a field of a subtype's record comes from in the base record. -/
structure CopiedFrom (program : Program) (base : TypeId) (field : FieldDef × Nat)
    (copy : FieldCopy) : Prop where
  target : copy.target = field.2
  targetType : copy.targetType = field.1.type
  source : (program.type base).fieldNamed? field.1.name = some copy.source
  sourceType : ∃ sourceField, (program.type base).field? copy.source = some sourceField ∧
    copy.sourceType = sourceField.type

/-- A subtype of a record as it is declared. -/
structure Describes (program : Program) (base child : TypeId) (subtype : SubtypeCase) : Prop where
  record : subtype.record = child
  getIterator : program.getIteratorOf? child = some subtype.getIterator
  discriminator : ∃ first, (program.type child).field? 0 = some first ∧
    subtype.discriminator = first.type
  copies : List.Forall₂ (program.CopiedFrom base) (program.type child).fields.zipIdx subtype.copies

variable {program program' lowered : Program} {source target record : SymId} {copy : FieldCopy}
variable {returned : TypeId} {subtype : SubtypeCase} {ids : List StmtId}

/-! ### Fewer symbols -/

theorem CopiesField.mono (h : program'.CopiesField lowered source target copy ids)
    (hsub : ∀ {id}, program.HasSymbol id → program'.HasSymbol id) :
    program.CopiesField lowered source target copy ids := by
  cases h with
  | plain hvalue hne hdeclare hread hwrite htype =>
    exact .plain (hvalue.mono hsub) hne hdeclare hread hwrite htype
  | cast hvalue hne hdeclare hread hconverted hneCast hapart hdeclareCast hconvert hwrite htype =>
    exact .cast (hvalue.mono hsub) hne hdeclare hread (hconverted.mono hsub) hneCast hapart
      hdeclareCast hconvert hwrite htype

theorem Rebuilds.mono (h : program'.Rebuilds lowered record returned subtype ids)
    (hsub : ∀ {id}, program.HasSymbol id → program'.HasSymbol id) :
    program.Rebuilds lowered record returned subtype ids := by
  obtain ⟨hrebuilt, htype, hdeclare, hcopies, hmade, hneMade, hdeclareMade, hcall, hresult,
    hneResult, hdeclareResult, hconvert, hlast⟩ := h
  exact ⟨hrebuilt.mono hsub, htype, hdeclare, hcopies.imp fun _ _ h ↦ h.mono hsub, hmade.mono hsub,
    hneMade, hdeclareMade, hcall, hresult.mono hsub, hneResult, hdeclareResult, hconvert, hlast⟩

theorem TestsSubtype.mono (h : program'.TestsSubtype lowered record returned subtype ids)
    (hsub : ∀ {id}, program.HasSymbol id → program'.HasSymbol id) :
    program.TestsSubtype lowered record returned subtype ids := by
  obtain ⟨htag, hdeclareTag, hread, hflag, hne, hdeclareFlag, htest, hbranch, hthen, hrebuilds⟩ := h
  exact ⟨htag.mono hsub, hdeclareTag, hread, hflag.mono hsub, hne, hdeclareFlag, htest, hbranch,
    hthen, hrebuilds.mono hsub⟩

end Program

/-! ### What is looked up -/

section

variable {program : Program} {base child : TypeId} {span : Span}

/-- Items that are looked up one by one, in a state that does not change. -/
theorem Ensures.mapM_forall₂ {α β : Type} {items : List α} {step : α → Pass β}
    {found : α → β → Prop}
    (hstep : ∀ item ∈ items,
      Ensures (step item) program (Eq program) fun value _ ↦ found item value) :
    Ensures (items.mapM step) program (Eq program) fun values _ ↦
      List.Forall₂ found items values := by
  induction items with
  | nil => exact .pure rfl .nil
  | cons item rest ih =>
    rw [List.forall_mem_cons] at hstep
    rw [List.mapM_cons]
    refine hstep.1.bind ?_
    rintro value _ rfl hvalue
    refine (ih hstep.2).bind ?_
    rintro values _ rfl hvalues
    exact .pure rfl (.cons hvalue hvalues)

theorem copiedFrom_fieldCopies :
    Ensures (fieldCopies base child span) program (Eq program) fun copies _ ↦
      List.Forall₂ (program.CopiedFrom base) (program.type child).fields.zipIdx copies := by
  refine ensures_get_bind.mpr (Ensures.mapM_forall₂ fun (field, target) _ ↦ ?_)
  refine ensures_require_bind rfl fun source hsource ↦ ?_
  refine ensures_require_bind rfl fun sourceField hsourceField ↦ .pure rfl ?_
  exact ⟨rfl, rfl, hsource, sourceField, hsourceField, rfl⟩

theorem describes_subtypeCase :
    Ensures (subtypeCase base child span) program (Eq program) fun subtype _ ↦
      program.Describes base child subtype := by
  unfold subtypeCase
  refine ensures_get_bind.mpr (ensures_require_bind rfl fun getIterator hgetIterator ↦ ?_)
  refine ensures_require_bind rfl fun first hfirst ↦ copiedFrom_fieldCopies.bind ?_
  rintro copies _ rfl hcopies
  exact .pure rfl ⟨rfl, hgetIterator, ⟨first, hfirst, rfl⟩, hcopies⟩

end

/-! ### What is emitted -/

open Program

variable {program : Program} {cursor : Cursor} {source target record : SymId} {copy : FieldCopy}
variable {subtype : SubtypeCase} {tagType : TypeId}

theorem appends_emitFieldCopy (htarget : program.HasSymbol target) :
    Appends cursor.block program (emitFieldCopy cursor source target copy) (fun _ _ ↦ True)
      fun _ lowered ids ↦ program.CopiesField lowered source target copy ids := by
  unfold emitFieldCopy
  refine appends_fresh.bind fun value first hfirst hvalue ↦ ?_
  refine appends_emit.bind fun read second hsecond _ ↦ ?_
  have hsofar := hfirst.inside hsecond (.inr rfl)
  split
  next htype =>
    refine appends_emit.bind fun write third hthird _ ↦ .pure trivial ?_
    rintro lowered - _ ⟨rfl, hwrite⟩ _ ⟨rfl, hread⟩ _ ⟨htemporary, -, declare, rfl, hdeclare⟩
    exact .plain htemporary (fun heq ↦ htemporary.new (heq ▸ htarget)) hdeclare hread hwrite htype
  next htype =>
    refine appends_fresh.bind fun converted third hthird hconverted ↦ ?_
    refine appends_emit.bind fun convert fourth hfourth _ ↦ ?_
    refine appends_emit.bind fun write fifth hfifth _ ↦ .pure trivial ?_
    rintro lowered - _ ⟨rfl, hwrite⟩ _ ⟨rfl, hconvert⟩ _
      ⟨hconverted, -, declareCast, rfl, hdeclareCast⟩ _ ⟨rfl, hread⟩ _
      ⟨htemporary, -, declare, rfl, hdeclare⟩
    refine .cast htemporary (fun heq ↦ htemporary.new (heq ▸ htarget)) hdeclare hread
      (hconverted.mono fun h ↦ (hsofar.symbol h).1)
      (fun heq ↦ hconverted.new (heq ▸ (hsofar.symbol htarget).1)) ?_ hdeclareCast hconvert hwrite
      htype
    rintro rfl
    exact hconverted.new (hsecond.symbol hvalue).1

theorem appends_emitFieldCopies {copies : List FieldCopy} (htarget : program.HasSymbol target) :
    Appends cursor.block program (copies.forM (emitFieldCopy cursor source target)) (fun _ _ ↦ True)
      fun _ lowered ids ↦ ∃ parts : List (List StmtId), ids = parts.flatten ∧
        List.Forall₂ (program.CopiesField lowered source target) copies parts :=
  .forM fun _ _ _ hmiddle ↦ (appends_emitFieldCopy (hmiddle.symbol htarget).1).mono
    fun _ _ _ h ↦ h.mono fun h ↦ (hmiddle.symbol h).1

/-- The part of a test that is in its branch. -/
def emitRebuild (cursor : Cursor) (record : SymId) (instanceType returned : TypeId)
    (subtype : SubtypeCase) : Build Unit := do
  let rebuilt ← cursor.fresh "_record" subtype.record
  subtype.copies.forM (emitFieldCopy cursor record rebuilt)
  let made ← cursor.fresh "_class" instanceType
  let _ ← cursor.assign made (.call subtype.getIterator [.sym rebuilt])
  let result ← cursor.fresh "_ret" returned
  let _ ← cursor.assign result (.cast returned (.sym made))
  let _ ← cursor.ret (.sym result)

theorem appends_emitRebuild {instanceType returned : TypeId} :
    Appends cursor.block program (emitRebuild cursor record instanceType returned subtype)
      (fun _ _ ↦ True)
      fun _ lowered ids ↦ program.Rebuilds lowered record returned subtype ids := by
  unfold emitRebuild
  refine appends_fresh.bind fun rebuilt first hfirst hrebuilt ↦ ?_
  refine (appends_emitFieldCopies hrebuilt).bind fun _ second hsecond _ ↦ ?_
  refine appends_fresh.bind fun made third hthird hmade ↦ ?_
  refine appends_emit.bind fun call fourth hfourth _ ↦ ?_
  refine appends_fresh.bind fun result fifth hfifth hresult ↦ ?_
  refine appends_emit.bind fun convert sixth hsixth _ ↦ ?_
  refine appends_emit.bind fun last seventh hseventh _ ↦ .pure trivial ?_
  rintro lowered - _ ⟨rfl, hlast⟩ _ ⟨rfl, hconvert⟩ _
    ⟨hresult', -, declareResult, rfl, hdeclareResult⟩ _ ⟨rfl, hcall⟩ _
    ⟨hmade', -, declareMade, rfl, hdeclareMade⟩ _ ⟨parts, rfl, hcopies⟩ _
    ⟨hrebuilt', htype, declare, rfl, hdeclare⟩
  have hsofar := hfirst.inside hsecond (.inr rfl)
  have hlate := (hsofar.inside hthird (.inr rfl)).inside hfourth (.inr rfl)
  refine .mk hrebuilt' htype hdeclare (hcopies.imp fun _ _ h ↦ h.mono fun h ↦ (hfirst.symbol h).1)
    (hmade'.mono fun h ↦ (hsofar.symbol h).1) ?_ hdeclareMade hcall
    (hresult'.mono fun h ↦ (hlate.symbol h).1) ?_ hdeclareResult hconvert hlast
  · rintro rfl
    exact hmade'.new (hsecond.symbol hrebuilt).1
  · rintro rfl
    exact hresult'.new (hfourth.symbol hmade).1

theorem emitSubtypeCase_eq (cursor : Cursor) :
    emitSubtypeCase cursor record tagType subtype = (do
      let program ← get
      let instanceType := (program.function subtype.getIterator).retType
      let returned := (program.function cursor.function).retType
      let tag ← cursor.fresh "_tag" tagType
      let _ ← cursor.assign tag (.fieldValue record (.index 0))
      let isSubtype ← cursor.fresh "_cid" .bool
      let _ ← cursor.assign isSubtype (.hasClass tag subtype.discriminator)
      let thenBlock ← cursor.openIf (.sym isSubtype)
      emitRebuild (cursor.into thenBlock) record instanceType returned subtype) :=
  rfl

theorem appends_emitSubtypeCase :
    Appends cursor.block program (emitSubtypeCase cursor record tagType subtype) (fun _ _ ↦ True)
      fun _ lowered ids ↦ program.TestsSubtype lowered record
        (program.function cursor.function).retType subtype ids := by
  rw [emitSubtypeCase_eq]
  refine .get_bind ?_
  dsimp only
  refine appends_fresh.bind fun tag first hfirst htag ↦ ?_
  refine appends_emit.bind fun read second hsecond _ ↦ ?_
  refine appends_fresh.bind fun flag third hthird hflag ↦ ?_
  refine appends_emit.bind fun test fourth hfourth _ ↦ ?_
  have hsofar := hfirst.inside hsecond (.inr rfl)
  have hlate := (hsofar.inside hthird (.inr rfl)).inside hfourth (.inr rfl)
  have hrebuild (instanceType returned : TypeId) (thenBlock : StmtId) (fifth : Program)
      (hfifth : fourth.Emits cursor.block fifth) :
      Appends thenBlock fifth
        (emitRebuild (cursor.into thenBlock) record instanceType returned subtype) (fun _ _ ↦ True)
        fun _ lowered ids ↦ fourth.Rebuilds lowered record returned subtype ids :=
    (@appends_emitRebuild fifth (cursor.into thenBlock) record subtype instanceType returned).mono
      fun _ _ _ h ↦ h.mono fun h ↦ (hfifth.symbol h).1
  refine (appends_openIf (hrebuild _ _)).mono ?_
  rintro _ lowered _ ⟨branch, thenBlock, thenIds, rfl, hbranch, hthen, hrebuilds⟩ _ ⟨rfl, htest⟩ _
    ⟨hflag', -, declareFlag, rfl, hdeclareFlag⟩ _ ⟨rfl, hread⟩ _
    ⟨htag', -, declareTag, rfl, hdeclareTag⟩
  refine .mk htag' hdeclareTag hread (hflag'.mono fun h ↦ (hsofar.symbol h).1) ?_ hdeclareFlag htest
    hbranch hthen (hrebuilds.mono fun h ↦ (hlate.symbol h).1)
  rintro rfl
  exact hflag'.new (hsecond.symbol htag).1

end IteratorLowering
