import IteratorLowering.Proofs.Dispatch.Appending
import IteratorLowering.Proofs.Forest.Outcomes
import IteratorLowering.Proofs.Instance.HelperArgs
import IteratorLowering.Proofs.Passes.Finishing

/-!
# The bodies of copy and destroy routines

The new body of a routine goes through the fields of a record in order. Each part of it reads one
field into a new variable; a copy routine puts into the result what was read, or what the routine
registered for the type of the field makes of it (`Program.Duplicates`), and a destroy routine hands
what was read to the routine registered for it, if there is one (`Program.Destroys`).

The pass exchanges the bodies of the routines, one after the other, and leaves all else as it is
(`Program.Rebodies`). So a body that it made stays as it was made (`Program.Rebodied`,
`rebuilt_rebuildRoutines`).
-/

set_option autoImplicit false
set_option relaxedAutoImplicit false

namespace IteratorLowering

open Program

namespace Program

/-! ### Shapes -/

/-- A list of statements that reads a field of a record into a new variable. -/
structure ReadsField (program lowered : Program) (record : SymId) (position : Nat) (value : SymId)
    (ids : List StmtId) : Prop where
  temporary : program.Temporary lowered value
  statements : ∃ declare read, ids = [declare, read] ∧
    lowered.kind declare = .action (.define value) ∧
      lowered.kind read = .action (.assign value (.fieldValue record (.index position)))

/-- A list of statements that puts a field of a record, or what a routine makes of it, into the
result. -/
inductive Duplicates (program lowered : Program) (record result : SymId) (position : Nat) :
    Option FnId → List StmtId → Prop
  | shared {value : SymId} {reads : List StmtId} {write : StmtId}
      (hread : program.ReadsField lowered record position value reads)
      (hwrite : lowered.kind write =
        .action (.setField result (.index position) (.sym value))) :
      Duplicates program lowered record result position none (reads ++ [write])
  | copied {routine : FnId} {value copied : SymId} {reads : List StmtId}
      {declare call write : StmtId}
      (hread : program.ReadsField lowered record position value reads)
      (hcopied : program.Temporary lowered copied) (hne : value ≠ copied)
      (hdeclare : lowered.kind declare = .action (.define copied))
      (hcall : lowered.kind call = .action (.assign copied (.call routine [.sym value])))
      (hwrite : lowered.kind write =
        .action (.setField result (.index position) (.sym copied))) :
      Duplicates program lowered record result position (some routine)
        (reads ++ [declare, call, write])

/-- A list of statements that hands a field of a record to a routine. -/
inductive Destroys (program lowered : Program) (record : SymId) (position : Nat) :
    Option FnId → List StmtId → Prop
  | skipped : Destroys program lowered record position none []
  | destroyed {routine : FnId} {value : SymId} {reads : List StmtId} {call : StmtId}
      (hread : program.ReadsField lowered record position value reads)
      (hcall : lowered.kind call = .action (.evaluate (.call routine [.sym value]))) :
      Destroys program lowered record position (some routine) (reads ++ [call])

/-- The body of a copy routine: the result is declared, filled and returned. -/
structure CopyBody (program lowered : Program) (record result : SymId) (fields : List FieldDef)
    (ids : List StmtId) : Prop where
  statements : ∃ declare last parts, ids = declare :: (List.flatten parts ++ [last]) ∧
    lowered.kind declare = .action (.define result) ∧
      List.Forall₂ (fun (field, position) ids ↦ program.Duplicates lowered record result position
        (program.autoCopy.find? field.type) ids) fields.zipIdx parts ∧
        lowered.kind last = .action (.ret (.sym result))

/-- The body of a destroy routine. -/
structure DestroyBody (program lowered : Program) (record : SymId) (fields : List FieldDef)
    (ids : List StmtId) : Prop where
  statements : ∃ last parts, ids = List.flatten parts ++ [last] ∧
    List.Forall₂ (fun (field, position) ids ↦ program.Destroys lowered record position
      (program.autoDestroy.find? field.type) ids) fields.zipIdx parts ∧
      lowered.kind last = .action (.ret .void)

variable {program program' lowered : Program} {record result value : SymId} {position : Nat}
variable {routine : Option FnId} {ids : List StmtId} {fields : List FieldDef}

/-! ### Fewer symbols -/

theorem ReadsField.mono (h : program'.ReadsField lowered record position value ids)
    (hsub : ∀ {id}, program.HasSymbol id → program'.HasSymbol id) :
    program.ReadsField lowered record position value ids :=
  ⟨h.temporary.mono hsub, h.statements⟩

theorem Duplicates.mono (h : program'.Duplicates lowered record result position routine ids)
    (hsub : ∀ {id}, program.HasSymbol id → program'.HasSymbol id) :
    program.Duplicates lowered record result position routine ids := by
  cases h with
  | shared hread hwrite => exact .shared (hread.mono hsub) hwrite
  | copied hread hcopied hne hdeclare hcall hwrite =>
    exact .copied (hread.mono hsub) (hcopied.mono hsub) hne hdeclare hcall hwrite

theorem Destroys.mono (h : program'.Destroys lowered record position routine ids)
    (hsub : ∀ {id}, program.HasSymbol id → program'.HasSymbol id) :
    program.Destroys lowered record position routine ids := by
  cases h with
  | skipped => exact .skipped
  | destroyed hread hcall => exact .destroyed (hread.mono hsub) hcall

theorem DestroyBody.mono (h : program'.DestroyBody lowered record fields ids)
    (hroutines : program'.autoDestroy = program.autoDestroy)
    (hsub : ∀ {id}, program.HasSymbol id → program'.HasSymbol id) :
    program.DestroyBody lowered record fields ids := by
  obtain ⟨last, parts, hids, hparts, hlast⟩ := h.statements
  rw [hroutines] at hparts
  exact ⟨last, parts, hids, hparts.imp fun _ _ hpart ↦ hpart.mono hsub, hlast⟩

end Program

/-! ### What is emitted -/

section

variable {program : Program} {cursor : Cursor} {record result : SymId} {position : Nat}
variable {type : TypeId} {fields : List FieldDef}

theorem appends_emitFieldRead :
    Appends cursor.block program (emitFieldRead cursor record position type)
      (fun value final ↦ final.HasSymbol value)
      fun value lowered ids ↦ program.ReadsField lowered record position value ids := by
  unfold emitFieldRead
  refine appends_fresh.bind fun value first hfirst hvalue ↦ ?_
  refine appends_emit.bind fun read second hsecond _ ↦ .pure (hsecond.symbol hvalue).1 ?_
  rintro lowered - _ ⟨rfl, hread⟩ _ ⟨htemporary, -, declare, rfl, hdeclare⟩
  exact ⟨htemporary, declare, read, rfl, hdeclare, hread⟩

theorem appends_emitFieldDuplicate :
    Appends cursor.block program (emitFieldDuplicate cursor record result position type)
      (fun _ _ ↦ True)
      fun _ lowered ids ↦ program.Duplicates lowered record result position
        (program.autoCopy.find? type) ids := by
  unfold emitFieldDuplicate
  refine appends_emitFieldRead.bind fun value first hfirst hvalue ↦ .get_bind ?_
  rw [hfirst.autoCopy]
  split
  next routine hroutine =>
    refine appends_fresh.bind fun copied second hsecond hcopied ↦ ?_
    refine appends_emit.bind fun call third hthird _ ↦ ?_
    refine appends_emit.bind fun write fourth hfourth _ ↦ .pure trivial ?_
    rintro lowered - _ ⟨rfl, hwrite⟩ _ ⟨rfl, hcall⟩ _ ⟨hcopied', -, declare, rfl, hdeclare⟩ reads
      hread
    rw [hroutine]
    refine .copied hread (hcopied'.mono fun h ↦ (hfirst.symbol h).1) ?_ hdeclare hcall hwrite
    rintro rfl
    exact hcopied'.new hvalue
  next hroutine =>
    refine appends_emit.bind fun write second hsecond _ ↦ .pure trivial ?_
    rintro lowered - _ ⟨rfl, hwrite⟩ reads hread
    rw [hroutine]
    exact .shared hread hwrite

theorem appends_emitFieldDestroy :
    Appends cursor.block program (emitFieldDestroy cursor record position type) (fun _ _ ↦ True)
      fun _ lowered ids ↦ program.Destroys lowered record position
        (program.autoDestroy.find? type) ids := by
  unfold emitFieldDestroy
  refine .get_bind ?_
  split
  next routine hroutine =>
    refine appends_emitFieldRead.bind fun value first hfirst hvalue ↦ ?_
    refine appends_emit.bind fun call second hsecond _ ↦ .pure trivial ?_
    rintro lowered - _ ⟨rfl, hcall⟩ reads hread
    rw [hroutine]
    exact .destroyed hread hcall
  next hroutine =>
    rw [hroutine]
    exact .pure trivial fun _ _ ↦ .skipped

/-- The part of a copy routine that is emitted once the result and the block are there. -/
def emitCopy (cursor : Cursor) (record result : SymId) (fields : List FieldDef) : Build Unit := do
  let _ ← cursor.define result
  fields.zipIdx.forM fun (field, position) =>
    emitFieldDuplicate cursor record result position field.type
  let _ ← cursor.ret (.sym result)

/-- The part of a destroy routine that is emitted once the block is there. -/
def emitDestroy (cursor : Cursor) (record : SymId) (fields : List FieldDef) : Build Unit := do
  fields.zipIdx.forM fun (field, position) => emitFieldDestroy cursor record position field.type
  let _ ← cursor.ret .void

theorem appends_emitCopy :
    Appends cursor.block program (emitCopy cursor record result fields) (fun _ _ ↦ True)
      fun _ lowered ids ↦ program.CopyBody lowered record result fields ids := by
  have hstep (item : FieldDef × Nat) (middle : Program)
      (hmiddle : program.Emits cursor.block middle) :
      Appends cursor.block middle (emitFieldDuplicate cursor record result item.2 item.1.type)
        (fun _ _ ↦ True)
        fun _ lowered ids ↦ program.Duplicates lowered record result item.2
          (program.autoCopy.find? item.1.type) ids := by
    refine appends_emitFieldDuplicate.mono fun _ _ ids h ↦ ?_
    rw [hmiddle.autoCopy] at h
    exact h.mono fun h ↦ (hmiddle.symbol h).1
  unfold emitCopy
  refine appends_emit.bind fun declare first hfirst _ ↦ ?_
  refine (Appends.forM fun item _ middle hmiddle ↦
    hstep item middle (hfirst.inside hmiddle (.inr rfl))).bind fun _ second hsecond _ ↦ ?_
  refine appends_emit.bind fun last third hthird _ ↦ .pure trivial ?_
  rintro lowered - _ ⟨rfl, hlast⟩ _ ⟨parts, rfl, hparts⟩ _ ⟨rfl, hdeclare⟩
  exact ⟨declare, last, parts, rfl, hdeclare, hparts, hlast⟩

theorem appends_emitDestroy :
    Appends cursor.block program (emitDestroy cursor record fields) (fun _ _ ↦ True)
      fun _ lowered ids ↦ program.DestroyBody lowered record fields ids := by
  have hstep (item : FieldDef × Nat) (middle : Program)
      (hmiddle : program.Emits cursor.block middle) :
      Appends cursor.block middle (emitFieldDestroy cursor record item.2 item.1.type)
        (fun _ _ ↦ True)
        fun _ lowered ids ↦ program.Destroys lowered record item.2
          (program.autoDestroy.find? item.1.type) ids := by
    refine appends_emitFieldDestroy.mono fun _ _ ids h ↦ ?_
    rw [hmiddle.autoDestroy] at h
    exact h.mono fun h ↦ (hmiddle.symbol h).1
  unfold emitDestroy
  refine (Appends.forM fun item _ middle hmiddle ↦ hstep item middle hmiddle).bind
    fun _ first hfirst _ ↦ ?_
  refine appends_emit.bind fun last second hsecond _ ↦ .pure trivial ?_
  rintro lowered - _ ⟨rfl, hlast⟩ _ ⟨parts, rfl, hparts⟩
  exact ⟨last, parts, rfl, hparts, hlast⟩

end

/-! ### Exchanging bodies -/

namespace Program

/-- The bodies of some functions were exchanged. Otherwise statements and symbols were added, and no
more. -/
structure Rebodies (changed : List FnId) (program final : Program) : Prop where
  types : final.types = program.types
  autoCopy : final.autoCopy = program.autoCopy
  autoDestroy : final.autoDestroy = program.autoDestroy
  functions : final.functions.size = program.functions.size
  symbol : ∀ {id}, program.HasSymbol id →
    final.HasSymbol id ∧ final.symbol id = program.symbol id
  kind : ∀ {id}, program.Has id → final.Has id ∧ final.kind id = program.kind id
  function : ∀ id, final.function id = { program.function id with body := final.bodyOf id }
  body : ∀ {id}, id ∉ changed → final.bodyOf id = program.bodyOf id

namespace Rebodies

variable {program middle final lowered : Program} {changed changed' : List FnId}

theorem refl (program : Program) : program.Rebodies [] program :=
  ⟨rfl, rfl, rfl, rfl, fun h ↦ ⟨h, rfl⟩, fun h ↦ ⟨h, rfl⟩, fun _ ↦ rfl, fun _ ↦ rfl⟩

theorem trans (first : program.Rebodies changed middle)
    (second : middle.Rebodies changed' final) :
    program.Rebodies (changed ++ changed') final where
  types := second.types.trans first.types
  autoCopy := second.autoCopy.trans first.autoCopy
  autoDestroy := second.autoDestroy.trans first.autoDestroy
  functions := second.functions.trans first.functions
  symbol h := by
    obtain ⟨hmiddle, hsame⟩ := first.symbol h
    obtain ⟨hfinal, hsame'⟩ := second.symbol hmiddle
    exact ⟨hfinal, hsame'.trans hsame⟩
  kind h := by
    obtain ⟨hmiddle, hsame⟩ := first.kind h
    obtain ⟨hfinal, hsame'⟩ := second.kind hmiddle
    exact ⟨hfinal, hsame'.trans hsame⟩
  function id := by rw [second.function id, first.function id]
  body hnot := by
    rw [List.mem_append, not_or] at hnot
    rw [second.body hnot.2, first.body hnot.1]

theorem mono (h : program.Rebodies changed final) (hsub : changed ⊆ changed') :
    program.Rebodies changed' final :=
  { h with body := fun hnot ↦ h.body fun hmem ↦ hnot (hsub hmem) }

/-- Emitting into a new block exchanges no body. -/
theorem of_emits {block : StmtId} (h : program.Emits block final) (hnew : ¬ program.Has block) :
    program.Rebodies [] final where
  types := h.types
  autoCopy := h.autoCopy
  autoDestroy := h.autoDestroy
  functions := by rw [h.functions]
  symbol := h.symbol
  kind hid := ⟨(h.kind hid).1, (h.kind hid).2 fun heq ↦ hnew (heq ▸ hid)⟩
  function id := by rw [bodyOf, h.function]
  body _ := h.extends.bodyOf _

/-- Exchanging bodies leaves all statements as they are. -/
theorem spares {fixed : StmtId → Prop} (h : program.Rebodies changed final)
    (hspares : final.Spares fixed lowered) : program.Spares fixed lowered where
  types := hspares.types.trans h.types
  retType id := by rw [hspares.retType, h.function]
  symbol hid := (hspares.symbol (h.symbol hid).1).trans (h.symbol hid).2
  kind hid hfixed := (hspares.kind (h.kind hid).1 hfixed).trans (h.kind hid).2

theorem hasFunction_iff {id : FnId} (h : program.Rebodies changed final) :
    final.HasFunction id ↔ program.HasFunction id := by
  rw [HasFunction, HasFunction, h.functions]

theorem symbolType {id : SymId} (h : program.Rebodies changed final) (hid : program.HasSymbol id) :
    final.symbolType id = program.symbolType id :=
  congrArg Symbol.type (h.symbol hid).2

theorem type (h : program.Rebodies changed final) (id : TypeId) :
    final.type id = program.type id := by
  rw [Program.type, Program.type, h.types]

theorem valueType (h : program.Rebodies changed final) (id : TypeId) :
    final.valueType id = program.valueType id := by
  simp only [Program.valueType, h.type]

end Rebodies

/-- A function has a new body of a shape, in all programs that leave the new statements alone. -/
structure Rebodied (program final : Program) (function : FnId)
    (shape : Program → List StmtId → Prop) : Prop where
  body : ∃ ids, final.kind (final.bodyOf function) = .plain ids ∧
    ∀ {lowered}, final.Spares (fun id ↦ ¬ program.Has id) lowered → shape lowered ids

namespace Rebodied

variable {program middle final lowered : Program} {changed : List FnId} {function : FnId}
variable {shape shape' : Program → List StmtId → Prop}

/-- A new body stays while those of other functions are exchanged. -/
theorem later (h : program.Rebodied middle function shape)
    (hrebodies : middle.Rebodies changed final) (hnot : function ∉ changed) :
    program.Rebodied final function shape := by
  obtain ⟨ids, hkind, hshape⟩ := h.body
  refine ⟨ids, ?_, fun hspares ↦ hshape (hrebodies.spares hspares)⟩
  rw [hrebodies.body hnot, (hrebodies.kind (has_of_kind_block hkind)).2, hkind]

/-- What a new body is like does not depend on the bodies that were exchanged before. -/
theorem earlier (h : middle.Rebodied final function shape)
    (hrebodies : program.Rebodies changed middle)
    (hshape : ∀ {lowered ids}, shape lowered ids → shape' lowered ids) :
    program.Rebodied final function shape' := by
  obtain ⟨ids, hkind, hids⟩ := h.body
  exact ⟨ids, hkind, fun hspares ↦
    hshape (hids (hspares.mono (mt fun h ↦ (hrebodies.kind h).1)))⟩

end Rebodied

/-- A statement that stands nowhere becomes a body without leaving a list. -/
theorem TakesOverBody.rebodies {program final : Program} {function : FnId} {new : StmtId}
    (h : program.TakesOverBody (program.bodyOf function) new function final)
    (hunlinks : program.Unlinks [new] program) : program.Rebodies [function] final := by
  obtain ⟨statements, functions, hsize, harenas⟩ := h.arenas
  refine ⟨by rw [harenas], by rw [harenas], by rw [harenas], by rw [harenas, hsize], fun hid ↦ ?_,
    fun {id} hid ↦ ?_, fun id ↦ ?_, fun {id} hnot ↦ ?_⟩
  · rw [harenas]
    exact ⟨hid, rfl⟩
  · refine ⟨?_, ?_⟩
    · rw [Has, h.size]
      exact hid
    · rw [Program.kind, h.stmt hid]
      exact hunlinks.kind_eq.symm
  · rw [bodyOf, h.function id]
  · rw [bodyOf, h.function id]
    exact if_neg fun heq ↦ hnot (List.mem_singleton.mpr heq)

/-- The body of a function is exchanged for a block that stands nowhere. -/
theorem rebodies_replace {program : Program} {function : FnId} {new : StmtId}
    (hlinked : program.WellLinked) (hfunction : program.HasFunction function)
    (hnew : program.parent new = none) :
    Ensures (Edit.replace (program.bodyOf function) new) program (fun _ ↦ True) fun _ final ↦
      program.Rebodies [function] final ∧ final.bodyOf function = new := by
  have hunlinks : program.Unlinks [new] program :=
    hlinked.unlinks_of_parent (by simpa using hnew)
  have htakes := @Unlinks.takesOverBody program program (program.bodyOf function) new function
    hunlinks hfunction
  have hrun := Edit.replace_of_owner (Edit.detach_of_free hnew) (hlinked.parent_body hfunction)
    (hlinked.bodyOf_body hfunction)
  unfold Ensures
  simp only [Runs.run, hrun]
  refine ⟨trivial, fun _ _ ↦ ⟨htakes.rebodies hunlinks, ?_⟩⟩
  rw [bodyOf, htakes.function function]
  exact if_pos rfl

/-! ### The pass -/

/-- The fields of the record that a variable holds or refers to. -/
def recordFields (program : Program) (record : SymId) : List FieldDef :=
  (program.type (program.valueType (program.symbolType record))).fields

/-- A function has one formal, which holds or refers to an iterator record. -/
structure HandlesRecord (program : Program) (function : FnId) (record : SymId) : Prop where
  formals : (program.function function).formals = [record]
  iteratorRecord :
    (program.type (program.valueType (program.symbolType record))).flags.iteratorRecord = true

/-- The variable that a copy routine returns: its return symbol or, where it has none, a new
variable of its type. -/
inductive ResultOf (program known lowered : Program) (function : FnId) (result : SymId) : Prop
  | given (hresult : (program.function function).retSym = some result)
  | made (hnone : (program.function function).retSym = none) (hnew : ¬ program.HasSymbol result)
      (hknown : known.HasSymbol result)
      (htype : lowered.symbolType result = (program.function function).retType)
      (hlabel : (lowered.symbol result).isLabel = false)

/-- The body that a copy routine gets. The variables of the program and the result are known before
its own variables are made. -/
structure CopyRoutine (program lowered : Program) (function : FnId) (record : SymId)
    (ids : List StmtId) : Prop where
  body : ∃ known result, program.ResultOf known lowered function result ∧
    (∀ {id}, program.HasSymbol id → known.HasSymbol id) ∧ known.autoCopy = program.autoCopy ∧
      known.CopyBody lowered record result (program.recordFields record) ids

variable {program middle final lowered known : Program} {changed : List FnId} {function : FnId}
variable {record result : SymId} {ids : List StmtId}

namespace Rebodies

theorem recordFields (h : program.Rebodies changed middle) (hrecord : program.HasSymbol record) :
    middle.recordFields record = program.recordFields record := by
  rw [Program.recordFields, h.symbolType hrecord, h.valueType, h.type, Program.recordFields]

theorem handlesRecord (h : program.Rebodies changed middle) (hrecord : program.HasSymbol record)
    (hhandles : program.HandlesRecord function record) : middle.HandlesRecord function record where
  formals := by rw [h.function, hhandles.formals]
  iteratorRecord := by
    rw [h.symbolType hrecord, h.valueType, h.type, hhandles.iteratorRecord]

/-- The body that a routine gets does not depend on what other routines got before. -/
theorem copyRoutine (h : program.Rebodies changed middle) (hrecord : program.HasSymbol record)
    (hroutine : middle.CopyRoutine lowered function record ids) :
    program.CopyRoutine lowered function record ids := by
  obtain ⟨known, result, hresult, hsub, hcopy, hbody⟩ := hroutine.body
  rw [h.recordFields hrecord] at hbody
  refine ⟨known, result, ?_, fun hid ↦ hsub (h.symbol hid).1, hcopy.trans h.autoCopy, hbody⟩
  cases hresult with
  | given hgiven => exact .given (by rw [← hgiven, h.function])
  | made hnone hnew hknown htype hlabel =>
    rw [h.function] at hnone htype
    exact .made hnone (fun hid ↦ hnew (h.symbol hid).1) hknown htype hlabel

theorem destroyBody (h : program.Rebodies changed middle) (hrecord : program.HasSymbol record)
    (hbody : middle.DestroyBody lowered record (middle.recordFields record) ids) :
    program.DestroyBody lowered record (program.recordFields record) ids := by
  rw [h.recordFields hrecord] at hbody
  exact hbody.mono h.autoDestroy fun hid ↦ (h.symbol hid).1

end Rebodies

end Program

/-- The part of a routine's body that is made in a new block. -/
def emitIntoScratch (function : FnId) (emission : Cursor → Build Unit) : Build StmtId := do
  let block ← modifyGet Program.newScratch
  let cursor : Cursor := { function, block, span := ((← get).function function).span }
  emission cursor
  return block

theorem copyBody_eq (function : FnId) (record : SymId) (fields : List FieldDef) :
    copyBody function record fields = (do
      let result ← resultSymbol function
      emitIntoScratch function fun cursor => emitCopy cursor record result fields) :=
  rfl

theorem destroyBody_eq (function : FnId) (record : SymId) (fields : List FieldDef) :
    destroyBody function record fields =
      emitIntoScratch function fun cursor => emitDestroy cursor record fields :=
  rfl

section

variable {program : Program} {function : FnId} {record result : SymId} {cursor : Cursor}
variable {fields : List FieldDef} {scope : Scope} {shape : Program → List StmtId → Prop}

theorem stays_emitCopy (hfit : scope.Fits program) :
    Stays scope program (emitCopy cursor record result fields) := by
  unfold emitCopy
  refine hfit.seq (Cursor.stays_define hfit) fun _ _ hfit ↦ ?_
  refine hfit.seq (hfit.forM fun _ _ _ hfit ↦ stays_emitFieldDuplicate hfit) fun _ _ hfit ↦ ?_
  exact (Cursor.stays_ret hfit).ignore

theorem stays_emitDestroy (hfit : scope.Fits program) :
    Stays scope program (emitDestroy cursor record fields) := by
  unfold emitDestroy
  refine hfit.seq (hfit.forM fun _ _ _ hfit ↦ stays_emitFieldDestroy hfit) fun _ _ hfit ↦ ?_
  exact (Cursor.stays_ret hfit).ignore

/-- A detached block for a body is made, in which the statements of the body are. -/
structure Program.MakesBody (program final : Program) (shape : Program → List StmtId → Prop)
    (block : StmtId) : Prop where
  wellLinked : final.WellLinked
  rebodies : program.Rebodies [] final
  free : final.parent block = none
  body : ∃ ids, final.kind block = .plain ids ∧
    ∀ {lowered}, final.Spares (fun id ↦ ¬ program.Has id) lowered → shape lowered ids

theorem makesBody_emitIntoScratch {emission : Cursor → Build Unit} (hlinked : program.WellLinked)
    (happends : ∀ cursor, Appends cursor.block program.newScratch.2 (emission cursor)
      (fun _ _ ↦ True) fun _ lowered ids ↦ shape lowered ids)
    (hstays : ∀ {cursor scope}, scope.Fits program.newScratch.2 →
      Stays scope program.newScratch.2 (emission cursor)) :
    Ensures (emitIntoScratch function emission) program (fun _ ↦ True) fun block final ↦
      program.MakesBody final shape block := by
  unfold emitIntoScratch
  refine ensures_modifyGet_bind.mpr (ensures_get_bind.mpr ?_)
  have hblock : program.newScratch.1 = program.nextStmt := newStmt_fst ..
  rw [hblock]
  have hscratch : program.Emits program.nextStmt program.newScratch.2 :=
    .newStmt _ program (.plain []) .none
  have hempty : program.newScratch.2.kind program.nextStmt = .plain [] :=
    (program.kind_newStmt (.plain []) .none _).trans (if_pos rfl)
  have hhas := has_of_kind_block hempty
  have hdetached : program.newScratch.2.Detached program.nextStmt :=
    WellLinked.detached_newStmt program .none nofun
  have hfit : (Scope.fresh program.newScratch.2).Fits program.newScratch.2 :=
    Scope.fits_fresh (hlinked.newStmt .none nofun .nil)
  have hemits := (happends ⟨function, program.nextStmt,
    (program.newScratch.2.function function).span⟩).emits hempty
  have hall := (hemits.tagged.and (hstays hfit).tagged).mono (fun _ _ ↦ trivial) fun _ _ _ h ↦ h
  refine hall.bind ?_
  rintro _ final - ⟨⟨hmade, -, ids, hids, hshape⟩, hreworks, -⟩
  have hemitted := hscratch.inside hmade (.inr rfl)
  refine .pure trivial ⟨hreworks.wellLinked hfit.wellLinked,
    .of_emits hemitted program.not_has_nextStmt, ?_, ids, hids,
    fun hspares ↦ hshape (hspares.mono (mt fun h ↦ (hscratch.kind h).1))⟩
  have hplace := hreworks.place hhas (by rw [hempty]; rfl) (fun hmoved ↦ hmoved hhas)
  exact hplace.1.trans hdetached.parent

/-- A result symbol that is new is known before the routine's own variables are made. -/
theorem resultOf_resultSymbol :
    Ensures (resultSymbol function) program (fun _ ↦ True) fun result known ↦
      program.Rebodies [] known ∧ (program.WellLinked → known.WellLinked) ∧
        ∀ {lowered}, (∀ {id}, known.HasSymbol id → lowered.symbol id = known.symbol id) →
          program.ResultOf known lowered function result := by
  unfold resultSymbol
  refine ensures_get_bind.mpr ?_
  dsimp only
  split
  next result hresult =>
    exact .pure trivial ⟨.refl program, fun h ↦ h, fun _ ↦ .given hresult⟩
  next hnone =>
    refine ensures_modifyGet.mpr ⟨trivial, ?_, ?_, fun hsame ↦ ?_⟩
    · exact .of_emits (.addSymbol program.nextStmt program _) program.not_has_nextStmt
    · have hreworks : program.Reworks Scope.everything
          (program.newLocal function "_ret" (program.function function).retType).2 := .addSymbol _
      exact hreworks.wellLinked
    · have hmade := program.introduces_newLocal function "_ret" (program.function function).retType
      exact .made hnone hmade.new hmade.has
        ((congrArg Symbol.type (hsame hmade.has)).trans hmade.type)
        (by rw [hsame hmade.has, hmade.notLabel])

theorem Program.ResultOf.mono {known known' lowered : Program}
    (h : program.ResultOf known lowered function result)
    (hsub : ∀ {id}, known.HasSymbol id → known'.HasSymbol id) :
    program.ResultOf known' lowered function result := by
  cases h with
  | given hresult => exact .given hresult
  | made hnone hnew hknown htype hlabel => exact .made hnone hnew (hsub hknown) htype hlabel

theorem makesBody_copyBody (hlinked : program.WellLinked) :
    Ensures (copyBody function record (program.recordFields record)) program (fun _ ↦ True)
      fun block final ↦ program.MakesBody final
        (fun lowered ids ↦ program.CopyRoutine lowered function record ids) block := by
  rw [copyBody_eq]
  refine resultOf_resultSymbol.bind fun result known _ ⟨hfirst, hknown, hresult⟩ ↦ ?_
  have hscratch : known.Emits known.nextStmt known.newScratch.2 :=
    .newStmt _ known (.plain []) .none
  refine (makesBody_emitIntoScratch (hknown hlinked) (fun _ ↦ appends_emitCopy)
    fun hfit ↦ stays_emitCopy hfit).mono (fun _ h ↦ h) ?_
  rintro block final - hmade
  obtain ⟨ids, hids, hshape⟩ := hmade.body
  refine ⟨hmade.wellLinked, hfirst.trans hmade.rebodies, hmade.free, ids, hids, fun hspares ↦ ?_⟩
  have hbody := hshape (hspares.mono (mt fun h ↦ (hfirst.kind h).1))
  refine ⟨_, result, (hresult fun hid ↦ ?_).mono fun hid ↦ (hscratch.symbol hid).1,
    fun hid ↦ (hscratch.symbol (hfirst.symbol hid).1).1,
    hscratch.autoCopy.trans hfirst.autoCopy, hbody⟩
  rw [hspares.symbol (hmade.rebodies.symbol hid).1, (hmade.rebodies.symbol hid).2]

theorem makesBody_destroyBody (hlinked : program.WellLinked) :
    Ensures (destroyBody function record fields) program (fun _ ↦ True)
      fun block final ↦ program.MakesBody final
        (fun lowered ids ↦ program.DestroyBody lowered record fields ids) block := by
  rw [destroyBody_eq]
  have hscratch : program.Emits program.nextStmt program.newScratch.2 :=
    .newStmt _ program (.plain []) .none
  refine makesBody_emitIntoScratch hlinked (fun cursor ↦ appends_emitDestroy.mono fun _ _ _ h ↦ ?_)
    fun hfit ↦ stays_emitDestroy hfit
  exact h.mono hscratch.autoDestroy fun hid ↦ (hscratch.symbol hid).1

/-- A body that was made takes the place of the old one. -/
theorem rebodied_exchange {make : Build StmtId} {count : Nat}
    (hfunction : program.HasFunction function)
    (hmake : Ensures make program (fun _ ↦ True) fun block final ↦
      program.MakesBody final shape block) :
    Ensures (do
      let body ← make
      Edit.replace (program.bodyOf function) body
      return count + 1 : Pass Nat) program (fun _ ↦ True) fun _ final ↦
        program.Rebodies [function] final ∧ program.Rebodied final function shape := by
  refine hmake.build.bind fun block middle _ hmade ↦ ?_
  have hbody : middle.bodyOf function = program.bodyOf function :=
    hmade.rebodies.body List.not_mem_nil
  obtain ⟨ids, hids, hshape⟩ := hmade.body
  rw [← hbody]
  refine (rebodies_replace hmade.wellLinked (hmade.rebodies.hasFunction_iff.mpr hfunction)
    hmade.free).edit.bind ?_
  rintro _ final - ⟨hrebodies, hnew⟩
  refine .pure trivial ⟨hmade.rebodies.trans hrebodies, ids, ?_, fun hspares ↦ ?_⟩
  · rw [hnew, (hrebodies.kind (has_of_kind_block hids)).2, hids]
  · exact hshape (hrebodies.spares hspares)

/-- A routine of a record has a new body. -/
structure Program.Rebuilt (program final : Program) (function : FnId) : Prop where
  copies : ∀ {record}, program.HandlesRecord function record →
    (program.function function).flags.autoCopy = true →
      program.Rebodied final function fun lowered ids ↦
        program.CopyRoutine lowered function record ids
  destroys : ∀ {record}, program.HandlesRecord function record →
    (program.function function).flags.autoCopy = false →
      (program.function function).flags.autoDestroy = true →
        program.Rebodied final function fun lowered ids ↦
          program.DestroyBody lowered record (program.recordFields record) ids

theorem Program.HandlesRecord.record_eq {record' : SymId}
    (h : program.HandlesRecord function record')
    (hformals : (program.function function).formals = [record]) : record' = record := by
  rw [h.formals] at hformals
  exact List.head_eq_of_cons_eq hformals

theorem rebuilt_rebuildRoutine {count : Nat} (hlinked : program.WellLinked)
    (hfunction : program.HasFunction function) :
    Ensures (rebuildRoutine count function) program (fun _ ↦ True) fun _ final ↦
      program.Rebodies [function] final ∧ program.Rebuilt final function := by
  unfold rebuildRoutine
  refine ensures_get_bind.mpr ?_
  dsimp only
  split
  next record hformals =>
    split
    next hcopy =>
      rw [Bool.and_eq_true] at hcopy
      refine (rebodied_exchange hfunction (makesBody_copyBody hlinked)).mono (fun _ h ↦ h) ?_
      rintro _ final - ⟨hrebodies, hbody⟩
      refine ⟨hrebodies, fun {record'} hhandles _ ↦ ?_, fun _ hnot ↦ ?_⟩
      · exact hhandles.record_eq hformals ▸ hbody
      · rw [hcopy.2] at hnot
        cases hnot
    next hcopy =>
      split
      next hdestroy =>
        rw [Bool.and_eq_true] at hdestroy
        refine (rebodied_exchange hfunction (makesBody_destroyBody hlinked)).mono (fun _ h ↦ h) ?_
        rintro _ final - ⟨hrebodies, hbody⟩
        refine ⟨hrebodies, fun {record'} hhandles hyes ↦ ?_, fun {record'} hhandles _ _ ↦ ?_⟩
        · rw [hdestroy.1, hyes] at hcopy
          exact (hcopy rfl).elim
        · exact hhandles.record_eq hformals ▸ hbody
      next hdestroy =>
        refine .pure trivial ⟨(Rebodies.refl program).mono (List.nil_subset _),
          fun {record'} hhandles hyes ↦ ?_, fun {record'} hhandles _ hyes ↦ ?_⟩
        · rw [← hhandles.record_eq hformals, hhandles.iteratorRecord, hyes] at hcopy
          exact (hcopy rfl).elim
        · rw [← hhandles.record_eq hformals, hhandles.iteratorRecord, hyes] at hdestroy
          exact (hdestroy rfl).elim
  next hformals =>
    exact .pure trivial ⟨(Rebodies.refl program).mono (List.nil_subset _),
      fun {record} hhandles _ ↦ (hformals record hhandles.formals).elim,
      fun {record} hhandles _ _ ↦ (hformals record hhandles.formals).elim⟩

namespace Program

variable {middle final : Program} {changed : List FnId}

theorem Rebodies.hasFormals (h : program.Rebodies changed middle) (hformals : program.HasFormals) :
    middle.HasFormals := by
  intro function formal hformal
  rw [h.function] at hformal
  exact (h.symbol (hformals function formal hformal)).1

/-- What became of a routine does not depend on the routines before it. -/
theorem Rebuilt.earlier (h : middle.Rebuilt final function)
    (hrebodies : program.Rebodies changed middle) (hformals : program.HasFormals) :
    program.Rebuilt final function := by
  have hrecord {record : SymId} (hhandles : program.HandlesRecord function record) :
      program.HasSymbol record := by
    refine hformals function record ?_
    rw [hhandles.formals]
    exact List.mem_singleton_self record
  have hflags : (middle.function function).flags = (program.function function).flags := by
    rw [hrebodies.function]
  refine ⟨fun hhandles hcopy ↦ ?_, fun hhandles hcopy hdestroy ↦ ?_⟩
  · have hhas := hrecord hhandles
    exact (h.copies (hrebodies.handlesRecord hhas hhandles) (hflags ▸ hcopy)).earlier hrebodies
      fun hroutine ↦ hrebodies.copyRoutine hhas hroutine
  · have hhas := hrecord hhandles
    exact (h.destroys (hrebodies.handlesRecord hhas hhandles) (hflags ▸ hcopy)
      (hflags ▸ hdestroy)).earlier hrebodies fun hbody ↦ hrebodies.destroyBody hhas hbody

/-- What became of a routine stays while others are rebuilt. -/
theorem Rebuilt.later (h : program.Rebuilt middle function)
    (hrebodies : middle.Rebodies changed final) (hnot : function ∉ changed) :
    program.Rebuilt final function :=
  ⟨fun hhandles hcopy ↦ (h.copies hhandles hcopy).later hrebodies hnot,
    fun hhandles hcopy hdestroy ↦ (h.destroys hhandles hcopy hdestroy).later hrebodies hnot⟩

end Program

/-- All routines are rebuilt, one after the other. -/
theorem rebuilt_foldlM {functions : List FnId} {count : Nat} (hlinked : program.WellLinked)
    (hformals : program.HasFormals) (hfunctions : ∀ id ∈ functions, program.HasFunction id)
    (hnodup : functions.Nodup) :
    Ensures (functions.foldlM rebuildRoutine count) program (fun _ ↦ True) fun _ final ↦
      program.Rebodies functions final ∧ ∀ id ∈ functions, program.Rebuilt final id := by
  induction functions generalizing program count with
  | nil => exact .pure trivial ⟨.refl program, nofun⟩
  | cons function rest ih =>
    rw [List.forall_mem_cons] at hfunctions
    obtain ⟨hnot, hnodup⟩ := List.nodup_cons.mp hnodup
    rw [List.foldlM_cons]
    have hstep := (@rebuilt_rebuildRoutine program function count hlinked hfunctions.1).and
      (ensures_rebuildRoutine (.everything hlinked)).tagged
    refine (hstep.mono (fun _ _ ↦ trivial) fun _ _ _ h ↦ h).bind ?_
    rintro value middle - ⟨⟨hrebodies, hrebuilt⟩, hreworks, -⟩
    refine (ih (hreworks.wellLinked hlinked) (hrebodies.hasFormals hformals)
      (fun id hid ↦ hrebodies.hasFunction_iff.mpr (hfunctions.2 id hid)) hnodup).mono
      (fun _ h ↦ h) ?_
    rintro _ final - ⟨hrest, hall⟩
    refine ⟨hrebodies.trans hrest, List.forall_mem_cons.mpr ⟨hrebuilt.later hrest hnot, ?_⟩⟩
    exact fun id hid ↦ (hall id hid).earlier hrebodies hformals

/-- Every copy and destroy routine of an iterator record has a new body when the pass is done, and
nothing else has changed. -/
theorem rebuilt_rebuildRoutines {count : Nat} {final : Program} (hlinked : program.WellLinked)
    (hformals : program.HasFormals) (hrun : rebuildRoutines program = .ok count final) :
    program.Rebodies program.functionIds final ∧
      ∀ {id}, program.HasFunction id → program.Rebuilt final id := by
  have hpass : Ensures rebuildRoutines program (fun _ ↦ True) _ :=
    ensures_get_bind.mpr (rebuilt_foldlM hlinked hformals (fun _ ↦ mem_functionIds.mp)
      program.nodup_functionIds)
  obtain ⟨-, hrebodies, hall⟩ := hpass.of_eq_ok hrun
  exact ⟨hrebodies, fun hid ↦ hall _ (mem_functionIds.mpr hid)⟩

end

end IteratorLowering
