import IteratorLowering.Proofs.Instance.RoutineBodies
import IteratorLowering.Proofs.Instance.RoutineStates

/-!
# Running copy and destroy routines

A rebuilt routine runs, for each field whose type has one, the routine registered for it on what it
read, and nothing else in between (`Eval.VisitsFields`).
-/

set_option autoImplicit false
set_option relaxedAutoImplicit false

namespace IteratorLowering

namespace Eval

open Machine

/-! ### Outcomes -/

/-- What a routine is about: what is its own, the value that it is called on and the record that
this leads to, what is registered for the types of fields, and what it returns when it is done with
the values of all fields. -/
structure Tour where
  hidden : Hidden
  argument : Value
  source : ObjId
  registered : TypeId → Option FnId
  returns : List Value → Machine → Value → Prop

/-- The fields of a record are visited in order. What is registered for a field is run once on what
the field holds, and the run ends as that does if it fails. Nothing is said of what comes after a
registered routine that made the argument lead elsewhere. -/
inductive VisitsFields (lowered : Program) (limits : Limits) (tour : Tour) :
    List (FieldDef × Nat) → List Value → Machine →
      EStateM.Result EvalError Machine Flow → Prop
  | spent {fields : List (FieldDef × Nat)} {done : List Value} {now last : Machine}
      (hlast : now.Within tour.hidden last) (hsteps : limits.maxSteps < last.steps) :
      VisitsFields lowered limits tour fields done now (.error (.stepLimit limits.maxSteps) last)
  | without {field : FieldDef} {position : Nat} {rest : List (FieldDef × Nat)} {done : List Value}
      {now before : Machine} {ended : EStateM.Result EvalError Machine Flow}
      (hroutine : tour.registered field.type = none) (hbefore : now.Within tour.hidden before)
      (hrest : VisitsFields lowered limits tour rest
        (done ++ [before.fieldValue tour.source position]) before ended) :
      VisitsFields lowered limits tour ((field, position) :: rest) done now ended
  | failed {field : FieldDef} {position : Nat} {rest : List (FieldDef × Nat)} {done : List Value}
      {now before last : Machine} {callee : FnId} {error : EvalError}
      (hroutine : tour.registered field.type = some callee)
      (hbefore : now.Within tour.hidden before)
      (hcall : before.run lowered limits callee [before.fieldValue tour.source position] =
        .error error last) :
      VisitsFields lowered limits tour ((field, position) :: rest) done now (.error error last)
  | lost {field : FieldDef} {position : Nat} {rest : List (FieldDef × Nat)} {done : List Value}
      {now before after : Machine} {callee : FnId} {returned : Value}
      {ended : EStateM.Result EvalError Machine Flow}
      (hroutine : tour.registered field.type = some callee)
      (hbefore : now.Within tour.hidden before)
      (hcall : before.run lowered limits callee [before.fieldValue tour.source position] =
        .ok returned after)
      (hlost : ¬ after.Denotes lowered tour.source tour.argument) :
      VisitsFields lowered limits tour ((field, position) :: rest) done now ended
  | through {field : FieldDef} {position : Nat} {rest : List (FieldDef × Nat)} {done : List Value}
      {now before after : Machine} {callee : FnId} {returned : Value}
      {ended : EStateM.Result EvalError Machine Flow}
      (hroutine : tour.registered field.type = some callee)
      (hbefore : now.Within tour.hidden before)
      (hcall : before.run lowered limits callee [before.fieldValue tour.source position] =
        .ok returned after)
      (hrest : VisitsFields lowered limits tour rest (done ++ [returned]) after ended) :
      VisitsFields lowered limits tour ((field, position) :: rest) done now ended
  | finished {done : List Value} {now last : Machine} {value : Value}
      (hlast : now.Within tour.hidden last) (hreturns : tour.returns done last value) :
      VisitsFields lowered limits tour [] done now (.ok (.ret value) last)

variable {program lowered : Program} {limits : Limits} {tour : Tour} {frame fuel rounds : Nat}
variable {now middle : Machine} {fields : List (FieldDef × Nat)} {done : List Value}
variable {ended : EStateM.Result EvalError Machine Flow}
variable {goal : EStateM.Result EvalError Machine Flow → Prop}
variable {record result symbol : SymId} {position count : Nat} {value : Value}
variable {id : StmtId} {ids rest body : List StmtId}

theorem VisitsFields.after (hwithin : now.Within tour.hidden middle)
    (h : VisitsFields lowered limits tour fields done middle ended) :
    VisitsFields lowered limits tour fields done now ended := by
  cases h with
  | spent hlast hsteps => exact .spent (hwithin.trans hlast) hsteps
  | without hroutine hbefore hrest => exact .without hroutine (hwithin.trans hbefore) hrest
  | failed hroutine hbefore hcall => exact .failed hroutine (hwithin.trans hbefore) hcall
  | lost hroutine hbefore hcall hlost => exact .lost hroutine (hwithin.trans hbefore) hcall hlost
  | through hroutine hbefore hcall hrest =>
    exact .through hroutine (hwithin.trans hbefore) hcall hrest
  | finished hlast hreturns => exact .finished (hwithin.trans hlast) hreturns

/-- That the steps run out is allowed for. -/
theorem excuses_visits (hframe : tour.hidden.frame frame) :
    Excuses limits (fun _ ↦ True) frame now (VisitsFields lowered limits tour fields done now) :=
  ⟨fun hlast hsteps ↦ .spent (.of_aside hlast hframe) hsteps⟩

/-- A visit of an object that does not fail comes to its end, with a value for each field. -/
theorem VisitsFields.returns_of_ok {flow : Flow} {last : Machine}
    (h : VisitsFields lowered limits tour fields done now (.ok flow last))
    (hsource : tour.argument = .obj tour.source) :
    ∃ value values, flow = .ret value ∧ values.length = done.length + fields.length ∧
      tour.returns values last value := by
  generalize hended : EStateM.Result.ok flow last = ended at h
  induction h with
  | spent => cases hended
  | failed => cases hended
  | lost _ _ _ hlost => exact absurd (hsource ▸ Denotes.obj) hlost
  | finished _ hreturns =>
    cases hended
    exact ⟨_, _, rfl, rfl, hreturns⟩
  | without _ _ _ ih | through _ _ _ _ ih =>
    obtain ⟨value, values, hflow, hlength, hreturns⟩ := ih hended
    refine ⟨value, values, hflow, ?_, hreturns⟩
    rw [hlength, List.length_append, List.length_singleton, List.length_cons]
    omega

/-- A visit of an object fails only when the steps run out or a registered routine fails. -/
theorem VisitsFields.fails_of_error {error : EvalError} {last : Machine}
    (h : VisitsFields lowered limits tour fields done now (.error error last))
    (hsource : tour.argument = .obj tour.source) :
    (error = .stepLimit limits.maxSteps ∧ limits.maxSteps < last.steps) ∨
      ∃ field ∈ fields, ∃ (callee : FnId) (value : Value) (before : Machine),
        tour.registered field.1.type = some callee ∧
          before.run lowered limits callee [value] = .error error last := by
  generalize hended : EStateM.Result.error error last = ended at h
  induction h with
  | spent _ hsteps =>
    cases hended
    exact .inl ⟨rfl, hsteps⟩
  | failed hroutine _ hcall =>
    cases hended
    exact .inr ⟨_, List.mem_cons_self, _, _, _, hroutine, hcall⟩
  | lost _ _ _ hlost => exact absurd (hsource ▸ Denotes.obj) hlost
  | finished => cases hended
  | without _ _ _ ih | through _ _ _ _ ih =>
    refine (ih hended).imp_right ?_
    rintro ⟨field, hfield, hfails⟩
    exact ⟨field, List.mem_cons_of_mem _ hfield, hfails⟩

/-! ### Parts of a body -/

/-- A body is entered. -/
theorem visits_block (hframe : tour.hidden.frame frame) (hfuel : limits.Covers fuel now.steps)
    (hkind : lowered.kind id = .plain ids)
    (h : ∀ less, limits.Covers less (now.steps + 1) →
      VisitsFields lowered limits tour fields done { now with steps := now.steps + 1 }
        (runList lowered (execute lowered limits less frame) ids less ids
          { now with steps := now.steps + 1 })) :
    VisitsFields lowered limits tour fields done now
      (execute lowered limits fuel frame id now) :=
  (excuses_visits hframe).block (.refl _ frame now) hfuel hkind fun less hless ↦
    (h less hless).after (.of_aside (.tick (fun _ ↦ True) frame now) hframe)

section

variable (hgoal : Excuses limits (fun _ ↦ True) frame now goal)
variable (hready : now.Ready lowered tour.hidden frame record tour.argument tour.source count)
variable (hframe : tour.hidden.frame frame)
variable (hfuel : limits.Covers fuel now.steps) (hrounds : limits.Covers rounds now.steps)

include hgoal hready hframe hfuel hrounds

/-- A new variable is declared. -/
theorem excuses_declares (hlabel : (lowered.symbol symbol).isLabel = false) (hne : symbol ≠ record)
    (hkind : lowered.kind id = .action (.define symbol))
    (hrest : ∀ {bound rounds}, now.Aside (· = symbol) frame bound →
      bound.Ready lowered tour.hidden frame record tour.argument tour.source count →
        limits.Covers fuel bound.steps → limits.Covers rounds bound.steps →
          goal (runList lowered (execute lowered limits fuel frame) body rounds rest bound)) :
    goal (runList lowered (execute lowered limits fuel frame) body rounds (id :: rest) now) := by
  have hbound : Aside (· = symbol) frame { now with steps := now.steps + 1 } _ :=
    .declared lowered rfl
  exact hgoal.member (.refl _ frame now) hfuel hrounds hkind (fun _ _ ↦ action_define hlabel)
    hbound.steps fun _ ↦ hrest ((Aside.tick _ frame now).trans hbound)
      (hready.tick.declared hframe hne)

/-- A field of the record is read into a new variable. -/
theorem excuses_readsField (hread : program.ReadsField lowered record position symbol ids)
    (hrecord : program.HasSymbol record) (hposition : position < count)
    (hrest : ∀ {bound rounds}, now.Aside (· = symbol) frame bound →
      bound.Ready lowered tour.hidden frame record tour.argument tour.source count →
        bound.local? frame symbol = some (now.fieldValue tour.source position) →
          limits.Covers fuel bound.steps → limits.Covers rounds bound.steps →
            goal (runList lowered (execute lowered limits fuel frame) body rounds rest bound)) :
    goal (runList lowered (execute lowered limits fuel frame) body rounds (ids ++ rest) now) := by
  obtain ⟨htemporary, declare, read, rfl, hdeclare, hread⟩ := hread
  have hne : symbol ≠ record := fun heq ↦ htemporary.new (heq ▸ hrecord)
  refine excuses_declares hgoal hready hframe hfuel hrounds htemporary.notLabel hne hdeclare
    fun {bound rounds} hbound hready' hfuel hrounds ↦ ?_
  obtain ⟨held, hleads, hsize⟩ := hready'.tick.leadsTo
  have hsource (execute : Executor) : expression lowered limits execute frame
      (.fieldValue record (.index position)) { bound with steps := bound.steps + 1 } =
        .ok (now.fieldValue tour.source position) { bound with steps := bound.steps + 1 } := by
    have hkept := hready.fieldValue_aside (hbound.trans (.tick _ frame bound)) position
    rw [expression_fieldValue hleads (hsize ▸ hposition), ← hkept,
      fieldValue_of_getElem? hleads.held]
  refine hgoal.member (hbound.mono fun _ ↦ trivial) hfuel hrounds hread
    (fun execute _ ↦ bind_of_ok (hsource execute)) (Nat.le_refl _) fun rounds hfuel hrounds ↦ ?_
  exact hrest (hbound.trans ((Aside.tick _ frame bound).trans (.setLocal rfl)))
    (hready'.tick.setLocal hframe hne) (local?_setLocal_self hready'.frame_lt) hfuel hrounds

/-- A field of the copy is written. -/
theorem excuses_fillsField {own : ObjId} {type : TypeId}
    (hkind : lowered.kind id = .action (.setField result (.index done.length) (.sym symbol)))
    (hfilling : now.Filling tour.hidden frame result own type count done)
    (hvalue : now.local? frame symbol = some value) (hcount : done.length < count)
    (hrest : ∀ {after rounds}, now.Within tour.hidden after →
      after.Ready lowered tour.hidden frame record tour.argument tour.source count →
        after.Filling tour.hidden frame result own type count (done ++ [value]) →
          limits.Covers fuel after.steps → limits.Covers rounds after.steps →
            goal (runList lowered (execute lowered limits fuel frame) body rounds rest after)) :
    goal (runList lowered (execute lowered limits fuel frame) body rounds (id :: rest) now) := by
  let ticked : Machine := { now with steps := now.steps + 1 }
  have hticked : ticked.Filling tour.hidden frame result own type count done := hfilling.tick
  have haction (execute : Executor) (rounds : Nat) : action lowered limits execute rounds frame
      (.setField result (.index done.length) (.sym symbol)) ticked =
        .ok .normal (ticked.setField own done.length value) := by
    have hoperand : operand lowered frame (.sym symbol) ticked = .ok value ticked :=
      operand_of_local? hvalue
    obtain ⟨left, hheld, hlength⟩ := hticked.object
    refine (bind_of_ok hoperand).trans ((bind_of_ok (objectOf_of_local? hticked.result)).trans ?_)
    exact bind_of_ok (fieldIndex_of_lt hheld (by simpa [← hlength] using hcount))
  refine hgoal.member (.refl _ frame now) hfuel hrounds hkind haction (Nat.le_refl _) fun _ ↦
    hrest ?_ (hready.tick.setField hfilling.hidden) (hticked.setField hcount)
  exact (Within.of_aside (.tick (fun _ ↦ True) frame now) hframe).trans
    (.setField ticked hfilling.hidden _ value)

end

/-- What is registered for a field is run on what the field holds. -/
theorem visits_calls {field : FieldDef} {callee : FnId} {inner : Action}
    {finish : Value → Eval Flow}
    (hready : now.Ready lowered tour.hidden frame record tour.argument tour.source count)
    (hframe : tour.hidden.frame frame) (hfuel : limits.Covers fuel now.steps)
    (hrounds : limits.Covers rounds now.steps)
    (hroutine : tour.registered field.type = some callee)
    (hkind : lowered.kind id = .action inner)
    (haction : ∀ execute rounds, action lowered limits execute rounds frame inner =
      expression lowered limits execute frame (.call callee [.sym symbol]) >>= finish)
    (hvalue : now.local? frame symbol = some (now.fieldValue tour.source position))
    (hrest : ∀ {after returned rounds},
      after.Ready lowered tour.hidden frame record tour.argument tour.source count →
        Secludes tour.hidden { now with steps := now.steps + 1 } after →
          limits.Covers fuel after.steps → limits.Covers rounds after.steps →
            VisitsFields lowered limits tour fields (done ++ [returned]) after
              (resume (proceed lowered (execute lowered limits fuel frame) body rest rounds)
                (finish returned after))) :
    VisitsFields lowered limits tour ((field, position) :: fields) done now
      (runList lowered (execute lowered limits fuel frame) body rounds (id :: rest) now) := by
  have hbefore : now.Within tour.hidden { now with steps := now.steps + 1 } :=
    .of_aside (.tick (fun _ ↦ True) frame now) hframe
  refine (excuses_visits hframe).reachCall (.refl _ frame now) hfuel hrounds hkind haction hvalue
    (.failed hroutine hbefore) fun {after returned rounds} hrun hfuel hrounds ↦ ?_
  by_cases hkept : after.Denotes lowered tour.source tour.argument
  · obtain ⟨hready', hsecludes, -⟩ :=
      hready.tick.after_run hframe (hready.fieldValue_avoids position) hrun hkept
    exact .through hroutine hbefore hrun (hrest hready' hsecludes hfuel hrounds)
  · exact .lost hroutine hbefore hrun hkept

/-- The body ends. -/
theorem visits_returns {operand : Operand} (hframe : tour.hidden.frame frame)
    (hfuel : limits.Covers fuel now.steps) (hrounds : limits.Covers rounds now.steps)
    (hkind : lowered.kind id = .action (.ret operand))
    (hoperand : Eval.operand lowered frame operand { now with steps := now.steps + 1 } =
      .ok value { now with steps := now.steps + 1 })
    (hreturns : tour.returns done { now with steps := now.steps + 1 } value) :
    VisitsFields lowered limits tour [] done now
      (runList lowered (execute lowered limits fuel frame) body rounds (id :: rest) now) := by
  refine (excuses_visits hframe).first (.refl _ frame now) hfuel hrounds fun less rounds _ _ _ ↦ ?_
  have hstatement : statement lowered limits (execute lowered limits less) less frame id
      { now with steps := now.steps + 1 } =
        .ok (.ret value) { now with steps := now.steps + 1 } := by
    rw [statement, hkind]
    exact bind_of_ok hoperand
  rw [hstatement]
  exact .finished (.of_aside (.tick (fun _ ↦ True) frame now) hframe) hreturns

/-! ### Copying -/

section

variable {type : TypeId} {own : ObjId} {field : FieldDef}
variable (hready : now.Ready lowered tour.hidden frame record tour.argument tour.source count)
variable (hfilling : now.Filling tour.hidden frame result own type count done)
variable (hframe : tour.hidden.frame frame) (hrecord : program.HasSymbol record)
variable (hresult : program.HasSymbol result)
variable (hfuel : limits.Covers fuel now.steps) (hrounds : limits.Covers rounds now.steps)

include hready hfilling hframe hrecord hresult hfuel hrounds

/-- A field of the copy becomes what is registered makes of the field of the record, or that field
itself. -/
theorem visits_duplicates
    (h : program.Duplicates lowered record result done.length (tour.registered field.type) ids)
    (hcount : done.length < count)
    (hrest : ∀ {after rounds value},
      after.Ready lowered tour.hidden frame record tour.argument tour.source count →
        after.Filling tour.hidden frame result own type count (done ++ [value]) →
          limits.Covers fuel after.steps → limits.Covers rounds after.steps →
            VisitsFields lowered limits tour fields (done ++ [value]) after
              (runList lowered (execute lowered limits fuel frame) body rounds rest after)) :
    VisitsFields lowered limits tour ((field, done.length) :: fields) done now
      (runList lowered (execute lowered limits fuel frame) body rounds (ids ++ rest) now) := by
  generalize hregistered : tour.registered field.type = registered at h
  cases h with
  | @shared value reads write hread hwrite =>
    rw [List.append_assoc]
    refine excuses_readsField (excuses_visits hframe) hready hframe hfuel hrounds hread hrecord
      hcount
      fun {bound rounds} hbound hready' hvalue hfuel hrounds ↦ ?_
    have hne : value ≠ result := fun heq ↦ hread.temporary.new (heq ▸ hresult)
    have hwithin : now.Within tour.hidden bound := .of_aside hbound hframe
    refine .without hregistered hwithin ?_
    rw [← hready.fieldValue_aside hbound] at hvalue
    exact excuses_fillsField (excuses_visits hframe) hready' hframe hfuel hrounds hwrite
      (hfilling.of_aside hbound hne) hvalue hcount fun hwithin hready hfilling hfuel hrounds ↦
        (hrest hready hfilling hfuel hrounds).after hwithin
  | @copied callee value copied reads declare call write hread hcopied hne hdeclare hcall hwrite =>
    rw [List.append_assoc]
    refine excuses_readsField (excuses_visits hframe) hready hframe hfuel hrounds hread hrecord
      hcount
      fun {bound rounds} hbound hreadyRead hvalue hfuel hrounds ↦ ?_
    replace hfilling := hfilling.of_aside hbound fun heq ↦ hread.temporary.new (heq ▸ hresult)
    rw [← hready.fieldValue_aside hbound] at hvalue
    have hneRecord : copied ≠ record := fun heq ↦ hcopied.new (heq ▸ hrecord)
    have hneResult : copied ≠ result := fun heq ↦ hcopied.new (heq ▸ hresult)
    refine .after (.of_aside hbound hframe)
      (excuses_declares (excuses_visits hframe) hreadyRead hframe
      hfuel hrounds hcopied.notLabel hneRecord hdeclare
      fun {declared rounds} hdeclared hready hfuel hrounds ↦ ?_)
    replace hfilling := hfilling.of_aside hdeclared hneResult
    rw [← hreadyRead.fieldValue_aside hdeclared, ← hdeclared.kept (.inr hne)] at hvalue
    refine .after (.of_aside hdeclared hframe) (visits_calls hready hframe hfuel hrounds hregistered
      hcall (fun _ _ ↦ rfl) hvalue fun {after returned rounds} hready hsecludes hfuel hrounds ↦ ?_)
    have hassigned : after.Aside (· = copied) frame (after.setLocal frame copied returned) :=
      .setLocal rfl
    replace hfilling := (hfilling.tick.secludes hframe hsecludes).of_aside hassigned hneResult
    refine .after (.of_aside hassigned hframe) (excuses_fillsField (excuses_visits hframe)
      (hready.setLocal hframe hneRecord) hframe hfuel hrounds hwrite hfilling
      (local?_setLocal_self hready.frame_lt) hcount
      fun hwithin hready hfilling hfuel hrounds ↦ ?_)
    exact (hrest hready hfilling hfuel hrounds).after hwithin

end

/-- A copy routine returns an object whose fields are the values that it got for the fields. -/
def Copied (own : ObjId) (type : TypeId) (done : List Value) (last : Machine) (value : Value) :
    Prop :=
  value = .obj own ∧ last.heap[own.index]? = some { type, fields := done.toArray }

/-- The copy is filled in, field by field, and returned. -/
theorem visits_copies {type : TypeId} {own : ObjId} {fields : List FieldDef}
    {parts : List (List StmtId)} (hreturns : tour.returns = Copied own type)
    (h : List.Forall₂ (fun (field, position) ids ↦ program.Duplicates lowered record result position
      (tour.registered field.type) ids) (fields.zipIdx done.length) parts)
    (hlast : lowered.kind id = .action (.ret (.sym result)))
    (hready : now.Ready lowered tour.hidden frame record tour.argument tour.source count)
    (hfilling : now.Filling tour.hidden frame result own type count done)
    (hcount : done.length + fields.length = count) (hframe : tour.hidden.frame frame)
    (hrecord : program.HasSymbol record) (hresult : program.HasSymbol result)
    (hfuel : limits.Covers fuel now.steps) (hrounds : limits.Covers rounds now.steps) :
    VisitsFields lowered limits tour (fields.zipIdx done.length) done now
      (runList lowered (execute lowered limits fuel frame) body rounds (parts.flatten ++ [id])
        now) := by
  induction fields generalizing done now rounds parts with
  | nil =>
    cases h
    obtain ⟨rest, hheld, hlength⟩ := hfilling.object
    obtain rfl : rest = [] := by simpa [← hcount] using hlength
    rw [List.append_nil] at hheld
    refine visits_returns hframe hfuel hrounds hlast (operand_of_local? hfilling.tick.result) ?_
    rw [hreturns]
    exact ⟨rfl, hheld⟩
  | cons field fields ih =>
    rw [List.zipIdx_cons] at h ⊢
    cases h with
    | @cons _ ids _ parts hfield hfields =>
      rw [List.flatten_cons, List.append_assoc]
      rw [List.length_cons] at hcount
      refine visits_duplicates hready hfilling hframe hrecord hresult hfuel hrounds hfield
        (by omega)
        fun {after rounds value} hready hfilling hfuel hrounds ↦ ?_
      have hnext : done.length + 1 = (done ++ [value]).length := by simp
      rw [hnext] at hfields ⊢
      exact ih hfields hready hfilling (by omega) hfuel hrounds

/-! ### Destroying -/

section

variable {field : FieldDef}
variable (hready : now.Ready lowered tour.hidden frame record tour.argument tour.source count)
variable (hframe : tour.hidden.frame frame) (hrecord : program.HasSymbol record)
variable (hfuel : limits.Covers fuel now.steps) (hrounds : limits.Covers rounds now.steps)

include hready hframe hrecord hfuel hrounds

/-- What is registered for a field is run on it, and nothing is done with other fields. -/
theorem visits_destroys
    (h : program.Destroys lowered record position (tour.registered field.type) ids)
    (hposition : position < count)
    (hrest : ∀ {after rounds value},
      after.Ready lowered tour.hidden frame record tour.argument tour.source count →
        limits.Covers fuel after.steps → limits.Covers rounds after.steps →
          VisitsFields lowered limits tour fields (done ++ [value]) after
            (runList lowered (execute lowered limits fuel frame) body rounds rest after)) :
    VisitsFields lowered limits tour ((field, position) :: fields) done now
      (runList lowered (execute lowered limits fuel frame) body rounds (ids ++ rest) now) := by
  generalize hregistered : tour.registered field.type = registered at h
  cases h with
  | skipped => exact .without hregistered (.refl _ now) (hrest hready hfuel hrounds)
  | @destroyed callee value reads call hread hcall =>
    rw [List.append_assoc]
    refine excuses_readsField (excuses_visits hframe) hready hframe hfuel hrounds hread hrecord
      hposition fun {bound rounds} hbound hreadyRead hvalue hfuel hrounds ↦ ?_
    rw [← hready.fieldValue_aside hbound] at hvalue
    exact .after (.of_aside hbound hframe) (visits_calls hreadyRead hframe hfuel hrounds hregistered
      hcall (fun _ _ ↦ show _ = _ >>= fun _ ↦ pure Flow.normal from rfl) hvalue
      fun hready _ hfuel hrounds ↦ hrest hready hfuel hrounds)

/-- The fields are destroyed in order. -/
theorem visits_destroysAll {fields : List FieldDef} {parts : List (List StmtId)}
    (hreturns : tour.returns = fun _ _ value ↦ value = .void)
    (h : List.Forall₂ (fun (field, position) ids ↦ program.Destroys lowered record position
      (tour.registered field.type) ids) (fields.zipIdx position) parts)
    (hlast : lowered.kind id = .action (.ret (.lit .void)))
    (hcount : position + fields.length = count) :
    VisitsFields lowered limits tour (fields.zipIdx position) done now
      (runList lowered (execute lowered limits fuel frame) body rounds (parts.flatten ++ [id])
        now) := by
  induction fields generalizing position done now rounds parts with
  | nil =>
    cases h
    refine visits_returns hframe hfuel hrounds hlast rfl ?_
    rw [hreturns]
  | cons field fields ih =>
    rw [List.zipIdx_cons] at h ⊢
    cases h with
    | @cons _ ids _ parts hfield hfields =>
      rw [List.flatten_cons, List.append_assoc]
      rw [List.length_cons] at hcount
      exact visits_destroys hready hframe hrecord hfuel hrounds hfield (by omega)
        fun hready hfuel hrounds ↦ ih hready hfuel hrounds hfields (by omega)

end

end Eval

end IteratorLowering
