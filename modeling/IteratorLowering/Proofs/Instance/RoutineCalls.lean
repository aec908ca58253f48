import IteratorLowering.Proofs.Instance.RoutineRuns

/-!
# Calling copy and destroy routines

A call of a rebuilt routine hides its frame and, in a copy routine, the object that it makes: both
come after all that is on the machine, so that they are hidden as long as nothing names them in
advance (`Machine.Unnamed`). Then a copy routine returns a new object whose fields are what the
registered routines made of the fields of the record, or these fields themselves
(`Eval.visits_copyRoutine`), and a destroy routine runs what is registered and does nothing else
(`Eval.visits_destroyRoutine`).

A value that names the next frame in advance is a reference that an ended call has left behind. With
such a reference a registered routine can get at the result, and exchange it for another object.
-/

set_option autoImplicit false
set_option relaxedAutoImplicit false

namespace IteratorLowering

variable {hidden hidden' : Hidden}

theorem Value.Avoids.mono {value : Value} (h : value.Avoids hidden')
    (hframe : ∀ {depth}, hidden.frame depth → hidden'.frame depth)
    (hobject : ∀ {id}, hidden.object id → hidden'.object id)
    (hname : ∀ {symbol}, hidden.name symbol → hidden'.name symbol) : value.Avoids hidden := by
  cases value with
  | obj id => exact fun hid ↦ h (hobject hid)
  | ref place =>
    cases place with
    | slot depth symbol => exact ⟨mt hframe h.1, mt hname h.2⟩
    | field id position => exact fun hid ↦ h (hobject hid)
  | _ => trivial

namespace Machine

variable {machine final now : Machine} {program lowered : Program} {function : FnId}
variable {argument : Value} {source : ObjId} {record : SymId} {count : Nat}

/-- Nothing on the machine names what is going to be hidden. -/
structure Unnamed (hidden : Hidden) (machine : Machine) : Prop where
  frames : ∀ {depth : Nat} {held : Frame}, machine.frames[depth]? = some held → held.Avoids hidden
  objects : ∀ {id : ObjId} {object : Object}, machine.heap[id.index]? = some object →
    ∀ value ∈ object.fields, value.Avoids hidden

namespace Unnamed

theorem mono (h : machine.Unnamed hidden')
    (hframe : ∀ {depth}, hidden.frame depth → hidden'.frame depth)
    (hobject : ∀ {id}, hidden.object id → hidden'.object id)
    (hname : ∀ {symbol}, hidden.name symbol → hidden'.name symbol) : machine.Unnamed hidden where
  frames hheld :=
    have havoids := h.frames hheld
    ⟨fun hvalue ↦ (havoids.locals hvalue).mono hframe hobject hname,
      fun target htarget hdepth ↦ havoids.target target htarget (hframe hdepth)⟩
  objects hobject' value hvalue := (h.objects hobject' value hvalue).mono hframe hobject hname

/-- What was added is hidden. -/
theorem hides (h : machine.Unnamed hidden)
    (hlive : ∀ {depth}, hidden.frame depth → depth < final.frames.size)
    (hallocated : ∀ {id}, hidden.object id → id.index < final.heap.size)
    (hframes : ∀ {depth}, ¬ hidden.frame depth → final.frames[depth]? = machine.frames[depth]?)
    (hobjects : ∀ {id}, ¬ hidden.object id → final.heap[id.index]? = machine.heap[id.index]?) :
    final.Hides hidden where
  live := hlive
  allocated := hallocated
  frames hheld hdepth := h.frames (hframes hdepth ▸ hheld)
  objects hobject hid := h.objects (hobjects hid ▸ hobject)

end Unnamed

/-- A value leads to a record with so many fields. -/
structure DenotesRecord (lowered : Program) (source : ObjId) (count : Nat) (argument : Value)
    (machine : Machine) : Prop where
  denotes : machine.Denotes lowered source argument
  held : ∃ held, machine.heap[source.index]? = some held ∧ held.fields.size = count

/-- A value that leads to something names nothing that is added later. -/
theorem Denotes.avoids (h : machine.Denotes lowered source argument)
    (hsource : source.index < machine.heap.size)
    (hframe : ∀ {depth}, hidden.frame depth → machine.frames.size ≤ depth)
    (hobject : ∀ {id}, hidden.object id → machine.heap.size ≤ id.index)
    (hname : ∀ {symbol}, ¬ hidden.name symbol) : argument.Avoids hidden := by
  cases h with
  | obj => exact fun hid ↦ Nat.not_le_of_gt hsource (hobject hid)
  | slot _ hlocal =>
    exact ⟨fun hdepth ↦ Nat.not_le_of_gt (lt_size_of_local? hlocal) (hframe hdepth), hname⟩
  | field hheld _ =>
    exact fun hid ↦ Nat.not_le_of_gt (Array.getElem?_eq_some_iff.mp hheld).1 (hobject hid)

/-- What a value leads to is the same inside of a call. -/
theorem Denotes.enter {args : List Value} (h : machine.Denotes lowered source argument) :
    (Eval.enter program function args machine).Denotes lowered source argument := by
  cases h with
  | obj => exact .obj
  | slot hsymbol hlocal =>
    refine .slot hsymbol ?_
    rw [local?_push rfl, if_neg (Nat.ne_of_lt (lt_size_of_local? hlocal))]
    exact hlocal
  | field hheld hfield => exact .field hheld hfield

theorem DenotesRecord.avoids (h : machine.DenotesRecord lowered source count argument)
    (hframe : ∀ {depth}, hidden.frame depth → machine.frames.size ≤ depth)
    (hobject : ∀ {id}, hidden.object id → machine.heap.size ≤ id.index)
    (hname : ∀ {symbol}, ¬ hidden.name symbol) : argument.Avoids hidden := by
  obtain ⟨held, hheld, -⟩ := h.held
  exact h.denotes.avoids (Array.getElem?_eq_some_iff.mp hheld).1 hframe hobject hname

/-- The frame of a call is hidden when its body starts. -/
theorem DenotesRecord.ready (h : machine.DenotesRecord lowered source count argument)
    (hunnamed : machine.Unnamed ⟨(· = machine.frames.size), fun _ ↦ False, fun _ ↦ False⟩)
    (hformals : (program.function function).formals = [record]) :
    (Eval.enter program function [argument] machine).Ready lowered
      ⟨(· = machine.frames.size), fun _ ↦ False, fun _ ↦ False⟩ machine.frames.size
        record argument source count where
  hides := by
    refine hunnamed.hides (fun hdepth ↦ ?_) False.elim (fun {depth} hdepth ↦ ?_) fun _ ↦ rfl
    · rw [hdepth, Eval.enter, Array.size_push]
      exact Nat.lt_succ_self _
    · rw [Eval.enter, Array.getElem?_push, if_neg hdepth]
  unnamed := not_false
  avoids := h.avoids (fun hdepth ↦ Nat.le_of_eq hdepth.symm) False.elim not_false
  formal := by
    rw [local?_push rfl, if_pos rfl, Eval.callFrame, hformals]
    exact FiniteMap.find?_insert_self ..
  denotes := h.denotes.enter
  held := h.held

end Machine

namespace Eval

open Machine

variable {program known lowered final : Program} {limits : Limits} {machine now last : Machine}
variable {function : FnId} {argument : Value} {source : ObjId} {record result : SymId}
variable {type : TypeId} {fields : List FieldDef} {fuel rounds : Nat} {ids body : List StmtId}

/-- What a copy routine is about that is called on a machine. Its frame and the copy are the next
ones. -/
def copyTour (program : Program) (type : TypeId) (source : ObjId) (argument : Value)
    (machine : Machine) : Tour where
  hidden := ⟨(· = machine.frames.size), (· = ⟨machine.heap.size⟩), fun _ ↦ False⟩
  argument
  source
  registered := program.autoCopy.find?
  returns := Copied ⟨machine.heap.size⟩ type

/-- What a destroy routine is about that is called on a machine. -/
def destroyTour (program : Program) (source : ObjId) (argument : Value) (machine : Machine) :
    Tour where
  hidden := ⟨(· = machine.frames.size), fun _ ↦ False, fun _ ↦ False⟩
  argument
  source
  registered := program.autoDestroy.find?
  returns := fun _ _ value ↦ value = .void

/-- The body of a destroy routine goes through the fields. -/
theorem visits_destroyBody (h : program.DestroyBody lowered record fields ids)
    (hready : now.Ready lowered (destroyTour program source argument machine).hidden
      machine.frames.size record argument source fields.length)
    (hrecord : program.HasSymbol record) (hfuel : limits.Covers fuel now.steps)
    (hrounds : limits.Covers rounds now.steps) :
    VisitsFields lowered limits (destroyTour program source argument machine) fields.zipIdx [] now
      (runList lowered (execute lowered limits fuel machine.frames.size) body rounds ids now) := by
  obtain ⟨last, parts, rfl, hparts, hlast⟩ := h
  exact visits_destroysAll hready rfl hrecord hfuel hrounds rfl hparts hlast (Nat.zero_add _)

/-- A variable that a copy routine may return: it holds a record of its own. -/
structure HoldsCopy (lowered : Program) (record result : SymId) (type : TypeId) (count : Nat) :
    Prop where
  other : result ≠ record
  notLabel : (lowered.symbol result).isLabel = false
  type_eq : lowered.symbolType result = type
  isAggregate : (lowered.type type).isAggregate = true
  fields : (lowered.type type).fields.length = count

/-- The copy is hidden once it is declared, and none of its fields is filled in. -/
theorem filling_declared (hheld : HoldsCopy lowered record result type fields.length)
    (hunnamed : machine.Unnamed (copyTour program type source argument machine).hidden)
    (hframe : machine.frames.size < now.frames.size)
    (hframes : ∀ {depth}, depth ≠ machine.frames.size →
      now.frames[depth]? = machine.frames[depth]?) (hheap : now.heap = machine.heap) :
    Hides (copyTour program type source argument machine).hidden
        (now.declared lowered machine.frames.size result) ∧
      Filling (copyTour program type source argument machine).hidden machine.frames.size result
        ⟨machine.heap.size⟩ type fields.length []
          (now.declared lowered machine.frames.size result) := by
  have haggregate := hheld.isAggregate
  rw [← hheld.type_eq] at haggregate
  obtain ⟨values, hsize, hdeclared⟩ := declared_of_isAggregate machine.frames.size now haggregate
  rw [hdeclared, hheld.type_eq, hheap]
  refine ⟨hunnamed.hides (fun hdepth ↦ ?_) (fun {id} hid ↦ ?_) (fun {depth} hdepth ↦ ?_)
    fun {id} hid ↦ ?_, rfl, local?_setLocal_self hframe, values.toList, ?_, ?_⟩
  · rw [hdepth, size_setLocal]
    exact hframe
  · change id.index < (now.heap.push _).size
    rw [hid, hheap, Array.size_push]
    exact Nat.lt_succ_self _
  · rw [Machine.setLocal, Array.getElem?_modify, if_neg (Ne.symm hdepth)]
    exact hframes hdepth
  · change (now.heap.push _)[id.index]? = _
    rw [Array.getElem?_push, hheap, if_neg fun hindex ↦ hid (congrArg ObjId.mk hindex)]
  · change (now.heap.push _)[machine.heap.size]? = _
    rw [← hheap, Array.getElem?_push_size]
    rfl
  · rw [List.nil_append, Array.length_toList, hsize, hheld.type_eq, hheld.fields]

/-- The body of a copy routine declares the copy and goes through the fields. -/
theorem visits_copyBody (h : known.CopyBody lowered record result fields ids)
    (hregistered : known.autoCopy = program.autoCopy)
    (hheld : HoldsCopy lowered record result type fields.length)
    (hready : now.Ready lowered (destroyTour program source argument machine).hidden
      machine.frames.size record argument source fields.length)
    (hunnamed : machine.Unnamed (copyTour program type source argument machine).hidden)
    (havoids : argument.Avoids (copyTour program type source argument machine).hidden)
    (hframes : ∀ {depth}, depth ≠ machine.frames.size →
      now.frames[depth]? = machine.frames[depth]?) (hheap : now.heap = machine.heap)
    (hrecord : known.HasSymbol record) (hresult : known.HasSymbol result)
    (hfuel : limits.Covers fuel now.steps) (hrounds : limits.Covers rounds now.steps) :
    VisitsFields lowered limits (copyTour program type source argument machine) fields.zipIdx [] now
      (runList lowered (execute lowered limits fuel machine.frames.size) body rounds ids now) := by
  obtain ⟨declare, last, parts, rfl, hdeclare, hparts, hlast⟩ := h
  rw [hregistered] at hparts
  have hframe :
      (copyTour program type source argument machine).hidden.frame machine.frames.size := rfl
  have hbound : Aside (· = result) machine.frames.size { now with steps := now.steps + 1 } _ :=
    .declared lowered rfl
  have hready' := hready.tick.declared rfl hheld.other
  obtain ⟨hides, hfilling⟩ := filling_declared hheld hunnamed hready.tick.frame_lt hframes hheap
  refine (excuses_visits hframe).member (.refl _ _ now) hfuel hrounds hdeclare
    (fun _ _ ↦ action_define hheld.notLabel) hbound.steps fun rounds hfuel hrounds ↦ ?_
  refine .after (.of_aside ((Aside.tick _ _ now).trans hbound) hframe) ?_
  exact visits_copies rfl hparts hlast
    ⟨hides, not_false, havoids, hready'.formal, hready'.denotes, hready'.held⟩
    hfilling (Nat.zero_add _) hframe hrecord hresult hfuel hrounds

/-! ### Routines that the pass has rebuilt -/

/-- A function with a body of its own handles a record. -/
structure RunsRoutine (program : Program) (function : FnId) (record : SymId) : Prop
    extends program.HandlesRecord function record where
  hasFunction : program.HasFunction function
  notExternal : (program.function function).flags.external = false
  notIterator : (program.function function).isIterator = false

/-- A routine returns a record of the type that it handles. Its return symbol, if it has one, is a
variable for it. -/
structure ReturnsRecord (program : Program) (function : FnId) (record : SymId) : Prop where
  retType : (program.function function).retType = program.valueType (program.symbolType record)
  isAggregate :
    (program.type (program.valueType (program.symbolType record))).isAggregate = true
  retSym : ∀ symbol ∈ (program.function function).retSym, program.HasSymbol symbol ∧
    symbol ≠ record ∧ (program.symbol symbol).isLabel = false ∧
      program.symbolType symbol = program.valueType (program.symbolType record)

namespace RunsRoutine

theorem formals_of_rebodies {changed : List FnId} (h : RunsRoutine program function record)
    (hrebodies : program.Rebodies changed final) :
    (final.function function).formals = [record] := by
  rw [hrebodies.function]
  exact h.formals

theorem hasSymbol (h : RunsRoutine program function record) (hformals : program.HasFormals) :
    program.HasSymbol record := by
  refine hformals function record ?_
  rw [h.formals]
  exact List.mem_singleton_self record

end RunsRoutine

/-- The variable that a rebuilt copy routine returns holds the copy. -/
theorem ReturnsRecord.holdsCopy {changed : List FnId}
    (h : ReturnsRecord program function record) (hrebodies : program.Rebodies changed final)
    (hrecord : program.HasSymbol record)
    (hknown : ∀ {id}, program.HasSymbol id → known.HasSymbol id)
    (hresult : program.ResultOf known final function result) :
    HoldsCopy final record result (program.valueType (program.symbolType record))
        (program.recordFields record).length ∧ known.HasSymbol result := by
  have htype (id : TypeId) : final.type id = program.type id := hrebodies.type id
  cases hresult with
  | given hgiven =>
    obtain ⟨hhas, hother, hlabel, hsame⟩ := h.retSym result hgiven
    refine ⟨⟨hother, ?_, ?_, ?_, ?_⟩, hknown hhas⟩
    · rwa [(hrebodies.symbol hhas).2]
    · rwa [hrebodies.symbolType hhas]
    · rw [htype]
      exact h.isAggregate
    · rw [htype, Program.recordFields]
  | made hnone hnew hhas hsame hlabel =>
    refine ⟨⟨fun heq ↦ hnew (heq ▸ hrecord), hlabel, hsame.trans h.retType, ?_, ?_⟩, hhas⟩
    · rw [htype]
      exact h.isAggregate
    · rw [htype, Program.recordFields]

/-- A call runs the body of a rebuilt routine. -/
theorem run_eq_leave {changed : List FnId} {args : List Value}
    (hroutine : RunsRoutine program function record) (hrebodies : program.Rebodies changed final)
    (hdepth : machine.frames.size < limits.maxDepth) :
    machine.run final limits function args = leave final (callFrame final function args)
      (execute final limits (machine.fuel limits) machine.frames.size (final.bodyOf function)
        (enter final function args machine)) := by
  refine call_eq_leave ?_ ?_ hdepth
  · rw [hrebodies.function]
    exact hroutine.notExternal
  · rw [hrebodies.function]
    exact hroutine.notIterator

/-- Where the fields of a record were visited for a copy, the copy is a new object with as many
fields, unless the steps ran out or what is registered for a field failed. -/
theorem VisitsFields.new_or_fails {frame : Frame} {ended : EStateM.Result EvalError Machine Flow}
    (h : VisitsFields final limits (copyTour program type source argument machine) fields.zipIdx []
      now ended) (hsource : argument = .obj source)
    (hrun : machine.run final limits function [argument] = leave final frame ended) :
    (∃ copied last, machine.run final limits function [argument] =
        .ok (.obj ⟨machine.heap.size⟩) last ∧ last.heap[machine.heap.size]? = some copied ∧
          copied.type = type ∧ copied.fields.size = fields.length) ∨
      ∃ error last, machine.run final limits function [argument] = .error error last ∧
        (error = .stepLimit limits.maxSteps ∨
          ∃ field ∈ fields, ∃ (callee : FnId) (value : Value) (before after : Machine),
            program.autoCopy.find? field.type = some callee ∧
              before.run final limits callee [value] = .error error after) := by
  cases ended with
  | ok flow last =>
    obtain ⟨_, values, rfl, hlength, rfl, hheld⟩ := h.returns_of_ok hsource
    refine .inl ⟨_, _, hrun, hheld, rfl, ?_⟩
    rw [List.size_toArray, hlength, List.length_zipIdx]
    exact Nat.zero_add _
  | error error last =>
    refine .inr ⟨error, _, hrun, ?_⟩
    refine (h.fails_of_error hsource).imp And.left ?_
    rintro ⟨field, hfield, callee, value, before, hregistered, hcall⟩
    exact ⟨field.1, List.fst_mem_of_mem_zipIdx hfield, callee, value, before, last, hregistered,
      hcall⟩

section

variable {count : Nat} (hlinked : program.WellLinked) (hformals : program.HasFormals)
variable (hpass : rebuildRoutines program = .ok count final)
variable (hroutine : RunsRoutine program function record)
variable (hdepth : machine.frames.size < limits.maxDepth)
variable (hargument :
  machine.DenotesRecord final source (program.recordFields record).length argument)

include hlinked hformals hpass hroutine hdepth hargument

/-- A call of a rebuilt destroy routine runs what is registered for the fields of the record, in
order, each once and on what the field holds, and does nothing else. -/
theorem visits_destroyRoutine (hcopy : (program.function function).flags.autoCopy = false)
    (hdestroy : (program.function function).flags.autoDestroy = true)
    (hunnamed : machine.Unnamed (destroyTour program source argument machine).hidden) :
    ∃ ended, VisitsFields final limits (destroyTour program source argument machine)
        (program.recordFields record).zipIdx [] (enter final function [argument] machine) ended ∧
      machine.run final limits function [argument] =
        leave final (callFrame final function [argument]) ended := by
  obtain ⟨hrebodies, hrebuilt⟩ := rebuilt_rebuildRoutines hlinked hformals hpass
  refine ⟨_, ?_, run_eq_leave hroutine hrebodies hdepth⟩
  obtain ⟨ids, hkind, hshape⟩ :=
    ((hrebuilt hroutine.hasFunction).destroys hroutine.toHandlesRecord hcopy hdestroy).body
  have hready := hargument.ready hunnamed (hroutine.formals_of_rebodies hrebodies)
  exact visits_block rfl (limits.covers_fuel machine) hkind fun less hless ↦
    visits_destroyBody (hshape (.refl _ final)) hready.tick (hroutine.hasSymbol hformals)
      hless hless

/-- A call of a rebuilt copy routine makes a new object. Its fields become, in order, what is
registered makes of the fields of the record, or these fields themselves. Nothing else is done, and
the object is returned. A record that is passed itself is copied to an object that was not there
before, with one field for each of its own, and there is no copy only when the steps run out or what
is registered for a field fails. -/
theorem visits_copyRoutine (hcopy : (program.function function).flags.autoCopy = true)
    (hreturns : ReturnsRecord program function record)
    (hunnamed : machine.Unnamed (copyTour program (program.valueType (program.symbolType record))
      source argument machine).hidden) :
    (∃ ended, VisitsFields final limits
        (copyTour program (program.valueType (program.symbolType record)) source argument machine)
        (program.recordFields record).zipIdx [] (enter final function [argument] machine) ended ∧
      machine.run final limits function [argument] =
        leave final (callFrame final function [argument]) ended) ∧
      (argument = .obj source →
        (∃ copied last, machine.run final limits function [argument] =
            .ok (.obj ⟨machine.heap.size⟩) last ∧ last.heap[machine.heap.size]? = some copied ∧
              copied.type = program.valueType (program.symbolType record) ∧
                copied.fields.size = (program.recordFields record).length) ∨
          ∃ error last, machine.run final limits function [argument] = .error error last ∧
            (error = .stepLimit limits.maxSteps ∨
              ∃ field ∈ program.recordFields record, ∃ (callee : FnId) (value : Value)
                (before after : Machine), program.autoCopy.find? field.type = some callee ∧
                  before.run final limits callee [value] = .error error after)) := by
  obtain ⟨hrebodies, hrebuilt⟩ := rebuilt_rebuildRoutines hlinked hformals hpass
  obtain ⟨ids, hkind, hshape⟩ :=
    ((hrebuilt hroutine.hasFunction).copies hroutine.toHandlesRecord hcopy).body
  obtain ⟨known, result, hresult, hknown, hregistered, hbody⟩ := (hshape (.refl _ final)).body
  have hrecord := hroutine.hasSymbol hformals
  have hready := hargument.ready (hunnamed.mono id False.elim False.elim)
    (hroutine.formals_of_rebodies hrebodies)
  obtain ⟨hheld, hhas⟩ := hreturns.holdsCopy hrebodies hrecord hknown hresult
  have havoids : argument.Avoids (copyTour program
      (program.valueType (program.symbolType record)) source argument machine).hidden :=
    hargument.avoids (fun hdepth ↦ Nat.le_of_eq hdepth.symm)
      (fun hid ↦ Nat.le_of_eq (congrArg ObjId.index hid.symm)) not_false
  have hruns : ∃ ended, VisitsFields final limits
      (copyTour program (program.valueType (program.symbolType record)) source argument machine)
      (program.recordFields record).zipIdx [] (enter final function [argument] machine) ended ∧
        machine.run final limits function [argument] =
          leave final (callFrame final function [argument]) ended := by
    refine ⟨_, ?_, run_eq_leave hroutine hrebodies hdepth⟩
    refine visits_block rfl (limits.covers_fuel machine) hkind fun less hless ↦
      visits_copyBody hbody hregistered hheld hready.tick hunnamed havoids
        (fun {depth} hother ↦ ?_) rfl (hknown hrecord) hhas hless hless
    rw [enter, Array.getElem?_push, if_neg hother]
  obtain ⟨ended, hvisits, hrun⟩ := hruns
  exact ⟨⟨ended, hvisits, hrun⟩, fun hsource ↦ hvisits.new_or_fails hsource hrun⟩

end

/-- Routines for records with a cell and a number, and the ones that are registered for the cell:
its copy holds another number, and a destroyed cell holds none. -/
def copiesCells : Program where
  types := builtinTypes ++ #[
    { name := "_ir_f", kind := .record, fields := [⟨"cell", ⟨6⟩⟩, ⟨"n", .int⟩],
      flags := { iteratorRecord := true } },
    { name := "Cell", kind := .heapClass, fields := [⟨"v", .int⟩] }]
  symbols := #[
    { name := "rec", kind := .arg, type := ⟨5⟩, owner := some ⟨0⟩ },
    { name := "rec", kind := .arg, type := ⟨5⟩, owner := some ⟨1⟩ },
    { name := "c", kind := .arg, type := ⟨6⟩, owner := some ⟨2⟩ },
    { name := "new", kind := .var, type := ⟨6⟩, owner := some ⟨2⟩ },
    { name := "c", kind := .arg, type := ⟨6⟩, owner := some ⟨3⟩ }]
  statements := #[
    { kind := .plain [], bodyOf := some ⟨0⟩, span := .none },
    { kind := .plain [], bodyOf := some ⟨1⟩, span := .none },
    { kind := .plain [⟨3⟩, ⟨4⟩, ⟨5⟩], bodyOf := some ⟨2⟩, span := .none },
    { kind := .action (.define ⟨3⟩), parent := some ⟨2⟩, span := .none },
    { kind := .action (.setField ⟨3⟩ (.index 0) (.int 9)), parent := some ⟨2⟩, span := .none },
    { kind := .action (.ret (.sym ⟨3⟩)), parent := some ⟨2⟩, span := .none },
    { kind := .plain [⟨7⟩], bodyOf := some ⟨3⟩, span := .none },
    { kind := .action (.setField ⟨4⟩ (.index 0) (.int 0)), parent := some ⟨6⟩, span := .none }]
  functions := #[
    { name := "_copy_f", formals := [⟨0⟩], retType := ⟨5⟩, body := ⟨0⟩,
      flags := { autoCopy := true } },
    { name := "_destroy_f", formals := [⟨1⟩], retType := .void, body := ⟨1⟩,
      flags := { autoDestroy := true } },
    { name := "copyCell", formals := [⟨2⟩], retType := ⟨6⟩, body := ⟨2⟩ },
    { name := "destroyCell", formals := [⟨4⟩], retType := .void, body := ⟨6⟩ }]
  autoCopy := FiniteMap.empty.insert ⟨6⟩ ⟨2⟩
  autoDestroy := FiniteMap.empty.insert ⟨6⟩ ⟨3⟩

/-- The program with its routines rebuilt. -/
def rebuiltCells : Program :=
  (Runs.run (m := EStateM LoweringError Program) rebuildRoutines copiesCells).2

/-- A record with a cell. -/
def holdsCell : Machine where
  heap := #[{ type := ⟨5⟩, fields := #[.obj ⟨1⟩, .int 7] }, { type := ⟨6⟩, fields := #[.int 3] }]

theorem rebuildRoutines_copiesCells : rebuildRoutines copiesCells = .ok 2 rebuiltCells := by
  unfold rebuiltCells
  exact eq_ok_of_run (by decide +kernel)

theorem hasFormals_copiesCells : copiesCells.HasFormals := by
  rintro ⟨index⟩
  match index with
  | 0 | 1 | 2 | 3 => decide
  | _ + 4 => exact nofun

/-- No value of the machine names what is not there. -/
theorem unnamed_holdsCell {hidden : Hidden} (h : ∀ {id}, hidden.object id → 2 ≤ id.index) :
    holdsCell.Unnamed hidden where
  frames := nofun
  objects {id object} hobject value hvalue := by
    have hvalues : ∀ object ∈ holdsCell.heap, ∀ value ∈ object.fields,
        value.isScalar = true ∨ value = .obj ⟨1⟩ := by decide
    obtain hscalar | rfl := hvalues object (Array.mem_of_getElem? hobject) value hvalue
    · exact Value.avoids_of_isScalar hscalar
    · exact fun hid ↦ absurd (h hid) (by decide)

theorem denotesRecord_holdsCell (record : SymId) (hrecord : copiesCells.symbolType record = ⟨5⟩) :
    holdsCell.DenotesRecord rebuiltCells ⟨0⟩ (copiesCells.recordFields record).length
      (.obj ⟨0⟩) where
  denotes := .obj
  held := by
    rw [Program.recordFields, hrecord]
    exact ⟨_, rfl, rfl⟩

/-- What a routine does with the record. -/
def runOnCell (routine : FnId) : EStateM.Result EvalError Machine Value :=
  holdsCell.run rebuiltCells {} routine [.obj ⟨0⟩]

/-- The record is copied to a new one with the same number, whose cell is the one that the routine
for cells made. -/
theorem visits_copyRoutine_copiesCells :
    rebuildRoutines copiesCells = .ok 2 rebuiltCells ∧
      (∃ ended, VisitsFields rebuiltCells {} (copyTour copiesCells ⟨5⟩ ⟨0⟩ (.obj ⟨0⟩) holdsCell)
          (copiesCells.recordFields ⟨0⟩).zipIdx []
            (enter rebuiltCells ⟨0⟩ [.obj ⟨0⟩] holdsCell) ended ∧
        runOnCell ⟨0⟩ = leave rebuiltCells (callFrame rebuiltCells ⟨0⟩ [.obj ⟨0⟩]) ended) ∧
      ∃ copied last, runOnCell ⟨0⟩ = .ok (.obj ⟨2⟩) last ∧ last.heap[2]? = some copied ∧
        copied.type = ⟨5⟩ ∧ copied.fields.size = 2 ∧
        (left (runOnCell ⟨0⟩)).fieldValue ⟨2⟩ 0 = .obj ⟨5⟩ ∧
        (left (runOnCell ⟨0⟩)).fieldValue ⟨2⟩ 1 = .int 7 := by
  have hroutine : RunsRoutine copiesCells ⟨0⟩ ⟨0⟩ := ⟨⟨rfl, rfl⟩, by decide, rfl, rfl⟩
  have hreturns : ReturnsRecord copiesCells ⟨0⟩ ⟨0⟩ := ⟨rfl, rfl, nofun⟩
  have hdepth : holdsCell.frames.size < ({} : Limits).maxDepth := by decide
  obtain ⟨hvisits, hcopied⟩ := visits_copyRoutine (by decide) hasFormals_copiesCells
    rebuildRoutines_copiesCells hroutine hdepth (denotesRecord_holdsCell ⟨0⟩ rfl) rfl hreturns
    (unnamed_holdsCell fun hid ↦ hid ▸ Nat.le_refl 2)
  obtain ⟨final, hok⟩ : ∃ final, runOnCell ⟨0⟩ = .ok (.obj ⟨2⟩) final := by
    unfold runOnCell Machine.run
    exact ⟨_, eq_ok_of_run (by decide +kernel)⟩
  obtain ⟨copied, last, hrun, hheld, htype, hsize⟩ := (hcopied rfl).resolve_right (by
    rintro ⟨error, last, hrun, -⟩
    cases hrun.symm.trans hok)
  exact ⟨rebuildRoutines_copiesCells, hvisits, copied, last, hrun, hheld, htype, hsize,
    by decide +kernel, by decide +kernel⟩

/-- The routine for cells runs on the cell of the record that is destroyed. -/
theorem visits_destroyRoutine_copiesCells :
    rebuildRoutines copiesCells = .ok 2 rebuiltCells ∧
      (∃ ended, VisitsFields rebuiltCells {} (destroyTour copiesCells ⟨0⟩ (.obj ⟨0⟩) holdsCell)
          (copiesCells.recordFields ⟨1⟩).zipIdx []
            (enter rebuiltCells ⟨1⟩ [.obj ⟨0⟩] holdsCell) ended ∧
        runOnCell ⟨1⟩ = leave rebuiltCells (callFrame rebuiltCells ⟨1⟩ [.obj ⟨0⟩]) ended) ∧
      (left (runOnCell ⟨1⟩)).fieldValue ⟨1⟩ 0 = .int 0 := by
  have hroutine : RunsRoutine copiesCells ⟨1⟩ ⟨1⟩ := ⟨⟨rfl, rfl⟩, by decide, rfl, rfl⟩
  have hdepth : holdsCell.frames.size < ({} : Limits).maxDepth := by decide
  have hvisits := visits_destroyRoutine (by decide) hasFormals_copiesCells
    rebuildRoutines_copiesCells hroutine hdepth (denotesRecord_holdsCell ⟨1⟩ rfl) rfl rfl
    (unnamed_holdsCell False.elim)
  exact ⟨rebuildRoutines_copiesCells, hvisits, by decide +kernel⟩

end Eval

end IteratorLowering
