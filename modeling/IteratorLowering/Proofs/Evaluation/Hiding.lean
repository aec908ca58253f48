import IteratorLowering.Proofs.Evaluation.Settling
import IteratorLowering.Proofs.Simulation.Rewriting

/-!
# What a run cannot get at

A program gets at a frame or an object through a value that names it. Some frames and objects are
hidden on a machine when nothing outside of them names them, neither a value of another frame or
object nor the loop that a frame yields to (`Machine.Hides`).

What runs in a frame that is not hidden, on values that name nothing hidden, leaves hidden frames
and objects as they are, and hidden (`Machine.Secludes`): a call cannot get at its caller's locals
or at the objects that only they name (`Machine.secludes_run`). A frame that is pushed may be given
any values but these, so what has to be shown of a statement is that the values it hands on name
nothing hidden (`Eval.Discreet`).

This does not cover references that were left behind by a call that has ended. They name a depth of
the stack, and with it a later frame that takes the depth.
-/

set_option autoImplicit false
set_option relaxedAutoImplicit false

namespace IteratorLowering

/-- Frames, by depth, objects, and variables of whatever frame. -/
structure Hidden where
  frame : Nat → Prop
  object : ObjId → Prop
  name : SymId → Prop

/-- No statement takes the address of a hidden variable. -/
def Program.Reserves (program : Program) (hidden : Hidden) : Prop :=
  ∀ {id}, ∀ value ∈ (program.kind id).expression?, ∀ symbol ∈ value.address?, ¬ hidden.name symbol

/-- The value names nothing that is hidden. -/
def Value.Avoids (hidden : Hidden) : Value → Prop
  | .obj id => ¬ hidden.object id
  | .ref (.field id _) => ¬ hidden.object id
  | .ref (.slot depth symbol) => ¬ hidden.frame depth ∧ ¬ hidden.name symbol
  | .void | .nil | .int _ | .bool _ | .str _ => True

/-- Nothing in the frame names anything that is hidden. -/
structure Frame.Avoids (hidden : Hidden) (held : Frame) : Prop where
  locals : ∀ {symbol : SymId} {value : Value}, held.locals.find? symbol = some value →
    value.Avoids hidden
  target : ∀ target ∈ held.yieldTo, ¬ hidden.frame target.frame

theorem Value.avoids_of_isScalar {hidden : Hidden} {value : Value} (h : value.isScalar = true) :
    value.Avoids hidden := by
  cases value with
  | obj id => cases h
  | ref place => cases h
  | _ => trivial

namespace Machine

/-- What is hidden is there, and nothing outside of it names it. -/
structure Hides (hidden : Hidden) (machine : Machine) : Prop where
  live : ∀ {depth : Nat}, hidden.frame depth → depth < machine.frames.size
  allocated : ∀ {id : ObjId}, hidden.object id → id.index < machine.heap.size
  frames : ∀ {depth : Nat} {held : Frame}, machine.frames[depth]? = some held →
    ¬ hidden.frame depth → held.Avoids hidden
  objects : ∀ {id : ObjId} {object : Object}, machine.heap[id.index]? = some object →
    ¬ hidden.object id → ∀ value ∈ object.fields, value.Avoids hidden

/-- What is hidden stays as it is, and stays hidden. -/
structure Secludes (hidden : Hidden) (machine final : Machine) : Prop where
  hides : final.Hides hidden
  size : final.frames.size = machine.frames.size
  frame : ∀ {depth : Nat}, hidden.frame depth → final.frames[depth]? = machine.frames[depth]?
  object : ∀ {id : ObjId}, hidden.object id →
    final.heap[id.index]? = machine.heap[id.index]?

variable {hidden : Hidden} {machine middle final : Machine} {depth : Nat} {symbol : SymId}
variable {id : ObjId} {position : Nat} {value : Value}

namespace Secludes

theorem refl (h : machine.Hides hidden) : machine.Secludes hidden machine :=
  ⟨h, rfl, fun _ ↦ rfl, fun _ ↦ rfl⟩

theorem trans (first : machine.Secludes hidden middle) (second : middle.Secludes hidden final) :
    machine.Secludes hidden final where
  hides := second.hides
  size := second.size.trans first.size
  frame h := (second.frame h).trans (first.frame h)
  object h := (second.object h).trans (first.object h)

/-- A change of the counters and of the traced values. -/
theorem of_same (h : machine.Hides hidden) {calls : FiniteMap FnId Nat} {output : Array Value}
    {steps : Nat} : machine.Secludes hidden { machine with calls, output, steps } :=
  ⟨⟨h.live, h.allocated, h.frames, h.objects⟩, rfl, fun _ ↦ rfl, fun _ ↦ rfl⟩

end Secludes

namespace Hides

variable (h : machine.Hides hidden)

include h

/-- A value that is read is in a frame that is not hidden. -/
theorem local_avoids {held : Frame} (hheld : machine.frames[depth]? = some held)
    (hdepth : ¬ hidden.frame depth) (hvalue : held.locals.find? symbol = some value) :
    value.Avoids hidden :=
  (h.frames hheld hdepth).locals hvalue

theorem fieldValue_avoids (hid : ¬ hidden.object id) :
    (machine.fieldValue id position).Avoids hidden := by
  unfold Machine.fieldValue Machine.object
  rw [Array.getD_eq_getD_getElem?, Array.getD_eq_getD_getElem?]
  cases hobject : machine.heap[id.index]? with
  | none => trivial
  | some object =>
    rw [Option.getD_some]
    cases hvalue : object.fields[position]? with
    | none => trivial
    | some value => exact h.objects hobject hid value (Array.mem_of_getElem? hvalue)

/-- Into a hidden frame anything may be written. -/
theorem hides_setLocal (hvalue : ¬ hidden.frame depth → value.Avoids hidden) :
    (machine.setLocal depth symbol value).Hides hidden := by
  refine ⟨fun hframe ↦ ?_, h.allocated, fun {other held} hheld hother ↦ ?_, h.objects⟩
  · simpa [Machine.setLocal] using h.live hframe
  simp only [Machine.setLocal, Array.getElem?_modify] at hheld
  split at hheld
  · rename_i heq
    obtain ⟨held', hheld', rfl⟩ := Option.map_eq_some_iff.mp hheld
    have havoids := h.frames hheld' hother
    refine ⟨fun hfound ↦ ?_, havoids.target⟩
    rcases FiniteMap.eq_or_find?_of_insert hfound with rfl | hfound
    · exact hvalue (heq ▸ hother)
    · exact havoids.locals hfound
  · exact h.frames hheld hother

theorem setLocal (hdepth : ¬ hidden.frame depth) (hvalue : value.Avoids hidden) :
    machine.Secludes hidden (machine.setLocal depth symbol value) where
  hides := h.hides_setLocal fun _ ↦ hvalue
  size := by simp [Machine.setLocal]
  frame {other} hother := by
    have hne : depth ≠ other := fun heq ↦ hdepth (heq ▸ hother)
    rw [Machine.setLocal, Array.getElem?_modify, if_neg hne]
  object _ := rfl

/-- Into a hidden object anything may be written. -/
theorem hides_setField (hvalue : ¬ hidden.object id → value.Avoids hidden) :
    (machine.setField id position value).Hides hidden := by
  refine ⟨h.live, fun hobject ↦ ?_, h.frames, fun {other object} hobject hother ↦ ?_⟩
  · simpa [Machine.setField] using h.allocated hobject
  simp only [Machine.setField, Array.getElem?_modify] at hobject
  split at hobject
  · rename_i heq
    obtain rfl : id = other := congrArg ObjId.mk heq
    obtain ⟨object', hobject', rfl⟩ := Option.map_eq_some_iff.mp hobject
    intro written hwritten
    rcases Array.mem_or_eq_of_mem_setIfInBounds hwritten with hwritten | rfl
    · exact h.objects hobject' hother written hwritten
    · exact hvalue hother
  · exact h.objects hobject hother

theorem setField (hid : ¬ hidden.object id) (hvalue : value.Avoids hidden) :
    machine.Secludes hidden (machine.setField id position value) where
  hides := h.hides_setField fun _ ↦ hvalue
  size := rfl
  frame _ := rfl
  object {other} hother := by
    have hne : id.index ≠ other.index := by
      intro heq
      obtain rfl : id = other := congrArg ObjId.mk heq
      exact hid hother
    rw [Machine.setField, Array.getElem?_modify, if_neg hne]

/-- An object that is added is not hidden. -/
theorem not_object_new : ¬ hidden.object ⟨machine.heap.size⟩ :=
  fun hnew ↦ Nat.lt_irrefl _ (h.allocated hnew)

theorem allocate {type : TypeId} {fields : Array Value}
    (hfields : ∀ value ∈ fields, value.Avoids hidden) :
    machine.Secludes hidden (machine.allocate type fields).2 where
  hides := by
    refine ⟨h.live, fun hobject ↦ ?_, h.frames, fun {other object} hobject hother ↦ ?_⟩
    · change _ < (machine.heap.push _).size
      rw [Array.size_push]
      exact Nat.lt_succ_of_lt (h.allocated hobject)
    simp only [Machine.allocate, Array.getElem?_push] at hobject
    split at hobject
    · obtain rfl := Option.some.inj hobject
      exact hfields
    · exact h.objects hobject hother
  size := rfl
  frame _ := rfl
  object hother := by
    rw [Machine.allocate, Array.getElem?_push_lt (h.allocated hother),
      Array.getElem?_eq_getElem (h.allocated hother)]

/-- A frame that is pushed is not hidden. -/
theorem not_frame_new : ¬ hidden.frame machine.frames.size :=
  fun hnew ↦ Nat.lt_irrefl _ (h.live hnew)

theorem push {held : Frame} (hheld : held.Avoids hidden) :
    Hides hidden { machine with frames := machine.frames.push held } where
  live hframe := by
    rw [Array.size_push]
    exact Nat.lt_succ_of_lt (h.live hframe)
  allocated := h.allocated
  objects := h.objects
  frames hframe hdepth := by
    simp only [Array.getElem?_push] at hframe
    split at hframe
    · obtain rfl := Option.some.inj hframe
      exact hheld
    · exact h.frames hframe hdepth

/-- A frame that was pushed is popped again. -/
theorem popped {held : Frame}
    (hfinal : Secludes hidden { machine with frames := machine.frames.push held } final) :
    machine.Secludes hidden { final with frames := final.frames.pop } where
  hides := by
    have hsize := hfinal.size
    rw [Array.size_push] at hsize
    refine ⟨fun hframe ↦ ?_, hfinal.hides.allocated, fun hframe hdepth ↦ ?_, hfinal.hides.objects⟩
    · rw [Array.size_pop, hsize]
      exact h.live hframe
    · rw [Array.getElem?_pop] at hframe
      split at hframe
      · exact hfinal.hides.frames hframe hdepth
      · cases hframe
  size := by
    have hsize := hfinal.size
    rw [Array.size_push] at hsize
    rw [Array.size_pop, hsize, Nat.add_sub_cancel]
  frame {depth} hdepth := by
    have hsize := hfinal.size
    rw [Array.size_push] at hsize
    have hlive := h.live hdepth
    rw [Array.getElem?_pop, if_pos (by omega), hfinal.frame hdepth, Array.getElem?_push_lt hlive,
      Array.getElem?_eq_getElem hlive]
  object hid := hfinal.object hid

end Hides

end Machine

namespace Eval

variable {α β : Type} {program : Program} {limits : Limits} {hidden : Hidden} {machine : Machine}
variable {frame : Nat}

/-- The computation leaves what is hidden on the machine, with a result of the given kind. -/
inductive Discreet (hidden : Hidden) (machine : Machine) (kind : α → Prop)
    (computation : Eval α) : Prop
  | done {value : α} {final : Machine} (hrun : computation machine = .ok value final)
      (hsecludes : machine.Secludes hidden final) (hkind : kind value)
  | failed {error : EvalError} {final : Machine} (hrun : computation machine = .error error final)
      (hsecludes : machine.Secludes hidden final)

/-- Values that name nothing hidden. -/
def AllAvoid (hidden : Hidden) (values : List Value) : Prop :=
  ∀ value ∈ values, value.Avoids hidden

/-- A value that is returned names nothing hidden. -/
def FlowAvoids (hidden : Hidden) (flow : Flow) : Prop :=
  ∀ value, flow = .ret value → value.Avoids hidden

theorem flowAvoids_normal : FlowAvoids hidden .normal := nofun

theorem flowAvoids_goto {label : SymId} : FlowAvoids hidden (.goto label) := nofun

theorem flowAvoids_ret {value : Value} (h : value.Avoids hidden) :
    FlowAvoids hidden (.ret value) := by
  intro returned heq
  exact Flow.ret.inj heq ▸ h

namespace Discreet

variable {kind : α → Prop} {kind' : β → Prop} {computation : Eval α} {next : α → Eval β}

theorem secludes (h : Discreet hidden machine kind computation) :
    machine.Secludes hidden (left (computation machine)) := by
  cases h with
  | done hrun hsecludes => rwa [hrun]
  | failed hrun hsecludes => rwa [hrun]

theorem of_ok (h : Discreet hidden machine kind computation) {value : α} {final : Machine}
    (hrun : computation machine = .ok value final) :
    machine.Secludes hidden final ∧ kind value := by
  cases h with
  | done hrun' hsecludes hkind =>
    cases hrun.symm.trans hrun'
    exact ⟨hsecludes, hkind⟩
  | failed hrun' => cases hrun.symm.trans hrun'

theorem pure (h : machine.Hides hidden) {value : α} (hkind : kind value) :
    Discreet hidden machine kind (Pure.pure value) :=
  .done rfl (.refl h) hkind

theorem throw (h : machine.Hides hidden) {error : EvalError} :
    Discreet hidden machine kind (MonadExcept.throw error) :=
  .failed rfl (.refl h)

theorem unsupported (h : machine.Hides hidden) {situation : Unsupported} :
    Discreet hidden machine kind (Eval.unsupported situation) :=
  .throw h

theorem get_bind {next : Machine → Eval β} (h : Discreet hidden machine kind' (next machine)) :
    Discreet hidden machine kind' (MonadState.get >>= next) := by
  cases h with
  | done hrun hsecludes hkind => exact .done hrun hsecludes hkind
  | failed hrun hsecludes => exact .failed hrun hsecludes

theorem modify {change : Machine → Machine} (h : machine.Secludes hidden (change machine)) :
    Discreet hidden machine (fun _ ↦ True) (modify change : Eval PUnit) :=
  .done rfl h trivial

theorem bind (h : Discreet hidden machine kind computation)
    (hnext : ∀ value final, final.Hides hidden → kind value →
      Discreet hidden final kind' (next value)) :
    Discreet hidden machine kind' (computation >>= next) := by
  cases h with
  | done hrun hsecludes hkind =>
    cases hnext _ _ hsecludes.hides hkind with
    | done hrun' hsecludes' hkind' =>
      exact .done ((bind_of_ok hrun).trans hrun') (hsecludes.trans hsecludes') hkind'
    | failed hrun' hsecludes' =>
      exact .failed ((bind_of_ok hrun).trans hrun') (hsecludes.trans hsecludes')
  | failed hrun hsecludes => exact .failed (bind_of_error hrun) hsecludes

/-- A body that runs in a frame of its own, in which nothing names what is hidden. -/
theorem withFrame {held : Frame} {body : Nat → Eval α} (h : machine.Hides hidden)
    (hheld : held.Avoids hidden)
    (hbody : ∀ pushed : Machine, pushed.Hides hidden → ¬ hidden.frame machine.frames.size →
      Discreet hidden pushed kind (body machine.frames.size)) :
    Discreet hidden machine (fun ended ↦ kind ended.1 ∧ ended.2.Avoids hidden)
      (Eval.withFrame held body) := by
  cases hbody _ (h.push hheld) h.not_frame_new with
  | @done value final hrun hsecludes hkind =>
    refine .done (withFrame_of_ok hrun) (h.popped hsecludes) ⟨hkind, ?_⟩
    cases hback : final.frames.back? with
    | none => exact hheld
    | some left =>
      rw [Array.back?_eq_getElem?, hsecludes.size, Array.size_push, Nat.add_sub_cancel] at hback
      exact hsecludes.hides.frames hback h.not_frame_new
  | failed hrun hsecludes => exact .failed (withFrame_of_error hrun) (h.popped hsecludes)

end Discreet

/-! ### Storage -/

section

variable (h : machine.Hides hidden)

include h

theorem discreet_read {symbol : SymId} (hframe : ¬ hidden.frame frame) :
    Discreet hidden machine (Value.Avoids hidden) (read program frame symbol) := by
  unfold read
  apply Discreet.get_bind
  split
  · exact .unsupported h
  · rename_i held hheld
    split
    · rename_i value hvalue
      exact .pure h (h.local_avoids hheld hframe hvalue)
    · exact .throw h

theorem discreet_load {place : Place} (hplace : (Value.ref place).Avoids hidden) :
    Discreet hidden machine (Value.Avoids hidden) (load program place) := by
  cases place with
  | slot frame symbol => exact discreet_read h hplace.1
  | field id position => exact .get_bind (.pure h (h.fieldValue_avoids hplace))

theorem discreet_setLocal {symbol : SymId} {value : Value} (hframe : ¬ hidden.frame frame)
    (hvalue : value.Avoids hidden) :
    Discreet hidden machine (fun _ ↦ True)
      (modify fun machine ↦ machine.setLocal frame symbol value) :=
  .modify (h.setLocal hframe hvalue)

theorem discreet_setField {id : ObjId} {position : Nat} {value : Value}
    (hid : ¬ hidden.object id) (hvalue : value.Avoids hidden) :
    Discreet hidden machine (fun _ ↦ True)
      (modify fun machine ↦ machine.setField id position value) :=
  .modify (h.setField hid hvalue)

theorem discreet_countCall {function : FnId} :
    Discreet hidden machine (fun _ ↦ True) (modify fun machine ↦ machine.countCall function) :=
  .modify (.of_same h)

theorem discreet_store {place : Place} {value : Value} (hplace : (Value.ref place).Avoids hidden)
    (hvalue : value.Avoids hidden) :
    Discreet hidden machine (fun _ ↦ True) (store place value) := by
  cases place with
  | slot frame symbol =>
    apply Discreet.get_bind
    split
    · exact discreet_setLocal h hplace.1 hvalue
    · exact .unsupported h
  | field id position => exact discreet_setField h hplace hvalue

theorem discreet_objectOf {symbol : SymId} (hframe : ¬ hidden.frame frame) :
    Discreet hidden machine (fun id ↦ ¬ hidden.object id) (objectOf program frame symbol) := by
  unfold objectOf
  apply Discreet.bind (discreet_read h hframe)
  intro value final hfinal hvalue
  split
  · exact .pure hfinal hvalue
  · apply Discreet.bind (discreet_load hfinal hvalue)
    intro seen final hfinal hseen
    split
    · exact .pure hfinal hseen
    · exact .throw hfinal
  · exact .throw hfinal

theorem discreet_fieldIndex {id : ObjId} {field : FieldRef} :
    Discreet hidden machine (fun _ ↦ True) (fieldIndex program id field) := by
  unfold fieldIndex
  apply Discreet.get_bind
  dsimp only
  split
  · exact .pure h trivial
  · exact .throw h

theorem discreet_operand {operand : Operand} (hframe : ¬ hidden.frame frame) :
    Discreet hidden machine (Value.Avoids hidden) (Eval.operand program frame operand) := by
  unfold Eval.operand
  split
  · exact discreet_read h hframe
  all_goals exact .pure h trivial

theorem discreet_operands {operands : List Operand} (hframe : ¬ hidden.frame frame) :
    Discreet hidden machine (AllAvoid hidden) (operands.mapM (Eval.operand program frame)) := by
  induction operands generalizing machine with
  | nil => exact .pure h (by intro value hvalue; cases hvalue)
  | cons operand rest ih =>
    rw [List.mapM_cons]
    apply Discreet.bind (discreet_operand h hframe)
    intro value middle hmiddle hvalue
    apply Discreet.bind (ih hmiddle)
    intro values final hfinal hvalues
    exact .pure hfinal (List.forall_mem_cons.mpr ⟨hvalue, hvalues⟩)

theorem discreet_truth {condition : Operand} (hframe : ¬ hidden.frame frame) :
    Discreet hidden machine (fun _ ↦ True) (truth program frame condition) := by
  unfold truth
  apply Discreet.bind (discreet_operand h hframe)
  intro value final hfinal _
  split
  · exact .pure hfinal trivial
  · exact .throw hfinal

/-! ### Values that are made -/

omit h in
theorem isScalar_fieldDefault {kind : TypeKind} : (fieldDefault kind).isScalar = true := by
  cases kind <;> rfl

theorem discreet_defaultValue {type : TypeId} :
    Discreet hidden machine (Value.Avoids hidden) (defaultValue program type) := by
  unfold defaultValue
  dsimp only
  split
  · refine .done rfl (h.allocate fun value hvalue ↦ ?_) h.not_object_new
    simp only [List.mem_toArray, List.mem_map] at hvalue
    obtain ⟨field, -, rfl⟩ := hvalue
    exact Value.avoids_of_isScalar isScalar_fieldDefault
  · exact .pure h (Value.avoids_of_isScalar isScalar_fieldDefault)

omit h in
theorem avoids_castTo {kind : TypeKind} {value : Value} (hvalue : value.Avoids hidden) :
    (castTo kind value).Avoids hidden := by
  unfold castTo
  split
  · cases value.asInt? with
    | none => exact hvalue
    | some number => trivial
  · cases value.asBool? with
    | none => exact hvalue
    | some holds => trivial
  all_goals exact hvalue

theorem discreet_primitive {op : PrimOp} {values : List Value} :
    Discreet hidden machine (Value.Avoids hidden) (ofExcept (primitive op values)) := by
  cases hresult : primitive op values with
  | ok value =>
    have hscalar : value.isScalar = true := Scalar.primitive value hresult
    exact .pure h (Value.avoids_of_isScalar hscalar)
  | error error => exact .throw h

/-! ### Calls that run no body -/

theorem discreet_callExternal {name : String} {args : List Value} :
    Discreet hidden machine (Value.Avoids hidden) (callExternal name args) := by
  unfold callExternal
  split
  · apply Discreet.bind (.modify (.of_same h))
    intro _ final hfinal _
    exact .pure hfinal trivial
  · exact .unsupported h

theorem discreet_fillFields {id : ObjId} {position : Nat} {values : List Value}
    (hid : ¬ hidden.object id) (hvalues : AllAvoid hidden values) :
    Discreet hidden machine (fun _ ↦ True) (fillFields id position values) := by
  induction values generalizing position machine with
  | nil => exact .pure h trivial
  | cons value rest ih =>
    obtain ⟨hvalue, hrest⟩ := List.forall_mem_cons.mp hvalues
    apply Discreet.bind (discreet_setField h hid hvalue)
    intro _ final hfinal _
    exact ih hfinal hrest

theorem discreet_buildInstance {definition : FnDef} {args : List Value}
    (hargs : AllAvoid hidden args) :
    Discreet hidden machine (Value.Avoids hidden) (buildInstance program definition args) := by
  unfold buildInstance
  split
  · exact .unsupported h
  · apply Discreet.bind (discreet_defaultValue h)
    intro record middle hmiddle hrecord
    split
    · apply Discreet.bind (discreet_fillFields hmiddle hrecord hargs)
      intro _ final hfinal _
      exact .pure hfinal hrecord
    · exact .throw hmiddle

theorem discreet_tableFunction {slot : Value} :
    Discreet hidden machine (fun _ ↦ True) (tableFunction program slot) := by
  unfold tableFunction
  split
  · exact .throw h
  · split
    · exact .pure h trivial
    · exact .throw h

theorem discreet_classOf? {value : Value} (hvalue : value.Avoids hidden) :
    Discreet hidden machine (fun _ ↦ True) (classOf? program value) := by
  unfold classOf?
  extract_lets rest
  have hrest (seen : Value) {final : Machine} (hfinal : final.Hides hidden) :
      Discreet hidden final (fun _ ↦ True) (rest seen) := by
    simp only [rest]
    split
    · exact .get_bind (.pure hfinal trivial)
    · exact .pure hfinal trivial
  split
  · apply Discreet.bind (discreet_load h hvalue)
    intro seen final hfinal _
    exact hrest seen hfinal
  · exact hrest value h

/-! ### Frames -/

omit h in
theorem avoids_bindFormals {formals : List SymId} {args : List Value}
    (hargs : AllAvoid hidden args) {symbol : SymId} {value : Value}
    (hvalue : (bindFormals formals args).find? symbol = some value) : value.Avoids hidden := by
  -- Induction over the bindings, with the locals that are there already kept general.
  have hfold (bindings : List (SymId × Value)) (locals : FiniteMap SymId Value)
      (hbindings : ∀ binding ∈ bindings, binding.2.Avoids hidden)
      (hlocals : ∀ other found, locals.find? other = some found → found.Avoids hidden) :
      ∀ other found, (bindings.foldl (fun locals binding ↦ locals.insert binding.1 binding.2)
        locals).find? other = some found → found.Avoids hidden := by
    induction bindings generalizing locals with
    | nil => exact hlocals
    | cons binding rest ih =>
      obtain ⟨hbinding, hrest⟩ := List.forall_mem_cons.mp hbindings
      refine ih _ hrest fun other found hfound ↦ ?_
      rcases FiniteMap.eq_or_find?_of_insert hfound with rfl | hfound
      · exact hbinding
      · exact hlocals other found hfound
  refine hfold (formals.zip args) .empty (fun binding hbinding ↦ ?_) nofun symbol value hvalue
  exact hargs binding.2 (List.of_mem_zip hbinding).2

theorem allAvoid_instanceArgs {id : ObjId} {headerFields : Nat} {formals : List SymId}
    (hid : ¬ hidden.object id) :
    AllAvoid hidden (instanceArgs (machine.object id) headerFields formals) := by
  intro value hvalue
  obtain ⟨position, -, rfl⟩ := List.mem_map.mp hvalue
  exact h.fieldValue_avoids hid

theorem discreet_checkDepth : Discreet hidden machine (fun _ ↦ True) (checkDepth limits) := by
  apply Discreet.get_bind
  split
  · exact .throw h
  · exact .pure h trivial

theorem discreet_tick : Discreet hidden machine (fun _ ↦ True) (tick limits) := by
  apply Discreet.bind (.modify (.of_same h))
  intro _ final hfinal _
  apply Discreet.get_bind
  split
  · exact .throw hfinal
  · exact .pure hfinal trivial

/-! ### Statements -/

end

/-- Statements of frames that are not hidden are discreet. -/
def DiscreetExecutor (hidden : Hidden) (execute : Executor) : Prop :=
  ∀ (machine : Machine) (frame : Nat) (id : StmtId), machine.Hides hidden → ¬ hidden.frame frame →
    Discreet hidden machine (FlowAvoids hidden) (execute frame id)

section

variable {rounds : Nat} {execute : Executor} (h : machine.Hides hidden)
variable (hexecute : DiscreetExecutor hidden execute)

include h hexecute

theorem discreet_runList (hframe : ¬ hidden.frame frame) {body rest : List StmtId} :
    Discreet hidden machine (FlowAvoids hidden)
      (runList program (execute frame) body rounds rest) := by
  induction rounds generalizing rest machine with
  | zero =>
    cases rest with
    | nil => exact .pure h flowAvoids_normal
    | cons id rest => exact .throw h
  | succ rounds ih =>
    cases rest with
    | nil => exact .pure h flowAvoids_normal
    | cons id rest =>
      apply Discreet.bind (hexecute machine frame id h hframe)
      intro flow final hfinal hflow
      cases flow with
      | normal => exact ih hfinal
      | ret value => exact .pure hfinal hflow
      | goto label =>
        dsimp only
        split
        · exact ih hfinal
        · exact .pure hfinal flowAvoids_goto

omit h hexecute in
theorem discreet_runWhile (h : machine.Hides hidden) (hframe : ¬ hidden.frame frame)
    {condition : Operand} {round : Eval Flow}
    (hround : ∀ {machine : Machine}, machine.Hides hidden →
      Discreet hidden machine (FlowAvoids hidden) round) :
    Discreet hidden machine (FlowAvoids hidden)
      (runWhile (truth program frame condition) round rounds) := by
  induction rounds generalizing machine with
  | zero => exact .throw h
  | succ rounds ih =>
    apply Discreet.bind (discreet_truth h hframe)
    intro holds tested htested _
    split
    · apply Discreet.bind (hround htested)
      intro flow final hfinal hflow
      cases flow with
      | normal => exact ih hfinal
      | ret value => exact .pure hfinal hflow
      | goto label => exact .pure hfinal flowAvoids_goto
    · exact .pure htested flowAvoids_normal

/-- A call runs the body in a frame of its own. -/
theorem discreet_call {function : FnId} {args : List Value} (hargs : AllAvoid hidden args) :
    Discreet hidden machine (Value.Avoids hidden)
      (call program limits execute function args) := by
  unfold call
  apply Discreet.bind (discreet_countCall h)
  intro _ counted hcounted _
  dsimp only
  split
  · exact discreet_callExternal hcounted
  split
  · exact discreet_buildInstance hcounted hargs
  apply Discreet.bind (discreet_checkDepth hcounted)
  intro _ checked hchecked _
  apply Discreet.bind (.withFrame hchecked ⟨avoids_bindFormals hargs,
    fun _ hnone ↦ (Option.not_mem_none _ hnone).elim⟩
    fun pushed hpushed hnew ↦ hexecute pushed _ _ hpushed hnew)
  rintro ⟨flow, left⟩ final hfinal ⟨hflow, hleft⟩
  cases flow with
  | ret value => exact .pure hfinal (hflow value rfl)
  | normal =>
    refine .pure hfinal ?_
    cases hresult : (program.function function).retSym.bind left.locals.find? with
    | none => trivial
    | some value =>
      obtain ⟨symbol, -, hfound⟩ := Option.bind_eq_some_iff.mp hresult
      exact hleft.locals hfound
  | goto label => exact .throw hfinal

theorem discreet_expression (hframe : ¬ hidden.frame frame) {value : Expr}
    (hvalue : ∀ symbol ∈ value.address?, ¬ hidden.name symbol) :
    Discreet hidden machine (Value.Avoids hidden)
      (expression program limits execute frame value) := by
  cases value with
  | use operand => exact discreet_operand h hframe
  | prim op args =>
    apply Discreet.bind (discreet_operands h hframe)
    intro values final hfinal _
    exact discreet_primitive hfinal
  | call callee args =>
    apply Discreet.bind (discreet_operands h hframe)
    intro values final hfinal hvalues
    exact discreet_call hfinal hexecute hvalues
  | tableCall slot args =>
    apply Discreet.bind (discreet_operand h hframe)
    intro slot middle hmiddle _
    apply Discreet.bind (discreet_tableFunction hmiddle)
    intro callee middle hmiddle _
    apply Discreet.bind (discreet_operands hmiddle hframe)
    intro values final hfinal hvalues
    exact discreet_call hfinal hexecute hvalues
  | fieldAddress base field =>
    apply Discreet.bind (discreet_objectOf h hframe)
    intro object middle hmiddle hobject
    apply Discreet.bind (discreet_fieldIndex hmiddle)
    intro position final hfinal _
    exact .pure hfinal hobject
  | fieldValue base field =>
    apply Discreet.bind (discreet_objectOf h hframe)
    intro object middle hmiddle hobject
    apply Discreet.bind (discreet_fieldIndex hmiddle)
    intro position final hfinal _
    exact .get_bind (.pure hfinal (hfinal.fieldValue_avoids hobject))
  | cast type operand =>
    apply Discreet.bind (discreet_operand h hframe)
    intro value final hfinal hvalue
    exact .pure hfinal (avoids_castTo hvalue)
  | hasClass symbol type =>
    apply Discreet.bind (discreet_read h hframe)
    intro value middle hmiddle hvalue
    apply Discreet.bind (discreet_classOf? hmiddle hvalue)
    intro found final hfinal _
    exact .pure hfinal trivial
  | addressOf symbol => exact .pure h ⟨hframe, hvalue symbol rfl⟩
  | deref symbol =>
    apply Discreet.bind (discreet_read h hframe)
    intro held final hfinal hheld
    split
    · exact discreet_load hfinal hheld
    · exact .throw hfinal

/-- A yield runs the body of the loop in the frame that consumes the values, which is not hidden
either. -/
theorem discreet_yieldValue (hframe : ¬ hidden.frame frame) {value : Value}
    (hvalue : value.Avoids hidden) :
    Discreet hidden machine (FlowAvoids hidden)
      (yieldValue program execute rounds frame value) := by
  unfold yieldValue
  apply Discreet.get_bind
  split
  · exact .throw h
  · rename_i target htarget
    obtain ⟨held, hheld, hyield⟩ := Option.bind_eq_some_iff.mp htarget
    have hconsumer : ¬ hidden.frame target.frame := (h.frames hheld hframe).target target hyield
    apply Discreet.bind (discreet_setLocal h hconsumer hvalue)
    intro _ middle hmiddle _
    dsimp only
    apply Discreet.bind (discreet_runList hmiddle hexecute hconsumer)
    intro flow final hfinal _
    cases flow with
    | normal => exact .pure hfinal flowAvoids_normal
    | ret value => exact .unsupported hfinal
    | goto label => exact .unsupported hfinal

/-- A loop runs its iterator in a frame whose yields lead to the frame of the loop. -/
theorem discreet_naiveFor (hframe : ¬ hidden.frame frame) {loop : StmtId} {info : BlockInfo} :
    Discreet hidden machine (FlowAvoids hidden)
      (naiveFor program limits execute frame loop info) := by
  unfold naiveFor
  split
  · exact .unsupported h
  rename_i index iterator _
  apply Discreet.get_bind
  apply Discreet.bind (discreet_objectOf h hframe)
  intro object found hfound hobject
  dsimp only
  split
  · exact .unsupported hfound
  split
  · exact .unsupported hfound
  rename_i function _
  have hargs (headerFields : Nat) (formals : List SymId) :
      AllAvoid hidden (instanceArgs (machine.object object) headerFields formals) :=
    allAvoid_instanceArgs h hobject
  apply Discreet.bind (discreet_checkDepth hfound)
  intro _ checked hchecked _
  apply Discreet.bind (discreet_countCall hchecked)
  intro _ counted hcounted _
  apply Discreet.bind (.withFrame hcounted ⟨avoids_bindFormals (hargs _ _), ?_⟩
    fun pushed hpushed hnew ↦ hexecute pushed _ _ hpushed hnew)
  · rintro ⟨flow, left⟩ final hfinal -
    cases flow with
    | normal => exact .pure hfinal flowAvoids_normal
    | ret value => exact .pure hfinal flowAvoids_normal
    | goto label => exact .throw hfinal
  · intro target htarget
    obtain rfl := Option.some.inj htarget
    exact hframe

theorem discreet_action (hframe : ¬ hidden.frame frame) {inner : Action}
    (hinner : ∀ value ∈ inner.expression?, ∀ symbol ∈ value.address?, ¬ hidden.name symbol) :
    Discreet hidden machine (FlowAvoids hidden)
      (action program limits execute rounds frame inner) := by
  cases inner with
  | define symbol =>
    simp only [action]
    split
    · exact .pure h flowAvoids_normal
    · apply Discreet.bind (discreet_defaultValue h)
      intro value middle hmiddle hvalue
      apply Discreet.bind (discreet_setLocal hmiddle hframe hvalue)
      intro _ final hfinal _
      exact .pure hfinal flowAvoids_normal
  | assign target value =>
    apply Discreet.bind (discreet_expression h hexecute hframe (hinner value rfl))
    intro value middle hmiddle hvalue
    apply Discreet.bind (discreet_setLocal hmiddle hframe hvalue)
    intro _ final hfinal _
    exact .pure hfinal flowAvoids_normal
  | store reference value =>
    apply Discreet.bind (discreet_operand h hframe)
    intro value middle hmiddle hvalue
    apply Discreet.bind (discreet_read hmiddle hframe)
    intro held middle hmiddle hheld
    split
    · apply Discreet.bind (discreet_store hmiddle hheld hvalue)
      intro _ final hfinal _
      exact .pure hfinal flowAvoids_normal
    · exact .throw hmiddle
  | setField base field value =>
    apply Discreet.bind (discreet_operand h hframe)
    intro value middle hmiddle hvalue
    apply Discreet.bind (discreet_objectOf hmiddle hframe)
    intro object middle hmiddle hobject
    apply Discreet.bind (discreet_fieldIndex hmiddle)
    intro position middle hmiddle _
    apply Discreet.bind (discreet_setField hmiddle hobject hvalue)
    intro _ final hfinal _
    exact .pure hfinal flowAvoids_normal
  | evaluate value =>
    apply Discreet.bind (discreet_expression h hexecute hframe (hinner value rfl))
    intro _ final hfinal _
    exact .pure hfinal flowAvoids_normal
  | yield value =>
    apply Discreet.bind (discreet_operand h hframe)
    intro value middle hmiddle hvalue
    exact discreet_yieldValue hmiddle hexecute hframe hvalue
  | ret value =>
    apply Discreet.bind (discreet_operand h hframe)
    intro value final hfinal hvalue
    exact .pure hfinal (flowAvoids_ret hvalue)
  | goto label => exact .pure h flowAvoids_goto
  | fail message => exact .throw h
  | noop => exact .pure h flowAvoids_normal

theorem discreet_statement (hframe : ¬ hidden.frame frame) (hreserves : program.Reserves hidden)
    {id : StmtId} :
    Discreet hidden machine (FlowAvoids hidden)
      (statement program limits execute rounds frame id) := by
  unfold statement
  split
  next inner hkind =>
    have hinner (value : Expr) (hvalue : value ∈ inner.expression?) :
        value ∈ (program.kind id).expression? := by
      rw [hkind]
      exact hvalue
    exact discreet_action h hexecute hframe fun value hvalue ↦ hreserves value (hinner value hvalue)
  · apply Discreet.bind (discreet_truth h hframe)
    intro holds tested htested _
    split
    · exact hexecute tested frame _ htested hframe
    · split
      · exact hexecute tested frame _ htested hframe
      · exact .pure htested flowAvoids_normal
  · exact discreet_runWhile h hframe fun h ↦ discreet_runList h hexecute hframe
  · exact discreet_naiveFor h hexecute hframe
  · exact discreet_runList h hexecute hframe

end

theorem discreet_execute (hreserves : program.Reserves hidden) {fuel : Nat} :
    DiscreetExecutor hidden (execute program limits fuel) := by
  induction fuel with
  | zero =>
    intro machine frame id h hframe
    exact .throw h
  | succ fuel ih =>
    intro machine frame id h hframe
    apply Discreet.bind (discreet_tick h)
    intro _ ticked hticked _
    exact discreet_statement hticked ih hframe hreserves

end Eval

namespace Machine

variable {program : Program} {limits : Limits} {hidden : Hidden} {machine final : Machine}
variable {function : FnId} {args : List Value} {value : Value}

/-- The result of a call names nothing hidden. -/
theorem secludes_of_run (h : machine.Hides hidden) (hreserves : program.Reserves hidden)
    (hargs : ∀ arg ∈ args, arg.Avoids hidden)
    (hrun : machine.run program limits function args = .ok value final) :
    machine.Secludes hidden final ∧ value.Avoids hidden :=
  (Eval.discreet_call h (Eval.discreet_execute hreserves) hargs).of_ok hrun

/-- A call on values that name nothing hidden leaves what is hidden as it is, whether or not it
gives a result, and a result that it gives names nothing hidden. -/
theorem secludes_run (h : machine.Hides hidden) (hreserves : program.Reserves hidden)
    (hargs : ∀ arg ∈ args, arg.Avoids hidden) :
    machine.Secludes hidden (Eval.left (machine.run program limits function args)) ∧
      ∀ value final, machine.run program limits function args = .ok value final →
        value.Avoids hidden :=
  ⟨(Eval.discreet_call h (Eval.discreet_execute hreserves) hargs).secludes,
    fun _ _ hrun ↦ (secludes_of_run h hreserves hargs hrun).2⟩

/-- A function that writes its argument and returns it. -/
def writesCell : Program where
  types := builtinTypes.push { name := "Cell", kind := .heapClass, fields := [⟨"v", .int⟩] }
  symbols := #[{ name := "c", kind := .arg, type := ⟨5⟩, owner := some ⟨0⟩ }]
  statements := #[
    { kind := .plain [⟨1⟩, ⟨2⟩], bodyOf := some ⟨0⟩, span := .none },
    { kind := .action (.setField ⟨0⟩ (.index 0) (.int 5)), parent := some ⟨0⟩, span := .none },
    { kind := .action (.ret (.sym ⟨0⟩)), parent := some ⟨0⟩, span := .none }]
  functions := #[{ name := "write", formals := [⟨0⟩], retType := ⟨5⟩, body := ⟨0⟩ }]

/-- A caller with a cell of its own, and another cell. -/
def holdsOwnCell : Machine where
  heap := #[{ type := ⟨5⟩, fields := #[.int 1] }, { type := ⟨5⟩, fields := #[.int 2] }]
  frames := #[{ function := ⟨0⟩, locals := FiniteMap.empty.insert ⟨0⟩ (.obj ⟨0⟩) }]

/-- The function writes the cell that it is called with, and not the one of the caller. -/
theorem secludes_run_writesCell :
    let called := holdsOwnCell.run writesCell {} ⟨0⟩ [.obj ⟨1⟩]
    (Eval.left called).frames[0]? = holdsOwnCell.frames[0]? ∧
      (Eval.left called).heap[0]? = holdsOwnCell.heap[0]? ∧
      (Eval.left called).fieldValue ⟨1⟩ 0 = .int 5 := by
  intro called
  let own : Hidden := ⟨(· = 0), (· = ⟨0⟩), fun _ ↦ False⟩
  have hhides : holdsOwnCell.Hides own := by
    refine ⟨fun hdepth ↦ hdepth ▸ Nat.one_pos, fun hid ↦ hid ▸ Nat.two_pos, ?_, ?_⟩
    · intro depth held hheld hdepth
      exact absurd (Array.getElem?_eq_some_iff.mp hheld).1 (by
        simpa [holdsOwnCell, Nat.lt_one_iff] using hdepth)
    · intro id object hobject hid value hvalue
      have hvalues : ∀ object ∈ holdsOwnCell.heap, ∀ value ∈ object.fields,
          value.isScalar = true := by decide
      exact Value.avoids_of_isScalar (hvalues object (Array.mem_of_getElem? hobject) value hvalue)
  have hargs : ∀ arg ∈ [Value.obj ⟨1⟩], arg.Avoids own := by
    intro arg harg
    obtain rfl := List.mem_singleton.mp harg
    exact fun hid ↦ absurd (congrArg ObjId.index hid) (by decide)
  have hreserves : writesCell.Reserves own := fun _ _ _ _ ↦ not_false
  have hsecludes : holdsOwnCell.Secludes own (Eval.left called) :=
    (secludes_run hhides hreserves hargs).1
  exact ⟨hsecludes.frame rfl, hsecludes.object rfl, by decide +kernel⟩

end Machine

end IteratorLowering
