import IteratorLowering.Proofs.Evaluation.Budget
import IteratorLowering.Proofs.Evaluation.Sound

/-!
# Runs of sound machines

`Settles` follows two computations from one sound machine. They end in the same way, the machine
that they leave has evolved from the one they began with and is sound again, and a result has a
property of its own: a value is grounded in the heap that is left, a position is one of the object's
fields. Where the two computations are one, this is what the computation keeps (`Settled`).

The computations that run no statement settle one by one. Those that do are compared for two
executors, of which nothing is known but that they settle wherever the machine is sound and the
frame is on the stack. So no such computation asks for more: it runs a statement only in a frame
that is there, on a machine that is sound (`settles_call`, `settles_statement`).
-/

set_option autoImplicit false
set_option relaxedAutoImplicit false

namespace IteratorLowering

namespace Eval

variable {α β : Type} {program : Program} {limits : Limits} {machine : Machine} {frame : Nat}

/-- From the machine both computations end in the same way and leave a machine that is sound, with
a result of the given kind. -/
inductive Settles (program : Program) (limits : Limits) (machine : Machine)
    (kind : α → Machine → Prop) (first second : Eval α) : Prop
  | done {value : α} {final : Machine} (hfirst : first machine = .ok value final)
      (hsecond : second machine = .ok value final) (hevolves : machine.Evolves program final)
      (hsound : final.Sound program limits) (hkind : kind value final)
  | failed {error : EvalError} {final : Machine} (hfirst : first machine = .error error final)
      (hsecond : second machine = .error error final) (hevolves : machine.Evolves program final)
      (hsound : final.Sound program limits)

/-- The computation leaves a machine that is sound, with a result of the given kind. -/
abbrev Settled (program : Program) (limits : Limits) (machine : Machine)
    (kind : α → Machine → Prop) (computation : Eval α) : Prop :=
  Settles program limits machine kind computation computation

/-- The value is grounded. -/
def Held (value : Value) (final : Machine) : Prop := value.GroundedIn final.heap

/-- The values are grounded. -/
def AllHeld (values : List Value) (final : Machine) : Prop :=
  ∀ value ∈ values, value.GroundedIn final.heap

/-- A value that is returned is grounded. -/
def FlowHeld (flow : Flow) (final : Machine) : Prop :=
  ∀ value, flow = .ret value → value.GroundedIn final.heap

/-- The object is on the heap. -/
def Allocated (id : ObjId) (final : Machine) : Prop := id.index < final.heap.size

/-- Every result will do. -/
def Anything (_value : α) (_final : Machine) : Prop := True

theorem AllHeld.mono {values : List Value} {final : Machine} (h : AllHeld values machine)
    (hevolves : machine.Evolves program final) : AllHeld values final :=
  fun value hvalue ↦ (h value hvalue).mono hevolves

namespace Settles

variable {kind : α → Machine → Prop} {next next' : α → Eval β}
variable {first second : Eval α}

theorem eq (h : Settles program limits machine kind first second) :
    first machine = second machine := by
  cases h with
  | done hfirst hsecond => rw [hfirst, hsecond]
  | failed hfirst hsecond => rw [hfirst, hsecond]

theorem evolves (h : Settles program limits machine kind first second) :
    machine.Evolves program (left (second machine)) := by
  cases h with
  | done _ hsecond hevolves => rw [hsecond]; exact hevolves
  | failed _ hsecond hevolves => rw [hsecond]; exact hevolves

theorem sound (h : Settles program limits machine kind first second) :
    (left (second machine)).Sound program limits := by
  cases h with
  | done _ hsecond _ hsound => rw [hsecond]; exact hsound
  | failed _ hsecond _ hsound => rw [hsecond]; exact hsound

theorem pure (h : machine.Sound program limits) {value : α} (hkind : kind value machine) :
    Settled program limits machine kind (Pure.pure value) :=
  .done rfl rfl (.refl program machine) h hkind

theorem throw (h : machine.Sound program limits) {error : EvalError} :
    Settled program limits machine kind (MonadExcept.throw error) :=
  .failed rfl rfl (.refl program machine) h

theorem unsupported (h : machine.Sound program limits) {situation : Unsupported} :
    Settled program limits machine kind (Eval.unsupported situation) :=
  .throw h

theorem get_bind {next next' : Machine → Eval β} {kind : β → Machine → Prop}
    (h : Settles program limits machine kind (next machine) (next' machine)) :
    Settles program limits machine kind (MonadState.get >>= next) (MonadState.get >>= next') := by
  cases h with
  | done hfirst hsecond hevolves hsound hkind => exact .done hfirst hsecond hevolves hsound hkind
  | failed hfirst hsecond hevolves hsound => exact .failed hfirst hsecond hevolves hsound

theorem modify {change : Machine → Machine} (hevolves : machine.Evolves program (change machine))
    (hsound : (change machine).Sound program limits) :
    Settled program limits machine Anything (modify change : Eval PUnit) :=
  .done rfl rfl hevolves hsound trivial

theorem bind {kind' : β → Machine → Prop} (h : Settles program limits machine kind first second)
    (hnext : ∀ value final, machine.Evolves program final → final.Sound program limits →
      kind value final → Settles program limits final kind' (next value) (next' value)) :
    Settles program limits machine kind' (first >>= next) (second >>= next') := by
  cases h with
  | done hfirst hsecond hevolves hsound hkind =>
    cases hnext _ _ hevolves hsound hkind with
    | done hfirst' hsecond' hevolves' hsound' hkind' =>
      exact .done ((bind_of_ok hfirst).trans hfirst') ((bind_of_ok hsecond).trans hsecond')
        (hevolves.trans hevolves') hsound' hkind'
    | failed hfirst' hsecond' hevolves' hsound' =>
      exact .failed ((bind_of_ok hfirst).trans hfirst') ((bind_of_ok hsecond).trans hsecond')
        (hevolves.trans hevolves') hsound'
  | failed hfirst hsecond hevolves hsound =>
    exact .failed (bind_of_error hfirst) (bind_of_error hsecond) hevolves hsound

/-- A body that runs in a frame of its own, for which there is room. -/
theorem withFrame {held : Frame} {body body' : Nat → Eval α} (h : machine.Sound program limits)
    (hroom : machine.frames.size < limits.maxDepth)
    (htarget : ∀ target ∈ held.yieldTo, target.frame < machine.frames.size)
    (hheld : held.GroundedIn machine.heap)
    (hbody : ∀ pushed : Machine, pushed.Sound program limits →
      machine.frames.size < pushed.frames.size →
        Settles program limits pushed kind (body machine.frames.size) (body' machine.frames.size))
    (hpop : ∀ {value : α} {final : Machine}, kind value final →
      kind value { final with frames := final.frames.pop }) :
    Settles program limits machine
      (fun ended final ↦ kind ended.1 final ∧ ended.2.GroundedIn final.heap)
      (Eval.withFrame held body) (Eval.withFrame held body') := by
  have hpushed := h.push hroom htarget hheld
  cases hbody _ hpushed (by rw [Array.size_push]; exact Nat.lt_succ_self _) with
  | done hfirst hsecond hevolves hsound hkind =>
    refine .done (withFrame_of_ok hfirst) (withFrame_of_ok hsecond) hevolves.popped hsound.pop
      ⟨hpop hkind, ?_⟩
    rename_i value final
    cases hback : final.frames.back? with
    | none => exact hheld.mono hevolves.popped
    | some left =>
      rw [Array.back?_eq_getElem?] at hback
      exact hsound.locals hback
  | failed hfirst hsecond hevolves hsound =>
    exact .failed (withFrame_of_error hfirst) (withFrame_of_error hsecond) hevolves.popped
      hsound.pop

end Settles

/-! ### Storage -/

variable (h : machine.Sound program limits)

include h

theorem settled_read {symbol : SymId} :
    Settled program limits machine Held (read program frame symbol) := by
  unfold read
  apply Settles.get_bind
  split
  · exact .unsupported h
  · rename_i held hheld
    split
    · rename_i value hvalue
      exact .pure h (h.locals hheld symbol value hvalue)
    · exact .throw h

theorem settled_load {place : Place} :
    Settled program limits machine Held (load program place) := by
  cases place with
  | slot frame symbol => exact settled_read h
  | field id position => exact .get_bind (.pure h (h.fieldValue id position))

theorem settled_setLocal {symbol : SymId} {value : Value} (hvalue : value.GroundedIn machine.heap) :
    Settled program limits machine Anything
      (modify fun machine ↦ machine.setLocal frame symbol value) :=
  .modify (.setLocal program machine frame symbol value) (h.setLocal hvalue)

theorem settled_setField {id : ObjId} {position : Nat} {value : Value}
    (hvalue : value.GroundedIn machine.heap) :
    Settled program limits machine Anything
      (modify fun machine ↦ machine.setField id position value) :=
  .modify (.setField program machine id position value) (h.setField hvalue)

theorem settled_countCall {function : FnId} :
    Settled program limits machine Anything (modify fun machine ↦ machine.countCall function) :=
  .modify (.of_counters program machine (Nat.le_refl _)) h.of_same

theorem settled_store {place : Place} {value : Value} (hvalue : value.GroundedIn machine.heap) :
    Settled program limits machine Anything (store place value) := by
  cases place with
  | slot frame symbol =>
    apply Settles.get_bind
    split
    · exact settled_setLocal h hvalue
    · exact .unsupported h
  | field id position => exact settled_setField h hvalue

theorem settled_objectOf {symbol : SymId} :
    Settled program limits machine Allocated (objectOf program frame symbol) := by
  unfold objectOf
  apply Settles.bind (settled_read h)
  intro value final _ hfinal hvalue
  split
  · exact .pure hfinal hvalue
  · apply Settles.bind (settled_load hfinal)
    intro seen final _ hfinal hseen
    split
    · exact .pure hfinal hseen
    · exact .throw hfinal
  · exact .throw hfinal

/-- A field selector leads to a field of the object. -/
theorem settled_fieldIndex {id : ObjId} {field : FieldRef} (hid : id.index < machine.heap.size) :
    Settled program limits machine (fun position final ↦ HasField final.heap id position)
      (fieldIndex program id field) := by
  have hobject := Array.getElem?_eq_getElem hid
  have hsized := h.sized hobject
  have hfound : machine.object id = machine.heap[id.index] := by
    rw [Machine.object, Array.getD_eq_getD_getElem?, hobject, Option.getD_some]
  unfold fieldIndex
  apply Settles.get_bind
  dsimp only
  rw [hfound]
  split
  · rename_i position hposition
    refine .pure h ⟨_, hobject, ?_⟩
    cases field with
    | index selected =>
      simp only [Option.ite_none_right_eq_some, Option.some.injEq] at hposition
      exact hposition.2 ▸ hposition.1
    | ordinal number =>
      rw [hsized]
      exact TypeDef.lt_length_of_ordinalField? hposition
  · exact .throw h

theorem settled_operand {operand : Operand} :
    Settled program limits machine Held (Eval.operand program frame operand) := by
  unfold Eval.operand
  split
  · exact settled_read h
  all_goals exact .pure h trivial

theorem settled_operands {operands : List Operand} :
    Settled program limits machine AllHeld (operands.mapM (Eval.operand program frame)) := by
  induction operands generalizing machine with
  | nil => exact .pure h (by intro value hvalue; cases hvalue)
  | cons operand rest ih =>
    rw [List.mapM_cons]
    apply Settles.bind (settled_operand h)
    intro value middle _ hmiddle hvalue
    apply Settles.bind (ih hmiddle)
    intro values final hevolves hfinal hvalues
    refine .pure hfinal ?_
    intro found hfound
    rcases List.mem_cons.mp hfound with rfl | hfound
    · exact hvalue.mono hevolves
    · exact hvalues found hfound

theorem settled_truth {condition : Operand} :
    Settled program limits machine Anything (truth program frame condition) := by
  unfold truth
  apply Settles.bind (settled_operand h)
  intro value final _ hfinal _
  split
  · exact .pure hfinal trivial
  · exact .throw hfinal

/-! ### Values that are made -/

omit h in
theorem groundedIn_fieldDefault {heap : Array Object} {kind : TypeKind} :
    (fieldDefault kind).GroundedIn heap := by
  cases kind <;> trivial

theorem settled_defaultValue {type : TypeId} :
    Settled program limits machine Held (defaultValue program type) := by
  unfold defaultValue
  dsimp only
  split
  · let fields := ((program.type type).fields.map fun field ↦
      fieldDefault (program.type field.type).kind).toArray
    have hsize : fields.size = (program.type type).fields.length := by simp [fields]
    have hfields : ∀ value ∈ fields, value.GroundedIn machine.heap := by
      intro value hvalue
      simp only [fields, List.mem_toArray, List.mem_map] at hvalue
      obtain ⟨field, -, rfl⟩ := hvalue
      exact groundedIn_fieldDefault
    refine .done rfl rfl (.allocate program machine hsize) (h.allocate hsize hfields) ?_
    change machine.heap.size < (machine.heap.push _).size
    rw [Array.size_push]
    exact Nat.lt_succ_self _
  · exact .pure h groundedIn_fieldDefault

omit h in
theorem groundedIn_castTo {heap : Array Object} {kind : TypeKind} {value : Value}
    (hvalue : value.GroundedIn heap) : (castTo kind value).GroundedIn heap := by
  unfold castTo
  split
  · cases value.asInt? with
    | none => exact hvalue
    | some number => trivial
  · cases value.asBool? with
    | none => exact hvalue
    | some holds => trivial
  all_goals exact hvalue

/-- A result is no object and no reference. -/
def Scalar (result : Except EvalError Value) : Prop :=
  ∀ value, result = .ok value → value.isScalar = true

namespace Scalar

omit h

theorem ok {value : Value} (hvalue : value.isScalar = true) : Scalar (.ok value) :=
  fun _ heq ↦ Except.ok.inj heq ▸ hvalue

theorem bind {first : Except EvalError α} {next : α → Except EvalError Value}
    (hnext : ∀ found, Scalar (next found)) : Scalar (first >>= next) := by
  cases first with
  | ok found => exact hnext found
  | error error =>
    intro value heq
    change Except.error error = Except.ok value at heq
    cases heq

theorem onInts {combine : Int64 → Int64 → Value} {first second : Value}
    (hcombine : ∀ left right, (combine left right).isScalar = true) :
    Scalar (onInts combine first second) :=
  .bind fun left ↦ .bind fun right ↦ .ok (hcombine left right)

theorem primitive {op : PrimOp} {values : List Value} : Scalar (primitive op values) := by
  unfold Eval.primitive
  split
  case h_1 => exact .bind fun _ ↦ .ok rfl
  case h_9 | h_10 => exact .ok rfl
  case h_11 =>
    apply Scalar.bind
    intro holds
    split
    · exact .bind fun _ ↦ .ok rfl
    · exact .ok rfl
  case h_12 =>
    apply Scalar.bind
    intro holds
    split
    · exact .ok rfl
    · exact .bind fun _ ↦ .ok rfl
  case h_13 => exact nofun
  all_goals exact .onInts fun _ _ ↦ rfl

end Scalar

theorem settled_primitive {op : PrimOp} {values : List Value} :
    Settled program limits machine Held (ofExcept (primitive op values)) := by
  cases hresult : primitive op values with
  | ok value =>
    have hscalar : value.isScalar = true := Scalar.primitive value hresult
    exact .pure h (Value.groundedIn_of_isScalar hscalar)
  | error error => exact .throw h

/-! ### Calls that run no body -/

theorem settled_callExternal {name : String} {args : List Value} :
    Settled program limits machine Held (callExternal name args) := by
  unfold callExternal
  split
  · apply Settles.bind (.modify (.trace program machine args) h.of_same)
    intro _ final _ hfinal _
    exact .pure hfinal trivial
  · exact .unsupported h

theorem settled_fillFields {id : ObjId} {position : Nat} {values : List Value}
    (hvalues : AllHeld values machine) :
    Settled program limits machine Anything (fillFields id position values) := by
  induction values generalizing position machine with
  | nil => exact .pure h trivial
  | cons value rest ih =>
    apply Settles.bind (settled_setField h (hvalues value List.mem_cons_self))
    intro _ final hevolves hfinal _
    apply ih hfinal
    intro found hfound
    exact (hvalues found (List.mem_cons_of_mem value hfound)).mono hevolves

theorem settled_buildInstance {definition : FnDef} {args : List Value}
    (hargs : AllHeld args machine) :
    Settled program limits machine Held (buildInstance program definition args) := by
  unfold buildInstance
  split
  · exact .unsupported h
  · apply Settles.bind (settled_defaultValue h)
    intro record middle hevolves hmiddle hrecord
    split
    · apply Settles.bind (settled_fillFields hmiddle (hargs.mono hevolves))
      intro _ final hevolves hfinal _
      exact .pure hfinal (hrecord.mono hevolves)
    · exact .throw hmiddle

theorem settled_tableFunction {slot : Value} :
    Settled program limits machine Anything (tableFunction program slot) := by
  unfold tableFunction
  split
  · exact .throw h
  · split
    · exact .pure h trivial
    · exact .throw h

theorem settled_classOf? {value : Value} :
    Settled program limits machine Anything (classOf? program value) := by
  unfold classOf?
  extract_lets rest
  have hrest (seen : Value) {final : Machine} (hfinal : final.Sound program limits) :
      Settled program limits final Anything (rest seen) := by
    simp only [rest]
    split
    · exact .get_bind (.pure hfinal trivial)
    · exact .pure hfinal trivial
  split
  · apply Settles.bind (settled_load h)
    intro seen final _ hfinal _
    exact hrest seen hfinal
  · exact hrest value h

/-! ### Frames -/

omit h in
theorem groundedIn_bindFormals {heap : Array Object} {formals : List SymId} {args : List Value}
    (hargs : ∀ arg ∈ args, arg.GroundedIn heap) {symbol : SymId} {value : Value}
    (hvalue : (bindFormals formals args).find? symbol = some value) : value.GroundedIn heap := by
  -- Induction over the bindings, with the locals that are there already kept general.
  have hfold (bindings : List (SymId × Value)) (locals : FiniteMap SymId Value)
      (hbindings : ∀ binding ∈ bindings, binding.2.GroundedIn heap)
      (hlocals : ∀ other found, locals.find? other = some found → found.GroundedIn heap) :
      ∀ other found, (bindings.foldl (fun locals binding ↦ locals.insert binding.1 binding.2)
        locals).find? other = some found → found.GroundedIn heap := by
    induction bindings generalizing locals with
    | nil => exact hlocals
    | cons binding rest ih =>
      apply ih (locals.insert binding.1 binding.2)
      · intro other hother
        exact hbindings other (List.mem_cons_of_mem binding hother)
      · intro other found hfound
        rcases FiniteMap.eq_or_find?_of_insert hfound with rfl | hfound
        · exact hbindings binding List.mem_cons_self
        · exact hlocals other found hfound
  apply hfold (formals.zip args) .empty _ _ symbol value hvalue
  · intro binding hbinding
    exact hargs binding.2 (List.of_mem_zip hbinding).2
  · intro other found hfound
    cases hfound

theorem allHeld_instanceArgs {id : ObjId} {headerFields : Nat} {formals : List SymId} :
    AllHeld (instanceArgs (machine.object id) headerFields formals) machine := by
  intro value hvalue
  obtain ⟨position, -, rfl⟩ := List.mem_map.mp hvalue
  exact h.fieldValue id (headerFields + position)

/-- There is room for a frame if the check of the depth passes. -/
theorem settled_checkDepth : Settled program limits machine
    (fun _ final ↦ final = machine ∧ machine.frames.size < limits.maxDepth)
    (checkDepth limits) := by
  by_cases hfull : limits.maxDepth ≤ machine.frames.size
  · have hrun := (checkDepth_eq limits machine).trans (if_pos hfull)
    exact .failed hrun hrun (.refl program machine) h
  · have hrun := (checkDepth_eq limits machine).trans (if_neg hfull)
    exact .done hrun hrun (.refl program machine) h ⟨rfl, Nat.lt_of_not_le hfull⟩

theorem settled_tick : Settled program limits machine Anything (tick limits) := by
  have hticked : Machine.Sound program limits { machine with steps := machine.steps + 1 } :=
    h.of_same
  have hevolves : machine.Evolves program { machine with steps := machine.steps + 1 } :=
    .of_counters program machine (Nat.le_succ machine.steps)
  by_cases hspent : limits.maxSteps < machine.steps + 1
  · have hrun := (tick_eq limits machine).trans (if_pos hspent)
    exact .failed hrun hrun hevolves hticked
  · have hrun := (tick_eq limits machine).trans (if_neg hspent)
    exact .done hrun hrun hevolves hticked trivial

/-! ### Statements -/

/-- Two executors that settle wherever the machine is sound and the frame is there. -/
def SettleAlike (program : Program) (limits : Limits) (execute execute' : Executor) : Prop :=
  ∀ (machine : Machine) (frame : Nat) (id : StmtId), machine.Sound program limits →
    frame < machine.frames.size →
      Settles program limits machine FlowHeld (execute frame id) (execute' frame id)

omit h

variable {rounds : Nat} {execute execute' : Executor}

include h

theorem settles_runList (hexecute : SettleAlike program limits execute execute')
    (hframe : frame < machine.frames.size) {body rest : List StmtId} :
    Settles program limits machine FlowHeld (runList program (execute frame) body rounds rest)
      (runList program (execute' frame) body rounds rest) := by
  induction rounds generalizing rest machine with
  | zero =>
    cases rest with
    | nil => exact .pure h nofun
    | cons id rest => exact .throw h
  | succ rounds ih =>
    cases rest with
    | nil => exact .pure h nofun
    | cons id rest =>
      apply Settles.bind (hexecute machine frame id h hframe)
      intro flow final hevolves hfinal hflow
      have hthere : frame < final.frames.size := hevolves.live hframe
      cases flow with
      | normal => exact ih hfinal hthere
      | ret value => exact .pure hfinal hflow
      | goto label =>
        dsimp only
        split
        · exact ih hfinal hthere
        · exact .pure hfinal nofun

theorem settles_runWhile {condition : Operand} {round round' : Eval Flow}
    (hround : ∀ {machine : Machine}, machine.Sound program limits → frame < machine.frames.size →
      Settles program limits machine FlowHeld round round')
    (hframe : frame < machine.frames.size) :
    Settles program limits machine FlowHeld
      (runWhile (truth program frame condition) round rounds)
      (runWhile (truth program frame condition) round' rounds) := by
  induction rounds generalizing machine with
  | zero => exact .throw h
  | succ rounds ih =>
    apply Settles.bind (settled_truth h)
    intro holds tested hevolves htested _
    have hthere : frame < tested.frames.size := hevolves.live hframe
    split
    · apply Settles.bind (hround htested hthere)
      intro flow final hevolves hfinal hflow
      cases flow with
      | normal => exact ih hfinal (hevolves.live hthere)
      | ret value => exact .pure hfinal hflow
      | goto label => exact .pure hfinal nofun
    · exact .pure htested nofun

/-- A call runs the body in a frame of its own. -/
theorem settles_call (hexecute : SettleAlike program limits execute execute') {function : FnId}
    {args : List Value} (hargs : AllHeld args machine) :
    Settles program limits machine Held (call program limits execute function args)
      (call program limits execute' function args) := by
  unfold call
  apply Settles.bind (settled_countCall h)
  intro _ counted hevolves hcounted _
  replace hargs := hargs.mono hevolves
  dsimp only
  split
  · exact settled_callExternal hcounted
  split
  · exact settled_buildInstance hcounted hargs
  apply Settles.bind (settled_checkDepth hcounted)
  rintro _ _ _ _ ⟨rfl, hroom⟩
  apply Settles.bind (.withFrame hcounted hroom (fun _ hnone ↦ (Option.not_mem_none _ hnone).elim)
    (fun _ _ ↦ groundedIn_bindFormals hargs) (fun pushed ↦ hexecute pushed _ _) id)
  rintro ⟨flow, left⟩ final _ hfinal ⟨hflow, hleft⟩
  cases flow with
  | ret value => exact .pure hfinal (hflow value rfl)
  | normal =>
    refine .pure hfinal ?_
    cases hresult : (program.function function).retSym.bind left.locals.find? with
    | none => trivial
    | some value =>
      obtain ⟨symbol, -, hfound⟩ := Option.bind_eq_some_iff.mp hresult
      exact hleft symbol value hfound
  | goto label => exact .throw hfinal

theorem settles_expression (hexecute : SettleAlike program limits execute execute')
    {value : Expr} :
    Settles program limits machine Held (expression program limits execute frame value)
      (expression program limits execute' frame value) := by
  cases value with
  | use operand => exact settled_operand h
  | prim op args =>
    apply Settles.bind (settled_operands h)
    intro values final _ hfinal _
    exact settled_primitive hfinal
  | call callee args =>
    apply Settles.bind (settled_operands h)
    intro values final _ hfinal hvalues
    exact settles_call hfinal hexecute hvalues
  | tableCall slot args =>
    apply Settles.bind (settled_operand h)
    intro slot middle _ hmiddle _
    apply Settles.bind (settled_tableFunction hmiddle)
    intro callee middle _ hmiddle _
    apply Settles.bind (settled_operands hmiddle)
    intro values final _ hfinal hvalues
    exact settles_call hfinal hexecute hvalues
  | fieldAddress base field =>
    apply Settles.bind (settled_objectOf h)
    intro object middle _ hmiddle hobject
    apply Settles.bind (settled_fieldIndex hmiddle hobject)
    intro position final _ hfinal hposition
    exact .pure hfinal hposition
  | fieldValue base field =>
    apply Settles.bind (settled_objectOf h)
    intro object middle _ hmiddle hobject
    apply Settles.bind (settled_fieldIndex hmiddle hobject)
    intro position final _ hfinal _
    exact .get_bind (.pure hfinal (hfinal.fieldValue object position))
  | cast type operand =>
    apply Settles.bind (settled_operand h)
    intro value final _ hfinal hvalue
    exact .pure hfinal (groundedIn_castTo hvalue)
  | hasClass symbol type =>
    apply Settles.bind (settled_read h)
    intro value middle _ hmiddle _
    apply Settles.bind (settled_classOf? hmiddle)
    intro found final _ hfinal _
    exact .pure hfinal trivial
  | addressOf symbol => exact .pure h trivial
  | deref symbol =>
    apply Settles.bind (settled_read h)
    intro held final _ hfinal _
    split
    · exact settled_load hfinal
    · exact .throw hfinal

/-- A yield runs the body of the loop in the frame that consumes the values. -/
theorem settles_yieldValue (hexecute : SettleAlike program limits execute execute')
    (hframe : frame < machine.frames.size) {value : Value}
    (hvalue : value.GroundedIn machine.heap) :
    Settles program limits machine FlowHeld (yieldValue program execute rounds frame value)
      (yieldValue program execute' rounds frame value) := by
  unfold yieldValue
  apply Settles.get_bind
  split
  · exact .throw h
  · rename_i target htarget
    obtain ⟨held, hheld, hyield⟩ := Option.bind_eq_some_iff.mp htarget
    have hbelow : target.frame < machine.frames.size := Nat.lt_trans (h.below hheld hyield) hframe
    apply Settles.bind (settled_setLocal h hvalue)
    intro _ middle hevolves hmiddle _
    have hthere : target.frame < middle.frames.size := hevolves.live hbelow
    dsimp only
    apply Settles.bind (settles_runList hmiddle hexecute hthere)
    intro flow final _ hfinal _
    cases flow with
    | normal => exact .pure hfinal nofun
    | ret value => exact .unsupported hfinal
    | goto label => exact .unsupported hfinal

/-- A loop runs its iterator in a frame whose yields lead to the frame of the loop. -/
theorem settles_naiveFor (hexecute : SettleAlike program limits execute execute')
    (hframe : frame < machine.frames.size) {loop : StmtId} {info : BlockInfo} :
    Settles program limits machine FlowHeld (naiveFor program limits execute frame loop info)
      (naiveFor program limits execute' frame loop info) := by
  unfold naiveFor
  split
  · exact .unsupported h
  rename_i index iterator _
  apply Settles.get_bind
  apply Settles.bind (settled_objectOf h)
  intro object found hevolves hfound _
  have hthere : frame < found.frames.size := hevolves.live hframe
  dsimp only
  split
  · exact .unsupported hfound
  split
  · exact .unsupported hfound
  rename_i function _
  apply Settles.bind (settled_checkDepth hfound)
  rintro _ _ _ _ ⟨rfl, hroom⟩
  apply Settles.bind (settled_countCall hfound)
  intro _ counted hcounts hcounted _
  have hargs : AllHeld (instanceArgs (machine.object object)
      (program.type (machine.object object).type).headerFields
      (program.function function).formals) counted :=
    ((allHeld_instanceArgs h).mono hevolves).mono hcounts
  replace hroom : counted.frames.size < limits.maxDepth := hcounts.size_frames ▸ hroom
  apply Settles.bind (.withFrame hcounted hroom (fun target htarget ↦ ?_)
    (fun _ _ ↦ groundedIn_bindFormals hargs) (fun pushed ↦ hexecute pushed _ _) id)
  · rintro ⟨flow, left⟩ final _ hfinal _
    cases flow with
    | normal => exact .pure hfinal nofun
    | ret value => exact .pure hfinal nofun
    | goto label => exact .throw hfinal
  · obtain rfl := Option.some.inj htarget
    exact hcounts.live hthere

theorem settles_action (hexecute : SettleAlike program limits execute execute')
    (hframe : frame < machine.frames.size) {inner : Action} :
    Settles program limits machine FlowHeld
      (action program limits execute rounds frame inner)
      (action program limits execute' rounds frame inner) := by
  cases inner with
  | define symbol =>
    simp only [action]
    split
    · exact .pure h nofun
    · apply Settles.bind (settled_defaultValue h)
      intro value middle _ hmiddle hvalue
      apply Settles.bind (settled_setLocal hmiddle hvalue)
      intro _ final _ hfinal _
      exact .pure hfinal nofun
  | assign target value =>
    apply Settles.bind (settles_expression h hexecute)
    intro value middle _ hmiddle hvalue
    apply Settles.bind (settled_setLocal hmiddle hvalue)
    intro _ final _ hfinal _
    exact .pure hfinal nofun
  | store reference value =>
    apply Settles.bind (settled_operand h)
    intro value middle _ hmiddle hvalue
    apply Settles.bind (settled_read hmiddle)
    intro held middle hevolves hmiddle _
    split
    · apply Settles.bind (settled_store hmiddle (hvalue.mono hevolves))
      intro _ final _ hfinal _
      exact .pure hfinal nofun
    · exact .throw hmiddle
  | setField base field value =>
    apply Settles.bind (settled_operand h)
    intro value middle _ hmiddle hvalue
    apply Settles.bind (settled_objectOf hmiddle)
    intro object middle hevolves hmiddle hobject
    replace hvalue := hvalue.mono hevolves
    apply Settles.bind (settled_fieldIndex hmiddle hobject)
    intro position middle hevolves hmiddle _
    apply Settles.bind (settled_setField hmiddle (hvalue.mono hevolves))
    intro _ final _ hfinal _
    exact .pure hfinal nofun
  | evaluate value =>
    apply Settles.bind (settles_expression h hexecute)
    intro _ final _ hfinal _
    exact .pure hfinal nofun
  | yield value =>
    apply Settles.bind (settled_operand h)
    intro value middle hevolves hmiddle hvalue
    exact settles_yieldValue hmiddle hexecute (hevolves.live hframe) hvalue
  | ret value =>
    apply Settles.bind (settled_operand h)
    intro value final _ hfinal hvalue
    refine .pure hfinal ?_
    rintro _ ⟨⟩
    exact hvalue
  | goto label => exact .pure h nofun
  | fail message => exact .throw h
  | noop => exact .pure h nofun

theorem settles_statement (hexecute : SettleAlike program limits execute execute')
    (hframe : frame < machine.frames.size) {id : StmtId} :
    Settles program limits machine FlowHeld
      (statement program limits execute rounds frame id)
      (statement program limits execute' rounds frame id) := by
  unfold statement
  split
  · exact settles_action h hexecute hframe
  · apply Settles.bind (settled_truth h)
    intro holds tested hevolves htested _
    have hthere : frame < tested.frames.size := hevolves.live hframe
    split
    · exact hexecute tested frame _ htested hthere
    · split
      · exact hexecute tested frame _ htested hthere
      · exact .pure htested nofun
  · exact settles_runWhile h (fun h hframe ↦ settles_runList h hexecute hframe) hframe
  · exact settles_naiveFor h hexecute hframe
  · exact settles_runList h hexecute hframe

end Eval

end IteratorLowering
