import IteratorLowering.Proofs.ControlFlow.Aligning
import IteratorLowering.Proofs.Dispatch.Cascade
import IteratorLowering.Proofs.Evaluation.IndexTuples
import IteratorLowering.Proofs.Evaluation.Limits

/-!
# Running emitted code

Emitted code changes nothing but its own variables until it calls a function (`Machine.Aside`). What
is to be shown of it is a property of the outcome that being cut off has as well
(`Eval.Excuses`); a property of the whole run then follows from one of the rest of the run, one
statement at a time.
-/

set_option autoImplicit false
set_option relaxedAutoImplicit false

namespace IteratorLowering

namespace Machine

/-! ### What is left alone -/

/-- Only free variables of one frame have changed, and objects and steps were added. -/
structure Aside (free : SymId → Prop) (frame : Nat) (machine final : Machine) : Prop where
  calls : final.calls = machine.calls
  output : final.output = machine.output
  size : final.frames.size = machine.frames.size
  origin : ∀ depth, final.origin? depth = machine.origin? depth
  kept : ∀ {depth symbol}, depth ≠ frame ∨ ¬ free symbol →
    final.local? depth symbol = machine.local? depth symbol
  object : ∀ {index : Nat} {held : Object}, machine.heap[index]? = some held →
    final.heap[index]? = some held
  steps : machine.steps ≤ final.steps

variable {free free' : SymId → Prop} {frame : Nat} {machine middle final : Machine}
variable {symbol : SymId} {value : Value}

namespace Aside

theorem refl (free : SymId → Prop) (frame : Nat) (machine : Machine) :
    machine.Aside free frame machine :=
  ⟨rfl, rfl, rfl, fun _ ↦ rfl, fun _ ↦ rfl, fun h ↦ h, Nat.le_refl _⟩

theorem trans (first : machine.Aside free frame middle) (second : middle.Aside free frame final) :
    machine.Aside free frame final where
  calls := second.calls.trans first.calls
  output := second.output.trans first.output
  size := second.size.trans first.size
  origin depth := (second.origin depth).trans (first.origin depth)
  kept h := (second.kept h).trans (first.kept h)
  object h := second.object (first.object h)
  steps := Nat.le_trans first.steps second.steps

theorem mono (h : machine.Aside free frame final) (hfree : ∀ {symbol}, free symbol → free' symbol) :
    machine.Aside free' frame final :=
  { h with kept := fun hkept ↦ h.kept (hkept.imp id fun hnot ↦ mt hfree hnot) }

theorem size_heap (h : machine.Aside free frame final) : machine.heap.size ≤ final.heap.size := by
  refine Nat.not_lt.mp fun hlt ↦ ?_
  have hkept := h.object (Array.getElem?_eq_getElem hlt)
  rw [Array.getElem?_eq_none (Nat.le_refl _)] at hkept
  cases hkept

theorem tick (free : SymId → Prop) (frame : Nat) (machine : Machine) :
    machine.Aside free frame { machine with steps := machine.steps + 1 } :=
  { refl free frame machine with steps := Nat.le_succ _ }

theorem setLocal (hfree : free symbol) :
    machine.Aside free frame (machine.setLocal frame symbol value) :=
  { refl free frame machine with
    size := size_setLocal
    origin := fun _ ↦ origin?_setLocal
    kept := fun h ↦ by
      rw [local?_setLocal, if_neg]
      rintro ⟨rfl, rfl, -⟩
      exact h.elim (fun hne ↦ hne rfl) fun hnot ↦ hnot hfree }

theorem allocate (free : SymId → Prop) (frame : Nat) (machine : Machine) (type : TypeId)
    (fields : Array Value) : machine.Aside free frame (machine.allocate type fields).2 :=
  { refl free frame machine with
    object := fun {index held} h ↦ by
      have hlt := (Array.getElem?_eq_some_iff.mp h).1
      simp only [Machine.allocate, Array.getElem?_push_lt hlt]
      exact Array.getElem?_eq_getElem hlt ▸ h }

theorem declared (program : Program) (hfree : free symbol) :
    machine.Aside free frame (machine.declared program frame symbol) := by
  unfold Machine.declared
  dsimp only
  split
  · exact (allocate free frame machine _ _).trans (setLocal hfree)
  · exact setLocal hfree

/-- An object that was added may be written to. -/
theorem setField (h : machine.Aside free frame middle) {object : ObjId} {index : Nat}
    (hnew : machine.heap.size ≤ object.index) :
    machine.Aside free frame (middle.setField object index value) :=
  { h with
    object := fun {other held} hheld ↦ by
      have hlt := (Array.getElem?_eq_some_iff.mp hheld).1
      have hne : object.index ≠ other := Nat.ne_of_gt (Nat.lt_of_lt_of_le hlt hnew)
      rw [Machine.setField, Array.getElem?_modify, if_neg hne]
      exact h.object hheld }

/-- A variable of the cascade is none of the program. -/
theorem of_temporary {program lowered : Program} (h : machine.Aside (· = symbol) frame final)
    (hsymbol : program.Temporary lowered symbol) :
    machine.Aside (fun symbol ↦ ¬ program.HasSymbol symbol) frame final :=
  h.mono fun heq ↦ heq ▸ hsymbol.new

end Aside

/-! ### Objects behind values -/

theorem object_of_getElem? {object : ObjId} {held : Object}
    (h : machine.heap[object.index]? = some held) : machine.object object = held := by
  rw [Machine.object, Array.getD_eq_getD_getElem?, h, Option.getD_some]

/-- A value is an object, or a reference to a variable of the program or to a field that holds
one. -/
inductive Denotes (program : Program) (machine : Machine) (object : ObjId) : Value → Prop
  | obj : Denotes program machine object (.obj object)
  | slot {depth : Nat} {symbol : SymId} (hsymbol : program.HasSymbol symbol)
      (hlocal : machine.local? depth symbol = some (.obj object)) :
      Denotes program machine object (.ref (.slot depth symbol))
  | field {holder : ObjId} {held : Object} {index : Nat}
      (hheld : machine.heap[holder.index]? = some held)
      (hfield : held.fields[index]? = some (.obj object)) :
      Denotes program machine object (.ref (.field holder index))

/-- A variable holds a value that leads to an object of a class. -/
structure HoldsObject (machine : Machine) (program : Program) (frame : Nat) (symbol : SymId)
    (value : Value) (type : TypeId) : Prop where
  local_eq : machine.local? frame symbol = some value
  object : ∃ object held, machine.Denotes program object value ∧
    machine.heap[object.index]? = some held ∧ held.type = type

/-- A variable holds a value that leads to an object with some contents. -/
structure LeadsTo (machine : Machine) (program : Program) (frame : Nat) (symbol : SymId)
    (object : ObjId) (held : Object) : Prop where
  value : ∃ value, machine.local? frame symbol = some value ∧ machine.Denotes program object value
  held : machine.heap[object.index]? = some held

variable {program : Program} {type : TypeId}

theorem Denotes.aside {object : ObjId} (h : machine.Denotes program object value)
    (haside : machine.Aside (fun symbol ↦ ¬ program.HasSymbol symbol) frame final) :
    final.Denotes program object value := by
  cases h with
  | obj => exact .obj
  | slot hsymbol hlocal =>
    exact .slot hsymbol ((haside.kept (.inr fun hnot ↦ hnot hsymbol)).trans hlocal)
  | field hheld hfield => exact .field (haside.object hheld) hfield

theorem HoldsObject.aside (h : machine.HoldsObject program frame symbol value type)
    (hsymbol : program.HasSymbol symbol)
    (haside : machine.Aside (fun symbol ↦ ¬ program.HasSymbol symbol) frame final) :
    final.HoldsObject program frame symbol value type where
  local_eq := (haside.kept (.inr fun hnot ↦ hnot hsymbol)).trans h.local_eq
  object := by
    obtain ⟨object, held, hdenotes, hheld, htype⟩ := h.object
    exact ⟨object, held, hdenotes.aside haside, haside.object hheld, htype⟩

theorem LeadsTo.aside {object : ObjId} {held : Object}
    (h : machine.LeadsTo program frame symbol object held) (hsymbol : program.HasSymbol symbol)
    (haside : machine.Aside (fun symbol ↦ ¬ program.HasSymbol symbol) frame final) :
    final.LeadsTo program frame symbol object held where
  value := by
    obtain ⟨value, hlocal, hdenotes⟩ := h.value
    exact ⟨value, (haside.kept (.inr fun hnot ↦ hnot hsymbol)).trans hlocal, hdenotes.aside haside⟩
  held := haside.object h.held

end Machine

namespace Eval

open Machine

/-! ### Outcomes that may be cut off -/

/-- How a run goes on after an outcome. -/
def resume (next : Flow → Eval Flow) :
    EStateM.Result EvalError Machine Flow → EStateM.Result EvalError Machine Flow
  | .ok flow machine => next flow machine
  | .error error machine => .error error machine

theorem bind_eq_resume (computation : Eval Flow) (next : Flow → Eval Flow) (machine : Machine) :
    (computation >>= next) machine = resume next (computation machine) := by
  cases h : computation machine with
  | ok flow final => rw [bind_of_ok h, resume]
  | error error final => rw [bind_of_error h, resume]

/-- A property of outcomes that being cut off has, when only free variables have changed. -/
structure Excuses (limits : Limits) (free : SymId → Prop) (frame : Nat) (start : Machine)
    (goal : EStateM.Result EvalError Machine Flow → Prop) : Prop where
  spent : ∀ {last}, start.Aside free frame last → limits.maxSteps < last.steps →
    goal (.error (.stepLimit limits.maxSteps) last)

variable {program lowered : Program} {limits : Limits} {free : SymId → Prop} {frame : Nat}
variable {start now : Machine} {goal : EStateM.Result EvalError Machine Flow → Prop}
variable {fuel rounds : Nat} {id : StmtId} {symbol : SymId} {rest body : List StmtId}

namespace Excuses

variable (hgoal : Excuses limits free frame start goal) (hnow : start.Aside free frame now)
variable (hfuel : limits.Covers fuel now.steps) (hrounds : limits.Covers rounds now.steps)

include hgoal

theorem resume (next : Flow → Eval Flow) :
    Excuses limits free frame start fun ended ↦ goal (Eval.resume next ended) :=
  ⟨fun hlast hsteps ↦ hgoal.spent hlast hsteps⟩

include hnow hfuel

/-- A statement is reached within the steps, or nothing is done. -/
theorem execute
    (h : ∀ less, limits.Covers less (now.steps + 1) → now.steps + 1 ≤ limits.maxSteps →
      goal (statement lowered limits (Eval.execute lowered limits less) less frame id
        { now with steps := now.steps + 1 })) :
    goal (Eval.execute lowered limits fuel frame id now) := by
  obtain ⟨less, rfl⟩ := hfuel.exists_eq_succ
  by_cases hspent : limits.maxSteps < now.steps + 1
  · have herror : Eval.execute lowered limits (less + 1) frame id now =
        .error (.stepLimit limits.maxSteps) { now with steps := now.steps + 1 } :=
      bind_of_error ((tick_eq limits now).trans (if_pos hspent))
    rw [herror]
    exact hgoal.spent (hnow.trans (.tick free frame now)) hspent
  · have hsteps := Nat.not_lt.mp hspent
    rw [execute_of_tick hsteps]
    exact h less (hfuel.step (Nat.lt_succ_self _) hsteps) hsteps

/-- A block is entered within the steps, or nothing is done. -/
theorem block {ids : List StmtId} (hkind : lowered.kind id = .plain ids)
    (h : ∀ less, limits.Covers less (now.steps + 1) →
      goal (runList lowered (Eval.execute lowered limits less frame) ids less ids
        { now with steps := now.steps + 1 })) :
    goal (Eval.execute lowered limits fuel frame id now) := by
  refine hgoal.execute hnow hfuel fun less hless _ ↦ ?_
  rw [statement_of_plain hkind rfl]
  exact h less hless

include hrounds

/-- A member is run before the rest of its list. -/
theorem first
    (h : ∀ less rounds, limits.Covers less (now.steps + 1) → limits.Covers rounds (now.steps + 1) →
      now.steps + 1 ≤ limits.maxSteps → goal (Eval.resume
        (proceed lowered (Eval.execute lowered limits fuel frame) body rest rounds)
        (statement lowered limits (Eval.execute lowered limits less) less frame id
          { now with steps := now.steps + 1 }))) :
    goal (runList lowered (Eval.execute lowered limits fuel frame) body rounds (id :: rest)
      now) := by
  obtain ⟨rounds, rfl⟩ := hrounds.exists_eq_succ
  rw [runList_cons, bind_eq_resume]
  exact (hgoal.resume _).execute hnow hfuel fun less hless hsteps ↦
    h less rounds hless (hrounds.step (Nat.lt_succ_self _) hsteps) hsteps

/-- A member that has no outcome of its own is followed by the rest of its list. -/
theorem member {inner : Action} {after : Machine} (hkind : lowered.kind id = .action inner)
    (haction : ∀ execute rounds, action lowered limits execute rounds frame inner
      { now with steps := now.steps + 1 } = .ok .normal after)
    (hsteps : now.steps + 1 ≤ after.steps)
    (hrest : ∀ rounds, limits.Covers fuel after.steps → limits.Covers rounds after.steps →
      goal (runList lowered (Eval.execute lowered limits fuel frame) body rounds rest after)) :
    goal (runList lowered (Eval.execute lowered limits fuel frame) body rounds (id :: rest)
      now) := by
  refine hgoal.first hnow hfuel hrounds fun less rounds hless hrounds _ ↦ ?_
  rw [statement, hkind]
  dsimp only
  rw [haction]
  exact hrest rounds (hfuel.mono (Nat.le_of_succ_le hsteps)) (hrounds.mono hsteps)

/-- The declaration of a variable of the emitted code. -/
theorem declare (hsymbol : (lowered.symbol symbol).isLabel = false)
    (hkind : lowered.kind id = .action (.define symbol))
    (hrest : ∀ {bound rounds}, now.Aside (· = symbol) frame bound →
      limits.Covers fuel bound.steps → limits.Covers rounds bound.steps →
        goal (runList lowered (Eval.execute lowered limits fuel frame) body rounds rest bound)) :
    goal (runList lowered (Eval.execute lowered limits fuel frame) body rounds (id :: rest)
      now) :=
  have hbound : Aside (· = symbol) frame { now with steps := now.steps + 1 } _ :=
    .declared lowered rfl
  hgoal.member hnow hfuel hrounds hkind (fun _ _ ↦ action_define hsymbol) hbound.steps
    fun _ ↦ hrest ((Aside.tick _ frame now).trans hbound)

/-- An assignment to a variable of the emitted code. -/
theorem assign {source : Expr} {assigned : Value}
    (hkind : lowered.kind id = .action (.assign symbol source)) (hframe : frame < now.frames.size)
    (hsource : ∀ execute, expression lowered limits execute frame source
      { now with steps := now.steps + 1 } = .ok assigned { now with steps := now.steps + 1 })
    (hrest : ∀ {bound rounds}, now.Aside (· = symbol) frame bound →
      bound.local? frame symbol = some assigned → limits.Covers fuel bound.steps →
        limits.Covers rounds bound.steps →
          goal (runList lowered (Eval.execute lowered limits fuel frame) body rounds rest bound)) :
    goal (runList lowered (Eval.execute lowered limits fuel frame) body rounds (id :: rest)
      now) :=
  hgoal.member hnow hfuel hrounds hkind (fun execute _ ↦ bind_of_ok (hsource execute))
    (Nat.le_refl _) fun _ ↦ hrest ((Aside.tick _ frame now).trans (.setLocal rfl))
      (local?_setLocal_self hframe)

/-- A variable of the emitted code is declared and assigned to. -/
theorem declareAssign {declare : StmtId} {source : Expr} {assigned : Value}
    (hsymbol : (lowered.symbol symbol).isLabel = false) (hfree : free symbol)
    (hdeclare : lowered.kind declare = .action (.define symbol))
    (hkind : lowered.kind id = .action (.assign symbol source)) (hframe : frame < now.frames.size)
    (hsource : ∀ {bound} execute, now.Aside (· = symbol) frame bound →
      expression lowered limits execute frame source bound = .ok assigned bound)
    (hrest : ∀ {bound rounds}, now.Aside (· = symbol) frame bound →
      bound.local? frame symbol = some assigned → limits.Covers fuel bound.steps →
        limits.Covers rounds bound.steps →
          goal (runList lowered (Eval.execute lowered limits fuel frame) body rounds rest bound)) :
    goal (runList lowered (Eval.execute lowered limits fuel frame) body rounds
      (declare :: id :: rest) now) := by
  refine hgoal.declare hnow hfuel hrounds hsymbol hdeclare fun {middle _} hmiddle hfuel hrounds ↦ ?_
  have hfree' : now.Aside free frame middle := hmiddle.mono fun heq ↦ heq ▸ hfree
  refine hgoal.assign (hnow.trans hfree') hfuel hrounds hkind (by rwa [hmiddle.size])
    (fun execute ↦ hsource execute (hmiddle.trans (.tick _ frame middle)))
    fun hbound hlocal hfuel hrounds ↦ hrest (hmiddle.trans hbound) hlocal hfuel hrounds

end Excuses

/-! ### Objects that are read -/

variable {value : Value}

theorem load_field {holder : ObjId} {held : Object} {index : Nat}
    (hheld : now.heap[holder.index]? = some held) (hfield : held.fields[index]? = some value) :
    load lowered (.field holder index) now = .ok value now := by
  change EStateM.Result.ok (now.fieldValue holder index) now = _
  rw [fieldValue, object_of_getElem? hheld, Array.getD_eq_getD_getElem?, hfield, Option.getD_some]

/-- The class of what an instance holds is seen. -/
theorem classOf?_of_holdsObject {type : TypeId}
    (h : now.HoldsObject program frame symbol value type) :
    classOf? lowered value now = .ok (some type) now := by
  obtain ⟨object, held, hdenotes, hheld, rfl⟩ := h.object
  have htype : (now.object object).type = held.type := by rw [object_of_getElem? hheld]
  unfold classOf?
  cases hdenotes with
  | obj => exact htype ▸ rfl
  | slot _ hlocal =>
    refine (bind_of_ok (read_of_local? hlocal)).trans ?_
    exact htype ▸ rfl
  | field hkept hfield =>
    refine (bind_of_ok (load_field hkept hfield)).trans ?_
    exact htype ▸ rfl

/-- The object that a variable leads to is found. -/
theorem objectOf_of_leadsTo {object : ObjId} {held : Object}
    (h : now.LeadsTo program frame symbol object held) :
    objectOf lowered frame symbol now = .ok object now := by
  obtain ⟨value, hlocal, hdenotes⟩ := h.value
  unfold objectOf
  refine (bind_of_ok (read_of_local? hlocal)).trans ?_
  cases hdenotes with
  | obj => rfl
  | @slot depth other _ hslot =>
    have hload : load lowered (.slot depth other) now = .ok (.obj object) now :=
      read_of_local? hslot
    exact bind_of_ok hload
  | field hkept hfield => exact bind_of_ok (load_field hkept hfield)

theorem expression_fieldValue {execute : Executor} {object : ObjId} {held : Object} {position : Nat}
    (h : now.LeadsTo program frame symbol object held) (hposition : position < held.fields.size) :
    expression lowered limits execute frame (.fieldValue symbol (.index position)) now =
      .ok (held.fields.getD position .nil) now := by
  refine (bind_of_ok (objectOf_of_leadsTo h)).trans ?_
  refine (bind_of_ok (fieldIndex_of_lt h.held hposition)).trans ?_
  change EStateM.Result.ok (now.fieldValue object position) now = _
  rw [fieldValue, object_of_getElem? h.held]

theorem truth_of_local? {holds : Bool} (h : now.local? frame symbol = some (.bool holds)) :
    truth lowered frame (.sym symbol) now = .ok holds now := by
  unfold truth
  rw [bind_of_ok (operand_of_local? h)]
  rfl

/-! ### Calls -/

variable {callee : FnId} {arg : SymId}

theorem expression_call (harg : now.local? frame arg = some value)
    (hfuel : limits.Covers fuel now.steps) :
    expression lowered limits (execute lowered limits fuel) frame (.call callee [.sym arg]) now =
      now.run lowered limits callee [value] := by
  have hargs : ([.sym arg] : List Operand).mapM (operand lowered frame) now = .ok [value] now := by
    rw [List.mapM_cons, bind_of_ok (operand_of_local? harg)]
    rfl
  change (_ >>= fun values ↦ call lowered limits (execute lowered limits fuel) callee values)
    now = _
  rw [bind_of_ok hargs, run_eq_call_execute hfuel]

theorem size_frames_of_run {returned : Value} {args : List Value} {after : Machine}
    (hcall : now.run lowered limits callee args = .ok returned after) :
    after.frames.size = now.frames.size := by
  have hevolves : now.Evolves lowered (left (now.run lowered limits callee args)) := evolves_run
  rw [hcall] at hevolves
  exact hevolves.size_frames

/-- A member that calls a function takes its step, and goes on where the call ends. -/
theorem Excuses.reachCall (hgoal : Excuses limits free frame start goal)
    (hnow : start.Aside free frame now) (hfuel : limits.Covers fuel now.steps)
    (hrounds : limits.Covers rounds now.steps) {inner : Action} {finish : Value → Eval Flow}
    (hkind : lowered.kind id = .action inner)
    (haction : ∀ execute rounds, action lowered limits execute rounds frame inner =
      expression lowered limits execute frame (.call callee [.sym arg]) >>= finish)
    (harg : now.local? frame arg = some value)
    (hfailed : ∀ {last error},
      Machine.run { now with steps := now.steps + 1 } lowered limits callee [value] =
        .error error last → goal (.error error last))
    (hnext : ∀ {after returned rounds},
      Machine.run { now with steps := now.steps + 1 } lowered limits callee [value] =
        .ok returned after → limits.Covers fuel after.steps → limits.Covers rounds after.steps →
          goal (Eval.resume
            (proceed lowered (Eval.execute lowered limits fuel frame) body rest rounds)
            (finish returned after))) :
    goal (runList lowered (Eval.execute lowered limits fuel frame) body rounds
      (id :: rest) now) := by
  refine hgoal.first hnow hfuel hrounds fun less rounds hless hrounds _ ↦ ?_
  let before : Machine := { now with steps := now.steps + 1 }
  have hexpression : expression lowered limits (Eval.execute lowered limits less) frame
      (.call callee [.sym arg]) before = before.run lowered limits callee [value] :=
    expression_call harg hless
  rw [statement, hkind]
  dsimp only
  rw [haction]
  cases hrun : before.run lowered limits callee [value] with
  | error error last =>
    rw [bind_of_error (hexpression.trans hrun)]
    exact hfailed hrun
  | ok returned after =>
    rw [bind_of_ok (hexpression.trans hrun)]
    have hle : now.steps + 1 ≤ after.steps := (steps_of_run_eq_ok hrun).1
    exact hnext hrun (hfuel.mono (Nat.le_of_succ_le hle)) (hrounds.mono hle)

/-- A member that calls a function changes nothing before the call. -/
theorem Excuses.call (hgoal : Excuses limits free frame start goal)
    (hnow : start.Aside free frame now) (hfuel : limits.Covers fuel now.steps)
    (hrounds : limits.Covers rounds now.steps) {inner : Action} {finish : Value → Eval Flow}
    (hkind : lowered.kind id = .action inner)
    (haction : ∀ execute rounds, action lowered limits execute rounds frame inner =
      expression lowered limits execute frame (.call callee [.sym arg]) >>= finish)
    (harg : now.local? frame arg = some value)
    (hfailed : ∀ {before last error}, now.Aside free frame before →
      before.run lowered limits callee [value] = .error error last → goal (.error error last))
    (hnext : ∀ {before after returned rounds}, now.Aside free frame before →
      before.run lowered limits callee [value] = .ok returned after →
        limits.Covers fuel after.steps → limits.Covers rounds after.steps →
          goal (Eval.resume
            (proceed lowered (Eval.execute lowered limits fuel frame) body rest rounds)
            (finish returned after))) :
    goal (runList lowered (Eval.execute lowered limits fuel frame) body rounds (id :: rest) now) :=
  hgoal.reachCall hnow hfuel hrounds hkind haction harg (hfailed (.tick free frame now))
    (hnext (.tick free frame now))

end Eval

end IteratorLowering
