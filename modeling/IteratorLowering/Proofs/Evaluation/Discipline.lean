import IteratorLowering.Proofs.Evaluation.Limits
import IteratorLowering.Proofs.Evaluation.Settling

/-!
# The discipline of a run

Where a statement begins and where it ends, the stack fits its limit, the frame of the statement
and the frame that its yields lead to are on the stack, every object has the fields that its class
declares, and a field that is selected, or that a reference names, is there
(`Machine.Disciplined`). From the beginning to the end of a statement no object disappears or
changes its class, and what was traced stays (`Machine.Evolves`).

A computation begins a statement, in a frame and on a machine, if it could end otherwise were just
this statement run otherwise (`Eval.Begins`). A statement that begins on a sound machine, in a frame
of its stack, begins others only on sound machines and in frames of theirs
(`Eval.Begins.sound_statement`), and by induction this holds of every statement of a run
(`Eval.BeginsWithin.sound`). So each of them is disciplined (`Machine.disciplined_run`).

The same is said a second time, with a guard around every statement (`Eval.guard`,
`Machine.guardedRun`) that raises an alarm where the statement is not disciplined. An alarm may be
any computation: one that fails ends the run, since nothing in a run catches an error. The guarded
run is the run itself, whatever the alarm is, so none is ever raised.

These are all the moments that matter: between the beginning of a statement and the statements that
it runs, a frame is only pushed for a body that begins at once, and the fields that it selects are
selected in the machine with which it began.
-/

set_option autoImplicit false
set_option relaxedAutoImplicit false

namespace IteratorLowering

variable {α : Type} {program : Program} {limits : Limits} {machine : Machine} {frame : Nat}

namespace Machine

/-- What holds where a statement that runs in the frame begins and where it ends. -/
structure Disciplined (program : Program) (limits : Limits) (frame : Nat) (machine : Machine) :
    Prop where
  depth : machine.frames.size ≤ limits.maxDepth
  current : frame < machine.frames.size
  target : ∀ {held : Frame} {target : YieldTarget}, machine.frames[frame]? = some held →
    held.yieldTo = some target → target.frame < machine.frames.size
  sized : ∀ {index : Nat} {object : Object}, machine.heap[index]? = some object →
    object.fields.size = (program.type object.type).fields.length
  /-- A field selector that is resolved for the object of a variable leads to one of its fields. -/
  selected : ∀ {symbol : SymId} {id : ObjId} {field : FieldRef} {position : Nat}
    {found final : Machine}, Eval.objectOf program frame symbol machine = .ok id found →
      Eval.fieldIndex program id field found = .ok position final → HasField final.heap id position
  /-- A reference to a field, read from a variable, leads to a field. -/
  referenced : ∀ {symbol : SymId} {id : ObjId} {position : Nat} {final : Machine},
    Eval.read program frame symbol machine = .ok (.ref (.field id position)) final →
      HasField final.heap id position

end Machine

namespace Eval

/-- The first computation may be replaced by one that ends in the same way. -/
theorem Settles.of_eq {kind : α → Machine → Prop} {first second third : Eval α}
    (h : Settles program limits machine kind first second) (heq : third machine = second machine) :
    Settles program limits machine kind third second := by
  cases h with
  | done _ hsecond hevolves hsound hkind =>
    exact .done (heq.trans hsecond) hsecond hevolves hsound hkind
  | failed _ hsecond hevolves hsound => exact .failed (heq.trans hsecond) hsecond hevolves hsound

theorem Settles.of_ok {kind : α → Machine → Prop} {first second : Eval α} {value : α}
    {final : Machine} (h : Settles program limits machine kind first second)
    (hrun : second machine = .ok value final) :
    final.Sound program limits ∧ kind value final := by
  cases h with
  | done _ hsecond _ hsound hkind =>
    cases hsecond.symm.trans hrun
    exact ⟨hsound, hkind⟩
  | failed _ hsecond => cases hsecond.symm.trans hrun

end Eval

theorem Machine.Sound.disciplined (h : machine.Sound program limits)
    (hframe : frame < machine.frames.size) : machine.Disciplined program limits frame where
  depth := h.depth
  current := hframe
  target hheld hyield := Nat.lt_trans (h.below hheld hyield) hframe
  sized := h.sized
  selected hobject hindex := by
    obtain ⟨hfound, hid⟩ := (Eval.settled_objectOf h).of_ok hobject
    exact ((Eval.settled_fieldIndex hfound hid).of_ok hindex).2
  referenced hread := ((Eval.settled_read h).of_ok hread).2

namespace Eval

/-! ### The statements of a run -/

/-- What a statement does, with the statements inside it run as told. -/
def step (program : Program) (limits : Limits) (rounds frame : Nat) (id : StmtId)
    (execute : Executor) : Eval Flow := do
  tick limits
  statement program limits execute rounds frame id

theorem execute_eq_step {fuel : Nat} {id : StmtId} : execute program limits (fuel + 1) frame id =
    step program limits fuel frame id (execute program limits fuel) := rfl

theorem settles_step {execute execute' : Executor}
    (hexecute : SettleAlike program limits execute execute') {rounds : Nat} {id : StmtId}
    (h : machine.Sound program limits) (hframe : frame < machine.frames.size) :
    Settles program limits machine FlowHeld (step program limits rounds frame id execute)
      (step program limits rounds frame id execute') := by
  apply Settles.bind (settled_tick h)
  intro _ ticked hevolves hticked _
  exact settles_statement hticked hexecute (hevolves.live hframe)

theorem settleAlike_execute (program : Program) (limits : Limits) (fuel : Nat) :
    SettleAlike program limits (execute program limits fuel) (execute program limits fuel) := by
  induction fuel with
  | zero =>
    intro machine frame id h hframe
    exact .throw h
  | succ fuel ih =>
    intro machine frame id h hframe
    rw [execute_eq_step]
    exact settles_step ih h hframe

/-- A statement that is run: in which frame, and on which machine it begins. -/
structure Moment where
  frame : Nat
  id : StmtId
  machine : Machine

/-- The frame of the statement is on the stack of a sound machine. -/
def Moment.Sound (program : Program) (limits : Limits) (moment : Moment) : Prop :=
  moment.machine.Sound program limits ∧ moment.frame < moment.machine.frames.size

/-- The computation begins a statement. If the statement went otherwise then, and nothing else did,
the computation could end otherwise. -/
def Begins (computation : Executor → Eval α) (execute : Executor) (machine : Machine)
    (moment : Moment) : Prop :=
  ∃ execute' : Executor,
    (∀ frame id other, (⟨frame, id, other⟩ : Moment) ≠ moment →
      execute' frame id other = execute frame id other) ∧
    computation execute' machine ≠ computation execute machine

/-- A computation that fails whenever a statement does begins the statement. -/
theorem begins_of_fails {computation : Executor → Eval α} {execute : Executor} {moment : Moment}
    (hfails : ∀ (execute' : Executor) (error : EvalError),
      execute' moment.frame moment.id moment.machine = .error error moment.machine →
        ∃ final, computation execute' machine = .error error final) :
    Begins computation execute machine moment := by
  classical
  let failing (error : EvalError) : Executor := fun frame id other ↦
    if (⟨frame, id, other⟩ : Moment) = moment then .error error other else execute frame id other
  have hfailing (error : EvalError) :
      ∃ final, computation (failing error) machine = .error error final :=
    hfails (failing error) error (if_pos rfl)
  have hsame (error : EvalError) (frame : Nat) (id : StmtId) (other : Machine)
      (hne : (⟨frame, id, other⟩ : Moment) ≠ moment) :
      failing error frame id other = execute frame id other := if_neg hne
  -- The computation cannot end with both of two errors.
  obtain ⟨final, hfirst⟩ := hfailing .endlessLoop
  by_cases heq : computation (failing .endlessLoop) machine = computation execute machine
  · refine ⟨failing .yieldOutsideIterator, hsame _, fun heq' ↦ ?_⟩
    obtain ⟨final', hsecond⟩ := hfailing .yieldOutsideIterator
    cases hfirst.symm.trans (heq.trans (heq'.symm.trans hsecond))
  · exact ⟨failing .endlessLoop, hsame _, heq⟩

/-- A computation that cannot tell executors apart which agree on sound moments begins statements
at sound moments only. -/
theorem Begins.sound {computation : Executor → Eval α} {execute : Executor} {moment : Moment}
    (h : Begins computation execute machine moment)
    (hexecute : SettleAlike program limits execute execute)
    (hagree : ∀ {execute' : Executor}, SettleAlike program limits execute' execute →
      computation execute' machine = computation execute machine) :
    moment.Sound program limits := by
  obtain ⟨execute', hsame, hdiffers⟩ := h
  by_contra hnot
  refine hdiffers (hagree fun start frame id hstart hframe ↦ ?_)
  refine (hexecute start frame id hstart hframe).of_eq (hsame frame id start ?_)
  rintro rfl
  exact hnot ⟨hstart, hframe⟩

/-- The step: what a statement begins, it begins at a sound moment. -/
theorem Begins.sound_statement {fuel : Nat} {outer inner : Moment}
    (h : Begins (step program limits fuel outer.frame outer.id) (execute program limits fuel)
      outer.machine inner)
    (houter : outer.Sound program limits) : inner.Sound program limits :=
  h.sound (settleAlike_execute program limits fuel) fun hexecute ↦
    (settles_step hexecute houter.1 houter.2).eq

/-- A statement that is run with some fuel is the first one itself, or one that it begins, or one
that this begins, and so on. -/
inductive BeginsWithin (program : Program) (limits : Limits) : Nat → Moment → Nat → Moment → Prop
  | refl (fuel : Nat) (moment : Moment) : BeginsWithin program limits fuel moment fuel moment
  | step {fuel fuel' : Nat} {outer inner last : Moment}
      (hbegins : Begins (step program limits fuel outer.frame outer.id)
        (execute program limits fuel) outer.machine inner)
      (hwithin : BeginsWithin program limits fuel inner fuel' last) :
      BeginsWithin program limits (fuel + 1) outer fuel' last

/-- The run: every statement that is reached from a sound moment begins at one. -/
theorem BeginsWithin.sound {fuel fuel' : Nat} {first last : Moment}
    (h : BeginsWithin program limits fuel first fuel' last) (hfirst : first.Sound program limits) :
    last.Sound program limits := by
  induction h with
  | refl => exact hfirst
  | step hbegins _ ih => exact ih (hbegins.sound_statement hfirst)

/-- A call that is neither of the runtime nor of an iterator begins the body of its function. -/
theorem begins_call {execute : Executor} {function : FnId} {args : List Value}
    (hexternal : (program.function function).flags.external = false)
    (hiterator : (program.function function).isIterator = false)
    (hroom : machine.frames.size < limits.maxDepth) :
    Begins (fun execute ↦ call program limits execute function args) execute machine
      { frame := machine.frames.size
        id := (program.function function).body
        machine := enter program function args machine } := by
  refine begins_of_fails fun execute' error hfails ↦ ?_
  have hcall : call program limits execute' function args machine =
      leave program (callFrame program function args)
        (.error error (enter program function args machine)) := by
    rw [call_eq_leave hexternal hiterator hroom, hfails]
  exact ⟨_, hcall⟩

/-! ### Guards -/

open Classical in
/-- Raise an alarm unless the machine is disciplined where the computation begins and where it
ends, and has evolved in between. -/
noncomputable def guard (program : Program) (limits : Limits) (frame : Nat)
    (alarm computation : Eval α) : Eval α := fun machine ↦
  if machine.Disciplined program limits frame then
    let result := computation machine
    if machine.Evolves program (left result) ∧
        (left result).Disciplined program limits frame then result
    else alarm (left result)
  else alarm machine

/-- Run a statement with a guard around it and around each statement that it runs. -/
noncomputable def guardedExecute (program : Program) (limits : Limits) (alarm : Eval Flow) :
    Nat → Executor
  | 0 => fun frame _ ↦ guard program limits frame alarm (throw .endlessLoop)
  | fuel + 1 => fun frame id ↦ guard program limits frame alarm
    (step program limits fuel frame id (guardedExecute program limits alarm fuel))

/-- A computation that settles raises no alarm. -/
theorem Settles.guard {kind : α → Machine → Prop} {alarm first second : Eval α}
    (h : machine.Sound program limits) (hframe : frame < machine.frames.size)
    (hsettles : Settles program limits machine kind first second) :
    Settles program limits machine kind (guard program limits frame alarm first) second := by
  have hafter : (left (second machine)).Disciplined program limits frame :=
    hsettles.sound.disciplined (hsettles.evolves.live hframe)
  have hguard : Eval.guard program limits frame alarm first machine = second machine := by
    unfold Eval.guard
    rw [if_pos (h.disciplined hframe), hsettles.eq]
    exact if_pos ⟨hsettles.evolves, hafter⟩
  exact hsettles.of_eq hguard

theorem settleAlike_guardedExecute {alarm : Eval Flow} {fuel : Nat} :
    SettleAlike program limits (guardedExecute program limits alarm fuel)
      (execute program limits fuel) := by
  induction fuel with
  | zero =>
    intro machine frame id h hframe
    exact .guard h hframe (.throw h)
  | succ fuel ih =>
    intro machine frame id h hframe
    exact .guard h hframe (settles_step ih h hframe)

end Eval

namespace Machine

/-- Run a function on arguments, with a guard around every statement. -/
noncomputable def guardedRun (machine : Machine) (program : Program) (limits : Limits)
    (alarm : Eval Flow) (function : FnId) (args : List Value) :
    EStateM.Result EvalError Machine Value :=
  Eval.call program limits (Eval.guardedExecute program limits alarm (machine.fuel limits)) function
    args machine

/-- A statement that is run, with some fuel, when the machine runs a function on arguments. -/
def BeginsWithin (machine : Machine) (program : Program) (limits : Limits) (function : FnId)
    (args : List Value) (fuel : Nat) (moment : Eval.Moment) : Prop :=
  ∃ first, Eval.Begins (fun execute ↦ Eval.call program limits execute function args)
      (Eval.execute program limits (machine.fuel limits)) machine first ∧
    Eval.BeginsWithin program limits (machine.fuel limits) first fuel moment

/-- The machine after some runs, whatever each of them ended in. -/
def afterRuns (program : Program) (limits : Limits) (runs : List (FnId × List Value)) : Machine :=
  runs.foldl (fun machine run ↦ Eval.left (machine.run program limits run.1 run.2)) new

theorem settles_guardedRun (alarm : Eval Flow) (function : FnId) {args : List Value}
    (h : machine.Sound program limits) (hargs : ∀ arg ∈ args, arg.isScalar = true) :
    Eval.Settles program limits machine Eval.Held
      (Eval.call program limits
        (Eval.guardedExecute program limits alarm (machine.fuel limits)) function args)
      (Eval.call program limits (Eval.execute program limits (machine.fuel limits)) function
        args) :=
  Eval.settles_call h Eval.settleAlike_guardedExecute fun arg harg ↦
    Value.groundedIn_of_isScalar (hargs arg harg)

theorem sound_afterRuns {runs : List (FnId × List Value)}
    (hruns : ∀ run ∈ runs, ∀ arg ∈ run.2, arg.isScalar = true) :
    (afterRuns program limits runs).Sound program limits := by
  have hstep (machine : Machine) (h : machine.Sound program limits) (run : FnId × List Value)
      (hrun : run ∈ runs) :
      (Eval.left (machine.run program limits run.1 run.2)).Sound program limits :=
    (settles_guardedRun (throw .endlessLoop) run.1 h (hruns run hrun)).sound
  exact List.foldlRecOn runs _ (sound_new program limits) hstep

/-- Every statement of a run begins and ends on a disciplined machine, which has evolved in between,
whether or not the statement gives a result. -/
theorem BeginsWithin.disciplined {function : FnId} {args : List Value} {fuel : Nat}
    {moment : Eval.Moment} (hwithin : machine.BeginsWithin program limits function args fuel moment)
    (h : machine.Sound program limits) (hargs : ∀ arg ∈ args, arg.isScalar = true) :
    let final :=
      Eval.left (Eval.execute program limits fuel moment.frame moment.id moment.machine)
    moment.machine.Disciplined program limits moment.frame ∧
      moment.machine.Evolves program final ∧ final.Disciplined program limits moment.frame := by
  intro final
  obtain ⟨first, hbegins, hwithin⟩ := hwithin
  have hfirst : first.Sound program limits :=
    hbegins.sound (Eval.settleAlike_execute program limits _) fun hexecute ↦
      (Eval.settles_call h hexecute fun arg harg ↦
        Value.groundedIn_of_isScalar (hargs arg harg)).eq
  obtain ⟨hsound, hframe⟩ := hwithin.sound hfirst
  have hsettled := Eval.settleAlike_execute program limits fuel _ _ moment.id hsound hframe
  exact ⟨hsound.disciplined hframe, hsettled.evolves,
    hsettled.sound.disciplined (hsettled.evolves.live hframe)⟩

/-- Whatever was run before, and whether or not the run gives a result, every statement of the run
is disciplined, no alarm is raised, and the run leaves the stack as high as it was, the objects as
they were made, and what was traced. -/
theorem disciplined_run (program : Program) (limits : Limits) {earlier : List (FnId × List Value)}
    (hearlier : ∀ run ∈ earlier, ∀ arg ∈ run.2, arg.isScalar = true) (function : FnId)
    {args : List Value} (hargs : ∀ arg ∈ args, arg.isScalar = true) (alarm : Eval Flow) :
    let machine := afterRuns program limits earlier
    let final := Eval.left (machine.run program limits function args)
    machine.guardedRun program limits alarm function args =
        machine.run program limits function args ∧
      (∀ {fuel : Nat} {moment : Eval.Moment},
        machine.BeginsWithin program limits function args fuel moment →
          let after :=
            Eval.left (Eval.execute program limits fuel moment.frame moment.id moment.machine)
          moment.machine.Disciplined program limits moment.frame ∧
            moment.machine.Evolves program after ∧
            after.Disciplined program limits moment.frame) ∧
      final.frames.size = machine.frames.size ∧ machine.Evolves program final ∧
      ∀ {index : Nat} {object : Object}, final.heap[index]? = some object →
        object.fields.size = (program.type object.type).fields.length := by
  intro machine final
  have hsound : machine.Sound program limits := sound_afterRuns hearlier
  have hsettles := settles_guardedRun alarm function hsound hargs
  exact ⟨hsettles.eq, fun hwithin ↦ hwithin.disciplined hsound hargs,
    hsettles.evolves.size_frames, hsettles.evolves, hsettles.sound.sized⟩

/-- An iterator that yields its formal, and a function that traces what it yields for its own. -/
def echo : Program where
  types := builtinTypes.push
    { name := "_ir_f", kind := .record, fields := [⟨"n", .int⟩],
      flags := { iteratorRecord := true }, iteratorFn := some ⟨0⟩ }
  symbols := #[
    { name := "n", kind := .arg, type := .int, owner := some ⟨0⟩ },
    { name := "m", kind := .arg, type := .int, owner := some ⟨1⟩ },
    { name := "it", kind := .var, type := ⟨5⟩, owner := some ⟨1⟩ },
    { name := "x", kind := .var, type := .int, owner := some ⟨1⟩ }]
  statements := #[
    { kind := .plain [⟨1⟩], bodyOf := some ⟨0⟩, span := .none },
    { kind := .action (.yield (.sym ⟨0⟩)), parent := some ⟨0⟩, span := .none },
    { kind := .plain [⟨3⟩, ⟨4⟩], bodyOf := some ⟨1⟩, span := .none },
    { kind := .action (.assign ⟨2⟩ (.call ⟨0⟩ [.sym ⟨1⟩])), parent := some ⟨2⟩, span := .none },
    { kind := .block (some (.forEach ⟨3⟩ ⟨2⟩)) [⟨5⟩], parent := some ⟨2⟩, span := .none },
    { kind := .action (.evaluate (.call ⟨2⟩ [.sym ⟨3⟩])), parent := some ⟨4⟩, span := .none }]
  functions := #[
    { name := "f", formals := [⟨0⟩], retType := .int, body := ⟨0⟩, flags := { iterator := true },
      iteratorInfo := some ⟨⟨5⟩, ⟨5⟩, ⟨0⟩, ⟨0⟩, ⟨0⟩, ⟨0⟩, ⟨0⟩, ⟨0⟩, ⟨0⟩⟩ },
    { name := "main", formals := [⟨1⟩], retType := .void, body := ⟨2⟩ },
    { name := "trace", retType := .void, body := ⟨0⟩, flags := { external := true } }]

theorem disciplined_echo :
    let limits : Limits := ⟨100, 2⟩
    -- The second of the earlier runs fails for want of an argument.
    let machine := afterRuns echo limits [(⟨1⟩, [.int 7]), (⟨1⟩, [])]
    let final := Eval.left (machine.run echo limits ⟨1⟩ [.int 5])
    machine.guardedRun echo limits (throw .yieldOutsideIterator) ⟨1⟩ [.int 5] =
        machine.run echo limits ⟨1⟩ [.int 5] ∧
      machine.BeginsWithin echo limits ⟨1⟩ [.int 5] (machine.fuel limits)
        ⟨0, ⟨2⟩, Eval.enter echo ⟨1⟩ [.int 5] machine⟩ ∧
      (Eval.enter echo ⟨1⟩ [.int 5] machine).Disciplined echo limits 0 ∧
      machine.Evolves echo final ∧ machine.output = #[.int 7] ∧
      final.output = #[.int 7, .int 5] ∧ final.heap.size = 2 ∧ final.frames.size = 0 := by
  intro limits machine final
  have hearlier : ∀ run ∈ [((⟨1⟩ : FnId), [Value.int 7]), (⟨1⟩, [])], ∀ arg ∈ run.2,
      arg.isScalar = true := by
    decide
  have hargs : ∀ arg ∈ [Value.int 5], arg.isScalar = true := by decide
  have hrun := disciplined_run echo limits hearlier ⟨1⟩ hargs (throw .yieldOutsideIterator)
  have hempty : machine.frames.size = 0 := by decide +kernel
  have hwithin : machine.BeginsWithin echo limits ⟨1⟩ [.int 5] (machine.fuel limits)
      ⟨0, ⟨2⟩, Eval.enter echo ⟨1⟩ [.int 5] machine⟩ := by
    refine ⟨_, ?_, .refl _ _⟩
    rw [← hempty]
    exact Eval.begins_call rfl rfl (hempty ▸ by decide)
  have hbefore : machine.output = #[.int 7] := by decide +kernel
  have hafter : final.output = #[.int 7, .int 5] ∧ final.heap.size = 2 ∧ final.frames.size = 0 := by
    decide +kernel
  exact ⟨hrun.1, hwithin, (hrun.2.1 hwithin).1, hrun.2.2.2.1, hbefore, hafter⟩

end Machine

end IteratorLowering
