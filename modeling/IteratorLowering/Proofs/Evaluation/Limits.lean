import IteratorLowering.Proofs.Evaluation.Budget

/-!
# What limits do to a run

A run takes at most one step more than its limit (`Machine.steps_of_run_eq_ok`,
`Machine.steps_of_run_eq_error`), and then it is cut off (`Machine.steps_of_run_eq_stepLimit`). The
evaluator is a recursion on fuel, but fuel never decides anything: every amount that covers the
steps that are left gives the same outcome (`Machine.run_eq_call_execute`).

Limits only cut runs off. Larger limits do not change a run that its limits did not cut off
(`Machine.run_eq_run_of_within`), and a run that is cut off has traced what the longer one traces
first (`Machine.output_prefix_of_run`); `Machine.run_of_within` puts the two runs side by side. What
a run keeps of the machine it keeps in any case (`Machine.evolves_run`).

The one thing that limits do not end is a while loop without statements. Where its condition holds
it goes on for ever (`Eval.execute_of_idle`, `Machine.run_of_idle`), and only such a loop does.
`Machine.spends_run` puts all that a run does with its steps together.
-/

set_option autoImplicit false
set_option relaxedAutoImplicit false

namespace IteratorLowering

namespace Eval

variable {program : Program} {limits limits' : Limits} {machine final : Machine} {frame : Nat}

/-! ### Statements -/

section

variable {since : Option Nat} {rounds rounds' : Nat} {execute execute' : Executor}
variable (hwithin : limits.Within limits')
variable (hexecute : ∀ frame id,
  Tracks program limits limits' since 1 (execute frame id) (execute' frame id))

include hwithin hexecute

theorem tracks_call {function : FnId} {args : List Value} :
    Tracks program limits limits' since 0 (call program limits execute function args)
      (call program limits' execute' function args) := by
  unfold call
  refine .bind quiet_countCall.tracks fun _ ↦ ?_
  dsimp only
  split
  · exact quiet_callExternal.tracks
  split
  · exact quiet_buildInstance.tracks
  refine .bind (tracks_checkDepth hwithin) fun _ ↦ ?_
  refine .bind (.withFrame fun depth ↦ (hexecute depth _).forget) fun ended ↦ ?_
  obtain ⟨flow, left⟩ := ended
  cases flow with
  | ret value => exact .pure
  | normal => exact .pure
  | goto label => exact .throw rfl

theorem tracks_expression {value : Expr} :
    Tracks program limits limits' since 0 (expression program limits execute frame value)
      (expression program limits' execute' frame value) := by
  have hoperands (args : List Operand) : Quiet program (args.mapM (operand program frame)) :=
    .mapM fun _ ↦ quiet_operand
  cases value with
  | use operand => exact quiet_operand.tracks
  | prim op args =>
    exact .bind (hoperands args).tracks fun _ ↦ (quiet_ofExcept ordinary_primitive).tracks
  | call callee args =>
    exact .bind (hoperands args).tracks fun _ ↦ tracks_call hwithin hexecute
  | tableCall slot args =>
    refine .bind quiet_operand.tracks fun _ ↦ .bind quiet_tableFunction.tracks fun _ ↦ ?_
    exact .bind (hoperands args).tracks fun _ ↦ tracks_call hwithin hexecute
  | fieldAddress base field =>
    exact .bind quiet_objectOf.tracks fun _ ↦ .bind quiet_fieldIndex.tracks fun _ ↦ .pure
  | fieldValue base field =>
    refine .bind quiet_objectOf.tracks fun _ ↦ .bind quiet_fieldIndex.tracks fun _ ↦ ?_
    exact .bind Quiet.get.tracks fun _ ↦ .pure
  | cast type operand => exact .bind quiet_operand.tracks fun _ ↦ .pure
  | hasClass symbol type =>
    exact .bind quiet_read.tracks fun _ ↦ .bind quiet_classOf?.tracks fun _ ↦ .pure
  | addressOf symbol => exact .pure
  | deref symbol =>
    refine .bind quiet_read.tracks fun held ↦ ?_
    split
    · exact quiet_load.tracks
    · exact .throw rfl

theorem tracks_naiveFor {loop : StmtId} {info : BlockInfo} :
    Tracks program limits limits' since 0 (naiveFor program limits execute frame loop info)
      (naiveFor program limits' execute' frame loop info) := by
  unfold naiveFor
  split
  · exact .unsupported
  refine .bind Quiet.get.tracks fun _ ↦ .bind quiet_objectOf.tracks fun object ↦ ?_
  dsimp only
  split
  · exact .unsupported
  split
  · exact .unsupported
  refine .bind (tracks_checkDepth hwithin) fun _ ↦ .bind quiet_countCall.tracks fun _ ↦ ?_
  refine .bind (.withFrame fun depth ↦ (hexecute depth _).forget) fun ended ↦ ?_
  obtain ⟨flow, left⟩ := ended
  cases flow with
  | normal => exact .pure
  | ret value => exact .pure
  | goto label => exact .throw rfl

variable (hrounds : ∀ start ∈ since, limits.Covers rounds start)
variable (hrounds' : ∀ start ∈ since, limits'.Covers rounds' start)

include hrounds hrounds'

theorem tracks_yieldValue {value : Value} :
    Tracks program limits limits' since 0 (yieldValue program execute rounds frame value)
      (yieldValue program execute' rounds' frame value) := by
  unfold yieldValue
  refine .bind Quiet.get.tracks fun _ ↦ ?_
  split
  · exact .throw rfl
  refine .bind quiet_setLocal.tracks fun _ ↦ ?_
  dsimp only
  refine .bind (tracks_runList hwithin (hexecute _) hrounds hrounds').forget fun flow ↦ ?_
  cases flow with
  | normal => exact .pure
  | ret value => exact .unsupported
  | goto label => exact .unsupported

theorem tracks_action {inner : Action} :
    Tracks program limits limits' since 0 (action program limits execute rounds frame inner)
      (action program limits' execute' rounds' frame inner) := by
  cases inner with
  | define symbol =>
    simp only [action]
    refine Quiet.tracks ?_
    split
    · exact .pure
    · exact .bind quiet_defaultValue fun _ ↦ .bind quiet_setLocal fun _ ↦ .pure
  | assign target value =>
    refine .bind (tracks_expression hwithin hexecute) fun _ ↦ ?_
    exact .bind quiet_setLocal.tracks fun _ ↦ .pure
  | store reference value =>
    refine .bind quiet_operand.tracks fun _ ↦ .bind quiet_read.tracks fun held ↦ ?_
    split
    · exact .bind quiet_store.tracks fun _ ↦ .pure
    · exact .throw rfl
  | setField base field value =>
    refine .bind quiet_operand.tracks fun _ ↦ .bind quiet_objectOf.tracks fun _ ↦ ?_
    exact .bind quiet_fieldIndex.tracks fun _ ↦ .bind quiet_setField.tracks fun _ ↦ .pure
  | evaluate value => exact .bind (tracks_expression hwithin hexecute) fun _ ↦ .pure
  | yield value =>
    refine .bind quiet_operand.tracks fun _ ↦ ?_
    exact tracks_yieldValue hwithin hexecute hrounds hrounds'
  | ret value => exact .bind quiet_operand.tracks fun _ ↦ .pure
  | goto label => exact .pure
  | fail message => exact .throw rfl
  | noop => exact .pure

omit hwithin in
/-- A loop without statements takes no steps, and where its condition holds it never ends. -/
theorem tracks_idle {id : StmtId} {condition : Operand}
    (hkind : program.kind id = .block (some (.whileLoop condition)) []) :
    Tracks program limits limits' since 0
      (runWhile (truth program frame condition)
        (runList program (execute frame) [] rounds []) rounds)
      (runWhile (truth program frame condition)
        (runList program (execute' frame) [] rounds' []) rounds') where
  evolving := evolving_runWhile quiet_truth.evolving
    (evolving_runList fun id ↦ (hexecute frame id).evolving)
  budgeted := fun {machine} hreached ↦ by
    have ⟨start, hstart, _⟩ := hreached
    obtain ⟨rounds, rfl⟩ := (hrounds start hstart).exists_eq_succ
    obtain ⟨rounds', rfl⟩ := (hrounds' start hstart).exists_eq_succ
    rw [runWhile_nil looks_truth, runWhile_nil looks_truth]
    refine (Tracks.bind quiet_truth.tracks fun holds ↦ ?_).budgeted hreached
    split
    · exact .endless ⟨id, condition, hkind⟩
    · exact .pure

theorem tracks_statement {id : StmtId} :
    Tracks program limits limits' since 0 (statement program limits execute rounds frame id)
      (statement program limits' execute' rounds' frame id) := by
  have hlist (body : List StmtId) : Tracks program limits limits' since (min 1 body.length)
      (runList program (execute frame) body rounds body)
      (runList program (execute' frame) body rounds' body) :=
    tracks_runList hwithin (hexecute frame) hrounds hrounds'
  unfold statement
  split
  · exact tracks_action hwithin hexecute hrounds hrounds'
  · refine .bind quiet_truth.tracks fun holds ↦ ?_
    split
    · exact (hexecute frame _).forget
    · split
      · exact (hexecute frame _).forget
      · exact .pure
  · rename_i condition body hkind
    cases body with
    | nil => exact tracks_idle hexecute hrounds hrounds' hkind
    | cons entry rest =>
      have hround := hlist (entry :: rest)
      rw [List.length_cons, Nat.min_eq_left (Nat.le_add_left 1 _)] at hround
      exact tracks_runWhile hwithin quiet_truth hround hrounds hrounds'
  · exact tracks_naiveFor hwithin hexecute
  · exact (hlist _).forget

end

/-! ### Fuel -/

theorem evolving_statement {rounds : Nat} {execute : Executor} {id : StmtId}
    (hexecute : ∀ frame id, Evolving program (execute frame id)) :
    Evolving program (statement program limits execute rounds frame id) := by
  have htracks : Tracks program limits limits none 0
      (statement program limits execute rounds frame id)
      (statement program limits execute rounds frame id) :=
    tracks_statement (.refl limits) (fun frame id ↦ .of_evolving (hexecute frame id)) nofun nofun
  exact htracks.evolving

/-- Whatever its fuel is, an executor only evolves the machine. -/
theorem evolving_execute {fuel : Nat} {id : StmtId} :
    Evolving program (execute program limits fuel frame id) := by
  induction fuel generalizing frame id with
  | zero => exact .throw
  | succ fuel ih =>
    exact .bind (evolving_tick program limits) fun _ ↦ evolving_statement fun _ _ ↦ ih

theorem budgeted_execute (hwithin : limits.Within limits') {fuel fuel' : Nat}
    (hfuel : limits.Covers fuel machine.steps) (hfuel' : limits'.Covers fuel' machine.steps)
    {id : StmtId} :
    Budgeted program limits limits' 1 (execute program limits fuel frame id)
      (execute program limits' fuel' frame id) machine := by
  induction fuel generalizing fuel' machine frame id with
  | zero => exact absurd hfuel.pos (Nat.lt_irrefl 0)
  | succ fuel ih =>
    obtain ⟨fuel', rfl⟩ := hfuel'.exists_eq_succ
    have hstatement (ticked : Machine) (hleast : machine.steps < ticked.steps)
        (hmost : ticked.steps ≤ limits.maxSteps) : Tracks program limits limits' ticked.steps 0
          (statement program limits (execute program limits fuel) fuel frame id)
          (statement program limits' (execute program limits' fuel') fuel' frame id) := by
      have hfuel := hfuel.step hleast hmost
      have hfuel' := hfuel'.step hleast (Nat.le_trans hmost hwithin.steps)
      refine tracks_statement hwithin (fun frame id ↦ ⟨?_, evolving_execute⟩) ?_ ?_
      · rintro machine ⟨_, ⟨⟩, hle⟩
        exact ih (hfuel.mono hle) (hfuel'.mono hle)
      · rintro _ ⟨⟩
        exact hfuel
      · rintro _ ⟨⟩
        exact hfuel'
    refine (budgeted_tick hwithin).bind (fun _ ↦ ?_) fun _ ticked hleast hmost ↦ ?_
    · exact evolving_statement fun _ _ ↦ evolving_execute
    · exact (hstatement ticked hleast (by omega)).budgeted ⟨_, rfl, Nat.le_refl _⟩

/-- Executors with fuel for all the steps that are left keep step. -/
theorem tracks_execute (hwithin : limits.Within limits') {fuel fuel' taken : Nat}
    (hfuel : limits.Covers fuel taken) (hfuel' : limits'.Covers fuel' taken) {id : StmtId} :
    Tracks program limits limits' (some taken) 1 (execute program limits fuel frame id)
      (execute program limits' fuel' frame id) where
  evolving := evolving_execute
  budgeted := by
    rintro machine ⟨_, ⟨⟩, hle⟩
    exact budgeted_execute hwithin (hfuel.mono hle) (hfuel'.mono hle)

/-! ### Idle loops -/

/-- An idle loop whose condition holds takes its step and never ends. -/
theorem execute_of_idle {rounds : Nat} {id : StmtId} {condition : Operand}
    (hsteps : machine.steps < limits.maxSteps)
    (hkind : program.kind id = .block (some (.whileLoop condition)) [])
    (hholds : truth program frame condition { machine with steps := machine.steps + 1 } =
      .ok true final) :
    execute program limits (rounds + 2) frame id machine = .error .endlessLoop final := by
  have htick := (tick_eq limits machine).trans (if_neg (Nat.not_lt_of_le hsteps))
  refine (bind_of_ok htick).trans ?_
  unfold statement
  rw [hkind]
  dsimp only
  rw [runWhile_nil looks_truth, bind_of_ok hholds]
  rfl

/-! ### Calls -/

/-- The frame that a call pushes. -/
def callFrame (program : Program) (function : FnId) (args : List Value) : Frame :=
  { function, locals := bindFormals (program.function function).formals args }

/-- The machine on which the body of a function starts. -/
def enter (program : Program) (function : FnId) (args : List Value) (machine : Machine) : Machine :=
  { machine.countCall function with
    frames := machine.frames.push (callFrame program function args) }

/-- What a call makes of how its body ended. -/
def leave (program : Program) (frame : Frame) :
    EStateM.Result EvalError Machine Flow → EStateM.Result EvalError Machine Value
  | .error error last => .error error { last with frames := last.frames.pop }
  | .ok (.ret value) last => .ok value { last with frames := last.frames.pop }
  | .ok .normal last =>
    .ok (((program.function frame.function).retSym.bind
        (last.frames.back?.getD frame).locals.find?).getD .void)
      { last with frames := last.frames.pop }
  | .ok (.goto label) last =>
    .error (.missingLabel (program.symbolName label)) { last with frames := last.frames.pop }

/-- A function that is neither external nor an iterator runs its body in a frame of its own. -/
theorem call_eq_leave {execute : Executor} {function : FnId} {args : List Value}
    (hexternal : (program.function function).flags.external = false)
    (hiterator : (program.function function).isIterator = false)
    (hdepth : machine.frames.size < limits.maxDepth) :
    call program limits execute function args machine =
      leave program (callFrame program function args)
        (execute machine.frames.size (program.function function).body
          (enter program function args machine)) := by
  unfold call
  refine (bind_of_ok rfl).trans ?_
  dsimp only
  rw [if_neg (by simp [hexternal]), if_neg (by simp [hiterator])]
  have hchecked : checkDepth limits (machine.countCall function) =
      .ok () (machine.countCall function) :=
    (checkDepth_eq limits _).trans (if_neg (Nat.not_le_of_gt hdepth))
  refine (bind_of_ok hchecked).trans ?_
  cases hrun : execute machine.frames.size (program.function function).body
      (enter program function args machine) with
  | error error last => exact bind_of_error (withFrame_of_error hrun)
  | ok flow last =>
    refine (bind_of_ok (withFrame_of_ok hrun)).trans ?_
    cases flow <;> rfl

end Eval

/-! ### Runs -/

/-- Whether a run was cut off by its limits. -/
def Eval.isCutOff {α : Type} : EStateM.Result EvalError Machine α → Bool
  | .ok _ _ => false
  | .error error _ => error.isLimit

namespace Machine

variable {machine final : Machine} {program : Program} {limits limits' : Limits}
variable {function : FnId} {args : List Value}

variable (program function args) in
/-- A run within limits, compared with one within larger limits that has enough fuel. -/
theorem budgeted_run (hwithin : limits.Within limits') {fuel : Nat}
    (hfuel : limits'.Covers fuel machine.steps) :
    Eval.Budgeted program limits limits' 0
      (Eval.call program limits (Eval.execute program limits (machine.fuel limits)) function args)
      (Eval.call program limits' (Eval.execute program limits' fuel) function args) machine :=
  (Eval.tracks_call hwithin fun _ _ ↦
    Eval.tracks_execute hwithin (limits.covers_fuel machine) hfuel).budgeted
      ⟨_, rfl, Nat.le_refl _⟩

/-- The outcome does not depend on the fuel, as long as there is enough of it for the steps. -/
theorem run_eq_call_execute {fuel : Nat} (hfuel : limits.Covers fuel machine.steps) :
    machine.run program limits function args =
      Eval.call program limits (Eval.execute program limits fuel) function args machine := by
  unfold run
  cases budgeted_run program function args (.refl limits) hfuel with
  | done hfirst hsecond => rw [hfirst, hsecond]
  | failed hfirst hsecond =>
    rcases hsecond with hsecond | ⟨hne, -, -⟩
    · rw [hfirst, hsecond]
    · exact absurd rfl hne

/-- Larger limits do not change a run that was not cut off. -/
theorem run_eq_run_of_within (hwithin : limits.Within limits')
    (hlimit : ∀ error final, machine.run program limits function args = .error error final →
      error.isLimit = false) :
    machine.run program limits' function args = machine.run program limits function args := by
  unfold run at hlimit ⊢
  cases budgeted_run program function args hwithin (limits'.covers_fuel machine) with
  | done hfirst hsecond => rw [hfirst, hsecond]
  | failed hfirst hsecond =>
    rcases hsecond with hsecond | ⟨-, hcut, -⟩
    · rw [hfirst, hsecond]
    · exact absurd ((hlimit _ _ hfirst).symm.trans hcut) Bool.false_ne_true

/-- What a run traces before it ends without a result is what it traces first within larger
limits. -/
theorem output_prefix_of_run (hwithin : limits.Within limits') {error : EvalError}
    (hrun : machine.run program limits function args = .error error final) :
    final.output.toList <+:
      (Eval.left (machine.run program limits' function args)).output.toList := by
  unfold run at hrun ⊢
  cases budgeted_run program function args hwithin (limits'.covers_fuel machine) with
  | done hfirst hsecond => cases hfirst.symm.trans hrun
  | failed hfirst hsecond =>
    cases hfirst.symm.trans hrun
    rcases hsecond with hsecond | ⟨-, -, houtput⟩
    · rw [hsecond]
      exact List.prefix_rfl
    · exact houtput

/-- Limits only cut runs off. Within larger limits, a run that was not cut off ends in the same way
and leaves the same machine, and a run that was has traced the first of what is traced there. -/
theorem run_of_within (machine : Machine) (program : Program) (hwithin : limits.Within limits')
    (function : FnId) (args : List Value) :
    let short := machine.run program limits function args
    let long := machine.run program limits' function args
    (Eval.isCutOff short = false → long = short) ∧
      (Eval.left short).output.toList <+: (Eval.left long).output.toList := by
  intro short long
  have heq (hshort : Eval.isCutOff short = false) : long = short := by
    apply run_eq_run_of_within hwithin
    intro error final hrun
    rw [show short = .error error final from hrun] at hshort
    exact hshort
  constructor
  · exact heq
  · cases hrun : short with
    | ok value final =>
      have hlong : long = .ok value final := (heq (by rw [hrun]; rfl)).trans hrun
      exact hlong ▸ List.prefix_rfl
    | error error final => exact output_prefix_of_run hwithin hrun

/-- A function that traces two numbers, each by a call. -/
def traceTwice : Program where
  types := builtinTypes
  statements := #[
    { kind := .plain [⟨1⟩, ⟨2⟩], bodyOf := some ⟨0⟩, span := .none },
    { kind := .action (.evaluate (.call ⟨1⟩ [.lit (.int 1)])), parent := some ⟨0⟩, span := .none },
    { kind := .action (.evaluate (.call ⟨1⟩ [.lit (.int 2)])), parent := some ⟨0⟩, span := .none }]
  functions := #[
    { name := "main", retType := .void, body := ⟨0⟩ },
    { name := "trace", retType := .void, body := ⟨0⟩, flags := { external := true } }]

theorem run_traceTwice :
    let cut := new.run traceTwice ⟨2, 1⟩ ⟨0⟩ []
    let short := new.run traceTwice ⟨3, 1⟩ ⟨0⟩ []
    let long := new.run traceTwice ⟨9, 4⟩ ⟨0⟩ []
    Eval.isCutOff cut = true ∧ (Eval.left cut).output = #[.int 1] ∧
      (Eval.left cut).output.toList <+: (Eval.left long).output.toList ∧
      Eval.isCutOff short = false ∧ long = short ∧
      (Eval.left long).output = #[.int 1, .int 2] := by
  intro cut short long
  have hcut : Eval.isCutOff cut = true := by decide +kernel
  have hshort : Eval.isCutOff short = false := by decide +kernel
  have hfirst : (Eval.left cut).output = #[.int 1] := by decide +kernel
  have hboth : (Eval.left long).output = #[.int 1, .int 2] := by decide +kernel
  have hcutWithin : Limits.Within ⟨2, 1⟩ ⟨9, 4⟩ := ⟨by decide, by decide⟩
  have hshortWithin : Limits.Within ⟨3, 1⟩ ⟨9, 4⟩ := ⟨by decide, by decide⟩
  have hprefix := (run_of_within new traceTwice hcutWithin ⟨0⟩ []).2
  have hsame := (run_of_within new traceTwice hshortWithin ⟨0⟩ []).1 hshort
  exact ⟨hcut, hfirst, hprefix, hshort, hsame, hboth⟩

/-- A run keeps the stack and the objects, and only adds to the traced values. -/
theorem evolves_run : machine.Evolves program
    (Eval.left (machine.run program limits function args)) := by
  have htracks : Eval.Tracks program limits limits none 0
      (Eval.call program limits (Eval.execute program limits (machine.fuel limits)) function args)
      (Eval.call program limits (Eval.execute program limits (machine.fuel limits)) function
        args) :=
    Eval.tracks_call (.refl limits) fun _ _ ↦ .of_evolving Eval.evolving_execute
  exact htracks.evolving machine

/-- A run with a result stays within its limits. -/
theorem steps_of_run_eq_ok {value : Value}
    (hrun : machine.run program limits function args = .ok value final) :
    machine.steps ≤ final.steps ∧ final.steps ≤ max machine.steps limits.maxSteps := by
  cases budgeted_run program function args (.refl limits) (limits.covers_fuel machine) with
  | done hfirst _ hleast hmost =>
    cases hfirst.symm.trans hrun
    exact ⟨hleast, hmost⟩
  | failed hfirst => cases hfirst.symm.trans hrun

theorem overdrawn_of_run_eq_error {error : EvalError}
    (hrun : machine.run program limits function args = .error error final) :
    Eval.Overdrawn program limits machine.steps error final := by
  cases budgeted_run program function args (.refl limits) (limits.covers_fuel machine) with
  | done hfirst => cases hfirst.symm.trans hrun
  | failed hfirst _ hover =>
    cases hfirst.symm.trans hrun
    exact hover

/-- A run without a result takes at most one step more than its limits allow. -/
theorem steps_of_run_eq_error {error : EvalError}
    (hrun : machine.run program limits function args = .error error final) :
    final.steps ≤ max machine.steps limits.maxSteps + 1 :=
  (overdrawn_of_run_eq_error hrun).most

/-- A run is cut off for its steps only when it has taken one too many. -/
theorem steps_of_run_eq_stepLimit {limit : Nat} (hsteps : machine.steps ≤ limits.maxSteps)
    (hrun : machine.run program limits function args = .error (.stepLimit limit) final) :
    limit = limits.maxSteps ∧ final.steps = limits.maxSteps + 1 := by
  have hover := overdrawn_of_run_eq_error hrun
  have hmost := hover.most
  obtain ⟨hlimit, hspent⟩ := hover.spent limit rfl
  exact ⟨hlimit, by omega⟩

/-- A function that is an idle loop never ends, whatever the limits are. -/
theorem run_of_idle (hexternal : (program.function function).flags.external = false)
    (hiterator : (program.function function).isIterator = false)
    (hkind : program.kind (program.function function).body =
      .block (some (.whileLoop (.lit (.bool true)))) [])
    (hsteps : machine.steps < limits.maxSteps) (hdepth : machine.frames.size < limits.maxDepth) :
    ∃ final, machine.run program limits function args = .error .endlessLoop final := by
  obtain ⟨rounds, hrounds⟩ : ∃ rounds, machine.fuel limits = rounds + 2 :=
    ⟨limits.maxSteps - machine.steps - 1, by unfold Machine.fuel; omega⟩
  have hsteps' : (Eval.enter program function args machine).steps < limits.maxSteps := hsteps
  unfold run
  rw [hrounds, Eval.call_eq_leave hexternal hiterator hdepth,
    Eval.execute_of_idle hsteps' hkind rfl]
  exact ⟨_, rfl⟩

/-- What a run does with its steps. It takes at most one more than its limits allow, and is cut off
for its steps only when it has. Only a while loop without statements goes on for ever, and where the
condition of such a loop is true it does, whatever the limits are. -/
theorem spends_run (machine : Machine) (program : Program) (limits : Limits) (function : FnId)
    (args : List Value) :
    let ended := machine.run program limits function args
    (∀ value final, ended = .ok value final →
      machine.steps ≤ final.steps ∧ final.steps ≤ max machine.steps limits.maxSteps) ∧
    (∀ error final, ended = .error error final →
      final.steps ≤ max machine.steps limits.maxSteps + 1 ∧
        (machine.steps ≤ limits.maxSteps → ∀ limit, error = .stepLimit limit →
          limit = limits.maxSteps ∧ final.steps = limits.maxSteps + 1) ∧
        (error = .endlessLoop → program.HasIdleLoop)) ∧
    ((program.function function).flags.external = false →
      (program.function function).isIterator = false →
      program.kind (program.function function).body =
        .block (some (.whileLoop (.lit (.bool true)))) [] →
      machine.steps < limits.maxSteps → machine.frames.size < limits.maxDepth →
        ∃ final, ended = .error .endlessLoop final) := by
  intro ended
  refine ⟨fun value final hrun ↦ steps_of_run_eq_ok hrun, fun error final hrun ↦ ⟨?_, ?_, ?_⟩, ?_⟩
  · exact steps_of_run_eq_error hrun
  · rintro hsteps limit rfl
    exact steps_of_run_eq_stepLimit hsteps hrun
  · rintro rfl
    exact (overdrawn_of_run_eq_error hrun).idle rfl
  · exact run_of_idle

end Machine

end IteratorLowering
