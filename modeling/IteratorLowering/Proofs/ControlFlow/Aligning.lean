import IteratorLowering.Proofs.ControlFlow.Arriving
import Mathlib.Order.Filter.AtTopBot.Basic

/-!
# Lists that go on alike

A statement list may lose labels that no jump arrives at and jumps to the statement after them, and
a plain block in it may give its place to its members. `Program.Aligned` says at which places of two
such lists a run goes on alike, and `Program.Realigned` that jumps lead from one list and from the
other to such places. Then the runs of the lists follow one another (`Eval.follows_aligned`).

The second run skips statements that take a step and do nothing else, so it never has taken more
steps than the first. It is given as much fuel as it likes (`Pace.shorter`), since how many rounds
of a list there are depends on how deep the list is nested.
-/

set_option autoImplicit false
set_option relaxedAutoImplicit false

namespace IteratorLowering

/-! ### Runs that are no longer -/

/-- The second run takes no more steps within the same limits, makes the same objects, and has as
much fuel as it likes. -/
def Pace.shorter (limits : Limits) : Pace where
  Index := ℕ
  within := Filter.atTop
  limits := limits
  limits' _ := limits
  lasts _ lasting := ∀ least, ∀ᶠ i in Filter.atTop, least ≤ lasting i
  steps steps steps' := steps' ≤ steps
  heaps size size' := size' = size
  fails _ := False

variable {limits : Limits}

/-- What lasts as long as one likes does so after a round as well. -/
theorem Pace.shorter_lasts (limits : Limits) {rounds : Nat} (rounds' : Nat) {lasting : ℕ → Nat}
    (h : (Pace.shorter limits).lasts rounds lasting) :
    ∃ lasting' : ℕ → Nat, (Pace.shorter limits).lasts rounds' lasting' ∧
      ∀ᶠ i in Filter.atTop, lasting i = lasting' i + 1 := by
  refine ⟨fun i ↦ lasting i - 1, fun least ↦ ?_, ?_⟩
  · exact (h (least + 1)).mono fun i hle ↦ Nat.le_sub_of_add_le hle
  · exact (h 1).mono fun i hle ↦ (Nat.sub_add_cancel hle).symm

theorem Pace.shorter_fair (limits : Limits) : (Pace.shorter limits).Fair where
  tick hsteps hroom := .of_forall fun _ ↦ Nat.le_trans (Nat.succ_le_succ hsteps) hroom
  steps hsteps := Nat.succ_le_succ hsteps
  heaps hsize := congrArg (· + 1) hsize
  depth := .of_forall fun _ ↦ Nat.le_refl _
  lasts hlasts := Pace.shorter_lasts limits _ hlasts
  exact hfails := hfails.elim

/-! ### Places that correspond -/

namespace Program

/-- A label that a jump of the second program arrives at in the first. -/
def JumpedTo (program final : Program) (label : SymId) : Prop :=
  ∃ id, final.Stands id ∧ program.kind id = .action (.goto label) ∧ program.Sees id label

/-- Places in a list and in what became of it at which runs go on alike. -/
inductive Aligned (program final : Program) (body body' : List StmtId) :
    List StmtId → List StmtId → Prop
  | nil : Aligned program final body body' [] []
  | keep {id : StmtId} {rest rest' : List StmtId} (hid : id ∈ body) (hstands : final.Stands id)
      (more : Aligned program final body body' rest rest') :
      Aligned program final body body' (id :: rest) (id :: rest')
  | label {id : StmtId} {label : SymId} {rest rest' : List StmtId}
      (hkind : program.kind id = .action (.define label))
      (hlabel : (program.symbol label).isLabel = true)
      (more : Aligned program final body body' rest rest') :
      Aligned program final body body' (id :: rest) rest'
  | jump {id next : StmtId} {label : SymId} {rest rest' : List StmtId}
      (hkind : program.kind id = .action (.goto label))
      (hafter : program.afterLabel? label body = some rest)
      (hnext : final.kind next = .action (.define label))
      (hlabel : (final.symbol label).isLabel = true)
      (more : Aligned program final body body' rest rest') :
      Aligned program final body body' (id :: next :: rest) (next :: rest')
  | block {id : StmtId} {inner rest rest' : List StmtId} (hid : id ∈ body)
      (hkind : program.kind id = .block none inner)
      (hstands : ∀ member ∈ inner, final.Stands member)
      (hafter : ∀ label next, program.JumpedTo final label →
        program.afterLabel? label inner = some next →
          final.afterLabel? label body' = some (next ++ rest'))
      (more : Aligned program final body body' rest rest') :
      Aligned program final body body' (id :: rest) (inner ++ rest')

/-- Jumps lead to corresponding places of the list of a statement and of what became of it, or leave
both lists. A jump that leaves the first list for good may stay in the second. -/
structure Realigned (program final : Program) (id : StmtId) (body body' : List StmtId) : Prop where
  aligned : Aligned program final body body' body body'
  found : ∀ {label next}, program.JumpedTo final label →
    program.afterLabel? label body = some next →
      ∃ next', final.afterLabel? label body' = some next' ∧
        Aligned program final body body' next next'
  missed : ∀ {label}, program.JumpedTo final label → program.afterLabel? label body = none →
    program.Sees id label → final.afterLabel? label body' = none

/-- Members that stay as they are. -/
theorem Aligned.append {program final : Program} {body body' ids rest rest' : List StmtId}
    (hids : ∀ id ∈ ids, id ∈ body ∧ final.Stands id)
    (h : Aligned program final body body' rest rest') :
    Aligned program final body body' (ids ++ rest) (ids ++ rest') := by
  induction ids with
  | nil => exact h
  | cons id ids ih =>
    obtain ⟨⟨hid, hstands⟩, hids⟩ := List.forall_mem_cons.mp hids
    exact .keep hid hstands (ih hids)

end Program

namespace Eval

open Program

/-! ### Steps that do nothing else -/

section

variable {program : Program} {fuel frame : Nat} {id : StmtId} {machine : Machine} {label : SymId}

/-- A statement takes a step, or fails for want of fuel or of steps. -/
theorem execute_error_or (program : Program) (limits : Limits) (fuel frame : Nat) (id : StmtId)
    (machine : Machine) :
    (∃ error final, execute program limits fuel frame id machine = .error error final) ∨
      ∃ less, fuel = less + 1 ∧ machine.steps + 1 ≤ limits.maxSteps := by
  cases fuel with
  | zero => exact .inl ⟨_, _, rfl⟩
  | succ less =>
    by_cases hspent : limits.maxSteps < machine.steps + 1
    · exact .inl ⟨_, _, bind_of_error ((tick_eq limits machine).trans (if_pos hspent))⟩
    · exact .inr ⟨less, rfl, Nat.not_lt.mp hspent⟩

theorem execute_of_tick (hsteps : machine.steps + 1 ≤ limits.maxSteps) :
    execute program limits (fuel + 1) frame id machine =
      statement program limits (execute program limits fuel) fuel frame id
        { machine with steps := machine.steps + 1 } :=
  bind_of_ok ((tick_eq limits machine).trans (if_neg (Nat.not_lt.mpr hsteps)))

theorem execute_label (hkind : program.kind id = .action (.define label))
    (hlabel : (program.symbol label).isLabel = true)
    (hsteps : machine.steps + 1 ≤ limits.maxSteps) :
    execute program limits (fuel + 1) frame id machine =
      .ok .normal { machine with steps := machine.steps + 1 } := by
  rw [execute_of_tick hsteps, statement, hkind]
  simp only [action, hlabel, if_true]
  rfl

theorem execute_goto (hkind : program.kind id = .action (.goto label))
    (hsteps : machine.steps + 1 ≤ limits.maxSteps) :
    execute program limits (fuel + 1) frame id machine =
      .ok (.goto label) { machine with steps := machine.steps + 1 } := by
  rw [execute_of_tick hsteps, statement, hkind]
  rfl

end

/-! ### Lists -/

variable {α β : Type} {c : Correspondence} {pace : Pace} {early : List Early} {floor frame : Nat}
variable {objects : ObjId → ObjId → Prop} {machine machine' : Machine}
variable {kind : (ObjId → ObjId → Prop) → α → β → Prop} {first first' : Eval α}
variable {second : pace.Index → Eval β}

theorem Follows.of_error {error : EvalError} {final : Machine}
    (hnever : ∀ error, ¬ pace.fails error) (hfirst : first machine = .error error final) :
    Follows c pace early floor objects machine machine' kind first second :=
  .failed hfirst fun hfails ↦ (hnever _ hfails).elim

/-- Where failures need not be shared, it is enough to follow a computation that fails more
rarely. -/
theorem Follows.of_refines (hnever : ∀ error, ¬ pace.fails error)
    (hrefines : Refines first first')
    (h : Follows c pace early floor objects machine machine' kind first' second) :
    Follows c pace early floor objects machine machine' kind first second := by
  cases hfirst : first machine with
  | error error final => exact .of_error hnever hfirst
  | ok value final => exact .congr_left (hfirst.trans (hrefines _ _ _ hfirst).symm) h

theorem shorter_never (limits : Limits) : ∀ error, ¬ (Pace.shorter limits).fails error :=
  fun _ hfails ↦ hfails

/-- A member of a list, and what comes after it in the list. -/
theorem follows_member {program : Program} {run : Executor} {run' : pace.Index → Executor}
    (hnever : ∀ error, ¬ pace.fails error) (hrun : Executing c pace (arriving program run) run')
    (h : machine.Like c pace early floor objects machine') (hframe : floor ≤ frame)
    (hthere : frame < machine.frames.size) {id : StmtId} (hpair : c.pairs id id)
    {next : Flow → Eval α} {next' : pace.Index → Flow → Eval β}
    (hlost : ∀ label, ¬ program.Sees id label → ∀ machine value final,
      next (.goto label) machine ≠ .ok value final)
    (hnext : ∀ {objects' middle middle' flow flow'},
      Reaches c pace early floor objects machine objects' middle middle' →
        LikeFlow c objects' flow flow' →
          Follows c pace early floor objects' middle middle' kind (next flow)
            fun i ↦ next' i flow') :
    Follows c pace early floor objects machine machine' kind (run frame id >>= next)
      fun i ↦ run' i frame id >>= next' i :=
  .of_refines hnever (refines_arrive_bind hlost) (.bind (hrun h hpair hframe hthere) hnext)

end Eval

/-- The program without its statements. Most functions of the evaluator look at nothing else. -/
def Program.bare (program : Program) : Program := { program with statements := #[] }

theorem Program.kind_bare (program : Program) (id : StmtId) :
    program.bare.kind id = (default : Stmt).kind :=
  congrArg Stmt.kind (stmt_of_not_has (Nat.not_lt_zero id.index))

/-- Statements stand for themselves where they stand in the second program. What becomes of them is
not said here, since what can be looked at without them is the same in both programs. -/
def Correspondence.aligning (program final : Program) : Correspondence :=
  .rewriting program.bare program.bare (fun _ ↦ True) (fun _ ↦ True) (program.JumpedTo final)
    final.Stands fun _ _ ↦ False

namespace Eval

open Correspondence

variable {program final : Program} {early : List Early} {floor frame : Nat} {run : Executor}
variable {run' : ℕ → Executor} {objects : ObjId → ObjId → Prop} {machine machine' : Machine}
variable {rounds : Nat} {lasting : ℕ → Nat}

/-- A jump that does not arrive leaves the list that it comes from. -/
theorem afterLabel?_of_not_sees (hlinked : program.WellLinked) {id block : StmtId} {label : SymId}
    (hid : id ∈ program.blockBody block) (h : ¬ program.Sees id label) :
    program.afterLabel? label (program.blockBody block) = none ∧ ¬ program.Sees block label := by
  have hparent := hlinked.parent_of_child (Program.mem_children_of_mem_blockBody hid)
  refine ⟨Program.afterLabel?_eq_none_iff.mpr fun other hother hplaced ↦ ?_,
    mt (.of_parent hparent) h⟩
  exact h (.of_member hlinked hid hother hplaced)

/-- How a list goes on after one of its members. -/
def proceed (program : Program) (run : StmtId → Eval Flow) (body rest : List StmtId)
    (rounds : Nat) : Flow → Eval Flow
  | .normal => runList program run body rounds rest
  | .ret value => return .ret value
  | .goto label =>
    match program.afterLabel? label body with
    | some next => runList program run body rounds next
    | none => return .goto label

theorem runList_cons {run : StmtId → Eval Flow} {body rest : List StmtId} {id : StmtId} :
    runList program run body (rounds + 1) (id :: rest) =
      run id >>= proceed program run body rest rounds :=
  rfl

theorem proceed_goto_of_some {run : StmtId → Eval Flow} {body rest next : List StmtId}
    {label : SymId} (h : program.afterLabel? label body = some next) :
    proceed program run body rest rounds (.goto label) = runList program run body rounds next := by
  rw [proceed, h]

theorem proceed_goto_of_none {run : StmtId → Eval Flow} {body rest : List StmtId} {label : SymId}
    (h : program.afterLabel? label body = none) :
    proceed program run body rest rounds (.goto label) = pure (.goto label) := by
  rw [proceed, h]

/-- A jump out of a member that does not arrive does not arrive from the list either. -/
theorem proceed_ne_ok (hlinked : program.WellLinked) {run : StmtId → Eval Flow} {rest : List StmtId}
    {id block : StmtId} (hid : id ∈ program.blockBody block) {label : SymId}
    (hsees : ¬ program.Sees id label) (machine : Machine) (flow : Flow) (last : Machine) :
    (proceed program run (program.blockBody block) rest rounds (.goto label) >>=
      arrive program block) machine ≠ .ok flow last := by
  obtain ⟨hnone, hblock⟩ := afterLabel?_of_not_sees hlinked hid hsees
  rw [proceed_goto_of_none hnone, pure_bind]
  exact arrive_ne_ok hblock _ _ _

/-- A statement that takes no step fails, and then nothing need follow. -/
theorem Follows.of_step {α β : Type} {c : Correspondence}
    {kind : (ObjId → ObjId → Prop) → α → β → Prop} {fuel : Nat} {id : StmtId}
    {next : Flow → Eval α} {second : ℕ → Eval β}
    (h : ∀ less, fuel = less + 1 → machine.steps + 1 ≤ limits.maxSteps →
      Follows c (.shorter limits) early floor objects machine machine' kind
        (execute program limits fuel frame id >>= next) second) :
    Follows c (.shorter limits) early floor objects machine machine' kind
      (execute program limits fuel frame id >>= next) second := by
  obtain ⟨error, last, herror⟩ | ⟨less, hfuel, hsteps⟩ :=
    execute_error_or program limits fuel frame id machine
  · exact .of_error (shorter_never limits) (bind_of_error herror)
  · exact h less hfuel hsteps

/-- A round that is spent on a member of the second list. -/
theorem Follows.congr_round {α : Type} {c : Correspondence}
    {kind : (ObjId → ObjId → Prop) → α → Flow → Prop} {first : Eval α}
    {run' : ℕ → StmtId → Eval Flow} {body' rest' : List StmtId} {id : StmtId}
    {lasting' : ℕ → Nat} (hsucc : ∀ᶠ i in Filter.atTop, lasting i = lasting' i + 1)
    (h : Follows c (.shorter limits) early floor objects machine machine' kind first
      fun i ↦ run' i id >>= proceed final (run' i) body' rest' (lasting' i)) :
    Follows c (.shorter limits) early floor objects machine machine' kind first
      fun i ↦ runList final (run' i) body' (lasting i) (id :: rest') := by
  have hrounds : ∀ᶠ i in Filter.atTop,
      runList final (run' i) body' (lasting i) (id :: rest') machine' =
        (run' i id >>= proceed final (run' i) body' rest' (lasting' i)) machine' :=
    hsucc.mono fun i hi ↦ by rw [hi, runList_cons]
  exact .congr hrounds h

/-- The members of a block follow those that have taken its place, and what comes after the block
follows what comes after them. -/
theorem follows_inner (hlinked : program.WellLinked)
    (hrun : Executing (aligning program final) (.shorter limits) (arriving program run) run')
    {block : StmtId} {body' rest' : List StmtId}
    (hstands : ∀ member ∈ program.blockBody block, final.Stands member)
    (hafter : ∀ label next, program.JumpedTo final label →
      program.afterLabel? label (program.blockBody block) = some next →
        final.afterLabel? label body' = some (next ++ rest'))
    {next : Flow → Eval Flow}
    (hnext : ∀ {objects machine machine' lasting flow flow'},
      Machine.Like (aligning program final) (.shorter limits) early floor objects machine machine' →
      frame < machine.frames.size → (Pace.shorter limits).lasts 0 lasting →
      LikeFlow (aligning program final) objects flow flow' →
      Follows (aligning program final) (.shorter limits) early floor objects machine machine'
        (LikeFlow (aligning program final)) (next flow)
        fun i ↦ proceed final (run' i frame) body' rest' (lasting i) flow')
    (hlost : ∀ label, ¬ program.Sees block label → ∀ machine value last,
      next (.goto label) machine ≠ .ok value last)
    {ids : List StmtId} (hids : ids ⊆ program.blockBody block)
    (h : machine.Like (aligning program final) (.shorter limits) early floor objects machine')
    (hframe : floor ≤ frame) (hthere : frame < machine.frames.size)
    (hlasts : (Pace.shorter limits).lasts 0 lasting) :
    Follows (aligning program final) (.shorter limits) early floor objects machine machine'
      (LikeFlow (aligning program final))
      (runList program (run frame) (program.blockBody block) rounds ids >>= next)
      fun i ↦ runList final (run' i frame) body' (lasting i) (ids ++ rest') := by
  induction rounds generalizing ids objects machine machine' lasting with
  | zero =>
    cases ids with
    | nil => exact hnext h hthere hlasts .normal
    | cons id ids => exact .of_error (shorter_never limits) (bind_of_error rfl)
  | succ rounds ih =>
    cases ids with
    | nil => exact hnext h hthere hlasts .normal
    | cons id ids =>
      obtain ⟨hid, hrest⟩ := List.cons_subset.mp hids
      obtain ⟨lasting', hlasts', hsucc⟩ := Pace.shorter_lasts limits 0 hlasts
      refine .congr_round hsucc ?_
      rw [runList_cons, bind_assoc]
      refine follows_member (shorter_never limits) hrun h hframe hthere ⟨rfl, hstands id hid⟩ ?_ ?_
      · intro label hsees
        obtain ⟨hnone, hblock⟩ := afterLabel?_of_not_sees hlinked hid hsees
        rw [proceed_goto_of_none hnone, pure_bind]
        exact hlost label hblock
      · intro objects' middle middle' flow flow' hreaches hflow
        have hthere' : frame < middle.frames.size := hreaches.frames.size ▸ hthere
        cases hflow with
        | normal => exact ih hrest hreaches.like hthere' hlasts'
        | ret hvalue => exact hnext hreaches.like hthere' hlasts' (.ret hvalue)
        | @goto label hlabel =>
          change Follows _ (.shorter limits) _ _ _ _ _ _ _
            fun i : ℕ ↦ proceed final (run' i frame) body' (ids ++ rest') (lasting' i) (.goto label)
          cases hfound : program.afterLabel? label (program.blockBody block) with
          | none =>
            rw [proceed_goto_of_none hfound, pure_bind]
            exact hnext hreaches.like hthere' hlasts' (.goto hlabel)
          | some found =>
            obtain ⟨before, placed, heq, -⟩ := Program.exists_of_afterLabel? hfound
            simp only [proceed_goto_of_some hfound,
              proceed_goto_of_some (hafter label found hlabel hfound)]
            refine ih (fun other hother ↦ ?_) hreaches.like hthere' hlasts'
            rw [heq]
            exact List.mem_append_right _ (List.mem_cons_of_mem _ hother)

/-- What comes after a member follows what comes after it in the other list, if the rests of the
lists do. -/
theorem follows_proceed {id : StmtId} {body' : List StmtId}
    (hlists : program.Realigned final id (program.blockBody id) body')
    (hlist : ∀ {rest rest' objects machine machine'},
      program.Aligned final (program.blockBody id) body' rest rest' →
      Machine.Like (aligning program final) (.shorter limits) early floor objects machine machine' →
      frame < machine.frames.size →
      Follows (aligning program final) (.shorter limits) early floor objects machine machine'
        (LikeFlow (aligning program final))
        (runList program (run frame) (program.blockBody id) rounds rest >>= arrive program id)
        fun i ↦ runList final (run' i frame) body' (lasting i) rest')
    {rest rest' : List StmtId}
    (hrest : program.Aligned final (program.blockBody id) body' rest rest')
    (h : machine.Like (aligning program final) (.shorter limits) early floor objects machine')
    (hthere : frame < machine.frames.size) {flow flow' : Flow}
    (hflow : LikeFlow (aligning program final) objects flow flow') :
    Follows (aligning program final) (.shorter limits) early floor objects machine machine'
      (LikeFlow (aligning program final))
      (proceed program (run frame) (program.blockBody id) rest rounds flow >>= arrive program id)
      fun i ↦ proceed final (run' i frame) body' rest' (lasting i) flow' := by
  cases hflow with
  | normal => exact hlist hrest h hthere
  | ret hvalue => exact .pure h (.ret hvalue)
  | @goto label hlabel =>
    change Follows _ (.shorter limits) _ _ _ _ _ _ _
      fun i : ℕ ↦ proceed final (run' i frame) body' rest' (lasting i) (.goto label)
    cases hfound : program.afterLabel? label (program.blockBody id) with
    | some next =>
      obtain ⟨next', hfound', hnext⟩ := hlists.found hlabel hfound
      simp only [proceed_goto_of_some hfound, proceed_goto_of_some hfound']
      exact hlist hnext h hthere
    | none =>
      rw [proceed_goto_of_none hfound, pure_bind]
      by_cases hsees : program.Sees id label
      · simp only [proceed_goto_of_none (hlists.missed hlabel hfound hsees), arrive_of_sees hsees]
        exact .pure h (.goto hlabel)
      · rw [arrive, if_neg hsees]
        exact .of_error (shorter_never limits) rfl

/-- Lists that are aligned follow one another. -/
theorem follows_aligned (hlinked : program.WellLinked) {fuel : Nat} {reach : ℕ → Nat}
    (hrun : ∀ {less}, less ≤ fuel → Executing (aligning program final) (.shorter limits)
      (arriving program (execute program limits less)) fun i ↦ execute final limits (reach i))
    (hreach : (Pace.shorter limits).lasts fuel reach) {id : StmtId} {body' rest rest' : List StmtId}
    (hlists : program.Realigned final id (program.blockBody id) body')
    (hrest : program.Aligned final (program.blockBody id) body' rest rest')
    (h : machine.Like (aligning program final) (.shorter limits) early floor objects machine')
    (hframe : floor ≤ frame) (hthere : frame < machine.frames.size)
    (hlasts : (Pace.shorter limits).lasts rounds lasting) :
    Follows (aligning program final) (.shorter limits) early floor objects machine machine'
      (LikeFlow (aligning program final))
      (runList program (execute program limits fuel frame) (program.blockBody id) rounds rest >>=
        arrive program id)
      fun i ↦ runList final (execute final limits (reach i) frame) body' (lasting i) rest' := by
  induction rounds generalizing rest rest' objects machine machine' lasting with
  | zero =>
    cases hrest with
    | nil =>
      simp only [runList_nil, pure_bind, arrive]
      exact .pure h .normal
    | keep | label | jump | block => exact .of_error (shorter_never limits) (bind_of_error rfl)
  | succ rounds ih =>
    cases hrest with
    | nil =>
      simp only [runList_nil, pure_bind, arrive]
      exact .pure h .normal
    | @keep member rest rest' hmember hstands more =>
      obtain ⟨lasting', hlasts', hsucc⟩ := Pace.shorter_lasts limits rounds hlasts
      refine .congr_round hsucc ?_
      rw [runList_cons, bind_assoc]
      refine follows_member (shorter_never limits) (hrun le_rfl) h hframe hthere ⟨rfl, hstands⟩
        (fun label ↦ proceed_ne_ok hlinked hmember) fun hreaches hflow ↦ ?_
      exact follows_proceed hlists (fun hrest h hthere ↦ ih hrest h hthere hlasts') more
        hreaches.like (hreaches.frames.size ▸ hthere) hflow
    | @label member label rest rest' hkind hlabel more =>
      -- The second run has the label behind it already.
      rw [runList_cons, bind_assoc]
      refine .of_step fun less hfuel hsteps ↦ ?_
      subst hfuel
      refine .after (execute_label hkind hlabel hsteps) le_rfl (.of_eq rfl) ?_
      exact ih more (h.withSteps (Nat.le_succ_of_le h.steps)) hthere hlasts
    | @jump member next label rest rest' hkind hafter hnext hlabel more =>
      -- The first run jumps over the label while the second one runs it.
      rw [runList_cons, bind_assoc]
      refine .of_step fun less hfuel hsteps ↦ ?_
      subst hfuel
      refine .after (execute_goto hkind hsteps) le_rfl (.of_eq rfl) ?_
      rw [proceed_goto_of_some hafter]
      obtain ⟨lasting', hlasts', hsucc⟩ := Pace.shorter_lasts limits rounds hlasts
      obtain ⟨reach', -, hreach'⟩ := Pace.shorter_lasts limits less hreach
      have hsteps' : machine'.steps + 1 ≤ limits.maxSteps :=
        Nat.le_trans (Nat.succ_le_succ h.steps) hsteps
      have hround : ∀ᶠ i in Filter.atTop,
          runList final (execute final limits (reach i) frame) body' (lasting i) (next :: rest')
              machine' =
            runList final (execute final limits (reach i) frame) body' (lasting' i) rest'
              { machine' with steps := machine'.steps + 1 } := by
        filter_upwards [hsucc, hreach'] with i hlast hfuel
        rw [hlast, hfuel, runList_cons, bind_of_ok (execute_label hnext hlabel hsteps')]
        rfl
      refine .congr hround ?_
      exact ih more (h.withSteps (Nat.succ_le_succ h.steps)) hthere hlasts'
    | @block member inner rest rest' hmember hkind hstands hafter more =>
      have hinner : program.blockBody member = inner := by rw [Program.blockBody, hkind]
      subst hinner
      rw [runList_cons, bind_assoc]
      refine .of_step fun less hfuel hsteps ↦ ?_
      subst hfuel
      rw [show execute program limits (less + 1) frame member = tick limits >>= fun _ ↦
        statement program limits (execute program limits less) less frame member from rfl,
        bind_assoc]
      refine .after ((tick_eq limits machine).trans (if_neg (Nat.not_lt.mpr hsteps))) le_rfl
        (.of_eq rfl) ?_
      rw [statement_of_plain hkind rfl]
      refine follows_inner hlinked (hrun (Nat.le_succ less)) hstands hafter
        (fun h hthere hlasts hflow ↦ ?_) (fun label ↦ proceed_ne_ok hlinked hmember)
        (List.Subset.refl _) (h.withSteps (Nat.le_succ_of_le h.steps)) hframe hthere hlasts
      exact follows_proceed hlists (fun hrest h hthere ↦ ih hrest h hthere hlasts) more h hthere
        hflow

end Eval

end IteratorLowering
