import IteratorLowering.Proofs.Simulation.Rewriting

/-!
# Jumps that arrive

A jump goes up through the statement lists around it until one of them places its label. So whether
it arrives can be read off the forest: a statement sees a label that is placed in a list around it
(`Program.Sees`). A jump to a label that a statement does not see leaves one list after the other
until the call or the loop that it is in fails.

`Eval.arriving` lets such jumps fail right where they leave a statement. A run that gives a result
gives the same result then (`refines_call` and the lemmas after it), since the jump would have made
it fail later. `Refines` compares the two.
-/

set_option autoImplicit false
set_option relaxedAutoImplicit false

namespace IteratorLowering

namespace Program

/-- Whether a label is placed in a list around the statement. -/
def Sees (program : Program) (id : StmtId) (label : SymId) : Prop :=
  ∃ parent block, program.parent id = some parent ∧ program.Under parent block ∧
    ∃ member ∈ program.blockBody block, (program.kind member).defined? = some label

variable {program : Program} {id parent block member other : StmtId} {label : SymId}

/-- What is seen from around a statement is seen from it. -/
theorem Sees.of_parent (hparent : program.parent id = some parent) (h : program.Sees parent label) :
    program.Sees id label := by
  obtain ⟨above, block, habove, hunder, hplaced⟩ := h
  exact ⟨parent, block, hparent, hunder.head habove, hplaced⟩

/-- A label is seen from every member of the list that it is placed in. -/
theorem Sees.of_member (hlinked : program.WellLinked) (hmember : member ∈ program.blockBody block)
    (hother : other ∈ program.blockBody block)
    (hplaced : (program.kind other).defined? = some label) : program.Sees member label :=
  ⟨block, block, hlinked.parent_of_child (mem_children_of_mem_blockBody hmember), .refl, other,
    hother, hplaced⟩

/-- Where a jump goes on in a list, the list places its label. -/
theorem exists_of_afterLabel? {body next : List StmtId}
    (h : program.afterLabel? label body = some next) :
    ∃ before, ∃ placed, body = before ++ placed :: next ∧
      (program.kind placed).defined? = some label ∧
        ∀ other ∈ before, (program.kind other).defined? ≠ some label := by
  induction body with
  | nil => cases h
  | cons id rest ih =>
    rw [afterLabel?] at h
    split at h
    · rename_i hplaced
      cases h
      exact ⟨[], id, rfl, hplaced, List.forall_mem_nil _⟩
    · rename_i hother
      obtain ⟨before, placed, rfl, hplaced, hbefore⟩ := ih h
      exact ⟨id :: before, placed, rfl, hplaced, List.forall_mem_cons.mpr ⟨hother, hbefore⟩⟩

theorem afterLabel?_eq_none_iff {body : List StmtId} :
    program.afterLabel? label body = none ↔
      ∀ id ∈ body, (program.kind id).defined? ≠ some label := by
  induction body with
  | nil => simp [afterLabel?]
  | cons id rest ih =>
    rw [afterLabel?, List.forall_mem_cons, ← ih]
    split
    · rename_i hplaced
      simp [hplaced]
    · rename_i hother
      simp [hother]

theorem afterLabel?_append_of_some {body next rest : List StmtId}
    (h : program.afterLabel? label body = some next) :
    program.afterLabel? label (body ++ rest) = some (next ++ rest) := by
  obtain ⟨before, placed, rfl, hplaced, hbefore⟩ := exists_of_afterLabel? h
  rw [List.append_assoc, Correspondence.Sound.afterLabel?_append program hbefore, List.cons_append,
    afterLabel?, if_pos hplaced]

theorem afterLabel?_congr {final : Program} {body : List StmtId}
    (h : ∀ id ∈ body, (final.kind id).defined? = (program.kind id).defined?) :
    final.afterLabel? label body = program.afterLabel? label body := by
  induction body with
  | nil => rfl
  | cons id rest ih =>
    obtain ⟨hid, hrest⟩ := List.forall_mem_cons.mp h
    rw [afterLabel?, afterLabel?, hid, ih hrest]

end Program

namespace Eval

variable {α β : Type}

/-- Whenever the first computation gives a result, the second one gives the same. -/
def Refines (first second : Eval α) : Prop :=
  ∀ machine value final, first machine = .ok value final → second machine = .ok value final

namespace Refines

theorem refl (computation : Eval α) : Refines computation computation := fun _ _ _ h ↦ h

theorem bind {first second : Eval α} {next next' : α → Eval β} (h : Refines first second)
    (hnext : ∀ value, Refines (next value) (next' value)) :
    Refines (first >>= next) (second >>= next') := by
  intro machine value final hrun
  obtain ⟨found, middle, hfirst, hrun⟩ := exists_of_bind_eq_ok hrun
  rw [bind_of_ok (h _ _ _ hfirst)]
  exact hnext found _ _ _ hrun

/-- What comes first is the same. -/
theorem bind_right {first : Eval α} {next next' : α → Eval β}
    (hnext : ∀ value, Refines (next value) (next' value)) :
    Refines (first >>= next) (first >>= next') :=
  (refl first).bind hnext

end Refines

open scoped Classical in
/-- Fail if what the statement hands on is a jump that does not arrive. -/
noncomputable def arrive (program : Program) (id : StmtId) : Flow → Eval Flow
  | .normal => return .normal
  | .ret value => return .ret value
  | .goto label =>
    if program.Sees id label then return .goto label
    else throw (.missingLabel (program.symbolName label))

/-- Run statements such that the jumps that do not arrive fail where they leave one. -/
noncomputable def arriving (program : Program) (execute : Executor) : Executor :=
  fun frame id ↦ execute frame id >>= arrive program id

variable {program : Program} {limits : Limits} {execute : Executor} {frame : Nat} {id : StmtId}

theorem arrive_of_sees {label : SymId} (h : program.Sees id label) :
    arrive program id (.goto label) = pure (.goto label) :=
  if_pos h

/-- A jump that does not arrive gives no result. -/
theorem arrive_ne_ok {label : SymId} (h : ¬ program.Sees id label) (machine : Machine) (flow : Flow)
    (final : Machine) : arrive program id (.goto label) machine ≠ .ok flow final := by
  rw [arrive, if_neg h]
  exact nofun

/-- Jumps may fail where they leave a statement, if they fail in what comes after it. -/
theorem refines_arrive_bind {computation : Eval Flow} {next : Flow → Eval α}
    (h : ∀ label, ¬ program.Sees id label → ∀ machine value final,
      next (.goto label) machine ≠ .ok value final) :
    Refines (computation >>= next) ((computation >>= arrive program id) >>= next) := by
  rw [bind_assoc]
  refine .bind_right fun flow machine value final hrun ↦ ?_
  cases flow with
  | normal | ret => exact hrun
  | goto label =>
    by_cases hsees : program.Sees id label
    · rwa [arrive_of_sees hsees]
    · exact absurd hrun (h label hsees _ _ _)

/-- What arrives when it leaves the inner statement is looked at when it leaves the outer one. -/
theorem refines_arrive_arrive {inner outer : StmtId} (hparent : program.parent inner = some outer)
    (computation : Eval Flow) : Refines (computation >>= arrive program outer)
      ((computation >>= arrive program inner) >>= arrive program outer) :=
  refines_arrive_bind fun _ hsees ↦ arrive_ne_ok (mt (Program.Sees.of_parent hparent) hsees)

/-- A computation that hands on no jump need not be looked at. -/
theorem refines_arrive {computation : Eval Flow} :
    Refines (computation >>= arrive program id) computation := by
  intro machine flow final hrun
  obtain ⟨found, middle, hcomputation, hrun⟩ := exists_of_bind_eq_ok hrun
  cases found with
  | normal | ret =>
    cases hrun
    exact hcomputation
  | goto label =>
    by_cases hsees : program.Sees id label
    · rw [arrive_of_sees hsees] at hrun
      cases hrun
      exact hcomputation
    · exact absurd hrun (arrive_ne_ok hsees _ _ _)

/-- A jump that leaves a round of a loop is looked at there. -/
theorem refines_arrive_runWhile {test : Eval Bool} {round : Eval Flow} {rounds : Nat} :
    Refines (runWhile test round rounds >>= arrive program id)
      (runWhile test (round >>= arrive program id) rounds) := by
  induction rounds with
  | zero =>
    intro machine flow final hrun
    cases hrun
  | succ rounds ih =>
    unfold runWhile
    rw [bind_assoc]
    refine .bind_right fun holds ↦ ?_
    cases holds with
    | false => exact refines_arrive
    | true =>
      simp only [if_true, bind_assoc]
      refine .bind_right fun flow ↦ ?_
      cases flow with
      | normal => exact ih
      | ret value => exact .refl _
      | goto label =>
        simp only [pure_bind]
        by_cases hsees : program.Sees id label
        · rw [arrive_of_sees hsees, pure_bind]
          exact .refl _
        · exact fun _ _ _ hrun ↦ absurd hrun (arrive_ne_ok hsees _ _ _)

/-! ### Calls and loops -/

/-- A jump may fail where it leaves the body of a frame. -/
theorem refines_arrive_withFrame {held : Frame} {next : Flow × Frame → Eval α}
    (h : ∀ label left, ¬ program.Sees id label → ∀ machine value final,
      next (.goto label, left) machine ≠ .ok value final) :
    Refines (withFrame held (fun depth ↦ execute depth id) >>= next)
      (withFrame held (fun depth ↦ arriving program execute depth id) >>= next) := by
  intro machine value final hrun
  obtain ⟨⟨flow, left⟩, middle, hframe, hnext⟩ := exists_of_bind_eq_ok hrun
  cases hbody : execute machine.frames.size id
      { machine with frames := machine.frames.push held } with
  | error error ended =>
    rw [withFrame_of_error hbody] at hframe
    cases hframe
  | ok found ended =>
    rw [withFrame_of_ok hbody] at hframe
    have harrive : arriving program execute machine.frames.size id
        { machine with frames := machine.frames.push held } = .ok found ended := by
      rw [arriving, bind_of_ok hbody]
      cases found with
      | normal | ret => rfl
      | goto label =>
        cases hframe
        by_cases hsees : program.Sees id label
        · rw [arrive_of_sees hsees]
          rfl
        · exact absurd hnext (h label _ hsees _ _ _)
    rw [bind_of_ok ((withFrame_of_ok harrive).trans hframe)]
    exact hnext

theorem refines_call {function : FnId} {args : List Value} :
    Refines (call program limits execute function args)
      (call program limits (arriving program execute) function args) := by
  unfold call
  refine .bind_right fun _ ↦ ?_
  dsimp only
  split
  · exact .refl _
  split
  · exact .refl _
  refine .bind_right fun _ ↦ refines_arrive_withFrame fun _ _ _ _ _ _ h ↦ ?_
  cases h

theorem refines_expression {value : Expr} :
    Refines (expression program limits execute frame value)
      (expression program limits (arriving program execute) frame value) := by
  cases value with
  | call callee args => exact .bind_right fun _ ↦ refines_call
  | tableCall slot args =>
    exact .bind_right fun _ ↦ .bind_right fun _ ↦ .bind_right fun _ ↦ refines_call
  | use | prim | fieldAddress | fieldValue | cast | hasClass | addressOf | deref => exact .refl _

theorem refines_naiveFor {loop : StmtId} {info : BlockInfo} :
    Refines (naiveFor program limits execute frame loop info)
      (naiveFor program limits (arriving program execute) frame loop info) := by
  unfold naiveFor
  split
  · exact .refl _
  refine .bind_right fun machine ↦ .bind_right fun found ↦ ?_
  dsimp only
  split
  · exact .refl _
  split
  · exact .refl _
  refine .bind_right fun _ ↦ .bind_right fun _ ↦ ?_
  exact refines_arrive_withFrame fun _ _ _ ↦ nofun

/-- An action that does not yield runs statements in calls only. -/
theorem refines_action {rounds : Nat} {inner : Action} (hyield : ∀ value, inner ≠ .yield value) :
    Refines (action program limits execute rounds frame inner)
      (action program limits (arriving program execute) rounds frame inner) := by
  cases inner with
  | assign target value => exact refines_expression.bind fun _ ↦ .refl _
  | evaluate value => exact refines_expression.bind fun _ ↦ .refl _
  | yield value => exact absurd rfl (hyield value)
  | define | store | setField | ret | goto | fail | noop => exact .refl _

end Eval

end IteratorLowering
