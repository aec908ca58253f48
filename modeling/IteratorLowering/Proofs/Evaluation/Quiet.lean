import IteratorLowering.Proofs.Evaluation.Evolving

/-!
# Computations that take no steps

Only the execution of a statement takes a step, and only the evaluator's control of statements
and calls fails for reasons of its own: because the steps or the frames ran out, or because a loop
without statements goes on for ever. Everything else is `Quiet`. It leaves the count of steps as
it is, and where it fails the program is to blame (`EvalError.isOrdinary`).

Quiet computations compose (`Quiet.bind`, `Quiet.mapM`). The reads, writes and primitive
operations of the machine are quiet one by one.
-/

set_option autoImplicit false
set_option relaxedAutoImplicit false

namespace IteratorLowering

/-- Whether the run was cut off because it went too far. -/
def EvalError.isLimit : EvalError → Bool
  | .stepLimit _ | .depthLimit _ => true
  | _ => false

/-- Whether the program itself is to blame, however far the run may go. -/
def EvalError.isOrdinary : EvalError → Bool
  | .stepLimit _ | .depthLimit _ | .endlessLoop => false
  | _ => true

namespace Eval

variable {α β : Type} {program : Program} {machine final : Machine} {frame : Nat}

/-! ### Computations that only look -/

/-- A result leaves the machine as it is. -/
def Looks (computation : Eval α) : Prop :=
  ∀ machine value final, computation machine = .ok value final → final = machine

namespace Looks

theorem pure {value : α} : Looks (pure value : Eval α) := by
  rintro _ _ _ ⟨⟩
  rfl

theorem throw {error : EvalError} : Looks (throw error : Eval α) := by
  rintro _ _ _ ⟨⟩

theorem get : Looks (get : Eval Machine) := by
  rintro _ _ _ ⟨⟩
  rfl

theorem bind {first : Eval α} {next : α → Eval β} (h : Looks first)
    (hnext : ∀ value, Looks (next value)) : Looks (first >>= next) := by
  intro machine value final hrun
  cases hfirst : first machine with
  | ok found middle =>
    rw [bind_of_ok hfirst] at hrun
    exact (hnext found _ _ _ hrun).trans (h _ _ _ hfirst)
  | error error middle =>
    rw [bind_of_error hfirst] at hrun
    cases hrun

end Looks

theorem looks_read {symbol : SymId} : Looks (read program frame symbol) := by
  unfold read
  refine .bind .get fun machine ↦ ?_
  split
  · exact .throw
  · split
    · exact .pure
    · exact .throw

theorem looks_operand {operand : Operand} : Looks (Eval.operand program frame operand) := by
  unfold Eval.operand
  split
  · exact looks_read
  all_goals exact .pure

theorem looks_truth {condition : Operand} : Looks (truth program frame condition) := by
  unfold truth
  refine .bind looks_operand fun value ↦ ?_
  split
  · exact .pure
  · exact .throw

/-! ### Computations that take no steps -/

/-- The computation evolves the machine, takes no steps, and fails only for what the program
does. -/
structure Quiet (program : Program) (computation : Eval α) : Prop where
  evolving : Evolving program computation
  done : ∀ machine value final, computation machine = .ok value final →
    final.steps = machine.steps
  failed : ∀ machine error final, computation machine = .error error final →
    final.steps = machine.steps ∧ error.isOrdinary = true

namespace Quiet

theorem pure {value : α} : Quiet program (pure value : Eval α) where
  evolving := .pure
  done _ _ _ h := by cases h; rfl
  failed _ _ _ h := by cases h

theorem throw {error : EvalError} (h : error.isOrdinary = true) :
    Quiet program (throw error : Eval α) where
  evolving := .throw
  done _ _ _ hrun := by cases hrun
  failed _ _ _ hrun := by cases hrun; exact ⟨rfl, h⟩

theorem unsupported {situation : Unsupported} :
    Quiet program (Eval.unsupported situation : Eval α) :=
  .throw rfl

theorem get : Quiet program (get : Eval Machine) where
  evolving := .get
  done _ _ _ h := by cases h; rfl
  failed _ _ _ h := by cases h

theorem modify {change : Machine → Machine}
    (h : ∀ machine : Machine, machine.Evolves program (change machine))
    (hsteps : ∀ machine, (change machine).steps = machine.steps) :
    Quiet program (modify change : Eval PUnit) where
  evolving := .modify h
  done machine _ _ hrun := by cases hrun; exact hsteps machine
  failed _ _ _ hrun := by cases hrun

theorem bind {first : Eval α} {next : α → Eval β} (h : Quiet program first)
    (hnext : ∀ value, Quiet program (next value)) : Quiet program (first >>= next) where
  evolving := h.evolving.bind fun value ↦ (hnext value).evolving
  done machine value final hrun := by
    cases hfirst : first machine with
    | ok found middle =>
      rw [bind_of_ok hfirst] at hrun
      exact ((hnext found).done _ _ _ hrun).trans (h.done _ _ _ hfirst)
    | error error middle =>
      rw [bind_of_error hfirst] at hrun
      cases hrun
  failed machine error final hrun := by
    cases hfirst : first machine with
    | ok found middle =>
      rw [bind_of_ok hfirst] at hrun
      have hsteps := h.done _ _ _ hfirst
      exact ((hnext found).failed _ _ _ hrun).imp_left fun hrest ↦ hrest.trans hsteps
    | error error middle =>
      rw [bind_of_error hfirst] at hrun
      cases hrun
      exact h.failed _ _ _ hfirst

theorem mapM {items : List α} {step : α → Eval β} (h : ∀ item, Quiet program (step item)) :
    Quiet program (items.mapM step) := by
  induction items with
  | nil => exact .pure
  | cons item rest ih =>
    rw [List.mapM_cons]
    exact .bind (h item) fun _ ↦ .bind ih fun _ ↦ .pure

end Quiet

/-! ### Changes of the machine -/

theorem quiet_setLocal {symbol : SymId} {value : Value} :
    Quiet program (modify fun machine ↦ machine.setLocal frame symbol value) :=
  .modify (fun machine ↦ .setLocal program machine frame symbol value) fun _ ↦ rfl

theorem quiet_setField {object : ObjId} {index : Nat} {value : Value} :
    Quiet program (modify fun machine ↦ machine.setField object index value) :=
  .modify (fun machine ↦ .setField program machine object index value) fun _ ↦ rfl

theorem quiet_countCall {function : FnId} :
    Quiet program (modify fun machine ↦ machine.countCall function) :=
  .modify (fun machine ↦ .of_counters program machine (Nat.le_refl _)) fun _ ↦ rfl

/-! ### Storage -/

theorem quiet_read {symbol : SymId} : Quiet program (read program frame symbol) := by
  unfold read
  refine .bind .get fun machine ↦ ?_
  split
  · exact .unsupported
  · split
    · exact .pure
    · exact .throw rfl

theorem quiet_load {place : Place} : Quiet program (load program place) := by
  cases place with
  | slot frame symbol => exact quiet_read
  | field object index => exact .bind .get fun _ ↦ .pure

theorem quiet_store {place : Place} {value : Value} : Quiet program (store place value) := by
  cases place with
  | slot frame symbol =>
    refine .bind .get fun machine ↦ ?_
    split
    · exact quiet_setLocal
    · exact .unsupported
  | field object index => exact quiet_setField

theorem quiet_objectOf {symbol : SymId} : Quiet program (objectOf program frame symbol) := by
  unfold objectOf
  refine .bind quiet_read fun held ↦ ?_
  split
  · exact .pure
  · refine .bind quiet_load fun seen ↦ ?_
    split
    · exact .pure
    · exact .throw rfl
  · exact .throw rfl

theorem quiet_fieldIndex {object : ObjId} {field : FieldRef} :
    Quiet program (fieldIndex program object field) := by
  unfold fieldIndex
  refine .bind .get fun machine ↦ ?_
  dsimp only
  split
  · exact .pure
  · exact .throw rfl

theorem quiet_operand {operand : Operand} : Quiet program (Eval.operand program frame operand) := by
  unfold Eval.operand
  split
  · exact quiet_read
  all_goals exact .pure

theorem quiet_truth {condition : Operand} : Quiet program (truth program frame condition) := by
  unfold truth
  refine .bind quiet_operand fun value ↦ ?_
  split
  · exact .pure
  · exact .throw rfl

theorem quiet_defaultValue {type : TypeId} : Quiet program (defaultValue program type) := by
  unfold defaultValue
  dsimp only
  split
  · refine .bind ⟨.modifyGet fun machine ↦ ?_, ?_, ?_⟩ fun _ ↦ .pure
    · exact .allocate program machine (by simp)
    · rintro _ _ _ ⟨⟩
      rfl
    · rintro _ _ _ ⟨⟩
  · exact .pure

/-! ### Primitive operations -/

/-- Where there is no result, the program is to blame. -/
def Ordinary (result : Except EvalError α) : Prop :=
  ∀ error, result = .error error → error.isOrdinary = true

theorem quiet_ofExcept {result : Except EvalError α} (h : Ordinary result) :
    Quiet program (ofExcept result) := by
  cases result with
  | ok value => exact .pure
  | error error => exact .throw (h error rfl)

namespace Ordinary

theorem ok {value : α} : Ordinary (.ok value) := nofun

theorem error {error : EvalError} (h : error.isOrdinary = true) :
    Ordinary (.error error : Except EvalError α) :=
  fun _ heq ↦ Except.error.inj heq ▸ h

theorem bind {first : Except EvalError α} {next : α → Except EvalError β} (h : Ordinary first)
    (hnext : ∀ value, Ordinary (next value)) : Ordinary (first >>= next) := by
  cases first with
  | ok value => exact hnext value
  | error error => exact .error (h error rfl)

end Ordinary

theorem ordinary_intOf {value : Value} : Ordinary (intOf value) := by
  unfold intOf
  split
  · exact .ok
  · exact .error rfl

theorem ordinary_boolOf {value : Value} : Ordinary (boolOf value) := by
  unfold boolOf
  split
  · exact .ok
  · exact .error rfl

theorem ordinary_onInts {combine : Int64 → Int64 → Value} {first second : Value} :
    Ordinary (onInts combine first second) :=
  .bind ordinary_intOf fun _ ↦ .bind ordinary_intOf fun _ ↦ .ok

theorem ordinary_primitive {op : PrimOp} {values : List Value} :
    Ordinary (primitive op values) := by
  unfold primitive
  split
  case h_1 => exact .bind ordinary_boolOf fun _ ↦ .ok
  case h_9 | h_10 => exact .ok
  case h_11 =>
    refine .bind ordinary_boolOf fun holds ↦ ?_
    split
    · exact .bind ordinary_boolOf fun _ ↦ .ok
    · exact .ok
  case h_12 =>
    refine .bind ordinary_boolOf fun holds ↦ ?_
    split
    · exact .ok
    · exact .bind ordinary_boolOf fun _ ↦ .ok
  case h_13 => exact .error rfl
  all_goals exact ordinary_onInts

/-! ### Calls that run no body -/

theorem quiet_callExternal {name : String} {args : List Value} :
    Quiet program (callExternal name args) := by
  unfold callExternal
  split
  · refine .bind (.modify (fun machine ↦ ?_) fun _ ↦ rfl) fun _ ↦ .pure
    exact .trace program machine args
  · exact .unsupported

theorem quiet_fillFields {object : ObjId} {index : Nat} {values : List Value} :
    Quiet program (fillFields object index values) := by
  induction values generalizing index with
  | nil => exact .pure
  | cons value rest ih => exact .bind quiet_setField fun _ ↦ ih

theorem quiet_buildInstance {definition : FnDef} {args : List Value} :
    Quiet program (buildInstance program definition args) := by
  unfold buildInstance
  split
  · exact .unsupported
  · refine .bind quiet_defaultValue fun record ↦ ?_
    split
    · exact .bind quiet_fillFields fun _ ↦ .pure
    · exact .throw rfl

theorem quiet_tableFunction {slot : Value} : Quiet program (tableFunction program slot) := by
  unfold tableFunction
  split
  · exact .throw rfl
  · split
    · exact .pure
    · exact .throw rfl

theorem quiet_classOf? {value : Value} : Quiet program (classOf? program value) := by
  unfold classOf?
  extract_lets rest
  have hrest : ∀ seen, Quiet program (rest seen) := fun seen ↦ by
    simp only [rest]
    split
    · exact .bind .get fun _ ↦ .pure
    · exact .pure
  split
  · exact .bind quiet_load hrest
  · exact hrest _

end Eval

end IteratorLowering
