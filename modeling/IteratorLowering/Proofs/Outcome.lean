import IteratorLowering.Lowering.Context
import Mathlib.Order.Defs.Unbundled
import Mathlib.Tactic.Common

/-!
# What holds after a computation

Builds, edits, passes and lowerings change a state and keep what they changed when they stop
early. `Ensures computation state holds result` says that the state that is left has a property
whether or not there is a result, and that a result has one too.

The rules take a computation apart: a sequence is treated one step after the other
(`Ensures.bind`), and a loop by what each of its steps keeps (`Ensures.forM`, `Ensures.foldlM`,
`Ensures.mapM`). They hold in every monad whose computations run in this way (`Runs`). A
computation that is used in a larger monad leaves the same state there (`ensures_lift`,
`ensures_asPass`, `ensures_asLowering`).
-/

set_option autoImplicit false
set_option relaxedAutoImplicit false

namespace IteratorLowering

/-- A monad of changes of a state that is kept when there is no result. -/
class Runs (m : Type → Type) (State : outParam Type) [Monad m] [MonadStateOf State m] where
  /-- The result, if there is one, and the state that is left. -/
  run : ∀ {α : Type}, m α → State → Option α × State
  run_pure : ∀ {α : Type} (value : α) (state : State),
    run (pure value) state = (some value, state)
  run_bind : ∀ {α β : Type} (first : m α) (next : α → m β) (state : State),
    run (first >>= next) state =
      match run first state with
      | (some value, middle) => run (next value) middle
      | (none, middle) => (none, middle)
  run_get : ∀ state : State, run (get : m State) state = (some state, state)
  run_set : ∀ new state : State, run (set new : m PUnit) state = (some ⟨⟩, new)
  run_modifyGet : ∀ {α : Type} (change : State → α × State) (state : State),
    run (modifyGet change : m α) state = (some (change state).1, (change state).2)

instance {Error State : Type} : Runs (EStateM Error State) State where
  run computation state :=
    match computation state with
    | .ok value final => (some value, final)
    | .error _ final => (none, final)
  run_pure _ _ := rfl
  run_bind first next state := by
    change (match EStateM.bind first next state with
      | .ok value final => (some value, final)
      | .error _ final => (none, final)) = _
    unfold EStateM.bind
    cases first state <;> rfl
  run_get _ := rfl
  run_set _ _ := rfl
  run_modifyGet _ _ := rfl

instance {State : Type} : Runs (StateM State) State where
  run computation state := (some (computation state).1, (computation state).2)
  run_pure _ _ := rfl
  run_bind _ _ _ := rfl
  run_get _ := rfl
  run_set _ _ := rfl
  run_modifyGet _ _ := rfl

section

variable {m : Type → Type} {State : Type} [Monad m] [MonadStateOf State m] [Runs m State]
variable {α β : Type} {state : State} {holds holds' : State → Prop}

/-- The state that is left has the first property, and a result has the second one in it. -/
def Ensures (computation : m α) (state : State) (holds : State → Prop)
    (result : α → State → Prop) : Prop :=
  holds (Runs.run computation state).2 ∧
    ∀ value, (Runs.run computation state).1 = some value →
      result value (Runs.run computation state).2

namespace Ensures

variable {computation : m α} {next : α → m β} {result result' : α → State → Prop}
variable {final : β → State → Prop}

theorem pure {value : α} (hstate : holds state) (hvalue : result value state) :
    Ensures (pure value : m α) state holds result := by
  unfold Ensures
  rw [Runs.run_pure]
  exact ⟨hstate, fun _ h ↦ Option.some.inj h ▸ hvalue⟩

theorem mono (h : Ensures computation state holds result)
    (hholds : ∀ state, holds state → holds' state)
    (hresult : ∀ value state, holds state → result value state → result' value state) :
    Ensures computation state holds' result' :=
  ⟨hholds _ h.1, fun value hvalue ↦ hresult value _ h.1 (h.2 value hvalue)⟩

theorem and (h : Ensures computation state holds result)
    (h' : Ensures computation state holds' result') :
    Ensures computation state (fun state ↦ holds state ∧ holds' state)
      fun value state ↦ result value state ∧ result' value state :=
  ⟨⟨h.1, h'.1⟩, fun value hvalue ↦ ⟨h.2 value hvalue, h'.2 value hvalue⟩⟩

/-- A sequence ensures what its second part ensures wherever the first one leads. -/
theorem bind (h : Ensures computation state holds result)
    (hnext : ∀ value state, holds state → result value state →
      Ensures (next value) state holds final) :
    Ensures (computation >>= next) state holds final := by
  unfold Ensures at h ⊢
  rw [Runs.run_bind]
  rcases hrun : Runs.run computation state with ⟨_ | value, middle⟩
  · rw [hrun] at h
    exact ⟨h.1, nofun⟩
  · rw [hrun] at h
    exact hnext value middle h.1 (h.2 value rfl)

/-- What holds of the state may be counted to the result. -/
theorem tagged (h : Ensures computation state holds result) :
    Ensures computation state holds fun value state ↦ holds state ∧ result value state :=
  ⟨h.1, fun value hvalue ↦ ⟨h.1, h.2 value hvalue⟩⟩

/-- What each step of a loop gives where it was given before, the whole loop gives. -/
theorem forM_result {items : List α} {step : α → m PUnit} {keeps : State → Prop}
    (hholds : ∀ {state}, keeps state → holds state)
    (hstep : ∀ item ∈ items, ∀ {state}, keeps state →
      Ensures (step item) state holds fun _ final ↦ keeps final)
    (hstate : keeps state) : Ensures (items.forM step) state holds fun _ final ↦ keeps final := by
  induction items generalizing state with
  | nil => exact .pure (hholds hstate) hstate
  | cons item rest ih =>
    exact (hstep item List.mem_cons_self hstate).bind fun _ middle _ hmiddle ↦
      ih (fun other hother ↦ hstep other (List.mem_cons_of_mem _ hother)) hmiddle

theorem foldlM_result {items : List α} {step : β → α → m β} {start : β} {keeps : State → Prop}
    (hholds : ∀ {state}, keeps state → holds state)
    (hstep : ∀ item ∈ items, ∀ value {state}, keeps state →
      Ensures (step value item) state holds fun _ final ↦ keeps final)
    (hstate : keeps state) :
    Ensures (items.foldlM step start) state holds fun _ final ↦ keeps final := by
  induction items generalizing start state with
  | nil => exact .pure (hholds hstate) hstate
  | cons item rest ih =>
    rw [List.foldlM_cons]
    exact (hstep item List.mem_cons_self start hstate).bind fun value middle _ hmiddle ↦
      ih (fun other hother ↦ hstep other (List.mem_cons_of_mem _ hother)) hmiddle

theorem mapM_result [LawfulMonad m] {items : List α} {step : α → m β} {keeps : State → Prop}
    (hholds : ∀ {state}, keeps state → holds state)
    (hstep : ∀ item ∈ items, ∀ {state}, keeps state →
      Ensures (step item) state holds fun _ final ↦ keeps final)
    (hstate : keeps state) :
    Ensures (items.mapM step) state holds fun _ final ↦ keeps final := by
  induction items generalizing state with
  | nil => exact .pure (hholds hstate) hstate
  | cons item rest ih =>
    rw [List.mapM_cons]
    refine (hstep item List.mem_cons_self hstate).bind fun value middle _ hmiddle ↦ ?_
    exact (ih (fun other hother ↦ hstep other (List.mem_cons_of_mem _ hother)) hmiddle).bind
      fun values final hfinal hkeeps ↦ .pure hfinal hkeeps

/-- What every step of a loop keeps, the loop keeps. -/
theorem forM_keeping {items : List α} {step : α → m PUnit} (hstate : holds state)
    (hstep : ∀ item ∈ items, ∀ middle, holds middle →
      Ensures (step item) middle holds fun _ _ ↦ True) :
    Ensures (items.forM step) state holds fun _ _ ↦ True := by
  induction items generalizing state with
  | nil => exact .pure hstate trivial
  | cons item rest ih =>
    exact (hstep item List.mem_cons_self state hstate).bind fun _ middle hmiddle _ ↦
      ih hmiddle fun other hother ↦ hstep other (List.mem_cons_of_mem _ hother)

theorem foldlM_keeping {items : List α} {step : β → α → m β} {start : β} (hstate : holds state)
    (hstep : ∀ item ∈ items, ∀ value middle, holds middle →
      Ensures (step value item) middle holds fun _ _ ↦ True) :
    Ensures (items.foldlM step start) state holds fun _ _ ↦ True := by
  induction items generalizing start state with
  | nil => exact .pure hstate trivial
  | cons item rest ih =>
    rw [List.foldlM_cons]
    exact (hstep item List.mem_cons_self start state hstate).bind fun value middle hmiddle _ ↦
      ih hmiddle fun other hother ↦ hstep other (List.mem_cons_of_mem _ hother)

/-- What each step gives regardless of the state, all that a loop gathers has. -/
theorem mapM_keeping [LawfulMonad m] {items : List α} {step : α → m β} {gathered : β → Prop}
    (hstate : holds state)
    (hstep : ∀ item ∈ items, ∀ middle, holds middle →
      Ensures (step item) middle holds fun value _ ↦ gathered value) :
    Ensures (items.mapM step) state holds fun values _ ↦ ∀ value ∈ values, gathered value := by
  induction items generalizing state with
  | nil => exact .pure hstate nofun
  | cons item rest ih =>
    rw [List.mapM_cons]
    refine (hstep item List.mem_cons_self state hstate).bind fun value middle hmiddle hvalue ↦ ?_
    refine (ih hmiddle fun other hother ↦ hstep other (List.mem_cons_of_mem _ hother)).bind
      fun values final hfinal hvalues ↦ .pure hfinal fun other hother ↦ ?_
    rcases List.mem_cons.mp hother with rfl | hother
    · exact hvalue
    · exact hvalues other hother

end Ensures

variable {result : α → State → Prop}

@[simp] theorem ensures_pure {value : α} :
    Ensures (pure value : m α) state holds result ↔ holds state ∧ result value state := by
  unfold Ensures
  rw [Runs.run_pure]
  simp

theorem ensures_ite {condition : Prop} [Decidable condition] {first second : m α}
    (hfirst : condition → Ensures first state holds result)
    (hsecond : ¬ condition → Ensures second state holds result) :
    Ensures (if condition then first else second) state holds result := by
  split
  · exact hfirst ‹_›
  · exact hsecond ‹_›

@[simp] theorem ensures_get_bind {next : State → m α} :
    Ensures (get >>= next) state holds result ↔ Ensures (next state) state holds result := by
  unfold Ensures
  rw [Runs.run_bind, Runs.run_get]

@[simp] theorem ensures_set {new : State} {result : PUnit → State → Prop} :
    Ensures (set new : m PUnit) state holds result ↔ holds new ∧ result ⟨⟩ new := by
  unfold Ensures
  rw [Runs.run_set]
  exact and_congr_right fun _ ↦ ⟨fun h ↦ h ⟨⟩ rfl, fun h _ _ ↦ h⟩

@[simp] theorem ensures_modifyGet {change : State → α × State} :
    Ensures (modifyGet change : m α) state holds result ↔
      holds (change state).2 ∧ result (change state).1 (change state).2 := by
  unfold Ensures
  rw [Runs.run_modifyGet]
  simp

@[simp] theorem ensures_modify {change : State → State} {result : PUnit → State → Prop} :
    Ensures (modify change : m PUnit) state holds result ↔
      holds (change state) ∧ result ⟨⟩ (change state) :=
  ensures_modifyGet

@[simp] theorem ensures_set_bind {new : State} {next : PUnit → m α} :
    Ensures (set new >>= next) state holds result ↔ Ensures (next ⟨⟩) new holds result := by
  unfold Ensures
  rw [Runs.run_bind, Runs.run_set]

@[simp] theorem ensures_modifyGet_bind {change : State → β × State} {next : β → m α} :
    Ensures (modifyGet change >>= next) state holds result ↔
      Ensures (next (change state).1) (change state).2 holds result := by
  unfold Ensures
  rw [Runs.run_bind, Runs.run_modifyGet]

@[simp] theorem ensures_modify_bind {change : State → State} {next : PUnit → m α} :
    Ensures (modify change >>= next) state holds result ↔
      Ensures (next ⟨⟩) (change state) holds result :=
  ensures_modifyGet_bind

end

/-! ### Steps that are related -/

/-
A computation that is related to what it leaves can be followed step by step: every step starts
where the one before it ended, and the relation of the whole is the relation of the steps.
-/
section

variable {m : Type → Type} {State : Type} [Monad m] [MonadStateOf State m] [Runs m State]
variable {α β : Type} {state : State} {rel : State → State → Prop} [IsPreorder State rel]

namespace Ensures

theorem after {computation : m α} {result : α → State → Prop} {start : State}
    (h : rel start state) (hrest : Ensures computation state (rel state) result) :
    Ensures computation state (rel start) result :=
  hrest.mono (fun _ hfinal ↦ IsTrans.trans _ _ _ h hfinal) fun _ _ _ hresult ↦ hresult

theorem seq {computation : m α} {next : α → m β} {result : α → State → Prop}
    {final : β → State → Prop} (h : Ensures computation state (rel state) result)
    (hnext : ∀ value middle, rel state middle → result value middle →
      Ensures (next value) middle (rel middle) final) :
    Ensures (computation >>= next) state (rel state) final :=
  h.bind fun value middle hmiddle hvalue ↦ .after hmiddle (hnext value middle hmiddle hvalue)

theorem stay {value : α} {result : α → State → Prop} (hvalue : result value state) :
    Ensures (Pure.pure value : m α) state (rel state) result :=
  .pure (Std.Refl.refl state) hvalue

theorem forM {items : List α} {step : α → m PUnit}
    (hstep : ∀ item ∈ items, ∀ middle, rel state middle →
      Ensures (step item) middle (rel middle) fun _ _ ↦ True) :
    Ensures (items.forM step) state (rel state) fun _ _ ↦ True := by
  induction items generalizing state with
  | nil => exact .stay trivial
  | cons item rest ih =>
    refine (hstep item List.mem_cons_self state (Std.Refl.refl state)).seq fun _ middle h _ ↦ ?_
    exact ih fun other hother final hfinal ↦
      hstep other (List.mem_cons_of_mem _ hother) final (IsTrans.trans _ _ _ h hfinal)

theorem foldlM {items : List α} {step : β → α → m β} {start : β}
    (hstep : ∀ item ∈ items, ∀ value middle, rel state middle →
      Ensures (step value item) middle (rel middle) fun _ _ ↦ True) :
    Ensures (items.foldlM step start) state (rel state) fun _ _ ↦ True := by
  induction items generalizing start state with
  | nil => exact .stay trivial
  | cons item rest ih =>
    rw [List.foldlM_cons]
    refine (hstep item List.mem_cons_self start state (Std.Refl.refl state)).seq
      fun value middle h _ ↦ ?_
    exact ih fun other hother value final hfinal ↦
      hstep other (List.mem_cons_of_mem _ hother) value final (IsTrans.trans _ _ _ h hfinal)

/-- What each step gives, and later steps do not take away, holds of all that a loop gathers. -/
theorem mapM [LawfulMonad m] {items : List α} {step : α → m β} {gathered : β → State → Prop}
    (hstep : ∀ item ∈ items, ∀ middle, rel state middle →
      Ensures (step item) middle (rel middle) gathered)
    (hkeep : ∀ value middle final, rel middle final → gathered value middle →
      gathered value final) :
    Ensures (items.mapM step) state (rel state)
      fun values final ↦ ∀ value ∈ values, gathered value final := by
  induction items generalizing state with
  | nil => exact .stay nofun
  | cons item rest ih =>
    rw [List.mapM_cons]
    refine (hstep item List.mem_cons_self state (Std.Refl.refl state)).seq
      fun value middle h hvalue ↦ ?_
    have hrest := ih fun other hother final hfinal ↦
      hstep other (List.mem_cons_of_mem _ hother) final (IsTrans.trans _ _ _ h hfinal)
    refine hrest.seq fun values final hfinal hvalues ↦ .stay fun other hother ↦ ?_
    rcases List.mem_cons.mp hother with rfl | hother
    · exact hkeep _ _ _ hfinal hvalue
    · exact hvalues other hother

end Ensures

end

/-! ### One monad in another -/

section

variable {α Error State : Type} {program : Program} {holds : Program → Prop}
variable {result : α → Program → Prop}

/-- What a computation ensures holds of the result that it gives. -/
theorem Ensures.of_eq_ok {computation : EStateM Error State α} {state final : State} {value : α}
    {holds : State → Prop} {result : α → State → Prop}
    (h : Ensures computation state holds result) (hrun : computation state = .ok value final) :
    holds final ∧ result value final := by
  unfold Ensures at h
  simp only [Runs.run, hrun] at h
  exact ⟨h.1, h.2 value rfl⟩

theorem bind_eq_of_eq_ok {β : Type} {first : EStateM Error State α}
    {next : α → EStateM Error State β}
    {state middle : State} {value : α} (h : first state = .ok value middle) :
    (first >>= next) state = next value middle := by
  change EStateM.bind first next state = _
  unfold EStateM.bind
  rw [h]

theorem bind_eq_of_eq_error {β : Type} {first : EStateM Error State α}
    {next : α → EStateM Error State β} {state middle : State} {error : Error}
    (h : first state = .error error middle) : (first >>= next) state = .error error middle := by
  change EStateM.bind first next state = _
  unfold EStateM.bind
  rw [h]

/-- A sequence gives a result only if both of its parts do. -/
theorem exists_of_bind_eq_ok {β : Type} {first : EStateM Error State α}
    {next : α → EStateM Error State β} {state final : State} {value : β}
    (h : (first >>= next) state = .ok value final) :
    ∃ found middle, first state = .ok found middle ∧ next found middle = .ok value final := by
  cases hfirst : first state with
  | ok found middle => exact ⟨found, middle, rfl, (bind_eq_of_eq_ok hfirst).symm.trans h⟩
  | error error middle =>
    rw [bind_eq_of_eq_error hfirst] at h
    cases h

/-- A result that a computation gives, and the state that it leaves. -/
theorem eq_ok_of_run {computation : EStateM Error State α} {state : State} {value : α}
    (h : (Runs.run computation state).1 = some value) :
    computation state = .ok value (Runs.run computation state).2 := by
  cases hrun : computation state with
  | ok found final =>
    simp only [Runs.run, hrun, Option.some.injEq] at h ⊢
    rw [h]
  | error error final =>
    simp only [Runs.run, hrun] at h
    cases h

@[simp] theorem ensures_throw {error : Error} {state : State} {holds : State → Prop}
    {result : α → State → Prop} :
    Ensures (throw error : EStateM Error State α) state holds result ↔ holds state :=
  and_iff_left nofun

@[simp] theorem ensures_throw_bind {β : Type} {error : Error} {state : State}
    {holds : State → Prop} {next : β → EStateM Error State α} {result : α → State → Prop} :
    Ensures (throw error >>= next : EStateM Error State α) state holds result ↔ holds state :=
  and_iff_left nofun

@[simp] theorem ensures_fault {fault : Fault} {span : Span} :
    Ensures (Pass.fault fault span : Pass α) program holds result ↔ holds program :=
  ensures_throw

/-- A required value that is absent stops a pass where it stands. -/
theorem ensures_require_bind {β : Type} {value : Option β} {absent : Fault} {span : Span}
    {next : β → Pass α} (hholds : holds program)
    (hnext : ∀ found, value = some found → Ensures (next found) program holds result) :
    Ensures (Pass.require value absent span >>= next) program holds result := by
  cases value with
  | none => exact ensures_throw_bind.mpr hholds
  | some found =>
    change Ensures (pure found >>= next) program holds result
    rw [pure_bind]
    exact hnext found rfl

theorem ensures_require {value : Option α} {absent : Fault} {span : Span} (hholds : holds program)
    (hresult : ∀ found, value = some found → result found program) :
    Ensures (Pass.require value absent span) program holds result := by
  cases value with
  | none => exact ensures_throw.mpr hholds
  | some found => exact .pure hholds (hresult found rfl)

@[simp] theorem ensures_lift {build : Build α} :
    Ensures (build.lift : EStateM Error Program α) program holds result ↔
      Ensures build program holds result := Iff.rfl

@[simp] theorem ensures_asPass {edit : Edit α} :
    Ensures edit.asPass program holds result ↔ Ensures edit program holds result := by
  have hrun : Runs.run edit.asPass program = Runs.run edit program := by
    simp only [Runs.run, Edit.asPass]
    cases edit program <;> rfl
  unfold Ensures
  rw [hrun]

theorem Ensures.build {build : Build α} (h : Ensures build program holds result) :
    Ensures (liftM build : EStateM Error Program α) program holds result :=
  ensures_lift.mpr h

theorem Ensures.edit {edit : Edit α} (h : Ensures edit program holds result) :
    Ensures (liftM edit : Pass α) program holds result :=
  ensures_asPass.mpr h

theorem ensures_asLowering {pass : Pass α} {state : LoweringState} {holds : LoweringState → Prop}
    {result : α → LoweringState → Prop} :
    Ensures pass.asLowering state holds result ↔
      Ensures pass state.program (fun program ↦ holds { state with program })
        fun value program ↦ result value { state with program } := by
  have hrun : Runs.run pass.asLowering state =
      ((Runs.run pass state.program).1,
        { state with program := (Runs.run pass state.program).2 }) := by
    simp only [Runs.run, Pass.asLowering]
    cases pass state.program <;> rfl
  unfold Ensures
  rw [hrun]

/-- An edit gives a result in a pass only if it gives one on its own. -/
theorem eq_ok_of_asPass_eq_ok {edit : Edit α} {program final : Program} {value : α}
    (h : (liftM edit : Pass α) program = .ok value final) : edit program = .ok value final := by
  change edit.asPass program = _ at h
  unfold Edit.asPass at h
  cases hedit : edit program with
  | ok found middle =>
    rw [hedit] at h
    cases h
    rfl
  | error error middle =>
    rw [hedit] at h
    cases h

/-- A pass gives the same result as part of a lowering, and leaves the context alone. -/
theorem exists_of_asLowering_eq_ok {pass : Pass α} {state final : LoweringState} {value : α}
    (h : (liftM pass : Lowering α) state = .ok value final) :
    ∃ program, pass state.program = .ok value program ∧ final = { state with program } := by
  change pass.asLowering state = _ at h
  unfold Pass.asLowering at h
  cases hpass : pass state.program with
  | ok found program =>
    rw [hpass] at h
    cases h
    exact ⟨program, rfl, rfl⟩
  | error error program =>
    rw [hpass] at h
    cases h

theorem exists_of_pass_bind_eq_ok {β : Type} {pass : Pass α} {next : α → Lowering β}
    {state final : LoweringState} {value : β}
    (h : (liftM pass >>= next : Lowering β) state = .ok value final) :
    ∃ found program, pass state.program = .ok found program ∧
      next found { state with program } = .ok value final := by
  obtain ⟨found, middle, hrun, hrest⟩ := exists_of_bind_eq_ok h
  obtain ⟨program, hpass, rfl⟩ := exists_of_asLowering_eq_ok hrun
  exact ⟨found, program, hpass, hrest⟩

end

end IteratorLowering
