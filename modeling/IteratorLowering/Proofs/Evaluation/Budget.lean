import IteratorLowering.Proofs.Evaluation.Quiet

/-!
# Computations within a budget

`Tracks` compares two computations of which the first one runs within smaller limits than the
second one. The first one does what the second one does unless it is cut off, and then it has
traced no more than the second one. It counts the steps of the first one, too: how many it takes at
least, and that they stay within the limits.

Statements are the only computations that take steps, and they take at least one each. A list or a
loop therefore uses up a step for each round that it uses up, and where the rounds cover the steps
that are left, the steps run out first (`tracks_runList`, `tracks_runWhile`). What the steps do
not bound is a while loop without statements (`runWhile_nil`).
-/

set_option autoImplicit false
set_option relaxedAutoImplicit false

namespace IteratorLowering

/-- Whether the program has a while loop without statements. -/
def Program.HasIdleLoop (program : Program) : Prop :=
  ∃ id condition, program.kind id = .block (some (.whileLoop condition)) []

namespace Limits

/-- The first limits are at most the second ones. -/
structure Within (limits limits' : Limits) : Prop where
  steps : limits.maxSteps ≤ limits'.maxSteps
  depth : limits.maxDepth ≤ limits'.maxDepth

theorem Within.refl (limits : Limits) : limits.Within limits := ⟨Nat.le_refl _, Nat.le_refl _⟩

/-- Fuel that is not used up before the steps are, when a number of steps is taken already. -/
structure Covers (limits : Limits) (fuel taken : Nat) : Prop where
  enough : limits.maxSteps < taken + fuel
  pos : 0 < fuel

variable {limits : Limits} {fuel taken : Nat}

theorem Covers.exists_eq_succ (h : limits.Covers fuel taken) : ∃ less, fuel = less + 1 :=
  Nat.exists_eq_succ_of_ne_zero (Nat.ne_of_gt h.pos)

theorem Covers.mono {taken' : Nat} (h : limits.Covers fuel taken) (hle : taken ≤ taken') :
    limits.Covers fuel taken' :=
  ⟨Nat.lt_of_lt_of_le h.enough (Nat.add_le_add_right hle fuel), h.pos⟩

/-- Where a unit of fuel was used up for a step within the limits, the rest of the fuel covers the
rest of the steps. -/
theorem Covers.step {taken' : Nat} (h : limits.Covers (fuel + 1) taken) (hlt : taken < taken')
    (hle : taken' ≤ limits.maxSteps) : limits.Covers fuel taken' := by
  have := h.enough
  constructor <;> omega

theorem covers_fuel (limits : Limits) (machine : Machine) :
    limits.Covers (machine.fuel limits) machine.steps := by
  constructor <;> unfold Machine.fuel <;> omega

end Limits

namespace Eval

variable {program : Program} {limits limits' : Limits} {machine final : Machine}
variable {α β : Type} {frame : Nat}

/-! ### Computations within a budget -/

/-- How far a computation that failed went beyond its budget, where it began with a number of
steps taken already. -/
structure Overdrawn (program : Program) (limits : Limits) (taken : Nat) (error : EvalError)
    (final : Machine) : Prop where
  most : final.steps ≤ max taken limits.maxSteps + 1
  spent : ∀ limit, error = .stepLimit limit →
    limit = limits.maxSteps ∧ limits.maxSteps < final.steps
  idle : error = .endlessLoop → program.HasIdleLoop

theorem Overdrawn.of_le {taken : Nat} {error : EvalError}
    (h : Overdrawn program limits taken error final)
    (hle : taken ≤ max machine.steps limits.maxSteps) :
    Overdrawn program limits machine.steps error final :=
  { h with most := by have := h.most; omega }

/-- What was traced before a computation was cut off is traced first by the one that was not. -/
def CutOff (limits limits' : Limits) (error : EvalError) (final : Machine)
    (result : EStateM.Result EvalError Machine α) : Prop :=
  limits ≠ limits' ∧ error.isLimit = true ∧
    final.output.toList <+: (left result).output.toList

/-- From the machine the first computation does what the second one does, unless it is cut off by
limits that the second one does not have. A result takes at least a given number of steps, and no
more than the limits of the first one allow. -/
inductive Budgeted (program : Program) (limits limits' : Limits) (least : Nat)
    (first second : Eval α) (machine : Machine) : Prop
  | done {value : α} {final : Machine} (hfirst : first machine = .ok value final)
      (hsecond : second machine = .ok value final) (hleast : machine.steps + least ≤ final.steps)
      (hmost : final.steps ≤ max machine.steps limits.maxSteps)
  | failed {error : EvalError} {final : Machine} (hfirst : first machine = .error error final)
      (hsecond : second machine = .error error final ∨
        CutOff limits limits' error final (second machine))
      (hover : Overdrawn program limits machine.steps error final)

theorem Quiet.budgeted {computation : Eval α} (h : Quiet program computation) :
    Budgeted program limits limits' 0 computation computation machine := by
  cases hrun : computation machine with
  | ok value final =>
    have hsteps := h.done _ _ _ hrun
    exact .done hrun hrun (Nat.le_of_eq hsteps.symm) (by omega)
  | error error final =>
    obtain ⟨hsteps, hordinary⟩ := h.failed _ _ _ hrun
    refine .failed hrun (.inl hrun) ⟨by omega, ?_, ?_⟩
    · rintro limit rfl
      cases hordinary
    · rintro rfl
      cases hordinary

/-- What comes after a computation adds to what it traced. -/
theorem CutOff.bind {second : Eval α} {next : α → Eval β} {error : EvalError}
    (h : CutOff limits limits' error final (second machine))
    (hnext : ∀ value, Evolving program (next value)) :
    CutOff limits limits' error final ((second >>= next) machine) := by
  obtain ⟨hne, hlimit, houtput⟩ := h
  refine ⟨hne, hlimit, ?_⟩
  cases hrun : second machine with
  | ok value middle =>
    rw [hrun] at houtput
    rw [bind_of_ok hrun]
    exact houtput.trans (hnext value middle).output
  | error error middle =>
    rw [hrun] at houtput
    rw [bind_of_error hrun]
    exact houtput

/-- In a sequence, the second computations are compared wherever the first ones lead. -/
theorem Budgeted.bind {least : Nat} {first second : Eval α} {next next' : α → Eval β}
    (h : Budgeted program limits limits' least first second machine)
    (hevolving : ∀ value, Evolving program (next' value))
    (hnext : ∀ value middle, machine.steps + least ≤ middle.steps →
      middle.steps ≤ max machine.steps limits.maxSteps →
      Budgeted program limits limits' 0 (next value) (next' value) middle) :
    Budgeted program limits limits' least (first >>= next) (second >>= next') machine := by
  cases h with
  | done hfirst hsecond hleast hmost =>
    cases hnext _ _ hleast hmost with
    | done hfirst' hsecond' hleast' hmost' =>
      exact .done ((bind_of_ok hfirst).trans hfirst') ((bind_of_ok hsecond).trans hsecond')
        (by omega) (by omega)
    | failed hfirst' hsecond' hover =>
      refine .failed ((bind_of_ok hfirst).trans hfirst') ?_ (hover.of_le hmost)
      rwa [bind_of_ok hsecond]
  | failed hfirst hsecond hover =>
    exact .failed (bind_of_error hfirst)
      (hsecond.imp bind_of_error fun hcut ↦ hcut.bind hevolving) hover

/-- The least number of steps may be forgotten. -/
theorem Budgeted.forget {least : Nat} {first second : Eval α}
    (h : Budgeted program limits limits' least first second machine) :
    Budgeted program limits limits' 0 first second machine := by
  cases h with
  | done hfirst hsecond hleast hmost => exact .done hfirst hsecond (by omega) hmost
  | failed hfirst hsecond hover => exact .failed hfirst hsecond hover

/-! ### Computations that keep step -/

/-- Whether a number of steps has been reached, if there is one from which on to compare. -/
def Reached (since : Option Nat) (steps : Nat) : Prop := ∃ start ∈ since, start ≤ steps

theorem Reached.mono {since : Option Nat} {steps steps' : Nat} (h : Reached since steps)
    (hle : steps ≤ steps') : Reached since steps' :=
  h.imp fun _ hstart ↦ ⟨hstart.1, Nat.le_trans hstart.2 hle⟩

/-- The first computation keeps step with the second one from a number of steps on, and the second
one only evolves the machine. -/
structure Tracks (program : Program) (limits limits' : Limits) (since : Option Nat) (least : Nat)
    (first second : Eval α) : Prop where
  budgeted : ∀ {machine : Machine}, Reached since machine.steps →
    Budgeted program limits limits' least first second machine
  evolving : Evolving program second

variable {since : Option Nat}

theorem Quiet.tracks {computation : Eval α} (h : Quiet program computation) :
    Tracks program limits limits' since 0 computation computation :=
  ⟨fun _ ↦ h.budgeted, h.evolving⟩

namespace Tracks

variable {least : Nat} {first second : Eval α}

theorem forget (h : Tracks program limits limits' since least first second) :
    Tracks program limits limits' since 0 first second :=
  ⟨fun hreached ↦ (h.budgeted hreached).forget, h.evolving⟩

/-- Where nothing is compared, only the second computation matters. -/
theorem of_evolving (h : Evolving program second) :
    Tracks program limits limits' none least first second :=
  ⟨fun ⟨_, hnone, _⟩ ↦ (Option.not_mem_none _ hnone).elim, h⟩

theorem pure {value : α} :
    Tracks program limits limits' since 0 (Pure.pure value) (Pure.pure value) :=
  Quiet.pure.tracks

theorem throw {error : EvalError} (h : error.isOrdinary = true) :
    Tracks program limits limits' since 0 (MonadExcept.throw error : Eval α)
      (MonadExcept.throw error) :=
  (Quiet.throw h).tracks

theorem unsupported {situation : Unsupported} :
    Tracks program limits limits' since 0 (Eval.unsupported situation : Eval α)
      (Eval.unsupported situation) :=
  Quiet.unsupported.tracks

theorem endless (h : program.HasIdleLoop) :
    Tracks program limits limits' since 0 (MonadExcept.throw .endlessLoop : Eval α)
      (MonadExcept.throw .endlessLoop) :=
  ⟨fun _ ↦ .failed rfl (.inl rfl) ⟨by omega, nofun, fun _ ↦ h⟩, .throw⟩

theorem bind {next next' : α → Eval β}
    (h : Tracks program limits limits' since least first second)
    (hnext : ∀ value, Tracks program limits limits' since 0 (next value) (next' value)) :
    Tracks program limits limits' since least (first >>= next) (second >>= next') where
  budgeted hreached := (h.budgeted hreached).bind (fun value ↦ (hnext value).evolving)
    fun value _ hleast _ ↦ (hnext value).budgeted (hreached.mono (by omega))
  evolving := h.evolving.bind fun value ↦ (hnext value).evolving

/-- A frame that is pushed first and popped in the end takes no steps. -/
theorem withFrame {held : Frame} {computation computation' : Nat → Eval α}
    (h : ∀ depth,
      Tracks program limits limits' since least (computation depth) (computation' depth)) :
    Tracks program limits limits' since least (Eval.withFrame held computation)
      (Eval.withFrame held computation') where
  evolving := .withFrame fun depth ↦ (h depth).evolving
  budgeted {machine} hreached := by
    have hbody : Budgeted program limits limits' least (computation machine.frames.size)
        (computation' machine.frames.size)
        { machine with frames := machine.frames.push held } := (h _).budgeted hreached
    cases hbody with
    | done hfirst hsecond hleast hmost =>
      exact .done (withFrame_of_ok hfirst) (withFrame_of_ok hsecond) hleast hmost
    | failed hfirst hsecond hover =>
      refine .failed (withFrame_of_error hfirst) ?_ ⟨hover.most, hover.spent, hover.idle⟩
      refine hsecond.imp withFrame_of_error fun ⟨hne, hlimit, houtput⟩ ↦ ⟨hne, hlimit, ?_⟩
      cases hrun : computation' machine.frames.size
        { machine with frames := machine.frames.push held } with
      | ok value final =>
        rw [hrun] at houtput
        rw [withFrame_of_ok hrun]
        exact houtput
      | error error final =>
        rw [hrun] at houtput
        rw [withFrame_of_error hrun]
        exact houtput

end Tracks

/-! ### Steps and depths -/

theorem tick_eq (limits : Limits) (machine : Machine) : tick limits machine =
    if limits.maxSteps < machine.steps + 1
    then .error (.stepLimit limits.maxSteps) { machine with steps := machine.steps + 1 }
    else .ok ⟨⟩ { machine with steps := machine.steps + 1 } := by
  change (if limits.maxSteps < machine.steps + 1 then _ else _ : Eval Unit) _ = _
  split <;> rfl

theorem checkDepth_eq (limits : Limits) (machine : Machine) : checkDepth limits machine =
    if limits.maxDepth ≤ machine.frames.size
    then .error (.depthLimit limits.maxDepth) machine else .ok ⟨⟩ machine := by
  change (if limits.maxDepth ≤ machine.frames.size then _ else _ : Eval Unit) _ = _
  split <;> rfl

theorem evolving_tick (program : Program) (limits : Limits) :
    Evolving program (tick limits) := by
  intro machine
  rw [tick_eq]
  split <;> exact .of_counters program machine (Nat.le_succ _)

theorem evolving_checkDepth (program : Program) (limits : Limits) :
    Evolving program (checkDepth limits) := by
  intro machine
  rw [checkDepth_eq]
  split <;> exact .refl program machine

theorem budgeted_tick (hwithin : limits.Within limits') :
    Budgeted program limits limits' 1 (tick limits) (tick limits') machine := by
  have hsteps := hwithin.steps
  by_cases hspent : limits.maxSteps < machine.steps + 1
  · have hfirst := (tick_eq limits machine).trans (if_pos hspent)
    refine .failed hfirst ?_ ⟨by dsimp only; omega, ?_, nofun⟩
    · by_cases hlimits : limits = limits'
      · exact .inl (hlimits ▸ hfirst)
      · exact .inr ⟨hlimits, rfl, (evolving_tick program limits' machine).output⟩
    · rintro limit ⟨⟩
      exact ⟨rfl, hspent⟩
  · exact .done ((tick_eq limits machine).trans (if_neg hspent))
      ((tick_eq limits' machine).trans (if_neg (by omega))) (Nat.le_refl _) (by dsimp only; omega)

theorem tracks_checkDepth (hwithin : limits.Within limits') :
    Tracks program limits limits' since 0 (checkDepth limits) (checkDepth limits') where
  evolving := evolving_checkDepth program limits'
  budgeted {machine} _ := by
    have hdepth := hwithin.depth
    by_cases hfull : limits.maxDepth ≤ machine.frames.size
    · have hfirst := (checkDepth_eq limits machine).trans (if_pos hfull)
      refine .failed hfirst ?_ ⟨by omega, nofun, nofun⟩
      by_cases hlimits : limits = limits'
      · exact .inl (hlimits ▸ hfirst)
      · exact .inr ⟨hlimits, rfl, (evolving_checkDepth program limits' machine).output⟩
    · exact .done ((checkDepth_eq limits machine).trans (if_neg hfull))
        ((checkDepth_eq limits' machine).trans (if_neg (by omega))) (Nat.le_refl _) (by omega)

/-! ### Lists and loops -/

section

variable {rounds rounds' : Nat} {execute execute' : StmtId → Eval Flow}

theorem runList_nil {body : List StmtId} :
    runList program execute body rounds [] = pure .normal := by
  cases rounds <;> rfl

theorem evolving_runList (hexecute : ∀ id, Evolving program (execute id))
    {body rest : List StmtId} :
    Evolving program (runList program execute body rounds rest) := by
  induction rounds generalizing rest with
  | zero =>
    cases rest with
    | nil => exact .pure
    | cons id rest => exact .throw
  | succ rounds ih =>
    cases rest with
    | nil => exact .pure
    | cons id rest =>
      refine .bind (hexecute id) fun flow ↦ ?_
      cases flow with
      | normal => exact ih
      | ret value => exact .pure
      | goto label =>
        dsimp only
        split
        · exact ih
        · exact .pure

theorem evolving_runWhile {test : Eval Bool} (htest : Evolving program test) {round : Eval Flow}
    (hround : Evolving program round) : Evolving program (runWhile test round rounds) := by
  induction rounds with
  | zero => exact .throw
  | succ rounds ih =>
    refine .bind htest fun holds ↦ ?_
    split
    · refine .bind hround fun flow ↦ ?_
      cases flow with
      | normal => exact ih
      | ret value => exact .pure
      | goto label => exact .pure
    · exact .pure

/-- A while loop without statements either ends at once or never. -/
theorem runWhile_nil {test : Eval Bool} (htest : Looks test) {execute : StmtId → Eval Flow}
    {body : List StmtId} {bound : Nat} :
    runWhile test (runList program execute body bound []) (rounds + 1) =
      do if ← test then throw .endlessLoop else return .normal := by
  rw [runList_nil]
  induction rounds with
  | zero => rfl
  | succ rounds ih =>
    funext machine
    rw [runWhile]
    cases hrun : test machine with
    | error error final => rw [bind_of_error hrun, bind_of_error hrun]
    | ok holds final =>
      obtain rfl := htest _ _ _ hrun
      rw [bind_of_ok hrun, bind_of_ok hrun]
      cases holds with
      | false => rfl
      | true =>
        change runWhile test (pure .normal) (rounds + 1) final = _
        rw [ih, bind_of_ok hrun]

variable (hwithin : limits.Within limits')

include hwithin

theorem budgeted_runList
    (hexecute : ∀ id, Tracks program limits limits' since 1 (execute id) (execute' id))
    {body rest : List StmtId} (hreached : Reached since machine.steps)
    (hrounds : limits.Covers rounds machine.steps)
    (hrounds' : limits'.Covers rounds' machine.steps) :
    Budgeted program limits limits' (min 1 rest.length)
      (runList program execute body rounds rest)
      (runList program execute' body rounds' rest) machine := by
  induction rounds generalizing rounds' rest machine with
  | zero => exact absurd hrounds.pos (Nat.lt_irrefl 0)
  | succ rounds ih =>
    obtain ⟨rounds', rfl⟩ := hrounds'.exists_eq_succ
    cases rest with
    | nil => exact Quiet.pure.budgeted
    | cons id rest =>
      have hevolving (next : List StmtId) :
          Evolving program (runList program execute' body rounds' next) :=
        evolving_runList fun id ↦ (hexecute id).evolving
      rw [List.length_cons, Nat.min_eq_left (Nat.le_add_left 1 _), runList, runList]
      refine ((hexecute id).budgeted hreached).bind (fun flow ↦ ?_)
        fun flow middle hleast hmost ↦ ?_
      · cases flow with
        | normal => exact hevolving rest
        | ret value => exact .pure
        | goto label =>
          dsimp only
          split
          · exact hevolving _
          · exact .pure
      · have hrest (next : List StmtId) : Budgeted program limits limits' 0
            (runList program execute body rounds next)
            (runList program execute' body rounds' next) middle :=
          (ih (hreached.mono (by omega)) (hrounds.step hleast (by omega))
            (hrounds'.step hleast (by have := hwithin.steps; omega))).forget
        cases flow with
        | normal => exact hrest rest
        | ret value => exact Quiet.pure.budgeted
        | goto label =>
          dsimp only
          split
          · exact hrest _
          · exact Quiet.pure.budgeted

/-- A list that is not empty takes a step, and its rounds last as long as the steps. -/
theorem tracks_runList
    (hexecute : ∀ id, Tracks program limits limits' since 1 (execute id) (execute' id))
    (hrounds : ∀ start ∈ since, limits.Covers rounds start)
    (hrounds' : ∀ start ∈ since, limits'.Covers rounds' start) {body rest : List StmtId} :
    Tracks program limits limits' since (min 1 rest.length)
      (runList program execute body rounds rest)
      (runList program execute' body rounds' rest) where
  evolving := evolving_runList fun id ↦ (hexecute id).evolving
  budgeted := fun {machine} hreached ↦ by
    obtain ⟨start, hstart, hle⟩ := id hreached
    exact budgeted_runList hwithin hexecute hreached ((hrounds start hstart).mono hle)
      ((hrounds' start hstart).mono hle)

theorem budgeted_runWhile {test : Eval Bool} (htest : Quiet program test) {round round' : Eval Flow}
    (hround : Tracks program limits limits' since 1 round round')
    (hreached : Reached since machine.steps) (hrounds : limits.Covers rounds machine.steps)
    (hrounds' : limits'.Covers rounds' machine.steps) :
    Budgeted program limits limits' 0 (runWhile test round rounds) (runWhile test round' rounds')
      machine := by
  induction rounds generalizing rounds' machine with
  | zero => exact absurd hrounds.pos (Nat.lt_irrefl 0)
  | succ rounds ih =>
    obtain ⟨rounds', rfl⟩ := hrounds'.exists_eq_succ
    rw [runWhile, runWhile]
    have hevolving : Evolving program (runWhile test round' rounds') :=
      evolving_runWhile htest.evolving hround.evolving
    refine htest.budgeted.bind (fun holds ↦ ?_) fun holds tested htested _ ↦ ?_
    · split
      · refine .bind hround.evolving fun flow ↦ ?_
        cases flow with
        | normal => exact hevolving
        | ret value => exact .pure
        | goto label => exact .pure
      · exact .pure
    split
    · refine ((hround.budgeted (hreached.mono (by omega))).bind (fun flow ↦ ?_)
        fun flow middle hleast hmost ↦ ?_).forget
      · cases flow with
        | normal => exact hevolving
        | ret value => exact .pure
        | goto label => exact .pure
      cases flow with
      | normal =>
        exact ih (hreached.mono (by omega)) ((hrounds.mono htested).step hleast (by omega))
          ((hrounds'.mono htested).step hleast (by have := hwithin.steps; omega))
      | ret value => exact Quiet.pure.budgeted
      | goto label => exact Quiet.pure.budgeted
    · exact Quiet.pure.budgeted

/-- A loop whose rounds take a step each goes round no more often than there are steps. -/
theorem tracks_runWhile {test : Eval Bool} (htest : Quiet program test) {round round' : Eval Flow}
    (hround : Tracks program limits limits' since 1 round round')
    (hrounds : ∀ start ∈ since, limits.Covers rounds start)
    (hrounds' : ∀ start ∈ since, limits'.Covers rounds' start) :
    Tracks program limits limits' since 0 (runWhile test round rounds)
      (runWhile test round' rounds') where
  evolving := evolving_runWhile htest.evolving hround.evolving
  budgeted := fun {machine} hreached ↦ by
    obtain ⟨start, hstart, hle⟩ := id hreached
    exact budgeted_runWhile hwithin htest hround hreached ((hrounds start hstart).mono hle)
      ((hrounds' start hstart).mono hle)

end

end Eval

end IteratorLowering
