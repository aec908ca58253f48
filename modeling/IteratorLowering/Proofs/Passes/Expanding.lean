import IteratorLowering.Lowering.Rounds
import IteratorLowering.Proofs.Passes.Callback
import IteratorLowering.Proofs.Passes.Choosing
import IteratorLowering.Proofs.Passes.Protocol

/-!
# Lowering one loop

Whichever way a loop is lowered, it is no longer a loop, nothing but the loop itself gets another
place, and the loops around and beside it keep their headers (`Program.Lowers`). What becomes of the
loop differs: it keeps its place where iterators are fused or driven through the protocol, it stands
nowhere once an iterator was copied into it, and it stands in a new function where it became a
callback. In none of these cases does it stand in another function that was there before, and this
is all that is known in the end (`Lowers.place_of_standsIn`).
-/

set_option autoImplicit false
set_option relaxedAutoImplicit false

namespace IteratorLowering

variable {scope : Scope} {program : Program} {block : StmtId}

namespace Program

/-- A program in which a loop was lowered. -/
structure Lowers (program : Program) (block : StmtId) (final : Program) : Prop where
  reworks : program.Reworks Scope.everything.rooted final
  unmarked : (final.kind block).isForLoop = false
  place : ∀ {id}, program.Has id → (program.kind id).isAction = false → id ≠ block →
    final.parent id = program.parent id ∧ (final.stmt id).bodyOf = (program.stmt id).bodyOf
  header : ∀ {id}, program.Has id → ¬ program.Under id block →
    (final.kind id).loopHeader? = (program.kind id).loopHeader?
  own : (final.parent block = program.parent block ∧
      (final.stmt block).bodyOf = (program.stmt block).bodyOf) ∨
    (final.parent block = none ∧ (final.stmt block).bodyOf = none) ∨
    ∃ function, ¬ program.HasFunction function ∧ final.StandsIn function block

end Program

/-! ### The strategies -/

theorem Program.Lowers.of_place {final : Program} (hhas : program.Has block)
    (hcompound : (program.kind block).isAction = false)
    (h : program.Reworks (Scope.around program block) final)
    (hunmarked : (final.kind block).isForLoop = false) : program.Lowers block final where
  reworks := h.mono (Scope.le_everything_rooted _)
  unmarked := hunmarked
  place hid haction _ := h.place hid haction (not_not_intro hid)
  header hid houtside := h.header hid fun hmarked ↦
    hmarked.elim (fun hnew ↦ hnew hid) fun heq ↦ houtside (heq ▸ .refl)
  own := .inl (h.place hhas hcompound (not_not_intro hhas))

theorem ensures_lowersInline (hlinked : program.WellLinked) (hhas : program.Has block) :
    Ensures (inlineLoop block) program (program.Reworks Scope.everything.rooted)
      fun _ final ↦ program.Lowers block final := by
  have hfit : (Scope.around program block).Fits program := Scope.fits_around hlinked
  refine (ensures_inlineLoop trivial hfit (.inr rfl)).mono
    (fun _ h ↦ h.mono (Scope.le_everything_rooted _)) fun _ final h hfinal ↦ ?_
  have houtside : ∀ {id}, program.Has id → id ≠ block →
      ¬ ((Scope.around program block).adding block).rooted.moved id :=
    fun hid hne hmoved ↦ hmoved.elim (fun hnew ↦ hnew hid) hne
  refine ⟨h.mono (Scope.le_everything_rooted _), hfinal.1,
    fun hid haction hne ↦ h.place hid haction (houtside hid hne), fun hid hunder ↦ ?_,
    .inr (.inl (hfinal.2 (not_not_intro hhas)))⟩
  refine h.header hid fun hmarked ↦ ?_
  exact hmarked.elim (fun hnew ↦ hnew hid) fun heq ↦ hunder (heq ▸ .refl)

/-- What lowering a loop touches: new statements, and the loop with all that is nested in it. -/
def Scope.inside (program : Program) (block : StmtId) : Scope :=
  ⟨fun id ↦ ¬ program.Has id ∨ program.Under id block,
    fun id ↦ ¬ program.Has id ∨ program.Under id block, False, True⟩

theorem Scope.fits_inside (h : program.WellLinked) : (Scope.inside program block).Fits program where
  wellLinked := h
  calm := id
  new := .inl
  closed hid hparent _ := by
    have hhas := Program.has_of_mem_children (h.child_of_parent hparent)
    exact .inr ((hid.resolve_left (not_not_intro hhas)).head hparent)
  marked := id

theorem Program.MovesOut.lowers {final : Program} (hlinked : program.WellLinked)
    (hhas : program.Has block) (hcompound : (program.kind block).isAction = false)
    (hreworks : program.Reworks (Scope.inside program block).rooted final)
    (h : program.MovesOut block final) : program.Lowers block final := by
  obtain ⟨middle, hextracted, hlater⟩ := h
  obtain ⟨function, hnew, hfunction, hparent⟩ := hextracted.inside
  have hearlier := hextracted.reworks
  -- Nothing that is there when the loop stands in its function is moved later.
  have hstill : ∀ {id}, middle.Has id → (middle.kind id).isAction = false →
      final.parent id = middle.parent id ∧ (final.stmt id).bodyOf = (middle.stmt id).bodyOf :=
    fun hid haction ↦ hlater.place hid haction (not_not_intro hid)
  refine ⟨hreworks.mono (Scope.le_everything_rooted _), ?_, fun hid haction hne ↦ ?_,
    fun hid hunder ↦ hreworks.header hid fun hmarked ↦
      hmarked.elim (fun hnew ↦ hnew hid) hunder, .inr (.inr ⟨function, hnew, ?_⟩)⟩
  · exact hlater.isForLoop_eq_false (hearlier.has hhas) hextracted.unmarked
  · have hfirst := hearlier.place hid haction fun hmoved ↦
      hmoved.elim (fun hnew ↦ hnew hid) hne
    have hsecond := hstill (hearlier.has hid) ((hearlier.isAction hid).trans haction)
    exact ⟨hsecond.1.trans hfirst.1, hsecond.2.trans hfirst.2⟩
  · have hmiddle := hearlier.wellLinked hlinked
    have hblock := hstill (hearlier.has hhas) ((hearlier.isAction hhas).trans hcompound)
    have hbody := hstill (hmiddle.has_body hfunction)
      (StmtKind.isAction_eq_false_of_mem (hmiddle.child_of_parent hparent))
    exact ⟨_, .single (hblock.1.trans hparent), hbody.2.trans (hmiddle.bodyOf_body hfunction)⟩

theorem ensures_zipLoop (hfit : scope.Fits program) (hlooping : scope.looping)
    (hmarked : scope.marked block) :
    Ensures (zipLoop block) program (program.Reworks scope)
      fun _ final ↦ (final.kind block).isForLoop = false := by
  unfold zipLoop
  refine ensures_loopHeader_bind (.refl scope program) fun (index, iterator) hheader ↦ ?_
  refine ensures_loopOwner_bind (.refl scope program) fun owner _ ↦ ?_
  refine Ensures.seq stays_zipSetup fun setup middle h _ ↦ ?_
  exact (ensures_fuseLoop hlooping (hfit.after h) hmarked).mono (fun _ h ↦ h)
    fun _ _ _ hunmarked ↦ hunmarked (h.has (has_of_forHeader hheader))

/-! ### Lowering and counting -/

/-- What lowering a loop does to the state of a lowering. A loop that is skipped is counted, and
nothing else happens. -/
structure LoweringState.Settles (state : LoweringState) (block : StmtId) (strategy : Strategy)
    (final : LoweringState) : Prop where
  config : final.context.config = state.context.config
  recursive : final.context.recursive = state.context.recursive
  left : final.context.summary.leftForStateMachine =
    state.context.summary.leftForStateMachine + if strategy = .skip then 1 else 0
  skipped : strategy = .skip → final.program = state.program ∧
    state.context.config.inlineIterators = true ∧
    state.program.Expands state.context block .skip
  lowered : strategy ≠ .skip → state.program.Lowers block final.program

variable {state : LoweringState}

/-- A pass that changes nothing changes nothing of a lowering. -/
theorem Ensures.loweringUnchanged {α : Type} {pass : Pass α} {result : α → Program → Prop}
    (h : Ensures pass state.program (Eq state.program) result) :
    Ensures (liftM pass : Lowering α) state (Eq state)
      fun value _ ↦ result value state.program :=
  ensures_asLowering.mpr (h.mono (fun _ hsame ↦ hsame ▸ rfl) fun _ _ hsame h ↦ hsame ▸ h)

/-- What is done with a loop over a single iterator once its strategy is chosen. -/
theorem ensures_applyStrategy {strategy : Strategy} (hlinked : state.program.WellLinked)
    (hexpands : state.program.Expands state.context block strategy) :
    Ensures (do
      match strategy with
      | .directInline => inlineLoop block
      | .recursiveCallback => lowerWithCallback block
      | .zipFusion | .protocol | .skip => pure ()
      return strategy : Lowering Strategy) state (state.Reworks Scope.everything.rooted)
      fun chosen final ↦ chosen = strategy ∧ (strategy = .skip → final = state) ∧
        (strategy ≠ .skip → state.program.Lowers block final.program) := by
  have hhas := hexpands.has
  rcases hexpands.cases with rfl | rfl | rfl
  · refine Ensures.seq (Ensures.lowering (ensures_lowersInline hlinked hhas))
      fun _ final _ hlowers ↦ .stay ⟨rfl, nofun, fun _ ↦ hlowers⟩
  · exact .stay ⟨rfl, fun _ ↦ rfl, fun hne ↦ absurd rfl hne⟩
  · have hfit : (Scope.inside state.program block).Fits state.program := Scope.fits_inside hlinked
    refine Ensures.seq ((ensures_lowerWithCallback trivial hfit (.inr .refl)).mono ?_ ?_)
      fun _ final _ hlowers ↦ .stay ⟨rfl, nofun, fun _ ↦ hlowers⟩
    · exact fun _ h ↦ h.mono (Scope.le_everything_rooted _)
    · exact fun _ _ h hmoves ↦ hmoves.lowers hlinked hhas hexpands.compound h.program

/-- A loop over a single iterator is lowered by a copy or by a callback, or nothing happens. -/
theorem ensures_expandLoop (hlinked : state.program.WellLinked) :
    Ensures (expandLoop block) state (state.Reworks Scope.everything.rooted) fun strategy final ↦
      state.program.Expands state.context block strategy ∧ (strategy = .skip → final = state) ∧
        (strategy ≠ .skip → state.program.Lowers block final.program) := by
  unfold expandLoop
  refine ensures_get_bind.mpr ?_
  refine Ensures.bind (Ensures.loweringUnchanged ensures_inlineStrategy |>.tagged.mono
    (fun _ hsame ↦ hsame ▸ .refl _ state) fun _ _ _ h ↦ h) fun strategy middle _ hchosen ↦ ?_
  obtain ⟨rfl, hexpands⟩ := hchosen
  refine (ensures_applyStrategy hlinked hexpands).mono (fun _ h ↦ h) fun chosen final _ h ↦ ?_
  obtain ⟨rfl, hresult⟩ := h
  exact ⟨hexpands, hresult⟩

theorem Summary.leftForStateMachine_add (summary : Summary) (strategy : Strategy) :
    (summary.add strategy).leftForStateMachine =
      summary.leftForStateMachine + if strategy = .skip then 1 else 0 := by
  cases strategy <;> rfl

/-- A loop that was lowered or passed over is counted. -/
theorem ensures_countLoop {strategy : Strategy} {middle : LoweringState}
    (hreworks : state.Reworks Scope.everything.rooted middle)
    (hskip : strategy = .skip → middle = state ∧ state.context.config.inlineIterators = true ∧
      state.program.Expands state.context block .skip)
    (hlowers : strategy ≠ .skip → state.program.Lowers block middle.program) :
    Ensures (do
      Lowering.count fun summary => summary.add strategy
      return strategy : Lowering Strategy) middle
      (fun final ↦ state.program.Reworks Scope.everything.rooted final.program)
      fun strategy final ↦ state.Settles block strategy final := by
  refine ensures_modify_bind.mpr (.pure hreworks.program
    ⟨hreworks.config, hreworks.recursive, ?_, fun hstrategy ↦ ?_, hlowers⟩)
  · exact (Summary.leftForStateMachine_add ..).trans (by rw [hreworks.left])
  · obtain ⟨rfl, hskipped⟩ := hskip hstrategy
    exact ⟨rfl, hskipped⟩

/-- A pass that keeps a loop in its place and unmarks it lowers the loop. -/
theorem ensures_lowersPlace {pass : Pass Unit} (hhas : state.program.Has block)
    (hcompound : (state.program.kind block).isAction = false)
    (h : Ensures pass state.program
      (state.program.Reworks (Scope.around state.program block))
      fun _ final ↦ (final.kind block).isForLoop = false) :
    Ensures (liftM pass : Lowering Unit) state (state.Reworks Scope.everything.rooted)
      fun _ final ↦ state.program.Lowers block final.program :=
  (Ensures.lowering h).mono (fun _ h ↦ h.mono (Scope.le_everything_rooted _))
    fun _ _ h hunmarked ↦ .of_place hhas hcompound h.program hunmarked

/-- Every loop is lowered, or it is skipped and counted. -/
theorem ensures_lowerLoop (hlinked : state.program.WellLinked) :
    Ensures (lowerLoop block) state
      (fun final ↦ state.program.Reworks Scope.everything.rooted final.program)
      fun strategy final ↦ state.Settles block strategy final := by
  unfold lowerLoop
  refine ensures_get_bind.mpr ?_
  refine Ensures.bind (Ensures.loweringUnchanged ensures_classify |>.tagged.mono
    (fun _ hsame ↦ hsame ▸ .refl _ _) fun _ _ _ h ↦ h) fun strategy middle _ hchosen ↦ ?_
  obtain ⟨rfl, index, source, hheader, hchosen⟩ := hchosen
  have hhas := has_of_forHeader hheader
  have hcompound := StmtKind.isAction_of_forHeader hheader
  have hfit : (Scope.around state.program block).Fits state.program := Scope.fits_around hlinked
  rcases hchosen with rfl | ⟨hinline, ⟨_, hexpands⟩ | ⟨_, rfl⟩⟩
  rotate_left 2
  · refine Ensures.bind ((ensures_lowersPlace hhas hcompound (ensures_zipLoop hfit trivial
      (.inr rfl))).tagged.mono (fun _ h ↦ h.program) fun _ _ _ h ↦ h) fun _ middle _ h ↦ ?_
    exact ensures_countLoop h.1 nofun fun _ ↦ h.2
  · refine Ensures.bind ((ensures_lowersPlace hhas hcompound (ensures_lowerProtocol hfit
      (.inr rfl))).tagged.mono (fun _ h ↦ h.program) fun _ _ _ h ↦ h) fun _ middle _ h ↦ ?_
    exact ensures_countLoop h.1 nofun fun _ ↦ h.2
  · -- The strategy is chosen once more, in the same program.
    have hexpand := (@ensures_expandLoop block state hlinked).tagged.mono
      (fun _ h ↦ h.program) fun _ _ _ h ↦ h
    rcases hexpands.cases with rfl | rfl | rfl
    · refine Ensures.bind hexpand fun chosen middle _ h ↦ ?_
      obtain ⟨hreworks, hchosen, -, hlowers⟩ := h
      obtain rfl := hchosen.unique hexpands
      exact ensures_countLoop hreworks nofun hlowers
    · exact ensures_countLoop (.refl _ _) (fun _ ↦ ⟨rfl, hinline, hexpands⟩) fun hne ↦
        absurd rfl hne
    · refine Ensures.bind hexpand fun chosen middle _ h ↦ ?_
      obtain ⟨hreworks, hchosen, -, hlowers⟩ := h
      obtain rfl := hchosen.unique hexpands
      exact ensures_countLoop hreworks nofun hlowers

end IteratorLowering
