import IteratorLowering.Proofs.Passes.Pipeline

/-!
# Lowering without inlining

A lowering counts the loops that it treats, way by way. `state.Treats ways final` says that the
counts of all other ways are the old ones.

The loops over marked iterators are copied or turned into calls with a callback, whatever the
configuration is (`ensures_treatMarked`). All other loops go through the protocol if inlining is
switched off (`ensures_treatRemaining`). So no loop is fused and none is left then, and where no
iterator is marked every loop goes through the protocol (`treated_lowerIterators`).
-/

set_option autoImplicit false
set_option relaxedAutoImplicit false

namespace IteratorLowering

/-- How many loops were treated in a way. -/
def Summary.treated (summary : Summary) : Strategy → Nat
  | .directInline => summary.inlined
  | .zipFusion => summary.zipFused
  | .protocol => summary.protocol
  | .recursiveCallback => summary.recursiveCallback
  | .skip => summary.leftForStateMachine

theorem Summary.treated_add (summary : Summary) {strategy other : Strategy}
    (hne : strategy ≠ other) : (summary.add strategy).treated other = summary.treated other := by
  cases strategy <;> cases other <;> first | rfl | exact absurd rfl hne

/-- The loops that were counted on the way were all treated in one of the given ways. -/
structure LoweringState.Treats (ways : List Strategy) (state final : LoweringState) : Prop where
  config : final.context.config = state.context.config
  treated : ∀ strategy ∉ ways,
    final.context.summary.treated strategy = state.context.summary.treated strategy

variable {α : Type} {ways : List Strategy} {state : LoweringState} {block : StmtId}

namespace LoweringState.Treats

variable {middle final : LoweringState}

theorem refl (ways : List Strategy) (state : LoweringState) : state.Treats ways state :=
  ⟨rfl, fun _ _ ↦ rfl⟩

theorem trans (first : state.Treats ways middle) (second : middle.Treats ways final) :
    state.Treats ways final :=
  ⟨second.config.trans first.config, fun strategy hways ↦
    (second.treated strategy hways).trans (first.treated strategy hways)⟩

theorem mono {ways' : List Strategy} (hle : ways ⊆ ways') (h : state.Treats ways final) :
    state.Treats ways' final :=
  ⟨h.config, fun strategy hways ↦ h.treated strategy fun hmem ↦ hways (hle hmem)⟩

instance : IsPreorder LoweringState (LoweringState.Treats ways) where
  refl := refl ways
  trans _ _ _ := trans

end LoweringState.Treats

/-! ### Steps -/

/-- A pass counts nothing. -/
theorem ensures_treatPass {pass : Pass α} :
    Ensures (liftM pass : Lowering α) state (state.Treats ways) fun _ _ ↦ True :=
  ensures_asLowering.mpr ⟨⟨rfl, fun _ _ ↦ rfl⟩, fun _ _ ↦ trivial⟩

theorem ensures_treatPass_bind {β : Type} {pass : Pass α} {next : α → Lowering β}
    {result : β → LoweringState → Prop}
    (hnext : ∀ value middle, Ensures (next value) middle (middle.Treats ways) result) :
    Ensures (liftM pass >>= next) state (state.Treats ways) result :=
  Ensures.seq ensures_treatPass fun value middle _ _ ↦ hnext value middle

/-- What else is counted is no loop. -/
theorem ensures_treatCount {change : Summary → Summary}
    (h : ∀ summary, ∀ strategy ∉ ways,
      (change summary).treated strategy = summary.treated strategy) :
    Ensures (Lowering.count change) state (state.Treats ways) fun _ _ ↦ True :=
  ensures_modify.mpr ⟨⟨rfl, h state.context.summary⟩, trivial⟩

theorem ensures_treatAdd {strategy : Strategy} (hways : strategy ∈ ways) :
    Ensures (Lowering.count fun summary => summary.add strategy) state (state.Treats ways)
      fun _ _ ↦ True :=
  ensures_treatCount fun summary _ hother ↦
    summary.treated_add fun heq ↦ hother (heq ▸ hways)

/-- Only functions are counted while a loop is turned into a call. -/
theorem ensures_treatWithCallback :
    Ensures (lowerWithCallback block) state (state.Treats ways) fun _ _ ↦ True := by
  have hcallee : ∀ {cursor iterator loopBody bundle packed} {middle : LoweringState},
      Ensures (recursiveCallee cursor iterator loopBody bundle packed) middle
        (middle.Treats ways) fun _ _ ↦ True := by
    intro cursor iterator loopBody bundle packed middle
    unfold recursiveCallee
    refine ensures_get_bind.mpr ?_
    split
    · exact ensures_treatPass_bind fun _ _ ↦ ensures_treatPass_bind fun _ _ ↦ .stay trivial
    · refine ensures_treatPass_bind fun generated made ↦ ?_
      have hremember : Ensures (Lowering.remember ⟨iterator, generated, loopBody⟩) made
          (made.Treats ways) fun _ _ ↦ True :=
        ensures_modify.mpr ⟨⟨rfl, fun _ _ ↦ rfl⟩, trivial⟩
      refine hremember.seq fun _ _ _ _ ↦ ?_
      refine Ensures.seq (ensures_treatCount fun summary strategy _ ↦ ?_) fun _ _ _ _ ↦
        .stay trivial
      cases strategy <;> rfl
  unfold lowerWithCallback
  refine ensures_treatPass_bind fun _ _ ↦ ?_
  refine ensures_get_bind.mpr ?_
  refine ensures_treatPass_bind fun _ _ ↦ ensures_treatPass_bind fun _ _ ↦ ?_
  refine ensures_treatPass_bind fun _ _ ↦ ensures_treatPass_bind fun _ _ ↦ ?_
  refine ensures_treatPass_bind fun _ _ ↦ ensures_treatPass_bind fun _ _ ↦ ?_
  refine ensures_treatPass_bind fun _ _ ↦ Ensures.seq hcallee fun _ _ _ _ ↦ ?_
  exact ensures_treatPass_bind fun _ _ ↦ ensures_treatPass

/-- A loop over a single iterator is copied, becomes a call, or is left, and is not counted. -/
theorem ensures_treatExpand :
    Ensures (expandLoop block) state (state.Treats ways) fun strategy _ ↦
      strategy = .directInline ∨ strategy = .skip ∨ strategy = .recursiveCallback := by
  unfold expandLoop
  refine ensures_get_bind.mpr ?_
  refine Ensures.seq ((Ensures.loweringUnchanged ensures_inlineStrategy).mono
    (fun _ hsame ↦ hsame ▸ .refl ways state) fun _ _ _ h ↦ h.cases) fun strategy middle _ h ↦ ?_
  obtain rfl | rfl | rfl := h
  · exact ensures_treatPass_bind fun _ _ ↦ .stay (.inl rfl)
  · exact .stay (.inr (.inl rfl))
  · exact Ensures.seq ensures_treatWithCallback fun _ _ _ _ ↦ .stay (.inr (.inr rfl))

/-! ### The two phases -/

/-- The ways that the loops over marked iterators are treated in. -/
def markedWays : List Strategy := [.directInline, .recursiveCallback]

theorem ensures_treatMarked :
    Ensures inlineMarkedLoops state (state.Treats markedWays) fun _ _ ↦ True := by
  refine ensures_get_bind.mpr (ensures_lowerRounds_of_lower (fun {block middle} h ↦ ?_)
    (.refl markedWays state))
  refine .after h (Ensures.seq ensures_treatExpand fun strategy _ _ hstrategy ↦ ?_)
  obtain rfl | rfl | rfl := hstrategy
  · exact Ensures.seq (ensures_treatAdd (by decide)) fun _ _ _ _ ↦ .stay trivial
  · exact .stay trivial
  · exact Ensures.seq (ensures_treatAdd (by decide)) fun _ _ _ _ ↦ .stay trivial

/-- Where no iterator is marked, no loop is gathered to be copied. -/
theorem ensures_keepUnmarked
    (hunmarked : ∀ function, (state.program.function function).flags.inlineIterator = false) :
    Ensures inlineMarkedLoops state (Eq state) fun _ _ ↦ True := by
  have hmarked : ∀ block, state.program.isMarked block = false := by
    intro block
    unfold Program.isMarked
    split
    · rename_i source _
      cases state.program.iteratorFnOf (state.program.symbolType source) with
      | none => rfl
      | some iterator => exact hunmarked iterator
    · rfl
  refine ensures_get_bind.mpr ?_
  cases state.context.config.maxRounds with
  | zero => exact ensures_get_bind.mpr (ensures_throw.mpr rfl)
  | succ rounds =>
    refine ensures_get_bind.mpr ?_
    simp [hmarked]

theorem ensures_treatRemaining (hswitch : state.context.config.inlineIterators = false) :
    Ensures lowerRemainingLoops state (state.Treats [.protocol]) fun _ _ ↦ True := by
  refine ensures_get_bind.mpr (ensures_lowerRounds_of_lower (fun {block middle} h ↦ ?_)
    (.refl [.protocol] state))
  have hswitch : middle.context.config.inlineIterators = false := by rw [h.config, hswitch]
  refine .after h (ensures_get_bind.mpr ?_)
  refine Ensures.seq ((Ensures.loweringUnchanged ensures_classify).mono
    (fun _ hsame ↦ hsame ▸ .refl _ _) fun _ _ _ h ↦ h) fun strategy _ _ hchosen ↦ ?_
  obtain ⟨_, _, _, rfl | ⟨hinline, _⟩⟩ := hchosen
  · exact ensures_treatPass_bind fun _ _ ↦
      Ensures.seq (ensures_treatAdd (List.mem_singleton_self _)) fun _ _ _ _ ↦ .stay trivial
  · rw [hswitch] at hinline
    cases hinline

/-! ### The whole lowering -/

theorem ensures_treatProgram {handOff : HandOff} (hprotocol : .protocol ∈ ways)
    (hswitch : state.context.config.inlineIterators = false)
    (hmarked : Ensures inlineMarkedLoops state (state.Treats ways) fun _ _ ↦ True) :
    Ensures (lowerProgram handOff) state (state.Treats ways) fun lowered final ↦
      lowered.summary = final.context.summary := by
  have hforM : ∀ {items : List FnId} {step : FnId → Lowering Unit} {middle : LoweringState},
      (∀ item middle, Ensures (step item) middle (middle.Treats ways) fun _ _ ↦ True) →
        Ensures (items.forM step) middle (middle.Treats ways) fun _ _ ↦ True :=
    fun hstep ↦ .forM fun item _ middle _ ↦ hstep item middle
  have hhandOff : ∀ {middle : LoweringState},
      Ensures (handOffIterators handOff) middle (middle.Treats ways) fun _ _ ↦ True := by
    refine ensures_get_bind.mpr (Ensures.seq (hforM fun _ _ ↦ ?_) fun _ _ _ _ ↦ .stay trivial)
    refine ensures_treatPass_bind fun _ _ ↦ ensures_treatCount fun _ strategy _ ↦ ?_
    cases strategy <;> rfl
  unfold lowerProgram
  refine hmarked.seq fun _ _ h₁ _ ↦ ensures_get_bind.mpr ?_
  refine Ensures.seq (hforM fun _ _ ↦ ensures_treatPass) fun _ _ h₂ _ ↦ ?_
  refine Ensures.seq ensures_treatPass fun fragmented _ h₃ _ ↦ ?_
  refine Ensures.seq (ensures_treatCount fun _ strategy _ ↦ ?_) fun _ _ h₄ _ ↦ ?_
  · cases strategy <;> rfl
  have hconfig := h₄.config.trans (h₃.config.trans (h₂.config.trans h₁.config))
  have hremaining := ensures_treatRemaining ((congrArg _ hconfig).trans hswitch)
  refine Ensures.seq (hremaining.mono (fun _ h ↦ h.mono ?_) fun _ _ _ h ↦ h) fun _ _ _ _ ↦ ?_
  · exact fun strategy hstrategy ↦ List.mem_singleton.mp hstrategy ▸ hprotocol
  refine ensures_get_bind.mpr (ensures_get_bind.mpr ?_)
  refine Ensures.seq (hforM fun _ _ ↦ ensures_treatPass) fun _ _ _ _ ↦ ?_
  refine Ensures.seq hhandOff fun _ _ _ _ ↦ ensures_treatPass_bind fun _ _ ↦ ?_
  exact ensures_get_bind.mpr (.stay rfl)

/-- A lowering counts only the ways that its two phases treat loops in. -/
theorem treated_of_eq_ok {config : LoweringConfig} {handOff : HandOff}
    {queue queue' : DiagnosticQueue} {program final : Program} {lowered : Lowered}
    (hprotocol : .protocol ∈ ways) (hswitch : config.inlineIterators = false)
    (hmarked : ∀ {state : LoweringState}, state.program = program →
      Ensures inlineMarkedLoops state (state.Treats ways) fun _ _ ↦ True)
    (h : lowerIterators config handOff queue program = (.ok lowered final, queue')) :
    ∀ strategy ∉ ways, lowered.summary.treated strategy = 0 := by
  have hprogram := @ensures_treatProgram ways
    { program, context := .ofProgram config program } handOff hprotocol hswitch (hmarked rfl)
  have hlowers : Ensures (lowersTo config handOff queue) program (fun _ ↦ True)
      fun lowered _ ↦ ∀ strategy ∉ ways, lowered.summary.treated strategy = 0 := by
    refine ensures_lowersTo trivial (hprogram.mono (fun _ _ ↦ trivial) ?_)
    intro lowered final htreats hsummary strategy hways
    rw [hsummary, htreats.treated strategy hways]
    cases strategy <;> rfl
  exact (hlowers.of_eq_ok (congrArg Prod.fst h)).2

/-- With inlining switched off no loop is fused or left to the state machines, and every loop goes
through the protocol if no iterator is marked. -/
theorem treated_lowerIterators {config : LoweringConfig} {handOff : HandOff}
    {queue queue' : DiagnosticQueue} {program final : Program} {lowered : Lowered}
    (hswitch : config.inlineIterators = false)
    (h : lowerIterators config handOff queue program = (.ok lowered final, queue')) :
    lowered.summary.zipFused = 0 ∧ lowered.summary.leftForStateMachine = 0 ∧
      ((∀ function, (program.function function).flags.inlineIterator = false) →
        lowered.summary.inlined = 0 ∧ lowered.summary.recursiveCallback = 0) := by
  have hall : ∀ strategy ∉ .protocol :: markedWays, lowered.summary.treated strategy = 0 :=
    treated_of_eq_ok List.mem_cons_self hswitch (fun _ ↦ ensures_treatMarked.mono
      (fun _ h ↦ h.mono (List.subset_cons_self ..)) fun _ _ _ h ↦ h) h
  refine ⟨hall .zipFusion (by decide), hall .skip (by decide), fun hunmarked ↦ ?_⟩
  have hprotocol : ∀ strategy ∉ [.protocol], lowered.summary.treated strategy = 0 :=
    treated_of_eq_ok (List.mem_singleton_self _) hswitch (fun hstate ↦
      (ensures_keepUnmarked (hstate ▸ hunmarked)).mono (fun _ hsame ↦ hsame ▸ .refl _ _)
        fun _ _ _ h ↦ h) h
  exact ⟨hprotocol .directInline (by decide), hprotocol .recursiveCallback (by decide)⟩

/-- A function with a loop over an iterator, which may be marked to be copied. -/
def loopOver (marked : Bool) : Program where
  types := builtinTypes.push
    { name := "_ir_f", kind := .record, flags := { iteratorRecord := true },
      iteratorFn := some ⟨1⟩ }
  symbols := #[
    { name := "it", kind := .var, type := ⟨5⟩, owner := some ⟨0⟩ },
    { name := "i", kind := .var, type := .int, owner := some ⟨0⟩ }]
  statements := #[
    { kind := .plain [⟨1⟩], bodyOf := some ⟨0⟩, span := .none },
    { kind := .block (some (.forEach ⟨1⟩ ⟨0⟩)) [], parent := some ⟨0⟩, span := .none },
    { kind := .plain [⟨3⟩], bodyOf := some ⟨1⟩, span := .none },
    { kind := .action (.yield (.int 1)), parent := some ⟨2⟩, span := .none }]
  functions := #[{ name := "main", retType := .void, body := ⟨0⟩ }, {
    name := "f"
    retType := .int
    body := ⟨2⟩
    flags := { iterator := true, inlineIterator := marked }
    iteratorInfo := some ⟨⟨5⟩, ⟨5⟩, ⟨0⟩, ⟨0⟩, ⟨0⟩, ⟨0⟩, ⟨0⟩, ⟨0⟩, ⟨0⟩⟩ }]

/-- How many loops are copied and how many go through the protocol when the loop is lowered with
inlining switched off. -/
def countsOfLoop (marked : Bool) : Option (Nat × Nat) :=
  (Runs.run (lowersTo { inlineIterators := false } (fun _ ↦ pure ()) {}) (loopOver marked)).1.map
    fun lowered ↦ (lowered.summary.inlined, lowered.summary.protocol)

/-- The loop goes through the protocol if the iterator is not marked. -/
theorem treated_loopOverUnmarked :
    ∃ lowered final queue,
      lowerIterators { inlineIterators := false } (fun _ ↦ pure ()) {} (loopOver false) =
        (.ok lowered final, queue) ∧
      lowered.summary.protocol = 1 ∧ lowered.summary.zipFused = 0 ∧
        lowered.summary.leftForStateMachine = 0 ∧ lowered.summary.inlined = 0 ∧
          lowered.summary.recursiveCallback = 0 := by
  have hcounts : countsOfLoop false = some (0, 1) := by decide +kernel
  obtain ⟨lowered, hlowered, hsummary⟩ := Option.map_eq_some_iff.mp hcounts
  obtain ⟨final, hfinal⟩ : ∃ final, lowersTo { inlineIterators := false } (fun _ ↦ pure ()) {}
      (loopOver false) = .ok lowered final := ⟨_, eq_ok_of_run hlowered⟩
  unfold lowersTo at hfinal
  generalize hrun : lowerIterators { inlineIterators := false } (fun _ ↦ pure ()) {}
    (loopOver false) = result at hfinal
  obtain ⟨ended, queue⟩ := result
  obtain rfl : ended = .ok lowered final := hfinal
  have hunmarked (function : FnId) :
      ((loopOver false).function function).flags.inlineIterator = false := by
    obtain ⟨index⟩ := function
    match index with
    | 0 | 1 | _ + 2 => rfl
  obtain ⟨hfused, hleft, hrest⟩ := treated_lowerIterators rfl hrun
  exact ⟨lowered, final, queue, rfl, congrArg Prod.snd hsummary, hfused, hleft, hrest hunmarked⟩

/-- A loop over a marked iterator is copied although inlining is switched off. -/
example : countsOfLoop true = some (1, 0) := by decide +kernel

end IteratorLowering
