import IteratorLowering.Proofs.Passes.Finishing

/-!
# The whole lowering

A lowering keeps a program well linked if the hand-off of iterators does
(`ensures_lowersToLinked`). A hand-off that does nothing leaves a program whose loops are those
that were counted as left to the state machines (`ensures_lowerRemaining`).
-/

set_option autoImplicit false
set_option relaxedAutoImplicit false

namespace IteratorLowering

variable {α : Type} {state : LoweringState} {holds : LoweringState → Prop}

theorem stays_flattenIterator {program : Program} {iterator : FnId} (hlinked : program.WellLinked) :
    Stays Scope.everything program (flattenIterator iterator) :=
  Ensures.seq (stays_collapseBlocks hlinked) fun _ _ _ _ ↦
    Ensures.seq stays_removeGotos fun _ _ _ _ ↦ .stay trivial

/-- What is done before the loops that are left are lowered touches everything, and leaves no
loop to the state machines. -/
theorem ensures_prepare_bind {rest : Lowering α} {result : α → LoweringState → Prop}
    (hlinked : state.program.WellLinked)
    (hholds : ∀ {middle}, state.Reworks Scope.everything.rooted middle → holds middle)
    (hrest : ∀ {middle}, state.Reworks Scope.everything.rooted middle →
      Ensures rest middle holds result) :
    Ensures (do
      inlineMarkedLoops
      ((← get).program.iterators).forM fun iterator => (flattenIterator iterator : Pass Unit)
      let fragmented ← fragmentConfined
      Lowering.count fun summary => { summary with fragmentedBlocks := fragmented }
      rest) state holds result := by
  have hprepare : Ensures (do
      inlineMarkedLoops
      ((← get).program.iterators).forM fun iterator => (flattenIterator iterator : Pass Unit)
      let fragmented ← fragmentConfined
      Lowering.count fun summary => { summary with fragmentedBlocks := fragmented } :
        Lowering Unit) state (state.Reworks Scope.everything.rooted) fun _ _ ↦ True := by
    refine Ensures.seq (ensures_inlineMarkedLoops hlinked) fun _ inlined h _ ↦ ?_
    have hlinked := h.program.wellLinked hlinked
    refine ensures_get_bind.mpr ?_
    refine Ensures.seq (.forM fun iterator _ middle h ↦ ?_) fun _ flat h _ ↦ ?_
    · exact Ensures.lowering (stays_flattenIterator (h.program.wellLinked hlinked)).rooted.stays
    · have hlinked := h.program.wellLinked hlinked
      refine Ensures.seq (Ensures.lowering (stays_fragmentConfined hlinked).rooted)
        fun fragmented _ _ _ ↦ ensures_count fun _ ↦ rfl
  have hall := (hprepare.tagged.mono (fun _ h ↦ hholds h) fun _ _ _ h ↦ h.1).bind
    fun _ middle _ h ↦ hrest h
  simpa only [bind_assoc] using hall

/-! ### Links -/

/-- Whether the hand-off of iterators keeps a program well linked. -/
def HandOff.KeepsLinks (handOff : HandOff) : Prop :=
  ∀ (iterator : FnId) (program : Program), program.WellLinked →
    Ensures (handOff iterator) program Program.WellLinked fun _ _ ↦ True

variable {handOff : HandOff}

theorem Stays.wellLinked {scope : Scope} {program : Program} {pass : Pass α}
    (h : Stays scope program pass) (hlinked : program.WellLinked) :
    Ensures pass program Program.WellLinked fun _ _ ↦ True :=
  h.mono (fun _ hfinal ↦ hfinal.wellLinked hlinked) fun _ _ _ _ ↦ trivial

/-- A lowering that runs a pass is well linked in between if the pass leaves it so. -/
theorem Ensures.loweringLinked {pass : Pass α}
    (h : Ensures pass state.program Program.WellLinked fun _ _ ↦ True) :
    Ensures (liftM pass : Lowering α) state (fun final ↦ final.program.WellLinked)
      fun _ final ↦ final.program.WellLinked :=
  ensures_asLowering.mpr (h.mono (fun _ h ↦ h) fun _ _ hlinked _ ↦ hlinked)

theorem ensures_handOffIterators (hhandOff : handOff.KeepsLinks)
    (hlinked : state.program.WellLinked) :
    Ensures (handOffIterators handOff) state (fun final ↦ final.program.WellLinked)
      fun _ final ↦ final.program.WellLinked := by
  refine ensures_get_bind.mpr ?_
  dsimp only
  refine Ensures.bind (.forM_result (fun h ↦ h) (fun iterator _ {middle} h ↦ ?_) hlinked)
    fun _ _ h _ ↦ .pure h h
  exact Ensures.bind (hhandOff iterator middle.program h).loweringLinked
    fun _ _ _ h ↦ ensures_modify.mpr ⟨h, h⟩

theorem ensures_lowerProgram (hhandOff : handOff.KeepsLinks) (hlinked : state.program.WellLinked) :
    Ensures (lowerProgram handOff) state (fun final ↦ final.program.WellLinked) fun _ _ ↦ True := by
  unfold lowerProgram
  refine ensures_prepare_bind hlinked (fun h ↦ h.program.wellLinked hlinked) fun h ↦ ?_
  have hlinked := h.program.wellLinked hlinked
  refine Ensures.bind ((ensures_lowerRemainingLoops hlinked).tagged.mono
    (fun _ h ↦ h.wellLinked hlinked) fun _ _ _ h ↦ h.1.wellLinked hlinked) fun _ _ _ hlinked ↦ ?_
  refine ensures_get_bind.mpr (ensures_get_bind.mpr ?_)
  refine Ensures.bind (.forM_result (fun h ↦ h) (fun iterator _ {middle} h ↦ ?_) hlinked)
    fun _ _ _ hlinked ↦ ?_
  · exact ((stays_tidyIterator h).wellLinked h).loweringLinked
  refine Ensures.bind (ensures_handOffIterators hhandOff hlinked) fun _ _ _ hlinked ↦ ?_
  refine Ensures.bind ((stays_finishInstances hlinked).wellLinked hlinked).loweringLinked
    fun _ _ _ hlinked ↦ ?_
  exact ensures_get_bind.mpr (.pure hlinked trivial)

/-! ### Loops -/

/-- A state of a lowering in which the loops of the program are the given ones, all of which are
left to the state machines and counted. -/
structure LoweringState.Remains (start : LoweringState) (loops : List StmtId)
    (state : LoweringState) : Prop where
  program : start.program.Remains start.context.recursive loops state.program
  left : state.context.summary.leftForStateMachine = loops.length

variable {start : LoweringState} {loops : List StmtId}

/-- A pass leaves the context of a lowering. -/
theorem Ensures.loweringResult {pass : Pass α} {result : Program → Prop}
    (h : Ensures pass state.program (fun _ ↦ True) fun _ final ↦ result final) :
    Ensures (liftM pass : Lowering α) state (fun _ ↦ True) fun _ final ↦
      result final.program ∧ final.context = state.context :=
  ensures_asLowering.mpr (h.mono (fun _ _ ↦ trivial) fun _ _ _ hfinal ↦ ⟨hfinal, rfl⟩)

/-- A pass that leaves the loops leaves their count. -/
theorem LoweringState.Remains.lowering {pass : Pass α} (h : start.Remains loops state)
    (hpass : Ensures pass state.program (fun _ ↦ True) fun _ final ↦
      start.program.Remains start.context.recursive loops final) :
    Ensures (liftM pass : Lowering α) state (fun _ ↦ True) fun _ final ↦
      start.Remains loops final :=
  hpass.loweringResult.mono (fun _ h ↦ h) fun _ _ _ hfinal ↦ ⟨hfinal.1, hfinal.2 ▸ h.left⟩

/-- Handing iterators off to nothing counts them. -/
theorem ensures_handOffNothing (hvoid : start.program.StartsWithVoid)
    (h : start.Remains loops state) :
    Ensures (handOffIterators fun _ ↦ pure ()) state (fun _ ↦ True) fun _ final ↦
      start.Remains loops final := by
  refine ensures_get_bind.mpr ?_
  dsimp only
  refine Ensures.bind (.forM_result (fun _ ↦ trivial) (fun iterator _ {middle} h ↦ ?_) h)
    fun _ _ _ h ↦ .pure trivial h
  exact Ensures.bind (h.lowering (h.program.stays hvoid (.stay trivial)))
    fun _ _ _ h ↦ ensures_modify.mpr ⟨trivial, h.program, h.left⟩

/-- What the loops that are left are, and how many were counted. -/
theorem ensures_lowerRemaining (hlinked : start.program.WellLinked)
    (hresolved : start.program.Resolved)
    (hrecursive : ∀ function ∈ start.context.recursive, start.program.HasFunction function ∧
      (start.program.function function).isIterator = true)
    (hleft : start.context.summary.leftForStateMachine = 0) :
    Ensures (lowerProgram fun _ ↦ pure ()) start (fun _ ↦ True) fun lowered final ↦
      ∃ loops : List StmtId, loops.Nodup ∧
        (loops ≠ [] → start.context.config.inlineIterators = true) ∧
        start.program.Retains start.context.recursive loops final.program ∧
        lowered.summary.leftForStateMachine = loops.length := by
  have hvoid := hresolved.void
  unfold lowerProgram
  refine ensures_prepare_bind hlinked (fun _ ↦ trivial) fun {middle} h ↦ ?_
  have hmiddle := h.program.wellLinked hlinked
  have hskipping : middle.Skipping start.context [] [] := by
    refine ⟨h.config, h.recursive, hmiddle, h.program.grows.startsWithVoid hvoid,
      fun hmem ↦ (h.program.grows.function (hrecursive _ hmem).1).1, nofun, nofun,
      fun hne ↦ absurd rfl hne, nofun, nofun, .nil, List.nodup_nil, h.left.trans hleft⟩
  refine Ensures.bind (((ensures_lowerRemainingLoops hmiddle).tagged.and
    (ensures_skipRemainingLoops hskipping)).mono (fun _ _ ↦ trivial) fun _ _ _ h ↦ h)
    fun _ settled _ hsettled ↦ ?_
  obtain ⟨⟨hreworks, -⟩, loops, hskipped, hall⟩ := hsettled
  have hremains : start.Remains loops settled :=
    ⟨⟨hskipped.linked, h.program.grows.trans hreworks.grows, hskipped.leftOver, hall⟩,
      hskipped.left⟩
  refine ensures_get_bind.mpr (ensures_get_bind.mpr ?_)
  refine Ensures.bind (.forM_result (fun _ ↦ trivial) (fun iterator _ {middle} h ↦ ?_) hremains)
    fun _ _ _ hremains ↦ ?_
  · exact h.lowering (ensures_tidyRemaining hvoid h.program)
  refine Ensures.bind (ensures_handOffNothing hvoid hremains) fun _ handedOff _ hremains ↦ ?_
  have hfinish := ensures_finishRemaining hresolved hrecursive hremains.program
  refine Ensures.bind hfinish.loweringResult fun _ final _ hfinal ↦ ?_
  refine ensures_get_bind.mpr (.pure trivial ⟨loops, ?_, hskipped.allowed, hfinal.1,
    hfinal.2 ▸ hremains.left⟩)
  simpa using hskipped.nodup

/-! ### The check in front -/

/-- The lowering as a change of a program, with the diagnostics left aside. -/
def lowersTo (config : LoweringConfig) (handOff : HandOff) (queue : DiagnosticQueue) :
    EStateM LoweringError Program Lowered :=
  fun program ↦ (lowerIterators config handOff queue program).1

/-- A lowering changes nothing if the check of the serial iterators stops it, and does what
`lowerProgram` does otherwise. -/
theorem ensures_lowersTo {config : LoweringConfig} {handOff : HandOff}
    {queue : DiagnosticQueue} {program : Program} {holds : Program → Prop}
    {result : Lowered → Program → Prop} (hstopped : holds program)
    (h : Ensures (lowerProgram handOff) { program, context := .ofProgram config program }
      (fun final ↦ holds final.program) fun lowered final ↦ result lowered final.program) :
    Ensures (lowersTo config handOff queue) program holds result := by
  unfold Ensures at h ⊢
  simp only [Runs.run, lowersTo, lowerIterators] at h ⊢
  cases (program.checkSerialIterators queue).1 with
  | some token => exact ⟨hstopped, nofun⟩
  | none =>
    cases hresult : lowerProgram handOff { program, context := .ofProgram config program } with
    | ok lowered final | error _ final =>
      rw [hresult] at h
      exact h

/-- A program is left well linked by the whole lowering, if it is by the hand-off. -/
theorem ensures_lowersToLinked {config : LoweringConfig} {queue : DiagnosticQueue}
    {program : Program} (hhandOff : handOff.KeepsLinks) (hlinked : program.WellLinked) :
    Ensures (lowersTo config handOff queue) program Program.WellLinked fun _ _ ↦ True :=
  ensures_lowersTo hlinked (ensures_lowerProgram hhandOff hlinked)

end IteratorLowering
