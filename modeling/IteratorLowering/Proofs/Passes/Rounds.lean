import IteratorLowering.Proofs.Passes.Expanding

/-!
# Rounds

A round gathers the for-loops that stand in functions (`WellLinked.mem_forLoops_iff`) and lowers
them in the order of the program, in which no loop comes before one that it is nested in
(`WellLinked.pairwise_forLoops`). What holds after any number of rounds is what every step keeps:
`ensures_lowerGathered` follows a property of the loops that were passed over, the loops that are
still to come, and the state, and `ensures_lowerRounds` follows it from round to round.
-/

set_option autoImplicit false
set_option relaxedAutoImplicit false

namespace IteratorLowering

namespace Program

variable {program : Program} {id : StmtId}

namespace WellLinked

theorem mem_forLoops_iff (h : program.WellLinked) :
    id ∈ program.forLoops ↔
      (∃ function, program.StandsIn function id) ∧ (program.kind id).isForLoop = true := by
  unfold forLoops
  simp only [List.mem_filter, List.mem_flatMap, mem_functionIds]
  refine and_congr_left fun _ ↦ ⟨?_, fun ⟨function, hid⟩ ↦ ?_⟩
  · rintro ⟨function, hfunction, hid⟩
    exact ⟨function, (h.mem_functionStmts_iff hfunction).mp hid⟩
  · have hfunction := h.hasFunction_of_standsIn hid
    exact ⟨function, hfunction, (h.mem_functionStmts_iff hfunction).mpr hid⟩

/-- A loop is nested in none of the loops that come after it, and is none of them. -/
theorem pairwise_forLoops (h : program.WellLinked) :
    program.forLoops.Pairwise fun first second ↦ ¬ program.Under first second := by
  refine List.Pairwise.filter _ (List.pairwise_flatMap.mpr ⟨fun function hfunction ↦ ?_, ?_⟩)
  · exact h.pairwise_functionStmts (mem_functionIds.mp hfunction)
  · -- A statement that stands in one function is nested in nothing that stands in another.
    refine List.Pairwise.imp_of_mem ?_ program.nodup_functionIds
    intro first second hfirst hsecond hne one hone other hother hunder
    have hone := (h.mem_functionStmts_iff (mem_functionIds.mp hfirst)).mp hone
    have hother := (h.mem_functionStmts_iff (mem_functionIds.mp hsecond)).mp hother
    exact hne (h.standsIn_unique hone (hother.inside hunder))

theorem nodup_forLoops (h : program.WellLinked) : program.forLoops.Nodup := by
  refine h.pairwise_forLoops.imp ?_
  rintro first _ hunder rfl
  exact hunder .refl

theorem isPending_iff (h : program.WellLinked) :
    program.isPending id = true ↔
      (∃ function, program.StandsIn function id) ∧ (program.kind id).isForLoop = true := by
  simp only [isPending, Bool.and_eq_true, Option.isSome_iff_exists, h.enclosingFunction?_eq_some]

end WellLinked

end Program

/-! ### What every step keeps -/

section

variable {lower : StmtId → Lowering Strategy} {gather : Program → List StmtId}
variable {holds : LoweringState → Prop} {keeps : List StmtId → List StmtId → LoweringState → Prop}
variable {skipped rest : List StmtId} {state : LoweringState}

/-- What passing over a loop and lowering a loop keep, a round keeps. -/
theorem ensures_lowerGathered
    (hholds : ∀ {skipped rest state}, keeps skipped rest state → holds state)
    (hpass : ∀ {block rest skipped state}, keeps skipped (block :: rest) state →
      state.program.isPending block = false → keeps skipped rest state)
    (hlower : ∀ {block rest skipped state}, keeps skipped (block :: rest) state →
      state.program.isPending block = true → Ensures (lower block) state holds fun strategy final ↦
        keeps (if strategy = .skip then block :: skipped else skipped) rest final)
    (hkeeps : keeps skipped rest state) :
    Ensures (lowerGathered lower skipped rest) state holds fun skipped final ↦
      keeps skipped [] final := by
  induction rest generalizing skipped state with
  | nil => exact .pure (hholds hkeeps) hkeeps
  | cons block rest ih =>
    unfold lowerGathered
    refine ensures_get_bind.mpr ?_
    split
    · rename_i hpending
      refine (hlower hkeeps hpending).bind fun strategy final _ hfinal ↦ ?_
      cases strategy <;> exact ih hfinal
    · rename_i hpending
      exact ih (hpass hkeeps (by simpa using hpending))

/-- What gathering loops and a round keep, all rounds keep, and the last one has nothing to
gather. -/
theorem ensures_lowerRounds {rounds : Nat}
    (hholds : ∀ {skipped rest state}, keeps skipped rest state → holds state)
    (hgather : ∀ {skipped state}, keeps skipped [] state →
      keeps skipped ((gather state.program).filter fun block ↦ !skipped.contains block) state)
    (hround : ∀ {skipped rest state}, keeps skipped rest state →
      Ensures (lowerGathered lower skipped rest) state holds fun skipped final ↦
        keeps skipped [] final)
    (hkeeps : keeps skipped [] state) :
    Ensures (lowerRounds gather lower rounds skipped) state holds fun _ final ↦
      ∃ skipped, keeps skipped [] final ∧ gather final.program ⊆ skipped := by
  induction rounds generalizing skipped state with
  | zero => exact ensures_get_bind.mpr (ensures_throw.mpr (hholds hkeeps))
  | succ rounds ih =>
    unfold lowerRounds
    refine ensures_get_bind.mpr ?_
    dsimp only
    split
    · rename_i hempty
      refine .pure (hholds hkeeps) ⟨skipped, hkeeps, fun block hblock ↦ ?_⟩
      by_contra hnew
      have hmem : block ∈ (gather state.program).filter fun block ↦ !skipped.contains block :=
        List.mem_filter.mpr ⟨hblock, by simpa using hnew⟩
      rw [List.isEmpty_iff.mp hempty] at hmem
      cases hmem
    · exact (hround (hgather hkeeps)).bind fun skipped final _ hfinal ↦ ih hfinal

/-- What lowering a loop keeps, all rounds keep. -/
theorem ensures_lowerRounds_of_lower {rounds : Nat}
    (hlower : ∀ {block state}, holds state → Ensures (lower block) state holds fun _ _ ↦ True)
    (hstate : holds state) :
    Ensures (lowerRounds gather lower rounds skipped) state holds fun _ _ ↦ True := by
  have hround : ∀ {skipped rest state}, holds state →
      Ensures (lowerGathered lower skipped rest) state holds fun _ final ↦ holds final :=
    @fun skipped rest state hstate ↦ @ensures_lowerGathered lower holds (fun _ _ ↦ holds) skipped
      rest state (fun h ↦ h) (fun h _ ↦ h)
      (fun h _ ↦ (hlower h).tagged.mono (fun _ h ↦ h) fun _ _ _ h ↦ h.1) hstate
  have hrounds := @ensures_lowerRounds lower gather holds (fun _ _ ↦ holds) skipped state rounds
    (fun h ↦ h) (fun h ↦ h) hround hstate
  exact hrounds.mono (fun _ h ↦ h) fun _ _ _ _ ↦ trivial

end

/-! ### The two phases -/

theorem ensures_lowerMarkedLoop {block : StmtId} {state : LoweringState}
    (hlinked : state.program.WellLinked) :
    Ensures (lowerMarkedLoop block) state (state.Reworks Scope.everything.rooted)
      fun _ _ ↦ True := by
  refine Ensures.seq (ensures_expandLoop hlinked) fun strategy middle _ _ ↦ ?_
  dsimp only
  split
  · rename_i hskip
    refine Ensures.seq (ensures_count fun summary ↦ ?_) fun _ _ _ _ ↦ .stay trivial
    rw [Summary.leftForStateMachine_add, if_neg (by simpa using hskip), Nat.add_zero]
  · exact .stay trivial

theorem ensures_inlineMarkedLoops {state : LoweringState} (hlinked : state.program.WellLinked) :
    Ensures inlineMarkedLoops state (state.Reworks Scope.everything.rooted) fun _ _ ↦ True := by
  refine ensures_get_bind.mpr (ensures_lowerRounds_of_lower (fun h ↦ ?_) (.refl _ state))
  exact .after h (ensures_lowerMarkedLoop (h.program.wellLinked hlinked))

theorem ensures_lowerRemainingLoops {state : LoweringState} (hlinked : state.program.WellLinked) :
    Ensures lowerRemainingLoops state
      (fun final ↦ state.program.Reworks Scope.everything.rooted final.program)
      fun _ _ ↦ True := by
  refine ensures_get_bind.mpr (ensures_lowerRounds_of_lower (fun h ↦ ?_) (.refl _ _))
  exact (ensures_lowerLoop (h.wellLinked hlinked)).mono (fun _ hfinal ↦ h.trans hfinal)
    fun _ _ _ _ ↦ trivial

end IteratorLowering
