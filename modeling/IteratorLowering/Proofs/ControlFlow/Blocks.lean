import IteratorLowering.Proofs.ControlFlow.Splicing

/-!
# Collapsing blocks

`collapsesBlocks` says what is left when the plain blocks of a function have been collapsed: no
plain block stands in another block, nothing else moved, and collapsing once more does nothing. Runs
that gave a result give the same result afterwards, if every symbol that a jump names is placed
once.

A jump may name a variable, and a variable may be declared in a block and after the block. A jump
to it from before the block leads to the second declaration, and to the first one when the braces
are gone (`not_resultsKept_declaredTwice`).
-/

set_option autoImplicit false
set_option relaxedAutoImplicit false

namespace IteratorLowering

variable {program now final : Program} {function : FnId} {id : StmtId}

namespace Program

theorem isCollapsible_iff (hlinked : program.WellLinked) : program.isCollapsible id = true ↔
    (∃ inner, program.kind id = .block none inner) ∧ ∃ owner, id ∈ program.blockBody owner := by
  constructor
  · intro h
    obtain ⟨inner, block, info, before, after, hkind, hblock⟩ :=
      exists_member_of_isCollapsible hlinked h
    refine ⟨⟨inner, hkind⟩, block, ?_⟩
    rw [blockBody, hblock]
    exact List.mem_append_right _ List.mem_cons_self
  · rintro ⟨⟨inner, hkind⟩, owner, hmem⟩
    have hparent := hlinked.parent_of_child (mem_children_of_mem_blockBody hmem)
    have howner : (program.kind owner).isBlock = true := by
      unfold blockBody at hmem
      cases howner : program.kind owner with
      | action | branch => simp [howner] at hmem
      | block => rfl
    unfold isCollapsible blockInfo?
    rw [hkind, hparent, Option.any_some, howner]
    rfl

/-- Collapsing a block does not make another one collapsible, nor does it keep it from being so. -/
theorem Dissolves.isCollapsible_eq (h : now.Dissolves id final) (hlinked : now.WellLinked)
    (hid : (now.kind id).isBlock = true) {other : StmtId} (hother : now.Stands other)
    (hne : other ≠ id) :
    final.isCollapsible other = now.isCollapsible other := by
  obtain ⟨function, hfunction, hstands⟩ := hother
  have hkind := h.withoutBody hstands.has hne
  have habove : (final.parent other).any (fun parent ↦ (final.kind parent).isBlock) =
      (now.parent other).any fun parent ↦ (now.kind parent).isBlock := by
    rw [h.parent_eq hlinked ⟨function, hfunction, hstands⟩ hne]
    by_cases hinside : now.parent other = some id
    · obtain ⟨block, hparent, hblock⟩ := h.exists_parent hlinked
      have hmem := hlinked.child_of_parent hparent
      have hself : block ≠ id := by
        rintro rfl
        exact h.apart hmem
      have hblock' := StmtKind.isBlock_congr (h.withoutBody (has_of_mem_children hmem) hself)
      rw [if_pos hinside, hinside, hparent, Option.any_some, Option.any_some, hblock', hblock, hid]
    · rw [if_neg hinside]
      cases hparent : now.parent other with
      | none => rfl
      | some parent =>
        have hparent' : parent ≠ id := fun heq ↦ hinside (by rw [hparent, heq])
        have hhas := has_of_mem_children (hlinked.child_of_parent hparent)
        exact StmtKind.isBlock_congr (h.withoutBody hhas hparent')
  unfold isCollapsible blockInfo?
  rw [habove, StmtKind.isBlock_congr hkind, StmtKind.blockInfo?_congr hkind]

/-- What collapsing blocks one by one keeps. -/
structure Collapses (program : Program) (function : FnId) (now : Program) : Prop where
  sheds : program.Sheds now
  same : ∀ id ∈ now.functionStmts function, now.isCollapsible id = program.isCollapsible id
  runs : program.CallsKnown → program.PlacesOnce program.IsTarget → program.ResultsKept now

namespace Collapses

variable (h : program.Collapses function now)

include h

variable (hfunction : program.HasFunction function) (hcollapsible : now.isCollapsible id = true)
variable (hdissolves : now.Dissolves id final)

include hfunction hcollapsible hdissolves

theorem isCollapsible_eq {other : StmtId} (hother : other ∈ now.functionStmts function)
    (hne : other ≠ id) : final.isCollapsible other = now.isCollapsible other := by
  obtain ⟨hlinked, hfunction'⟩ := h.sheds.fits hfunction
  have hstands := (hlinked.mem_functionStmts_iff hfunction').mp hother
  have hblock := (Bool.and_eq_true_iff.mp (Bool.and_eq_true_iff.mp hcollapsible).1).1
  exact hdissolves.isCollapsible_eq hlinked hblock ⟨function, hfunction', hstands⟩ hne

theorem dissolve (hlinked : program.WellLinked) (hid : id ∈ now.functionStmts function) :
    program.Collapses function final where
  sheds := h.sheds.dissolve hdissolves
  same other hother := by
    obtain ⟨hmem, hne⟩ :=
      (hdissolves.mem_functionStmts_iff h.sheds.linked (h.sheds.fits hfunction).2).mp hother
    exact (h.isCollapsible_eq hfunction hcollapsible hdissolves hmem hne).trans (h.same other hmem)
  runs hcalls honce := by
    have hstands := (h.sheds.linked.mem_functionStmts_iff (h.sheds.fits hfunction).2).mp hid
    obtain ⟨⟨inner, hkind⟩, -⟩ := (isCollapsible_iff h.sheds.linked).mp hcollapsible
    have hstraightens := hdissolves.straightens_block h.sheds.linked
      (h.sheds.callsKnown hlinked hcalls) hkind ⟨function, (h.sheds.fits hfunction).2, hstands⟩
      (h.sheds.placesOnce hlinked (fun htarget ↦ h.sheds.isTarget hlinked htarget) honce)
    exact (h.runs hcalls honce).trans hstraightens.resultsKept fun owner howner ↦
      (h.sheds.hasFunction owner).mpr howner

end Collapses

end Program

/-- Collapsing the blocks of a function takes out the collapsible blocks and nothing else. -/
theorem ensures_collapseBlocks (hlinked : program.WellLinked)
    (hfunction : program.HasFunction function) :
    Ensures (collapseBlocks function) program (fun _ ↦ True) fun count final ↦
      count = ((program.functionStmts function).filter program.isCollapsible).length ∧
        program.Collapses function final ∧ final.functionStmts function =
          (program.functionStmts function).filter fun id ↦ !program.isCollapsible id := by
  unfold collapseBlocks
  refine ensures_get_bind.mpr ?_
  have hstart : program.Collapses function program :=
    ⟨.refl hlinked, fun _ _ ↦ rfl, fun _ _ ↦ .refl program⟩
  refine (ensures_dissolveAll Program.isCollapsible (fun h ↦ h.sheds.fits hfunction)
    (fun h hid ↦ ensures_collapseBlock_dissolves h.sheds.linked
      ((h.sheds.linked.mem_functionStmts_iff (h.sheds.fits hfunction).2).mp hid))
    (fun h hid hcollapsible _ hdissolves ↦ h.dissolve hfunction hcollapsible hdissolves hlinked hid)
    (List.pairwise_of_forall fun _ _ _ _ h hdissolves hcollapsible ↦
      h.isCollapsible_eq hfunction hcollapsible hdissolves) hstart
    (List.reverse_perm _)).mono (fun _ h ↦ h) fun count final _ h ↦ ?_
  exact ⟨h.1.trans (Nat.zero_add _), h.2⟩

/-- Where no block can be collapsed, nothing happens. -/
theorem collapseBlocks_of_forall
    (h : ∀ id ∈ program.functionStmts function, program.isCollapsible id = false) :
    collapseBlocks function program = .ok 0 program := by
  have hfold (ids : List StmtId) (hids : ∀ id ∈ ids, program.isCollapsible id = false) :
      ids.foldlM collapseBlock 0 program = .ok 0 program := by
    induction ids with
    | nil => rfl
    | cons id rest ih =>
      obtain ⟨hid, hrest⟩ := List.forall_mem_cons.mp hids
      have hstep : collapseBlock 0 id program = .ok 0 program := by
        change (if program.isCollapsible id then _ else _ : Pass Nat) program = _
        rw [if_neg (by simp [hid])]
        rfl
      rw [List.foldlM_cons]
      change EStateM.bind _ _ program = _
      unfold EStateM.bind
      rw [hstep]
      exact ih hrest
  exact hfold _ fun id hid ↦ h id (List.mem_reverse.mp hid)

theorem collapsesBlocks (hlinked : program.WellLinked) (hfunction : program.HasFunction function)
    {count : Nat} (hrun : collapseBlocks function program = .ok count final) :
    (∀ owner ∈ final.functionStmts function, ∀ id ∈ final.blockBody owner, ∀ inner,
      final.kind id ≠ .block none inner) ∧
    count = ((program.functionStmts function).filter program.isCollapsible).length ∧
    final.functionStmts function =
      (program.functionStmts function).filter (fun id ↦ !program.isCollapsible id) ∧
    (∀ id ∈ final.functionStmts function,
      (final.kind id).withoutBody = (program.kind id).withoutBody) ∧
    collapseBlocks function final = .ok 0 final ∧
    (program.CallsKnown → program.PlacesOnce program.IsTarget → program.ResultsKept final) := by
  obtain ⟨-, hcount, hcollapses, hstmts⟩ :=
    (ensures_collapseBlocks hlinked hfunction).of_eq_ok hrun
  have hfunction' : final.HasFunction function := (hcollapses.sheds.fits hfunction).2
  have hnone : ∀ id ∈ final.functionStmts function, final.isCollapsible id = false := by
    intro id hid
    have hkept := hid
    rw [hstmts, List.mem_filter] at hkept
    rw [hcollapses.same id hid]
    simpa using hkept.2
  refine ⟨fun owner howner id hid inner hkind ↦ ?_, hcount, hstmts, fun id hid ↦ ?_,
    collapseBlocks_of_forall hnone, hcollapses.runs⟩
  · have hroot := (hcollapses.sheds.linked.mem_functionStmts_iff hfunction').mp howner
    have hchild := Program.mem_children_of_mem_blockBody hid
    have hstands := hroot.inside (.single (hcollapses.sheds.linked.parent_of_child hchild))
    have hmem := (hcollapses.sheds.linked.mem_functionStmts_iff hfunction').mpr hstands
    have hcollapsible := (Program.isCollapsible_iff hcollapses.sheds.linked).mpr
      ⟨⟨inner, hkind⟩, owner, hid⟩
    rw [hnone id hmem] at hcollapsible
    cases hcollapsible
  · exact hcollapses.sheds.withoutBody ⟨function, hfunction',
      (hcollapses.sheds.linked.mem_functionStmts_iff hfunction').mp hid⟩

/-- A jump out of nested blocks over a failure. -/
def jumpOutOfBlocks : Program where
  types := builtinTypes
  symbols := #[{ name := "done", kind := .label, type := .void, owner := some ⟨0⟩ }]
  statements := #[
    { kind := .plain [⟨1⟩, ⟨5⟩, ⟨6⟩], bodyOf := some ⟨0⟩, span := .none },
    { kind := .plain [⟨2⟩, ⟨4⟩], parent := some ⟨0⟩, span := .none },
    { kind := .plain [⟨3⟩], parent := some ⟨1⟩, span := .none },
    { kind := .action (.goto ⟨0⟩), parent := some ⟨2⟩, span := .none },
    { kind := .action (.fail "skipped"), parent := some ⟨1⟩, span := .none },
    { kind := .action (.define ⟨0⟩), parent := some ⟨0⟩, span := .none },
    { kind := .action (.ret (.int 7)), parent := some ⟨0⟩, span := .none }]
  functions := #[{ name := "main", retType := .int, body := ⟨0⟩ }]

theorem collapsesBlocks_jumpOutOfBlocks :
    jumpOutOfBlocks.WellLinked ∧ jumpOutOfBlocks.HasFunction ⟨0⟩ ∧ jumpOutOfBlocks.CallsKnown ∧
      jumpOutOfBlocks.PlacesOnce jumpOutOfBlocks.IsTarget ∧
      ∃ final, collapseBlocks ⟨0⟩ jumpOutOfBlocks = .ok 2 final ∧
        final.functionStmts ⟨0⟩ = [⟨0⟩, ⟨3⟩, ⟨4⟩, ⟨5⟩, ⟨6⟩] ∧
          jumpOutOfBlocks.ResultsKept final := by
  have hlinked : jumpOutOfBlocks.WellLinked := by decide
  have hfunction : jumpOutOfBlocks.HasFunction ⟨0⟩ := Nat.zero_lt_one
  have hcalls : jumpOutOfBlocks.CallsKnown :=
    Program.callsKnown_of_forall (by decide) (by decide) (by decide)
  have honce : jumpOutOfBlocks.PlacesOnce jumpOutOfBlocks.IsTarget :=
    Program.placesOnce_of_forall (by decide)
  obtain ⟨final, hrun⟩ : ∃ final, collapseBlocks ⟨0⟩ jumpOutOfBlocks = .ok 2 final := ⟨_, rfl⟩
  obtain ⟨-, -, hstmts, -, -, hkept⟩ := collapsesBlocks hlinked hfunction hrun
  exact ⟨hlinked, hfunction, hcalls, honce, final, hrun, hstmts.trans (by decide),
    hkept hcalls honce⟩

/-- A jump to a variable that is declared in a block and after it. -/
def declaredTwice : Program where
  types := builtinTypes
  symbols := #[{ name := "x", kind := .var, type := .int, owner := some ⟨0⟩ }]
  statements := #[
    { kind := .plain [⟨1⟩, ⟨2⟩, ⟨5⟩], bodyOf := some ⟨0⟩, span := .none },
    { kind := .action (.goto ⟨0⟩), parent := some ⟨0⟩, span := .none },
    { kind := .plain [⟨3⟩, ⟨4⟩], parent := some ⟨0⟩, span := .none },
    { kind := .action (.define ⟨0⟩), parent := some ⟨2⟩, span := .none },
    { kind := .action (.fail "skipped"), parent := some ⟨2⟩, span := .none },
    { kind := .action (.define ⟨0⟩), parent := some ⟨0⟩, span := .none }]
  functions := #[{ name := "main", retType := .void, body := ⟨0⟩ }]

theorem not_resultsKept_declaredTwice :
    declaredTwice.WellLinked ∧ declaredTwice.HasFunction ⟨0⟩ ∧ declaredTwice.CallsKnown ∧
      declaredTwice.PlacesOnce declaredTwice.IsLabel ∧
      ∃ final, collapseBlocks ⟨0⟩ declaredTwice = .ok 1 final ∧
        ¬ declaredTwice.ResultsKept final := by
  have hnone (symbol : SymId) : ¬ declaredTwice.IsLabel symbol := by
    rcases symbol with ⟨_ | index⟩ <;> exact nofun
  refine ⟨by decide, Nat.zero_lt_one,
    Program.callsKnown_of_forall (by decide) (by decide) (by decide),
    fun hlabel ↦ absurd hlabel (hnone _), _, rfl, fun hkept ↦ ?_⟩
  obtain ⟨last', hrun, -⟩ := hkept ⟨0⟩ Nat.zero_lt_one [] nofun { maxSteps := 9 } .void _ rfl
  cases hrun

end IteratorLowering
