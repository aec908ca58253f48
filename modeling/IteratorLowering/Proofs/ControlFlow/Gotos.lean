import IteratorLowering.Proofs.ControlFlow.Splicing

/-!
# Removing jumps to the next statement

`removesGotos` says what is left when the jumps of a function to the next statement and the labels
without a jump have been removed: every label has a jump, every jump has the label that it had, and
nothing else went. Runs that gave a result give the same result afterwards, if labels are placed
once and no jump to the next statement names a variable.

A jump over a declaration that is the next statement keeps the value of the variable, and the
declaration resets it when the jump is gone (`not_resultsKept_jumpOverDeclaration`).

Whether a jump leads to the next statement may change when the next statement goes. Jumps are looked
at in preorder, so what changes was looked at before (`WellLinked.sublist_children`).
-/

set_option autoImplicit false
set_option relaxedAutoImplicit false

namespace IteratorLowering

variable {program now final : Program} {function : FnId} {id owner : StmtId} {label : SymId}

/-! ### The order of siblings -/

theorem getElem?_length_succ {α : Type} {before after : List α} {middle : α} :
    (before ++ middle :: after)[before.length + 1]? = after.head? := by
  rw [List.getElem?_append_right (Nat.le_succ _), Nat.succ_sub (Nat.le_refl _), Nat.sub_self,
    List.getElem?_cons_succ, List.head?_eq_getElem?]

namespace Program

theorem Unfolds.sublist_of_roots {roots ids : List StmtId} (h : program.Unfolds roots ids) :
    roots.Sublist ids := by
  induction h with
  | nil => exact .refl _
  | cons _ _ _ ih => exact .cons_cons _ (ih.trans (List.sublist_append_right ..))

namespace WellLinked

variable (hlinked : program.WellLinked)

include hlinked

/-- Siblings come in their order in the preorder of a function. -/
theorem sublist_children (hfunction : program.HasFunction function)
    (howner : owner ∈ program.functionStmts function) :
    (program.kind owner).children.Sublist (program.functionStmts function) := by
  obtain ⟨hunfolds, -⟩ := hlinked.unfolds_functionStmts hfunction
  obtain ⟨below, hbelow, hsublist⟩ := hunfolds.exists_below howner
  obtain ⟨inside, hinside, rfl⟩ := hbelow.of_singleton
  exact (hinside.sublist_of_roots.trans (List.sublist_cons_self ..)).trans hsublist

theorem nextSibling?_eq {before after : List StmtId}
    (hbody : program.blockBody owner = before ++ id :: after) :
    program.nextSibling? id = after.head? := by
  have hmem : id ∈ program.blockBody owner := by simp [hbody]
  have hnot : id ∉ before := by
    have hnodup := hlinked.nodup_blockBody owner
    rw [hbody] at hnodup
    exact fun hbefore ↦ (List.disjoint_of_nodup_append hnodup) hbefore List.mem_cons_self
  have hindex : (before ++ id :: after).idxOf? id = some before.length := by
    refine List.findIdx?_eq_some_iff_getElem.mpr ⟨by simp, by simp, fun position hlt ↦ ?_⟩
    rw [List.getElem_append_left hlt, beq_iff_eq]
    exact fun heq ↦ hnot (heq ▸ List.getElem_mem hlt)
  have hposition : program.positionInParent id = .ok (owner, before.length) := by
    have hparent := hlinked.parent_of_child (mem_children_of_mem_blockBody hmem)
    unfold positionInParent
    unfold blockBody at hbody
    cases hkind : program.kind owner with
    | action | branch => simp [hkind] at hbody
    | block info body =>
      simp only [hkind] at hbody
      simp only [hparent, hkind, hbody, hindex]
  unfold nextSibling?
  simp only [hposition, hbody, getElem?_length_succ]

omit hlinked in
theorem exists_of_nextSibling? {next : StmtId} (h : program.nextSibling? id = some next) :
    ∃ owner before after, program.blockBody owner = before ++ id :: next :: after := by
  unfold nextSibling? at h
  split at h
  · rename_i parent position hposition
    obtain ⟨info, before, after, hkind, rfl, -⟩ := exists_of_positionInParent hposition
    have hbody : program.blockBody parent = before ++ id :: after := by rw [blockBody, hkind]
    rw [hbody, getElem?_length_succ] at h
    obtain ⟨rest, rfl⟩ := List.head?_eq_some_iff.mp h
    exact ⟨parent, before, rest, hbody⟩
  · cases h

end WellLinked

/-- What a member stands in stands in the same function. -/
theorem WellLinked.stands_owner (hlinked : program.WellLinked) (hid : program.Stands id)
    (hmem : id ∈ program.blockBody owner) : program.Stands owner := by
  obtain ⟨function, hfunction, hstands⟩ := hid
  have hparent := hlinked.parent_of_child (mem_children_of_mem_blockBody hmem)
  exact ⟨function, hfunction, hstands.under (.single hparent) hlinked⟩

theorem WellLinked.sublist_of_nextSibling? (hlinked : program.WellLinked)
    (hfunction : program.HasFunction function) (hid : id ∈ program.functionStmts function)
    {next : StmtId} (hnext : program.nextSibling? id = some next) :
    [id, next].Sublist (program.functionStmts function) := by
  obtain ⟨owner, before, after, hbody⟩ := WellLinked.exists_of_nextSibling? hnext
  have hmem : id ∈ program.blockBody owner := by simp [hbody]
  have hparent := hlinked.parent_of_child (mem_children_of_mem_blockBody hmem)
  have howner : owner ∈ program.functionStmts function := by
    rw [hlinked.mem_functionStmts_iff hfunction] at hid ⊢
    exact hid.under (.single hparent) hlinked
  have hchildren : (program.kind owner).children = before ++ id :: next :: after := by
    unfold blockBody at hbody
    cases hkind : program.kind owner with
    | action | branch => simp [hkind] at hbody
    | block info body => rwa [hkind] at hbody
  have hpair : [id, next].Sublist (before ++ id :: next :: after) :=
    (((List.nil_sublist after).cons_cons next).cons_cons id).trans (List.sublist_append_right ..)
  exact hpair.trans (hchildren ▸ hlinked.sublist_children hfunction howner)

/-! ### Jumps to the next statement -/

/-- A jump to the next statement, in its list. -/
theorem exists_of_isFallThrough (h : program.isFallThrough id = true) :
    ∃ label next, program.kind id = .action (.goto label) ∧ program.nextSibling? id = some next ∧
      program.kind next = .action (.define label) := by
  unfold isFallThrough at h
  split at h
  · rename_i label hjump
    obtain ⟨next, hnext, hplaced⟩ := (Option.any_eq_true _ _).mp h
    exact ⟨label, next, StmtKind.gotoTarget?_eq_some_iff.mp hjump, hnext,
      StmtKind.defined?_eq_some_iff.mp (beq_iff_eq.mp hplaced)⟩
  · cases h

theorem isIdleLabel_iff {targets : List SymId} : program.isIdleLabel targets id = true ↔
    ∃ label, program.kind id = .action (.define label) ∧ program.IsLabel label ∧
      label ∉ targets := by
  unfold isIdleLabel
  constructor
  · intro h
    split at h
    · rename_i label hplaced
      obtain ⟨hlabel, hidle⟩ := Bool.and_eq_true_iff.mp h
      exact ⟨label, StmtKind.defined?_eq_some_iff.mp hplaced, hlabel, by simpa using hidle⟩
    · cases h
  · rintro ⟨label, hkind, hlabel, hidle⟩
    rw [IsLabel] at hlabel
    simp [hkind, StmtKind.defined?, hlabel, hidle]

namespace Dissolves

variable (h : now.Dissolves id final) (hlinked : now.WellLinked)
variable (hleaf : (now.kind id).children = []) {other : StmtId} (hother : now.Stands other)
variable (hne : other ≠ id) (hnext : now.nextSibling? other ≠ some id)

include h hlinked hleaf hother hne hnext

/-- Taking out a statement without children changes what comes next for the statement before it
only. -/
theorem nextSibling?_eq : final.nextSibling? other = now.nextSibling? other := by
  have hlist {owner : StmtId} (howner : final.Stands owner) :
      final.blockBody owner = (now.blockBody owner).filter (· != id) := by
    obtain ⟨⟨_, -, hstands⟩, howner⟩ := (h.stands_iff hlinked).mp howner
    rw [h.blockBody_eq hstands.has howner, hleaf, dissolveIn_nil]
  by_cases hmember : ∃ owner, other ∈ now.blockBody owner
  · obtain ⟨owner, hmem⟩ := hmember
    have howner : owner ≠ id := by
      rintro rfl
      have hchild := mem_children_of_mem_blockBody hmem
      rw [hleaf] at hchild
      cases hchild
    have hfinal := hlist ((h.stands_iff hlinked).mpr ⟨hlinked.stands_owner hother hmem, howner⟩)
    obtain ⟨before, after, hbody⟩ := List.append_of_mem hmem
    rw [hbody, List.filter_append, List.filter_cons_of_pos (by simpa using hne)] at hfinal
    rw [hlinked.nextSibling?_eq hbody] at hnext
    rw [h.linked.nextSibling?_eq hfinal, hlinked.nextSibling?_eq hbody]
    cases after with
    | nil => rfl
    | cons first rest =>
      have hfirst : first ≠ id := fun heq ↦ hnext (congrArg some heq)
      rw [List.filter_cons_of_pos (by simpa using hfirst)]
      rfl
  · have hnow : now.nextSibling? other = none := by
      refine Option.eq_none_iff_forall_ne_some.mpr fun next hsome ↦ hmember ?_
      obtain ⟨owner, before, after, hbody⟩ := WellLinked.exists_of_nextSibling? hsome
      exact ⟨owner, by simp [hbody]⟩
    rw [hnow]
    refine Option.eq_none_iff_forall_ne_some.mpr fun next hsome ↦ hmember ?_
    obtain ⟨owner, before, after, hbody⟩ := WellLinked.exists_of_nextSibling? hsome
    have hmem : other ∈ final.blockBody owner := by simp [hbody]
    have howner := h.linked.stands_owner ((h.stands_iff hlinked).mpr ⟨hother, hne⟩) hmem
    rw [hlist howner] at hmem
    exact ⟨owner, (List.mem_filter.mp hmem).1⟩

theorem isFallThrough_eq : final.isFallThrough other = now.isFallThrough other := by
  have hfinal := (h.stands_iff hlinked).mpr ⟨hother, hne⟩
  have hjump := StmtKind.gotoTarget?_congr (h.withoutBody_of_stands hlinked hfinal)
  have hsibling := h.nextSibling?_eq hlinked hleaf hother hne hnext
  unfold isFallThrough
  rw [hjump, hsibling]
  cases hfound : now.nextSibling? other with
  | none => rfl
  | some next =>
    rw [hfound] at hsibling
    obtain ⟨owner, before, after, hbody⟩ := WellLinked.exists_of_nextSibling? hsibling
    have howner := h.linked.stands_owner hfinal (by simp [hbody] : other ∈ final.blockBody owner)
    have hstands : final.Stands next :=
      h.linked.stands_child howner (mem_children_of_mem_blockBody (by simp [hbody]))
    simp only [Option.any_some, h.defined?_eq hlinked hstands]

end Dissolves

/-! ### What is kept -/

/-- The labels that jumps of a function name which do not lead to the next statement. -/
def lastingTargets (program : Program) (function : FnId) : List SymId :=
  ((program.functionStmts function).filter fun id ↦ !program.isFallThrough id).filterMap fun id ↦
    (program.kind id).gotoTarget?

theorem mem_lastingTargets_iff : label ∈ program.lastingTargets function ↔
    ∃ jump ∈ program.functionStmts function, program.isFallThrough jump = false ∧
      program.kind jump = .action (.goto label) := by
  simp [lastingTargets, StmtKind.gotoTarget?_eq_some_iff, and_assoc]

theorem isIdleLabel_of_goto {targets : List SymId} (h : program.kind id = .action (.goto label)) :
    program.isIdleLabel targets id = false := by
  simp [isIdleLabel, h, StmtKind.defined?]

theorem isFallThrough_of_define (h : program.kind id = .action (.define label)) :
    program.isFallThrough id = false := by
  simp [isFallThrough, h, StmtKind.gotoTarget?]

theorem isIdleLabel_of_mem {targets : List SymId} (h : program.kind id = .action (.define label))
    (hmem : label ∈ targets) : program.isIdleLabel targets id = false := by
  simp [isIdleLabel, h, StmtKind.defined?, hmem]

/-- No jump of the function to the next statement names a variable. -/
def FallsToLabels (program : Program) (function : FnId) : Prop :=
  ∀ id ∈ program.functionStmts function, program.isFallThrough id = true →
    ∀ label ∈ (program.kind id).gotoTarget?, program.IsLabel label

instance (program : Program) (symbol : SymId) : Decidable (program.IsLabel symbol) :=
  inferInstanceAs (Decidable (_ = _))

instance (program : Program) (function : FnId) : Decidable (program.FallsToLabels function) :=
  inferInstanceAs (Decidable (∀ id ∈ _, _))

/-- What taking out jumps and labels one by one keeps. -/
structure Clears (program : Program) (function : FnId) (now : Program) : Prop where
  sheds : program.Sheds now
  runs : program.CallsKnown → program.PlacesOnce program.IsLabel →
    program.FallsToLabels function → program.ResultsKept now

namespace Clears

variable (h : program.Clears function now)

include h

variable (hlinked : program.WellLinked) (hfunction : program.HasFunction function)
variable (hdissolves : now.Dissolves id final)

include hlinked hdissolves

theorem dissolve (hstraightens : now.CallsKnown → now.PlacesOnce now.IsLabel →
    program.FallsToLabels function → now.Straightens final) : program.Clears function final where
  sheds := h.sheds.dissolve hdissolves
  runs hcalls honce hfalls := by
    have hlabels {symbol : SymId} (hsymbol : now.IsLabel symbol) : program.IsLabel symbol := by
      rwa [IsLabel, h.sheds.symbol] at hsymbol
    exact (h.runs hcalls honce hfalls).trans (hstraightens (h.sheds.callsKnown hlinked hcalls)
      (h.sheds.placesOnce hlinked hlabels honce) hfalls).resultsKept fun owner howner ↦
        (h.sheds.hasFunction owner).mpr howner

include hfunction

theorem dissolve_jump (hid : id ∈ now.functionStmts function) (hjump : now.isFallThrough id = true)
    (hsame : now.isFallThrough id = program.isFallThrough id) : program.Clears function final := by
  refine h.dissolve hlinked hdissolves fun hcalls honce hfalls ↦ ?_
  obtain ⟨label, next, hkind, hnext, hdefine⟩ := exists_of_isFallThrough hjump
  have hstands : now.Stands id := ⟨function, (h.sheds.fits hfunction).2,
    (h.sheds.linked.mem_functionStmts_iff (h.sheds.fits hfunction).2).mp hid⟩
  have hlabel : now.IsLabel label := by
    rw [IsLabel, h.sheds.symbol]
    refine hfalls id ((h.sheds.order function hfunction).subset hid) (hsame ▸ hjump) label ?_
    rw [← StmtKind.gotoTarget?_congr (h.sheds.withoutBody hstands), hkind]
    rfl
  refine hdissolves.straightens_jump h.sheds.linked hcalls hkind hlabel
    fun block before after hsplit ↦ ?_
  rw [h.sheds.linked.nextSibling?_eq hsplit] at hnext
  obtain ⟨rest, rfl⟩ := List.head?_eq_some_iff.mp hnext
  refine ⟨fun other hother hplaced ↦ ?_, next, rest, rfl, hdefine⟩
  -- The label is placed once, so it is not placed before the jump as well.
  have hblock := h.sheds.linked.stands_owner hstands (by simp [hsplit] : id ∈ now.blockBody block)
  have hmembers : ∀ member ∈ now.blockBody block, now.Stands member := fun member hmember ↦
    h.sheds.linked.stands_child hblock (mem_children_of_mem_blockBody hmember)
  obtain rfl := honce hlabel (hmembers other (by simp [hsplit, hother]))
    (hmembers next (by simp [hsplit])) hplaced (by rw [hdefine]; rfl)
  have hnodup := h.sheds.linked.nodup_blockBody block
  rw [hsplit] at hnodup
  exact List.disjoint_of_nodup_append hnodup hother (by simp)

theorem dissolve_label {targets : List SymId} (hid : id ∈ now.functionStmts function)
    (hidle : now.isIdleLabel targets id = true)
    (htargets : ∀ jump ∈ now.functionStmts function, ∀ label ∈ (now.kind jump).gotoTarget?,
      label ∈ targets) : program.Clears function final := by
  refine h.dissolve hlinked hdissolves fun hcalls honce _ ↦ ?_
  obtain ⟨label, hkind, hlabel, hnot⟩ := isIdleLabel_iff.mp hidle
  refine hdissolves.straightens_label h.sheds.linked hcalls hkind hlabel ?_
  -- A jump that arrives at the label stands in the function that the label stands in.
  rintro ⟨jump, hjump, hgoto, above, around, habove, hunder, other, hother, hplaced⟩
  obtain ⟨hlinked', hfunction'⟩ := h.sheds.fits hfunction
  obtain ⟨⟨owner, howner, hstands⟩, -⟩ := (hdissolves.stands_iff hlinked').mp hjump
  have haround : now.StandsIn owner around := hstands.under (hunder.head habove) hlinked'
  have hchild := mem_children_of_mem_blockBody hother
  have hself := (hlinked'.mem_functionStmts_iff hfunction').mp hid
  obtain rfl := honce hlabel ⟨function, hfunction', hself⟩
    (hlinked'.stands_child ⟨owner, howner, haround⟩ hchild) (by rw [hkind]; rfl) hplaced
  obtain rfl := hlinked'.standsIn_unique hself
    (haround.inside (.single (hlinked'.parent_of_child hchild)))
  refine hnot (htargets jump ((hlinked'.mem_functionStmts_iff hfunction').mpr hstands) label ?_)
  rw [hgoto]
  rfl

end Clears

end Program

/-! ### The pass -/

/-- Removing an action dissolves it. -/
theorem ensures_removeIf_dissolves {removable : Program → StmtId → Bool} {count : Nat}
    (hlinked : now.WellLinked) (haction : removable now id = true → (now.kind id).isAction = true) :
    Ensures (removeIf removable count id) now (fun _ ↦ True) fun count' next ↦
      if removable now id then count' = count + 1 ∧ now.Dissolves id next
      else count' = count ∧ next = now := by
  unfold removeIf
  refine ensures_get_bind.mpr ?_
  by_cases hremovable : removable now id = true
  · have hleaf := StmtKind.children_eq_nil_of_isAction (haction hremovable)
    simp only [hremovable, if_true]
    exact (Edit.ensures_remove_dissolves hlinked hleaf).edit.bind fun _ next _ hnext ↦
      .pure trivial ⟨rfl, hnext⟩
  · simp only [hremovable, Bool.false_eq_true, if_false]
    exact .pure trivial ⟨rfl, rfl⟩

theorem ensures_removeJumps (hlinked : program.WellLinked)
    (hfunction : program.HasFunction function) :
    Ensures ((program.functionStmts function).foldlM (removeIf Program.isFallThrough) 0) program
      (fun _ ↦ True) fun _ final ↦ program.Clears function final ∧ final.functionStmts function =
        (program.functionStmts function).filter fun id ↦ !program.isFallThrough id := by
  have hstart : program.Clears function program := ⟨.refl hlinked, fun _ _ _ ↦ .refl program⟩
  have hnodup := (hlinked.unfolds_functionStmts hfunction).2
  have hstable {id later : StmtId} (horder : [id, later].Sublist (program.functionStmts function))
      {now next : Program} (h : program.Clears function now) (hdissolves : now.Dissolves id next)
      (hjump : now.isFallThrough id = true) (hlater : later ∈ now.functionStmts function)
      (hne : later ≠ id) : next.isFallThrough later = now.isFallThrough later := by
    obtain ⟨hlinked', hfunction'⟩ := h.sheds.fits hfunction
    have hleaf := StmtKind.children_eq_nil_of_isAction (Program.isAction_of_isFallThrough hjump)
    have hstands := (hlinked'.mem_functionStmts_iff hfunction').mp hlater
    refine hdissolves.isFallThrough_eq hlinked' hleaf ⟨function, hfunction', hstands⟩ hne ?_
    intro hsibling
    exact not_sublist_swap hnodup horder ((hlinked'.sublist_of_nextSibling? hfunction' hlater
      hsibling).trans (h.sheds.order function hfunction))
  exact (ensures_dissolveAll Program.isFallThrough (fun h ↦ h.sheds.fits hfunction)
    (fun h _ ↦ ensures_removeIf_dissolves h.sheds.linked Program.isAction_of_isFallThrough)
    (fun h hid hjump hself hdissolves ↦
      h.dissolve_jump hlinked hfunction hdissolves hid hjump (hjump.trans hself.symm))
    (List.pairwise_iff_forall_sublist.mpr hstable) hstart (.refl _)).mono (fun _ h ↦ h)
    fun _ _ _ h ↦ h.2

/-- Whether a label is idle does not depend on where statements stand. -/
theorem Program.Sheds.isIdleLabel_eq (h : now.Sheds final) (targets : List SymId)
    (hid : final.Stands id) : final.isIdleLabel targets id = now.isIdleLabel targets id := by
  unfold Program.isIdleLabel
  simp only [StmtKind.defined?_congr (h.withoutBody hid), h.symbol]

theorem ensures_removeLabels {targets : List SymId} {count : Nat} (hlinked : program.WellLinked)
    (hfunction : program.HasFunction function) (hclears : program.Clears function now)
    (htargets : ∀ jump ∈ now.functionStmts function, ∀ label ∈ (now.kind jump).gotoTarget?,
      label ∈ targets) :
    Ensures ((now.functionStmts function).foldlM
        (removeIf fun program ↦ program.isIdleLabel targets) count) now
      (fun _ ↦ True) fun _ final ↦ program.Clears function final ∧ final.functionStmts function =
        (now.functionStmts function).filter fun id ↦ !now.isIdleLabel targets id := by
  obtain ⟨hlinked', hfunction'⟩ := hclears.sheds.fits hfunction
  have hstands {final : Program} (h : final.WellLinked) (hfunction : final.HasFunction function)
      {id : StmtId} (hid : id ∈ final.functionStmts function) : final.Stands id :=
    ⟨function, hfunction, (h.mem_functionStmts_iff hfunction).mp hid⟩
  refine (ensures_dissolveAll (fun program ↦ program.isIdleLabel targets)
    (fun (h : program.Clears function _ ∧ now.Sheds _) ↦ h.1.sheds.fits hfunction)
    (fun h _ ↦ ensures_removeIf_dissolves h.2.linked Program.isAction_of_isIdleLabel)
    (fun {next last id} h hid hidle _ hdissolves ↦ ?_)
    (List.pairwise_of_forall fun id later next last h hdissolves _ hlater hne ↦ ?_)
    ⟨hclears, .refl hlinked'⟩ (.refl _)).mono (fun _ h ↦ h) fun _ _ _ h ↦ ⟨h.2.1.1, h.2.2⟩
  · refine ⟨h.1.dissolve_label hlinked hfunction hdissolves hid hidle fun jump hjump label hlabel ↦
      ?_, h.2.dissolve hdissolves⟩
    rw [StmtKind.gotoTarget?_congr (h.2.withoutBody
      (hstands h.2.linked (h.1.sheds.fits hfunction).2 hjump))] at hlabel
    exact htargets jump ((h.2.order function hfunction').subset hjump) label hlabel
  · have hlater' := hstands h.2.linked (h.1.sheds.fits hfunction).2 hlater
    exact ((Program.Sheds.refl h.2.linked).dissolve hdissolves).isIdleLabel_eq targets
      ((hdissolves.stands_iff h.2.linked).mpr ⟨hlater', hne⟩)

/-- What is left are the jumps to elsewhere, their labels and all other statements. -/
theorem ensures_removeGotos (hlinked : program.WellLinked)
    (hfunction : program.HasFunction function) :
    Ensures (removeGotos function) program (fun _ ↦ True) fun _ final ↦
      program.Clears function final ∧ final.functionStmts function =
        (program.functionStmts function).filter fun id ↦ !program.isFallThrough id &&
          !program.isIdleLabel (program.lastingTargets function) id := by
  unfold removeGotos
  refine ensures_get_bind.mpr ((ensures_removeJumps hlinked hfunction).bind ?_)
  rintro jumps now - ⟨hclears, hstmts⟩
  refine ensures_get_bind.mpr ?_
  obtain ⟨hlinked', hfunction'⟩ := hclears.sheds.fits hfunction
  have hstands {id : StmtId} (hid : id ∈ now.functionStmts function) : now.Stands id :=
    ⟨function, hfunction', (hlinked'.mem_functionStmts_iff hfunction').mp hid⟩
  have htargets : (now.functionStmts function).filterMap (fun id ↦ (now.kind id).gotoTarget?) =
      program.lastingTargets function := by
    rw [Program.lastingTargets, ← hstmts]
    exact List.filterMap_congr fun id hid ↦
      StmtKind.gotoTarget?_congr (hclears.sheds.withoutBody (hstands hid))
  refine (ensures_removeLabels hlinked hfunction hclears fun jump hjump label hlabel ↦
    List.mem_filterMap.mpr ⟨jump, hjump, hlabel⟩).mono (fun _ h ↦ h) ?_
  rintro count final - ⟨hfinal, hrest⟩
  refine ⟨hfinal, hrest.trans ?_⟩
  rw [htargets, hstmts, List.filter_filter]
  refine List.filter_congr fun id hid ↦ ?_
  cases hjump : program.isFallThrough id with
  | true => simp
  | false =>
    have hid' : id ∈ now.functionStmts function := by simp [hstmts, hid, hjump]
    rw [hclears.sheds.isIdleLabel_eq _ (hstands hid'), Bool.and_comm]

theorem removesGotos (hlinked : program.WellLinked) (hfunction : program.HasFunction function)
    {count : Nat} (hrun : removeGotos function program = .ok count final) :
    (∀ label, final.DeclaresIn function label → final.IsLabel label →
      ∃ jump ∈ final.functionStmts function, final.kind jump = .action (.goto label)) ∧
    (∀ jump ∈ final.functionStmts function, ∀ label, final.kind jump = .action (.goto label) →
      program.DeclaresIn function label → final.DeclaresIn function label) ∧
    final.functionStmts function = (program.functionStmts function).filter (fun id ↦
      !program.isFallThrough id && !program.isIdleLabel (program.lastingTargets function) id) ∧
    (∀ id ∈ final.functionStmts function,
      (final.kind id).withoutBody = (program.kind id).withoutBody) ∧
    (program.CallsKnown → program.PlacesOnce program.IsLabel → program.FallsToLabels function →
      program.ResultsKept final) := by
  obtain ⟨-, hclears, hstmts⟩ := (ensures_removeGotos hlinked hfunction).of_eq_ok hrun
  obtain ⟨hlinked', hfunction'⟩ := hclears.sheds.fits hfunction
  have hkind {id : StmtId} (hid : id ∈ final.functionStmts function) :
      (final.kind id).withoutBody = (program.kind id).withoutBody :=
    hclears.sheds.withoutBody
      ⟨function, hfunction', (hlinked'.mem_functionStmts_iff hfunction').mp hid⟩
  have hmem {id : StmtId} : id ∈ final.functionStmts function ↔
      id ∈ program.functionStmts function ∧ program.isFallThrough id = false ∧
        program.isIdleLabel (program.lastingTargets function) id = false := by
    rw [hstmts, List.mem_filter]
    simp
  refine ⟨?_, ?_, hstmts, fun id ↦ hkind, hclears.runs⟩
  · rintro label ⟨id, hid, hplaced⟩ hlabel
    have hkind' := StmtKind.defined?_eq_some_iff.mp
      ((StmtKind.defined?_congr (hkind hid)).symm.trans hplaced)
    rw [Program.IsLabel, hclears.sheds.symbol] at hlabel
    have htarget : label ∈ program.lastingTargets function := by
      by_contra hnot
      have hidle := Program.isIdleLabel_iff.mpr ⟨label, hkind', hlabel, hnot⟩
      rw [(hmem.mp hid).2.2] at hidle
      cases hidle
    obtain ⟨jump, hjump, hlasts, hgoto⟩ := Program.mem_lastingTargets_iff.mp htarget
    have hjump' := hmem.mpr ⟨hjump, hlasts, Program.isIdleLabel_of_goto hgoto⟩
    refine ⟨jump, hjump', StmtKind.eq_action_of_withoutBody ?_⟩
    rw [hkind hjump', hgoto]
    rfl
  · rintro jump hjump label hgoto ⟨id, hid, hplaced⟩
    obtain ⟨hjump', hlasts, -⟩ := hmem.mp hjump
    have hgoto' : program.kind jump = .action (.goto label) := by
      refine StmtKind.eq_action_of_withoutBody ?_
      rw [← hkind hjump, hgoto]
      rfl
    have htarget := Program.mem_lastingTargets_iff.mpr ⟨jump, hjump', hlasts, hgoto'⟩
    rw [StmtKind.defined?_eq_some_iff] at hplaced
    have hid' := hmem.mpr ⟨hid, Program.isFallThrough_of_define hplaced,
      Program.isIdleLabel_of_mem hplaced htarget⟩
    refine ⟨id, hid', ?_⟩
    rw [StmtKind.defined?_congr (hkind hid'), hplaced]
    rfl

/-- A jump to the label after it, and a jump out of a block to a label further on. -/
def jumpsToLabels : Program where
  types := builtinTypes
  symbols := #[{ name := "next", kind := .label, type := .void, owner := some ⟨0⟩ },
    { name := "done", kind := .label, type := .void, owner := some ⟨0⟩ }]
  statements := #[
    { kind := .plain [⟨1⟩, ⟨2⟩, ⟨3⟩, ⟨5⟩, ⟨6⟩, ⟨7⟩], bodyOf := some ⟨0⟩, span := .none },
    { kind := .action (.goto ⟨0⟩), parent := some ⟨0⟩, span := .none },
    { kind := .action (.define ⟨0⟩), parent := some ⟨0⟩, span := .none },
    { kind := .plain [⟨4⟩], parent := some ⟨0⟩, span := .none },
    { kind := .action (.goto ⟨1⟩), parent := some ⟨3⟩, span := .none },
    { kind := .action (.fail "skipped"), parent := some ⟨0⟩, span := .none },
    { kind := .action (.define ⟨1⟩), parent := some ⟨0⟩, span := .none },
    { kind := .action (.ret (.int 7)), parent := some ⟨0⟩, span := .none }]
  functions := #[{ name := "main", retType := .int, body := ⟨0⟩ }]

theorem removesGotos_jumpsToLabels :
    jumpsToLabels.WellLinked ∧ jumpsToLabels.HasFunction ⟨0⟩ ∧ jumpsToLabels.CallsKnown ∧
      jumpsToLabels.PlacesOnce jumpsToLabels.IsLabel ∧ jumpsToLabels.FallsToLabels ⟨0⟩ ∧
      ∃ final, removeGotos ⟨0⟩ jumpsToLabels = .ok 2 final ∧
        final.functionStmts ⟨0⟩ = [⟨0⟩, ⟨3⟩, ⟨4⟩, ⟨5⟩, ⟨6⟩, ⟨7⟩] ∧
          jumpsToLabels.ResultsKept final := by
  have hlinked : jumpsToLabels.WellLinked := by decide
  have hfunction : jumpsToLabels.HasFunction ⟨0⟩ := Nat.zero_lt_one
  have hcalls : jumpsToLabels.CallsKnown :=
    Program.callsKnown_of_forall (by decide) (by decide) (by decide)
  have honce : jumpsToLabels.PlacesOnce jumpsToLabels.IsLabel :=
    Program.placesOnce_of_forall (by decide)
  have hfalls : jumpsToLabels.FallsToLabels ⟨0⟩ := by decide +kernel
  obtain ⟨final, hrun⟩ : ∃ final, removeGotos ⟨0⟩ jumpsToLabels = .ok 2 final := ⟨_, rfl⟩
  obtain ⟨-, -, hstmts, -, hkept⟩ := removesGotos hlinked hfunction hrun
  exact ⟨hlinked, hfunction, hcalls, honce, hfalls, final, hrun, hstmts.trans (by decide +kernel),
    hkept hcalls honce hfalls⟩

/-- A variable that is set, declared again and returned, with a jump over the declaration. -/
def jumpOverDeclaration : Program where
  types := builtinTypes
  symbols := #[{ name := "x", kind := .var, type := .int, owner := some ⟨0⟩ }]
  statements := #[
    { kind := .plain [⟨1⟩, ⟨2⟩, ⟨3⟩, ⟨4⟩], bodyOf := some ⟨0⟩, span := .none },
    { kind := .action (.assign ⟨0⟩ (.use (.int 5))), parent := some ⟨0⟩, span := .none },
    { kind := .action (.goto ⟨0⟩), parent := some ⟨0⟩, span := .none },
    { kind := .action (.define ⟨0⟩), parent := some ⟨0⟩, span := .none },
    { kind := .action (.ret (.sym ⟨0⟩)), parent := some ⟨0⟩, span := .none }]
  functions := #[{ name := "main", retType := .int, body := ⟨0⟩ }]

theorem not_resultsKept_jumpOverDeclaration :
    jumpOverDeclaration.WellLinked ∧ jumpOverDeclaration.HasFunction ⟨0⟩ ∧
      jumpOverDeclaration.CallsKnown ∧
      jumpOverDeclaration.PlacesOnce jumpOverDeclaration.IsLabel ∧
      ∃ final, removeGotos ⟨0⟩ jumpOverDeclaration = .ok 1 final ∧
        ¬ jumpOverDeclaration.ResultsKept final := by
  refine ⟨by decide, Nat.zero_lt_one,
    Program.callsKnown_of_forall (by decide) (by decide) (by decide),
    Program.placesOnce_of_forall (by decide), _, rfl, fun hkept ↦ ?_⟩
  obtain ⟨last', hrun, -⟩ := hkept ⟨0⟩ Nat.zero_lt_one [] nofun { maxSteps := 9 } (.int 5) _ rfl
  cases hrun

end IteratorLowering
