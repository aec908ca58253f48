import IteratorLowering.Proofs.Fragments.Breaking

/-!
# The order that breaking up leaves

Breaking up a confined region splits runs: consecutive members of one block, without a boundary
among them (`Program.IsRun`). In the preorder of a function the declarations of a run come to stand
at its front, a new statement comes after them, and nothing else moves
(`Program.Rearranges`, `Breaks.rearranges_walk`). So what was listed is still listed, what is no
declaration of a variable keeps its order (`Rearranges.filter_eq`), and two statements that changed
places are members of one run, of which the second is declared (`Rearranges.swapped`).
-/

set_option autoImplicit false
set_option relaxedAutoImplicit false

namespace IteratorLowering

namespace Program

/-- Consecutive members of a block, none of which ends a straight run. -/
def IsRun (program : Program) (run : List StmtId) : Prop :=
  (∃ block before after, program.blockBody block = before ++ run ++ after) ∧
    ∀ id ∈ run, program.isBoundary id = false

/-- Whether a statement declares a variable. -/
def declaresVariable (program : Program) (id : StmtId) : Bool :=
  match (program.kind id).defined? with
  | some symbol => !(program.symbol symbol).isLabel
  | none => false

/-- A preorder with some runs split: their declarations come first, then a new confined block, and
the others are inside. -/
inductive Rearranges (program now : Program) : List StmtId → List StmtId → Prop
  | nil : Rearranges program now [] []
  | keep (id : StmtId) {ids ids' : List StmtId} (more : Rearranges program now ids ids') :
      Rearranges program now (id :: ids) (id :: ids')
  | run {run ids ids' : List StmtId} {fragment : StmtId} (hrun : program.IsRun run)
      (hnew : ¬ program.Has fragment)
      (hfragment : now.kind fragment =
        .block (some .confined) (run.filter (!program.declares ·)))
      (more : Rearranges program now ids ids') :
      Rearranges program now (run ++ ids)
        (run.filter program.declares ++ fragment :: (run.filter (!program.declares ·) ++ ids'))

variable {program now : Program} {id first second : StmtId}
variable {run ids ids' old new old' new' : List StmtId}

/-- In a run just the declarations declare variables. -/
theorem declaresVariable_of_not_isBoundary (h : program.isBoundary id = false) :
    program.declaresVariable id = program.declares id := by
  obtain ⟨inner, hkind, -, -, -, hlabel⟩ := exists_action h
  unfold declaresVariable declares
  rw [hkind]
  cases inner with
  | define symbol =>
    change (!(program.symbol symbol).isLabel) = true
    rw [hlabel symbol rfl]
    rfl
  | _ => rfl

/-- Two statements of a list stand in its first part, in its second part, or on both sides. -/
theorem sublist_pair_append (h : [first, second].Sublist (ids ++ ids')) :
    [first, second].Sublist ids ∨ first ∈ ids ∧ second ∈ ids' ∨ [first, second].Sublist ids' := by
  obtain ⟨front, back, heq, hfront, hback⟩ := List.sublist_append_iff.mp h
  match front, heq with
  | [], heq => exact .inr (.inr (heq ▸ hback))
  | [_], heq =>
    cases heq
    exact .inr (.inl ⟨hfront.subset List.mem_cons_self, hback.subset List.mem_cons_self⟩)
  | [_, _], heq =>
    cases heq
    exact .inl hfront

theorem exists_of_sublist_pair (h : [first, second].Sublist ids) :
    ∃ before between after, ids = before ++ first :: (between ++ second :: after) := by
  obtain ⟨front, back, rfl, hfirst, hsecond⟩ := List.cons_sublist_iff.mp h
  obtain ⟨before, between, rfl⟩ := List.append_of_mem hfirst
  obtain ⟨between', after, rfl⟩ := List.append_of_mem (List.singleton_sublist.mp hsecond)
  exact ⟨before, between ++ between', after, by simp⟩

namespace Rearranges

theorem append (h : program.Rearranges now old new) (h' : program.Rearranges now old' new') :
    program.Rearranges now (old ++ old') (new ++ new') := by
  induction h with
  | nil => exact h'
  | keep id _ ih => exact .keep id ih
  | run hrun hnew hfragment _ ih =>
    have := Rearranges.run hrun hnew hfragment ih
    simpa using this

/-- What was listed is still listed. -/
theorem subset (h : program.Rearranges now old new) : old ⊆ new := by
  induction h with
  | nil => exact List.Subset.refl []
  | keep id _ ih => exact List.cons_subset_cons id ih
  | @run run ids ids' fragment _ _ _ _ ih =>
    intro id hid
    rcases List.mem_append.mp hid with hid | hid
    · cases hdeclares : program.declares id <;> simp [hid, hdeclares]
    · simp [ih hid]

/-- What is listed was listed, or is a new block with the statements of a run. -/
theorem mem_or_new (h : program.Rearranges now old new) (hid : id ∈ new) :
    id ∈ old ∨ ¬ program.Has id ∧ ∃ run, program.IsRun run ∧
      now.kind id = .block (some .confined) (run.filter (!program.declares ·)) := by
  induction h with
  | nil => cases hid
  | keep _ _ ih =>
    rcases List.mem_cons.mp hid with rfl | hid
    · exact .inl List.mem_cons_self
    · exact (ih hid).imp_left (List.mem_cons_of_mem _)
  | @run run ids ids' fragment hrun hnew hfragment _ ih =>
    rcases List.mem_append.mp hid with hid | hid
    · exact .inl (List.mem_append_left _ (List.mem_of_mem_filter hid))
    · rcases List.mem_cons.mp hid with rfl | hid
      · exact .inr ⟨hnew, run, hrun, hfragment⟩
      · rcases List.mem_append.mp hid with hid | hid
        · exact .inl (List.mem_append_left _ (List.mem_of_mem_filter hid))
        · exact (ih hid).imp_left (List.mem_append_right _)

/-- Apart from declarations of variables and new statements, the order is what it was. -/
theorem filter_eq (h : program.Rearranges now old new) (hold : ∀ id ∈ old, program.Has id) :
    new.filter (fun id ↦ program.Has id && !program.declaresVariable id) =
      old.filter (!program.declaresVariable ·) := by
  induction h with
  | nil => rfl
  | @keep id _ _ _ ih =>
    obtain ⟨hid, hold⟩ := List.forall_mem_cons.mp hold
    simp only [List.filter_cons, hid, decide_true, Bool.true_and, ih hold]
  | @run run ids ids' fragment hrun hnew _ _ ih =>
    obtain ⟨hhas, hold⟩ := List.forall_mem_append.mp hold
    have hdeclares : ∀ id ∈ run, program.declaresVariable id = program.declares id :=
      fun id hid ↦ declaresVariable_of_not_isBoundary (hrun.2 id hid)
    have hfront : (run.filter program.declares).filter
        (fun id ↦ program.Has id && !program.declaresVariable id) = [] := by
      refine List.filter_eq_nil_iff.mpr fun id hid ↦ ?_
      obtain ⟨hid, hdeclared⟩ := List.mem_filter.mp hid
      simp [hdeclares id hid, hdeclared]
    have hback : (run.filter (!program.declares ·)).filter
        (fun id ↦ program.Has id && !program.declaresVariable id) =
          run.filter (!program.declaresVariable ·) := by
      rw [List.filter_filter]
      refine List.filter_congr fun id hid ↦ ?_
      simp [hhas id hid, hdeclares id hid]
    simp only [List.filter_append, List.filter_cons, hfront, hback, hnew, decide_false,
      Bool.false_and, Bool.false_eq_true, if_false, ih hold, List.nil_append]

/-- If two statements of a run have changed places, the one that is first now is a declaration. -/
theorem swapped_front {run : List StmtId} {fragment : StmtId} (hnodup : run.Nodup)
    (hfresh : fragment ∉ run) (hbefore : [first, second].Sublist run)
    (hafter : [second, first].Sublist
      (run.filter program.declares ++ fragment :: run.filter (!program.declares ·))) :
    program.declares first = false ∧ program.declares second = true := by
  have hswap := not_sublist_swap hnodup hbefore
  rcases sublist_pair_append hafter with hafter | ⟨hdeclared, hother⟩ | hafter
  · exact absurd (hafter.trans List.filter_sublist) hswap
  · rcases List.mem_cons.mp hother with rfl | hother
    · exact absurd (hbefore.subset (by simp)) hfresh
    · exact ⟨by simpa using (List.mem_filter.mp hother).2, (List.mem_filter.mp hdeclared).2⟩
  · cases hafter with
    | cons _ hafter => exact absurd (hafter.trans List.filter_sublist) hswap
    | cons_cons _ _ => exact absurd (hbefore.subset (by simp)) hfresh

/-- If two statements have changed places, the one that is first now is a declaration of the run
that both are in. -/
theorem swapped (h : program.Rearranges now old new) (hnodup : old.Nodup) (hnodup' : new.Nodup)
    (hbefore : [first, second].Sublist old) (hafter : [second, first].Sublist new) :
    ∃ run, program.IsRun run ∧ [first, second].Sublist run ∧
      program.declares first = false ∧ program.declares second = true := by
  induction h with
  | nil => cases hbefore
  | @keep id ids ids' more ih =>
    obtain ⟨hid, hnodup⟩ := List.nodup_cons.mp hnodup
    obtain ⟨hid', hnodup'⟩ := List.nodup_cons.mp hnodup'
    cases hbefore with
    | cons _ hbefore =>
      cases hafter with
      | cons _ hafter => exact ih hnodup hnodup' hbefore hafter
      | cons_cons _ _ => exact absurd (hbefore.subset (by simp)) hid
    | cons_cons _ hbefore =>
      cases hafter with
      | cons _ hafter => exact absurd (hafter.subset (by simp)) hid'
      | cons_cons _ _ => exact absurd (hbefore.subset (by simp)) hid
  | @run run ids ids' fragment hrun _ _ more ih =>
    obtain ⟨hnodupRun, hnodup, -⟩ := List.nodup_append.mp hnodup
    rw [← List.cons_append, ← List.append_assoc] at hnodup' hafter
    obtain ⟨hnodupFront, hnodup', hdisjoint⟩ := List.nodup_append'.mp hnodup'
    have hfront : run ⊆ run.filter program.declares ++
        fragment :: run.filter (!program.declares ·) := fun id hid ↦ by
      cases hdeclares : program.declares id <;> simp [hid, hdeclares]
    have hfresh : fragment ∉ run := fun hmem ↦ by
      have hnot := (List.nodup_cons.mp (List.perm_middle.nodup_iff.mp hnodupFront)).1
      cases hdeclares : program.declares fragment <;> simp [hmem, hdeclares] at hnot
    -- What comes after the run comes after its front, and changes places there or not at all.
    have hlater (hsecond : second ∈ ids) : [second, first].Sublist ids' := by
      have hnot : second ∉ _ := fun hmem ↦ hdisjoint hmem (more.subset hsecond)
      rcases sublist_pair_append hafter with hafter | ⟨hmem, -⟩ | hafter
      · exact absurd (hafter.subset List.mem_cons_self) hnot
      · exact absurd hmem hnot
      · exact hafter
    rcases sublist_pair_append hbefore with hbefore | ⟨hfirst, hsecond⟩ | hbefore
    · have hnot : first ∉ ids' := hdisjoint (hfront (hbefore.subset (by simp)))
      rcases sublist_pair_append hafter with hafter | ⟨-, hmem⟩ | hafter
      · exact ⟨run, hrun, hbefore, swapped_front hnodupRun hfresh hbefore hafter⟩
      · exact absurd hmem hnot
      · exact absurd (hafter.subset (by simp)) hnot
    · exact absurd (hfront hfirst) fun hmem ↦
        hdisjoint hmem ((hlater hsecond).subset (by simp))
    · exact ih hnodup hnodup' hbefore (hlater (hbefore.subset (by simp)))

end Rearranges

/-! ### Trees -/

/-- The trees below some statements list what the trees below others did, rearranged. -/
def Carries (program now : Program) (ids ids' : List StmtId) : Prop :=
  ∃ old new, program.Unfolds ids old ∧ now.Unfolds ids' new ∧ program.Rearranges now old new

/-- Actions have nothing below them. -/
theorem unfolds_of_forall_action (h : ∀ id ∈ ids, ∃ inner, program.kind id = .action inner) :
    program.Unfolds ids ids := by
  induction ids with
  | nil => exact .nil
  | cons id rest ih =>
    obtain ⟨⟨inner, hkind⟩, hrest⟩ := List.forall_mem_cons.mp h
    exact .cons (by rw [hkind]; exact .nil) (ih hrest)

namespace Carries

theorem append (h : program.Carries now ids ids') (h' : program.Carries now old new) :
    program.Carries now (ids ++ old) (ids' ++ new) := by
  obtain ⟨_, _, hunfolds, hunfolds', hrearranges⟩ := h
  obtain ⟨_, _, hunfoldsRest, hunfoldsRest', hrearrangesRest⟩ := h'
  exact ⟨_, _, hunfolds.append hunfoldsRest, hunfolds'.append hunfoldsRest',
    hrearranges.append hrearrangesRest⟩

theorem of_forall (h : ∀ id ∈ ids, program.Carries now [id] [id]) :
    program.Carries now ids ids := by
  induction ids with
  | nil => exact ⟨[], [], .nil, .nil, .nil⟩
  | cons id rest ih =>
    obtain ⟨hid, hrest⟩ := List.forall_mem_cons.mp h
    exact hid.append (ih hrest)

end Carries

namespace Breaks

variable (h : program.Breaks now)

include h

/-- The members of a run have nothing below them, before and after. -/
theorem unfolds_filter_run (hrun : program.IsRun run) (hhas : ∀ id ∈ run, program.Has id)
    (keep : StmtId → Bool) : now.Unfolds (run.filter keep) (run.filter keep) := by
  refine unfolds_of_forall_action fun id hid ↦ ?_
  have hid := List.mem_of_mem_filter hid
  obtain ⟨inner, hkind, -⟩ := exists_action (hrun.2 id hid)
  exact ⟨inner, (h.kind_of_not_isBoundary (hhas id hid) (hrun.2 id hid)).trans hkind⟩

theorem unfolds_fragment {fragment : StmtId} (hrun : program.IsRun run)
    (hhas : ∀ id ∈ run, program.Has id)
    (hfragment : now.kind fragment =
      .block (some .confined) (run.filter (!program.declares ·))) :
    now.Unfolds [fragment] (fragment :: run.filter (!program.declares ·)) :=
  .singleton (by rw [hfragment]; exact h.unfolds_filter_run hrun hhas _)

/-- A run becomes its declarations and the tree of its fragment. -/
theorem carries_run {fragment : StmtId} (hrun : program.IsRun run)
    (hhas : ∀ id ∈ run, program.Has id) (hnew : ¬ program.Has fragment)
    (hfragment : now.kind fragment =
      .block (some .confined) (run.filter (!program.declares ·))) :
    program.Carries now run (run.filter program.declares ++ [fragment]) := by
  have hunfolds : program.Unfolds run run := unfolds_of_forall_action fun id hid ↦
    have ⟨inner, hkind, _⟩ := exists_action (hrun.2 id hid)
    ⟨inner, hkind⟩
  have hfront := h.unfolds_filter_run hrun hhas program.declares
  refine ⟨run, _, hunfolds, hfront.append (h.unfolds_fragment hrun hhas hfragment), ?_⟩
  have hrearranges := Rearranges.run hrun hnew hfragment .nil
  simpa using hrearranges

theorem carries_regrouped {block : StmtId} {before : List StmtId}
    (hblock : program.blockBody block = before ++ ids)
    (hregroups : program.Regroups now ids ids') (hhas : ∀ id ∈ ids, program.Has id)
    (hids : ∀ id ∈ ids, program.Carries now [id] [id]) : program.Carries now ids ids' := by
  induction hregroups generalizing before with
  | nil => exact .of_forall nofun
  | keep id _ ih =>
    rw [List.append_cons] at hblock
    obtain ⟨hid, hids⟩ := List.forall_mem_cons.mp hids
    exact hid.append (ih hblock (List.forall_mem_cons.mp hhas).2 hids)
  | @run run rest rest' fragment _ hstraight hnew hfragment _ ih =>
    rw [← List.append_assoc] at hblock
    obtain ⟨hhasRun, hhas⟩ := List.forall_mem_append.mp hhas
    have hrest := ih hblock hhas (List.forall_mem_append.mp hids).2
    have hrun := h.carries_run ⟨⟨block, before, rest, hblock⟩, hstraight⟩ hhasRun hnew hfragment
    rw [List.append_cons]
    exact hrun.append hrest

/-- The trees of statements carry over, by induction on what they list. -/
theorem carries (hlinked : program.WellLinked) (hunfolds : program.Unfolds ids old)
    (hhas : ∀ id ∈ ids, program.Has id) : ∀ id ∈ ids, program.Carries now [id] [id] := by
  induction hunfolds with
  | nil => exact nofun
  | @cons root rest below after inside beside ihInside ihBeside =>
    obtain ⟨hroot, hrest⟩ := List.forall_mem_cons.mp hhas
    refine List.forall_mem_cons.mpr ⟨?_, ihBeside hrest⟩
    have hchildren : ∀ child ∈ (program.kind root).children, program.Has child :=
      fun child hchild ↦ hlinked.has_of_child hchild
    have hbelow : program.Carries now (program.kind root).children (now.kind root).children := by
      have hinside := ihInside hchildren
      have hreshaped := h.kind hroot
      generalize hkind : program.kind root = kind at *
      generalize now.kind root = kind' at *
      cases hreshaped with
      | same => exact .of_forall hinside
      | @block info info' body body' _ _ hbody =>
        have hblock : program.blockBody root = [] ++ body := by rw [blockBody, hkind]; rfl
        exact h.carries_regrouped hblock hbody hchildren hinside
    obtain ⟨_, _, hunfolds, hunfolds', hrearranges⟩ := hbelow
    exact ⟨_, _, .singleton hunfolds, .singleton hunfolds', .keep root hrearranges⟩

/-- The preorder of a tree that stands in a function is a rearrangement of what it was. -/
theorem rearranges_walk (hlinked : program.WellLinked) {function function' : FnId}
    (hid : program.StandsIn function id) (hid' : now.StandsIn function' id) :
    program.Rearranges now (program.walk id) (now.walk id) := by
  obtain ⟨_, hdepth⟩ := hlinked.atDepth_of_standsIn hid
  obtain ⟨_, hdepth'⟩ := h.linked.atDepth_of_standsIn hid'
  have hunfolds := (hlinked.unfolds_walk hdepth hid.has).1
  have hunfolds' := (h.linked.unfolds_walk hdepth' hid'.has).1
  have hcarries := h.carries hlinked hunfolds fun other hother ↦
    List.mem_singleton.mp hother ▸ hid.has
  obtain ⟨old, new, hold, hnew, hrearranges⟩ := hcarries id List.mem_cons_self
  rwa [hunfolds.unique hold, hunfolds'.unique hnew]

end Breaks

end Program

end IteratorLowering
