import IteratorLowering.Proofs.ControlFlow.Straightening

/-!
# Runs around a statement that is dissolved

Where a statement has given its place to its children, jumps may be led astray: the labels among the
children stand in the list around them now, and a label that went is not found any more. Neither
happens where the labels that jumps name are placed once (`Program.PlacesOnce`) and no jump names
one that goes. Then the program is straightened (`Program.Dissolves.straightens`), whether it lost
the braces of a plain block, a label that nothing jumps to, or a jump to the label after it.
-/

set_option autoImplicit false
set_option relaxedAutoImplicit false

namespace IteratorLowering

namespace Program

variable {program final : Program} {id owner : StmtId} {label : SymId}

/-! ### Labels that are placed once -/

/-- No two statements that stand in functions place the same of these symbols. -/
def PlacesOnce (program : Program) (symbols : SymId → Prop) : Prop :=
  ∀ {label}, symbols label → ∀ {id other}, program.Stands id → program.Stands other →
    (program.kind id).defined? = some label → (program.kind other).defined? = some label →
      id = other

/-- A symbol that a jump in some function names. -/
def IsTarget (program : Program) (label : SymId) : Prop :=
  ∃ id, program.Stands id ∧ (program.kind id).gotoTarget? = some label

def IsLabel (program : Program) (symbol : SymId) : Prop := (program.symbol symbol).isLabel = true

/-- It is enough that no two entries of the arena place the same symbol. -/
theorem placesOnce_of_forall {symbols : SymId → Prop}
    (h : ∀ first < program.statements.size, ∀ second < program.statements.size,
      ∀ label ∈ (program.kind ⟨first⟩).defined?,
        (program.kind ⟨second⟩).defined? = some label → first = second) :
    program.PlacesOnce symbols := by
  rintro label - ⟨first⟩ ⟨second⟩ ⟨_, -, hfirst⟩ ⟨_, -, hsecond⟩ hplaced hplaced'
  exact congrArg StmtId.mk (h first hfirst.has second hsecond.has label hplaced hplaced')

theorem JumpedTo.isTarget (hstands : ∀ {id}, final.Stands id → program.Stands id)
    (h : program.JumpedTo final label) : program.IsTarget label := by
  obtain ⟨id, hid, hkind, -⟩ := h
  exact ⟨id, hstands hid, by rw [hkind]; rfl⟩

theorem Sheds.placesOnce (h : program.Sheds final) (hlinked : program.WellLinked)
    {symbols symbols' : SymId → Prop} (hsymbols : ∀ {label}, symbols' label → symbols label)
    (honce : program.PlacesOnce symbols) : final.PlacesOnce symbols' := by
  intro label hlabel id other hid hother hplaced hplaced'
  rw [StmtKind.defined?_congr (h.withoutBody hid)] at hplaced
  rw [StmtKind.defined?_congr (h.withoutBody hother)] at hplaced'
  exact honce (hsymbols hlabel) (h.stands hlinked hid) (h.stands hlinked hother) hplaced hplaced'

theorem Sheds.isTarget (h : program.Sheds final) (hlinked : program.WellLinked)
    (htarget : final.IsTarget label) : program.IsTarget label := by
  obtain ⟨id, hid, hjump⟩ := htarget
  rw [StmtKind.gotoTarget?_congr (h.withoutBody hid)] at hjump
  exact ⟨id, h.stands hlinked hid, hjump⟩

theorem WellLinked.nodup_blockBody (hlinked : program.WellLinked) (id : StmtId) :
    (program.blockBody id).Nodup := by
  have hnodup := hlinked.nodup_children id
  unfold blockBody
  cases hkind : program.kind id with
  | action | branch => exact .nil
  | block info body => rwa [hkind] at hnodup

/-! ### Lists that stay -/

theorem Aligned.self {body body' ids : List StmtId}
    (hids : ∀ id ∈ ids, id ∈ body ∧ final.Stands id) :
    Aligned program final body body' ids ids := by
  have happend := Aligned.append hids (Aligned.nil : Aligned program final body body' [] [])
  rwa [List.append_nil] at happend

theorem Realigned.self {body : List StmtId} (hstands : ∀ id ∈ body, final.Stands id)
    (hplaces : ∀ id ∈ body, (final.kind id).defined? = (program.kind id).defined?) :
    program.Realigned final owner body body where
  aligned := .self fun id hid ↦ ⟨hid, hstands id hid⟩
  found {label next} _ hnext := by
    refine ⟨next, (afterLabel?_congr hplaces).trans hnext, .self fun id hid ↦ ?_⟩
    obtain ⟨before, placed, rfl, -⟩ := exists_of_afterLabel? hnext
    have hmem := List.mem_append_right before (List.mem_cons_of_mem placed hid)
    exact ⟨hmem, hstands id hmem⟩
  missed _ hnone _ := (afterLabel?_congr hplaces).trans hnone

/-! ### Lists that change -/

namespace Dissolves

variable {before after : List StmtId} (h : program.Dissolves id final)
variable (hlinked : program.WellLinked)

include h hlinked

theorem defined?_eq {other : StmtId} (hother : final.Stands other) :
    (final.kind other).defined? = (program.kind other).defined? :=
  StmtKind.defined?_congr (h.withoutBody_of_stands hlinked hother)

/-- A list in which the children of a member have taken its place, if they place no label that is
jumped to from the list or from around it. -/
theorem realigned (hbody : program.blockBody owner = before ++ id :: after)
    (hstands : ∀ member ∈ before ++ (program.kind id).children ++ after, final.Stands member)
    (hlabel : ∀ label, program.JumpedTo final label → (program.kind id).defined? ≠ some label)
    (hinner : ∀ label, program.JumpedTo final label → ∀ member ∈ (program.kind id).children,
      (program.kind member).defined? = some label → ¬ program.Sees owner label ∧
        ∀ other ∈ program.blockBody owner, (program.kind other).defined? ≠ some label)
    (hplace : program.Aligned final (before ++ id :: after)
      (before ++ (program.kind id).children ++ after) (id :: after)
      ((program.kind id).children ++ after)) :
    program.Realigned final owner (before ++ id :: after)
      (before ++ (program.kind id).children ++ after) := by
  rw [hbody] at hinner
  simp only [List.forall_mem_append] at hstands
  obtain ⟨⟨hbefore, hchildren⟩, hafter⟩ := hstands
  have hfront : ∀ other ∈ before, other ∈ before ++ id :: after ∧ final.Stands other :=
    fun other hother ↦ ⟨List.mem_append_left _ hother, hbefore other hother⟩
  have hback : ∀ other ∈ after, other ∈ before ++ id :: after ∧ final.Stands other :=
    fun other hother ↦
      ⟨List.mem_append_right _ (List.mem_cons_of_mem _ hother), hafter other hother⟩
  have hplaces (ids : List StmtId) (hids : ∀ other ∈ ids, final.Stands other) (label : SymId) :
      final.afterLabel? label ids = program.afterLabel? label ids :=
    afterLabel?_congr fun other hother ↦ h.defined?_eq hlinked (hids other hother)
  rw [List.append_assoc] at hplace ⊢
  constructor
  · exact .append hfront hplace
  · intro label next hjumped hnext
    cases hfirst : program.afterLabel? label before with
    | some rest =>
      -- The label is placed before the statement, so the run comes to it later.
      obtain ⟨front, placed, rfl, -⟩ := exists_of_afterLabel? hfirst
      obtain rfl := Option.some.inj ((afterLabel?_append_of_some hfirst).symm.trans hnext)
      refine ⟨rest ++ ((program.kind id).children ++ after),
        afterLabel?_append_of_some ((hplaces _ hbefore label).trans hfirst),
        .append (fun other hother ↦ ?_) hplace⟩
      exact hfront other (List.mem_append_right _ (List.mem_cons_of_mem _ hother))
    | none =>
      have hnone := (hplaces before hbefore label).trans hfirst
      rw [Correspondence.Sound.afterLabel?_append program (afterLabel?_eq_none_iff.mp hfirst),
        afterLabel?, if_neg (hlabel label hjumped)] at hnext
      obtain ⟨front, placed, rfl, hplaced, -⟩ := exists_of_afterLabel? hnext
      have hchild : program.afterLabel? label (program.kind id).children = none :=
        afterLabel?_eq_none_iff.mpr fun member hmember hfound ↦
          (hinner label hjumped member hmember hfound).2 placed (by simp) hplaced
      refine ⟨next, ?_, .self fun other hother ↦ hback other (by simp [hother])⟩
      rw [Correspondence.Sound.afterLabel?_append final (afterLabel?_eq_none_iff.mp hnone),
        Correspondence.Sound.afterLabel?_append final (afterLabel?_eq_none_iff.mp
          ((hplaces _ hchildren label).trans hchild)), hplaces _ hafter, hnext]
  · intro label hjumped hnone hsees
    have hplaced := afterLabel?_eq_none_iff.mp hnone
    rw [hplaces _ (List.forall_mem_append.mpr ⟨hbefore, List.forall_mem_append.mpr
      ⟨hchildren, hafter⟩⟩)]
    refine afterLabel?_eq_none_iff.mpr fun other hother hfound ↦ ?_
    rcases List.mem_append.mp hother with hother | hother
    · exact hplaced other (hfront other hother).1 hfound
    rcases List.mem_append.mp hother with hother | hother
    · exact (hinner label hjumped other hother hfound).1 hsees
    · exact hplaced other (hback other hother).1 hfound

omit hlinked in
theorem blockBody_eq (hhas : program.Has owner) (hne : owner ≠ id) :
    final.blockBody owner = dissolveIn id (program.kind id).children (program.blockBody owner) := by
  rw [blockBody, h.kind hhas hne, blockBody]
  cases program.kind owner <;> rfl

/-- Runs are kept when a statement is dissolved, if the label that it places is not jumped to, those
that its children place are not jumped to from around it, and the rest of the list that it was in
goes on with what took its place. -/
theorem straightens (hcalls : program.CallsKnown)
    (hlabel : ∀ label, program.JumpedTo final label → (program.kind id).defined? ≠ some label)
    (hinner : ∀ block, program.parent id = some block → ∀ label, program.JumpedTo final label →
      ∀ member ∈ (program.kind id).children, (program.kind member).defined? = some label →
        ¬ program.Sees block label ∧
          ∀ other ∈ program.blockBody block, (program.kind other).defined? ≠ some label)
    (hplace : ∀ block before after, program.blockBody block = before ++ id :: after →
      (∀ member ∈ before ++ (program.kind id).children ++ after, final.Stands member) →
        program.Aligned final (before ++ id :: after)
          (before ++ (program.kind id).children ++ after) (id :: after)
          ((program.kind id).children ++ after)) :
    program.Straightens final where
  tables := h.tables
  linked := hlinked
  linked' := h.linked
  calls := hcalls
  stands hother := ((h.stands_iff hlinked).mp hother).1
  withoutBody hother := h.withoutBody_of_stands hlinked hother
  lists {owner} howner := by
    obtain ⟨⟨function, -, hstands⟩, hne⟩ := (h.stands_iff hlinked).mp howner
    have hbody := h.blockBody_eq hstands.has hne
    have hmembers : ∀ member ∈ final.blockBody owner, final.Stands member := fun member hmember ↦
      h.linked.stands_child howner (mem_children_of_mem_blockBody hmember)
    by_cases hmem : id ∈ program.blockBody owner
    · obtain ⟨before, after, hsplit⟩ := List.append_of_mem hmem
      have hnodup := hlinked.nodup_blockBody owner
      rw [hsplit] at hnodup
      rw [hbody, hsplit, dissolveIn_middle hnodup] at hmembers ⊢
      have hparent := hlinked.parent_of_child (mem_children_of_mem_blockBody hmem)
      exact h.realigned hlinked hsplit hmembers hlabel (hinner owner hparent)
        (hplace owner before after hsplit hmembers)
    · rw [hbody, dissolveIn_of_not_mem hmem] at hmembers ⊢
      exact .self hmembers fun member hmember ↦ h.defined?_eq hlinked (hmembers member hmember)

end Dissolves

/-! ### Blocks, labels and jumps -/

section

variable (h : program.Dissolves id final) (hlinked : program.WellLinked)
variable (hcalls : program.CallsKnown)

include h hlinked hcalls

/-- The braces of a plain block go. -/
theorem Dissolves.straightens_block {inner : List StmtId}
    (hkind : program.kind id = .block none inner) (hid : program.Stands id)
    (honce : program.PlacesOnce program.IsTarget) :
    program.Straightens final := by
  -- A label among the members is placed in no list around the block.
  have haround {label : SymId} (hjumped : program.JumpedTo final label) {member : StmtId}
      (hmember : member ∈ inner) (hplaced : (program.kind member).defined? = some label)
      {block around other : StmtId} (hparent : program.parent id = some block)
      (hunder : program.Under block around) (hother : other ∈ program.blockBody around) :
      (program.kind other).defined? ≠ some label := by
    intro hplaced'
    obtain ⟨function, hfunction, hstands⟩ := hid
    have hblock : program.StandsIn function block := hstands.under (.single hparent) hlinked
    have hother' := mem_children_of_mem_blockBody hother
    have hchild : member ∈ (program.kind id).children := by rwa [hkind]
    obtain rfl := honce (hjumped.isTarget fun hother ↦ ((h.stands_iff hlinked).mp hother).1)
      (hlinked.stands_child ⟨function, hfunction, hstands⟩ hchild)
      (hlinked.stands_child ⟨function, hfunction, hblock.under hunder hlinked⟩ hother')
      hplaced hplaced'
    obtain rfl := hlinked.eq_of_child hchild hother'
    exact hlinked.not_under_of_parent hblock hparent hunder
  have hchildren : (program.kind id).children = inner := by rw [hkind]; rfl
  refine h.straightens hlinked hcalls (fun label _ ↦ ?_) ?_ ?_
  · rw [hkind]
    exact nofun
  · rw [hchildren]
    intro block hparent label hjumped member hmember hplaced
    refine ⟨?_, fun other hother ↦ haround hjumped hmember hplaced hparent .refl hother⟩
    rintro ⟨above, around, habove, hunder, other, hother, hplaced'⟩
    exact haround hjumped hmember hplaced hparent (hunder.head habove) hother hplaced'
  · rw [hchildren]
    intro block before after hsplit hstands
    have hmem : id ∈ program.blockBody block := by simp [hsplit]
    have hparent := hlinked.parent_of_child (mem_children_of_mem_blockBody hmem)
    refine .block (hsplit ▸ hmem) hkind (fun member hmember ↦ hstands member (by simp [hmember]))
      (fun label next hjumped hnext ↦ ?_)
      (.self fun other hother ↦ ⟨by simp [hother], hstands other (by simp [hother])⟩)
    obtain ⟨front, placed, hinner, hplaced, -⟩ := exists_of_afterLabel? hnext
    have hbefore : ∀ other ∈ before, (final.kind other).defined? ≠ some label := by
      intro other hother
      rw [h.defined?_eq hlinked (hstands other (by simp [hother]))]
      exact haround hjumped (by simp [hinner]) hplaced hparent .refl (by simp [hsplit, hother])
    rw [List.append_assoc, Correspondence.Sound.afterLabel?_append final hbefore]
    refine afterLabel?_append_of_some ((afterLabel?_congr fun member hmember ↦ ?_).trans hnext)
    exact h.defined?_eq hlinked (hstands member (by simp [hmember]))

/-- A label goes that nothing jumps to. -/
theorem Dissolves.straightens_label (hkind : program.kind id = .action (.define label))
    (hlabel : (program.symbol label).isLabel = true) (hidle : ¬ program.JumpedTo final label) :
    program.Straightens final := by
  have hchildren : (program.kind id).children = [] := by rw [hkind]; rfl
  refine h.straightens hlinked hcalls (fun other hjumped hplaced ↦ ?_) ?_ ?_
  · rw [hkind] at hplaced
    cases hplaced
    exact hidle hjumped
  · rw [hchildren]
    exact fun _ _ _ _ _ hmember ↦ nomatch hmember
  · rw [hchildren]
    intro block before after _ hstands
    exact .label hkind hlabel
      (.self fun other hother ↦ ⟨by simp [hother], hstands other (by simp [hother])⟩)

/-- A jump goes to the label after it, if that label is the first of its kind in the list. -/
theorem Dissolves.straightens_jump (hkind : program.kind id = .action (.goto label))
    (hlabel : (program.symbol label).isLabel = true)
    (hnext : ∀ block before after, program.blockBody block = before ++ id :: after →
      (∀ other ∈ before, (program.kind other).defined? ≠ some label) ∧
        ∃ next rest, after = next :: rest ∧ program.kind next = .action (.define label)) :
    program.Straightens final := by
  have hchildren : (program.kind id).children = [] := by rw [hkind]; rfl
  refine h.straightens hlinked hcalls (fun other hjumped hplaced ↦ ?_) ?_ ?_
  · rw [hkind] at hplaced
    cases hplaced
  · rw [hchildren]
    exact fun _ _ _ _ _ hmember ↦ nomatch hmember
  · rw [hchildren]
    intro block before after hsplit hstands
    obtain ⟨hfirst, next, rest, rfl, hdefine⟩ := hnext block before after hsplit
    have hafter : program.afterLabel? label (before ++ id :: next :: rest) = some rest := by
      rw [Correspondence.Sound.afterLabel?_append program hfirst]
      simp [afterLabel?, hkind, hdefine, StmtKind.defined?]
    have hdefine' : final.kind next = .action (.define label) := by
      refine StmtKind.eq_action_of_withoutBody ?_
      rw [h.withoutBody_of_stands hlinked (hstands next (by simp)), hdefine]
      rfl
    refine .jump hkind hafter hdefine' ?_
      (.self fun other hother ↦ ⟨by simp [hother], hstands other (by simp [hother])⟩)
    rwa [h.symbol]

end

end Program

end IteratorLowering
