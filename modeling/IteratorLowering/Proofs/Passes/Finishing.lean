import IteratorLowering.Lowering.Pipeline
import IteratorLowering.Proofs.Passes.Cleanups
import IteratorLowering.Proofs.Passes.Instances
import IteratorLowering.Proofs.Passes.LeftOver

/-!
# After the loops

When only loops are left that stand in recursive iterators (`Program.Remains`), the passes that
follow leave them there. Most of them move nothing but actions. Collapsing blocks moves loops, but
out of a block and into the one around it (`Collapsed.standsIn`), so a loop stays in its
function. Rebuilding the routines of iterator records throws bodies of functions away, and the
loops in them (`Remains.rebuild`). So all loops are kept where no recursive iterator is such a
routine (`Program.Retains`).
-/

set_option autoImplicit false
set_option relaxedAutoImplicit false

namespace IteratorLowering

variable {scope : Scope} {program : Program}

/-- The scope of a pass that moves new statements and makes no loops. -/
def Scope.fresh (program : Program) : Scope :=
  ⟨fun id ↦ ¬ program.Has id, fun id ↦ ¬ program.Has id, False, False⟩

theorem Scope.fits_fresh (h : program.WellLinked) : (Scope.fresh program).Fits program :=
  .of_new h id (fun _ ↦ Iff.rfl) fun _ ↦ id

/-! ### The routines of iterator records -/

theorem ensures_rebuildRoutines (hlinked : program.WellLinked) :
    Stays Scope.everything.rooted program rebuildRoutines := by
  refine ensures_get_bind.mpr (.foldlM fun function _ count middle h ↦ ?_)
  have hfit := Scope.Fits.everything (h.wellLinked hlinked)
  exact (ensures_rebuildRoutine hfit).mono (fun _ h ↦ h.mono (Scope.le_everything_rooted _))
    fun _ _ _ _ ↦ trivial

theorem stays_finishInstances (hlinked : program.WellLinked) :
    Stays Scope.everything.rooted program finishInstances := by
  refine Ensures.seq stays_resolveOrdinals.rooted fun _ _ h _ ↦ ?_
  have hlinked := h.wellLinked hlinked
  refine Ensures.seq stays_readHelperArgs.rooted fun _ _ h _ ↦ ?_
  have hlinked := h.wellLinked hlinked
  refine Ensures.seq (stays_addSubtypeDispatch (.everything hlinked)).rooted fun _ _ h _ ↦ ?_
  have hlinked := h.wellLinked hlinked
  exact Ensures.seq (ensures_rebuildRoutines hlinked) fun _ _ _ _ ↦ .stay trivial

namespace Program

variable {start final : Program} {recursive : List FnId} {loops kept : List StmtId} {id : StmtId}
variable {function : FnId}

/-- A routine of a program that has grown was one before, if it is an iterator. -/
theorem Grows.isRoutine (h : program.Grows final) (hresolved : program.Resolved)
    (hfunction : program.HasFunction function)
    (hiterator : (program.function function).isIterator = true)
    (hroutine : final.IsRoutine function) :
    program.IsRoutine function := by
  obtain ⟨record, hformals, hrecord, hflags⟩ := hroutine
  rw [(h.function hfunction).2.2 hiterator] at hformals
  rw [(h.function hfunction).2.1] at hflags
  have hsymbol := hresolved.formal hfunction (hformals ▸ List.mem_singleton_self record)
  have htype := hresolved.symbol hsymbol
  rw [(h.symbol hsymbol).2, h.valueType htype, h.type_flags (hresolved.target htype)] at hrecord
  exact ⟨record, hformals, hrecord, hflags⟩

/-- A program that was reached from another one and whose loops are the given ones, all of which
are left to the state machines. -/
structure Remains (start : Program) (recursive : List FnId) (loops : List StmtId)
    (program : Program) : Prop where
  linked : program.WellLinked
  grows : start.Grows program
  leftOver : ∀ {id}, id ∈ loops → program.LeftOver recursive id
  all : program.forLoops ⊆ loops

/-- Some loops are still left if they have their headers and stand in the functions they stood in,
and the others stand nowhere. -/
theorem Remains.of_standsIn (h : start.Remains recursive loops program)
    (hvoid : start.StartsWithVoid) (hreworks : program.Reworks scope final)
    (hmarked : ∀ {id}, program.Has id → ¬ scope.marked id) (hlooping : ¬ scope.looping)
    (hkept : kept ⊆ loops)
    (hstands : ∀ {id function}, id ∈ kept → program.StandsIn function id →
      final.StandsIn function id)
    (hback : ∀ {id function}, program.Has id → (program.kind id).isForLoop = true →
      final.StandsIn function id → program.StandsIn function id)
    (hall : ∀ {id function}, id ∈ loops → final.StandsIn function id → id ∈ kept) :
    start.Remains recursive kept final where
  linked := hreworks.wellLinked h.linked
  grows := h.grows.trans hreworks.grows
  leftOver hid := by
    have hold := h.leftOver (hkept hid)
    exact hold.after hreworks.grows (h.grows.startsWithVoid hvoid)
      (hreworks.header hold.has (hmarked hold.has)) fun function _ ↦ hstands hid
  all := by
    intro id hid
    obtain ⟨⟨function, hfinal⟩, hloop⟩ := (hreworks.wellLinked h.linked).mem_forLoops_iff.mp hid
    have hhas : program.Has id := by
      by_contra hnew
      rw [hreworks.no_loop hlooping hnew] at hloop
      cases hloop
    have hloop := hreworks.isForLoop hhas hloop
    exact hall (h.all (h.linked.mem_forLoops_iff.mpr ⟨⟨function, hback hhas hloop hfinal⟩, hloop⟩))
      hfinal

/-- A pass that moves nothing around some loops, and nothing into a function, leaves them. -/
theorem Remains.of_place (h : start.Remains recursive loops program)
    (hvoid : start.StartsWithVoid) (hreworks : program.Reworks scope final)
    (hmarked : ∀ {id}, program.Has id → ¬ scope.marked id) (hlooping : ¬ scope.looping)
    (hkept : kept ⊆ loops)
    (hmoved : ∀ {id outer}, id ∈ kept → program.Under id outer → program.Has outer →
      ¬ scope.moved outer)
    (hback : ∀ {id function}, program.Has id → final.StandsIn function id → ¬ scope.moved id)
    (hall : ∀ {id function}, id ∈ loops → final.StandsIn function id → id ∈ kept) :
    start.Remains recursive kept final := by
  have hlinked := h.linked
  refine h.of_standsIn hvoid hreworks hmarked hlooping hkept (fun hid hstands ↦ ?_)
    (fun hhas hloop hstands ↦ ?_) hall
  · have hcompound := (h.leftOver (hkept hid)).compound
    refine hstands.of_place fun hunder ↦ ?_
    have houter := (hstands.under hunder hlinked).has
    exact hreworks.place houter (hlinked.compound_of_under hcompound hunder)
      (hmoved hid hunder houter)
  · exact hlinked.standsIn_of_place (hreworks.wellLinked hlinked)
      (fun hhas hcompound hstands ↦ hreworks.place hhas hcompound (hback hhas hstands)) hhas
      (StmtKind.isAction_eq_false_of_isForLoop hloop) hstands

/-- A pass that moves nothing but new statements leaves the loops. -/
theorem Remains.of_fresh (h : start.Remains recursive loops program)
    (hvoid : start.StartsWithVoid) (hreworks : program.Reworks (Scope.fresh program) final) :
    start.Remains recursive loops final :=
  h.of_place hvoid hreworks not_not_intro id (List.Subset.refl _)
    (fun _ _ hhas ↦ not_not_intro hhas) (fun hhas _ ↦ not_not_intro hhas) fun hid _ ↦ hid

/-! ### Collapsing blocks -/

namespace Collapsed

variable {block : StmtId}

/-- What stood in a function, except the block itself, stands there without the block. -/
theorem standsIn (h : program.Collapsed block final)
    (hreworks : program.Reworks (Scope.only (block :: program.blockBody block)) final)
    (hlinked : program.WellLinked) (hcompound : (program.kind id).isAction = false)
    (hne : id ≠ block) (hstands : program.StandsIn function id) : final.StandsIn function id := by
  obtain ⟨outer, houter⟩ := Option.isSome_iff_exists.mp h.inside
  -- The members of the block are the statements with it as a parent.
  have hmember : ∀ {id}, id ∈ program.blockBody block ↔ program.parent id = some block :=
    ⟨fun hid ↦ hlinked.parent_of_child (h.block ▸ hid),
      fun hparent ↦ h.block ▸ hlinked.child_of_parent hparent⟩
  have hstill : ∀ {id}, program.Has id → (program.kind id).isAction = false → id ≠ block →
      program.parent id ≠ some block → final.parent id = program.parent id ∧
        (final.stmt id).bodyOf = (program.stmt id).bodyOf := fun hhas hcompound hne hparent ↦
    hreworks.place hhas hcompound fun hmoved ↦
      (List.mem_cons.mp hmoved).elim hne fun hid ↦ hparent (hmember.mp hid)
  obtain ⟨root, hroot, hbody⟩ := hstands
  -- On the path up, the block is passed over: from its members to what is around it.
  have hpath : (id ≠ block → final.StandsIn function id) ∧
      (id = block → final.StandsIn function outer) := by
    clear hne
    induction hroot using Relation.ReflTransGen.head_induction_on with
    | refl =>
      have hnone := hlinked.parent_of_owner hbody
      refine ⟨fun hne ↦ ⟨root, .refl, ?_⟩, fun heq ↦ ?_⟩
      · rw [(hstill (has_of_bodyOf hbody) hcompound hne (by simp [hnone])).2, hbody]
      · rw [heq, houter] at hnone
        cases hnone
    | @head id parent hparent hup ih =>
      have hchild := hlinked.child_of_parent hparent
      obtain ⟨ihOther, ihBlock⟩ := ih (StmtKind.isAction_eq_false_of_mem hchild)
      have hstands : program.StandsIn function id := ⟨root, hup.head hparent, hbody⟩
      refine ⟨fun hne ↦ ?_, ?_⟩
      · by_cases hblock : parent = block
        · subst hblock
          have hfinal := (h.members id (hmember.mpr hparent) hcompound).trans houter
          exact (ihBlock rfl).inside (.single hfinal)
        · have hother : program.parent id ≠ some block := by simpa [hparent] using hblock
          have hfinal := (hstill hstands.has hcompound hne hother).1.trans hparent
          exact (ihOther hblock).inside (.single hfinal)
      · rintro rfl
        obtain rfl := Option.some.inj (houter.symm.trans hparent)
        exact ihOther fun hself ↦ hlinked.parent_ne_self hstands (hself ▸ hparent)
  exact hpath.1 hne

/-- What stands in a function afterwards stood in it. -/
theorem standsIn_of_standsIn (h : program.Collapsed block final)
    (hreworks : program.Reworks (Scope.only (block :: program.blockBody block)) final)
    (hlinked : program.WellLinked) (hhas : program.Has id)
    (hcompound : (program.kind id).isAction = false) (hstands : final.StandsIn function id) :
    program.StandsIn function id := by
  obtain ⟨outer, houter⟩ := Option.isSome_iff_exists.mp h.inside
  have hlinked' := hreworks.wellLinked hlinked
  have houterChild := hlinked.child_of_parent houter
  -- The block itself stands nowhere.
  have hne : ∀ {id}, final.StandsIn function id → id ≠ block := by
    rintro _ hstands rfl
    exact not_standsIn h.detached.1 h.detached.2 hstands
  obtain ⟨root, hroot, hbody⟩ := hstands
  induction hroot using Relation.ReflTransGen.head_induction_on with
  | refl =>
    have hmember : root ∉ program.blockBody block := fun hmember ↦ by
      have hparent := h.members root hmember hcompound
      rw [hlinked'.parent_of_owner hbody, houter] at hparent
      cases hparent
    have hplace := hreworks.place hhas hcompound fun hmoved ↦
      (List.mem_cons.mp hmoved).elim (hne ⟨root, .refl, hbody⟩) hmember
    exact ⟨root, .refl, hplace.2.symm.trans hbody⟩
  | @head id parent hparent hup ih =>
    have hstands : final.StandsIn function id := ⟨root, hup.head hparent, hbody⟩
    by_cases hmember : id ∈ program.blockBody block
    · have hfinal := (h.members id hmember hcompound).trans houter
      obtain rfl := Option.some.inj (hparent.symm.trans hfinal)
      have houterStands := ih (has_of_mem_children houterChild)
        (StmtKind.isAction_eq_false_of_mem houterChild)
      have hblock := hlinked.parent_of_child (h.block ▸ hmember)
      exact houterStands.inside (.head hblock (.single houter))
    · have hplace := hreworks.place hhas hcompound fun hmoved ↦
        (List.mem_cons.mp hmoved).elim (hne hstands) hmember
      have hparent' := hplace.1.symm.trans hparent
      have hchild := hlinked.child_of_parent hparent'
      exact (ih (has_of_mem_children hchild) (StmtKind.isAction_eq_false_of_mem hchild)).inside
        (.single hparent')

end Collapsed

/-- No loop is lost when a block is collapsed, and none gets into another function. -/
theorem Remains.collapse {block : StmtId} (h : start.Remains recursive loops program)
    (hvoid : start.StartsWithVoid) (hcollapsed : program.Collapsed block final)
    (hreworks : program.Reworks (Scope.only (block :: program.blockBody block)) final) :
    start.Remains recursive loops final := by
  refine h.of_standsIn hvoid hreworks (fun _ ↦ not_false) id (List.Subset.refl _)
    (fun {id _} hid hstands ↦ ?_) (fun hhas hloop hstands ↦ ?_) fun hid _ ↦ hid
  · have hleft := h.leftOver hid
    have hne : id ≠ block := by
      rintro rfl
      have hunmarked := hcollapsed.unmarked
      rw [hleft.isForLoop] at hunmarked
      cases hunmarked
    exact hcollapsed.standsIn hreworks h.linked hleft.compound hne hstands
  · exact hcollapsed.standsIn_of_standsIn hreworks h.linked hhas
      (StmtKind.isAction_eq_false_of_isForLoop hloop) hstands

/-- With the old body of a routine the loops in it are lost, and no others. -/
theorem Remains.rebuild (h : start.Remains recursive loops program)
    (hvoid : start.StartsWithVoid)
    (hreworks : program.Reworks ((Scope.fresh program).adding (program.bodyOf function)).rooted
      final)
    (hfunction : program.HasFunction function)
    (hparent : final.parent (program.bodyOf function) = none)
    (hbody : (final.stmt (program.bodyOf function)).bodyOf = none) :
    start.Remains recursive
      (loops.filter fun id ↦ program.enclosingFunction? id != some function) final := by
  have hkept : ∀ {id}, id ∈ loops.filter (fun id ↦ program.enclosingFunction? id != some function) ↔
      id ∈ loops ∧ ¬ program.StandsIn function id := by
    simp [List.mem_filter, h.linked.enclosingFunction?_eq_some]
  refine h.of_place hvoid hreworks not_not_intro id List.filter_sublist.subset
    (fun hid hunder hhas hmoved ↦ ?_) (fun hhas hstands hmoved ↦ ?_)
    fun {id _} hid hstands ↦ hkept.mpr ⟨hid, fun hinside ↦ ?_⟩
  · rcases hmoved with hnew | rfl
    · exact hnew hhas
    · exact (hkept.mp hid).2 ((h.linked.standsIn_body hfunction).inside hunder)
  · rcases hmoved with hnew | rfl
    · exact hnew hhas
    · exact not_standsIn hparent hbody hstands
  · -- What was in the old body still is, and the old body stands nowhere.
    have hunder : final.Under id (program.bodyOf function) := by
      obtain ⟨root, hroot, hrootBody⟩ := hinside
      obtain ⟨_, rfl⟩ := h.linked.body_of_bodyOf hrootBody
      refine hroot.of_place fun {inner} hinner ↦ ?_
      by_cases heq : inner = program.bodyOf function
      · rw [heq, hparent, h.linked.parent_body hfunction]
      · have hcompound := h.linked.compound_of_under (h.leftOver hid).compound hinner
        have hinside : program.StandsIn function inner :=
          StandsIn.under ⟨_, hroot, hrootBody⟩ hinner h.linked
        exact (hreworks.place hinside.has hcompound fun hmoved ↦
          hmoved.elim (fun hnew ↦ hnew hinside.has) heq).1
    exact not_standsIn hparent hbody (hstands.under hunder (hreworks.wellLinked h.linked))

/-- Whether loops are left, and all of the given ones unless a recursive iterator is a routine that
is rebuilt. -/
def Retains (start : Program) (recursive : List FnId) (loops : List StmtId) (program : Program) :
    Prop :=
  ∃ kept, kept.Sublist loops ∧
    ((∀ function ∈ recursive, ¬ start.IsRoutine function) → kept = loops) ∧
    start.Remains recursive kept program

theorem Remains.retains (h : start.Remains recursive loops program) :
    start.Retains recursive loops program :=
  ⟨loops, .refl _, fun _ ↦ rfl, h⟩

end Program

/-! ### The passes after the loops -/

section

variable {start : Program} {recursive : List FnId} {loops : List StmtId}

/-- A pass that moves nothing but new statements leaves the loops. -/
theorem Program.Remains.stays {α : Type} {pass : Pass α} (h : start.Remains recursive loops program)
    (hvoid : start.StartsWithVoid) (hpass : Stays (Scope.fresh program) program pass) :
    Ensures pass program (fun _ ↦ True) fun _ final ↦ start.Remains recursive loops final :=
  hpass.mono (fun _ _ ↦ trivial) fun _ _ hreworks _ ↦ h.of_fresh hvoid hreworks

theorem ensures_tidyRemaining {config : LoweringConfig} {function : FnId}
    (hvoid : start.StartsWithVoid) (h : start.Remains recursive loops program) :
    Ensures (tidyIterator config function) program (fun _ ↦ True) fun _ final ↦
      start.Remains recursive loops final := by
  have hcollapse : Ensures (collapseBlocks function) program (fun _ ↦ True) fun _ final ↦
      start.Remains recursive loops final := by
    refine ensures_get_bind.mpr (.foldlM_result (fun _ ↦ trivial)
      (fun block _ count {middle} h ↦ ?_) h)
    refine (ensures_collapseBlock h.linked).mono (fun _ _ ↦ trivial)
      fun _ final hreworks hcollapsed ↦ ?_
    rcases hcollapsed with hcollapsed | rfl
    · exact h.collapse hvoid hcollapsed hreworks
    · exact h
  exact hcollapse.bind fun _ middle _ h ↦ h.stays hvoid stays_tidyCollapsed

theorem ensures_rebuildRemaining (hresolved : start.Resolved)
    (hrecursive : ∀ function ∈ recursive, start.HasFunction function ∧
      (start.function function).isIterator = true)
    (h : start.Remains recursive loops program) :
    Ensures rebuildRoutines program (fun _ ↦ True) fun _ final ↦
      start.Retains recursive loops final := by
  refine ensures_get_bind.mpr (.foldlM_result (fun _ ↦ trivial)
    (fun function _ count {middle} h ↦ ?_) h.retains)
  obtain ⟨kept, hsublist, hsame, h⟩ := h
  refine (ensures_rebuildRoutine (Scope.fits_fresh h.linked)).mono (fun _ _ ↦ trivial)
    fun _ final hreworks hrebuilt ↦ ?_
  rcases hrebuilt with hfresh | ⟨hroutine, hparent, hbody⟩
  · exact ⟨kept, hsublist, hsame, h.of_fresh hresolved.void hfresh⟩
  · refine ⟨_, List.filter_sublist.trans hsublist, fun hnot ↦ ?_,
      h.rebuild hresolved.void hreworks hroutine.has hparent hbody⟩
    rw [← hsame hnot, List.filter_eq_self]
    intro id hid
    obtain ⟨outer, hmem, hstands⟩ := (h.leftOver hid).inside
    obtain ⟨hfunction, hiterator⟩ := hrecursive outer hmem
    rw [h.linked.enclosingFunction?_eq_some.mpr hstands, bne_iff_ne]
    rintro heq
    obtain rfl := Option.some.inj heq
    exact hnot outer hmem (h.grows.isRoutine hresolved hfunction hiterator hroutine)

theorem ensures_finishRemaining (hresolved : start.Resolved)
    (hrecursive : ∀ function ∈ recursive, start.HasFunction function ∧
      (start.function function).isIterator = true)
    (h : start.Remains recursive loops program) :
    Ensures finishInstances program (fun _ ↦ True) fun _ final ↦
      start.Retains recursive loops final := by
  have hvoid := hresolved.void
  refine (h.stays hvoid stays_resolveOrdinals).bind fun _ _ _ h ↦ ?_
  refine (h.stays hvoid stays_readHelperArgs).bind fun _ _ _ h ↦ ?_
  refine (h.stays hvoid (stays_addSubtypeDispatch (Scope.fits_fresh h.linked))).bind
    fun _ _ _ h ↦ ?_
  exact (ensures_rebuildRemaining hresolved hrecursive h).bind fun _ _ _ h ↦ .pure trivial h

end

end IteratorLowering
