import IteratorLowering.Proofs.Fragments.Order

/-!
# What is left once regions are broken up

Breaking up the confined regions of a well-linked program leaves no confined block around an escape
and loses no statement (`fragmented_of_fragmentConfined`). In every function the statements keep
their order, except that declarations of variables come earlier in their own run; confined blocks
outside of the regions stay as they are; and there is nothing to break up a second time.
-/

set_option autoImplicit false
set_option relaxedAutoImplicit false

namespace IteratorLowering

namespace Program

/-- What a program has become when its confined regions were broken up. -/
structure Fragmented (program final : Program) : Prop where
  /-- No confined block holds an escape at any depth. -/
  confined : ∀ {function block inner}, final.HasFunction function →
    block ∈ final.functionStmts function → final.blockInfo? block = some .confined →
      inner ∈ final.walk block → final.isEscape inner = false
  /-- Every statement stands once in the function that it stood in. -/
  once : ∀ {function other id}, program.HasFunction function → program.HasFunction other →
    id ∈ program.functionStmts function →
      (final.functionStmts other).count id = if other = function then 1 else 0
  /-- The statements that declare no variable keep their order. -/
  order : ∀ {function}, program.HasFunction function →
    (final.functionStmts function).filter
        (fun id ↦ program.Has id && !program.declaresVariable id) =
      (program.functionStmts function).filter (!program.declaresVariable ·)
  /-- A statement that comes earlier than before declares a variable, and what it has passed is in
  the same list, after the last boundary. -/
  moved : ∀ {function first second}, program.HasFunction function →
    [first, second].Sublist (program.functionStmts function) →
      [second, first].Sublist (final.functionStmts function) →
        program.declaresVariable second = true ∧ program.declaresVariable first = false ∧
          ∃ block before between after,
            program.blockBody block = before ++ first :: (between ++ second :: after) ∧
              ∀ id ∈ first :: between, program.isBoundary id = false
  /-- A declaration of a variable stays in its list. -/
  parent : ∀ {function id}, program.HasFunction function → id ∈ program.functionStmts function →
    program.declaresVariable id = true → final.parent id = program.parent id
  /-- Only blocks change. -/
  kind : ∀ {function id}, program.HasFunction function → id ∈ program.functionStmts function →
    (program.kind id).isBlock = false → final.kind id = program.kind id
  /-- A confined block without an escape that is in no region stays as it is. -/
  untouched : ∀ {function block}, program.HasFunction function →
    block ∈ program.functionStmts function → program.blockInfo? block = some .confined →
      (∀ inner ∈ program.walk block, program.isEscape inner = false) → ¬ program.InRegion block →
        final.parent block = program.parent block ∧ final.walk block = program.walk block ∧
          ∀ inner ∈ program.walk block, final.kind inner = program.kind inner
  /-- There is nothing left to break up. -/
  again : fragmentConfined final = .ok 0 final

variable {program now : Program} {function : FnId} {id block inner : StmtId}

theorem fragmentConfined_of_regions_eq_nil (h : program.regions = []) :
    fragmentConfined program = .ok 0 program := by
  have hnone (steps : Nat) : program.breadthFirst steps [] [] = [] := by cases steps <;> rfl
  unfold regions allStmts at h
  unfold fragmentConfined
  rw [bind_eq_of_eq_ok (rfl : (get : Pass Program) program = .ok program program)]
  simp only [h, hnone]
  rfl

theorem isEscape_of_isBlock (h : (program.kind id).isBlock = true) :
    program.isEscape id = false := by
  unfold isEscape
  cases hkind : program.kind id <;> simp_all [StmtKind.isBlock]

theorem isEscape_eq_false (h : program.isBoundary id = false) : program.isEscape id = false := by
  obtain ⟨inner, hkind, -⟩ := exists_action h
  rw [isBoundary, hkind] at h
  exact h

/-- Where a region and a block without escapes overlap, the block is in the region. -/
theorem InRegion.of_walk (hlinked : program.WellLinked) (hblock : program.StandsIn function block)
    (hquiet : ∀ inner ∈ program.walk block, program.isEscape inner = false)
    (hinner : inner ∈ program.walk block) (h : program.InRegion inner) :
    program.InRegion block := by
  obtain ⟨region, hregion, hmem⟩ := h
  obtain ⟨other, -, hstands⟩ := (mem_allStmts_iff hlinked).mp (List.mem_of_mem_filter hregion)
  have hup := (hlinked.mem_walk_iff hblock).mp hinner
  have hup' := (hlinked.mem_walk_iff hstands).mp hmem
  -- Links up are unique, so one of the two statements around is nested in the other.
  have htotal : program.Under block region ∨ program.Under region block :=
    hup.total_of_right_unique (fun _ _ _ h h' ↦ Option.some.inj (h.symm.trans h')) hup'
  rcases htotal with hunder | hunder
  · exact ⟨region, hregion, (hlinked.mem_walk_iff hstands).mpr hunder⟩
  · obtain ⟨-, hescape⟩ := Bool.and_eq_true_iff.mp (List.mem_filter.mp hregion).2
    obtain ⟨escape, hescape, hescapes⟩ := List.any_eq_true.mp hescape
    have hunder := ((hlinked.mem_walk_iff hstands).mp hescape).trans hunder
    rw [hquiet escape ((hlinked.mem_walk_iff hblock).mpr hunder)] at hescapes
    cases hescapes

theorem Regroups.mem_of_declares {ids ids' : List StmtId} (h : program.Regroups now ids ids')
    (hid : id ∈ ids) (hdeclares : program.declares id = true) : id ∈ ids' := by
  induction h with
  | nil => exact hid
  | keep _ _ ih => exact List.mem_cons.mpr ((List.mem_cons.mp hid).imp_right ih)
  | run _ _ _ _ _ ih =>
    rcases List.mem_append.mp hid with hid | hid
    · exact List.mem_append_left _ (List.mem_filter.mpr ⟨hid, hdeclares⟩)
    · exact List.mem_append_right _ (List.mem_cons_of_mem _ (ih hid))

theorem declares_of_declaresVariable (h : program.declaresVariable id = true) :
    program.declares id = true := by
  unfold declaresVariable at h
  unfold declares
  split at h
  · rename_i hdefined
    rw [hdefined]
    rfl
  · cases h

namespace Breaks

variable (h : program.Breaks now)

include h

theorem functions : now.functions = program.functions := by
  rw [h.tables]

theorem bodyOf (function : FnId) : now.bodyOf function = program.bodyOf function := by
  unfold Program.bodyOf Program.function
  rw [h.functions]

theorem hasFunction_iff : now.HasFunction function ↔ program.HasFunction function := by
  unfold HasFunction
  rw [h.functions]

theorem isEscape (hid : program.Has id) : now.isEscape id = program.isEscape id := by
  have hkind := h.kind hid
  unfold Program.isEscape
  simp only [h.symbol]
  revert hkind
  generalize program.kind id = kind, now.kind id = kind'
  intro hkind
  cases hkind <;> rfl

theorem rearranges_functionStmts (hlinked : program.WellLinked)
    (hfunction : program.HasFunction function) :
    program.Rearranges now (program.functionStmts function) (now.functionStmts function) := by
  have hnow := h.linked.standsIn_body (h.hasFunction_iff.mpr hfunction)
  rw [h.bodyOf] at hnow
  unfold functionStmts
  rw [h.bodyOf]
  exact h.rearranges_walk hlinked (hlinked.standsIn_body hfunction) hnow

/-- A statement stands where it stood. -/
theorem standsIn (hlinked : program.WellLinked) (hid : program.StandsIn function id) :
    now.StandsIn function id := by
  have hfunction := hlinked.hasFunction_of_standsIn hid
  have hlisted := (hlinked.mem_functionStmts_iff hfunction).mpr hid
  exact (h.linked.mem_functionStmts_iff (h.hasFunction_iff.mpr hfunction)).mp
    ((h.rearranges_functionStmts hlinked hfunction).subset hlisted)

/-- A statement that its parent keeps, keeps its parent. -/
theorem parent_eq (hlinked : program.WellLinked) (hid : program.StandsIn function id)
    (hkept : ∀ {parent}, program.parent id = some parent → id ∈ (now.kind parent).children) :
    now.parent id = program.parent id := by
  cases hparent : program.parent id with
  | some parent => exact h.linked.parent_of_child (hkept hparent)
  | none =>
    obtain ⟨root, hroot, hbody⟩ := hid
    rcases hroot.cases_head with rfl | ⟨parent, hparent', _⟩
    · obtain ⟨hfunction, rfl⟩ := hlinked.body_of_bodyOf hbody
      rw [← h.bodyOf]
      exact h.linked.parent_body (h.hasFunction_iff.mpr hfunction)
    · rw [hparent] at hparent'
      cases hparent'

/-- A statement outside of the regions is as it was. -/
theorem kind_of_not_inRegion (hid : program.Has id) (hout : ¬ program.InRegion id) :
    now.kind id = program.kind id := by
  have hreshaped := h.kind hid
  generalize program.kind id = kind, now.kind id = kind' at hreshaped
  cases hreshaped with
  | same => rfl
  | block hinside => exact absurd hinside hout

theorem mem_children_of_declares {parent : StmtId} (hchild : id ∈ (program.kind parent).children)
    (hdeclares : program.declares id = true) : id ∈ (now.kind parent).children := by
  have hreshaped := h.kind (has_of_mem_children hchild)
  generalize program.kind parent = kind, now.kind parent = kind' at *
  cases hreshaped with
  | same => exact hchild
  | block _ _ hbody => exact hbody.mem_of_declares hchild hdeclares

/-- A block without escapes that is in no region is as it was, with all that is in it. -/
theorem untouched (hlinked : program.WellLinked) (hblock : program.StandsIn function block)
    (hquiet : ∀ inner ∈ program.walk block, program.isEscape inner = false)
    (hout : ¬ program.InRegion block) :
    now.parent block = program.parent block ∧ now.walk block = program.walk block ∧
      ∀ inner ∈ program.walk block, now.kind inner = program.kind inner := by
  have hkind : ∀ inner ∈ program.walk block, now.kind inner = program.kind inner :=
    fun inner hinner ↦ by
      have hhas := (hblock.inside ((hlinked.mem_walk_iff hblock).mp hinner)).has
      exact h.kind_of_not_inRegion hhas fun hregion ↦
        hout (hregion.of_walk hlinked hblock hquiet hinner)
  refine ⟨h.parent_eq hlinked hblock fun {parent} hparent ↦ ?_, ?_, hkind⟩
  · have hchild := hlinked.child_of_parent hparent
    rwa [h.kind_of_not_inRegion (has_of_mem_children hchild) fun hregion ↦
      hout (hregion.child hlinked hchild)]
  · obtain ⟨_, hdepth⟩ := hlinked.atDepth_of_standsIn hblock
    have hstands := h.standsIn hlinked hblock
    obtain ⟨_, hdepth'⟩ := h.linked.atDepth_of_standsIn hstands
    have hunfolds := (hlinked.unfolds_walk hdepth hblock.has).1
    have hunfolds' := (h.linked.unfolds_walk hdepth' hstands.has).1
    exact hunfolds'.unique (hunfolds.congr fun inner hinner ↦ by rw [hkind inner hinner])

/-- A block that is confined now was confined before and is no region. -/
theorem confined_of_confined (hunmarked : ∀ region ∈ program.regions, now.blockInfo? region = none)
    (hblock : program.Has block) (hconfined : now.blockInfo? block = some .confined) :
    program.blockInfo? block = some .confined ∧ block ∉ program.regions := by
  refine ⟨?_, fun hregion ↦ ?_⟩
  · have hreshaped := h.kind hblock
    unfold Program.blockInfo? at hconfined ⊢
    generalize program.kind block = kind, now.kind block = kind' at *
    cases hreshaped with
    | same => exact hconfined
    | block _ hinfo =>
      rcases hinfo with rfl | ⟨-, rfl⟩
      · exact hconfined
      · cases hconfined
  · rw [hunmarked block hregion] at hconfined
    cases hconfined

/-- No confined block is left around an escape, neither an old one nor a new one. -/
theorem isEscape_of_confined (hlinked : program.WellLinked)
    (hunmarked : ∀ region ∈ program.regions, now.blockInfo? region = none)
    (hthere : now.HasFunction function) (hblock : block ∈ now.functionStmts function)
    (hconfined : now.blockInfo? block = some .confined) (hinner : inner ∈ now.walk block) :
    now.isEscape inner = false := by
  have hfunction := h.hasFunction_iff.mp hthere
  have hstands := (h.linked.mem_functionStmts_iff hthere).mp hblock
  rcases (h.rearranges_functionStmts hlinked hfunction).mem_or_new hblock with
    hold | ⟨-, run, hrun, hkind⟩
  · have hstandsOld := (hlinked.mem_functionStmts_iff hfunction).mp hold
    obtain ⟨hconfinedOld, hnot⟩ := h.confined_of_confined hunmarked hstandsOld.has hconfined
    have hquiet : (program.walk block).any program.isEscape = false := by
      by_contra hloud
      refine hnot (List.mem_filter.mpr
        ⟨(mem_allStmts_iff hlinked).mpr ⟨function, hfunction, hstandsOld⟩, ?_⟩)
      rw [needsFragmenting, hconfinedOld, Bool.eq_true_of_not_eq_false hloud]
      rfl
    rcases (h.rearranges_walk hlinked hstandsOld hstands).mem_or_new hinner with
      hinner | ⟨-, _, -, hkind⟩
    · have hhas := (hstandsOld.inside ((hlinked.mem_walk_iff hstandsOld).mp hinner)).has
      rw [h.isEscape hhas]
      exact eq_false_of_ne_true (List.any_eq_false.mp hquiet inner hinner)
    · exact isEscape_of_isBlock (by rw [hkind]; rfl)
  · -- A new block has the straight statements of a run and nothing below them.
    obtain ⟨outer, before, after, houter⟩ := hrun.1
    have hhas : ∀ id ∈ run, program.Has id := fun id hid ↦
      hlinked.has_of_child (mem_children_of_mem_blockBody (by rw [houter]; simp [hid]))
    obtain ⟨_, hdepth⟩ := h.linked.atDepth_of_standsIn hstands
    rw [(h.linked.unfolds_walk hdepth hstands.has).1.unique
      (h.unfolds_fragment hrun hhas hkind)] at hinner
    rcases List.mem_cons.mp hinner with rfl | hinner
    · exact isEscape_of_isBlock (by rw [hkind]; rfl)
    · have hinner := List.mem_of_mem_filter hinner
      rw [h.isEscape (hhas inner hinner)]
      exact isEscape_eq_false (hrun.2 inner hinner)

theorem regions_eq_nil (hlinked : program.WellLinked)
    (hunmarked : ∀ region ∈ program.regions, now.blockInfo? region = none) : now.regions = [] := by
  refine List.filter_eq_nil_iff.mpr fun block hblock hneeds ↦ ?_
  obtain ⟨hmarked, hloud⟩ := Bool.and_eq_true_iff.mp hneeds
  obtain ⟨inner, hinner, hescape⟩ := List.any_eq_true.mp hloud
  obtain ⟨function, hthere, hblock⟩ := (mem_allStmts_iff h.linked).mp hblock
  have hblock := (h.linked.mem_functionStmts_iff hthere).mpr hblock
  rw [h.isEscape_of_confined hlinked hunmarked hthere hblock (beq_iff_eq.mp hmarked) hinner]
    at hescape
  cases hescape

/-- A statement stands in its function once, and in no other one. -/
theorem count_functionStmts (hlinked : program.WellLinked) (hid : program.StandsIn function id)
    {other : FnId} (hother : program.HasFunction other) :
    (now.functionStmts other).count id = if other = function then 1 else 0 := by
  have hnow := h.standsIn hlinked hid
  have hthere := h.hasFunction_iff.mpr hother
  have hmem : id ∈ now.functionStmts other ↔ other = function := by
    rw [h.linked.mem_functionStmts_iff hthere]
    exact ⟨fun h' ↦ h.linked.standsIn_unique h' hnow, fun h' ↦ h' ▸ hnow⟩
  rw [(h.linked.unfolds_functionStmts hthere).2.count]
  simp only [hmem]

/-- A statement that comes earlier than before is declared in a run of the one that it passes. -/
theorem moved (hlinked : program.WellLinked) {first second : StmtId}
    (hfunction : program.HasFunction function)
    (hbefore : [first, second].Sublist (program.functionStmts function))
    (hafter : [second, first].Sublist (now.functionStmts function)) :
    program.declaresVariable second = true ∧ program.declaresVariable first = false ∧
      ∃ block before between after,
        program.blockBody block = before ++ first :: (between ++ second :: after) ∧
          ∀ id ∈ first :: between, program.isBoundary id = false := by
  have hthere := h.hasFunction_iff.mpr hfunction
  obtain ⟨run, ⟨⟨block, before, after, hblock⟩, hstraight⟩, hsublist, hfirst, hsecond⟩ :=
    (h.rearranges_functionStmts hlinked hfunction).swapped
      (hlinked.unfolds_functionStmts hfunction).2 (h.linked.unfolds_functionStmts hthere).2
      hbefore hafter
  obtain ⟨front, between, back, rfl⟩ := exists_of_sublist_pair hsublist
  simp only [List.forall_mem_append, List.forall_mem_cons] at hstraight
  obtain ⟨-, hfirst', hbetween, hsecond', -⟩ := hstraight
  rw [declaresVariable_of_not_isBoundary hfirst', declaresVariable_of_not_isBoundary hsecond']
  refine ⟨hsecond, hfirst, block, before ++ front, between, back ++ after, ?_,
    List.forall_mem_cons.mpr ⟨hfirst', hbetween⟩⟩
  simpa using hblock

theorem kind_of_not_isBlock (hid : program.Has id) (hblock : (program.kind id).isBlock = false) :
    now.kind id = program.kind id := by
  have hreshaped := h.kind hid
  generalize program.kind id = kind, now.kind id = kind' at *
  cases hreshaped with
  | same => rfl
  | block => cases hblock

end Breaks

/-- Breaking up the confined regions of a well-linked program leaves no confined block around an
escape, and loses nothing. -/
theorem fragmented_of_fragmentConfined {count : Nat} {final : Program}
    (hlinked : program.WellLinked) (h : fragmentConfined program = .ok count final) :
    program.Fragmented final := by
  obtain ⟨-, hbreaks, hunmarked⟩ := (ensures_fragmentConfined_unmarked hlinked).of_eq_ok h
  have hstands {function : FnId} {id : StmtId} (hfunction : program.HasFunction function)
      (hid : id ∈ program.functionStmts function) : program.StandsIn function id :=
    (hlinked.mem_functionStmts_iff hfunction).mp hid
  exact {
    confined := hbreaks.isEscape_of_confined hlinked hunmarked
    once := fun hfunction hother hid ↦
      hbreaks.count_functionStmts hlinked (hstands hfunction hid) hother
    order := fun hfunction ↦ (hbreaks.rearranges_functionStmts hlinked hfunction).filter_eq
      fun _ hid ↦ (hstands hfunction hid).has
    moved := hbreaks.moved hlinked
    parent := fun hfunction hid hdeclares ↦ hbreaks.parent_eq hlinked (hstands hfunction hid)
      fun hparent ↦ hbreaks.mem_children_of_declares (hlinked.child_of_parent hparent)
        (declares_of_declaresVariable hdeclares)
    kind := fun hfunction hid hblock ↦
      hbreaks.kind_of_not_isBlock (hstands hfunction hid).has hblock
    untouched := fun hfunction hblock _ hquiet hout ↦
      hbreaks.untouched hlinked (hstands hfunction hblock) hquiet hout
    again := fragmentConfined_of_regions_eq_nil (hbreaks.regions_eq_nil hlinked hunmarked) }

end Program

/-- Two confined blocks that return, one in a branch of the other, and one that does not. -/
def nestedRegions : Program where
  types := builtinTypes
  symbols := #[{ name := "x", kind := .var, type := .int, owner := some ⟨0⟩ },
    { name := "y", kind := .var, type := .int, owner := some ⟨0⟩ }]
  statements := #[
    { kind := .plain [⟨1⟩, ⟨10⟩], bodyOf := some ⟨0⟩, span := .none },
    { kind := .block (some .confined) [⟨2⟩, ⟨3⟩, ⟨4⟩, ⟨5⟩, ⟨9⟩], parent := some ⟨0⟩,
      span := .none },
    { kind := .action (.define ⟨0⟩), parent := some ⟨1⟩, span := .none },
    { kind := .action (.assign ⟨0⟩ (.use (.int 5))), parent := some ⟨1⟩, span := .none },
    { kind := .action (.define ⟨1⟩), parent := some ⟨1⟩, span := .none },
    { kind := .branch (.bool true) ⟨6⟩ none, parent := some ⟨1⟩, span := .none },
    { kind := .block (some .confined) [⟨7⟩, ⟨8⟩], parent := some ⟨5⟩, span := .none },
    { kind := .action (.assign ⟨1⟩ (.use (.sym ⟨0⟩))), parent := some ⟨6⟩, span := .none },
    { kind := .action (.ret (.sym ⟨1⟩)), parent := some ⟨6⟩, span := .none },
    { kind := .action (.ret (.sym ⟨0⟩)), parent := some ⟨1⟩, span := .none },
    { kind := .block (some .confined) [⟨11⟩], parent := some ⟨0⟩, span := .none },
    { kind := .action .noop, parent := some ⟨10⟩, span := .none }]
  functions := #[{ name := "main", retType := .int, body := ⟨0⟩ }]

theorem fragmented_nestedRegions : nestedRegions.WellLinked ∧
    ∃ final, fragmentConfined nestedRegions = .ok 2 final ∧
      final.functionStmts ⟨0⟩ =
        [⟨0⟩, ⟨1⟩, ⟨2⟩, ⟨4⟩, ⟨12⟩, ⟨3⟩, ⟨5⟩, ⟨6⟩, ⟨13⟩, ⟨7⟩, ⟨8⟩, ⟨9⟩, ⟨10⟩, ⟨11⟩] ∧
          nestedRegions.Fragmented final := by
  have hlinked : nestedRegions.WellLinked := by decide
  exact ⟨hlinked, _, rfl, rfl, Program.fragmented_of_fragmentConfined hlinked rfl⟩

end IteratorLowering
