import IteratorLowering.Proofs.Fragments.Moving
import IteratorLowering.Proofs.Fragments.Regrouping

/-!
# What breaking up confined regions makes of a program

`program.Breaks now` says that `now` is `program` with some runs regrouped, all of them in confined
blocks that hold an escape, and with some of these blocks unmarked. The pass goes through the
blocks breadth first, without repeats, and through the members of each block in order; every
fragment that it emits regroups one run. So a program that was broken up is related to what it was
(`ensures_fragmentConfined`).
-/

set_option autoImplicit false
set_option relaxedAutoImplicit false

namespace IteratorLowering

namespace Program

/-- A list with some of its runs regrouped. -/
inductive Regroups (program now : Program) : List StmtId → List StmtId → Prop
  | nil : Regroups program now [] []
  | keep (id : StmtId) {rest rest' : List StmtId} (more : Regroups program now rest rest') :
      Regroups program now (id :: rest) (id :: rest')
  | run {run rest rest' : List StmtId} {fragment : StmtId} (hrun : run ≠ [])
      (hstraight : ∀ id ∈ run, program.isBoundary id = false) (hnew : ¬ program.Has fragment)
      (hfragment : now.kind fragment =
        .block (some .confined) (run.filter (!program.declares ·)))
      (more : Regroups program now rest rest') :
      Regroups program now (run ++ rest) (run.filter program.declares ++ fragment :: rest')

/-- Every statement of every function. -/
def allStmts (program : Program) : List StmtId :=
  program.functionIds.flatMap program.functionStmts

/-- The confined blocks that hold an escape. -/
def regions (program : Program) : List StmtId := program.allStmts.filter program.needsFragmenting

/-- Whether a statement is in a confined block that is broken up. -/
def InRegion (program : Program) (id : StmtId) : Prop :=
  ∃ region ∈ program.regions, id ∈ program.walk region

instance (program : Program) (id : StmtId) : Decidable (program.InRegion id) :=
  inferInstanceAs (Decidable (∃ region ∈ _, _))

/-- What has become of a statement: in a region a block may have had runs regrouped, and a confined
block may have lost its marker. -/
inductive Reshaped (program now : Program) (inside : Prop) : StmtKind → StmtKind → Prop
  | same (kind : StmtKind) : Reshaped program now inside kind kind
  | block {info info' : Option BlockInfo} {body body' : List StmtId} (hinside : inside)
      (hinfo : info' = info ∨ info = some .confined ∧ info' = none)
      (hbody : program.Regroups now body body') :
      Reshaped program now inside (.block info body) (.block info' body')

/-- What is left of a program while its confined regions are broken up. -/
structure Breaks (program now : Program) : Prop where
  tables : now = { program with statements := now.statements }
  linked : now.WellLinked
  has : ∀ {id}, program.Has id → now.Has id
  kind : ∀ {id}, program.Has id →
    Reshaped program now (program.InRegion id) (program.kind id) (now.kind id)

variable {program now next : Program} {ids ids' rest rest' : List StmtId} {id block : StmtId}

namespace Regroups

theorem refl (program now : Program) (ids : List StmtId) : program.Regroups now ids ids := by
  induction ids with
  | nil => exact .nil
  | cons id _ ih => exact .keep id ih

theorem append (h : program.Regroups now ids ids') (h' : program.Regroups now rest rest') :
    program.Regroups now (ids ++ rest) (ids' ++ rest') := by
  induction h with
  | nil => exact h'
  | keep id _ ih => exact .keep id ih
  | run hrun hstraight hnew hfragment _ ih =>
    rw [List.append_assoc, List.append_assoc]
    exact .run hrun hstraight hnew hfragment ih

/-- Regrouped runs stay as they are while their fragments do. -/
theorem mono (hkind : ∀ {fragment}, ¬ program.Has fragment → now.Has fragment →
      next.kind fragment = now.kind fragment)
    (h : program.Regroups now ids ids') : program.Regroups next ids ids' := by
  induction h with
  | nil => exact .nil
  | keep id _ ih => exact .keep id ih
  | run hrun hstraight hnew hfragment _ ih =>
    exact .run hrun hstraight hnew ((hkind hnew (has_of_kind_block hfragment)).trans hfragment) ih

end Regroups

theorem Reshaped.mono {inside : Prop} {kind kind' : StmtKind}
    (hkind : ∀ {fragment}, ¬ program.Has fragment → now.Has fragment →
      next.kind fragment = now.kind fragment)
    (h : Reshaped program now inside kind kind') : Reshaped program next inside kind kind' := by
  cases h with
  | same => exact .same kind
  | block hinside hinfo hbody => exact .block hinside hinfo (hbody.mono hkind)

namespace Breaks

theorem refl (hlinked : program.WellLinked) : program.Breaks program :=
  ⟨rfl, hlinked, id, fun _ ↦ .same _⟩

variable (h : program.Breaks now)

include h

theorem symbol (symbol : SymId) : now.symbol symbol = program.symbol symbol := by
  rw [h.tables]
  rfl

theorem isBoundary (hid : program.Has id) : now.isBoundary id = program.isBoundary id := by
  have hkind := h.kind hid
  unfold Program.isBoundary isEscape
  simp only [h.symbol]
  revert hkind
  generalize program.kind id = kind, now.kind id = kind'
  intro hkind
  cases hkind <;> rfl

theorem declares (hid : program.Has id) : now.declares id = program.declares id := by
  have hkind := h.kind hid
  unfold Program.declares
  revert hkind
  generalize program.kind id = kind, now.kind id = kind'
  intro hkind
  cases hkind <;> rfl

/-- A statement that ends no run is as it was. -/
theorem kind_of_not_isBoundary (hid : program.Has id) (hstraight : program.isBoundary id = false) :
    now.kind id = program.kind id := by
  obtain ⟨inner, hkind, -⟩ := exists_action hstraight
  have hreshaped := h.kind hid
  rw [hkind] at hreshaped ⊢
  generalize now.kind id = kind at hreshaped
  cases hreshaped
  rfl

/-- A change of one block, whose members are still those that they were up to runs. -/
theorem changesOnly (hchanges : now.ChangesOnly [block] next) (hblock : program.Has block)
    (hkind : Reshaped program next (program.InRegion block) (program.kind block)
      (next.kind block)) : program.Breaks next where
  tables := by rw [hchanges.tables, h.tables]
  linked := hchanges.linked
  has hid := hchanges.has (h.has hid)
  kind {id} hid := by
    by_cases hself : id = block
    · subst hself
      exact hkind
    · rw [hchanges.kind (h.has hid) (by simpa using hself)]
      refine (h.kind hid).mono fun hnew hthere ↦ hchanges.kind hthere ?_
      rintro hmem
      obtain rfl := List.mem_singleton.mp hmem
      exact hnew hblock

end Breaks

end Program

variable {program now : Program} {block : StmtId} {info : Option BlockInfo}
variable {done done' run rest : List StmtId}

/-- The run at hand is regrouped, and what comes after it is left as it is. -/
theorem ensures_emitRun {anchor : StmtId} {before after : List StmtId}
    (hinside : program.InRegion block)
    (hblock : program.kind block = .block info (done ++ run ++ rest))
    (hbreaks : program.Breaks now)
    (hkind : now.kind block = .block info (before ++ anchor :: after))
    (hbefore : before.filter (· ∉ run) = done') (hafter : (anchor :: after).filter (· ∉ run) = rest)
    (hmem : run ⊆ before ++ anchor :: after) (hnodup : run.Nodup)
    (hdone : program.Regroups now done done')
    (hstraight : ∀ id ∈ run, program.isBoundary id = false) (hrun : run ≠ []) :
    Ensures (emitFragment anchor (run.filter program.declares) (run.filter (!program.declares ·)))
      now (fun _ ↦ True) fun _ final ↦ ∃ fragment, program.Breaks final ∧
        final.kind block =
          .block info (done' ++ (run.filter program.declares ++ fragment :: rest)) ∧
        program.Regroups final (done ++ run)
          (done' ++ (run.filter program.declares ++ [fragment])) ∧
        ∀ {id}, program.Has id → id ≠ block → final.kind id = now.kind id := by
  have hhas := Program.has_of_kind_block hblock
  refine (ensures_emitFragment program.declares hbreaks.linked hkind hmem hnodup).mono
    (fun _ h ↦ h) ?_
  rintro _ final - ⟨hchanges, fragment, hnew, hfragment, hfinal⟩
  rw [hbefore, hafter, List.append_assoc] at hfinal
  have hfresh : ¬ program.Has fragment := fun hthere ↦ hnew (hbreaks.has hthere)
  have hdone' : program.Regroups final done done' := hdone.mono fun hnew hthere ↦
    hchanges.kind hthere fun hmem ↦ hnew (List.mem_singleton.mp hmem ▸ hhas)
  have hregroups : program.Regroups final (run ++ rest)
      (run.filter program.declares ++ fragment :: rest) :=
    .run hrun hstraight hfresh hfragment (.refl _ _ _)
  have hregroup : program.Regroups final (run ++ []) (run.filter program.declares ++ [fragment]) :=
    .run hrun hstraight hfresh hfragment .nil
  refine ⟨fragment, hbreaks.changesOnly hchanges hhas ?_, hfinal, ?_, fun hid hne ↦
    hchanges.kind (hbreaks.has hid) (by simpa using hne)⟩
  · rw [hblock, hfinal, List.append_assoc]
    exact .block hinside (.inl rfl) (hdone'.append hregroups)
  · rw [List.append_nil] at hregroup
    exact hdone'.append hregroup

theorem filter_not_mem_of_subset {ids : List StmtId} (h : ids ⊆ run) :
    ids.filter (· ∉ run) = [] := by
  refine List.filter_eq_nil_iff.mpr fun id hid ↦ ?_
  simpa using h hid

theorem filter_not_mem_of_disjoint {ids : List StmtId} (h : ids.Disjoint run) :
    ids.filter (· ∉ run) = ids :=
  List.filter_eq_self.mpr fun _ hid ↦ decide_eq_true (h hid)

theorem filter_not_mem_append {ids ids' : List StmtId} (h : ids.Disjoint run) (h' : ids' ⊆ run) :
    (ids ++ ids').filter (· ∉ run) = ids := by
  rw [List.filter_append, filter_not_mem_of_disjoint h, filter_not_mem_of_subset h',
    List.append_nil]

/-- Nothing is in a run if it has neither declarations nor other members. -/
theorem isEmpty_filter_and (declares : StmtId → Bool) (ids : List StmtId) :
    ((ids.filter declares).isEmpty && (ids.filter (!declares ·)).isEmpty) = ids.isEmpty := by
  cases ids with
  | nil => rfl
  | cons id rest => cases hdeclares : declares id <;> simp [hdeclares]

theorem filter_append_singleton (keep : StmtId → Bool) (ids : List StmtId) (id : StmtId) :
    (ids ++ [id]).filter keep = if keep id then ids.filter keep ++ [id] else ids.filter keep := by
  cases hkeep : keep id <;> simp [hkeep]

/-- The members that come before and after a run in a block are not in it. -/
theorem nodup_disjoint_of_kind (hlinked : now.WellLinked)
    (hkind : now.kind block = .block info (done ++ run ++ rest)) :
    run.Nodup ∧ done.Disjoint run ∧ rest.Disjoint run := by
  have hnodup := hlinked.nodup_children block
  rw [hkind, StmtKind.children] at hnodup
  obtain ⟨hfront, -, hback⟩ := List.nodup_append'.mp hnodup
  obtain ⟨-, hnodupRun, hdisjoint⟩ := List.nodup_append'.mp hfront
  exact ⟨hnodupRun, hdisjoint, fun _ hmem hmem' ↦ hback (List.mem_append_right _ hmem') hmem⟩

/-- A run in front of a boundary is regrouped. -/
theorem ensures_emitRun_before {id : StmtId} (hinside : program.InRegion block)
    (hblock : program.kind block = .block info (done ++ run ++ id :: rest))
    (hbreaks : program.Breaks now)
    (hkind : now.kind block = .block info (done' ++ run ++ id :: rest))
    (hdone : program.Regroups now done done')
    (hstraight : ∀ id ∈ run, program.isBoundary id = false) (hrun : run ≠ []) :
    Ensures (emitFragment id (run.filter program.declares) (run.filter (!program.declares ·)))
      now (fun _ ↦ True) fun _ final ↦ ∃ fragment, program.Breaks final ∧
        final.kind block =
          .block info (done' ++ (run.filter program.declares ++ fragment :: id :: rest)) ∧
        program.Regroups final (done ++ run)
          (done' ++ (run.filter program.declares ++ [fragment])) ∧
        ∀ {id}, program.Has id → id ≠ block → final.kind id = now.kind id := by
  obtain ⟨hnodup, hdisjoint, hback⟩ := nodup_disjoint_of_kind hbreaks.linked hkind
  exact ensures_emitRun hinside hblock hbreaks hkind
    (filter_not_mem_append hdisjoint (List.Subset.refl run)) (filter_not_mem_of_disjoint hback)
    (fun _ hmem ↦ List.mem_append_left _ (List.mem_append_right _ hmem)) hnodup hdone hstraight hrun

/-- The last statement of a block ends the run that it is in. -/
theorem ensures_emitRun_last {id : StmtId} (hinside : program.InRegion block)
    (hblock : program.kind block = .block info (done ++ run ++ [id]))
    (hbreaks : program.Breaks now) (hkind : now.kind block = .block info (done' ++ run ++ [id]))
    (hdone : program.Regroups now done done')
    (hstraight : ∀ other ∈ run ++ [id], program.isBoundary other = false) :
    Ensures (emitFragment id ((run ++ [id]).filter program.declares)
        ((run ++ [id]).filter (!program.declares ·)))
      now (fun _ ↦ True) fun _ final ↦ program.Breaks final ∧
        ∀ {id}, program.Has id → id ≠ block → final.kind id = now.kind id := by
  have hwhole (front : List StmtId) : front ++ run ++ [id] = front ++ (run ++ [id]) ++ [] := by simp
  rw [hwhole] at hblock
  obtain ⟨hnodup, hdisjoint, -⟩ := nodup_disjoint_of_kind hbreaks.linked
    (hkind.trans (congrArg _ (hwhole done')))
  have hmem : run ++ [id] ⊆ done' ++ run ++ [id] := by
    rw [List.append_assoc]
    exact List.subset_append_right ..
  refine (ensures_emitRun hinside hblock hbreaks hkind
    (filter_not_mem_append hdisjoint (List.subset_append_left ..))
    (filter_not_mem_of_subset (List.subset_append_right ..)) hmem hnodup hdone hstraight
    (List.append_ne_nil_of_right_ne_nil _ (List.cons_ne_nil id []))).mono (fun _ h ↦ h) ?_
  rintro _ final - ⟨-, hfinal, -, -, hframe⟩
  exact ⟨hfinal, hframe⟩

/-- The members of a block are regrouped run by run. The run at hand is followed by the members that
are still to come. -/
theorem ensures_fragmentMembers (hinside : program.InRegion block)
    (hblock : program.kind block = .block info (done ++ run ++ rest))
    (hbreaks : program.Breaks now) (hlisted : ∀ id ∈ rest, program.Has id)
    (hkind : now.kind block = .block info (done' ++ run ++ rest))
    (hdone : program.Regroups now done done')
    (hstraight : ∀ id ∈ run, program.isBoundary id = false) (hend : rest = [] → run = []) :
    Ensures (fragmentMembers rest (run.filter program.declares) (run.filter (!program.declares ·)))
      now (fun _ ↦ True) fun _ final ↦ program.Breaks final ∧
        ∀ {id}, program.Has id → id ≠ block → final.kind id = now.kind id := by
  induction rest generalizing now done done' run with
  | nil => exact .pure trivial ⟨hbreaks, fun _ _ ↦ rfl⟩
  | cons id rest ih =>
    obtain ⟨hid, hlisted⟩ := List.forall_mem_cons.mp hlisted
    have hdeclares : (now.kind id).defined?.isSome = program.declares id := hbreaks.declares hid
    unfold fragmentMembers
    rw [ensures_get_bind]
    simp only [hbreaks.isBoundary hid, hdeclares]
    cases hboundary : program.isBoundary id with
    | true =>
      simp only [Bool.not_true, Bool.false_and, Bool.false_eq_true, if_false, Bool.true_or,
        Bool.true_and, isEmpty_filter_and]
      have hshift (ids : List StmtId) : ids ++ id :: rest = ids ++ [id] ++ [] ++ rest := by simp
      by_cases hrun : run = []
      · -- No run has been gathered.
        subst hrun
        rw [List.append_nil, hshift] at hblock hkind
        simp only [List.isEmpty_nil, Bool.not_true, Bool.false_eq_true, if_false]
        exact ih hblock hbreaks hlisted hkind (hdone.append (.keep id .nil)) hstraight fun _ ↦ rfl
      · rw [if_pos (by simpa using hrun)]
        have hemit := ensures_emitRun_before hinside hblock hbreaks hkind hdone hstraight hrun
        refine hemit.bind ?_
        rintro _ middle - ⟨fragment, hmiddle, hkind', hregroups, hframe⟩
        rw [hshift] at hblock
        rw [List.append_cons (run.filter program.declares), ← List.append_assoc, hshift] at hkind'
        refine (ih hblock hmiddle hlisted hkind' (hregroups.append (.keep id .nil))
          (List.forall_mem_nil _) fun _ ↦ rfl).mono (fun _ h ↦ h) ?_
        rintro _ final - ⟨hfinal, hsame⟩
        exact ⟨hfinal, fun hid hne ↦ (hsame hid hne).trans (hframe hid hne)⟩
    | false =>
      simp only [Bool.not_false, Bool.true_and, Bool.false_or]
      have hstraight' : ∀ other ∈ run ++ [id], program.isBoundary other = false :=
        List.forall_mem_append.mpr ⟨hstraight, List.forall_mem_singleton.mpr hboundary⟩
      have hnot := filter_append_singleton (!program.declares ·) run id
      simp only [← filter_append_singleton, ← hnot, isEmpty_filter_and]
      cases rest with
      | nil =>
        rw [if_pos (by simp)]
        exact (ensures_emitRun_last hinside hblock hbreaks hkind hdone hstraight').bind
          fun _ _ _ hmiddle ↦ .pure trivial hmiddle
      | cons next rest =>
        simp only [List.isEmpty_cons, Bool.false_and, Bool.false_eq_true, if_false]
        rw [List.append_cons] at hblock hkind
        exact ih (by simpa using hblock) hbreaks hlisted (by simpa using hkind) hdone hstraight'
          (absurd · (List.cons_ne_nil next rest))

/-! ### The blocks of a region -/

namespace Program

variable {id inner : StmtId}

theorem mem_allStmts_iff (hlinked : program.WellLinked) :
    id ∈ program.allStmts ↔ program.Stands id := by
  constructor
  · intro h
    obtain ⟨function, hfunction, hid⟩ := List.mem_flatMap.mp h
    have hfunction := mem_functionIds.mp hfunction
    exact ⟨function, hfunction, (hlinked.mem_functionStmts_iff hfunction).mp hid⟩
  · rintro ⟨function, hfunction, hid⟩
    exact List.mem_flatMap.mpr ⟨function, mem_functionIds.mpr hfunction,
      (hlinked.mem_functionStmts_iff hfunction).mpr hid⟩

theorem unfolds_region (hlinked : program.WellLinked) {region : StmtId}
    (h : region ∈ program.regions) :
    program.Unfolds [region] (program.walk region) ∧
      ∀ id ∈ program.walk region, program.Has id := by
  obtain ⟨function, -, hstands⟩ := (mem_allStmts_iff hlinked).mp (List.mem_of_mem_filter h)
  obtain ⟨depth, hdepth⟩ := hlinked.atDepth_of_standsIn hstands
  obtain ⟨hunfolds, -, hhas⟩ := hlinked.unfolds_walk hdepth hstands.has
  exact ⟨hunfolds, hhas⟩

theorem InRegion.has (hlinked : program.WellLinked) (h : program.InRegion id) :
    program.Has id := by
  obtain ⟨region, hregion, hid⟩ := h
  exact (unfolds_region hlinked hregion).2 id hid

theorem InRegion.child (hlinked : program.WellLinked) (h : program.InRegion id)
    (hinner : inner ∈ (program.kind id).children) : program.InRegion inner := by
  obtain ⟨region, hregion, hid⟩ := h
  exact ⟨region, hregion, (unfolds_region hlinked hregion).1.mem_of_child hid hinner⟩

/-- What is nested in a block of a region is in the region. -/
theorem InRegion.nested (hlinked : program.WellLinked) (h : program.InRegion id)
    (hinner : inner ∈ program.nestedBlocks id) : program.InRegion inner := by
  obtain ⟨member, hmember, hinner⟩ := List.mem_flatMap.mp hinner
  have hregion := h.child hlinked (mem_children_of_mem_blockBody hmember)
  split at hinner
  · exact List.mem_singleton.mp hinner ▸ hregion
  · rename_i hkind
    exact hregion.child hlinked (by rw [hkind]; exact hinner)
  · cases hinner

/-- What the blocks of a queue have and nested blocks inherit, all blocks that are visited have. -/
theorem forall_mem_breadthFirst {holds : StmtId → Prop}
    (hnested : ∀ {id}, holds id → ∀ inner ∈ program.nestedBlocks id, holds inner) (steps : Nat)
    (visited : List StmtId) {queue : List StmtId} (hqueue : ∀ id ∈ queue, holds id) :
    ∀ id ∈ program.breadthFirst steps visited queue, holds id := by
  induction steps generalizing visited queue with
  | zero => exact nofun
  | succ steps ih =>
    cases queue with
    | nil => exact nofun
    | cons block queue =>
      obtain ⟨hblock, hqueue⟩ := List.forall_mem_cons.mp hqueue
      unfold breadthFirst
      split
      · exact ih visited hqueue
      · refine List.forall_mem_cons.mpr ⟨hblock, ih (block :: visited) fun id hid ↦ ?_⟩
        rcases List.mem_append.mp hid with hid | hid
        · exact hqueue id hid
        · exact hnested hblock id hid

/-- No block is visited twice. -/
theorem nodup_breadthFirst (program : Program) (steps : Nat) (visited queue : List StmtId) :
    (program.breadthFirst steps visited queue).Nodup ∧
      ∀ id ∈ program.breadthFirst steps visited queue, id ∉ visited := by
  induction steps generalizing visited queue with
  | zero => exact ⟨.nil, nofun⟩
  | succ steps ih =>
    cases queue with
    | nil => exact ⟨.nil, nofun⟩
    | cons block queue =>
      unfold breadthFirst
      split
      · exact ih visited queue
      · rename_i hnew
        obtain ⟨hnodup, hlater⟩ := ih (block :: visited) (queue ++ program.nestedBlocks block)
        refine ⟨List.nodup_cons.mpr ⟨fun hmem ↦ hlater block hmem List.mem_cons_self, hnodup⟩, ?_⟩
        refine List.forall_mem_cons.mpr ⟨by simpa using hnew, fun id hid hmem ↦ ?_⟩
        exact hlater id hid (List.mem_cons_of_mem _ hmem)

theorem exists_confined (h : id ∈ program.regions) :
    ∃ body, program.kind id = .block (some .confined) body := by
  obtain ⟨hinfo, -⟩ := Bool.and_eq_true_iff.mp (List.mem_filter.mp h).2
  rw [blockInfo?, beq_iff_eq] at hinfo
  cases hkind : program.kind id with
  | block info body =>
    rw [hkind] at hinfo
    exact ⟨body, congrArg (StmtKind.block · body) hinfo⟩
  | action | branch =>
    rw [hkind] at hinfo
    cases hinfo

/-- Taking away the marker of a block changes that block only. -/
theorem setBlockInfo_changesOnly (hlinked : now.WellLinked) (id : StmtId)
    {info : Option BlockInfo} {body : List StmtId} (hkind : now.kind id = .block info body) :
    now.ChangesOnly [id] (now.setBlockInfo id none) ∧
      (now.setBlockInfo id none).kind id = .block none body := by
  unfold setBlockInfo
  rw [hkind]
  have hchildren (other : StmtId) :
      ((now.setKind id (.block none body)).kind other).children = (now.kind other).children := by
    rw [kind_setKind]
    split
    · rename_i hother
      rw [hother.1, hkind]
      rfl
    · rfl
  refine ⟨⟨rfl, hlinked.congr hchildren (fun _ ↦ parent_setKind ..) (fun _ ↦ owner_setKind ..) rfl,
    fun hid ↦ (has_setKind ..).mpr hid, fun {other} _ hother ↦ ?_⟩, ?_⟩
  · rw [kind_setKind, if_neg]
    exact fun h ↦ hother (List.mem_singleton.mpr h.1)
  · rw [kind_setKind, if_pos ⟨rfl, has_of_kind_block hkind⟩]

/-- A confined block of a region may lose its marker. -/
theorem Breaks.unmark (h : program.Breaks now) (hregion : id ∈ program.regions) :
    program.Breaks (now.setBlockInfo id none) := by
  obtain ⟨body, hkind⟩ := exists_confined hregion
  have hhas := has_of_kind_block hkind
  have hreshaped := h.kind hhas
  rw [hkind] at hreshaped
  generalize hnow : now.kind id = kind at hreshaped
  obtain ⟨info, body', rfl, hbody⟩ : ∃ info body', kind = .block info body' ∧
      program.Regroups now body body' := by
    cases hreshaped with
    | same => exact ⟨_, body, rfl, .refl ..⟩
    | block _ _ hbody => exact ⟨_, _, rfl, hbody⟩
  obtain ⟨hchanges, hfinal⟩ := setBlockInfo_changesOnly h.linked id hnow
  refine h.changesOnly hchanges hhas ?_
  rw [hkind, hfinal]
  refine .block ⟨id, hregion, program.self_mem_walk id⟩ (.inr ⟨rfl, rfl⟩)
    (hbody.mono fun hnew hthere ↦ hchanges.kind hthere ?_)
  exact fun hmem ↦ hnew (List.mem_singleton.mp hmem ▸ hhas)

theorem Breaks.unmarkAll {regions : List StmtId} (h : program.Breaks now)
    (hregions : regions ⊆ program.regions) :
    program.Breaks
      (regions.foldl (fun program block ↦ program.setBlockInfo block none) now) := by
  induction regions generalizing now with
  | nil => exact h
  | cons region rest ih =>
    obtain ⟨hregion, hrest⟩ := List.cons_subset.mp hregions
    exact ih (h.unmark hregion) hrest

theorem blockInfo?_setBlockInfo (now : Program) (id other : StmtId) :
    (now.setBlockInfo id none).blockInfo? other =
      if other = id then none else now.blockInfo? other := by
  unfold setBlockInfo
  cases hkind : now.kind id with
  | block info body =>
    simp only [blockInfo?, kind_setKind, and_iff_left (has_of_kind_block hkind)]
    split <;> rfl
  | action | branch =>
    have hnone : now.blockInfo? id = none := by rw [blockInfo?, hkind]; rfl
    by_cases hother : other = id <;> simp [hother, hnone]

/-- Afterwards none of the blocks that lose their markers has one. -/
theorem blockInfo?_unmarkAll (regions : List StmtId) (now : Program) (id : StmtId) :
    (regions.foldl (fun program block ↦ program.setBlockInfo block none) now).blockInfo? id =
      if id ∈ regions then none else now.blockInfo? id := by
  induction regions generalizing now with
  | nil => rfl
  | cons region rest ih =>
    rw [List.foldl_cons, ih, blockInfo?_setBlockInfo]
    by_cases hrest : id ∈ rest <;> by_cases hregion : id = region <;> simp [hrest, hregion]

end Program

/-- Blocks of regions are broken up one after the other. -/
theorem ensures_fragmentBlocks {order : List StmtId} (hlinked : program.WellLinked)
    (hnodup : order.Nodup) (hinside : ∀ block ∈ order, program.InRegion block)
    (hbreaks : program.Breaks now) (hsame : ∀ block ∈ order, now.kind block = program.kind block) :
    Ensures (order.forM fun block ↦ do fragmentMembers ((← get).blockBody block) [] []) now
      (fun _ ↦ True) fun _ final ↦ program.Breaks final := by
  induction order generalizing now with
  | nil => exact .pure trivial hbreaks
  | cons block rest ih =>
    obtain ⟨hnot, hnodup⟩ := List.nodup_cons.mp hnodup
    obtain ⟨hblock, hinside⟩ := List.forall_mem_cons.mp hinside
    obtain ⟨hkind, hsame⟩ := List.forall_mem_cons.mp hsame
    have hfirst : Ensures (do fragmentMembers ((← get).blockBody block) [] []) now (fun _ ↦ True)
        fun _ final ↦ program.Breaks final ∧
          ∀ {id}, program.Has id → id ≠ block → final.kind id = now.kind id := by
      rw [ensures_get_bind]
      unfold Program.blockBody
      rw [hkind]
      cases hbody : program.kind block with
      | block info body =>
        rw [hbody] at hkind
        have hmembers : ∀ id ∈ body, program.Has id := fun id hid ↦
          hlinked.has_of_child (by rw [hbody]; exact hid)
        exact @ensures_fragmentMembers program now block info [] [] [] body hblock hbody hbreaks
          hmembers hkind .nil (List.forall_mem_nil _) fun _ ↦ rfl
      | action | branch => exact .pure trivial ⟨hbreaks, fun _ _ ↦ rfl⟩
    refine hfirst.bind fun _ middle _ ⟨hmiddle, hframe⟩ ↦ ih hnodup hinside hmiddle fun id hid ↦ ?_
    rw [hframe ((hinside id hid).has hlinked), hsame id hid]
    rintro rfl
    exact hnot hid

/-- Breaking up the confined regions of a program regroups runs in them and unmarks them all. -/
theorem ensures_fragmentConfined_unmarked (hlinked : program.WellLinked) :
    Ensures fragmentConfined program (fun _ ↦ True) fun _ final ↦ program.Breaks final ∧
      ∀ region ∈ program.regions, final.blockInfo? region = none := by
  unfold fragmentConfined
  rw [ensures_get_bind]
  extract_lets regions steps
  have hinside := Program.forall_mem_breadthFirst (fun h _ ↦ Program.InRegion.nested hlinked h)
    steps [] fun region hregion ↦ ⟨region, hregion, program.self_mem_walk region⟩
  have hblocks := ensures_fragmentBlocks hlinked (program.nodup_breadthFirst steps [] regions).1
    hinside (.refl hlinked) fun _ _ ↦ rfl
  refine hblocks.bind fun _ now _ hbreaks ↦ ?_
  rw [ensures_modify_bind]
  refine .pure trivial ⟨hbreaks.unmarkAll (List.Subset.refl _), fun region hregion ↦ ?_⟩
  exact (Program.blockInfo?_unmarkAll ..).trans (if_pos hregion)

theorem ensures_fragmentConfined (hlinked : program.WellLinked) :
    Ensures fragmentConfined program (fun _ ↦ True) fun _ final ↦ program.Breaks final :=
  (ensures_fragmentConfined_unmarked hlinked).mono (fun _ h ↦ h) fun _ _ _ h ↦ h.1

end IteratorLowering
