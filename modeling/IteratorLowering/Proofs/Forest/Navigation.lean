import IteratorLowering.Program.Edit
import IteratorLowering.Proofs.Forest.Enclosing
import Mathlib.Data.Nat.Find

/-!
# Walking down and going up

A walk goes down the child lists, and the statements around a statement are found by going up the
parent links. In a well-linked program both say the same (`WellLinked.mem_walk_iff_isWithin`). Going
up is cut off after as many links as there are statements, and nothing is lost by that, since a
shortest way up meets no statement twice (`WellLinked.exists_climb_le`).

Well-linked programs may hold a statement that is nested in itself, which no tree is. Below every
other statement there is a finite tree, and the walk is its preorder (`WellLinked.unfolds_walk_of`).
The nearest block around a statement is the innermost one if nothing around the statement is nested
in itself (`WellLinked.enclosingBlock?_eq_some`). The siblings before and after a block member are
read off the member list (`WellLinked.nextSibling?_eq_some`, `WellLinked.prevSibling?_eq_some`).
-/

set_option autoImplicit false
set_option relaxedAutoImplicit false

namespace IteratorLowering

namespace Program

variable {program : Program} {id inner outer root : StmtId} {levels more : Nat}

/-- A statement that is nested in itself. No finite tree has one. -/
def NestedInItself (program : Program) (id : StmtId) : Prop :=
  Relation.TransGen (fun child parent ↦ program.parent child = some parent) id id

/-! ### Climbing -/

theorem climb_add (levels more : Nat) (id : StmtId) :
    program.climb (levels + more) id = (program.climb levels id).bind (program.climb more) := by
  induction more with
  | zero => simp [climb]
  | succ more ih => rw [← Nat.add_assoc, climb, ih, Option.bind_assoc]; rfl

theorem climb_succ (levels : Nat) (id : StmtId) :
    program.climb (levels + 1) id = (program.parent id).bind (program.climb levels) := by
  rw [Nat.add_comm, climb_add]
  rfl

/-- A climb can be stopped on its way. -/
theorem exists_climb_of_le (h : program.climb more id = some outer) (hle : levels ≤ more) :
    ∃ inner, program.climb levels id = some inner ∧
      program.climb (more - levels) inner = some outer := by
  rw [← Nat.add_sub_cancel' hle, climb_add] at h
  exact Option.bind_eq_some_iff.mp h

theorem transGen_iff_climb :
    Relation.TransGen (fun child parent ↦ program.parent child = some parent) id outer ↔
      ∃ levels, program.climb (levels + 1) id = some outer := by
  rw [Relation.TransGen.head'_iff]
  constructor
  · rintro ⟨parent, hparent, hunder⟩
    obtain ⟨levels, hclimb⟩ := under_iff_climb.mp hunder
    exact ⟨levels, by rw [climb_succ, hparent]; exact hclimb⟩
  · rintro ⟨levels, hclimb⟩
    rw [climb_succ] at hclimb
    obtain ⟨parent, hparent, hclimb⟩ := Option.bind_eq_some_iff.mp hclimb
    exact ⟨parent, hparent, under_iff_climb.mpr ⟨levels, hclimb⟩⟩

theorem mem_upwards_iff :
    outer ∈ program.upwards levels id ↔ ∃ steps ≤ levels, program.climb steps id = some outer := by
  induction levels generalizing id with
  | zero => simp [upwards, climb, eq_comm]
  | succ levels ih =>
    have hself : outer = id ∨ (∃ parent, program.parent id = some parent ∧
        outer ∈ program.upwards levels parent) ↔ outer ∈ program.upwards (levels + 1) id := by
      rw [upwards]
      cases hparent : program.parent id <;> simp
    rw [← hself]
    constructor
    · rintro (rfl | ⟨parent, hparent, hmem⟩)
      · exact ⟨0, Nat.zero_le _, rfl⟩
      · obtain ⟨steps, hle, hclimb⟩ := ih.mp hmem
        exact ⟨steps + 1, by omega, by rw [climb_succ, hparent]; exact hclimb⟩
    · rintro ⟨steps, hle, hclimb⟩
      cases steps with
      | zero => exact .inl (Option.some.inj hclimb).symm
      | succ steps =>
        rw [climb_succ] at hclimb
        obtain ⟨parent, hparent, hclimb⟩ := Option.bind_eq_some_iff.mp hclimb
        exact .inr ⟨parent, hparent, ih.mpr ⟨steps, by omega, hclimb⟩⟩

/-- A climb that meets no statement twice takes no more steps than there are statements. -/
theorem climb_le_size (h : program.climb levels id = some outer)
    (hnew : ∀ {first second}, first < second → second < levels →
      program.climb first id ≠ program.climb second id) :
    levels ≤ program.statements.size := by
  have hmet : ∀ step ∈ List.range levels, ∃ met, program.climb step id = some met ∧
      program.Has met := fun step hstep ↦ by
    have hlt := List.mem_range.mp hstep
    obtain ⟨met, hclimb, hrest⟩ := exists_climb_of_le h (Nat.le_of_lt hlt)
    obtain ⟨rest, hrest'⟩ : ∃ rest, levels - step = rest + 1 := ⟨levels - step - 1, by omega⟩
    rw [hrest', climb_succ] at hrest
    obtain ⟨parent, hparent, -⟩ := Option.bind_eq_some_iff.mp hrest
    exact ⟨met, hclimb, has_of_parent hparent⟩
  choose! met hmet hhas using hmet
  have hnodup : ((List.range levels).map met).Nodup := by
    refine List.nodup_range.map_on fun first hfirst second hsecond heq ↦ ?_
    have hsame : program.climb first id = program.climb second id := by
      rw [hmet first hfirst, hmet second hsecond, heq]
    rw [List.mem_range] at hfirst hsecond
    rcases Nat.lt_trichotomy first second with hlt | rfl | hlt
    · exact absurd hsame (hnew hlt hsecond)
    · rfl
    · exact absurd hsame.symm (hnew hlt hfirst)
  have hlength := Unfolds.length_le_of_nodup hnodup fun step hstep ↦ by
    obtain ⟨index, hindex, rfl⟩ := List.mem_map.mp hstep
    exact hhas index hindex
  simpa using hlength

/-- A shortest way up meets no statement twice. -/
theorem exists_climb_le (h : program.Under id outer) :
    ∃ levels ≤ program.statements.size, program.climb levels id = some outer := by
  classical
  have hex := under_iff_climb.mp h
  have hfind := Nat.find_spec hex
  refine ⟨Nat.find hex, climb_le_size hfind fun {first second} hlt hsecond hsame ↦ ?_, hfind⟩
  -- Between two meetings nothing is gained.
  have hshort : program.climb (first + (Nat.find hex - second)) id = some outer := by
    rw [climb_add, hsame, ← climb_add, Nat.add_sub_cancel' (Nat.le_of_lt hsecond)]
    exact hfind
  exact Nat.find_min hex (by omega) hshort

theorem isWithin_iff_under : program.isWithin id outer = true ↔ program.Under id outer := by
  rw [isWithin, ancestors, List.contains_iff_mem]
  exact ⟨under_of_mem_upwards, fun h ↦ mem_upwards_iff.mpr (exists_climb_le h)⟩

instance (program : Program) (id outer : StmtId) : Decidable (program.Under id outer) :=
  decidable_of_iff _ isWithin_iff_under

/-! ### Trees below statements -/

/-- What is listed below a statement of a finite tree is not the statement itself. -/
theorem Unfolds.not_mem_below {below : List StmtId}
    (h : program.Unfolds (program.kind id).children below) : id ∉ below := by
  intro hmem
  obtain ⟨found, hfound, hsub⟩ := h.exists_below hmem
  have hlength := hsub.length_le
  rw [hfound.unique (.singleton h), List.length_cons] at hlength
  omega

namespace WellLinked

theorem mem_preorder_iff (h : program.WellLinked) :
    id ∈ program.preorder levels root ↔ ∃ steps ≤ levels, program.climb steps id = some root := by
  induction levels generalizing root with
  | zero => simp [preorder, climb]
  | succ levels ih =>
    rw [preorder, List.mem_cons, List.mem_flatMap]
    constructor
    · rintro (rfl | ⟨child, hchild, hmem⟩)
      · exact ⟨0, Nat.zero_le _, rfl⟩
      · obtain ⟨steps, hle, hclimb⟩ := ih.mp hmem
        refine ⟨steps + 1, by omega, ?_⟩
        rw [climb, hclimb, Option.bind_some, h.parent_of_child hchild]
    · rintro ⟨steps, hle, hclimb⟩
      cases steps with
      | zero => exact .inl (Option.some.inj hclimb)
      | succ steps =>
        obtain ⟨child, hclimb, hparent⟩ := Option.bind_eq_some_iff.mp hclimb
        exact .inr ⟨child, h.child_of_parent hparent, ih.mpr ⟨steps, by omega, hclimb⟩⟩

/-- The walk from a statement lists what has the statement around it. -/
theorem mem_walk_iff_isWithin (h : program.WellLinked) :
    id ∈ program.walk root ↔ program.isWithin id root = true := by
  rw [walk, isWithin, ancestors, List.contains_iff_mem, h.mem_preorder_iff, mem_upwards_iff]

/-- A way up to a statement that is not nested in itself meets no statement twice. -/
theorem climb_ne_of_not_nested (hroot : ¬ program.NestedInItself root)
    (h : program.climb levels id = some root) {first second : Nat} (hlt : first < second)
    (hsecond : second ≤ levels) : program.climb first id ≠ program.climb second id := by
  intro hsame
  obtain ⟨met, hfirst, hup⟩ := exists_climb_of_le h (by omega : first ≤ levels)
  obtain ⟨met', hmet', hup'⟩ := exists_climb_of_le h hsecond
  obtain rfl : met' = met := Option.some.inj (hmet'.symm.trans (hsame ▸ hfirst))
  -- The root is met after two numbers of steps, so it is above itself.
  refine hroot (transGen_iff_climb.mpr ⟨second - first - 1, ?_⟩)
  have hagain : (program.climb (levels - second) met').bind
      (program.climb (second - first - 1 + 1)) = some root := by
    rw [← climb_add, show levels - second + (second - first - 1 + 1) = levels - first by omega]
    exact hup
  rwa [hup', Option.bind_some] at hagain

/-- There is a finite tree below a statement if and only if it is not nested in itself. -/
theorem exists_unfolds_iff (h : program.WellLinked) :
    (∃ ids, program.Unfolds [root] ids) ↔ ¬ program.NestedInItself root := by
  constructor
  · rintro ⟨ids, hunfolds⟩ hnested
    obtain ⟨below, hbelow, -⟩ := hunfolds.of_singleton
    -- With a statement of the cycle its child on the cycle is below the root.
    obtain ⟨child, hup, hparent⟩ := Relation.TransGen.tail'_iff.mp hnested
    have hchild := hbelow.subset_of_roots (h.child_of_parent hparent)
    have hinside {first : StmtId} (hfirst : program.Under first child) : first ∈ below := by
      induction hfirst using Relation.ReflTransGen.head_induction_on with
      | refl => exact hchild
      | head hparent _ ih => exact hbelow.mem_of_child ih (h.child_of_parent hparent)
    exact hbelow.not_mem_below (hinside hup)
  · intro hroot
    suffices hall : ∀ {room levels id}, program.statements.size ≤ levels + room →
        program.climb levels id = some root → ∃ ids, program.Unfolds [id] ids from
      hall (Nat.le_add_left _ 0) (rfl : program.climb 0 root = some root)
    -- Induction on the number of levels that the arena has room for below the statement.
    intro room
    induction room with
    | zero =>
      intro levels id hroom hclimb
      have hchildren : (program.kind id).children = [] := by
        refine List.eq_nil_iff_forall_not_mem.mpr fun child hchild ↦ ?_
        have hclimb' : program.climb (levels + 1) child = some root := by
          rw [climb_succ, h.parent_of_child hchild]
          exact hclimb
        have := climb_le_size hclimb' fun hlt hsecond ↦
          climb_ne_of_not_nested hroot hclimb' hlt (Nat.le_of_lt hsecond)
        omega
      exact ⟨[id], .singleton (by rw [hchildren]; exact .nil)⟩
    | succ room ih =>
      intro levels id hroom hclimb
      obtain ⟨below, hbelow⟩ := @exists_unfolds_of_forall program (program.kind id).children
        fun child hchild ↦ @ih (levels + 1) child (by omega) (by
          rw [climb_succ, h.parent_of_child hchild]
          exact hclimb)
      exact ⟨id :: below, .singleton hbelow⟩

/-- Finite trees below statements that are not nested in each other list no statement twice. -/
theorem nodup_of_unfolds_apart (h : program.WellLinked) {roots ids : List StmtId}
    (hunfolds : program.Unfolds roots ids)
    (hroots : roots.Pairwise fun first second ↦
      ¬ program.Under first second ∧ ¬ program.Under second first) : ids.Nodup := by
  induction hunfolds with
  | nil => exact List.nodup_nil
  | @cons root rest below after inside beside ihInside ihBeside =>
    obtain ⟨hroot, hrest⟩ := List.pairwise_cons.mp hroots
    have hbelow : ∀ id ∈ below, program.Under id root := fun id hid ↦ by
      obtain ⟨child, hchild, levels, hclimb⟩ := h.exists_climb inside hid
      exact (under_iff_climb.mpr ⟨levels, hclimb⟩).tail (h.parent_of_child hchild)
    have hafter : ∀ id ∈ after, ¬ program.Under id root := fun id hid hunder ↦ by
      obtain ⟨other, hother, levels, hclimb⟩ := h.exists_climb beside hid
      -- Two statements around the same one are nested in each other.
      have htotal : program.Under root other ∨ program.Under other root :=
        hunder.total_of_right_unique (fun _ _ _ first second ↦
          Option.some.inj (first.symm.trans second)) (under_iff_climb.mpr ⟨levels, hclimb⟩)
      exact htotal.elim (hroot other hother).1 (hroot other hother).2
    have hself : ¬ program.NestedInItself root := h.exists_unfolds_iff.mp ⟨_, .singleton inside⟩
    have hapart : ∀ {first second}, first ∈ (program.kind root).children →
        second ∈ (program.kind root).children → first ≠ second →
          ¬ program.Under first second := by
      intro first second hfirst hsecond hne hunder
      rcases hunder.cases_head with heq | ⟨parent, hparent, hup⟩
      · exact hne heq
      · obtain rfl := Option.some.inj (hparent.symm.trans (h.parent_of_child hfirst))
        exact hself (.tail' hup (h.parent_of_child hsecond))
    refine List.nodup_cons.mpr ⟨fun hmem ↦ ?_, List.nodup_append.mpr
      ⟨ihInside ?_, ihBeside hrest, ?_⟩⟩
    · exact (List.mem_append.mp hmem).elim inside.not_mem_below fun hmem ↦ hafter root hmem .refl
    · exact (h.nodup_children root).imp_of_mem fun hfirst hsecond hne ↦
        ⟨hapart hfirst hsecond hne, hapart hsecond hfirst hne.symm⟩
    · rintro id hid other hother rfl
      exact hafter id hother (hbelow id hid)

/-- The walk from a statement that is not nested in itself is the preorder of the tree below it,
without repeats. -/
theorem unfolds_walk_of (h : program.WellLinked) (hroot : ¬ program.NestedInItself root) :
    program.Unfolds [root] (program.walk root) ∧ (program.walk root).Nodup := by
  obtain ⟨ids, hunfolds⟩ := h.exists_unfolds_iff.mpr hroot
  have hnodup := h.nodup_of_unfolds_apart hunfolds (List.pairwise_singleton _ _)
  by_cases hhas : program.Has root
  · rw [hunfolds.walk_eq hnodup (h.has_of_unfolds hunfolds hhas)]
    exact ⟨hunfolds, hnodup⟩
  · -- There is nothing below a statement that does not exist.
    have hchildren : (program.kind root).children = [] := by
      rw [kind, stmt_of_not_has hhas]
      rfl
    have hwalk : program.walk root = [root] := by
      rw [walk]
      cases program.statements.size <;> simp [preorder, hchildren]
    rw [hwalk]
    exact ⟨.singleton (by rw [hchildren]; exact .nil), List.nodup_singleton root⟩

/-! ### The nearest block -/

theorem tail_upwards (levels : Nat) (id : StmtId) :
    (program.upwards (levels + 1) id).tail =
      ((program.parent id).map (program.upwards levels)).getD [] := by
  rw [upwards]
  cases program.parent id <;> rfl

/-- Of the statements on the way up, each has the later ones around it. -/
theorem pairwise_upwards (levels : Nat) (id : StmtId) :
    (program.upwards levels id).Pairwise program.Under := by
  induction levels generalizing id with
  | zero => exact List.pairwise_singleton _ _
  | succ levels ih =>
    have htail : (program.upwards (levels + 1) id).tail.Pairwise program.Under := by
      rw [tail_upwards]
      cases program.parent id with
      | none => exact .nil
      | some parent => exact ih parent
    rw [upwards] at htail ⊢
    split
    next parent hparent =>
      rw [hparent] at htail
      exact List.pairwise_cons.mpr
        ⟨fun other hother ↦ (under_of_mem_upwards hother).head hparent, htail⟩
    next => exact List.pairwise_singleton _ _

theorem mem_tail_ancestors_iff (hid : ¬ program.NestedInItself id) :
    outer ∈ (program.ancestors id).tail ↔ outer ≠ id ∧ program.Under id outer := by
  have hcons : program.ancestors id = id :: (program.ancestors id).tail := by
    rw [ancestors]
    cases program.statements.size with
    | zero => rfl
    | succ levels =>
      rw [upwards]
      cases program.parent id <;> rfl
  constructor
  · intro hmem
    refine ⟨?_, under_of_mem_upwards (List.mem_of_mem_tail hmem)⟩
    rintro rfl
    rw [ancestors] at hmem
    cases hsize : program.statements.size with
    | zero => simp [hsize, upwards] at hmem
    | succ levels =>
      rw [hsize, tail_upwards] at hmem
      cases hparent : program.parent outer with
      | none => simp [hparent] at hmem
      | some parent =>
        rw [hparent] at hmem
        exact hid (.head' hparent (under_of_mem_upwards hmem))
  · rintro ⟨hne, hunder⟩
    have hmem : outer ∈ program.ancestors id := mem_upwards_iff.mpr (exists_climb_le hunder)
    rw [hcons] at hmem
    exact (List.mem_cons.mp hmem).resolve_left hne

/-- The nearest block around a statement is within every block around it. -/
theorem enclosingBlock?_eq_some {block : StmtId}
    (htree : ∀ outer, program.Under id outer → ¬ program.NestedInItself outer) :
    program.enclosingBlock? id = some block ↔
      (program.kind block).isBlock = true ∧ block ≠ id ∧ program.Under id block ∧
        ∀ other, (program.kind other).isBlock = true → other ≠ id → program.Under id other →
          program.Under block other := by
  have hid := htree id .refl
  have hfound {block : StmtId} (h : program.enclosingBlock? id = some block) :
      (program.kind block).isBlock = true ∧ block ≠ id ∧ program.Under id block ∧
        ∀ other, (program.kind other).isBlock = true → other ≠ id → program.Under id other →
          program.Under block other := by
    obtain ⟨hblock, nearer, further, hsplit, hnearer⟩ := List.find?_eq_some_iff_append.mp h
    have hmem := (@mem_tail_ancestors_iff program id block hid).mp (by simp [hsplit])
    refine ⟨hblock, hmem.1, hmem.2, fun other hother hne hunder ↦ ?_⟩
    have hotherMem := (mem_tail_ancestors_iff hid).mpr ⟨hne, hunder⟩
    have hpairwise : (program.ancestors id).tail.Pairwise program.Under :=
      (pairwise_upwards program.statements.size id).sublist (List.tail_sublist _)
    rw [hsplit] at hpairwise
    rw [hsplit] at hotherMem
    rcases List.mem_append.mp hotherMem with hotherMem | hotherMem
    · exact absurd hother (by simpa using hnearer other hotherMem)
    · rcases List.mem_cons.mp hotherMem with rfl | hotherMem
      · exact .refl
      · exact List.rel_of_pairwise_cons (List.pairwise_append.mp hpairwise).2.1 hotherMem
  refine ⟨hfound, fun ⟨hblock, hne, hunder, hinner⟩ ↦ ?_⟩
  have hsome : (program.enclosingBlock? id).isSome := by
    rw [enclosingBlock?, List.find?_isSome]
    exact ⟨block, (mem_tail_ancestors_iff hid).mpr ⟨hne, hunder⟩, hblock⟩
  obtain ⟨found, hfind⟩ := Option.isSome_iff_exists.mp hsome
  obtain ⟨hfoundBlock, hfoundNe, hfoundUnder, hfoundInner⟩ := hfound hfind
  have hup := hinner found hfoundBlock hfoundNe hfoundUnder
  have hdown := hfoundInner block hblock hne hunder
  -- The two are within each other, so they are the same.
  rcases hup.cases_head with rfl | ⟨parent, hparent, hrest⟩
  · exact hfind
  · exact absurd (.head' hparent (hrest.trans hdown)) (htree block hunder)

/-! ### Siblings -/

theorem positionInParent_eq_ok (h : program.WellLinked) {parent : StmtId} {position : Nat} :
    program.positionInParent id = .ok (parent, position) ↔
      (program.kind parent).isBlock = true ∧ (program.blockBody parent)[position]? = some id := by
  constructor
  · intro hposition
    unfold positionInParent at hposition
    split at hposition
    · cases hposition
    · split at hposition
      next around _ info body hkind =>
        split at hposition
        next found hfound =>
          cases hposition
          obtain ⟨hlt, hget, -⟩ := List.idxOf?_eq_some_iff.mp hfound
          refine ⟨by rw [hkind]; rfl, ?_⟩
          rw [blockBody, hkind]
          exact List.getElem?_eq_some_iff.mpr ⟨hlt, hget⟩
        next => cases hposition
      all_goals cases hposition
  · rintro ⟨hblock, hget⟩
    cases hkind : program.kind parent with
    | action | branch => simp [hkind, StmtKind.isBlock] at hblock
    | block info body =>
      simp only [blockBody, hkind] at hget
      obtain ⟨hlt, hget⟩ := List.getElem?_eq_some_iff.mp hget
      have hparent : program.parent id = some parent :=
        h.parent_of_child (by rw [hkind]; exact hget ▸ List.getElem_mem hlt)
      have hnodup : body.Nodup := by simpa [hkind, StmtKind.children] using h.nodup_children parent
      have hfound : body.idxOf? id = some position := by
        refine List.idxOf?_eq_some_iff.mpr ⟨hlt, hget, fun other hother heq ↦ ?_⟩
        exact absurd (hnodup.getElem_inj_iff.mp (heq.trans hget.symm)) (Nat.ne_of_lt hother)
      simp [positionInParent, hparent, hkind, hfound]

theorem nextSibling?_eq_some (h : program.WellLinked) {next : StmtId} :
    program.nextSibling? id = some next ↔
      ∃ parent position, (program.kind parent).isBlock = true ∧
        (program.blockBody parent)[position]? = some id ∧
        (program.blockBody parent)[position + 1]? = some next := by
  constructor
  · intro hnext
    unfold nextSibling? at hnext
    split at hnext
    next parent position hposition =>
      obtain ⟨hblock, hid⟩ := h.positionInParent_eq_ok.mp hposition
      exact ⟨parent, position, hblock, hid, hnext⟩
    next => cases hnext
  · rintro ⟨parent, position, hblock, hid, hnext⟩
    rw [nextSibling?, h.positionInParent_eq_ok.mpr ⟨hblock, hid⟩]
    exact hnext

theorem prevSibling?_eq_some (h : program.WellLinked) {prev : StmtId} :
    program.prevSibling? id = some prev ↔
      ∃ parent position, (program.kind parent).isBlock = true ∧
        (program.blockBody parent)[position]? = some prev ∧
        (program.blockBody parent)[position + 1]? = some id := by
  constructor
  · intro hprev
    unfold prevSibling? at hprev
    split at hprev
    next parent position hposition =>
      obtain ⟨hblock, hid⟩ := h.positionInParent_eq_ok.mp hposition
      exact ⟨parent, position, hblock, hprev, hid⟩
    all_goals cases hprev
  · rintro ⟨parent, position, hblock, hprev, hid⟩
    rw [prevSibling?, h.positionInParent_eq_ok.mpr ⟨hblock, hid⟩]
    exact hprev

/-- In a well-linked program the walks down and the ways up say the same. The walk is the preorder
of the tree below a statement, without repeats, and there is a tree unless it would hold its own
root again. The walk lists what has the root around it, at any distance, and a function lists what
is enclosed by it, which is one function only. The nearest block around a statement is the one that
is within every other, and being next to a sibling does not depend on the side. -/
theorem walks_and_ways_up_agree (h : program.WellLinked) :
    (∀ root, ((∃ ids, program.Unfolds [root] ids) ↔ ¬ program.NestedInItself root) ∧
      ∀ ids, program.Unfolds [root] ids → program.walk root = ids ∧ ids.Nodup) ∧
    (∀ id root, (id ∈ program.walk root ↔ program.isWithin id root = true) ∧
      (program.isWithin id root = true ↔ program.Under id root)) ∧
    (∀ id function, program.HasFunction function →
      (id ∈ program.functionStmts function ↔ program.enclosingFunction? id = some function)) ∧
    (∀ id first second, program.HasFunction first → program.HasFunction second →
      id ∈ program.functionStmts first → id ∈ program.functionStmts second → first = second) ∧
    (∀ id block, (∀ outer, program.isWithin id outer = true → ¬ program.NestedInItself outer) →
      (program.enclosingBlock? id = some block ↔
        (program.kind block).isBlock = true ∧ block ≠ id ∧ program.isWithin id block = true ∧
          ∀ other, (program.kind other).isBlock = true → other ≠ id →
            program.isWithin id other = true → program.isWithin block other = true)) ∧
    ∀ id sibling, program.nextSibling? id = some sibling ↔
      program.prevSibling? sibling = some id := by
  have hfunction (id : StmtId) (function : FnId) (hhas : program.HasFunction function) :
      id ∈ program.functionStmts function ↔ program.enclosingFunction? id = some function :=
    (h.mem_functionStmts_iff hhas).trans h.enclosingFunction?_eq_some.symm
  have hwalk (root : StmtId) (ids : List StmtId) (hunfolds : program.Unfolds [root] ids) :
      program.walk root = ids ∧ ids.Nodup := by
    obtain ⟨hunfolds', hnodup⟩ := h.unfolds_walk_of (h.exists_unfolds_iff.mp ⟨ids, hunfolds⟩)
    obtain rfl := hunfolds'.unique hunfolds
    exact ⟨rfl, hnodup⟩
  refine ⟨fun root ↦ ⟨h.exists_unfolds_iff, hwalk root⟩,
    fun _ _ ↦ ⟨h.mem_walk_iff_isWithin, isWithin_iff_under⟩,
    hfunction, fun id first second hfirst hsecond hmem hmem' ↦ ?_, fun id block htree ↦ ?_,
    fun id sibling ↦ ?_⟩
  · rw [hfunction id first hfirst] at hmem
    rw [hfunction id second hsecond] at hmem'
    exact Option.some.inj (hmem.symm.trans hmem')
  · simp only [isWithin_iff_under] at htree ⊢
    exact enclosingBlock?_eq_some htree
  · rw [h.nextSibling?_eq_some, h.prevSibling?_eq_some]

end WellLinked

/-- One function whose body is a conditional with two branches and a statement after it. -/
def branchesAndNoop : Program where
  types := builtinTypes
  statements := #[
    { kind := .plain [⟨1⟩, ⟨5⟩], parent := none, span := .none, bodyOf := some ⟨0⟩ },
    { kind := .branch (.bool true) ⟨2⟩ (some ⟨3⟩), parent := some ⟨0⟩, span := .none },
    { kind := .plain [⟨4⟩], parent := some ⟨1⟩, span := .none },
    { kind := .plain [], parent := some ⟨1⟩, span := .none },
    { kind := .action .noop, parent := some ⟨2⟩, span := .none },
    { kind := .action .noop, parent := some ⟨0⟩, span := .none }]
  functions := #[{ name := "main", retType := .void, body := ⟨0⟩ }]

theorem walks_and_ways_up_branchesAndNoop :
    branchesAndNoop.WellLinked ∧
    branchesAndNoop.Unfolds [⟨0⟩] [⟨0⟩, ⟨1⟩, ⟨2⟩, ⟨4⟩, ⟨3⟩, ⟨5⟩] ∧
    branchesAndNoop.isWithin ⟨4⟩ ⟨1⟩ = true ∧
    branchesAndNoop.enclosingFunction? ⟨4⟩ = some ⟨0⟩ ∧
    branchesAndNoop.nextSibling? ⟨1⟩ = some ⟨5⟩ := by
  have hlinked : branchesAndNoop.WellLinked := by decide
  obtain ⟨hwalk, hwithin, hfunction, -, -, hsibling⟩ := hlinked.walks_and_ways_up_agree
  have hroot : ¬ branchesAndNoop.NestedInItself ⟨0⟩ := fun hnested ↦ by
    obtain ⟨_, hparent, -⟩ := Relation.TransGen.head'_iff.mp hnested
    cases hparent
  obtain ⟨ids, hunfolds⟩ := (hwalk _).1.mpr hroot
  obtain rfl : [⟨0⟩, ⟨1⟩, ⟨2⟩, ⟨4⟩, ⟨3⟩, ⟨5⟩] = ids := ((hwalk _).2 ids hunfolds).1
  exact ⟨hlinked, hunfolds, (hwithin _ _).1.mp (by decide),
    (hfunction _ _ (Nat.one_pos : 0 < 1)).mp (by decide), (hsibling _ _).mpr (by decide)⟩

end Program

end IteratorLowering
