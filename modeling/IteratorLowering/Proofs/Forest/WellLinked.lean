import IteratorLowering.Proofs.Forest.Unfolding

/-!
# Well-linked programs

A program is well linked when its parent links and its child lists say the same and the bodies of
its functions are roots (`Program.WellLinked`). Nothing in the definition mentions finiteness: a
statement without a parent still has a finite tree below it, since a path downwards never meets
a statement twice (`WellLinked.exists_unfolds`), and the tree lists no statement twice
(`WellLinked.nodup_of_unfolds`).
-/

set_option autoImplicit false
set_option relaxedAutoImplicit false

namespace IteratorLowering

namespace Program

/-- The parent links, the child lists and the links between functions and bodies agree. -/
structure WellLinked (program : Program) : Prop where
  parent_of_child : ∀ {id child : StmtId}, child ∈ (program.kind id).children →
    program.parent child = some id
  child_of_parent : ∀ {id parent : StmtId}, program.parent id = some parent →
    id ∈ (program.kind parent).children
  nodup_children : ∀ id : StmtId, (program.kind id).children.Nodup
  parent_body : ∀ {function : FnId}, function.index < program.functions.size →
    program.parent (program.bodyOf function) = none
  bodyOf_body : ∀ {function : FnId}, function.index < program.functions.size →
    (program.stmt (program.bodyOf function)).bodyOf = some function
  body_of_bodyOf : ∀ {id : StmtId} {function : FnId}, (program.stmt id).bodyOf = some function →
    function.index < program.functions.size ∧ program.bodyOf function = id

/-- The number of parent links between a statement and its root. -/
inductive AtDepth (program : Program) : StmtId → Nat → Prop
  | root {id : StmtId} (h : program.parent id = none) : AtDepth program id 0
  | child {id parent : StmtId} {depth : Nat} (h : program.parent id = some parent)
      (above : AtDepth program parent depth) : AtDepth program id (depth + 1)

/-- The statement that the given number of parent links leads to. -/
def climb (program : Program) : Nat → StmtId → Option StmtId
  | 0, id => some id
  | levels + 1, id => (program.climb levels id).bind program.parent

variable {program : Program}

theorem AtDepth.unique {id : StmtId} {depth depth' : Nat} (h : program.AtDepth id depth)
    (h' : program.AtDepth id depth') : depth = depth' := by
  induction h generalizing depth' with
  | root hroot =>
    obtain _ | ⟨hparent, _⟩ := h'
    · rfl
    · simp [hroot] at hparent
  | child hparent _ ih =>
    obtain hroot | ⟨hparent', above⟩ := h'
    · simp [hroot] at hparent
    · rw [hparent] at hparent'
      cases hparent'
      rw [ih above]

theorem AtDepth.of_climb {id ancestor : StmtId} {depth levels : Nat}
    (h : program.AtDepth ancestor depth) (hclimb : program.climb levels id = some ancestor) :
    program.AtDepth id (depth + levels) := by
  induction levels generalizing ancestor depth with
  | zero => cases hclimb; exact h
  | succ levels ih =>
    obtain ⟨child, hchild, hparent⟩ := Option.bind_eq_some_iff.mp hclimb
    have := ih (.child hparent h) hchild
    rwa [Nat.add_right_comm] at this

/-- Two ancestors at one depth are the same. -/
theorem AtDepth.ancestor_unique {id first second : StmtId} {depth levels levels' : Nat}
    (hfirst : program.AtDepth first depth) (hsecond : program.AtDepth second depth)
    (hclimb : program.climb levels id = some first)
    (hclimb' : program.climb levels' id = some second) : first = second := by
  have hdepth := (hfirst.of_climb hclimb).unique (hsecond.of_climb hclimb')
  have hlevels : levels = levels' := by omega
  subst hlevels
  exact Option.some.inj (hclimb.symm.trans hclimb')

namespace WellLinked

theorem has_of_child (h : program.WellLinked) {id child : StmtId}
    (hchild : child ∈ (program.kind id).children) : program.Has child :=
  has_of_parent (h.parent_of_child hchild)

theorem eq_of_child (h : program.WellLinked) {first second child : StmtId}
    (hfirst : child ∈ (program.kind first).children)
    (hsecond : child ∈ (program.kind second).children) : first = second :=
  Option.some.inj ((h.parent_of_child hfirst).symm.trans (h.parent_of_child hsecond))

/-- The path from a statement to its root lists that many different statements. -/
theorem exists_path (h : program.WellLinked) {id : StmtId} {depth : Nat}
    (hdepth : program.AtDepth id depth) (hid : program.Has id) :
    ∃ path : List StmtId, path.length = depth + 1 ∧ path.Nodup ∧
      (∀ step ∈ path, program.Has step ∧ ∃ above ≤ depth, program.AtDepth step above) := by
  induction hdepth with
  | @root id hroot => exact ⟨[id], by simp [hid, AtDepth.root hroot]⟩
  | @child id parent depth hparent above ih =>
    obtain ⟨path, hlength, hnodup, hpath⟩ :=
      ih (has_of_mem_children (h.child_of_parent hparent))
    have hself : program.AtDepth id (depth + 1) := .child hparent above
    refine ⟨id :: path, by simp [hlength], List.nodup_cons.mpr ⟨fun hmem ↦ ?_, hnodup⟩, ?_⟩
    · obtain ⟨_, above, hle, habove⟩ := hpath id hmem
      have := hself.unique habove
      omega
    · intro step hstep
      rcases List.mem_cons.mp hstep with rfl | hstep
      · exact ⟨hid, depth + 1, Nat.le_refl _, hself⟩
      · obtain ⟨hhas, above, hle, habove⟩ := hpath step hstep
        exact ⟨hhas, above, by omega, habove⟩

theorem depth_lt (h : program.WellLinked) {id : StmtId} {depth : Nat}
    (hdepth : program.AtDepth id depth) (hid : program.Has id) :
    depth < program.statements.size := by
  obtain ⟨path, hlength, hnodup, hpath⟩ := h.exists_path hdepth hid
  have := Unfolds.length_le_of_nodup hnodup fun step hstep ↦ (hpath step hstep).1
  omega

theorem exists_unfolds_of_forall {roots : List StmtId}
    (hroots : ∀ root ∈ roots, ∃ ids, program.Unfolds [root] ids) :
    ∃ ids, program.Unfolds roots ids := by
  induction roots with
  | nil => exact ⟨[], .nil⟩
  | cons root rest ih =>
    obtain ⟨first, hfirst⟩ := hroots root List.mem_cons_self
    obtain ⟨second, hsecond⟩ := ih fun other hother ↦ hroots other (List.mem_cons_of_mem _ hother)
    exact ⟨first ++ second, hfirst.append hsecond⟩

/-- A statement that is connected to a root has a finite tree below it. -/
theorem exists_unfolds (h : program.WellLinked) {id : StmtId} {depth : Nat}
    (hdepth : program.AtDepth id depth) : ∃ ids, program.Unfolds [id] ids := by
  -- Induction on the number of levels that the arena has room for below the statement.
  obtain ⟨room, hroom⟩ : ∃ room, program.statements.size ≤ depth + room :=
    ⟨program.statements.size, by omega⟩
  induction room generalizing id depth with
  | zero =>
    have hchildren : (program.kind id).children = [] := by
      refine List.eq_nil_iff_forall_not_mem.mpr fun child hchild ↦ ?_
      have := h.depth_lt (.child (h.parent_of_child hchild) hdepth) (h.has_of_child hchild)
      omega
    exact ⟨[id], .singleton (by rw [hchildren]; exact .nil)⟩
  | succ room ih =>
    obtain ⟨below, hbelow⟩ := @exists_unfolds_of_forall program (program.kind id).children
      fun child hchild ↦ ih (.child (h.parent_of_child hchild) hdepth) (by omega)
    exact ⟨id :: below, .singleton hbelow⟩

theorem exists_climb (h : program.WellLinked) {roots ids : List StmtId}
    (hunfolds : program.Unfolds roots ids) {id : StmtId} (hid : id ∈ ids) :
    ∃ root ∈ roots, ∃ levels, program.climb levels id = some root := by
  induction hunfolds with
  | nil => cases hid
  | @cons root rest below after inside beside ihInside ihBeside =>
    rcases List.mem_cons.mp hid with rfl | hid
    · exact ⟨id, List.mem_cons_self, 0, rfl⟩
    · rcases List.mem_append.mp hid with hid | hid
      · obtain ⟨child, hchild, levels, hclimb⟩ := ihInside hid
        refine ⟨root, List.mem_cons_self, levels + 1, ?_⟩
        rw [climb, hclimb, Option.bind_some, h.parent_of_child hchild]
      · obtain ⟨found, hfound, hclimb⟩ := ihBeside hid
        exact ⟨found, List.mem_cons_of_mem _ hfound, hclimb⟩

/-- The trees below different statements of one depth list no statement twice. -/
theorem nodup_of_unfolds (h : program.WellLinked) {roots ids : List StmtId} {depth : Nat}
    (hunfolds : program.Unfolds roots ids) (hroots : roots.Nodup)
    (hdepth : ∀ root ∈ roots, program.AtDepth root depth) : ids.Nodup := by
  induction hunfolds generalizing depth with
  | nil => exact List.nodup_nil
  | @cons root rest below after inside beside ihInside ihBeside =>
    obtain ⟨hroot, hrest⟩ := List.nodup_cons.mp hroots
    have hself := hdepth root List.mem_cons_self
    have hbelow : ∀ child ∈ (program.kind root).children, program.AtDepth child (depth + 1) :=
      fun child hchild ↦ .child (h.parent_of_child hchild) hself
    have hbeside : ∀ other ∈ rest, program.AtDepth other depth :=
      fun other hother ↦ hdepth other (List.mem_cons_of_mem _ hother)
    have hafter : ∀ id ∈ after, ∀ levels, program.climb levels id ≠ some root := by
      intro id hid levels hclimb
      obtain ⟨other, hother, levels', hclimb'⟩ := h.exists_climb beside hid
      exact hroot (hself.ancestor_unique (hbeside other hother) hclimb hclimb' ▸ hother)
    have hinside : ∀ id ∈ below, ∃ levels, program.climb (levels + 1) id = some root := by
      intro id hid
      obtain ⟨child, hchild, levels, hclimb⟩ := h.exists_climb inside hid
      exact ⟨levels, by rw [climb, hclimb, Option.bind_some, h.parent_of_child hchild]⟩
    refine List.nodup_cons.mpr ⟨fun hmem ↦ ?_, List.nodup_append.mpr
      ⟨ihInside (h.nodup_children root) hbelow, ihBeside hrest hbeside, ?_⟩⟩
    · rcases List.mem_append.mp hmem with hmem | hmem
      · obtain ⟨levels, hclimb⟩ := hinside root hmem
        have := hself.unique (hself.of_climb hclimb)
        omega
      · exact hafter root hmem 0 rfl
    · rintro id hid other hother rfl
      obtain ⟨levels, hclimb⟩ := hinside id hid
      exact hafter id hother _ hclimb

theorem has_of_unfolds (h : program.WellLinked) {root : StmtId} {ids : List StmtId}
    (hunfolds : program.Unfolds [root] ids) (hroot : program.Has root) :
    ∀ id ∈ ids, program.Has id := by
  intro id hid
  rcases hunfolds.root_or_child hid with hmem | ⟨parent, _, hchild⟩
  · exact List.mem_singleton.mp hmem ▸ hroot
  · exact h.has_of_child hchild

theorem has_body (h : program.WellLinked) {function : FnId}
    (hfunction : function.index < program.functions.size) :
    program.Has (program.bodyOf function) :=
  has_of_bodyOf (h.bodyOf_body hfunction)

end WellLinked

/-! ### Checking links -/

/-- The links of the statements and functions whose handles are in use agree. -/
def ChecksLinks (program : Program) : Prop :=
  (∀ index < program.statements.size,
    (∀ child ∈ (program.kind ⟨index⟩).children, program.parent child = some ⟨index⟩) ∧
    (∀ parent ∈ program.parent ⟨index⟩, ⟨index⟩ ∈ (program.kind parent).children) ∧
    (program.kind ⟨index⟩).children.Nodup ∧
    ∀ function ∈ (program.stmt ⟨index⟩).bodyOf,
      function.index < program.functions.size ∧ program.bodyOf function = ⟨index⟩) ∧
  ∀ index < program.functions.size, program.parent (program.bodyOf ⟨index⟩) = none ∧
    (program.stmt (program.bodyOf ⟨index⟩)).bodyOf = some ⟨index⟩

instance (program : Program) : Decidable program.ChecksLinks :=
  inferInstanceAs (Decidable (_ ∧ _))

/-- A handle that is not in use has no links, so it need not be checked. -/
theorem checksLinks_iff : program.ChecksLinks ↔ program.WellLinked := by
  refine ⟨fun ⟨hstatements, hfunctions⟩ ↦ ?_, fun h ↦ ⟨fun index _ ↦ ?_, fun index hindex ↦ ?_⟩⟩
  · refine ⟨fun hchild ↦ ?_, fun hparent ↦ ?_, fun id ↦ ?_, fun hfunction ↦ ?_, fun hfunction ↦ ?_,
      fun hbody ↦ ?_⟩
    · exact (hstatements _ (has_of_mem_children hchild)).1 _ hchild
    · exact (hstatements _ (has_of_parent hparent)).2.1 _ hparent
    · by_cases hid : program.Has id
      · exact (hstatements _ hid).2.2.1
      · rw [Program.kind, stmt_of_not_has hid]
        exact List.nodup_nil
    · exact (hfunctions _ hfunction).1
    · exact (hfunctions _ hfunction).2
    · exact (hstatements _ (has_of_bodyOf hbody)).2.2.2 _ hbody
  · exact ⟨fun _ hchild ↦ h.parent_of_child hchild, fun _ hparent ↦ h.child_of_parent hparent,
      h.nodup_children _, fun _ hbody ↦ h.body_of_bodyOf hbody⟩
  · exact ⟨h.parent_body hindex, h.bodyOf_body hindex⟩

instance (program : Program) : Decidable program.WellLinked :=
  decidable_of_iff program.ChecksLinks checksLinks_iff

end Program

end IteratorLowering
