import IteratorLowering.Proofs.Forest.Reworking
import Mathlib.Logic.Relation

/-!
# Statements in functions

A statement stands in a function when parent links lead from it to the function's body
(`Program.StandsIn`). In a well-linked program the walk of the body lists the same statements
(`WellLinked.mem_functionStmts_iff`), and `enclosingFunction?` finds the function
(`WellLinked.enclosingFunction?_eq_some`). The walk of a body is a finite unfolding that lists
every statement once (`WellLinked.unfolds_walk`), so it is closed under children, and it lists no
statement before one that it is nested in (`WellLinked.pairwise_functionStmts`).
-/

set_option autoImplicit false
set_option relaxedAutoImplicit false

namespace IteratorLowering

namespace Program

/-- Whether the first statement is the second one or is nested in it. -/
def Under (program : Program) : StmtId → StmtId → Prop :=
  Relation.ReflTransGen fun child parent ↦ program.parent child = some parent

/-- Whether a statement is the body of a function or is nested in it. -/
def StandsIn (program : Program) (function : FnId) (id : StmtId) : Prop :=
  ∃ root, program.Under id root ∧ (program.stmt root).bodyOf = some function

variable {program program' : Program} {root id : StmtId} {depth : Nat}

theorem mem_functionIds {function : FnId} :
    function ∈ program.functionIds ↔ program.HasFunction function := by
  constructor
  · intro h
    obtain ⟨index, hindex, rfl⟩ := List.mem_map.mp h
    exact List.mem_range.mp hindex
  · exact fun h ↦ List.mem_map.mpr ⟨function.index, List.mem_range.mpr h, rfl⟩

theorem nodup_functionIds (program : Program) : program.functionIds.Nodup :=
  List.nodup_range.map fun _ _ h ↦ congrArg FnId.index h

theorem self_mem_walk (program : Program) (root : StmtId) : root ∈ program.walk root := by
  unfold walk
  cases program.statements.size <;> simp [preorder]

/-- What is above a statement has it nested inside. -/
theorem under_of_mem_upwards {levels : Nat} {above : StmtId}
    (h : above ∈ program.upwards levels id) : program.Under id above := by
  induction levels generalizing id with
  | zero => exact List.mem_singleton.mp h ▸ .refl
  | succ levels ih =>
    unfold upwards at h
    split at h
    · rename_i parent hparent
      rcases List.mem_cons.mp h with rfl | h
      · exact .refl
      · exact (ih h).head hparent
    · exact List.mem_singleton.mp h ▸ .refl

namespace WellLinked

/-- The walk from a statement that is connected to a root is its unfolding, without repeats. -/
theorem unfolds_walk (h : program.WellLinked) (hdepth : program.AtDepth root depth)
    (hroot : program.Has root) :
    program.Unfolds [root] (program.walk root) ∧ (program.walk root).Nodup ∧
      ∀ id ∈ program.walk root, program.Has id := by
  obtain ⟨ids, hunfolds⟩ := h.exists_unfolds hdepth
  have hnodup := h.nodup_of_unfolds hunfolds (List.nodup_singleton _)
    fun other hother ↦ List.mem_singleton.mp hother ▸ hdepth
  have hhas := h.has_of_unfolds hunfolds hroot
  rw [hunfolds.walk_eq hnodup hhas]
  exact ⟨hunfolds, hnodup, hhas⟩

theorem child_mem_walk (h : program.WellLinked) (hdepth : program.AtDepth root depth)
    (hroot : program.Has root) {child : StmtId} (hid : id ∈ program.walk root)
    (hchild : child ∈ (program.kind id).children) : child ∈ program.walk root :=
  (h.unfolds_walk hdepth hroot).1.mem_of_child hid hchild

end WellLinked

/-! ### Nesting -/

theorem under_iff_climb {outer : StmtId} :
    program.Under id outer ↔ ∃ levels, program.climb levels id = some outer := by
  constructor
  · intro h
    induction h with
    | refl => exact ⟨0, rfl⟩
    | tail _ hparent ih =>
      obtain ⟨levels, hlevels⟩ := ih
      exact ⟨levels + 1, by rw [climb, hlevels, Option.bind_some, hparent]⟩
  · rintro ⟨levels, h⟩
    induction levels generalizing outer with
    | zero => exact Option.some.inj h ▸ .refl
    | succ levels ih =>
      obtain ⟨inner, hinner, hparent⟩ := Option.bind_eq_some_iff.mp h
      exact (ih hinner).tail hparent

theorem StandsIn.under {function : FnId} {outer : StmtId} (h : program.StandsIn function id)
    (houter : program.Under id outer) (hlinked : program.WellLinked) :
    program.StandsIn function outer := by
  obtain ⟨root, hroot, hbody⟩ := h
  -- Links up are unique, so one of the two statements around is nested in the other.
  have htotal : program.Under root outer ∨ program.Under outer root :=
    hroot.total_of_right_unique (fun _ _ _ h h' ↦ Option.some.inj (h.symm.trans h')) houter
  rcases htotal with hup | hup
  · rcases hup.cases_head with rfl | ⟨parent, hparent, _⟩
    · exact ⟨root, .refl, hbody⟩
    · rw [hlinked.parent_of_owner hbody] at hparent
      cases hparent
  · exact ⟨root, hup, hbody⟩

theorem StandsIn.inside {function : FnId} {outer : StmtId}
    (h : program.StandsIn function outer) (hunder : program.Under id outer) :
    program.StandsIn function id := by
  obtain ⟨root, hroot, hbody⟩ := h
  exact ⟨root, hunder.trans hroot, hbody⟩

/-- A path up is kept where the parents on it are. -/
theorem Under.of_place {outer : StmtId} (h : program.Under id outer)
    (hsame : ∀ {inner}, program.Under id inner → program'.parent inner = program.parent inner) :
    program'.Under id outer := by
  induction h with
  | refl => exact .refl
  | tail hunder hparent ih => exact ih.tail ((hsame hunder).trans hparent)

/-- A statement stands where it stood if everything around it does. -/
theorem StandsIn.of_place {function : FnId} (h : program.StandsIn function id)
    (hsame : ∀ {outer}, program.Under id outer → program'.parent outer = program.parent outer ∧
      (program'.stmt outer).bodyOf = (program.stmt outer).bodyOf) :
    program'.StandsIn function id := by
  obtain ⟨root, hroot, hbody⟩ := h
  exact ⟨root, hroot.of_place fun hunder ↦ (hsame hunder).1, (hsame hroot).2.trans hbody⟩

theorem StandsIn.has {function : FnId} (h : program.StandsIn function id) : program.Has id := by
  obtain ⟨root, hroot, hbody⟩ := h
  rcases hroot.cases_head with rfl | ⟨parent, hparent, _⟩
  · exact has_of_bodyOf hbody
  · exact has_of_parent hparent

/-- A statement that is in nothing and is no body of a function stands nowhere. -/
theorem not_standsIn {function : FnId} (hparent : program.parent id = none)
    (hbody : (program.stmt id).bodyOf = none) : ¬ program.StandsIn function id := by
  rintro ⟨root, hroot, hrootBody⟩
  rcases hroot.cases_head with rfl | ⟨parent, hparent', _⟩
  · rw [hbody] at hrootBody
    cases hrootBody
  · rw [hparent] at hparent'
    cases hparent'

namespace WellLinked

/-- What a statement that is no action is nested in is no action. -/
theorem compound_of_under (h : program.WellLinked) {outer : StmtId}
    (hid : (program.kind id).isAction = false) (hunder : program.Under id outer) :
    (program.kind outer).isAction = false := by
  rcases hunder.cases_tail with rfl | ⟨child, _, hparent⟩
  · exact hid
  · exact StmtKind.isAction_eq_false_of_mem (h.child_of_parent hparent)

section

/-
The other way round, what is around a statement afterwards was around it before, if nothing that
stands in the function afterwards was moved there.
-/
variable {function : FnId}

theorem under_of_place (h : program.WellLinked) (h' : program'.WellLinked)
    (hsame : ∀ {id}, program.Has id → (program.kind id).isAction = false →
      program'.StandsIn function id → program'.parent id = program.parent id ∧
        (program'.stmt id).bodyOf = (program.stmt id).bodyOf)
    (hid : program.Has id) (hcompound : (program.kind id).isAction = false)
    (hstands : program'.StandsIn function id) {outer : StmtId} (hunder : program'.Under id outer) :
    program.Under id outer := by
  induction hunder using Relation.ReflTransGen.head_induction_on with
  | refl => exact .refl
  | @head id parent hparent _ ih =>
    have hparent' := (hsame hid hcompound hstands).1.symm.trans hparent
    have hchild := h.child_of_parent hparent'
    exact (ih (has_of_mem_children hchild) (StmtKind.isAction_eq_false_of_mem hchild)
      (hstands.under (.single hparent) h')).head hparent'

theorem standsIn_of_place (h : program.WellLinked) (h' : program'.WellLinked)
    (hsame : ∀ {id}, program.Has id → (program.kind id).isAction = false →
      program'.StandsIn function id → program'.parent id = program.parent id ∧
        (program'.stmt id).bodyOf = (program.stmt id).bodyOf)
    (hid : program.Has id) (hcompound : (program.kind id).isAction = false)
    (hstands : program'.StandsIn function id) : program.StandsIn function id := by
  obtain ⟨root, hroot, hbody⟩ := hstands
  have hunder := h.under_of_place h' hsame hid hcompound ⟨root, hroot, hbody⟩ hroot
  have hrootCompound := h.compound_of_under hcompound hunder
  have hrootHas : program.Has root := by
    rcases hunder.cases_tail with rfl | ⟨child, _, hparent⟩
    · exact hid
    · exact has_of_mem_children (h.child_of_parent hparent)
  exact ⟨root, hunder, (hsame hrootHas hrootCompound ⟨root, .refl, hbody⟩).2.symm.trans hbody⟩

end

theorem atDepth_of_standsIn (h : program.WellLinked) {function : FnId}
    (hid : program.StandsIn function id) : ∃ depth, program.AtDepth id depth := by
  obtain ⟨root, hroot, hbody⟩ := hid
  obtain ⟨levels, hclimb⟩ := under_iff_climb.mp hroot
  exact ⟨0 + levels, (AtDepth.root (h.parent_of_owner hbody)).of_climb hclimb⟩

/-- What is around a statement that stands in a function is not nested in it. -/
theorem not_under_of_parent (h : program.WellLinked) {function : FnId} {outer : StmtId}
    (houter : program.StandsIn function outer) (hparent : program.parent id = some outer) :
    ¬ program.Under outer id := by
  intro hunder
  obtain ⟨depth, hdepth⟩ := h.atDepth_of_standsIn houter
  obtain ⟨levels, hclimb⟩ := under_iff_climb.mp hunder
  have := hdepth.unique ((AtDepth.child hparent hdepth).of_climb hclimb)
  omega

/-- The walk from a statement of a function lists what is nested in the statement. -/
theorem mem_walk_iff (h : program.WellLinked) {function : FnId}
    (hroot : program.StandsIn function root) :
    id ∈ program.walk root ↔ program.Under id root := by
  obtain ⟨_, hdepth⟩ := h.atDepth_of_standsIn hroot
  constructor
  · intro hid
    obtain ⟨other, hmem, levels, hclimb⟩ :=
      h.exists_climb (h.unfolds_walk hdepth hroot.has).1 hid
    rw [List.mem_singleton.mp hmem] at hclimb
    exact under_iff_climb.mpr ⟨levels, hclimb⟩
  · intro hunder
    -- The root is in its walk, and with a statement its children are.
    induction hunder using Relation.ReflTransGen.head_induction_on with
    | refl => exact self_mem_walk program _
    | head hparent _ ih => exact h.child_mem_walk hdepth hroot.has ih (h.child_of_parent hparent)

/-- A statement that stands in a function is not its own parent. -/
theorem parent_ne_self (h : program.WellLinked) {function : FnId}
    (hid : program.StandsIn function id) : program.parent id ≠ some id := by
  obtain ⟨depth, hdepth⟩ := h.atDepth_of_standsIn hid
  intro hself
  have := hdepth.unique (.child hself hdepth)
  omega

theorem standsIn_body (h : program.WellLinked) {function : FnId}
    (hfunction : program.HasFunction function) :
    program.StandsIn function (program.bodyOf function) :=
  ⟨_, .refl, h.bodyOf_body hfunction⟩

/-- Going up from a statement leads to the root that it is connected to. -/
theorem getLast?_upwards {levels depth : Nat}
    (hdepth : program.AtDepth id depth) (hunder : program.Under id root)
    (hroot : program.parent root = none) (hle : depth ≤ levels) :
    (program.upwards levels id).getLast? = some root := by
  induction levels generalizing id depth with
  | zero =>
    obtain rfl : depth = 0 := Nat.le_zero.mp hle
    rcases hunder.cases_head with rfl | ⟨parent, hparent, _⟩
    · rfl
    · cases hdepth with
      | root hnone => simp [hnone] at hparent
  | succ levels ih =>
    unfold upwards
    rcases hunder.cases_head with rfl | ⟨parent, hparent, hup⟩
    · rw [hroot]
      rfl
    · cases hdepth with
      | root hnone => simp [hnone] at hparent
      | child hparent' above =>
        obtain rfl := Option.some.inj (hparent.symm.trans hparent')
        have hlast := ih above hup (by omega)
        simp only [hparent, List.getLast?_cons, hlast, Option.getD_some]

/-- The function around a statement is the one whose body it is nested in. -/
theorem enclosingFunction?_eq_some (h : program.WellLinked) {function : FnId} :
    program.enclosingFunction? id = some function ↔ program.StandsIn function id := by
  refine ⟨fun henclosing ↦ ?_, fun hid ↦ ?_⟩
  · obtain ⟨root, hlast, hbody⟩ := Option.bind_eq_some_iff.mp henclosing
    refine ⟨root, ?_, hbody⟩
    exact under_of_mem_upwards (List.mem_of_getLast? hlast)
  · obtain ⟨depth, hdepth⟩ := h.atDepth_of_standsIn hid
    have hlt := h.depth_lt hdepth hid.has
    obtain ⟨root, hroot, hbody⟩ := hid
    have hlast := getLast?_upwards hdepth hroot (h.parent_of_owner hbody) (Nat.le_of_lt hlt)
    exact Option.bind_eq_some_iff.mpr ⟨root, hlast, hbody⟩

theorem standsIn_unique (h : program.WellLinked) {first second : FnId}
    (hfirst : program.StandsIn first id) (hsecond : program.StandsIn second id) :
    first = second :=
  Option.some.inj ((h.enclosingFunction?_eq_some.mpr hfirst).symm.trans
    (h.enclosingFunction?_eq_some.mpr hsecond))

theorem hasFunction_of_standsIn (h : program.WellLinked) {function : FnId}
    (hid : program.StandsIn function id) : program.HasFunction function := by
  obtain ⟨root, _, hbody⟩ := hid
  exact (h.body_of_bodyOf hbody).1

/-- The function around a statement that is no action has a body that is no action. -/
theorem compound_body (h : program.WellLinked) {owner : FnId}
    (hid : (program.kind id).isAction = false)
    (howner : program.enclosingFunction? id = some owner) :
    program.HasFunction owner ∧ (program.kind (program.bodyOf owner)).isAction = false := by
  obtain ⟨root, hroot, hbody⟩ := h.enclosingFunction?_eq_some.mp howner
  obtain ⟨hfunction, rfl⟩ := h.body_of_bodyOf hbody
  exact ⟨hfunction, h.compound_of_under hid hroot⟩

theorem mem_functionStmts_iff (h : program.WellLinked) {function : FnId}
    (hfunction : program.HasFunction function) :
    id ∈ program.functionStmts function ↔ program.StandsIn function id := by
  rw [functionStmts, h.mem_walk_iff (h.standsIn_body hfunction)]
  constructor
  · exact fun hunder ↦ ⟨_, hunder, h.bodyOf_body hfunction⟩
  · rintro ⟨root, hunder, hbody⟩
    obtain ⟨_, rfl⟩ := h.body_of_bodyOf hbody
    exact hunder

/-- The preorder of a function is the unfolding of its body, and lists every statement once. -/
theorem unfolds_functionStmts (h : program.WellLinked) {function : FnId}
    (hfunction : program.HasFunction function) :
    program.Unfolds [program.bodyOf function] (program.functionStmts function) ∧
      (program.functionStmts function).Nodup := by
  obtain ⟨hunfolds, hnodup, -⟩ := h.unfolds_walk (.root (h.parent_body hfunction))
    (h.has_body hfunction)
  exact ⟨hunfolds, hnodup⟩

/-- What is listed in an unfolding is nested in no statement that comes later. -/
theorem pairwise_of_unfolds (h : program.WellLinked) {roots ids : List StmtId}
    (hunfolds : program.Unfolds roots ids) (hroots : roots.Nodup)
    (hdepth : ∀ root ∈ roots, program.AtDepth root depth) :
    ids.Pairwise fun first second ↦ ¬ program.Under first second := by
  induction hunfolds generalizing depth with
  | nil => exact .nil
  | @cons root rest below after inside beside ihInside ihBeside =>
    obtain ⟨hroot, hrest⟩ := List.nodup_cons.mp hroots
    have hself := hdepth root List.mem_cons_self
    have hbeside : ∀ other ∈ rest, program.AtDepth other depth :=
      fun other hother ↦ hdepth other (List.mem_cons_of_mem _ hother)
    have hbelow : ∀ child ∈ (program.kind root).children, program.AtDepth child (depth + 1) :=
      fun child hchild ↦ .child (h.parent_of_child hchild) hself
    have hinside : ∀ id ∈ below, ∃ levels, program.climb (levels + 1) id = some root := by
      intro id hid
      obtain ⟨child, hchild, levels, hclimb⟩ := h.exists_climb inside hid
      exact ⟨levels, by rw [climb, hclimb, Option.bind_some, h.parent_of_child hchild]⟩
    -- What is beside the root is nested in another root of the same depth.
    have hafter : ∀ first, program.Under first root → ∀ second ∈ after,
        ¬ program.Under first second := by
      intro first hfirst second hsecond hunder
      obtain ⟨other, hother, levels, hclimb⟩ := h.exists_climb beside hsecond
      obtain ⟨_, hclimb⟩ := under_iff_climb.mp (hunder.trans (under_iff_climb.mpr ⟨levels, hclimb⟩))
      obtain ⟨_, hclimb'⟩ := under_iff_climb.mp hfirst
      exact hroot (hself.ancestor_unique (hbeside other hother) hclimb' hclimb ▸ hother)
    have hup : ∀ id ∈ below, program.Under id root := fun id hid ↦ by
      obtain ⟨levels, hclimb⟩ := hinside id hid
      exact under_iff_climb.mpr ⟨levels + 1, hclimb⟩
    refine List.pairwise_cons.mpr ⟨fun second hsecond ↦ ?_, List.pairwise_append.mpr
      ⟨ihInside (h.nodup_children root) hbelow, ihBeside hrest hbeside,
        fun first hfirst ↦ hafter first (hup first hfirst)⟩⟩
    rcases List.mem_append.mp hsecond with hsecond | hsecond
    · intro hunder
      obtain ⟨levels, hclimb⟩ := hinside second hsecond
      obtain ⟨levels', hclimb'⟩ := under_iff_climb.mp hunder
      have := hself.unique (((hself.of_climb hclimb).of_climb hclimb'))
      omega
    · exact hafter root .refl second hsecond

theorem pairwise_functionStmts (h : program.WellLinked) {function : FnId}
    (hfunction : program.HasFunction function) :
    (program.functionStmts function).Pairwise fun first second ↦
      ¬ program.Under first second := by
  have hroot : program.AtDepth (program.bodyOf function) 0 := .root (h.parent_body hfunction)
  exact h.pairwise_of_unfolds (h.unfolds_walk hroot (h.has_body hfunction)).1
    (List.nodup_singleton _) fun other hother ↦ List.mem_singleton.mp hother ▸ hroot

end WellLinked

/-- What is in a walk is the root or a child of something. -/
theorem root_or_child_of_mem_preorder {depth : Nat} (hid : id ∈ program.preorder depth root) :
    id = root ∨ ∃ parent, id ∈ (program.kind parent).children := by
  induction depth generalizing root with
  | zero => exact .inl (List.mem_singleton.mp hid)
  | succ depth ih =>
    rcases List.mem_cons.mp hid with rfl | hid
    · exact .inl rfl
    · obtain ⟨child, hchild, hid⟩ := List.mem_flatMap.mp hid
      rcases ih hid with rfl | hid
      · exact .inr ⟨root, hchild⟩
      · exact .inr hid

theorem isAction_of_findDefinition {symbol : SymId}
    (hid : program.findDefinition? root symbol = some id) :
    (program.kind id).isAction = true := by
  have hdefined := List.find?_some hid
  cases hkind : program.kind id with
  | action => rfl
  | branch | block => simp [hkind, StmtKind.defined?] at hdefined

/-- The declaration of a symbol in a tree whose root is no action can be moved. -/
theorem loose_of_findDefinition {scope : Scope} {symbol : SymId} (h : program.WellLinked)
    (hroot : (program.kind root).isAction = false)
    (hid : program.findDefinition? root symbol = some id) : program.Loose scope id := by
  have haction := isAction_of_findDefinition hid
  rcases root_or_child_of_mem_preorder (List.mem_of_find?_eq_some hid) with rfl | ⟨parent, hchild⟩
  · rw [haction] at hroot
    cases hroot
  · have hparent := h.parent_of_child hchild
    exact ⟨has_of_parent hparent, h.ownerless_of_parent hparent, .inr haction⟩

end Program

end IteratorLowering
