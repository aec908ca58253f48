import IteratorLowering.Proofs.Forest.WellLinked

/-!
# Moves that keep a program well linked

Every edit of the statement forest is made of a few moves: a detached statement is put into a
block (`WellLinked.attach`), a member is taken out of its block (`WellLinked.detach`) or all
members are (`WellLinked.release`), a detached statement takes the place of another one
(`WellLinked.exchange`), and a new statement takes detached ones as its children
(`WellLinked.newStmt`). Changes that leave the children alone keep
the links as they are (`WellLinked.congr`).
-/

set_option autoImplicit false
set_option relaxedAutoImplicit false

namespace IteratorLowering

namespace Program

/-- A statement that stands nowhere: it has no parent and is no function's body. -/
structure Detached (program : Program) (id : StmtId) : Prop where
  has : program.Has id
  parent : program.parent id = none
  owner : (program.stmt id).bodyOf = none

section

variable {ids : List StmtId} {old new child : StmtId}

/-- What is in a list after one of its members was replaced. -/
theorem mem_map_replace_iff (hold : old ∈ ids) :
    child ∈ ids.map (fun other ↦ if other = old then new else other) ↔
      child = new ∨ child ∈ ids ∧ child ≠ old := by
  rw [List.mem_map]
  constructor
  · rintro ⟨found, hfound, rfl⟩
    by_cases heq : found = old
    · exact .inl (if_pos heq)
    · rw [if_neg heq]
      exact .inr ⟨hfound, heq⟩
  · rintro (rfl | ⟨hchild, hne⟩)
    · exact ⟨old, hold, if_pos rfl⟩
    · exact ⟨child, hchild, if_neg hne⟩

theorem nodup_map_replace (hnodup : ids.Nodup) (hnew : new ∉ ids) :
    (ids.map fun other ↦ if other = old then new else other).Nodup := by
  refine hnodup.map_on fun first hfirst second hsecond heq ↦ ?_
  split at heq <;> split at heq
  · simp_all
  · exact absurd (heq ▸ hsecond) hnew
  · exact absurd (heq ▸ hfirst) hnew
  · exact heq

end

/-- Programs with the same functions have the same bodies. -/
theorem bodyOf_congr {program program' : Program} (h : program'.functions = program.functions)
    (function : FnId) : program'.bodyOf function = program.bodyOf function := by
  rw [bodyOf, Program.function, h, bodyOf, Program.function]

/-- The program in which another statement is the body of a function. -/
def moveBody (program : Program) (old new : StmtId) (function : FnId) : Program :=
  ((program.setBodyOf old none).setBodyOf new (some function)).modifyFunction function
    fun definition ↦ { definition with body := new }

section

variable (program : Program) (old new : StmtId) (function : FnId)

theorem kind_moveBody (id : StmtId) :
    (program.moveBody old new function).kind id = program.kind id :=
  (kind_setBodyOf ..).trans (kind_setBodyOf ..)

theorem parent_moveBody (id : StmtId) :
    (program.moveBody old new function).parent id = program.parent id :=
  (parent_setBodyOf ..).trans (parent_setBodyOf ..)

theorem has_moveBody (id : StmtId) :
    (program.moveBody old new function).Has id ↔ program.Has id :=
  (has_setBodyOf ..).trans (has_setBodyOf ..)

theorem size_functions_moveBody :
    (program.moveBody old new function).functions.size = program.functions.size := by
  simp [moveBody, modifyFunction, setBodyOf, modifyStmt]

end

section

variable {program : Program} {old new : StmtId} {function : FnId}

theorem owner_moveBody (hold : program.Has old) (hnew : program.Has new) (id : StmtId) :
    ((program.moveBody old new function).stmt id).bodyOf =
      if id = new then some function else if id = old then none
      else (program.stmt id).bodyOf := by
  refine (owner_setBodyOf ..).trans ?_
  simp only [owner_setBodyOf, has_setBodyOf, hnew, hold, and_true]

theorem bodyOf_moveBody (hfunction : function.index < program.functions.size) (other : FnId) :
    (program.moveBody old new function).bodyOf other =
      if other = function then new else program.bodyOf other := by
  rw [bodyOf, moveBody, function_modifyFunction]
  by_cases heq : other = function
  · rw [if_pos ⟨heq, hfunction⟩, if_pos heq]
  · rw [if_neg fun hand ↦ heq hand.1, if_neg heq]
    rfl

end

namespace WellLinked

variable {program program' : Program}

theorem mem_children_iff (h : program.WellLinked) {id child : StmtId} :
    child ∈ (program.kind id).children ↔ program.parent child = some id :=
  ⟨h.parent_of_child, h.child_of_parent⟩

/-- The links of a changed program agree if its children and parents do and its bodies are the
old ones, still without a parent. -/
theorem of_links (h : program.WellLinked)
    (hlinks : ∀ id child, child ∈ (program'.kind id).children ↔ program'.parent child = some id)
    (hnodup : ∀ id, (program'.kind id).children.Nodup)
    (hbodies : ∀ id function, (program.stmt id).bodyOf = some function →
      program'.parent id = none)
    (howner : ∀ id, (program'.stmt id).bodyOf = (program.stmt id).bodyOf)
    (hfunctions : program'.functions = program.functions) : program'.WellLinked := by
  have hbody := bodyOf_congr hfunctions
  constructor
  · exact fun hchild ↦ (hlinks _ _).mp hchild
  · exact fun hparent ↦ (hlinks _ _).mpr hparent
  · exact hnodup
  · intro function hfunction
    rw [hbody]
    exact hbodies _ _ (h.bodyOf_body (hfunctions ▸ hfunction))
  · intro function hfunction
    rw [hbody, howner]
    exact h.bodyOf_body (hfunctions ▸ hfunction)
  · intro id function hid
    rw [howner] at hid
    rw [hbody, hfunctions]
    exact h.body_of_bodyOf hid

theorem parent_of_owner (h : program.WellLinked) {id : StmtId} {function : FnId}
    (hid : (program.stmt id).bodyOf = some function) : program.parent id = none := by
  obtain ⟨hfunction, rfl⟩ := h.body_of_bodyOf hid
  exact h.parent_body hfunction

theorem ownerless_of_parent (h : program.WellLinked) {id parent : StmtId}
    (hparent : program.parent id = some parent) : (program.stmt id).bodyOf = none := by
  by_contra howner
  obtain ⟨function, howner⟩ := Option.ne_none_iff_exists'.mp howner
  rw [h.parent_of_owner howner] at hparent
  cases hparent

theorem congr (h : program.WellLinked)
    (hchildren : ∀ id, (program'.kind id).children = (program.kind id).children)
    (hparent : ∀ id, program'.parent id = program.parent id)
    (howner : ∀ id, (program'.stmt id).bodyOf = (program.stmt id).bodyOf)
    (hfunctions : program'.functions = program.functions) : program'.WellLinked := by
  refine h.of_links (fun id child ↦ ?_) (fun id ↦ ?_) (fun id function hid ↦ ?_) howner hfunctions
  · rw [hchildren, hparent]
    exact h.mem_children_iff
  · rw [hchildren]
    exact h.nodup_children id
  · rw [hparent]
    exact h.parent_of_owner hid

/-- Links are in the statements and in the bodies of functions and nowhere else. -/
theorem of_tables (h : program.WellLinked) (hstatements : program'.statements = program.statements)
    (hsize : program'.functions.size = program.functions.size)
    (hbody : ∀ id, program'.bodyOf id = program.bodyOf id) : program'.WellLinked := by
  have hstmt : ∀ id, program'.stmt id = program.stmt id := fun id ↦ by
    rw [stmt, stmt, hstatements]
  constructor
  · simpa only [Program.kind, parent, hstmt] using @h.parent_of_child
  · simpa only [Program.kind, parent, hstmt] using @h.child_of_parent
  · simpa only [Program.kind, hstmt] using h.nodup_children
  · simpa only [parent, hstmt, hsize, hbody] using @h.parent_body
  · simpa only [hstmt, hsize, hbody] using @h.bodyOf_body
  · simpa only [hstmt, hsize, hbody] using @h.body_of_bodyOf

theorem not_child_of_detached (h : program.WellLinked) {id new : StmtId}
    (hnew : program.Detached new) : new ∉ (program.kind id).children := by
  rw [h.mem_children_iff, hnew.parent]
  exact nofun

theorem attach (h : program.WellLinked) {block new : StmtId} {info : Option BlockInfo}
    {before after : List StmtId} (hkind : program.kind block = .block info (before ++ after))
    (hnew : program.Detached new) :
    ((program.setKind block (.block info (before ++ new :: after))).setParent new
      (some block)).WellLinked := by
  have hblock := has_of_kind_block hkind
  have hfresh : new ∉ (program.kind block).children := h.not_child_of_detached hnew
  have hold : ∀ child, child ∈ before ++ after ↔ program.parent child = some block := by
    intro child
    rw [← h.mem_children_iff, hkind]
    rfl
  refine h.of_links (fun id child ↦ ?_) (fun id ↦ ?_) (fun id function hid ↦ ?_) (fun id ↦ ?_) rfl
  · simp only [kind_setParent, kind_setKind, parent_setParent, parent_setKind, has_setKind,
      hnew.has, hblock, and_true]
    by_cases hid : id = block
    · subst hid
      simp only [if_true, StmtKind.children, List.mem_append, List.mem_cons]
      have hchild := hold child
      rw [List.mem_append] at hchild
      by_cases hnew' : child = new
      · simp [hnew']
      · simp [hnew', hchild]
    · simp only [hid, if_false]
      by_cases hnew' : child = new
      · subst hnew'
        simp only [if_true, Option.some.injEq, Ne.symm hid, iff_false]
        exact h.not_child_of_detached hnew
      · simp only [hnew', if_false]
        exact h.mem_children_iff
  · simp only [kind_setParent, kind_setKind, hblock, and_true]
    split
    · have hnodup := h.nodup_children block
      rw [hkind] at hnodup hfresh
      exact (List.perm_middle.nodup_iff).mpr (List.nodup_cons.mpr ⟨hfresh, hnodup⟩)
    · exact h.nodup_children id
  · rw [parent_setParent, parent_setKind, if_neg]
    · exact h.parent_of_owner hid
    · rintro ⟨rfl, _⟩
      rw [hnew.owner] at hid
      cases hid
  · rw [owner_setParent, owner_setKind]

theorem detach (h : program.WellLinked) {block id : StmtId} {info : Option BlockInfo}
    {before after : List StmtId}
    (hkind : program.kind block = .block info (before ++ id :: after)) :
    ((program.setKind block (.block info (before ++ after))).setParent id none).WellLinked := by
  have hblock := has_of_kind_block hkind
  have hmem : ∀ child, child ∈ before ++ id :: after ↔ program.parent child = some block := by
    intro child
    rw [← h.mem_children_iff, hkind]
    rfl
  have hid := (hmem id).mp (by simp)
  have hnodup := h.nodup_children block
  rw [hkind] at hnodup
  obtain ⟨hnot, hrest⟩ := List.nodup_cons.mp (List.perm_middle.nodup_iff.mp hnodup)
  refine h.of_links (fun other child ↦ ?_) (fun other ↦ ?_) (fun other function hother ↦ ?_)
    (fun other ↦ ?_) rfl
  · simp only [kind_setParent, kind_setKind, parent_setParent, parent_setKind, has_setKind,
      has_of_parent hid, hblock, and_true]
    by_cases hchild : child = id
    · subst hchild
      simp only [if_true, reduceCtorEq, iff_false]
      split
      · exact hnot
      · rename_i hother
        rw [h.mem_children_iff, hid]
        exact fun heq ↦ hother (Option.some.inj heq).symm
    · simp only [hchild, if_false]
      split
      · rename_i hother
        subst hother
        rw [← hmem]
        simp [StmtKind.children, hchild]
      · exact h.mem_children_iff
  · simp only [kind_setParent, kind_setKind, hblock, and_true]
    split
    · exact hrest
    · exact h.nodup_children other
  · rw [parent_setParent, parent_setKind]
    split
    · rfl
    · exact h.parent_of_owner hother
  · rw [owner_setParent, owner_setKind]

/-- All members are taken out of a block. -/
theorem release (h : program.WellLinked) {block : StmtId} {info : Option BlockInfo}
    {body : List StmtId} (hkind : program.kind block = .block info body) :
    ((program.setKind block (.block info [])).adopt body none).WellLinked := by
  have hblock := has_of_kind_block hkind
  have hmem : ∀ child, child ∈ body ↔ program.parent child = some block := by
    intro child
    rw [← h.mem_children_iff, hkind]
    rfl
  have hparent : ∀ child, ((program.setKind block (.block info [])).adopt body none).parent child =
      if child ∈ body then none else program.parent child := by
    intro child
    simp only [parent_adopt, has_setKind, parent_setKind]
    by_cases hchild : child ∈ body
    · simp [hchild, has_of_parent ((hmem child).mp hchild)]
    · simp [hchild]
  refine h.of_links (fun id child ↦ ?_) (fun id ↦ ?_) (fun id function hid ↦ ?_) (fun id ↦ ?_) ?_
  · rw [hparent, kind_adopt, kind_setKind]
    by_cases hid : id = block
    · subst hid
      by_cases hchild : child ∈ body
      · simp [hblock, hchild, StmtKind.children]
      · simpa [hblock, hchild, StmtKind.children] using fun h ↦ hchild ((hmem child).mpr h)
    · rw [if_neg fun hand ↦ hid hand.1, h.mem_children_iff]
      by_cases hchild : child ∈ body
      · simp [hchild, (hmem child).mp hchild, Ne.symm hid]
      · simp [hchild]
  · rw [kind_adopt, kind_setKind]
    split
    · exact .nil
    · exact h.nodup_children id
  · rw [hparent]
    split
    · rfl
    · exact h.parent_of_owner hid
  · rw [owner_adopt, owner_setKind]
  · obtain ⟨statements, hstatements⟩ :=
      (program.setKind block (.block info [])).adopt_arenas body none
    rw [hstatements]
    rfl

theorem exchange (h : program.WellLinked) {parent old new : StmtId} {kind : StmtKind}
    (hold : old ∈ (program.kind parent).children) (hnew : program.Detached new)
    (hkind : kind.children =
      (program.kind parent).children.map fun child ↦ if child = old then new else child) :
    (((program.setKind parent kind).setParent new (some parent)).setParent old
      none).WellLinked := by
  have hparent := has_of_mem_children hold
  have hholds := h.mem_children_iff.mp hold
  have hfresh {id : StmtId} : new ∉ (program.kind id).children := h.not_child_of_detached hnew
  have hne : new ≠ old := fun heq ↦ hfresh (heq ▸ hold)
  refine h.of_links (fun id child ↦ ?_) (fun id ↦ ?_) (fun id function hid ↦ ?_) (fun id ↦ ?_) rfl
  · simp only [kind_setParent, kind_setKind, parent_setParent, parent_setKind, has_setParent,
      has_setKind, hnew.has, has_of_parent hholds, hparent, and_true]
    by_cases hid : id = parent
    · subst hid
      rw [if_pos rfl, hkind, mem_map_replace_iff hold, h.mem_children_iff]
      by_cases hchild : child = old
      · simp [hchild, Ne.symm hne]
      · by_cases hchild' : child = new <;> simp [hchild, hchild', hne]
    · rw [if_neg hid]
      split
      · rename_i hchild
        subst hchild
        simp only [reduceCtorEq, iff_false]
        exact fun hmem ↦ hid (h.eq_of_child hmem hold)
      · split
        · rename_i hchild
          subst hchild
          simp only [Option.some.injEq, Ne.symm hid, iff_false]
          exact hfresh
        · exact h.mem_children_iff
  · simp only [kind_setParent, kind_setKind, hparent, and_true]
    split
    · rw [hkind]
      exact nodup_map_replace (h.nodup_children parent) hfresh
    · exact h.nodup_children id
  · rw [parent_setParent, parent_setParent, parent_setKind, if_neg, if_neg]
    · exact h.parent_of_owner hid
    · rintro ⟨rfl, _⟩
      rw [hnew.owner] at hid
      cases hid
    · rintro ⟨rfl, _⟩
      rw [h.parent_of_owner hid] at hholds
      cases hholds
  · rw [owner_setParent, owner_setParent, owner_setKind]

/-- A detached statement takes the place of a function's body. -/
theorem exchangeBody (h : program.WellLinked) {old new : StmtId} {function : FnId}
    (hold : (program.stmt old).bodyOf = some function) (hnew : program.Detached new) :
    (program.moveBody old new function).WellLinked := by
  obtain ⟨hfunction, hbody⟩ := h.body_of_bodyOf hold
  have hhas := has_of_bodyOf hold
  constructor
  · intro id child hchild
    rw [kind_moveBody] at hchild
    rw [parent_moveBody]
    exact h.parent_of_child hchild
  · intro id parent hid
    rw [parent_moveBody] at hid
    rw [kind_moveBody]
    exact h.child_of_parent hid
  · intro id
    rw [kind_moveBody]
    exact h.nodup_children id
  · intro other hother
    rw [size_functions_moveBody] at hother
    rw [bodyOf_moveBody hfunction, parent_moveBody]
    split
    · exact hnew.parent
    · exact h.parent_body hother
  · intro other hother
    rw [size_functions_moveBody] at hother
    have hown := h.bodyOf_body hother
    rw [bodyOf_moveBody hfunction, owner_moveBody hhas hnew.has]
    split
    next heq => rw [if_pos rfl, heq]
    next hne =>
      -- The body of another function is neither the old statement nor the new one.
      have hneOld : program.bodyOf other ≠ old := fun heq ↦ by
        rw [heq, hold] at hown
        exact hne (Option.some.inj hown).symm
      have hneNew : program.bodyOf other ≠ new := fun heq ↦ by
        rw [heq, hnew.owner] at hown
        cases hown
      rw [if_neg hneNew, if_neg hneOld, hown]
  · intro id other hid
    rw [owner_moveBody hhas hnew.has] at hid
    rw [size_functions_moveBody, bodyOf_moveBody hfunction]
    split at hid
    next heq =>
      cases hid
      exact ⟨hfunction, by rw [if_pos rfl, heq]⟩
    next =>
      split at hid
      next => cases hid
      next hne =>
        obtain ⟨hother, hid⟩ := h.body_of_bodyOf hid
        have hneFunction : other ≠ function := by
          rintro rfl
          exact hne (hid.symm.trans hbody)
        exact ⟨hother, by rw [if_neg hneFunction, hid]⟩

theorem newStmt (h : program.WellLinked) {kind : StmtKind} (span : Span)
    (hchildren : ∀ child ∈ kind.children, program.Detached child)
    (hnodup : kind.children.Nodup) : (program.newStmt kind span).2.WellLinked := by
  have hnext := program.not_has_nextStmt
  have hhas : ∀ child ∈ kind.children, program.Has child := fun child hc ↦ (hchildren child hc).has
  obtain ⟨statements, hstatements⟩ := program.newStmt_arenas kind span
  refine h.of_links (fun id child ↦ ?_) (fun id ↦ ?_) (fun id function hid ↦ ?_) (fun id ↦ ?_)
    (by rw [hstatements])
  · rw [kind_newStmt, parent_newStmt _ _ _ _ hhas]
    by_cases hid : id = program.nextStmt
    · subst hid
      rw [if_pos rfl]
      by_cases hchild : child ∈ kind.children
      · simp [hchild]
      · rw [if_neg hchild]
        refine ⟨fun hmem ↦ absurd hmem hchild, fun hparent ↦ ?_⟩
        split at hparent
        · cases hparent
        · exact absurd (has_of_mem_children (h.child_of_parent hparent)) hnext
    · rw [if_neg hid]
      by_cases hchild : child ∈ kind.children
      · simp only [hchild, if_true, Option.some.injEq, Ne.symm hid, iff_false]
        exact h.not_child_of_detached (hchildren child hchild)
      · rw [if_neg hchild]
        split
        · rename_i hself
          subst hself
          simp only [reduceCtorEq, iff_false]
          exact fun hmem ↦ hnext (h.has_of_child hmem)
        · exact h.mem_children_iff
  · rw [kind_newStmt]
    split
    · exact hnodup
    · exact h.nodup_children id
  · rw [parent_newStmt _ _ _ _ hhas, if_neg, if_neg]
    · exact h.parent_of_owner hid
    · rintro rfl
      exact hnext (has_of_bodyOf hid)
    · intro hmem
      rw [(hchildren id hmem).owner] at hid
      cases hid
  · rw [owner_newStmt]
    split
    · rename_i hself
      subst hself
      rw [stmt_of_not_has hnext]
      rfl
    · rfl

/-- A statement that was just made stands nowhere. -/
theorem detached_newStmt (program : Program) {kind : StmtKind} (span : Span)
    (hhas : ∀ child ∈ kind.children, program.Has child) :
    (program.newStmt kind span).2.Detached program.nextStmt := by
  refine ⟨(has_newStmt ..).mpr (.inr rfl), ?_, ?_⟩
  · rw [parent_newStmt _ _ _ _ hhas, if_neg, if_pos rfl]
    exact fun hmem ↦ program.not_has_nextStmt (hhas _ hmem)
  · rw [owner_newStmt, if_pos rfl]

end WellLinked

end Program

end IteratorLowering
