import IteratorLowering.Proofs.Forest.Links

/-!
# What a move changes

A move of statements changes member lists and parent links and nothing else. `Program.Relinks`
says which they are afterwards, for every statement at once, and that spans, bodies of functions
and all other arenas are the old ones. Three moves are described by it: statements are taken out
of the lists that hold them (`Program.Unlinks`), statements that stood anywhere stand next to each
other between two parts of a member list (`Program.PutsBetween`), and a statement stands where
another one stood (`Program.PutsInPlace`). A function that gets another body changes too
(`Program.TakesOverBody`).
-/

set_option autoImplicit false
set_option relaxedAutoImplicit false

namespace IteratorLowering

namespace StmtKind

/-- Change the members of a block. Other statements stay as they are. -/
def mapMembers (change : List StmtId → List StmtId) : StmtKind → StmtKind
  | .block info body => .block info (change body)
  | .action inner => .action inner
  | .branch condition thenBlock elseBlock => .branch condition thenBlock elseBlock

/-- The statement without the given statements among its members. A branch stays. -/
def without (moved : List StmtId) (kind : StmtKind) : StmtKind :=
  kind.mapMembers fun body ↦ body.filter (· ∉ moved)

/-- The statement with one child in the place of another. -/
def exchange (old new : StmtId) : StmtKind → StmtKind
  | .block info body => .block info (body.map fun member ↦ if member = old then new else member)
  | .branch condition thenBlock elseBlock =>
    .branch condition (if thenBlock = old then new else thenBlock)
      (elseBlock.map fun branch ↦ if branch = old then new else branch)
  | .action inner => .action inner

variable {kind : StmtKind} {moved : List StmtId}

@[simp] theorem isBlock_without : (kind.without moved).isBlock = kind.isBlock := by
  cases kind <;> rfl

theorem without_eq_self (h : ∀ member ∈ kind.children, member ∉ moved) :
    kind.without moved = kind := by
  cases kind with
  | action | branch => rfl
  | block info body =>
    rw [without, mapMembers, List.filter_eq_self.mpr fun member hmember ↦ ?_]
    exact decide_eq_true (h member hmember)

theorem without_block (info : Option BlockInfo) (body : List StmtId) :
    (block info body).without moved = .block info (body.filter (· ∉ moved)) := rfl

end StmtKind

namespace Program

/-- The program differs from the final one in the kinds and the parents of its statements, which
are the given ones there. -/
structure Relinks (program : Program) (kind : StmtId → StmtKind) (parent : StmtId → Option StmtId)
    (final : Program) : Prop where
  size : final.statements.size = program.statements.size
  stmt : ∀ {id}, program.Has id →
    final.stmt id = { program.stmt id with kind := kind id, parent := parent id }
  arenas : ∃ statements, final = { program with statements }

/-- The given statements are taken out of the lists that hold them. -/
def Unlinks (program : Program) (moved : List StmtId) (final : Program) : Prop :=
  program.Relinks (fun id ↦ (program.kind id).without moved)
    (fun id ↦ if id ∈ moved then none else program.parent id) final

/-- The given statements are taken out of the lists that hold them and put into a block, between
the two parts of what is left of its list. -/
structure PutsBetween (program : Program) (moved : List StmtId) (block : StmtId)
    (before after : List StmtId) (final : Program) : Prop where
  isBlock : (program.kind block).isBlock = true
  members : (program.blockBody block).filter (· ∉ moved) = before ++ after
  relinks : program.Relinks
    (fun id ↦ if id = block then (program.kind id).mapMembers fun _ ↦ before ++ moved ++ after
      else (program.kind id).without moved)
    (fun id ↦ if id ∈ moved then some block else program.parent id) final

/-- A statement is taken out of the list that holds it and put where a child of another one is,
which then stands nowhere. -/
def PutsInPlace (program : Program) (old new parent : StmtId) (final : Program) : Prop :=
  program.Relinks
    (fun id ↦ if id = parent then ((program.kind id).without [new]).exchange old new
      else (program.kind id).without [new])
    (fun id ↦ if id = new then some parent else if id = old then none else program.parent id) final

/-- A statement is taken out of the list that holds it and becomes the body of a function, and the
body that the function had is that of none. -/
structure TakesOverBody (program : Program) (old new : StmtId) (function : FnId)
    (final : Program) : Prop where
  size : final.statements.size = program.statements.size
  stmt : ∀ {id}, program.Has id → final.stmt id =
    { program.stmt id with
      kind := (program.kind id).without [new]
      parent := if id = new then none else program.parent id
      bodyOf :=
        if id = new then some function else if id = old then none else (program.stmt id).bodyOf }
  function : ∀ other, final.function other =
    { program.function other with
      body := if other = function then new else program.bodyOf other }
  arenas : ∃ statements functions, functions.size = program.functions.size ∧
    final = { program with statements, functions }

variable {program middle final : Program} {kind kind' : StmtId → StmtKind}
variable {parent parent' : StmtId → Option StmtId} {id block new : StmtId} {moved : List StmtId}

namespace Relinks

theorem has_iff (h : program.Relinks kind parent final) : final.Has id ↔ program.Has id := by
  rw [Has, Has, h.size]

theorem refl (program : Program) : program.Relinks program.kind program.parent program :=
  ⟨rfl, fun _ ↦ rfl, _, rfl⟩

theorem trans (first : program.Relinks kind parent middle)
    (second : middle.Relinks kind' parent' final) : program.Relinks kind' parent' final := by
  refine ⟨second.size.trans first.size, fun {id} hid ↦ ?_, ?_⟩
  · rw [second.stmt (first.has_iff.mpr hid), first.stmt hid]
  · obtain ⟨_, rfl⟩ := first.arenas
    obtain ⟨_, rfl⟩ := second.arenas
    exact ⟨_, rfl⟩

theorem congr (h : program.Relinks kind parent final)
    (hkind : ∀ id, program.Has id → kind id = kind' id)
    (hparent : ∀ id, program.Has id → parent id = parent' id) :
    program.Relinks kind' parent' final :=
  ⟨h.size, fun {id} hid ↦ by rw [h.stmt hid, hkind id hid, hparent id hid], h.arenas⟩

theorem kind_eq (h : program.Relinks kind parent final) (hid : program.Has id) :
    final.kind id = kind id := by
  rw [Program.kind, h.stmt hid]

theorem parent_eq (h : program.Relinks kind parent final) (hid : program.Has id) :
    final.parent id = parent id := by
  rw [Program.parent, h.stmt hid]

theorem owner_eq (h : program.Relinks kind parent final) :
    (final.stmt id).bodyOf = (program.stmt id).bodyOf := by
  by_cases hid : program.Has id
  · rw [h.stmt hid]
  · rw [stmt_of_not_has hid, stmt_of_not_has fun hfinal ↦ hid (h.has_iff.mp hfinal)]

theorem functions_eq (h : program.Relinks kind parent final) :
    final.functions = program.functions := by
  obtain ⟨_, rfl⟩ := h.arenas
  rfl

/-- A change of one statement changes its kind and its parent at most. -/
theorem modifyStmt (h : program.Relinks kind parent middle) (id : StmtId) {change : Stmt → Stmt}
    (hself : change { program.stmt id with kind := kind id, parent := parent id } =
      { program.stmt id with kind := kind' id, parent := parent' id })
    (hothers : ∀ other, other ≠ id → kind' other = kind other ∧ parent' other = parent other) :
    program.Relinks kind' parent' (middle.modifyStmt id change) := by
  refine ⟨?_, fun {other} hother ↦ ?_, ?_⟩
  · rw [← h.size]
    simp [Program.modifyStmt]
  · rw [stmt_modifyStmt, h.stmt hother]
    by_cases heq : other = id
    · subst heq
      rw [if_pos ⟨rfl, h.has_iff.mpr hother⟩, hself]
    · rw [if_neg fun hid ↦ heq hid.1, (hothers other heq).1, (hothers other heq).2]
  · obtain ⟨_, rfl⟩ := h.arenas
    exact ⟨_, rfl⟩

theorem setKind (h : program.Relinks kind parent middle) (id : StmtId) (new : StmtKind) :
    program.Relinks (fun other ↦ if other = id then new else kind other) parent
      (middle.setKind id new) :=
  h.modifyStmt id (by simp) fun _ hne ↦ ⟨if_neg hne, rfl⟩

theorem setParent (h : program.Relinks kind parent middle) (id : StmtId) (new : Option StmtId) :
    program.Relinks kind (fun other ↦ if other = id then new else parent other)
      (middle.setParent id new) :=
  h.modifyStmt id (by simp) fun _ hne ↦ ⟨rfl, if_neg hne⟩

theorem adopt (h : program.Relinks kind parent middle) (children : List StmtId)
    (new : Option StmtId) :
    program.Relinks kind (fun other ↦ if other ∈ children then new else parent other)
      (middle.adopt children new) := by
  induction children generalizing middle parent with
  | nil => simpa [Program.adopt] using h
  | cons child rest ih =>
    refine (ih (h.setParent child new)).congr (fun _ _ ↦ rfl) fun id _ ↦ ?_
    by_cases hchild : id = child <;> simp [hchild]

end Relinks

/-! ### Taking statements out -/

theorem Unlinks.kind_eq (h : program.Unlinks moved final) :
    final.kind id = (program.kind id).without moved := by
  by_cases hid : program.Has id
  · exact Relinks.kind_eq h hid
  · rw [Program.kind, Program.kind, stmt_of_not_has hid,
      stmt_of_not_has fun hfinal ↦ hid (h.has_iff.mp hfinal)]
    rfl

theorem Unlinks.parent_eq (h : program.Unlinks moved final) :
    final.parent id = if id ∈ moved then none else program.parent id := by
  by_cases hid : program.Has id
  · exact Relinks.parent_eq h hid
  · rw [Program.parent, Program.parent, stmt_of_not_has hid,
      stmt_of_not_has fun hfinal ↦ hid (h.has_iff.mp hfinal)]
    split <;> rfl

theorem Unlinks.blockBody_eq (h : program.Unlinks moved final) :
    final.blockBody id = (program.blockBody id).filter (· ∉ moved) := by
  rw [blockBody, h.kind_eq, blockBody]
  cases program.kind id <;> rfl

theorem PutsBetween.blockBody_eq {before after : List StmtId}
    (h : program.PutsBetween moved block before after final) (hid : program.Has id) :
    final.blockBody id =
      if id = block then before ++ moved ++ after
      else (program.blockBody id).filter (· ∉ moved) := by
  have hkind := h.relinks.kind_eq hid
  split at hkind
  · rename_i heq
    rw [if_pos heq, blockBody, hkind, heq]
    cases hblock : program.kind block with
    | action | branch => exact absurd h.isBlock (by simp [hblock, StmtKind.isBlock])
    | block => rfl
  · rename_i hne
    rw [if_neg hne, blockBody, hkind, blockBody]
    cases program.kind id <;> rfl

/-- Where no list holds the statements, nothing changes. -/
theorem WellLinked.unlinks_of_parent (h : program.WellLinked)
    (hmoved : ∀ id ∈ moved, program.parent id = none) : program.Unlinks moved program := by
  refine (Relinks.refl program).congr (fun id _ ↦ ?_) fun id _ ↦ ?_
  · refine (StmtKind.without_eq_self fun member hmember hmem ↦ ?_).symm
    rw [h.mem_children_iff, hmoved member hmem] at hmember
    cases hmember
  · split
    · exact hmoved id ‹_›
    · rfl

/-- A member is taken out of its block. -/
theorem WellLinked.unlinks_detach (h : program.WellLinked) {info : Option BlockInfo}
    {before after : List StmtId}
    (hkind : program.kind block = .block info (before ++ id :: after)) :
    program.Unlinks [id]
      ((program.setKind block (.block info (before ++ after))).setParent id none) := by
  have hchild : id ∈ (program.kind block).children := by simp [hkind, StmtKind.children]
  refine (((Relinks.refl program).setKind block _).setParent id none).congr (fun other _ ↦ ?_)
    fun other _ ↦ by simp
  split
  · rename_i hother
    have hnodup := h.nodup_children block
    rw [hkind] at hnodup
    obtain ⟨hnot, -⟩ := List.nodup_cons.mp (List.perm_middle.nodup_iff.mp hnodup)
    have hbefore : before.filter (· ∉ [id]) = before :=
      List.filter_eq_self.mpr fun member hmember ↦ decide_eq_true <| by
        rintro hid
        exact hnot (List.mem_append_left _ (List.mem_singleton.mp hid ▸ hmember))
    have hafter : after.filter (· ∉ [id]) = after :=
      List.filter_eq_self.mpr fun member hmember ↦ decide_eq_true <| by
        rintro hid
        exact hnot (List.mem_append_right _ (List.mem_singleton.mp hid ▸ hmember))
    rw [hother, hkind, StmtKind.without_block, List.filter_append, List.filter_cons, hbefore,
      hafter]
    simp
  · rename_i hother
    refine (StmtKind.without_eq_self fun member hmember hid ↦ ?_).symm
    rw [List.mem_singleton.mp hid] at hmember
    exact hother (h.eq_of_child hmember hchild)

/-- All members are taken out of a block. -/
theorem WellLinked.unlinks_release (h : program.WellLinked) {info : Option BlockInfo}
    {body : List StmtId} (hkind : program.kind block = .block info body) :
    program.Unlinks body ((program.setKind block (.block info [])).adopt body none) := by
  refine (((Relinks.refl program).setKind block _).adopt body none).congr (fun other _ ↦ ?_)
    fun _ _ ↦ rfl
  have hmem : ∀ {member}, member ∈ body → member ∈ (program.kind block).children := fun hmember ↦ by
    rwa [hkind]
  split
  · rename_i hother
    rw [hother, hkind, StmtKind.without_block]
    simp
  · rename_i hother
    exact (StmtKind.without_eq_self fun member hmember hbody ↦
      hother (h.eq_of_child hmember (hmem hbody))).symm

/-! ### Putting statements into a block -/

/-- A member list, all members of which have their block for a parent. -/
structure Holds (program : Program) (block : StmtId) (info : Option BlockInfo)
    (members : List StmtId) : Prop where
  kind : program.kind block = .block info members
  parent : ∀ id ∈ members, program.parent id = some block

theorem WellLinked.holds (h : program.WellLinked) {info : Option BlockInfo} {body : List StmtId}
    (hkind : program.kind block = .block info body) : program.Holds block info body :=
  ⟨hkind, fun _ hid ↦ h.parent_of_child (by rwa [hkind])⟩

/-- The program with a statement put between two parts of a member list. -/
def attach (program : Program) (block : StmtId) (info : Option BlockInfo)
    (before : List StmtId) (new : StmtId) (after : List StmtId) : Program :=
  (program.setKind block (.block info (before ++ new :: after))).setParent new (some block)

section

variable {info : Option BlockInfo} {before after : List StmtId}

theorem relinks_attach :
    program.Relinks (fun id ↦ if id = block then .block info (before ++ new :: after)
        else program.kind id)
      (fun id ↦ if id = new then some block else program.parent id)
      (program.attach block info before new after) :=
  ((Relinks.refl program).setKind block _).setParent new (some block)

theorem Holds.attach (h : program.Holds block info (before ++ after)) (hnew : program.Has new) :
    (program.attach block info before new after).Holds block info ((before ++ [new]) ++ after) := by
  have hblock := has_of_kind_block h.kind
  refine ⟨?_, fun id hid ↦ ?_⟩
  · rw [relinks_attach.kind_eq hblock, if_pos rfl]
    simp
  · by_cases heq : id = new
    · rw [heq, relinks_attach.parent_eq hnew, if_pos rfl]
    · have hold : id ∈ before ++ after := by
        simp only [List.append_assoc, List.singleton_append, List.mem_append, List.mem_cons, heq,
          false_or] at hid
        exact List.mem_append.mpr hid
      rw [relinks_attach.parent_eq (has_of_parent (h.parent id hold)), if_neg heq]
      exact h.parent id hold

/-- Statements that stand nowhere are put into a block after they were taken out of the lists that
held them. -/
theorem Unlinks.putsBetween (h : program.Unlinks moved middle)
    (hblock : middle.kind block = .block info (before ++ after))
    (hput : middle.Relinks (fun id ↦ if id = block then .block info (before ++ moved ++ after)
        else middle.kind id)
      (fun id ↦ if id ∈ moved then some block else middle.parent id) final) :
    program.PutsBetween moved block before after final := by
  have hkind : middle.kind block = (program.kind block).without moved := h.kind_eq
  rw [hblock] at hkind
  cases hprogram : program.kind block with
  | action | branch =>
    rw [hprogram] at hkind
    cases hkind
  | block info' body =>
    rw [hprogram, StmtKind.without_block] at hkind
    obtain ⟨rfl, hmembers⟩ := StmtKind.block.inj hkind
    refine ⟨by rw [hprogram]; rfl, by rw [blockBody, hprogram, hmembers], ?_⟩
    refine (Relinks.trans h hput).congr (fun id _ ↦ ?_) fun id _ ↦ ?_
    · split
      · rename_i heq
        rw [heq, hprogram]
        rfl
      · exact h.kind_eq
    · rw [h.parent_eq]
      split <;> rfl

end

end Program

end IteratorLowering
