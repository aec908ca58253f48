import IteratorLowering.Proofs.Fragments.Moving
import IteratorLowering.Proofs.Passes.Cleanups
import IteratorLowering.Proofs.Simulation.Rewriting

/-!
# Statements whose children take their place

Collapsing a plain block and removing a statement without children are the same change of the
forest: a member leaves its block and its children, if it has any, take its place
(`Program.Dissolves`). Nothing else moves, so the preorder of a function loses this one statement
(`Dissolves.functionStmts_eq`), and what the others are stays as it is up to the members of blocks.

A pass that looks at one statement after the other and dissolves those that pass a test dissolves
the ones that passed it at the beginning, as long as dissolving a statement does not change the
outcome for those that are yet to come (`ensures_dissolveEach`).
-/

set_option autoImplicit false
set_option relaxedAutoImplicit false

namespace IteratorLowering

/-- A statement list in which some statements stand in the place of another one. -/
def dissolveIn (id : StmtId) (inner ids : List StmtId) : List StmtId :=
  ids.flatMap fun other ↦ if other = id then inner else [other]

section

variable {id other : StmtId} {inner ids before after : List StmtId}

theorem mem_dissolveIn : other ∈ dissolveIn id inner ids ↔
    other ∈ ids ∧ other ≠ id ∨ id ∈ ids ∧ other ∈ inner := by
  simp only [dissolveIn, List.mem_flatMap]
  constructor
  · rintro ⟨found, hfound, hother⟩
    split at hother
    · rename_i heq
      exact .inr ⟨heq ▸ hfound, hother⟩
    · rename_i hne
      obtain rfl := List.mem_singleton.mp hother
      exact .inl ⟨hfound, hne⟩
  · rintro (⟨hother, hne⟩ | ⟨hid, hother⟩)
    · exact ⟨other, hother, by simp [hne]⟩
    · exact ⟨id, hid, by simpa using hother⟩

theorem dissolveIn_of_not_mem (h : id ∉ ids) : dissolveIn id inner ids = ids := by
  induction ids with
  | nil => rfl
  | cons other rest ih =>
    obtain ⟨hne, hrest⟩ := List.ne_and_not_mem_of_not_mem_cons h
    have hcons := ih hrest
    unfold dissolveIn at hcons ⊢
    rw [List.flatMap_cons, if_neg hne.symm, hcons]
    rfl

theorem dissolveIn_nil : dissolveIn id [] ids = ids.filter (· != id) := by
  induction ids with
  | nil => rfl
  | cons other rest ih =>
    unfold dissolveIn at ih ⊢
    rw [List.flatMap_cons, ih]
    by_cases hother : other = id <;> simp [hother]

theorem dissolveIn_middle (h : (before ++ id :: after).Nodup) :
    dissolveIn id inner (before ++ id :: after) = before ++ inner ++ after := by
  obtain ⟨hnot, -⟩ := List.nodup_cons.mp (List.perm_middle.nodup_iff.mp h)
  obtain ⟨hbefore, hafter⟩ := not_or.mp (mt List.mem_append.mpr hnot)
  have hbefore := @dissolveIn_of_not_mem id inner before hbefore
  have hafter := @dissolveIn_of_not_mem id inner after hafter
  unfold dissolveIn at hbefore hafter ⊢
  rw [List.flatMap_append, List.flatMap_cons, if_pos rfl, hbefore, hafter, List.append_assoc]

end

namespace StmtKind

/-- A statement with some statements in the place of one of its members. -/
def dissolve (id : StmtId) (inner : List StmtId) : StmtKind → StmtKind
  | .action inner => .action inner
  | .branch condition thenBlock elseBlock => .branch condition thenBlock elseBlock
  | .block info body => .block info (dissolveIn id inner body)

/-- A statement without the members that it has if it is a block. -/
def withoutBody : StmtKind → StmtKind
  | .action inner => .action inner
  | .branch condition thenBlock elseBlock => .branch condition thenBlock elseBlock
  | .block info _ => .block info []

variable {id : StmtId} {inner : List StmtId} {kind kind' : StmtKind}

@[simp] theorem withoutBody_dissolve : (kind.dissolve id inner).withoutBody = kind.withoutBody := by
  cases kind <;> rfl

theorem children_eq_nil_of_isAction (h : kind.isAction = true) : kind.children = [] := by
  cases kind with
  | action => rfl
  | branch | block => cases h

theorem defined?_eq_some_iff {symbol : SymId} :
    kind.defined? = some symbol ↔ kind = .action (.define symbol) := by
  rcases kind with (_ | _) | _ | _ <;> simp [defined?]

theorem gotoTarget?_eq_some_iff {label : SymId} :
    kind.gotoTarget? = some label ↔ kind = .action (.goto label) := by
  rcases kind with (_ | _) | _ | _ <;> simp [gotoTarget?]

theorem eq_action_of_withoutBody {inner : Action} (h : kind.withoutBody = .action inner) :
    kind = .action inner := by
  cases kind <;> cases h
  rfl

theorem eq_branch_of_withoutBody {condition : Operand} {thenBlock : StmtId}
    {elseBlock : Option StmtId} (h : kind.withoutBody = .branch condition thenBlock elseBlock) :
    kind = .branch condition thenBlock elseBlock := by
  cases kind <;> cases h
  rfl

theorem eq_block_of_withoutBody {info : Option BlockInfo} (h : kind.withoutBody = .block info []) :
    ∃ body, kind = .block info body := by
  cases kind <;> cases h
  exact ⟨_, rfl⟩

theorem dissolve_of_not_mem (h : id ∉ kind.children) : kind.dissolve id inner = kind := by
  cases kind with
  | action | branch => rfl
  | block info body => exact congrArg (StmtKind.block info) (dissolveIn_of_not_mem h)

/-- What does not depend on the members of blocks. -/
theorem congr_withoutBody {α : Type} {look : StmtKind → α}
    (hlook : ∀ kind : StmtKind, look kind.withoutBody = look kind)
    (h : kind'.withoutBody = kind.withoutBody) : look kind' = look kind := by
  rw [← hlook, h, hlook]

theorem defined?_congr (h : kind'.withoutBody = kind.withoutBody) :
    kind'.defined? = kind.defined? :=
  congr_withoutBody (by rintro (_ | _ | _) <;> rfl) h

theorem gotoTarget?_congr (h : kind'.withoutBody = kind.withoutBody) :
    kind'.gotoTarget? = kind.gotoTarget? :=
  congr_withoutBody (by rintro (_ | _ | _) <;> rfl) h

theorem expression?_congr (h : kind'.withoutBody = kind.withoutBody) :
    kind'.expression? = kind.expression? :=
  congr_withoutBody (by rintro (_ | _ | _) <;> rfl) h

theorem isBlock_congr (h : kind'.withoutBody = kind.withoutBody) : kind'.isBlock = kind.isBlock :=
  congr_withoutBody (by rintro (_ | _ | _) <;> rfl) h

theorem blockInfo?_congr (h : kind'.withoutBody = kind.withoutBody) :
    kind'.blockInfo? = kind.blockInfo? :=
  congr_withoutBody (by rintro (_ | _ | _) <;> rfl) h

end StmtKind

namespace Program

/-- A member of a block has left it, and its children have taken its place. -/
structure Dissolves (program : Program) (id : StmtId) (final : Program) : Prop where
  tables : final = { program with statements := final.statements }
  linked : final.WellLinked
  member : ∃ block info body, program.kind block = .block info body ∧ id ∈ body
  apart : id ∉ (program.kind id).children
  kind : ∀ {other}, program.Has other → other ≠ id →
    final.kind other = (program.kind other).dissolve id (program.kind id).children

namespace Dissolves

variable {program final : Program} {id other : StmtId} {owner : FnId}

section

variable (h : program.Dissolves id final)

include h

theorem function (id : FnId) : final.function id = program.function id := by
  rw [h.tables]
  rfl

theorem symbol (id : SymId) : final.symbol id = program.symbol id := by
  rw [h.tables]
  rfl

theorem hasFunction (id : FnId) : final.HasFunction id ↔ program.HasFunction id := by
  rw [h.tables]
  rfl

theorem withoutBody (hhas : program.Has other) (hne : other ≠ id) :
    (final.kind other).withoutBody = (program.kind other).withoutBody := by
  rw [h.kind hhas hne, StmtKind.withoutBody_dissolve]

variable (hlinked : program.WellLinked)

include hlinked

theorem exists_parent : ∃ block, program.parent id = some block ∧
    (program.kind block).isBlock = true := by
  obtain ⟨block, info, body, hkind, hid⟩ := h.member
  refine ⟨block, hlinked.parent_of_child ?_, ?_⟩
  · rwa [hkind]
  · rw [hkind]
    rfl

theorem children (hhas : program.Has other) (hne : other ≠ id) : (final.kind other).children =
    dissolveIn id (program.kind id).children (program.kind other).children := by
  by_cases hmem : id ∈ (program.kind other).children
  · obtain ⟨block, info, body, hblock, hid⟩ := h.member
    obtain rfl : other = block := hlinked.eq_of_child hmem (by rwa [hblock])
    rw [h.kind hhas hne, hblock]
    rfl
  · rw [h.kind hhas hne, StmtKind.dissolve_of_not_mem hmem, dissolveIn_of_not_mem hmem]

/-- The trees below some statements, with the one that left taken out. -/
theorem unfolds {roots ids : List StmtId} (hunfolds : program.Unfolds roots ids)
    (hroots : ∀ root ∈ roots, program.Has root) :
    final.Unfolds (dissolveIn id (program.kind id).children roots) (ids.filter (· != id)) := by
  induction hunfolds with
  | nil => exact .nil
  | @cons root rest below after inside beside ihInside ihBeside =>
    obtain ⟨hroot, hrest⟩ := List.forall_mem_cons.mp hroots
    have hinside := ihInside fun child hchild ↦ hlinked.has_of_child hchild
    have hbeside := ihBeside hrest
    rw [dissolveIn, List.flatMap_cons, ← dissolveIn]
    by_cases hid : root = id
    · subst hid
      rw [if_pos rfl, List.filter_cons_of_neg (by simp), List.filter_append]
      rw [dissolveIn_of_not_mem h.apart] at hinside
      exact hinside.append hbeside
    · rw [if_neg hid, List.filter_cons_of_pos (by simpa using hid), List.filter_append]
      refine .cons ?_ hbeside
      rwa [h.children hlinked hroot hid]

/-- The preorder of a function loses the statement and nothing else. -/
theorem functionStmts_eq (hfunction : program.HasFunction owner) :
    final.functionStmts owner = (program.functionStmts owner).filter (· != id) := by
  have hbody : final.bodyOf owner = program.bodyOf owner := by
    rw [bodyOf, h.function, bodyOf]
  have hne : id ∉ [program.bodyOf owner] := fun hmem ↦ by
    obtain ⟨block, hparent, -⟩ := h.exists_parent hlinked
    rw [List.mem_singleton.mp hmem, hlinked.parent_body hfunction] at hparent
    cases hparent
  have hhas := hlinked.has_body hfunction
  have hunfolds := h.unfolds hlinked (hlinked.unfolds_functionStmts hfunction).1
    fun root hmem ↦ List.mem_singleton.mp hmem ▸ hhas
  rw [dissolveIn_of_not_mem hne, ← hbody] at hunfolds
  exact (h.linked.unfolds_functionStmts ((h.hasFunction owner).mpr hfunction)).1.unique hunfolds

theorem mem_functionStmts_iff (hfunction : program.HasFunction owner) :
    other ∈ final.functionStmts owner ↔ other ∈ program.functionStmts owner ∧ other ≠ id := by
  rw [h.functionStmts_eq hlinked hfunction, List.mem_filter, bne_iff_ne]

theorem stands_iff : final.Stands other ↔ program.Stands other ∧ other ≠ id := by
  constructor
  · rintro ⟨function, hfunction', hother⟩
    have hfunction := (h.hasFunction function).mp hfunction'
    obtain ⟨hmem, hne⟩ := (h.mem_functionStmts_iff hlinked hfunction).mp
      ((h.linked.mem_functionStmts_iff hfunction').mpr hother)
    exact ⟨⟨function, hfunction, (hlinked.mem_functionStmts_iff hfunction).mp hmem⟩, hne⟩
  · rintro ⟨⟨function, hfunction, hother⟩, hne⟩
    have hfunction' := (h.hasFunction function).mpr hfunction
    refine ⟨function, hfunction', (h.linked.mem_functionStmts_iff hfunction').mp ?_⟩
    exact (h.mem_functionStmts_iff hlinked hfunction).mpr
      ⟨(hlinked.mem_functionStmts_iff hfunction).mpr hother, hne⟩

/-- A statement that stands afterwards is what it was, up to the members of blocks. -/
theorem withoutBody_of_stands (hother : final.Stands other) :
    (final.kind other).withoutBody = (program.kind other).withoutBody := by
  obtain ⟨⟨function, -, hstands⟩, hne⟩ := (h.stands_iff hlinked).mp hother
  exact h.withoutBody hstands.has hne

/-- The children of the statement have its parent, and the others keep theirs. -/
theorem parent_eq (hother : program.Stands other) (hne : other ≠ id) : final.parent other =
    if program.parent other = some id then program.parent id else program.parent other := by
  cases hparent : program.parent other with
  | none =>
    obtain ⟨function, hfunction, root, hunder, hbody⟩ := hother
    obtain rfl | ⟨parent, hup, -⟩ := hunder.cases_head
    · have hroot : final.bodyOf function = other := by
        rw [bodyOf, h.function, ← bodyOf]
        exact (hlinked.body_of_bodyOf hbody).2
      simpa [hroot] using h.linked.parent_body ((h.hasFunction function).mpr hfunction)
    · rw [hparent] at hup
      cases hup
  | some parent =>
    have hchild := hlinked.child_of_parent hparent
    by_cases heq : parent = id
    · subst heq
      obtain ⟨block, hblock, -⟩ := h.exists_parent hlinked
      have hmem := hlinked.child_of_parent hblock
      have hself : block ≠ parent := by
        rintro rfl
        exact h.apart hmem
      rw [if_pos rfl, hblock]
      refine h.linked.parent_of_child ?_
      rw [h.children hlinked (has_of_mem_children hmem) hself]
      exact mem_dissolveIn.mpr (.inr ⟨hmem, hchild⟩)
    · rw [if_neg (by simpa using heq)]
      refine h.linked.parent_of_child ?_
      rw [h.children hlinked (has_of_mem_children hchild) heq]
      exact mem_dissolveIn.mpr (.inl ⟨hchild, hne⟩)

end

/-- It is enough to know what has become of the two statements that change. -/
theorem of_changesOnly {block : StmtId} {info : Option BlockInfo} {before after : List StmtId}
    (hlinked : program.WellLinked) (hchanges : program.ChangesOnly [id, block] final)
    (hkind : program.kind block = .block info (before ++ id :: after))
    (hfinal : final.kind block = .block info (before ++ (program.kind id).children ++ after))
    (hapart : id ∉ (program.kind id).children) : program.Dissolves id final where
  tables := hchanges.tables
  linked := hchanges.linked
  member := ⟨block, info, _, hkind, List.mem_append_right _ List.mem_cons_self⟩
  apart := hapart
  kind {other} hhas hne := by
    by_cases hother : other = block
    · subst hother
      have hnodup := hlinked.nodup_children other
      rw [hkind] at hnodup
      rw [hfinal, hkind, StmtKind.dissolve, dissolveIn_middle hnodup]
    · rw [hchanges.kind hhas (by simp [hne, hother]), StmtKind.dissolve_of_not_mem]
      refine fun hmem ↦ hother (hlinked.eq_of_child hmem ?_)
      rw [hkind]
      exact List.mem_append_right _ List.mem_cons_self

end Dissolves

/-- The second program is the first one less some statements that were dissolved. -/
structure Sheds (program final : Program) : Prop where
  tables : final = { program with statements := final.statements }
  linked : final.WellLinked
  order : ∀ owner, program.HasFunction owner →
    (final.functionStmts owner).Sublist (program.functionStmts owner)
  withoutBody : ∀ {id}, final.Stands id →
    (final.kind id).withoutBody = (program.kind id).withoutBody

namespace Sheds

variable {program now final : Program} {id : StmtId}

theorem refl (hlinked : program.WellLinked) : program.Sheds program :=
  ⟨rfl, hlinked, fun _ _ ↦ .refl _, fun _ ↦ rfl⟩

variable (h : program.Sheds final)

include h

theorem symbol (id : SymId) : final.symbol id = program.symbol id := by
  rw [h.tables]
  rfl

theorem hasFunction (id : FnId) : final.HasFunction id ↔ program.HasFunction id := by
  rw [h.tables]
  rfl

theorem fits {function : FnId} (hfunction : program.HasFunction function) :
    final.WellLinked ∧ final.HasFunction function :=
  ⟨h.linked, (h.hasFunction function).mpr hfunction⟩

theorem stands (hlinked : program.WellLinked) (hid : final.Stands id) : program.Stands id := by
  obtain ⟨function, hfunction, hid⟩ := hid
  have hfunction' := (h.hasFunction function).mp hfunction
  exact ⟨function, hfunction', (hlinked.mem_functionStmts_iff hfunction').mp
    ((h.order function hfunction').subset ((h.linked.mem_functionStmts_iff hfunction).mpr hid))⟩

theorem callsKnown (hlinked : program.WellLinked) (hcalls : program.CallsKnown) :
    final.CallsKnown where
  callee {other} hother value hvalue function hfunction := by
    rw [StmtKind.expression?_congr (h.withoutBody hother)] at hvalue
    exact (h.hasFunction function).mpr
      (hcalls.callee (h.stands hlinked hother) value hvalue function hfunction)
  slot hslot := by
    rw [h.tables] at hslot
    exact (h.hasFunction _).mpr (hcalls.slot hslot)
  iterator {type function} htype := by
    have heq : final.type type = program.type type := by
      rw [h.tables]
      rfl
    rw [heq] at htype
    exact (h.hasFunction function).mpr (hcalls.iterator htype)

omit h in
theorem dissolve (h : program.Sheds now) (hdissolves : now.Dissolves id final) :
    program.Sheds final where
  tables := by
    have htables := hdissolves.tables
    rw [h.tables] at htables
    exact htables
  linked := hdissolves.linked
  order owner howner := by
    rw [hdissolves.functionStmts_eq h.linked ((h.hasFunction owner).mpr howner)]
    exact List.filter_sublist.trans (h.order owner howner)
  withoutBody hother := (hdissolves.withoutBody_of_stands h.linked hother).trans
    (h.withoutBody ((hdissolves.stands_iff h.linked).mp hother).1)

end Sheds

end Program

/-! ### The edits -/

variable {program : Program} {block anchor id : StmtId} {info : Option BlockInfo}
variable {body before after members : List StmtId}

namespace Edit

theorem ensures_remove_member (hlinked : program.WellLinked)
    (hkind : program.kind block = .block info body) (hid : id ∈ body) :
    Ensures (Edit.remove id) program (fun _ ↦ True) fun _ now ↦
      program.ChangesOnly [block] now ∧ now.kind block = .block info (body.filter (· != id)) := by
  have hparent : program.parent id = some block := hlinked.parent_of_child (by rwa [hkind])
  have hdetach := ensures_detach_member hlinked hkind hid
  unfold Edit.detach at hdetach
  rw [ensures_get_bind, hparent] at hdetach
  exact hdetach.mono (fun _ h ↦ h) fun _ _ _ h ↦ ⟨h.1, h.2.2⟩

/-- Where a statement can be removed, it is a member of a block. -/
theorem ensures_remove_of_forall {holds : PUnit → Program → Prop}
    (h : ∀ block info body, program.kind block = .block info body → id ∈ body →
      Ensures (Edit.remove id) program (fun _ ↦ True) holds) :
    Ensures (Edit.remove id) program (fun _ ↦ True) holds := by
  cases hposition : program.positionInParent id with
  | error error =>
    unfold Edit.remove Edit.position
    rw [bind_assoc, ensures_get_bind]
    simp [hposition]
  | ok found =>
    obtain ⟨info, before, after, hkind, -⟩ := Program.exists_of_positionInParent hposition
    exact h _ info _ hkind (List.mem_append_right _ List.mem_cons_self)

/-- Removing a statement without children dissolves it. -/
theorem ensures_remove_dissolves (hlinked : program.WellLinked)
    (hleaf : (program.kind id).children = []) :
    Ensures (Edit.remove id) program (fun _ ↦ True) fun _ final ↦ program.Dissolves id final := by
  refine ensures_remove_of_forall fun block info body hkind hid ↦ ?_
  obtain ⟨before, after, rfl⟩ := List.append_of_mem hid
  have hnodup := hlinked.nodup_children block
  rw [hkind] at hnodup
  refine (ensures_remove_member hlinked hkind hid).mono (fun _ h ↦ h) ?_
  rintro _ final - ⟨hchanges, hfinal⟩
  rw [Program.filter_ne_of_nodup hnodup] at hfinal
  refine .of_changesOnly hlinked (hchanges.mono (by simp)) hkind ?_ ?_
  · rw [hfinal, hleaf, List.append_nil]
  · rw [hleaf]
    exact List.not_mem_nil

theorem ensures_takeBody_eq (hkind : program.kind block = .block info body) :
    Ensures (Edit.takeBody block) program (fun _ ↦ True) fun members now ↦ members = body ∧
      now = (program.setKind block (.block info [])).adopt body none := by
  unfold Edit.takeBody
  rw [ensures_get_bind, hkind]
  exact ensures_modify_bind.mpr (ensures_pure.mpr ⟨trivial, rfl, rfl⟩)

/-- Members that were taken out of their block stand nowhere. -/
theorem changesOnly_release (hlinked : program.WellLinked)
    (hkind : program.kind block = .block info body) :
    let now := (program.setKind block (.block info [])).adopt body none
    program.ChangesOnly [block] now ∧ ∀ member ∈ body, now.Detached member := by
  have hhas : ∀ member ∈ body, program.parent member = some block := fun member hmember ↦
    hlinked.parent_of_child (by rwa [hkind])
  refine ⟨⟨?_, hlinked.release hkind, ?_, ?_⟩, fun member hmember ↦ ⟨?_, ?_, ?_⟩⟩
  · obtain ⟨statements, hstatements⟩ :=
      (program.setKind block (.block info [])).adopt_arenas body none
    rw [hstatements]
    rfl
  · simp
  · intro other _ hother
    rw [Program.kind_adopt, Program.kind_setKind, if_neg]
    exact fun h ↦ hother (List.mem_singleton.mpr h.1)
  · simpa using Program.has_of_parent (hhas member hmember)
  · simp [Program.parent_adopt, hmember, Program.has_of_parent (hhas member hmember)]
  · simpa using hlinked.ownerless_of_parent (hhas member hmember)

/-- What stands nowhere still does when something else was put into a block. -/
theorem detached_attach {new other : StmtId} {kind : StmtKind} (hother : program.Detached other)
    (hne : other ≠ new) :
    ((program.setKind block kind).setParent new (some block)).Detached other where
  has := by simpa using hother.has
  parent := by
    rw [Program.parent_setParent, if_neg fun h ↦ hne h.1, Program.parent_setKind, hother.parent]
  owner := by rw [Program.owner_setParent, Program.owner_setKind, hother.owner]

/-- Statements that stand nowhere are put before a member, one after the other. -/
theorem ensures_insertEach (hlinked : program.WellLinked)
    (hkind : program.kind block = .block info (before ++ anchor :: after))
    (hmembers : ∀ member ∈ members, program.Detached member) (hnodup : members.Nodup) :
    Ensures (members.forM (Edit.insertBefore anchor)) program (fun _ ↦ True) fun _ now ↦
      program.ChangesOnly [block] now ∧
        now.kind block = .block info (before ++ members ++ anchor :: after) := by
  induction members generalizing program before with
  | nil =>
    refine .pure trivial ⟨.refl hlinked _, ?_⟩
    rwa [List.append_nil]
  | cons new rest ih =>
    obtain ⟨hnew, hrest⟩ := List.forall_mem_cons.mp hmembers
    obtain ⟨hnot, hnodup⟩ := List.nodup_cons.mp hnodup
    refine (ensures_insertBefore_eq hlinked hkind hnew).bind fun _ middle _ hmiddle ↦ ?_
    obtain ⟨hchanges, hkind'⟩ := changesOnly_attach hlinked hkind hnew
    rw [← hmiddle] at hchanges hkind'
    rw [List.append_cons] at hkind'
    have hrest' : ∀ member ∈ rest, middle.Detached member := fun member hmember ↦
      hmiddle ▸ detached_attach (hrest member hmember) fun heq : member = new ↦ hnot (heq ▸ hmember)
    refine (ih hchanges.linked hkind' hrest' hnodup).mono (fun _ h ↦ h) ?_
    rintro _ now - ⟨hnow, hkind''⟩
    refine ⟨hchanges.trans hnow fun _ hid _ ↦ hid, ?_⟩
    rw [hkind'', List.append_assoc before [new]]
    rfl

/-- The members of a block that is a member are put before it. -/
theorem ensures_spliceBefore_self {outer : StmtId} {inner : List StmtId}
    (hlinked : program.WellLinked) (hkind : program.kind block = .block none inner)
    (houter : program.kind outer = .block info (before ++ block :: after)) (hne : block ≠ outer) :
    Ensures (Edit.spliceBefore block block) program (fun _ ↦ True) fun _ now ↦
      program.ChangesOnly [block, outer] now ∧
        now.kind outer = .block info (before ++ inner ++ block :: after) := by
  have hinner := hlinked.nodup_children block
  rw [hkind] at hinner
  unfold Edit.spliceBefore
  refine (ensures_takeBody_eq hkind).bind ?_
  rintro members taken - ⟨hmembers, htaken⟩
  obtain ⟨hchanges, hdetached⟩ := changesOnly_release hlinked hkind
  rw [← htaken] at hchanges hdetached
  rw [hmembers]
  have houter' : taken.kind outer = .block info (before ++ block :: after) := by
    rw [hchanges.kind (Program.has_of_kind_block houter) (by simpa using hne.symm), houter]
  refine (ensures_insertEach hchanges.linked houter' hdetached hinner).mono (fun _ h ↦ h) ?_
  rintro _ now - ⟨hnow, hfinal⟩
  exact ⟨(hchanges.mono (by simp)).trans hnow (by simp), hfinal⟩

/-- Statements that stand nowhere are put between members, one after the other. -/
theorem ensures_insertFrom (hlinked : program.WellLinked)
    (hkind : program.kind block = .block info (before ++ after))
    (hmembers : ∀ member ∈ members, program.Detached member) (hnodup : members.Nodup) :
    Ensures (Edit.insertFrom block before.length members) program (fun _ ↦ True) fun _ now ↦
      program.ChangesOnly [block] now ∧
        now.kind block = .block info (before ++ members ++ after) := by
  induction members generalizing program before with
  | nil =>
    refine .pure trivial ⟨.refl hlinked _, ?_⟩
    rwa [List.append_nil]
  | cons new rest ih =>
    obtain ⟨hnew, hrest⟩ := List.forall_mem_cons.mp hmembers
    obtain ⟨hnot, hnodup⟩ := List.nodup_cons.mp hnodup
    unfold Edit.insertFrom
    refine (ensures_insertAt_eq hkind hnew).bind fun _ middle _ hmiddle ↦ ?_
    obtain ⟨hchanges, hkind'⟩ := changesOnly_attach hlinked hkind hnew
    rw [← hmiddle] at hchanges hkind'
    rw [List.append_cons] at hkind'
    have hrest' : ∀ member ∈ rest, middle.Detached member := fun member hmember ↦
      hmiddle ▸ detached_attach (hrest member hmember) fun heq : member = new ↦ hnot (heq ▸ hmember)
    have hinsert := ih hchanges.linked hkind' hrest' hnodup
    rw [List.length_append, List.length_singleton] at hinsert
    refine hinsert.mono (fun _ h ↦ h) ?_
    rintro _ now - ⟨hnow, hkind''⟩
    refine ⟨hchanges.trans hnow fun _ hid _ ↦ hid, ?_⟩
    rw [hkind'', List.append_assoc before [new]]
    rfl

/-- Statements that stand nowhere are put at the head of a block, if there are any only where it is
one. -/
theorem ensures_insertFrom_head (hlinked : program.WellLinked)
    (hmembers : ∀ member ∈ members, program.Detached member) (hnodup : members.Nodup) :
    Ensures (Edit.insertFrom block 0 members) program (fun _ ↦ True) fun _ now ↦
      program.ChangesOnly [block] now ∧ ∀ info body, program.kind block = .block info body →
        now.kind block = .block info (members ++ body) := by
  cases hkind : program.kind block with
  | block info body =>
    have hinsert := @ensures_insertFrom _ _ _ [] body _ hlinked hkind hmembers hnodup
    refine hinsert.mono (fun _ h ↦ h) ?_
    rintro _ now - ⟨hchanges, hnow⟩
    refine ⟨hchanges, ?_⟩
    rintro _ _ ⟨⟩
    exact hnow
  | action | branch =>
    cases members with
    | nil => exact .pure trivial ⟨.refl hlinked _, fun _ _ h ↦ StmtKind.noConfusion h⟩
    | cons new rest =>
      unfold Edit.insertFrom Edit.insertAt Edit.detach
      rw [bind_assoc, bind_assoc, ensures_get_bind, (hmembers new List.mem_cons_self).parent]
      simp only [bind_assoc]
      refine ensures_modifyBody_bind trivial fun info body hbody ↦ ?_
      cases hkind.symm.trans hbody

/-- The members of a block are put at the head of another one. -/
theorem ensures_spliceAtHead {scratch : StmtId} {ids : List StmtId} (hlinked : program.WellLinked)
    (hscratch : program.kind scratch = .plain ids) (hblock : program.Has block)
    (hne : scratch ≠ block) :
    Ensures (Edit.spliceAtHead block scratch) program (fun _ ↦ True) fun _ now ↦
      program.ChangesOnly [scratch, block] now ∧ ∀ info body,
        program.kind block = .block info body → now.kind block = .block info (ids ++ body) := by
  have hnodup := hlinked.nodup_children scratch
  rw [hscratch] at hnodup
  unfold Edit.spliceAtHead
  refine (ensures_takeBody_eq hscratch).bind ?_
  rintro members taken - ⟨rfl, rfl⟩
  obtain ⟨hchanges, hdetached⟩ := changesOnly_release hlinked hscratch
  have hkind := hchanges.kind hblock (by simpa using hne.symm)
  refine (ensures_insertFrom_head hchanges.linked hdetached hnodup).mono (fun _ h ↦ h) ?_
  rintro _ now - ⟨hnow, hfinal⟩
  exact ⟨(hchanges.mono (by simp)).trans hnow (by simp), fun info body h ↦
    hfinal info body (hkind.trans h)⟩

end Edit

namespace Program

theorem exists_eq_block_of_isBlock (h : (program.kind id).isBlock = true) :
    ∃ info body, program.kind id = .block info body := by
  cases hkind : program.kind id with
  | action | branch => rw [hkind] at h; cases h
  | block info body => exact ⟨info, body, rfl⟩

theorem exists_member_of_isCollapsible (hlinked : program.WellLinked)
    (h : program.isCollapsible id = true) : ∃ inner block info before after,
      program.kind id = .block none inner ∧
        program.kind block = .block info (before ++ id :: after) := by
  obtain ⟨⟨inner, hkind⟩, -⟩ := eq_block_of_isCollapsible h
  obtain ⟨-, habove⟩ := Bool.and_eq_true_iff.mp h
  obtain ⟨block, hparent, hblock⟩ := (Option.any_eq_true _ _).mp habove
  obtain ⟨info, body, hbody⟩ := exists_eq_block_of_isBlock hblock
  have hmem := hlinked.child_of_parent hparent
  rw [hbody] at hmem
  obtain ⟨before, after, rfl⟩ := List.append_of_mem hmem
  exact ⟨inner, block, info, before, after, hkind, hbody⟩

end Program

/-- A plain block in a block gives its place to its members. -/
theorem ensures_collapseBlock_dissolves {count : Nat} {function : FnId}
    (hlinked : program.WellLinked) (hid : program.StandsIn function id) :
    Ensures (collapseBlock count id) program (fun _ ↦ True) fun count' final ↦
      if program.isCollapsible id then count' = count + 1 ∧ program.Dissolves id final
      else count' = count ∧ final = program := by
  unfold collapseBlock
  refine ensures_get_bind.mpr ?_
  by_cases hcollapsible : program.isCollapsible id = true
  · simp only [hcollapsible, if_true]
    obtain ⟨inner, block, info, before, after, hkind, hblock⟩ :=
      Program.exists_member_of_isCollapsible hlinked hcollapsible
    have hparent : program.parent id = some block :=
      hlinked.parent_of_child (by simp [hblock, StmtKind.children])
    have hne : id ≠ block := by
      rintro rfl
      exact hlinked.parent_ne_self hid hparent
    refine (Edit.ensures_spliceBefore_self hlinked hkind hblock hne).edit.bind ?_
    rintro _ spliced - ⟨hchanges, hspliced⟩
    refine (Edit.ensures_remove_member hchanges.linked hspliced (by simp)).edit.bind ?_
    rintro _ final - ⟨hremoved, hfinal⟩
    refine .pure trivial ⟨rfl, ?_⟩
    have hnodup := hchanges.linked.nodup_children block
    rw [hspliced] at hnodup
    rw [Program.filter_ne_of_nodup hnodup] at hfinal
    refine .of_changesOnly hlinked (hchanges.trans hremoved (by simp)) hblock ?_ ?_
    · rwa [hkind]
    · exact fun hmem ↦ hlinked.parent_ne_self hid (hlinked.parent_of_child hmem)
  · simp only [hcollapsible, Bool.false_eq_true, if_false]
    exact .pure trivial ⟨rfl, rfl⟩

/-! ### One statement after the other -/

/-- A pass that dissolves each statement that passes a test, if dissolving one does not change the
outcome for later ones, dissolves those that passed it at the beginning. -/
theorem ensures_dissolveEach (test : Program → StmtId → Bool) {function : FnId}
    {step : Nat → StmtId → Pass Nat} {keeps : Program → Prop} {ids : List StmtId} {count : Nat}
    {now : Program}
    (hfits : ∀ {now}, keeps now → now.WellLinked ∧ now.HasFunction function)
    (hstep : ∀ {now count id}, keeps now → id ∈ now.functionStmts function →
      Ensures (step count id) now (fun _ ↦ True) fun count' next ↦
        if test now id then count' = count + 1 ∧ now.Dissolves id next
        else count' = count ∧ next = now)
    (hnext : ∀ {now next id}, keeps now → id ∈ now.functionStmts function →
      test now id = true → test program id = true → now.Dissolves id next → keeps next)
    (hstable : ids.Pairwise fun id later ↦ ∀ {now next}, keeps now → now.Dissolves id next →
      test now id = true → later ∈ now.functionStmts function → later ≠ id →
        test next later = test now later)
    (hkeeps : keeps now) (hnodup : ids.Nodup) (hids : ids ⊆ now.functionStmts function)
    (htest : ∀ id ∈ ids, test now id = test program id) :
    Ensures (ids.foldlM step count) now (fun _ ↦ True) fun count' final ↦
      count' = count + (ids.filter (test program)).length ∧ keeps final ∧
        final.functionStmts function =
          (now.functionStmts function).filter fun id ↦ !(ids.contains id && test program id) := by
  induction ids generalizing count now with
  | nil => exact .pure trivial ⟨rfl, hkeeps, by simp⟩
  | cons id rest ih =>
    obtain ⟨hid, hrest⟩ := List.cons_subset.mp hids
    obtain ⟨hnot, hnodup⟩ := List.nodup_cons.mp hnodup
    obtain ⟨hlater, hstable⟩ := List.pairwise_cons.mp hstable
    obtain ⟨hself, htest⟩ := List.forall_mem_cons.mp htest
    rw [List.foldlM_cons]
    refine (hstep hkeeps hid).bind fun count' next _ hstepped ↦ ?_
    cases htested : test program id with
    | true =>
      rw [hself, htested, if_pos rfl] at hstepped
      obtain ⟨rfl, hdissolves⟩ := hstepped
      have hkeeps' := hnext hkeeps hid (hself.trans htested) htested hdissolves
      obtain ⟨hlinked, hfunction⟩ := hfits hkeeps
      have hne : ∀ later ∈ rest, later ≠ id := fun later hmem heq ↦ hnot (heq ▸ hmem)
      have hmem : rest ⊆ next.functionStmts function := fun later hmem ↦
        (hdissolves.mem_functionStmts_iff hlinked hfunction).mpr ⟨hrest hmem, hne later hmem⟩
      have htest' : ∀ later ∈ rest, test next later = test program later := fun later hmem ↦
        (hlater later hmem hkeeps hdissolves (hself.trans htested) (hrest hmem)
          (hne later hmem)).trans (htest later hmem)
      refine (ih hstable hkeeps' hnodup hmem htest').mono (fun _ h ↦ h) ?_
      rintro _ final - ⟨rfl, hfinal, hstmts⟩
      refine ⟨?_, hfinal, ?_⟩
      · rw [List.filter_cons_of_pos htested, List.length_cons]
        omega
      · rw [hstmts, hdissolves.functionStmts_eq hlinked hfunction, List.filter_filter]
        refine List.filter_congr fun other _ ↦ ?_
        by_cases hother : other = id <;> simp [hother, htested]
    | false =>
      rw [hself, htested, if_neg Bool.false_ne_true] at hstepped
      obtain ⟨rfl, rfl⟩ := hstepped
      refine (ih hstable hkeeps hnodup hrest htest).mono (fun _ h ↦ h) ?_
      rintro _ final - ⟨rfl, hfinal, hstmts⟩
      refine ⟨?_, hfinal, ?_⟩
      · rw [List.filter_cons_of_neg (by simp [htested])]
      · rw [hstmts]
        refine List.filter_congr fun other _ ↦ ?_
        by_cases hother : other = id <;> simp [hother, htested]

/-- A pass over all statements of a function. -/
theorem ensures_dissolveAll (test : Program → StmtId → Bool) {function : FnId}
    {step : Nat → StmtId → Pass Nat} {keeps : Program → Prop} {ids : List StmtId} {count : Nat}
    (hfits : ∀ {now}, keeps now → now.WellLinked ∧ now.HasFunction function)
    (hstep : ∀ {now count id}, keeps now → id ∈ now.functionStmts function →
      Ensures (step count id) now (fun _ ↦ True) fun count' next ↦
        if test now id then count' = count + 1 ∧ now.Dissolves id next
        else count' = count ∧ next = now)
    (hnext : ∀ {now next id}, keeps now → id ∈ now.functionStmts function →
      test now id = true → test program id = true → now.Dissolves id next → keeps next)
    (hstable : ids.Pairwise fun id later ↦ ∀ {now next}, keeps now → now.Dissolves id next →
      test now id = true → later ∈ now.functionStmts function → later ≠ id →
        test next later = test now later)
    (hkeeps : keeps program) (hids : ids.Perm (program.functionStmts function)) :
    Ensures (ids.foldlM step count) program (fun _ ↦ True) fun count' final ↦
      count' = count + ((program.functionStmts function).filter (test program)).length ∧
        keeps final ∧ final.functionStmts function =
          (program.functionStmts function).filter fun id ↦ !test program id := by
  obtain ⟨hlinked, hfunction⟩ := hfits hkeeps
  have hnodup := hids.nodup_iff.mpr (hlinked.unfolds_functionStmts hfunction).2
  refine (ensures_dissolveEach test hfits hstep hnext hstable hkeeps hnodup hids.subset
    fun _ _ ↦ rfl).mono (fun _ h ↦ h) ?_
  rintro count' final - ⟨hcount, hfinal, hstmts⟩
  refine ⟨hcount.trans (by rw [(hids.filter _).length_eq]), hfinal, hstmts.trans ?_⟩
  refine List.filter_congr fun id hid ↦ ?_
  simp [hids.mem_iff.mpr hid]

end IteratorLowering
