import IteratorLowering.Proofs.Dispatch.Emission
import IteratorLowering.Proofs.Forest.Enclosing
import IteratorLowering.Proofs.Fragments.Moving
import IteratorLowering.Proofs.Passes.Instances

/-!
# Statements put in front of calls

Arguments of calls are computed by new statements right before the calls. A program in which that
has been done is given exactly by what was put in front of each statement and by the arguments of
the calls (`Program.Prefaced`): every block has its members with their prefaces, and all else is as
it was. Each step of such a pass adds to one preface (`Program.Prefaced.insert`) or exchanges the
arguments of one call (`Program.Prefaced.setArgs`).
-/

set_option autoImplicit false
set_option relaxedAutoImplicit false

namespace IteratorLowering

/-- What is put in front of a statement, and the arguments of the call that the statement is. -/
structure Preface where
  reads : List StmtId
  args : List Operand

/-- The prefaces of all statements. -/
abbrev Prefaces := StmtId → Preface

namespace Prefaces

variable {prefaces : Prefaces} {call : StmtId} {new new' body before after : List StmtId}

/-- The members of a block with their prefaces. -/
def members (prefaces : Prefaces) (body : List StmtId) : List StmtId :=
  body.flatMap fun id ↦ (prefaces id).reads ++ [id]

/-- More statements in front of a call. -/
def push (prefaces : Prefaces) (call : StmtId) (new : List StmtId) : Prefaces :=
  Function.update prefaces call
    { prefaces call with reads := (prefaces call).reads ++ new }

/-- Other arguments for a call. -/
def setArgs (prefaces : Prefaces) (call : StmtId) (args : List Operand) : Prefaces :=
  Function.update prefaces call { prefaces call with args }

theorem push_nil (prefaces : Prefaces) (call : StmtId) : prefaces.push call [] = prefaces := by
  rw [push, List.append_nil]
  exact Function.update_eq_self call prefaces

theorem push_push : (prefaces.push call new).push call new' = prefaces.push call (new ++ new') := by
  simp only [push, Function.update_self, Function.update_idem, List.append_assoc]

theorem args_push (prefaces : Prefaces) (call : StmtId) (new : List StmtId) (id : StmtId) :
    (prefaces.push call new id).args = (prefaces id).args := by
  by_cases hid : id = call
  · rw [hid, push, Function.update_self]
  · rw [push, Function.update_of_ne hid]

theorem mem_reads_push {id other : StmtId} (h : other ∈ (prefaces.push call new id).reads) :
    other ∈ (prefaces id).reads ∨ other ∈ new := by
  by_cases hid : id = call
  · rw [hid, push, Function.update_self] at h
    exact hid ▸ List.mem_append.mp h
  · rw [push, Function.update_of_ne hid] at h
    exact .inl h

theorem members_push_of_not_mem (h : call ∉ body) :
    (prefaces.push call new).members body = prefaces.members body :=
  List.flatMap_congr fun id hid ↦ by
    rw [push, Function.update_of_ne (ne_of_mem_of_not_mem hid h)]

theorem members_setArgs (prefaces : Prefaces) (call : StmtId) (args : List Operand) :
    (prefaces.setArgs call args).members body = prefaces.members body :=
  List.flatMap_congr fun id _ ↦ by
    by_cases hid : id = call
    · rw [hid, setArgs, Function.update_self]
    · rw [setArgs, Function.update_of_ne hid]

/-- What is added to the preface of a member stands right before the member. -/
theorem members_push (hnodup : body.Nodup) (hcall : call ∈ body)
    (hreads : ∀ id, call ∉ (prefaces id).reads)
    (h : prefaces.members body = before ++ call :: after) :
    (prefaces.push call new).members body = before ++ (new ++ call :: after) := by
  obtain ⟨first, last, rfl⟩ := List.append_of_mem hcall
  obtain ⟨hnot, -⟩ := List.nodup_cons.mp (List.perm_middle.nodup_iff.mp hnodup)
  obtain ⟨hfirst, hlast⟩ := not_or.mp (mt List.mem_append.mpr hnot)
  have houtside : ∀ {ids : List StmtId}, call ∉ ids → call ∉ prefaces.members ids := by
    intro ids hids hmem
    obtain ⟨id, hid, hmem⟩ := List.mem_flatMap.mp hmem
    rcases List.mem_append.mp hmem with hmem | hmem
    · exact hreads id hmem
    · exact hids (List.mem_singleton.mp hmem ▸ hid)
  have hsplit : ∀ prefaces : Prefaces, prefaces.members (first ++ call :: last) =
      (prefaces.members first ++ (prefaces call).reads) ++ call :: prefaces.members last := by
    intro prefaces
    simp [members]
  rw [hsplit] at h
  obtain ⟨rfl, -, rfl⟩ := (List.append_cons_inj_of_notMem
    (mt List.mem_append.mp (not_or.mpr ⟨houtside hfirst, hreads call⟩)) (houtside hlast)).mp h
  rw [hsplit, members_push_of_not_mem hfirst, members_push_of_not_mem hlast, push,
    Function.update_self]
  simp

end Prefaces

namespace StmtKind

/-- A statement with its members prefaced and the arguments of its preface. -/
def preface (prefaces : Prefaces) (id : StmtId) : StmtKind → StmtKind
  | .action inner => (StmtKind.action inner).withCallArgs (prefaces id).args
  | .branch condition thenBlock elseBlock => .branch condition thenBlock elseBlock
  | .block info body => .block info (prefaces.members body)

theorem withCallArgs_withCallArgs (args args' : List Operand) (kind : StmtKind) :
    (kind.withCallArgs args).withCallArgs args' = kind.withCallArgs args' := by
  cases kind with
  | action inner =>
    cases inner with
    | assign _ value | evaluate value => cases value <;> rfl
    | _ => rfl
  | branch | block => rfl

theorem withCallArgs_callArgs (kind : StmtKind) :
    kind.withCallArgs (kind.callArgs?.getD []) = kind := by
  unfold withCallArgs callArgs?
  split <;> rfl

theorem preface_eq_block {prefaces : Prefaces} {id : StmtId} {kind : StmtKind}
    {info : Option BlockInfo} {body' : List StmtId}
    (h : kind.preface prefaces id = .block info body') :
    ∃ body, kind = .block info body ∧ prefaces.members body = body' := by
  cases kind with
  | action inner =>
    have haction := isAction_withCallArgs (prefaces id).args (action inner)
    rw [show (action inner).withCallArgs (prefaces id).args = .block info body' from h] at haction
    cases haction
  | branch => cases h
  | block info body =>
    obtain ⟨rfl, hbody⟩ := StmtKind.block.inj h
    exact ⟨body, rfl, hbody⟩

theorem directCallee?_preface (prefaces : Prefaces) (id : StmtId) (kind : StmtKind) :
    (kind.preface prefaces id).directCallee? = kind.directCallee? := by
  cases kind with
  | action inner =>
    cases inner with
    | assign _ value | evaluate value => cases value <;> rfl
    | _ => rfl
  | branch | block => rfl

theorem callArgs?_preface {prefaces : Prefaces} {id : StmtId} {kind : StmtKind}
    {args : List Operand} (h : kind.callArgs? = some args) :
    (kind.preface prefaces id).callArgs? = some (prefaces id).args := by
  unfold callArgs? at h
  split at h
  · rfl
  · rfl
  · cases h

/-- A statement that calls a function directly is an action with arguments. -/
theorem exists_callArgs?_eq {kind : StmtKind} {callee : FnId}
    (h : kind.directCallee? = some callee) :
    ∃ inner args, kind = .action inner ∧ kind.callArgs? = some args := by
  unfold directCallee? at h
  split at h
  · exact ⟨_, _, rfl, rfl⟩
  · exact ⟨_, _, rfl, rfl⟩
  · cases h

/-- A statement of which neither the members nor the call has been given another preface. -/
theorem preface_congr {prefaces prefaces' : Prefaces} {id : StmtId} {kind : StmtKind}
    (hmembers : ∀ info body, kind = .block info body →
      prefaces'.members body = prefaces.members body)
    (hargs : (prefaces' id).args = (prefaces id).args) :
    kind.preface prefaces' id = kind.preface prefaces id := by
  cases kind with
  | action inner => exact congrArg (action inner).withCallArgs hargs
  | branch => rfl
  | block info body => exact congrArg (block info) (hmembers info body rfl)

end StmtKind

namespace Program

/-- No statement is prefaced, and the arguments are those of the program. -/
def unprefaced (program : Program) : Prefaces := fun id ↦ ⟨[], (program.kind id).callArgs?.getD []⟩

/-- A program in which nothing has been changed but that new actions are in front of statements and
calls have other arguments. -/
structure Prefaced (program : Program) (prefaces : Prefaces) (now : Program) : Prop where
  types : now.types = program.types
  functions : now.functions = program.functions
  linked : now.WellLinked
  symbol : ∀ {id}, program.HasSymbol id → now.HasSymbol id ∧ now.symbol id = program.symbol id
  newSymbol : ∀ {id}, ¬ program.HasSymbol id → (now.symbol id).kind = .var
  has : ∀ {id}, program.Has id → now.Has id
  kind : ∀ {id}, program.Has id → now.kind id = (program.kind id).preface prefaces id
  place : ∀ {id}, program.Has id →
    now.parent id = program.parent id ∧ (now.stmt id).bodyOf = (program.stmt id).bodyOf
  newKind : ∀ {id}, ¬ program.Has id →
    (now.kind id).isAction = true ∧ (now.kind id).directCallee? = none
  newReads : ∀ {id other}, other ∈ (prefaces id).reads → ¬ program.Has other

/-- What was made after a program is the same later. -/
structure KeepsMade (program now final : Program) : Prop where
  symbol : ∀ {id}, now.HasSymbol id → final.HasSymbol id ∧ final.symbol id = now.symbol id
  kind : ∀ {id}, now.Has id → ¬ program.Has id → final.Has id ∧ final.kind id = now.kind id
  has : ∀ {id}, now.Has id → final.Has id

instance (program : Program) : IsPreorder Program (KeepsMade program) where
  refl _ := ⟨fun h ↦ ⟨h, rfl⟩, fun h _ ↦ ⟨h, rfl⟩, id⟩
  trans _ _ _ first second :=
    ⟨fun h ↦ ⟨(second.symbol (first.symbol h).1).1,
        (second.symbol (first.symbol h).1).2.trans (first.symbol h).2⟩,
      fun h hnew ↦ ⟨second.has (first.has h),
        (second.kind (first.has h) hnew).2.trans (first.kind h hnew).2⟩, second.has ∘ first.has⟩

variable {program now final : Program} {prefaces : Prefaces} {call block new : StmtId}

namespace Prefaced

theorem refl (hlinked : program.WellLinked) : program.Prefaced program.unprefaced program where
  types := rfl
  functions := rfl
  linked := hlinked
  symbol h := ⟨h, rfl⟩
  newSymbol := symbolKind_of_not_has
  has h := h
  kind {id} _ := by
    cases hkind : program.kind id with
    | block info body =>
      have hmembers : program.unprefaced.members body = body := by
        simp [Prefaces.members, unprefaced]
      rw [StmtKind.preface, hmembers]
    | action => rw [StmtKind.preface, unprefaced, hkind, StmtKind.withCallArgs_callArgs]
    | branch => rfl
  place _ := ⟨rfl, rfl⟩
  newKind h := by
    rw [Program.kind, stmt_of_not_has h]
    exact ⟨rfl, rfl⟩
  newReads h := by cases h

/-- A new variable is nothing that was there. -/
theorem addSymbol (h : program.Prefaced prefaces now) {entry : Symbol}
    (hentry : entry.kind = .var) :
    program.Prefaced prefaces (now.addSymbol entry).2 ∧
      program.KeepsMade now (now.addSymbol entry).2 := by
  have hsymbol : ∀ {id}, now.HasSymbol id →
      (now.addSymbol entry).2.HasSymbol id ∧ (now.addSymbol entry).2.symbol id = now.symbol id :=
    (Emits.addSymbol default now entry).symbol
  have hreworks : now.Reworks Scope.everything (now.addSymbol entry).2 := .addSymbol entry
  refine ⟨⟨h.types, h.functions, hreworks.wellLinked h.linked, fun hid ↦ ?_,
    fun {id} hid ↦ ?_, h.has, h.kind, h.place, h.newKind, h.newReads⟩, hsymbol,
    fun hid _ ↦ ⟨hid, rfl⟩, fun hid ↦ hid⟩
  · obtain ⟨hnow, hsame⟩ := h.symbol hid
    exact ⟨(hsymbol hnow).1, (hsymbol hnow).2.trans hsame⟩
  · have hnow := h.newSymbol hid
    simp only [Program.symbol, Program.addSymbol, Array.getD_eq_getD_getElem?,
      Array.getElem?_push] at hnow ⊢
    split
    · exact hentry
    · exact hnow

theorem newAction (h : program.Prefaced prefaces now) {inner : Action} (span : Span)
    (hinner : (StmtKind.action inner).directCallee? = none) :
    program.Prefaced prefaces (now.newStmt (.action inner) span).2 ∧
      program.KeepsMade now (now.newStmt (.action inner) span).2 := by
  obtain ⟨statements, harenas⟩ := now.newStmt_arenas (.action inner) span
  have hhas : ∀ {id}, now.Has id → (now.newStmt (.action inner) span).2.Has id :=
    fun hid ↦ (now.has_newStmt ..).mpr (.inl hid)
  have hstmt : ∀ {id}, now.Has id →
      (now.newStmt (.action inner) span).2.stmt id = now.stmt id :=
    fun hid ↦ now.stmt_newStmt_of_not_mem span hid nofun
  refine ⟨⟨by rw [harenas, ← h.types], by rw [harenas, ← h.functions],
    h.linked.newStmt span nofun .nil, fun hid ↦ ?_, fun hid ↦ ?_, hhas ∘ h.has, fun hid ↦ ?_,
    fun hid ↦ ?_, fun {id} hid ↦ ?_, h.newReads⟩, fun hid ↦ ?_, fun hid _ ↦ ⟨hhas hid, ?_⟩, hhas⟩
  · rw [harenas]
    exact h.symbol hid
  · rw [harenas]
    exact h.newSymbol hid
  · rw [Program.kind, hstmt (h.has hid)]
    exact h.kind hid
  · rw [Program.parent, hstmt (h.has hid)]
    exact h.place hid
  · rw [kind_newStmt]
    split
    · exact ⟨rfl, hinner⟩
    · exact h.newKind hid
  · rw [harenas]
    exact ⟨hid, rfl⟩
  · rw [Program.kind, hstmt hid, Program.kind]

theorem insert (h : program.Prefaced prefaces now) (hlinked : program.WellLinked)
    (hcall : program.Has call) {info : Option BlockInfo} {before after : List StmtId}
    (hblock : now.kind block = .block info (before ++ call :: after)) (hnew : now.Detached new)
    (hmade : ¬ program.Has new) :
    program.Prefaced (prefaces.push call [new])
        ((now.setKind block (.block info (before ++ new :: call :: after))).setParent new
          (some block)) ∧
      program.KeepsMade now
        ((now.setKind block (.block info (before ++ new :: call :: after))).setParent new
          (some block)) := by
  set final := (now.setKind block (.block info (before ++ new :: call :: after))).setParent new
    (some block) with hfinal
  -- The block was there before, and in it and nowhere else the call.
  have hhere : program.Has block := by
    by_contra hout
    have haction := (h.newKind hout).1
    rw [hblock] at haction
    cases haction
  obtain ⟨body, hbody, hmembers⟩ := StmtKind.preface_eq_block ((h.kind hhere).symm.trans hblock)
  have hchild : call ∈ body := by
    have hmem : call ∈ prefaces.members body :=
      hmembers ▸ List.mem_append_right _ List.mem_cons_self
    obtain ⟨id, hid, hmem⟩ := List.mem_flatMap.mp hmem
    rcases List.mem_append.mp hmem with hmem | hmem
    · exact absurd hcall (h.newReads hmem)
    · exact List.mem_singleton.mp hmem ▸ hid
  have hchanged := (Edit.changesOnly_attach h.linked hblock hnew)
  have hhas : ∀ {id}, now.Has id → final.Has id := hchanged.1.has
  have hother : ∀ {id}, id ≠ block → final.kind id = now.kind id := fun hne ↦ by
    rw [hfinal, kind_setParent, kind_setKind, if_neg fun hand ↦ hne hand.1]
  have hne : ∀ {id}, ¬ program.Has id → id ≠ block := by
    rintro _ hid rfl
    exact hid hhere
  have hparent : ∀ {id}, id ≠ new → final.parent id = now.parent id := fun hne ↦ by
    rw [hfinal, parent_setParent, if_neg fun hand ↦ hne hand.1, parent_setKind]
  refine ⟨⟨h.types, h.functions, hchanged.1.linked, h.symbol, h.newSymbol,
    fun hid ↦ hhas (h.has hid), fun {id} hid ↦ ?_, fun {id} hid ↦ ?_, fun {id} hid ↦ ?_,
    fun {id other} hmem ↦ ?_⟩, fun hid ↦ ⟨hid, rfl⟩,
    fun hid hnew ↦ ⟨hhas hid, hother (hne hnew)⟩, hhas⟩
  · by_cases hid' : id = block
    · have hnodup : body.Nodup := by
        have hnodup := hlinked.nodup_children block
        rwa [hbody] at hnodup
      rw [hid', hchanged.2, hbody, StmtKind.preface, Prefaces.members_push hnodup hchild
        (fun _ hmem ↦ h.newReads hmem hcall) hmembers]
      rfl
    · rw [hother hid', h.kind hid]
      refine (StmtKind.preface_congr (fun info' body' hkind ↦ ?_) ?_).symm
      · refine Prefaces.members_push_of_not_mem fun hmem ↦ hid' ?_
        have hparent := hlinked.parent_of_child
          (show call ∈ (program.kind id).children by rwa [hkind])
        have hparent' := hlinked.parent_of_child
          (show call ∈ (program.kind block).children by rwa [hbody])
        exact Option.some.inj (hparent.symm.trans hparent')
      · exact Prefaces.args_push ..
  · rw [hparent (by rintro rfl; exact hmade hid), hfinal, owner_setParent, owner_setKind]
    exact h.place hid
  · rw [hother (hne hid)]
    exact h.newKind hid
  · rcases Prefaces.mem_reads_push hmem with hmem | hmem
    · exact h.newReads hmem
    · exact List.mem_singleton.mp hmem ▸ hmade

theorem setArgs (h : program.Prefaced prefaces now) (hcall : program.Has call)
    {inner : Action} (hkind : program.kind call = .action inner) (args : List Operand) :
    program.Prefaced (prefaces.setArgs call args)
        (now.setKind call ((now.kind call).withCallArgs args)) ∧
      program.KeepsMade now (now.setKind call ((now.kind call).withCallArgs args)) := by
  have hreworks : now.Reworks Scope.everything
      (now.setKind call ((now.kind call).withCallArgs args)) :=
    .setKind call (StmtKind.children_withCallArgs ..) (StmtKind.isAction_withCallArgs ..)
      (.inl (StmtKind.loopHeader?_withCallArgs ..))
  have hother : ∀ {id}, id ≠ call →
      (now.setKind call ((now.kind call).withCallArgs args)).kind id = now.kind id := fun hne ↦ by
    rw [kind_setKind, if_neg fun hand ↦ hne hand.1]
  have hne : ∀ {id}, ¬ program.Has id → id ≠ call := by
    rintro _ hid rfl
    exact hid hcall
  refine ⟨⟨h.types, h.functions, hreworks.wellLinked h.linked, h.symbol, h.newSymbol,
    fun hid ↦ hreworks.has (h.has hid), fun {id} hid ↦ ?_, fun hid ↦ ?_, fun {id} hid ↦ ?_,
    fun {id other} hmem ↦ ?_⟩, fun hid ↦ ⟨hid, rfl⟩,
    fun hid hnew ↦ ⟨hreworks.has hid, hother (hne hnew)⟩, hreworks.has⟩
  · by_cases hid' : id = call
    · subst hid'
      rw [kind_setKind, if_pos ⟨rfl, h.has hid⟩, h.kind hid, hkind, StmtKind.preface,
        StmtKind.preface, StmtKind.withCallArgs_withCallArgs, Prefaces.setArgs,
        Function.update_self]
    · rw [hother hid', h.kind hid]
      refine (StmtKind.preface_congr (fun _ _ _ ↦ Prefaces.members_setArgs ..) ?_).symm
      rw [Prefaces.setArgs, Function.update_of_ne hid']
  · rw [parent_setKind, owner_setKind]
    exact h.place hid
  · rw [hother (hne hid)]
    exact h.newKind hid
  · by_cases hid : id = call
    · rw [hid, Prefaces.setArgs, Function.update_self] at hmem
      exact h.newReads hmem
    · rw [Prefaces.setArgs, Function.update_of_ne hid] at hmem
      exact h.newReads hmem

theorem ensures_newAction (h : program.Prefaced prefaces now) {inner : Action} {span : Span}
    (hinner : (StmtKind.action inner).directCallee? = none) :
    Ensures (IteratorLowering.newAction inner span) now (fun _ ↦ True) fun id final ↦
      program.KeepsMade now final ∧ program.Prefaced prefaces final ∧ final.Detached id ∧
        ¬ program.Has id ∧ final.kind id = .action inner := by
  refine ensures_modifyGet.mpr ⟨trivial, (h.newAction span hinner).2, (h.newAction span hinner).1,
    WellLinked.detached_newStmt now span nofun, fun hid ↦ now.not_has_nextStmt (h.has hid), ?_⟩
  rw [newStmt_fst, kind_newStmt, if_pos rfl]

theorem ensures_insertBefore (h : program.Prefaced prefaces now) (hlinked : program.WellLinked)
    (hcall : program.Has call) (hnew : now.Detached new) (hmade : ¬ program.Has new) :
    Ensures (Edit.insertBefore call new) now (fun _ ↦ True) fun _ final ↦
      program.KeepsMade now final ∧ program.Prefaced (prefaces.push call [new]) final := by
  unfold Edit.insertBefore Edit.detach
  rw [bind_assoc, ensures_get_bind, hnew.parent]
  refine Edit.ensures_position_bind trivial fun block index info before after hblock hlength _ ↦ ?_
  subst hlength
  refine (Edit.ensures_insertAt_eq hblock hnew).mono (fun _ h ↦ h) ?_
  rintro _ _ - rfl
  exact (h.insert hlinked hcall hblock hnew hmade).symm

/-- What was there stands where it stood. -/
theorem standsIn_iff (h : program.Prefaced prefaces now) (hlinked : program.WellLinked)
    {function : FnId} {id : StmtId} (hid : program.Has id) :
    now.StandsIn function id ↔ program.StandsIn function id := by
  have hroot : ∀ {id parent}, program.Has id →
      (now.parent id = some parent ↔ program.parent id = some parent) := fun hid ↦ by
    rw [(h.place hid).1]
  have habove : ∀ {id parent}, program.parent id = some parent → program.Has parent := fun hparent ↦
    has_of_mem_children (hlinked.child_of_parent hparent)
  constructor
  · rintro ⟨root, hunder, hbody⟩
    suffices program.Under id root ∧ program.Has root from
      ⟨root, this.1, (h.place this.2).2 ▸ hbody⟩
    clear hbody
    induction hunder using Relation.ReflTransGen.head_induction_on with
    | refl => exact ⟨.refl, hid⟩
    | head hparent _ ih =>
      have hparent := (hroot hid).mp hparent
      exact ⟨(ih (habove hparent)).1.head hparent, (ih (habove hparent)).2⟩
  · rintro ⟨root, hunder, hbody⟩
    suffices now.Under id root ∧ program.Has root from
      ⟨root, this.1, (h.place this.2).2.trans hbody⟩
    clear hbody
    induction hunder using Relation.ReflTransGen.head_induction_on with
    | refl => exact ⟨.refl, hid⟩
    | head hparent _ ih =>
      exact ⟨(ih (habove hparent)).1.head ((hroot hid).mpr hparent), (ih (habove hparent)).2⟩

theorem hasFunction_iff (h : program.Prefaced prefaces now) {function : FnId} :
    now.HasFunction function ↔ program.HasFunction function := by
  rw [HasFunction, HasFunction, h.functions]

theorem mem_functionStmts_iff (h : program.Prefaced prefaces now) (hlinked : program.WellLinked)
    {function : FnId} (hfunction : program.HasFunction function) {id : StmtId}
    (hid : program.Has id) :
    id ∈ now.functionStmts function ↔ id ∈ program.functionStmts function := by
  rw [h.linked.mem_functionStmts_iff (h.hasFunction_iff.mpr hfunction), h.standsIn_iff hlinked hid,
    hlinked.mem_functionStmts_iff hfunction]

end Prefaced

end Program

end IteratorLowering
