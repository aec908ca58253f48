import IteratorLowering.Proofs.Forest.Updating
import IteratorLowering.Proofs.Outcome

/-!
# Edits within a scope

Every edit stays within a scope that allows what it inserts or removes to be moved. It does so
whether or not it succeeds, since a failing edit has at most detached what it was about to
insert. The lemmas also say where a statement stands after an edit that succeeded.
-/

set_option autoImplicit false
set_option relaxedAutoImplicit false

namespace IteratorLowering

namespace Program

variable {program : Program} {id block : StmtId} {position : Nat}

theorem exists_of_positionInParent (h : program.positionInParent id = .ok (block, position)) :
    ∃ info before after, program.kind block = .block info (before ++ id :: after) ∧
      before.length = position ∧ program.parent id = some block := by
  unfold positionInParent at h
  split at h
  · cases h
  · rename_i parent hparent
    split at h
    · rename_i info body hkind
      split at h
      · rename_i hfound
        cases h
        obtain ⟨hlt, hget, -⟩ := List.findIdx?_eq_some_iff_getElem.mp hfound
        refine ⟨info, body.take position, body.drop (position + 1), ?_, ?_, hparent⟩
        · rw [hkind, ← beq_iff_eq.mp hget, ← List.drop_eq_getElem_cons hlt,
            List.take_append_drop]
        · exact List.length_take_of_le (Nat.le_of_lt hlt)
      · cases h
    · cases h
    · cases h

theorem insertIdx_of_le {body : List StmtId} (new : StmtId) (h : position ≤ body.length) :
    body.insertIdx position new = body.take position ++ new :: body.drop position := by
  induction body generalizing position with
  | nil =>
    obtain rfl := Nat.le_zero.mp h
    rfl
  | cons first rest ih =>
    cases position with
    | zero => rfl
    | succ position => simp [ih (Nat.le_of_succ_le_succ h)]

theorem blockBody_of_kind {info : Option BlockInfo} {body : List StmtId}
    (h : program.kind block = .block info body) : program.blockBody block = body := by
  rw [blockBody, h]

end Program

/-- Whether a computation that starts at a program stays within a scope. -/
abbrev Stays {m : Type → Type} [Monad m] [MonadStateOf Program m] [Runs m Program] {α : Type}
    (scope : Scope) (program : Program) (computation : m α) : Prop :=
  Ensures computation program (program.Reworks scope) fun _ _ ↦ True

theorem Ensures.stays {m : Type → Type} [Monad m] [MonadStateOf Program m] [Runs m Program]
    {α : Type} {scope : Scope} {program : Program} {computation : m α}
    {result : α → Program → Prop} (h : Ensures computation program (program.Reworks scope) result) :
    Stays scope program computation :=
  h.mono (fun _ h ↦ h) fun _ _ _ _ ↦ trivial

/-- A computation that stays within a scope makes no loop of what is none. -/
theorem Stays.isForLoop_eq_false {m : Type → Type} [Monad m] [MonadStateOf Program m]
    [Runs m Program] {α : Type} {scope : Scope} {program : Program} {computation : m α}
    {id : StmtId}
    (h : Stays scope program computation) (hid : program.Has id)
    (hloop : (program.kind id).isForLoop = false) :
    Ensures computation program (program.Reworks scope)
      fun _ final ↦ (final.kind id).isForLoop = false :=
  h.mono (fun _ h ↦ h) fun _ _ hfinal _ ↦ hfinal.isForLoop_eq_false hid hloop

/-- A computation also stays within a larger scope, and what it keeps otherwise is not lost. -/
theorem Ensures.within {m : Type → Type} [Monad m] [MonadStateOf Program m] [Runs m Program]
    {α : Type} {scope scope' : Scope} {program : Program} {computation : m α}
    {result : α → Program → Prop} (hle : scope.Le scope')
    (h : Ensures computation program (program.Reworks scope) result) :
    Ensures computation program (program.Reworks scope') fun value final ↦
      program.Reworks scope final ∧ result value final :=
  h.mono (fun _ h ↦ h.mono hle) fun _ _ h hresult ↦ ⟨h, hresult⟩

/-- A computation that changes nothing stays within every scope. -/
theorem Ensures.unchanged {m : Type → Type} [Monad m] [MonadStateOf Program m] [Runs m Program]
    {α : Type} {scope : Scope} {program : Program} {computation : m α}
    {result : α → Program → Prop} (h : Ensures computation program (Eq program) result) :
    Ensures computation program (program.Reworks scope) fun value final ↦
      program = final ∧ result value final :=
  h.mono (fun _ hsame ↦ hsame ▸ .refl scope program) fun _ _ hsame hresult ↦ ⟨hsame, hresult⟩

theorem Ensures.rooted {m : Type → Type} [Monad m] [MonadStateOf Program m] [Runs m Program]
    {α : Type} {scope : Scope} {program : Program} {computation : m α}
    {result : α → Program → Prop} (h : Ensures computation program (program.Reworks scope) result) :
    Ensures computation program (program.Reworks scope.rooted) fun value final ↦
      program.Reworks scope final ∧ result value final :=
  h.within scope.le_rooted

theorem Stays.rooted {m : Type → Type} [Monad m] [MonadStateOf Program m] [Runs m Program]
    {α : Type} {scope : Scope} {program : Program} {computation : m α}
    (h : Stays scope program computation) : Stays scope.rooted program computation :=
  (Ensures.rooted h).stays

/-- One step further in a computation that stays within a scope and has stayed within a smaller one
so far. -/
theorem Program.Reworks.nextWithin {m : Type → Type} [Monad m] [MonadStateOf Program m]
    [Runs m Program] {α β : Type} {scope scope' : Scope} {start program : Program} {first : m α}
    {rest : α → m β} {result : α → Program → Prop} {final : β → Program → Prop}
    (hle : scope.Le scope') (hsofar : start.Reworks scope program)
    (h : Ensures first program (program.Reworks scope) result)
    (hrest : ∀ value middle, start.Reworks scope middle → result value middle →
      Ensures (rest value) middle (middle.Reworks scope') final) :
    Ensures (first >>= rest) program (program.Reworks scope') final :=
  Ensures.seq (h.within hle) fun value middle _ h ↦ hrest value middle (hsofar.trans h.1) h.2

/-- One step further in a computation that stayed within a scope so far. -/
theorem Program.Reworks.next {m : Type → Type} [Monad m] [MonadStateOf Program m]
    [Runs m Program] {α β : Type} {scope : Scope} {start program : Program} {first : m α}
    {rest : α → m β} {result : α → Program → Prop} {final : β → Program → Prop}
    (hsofar : start.Reworks scope program)
    (h : Ensures first program (program.Reworks scope) result)
    (hrest : ∀ value middle, start.Reworks scope middle → result value middle →
      Ensures (rest value) middle (middle.Reworks scope) final) :
    Ensures (first >>= rest) program (program.Reworks scope) final :=
  hsofar.nextWithin (.refl scope) h hrest

namespace Edit

variable {scope : Scope} {program : Program} {id block anchor new old scratch : StmtId}
variable {position : Nat}

theorem ensures_position_bind {α : Type} {next : StmtId × Nat → Edit α} {holds : Program → Prop}
    {result : α → Program → Prop} (hholds : holds program)
    (hnext : ∀ block index info before after,
      program.kind block = .block info (before ++ id :: after) →
      before.length = index → program.parent id = some block →
      Ensures (next (block, index)) program holds result) :
    Ensures (Edit.position id >>= next) program holds result := by
  unfold Edit.position
  rw [bind_assoc, ensures_get_bind]
  cases hposition : program.positionInParent id with
  | error error => simpa [hposition] using hholds
  | ok found =>
    obtain ⟨block, index⟩ := found
    obtain ⟨info, before, after, hkind, hlength, hparent⟩ :=
      Program.exists_of_positionInParent hposition
    simpa [hposition] using hnext block index info before after hkind hlength hparent

theorem ensures_modifyBody_bind {α : Type} {next : PUnit → Edit α} {holds : Program → Prop}
    {result : α → Program → Prop} {change : List StmtId → List StmtId} (hholds : holds program)
    (hnext : ∀ info body, program.kind block = .block info body →
      Ensures (next ⟨⟩) (program.setKind block (.block info (change body))) holds result) :
    Ensures (Edit.modifyBody block change >>= next) program holds result := by
  unfold Edit.modifyBody
  rw [bind_assoc, ensures_get_bind]
  cases hkind : program.kind block with
  | action | branch => simpa [hkind] using hholds
  | block info body => simpa [hkind] using hnext info body hkind

/-- A removal takes a statement out of the block that lists it, if there is one. -/
theorem ensures_remove_of_listed {holds : Program → Prop} {result : PUnit → Program → Prop}
    (hholds : holds program)
    (hremoved : ∀ {block info before after},
      program.kind block = .block info (before ++ id :: after) → program.parent id = some block →
      let removed := (program.setKind block (.block info (before ++ after))).setParent id none
      holds removed ∧ result ⟨⟩ removed) : Ensures (Edit.remove id) program holds result := by
  unfold Edit.remove
  refine ensures_position_bind hholds fun block index info before after hkind hlength hparent ↦ ?_
  refine ensures_modifyBody_bind hholds fun info' body hbody ↦ ?_
  obtain ⟨rfl, rfl⟩ : info = info' ∧ before ++ id :: after = body := by
    simpa using hkind.symm.trans hbody
  have herase : (before ++ id :: after).eraseIdx index = before ++ after := by
    rw [← hlength, List.eraseIdx_append_of_length_le (Nat.le_refl _), Nat.sub_self]
    rfl
  rw [ensures_modify, herase]
  exact hremoved hkind hparent

/-- A statement that was removed has no parent. -/
theorem ensures_remove (hmovable : program.Movable scope id) :
    Ensures (Edit.remove id) program (program.Reworks scope) fun _ final ↦
      program.Has id ∧ final.parent id = none ∧ final.functions = program.functions ∧
        (final.stmt id).bodyOf = (program.stmt id).bodyOf := by
  refine ensures_remove_of_listed (.refl scope program) fun hkind hparent ↦ ?_
  refine ⟨.detach hkind hmovable, Program.has_of_parent hparent, ?_, rfl, ?_⟩
  · simp [Program.parent_setParent, Program.has_of_parent hparent]
  · simp

/-- A statement that was detached stands nowhere. -/
theorem ensures_detach (hnew : program.Loose scope new) :
    Ensures (Edit.detach new) program (program.Reworks scope) fun _ final ↦
      final.Detached new ∧ final.functions = program.functions := by
  unfold Edit.detach
  rw [ensures_get_bind]
  split
  · refine (ensures_remove hnew.movable).mono (fun _ h ↦ h) ?_
    exact fun _ final hfinal ⟨hhas, hparent, hfunctions, howner⟩ ↦
      ⟨⟨hfinal.has hhas, hparent, howner.trans hnew.owner⟩, hfunctions⟩
  · rename_i hparent
    exact .stay ⟨⟨hnew.has, Option.not_isSome_iff_eq_none.mp hparent, hnew.owner⟩, rfl⟩

/-- A detached statement is put into a block at a position that the block has. -/
theorem ensures_insertAt (hnew : program.Detached new) (hmovable : program.Movable scope new)
    (hposition : position ≤ (program.blockBody block).length) :
    Ensures (Edit.insertAt block position new) program (program.Reworks scope) fun _ final ↦
      final.parent new = some block ∧
        (∀ other, other ≠ new → final.parent other = program.parent other) ∧
        (final.blockBody block).length = (program.blockBody block).length + 1 := by
  unfold Edit.insertAt Edit.detach
  rw [bind_assoc, ensures_get_bind]
  rw [hnew.parent]
  refine ensures_modifyBody_bind (.refl scope program) fun info body hkind ↦ ?_
  rw [Program.blockBody_of_kind hkind] at hposition ⊢
  have hblock := Program.has_of_kind_block hkind
  rw [ensures_modify, Program.insertIdx_of_le new hposition]
  rw [← List.take_append_drop position body] at hkind
  refine ⟨.attach hkind hnew hmovable, ?_, fun other hother ↦ ?_, ?_⟩
  · simp [Program.parent_setParent, hnew.has]
  · simp [Program.parent_setParent, hother]
  · simp [Program.blockBody, Program.kind_setKind, hblock]
    omega

/-- A statement that was put before another one stands in the block of that one. -/
theorem ensures_insertBefore (hnew : program.Loose scope new) :
    Ensures (Edit.insertBefore anchor new) program (program.Reworks scope) fun _ final ↦
      anchor ≠ new ∧ ∃ block, final.parent new = some block ∧ final.parent anchor = some block := by
  unfold Edit.insertBefore
  refine (ensures_detach hnew).seq fun _ middle h ⟨hdetached, _⟩ ↦ ?_
  refine ensures_position_bind (.refl scope middle) fun block index info before after hkind hlength
    hparent ↦ ?_
  have hmovable := h.movable hnew.has hnew.movable
  refine (ensures_insertAt hdetached hmovable ?_).mono (fun _ h ↦ h) fun _ final _ hfinal ↦ ?_
  · rw [Program.blockBody_of_kind hkind, ← hlength]
    simp
  · have hne : anchor ≠ new := by
      rintro rfl
      rw [hdetached.parent] at hparent
      cases hparent
    exact ⟨hne, block, hfinal.1, (hfinal.2.1 anchor hne).trans hparent⟩

theorem stays_insertAfter (hnew : program.Loose scope new) :
    Stays scope program (Edit.insertAfter anchor new) := by
  unfold Edit.insertAfter
  refine (ensures_detach hnew).seq fun _ middle h ⟨hdetached, _⟩ ↦ ?_
  refine ensures_position_bind (.refl scope middle) fun block index info before after hkind hlength
    _ ↦ ?_
  have hmovable := h.movable hnew.has hnew.movable
  refine (ensures_insertAt hdetached hmovable ?_).stays
  rw [Program.blockBody_of_kind hkind, ← hlength]
  simp

theorem ensures_insertAtHead (hnew : program.Loose scope new) :
    Ensures (Edit.insertAtHead block new) program (program.Reworks scope) fun _ final ↦
      final.parent new = some block := by
  unfold Edit.insertAtHead
  refine (ensures_detach hnew).seq fun _ middle h ⟨hdetached, _⟩ ↦ ?_
  exact (ensures_insertAt hdetached (h.movable hnew.has hnew.movable) (Nat.zero_le _)).mono
    (fun _ h ↦ h) fun _ _ _ h ↦ h.1

theorem ensures_insertAtTail (hnew : program.Loose scope new) :
    Ensures (Edit.insertAtTail block new) program (program.Reworks scope) fun _ final ↦
      final.parent new = some block := by
  unfold Edit.insertAtTail
  refine (ensures_detach hnew).seq fun _ middle h ⟨hdetached, _⟩ ↦ ?_
  rw [ensures_get_bind]
  exact (ensures_insertAt hdetached (h.movable hnew.has hnew.movable) (Nat.le_refl _)).mono
    (fun _ h ↦ h) fun _ _ _ h ↦ h.1

/-! ### Statements in the place of others -/

theorem set_idxOf_eq_map {body : List StmtId} (hnodup : body.Nodup)
    (h : body.idxOf? old = some position) :
    body.set position new = body.map fun child ↦ if child = old then new else child := by
  obtain ⟨hlt, hget, -⟩ := List.findIdx?_eq_some_iff_getElem.mp h
  have hold : body[position] = old := beq_iff_eq.mp hget
  refine List.ext_getElem (by simp) fun index _ hindex ↦ ?_
  rw [List.length_map] at hindex
  have hiff : body[index] = old ↔ position = index := by
    rw [← hold, hnodup.getElem_inj_iff, eq_comm]
  simp only [List.getElem_set, List.getElem_map, hiff]

theorem children_replaceBranch {condition : Operand} {thenBlock thenBlock' : StmtId}
    {elseBlock elseBlock' : Option StmtId}
    (hnodup : (StmtKind.branch condition thenBlock elseBlock).children.Nodup)
    (h : replaceBranch thenBlock elseBlock old new = some (thenBlock', elseBlock')) :
    (StmtKind.branch condition thenBlock' elseBlock').children =
      (StmtKind.branch condition thenBlock elseBlock).children.map
        fun child ↦ if child = old then new else child := by
  unfold replaceBranch at h
  split at h
  · rename_i hthen
    cases h
    cases elseBlock with
    | none => simp [StmtKind.children, hthen]
    | some elseBlock =>
      have hne : elseBlock ≠ old := by
        rintro rfl
        simp [StmtKind.children, hthen] at hnodup
      simp [StmtKind.children, hthen, hne]
  · rename_i hthen
    split at h
    · rename_i helse
      cases h
      simp [StmtKind.children, hthen, helse]
    · cases h

/-- A statement stands nowhere, and every function has its body or the new statement for it. -/
structure Displaced (program : Program) (old new : StmtId) (final : Program) : Prop where
  parent : final.parent old = none
  owner : (final.stmt old).bodyOf = none
  bodyOf : ∀ function,
    final.bodyOf function = program.bodyOf function ∨ final.bodyOf function = new

/-- The body of a function stands nowhere when another statement takes its place. -/
theorem displaced_moveBody {function : FnId} (hparent : program.parent old = none)
    (howner : (program.stmt old).bodyOf = some function) (hnew : program.Detached new) :
    Displaced program old new (program.moveBody old new function) where
  parent := (program.parent_moveBody ..).trans hparent
  owner := by
    have hne : old ≠ new := by
      rintro rfl
      rw [hnew.owner] at howner
      cases howner
    rw [Program.owner_moveBody (Program.has_of_bodyOf howner) hnew.has, if_neg hne, if_pos rfl]
  bodyOf other := by
    rw [Program.bodyOf, Program.moveBody, Program.function_modifyFunction]
    split
    · exact .inr rfl
    · exact .inl rfl

/-- A child stands nowhere when a detached statement takes its place, whatever form its parent
has. -/
theorem ensures_exchange {parent : StmtId} {kind : StmtKind} (hlinked : program.WellLinked)
    (hparent : program.parent old = some parent) (hnew : program.Detached new)
    (hold : program.Movable scope old) (hmovable : program.Movable scope new)
    (hchildren : kind.children =
      (program.kind parent).children.map fun child ↦ if child = old then new else child)
    (haction : kind.isAction = (program.kind parent).isAction)
    (hheader : kind.loopHeader? = (program.kind parent).loopHeader?) :
    Ensures (set (program.setKind parent kind) >>= fun _ ↦ modify fun program ↦
      (program.setParent new (some parent)).setParent old none : Edit PUnit) program
      (program.Reworks scope) fun _ final ↦ Displaced program old new final := by
  rw [ensures_set_bind, ensures_modify]
  refine ⟨.exchange (hlinked.child_of_parent hparent) hnew hchildren haction hheader hold hmovable,
    ?_, ?_, fun function ↦ .inl rfl⟩
  · simp [Program.parent_setParent, Program.has_of_parent hparent]
  · rw [Program.owner_setParent, Program.owner_setParent, Program.owner_setKind,
      hlinked.ownerless_of_parent hparent]

/-- A statement that was replaced stands nowhere. -/
theorem ensures_replace (hlinked : program.WellLinked) (hnew : program.Loose scope new)
    (hhas : program.Has old ∨ scope.rooting ∧ scope.moved old) (hold : program.Movable scope old)
    (hrooting : scope.rooting ∨ (program.stmt old).bodyOf = none) :
    Ensures (Edit.replace old new) program (program.Reworks scope) fun _ final ↦
      final.parent old = none ∧ (final.stmt old).bodyOf = none ∧ ∀ function,
        final.bodyOf function = program.bodyOf function ∨ final.bodyOf function = new := by
  unfold Edit.replace
  refine (ensures_detach hnew).seq fun _ middle h ⟨hdetached, hfunctions⟩ ↦ ?_
  have hmiddle := h.wellLinked hlinked
  have hold' := hhas.elim (fun hhas ↦ h.movable hhas hold) fun hfree ↦ .inl hfree.2
  have hnew' := h.movable hnew.has hnew.movable
  -- Detaching the new statement has changed no function.
  suffices hrest : Ensures _ middle (middle.Reworks scope) fun _ final ↦
      Displaced middle old new final from
    hrest.mono (fun _ h ↦ h) fun _ final _ hdone ↦ ⟨hdone.parent, hdone.owner, fun function ↦ by
      have hbody := hdone.bodyOf function
      rwa [Program.bodyOf_congr hfunctions] at hbody⟩
  rw [ensures_get_bind]
  cases hparent : middle.parent old with
  | none =>
    cases howner : (middle.stmt old).bodyOf with
    | none => simpa [howner] using Program.Reworks.refl scope middle
    | some function =>
      have hrooting' : scope.rooting := by
        by_contra hcalm
        have hhas := hhas.resolve_right fun hfree ↦ hcalm hfree.1
        rw [h.ownerless hcalm hhas (hrooting.resolve_left hcalm)] at howner
        cases howner
      rw [ensures_set]
      exact ⟨.exchangeBody hrooting' howner hdetached hold' hnew',
        displaced_moveBody hparent howner hdetached⟩
  | some parent =>
    have hnodup := hmiddle.nodup_children parent
    cases hkind : middle.kind parent with
    | action => simpa [hkind] using Program.Reworks.refl scope middle
    | branch condition thenBlock elseBlock =>
      cases hbranch : replaceBranch thenBlock elseBlock old new with
      | none => simpa [hkind, hbranch] using Program.Reworks.refl scope middle
      | some branches =>
        rw [hkind] at hnodup
        simp only [hkind, hbranch]
        exact ensures_exchange hmiddle hparent hdetached hold' hnew'
          (hkind ▸ children_replaceBranch hnodup hbranch) (hkind ▸ rfl) (hkind ▸ rfl)
    | block info body =>
      cases hposition : body.idxOf? old with
      | none => simpa [hkind, hposition] using Program.Reworks.refl scope middle
      | some position =>
        rw [hkind] at hnodup
        simp only [hkind, hposition]
        exact ensures_exchange hmiddle hparent hdetached hold' hnew'
          (hkind ▸ set_idxOf_eq_map hnodup hposition) (hkind ▸ rfl)
          (hkind ▸ StmtKind.loopHeader?_block ..)

/-! ### Moving the members of blocks -/

/-- The members that were taken out of a block can be inserted elsewhere. -/
theorem ensures_takeBody (hlinked : program.WellLinked)
    (hmovable : ∀ member ∈ program.blockBody block, program.Movable scope member) :
    Ensures (Edit.takeBody block) program (program.Reworks scope) fun members final ↦
      members = program.blockBody block ∧ members.Nodup ∧
        ∀ member ∈ members, final.Loose scope member ∧ final.Detached member := by
  unfold Edit.takeBody
  rw [ensures_get_bind]
  cases hkind : program.kind block with
  | action | branch => simpa [hkind] using Program.Reworks.refl scope program
  | block info body =>
    rw [Program.blockBody_of_kind hkind] at hmovable ⊢
    rw [ensures_modify_bind, ensures_pure]
    have hreworks := Program.Reworks.release hkind hmovable
    have hnodup := hlinked.nodup_children block
    rw [hkind] at hnodup
    refine ⟨hreworks, rfl, hnodup, fun member hmember ↦ ?_⟩
    have hparent : program.parent member = some block :=
      hlinked.parent_of_child (by rw [hkind]; exact hmember)
    have hhas := Program.has_of_parent hparent
    have hdetached :
        ((program.setKind block (.block info [])).adopt body none).Detached member := by
      refine ⟨hreworks.has hhas, ?_, ?_⟩
      · simp [Program.parent_adopt, hmember, hhas]
      · rw [Program.owner_adopt, Program.owner_setKind, hlinked.ownerless_of_parent hparent]
    exact ⟨⟨hdetached.has, hdetached.owner, hreworks.movable hhas (hmovable member hmember)⟩,
      hdetached⟩

/-- Statements that can be inserted keep being so while others are. -/
theorem stays_forM_insert {members : List StmtId} {insert : StmtId → Edit PUnit}
    (hcalm : ¬ scope.rooting) (hloose : ∀ member ∈ members, program.Loose scope member)
    (hinsert : ∀ member, ∀ middle : Program, middle.Loose scope member →
      Stays scope middle (insert member)) :
    Stays scope program (members.forM insert) :=
  .forM fun member hmember middle h ↦
    hinsert member middle (h.loose hcalm (hloose member hmember))

theorem stays_spliceBefore (hlinked : program.WellLinked) (hcalm : ¬ scope.rooting)
    (hmovable : ∀ member ∈ program.blockBody scratch, program.Movable scope member) :
    Stays scope program (Edit.spliceBefore anchor scratch) := by
  unfold Edit.spliceBefore
  refine (ensures_takeBody hlinked hmovable).seq fun members middle h hmembers ↦ ?_
  exact stays_forM_insert hcalm (fun member hmember ↦ (hmembers.2.2 member hmember).1)
    fun member _ hloose ↦ (ensures_insertBefore hloose).stays

theorem stays_insertChain {members : List StmtId} (hcalm : ¬ scope.rooting)
    (hloose : ∀ member ∈ members, program.Loose scope member) :
    Stays scope program (Edit.insertChain anchor members) := by
  induction members generalizing program anchor with
  | nil => exact .stay trivial
  | cons new rest ih =>
    unfold Edit.insertChain
    refine (stays_insertAfter (hloose new List.mem_cons_self)).seq fun _ middle h _ ↦ ?_
    exact ih fun member hmember ↦ h.loose hcalm (hloose member (List.mem_cons_of_mem _ hmember))

theorem stays_spliceAfter (hlinked : program.WellLinked) (hcalm : ¬ scope.rooting)
    (hmovable : ∀ member ∈ program.blockBody scratch, program.Movable scope member) :
    Stays scope program (Edit.spliceAfter anchor scratch) := by
  unfold Edit.spliceAfter
  refine (ensures_takeBody hlinked hmovable).seq fun members middle h hmembers ↦ ?_
  exact stays_insertChain hcalm fun member hmember ↦ (hmembers.2.2 member hmember).1

/-- Each insertion makes room for the position of the next one. -/
theorem stays_insertFrom {members : List StmtId} (hcalm : ¬ scope.rooting)
    (hmembers : ∀ member ∈ members, program.Detached member ∧ program.Movable scope member)
    (hnodup : members.Nodup) (hposition : position ≤ (program.blockBody block).length) :
    Stays scope program (Edit.insertFrom block position members) := by
  induction members generalizing program position with
  | nil => exact .stay trivial
  | cons new rest ih =>
    obtain ⟨hnew, hrest⟩ := List.nodup_cons.mp hnodup
    unfold Edit.insertFrom
    obtain ⟨hdetached, hmovable⟩ := hmembers new List.mem_cons_self
    refine (ensures_insertAt hdetached hmovable hposition).seq fun _ middle h hmiddle ↦ ?_
    obtain ⟨-, hparent, hlength⟩ := hmiddle
    refine ih (fun member hmember ↦ ?_) hrest (by omega)
    obtain ⟨hmember', hmovable'⟩ := hmembers member (List.mem_cons_of_mem _ hmember)
    have hne : member ≠ new := fun heq ↦ hnew (heq ▸ hmember)
    exact ⟨⟨h.has hmember'.has, (hparent member hne).trans hmember'.parent,
      h.ownerless hcalm hmember'.has hmember'.owner⟩, h.movable hmember'.has hmovable'⟩

theorem stays_spliceAtHead (hlinked : program.WellLinked) (hcalm : ¬ scope.rooting)
    (hmovable : ∀ member ∈ program.blockBody scratch, program.Movable scope member) :
    Stays scope program (Edit.spliceAtHead block scratch) := by
  unfold Edit.spliceAtHead
  refine (ensures_takeBody hlinked hmovable).seq fun members middle h hmembers ↦ ?_
  refine stays_insertFrom hcalm (fun member hmember ↦ ?_) hmembers.2.1 (Nat.zero_le _)
  have hmember' := hmembers.2.2 member hmember
  exact ⟨hmember'.2, hmember'.1.movable⟩

theorem stays_spliceAtTail (hlinked : program.WellLinked) (hcalm : ¬ scope.rooting)
    (hmovable : ∀ member ∈ program.blockBody scratch, program.Movable scope member) :
    Stays scope program (Edit.spliceAtTail block scratch) := by
  unfold Edit.spliceAtTail
  refine (ensures_takeBody hlinked hmovable).seq fun members middle h hmembers ↦ ?_
  exact stays_forM_insert hcalm (fun member hmember ↦ (hmembers.2.2 member hmember).1)
    fun member _ hloose ↦ (ensures_insertAtTail hloose).stays

/-
The members of a block that may be moved can be spliced anywhere.
-/
section

variable (hfit : scope.Fits program) (hscratch : scope.moved scratch)

include hfit hscratch

theorem fits_spliceBefore : Stays scope program (Edit.spliceBefore anchor scratch) :=
  stays_spliceBefore hfit.wellLinked hfit.calm fun _ ↦ hfit.movable_member hscratch

theorem fits_spliceAfter : Stays scope program (Edit.spliceAfter anchor scratch) :=
  stays_spliceAfter hfit.wellLinked hfit.calm fun _ ↦ hfit.movable_member hscratch

theorem fits_spliceAtHead : Stays scope program (Edit.spliceAtHead block scratch) :=
  stays_spliceAtHead hfit.wellLinked hfit.calm fun _ ↦ hfit.movable_member hscratch

theorem fits_spliceAtTail : Stays scope program (Edit.spliceAtTail block scratch) :=
  stays_spliceAtTail hfit.wellLinked hfit.calm fun _ ↦ hfit.movable_member hscratch

end

/-! ### Making statements in blocks -/

/-- A statement that was just made can be inserted. -/
theorem ensures_newStmt {m : Type → Type} [Monad m] [MonadStateOf Program m] [Runs m Program]
    {kind : StmtKind} {span : Span}
    (hchildren : ∀ child ∈ kind.children, program.Detached child ∧ program.Movable scope child)
    (hnodup : kind.children.Nodup) (hloop : kind.isForLoop = true → scope.looping)
    (hnew : kind.isAction = true ∨ scope.moved program.nextStmt) :
    Ensures (modifyGet fun program ↦ program.newStmt kind span : m StmtId) program
      (program.Reworks scope) fun id final ↦
        final.Detached id ∧ final.Movable scope id ∧ ¬ program.Has id ∧ final.kind id = kind := by
  have hkind : (program.newStmt kind span).2.kind program.nextStmt = kind := by
    rw [Program.kind_newStmt, if_pos rfl]
  refine ensures_modifyGet.mpr ⟨.newStmt span hchildren hnodup hloop, ?_, ?_, ?_, hkind⟩
  · exact Program.WellLinked.detached_newStmt program span fun child hc ↦ (hchildren child hc).1.has
  · exact hnew.symm.imp_right fun h ↦ by rw [Program.newStmt_fst, hkind, h]
  · exact program.not_has_nextStmt

theorem ensures_push {kind : StmtKind} {span : Span}
    (hchildren : ∀ child ∈ kind.children, program.Detached child ∧ program.Movable scope child)
    (hnodup : kind.children.Nodup) (hloop : kind.isForLoop = true → scope.looping)
    (hnew : kind.isAction = true ∨ scope.moved program.nextStmt) :
    Stays scope program (Edit.push block kind span) := by
  unfold Edit.push
  refine (ensures_newStmt hchildren hnodup hloop hnew).seq fun id middle h hid ↦ ?_
  exact (ensures_insertAtTail ⟨hid.1.has, hid.1.owner, hid.2.1⟩).seq fun _ _ _ _ ↦ .stay trivial

theorem stays_pushAction {action : Action} {span : Span} :
    Stays scope program (Edit.push block (.action action) span) :=
  ensures_push nofun .nil nofun (.inl rfl)

end Edit

end IteratorLowering
