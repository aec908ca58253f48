import IteratorLowering.Proofs.Forest.Emitting
import IteratorLowering.Proofs.Frame.Invariant

/-!
# Edits that touch nothing in a frame

An edit keeps a frame if the statements that it inserts, removes or replaces are not kept and the
places where it puts them are not fixed. The same holds of emitters and copies. Edits that fail
half-way are covered, since the frame is an invariant of their parts, and no edit is asked to find
its statements where they are expected.
-/

set_option autoImplicit false
set_option relaxedAutoImplicit false

namespace IteratorLowering

section

variable {α : Type} {keep : α → Bool} {old new : α}

theorem filter_insertIdx (hnew : ¬ keep new) (list : List α) (position : Nat) :
    (list.insertIdx position new).filter keep = list.filter keep := by
  induction list generalizing position with
  | nil => cases position <;> simp [List.insertIdx, hnew]
  | cons first rest ih =>
    cases position with
    | zero => simp [hnew]
    | succ position => simp [List.filter_cons, ih]

theorem filter_set (hnew : ¬ keep new) (hold : ¬ keep old) {list : List α} {position : Nat}
    (h : list[position]? = some old) :
    (list.set position new).filter keep = list.filter keep := by
  induction list generalizing position with
  | nil => rfl
  | cons first rest ih =>
    cases position with
    | zero =>
      obtain rfl := Option.some.inj h
      simp [hnew, hold]
    | succ position => simp [List.filter_cons, ih h]

end

namespace LoopFrame

/-- Whether a computation that starts at a program keeps a frame. -/
abbrev Respects {m : Type → Type} [Monad m] [MonadStateOf Program m] [Runs m Program] {α : Type}
    (frame : LoopFrame) (program : Program) (computation : m α) : Prop :=
  Ensures computation program frame.Holds fun _ _ ↦ True

end LoopFrame

variable {frame : LoopFrame} {program : Program} {id block anchor new old scratch : StmtId}
variable {position : Nat}

section

variable {m : Type → Type} [Monad m] [MonadStateOf Program m] [Runs m Program]

/-- What a computation gives may be left unused. -/
theorem LoopFrame.respects_ignore {α : Type} {computation : m α} {result : α → Program → Prop}
    (h : Ensures computation program frame.Holds result) :
    frame.Respects program (do let _ ← computation : m PUnit) :=
  h.bind fun _ _ h _ ↦ .pure h trivial

theorem LoopFrame.respects_modify {change : Program → Program} (h : frame.Holds (change program)) :
    frame.Respects program (modify change : m PUnit) :=
  ensures_modify.mpr ⟨h, trivial⟩

theorem LoopFrame.respects_modifyGet {α : Type} {change : Program → α × Program}
    (h : frame.Holds (change program).2) :
    frame.Respects program (modifyGet change : m α) :=
  ensures_modifyGet.mpr ⟨h, trivial⟩

theorem LoopFrame.respects_mapM [LawfulMonad m] {α β : Type} {items : List α} {step : α → m β}
    (h : frame.Holds program) (hstep : ∀ item ∈ items, ∀ middle, frame.Holds middle →
      frame.Respects middle (step item)) : frame.Respects program (items.mapM step) :=
  (Ensures.mapM_keeping h hstep).mono (fun _ h ↦ h) fun _ _ _ _ ↦ trivial

/-- A new statement is not kept. -/
theorem LoopFrame.respects_newStmt (h : frame.Holds program) {kind : StmtKind} {span : Span}
    (hchildren : ∀ child ∈ kind.children, ¬ frame.kept child) :
    Ensures (modifyGet fun program ↦ program.newStmt kind span : m StmtId) program frame.Holds
      fun id _ ↦ ¬ frame.kept id :=
  ensures_modifyGet.mpr ⟨h.newStmt hchildren, h.not_kept_of_new program.not_has_nextStmt⟩

theorem LoopFrame.respects_newPlain (h : frame.Holds program) {span : Span} :
    Ensures (modifyGet fun program ↦ program.newStmt (.plain []) span : m StmtId) program
      frame.Holds fun id _ ↦ ¬ frame.kept id :=
  respects_newStmt h nofun

end

/-! ### Single updates -/

namespace LoopFrame.Holds

/-- A statement that is not kept may become any other statement with the same children. -/
theorem setOwnKind (h : frame.Holds program) (hid : ¬ frame.kept id) {kind : StmtKind}
    (hchildren : kind.children = (program.kind id).children) :
    frame.Holds (program.setKind id kind) :=
  h.setKind (frame.not_fixed hid) (fun hkept ↦ absurd hkept hid) (by rw [hchildren])

theorem mapSymbolsIn (h : frame.Holds program) {root : StmtId} (hroot : ¬ frame.kept root)
    (f : SymId → SymId) : frame.Holds (program.mapSymbolsIn root f) := by
  have hfold : ∀ (ids : List StmtId) (program : Program), (∀ id ∈ ids, ¬ frame.kept id) →
      frame.Holds program → frame.Holds (ids.foldl
        (fun program id ↦ program.setKind id ((program.kind id).mapSymbols f)) program) := by
    intro ids
    induction ids with
    | nil => exact fun _ _ h ↦ h
    | cons first rest ih =>
      intro program hids h
      refine ih _ (fun id hid ↦ hids id (List.mem_cons_of_mem _ hid)) ?_
      exact h.setOwnKind (hids first List.mem_cons_self) (StmtKind.children_mapSymbols ..)
  exact hfold _ program (fun id hid ↦ h.not_kept_of_mem_walk hroot hid) h

theorem substitute (h : frame.Holds program) {root : StmtId} (hroot : ¬ frame.kept root)
    (old new : SymId) : frame.Holds (program.substitute root old new) :=
  h.mapSymbolsIn hroot _

theorem setBlockInfo (h : frame.Holds program) (hid : ¬ frame.kept id) (info : Option BlockInfo) :
    frame.Holds (program.setBlockInfo id info) := by
  unfold Program.setBlockInfo
  split
  · rename_i hkind
    exact h.setOwnKind hid (hkind ▸ rfl)
  · exact h
  · exact h

theorem appendMember (h : frame.Holds program) (hblock : ¬ frame.fixed block)
    (hnew : ¬ frame.kept new) : frame.Holds (program.appendMember block new) := by
  unfold Program.appendMember
  split
  · rename_i info body hkind
    refine Holds.setParent (h.setKind hblock (fun _ ↦ hkind ▸ .block ..) ?_) hnew ?_
    · simp [hkind, StmtKind.children, List.filter_append, hnew]
    · exact fun parent hparent ↦ Option.some.inj hparent ▸ hblock
  · exact h
  · exact h

theorem addSymbol (h : frame.Holds program) (entry : Symbol) :
    frame.Holds (program.addSymbol entry).2 :=
  h.of_tables rfl rfl (.addSymbol program entry)

theorem setOwner (h : frame.Holds program) (symbol : SymId) (owner : FnId) :
    frame.Holds (program.setOwner symbol owner) :=
  h.of_tables rfl rfl (.setOwner program symbol owner)

theorem claimLocals (h : frame.Holds program) (owner : FnId) (root : StmtId) :
    frame.Holds (program.claimLocals owner root) := by
  unfold Program.claimLocals
  generalize program.walk root = ids
  induction ids generalizing program with
  | nil => exact h
  | cons first rest ih =>
    refine ih ?_
    dsimp only
    split
    · exact h.setOwner _ owner
    · exact h

theorem addType (h : frame.Holds program) (definition : TypeDef) :
    frame.Holds (program.addType definition).2 :=
  h.of_tables rfl rfl (.addType program definition)

theorem refOf (h : frame.Holds program) (type : TypeId) : frame.Holds (program.refOf type).2 := by
  refine h.of_tables ?_ ?_ (.refOf program type) <;> unfold Program.refOf <;> dsimp only <;>
    split <;> rfl

theorem register (h : frame.Holds program) (function : FnId) :
    frame.Holds { program with table := (program.table.register function).2 } :=
  h.of_tables rfl rfl (.register program function)

/-- A statement that is not kept may be exchanged for another one where it stands. -/
theorem exchange (h : frame.Holds program) (hold : ¬ frame.kept old) (hnew : ¬ frame.kept new)
    (hparent : program.parent old = some block) {kind : StmtKind}
    (hcontent : (program.kind block).Resembles kind)
    (hmembers : kind.children.filter frame.kept =
      (program.kind block).children.filter frame.kept) :
    frame.Holds
      (((program.setKind block kind).setParent new (some block)).setParent old none) := by
  have houter := h.not_fixed_of_parent (frame.not_fixed hold) hparent
  have hset := h.setKind houter (fun _ ↦ hcontent) hmembers
  have hadopted : frame.Holds ((program.setKind block kind).setParent new (some block)) :=
    hset.setParent hnew fun other hother ↦ Option.some.inj hother ▸ houter
  exact hadopted.setParent hold nofun

/-- A body that is not kept may be exchanged for another one. -/
theorem exchangeBody (h : frame.Holds program) (hold : ¬ frame.kept old)
    (hnew : ¬ frame.kept new) {function : FnId}
    (howner : (program.stmt old).bodyOf = some function) :
    frame.Holds (program.moveBody old new function) := by
  -- Only a function whose body is not kept has a statement for its body that is not kept.
  have hopen : frame.start.HasFunction function →
      ¬ frame.kept (frame.start.bodyOf function) := fun hhas hkept ↦
    hold (h.owner howner hhas hkept)
  have hreleased : frame.Holds (program.setBodyOf old none) :=
    h.setBodyOf (frame.not_fixed hold) nofun
  have howned : frame.Holds ((program.setBodyOf old none).setBodyOf new (some function)) :=
    hreleased.setBodyOf (frame.not_fixed hnew) fun other hother ↦
      Option.some.inj hother ▸ hopen
  exact howned.modifyFunction (fun hhas ↦ ⟨hopen hhas, fun _ ↦ rfl⟩) fun _ ↦ hnew

/-- A function that was made since the start may be given formals. -/
theorem addFormal (h : frame.Holds program) {function : FnId} (hmade : function ∈ frame.made)
    (name : String) (type : TypeId) : frame.Holds (program.addFormal function name type).2 :=
  Holds.modifyFunction (h.addSymbol { name, kind := .arg, type, owner := some function })
    (fun hold ↦ absurd hold (frame.made_new hmade)) fun _ ↦ h.not_kept_body hmade

end LoopFrame.Holds

/-! ### Edits -/

namespace Edit

theorem respects_remove (h : frame.Holds program) (hid : ¬ frame.kept id) :
    frame.Respects program (Edit.remove id) := by
  refine ensures_remove_of_listed h fun hkind hparent ↦ ?_
  refine ⟨LoopFrame.Holds.setParent (h.setKind ?_ (fun _ ↦ hkind ▸ .block ..) ?_) hid nofun,
    trivial⟩
  · exact h.not_fixed_of_parent (frame.not_fixed hid) hparent
  · simp [hkind, StmtKind.children, List.filter_append, hid]

theorem respects_detach (h : frame.Holds program) (hid : ¬ frame.kept id) :
    frame.Respects program (Edit.detach id) := by
  unfold Edit.detach
  refine ensures_get_bind.mpr ?_
  split
  · exact respects_remove h hid
  · exact .pure h trivial

theorem respects_insertAt (h : frame.Holds program) (hblock : ¬ frame.fixed block)
    (hnew : ¬ frame.kept new) : frame.Respects program (Edit.insertAt block position new) := by
  unfold Edit.insertAt
  refine (respects_detach h hnew).bind fun _ middle h _ ↦ ?_
  refine ensures_modifyBody_bind h fun info body hkind ↦ ?_
  refine LoopFrame.respects_modify (LoopFrame.Holds.setParent ?_ hnew ?_)
  · refine h.setKind hblock (fun _ ↦ hkind ▸ .block ..) ?_
    rw [hkind]
    exact filter_insertIdx hnew body position
  · exact fun parent hparent ↦ Option.some.inj hparent ▸ hblock

theorem respects_insertBefore (h : frame.Holds program) (hanchor : ¬ frame.fixed anchor)
    (hnew : ¬ frame.kept new) : frame.Respects program (Edit.insertBefore anchor new) := by
  unfold Edit.insertBefore
  refine (respects_detach h hnew).bind fun _ middle h _ ↦ ?_
  exact ensures_position_bind h fun block index info before after _ _ hparent ↦
    respects_insertAt h (h.not_fixed_of_parent hanchor hparent) hnew

theorem respects_insertAfter (h : frame.Holds program) (hanchor : ¬ frame.fixed anchor)
    (hnew : ¬ frame.kept new) : frame.Respects program (Edit.insertAfter anchor new) := by
  unfold Edit.insertAfter
  refine (respects_detach h hnew).bind fun _ middle h _ ↦ ?_
  exact ensures_position_bind h fun block index info before after _ _ hparent ↦
    respects_insertAt h (h.not_fixed_of_parent hanchor hparent) hnew

theorem respects_insertAtHead (h : frame.Holds program) (hblock : ¬ frame.fixed block)
    (hnew : ¬ frame.kept new) : frame.Respects program (Edit.insertAtHead block new) :=
  (respects_detach h hnew).bind fun _ _ h _ ↦ respects_insertAt h hblock hnew

theorem respects_insertAtTail (h : frame.Holds program) (hblock : ¬ frame.fixed block)
    (hnew : ¬ frame.kept new) : frame.Respects program (Edit.insertAtTail block new) :=
  (respects_detach h hnew).bind fun _ _ h _ ↦
    ensures_get_bind.mpr (respects_insertAt h hblock hnew)

theorem respects_push (h : frame.Holds program) (hblock : ¬ frame.fixed block) {kind : StmtKind}
    {span : Span} (hchildren : ∀ child ∈ kind.children, ¬ frame.kept child) :
    frame.Respects program (Edit.push block kind span) := by
  unfold Edit.push
  refine (LoopFrame.respects_newStmt h hchildren).bind fun id middle h hid ↦ ?_
  exact (respects_insertAtTail h hblock hid).bind fun _ _ h _ ↦ .pure h trivial

theorem respects_pushAction (h : frame.Holds program) (hblock : ¬ frame.fixed block)
    {action : Action} {span : Span} :
    frame.Respects program (Edit.push block (.action action) span) :=
  respects_push h hblock nofun

theorem filter_replaceBranch {keep : StmtId → Bool} (hold : ¬ keep old) (hnew : ¬ keep new)
    (condition : Operand) {thenBlock thenBlock' : StmtId} {elseBlock elseBlock' : Option StmtId}
    (h : replaceBranch thenBlock elseBlock old new = some (thenBlock', elseBlock')) :
    elseBlock'.isSome = elseBlock.isSome ∧
      (StmtKind.branch condition thenBlock' elseBlock').children.filter keep =
        (StmtKind.branch condition thenBlock elseBlock).children.filter keep := by
  unfold replaceBranch at h
  split at h
  · rename_i hthen
    cases h
    subst hthen
    exact ⟨rfl, by simp [StmtKind.children, hold, hnew]⟩
  · split at h
    · rename_i helse
      cases h
      subst helse
      exact ⟨rfl, by simp [StmtKind.children, List.filter_cons, hold, hnew]⟩
    · cases h

theorem respects_replace (h : frame.Holds program) (hold : ¬ frame.kept old)
    (hnew : ¬ frame.kept new) : frame.Respects program (Edit.replace old new) := by
  unfold Edit.replace
  refine (respects_detach h hnew).bind fun _ middle h _ ↦ ?_
  refine ensures_get_bind.mpr ?_
  cases hparent : middle.parent old with
  | none =>
    cases howner : (middle.stmt old).bodyOf with
    | none => simpa [howner] using h
    | some function =>
      exact ensures_set.mpr ⟨h.exchangeBody hold hnew howner, trivial⟩
  | some parent =>
    -- Both forms of compound statements are changed in the same way.
    have hexchange : ∀ kind : StmtKind, (middle.kind parent).Resembles kind →
        kind.children.filter frame.kept = (middle.kind parent).children.filter frame.kept →
        frame.Respects middle (set (middle.setKind parent kind) >>= fun _ ↦ modify fun program ↦
          (program.setParent new (some parent)).setParent old none : Edit PUnit) :=
      fun _ hcontent hmembers ↦ ensures_set_bind.mpr
        (LoopFrame.respects_modify (h.exchange hold hnew hparent hcontent hmembers))
    cases hkind : middle.kind parent with
    | action => simpa [hkind] using h
    | branch condition thenBlock elseBlock =>
      cases hbranch : replaceBranch thenBlock elseBlock old new with
      | none => simpa [hkind, hbranch] using h
      | some branches =>
        obtain ⟨hsome, hmembers⟩ := filter_replaceBranch hold hnew condition hbranch
        simp only [hkind, hbranch]
        exact hexchange _ (hkind ▸ .branch condition thenBlock _ hsome) (hkind ▸ hmembers)
    | block info body =>
      cases hposition : body.idxOf? old with
      | none => simpa [hkind, hposition] using h
      | some position =>
        obtain ⟨hlt, hget, -⟩ := List.findIdx?_eq_some_iff_getElem.mp hposition
        have hmember : body[position]? = some old := by
          rw [List.getElem?_eq_getElem hlt, beq_iff_eq.mp hget]
        simp only [hkind, hposition]
        exact hexchange _ (hkind ▸ .block ..) (hkind ▸ filter_set hnew hold hmember)

theorem respects_takeBody (h : frame.Holds program) (hblock : ¬ frame.kept block) :
    Ensures (Edit.takeBody block) program frame.Holds
      fun members _ ↦ ∀ member ∈ members, ¬ frame.kept member := by
  unfold Edit.takeBody
  rw [ensures_get_bind]
  cases hkind : program.kind block with
  | action | branch => simpa [hkind] using h
  | block info body =>
    have hmembers : ∀ member ∈ body, ¬ frame.kept member := fun member hmember ↦
      h.not_kept_of_child hblock (by rw [hkind]; exact hmember)
    rw [ensures_modify_bind, ensures_pure]
    refine ⟨LoopFrame.Holds.adopt (h.setKind (frame.not_fixed hblock) (fun _ ↦ hkind ▸ .block ..)
      ?_) hmembers nofun, hmembers⟩
    rw [hkind]
    exact (List.filter_eq_nil_iff.mpr hmembers).symm

theorem respects_insertChain (h : frame.Holds program) (hanchor : ¬ frame.fixed anchor)
    {members : List StmtId} (hmembers : ∀ member ∈ members, ¬ frame.kept member) :
    frame.Respects program (Edit.insertChain anchor members) := by
  induction members generalizing program anchor with
  | nil => exact .pure h trivial
  | cons new rest ih =>
    have hnew := hmembers new List.mem_cons_self
    exact (respects_insertAfter h hanchor hnew).bind fun _ _ h _ ↦
      ih h (frame.not_fixed hnew) fun member hmember ↦
        hmembers member (List.mem_cons_of_mem _ hmember)

theorem respects_insertFrom (h : frame.Holds program) (hblock : ¬ frame.fixed block)
    {members : List StmtId} (hmembers : ∀ member ∈ members, ¬ frame.kept member) :
    frame.Respects program (Edit.insertFrom block position members) := by
  induction members generalizing program position with
  | nil => exact .pure h trivial
  | cons new rest ih =>
    exact (respects_insertAt h hblock (hmembers new List.mem_cons_self)).bind fun _ _ h _ ↦
      ih h fun member hmember ↦ hmembers member (List.mem_cons_of_mem _ hmember)

/-
The members of a block that is not kept can be spliced anywhere but into fixed statements.
-/
section

variable (h : frame.Holds program) (hscratch : ¬ frame.kept scratch)

include h hscratch

theorem respects_spliceBefore (hanchor : ¬ frame.fixed anchor) :
    frame.Respects program (Edit.spliceBefore anchor scratch) :=
  (respects_takeBody h hscratch).bind fun _ _ h hmembers ↦ .forM_keeping h
    fun member hmember _ h ↦ respects_insertBefore h hanchor (hmembers member hmember)

theorem respects_spliceAfter (hanchor : ¬ frame.fixed anchor) :
    frame.Respects program (Edit.spliceAfter anchor scratch) :=
  (respects_takeBody h hscratch).bind fun _ _ h hmembers ↦ respects_insertChain h hanchor hmembers

theorem respects_spliceAtHead (hblock : ¬ frame.fixed block) :
    frame.Respects program (Edit.spliceAtHead block scratch) :=
  (respects_takeBody h hscratch).bind fun _ _ h hmembers ↦ respects_insertFrom h hblock hmembers

theorem respects_spliceAtTail (hblock : ¬ frame.fixed block) :
    frame.Respects program (Edit.spliceAtTail block scratch) :=
  (respects_takeBody h hscratch).bind fun _ _ h hmembers ↦ .forM_keeping h
    fun member hmember _ h ↦ respects_insertAtTail h hblock (hmembers member hmember)

end

end Edit

/-! ### Emitters -/

namespace Cursor

variable {cursor : Cursor}

theorem respects_emit (h : frame.Holds program) (hcursor : ¬ frame.fixed cursor.block)
    {kind : StmtKind} (hchildren : ∀ child ∈ kind.children, ¬ frame.kept child) :
    frame.Respects program (cursor.emit kind) := by
  unfold emit
  refine (LoopFrame.respects_newStmt h hchildren).bind fun id middle h hid ↦ ?_
  rw [ensures_modify_bind, ensures_pure]
  exact ⟨h.appendMember hcursor hid, trivial⟩

/-- Every action may be emitted: declarations, assignments, writes, calls and returns. -/
theorem respects_action (h : frame.Holds program) (hcursor : ¬ frame.fixed cursor.block)
    {action : Action} : frame.Respects program (cursor.emit (.action action)) :=
  respects_emit h hcursor nofun

theorem respects_fresh (h : frame.Holds program) (hcursor : ¬ frame.fixed cursor.block)
    {name : String} {type : TypeId} : frame.Respects program (cursor.fresh name type) := by
  unfold fresh
  refine Ensures.bind (LoopFrame.respects_modifyGet (h.addSymbol _)) fun symbol _ h _ ↦ ?_
  exact Ensures.bind (respects_action h hcursor) fun _ _ h _ ↦ .pure h trivial

theorem respects_openIf (h : frame.Holds program) (hcursor : ¬ frame.fixed cursor.block)
    {condition : Operand} :
    Ensures (cursor.openIf condition) program frame.Holds fun thenBlock _ ↦
      ¬ frame.kept thenBlock := by
  unfold openIf
  refine (LoopFrame.respects_newPlain h).bind fun thenBlock _ h hthen ↦ ?_
  refine (respects_emit h hcursor fun child hchild ↦ ?_).bind fun _ _ h _ ↦ .pure h hthen
  obtain rfl : child = thenBlock := by simpa [StmtKind.children] using hchild
  exact hthen

theorem respects_openIfElse (h : frame.Holds program) (hcursor : ¬ frame.fixed cursor.block)
    {condition : Operand} :
    Ensures (cursor.openIfElse condition) program frame.Holds fun branches _ ↦
      ¬ frame.kept branches.1 ∧ ¬ frame.kept branches.2 := by
  unfold openIfElse
  refine (LoopFrame.respects_newPlain h).bind fun thenBlock _ h hthen ↦ ?_
  refine (LoopFrame.respects_newPlain h).bind fun elseBlock _ h helse ↦ ?_
  refine (respects_emit h hcursor fun child hchild ↦ ?_).bind fun _ _ h _ ↦
    .pure h ⟨hthen, helse⟩
  rcases List.mem_cons.mp hchild with rfl | hchild
  · exact hthen
  · exact List.mem_singleton.mp hchild ▸ helse

end Cursor

/-! ### Copies -/

theorem SymbolMap.respects_cloneMissing (h : frame.Holds program) (map : SymbolMap)
    (symbols : List SymId) : frame.Respects program (map.cloneMissing symbols) := by
  induction symbols generalizing map program with
  | nil => exact .pure h trivial
  | cons symbol rest ih =>
    unfold cloneMissing
    split
    · exact ih h map
    · exact ensures_modifyGet_bind.mpr (ih (h.addSymbol _) _)

namespace Program

theorem respects_copyNode (h : frame.Holds program) {map : SymbolMap} {depth : Nat} (id : StmtId) :
    Ensures (copyNode map depth id) program frame.Holds fun copy _ ↦ ¬ frame.kept copy := by
  have hparent : ∀ {middle : Program} {kind : StmtKind} {span : Span}, frame.Holds middle →
      (∀ child ∈ kind.children, ¬ frame.kept child) →
      Ensures (modifyGet fun program ↦ program.newStmt (kind.mapSymbols map.resolve) span :
        Build StmtId) middle frame.Holds fun copy _ ↦ ¬ frame.kept copy :=
    fun h hchildren ↦ LoopFrame.respects_newStmt h fun child hchild ↦
      hchildren child (StmtKind.children_mapSymbols map.resolve _ ▸ hchild)
  induction depth generalizing program id with
  | zero => exact LoopFrame.respects_newStmt h nofun
  | succ depth ih =>
    unfold copyNode
    refine ensures_get_bind.mpr ?_
    dsimp only
    split
    · rw [pure_bind]
      exact hparent h nofun
    · rename_i condition thenBlock elseBlock _
      refine (ih h thenBlock).bind fun thenCopy _ h hthen ↦ ?_
      split
      · rename_i elseBlock _
        refine (ih h elseBlock).bind fun elseCopy _ h helse ↦ ?_
        rw [pure_bind]
        refine hparent h fun child hchild ↦ ?_
        rcases List.mem_cons.mp hchild with rfl | hchild
        · exact hthen
        · exact List.mem_singleton.mp hchild ▸ helse
      · rw [pure_bind]
        refine hparent h fun child hchild ↦ ?_
        obtain rfl : child = thenCopy := by simpa [StmtKind.children] using hchild
        exact hthen
    · rename_i info body _
      refine (Ensures.mapM_keeping h fun member _ _ h ↦ ih h member).bind
        fun members _ h hmembers ↦ ?_
      rw [pure_bind]
      exact hparent h hmembers

theorem respects_copyTree (h : frame.Holds program) {root : StmtId} {map : SymbolMap} :
    Ensures (copyTree root map) program frame.Holds fun copied _ ↦ ¬ frame.kept copied.1 := by
  unfold copyTree
  refine ensures_get_bind.mpr ?_
  refine (map.respects_cloneMissing h _).bind fun map _ h _ ↦ ?_
  exact (respects_copyNode h root).bind fun copy _ h hcopy ↦ .pure h hcopy

end Program

end IteratorLowering
