import IteratorLowering.Proofs.Forest.Editing
import IteratorLowering.Simplify.Confined

/-!
# Where moved statements go

The edits stay within a scope, which says what they leave alone. Here is what they do: the members
of the blocks that are edited are given exactly. A statement that is moved leaves its place, and
the others keep their order. Emitting a fragment for a run takes the run out of its block and puts
in its declarations and the fragment (`ensures_emitFragment`).
-/

set_option autoImplicit false
set_option relaxedAutoImplicit false

namespace IteratorLowering

namespace Program

/-- Only the listed statements have changed, and others were made. -/
structure ChangesOnly (ids : List StmtId) (program now : Program) : Prop where
  tables : now = { program with statements := now.statements }
  linked : now.WellLinked
  has : ∀ {id}, program.Has id → now.Has id
  kind : ∀ {id}, program.Has id → id ∉ ids → now.kind id = program.kind id

namespace ChangesOnly

variable {ids ids' : List StmtId} {program now final : Program}

theorem refl (h : program.WellLinked) (ids : List StmtId) : program.ChangesOnly ids program :=
  ⟨rfl, h, id, fun _ _ ↦ rfl⟩

theorem mono (h : program.ChangesOnly ids now) (hids : ids ⊆ ids') :
    program.ChangesOnly ids' now :=
  ⟨h.tables, h.linked, h.has, fun hid hmem ↦ h.kind hid fun hmem' ↦ hmem (hids hmem')⟩

/-- What is made first may be changed later. -/
theorem trans (h : program.ChangesOnly ids now) (h' : now.ChangesOnly ids' final)
    (hids : ∀ id ∈ ids', program.Has id → id ∈ ids) : program.ChangesOnly ids final where
  tables := by rw [h'.tables, h.tables]
  linked := h'.linked
  has hid := h'.has (h.has hid)
  kind hid hmem := (h'.kind (h.has hid) fun hmem' ↦ hmem (hids _ hmem' hid)).trans (h.kind hid hmem)

end ChangesOnly

/-- A list without repeats loses a member that is left out, and nothing else. -/
theorem filter_ne_of_nodup {before after : List StmtId} {id : StmtId}
    (h : (before ++ id :: after).Nodup) :
    (before ++ id :: after).filter (· != id) = before ++ after := by
  obtain ⟨hnot, -⟩ := List.nodup_cons.mp (List.perm_middle.nodup_iff.mp h)
  rw [List.filter_append, List.filter_cons_of_neg (by simp), ← List.filter_append]
  refine List.filter_eq_self.mpr fun other hother ↦ bne_iff_ne.mpr ?_
  rintro rfl
  exact hnot hother

end Program

namespace Edit

variable {program : Program} {block anchor new : StmtId} {info : Option BlockInfo}
variable {body before after : List StmtId}

/-- A member that is taken out of its block leaves its place. -/
theorem ensures_detach_member (hlinked : program.WellLinked)
    (hkind : program.kind block = .block info body) (hnew : new ∈ body) :
    Ensures (Edit.detach new) program (fun _ ↦ True) fun _ now ↦
      program.ChangesOnly [block] now ∧ now.Detached new ∧
        now.kind block = .block info (body.filter (· != new)) := by
  have hchild : new ∈ (program.kind block).children := by rwa [hkind]
  have hparent := hlinked.parent_of_child hchild
  unfold Edit.detach
  rw [ensures_get_bind, hparent]
  refine ensures_remove_of_listed trivial fun {block' info' before after} hkind' hparent' ↦ ?_
  obtain rfl : block = block' := Option.some.inj (hparent.symm.trans hparent')
  obtain ⟨rfl, rfl⟩ : info = info' ∧ body = before ++ new :: after := by
    simpa using hkind.symm.trans hkind'
  have hnodup := hlinked.nodup_children block
  rw [hkind] at hnodup
  rw [Program.filter_ne_of_nodup hnodup]
  refine ⟨trivial, ⟨rfl, hlinked.detach hkind, ?_, ?_⟩, ⟨?_, ?_, ?_⟩, ?_⟩
  · simp
  · intro id _ hid
    rw [Program.kind_setParent, Program.kind_setKind, if_neg]
    exact fun h ↦ hid (List.mem_singleton.mpr h.1)
  · simpa using Program.has_of_parent hparent
  · simp [Program.parent_setParent, Program.has_of_parent hparent]
  · simpa using hlinked.ownerless_of_parent hparent
  · simp [Program.kind_setKind, Program.has_of_kind_block hkind]

/-- A detached statement that was put into a block is the only change of it. -/
theorem changesOnly_attach (hlinked : program.WellLinked)
    (hkind : program.kind block = .block info (before ++ after)) (hnew : program.Detached new) :
    let now :=
      (program.setKind block (.block info (before ++ new :: after))).setParent new (some block)
    program.ChangesOnly [block] now ∧ now.kind block = .block info (before ++ new :: after) := by
  refine ⟨⟨rfl, hlinked.attach hkind hnew, ?_, ?_⟩, ?_⟩
  · simp
  · intro id _ hid
    rw [Program.kind_setParent, Program.kind_setKind, if_neg]
    exact fun h ↦ hid (List.mem_singleton.mpr h.1)
  · simp [Program.kind_setKind, Program.has_of_kind_block hkind]

/-- What a program is after a detached statement was put at a position of a block. -/
theorem ensures_insertAt_eq (hkind : program.kind block = .block info (before ++ after))
    (hnew : program.Detached new) :
    Ensures (Edit.insertAt block before.length new) program (fun _ ↦ True) fun _ now ↦
      now = (program.setKind block (.block info (before ++ new :: after))).setParent new
        (some block) := by
  unfold Edit.insertAt Edit.detach
  rw [bind_assoc, ensures_get_bind, hnew.parent]
  refine ensures_modifyBody_bind trivial fun info' body hbody ↦ ?_
  obtain ⟨rfl, rfl⟩ : info = info' ∧ before ++ after = body := by
    simpa using hkind.symm.trans hbody
  rw [ensures_modify, Program.insertIdx_of_le new (by simp), List.take_left', List.drop_left']
  · exact ⟨trivial, rfl⟩
  all_goals rfl

/-- A detached statement is put between the members before a position and those after. -/
theorem ensures_insertAt_detached (hlinked : program.WellLinked)
    (hkind : program.kind block = .block info (before ++ after)) (hnew : program.Detached new) :
    Ensures (Edit.insertAt block before.length new) program (fun _ ↦ True) fun _ now ↦
      program.ChangesOnly [block] now ∧
        now.kind block = .block info (before ++ new :: after) := by
  refine (ensures_insertAt_eq hkind hnew).mono (fun _ h ↦ h) ?_
  rintro _ _ - rfl
  exact changesOnly_attach hlinked hkind hnew

/-- What is left of `insertBefore` once the statement is detached. -/
theorem ensures_place_eq (hlinked : program.WellLinked)
    (hkind : program.kind block = .block info (before ++ anchor :: after))
    (hnew : program.Detached new) :
    Ensures (Edit.position anchor >>= fun found ↦ Edit.insertAt found.1 found.2 new) program
      (fun _ ↦ True) fun _ now ↦
        now = (program.setKind block (.block info (before ++ new :: anchor :: after))).setParent new
          (some block) := by
  refine ensures_position_bind trivial
    fun block' index info' before' after' hkind' hlength hparent ↦ ?_
  have hchild : anchor ∈ (program.kind block).children := by
    rw [hkind]
    exact List.mem_append_right _ List.mem_cons_self
  obtain rfl : block = block' :=
    Option.some.inj ((hlinked.parent_of_child hchild).symm.trans hparent)
  obtain ⟨rfl, hbody⟩ : info = info' ∧ before ++ anchor :: after = before' ++ anchor :: after' := by
    simpa using hkind.symm.trans hkind'
  have hnodup := hlinked.nodup_children block
  rw [hkind, StmtKind.children] at hnodup
  obtain ⟨hnot, -⟩ := List.nodup_cons.mp (List.perm_middle.nodup_iff.mp hnodup)
  rw [List.mem_append, not_or] at hnot
  obtain ⟨rfl, -, rfl⟩ := (List.append_cons_inj_of_notMem hnot.1 hnot.2).mp hbody
  subst hlength
  exact ensures_insertAt_eq hkind hnew

theorem ensures_place (hlinked : program.WellLinked)
    (hkind : program.kind block = .block info (before ++ anchor :: after))
    (hnew : program.Detached new) :
    Ensures (Edit.position anchor >>= fun found ↦ Edit.insertAt found.1 found.2 new) program
      (fun _ ↦ True) fun _ now ↦ program.ChangesOnly [block] now ∧
        now.kind block = .block info (before ++ new :: anchor :: after) := by
  refine (ensures_place_eq hlinked hkind hnew).mono (fun _ h ↦ h) ?_
  rintro _ _ - rfl
  exact changesOnly_attach hlinked hkind hnew

/-- A detached statement is put right before a member. -/
theorem ensures_insertBefore_eq (hlinked : program.WellLinked)
    (hkind : program.kind block = .block info (before ++ anchor :: after))
    (hnew : program.Detached new) :
    Ensures (Edit.insertBefore anchor new) program (fun _ ↦ True) fun _ now ↦
      now = (program.setKind block (.block info (before ++ new :: anchor :: after))).setParent new
        (some block) := by
  unfold Edit.insertBefore Edit.detach
  rw [bind_assoc, ensures_get_bind, hnew.parent]
  exact ensures_place_eq hlinked hkind hnew

theorem ensures_insertBefore_detached (hlinked : program.WellLinked)
    (hkind : program.kind block = .block info (before ++ anchor :: after))
    (hnew : program.Detached new) :
    Ensures (Edit.insertBefore anchor new) program (fun _ ↦ True) fun _ now ↦
      program.ChangesOnly [block] now ∧
        now.kind block = .block info (before ++ new :: anchor :: after) := by
  refine (ensures_insertBefore_eq hlinked hkind hnew).mono (fun _ h ↦ h) ?_
  rintro _ _ - rfl
  exact changesOnly_attach hlinked hkind hnew

/-- A member is moved right before another member. -/
theorem ensures_insertBefore_member (hlinked : program.WellLinked)
    (hkind : program.kind block = .block info (before ++ anchor :: after))
    (hnew : new ∈ before ++ after) (hne : new ≠ anchor) :
    Ensures (Edit.insertBefore anchor new) program (fun _ ↦ True) fun _ now ↦
      program.ChangesOnly [block] now ∧ now.kind block =
        .block info (before.filter (· != new) ++ new :: anchor :: after.filter (· != new)) := by
  have hmem : new ∈ before ++ anchor :: after :=
    (List.sublist_cons_self anchor after).append_left before |>.subset hnew
  unfold Edit.insertBefore
  refine (ensures_detach_member hlinked hkind hmem).bind fun _ middle _ h ↦ ?_
  obtain ⟨hchanges, hdetached, hmiddle⟩ := h
  rw [List.filter_append, List.filter_cons_of_pos (by simpa using hne.symm)] at hmiddle
  refine (ensures_place hchanges.linked hmiddle hdetached).mono (fun _ h ↦ h) ?_
  exact fun _ now _ ⟨hnow, hkind'⟩ ↦ ⟨hchanges.trans hnow fun _ hid _ ↦ hid, hkind'⟩

/-- A member is moved to the tail of another block. -/
theorem ensures_insertAtTail_member {target : StmtId} {info' : Option BlockInfo}
    {members : List StmtId} (hlinked : program.WellLinked)
    (hkind : program.kind block = .block info body) (hnew : new ∈ body)
    (htarget : program.kind target = .block info' members) (hne : target ≠ block) :
    Ensures (Edit.insertAtTail target new) program (fun _ ↦ True) fun _ now ↦
      program.ChangesOnly [target, block] now ∧
        now.kind block = .block info (body.filter (· != new)) ∧
          now.kind target = .block info' (members ++ [new]) := by
  unfold Edit.insertAtTail
  refine (ensures_detach_member hlinked hkind hnew).bind fun _ middle _ h ↦ ?_
  obtain ⟨hchanges, hdetached, hmiddle⟩ := h
  have htarget' : middle.kind target = .block info' (members ++ []) := by
    rw [hchanges.kind (Program.has_of_kind_block htarget) (by simpa using hne), htarget,
      List.append_nil]
  rw [ensures_get_bind, Program.blockBody_of_kind htarget', List.append_nil]
  refine (ensures_insertAt_detached hchanges.linked htarget' hdetached).mono (fun _ h ↦ h) ?_
  rintro _ now - ⟨hnow, hkind'⟩
  refine ⟨(hchanges.mono (by simp)).trans hnow (by simp), ?_, hkind'⟩
  rw [hnow.kind (Program.has_of_kind_block hmiddle) (by simpa using hne.symm), hmiddle]

end Edit

/-! ### Runs that are taken out -/

variable {program : Program} {block fragment : StmtId} {info info' : Option BlockInfo}
variable {body before after moving : List StmtId}

theorem filter_ne_filter_not_mem (ids rest : List StmtId) (id : StmtId) :
    (ids.filter (· != id)).filter (· ∉ rest) = ids.filter (· ∉ id :: rest) := by
  rw [List.filter_filter]
  refine List.filter_congr fun other _ ↦ ?_
  by_cases hother : other = id <;> simp [hother]

/-- Members are moved before another member, one after the other. -/
theorem ensures_moveBefore (hlinked : program.WellLinked)
    (hkind : program.kind block = .block info (before ++ fragment :: after))
    (hmoving : moving ⊆ before ++ after) (hnodup : moving.Nodup) (hfragment : fragment ∉ moving) :
    Ensures (moving.forM fun id ↦ (liftM (Edit.insertBefore fragment id) : Pass Unit)) program
      (fun _ ↦ True) fun _ now ↦ program.ChangesOnly [block] now ∧ now.kind block =
        .block info (before.filter (· ∉ moving) ++ moving ++
          fragment :: after.filter (· ∉ moving)) := by
  induction moving generalizing program before after with
  | nil =>
    refine .pure trivial ⟨.refl hlinked _, ?_⟩
    simpa using hkind
  | cons id rest ih =>
    obtain ⟨hid, hrest⟩ := List.cons_subset.mp hmoving
    obtain ⟨hnot, hnodup⟩ := List.nodup_cons.mp hnodup
    obtain ⟨hne, hfragment⟩ := List.ne_and_not_mem_of_not_mem_cons hfragment
    have hfirst := Edit.ensures_insertBefore_member hlinked hkind hid hne.symm
    refine hfirst.edit.bind fun _ middle _ ⟨hchanges, hmiddle⟩ ↦ ?_
    rw [List.append_cons] at hmiddle
    have hmoving : rest ⊆ before.filter (· != id) ++ [id] ++ after.filter (· != id) :=
      fun other hother ↦ by
        have hne : other ≠ id := by
          rintro rfl
          exact hnot hother
        simpa [hne] using hrest hother
    refine (ih hchanges.linked hmiddle hmoving hnodup hfragment).mono (fun _ h ↦ h) ?_
    rintro _ now - ⟨hnow, hkind'⟩
    refine ⟨hchanges.trans hnow fun _ hid _ ↦ hid, ?_⟩
    rw [hkind', List.filter_append, filter_ne_filter_not_mem, filter_ne_filter_not_mem,
      List.filter_cons_of_pos (by simpa using hnot), List.filter_nil, List.append_assoc _ [id]]
    rfl

/-- Members are moved to the tail of another block, one after the other. -/
theorem ensures_moveToTail {members : List StmtId} (hlinked : program.WellLinked)
    (hkind : program.kind block = .block info body) (hmoving : moving ⊆ body)
    (hnodup : moving.Nodup) (hfragment : program.kind fragment = .block info' members)
    (hne : fragment ≠ block) :
    Ensures (moving.forM fun id ↦ (liftM (Edit.insertAtTail fragment id) : Pass Unit)) program
      (fun _ ↦ True) fun _ now ↦ program.ChangesOnly [fragment, block] now ∧
        now.kind block = .block info (body.filter (· ∉ moving)) ∧
          now.kind fragment = .block info' (members ++ moving) := by
  induction moving generalizing program body members with
  | nil =>
    refine .pure trivial ⟨.refl hlinked _, ?_, ?_⟩
    · simpa using hkind
    · simpa using hfragment
  | cons id rest ih =>
    obtain ⟨hid, hrest⟩ := List.cons_subset.mp hmoving
    obtain ⟨hnot, hnodup⟩ := List.nodup_cons.mp hnodup
    have hfirst := Edit.ensures_insertAtTail_member hlinked hkind hid hfragment hne
    refine hfirst.edit.bind fun _ middle _ ⟨hchanges, hmiddle, hfragment⟩ ↦ ?_
    have hmoving : rest ⊆ body.filter (· != id) := fun other hother ↦ by
      have hne : other ≠ id := by
        rintro rfl
        exact hnot hother
      simpa [hne] using hrest hother
    refine (ih hchanges.linked hmiddle hmoving hnodup hfragment).mono (fun _ h ↦ h) ?_
    rintro _ now - ⟨hnow, hkind', hfragment'⟩
    refine ⟨hchanges.trans hnow fun _ hid _ ↦ hid, ?_, ?_⟩
    · rw [hkind', filter_ne_filter_not_mem]
    · rw [hfragment', List.append_assoc]
      rfl

/-- A fragment is made empty and stands nowhere. -/
theorem newFragment_changesOnly (hlinked : program.WellLinked) (span : Span) :
    let made := (program.newStmt (.block (some .confined) []) span).2
    program.ChangesOnly [] made ∧ made.Detached program.nextStmt ∧
      made.kind program.nextStmt = .block (some .confined) [] := by
  refine ⟨⟨?_, hlinked.newStmt _ nofun .nil, fun hid ↦ (Program.has_newStmt ..).mpr (.inl hid), ?_⟩,
    Program.WellLinked.detached_newStmt program span nofun, ?_⟩
  · obtain ⟨statements, hstatements⟩ := program.newStmt_arenas (.block (some .confined) []) span
    rw [hstatements]
  · intro id hid _
    rw [Program.kind_newStmt, if_neg]
    rintro rfl
    exact program.not_has_nextStmt hid
  · rw [Program.kind_newStmt, if_pos rfl]

/-- What is in a run is one of its declarations or one of its other members. -/
theorem filter_not_mem_run (declares : StmtId → Bool) (ids run : List StmtId) :
    (ids.filter (· ∉ run.filter declares)).filter (· ∉ run.filter (!declares ·)) =
      ids.filter (· ∉ run) := by
  rw [List.filter_filter]
  refine List.filter_congr fun id _ ↦ ?_
  cases hdeclares : declares id <;> simp [List.mem_filter, hdeclares]

/-- A run of members is taken out of its block, and its declarations and a fragment with the others
are put before the anchor. -/
theorem ensures_emitFragment {anchor : StmtId} {run : List StmtId} (declares : StmtId → Bool)
    (hlinked : program.WellLinked)
    (hkind : program.kind block = .block info (before ++ anchor :: after))
    (hrun : run ⊆ before ++ anchor :: after) (hnodup : run.Nodup) :
    Ensures (emitFragment anchor (run.filter declares) (run.filter (!declares ·))) program
      (fun _ ↦ True) fun _ now ↦ program.ChangesOnly [block] now ∧ ∃ fragment,
        ¬ program.Has fragment ∧
          now.kind fragment = .block (some .confined) (run.filter (!declares ·)) ∧
            now.kind block = .block info (before.filter (· ∉ run) ++ run.filter declares ++
              fragment :: (anchor :: after).filter (· ∉ run)) := by
  have hblock := Program.has_of_kind_block hkind
  have hfresh : program.nextStmt ∉ run := fun hmem ↦ program.not_has_nextStmt
    (hlinked.has_of_child (by rw [hkind]; exact hrun hmem))
  have hne : program.nextStmt ≠ block := by
    rintro rfl
    exact program.not_has_nextStmt hblock
  have hsub (keep : StmtId → Bool) : run.filter keep ⊆ before ++ anchor :: after :=
    fun _ hid ↦ hrun (List.mem_of_mem_filter hid)
  have hfree (keep : StmtId → Bool) : program.nextStmt ∉ run.filter keep :=
    fun hid ↦ hfresh (List.mem_of_mem_filter hid)
  obtain ⟨hmade, hdetached, hfragment⟩ := newFragment_changesOnly hlinked (program.span anchor)
  unfold emitFragment
  rw [ensures_get_bind, ensures_modifyGet_bind, Program.newStmt_fst]
  have hput := Edit.ensures_insertBefore_detached hmade.linked
    ((hmade.kind hblock List.not_mem_nil).trans hkind) hdetached
  refine hput.edit.bind fun _ placed _ ⟨hplaced, hkind⟩ ↦ ?_
  have hdeclare := ensures_moveBefore hplaced.linked hkind (hsub declares) (hnodup.filter _)
    (hfree declares)
  refine hdeclare.bind fun _ declared _ ⟨hdeclared, hkind⟩ ↦ ?_
  have hfragment' : declared.kind program.nextStmt = .block (some .confined) [] := by
    rw [hdeclared.kind (hplaced.has hdetached.has) (by simpa using hne),
      hplaced.kind hdetached.has (by simpa using hne), hfragment]
  have hmembers : run.filter (!declares ·) ⊆
      before.filter (· ∉ run.filter declares) ++ run.filter declares ++
        program.nextStmt :: (anchor :: after).filter (· ∉ run.filter declares) := by
    intro id hid
    have hnot : id ∉ run.filter declares := fun hmem ↦ by
      simpa [(List.mem_filter.mp hmem).2] using (List.mem_filter.mp hid).2
    rcases List.mem_append.mp (hsub _ hid) with hmem | hmem
    · exact List.mem_append_left _
        (List.mem_append_left _ (List.mem_filter.mpr ⟨hmem, decide_eq_true hnot⟩))
    · exact List.mem_append_right _
        (List.mem_cons_of_mem _ (List.mem_filter.mpr ⟨hmem, decide_eq_true hnot⟩))
  refine (ensures_moveToTail hdeclared.linked hkind hmembers (hnodup.filter _) hfragment' hne).mono
    (fun _ h ↦ h) ?_
  rintro _ now - ⟨hnow, hkind, hfragment⟩
  have hkeep :
      (run.filter declares).filter (· ∉ run.filter (!declares ·)) = run.filter declares := by
    refine List.filter_eq_self.mpr fun id hid ↦ ?_
    simp [List.mem_filter, (List.mem_filter.mp hid).2]
  refine ⟨?_, program.nextStmt, program.not_has_nextStmt, hfragment, ?_⟩
  · have hbefore := (hmade.mono (List.nil_subset [block])).trans (hplaced.trans hdeclared (by simp))
      (by simp)
    refine hbefore.trans hnow fun id hid hhas ↦ ?_
    rcases List.mem_cons.mp hid with rfl | hid
    · exact absurd hhas program.not_has_nextStmt
    · exact hid
  · have hkept := decide_eq_true (hfree (!declares ·))
    rw [hkind, List.filter_append, List.filter_append, filter_not_mem_run, hkeep,
      List.filter_cons_of_pos (p := (· ∉ run.filter (!declares ·))) hkept, filter_not_mem_run]

end IteratorLowering
