import IteratorLowering.Proofs.Forest.Handles
import IteratorLowering.Proofs.Passes.Rounds

/-!
# Loops that are left

A loop is left to the state machines if it is over a recursive iterator and stands in one
(`Program.LeftOver`). Such loops are passed over while all others are lowered. A loop that is
lowered afterwards must not take one of them with it, by moving or copying what is nested in it.
The reason that it does not is the order: a loop comes before the loops that are nested in it, so
around a loop that is passed over, in a recursive iterator, there are only loops that were passed
over before. `LoweringState.Skipping` is what is kept while the loops of a round are lowered, and
`ensures_skipRemainingLoops` is what holds in the end: the loops that are left are those that
were passed over, and they were counted.
-/

set_option autoImplicit false
set_option relaxedAutoImplicit false

namespace IteratorLowering

namespace StmtKind

theorem forHeader?_eq_bind (kind : StmtKind) :
    kind.forHeader? = kind.loopHeader?.bind fun header ↦
      BlockInfo.forHeader? (.forLoop header) := by
  cases kind with
  | action | branch => rfl
  | block info body => rcases info with _ | ⟨_ | _ | _ | _ | _⟩ <;> rfl

theorem isForLoop_of_forHeader {kind : StmtKind} {header : SymId × SymId}
    (h : kind.forHeader? = some header) : kind.isForLoop = true := by
  rw [forHeader?_eq_bind] at h
  obtain ⟨operands, hoperands, _⟩ := Option.bind_eq_some_iff.mp h
  rw [← isSome_loopHeader?, hoperands]
  rfl

end StmtKind

namespace Program

variable {program program' : Program} {recursive : List FnId} {block id : StmtId} {function : FnId}

/-- Whether a loop is over a recursive iterator and stands in one. -/
structure LeftOver (program : Program) (recursive : List FnId) (id : StmtId) : Prop where
  inside : ∃ function ∈ recursive, program.StandsIn function id
  header : ∃ index source, (program.kind id).forHeader? = some (index, source) ∧
    ∃ iterator ∈ recursive, program.iteratorFnOf (program.symbolType source) = some iterator

namespace LeftOver

theorem isForLoop (h : program.LeftOver recursive id) : (program.kind id).isForLoop = true := by
  obtain ⟨_, _, hheader, _⟩ := h.header
  exact StmtKind.isForLoop_of_forHeader hheader

theorem compound (h : program.LeftOver recursive id) : (program.kind id).isAction = false :=
  StmtKind.isAction_eq_false_of_isForLoop h.isForLoop

theorem has (h : program.LeftOver recursive id) : program.Has id := by
  obtain ⟨_, _, hinside⟩ := h.inside
  exact hinside.has

/-- A loop is still left where it stands and has its header. -/
theorem after (h : program.LeftOver recursive id) (hgrows : program.Grows program')
    (hvoid : program.StartsWithVoid)
    (hheader : (program'.kind id).loopHeader? = (program.kind id).loopHeader?)
    (hinside : ∀ function ∈ recursive, program.StandsIn function id →
      program'.StandsIn function id) : program'.LeftOver recursive id := by
  obtain ⟨function, hfunction, hstands⟩ := h.inside
  obtain ⟨index, source, hsource, iterator, hiterator, hof⟩ := h.header
  refine ⟨⟨function, hfunction, hinside function hfunction hstands⟩, index, source, ?_, iterator,
    hiterator, hgrows.iteratorFnOf hvoid hof⟩
  rw [StmtKind.forHeader?_eq_bind, hheader, ← StmtKind.forHeader?_eq_bind, hsource]

end LeftOver

/-- A loop that is skipped stands in a recursive iterator and is over one. -/
theorem Expands.leftOver {context : LoweringContext} (h : program.Expands context block .skip)
    (hlinked : program.WellLinked) : program.LeftOver context.recursive block := by
  obtain ⟨index, source, iterator, owner, hheader, hiterator, howner, hskip⟩ := h
  split at hskip
  · cases hskip
  · rename_i hover
    split at hskip
    · rename_i hinside
      have hiterator' : iterator ∈ context.recursive := by
        simpa [LoweringContext.isRecursive] using hover
      have howner' : owner ∈ context.recursive := by
        simpa [LoweringContext.isRecursive] using hinside
      exact ⟨⟨owner, howner', hlinked.enclosingFunction?_eq_some.mp howner⟩, index, source, hheader,
        iterator, hiterator', hiterator⟩
    · cases hskip

/-! ### Where the other loops are -/

namespace Lowers

/-- What stands in a function that was there before is where it was. -/
theorem place_of_standsIn (h : program.Lowers block program') (hlinked : program.WellLinked)
    (hfunction : program.HasFunction function) (hid : program.Has id)
    (hcompound : (program.kind id).isAction = false) (hstands : program'.StandsIn function id) :
    program'.parent id = program.parent id ∧
      (program'.stmt id).bodyOf = (program.stmt id).bodyOf := by
  by_cases hne : id = block
  · subst hne
    rcases h.own with hsame | ⟨hparent, hbody⟩ | ⟨other, hnew, hother⟩
    · exact hsame
    · exact absurd hstands (not_standsIn hparent hbody)
    · have heq := (h.reworks.wellLinked hlinked).standsIn_unique hother hstands
      exact absurd (heq ▸ hfunction) hnew
  · exact h.place hid hcompound hne

/-- What is around a statement that stands in a function that was there before was around it. -/
theorem under_of_standsIn (h : program.Lowers block program') (hlinked : program.WellLinked)
    (hfunction : program.HasFunction function) (hid : program.Has id)
    (hcompound : (program.kind id).isAction = false) (hstands : program'.StandsIn function id)
    {outer : StmtId} (hunder : program'.Under id outer) : program.Under id outer :=
  hlinked.under_of_place (h.reworks.wellLinked hlinked) (h.place_of_standsIn hlinked hfunction) hid
    hcompound hstands hunder

/-- What stands in a function that was there before stood in it. -/
theorem standsIn_of_standsIn (h : program.Lowers block program') (hlinked : program.WellLinked)
    (hfunction : program.HasFunction function) (hid : program.Has id)
    (hcompound : (program.kind id).isAction = false) (hstands : program'.StandsIn function id) :
    program.StandsIn function id :=
  hlinked.standsIn_of_place (h.reworks.wellLinked hlinked)
    (h.place_of_standsIn hlinked hfunction) hid hcompound hstands

/-- What is nested in no loop that was lowered stands where it stood. -/
theorem standsIn_of_outside (h : program.Lowers block program') (hlinked : program.WellLinked)
    (hcompound : (program.kind id).isAction = false) (houtside : ¬ program.Under id block)
    (hstands : program.StandsIn function id) : program'.StandsIn function id :=
  hstands.of_place fun hunder ↦ h.place (hstands.under hunder hlinked).has
    (hlinked.compound_of_under hcompound hunder) fun heq ↦ houtside (heq ▸ hunder)

end Lowers

end Program

/-! ### While loops are lowered -/

variable {context : LoweringContext} {state final : LoweringState} {block : StmtId}
variable {skipped rest : List StmtId}

/-- What is kept while loops are lowered, given the loops that were passed over and those that are
still to come. -/
structure LoweringState.Skipping (context : LoweringContext) (skipped rest : List StmtId)
    (state : LoweringState) : Prop where
  config : state.context.config = context.config
  recursive : state.context.recursive = context.recursive
  linked : state.program.WellLinked
  void : state.program.StartsWithVoid
  known : ∀ {function}, function ∈ context.recursive → state.program.HasFunction function
  there : ∀ {id}, id ∈ rest → state.program.Has id ∧ (state.program.kind id).isAction = false
  leftOver : ∀ {id}, id ∈ skipped → state.program.LeftOver context.recursive id
  allowed : skipped ≠ [] → context.config.inlineIterators = true
  /-- Around a loop that was passed over there are no other loops. -/
  around : ∀ {id outer}, id ∈ skipped → state.program.Under id outer →
    (state.program.kind outer).isForLoop = true → outer ∈ skipped
  /-- Around a loop that is to come in a recursive iterator there are no loops but known ones. -/
  waiting : ∀ {id outer function}, id ∈ rest → function ∈ context.recursive →
    state.program.StandsIn function id → state.program.Under id outer →
    (state.program.kind outer).isForLoop = true → outer ∈ skipped ++ rest
  order : rest.Pairwise fun first second ↦ ∀ function ∈ context.recursive,
    state.program.StandsIn function first → ¬ state.program.Under first second
  nodup : (skipped ++ rest).Nodup
  left : state.context.summary.leftForStateMachine = skipped.length

namespace LoweringState.Skipping

/-- A loop that is no longer in a function is around nothing that is. -/
theorem pass (h : state.Skipping context skipped (block :: rest))
    (hpending : state.program.isPending block = false) : state.Skipping context skipped rest where
  config := h.config
  recursive := h.recursive
  linked := h.linked
  void := h.void
  known := h.known
  there hid := h.there (List.mem_cons_of_mem _ hid)
  leftOver := h.leftOver
  allowed := h.allowed
  around := h.around
  waiting {id outer function} hid hfunction hstands hunder hloop := by
    have hmem := h.waiting (List.mem_cons_of_mem _ hid) hfunction hstands hunder hloop
    have hne : outer ≠ block := by
      rintro rfl
      rw [h.linked.isPending_iff.mpr ⟨⟨function, hstands.under hunder h.linked⟩, hloop⟩] at hpending
      cases hpending
    simpa [hne] using hmem
  order := (List.pairwise_cons.mp h.order).2
  nodup := (List.nodup_cons.mp (List.nodup_middle.mp h.nodup)).2
  left := h.left

/-- A loop that is passed over in a recursive iterator has no other loops around it. -/
theorem skip (h : state.Skipping context skipped (block :: rest))
    (hfinal : state.Settles block .skip final) :
    final.Skipping context (block :: skipped) rest := by
  obtain ⟨hprogram, hallowed, hexpands⟩ := hfinal.skipped rfl
  have hleftOver := hexpands.leftOver h.linked
  rw [h.recursive] at hleftOver
  have hlast : (block :: skipped ++ rest).Nodup := List.nodup_middle.mp h.nodup
  have hleft : final.context.summary.leftForStateMachine = (block :: skipped).length := by
    rw [hfinal.left, h.left, if_pos rfl, List.length_cons]
  refine ⟨hfinal.config.trans h.config, hfinal.recursive.trans h.recursive, ?_, ?_, ?_, ?_, ?_,
    fun _ ↦ h.config ▸ hallowed, ?_, ?_, ?_, hlast, hleft⟩ <;> rw [hprogram]
  · exact h.linked
  · exact h.void
  · exact h.known
  · exact fun hid ↦ h.there (List.mem_cons_of_mem _ hid)
  · intro id hid
    rcases List.mem_cons.mp hid with rfl | hid
    · exact hleftOver
    · exact h.leftOver hid
  · intro id outer hid hunder hloop
    rcases List.mem_cons.mp hid with rfl | hid
    · obtain ⟨function, hfunction, hstands⟩ := hleftOver.inside
      have hmem := h.waiting List.mem_cons_self hfunction hstands hunder hloop
      rcases List.mem_append.mp hmem with hmem | hmem
      · exact List.mem_cons_of_mem _ hmem
      · rcases List.mem_cons.mp hmem with rfl | hmem
        · exact List.mem_cons_self
        · exact absurd hunder
            ((List.pairwise_cons.mp h.order).1 outer hmem function hfunction hstands)
    · exact List.mem_cons_of_mem _ (h.around hid hunder hloop)
  · intro id outer function hid hfunction hstands hunder hloop
    have hmem := h.waiting (List.mem_cons_of_mem _ hid) hfunction hstands hunder hloop
    exact List.perm_middle.mem_iff.mp hmem
  · exact (List.pairwise_cons.mp h.order).2

/-- A loop that is lowered has none of those inside that were passed over. -/
theorem lower {strategy : Strategy} (h : state.Skipping context skipped (block :: rest))
    (hpending : state.program.isPending block = true) (hstrategy : strategy ≠ .skip)
    (hfinal : state.Settles block strategy final) :
    final.Skipping context skipped rest := by
  have hlowers := hfinal.lowered hstrategy
  have hreworks := hlowers.reworks
  have hnot : block ∉ skipped ++ rest := (List.nodup_cons.mp (List.nodup_middle.mp h.nodup)).1
  have hunmarked : ∀ {outer}, (final.program.kind outer).isForLoop = true → outer ≠ block := by
    rintro outer hloop rfl
    rw [hlowers.unmarked] at hloop
    cases hloop
  have hthere : ∀ {id}, id ∈ rest → state.program.Has id ∧
      (state.program.kind id).isAction = false := fun hid ↦ h.there (List.mem_cons_of_mem _ hid)
  -- What is around a statement in a recursive iterator was there and was around it before.
  have hback : ∀ {id outer function}, function ∈ context.recursive → state.program.Has id →
      (state.program.kind id).isAction = false → final.program.StandsIn function id →
      final.program.Under id outer → state.program.StandsIn function id ∧
        state.program.Under id outer := fun hfunction hhas hcompound hstands hunder ↦
    ⟨hlowers.standsIn_of_standsIn h.linked (h.known hfunction) hhas hcompound hstands,
      hlowers.under_of_standsIn h.linked (h.known hfunction) hhas hcompound hstands hunder⟩
  have hloopBack : ∀ {id outer}, state.program.Has id → state.program.Under id outer →
      (final.program.kind outer).isForLoop = true →
      (state.program.kind outer).isForLoop = true := by
    intro id outer hhas hunder hloop
    rcases hunder.cases_tail with rfl | ⟨child, _, hparent⟩
    · exact hreworks.isForLoop hhas hloop
    · exact hreworks.isForLoop (Program.has_of_mem_children (h.linked.child_of_parent hparent))
        hloop
  have houtside : ∀ {id}, id ∈ skipped → ¬ state.program.Under id block := by
    intro id hid hunder
    exact hnot (List.mem_append_left _ (h.around hid hunder (h.linked.isPending_iff.mp hpending).2))
  have hleftOver : ∀ {id}, id ∈ skipped → final.program.LeftOver context.recursive id := by
    intro id hid
    have hold := h.leftOver hid
    refine hold.after hreworks.grows h.void (hlowers.header hold.has (houtside hid)) ?_
    exact fun function _ hstands ↦
      hlowers.standsIn_of_outside h.linked hold.compound (houtside hid) hstands
  refine ⟨hfinal.config.trans h.config, hfinal.recursive.trans h.recursive,
    hreworks.wellLinked h.linked, hreworks.grows.startsWithVoid h.void,
    fun hfunction ↦ (hreworks.grows.function (h.known hfunction)).1, fun hid ↦ ?_, hleftOver,
    h.allowed, fun {id outer} hid hunder hloop ↦ ?_,
    fun {id outer function} hid hfunction hstands hunder hloop ↦ ?_, ?_,
    (List.nodup_cons.mp (List.nodup_middle.mp h.nodup)).2, ?_⟩
  · exact ⟨hreworks.has (hthere hid).1, (hreworks.isAction (hthere hid).1).trans (hthere hid).2⟩
  · obtain ⟨function, hfunction, hstands⟩ := (hleftOver hid).inside
    have hold := h.leftOver hid
    have hunder' := (hback hfunction hold.has hold.compound hstands hunder).2
    exact h.around hid hunder' (hloopBack hold.has hunder' hloop)
  · obtain ⟨hstands', hunder'⟩ := hback hfunction (hthere hid).1 (hthere hid).2 hstands hunder
    have hmem := h.waiting (List.mem_cons_of_mem _ hid) hfunction hstands' hunder'
      (hloopBack (hthere hid).1 hunder' hloop)
    simpa [hunmarked hloop] using hmem
  · refine (List.pairwise_cons.mp h.order).2.imp_of_mem
      fun {first second} hfirst _ horder function hfunction hstands hunder ↦ ?_
    obtain ⟨hstands', hunder'⟩ := hback hfunction (hthere hfirst).1 (hthere hfirst).2 hstands hunder
    exact horder function hfunction hstands' hunder'
  · rw [hfinal.left, h.left, if_neg hstrategy, Nat.add_zero]

/-- Around a loop that is gathered there are only loops that are gathered too, and none of them
comes after it. -/
theorem gather (h : state.Skipping context skipped []) :
    state.Skipping context skipped
      (state.program.forLoops.filter fun block ↦ !skipped.contains block) where
  config := h.config
  recursive := h.recursive
  linked := h.linked
  void := h.void
  known := h.known
  there hid := by
    obtain ⟨⟨function, hstands⟩, hloop⟩ := h.linked.mem_forLoops_iff.mp (List.mem_filter.mp hid).1
    exact ⟨hstands.has, StmtKind.isAction_eq_false_of_isForLoop hloop⟩
  leftOver := h.leftOver
  allowed := h.allowed
  around := h.around
  waiting {id outer function} hid _ hstands hunder hloop := by
    have houter := h.linked.mem_forLoops_iff.mpr
      ⟨⟨function, hstands.under hunder h.linked⟩, hloop⟩
    by_cases hskipped : outer ∈ skipped
    · exact List.mem_append_left _ hskipped
    · exact List.mem_append_right _ (List.mem_filter.mpr ⟨houter, by simpa using hskipped⟩)
  order := (h.linked.pairwise_forLoops.filter _).imp fun hunder _ _ _ ↦ hunder
  nodup := by
    refine List.nodup_append.mpr ⟨h.nodup.sublist (List.sublist_append_left ..),
      h.linked.nodup_forLoops.filter _, ?_⟩
    rintro id hid other hother rfl
    simpa [hid] using (List.mem_filter.mp hother).2
  left := h.left

end LoweringState.Skipping

/-- Lowering leaves the loops that were passed over, and counts them. -/
theorem ensures_skipRemainingLoops (h : state.Skipping context [] []) :
    Ensures lowerRemainingLoops state (fun _ ↦ True) fun _ final ↦
      ∃ skipped, final.Skipping context skipped [] ∧ final.program.forLoops ⊆ skipped := by
  refine ensures_get_bind.mpr (ensures_lowerRounds (fun _ ↦ trivial) (fun h ↦ h.gather)
    (fun h ↦ ensures_lowerGathered (fun _ ↦ trivial) (fun h ↦ h.pass) ?_ h) h)
  intro block rest skipped state h hpending
  refine (ensures_lowerLoop h.linked).mono (fun _ _ ↦ trivial) fun strategy final _ hfinal ↦ ?_
  split
  · rename_i hskip
    exact h.skip (hskip ▸ hfinal)
  · rename_i hstrategy
    exact h.lower hpending hstrategy hfinal

end IteratorLowering
