import IteratorLowering.Lowering.Zip
import IteratorLowering.Proofs.Passes.Inlining

/-!
# Zippered loops within a scope

Opening the header of a zippered loop puts new statements in front of the loop, and fusing the
loop puts copies into it. The loop keeps its place (`ensures_fuseLoop`).
-/

set_option autoImplicit false
set_option relaxedAutoImplicit false

namespace IteratorLowering

variable {scope : Scope} {program : Program} {block : StmtId} {owner : FnId}

/-! ### The setup -/

theorem stays_emitBefore {anchor : StmtId} {action : Action} {span : Span} :
    Stays scope program (emitBefore anchor action span) :=
  Ensures.seq (.build ensures_newAction) fun _ _ _ hid ↦ (Edit.ensures_insertBefore hid).stays.edit

theorem stays_readComponent {tuple : SymId} {position : Nat} {type : TypeId} :
    Stays scope program (readComponent block owner tuple position type) := by
  unfold readComponent
  refine ensures_get_bind.mpr ?_
  refine Ensures.seq (stays_modifyGet (.addSymbol _)) fun component _ _ _ ↦ ?_
  refine Ensures.seq stays_emitBefore fun _ _ _ _ ↦ ?_
  exact Ensures.seq stays_emitBefore fun _ _ _ _ ↦ .stay trivial

theorem stays_zipSetupTo {depth : Nat} {index iterator : SymId} :
    Stays scope program (zipSetupTo block owner depth index iterator) := by
  induction depth generalizing program index iterator with
  | zero => exact .stay trivial
  | succ depth ih =>
    unfold zipSetupTo
    refine ensures_get_bind.mpr ?_
    split
    · exact .stay trivial
    · dsimp only
      split
      · exact ensures_throw_bind.mpr (.refl scope program)
      · refine .foldlM fun item _ setup state _ ↦ ?_
        refine Ensures.seq stays_readComponent fun component _ _ _ ↦ ?_
        refine Ensures.seq (stays_modifyGet (.addSymbol _)) fun componentIndex _ _ _ ↦ ?_
        exact Ensures.seq ih fun _ _ _ _ ↦ .stay trivial

theorem stays_zipSetup {index iterator : SymId} :
    Stays scope program (zipSetup block index iterator owner) :=
  ensures_get_bind.mpr stays_zipSetupTo

/-! ### Fusing -/

/-- The moves and the members after the yield can be inserted later. -/
theorem ensures_placeMembers {loop : FusedLoop} {index : SymId} {afterYield : Bool}
    {members : List StmtId} (hcalm : ¬ scope.rooting)
    (hmembers : ∀ member ∈ members, program.Loose scope member) :
    Ensures (placeMembers loop index afterYield members) program (program.Reworks scope)
      fun parts final ↦ ∀ id ∈ parts.1 ++ parts.2, final.Loose scope id := by
  induction members generalizing program afterYield with
  | nil => exact .stay nofun
  | cons id rest ih =>
    have hrest : ∀ {middle : Program}, program.Reworks scope middle →
        ∀ member ∈ rest, middle.Loose scope member := fun h member hmember ↦
      h.loose hcalm (hmembers member (List.mem_cons_of_mem _ hmember))
    unfold placeMembers
    refine ensures_get_bind.mpr ?_
    split
    · refine Ensures.seq (.build ensures_newAction) fun move middle h hmove ↦ ?_
      refine (ih (hrest h)).seq fun parts final h' hparts ↦ .stay fun other hother ↦ ?_
      rcases List.mem_cons.mp hother with rfl | hother
      · exact h'.loose hcalm hmove
      · exact hparts other hother
    · exact ih (hrest (.refl scope program))
    · dsimp only
      split
      · refine (ih (hrest (.refl scope program))).seq fun parts final h hparts ↦
          .stay fun other hother ↦ ?_
        rcases List.mem_append.mp hother with hother | hother
        · exact hparts other (List.mem_append_left _ hother)
        · rcases List.mem_cons.mp hother with rfl | hother
          · exact h.loose hcalm (hmembers other List.mem_cons_self)
          · exact hparts other (List.mem_append_right _ hother)
      · refine Ensures.seq (Edit.ensures_insertBefore (hmembers id List.mem_cons_self)).edit
          fun _ middle h _ ↦ ih (hrest h)

theorem ensures_fuseComponent {loop : FusedLoop} {component : SymId × SymId}
    (hlooping : scope.looping) (hfit : scope.Fits program) :
    Ensures (fuseComponent loop component) program (program.Reworks scope)
      fun parts final ↦ ∀ id ∈ parts.1 ++ parts.2, final.Loose scope id := by
  unfold fuseComponent
  refine ensures_instanceIterator_bind (.refl scope program) fun iterator _ ↦ ?_
  refine ensures_get_bind.mpr ?_
  refine Ensures.seq (.build (Program.ensures_copyTree hlooping hfit))
    fun copied first h hcopied ↦ ?_
  have hcopy := hfit.new hcopied.new
  refine Ensures.seq (stays_rebindFormals (hfit.after h) (.inl hcopy)) fun _ second h' _ ↦ ?_
  have hfit' := (hfit.after h).after h'
  refine Ensures.seq (Edit.ensures_takeBody hfit'.wellLinked
    fun member ↦ hfit'.movable_member hcopy).edit fun members third h'' hmembers ↦ ?_
  exact ensures_placeMembers hfit.calm fun member hmember ↦ (hmembers.2.2 member hmember).1

/-- A loop that is fused keeps its place and is no longer a loop. -/
theorem ensures_fuseLoop {setup : ZipSetup} (hlooping : scope.looping) (hfit : scope.Fits program)
    (hmarked : scope.marked block) :
    Ensures (fuseLoop block setup owner) program (program.Reworks scope)
      fun _ final ↦ program.Has block → (final.kind block).isForLoop = false := by
  unfold fuseLoop
  refine ensures_get_bind.mpr ?_
  refine Ensures.seq (ensures_unmark rfl hmarked) fun _ first h hunmarked ↦ ?_
  have hfit' := hfit.after h
  refine Ensures.mono (?_ : Stays scope first _) (fun _ hfinal ↦ hfinal)
    fun _ _ hfinal _ hhas ↦ hfinal.isForLoop_eq_false (h.has hhas) hunmarked
  refine Ensures.seq (.build ensures_newAction) fun split second h hsplit ↦ ?_
  have hfit' := hfit'.after h
  refine Ensures.seq (Edit.ensures_insertAtHead hsplit).edit fun _ third hthird _ ↦ ?_
  have hfit' := hfit'.after hthird
  refine Ensures.seq (.mapM (fun component _ state hstate ↦
    ensures_fuseComponent hlooping (hfit'.after hstate))
      fun parts middle final hkeep hparts id hid ↦
      hkeep.loose hfit.calm (hparts id hid)) fun parts fourth hfourth hparts ↦ ?_
  have hpart : ∀ {middle : Program}, fourth.Reworks scope middle → ∀ {id},
      id ∈ parts.flatMap Prod.fst ++ parts.flatMap Prod.snd → middle.Loose scope id := by
    intro middle h id hid
    rcases List.mem_append.mp hid with hid | hid
    · obtain ⟨part, hpart, hid⟩ := List.mem_flatMap.mp hid
      exact h.loose hfit.calm (hparts part hpart id (List.mem_append_left _ hid))
    · obtain ⟨part, hpart, hid⟩ := List.mem_flatMap.mp hid
      exact h.loose hfit.calm (hparts part hpart id (List.mem_append_right _ hid))
  refine Ensures.seq (.mapM (fun store _ state _ ↦ .build ensures_newAction)
    fun id middle final hkeep hid ↦ hkeep.loose hfit.calm hid) fun stores fifth hfifth hstores ↦ ?_
  refine Ensures.seq (Edit.stays_insertChain hfit.calm fun id hid ↦ ?_).edit
    fun _ sixth hsixth _ ↦ ?_
  · rcases List.mem_append.mp hid with hid | hid
    · exact hpart hfifth (List.mem_append_left _ hid)
    · exact hstores id hid
  refine Ensures.seq (.forM fun id hid state hstate ↦ ?_) fun _ seventh hseventh _ ↦ ?_
  · exact (Edit.ensures_insertAtTail (hpart ((hfifth.trans hsixth).trans hstate)
      (List.mem_append_right _ hid))).stays.edit
  refine Ensures.seq (.forM fun index _ state _ ↦ ?_) fun _ eighth height _ ↦ ?_
  · exact Ensures.seq (.build ensures_newAction) fun _ _ _ hid ↦
      (Edit.ensures_insertAtHead hid).stays.edit
  have hend := hthird.trans (hfourth.trans (hfifth.trans (hsixth.trans (hseventh.trans height))))
  refine Ensures.seq (Edit.ensures_remove (hend.movable hsplit.has hsplit.movable)).edit
    fun _ _ _ _ ↦ ?_
  exact stays_modify (.claimLocals owner block)

end IteratorLowering
