import IteratorLowering.Lowering.LoopBody
import IteratorLowering.Proofs.Forest.Enclosing
import IteratorLowering.Proofs.Passes.Inlining

/-!
# Extracting loop bodies within a scope

The body of a loop becomes a function in two steps. First the loop loses its marker and moves into
the body of a new function as it is (`Program.Extracted`). Then the new function is closed over
the symbols it captures, which makes new statements and renames symbols, but moves nothing that
was there (`ensures_extractLoopBody`).

The second step is described twice. Seen from the start, it touches nothing outside the loop; seen
from its own start, it leaves the loop's body in the form it had.
-/

set_option autoImplicit false
set_option relaxedAutoImplicit false

namespace IteratorLowering

variable {scope : Scope} {program : Program}

/-! ### Closing a function over what it captures -/

theorem stays_bindCapture {load store : Cursor} {body : StmtId} {capture : Capture}
    (hfit : scope.Fits program) (hplain : program.IsPlain load.function)
    (hbody : scope.Renames body) :
    Stays scope program (bindCapture load store body capture) := by
  unfold bindCapture
  refine ensures_get_bind.mpr ?_
  dsimp only
  split
  · refine Ensures.seq (stays_modifyGet (.refOf _)) fun reference _ h _ ↦ ?_
    have hfit := hfit.after h
    refine hfit.seq (stays_modifyGet (.addFormal (h.grows.isPlain hplain) _ _))
      fun formal _ hfit ↦ ?_
    refine hfit.seq (stays_modifyGet (.addSymbol _)) fun copy _ hfit ↦ ?_
    refine hfit.seq (stays_modify (hfit.substitute hbody)) fun _ _ hfit ↦ ?_
    refine hfit.seq (Cursor.stays_define hfit) fun _ _ hfit ↦ ?_
    refine hfit.seq (Cursor.stays_assign hfit) fun _ _ hfit ↦ ?_
    exact (Cursor.stays_store hfit).ignore
  · refine hfit.seq (stays_modifyGet (.addFormal hplain _ _)) fun formal _ hfit ↦ ?_
    exact stays_modify (hfit.substitute hbody)

/-- Looking for what cannot be moved changes nothing. -/
theorem stays_freeCaptures {function : FnId} : Stays scope program (freeCaptures function) := by
  unfold freeCaptures
  refine ensures_get_bind.mpr ?_
  refine Ensures.seq (.forM fun id _ state _ ↦ ?_) fun _ _ _ _ ↦ .stay trivial
  split
  · exact ensures_fault.mpr (.refl scope state)
  · exact .stay trivial

theorem stays_closeBody {function : FnId} (hfit : scope.Fits program)
    (hplain : program.IsPlain function) (hbody : scope.Renames (program.bodyOf function)) :
    Stays scope program (closeBody function) := by
  unfold closeBody
  have hsofar := Program.Reworks.refl scope program
  refine hsofar.next stays_freeCaptures fun captures _ hsofar _ ↦ ?_
  refine ensures_get_bind.mpr ?_
  dsimp only
  rw [← hsofar.body hfit.calm hplain.has] at hbody
  refine hsofar.next (Program.ensures_newPlain (hfit.after hsofar) .none)
    fun entry _ hsofar hentry ↦ ?_
  refine hsofar.next (Program.ensures_newPlain (hfit.after hsofar) .none)
    fun exit _ hsofar hexit ↦ ?_
  refine hsofar.next (.forM fun capture _ middle hmiddle ↦ ?_) fun _ _ hsofar _ ↦ ?_
  · have hsofar := hsofar.trans hmiddle
    exact (stays_bindCapture (hfit.after hsofar) (hsofar.grows.isPlain hplain) hbody).build
  · refine hsofar.next (Edit.fits_spliceAtHead (hfit.after hsofar) hentry.1).edit
      fun _ _ hsofar _ ↦ ?_
    refine hsofar.next (Edit.fits_spliceAtTail (hfit.after hsofar) hexit.1).edit
      fun _ _ _ _ ↦ ?_
    exact .stay trivial

/-! ### The new function -/

/-- A function that was just made is no iterator and has a new body. -/
theorem ensures_newGenerated {name : String} {span : Span} :
    Ensures (newGenerated name span) program (program.Reworks scope) fun function final ↦
      ¬ program.HasFunction function ∧ final.IsPlain function ∧
        ¬ program.Has (final.bodyOf function) := by
  unfold newGenerated
  have hreworks : program.Reworks scope _ :=
    .newFlagged name .void span fun flags ↦ { flags with generated := true }
  refine ensures_modifyGet_bind.mpr (ensures_modify_bind.mpr (ensures_pure.mpr ⟨hreworks, ?_⟩))
  obtain ⟨hhas, hfunction⟩ := program.function_newFlagged name .void span
    fun flags ↦ { flags with generated := true }
  refine ⟨Nat.lt_irrefl _, ⟨hhas, congrArg FnDef.isIterator hfunction⟩, ?_⟩
  exact (congrArg (fun definition ↦ ¬ program.Has definition.body) hfunction).mpr
    program.not_has_nextStmt

namespace Scope

variable (program : Program) (block : StmtId)

/-- What lowering a loop touches whichever way it is lowered: new statements, and the header of
the loop. -/
def around : Scope :=
  ⟨fun id ↦ ¬ program.Has id, fun id ↦ ¬ program.Has id ∨ id = block, False, True⟩

/-- New statements may be moved, and all symbols may be replaced. -/
def relabeling : Scope := ⟨fun id ↦ ¬ program.Has id, fun _ ↦ True, False, True⟩

variable {program block}

theorem fits_around (h : program.WellLinked) : (around program block).Fits program :=
  .of_new h id (fun _ ↦ Iff.rfl) fun _ ↦ .inl

theorem fits_relabeling (h : program.WellLinked) : (relabeling program).Fits program :=
  .of_new h id (fun _ ↦ Iff.rfl) fun _ _ ↦ trivial

theorem Fits.around_adding_le (hfit : scope.Fits program) (hlooping : scope.looping)
    (hblock : scope.moved block) : ((around program block).adding block).Le scope where
  moved h := h.elim hfit.new fun heq ↦ heq ▸ hblock
  marked h := h.elim (fun hnew ↦ hfit.marked (hfit.new hnew)) fun heq ↦ heq ▸ hfit.marked hblock
  rooting := False.elim
  looping _ := hlooping

end Scope

namespace Program

/-- A program that was reached by moving a loop, without its marker, into the body of a new
function, and by making other new statements. -/
structure Extracted (program : Program) (block : StmtId) (program' : Program) : Prop where
  reworks : program.Reworks ((Scope.around program block).adding block) program'
  unmarked : (program'.kind block).isForLoop = false
  inside : ∃ function, ¬ program.HasFunction function ∧ program'.HasFunction function ∧
    program'.parent block = some (program'.bodyOf function)

/-- A program that was reached by moving a loop into a new function and by changes that move
nothing from then on. -/
def MovesOut (program : Program) (block : StmtId) (final : Program) : Prop :=
  ∃ middle, program.Extracted block middle ∧ middle.Reworks (Scope.relabeling middle).rooted final

end Program

variable {block : StmtId}

/-- What is done once the loop stands in the new function renames symbols and moves nothing. -/
theorem stays_finishExtraction {function : FnId} {body : StmtId} {span : Span}
    (hfit : scope.Fits program) (hplain : program.IsPlain function)
    (hbody : scope.Renames (program.bodyOf function)) :
    Stays scope program (do
      let captures ← closeBody function
      let _ ← Edit.push body (.action (.ret .void)) span
      modify fun program => program.claimLocals function body
      return (function, captures) : Pass (FnId × List Capture)) := by
  refine hfit.seq (stays_closeBody hfit hplain hbody) fun captures _ hfit ↦ ?_
  refine hfit.seq Edit.stays_pushAction.edit fun _ _ hfit ↦ ?_
  exact hfit.seq (stays_modify (.claimLocals function body)) fun _ _ _ ↦ .stay trivial

theorem ensures_extractLoopBody {caller : FnId} {index : SymId} (hlooping : scope.looping)
    (hfit : scope.Fits program) (hblock : scope.moved block) (hhas : program.Has block)
    (howner : (program.stmt block).bodyOf = none) :
    Ensures (extractLoopBody caller block index) program (program.Reworks scope)
      fun _ final ↦ program.MovesOut block final := by
  have hle := hfit.around_adding_le hlooping hblock
  unfold extractLoopBody
  refine ensures_get_bind.mpr ?_
  have hsofar := Program.Reworks.refl ((Scope.around program block).adding block) program
  refine hsofar.nextWithin hle (.build ensures_newGenerated) fun function first hfirst hmade ↦ ?_
  obtain ⟨hnew, hplain, hbody⟩ := hmade
  have hsofar := Program.Reworks.refl ((Scope.around program block).adding block) first
  refine hsofar.nextWithin hle (stays_modifyGet (.addFormal hplain _ _)) fun formal _ hsofar _ ↦ ?_
  refine ensures_get_bind.mpr ?_
  -- What is done after the declaration of the index was removed, or where there is none.
  have hrest : ∀ middle : Program,
      first.Reworks ((Scope.around program block).adding block) middle → Ensures (do
        let body := (← get).bodyOf function
        let _ ← Edit.push body (.action (.define index)) (program.span block)
        let _ ← Edit.push body (.action (.assign index (.use (.sym formal)))) (program.span block)
        modify fun program => program.setBlockInfo block none
        Edit.insertAtTail body block
        let captures ← closeBody function
        let _ ← Edit.push body (.action (.ret .void)) (program.span block)
        modify fun program => program.claimLocals function body
        return (function, captures) : Pass (FnId × List Capture)) middle (middle.Reworks scope)
      fun _ final ↦ program.MovesOut block final := by
    intro middle hsofar
    refine ensures_get_bind.mpr ?_
    rw [hsofar.body id hplain.has]
    refine hsofar.nextWithin hle Edit.stays_pushAction.edit fun _ _ hsofar _ ↦ ?_
    refine hsofar.nextWithin hle Edit.stays_pushAction.edit fun _ _ hsofar _ ↦ ?_
    refine hsofar.nextWithin hle (ensures_unmark rfl (.inr rfl))
      fun _ unmarked hsofar hunmarked ↦ ?_
    have hall := hfirst.trans hsofar
    have hloose : unmarked.Loose ((Scope.around program block).adding block) block :=
      ⟨hall.has hhas, hall.ownerless id hhas howner, .inl (.inr rfl)⟩
    refine hsofar.nextWithin hle (Edit.ensures_insertAtTail hloose).tagged.edit
      fun _ middle hsofar hmoved ↦ ?_
    have hreworks := hfirst.trans hsofar
    have hextracted : program.Extracted block middle := by
      refine ⟨hreworks, hmoved.1.isForLoop_eq_false (hall.has hhas) hunmarked, function, hnew,
        (hsofar.grows.isPlain hplain).has, ?_⟩
      rw [hmoved.2, hsofar.body id hplain.has]
    have hplain' := hsofar.grows.isPlain hplain
    have hfit' := hfit.after (hreworks.mono hle)
    have hrelabeling := Scope.fits_relabeling (hreworks.wellLinked hfit.wellLinked)
    have hbody' : scope.moved (middle.bodyOf function) := by
      rw [hsofar.body id hplain.has]
      exact hfit.new hbody
    refine ((stays_finishExtraction hfit' hplain' (.inl hbody')).and
      (stays_finishExtraction hrelabeling hplain' (.inr fun _ ↦ trivial))).mono
        (fun _ h ↦ h.1) fun _ final h _ ↦ ⟨middle, hextracted, h.2.mono (Scope.le_rooted _)⟩
  dsimp only
  split
  · rename_i declaration hfound
    refine hsofar.nextWithin hle (Edit.ensures_remove ?_).edit fun _ middle hsofar _ ↦
      hrest middle hsofar
    exact .inr (Program.isAction_of_findDefinition hfound)
  · exact hrest _ hsofar

end IteratorLowering
