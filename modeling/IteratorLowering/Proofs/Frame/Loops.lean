import IteratorLowering.Proofs.Frame.Callback
import IteratorLowering.Proofs.Frame.Protocol
import IteratorLowering.Proofs.Passes.Operations

/-!
# Lowering a loop touches only the function around it

Copies of iterators, loop bodies that become functions and moved declarations cross the borders of
functions, and still a loop can be lowered without looking at other functions: whatever is done with
it, and whether or not it fails half-way, every function but the one around the loop has the same
definition and the same statements afterwards (`Program.WellLinked.touchesOnly_run`). This includes
the iterators that the loop runs over. In the function around the loop, the *bystanders* are left,
which are the statements that neither belong to the loop nor declare its index
(`Program.bystanders`): they stay in their places and in order. Slots of the function table keep
their functions, and of the types that are there, nothing changes but that one may have got a
reference type.

The frame of a loop fixes the statements of other functions and keeps the bystanders
(`LoopFrame.around`). What is left to show is that the order in which functions list their
statements only depends on what the frame keeps (`LoopFrame.Holds.filter_preorder`).
-/

set_option autoImplicit false
set_option relaxedAutoImplicit false

namespace IteratorLowering

namespace Program

/-- Whether a statement declares the index of a loop. -/
def declaresIndex (program : Program) (loop id : StmtId) : Bool :=
  (program.kind id).defined?.any fun symbol ↦
    (program.kind loop).forHeader?.any fun header ↦ header.1 == symbol

/-- The statements of a function that are neither a loop, nor inside it, nor declarations of its
index. -/
def bystanders (program : Program) (home : FnId) (loop : StmtId) : List StmtId :=
  (program.functionStmts home).filter fun id ↦
    !(program.walk loop).contains id && !program.declaresIndex loop id

/-- The statements of all functions but one. -/
def elsewhere (program : Program) (home : FnId) : List StmtId :=
  (program.functionIds.filter (· ≠ home)).flatMap program.functionStmts

/-- What lowering a loop of a function leaves alone in a program. -/
structure TouchesOnly (program : Program) (home : FnId) (loop : StmtId) (final : Program) :
    Prop where
  function : ∀ {function}, program.HasFunction function → function ≠ home →
    final.HasFunction function ∧ final.function function = program.function function ∧
      final.functionStmts function = program.functionStmts function ∧
      ∀ id ∈ program.functionStmts function, final.stmt id = program.stmt id
  definition : final.HasFunction home ∧
    final.function home = { program.function home with body := final.bodyOf home }
  order : (final.functionStmts home).filter (· ∈ program.bystanders home loop) =
    program.bystanders home loop
  place : ∀ id ∈ program.bystanders home loop, final.parent id = program.parent id ∧
    (program.kind id).Resembles (final.kind id)
  enlarges : program.Enlarges final

variable {program : Program} {home : FnId} {loop id child : StmtId}

theorem declaresIndex_of_mem (hchild : child ∈ (program.kind id).children) :
    program.declaresIndex loop id = false := by
  cases hkind : program.kind id with
  | action => simp [hkind, StmtKind.children] at hchild
  | branch | block => simp [declaresIndex, hkind, StmtKind.defined?]

namespace WellLinked

theorem mem_elsewhere_iff (h : program.WellLinked) :
    id ∈ program.elsewhere home ↔ ∃ function, function ≠ home ∧ program.StandsIn function id := by
  constructor
  · intro hid
    obtain ⟨function, hfunction, hid⟩ := List.mem_flatMap.mp hid
    obtain ⟨hhas, hne⟩ := List.mem_filter.mp hfunction
    exact ⟨function, of_decide_eq_true hne,
      (h.mem_functionStmts_iff (mem_functionIds.mp hhas)).mp hid⟩
  · rintro ⟨function, hne, hid⟩
    have hhas := h.hasFunction_of_standsIn hid
    exact List.mem_flatMap.mpr ⟨function, List.mem_filter.mpr
      ⟨mem_functionIds.mpr hhas, decide_eq_true hne⟩, (h.mem_functionStmts_iff hhas).mpr hid⟩

/-- What contains a statement of another function, or stands inside one, is a statement of that
function. -/
theorem mem_elsewhere_child_iff (h : program.WellLinked)
    (hchild : child ∈ (program.kind id).children) :
    child ∈ program.elsewhere home ↔ id ∈ program.elsewhere home := by
  have hunder : program.Under child id := .single (h.parent_of_child hchild)
  rw [h.mem_elsewhere_iff, h.mem_elsewhere_iff]
  constructor
  · exact fun ⟨function, hne, hstands⟩ ↦ ⟨function, hne, hstands.under hunder h⟩
  · exact fun ⟨function, hne, hstands⟩ ↦ ⟨function, hne, hstands.inside hunder⟩

theorem not_mem_elsewhere (h : program.WellLinked) (hid : program.StandsIn home id) :
    id ∉ program.elsewhere home := by
  intro hmem
  obtain ⟨function, hne, hstands⟩ := h.mem_elsewhere_iff.mp hmem
  exact hne (h.standsIn_unique hstands hid)

theorem mem_bystanders_iff (h : program.WellLinked) (hloop : program.StandsIn home loop) :
    id ∈ program.bystanders home loop ↔ program.StandsIn home id ∧ ¬ program.Under id loop ∧
      program.declaresIndex loop id = false := by
  rw [bystanders, List.mem_filter, h.mem_functionStmts_iff (h.hasFunction_of_standsIn hloop),
    Bool.and_eq_true, Bool.not_eq_true', Bool.not_eq_true', List.contains_eq_mem,
    decide_eq_false_iff_not, h.mem_walk_iff hloop]

/-- What contains a bystander is a bystander. -/
theorem mem_bystanders_of_child (h : program.WellLinked) (hloop : program.StandsIn home loop)
    (hchild : child ∈ (program.kind id).children) (hmem : child ∈ program.bystanders home loop) :
    id ∈ program.bystanders home loop := by
  have hparent := h.parent_of_child hchild
  obtain ⟨hstands, hout, -⟩ := (h.mem_bystanders_iff hloop).mp hmem
  exact (h.mem_bystanders_iff hloop).mpr ⟨hstands.under (.single hparent) h,
    fun hunder ↦ hout (hunder.head hparent), declaresIndex_of_mem hchild⟩

end WellLinked

end Program

namespace LoopFrame

/-- The frame of a loop: the statements of other functions are fixed, and the bystanders are
kept. -/
def around {program : Program} (hlinked : program.WellLinked) {home : FnId} {loop : StmtId}
    (hloop : program.StandsIn home loop) : LoopFrame where
  start := program
  linked := hlinked
  home := home
  kept id := decide (id ∈ program.bystanders home loop ∨ id ∈ program.elsewhere home)
  fixed id := id ∈ program.elsewhere home
  made := []
  has hid := by
    rcases of_decide_eq_true hid with hid | hid
    · exact ((hlinked.mem_bystanders_iff hloop).mp hid).1.has
    · obtain ⟨_, _, hid⟩ := hlinked.mem_elsewhere_iff.mp hid
      exact hid.has
  kept_of_fixed hid := decide_eq_true (.inr hid)
  kept_above hchild hkept := decide_eq_true ((of_decide_eq_true hkept).imp
    (hlinked.mem_bystanders_of_child hloop hchild) (hlinked.mem_elsewhere_child_iff hchild).mp)
  fixed_above hchild := (hlinked.mem_elsewhere_child_iff hchild).mp
  fixed_below hchild := (hlinked.mem_elsewhere_child_iff hchild).mpr
  home_body := hlinked.not_mem_elsewhere
    (hlinked.standsIn_body (hlinked.hasFunction_of_standsIn hloop))
  made_new := nofun

section

variable {program final : Program} {home : FnId} {loop id : StmtId}
variable {hlinked : program.WellLinked} {hloop : program.StandsIn home loop}

theorem not_kept_around_loop : ¬ (around hlinked hloop).kept loop := by
  intro hkept
  rcases of_decide_eq_true hkept with hmem | hmem
  · exact ((hlinked.mem_bystanders_iff hloop).mp hmem).2.1 .refl
  · exact hlinked.not_mem_elsewhere hloop hmem

theorem frees_around {index source : SymId}
    (hheader : (program.kind loop).forHeader? = some (index, source)) :
    (around hlinked hloop).Frees index := by
  intro id hkept hfixed hdefined
  have hmem := (of_decide_eq_true hkept).resolve_right hfixed
  have hnot := ((hlinked.mem_bystanders_iff hloop).mp hmem).2.2
  have hdefined : (program.kind id).defined? = some index := hdefined
  simp [Program.declaresIndex, hdefined, hheader] at hnot

theorem surrounds_around : (around hlinked hloop).Surrounds program loop where
  loop := not_kept_around_loop
  home := hlinked.hasFunction_of_standsIn hloop
  owner howner := hlinked.standsIn_unique (hlinked.enclosingFunction?_eq_some.mp howner) hloop
  index := frees_around

end

namespace Holds

variable {frame : LoopFrame} {program : Program} {id : StmtId}

/-- What is kept in a preorder is put together from what is kept of the children. -/
theorem filter_preorder_succ (h : frame.Holds program) (depth : Nat) (id : StmtId) :
    (program.preorder (depth + 1) id).filter frame.kept =
      if frame.kept id then id :: ((program.kind id).children.filter frame.kept).flatMap
        fun child ↦ (program.preorder depth child).filter frame.kept
      else [] := by
  have hempty : ∀ {depth id}, ¬ frame.kept id →
      (program.preorder depth id).filter frame.kept = [] := fun hid ↦
    List.filter_eq_nil_iff.mpr fun other hother ↦ h.not_kept_of_mem_preorder hid hother
  split
  · rename_i hkept
    rw [Program.preorder, List.filter_cons_of_pos hkept, List.filter_flatMap]
    congr 1
    induction (program.kind id).children with
    | nil => rfl
    | cons child rest ih =>
      rw [List.flatMap_cons, ih]
      by_cases hchild : frame.kept child
      · rw [List.filter_cons_of_pos hchild, List.flatMap_cons]
      · rw [List.filter_cons_of_neg hchild, hempty hchild, List.nil_append]
  · rename_i hkept
    exact hempty hkept

/-- Walking down from a statement meets the kept statements in the same order as at the start. -/
theorem filter_preorder (h : frame.Holds program) (hmade : frame.made = []) (depth : Nat)
    (id : StmtId) : (program.preorder depth id).filter frame.kept =
      (frame.start.preorder depth id).filter frame.kept := by
  induction depth generalizing id with
  | zero => rfl
  | succ depth ih =>
    rw [h.filter_preorder_succ, (refl frame hmade).filter_preorder_succ]
    split
    · rename_i hkept
      rw [h.members hkept]
      simp only [ih]
    · rfl

/-- A function with a fixed body has the same definition and the same statements. -/
theorem function_of_fixed (h : frame.Holds program) {function : FnId}
    (hfunction : frame.start.HasFunction function)
    (hfixed : ∀ id ∈ frame.start.functionStmts function, frame.fixed id) :
    program.function function = frame.start.function function ∧
      program.functionStmts function = frame.start.functionStmts function := by
  obtain ⟨-, hsame, hbody⟩ := h.function hfunction
  have hbody := hbody (frame.kept_of_fixed (hfixed _ (frame.start.self_mem_walk _)))
  obtain ⟨hunfolds, hnodup⟩ := frame.linked.unfolds_functionStmts hfunction
  refine ⟨by rw [hsame, hbody]; rfl, ?_⟩
  have hunfolds' : program.Unfolds [frame.start.bodyOf function]
      (frame.start.functionStmts function) := hunfolds.congr fun id hid ↦ by
    rw [Program.kind, h.stmt (hfixed id hid), Program.kind]
  rw [Program.functionStmts, hbody]
  refine hunfolds'.walk_eq hnodup fun id hid ↦ h.has ?_
  exact ((frame.linked.mem_functionStmts_iff hfunction).mp hid).has

/-- The function that the frame leaves open lists the kept statements in the same order. -/
theorem filter_functionStmts (h : frame.Holds program) (hmade : frame.made = [])
    (hlinked : program.WellLinked) (hhome : frame.start.HasFunction frame.home) :
    (program.functionStmts frame.home).filter frame.kept =
      (frame.start.functionStmts frame.home).filter frame.kept := by
  obtain ⟨hfunction, -, hbody⟩ := h.function hhome
  by_cases hkept : frame.kept (frame.start.bodyOf frame.home)
  · -- Both walks reach the bottom within as many levels as both lists have members.
    obtain ⟨hunfolds, -⟩ := hlinked.unfolds_functionStmts hfunction
    obtain ⟨hunfolds', -⟩ := frame.linked.unfolds_functionStmts hhome
    obtain ⟨depth, hdeep, hdeep'⟩ : ∃ depth,
        program.preorder depth (program.bodyOf frame.home) = program.functionStmts frame.home ∧
          frame.start.preorder depth (frame.start.bodyOf frame.home) =
            frame.start.functionStmts frame.home := by
      refine ⟨(program.functionStmts frame.home).length +
        (frame.start.functionStmts frame.home).length, ?_, ?_⟩
      · simpa using hunfolds.flatMap_preorder (by omega)
      · simpa using hunfolds'.flatMap_preorder (by omega)
    rw [← hdeep, ← hdeep', h.filter_preorder hmade, hbody hkept]
  · have hopen := h.body hfunction fun _ ↦ hkept
    have hempty : (program.functionStmts frame.home).filter frame.kept = [] :=
      List.filter_eq_nil_iff.mpr fun id hid ↦ h.not_kept_of_mem_walk hopen hid
    have hempty' : (frame.start.functionStmts frame.home).filter frame.kept = [] :=
      List.filter_eq_nil_iff.mpr fun id hid ↦ (refl frame hmade).not_kept_of_mem_walk hkept hid
    rw [hempty, hempty']

end Holds

/-- What is left is well linked and keeps the frame of a loop, so only the loop was touched. -/
theorem Holds.touchesOnly {program final : Program} {home : FnId} {loop : StmtId}
    {hlinked : program.WellLinked} {hloop : program.StandsIn home loop}
    (h : (around hlinked hloop).Holds final) (hfinal : final.WellLinked) :
    program.TouchesOnly home loop final := by
  have hhome : program.HasFunction home := hlinked.hasFunction_of_standsIn hloop
  -- Among the statements of the function, the kept ones are the bystanders.
  have hbystander : ∀ {middle : Program}, (around hlinked hloop).Holds middle →
      ∀ id ∈ middle.functionStmts home,
        (around hlinked hloop).kept id = decide (id ∈ program.bystanders home loop) := by
    intro middle hmiddle id hid
    have hfree := hmiddle.not_fixed_of_mem_walk (hmiddle.not_fixed_body hhome) hid
    exact decide_eq_decide.mpr (or_iff_left hfree)
  have hstart : (around hlinked hloop).Holds program := .refl _ rfl
  refine ⟨fun {function} hfunction hne ↦ ?_, ⟨(h.function hhome).1, (h.function hhome).2.1⟩, ?_,
    fun id hid ↦ ?_, h.enlarges⟩
  · have hfixed : ∀ id ∈ program.functionStmts function, (around hlinked hloop).fixed id :=
      fun id hid ↦ hlinked.mem_elsewhere_iff.mpr
        ⟨function, hne, (hlinked.mem_functionStmts_iff hfunction).mp hid⟩
    obtain ⟨hsame, hstmts⟩ := h.function_of_fixed hfunction hfixed
    exact ⟨(h.function hfunction).1, hsame, hstmts, fun id hid ↦ h.stmt (hfixed id hid)⟩
  · have hsame : (final.functionStmts home).filter (around hlinked hloop).kept =
        (program.functionStmts home).filter (around hlinked hloop).kept :=
      h.filter_functionStmts rfl hfinal hhome
    rw [← List.filter_congr (hbystander h), hsame, List.filter_congr (hbystander hstart)]
    exact List.filter_congr fun id hid ↦
      Bool.eq_iff_iff.mpr (decide_eq_true_iff.trans (List.mem_filter.trans (and_iff_right hid)))
  · have hkept : (around hlinked hloop).kept id := decide_eq_true (.inl hid)
    exact ⟨h.parent hkept, h.content hkept⟩

end LoopFrame

/-! ### The passes -/

/-- The loop that a pass lowers, if the pass lowers one loop and nothing else. -/
def LoweringPass.loop? : LoweringPass → Option StmtId
  | .inlineLoop block | .expandLoop block | .zipLoop block | .lowerProtocol _ block
  | .lowerWithCallback block | .lowerLoop block => some block
  | _ => none

section

variable {frame : LoopFrame} {state : LoweringState} {block : StmtId}

/-- A loop over a single iterator is copied, called back or left. -/
theorem respects_expandLoop (h : frame.Holds state.program)
    (haround : frame.Surrounds state.program block) :
    frame.RespectsIn state (expandLoop block) := by
  unfold expandLoop
  refine ensures_get_bind.mpr ?_
  refine Ensures.bind ((Ensures.loweringUnchanged ensures_inlineStrategy).tagged.mono
    (fun _ hsame ↦ hsame ▸ h) fun _ _ _ hchosen ↦ hchosen.1) fun strategy middle h hsame ↦ ?_
  subst hsame
  cases strategy with
  | directInline =>
    exact Ensures.bind (LoopFrame.respectsIn_lift (respects_inlineLoop h haround.loop))
      fun _ _ h _ ↦ .pure h trivial
  | recursiveCallback =>
    exact Ensures.bind (respects_lowerWithCallback h haround) fun _ _ h _ ↦ .pure h trivial
  | zipFusion | protocol | skip => exact .pure h trivial

theorem respects_lowerLoop (h : frame.Holds state.program)
    (haround : frame.Surrounds state.program block) :
    frame.RespectsIn state (lowerLoop block) := by
  have hcount : ∀ {strategy : Strategy} {middle : LoweringState}, frame.Holds middle.program →
      frame.RespectsIn middle (do
        Lowering.count fun summary => summary.add strategy
        return strategy : Lowering Strategy) := fun h ↦
    Ensures.bind (LoopFrame.respectsIn_modify h) fun _ _ h _ ↦ .pure h trivial
  unfold lowerLoop
  refine ensures_get_bind.mpr ?_
  refine Ensures.bind ((Ensures.loweringUnchanged ensures_classify).tagged.mono
    (fun _ hsame ↦ hsame ▸ h) fun _ _ _ hchosen ↦ hchosen.1) fun strategy middle h hsame ↦ ?_
  subst hsame
  have hexpand := respects_expandLoop h haround
  cases strategy with
  | directInline | recursiveCallback => exact Ensures.bind hexpand fun _ _ h _ ↦ hcount h
  | zipFusion =>
    exact Ensures.bind (LoopFrame.respectsIn_lift (respects_zipLoop h haround.loop))
      fun _ _ h _ ↦ hcount h
  | protocol =>
    exact Ensures.bind (LoopFrame.respectsIn_lift (respects_lowerProtocol h haround))
      fun _ _ h _ ↦ hcount h
  | skip => exact hcount h

/-- Lowering a loop in any way keeps the frame of the loop. -/
theorem LoweringPass.respects_run {pass : LoweringPass} (hpass : pass.loop? = some block)
    (h : frame.Holds state.program) (haround : frame.Surrounds state.program block) :
    frame.RespectsIn state pass.run := by
  cases pass with
  | inlineLoop other =>
    obtain rfl := Option.some.inj hpass
    exact LoopFrame.respectsIn_lift (respects_inlineLoop h haround.loop)
  | expandLoop other =>
    obtain rfl := Option.some.inj hpass
    exact Ensures.bind (respects_expandLoop h haround) fun _ _ h _ ↦ .pure h trivial
  | zipLoop other =>
    obtain rfl := Option.some.inj hpass
    exact LoopFrame.respectsIn_lift (respects_zipLoop h haround.loop)
  | lowerProtocol config other =>
    obtain rfl := Option.some.inj hpass
    exact LoopFrame.respectsIn_lift (respects_lowerProtocol h haround)
  | lowerWithCallback other =>
    obtain rfl := Option.some.inj hpass
    exact respects_lowerWithCallback h haround
  | lowerLoop other =>
    obtain rfl := Option.some.inj hpass
    exact Ensures.bind (respects_lowerLoop h haround) fun _ _ h _ ↦ .pure h trivial
  | _ => cases hpass

end

/-- However a loop is lowered, and whether or not that fails half-way, it touches the function that
the loop stands in and no other, and leaves what is neither the loop, nor inside it, nor a
declaration of its index in place and in order. -/
theorem Program.WellLinked.touchesOnly_run {program : Program} {home : FnId} {loop : StmtId}
    (hlinked : program.WellLinked) (hloop : program.StandsIn home loop) {pass : LoweringPass}
    (hpass : pass.loop? = some loop) (context : LoweringContext) :
    program.TouchesOnly home loop (leftBy pass.run { program, context }).program := by
  have hframe : (LoopFrame.around hlinked hloop).Holds program := .refl _ rfl
  have hrun : (LoopFrame.around hlinked hloop).RespectsIn { program, context } pass.run :=
    pass.respects_run hpass hframe LoopFrame.surrounds_around
  exact LoopFrame.Holds.touchesOnly hrun.1 (pass.ensures_run hlinked).1

/-- A function with a loop over an iterator of one value. -/
def loopOverOne : Program where
  types := builtinTypes.push
    { name := "_ir_f", kind := .record, flags := { iteratorRecord := true },
      iteratorFn := some ⟨1⟩ }
  symbols := #[
    { name := "it", kind := .var, type := ⟨5⟩, owner := some ⟨0⟩ },
    { name := "i", kind := .var, type := .int, owner := some ⟨0⟩ },
    { name := "y", kind := .var, type := .int, owner := some ⟨1⟩ }]
  statements := #[
    { kind := .plain [⟨1⟩, ⟨2⟩, ⟨3⟩, ⟨4⟩, ⟨5⟩], bodyOf := some ⟨0⟩, span := .none },
    { kind := .action (.define ⟨0⟩), parent := some ⟨0⟩, span := .none },
    { kind := .action (.define ⟨1⟩), parent := some ⟨0⟩, span := .none },
    { kind := .action (.assign ⟨0⟩ (.call ⟨1⟩ [])), parent := some ⟨0⟩, span := .none },
    { kind := .block (some (.forEach ⟨1⟩ ⟨0⟩)) [], parent := some ⟨0⟩, span := .none },
    { kind := .action (.ret .void), parent := some ⟨0⟩, span := .none },
    { kind := .plain [⟨7⟩, ⟨8⟩, ⟨9⟩], bodyOf := some ⟨1⟩, span := .none },
    { kind := .action (.define ⟨2⟩), parent := some ⟨6⟩, span := .none },
    { kind := .action (.assign ⟨2⟩ (.use (.int 1))), parent := some ⟨6⟩, span := .none },
    { kind := .action (.yield (.sym ⟨2⟩)), parent := some ⟨6⟩, span := .none }]
  functions := #[{ name := "main", retType := .void, body := ⟨0⟩ }, {
    name := "f"
    retType := .int
    body := ⟨6⟩
    flags := { iterator := true }
    iteratorInfo := some ⟨⟨5⟩, ⟨5⟩, ⟨0⟩, ⟨0⟩, ⟨0⟩, ⟨0⟩, ⟨0⟩, ⟨0⟩, ⟨0⟩⟩ }]

theorem touchesOnly_loopOverOne :
    loopOverOne.WellLinked ∧ loopOverOne.StandsIn ⟨0⟩ ⟨4⟩ ∧
      loopOverOne.bystanders ⟨0⟩ ⟨4⟩ = [⟨0⟩, ⟨1⟩, ⟨3⟩, ⟨5⟩] ∧
      (leftBy (LoweringPass.inlineLoop ⟨4⟩).run
        { program := loopOverOne, context := {} }).program.forLoops = [] ∧
      loopOverOne.TouchesOnly ⟨0⟩ ⟨4⟩ (leftBy (LoweringPass.inlineLoop ⟨4⟩).run
        { program := loopOverOne, context := {} }).program := by
  have hlinked : loopOverOne.WellLinked := by decide
  have hloop : loopOverOne.StandsIn ⟨0⟩ ⟨4⟩ := ⟨⟨0⟩, .single rfl, rfl⟩
  exact ⟨hlinked, hloop, by decide +kernel, by decide +kernel, hlinked.touchesOnly_run hloop rfl {}⟩

end IteratorLowering
