import IteratorLowering.Proofs.Passes.Pipeline

/-!
# The loops that a lowering skips

After a lowering that hands iterators off to nothing, the only for-loops are loops over recursive
iterators that stand in recursive iterators (`Program.LeavesLoops`). The lowering has counted them
(`leavesLoops_lowerIterators`), and with inlining turned off there are none.

The count can only be too large, and only where a recursive iterator is also a copy or destroy
routine of an iterator record: its body is replaced after its loops were counted
(`copiedIterator`). Nothing of this holds where the links of the program are broken
(`nestedBodies`).
-/

set_option autoImplicit false
set_option relaxedAutoImplicit false

namespace IteratorLowering

/-- Whether every for-loop of a program stands in one of the given iterators, and is over one. -/
structure Program.LeavesLoops (program : Program) (recursive : List FnId) : Prop where
  inside : ∀ {function id}, function ∈ program.functionIds →
    id ∈ program.functionStmts function → (program.kind id).isForLoop = true →
      function ∈ recursive ∧ (program.function function).isIterator = true
  header : ∀ {id}, id ∈ program.forLoops → ∃ index source iterator,
    (program.kind id).forHeader? = some (index, source) ∧
      program.iteratorFnOf (program.symbolType source) = some iterator ∧ iterator ∈ recursive
  nodup : program.forLoops.Nodup

/-- Whether a lowering has counted the for-loops that it left. -/
structure Lowered.CountsLoops (lowered : Lowered) (program : Program) (recursive : List FnId) : Prop
    extends program.LeavesLoops recursive where
  counted : lowered.summary.leftForStateMachine = program.forLoops.length

namespace Program

variable {start program : Program} {recursive : List FnId} {loops : List StmtId}

/-- The functions that are recursive iterators are there and are iterators. -/
theorem mem_recursiveIterators {function : FnId}
    (h : function ∈ program.recursiveIterators program.callGraph) :
    program.HasFunction function ∧ (program.function function).isIterator = true := by
  obtain ⟨hfunction, hiterator⟩ := List.mem_filter.mp h
  exact ⟨mem_functionIds.mp hfunction, (Bool.and_eq_true_iff.mp hiterator).1⟩

namespace Remains

theorem mem_forLoops_iff (h : start.Remains recursive loops program) {id : StmtId} :
    id ∈ program.forLoops ↔ id ∈ loops := by
  refine ⟨fun hid ↦ h.all hid, fun hid ↦ h.linked.mem_forLoops_iff.mpr ⟨?_, ?_⟩⟩
  · obtain ⟨function, _, hstands⟩ := (h.leftOver hid).inside
    exact ⟨function, hstands⟩
  · exact (h.leftOver hid).isForLoop

theorem length_forLoops (h : start.Remains recursive loops program) (hnodup : loops.Nodup) :
    program.forLoops.length = loops.length :=
  ((List.perm_ext_iff_of_nodup h.linked.nodup_forLoops hnodup).mpr
    fun _ ↦ h.mem_forLoops_iff).length_eq

theorem leavesLoops (h : start.Remains recursive loops program)
    (hrecursive : ∀ function ∈ recursive, start.HasFunction function ∧
      (start.function function).isIterator = true) : program.LeavesLoops recursive where
  inside {function id} hfunction hid hloop := by
    have hstands := (h.linked.mem_functionStmts_iff (mem_functionIds.mp hfunction)).mp hid
    have hleft := h.leftOver (h.all (h.linked.mem_forLoops_iff.mpr ⟨⟨_, hstands⟩, hloop⟩))
    obtain ⟨outer, houter, hinside⟩ := hleft.inside
    obtain rfl := h.linked.standsIn_unique hinside hstands
    obtain ⟨hhas, hiterator⟩ := hrecursive _ houter
    refine ⟨houter, ?_⟩
    rw [FnDef.isIterator, (h.grows.function hhas).2.1]
    exact hiterator
  header hid := by
    obtain ⟨index, source, hheader, iterator, hiterator, hof⟩ := (h.leftOver (h.all hid)).header
    exact ⟨index, source, iterator, hheader, hof, hiterator⟩
  nodup := h.linked.nodup_forLoops

end Remains

end Program

variable {config : LoweringConfig} {queue queue' : DiagnosticQueue} {program final : Program}
variable {lowered : Lowered}

/-- The loops that are left by a lowering that hands iterators off to nothing. -/
theorem leavesLoops_lowerIterators (hlinked : program.WellLinked) (hresolved : program.Resolved)
    (h : lowerIterators config (fun _ ↦ pure ()) queue program = (.ok lowered final, queue')) :
    final.LeavesLoops (program.recursiveIterators program.callGraph) ∧
      final.forLoops.length ≤ lowered.summary.leftForStateMachine ∧
      ((∀ function ∈ program.recursiveIterators program.callGraph, ¬ program.IsRoutine function) →
        lowered.CountsLoops final (program.recursiveIterators program.callGraph)) ∧
      (config.inlineIterators = false → final.forLoops = []) := by
  have hrecursive : ∀ function ∈ program.recursiveIterators program.callGraph,
      program.HasFunction function ∧ (program.function function).isIterator = true :=
    fun function hfunction ↦ Program.mem_recursiveIterators hfunction
  have hensures : Ensures (lowersTo config (fun _ ↦ pure ()) queue) program (fun _ ↦ True)
      fun lowered final ↦ ∃ loops : List StmtId, loops.Nodup ∧
        (loops ≠ [] → config.inlineIterators = true) ∧
        program.Retains (program.recursiveIterators program.callGraph) loops final ∧
        lowered.summary.leftForStateMachine = loops.length :=
    ensures_lowersTo trivial (ensures_lowerRemaining hlinked hresolved hrecursive rfl)
  have hrun : lowersTo config (fun _ ↦ pure ()) queue program = .ok lowered final := by
    rw [lowersTo, h]
  obtain ⟨-, loops, hnodup, hallowed, ⟨kept, hsublist, hsame, hremains⟩, hleft⟩ :=
    hensures.of_eq_ok hrun
  have hleaves := hremains.leavesLoops hrecursive
  have hlength := hremains.length_forLoops (hnodup.sublist hsublist)
  refine ⟨hleaves, ?_, fun hnot ↦ ⟨hleaves, ?_⟩, fun hoff ↦ ?_⟩
  · rw [hlength, hleft]
    exact hsublist.length_le
  · rw [hlength, hleft, hsame hnot]
  · have hnone : loops = [] := by
      by_contra hsome
      rw [hallowed hsome] at hoff
      cases hoff
    rw [hnone, List.sublist_nil] at hsublist
    rwa [hsublist, List.length_nil, List.length_eq_zero_iff] at hlength

/-! ### Runs -/

/-- What a lowering with the default configuration counts as left, and the loops that are left. -/
def Program.leftByDefault (program : Program) : Option (Nat × List StmtId) :=
  match (lowerIterators {} (fun _ ↦ pure ()) {} program).1 with
  | .ok lowered final => some (lowered.summary.leftForStateMachine, final.forLoops)
  | .error .. => none

theorem exists_of_leftByDefault {left : Nat} {loops : List StmtId}
    (h : program.leftByDefault = some (left, loops)) :
    ∃ lowered final queue,
      lowerIterators {} (fun _ ↦ pure ()) {} program = (.ok lowered final, queue) ∧
        lowered.summary.leftForStateMachine = left ∧ final.forLoops = loops := by
  unfold Program.leftByDefault at h
  rcases hresult : lowerIterators {} (fun _ ↦ pure ()) {} program with ⟨⟨lowered, final⟩ | _, queue⟩
  · rw [hresult] at h
    obtain ⟨rfl, rfl⟩ := Prod.mk.inj (Option.some.inj h)
    exact ⟨lowered, final, queue, rfl, rfl, rfl⟩
  · rw [hresult] at h
    cases h

/-- An iterator over instances of itself, with one formal, which is an instance too. -/
def selfLooping (flags : FnFlags) : Program where
  types := builtinTypes.push
    { name := "_ir_f", kind := .record, flags := { iteratorRecord := true },
      iteratorFn := some ⟨0⟩ }
  symbols := #[
    { name := "record", kind := .arg, type := ⟨5⟩, owner := some ⟨0⟩ },
    { name := "inner", kind := .var, type := ⟨5⟩, owner := some ⟨0⟩ },
    { name := "x", kind := .var, type := .int, owner := some ⟨0⟩ }]
  statements := #[
    { kind := .plain [⟨1⟩, ⟨2⟩, ⟨3⟩, ⟨4⟩], bodyOf := some ⟨0⟩, span := .none },
    { kind := .action (.define ⟨1⟩), parent := some ⟨0⟩, span := .none },
    { kind := .action (.assign ⟨1⟩ (.call ⟨0⟩ [.sym ⟨0⟩])), parent := some ⟨0⟩, span := .none },
    { kind := .action (.define ⟨2⟩), parent := some ⟨0⟩, span := .none },
    { kind := .block (some (.forEach ⟨2⟩ ⟨1⟩)) [⟨5⟩], parent := some ⟨0⟩, span := .none },
    { kind := .action (.yield (.sym ⟨2⟩)), parent := some ⟨4⟩, span := .none }]
  functions := #[{
    name := "f"
    formals := [⟨0⟩]
    retType := .int
    body := ⟨0⟩
    flags
    iteratorInfo := some ⟨⟨5⟩, ⟨5⟩, ⟨0⟩, ⟨0⟩, ⟨0⟩, ⟨0⟩, ⟨0⟩, ⟨0⟩, ⟨0⟩⟩ }]

theorem leavesLoops_selfLooping :
    let program := selfLooping { iterator := true }
    program.WellLinked ∧ program.Resolved ∧
      (∀ function ∈ program.recursiveIterators program.callGraph, ¬ program.IsRoutine function) ∧
      ∃ lowered final queue,
        lowerIterators {} (fun _ ↦ pure ()) {} program = (.ok lowered final, queue) ∧
          lowered.CountsLoops final (program.recursiveIterators program.callGraph) ∧
          final.forLoops = [⟨4⟩] := by
  intro program
  have hlinked : program.WellLinked := by decide
  have hresolved : program.Resolved := by decide
  have hnot : ∀ function ∈ program.recursiveIterators program.callGraph,
      ¬ program.IsRoutine function := by
    have hself : program.recursiveIterators program.callGraph = [⟨0⟩] := by decide +kernel
    rw [hself]
    rintro function hfunction ⟨record, -, -, hflags⟩
    rw [List.mem_singleton.mp hfunction] at hflags
    revert hflags
    decide
  obtain ⟨lowered, final, queue, hresult, _, hloops⟩ :=
    @exists_of_leftByDefault program 1 [⟨4⟩] (by decide +kernel)
  refine ⟨hlinked, hresolved, hnot, lowered, final, queue, hresult, ?_, hloops⟩
  exact (leavesLoops_lowerIterators hlinked hresolved hresult).2.2.1 hnot

/-- A recursive iterator that is the copy routine of its instances loses the loop in its body
after it was counted. -/
def copiedIterator : Program := selfLooping { iterator := true, autoCopy := true }

/-- A function whose body is nested in the body of a recursive iterator, and holds a loop. -/
def nestedBodies : Program where
  types := builtinTypes.push
    { name := "_ir_f", kind := .record, flags := { iteratorRecord := true },
      iteratorFn := some ⟨0⟩ }
  symbols := #[
    { name := "inner", kind := .var, type := ⟨5⟩, owner := some ⟨0⟩ },
    { name := "it", kind := .var, type := ⟨5⟩, owner := some ⟨1⟩ },
    { name := "x", kind := .var, type := .int, owner := some ⟨1⟩ }]
  statements := #[
    { kind := .plain [⟨2⟩, ⟨3⟩, ⟨4⟩, ⟨1⟩], bodyOf := some ⟨0⟩, span := .none },
    { kind := .block (some .confined) [⟨5⟩, ⟨6⟩, ⟨7⟩, ⟨8⟩], parent := some ⟨0⟩,
      bodyOf := some ⟨1⟩, span := .none },
    { kind := .action (.define ⟨0⟩), parent := some ⟨0⟩, span := .none },
    { kind := .action (.assign ⟨0⟩ (.call ⟨0⟩ [])), parent := some ⟨0⟩, span := .none },
    { kind := .action (.yield (.int 1)), parent := some ⟨0⟩, span := .none },
    { kind := .action (.define ⟨1⟩), parent := some ⟨1⟩, span := .none },
    { kind := .action (.assign ⟨1⟩ (.call ⟨0⟩ [])), parent := some ⟨1⟩, span := .none },
    { kind := .action (.define ⟨2⟩), parent := some ⟨1⟩, span := .none },
    { kind := .block (some (.forEach ⟨2⟩ ⟨1⟩)) [], parent := some ⟨1⟩, span := .none }]
  functions := #[{
    name := "f"
    retType := .int
    body := ⟨0⟩
    flags := { iterator := true }
    iteratorInfo := some ⟨⟨5⟩, ⟨5⟩, ⟨0⟩, ⟨0⟩, ⟨0⟩, ⟨0⟩, ⟨0⟩, ⟨0⟩, ⟨0⟩⟩ },
    { name := "main", retType := .void, body := ⟨1⟩ }]

/-- The loop of the first program is counted and lost, the one of the second is counted twice. -/
theorem not_countsLoops :
    (∃ lowered final queue,
      lowerIterators {} (fun _ ↦ pure ()) {} copiedIterator = (.ok lowered final, queue) ∧
        ¬ lowered.CountsLoops final
          (copiedIterator.recursiveIterators copiedIterator.callGraph)) ∧
      ∃ lowered final queue,
        lowerIterators {} (fun _ ↦ pure ()) {} nestedBodies = (.ok lowered final, queue) ∧
          ¬ lowered.CountsLoops final (nestedBodies.recursiveIterators nestedBodies.callGraph) := by
  constructor
  · obtain ⟨lowered, final, queue, hresult, hleft, hloops⟩ :=
      @exists_of_leftByDefault copiedIterator 1 [] (by decide +kernel)
    refine ⟨lowered, final, queue, hresult, fun h ↦ ?_⟩
    have hcounted := h.counted
    rw [hleft, hloops] at hcounted
    cases hcounted
  · obtain ⟨lowered, final, queue, hresult, _, hloops⟩ :=
      @exists_of_leftByDefault nestedBodies 2 [⟨8⟩, ⟨8⟩] (by decide +kernel)
    refine ⟨lowered, final, queue, hresult, fun h ↦ ?_⟩
    have hnodup := h.nodup
    rw [hloops] at hnodup
    exact absurd hnodup (by decide)

end IteratorLowering
