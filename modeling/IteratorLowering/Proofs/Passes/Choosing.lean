import IteratorLowering.Lowering.Pipeline
import IteratorLowering.Proofs.Passes.Inlining

/-!
# Choosing a strategy

An iterator is copied into a loop only where its body is known before the program runs, and ends
(`Program.StaticallyKnown`): the iterator has no runtime subtype and is not recursive. Fusing
iterators asks only for a single yield at the top level of each (`classify_copies`), so it may be
chosen for instances that have subtypes, for recursive iterators, and for no iterators at all
(`mixedHeaders`).
-/

set_option autoImplicit false
set_option relaxedAutoImplicit false

namespace IteratorLowering

variable {program : Program} {context : LoweringContext} {block : StmtId}
variable {strategy strategy' : Strategy}

namespace Program

/-- Whether a strategy is the one for a loop over a single iterator. -/
def Expands (program : Program) (context : LoweringContext) (block : StmtId)
    (strategy : Strategy) : Prop :=
  ∃ index source iterator owner, (program.kind block).forHeader? = some (index, source) ∧
    program.iteratorFnOf (program.symbolType source) = some iterator ∧
    program.enclosingFunction? block = some owner ∧
    strategy = if !context.isRecursive iterator then .directInline
      else if context.isRecursive owner then .skip else .recursiveCallback

variable {context : LoweringContext} {strategy strategy' : Strategy}

theorem Expands.unique (h : program.Expands context block strategy)
    (h' : program.Expands context block strategy') : strategy = strategy' := by
  obtain ⟨index, source, iterator, owner, hheader, hiterator, howner, rfl⟩ := h
  obtain ⟨index', source', iterator', owner', hheader', hiterator', howner', rfl⟩ := h'
  obtain ⟨rfl, rfl⟩ := Prod.mk.inj (Option.some.inj (hheader.symm.trans hheader'))
  obtain rfl := Option.some.inj (hiterator.symm.trans hiterator')
  obtain rfl := Option.some.inj (howner.symm.trans howner')
  rfl

theorem Expands.has (h : program.Expands context block strategy) : program.Has block := by
  obtain ⟨index, source, _, _, hheader, _⟩ := h
  exact has_of_forHeader hheader

theorem Expands.compound (h : program.Expands context block strategy) :
    (program.kind block).isAction = false := by
  obtain ⟨index, source, _, _, hheader, _⟩ := h
  exact StmtKind.isAction_of_forHeader hheader

theorem Expands.cases (h : program.Expands context block strategy) :
    strategy = .directInline ∨ strategy = .skip ∨ strategy = .recursiveCallback := by
  obtain ⟨_, _, _, _, _, _, _, rfl⟩ := h
  split
  · exact .inl rfl
  · split
    · exact .inr (.inl rfl)
    · exact .inr (.inr rfl)

/-- Whether a strategy is the one for a loop. -/
def Chooses (program : Program) (context : LoweringContext) (block : StmtId)
    (strategy : Strategy) : Prop :=
  ∃ index source, (program.kind block).forHeader? = some (index, source) ∧
    (strategy = .protocol ∨ context.config.inlineIterators = true ∧
      (program.hasSinglePath (program.symbolType source) = true ∧
          program.Expands context block strategy ∨
        program.canFuse (program.symbolType source) = true ∧ strategy = .zipFusion))

end Program

theorem ensures_inlineStrategy {context : LoweringContext} :
    Ensures (inlineStrategy context block) program (Eq program) fun strategy _ ↦
      program.Expands context block strategy := by
  unfold inlineStrategy
  refine ensures_loopHeader_bind rfl fun (index, source) hheader ↦ ?_
  refine ensures_get_bind.mpr ?_
  refine ensures_instanceIterator_bind rfl fun iterator hiterator ↦ ?_
  refine ensures_loopOwner_bind rfl fun owner howner ↦ ?_
  have hexpands : ∀ strategy, strategy = (if !context.isRecursive iterator then .directInline
      else if context.isRecursive owner then .skip else .recursiveCallback) →
      program.Expands context block strategy :=
    fun strategy hstrategy ↦
      ⟨index, source, iterator, owner, hheader, hiterator, howner, hstrategy⟩
  split
  · rename_i hplain
    exact .pure rfl (hexpands _ (by rw [if_pos hplain]))
  · rename_i hrecursive
    split
    · rename_i howner
      exact .pure rfl (hexpands _ (by rw [if_neg hrecursive, if_pos howner]))
    · rename_i howner
      exact .pure rfl (hexpands _ (by rw [if_neg hrecursive, if_neg howner]))

/-- The strategies that need a single iterator are chosen where its body may be copied. -/
theorem ensures_classify :
    Ensures (classify context block) program (Eq program) fun strategy _ ↦
      program.Chooses context block strategy := by
  unfold classify
  refine ensures_loopHeader_bind rfl fun (index, source) hheader ↦ ?_
  refine ensures_get_bind.mpr ?_
  dsimp only
  split
  · exact .pure rfl ⟨index, source, hheader, .inl rfl⟩
  · rename_i hinline
    have hinline : context.config.inlineIterators = true := by simpa using hinline
    split
    · rename_i hsingle
      exact ensures_inlineStrategy.mono (fun _ h ↦ h) fun _ _ _ h ↦
        ⟨index, source, hheader, .inr ⟨hinline, .inl ⟨hsingle, h⟩⟩⟩
    · split
      · rename_i hfuse
        exact .pure rfl ⟨index, source, hheader, .inr ⟨hinline, .inr ⟨hfuse, rfl⟩⟩⟩
      · exact .pure rfl ⟨index, source, hheader, .inl rfl⟩

/-! ### Headers -/

namespace Program

/-- Whether a type is that of a loop header: an instance of an iterator, which may be behind a
reference, or a tuple of headers. -/
inductive IsHeader (program : Program) : TypeId → Prop
  | plain {type : TypeId} {iterator : FnId}
      (hvalue : program.isRef (program.valueType type) = false)
      (htuple : (program.type (program.valueType type)).isTuple = false)
      (hiterator : program.iteratorFnOf type = some iterator) : program.IsHeader type
  | tuple {type : TypeId} (htuple : (program.type (program.valueType type)).isTuple = true)
      (hiterator : program.iteratorFnOf type = none)
      (hfields : ∀ field ∈ (program.type (program.valueType type)).fields,
        program.IsHeader field.type) : program.IsHeader type

/-- Whether a header has iterators, their instances have no runtime subtypes, so that the bodies
that run are theirs, and none of them is recursive. -/
structure StaticallyKnown (program : Program) (recursive : List FnId) (type : TypeId) : Prop where
  nonempty : program.leafIterators type ≠ []
  subtypes : ∀ leaf ∈ program.leafIterators type, program.runtimeSubtypes leaf = []
  finite : ∀ leaf ∈ program.leafIterators type, ∀ iterator,
    program.iteratorFnOf leaf = some iterator → iterator ∉ recursive

variable {type : TypeId}

theorem valueType_of_not_isRef (h : program.isRef type = false) :
    program.valueType type = type := by
  unfold isRef at h
  unfold valueType
  split at h
  · cases h
  · rfl

theorem leafIterators_of_not_isTuple
    (h : (program.type (program.valueType type)).isTuple = false) :
    program.leafIterators type = [program.valueType type] := by
  unfold leafIterators
  cases program.types.size with
  | zero => rfl
  | succ depth =>
    unfold leafIteratorsTo
    dsimp only
    rw [if_neg (by simp [h])]

/-- The root class is no subtype of its own. -/
theorem runtimeSubtypes_of_isLeafClass (h : program.isLeafClass (program.valueType type) = true) :
    program.runtimeSubtypes type = [] := by
  unfold runtimeSubtypes addSubtypes
  unfold isLeafClass at h
  dsimp only at h
  rcases Bool.or_eq_true_iff.mp h with hnone | hroot
  · rw [List.isEmpty_iff.mp hnone]
    rfl
  · rw [eq_of_beq hroot]
    rfl

theorem isLeafClass_of_hasSinglePath (h : program.hasSinglePath type = true) :
    program.isLeafClass (program.valueType type) = true := by
  obtain ⟨_, _, hpath⟩ := (Option.any_eq_true _ _).mp h
  exact (Bool.and_eq_true_iff.mp hpath).2

/-- A plain header has a single leaf, which belongs to the same iterator. -/
theorem IsHeader.leafIterators {iterator : FnId} (h : program.IsHeader type)
    (hiterator : program.iteratorFnOf type = some iterator) :
    program.leafIterators type = [program.valueType type] ∧
      program.valueType (program.valueType type) = program.valueType type := by
  cases h with
  | plain hvalue htuple =>
    exact ⟨leafIterators_of_not_isTuple htuple, valueType_of_not_isRef hvalue⟩
  | tuple _ hnone =>
    rw [hiterator] at hnone
    cases hnone

/-- Where a single path is taken to an iterator that is not recursive, its body is known. -/
theorem IsHeader.staticallyKnown {recursive : List FnId} {iterator : FnId}
    (h : program.IsHeader type) (hpath : program.hasSinglePath type = true)
    (hiterator : program.iteratorFnOf type = some iterator) (hplain : iterator ∉ recursive) :
    program.StaticallyKnown recursive type := by
  obtain ⟨hleaf, hvalue⟩ := h.leafIterators hiterator
  have hmem : ∀ leaf ∈ program.leafIterators type, leaf = program.valueType type :=
    fun leaf hmem ↦ List.mem_singleton.mp (hleaf ▸ hmem)
  refine ⟨by simp [hleaf], fun leaf hmem' ↦ ?_, fun leaf hmem' other hother ↦ ?_⟩
  · rw [hmem leaf hmem']
    apply runtimeSubtypes_of_isLeafClass
    rw [hvalue]
    exact isLeafClass_of_hasSinglePath hpath
  · rw [hmem leaf hmem', iteratorFnOf, hvalue] at hother
    rw [iteratorFnOf] at hiterator
    exact Option.some.inj (hiterator.symm.trans hother) ▸ hplain

/-- An iterator that can be fused has one yield, as a direct member of its body. -/
theorem exists_yield_of_canFuse (h : program.canFuse type = true) {leaf : TypeId}
    (hleaf : leaf ∈ program.leafIterators type) :
    ∃ iterator only, program.iteratorFnOf leaf = some iterator ∧
      program.yieldsIn (program.bodyOf iterator) = [only] ∧
      program.parent only = some (program.bodyOf iterator) := by
  obtain ⟨iterator, hiterator, honce⟩ :=
    (Option.any_eq_true _ _).mp (List.all_eq_true.mp h leaf hleaf)
  unfold hasSingleTopLevelYield at honce
  dsimp only at honce
  split at honce
  · rename_i only honly
    exact ⟨iterator, only, hiterator, honly, eq_of_beq honce⟩
  · cases honce

end Program

/-- A body is copied into a loop where it is known and ends. Iterators are fused where each of
them yields once, at the top level of its body. -/
theorem classify_copies {config : LoweringConfig} {final : Program} {index source : SymId}
    (hheader : (program.kind block).forHeader? = some (index, source))
    (htype : program.IsHeader (program.symbolType source))
    (h : classify (.ofProgram config program) block program = .ok strategy final) :
    (strategy = .directInline → program.StaticallyKnown
      (program.recursiveIterators program.callGraph) (program.symbolType source)) ∧
    (strategy = .zipFusion → ∀ leaf ∈ program.leafIterators (program.symbolType source),
      ∃ iterator only, program.iteratorFnOf leaf = some iterator ∧
        program.yieldsIn (program.bodyOf iterator) = [only] ∧
        program.parent only = some (program.bodyOf iterator)) := by
  obtain ⟨-, index', source', hheader', hchosen⟩ := ensures_classify.of_eq_ok h
  obtain ⟨rfl, rfl⟩ := Prod.mk.inj (Option.some.inj (hheader'.symm.trans hheader))
  constructor
  · rintro rfl
    rcases hchosen with hne | ⟨-, ⟨hpath, hexpands⟩ | ⟨-, hne⟩⟩
    · cases hne
    · obtain ⟨_, source, iterator, owner, hheader', hiterator, -, hplain⟩ := hexpands
      obtain ⟨rfl, rfl⟩ := Prod.mk.inj (Option.some.inj (hheader'.symm.trans hheader))
      refine htype.staticallyKnown hpath hiterator fun hmem ↦ ?_
      have hrecursive : (LoweringContext.ofProgram config program).isRecursive iterator = true :=
        List.contains_iff_mem.mpr hmem
      rw [hrecursive, if_neg (by decide)] at hplain
      split at hplain <;> cases hplain
    · cases hne
  · rintro rfl leaf hleaf
    rcases hchosen with hne | ⟨-, ⟨-, hexpands⟩ | ⟨hfuse, -⟩⟩
    · cases hne
    · rcases hexpands.cases with hne | hne | hne <;> cases hne
    · exact Program.exists_yield_of_canFuse hfuse hleaf

/-- A function with four loops: over an iterator, over one with a runtime subtype, over a tuple of a
recursive iterator, and over an empty tuple. -/
def mixedHeaders : Program where
  types := builtinTypes ++ #[
    { name := "_ir_f", kind := .heapClass, iteratorFn := some ⟨0⟩ },
    { name := "_ir_g", kind := .heapClass, iteratorFn := some ⟨1⟩, subtypes := [⟨5⟩] },
    { name := "_ir_r", kind := .heapClass, iteratorFn := some ⟨2⟩ },
    { name := "its", kind := .record, fields := [⟨"a", ⟨7⟩⟩], flags := { tuple := true } },
    { name := "idx", kind := .record, fields := [⟨"a", .int⟩], flags := { tuple := true } },
    { name := "none", kind := .record, flags := { tuple := true } }]
  symbols := #[
    { name := "f", kind := .var, type := ⟨5⟩, owner := some ⟨3⟩ },
    { name := "g", kind := .var, type := ⟨6⟩, owner := some ⟨3⟩ },
    { name := "its", kind := .var, type := ⟨8⟩, owner := some ⟨3⟩ },
    { name := "none", kind := .var, type := ⟨10⟩, owner := some ⟨3⟩ },
    { name := "x", kind := .var, type := .int, owner := some ⟨3⟩ },
    { name := "xs", kind := .var, type := ⟨9⟩, owner := some ⟨3⟩ },
    { name := "no", kind := .var, type := ⟨10⟩, owner := some ⟨3⟩ },
    { name := "inner", kind := .var, type := ⟨7⟩, owner := some ⟨2⟩ }]
  statements := #[
    { kind := .plain [⟨4⟩], bodyOf := some ⟨0⟩, span := .none },
    { kind := .plain [⟨5⟩], bodyOf := some ⟨1⟩, span := .none },
    { kind := .plain [⟨6⟩, ⟨7⟩], bodyOf := some ⟨2⟩, span := .none },
    { kind := .plain [⟨8⟩, ⟨9⟩, ⟨10⟩, ⟨11⟩], bodyOf := some ⟨3⟩, span := .none },
    { kind := .action (.yield (.int 1)), parent := some ⟨0⟩, span := .none },
    { kind := .action (.yield (.int 2)), parent := some ⟨1⟩, span := .none },
    { kind := .action (.assign ⟨7⟩ (.call ⟨2⟩ [])), parent := some ⟨2⟩, span := .none },
    { kind := .action (.yield (.int 3)), parent := some ⟨2⟩, span := .none },
    { kind := .block (some (.forEach ⟨4⟩ ⟨0⟩)) [], parent := some ⟨3⟩, span := .none },
    { kind := .block (some (.forEach ⟨4⟩ ⟨1⟩)) [], parent := some ⟨3⟩, span := .none },
    { kind := .block (some (.forEach ⟨5⟩ ⟨2⟩)) [], parent := some ⟨3⟩, span := .none },
    { kind := .block (some (.forEach ⟨6⟩ ⟨3⟩)) [], parent := some ⟨3⟩, span := .none }]
  functions := #[
    { name := "f", retType := .int, body := ⟨0⟩, flags := { iterator := true },
      iteratorInfo := some ⟨⟨5⟩, ⟨5⟩, ⟨0⟩, ⟨0⟩, ⟨0⟩, ⟨0⟩, ⟨0⟩, ⟨0⟩, ⟨0⟩⟩ },
    { name := "g", retType := .int, body := ⟨1⟩, flags := { iterator := true },
      iteratorInfo := some ⟨⟨6⟩, ⟨6⟩, ⟨1⟩, ⟨1⟩, ⟨1⟩, ⟨1⟩, ⟨1⟩, ⟨1⟩, ⟨1⟩⟩ },
    { name := "r", retType := .int, body := ⟨2⟩, flags := { iterator := true },
      iteratorInfo := some ⟨⟨7⟩, ⟨7⟩, ⟨2⟩, ⟨2⟩, ⟨2⟩, ⟨2⟩, ⟨2⟩, ⟨2⟩, ⟨2⟩⟩ },
    { name := "main", retType := .void, body := ⟨3⟩ }]

namespace mixedHeaders

theorem recursiveIterators_eq :
    mixedHeaders.recursiveIterators mixedHeaders.callGraph = [⟨2⟩] := by decide +kernel

/-- The strategy that is chosen for a loop with the default configuration. -/
def chosen (block : StmtId) : Option Strategy :=
  (Runs.run (classify (.ofProgram {} mixedHeaders) block) mixedHeaders).1

theorem staticallyKnown_of_chosen :
    chosen ⟨8⟩ = some .directInline ∧ mixedHeaders.StaticallyKnown [⟨2⟩] ⟨5⟩ := by
  have hchosen : chosen ⟨8⟩ = some .directInline := by decide +kernel
  have hheader : (mixedHeaders.kind ⟨8⟩).forHeader? = some (⟨4⟩, ⟨0⟩) := by decide
  have htype : mixedHeaders.IsHeader (mixedHeaders.symbolType ⟨0⟩) :=
    .plain (by decide) (by decide) (by decide : _ = some (⟨0⟩ : FnId))
  have hknown := (classify_copies hheader htype (eq_ok_of_run hchosen)).1 rfl
  rw [recursiveIterators_eq] at hknown
  exact ⟨hchosen, hknown⟩

/-- The other three loops are fused, over a class with a subtype, a recursive iterator, and an empty
tuple: what runs is not known, does not end, or is nothing. -/
example : [⟨9⟩, ⟨10⟩, ⟨11⟩].map chosen = List.replicate 3 (some .zipFusion) := by
  decide +kernel

end mixedHeaders

end IteratorLowering
