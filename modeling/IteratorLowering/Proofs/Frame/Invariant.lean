import IteratorLowering.Proofs.Forest.Enclosing
import IteratorLowering.Proofs.Forest.Updating

/-!
# What is left alone around a loop

A pass that lowers one loop copies and moves statements, replaces symbols, and makes functions. A
`LoopFrame` names what it may not touch in the program that it starts from: *fixed* statements,
whose entries stay as they are, and *kept* statements, which stay where they are and keep their
content, though other statements may be put between their members or taken away from there.

`frame.Holds program` says that nothing named by the frame has been touched, and that nothing new
has come to stand inside a fixed statement or around a kept one. It asks nothing of the other
statements, which need not even be well linked. So it is an invariant of every single update
(`LoopFrame.Holds.setKind`, `LoopFrame.Holds.setParent`, `LoopFrame.Holds.newStmt`), and what an
update needs to know of the statements that it is given does not depend on what was done before: a
statement is not kept, or it is not fixed. All statements nested in one that is not kept are of that
kind (`LoopFrame.Holds.not_kept_of_mem_walk`), and so are all new statements
(`LoopFrame.Holds.not_kept_of_new`).
-/

set_option autoImplicit false
set_option relaxedAutoImplicit false

namespace IteratorLowering

namespace StmtKind

/-- Whether two statements are the same, apart from the statements nested in them and the target
of an assignment. -/
inductive Resembles : StmtKind → StmtKind → Prop
  | action (inner : Action) : Resembles (.action inner) (.action inner)
  | assign (target target' : SymId) (value : Expr) :
      Resembles (.action (.assign target value)) (.action (.assign target' value))
  | branch (condition : Operand) (thenBlock thenBlock' : StmtId)
      {elseBlock elseBlock' : Option StmtId} (h : elseBlock'.isSome = elseBlock.isSome) :
      Resembles (.branch condition thenBlock elseBlock) (.branch condition thenBlock' elseBlock')
  | block (info : Option BlockInfo) (body body' : List StmtId) :
      Resembles (.block info body) (.block info body')

namespace Resembles

variable {kind middle final : StmtKind}

theorem refl (kind : StmtKind) : kind.Resembles kind := by
  cases kind with
  | action inner => exact .action inner
  | branch condition thenBlock elseBlock => exact .branch condition thenBlock thenBlock rfl
  | block info body => exact .block info body body

theorem trans (first : kind.Resembles middle) (second : middle.Resembles final) :
    kind.Resembles final := by
  cases first with
  | action => exact second
  | assign target _ value =>
    cases second with
    | action => exact .assign target _ value
    | assign _ target' => exact .assign target target' value
  | branch condition thenBlock _ h =>
    cases second with
    | branch _ _ thenBlock' h' => exact .branch condition thenBlock thenBlock' (h'.trans h)
  | block info body _ =>
    cases second with
    | block _ _ body' => exact .block info body body'

theorem defined?_eq (h : kind.Resembles final) : final.defined? = kind.defined? := by
  cases h <;> rfl

end Resembles

end StmtKind

namespace Program

/-- Whether a program has every symbol, type and table slot of another one: a symbol may have got
another owner, and a type may have got a new reference type. -/
structure Enlarges (program final : Program) : Prop where
  symbol : ∀ {id}, program.HasSymbol id → final.HasSymbol id ∧
    { final.symbol id with owner := none } = { program.symbol id with owner := none }
  type : ∀ {id}, program.HasType id → final.HasType id ∧
    (final.type id = program.type id ∨ ∃ reference, (program.type id).refType = none ∧
      ¬ program.HasType reference ∧ final.HasType reference ∧
      (final.type reference).kind = .ref id ∧
      final.type id = { program.type id with refType := some reference })
  slot : ∀ {slot function}, program.table.get? slot = some function →
    final.table.get? slot = some function

namespace Enlarges

variable {program middle final : Program}

theorem refl (program : Program) : program.Enlarges program :=
  ⟨fun h ↦ ⟨h, rfl⟩, fun h ↦ ⟨h, .inl rfl⟩, id⟩

theorem kind_type (h : program.Enlarges final) {id : TypeId} (hid : program.HasType id) :
    (final.type id).kind = (program.type id).kind := by
  rcases (h.type hid).2 with hsame | ⟨_, _, _, _, _, hsame⟩ <;> rw [hsame]

theorem flags_type (h : program.Enlarges final) {id : TypeId} (hid : program.HasType id) :
    (final.type id).flags = (program.type id).flags := by
  rcases (h.type hid).2 with hsame | ⟨_, _, _, _, _, hsame⟩ <;> rw [hsame]

theorem symbolType (h : program.Enlarges final) {id : SymId} (hid : program.HasSymbol id) :
    final.symbolType id = program.symbolType id := by
  have hsame := congrArg Symbol.type (h.symbol hid).2
  exact hsame

theorem isLabel (h : program.Enlarges final) {id : SymId} (hid : program.HasSymbol id) :
    (final.symbol id).isLabel = (program.symbol id).isLabel := by
  have hsame := congrArg Symbol.isLabel (h.symbol hid).2
  exact hsame

theorem trans (first : program.Enlarges middle) (second : middle.Enlarges final) :
    program.Enlarges final where
  symbol h := by
    obtain ⟨hmiddle, hsame⟩ := first.symbol h
    obtain ⟨hfinal, hsame'⟩ := second.symbol hmiddle
    exact ⟨hfinal, hsame'.trans hsame⟩
  type {id} h := by
    obtain ⟨hmiddle, hfirst⟩ := first.type h
    obtain ⟨hfinal, hsecond⟩ := second.type hmiddle
    refine ⟨hfinal, ?_⟩
    rcases hfirst with hsame | ⟨reference, hnone, hnew, hhas, hkind, hsame⟩
    · rw [hsame] at hsecond
      rcases hsecond with hsecond | ⟨reference, hnone, hnew, hrest⟩
      · exact .inl hsecond
      · exact .inr ⟨reference, hnone, fun hold ↦ hnew (first.type hold).1, hrest⟩
    · -- A reference type that was recorded is not replaced.
      refine .inr ⟨reference, hnone, hnew, (second.type hhas).1,
        (second.kind_type hhas).trans hkind, ?_⟩
      rcases hsecond with hsecond | ⟨_, hnone', _⟩
      · exact hsecond.trans hsame
      · rw [hsame] at hnone'
        cases hnone'
  slot := second.slot ∘ first.slot

/-- An update of the statements or the functions leaves the other arenas alone. -/
theorem of_eq (hsymbols : final.symbols = program.symbols) (htypes : final.types = program.types)
    (htable : final.table = program.table) : program.Enlarges final where
  symbol {id} h := by
    simpa [HasSymbol, Program.symbol, hsymbols] using h
  type {id} h := by
    refine ⟨by simpa [HasType, htypes] using h, .inl ?_⟩
    rw [Program.type, htypes, Program.type]
  slot h := htable ▸ h

theorem addSymbol (program : Program) (entry : Symbol) :
    program.Enlarges (program.addSymbol entry).2 where
  symbol {id} h := by
    constructor
    · simp only [HasSymbol, Program.addSymbol, Array.size_push] at h ⊢
      omega
    · simp only [Program.symbol, Program.addSymbol, Array.getD_eq_getD_getElem?,
        Array.getElem?_push, if_neg (Nat.ne_of_lt h)]
  type h := ⟨h, .inl rfl⟩
  slot h := h

theorem setOwner (program : Program) (id : SymId) (owner : FnId) :
    program.Enlarges (program.setOwner id owner) where
  symbol {other} h := by
    refine ⟨by simpa [HasSymbol, Program.setOwner, modifySymbol] using h, ?_⟩
    simp only [Program.symbol, Program.setOwner, modifySymbol, Array.getD_eq_getD_getElem?,
      Array.getElem?_modify]
    split
    · cases program.symbols[other.index]? <;> rfl
    · rfl
  type h := ⟨h, .inl rfl⟩
  slot h := h

theorem type_addType (program : Program) (definition : TypeDef) {id : TypeId}
    (h : program.HasType id) : (program.addType definition).2.HasType id ∧
      (program.addType definition).2.type id = program.type id := by
  constructor
  · simp only [HasType, Program.addType, Array.size_push] at h ⊢
    omega
  · simp only [Program.type, Program.addType, Array.getD_eq_getD_getElem?, Array.getElem?_push,
      if_neg (Nat.ne_of_lt h)]

theorem addType (program : Program) (definition : TypeDef) :
    program.Enlarges (program.addType definition).2 where
  symbol h := ⟨h, rfl⟩
  type h := ⟨(type_addType program definition h).1, .inl (type_addType program definition h).2⟩
  slot h := h

/-- A type gets a new reference type if it had none. -/
theorem refOf (program : Program) (id : TypeId) : program.Enlarges (program.refOf id).2 := by
  cases href : (program.type id).refType with
  | some existing =>
    simp only [Program.refOf, href]
    exact refl program
  | none =>
    simp only [Program.refOf, href]
    set definition : TypeDef :=
      { name := "_ref_" ++ (program.type id).name
        kind := .ref id
        flags := { refArgBundle := (program.type id).flags.argBundle } }
    refine ⟨fun h ↦ ⟨h, rfl⟩, fun {other} h ↦ ?_, fun h ↦ h⟩
    have hhas : ∀ {type}, ((program.addType definition).2.modifyType id
        fun target ↦ { target with refType := some (program.addType definition).1 }).HasType type ↔
          (program.addType definition).2.HasType type := by
      simp [HasType, modifyType]
    obtain ⟨hkept, hsame⟩ := type_addType program definition h
    refine ⟨hhas.mpr hkept, ?_⟩
    by_cases heq : other = id
    · subst heq
      have hnew : (program.addType definition).2.HasType (program.addType definition).1 := by
        simp [HasType, Program.addType]
      have hne : (program.addType definition).1 ≠ other := by
        intro heq
        rw [← heq] at h
        exact Nat.lt_irrefl _ h
      refine .inr ⟨(program.addType definition).1, href, Nat.lt_irrefl _, hhas.mpr hnew, ?_, ?_⟩
      · rw [type_modifyType, if_neg fun hand ↦ hne hand.1]
        simp [Program.type, Program.addType, definition]
      · rw [type_modifyType, if_pos ⟨rfl, hkept⟩, hsame]
    · exact .inl ((type_modifyType ..).trans ((if_neg fun hand ↦ heq hand.1).trans hsame))

/-- A function that is registered gets the next slot of the table. -/
theorem register (program : Program) (function : FnId) :
    program.Enlarges { program with table := (program.table.register function).2 } where
  symbol h := ⟨h, rfl⟩
  type h := ⟨h, .inl rfl⟩
  slot {slot} _ h := by
    have hlt : slot < program.table.size := by
      by_contra hout
      rw [FunctionTable.get?, Array.getElem?_eq_none (Nat.not_lt.mp hout)] at h
      cases h
    exact (program.table.get?_register_of_lt function hlt).trans h

end Enlarges

end Program

/-- The statements that may not be touched in a program. -/
structure LoopFrame where
  start : Program
  linked : start.WellLinked
  /-- The function that may get another body. -/
  home : FnId
  /-- The statements that stay in their places. -/
  kept : StmtId → Bool
  /-- The statements that stay as they are. -/
  fixed : StmtId → Prop
  /-- Functions that have been made since. -/
  made : List FnId
  has : ∀ {id}, kept id → start.Has id
  kept_of_fixed : ∀ {id}, fixed id → kept id
  kept_above : ∀ {id child}, child ∈ (start.kind id).children → kept child → kept id
  fixed_above : ∀ {id child}, child ∈ (start.kind id).children → fixed child → fixed id
  fixed_below : ∀ {id child}, child ∈ (start.kind id).children → fixed id → fixed child
  home_body : ¬ fixed (start.bodyOf home)
  made_new : ∀ {function}, function ∈ made → ¬ start.HasFunction function

namespace LoopFrame

variable {frame : LoopFrame} {program : Program} {id child : StmtId}

/-- Whether nothing that a frame names has been touched. -/
structure Holds (frame : LoopFrame) (program : Program) : Prop where
  has : ∀ {id}, frame.start.Has id → program.Has id
  stmt : ∀ {id}, frame.fixed id → program.stmt id = frame.start.stmt id
  parent : ∀ {id}, frame.kept id → program.parent id = frame.start.parent id
  content : ∀ {id}, frame.kept id → (frame.start.kind id).Resembles (program.kind id)
  members : ∀ {id}, frame.kept id → (program.kind id).children.filter frame.kept =
    (frame.start.kind id).children.filter frame.kept
  above : ∀ {id child}, child ∈ (program.kind id).children → frame.kept child → frame.kept id
  inside : ∀ {id outer}, program.parent id = some outer → frame.fixed outer → frame.fixed id
  owner : ∀ {id function}, (program.stmt id).bodyOf = some function →
    frame.start.HasFunction function → frame.kept (frame.start.bodyOf function) → frame.kept id
  function : ∀ {function}, frame.start.HasFunction function → program.HasFunction function ∧
    program.function function =
      { frame.start.function function with body := program.bodyOf function } ∧
    (frame.kept (frame.start.bodyOf function) →
      program.bodyOf function = frame.start.bodyOf function)
  body : ∀ {function}, program.HasFunction function →
    (frame.start.HasFunction function → ¬ frame.kept (frame.start.bodyOf function)) →
      ¬ frame.kept (program.bodyOf function)
  made : ∀ {function}, function ∈ frame.made → program.HasFunction function
  enlarges : frame.start.Enlarges program

/-- The frame with one more function that has been made. -/
def making (frame : LoopFrame) (function : FnId) (hnew : ¬ frame.start.HasFunction function) :
    LoopFrame :=
  { frame with
    made := function :: frame.made
    made_new := by
      intro other hother
      rcases List.mem_cons.mp hother with rfl | hother
      · exact hnew
      · exact frame.made_new hother }

theorem not_fixed (h : ¬ frame.kept id) : ¬ frame.fixed id := mt frame.kept_of_fixed h

/-- Whether no declaration of a symbol is kept, apart from fixed ones. -/
def Frees (frame : LoopFrame) (symbol : SymId) : Prop :=
  ∀ id, frame.kept id → ¬ frame.fixed id → (frame.start.kind id).defined? ≠ some symbol

/-- Whether a loop may be lowered under a frame: the loop is not kept, it stands in the function
that the frame leaves open, and declarations of its index may be moved. -/
structure Surrounds (frame : LoopFrame) (program : Program) (block : StmtId) : Prop where
  loop : ¬ frame.kept block
  home : frame.start.HasFunction frame.home
  owner : ∀ {owner}, program.enclosingFunction? block = some owner → owner = frame.home
  index : ∀ {index source}, (program.kind block).forHeader? = some (index, source) →
    frame.Frees index

namespace Holds

/-- Nothing has been touched at the start. -/
theorem refl (frame : LoopFrame) (hmade : frame.made = []) : frame.Holds frame.start where
  has h := h
  stmt _ := rfl
  parent _ := rfl
  content _ := .refl _
  members _ := rfl
  above := frame.kept_above
  inside h := frame.fixed_below (frame.linked.child_of_parent h)
  owner h _ hkept := (frame.linked.body_of_bodyOf h).2 ▸ hkept
  function h := ⟨h, rfl, fun _ ↦ rfl⟩
  body h hfree := hfree h
  made h := by
    rw [hmade] at h
    cases h
  enlarges := .refl _

/-- A frame may count in a function that is there and was not there at the start. -/
theorem making (h : frame.Holds program) {function : FnId}
    (hfunction : program.HasFunction function) (hnew : ¬ frame.start.HasFunction function) :
    (frame.making function hnew).Holds program :=
  { h with
    made := fun {other} hother ↦ by
      rcases List.mem_cons.mp hother with rfl | hother
      · exact hfunction
      · exact h.made hother }

theorem of_making {function : FnId} {hnew : ¬ frame.start.HasFunction function}
    (h : (frame.making function hnew).Holds program) : frame.Holds program :=
  { h with made := fun hother ↦ h.made (List.mem_cons_of_mem _ hother) }

/-! ### Statements that may be touched -/

theorem not_kept_of_new (h : frame.Holds program) (hnew : ¬ program.Has id) : ¬ frame.kept id :=
  fun hkept ↦ hnew (h.has (frame.has hkept))

theorem not_kept_of_child (h : frame.Holds program) (hid : ¬ frame.kept id)
    (hchild : child ∈ (program.kind id).children) : ¬ frame.kept child :=
  fun hkept ↦ hid (h.above hchild hkept)

/-- What a fixed statement is listed in is fixed, and lists nothing but fixed statements. -/
theorem fixed_of_child (h : frame.Holds program) (hchild : child ∈ (program.kind id).children)
    (hfixed : frame.fixed child) : frame.fixed id := by
  have hkept := frame.kept_of_fixed hfixed
  have hmem := List.mem_filter.mpr ⟨hchild, hkept⟩
  rw [h.members (h.above hchild hkept)] at hmem
  exact frame.fixed_above (List.mem_filter.mp hmem).1 hfixed

theorem not_fixed_of_child (h : frame.Holds program) (hid : ¬ frame.fixed id)
    (hchild : child ∈ (program.kind id).children) : ¬ frame.fixed child :=
  fun hfixed ↦ hid (h.fixed_of_child hchild hfixed)

theorem not_fixed_of_parent (h : frame.Holds program) {outer : StmtId} (hid : ¬ frame.fixed id)
    (hparent : program.parent id = some outer) : ¬ frame.fixed outer :=
  fun hfixed ↦ hid (h.inside hparent hfixed)

/-- A property that is handed down to children holds everywhere in a preorder. -/
theorem forall_mem_preorder {motive : StmtId → Prop} {root : StmtId} {depth : Nat}
    (hroot : motive root)
    (hchild : ∀ {id child}, motive id → child ∈ (program.kind id).children → motive child)
    (hid : id ∈ program.preorder depth root) : motive id := by
  induction depth generalizing root with
  | zero => exact List.mem_singleton.mp hid ▸ hroot
  | succ depth ih =>
    rcases List.mem_cons.mp hid with rfl | hid
    · exact hroot
    · obtain ⟨child, hmem, hid⟩ := List.mem_flatMap.mp hid
      exact ih (hchild hroot hmem) hid

theorem not_kept_of_mem_preorder (h : frame.Holds program) {root : StmtId} {depth : Nat}
    (hroot : ¬ frame.kept root) (hid : id ∈ program.preorder depth root) : ¬ frame.kept id :=
  forall_mem_preorder (motive := fun id ↦ ¬ frame.kept id) hroot h.not_kept_of_child hid

theorem not_kept_of_mem_walk (h : frame.Holds program) {root : StmtId} (hroot : ¬ frame.kept root)
    (hid : id ∈ program.walk root) : ¬ frame.kept id :=
  h.not_kept_of_mem_preorder hroot hid

theorem not_fixed_of_mem_walk (h : frame.Holds program) {root : StmtId}
    (hroot : ¬ frame.fixed root) (hid : id ∈ program.walk root) : ¬ frame.fixed id :=
  forall_mem_preorder hroot h.not_fixed_of_child hid

theorem not_fixed_of_mem_upwards (h : frame.Holds program) {levels : Nat} {outer : StmtId}
    (hid : ¬ frame.fixed id) (houter : outer ∈ program.upwards levels id) :
    ¬ frame.fixed outer := by
  induction levels generalizing id with
  | zero => exact List.mem_singleton.mp houter ▸ hid
  | succ levels ih =>
    unfold Program.upwards at houter
    split at houter
    · rename_i parent hparent
      rcases List.mem_cons.mp houter with rfl | houter
      · exact hid
      · exact ih (h.not_fixed_of_parent hid hparent) houter
    · exact List.mem_singleton.mp houter ▸ hid

/-- The body of a function that was made since the start is not kept. -/
theorem not_kept_body (h : frame.Holds program) {function : FnId} (hmade : function ∈ frame.made) :
    ¬ frame.kept (program.bodyOf function) :=
  h.body (h.made hmade) fun hold ↦ absurd hold (frame.made_new hmade)

/-- The body of the function that the frame leaves open is not fixed. -/
theorem not_fixed_body (h : frame.Holds program) (hhome : frame.start.HasFunction frame.home) :
    ¬ frame.fixed (program.bodyOf frame.home) := by
  obtain ⟨hfunction, _, hbody⟩ := h.function hhome
  by_cases hkept : frame.kept (frame.start.bodyOf frame.home)
  · rw [hbody hkept]
    exact frame.home_body
  · exact frame.not_fixed (h.body hfunction fun _ ↦ hkept)

/-- A declaration of a freed symbol that is found in that function may be moved. -/
theorem not_kept_of_findDefinition (h : frame.Holds program)
    (hhome : frame.start.HasFunction frame.home) {symbol : SymId} (hfrees : frame.Frees symbol)
    {declaration : StmtId}
    (hfound : program.findDefinition? (program.bodyOf frame.home) symbol = some declaration) :
    ¬ frame.kept declaration := by
  intro hkept
  have hfind := List.find?_some hfound
  have hdefined : (program.kind declaration).defined? = some symbol := beq_iff_eq.mp hfind
  have hfree : ¬ frame.fixed declaration :=
    h.not_fixed_of_mem_walk (h.not_fixed_body hhome) (List.mem_of_find?_eq_some hfound)
  exact hfrees declaration hkept hfree ((h.content hkept).defined?_eq.symm.trans hdefined)

/-! ### Statements -/

/-- A statement that is not fixed may get other members, as long as they are not kept, and if it is
not kept either, it may become any statement. -/
theorem setKind (h : frame.Holds program) (hfixed : ¬ frame.fixed id) {kind : StmtKind}
    (hcontent : frame.kept id → (program.kind id).Resembles kind)
    (hmembers : kind.children.filter frame.kept =
      (program.kind id).children.filter frame.kept) : frame.Holds (program.setKind id kind) where
  has hhas := (Program.has_setKind ..).mpr (h.has hhas)
  stmt {other} hother := by
    rw [Program.setKind, Program.stmt_modifyStmt, if_neg]
    · exact h.stmt hother
    · rintro ⟨rfl, -⟩
      exact hfixed hother
  parent hkept := (Program.parent_setKind ..).trans (h.parent hkept)
  content {other} hkept := by
    rw [Program.kind_setKind]
    split
    · rename_i hother
      rw [hother.1] at hkept ⊢
      exact (h.content hkept).trans (hcontent hkept)
    · exact h.content hkept
  members {other} hkept := by
    rw [Program.kind_setKind]
    split
    · rename_i hother
      rw [hother.1] at hkept ⊢
      exact hmembers.trans (h.members hkept)
    · exact h.members hkept
  above {other child} hchild hkept := by
    rw [Program.kind_setKind] at hchild
    split at hchild
    · rename_i hother
      have hmem := List.mem_filter.mpr ⟨hchild, hkept⟩
      rw [hmembers] at hmem
      exact hother.1 ▸ h.above (List.mem_filter.mp hmem).1 hkept
    · exact h.above hchild hkept
  inside hparent := h.inside ((Program.parent_setKind ..).symm.trans hparent)
  owner howner := h.owner ((Program.owner_setKind ..).symm.trans howner)
  function := h.function
  body := h.body
  made := h.made
  enlarges := h.enlarges.trans (.of_eq rfl rfl rfl)

/-- A statement that is not kept may get another parent that is not fixed. -/
theorem setParent (h : frame.Holds program) (hid : ¬ frame.kept id) {outer : Option StmtId}
    (houter : ∀ parent ∈ outer, ¬ frame.fixed parent) :
    frame.Holds (program.setParent id outer) where
  has hhas := (Program.has_setParent ..).mpr (h.has hhas)
  stmt {other} hother := by
    rw [Program.setParent, Program.stmt_modifyStmt, if_neg]
    · exact h.stmt hother
    · rintro ⟨rfl, -⟩
      exact frame.not_fixed hid hother
  parent {other} hkept := by
    rw [Program.parent_setParent, if_neg]
    · exact h.parent hkept
    · rintro ⟨rfl, -⟩
      exact hid hkept
  content hkept := (Program.kind_setParent program id _ outer).symm ▸ h.content hkept
  members hkept := (Program.kind_setParent program id _ outer).symm ▸ h.members hkept
  above hchild := h.above ((Program.kind_setParent program id _ outer) ▸ hchild)
  inside {other parent} hparent hfixed := by
    rw [Program.parent_setParent] at hparent
    split at hparent
    · exact absurd hfixed (houter parent hparent)
    · exact h.inside hparent hfixed
  owner howner := h.owner ((Program.owner_setParent ..).symm.trans howner)
  function := h.function
  body := h.body
  made := h.made
  enlarges := h.enlarges.trans (.of_eq rfl rfl rfl)

theorem adopt (h : frame.Holds program) {children : List StmtId}
    (hchildren : ∀ child ∈ children, ¬ frame.kept child) {outer : Option StmtId}
    (houter : ∀ parent ∈ outer, ¬ frame.fixed parent) :
    frame.Holds (program.adopt children outer) := by
  induction children generalizing program with
  | nil => exact h
  | cons child rest ih =>
    exact ih (h.setParent (hchildren child List.mem_cons_self) houter)
      fun other hother ↦ hchildren other (List.mem_cons_of_mem _ hother)

theorem ne_nextStmt (h : frame.Holds program) (hkept : frame.kept id) :
    id ≠ program.nextStmt := by
  rintro rfl
  exact h.not_kept_of_new program.not_has_nextStmt hkept

theorem pushStmt (h : frame.Holds program) {kind : StmtKind} {span : Span}
    (hchildren : ∀ child ∈ kind.children, ¬ frame.kept child) :
    frame.Holds (program.pushStmt kind span) := by
  have hold : ∀ {other}, frame.kept other →
      (program.pushStmt kind span).stmt other = program.stmt other := fun hkept ↦
    (Program.stmt_pushStmt ..).trans (if_neg (h.ne_nextStmt hkept))
  have hkind : ∀ {other}, frame.kept other →
      (program.pushStmt kind span).kind other = program.kind other := fun hkept ↦ by
    rw [Program.kind, hold hkept, Program.kind]
  refine ⟨fun hhas ↦ (Program.has_pushStmt ..).mpr (.inl (h.has hhas)),
    fun hfixed ↦ (hold (frame.kept_of_fixed hfixed)).trans (h.stmt hfixed), fun hkept ↦ ?_,
    fun hkept ↦ (hkind hkept).symm ▸ h.content hkept,
    fun hkept ↦ (hkind hkept).symm ▸ h.members hkept, fun {other child} hchild hkept ↦ ?_,
    fun {other parent} hparent hfixed ↦ ?_, fun {other function} howner ↦ ?_, h.function, h.body,
    h.made, h.enlarges.trans (.of_eq rfl rfl rfl)⟩
  · rw [Program.parent, hold hkept]
    exact h.parent hkept
  · rw [Program.kind, Program.stmt_pushStmt] at hchild
    split at hchild
    · exact absurd hkept (hchildren child hchild)
    · exact h.above hchild hkept
  · rw [Program.parent, Program.stmt_pushStmt] at hparent
    split at hparent
    · cases hparent
    · exact h.inside hparent hfixed
  · rw [Program.stmt_pushStmt] at howner
    split at howner
    · cases howner
    · exact h.owner howner

/-- A new statement may be made of statements that are not kept. -/
theorem newStmt (h : frame.Holds program) {kind : StmtKind} {span : Span}
    (hchildren : ∀ child ∈ kind.children, ¬ frame.kept child) :
    frame.Holds (program.newStmt kind span).2 := by
  have hnext : ¬ frame.kept program.nextStmt := h.not_kept_of_new program.not_has_nextStmt
  exact (h.pushStmt hchildren).adopt hchildren fun parent hparent ↦
    Option.some.inj hparent ▸ frame.not_fixed hnext

/-- A statement that is not fixed may become or no longer be the body of a function, but not of one
whose body is kept. -/
theorem setBodyOf (h : frame.Holds program) (hfixed : ¬ frame.fixed id) {owner : Option FnId}
    (howner : ∀ function ∈ owner, frame.start.HasFunction function →
      ¬ frame.kept (frame.start.bodyOf function)) : frame.Holds (program.setBodyOf id owner) where
  has hhas := (Program.has_setBodyOf ..).mpr (h.has hhas)
  stmt {other} hother := by
    rw [Program.setBodyOf, Program.stmt_modifyStmt, if_neg]
    · exact h.stmt hother
    · rintro ⟨rfl, -⟩
      exact hfixed hother
  parent hkept := (Program.parent_setBodyOf ..).trans (h.parent hkept)
  content hkept := (Program.kind_setBodyOf program id _ owner).symm ▸ h.content hkept
  members hkept := (Program.kind_setBodyOf program id _ owner).symm ▸ h.members hkept
  above hchild := h.above ((Program.kind_setBodyOf program id _ owner) ▸ hchild)
  inside hparent := h.inside ((Program.parent_setBodyOf ..).symm.trans hparent)
  owner {other function} hother hhas hkept := by
    rw [Program.owner_setBodyOf] at hother
    split at hother
    · exact absurd hkept (howner function hother hhas)
    · exact h.owner hother hhas hkept
  function := h.function
  body := h.body
  made := h.made
  enlarges := h.enlarges.trans (.of_eq rfl rfl rfl)

/-! ### Functions, symbols and types -/

/-- An update that leaves the statements and the functions alone. -/
theorem of_tables {final : Program} (h : frame.Holds program)
    (hstatements : final.statements = program.statements)
    (hfunctions : final.functions = program.functions) (henlarges : program.Enlarges final) :
    frame.Holds final := by
  have hstmt : ∀ id, final.stmt id = program.stmt id := fun id ↦ by
    rw [Program.stmt, hstatements, Program.stmt]
  have hkind : ∀ id, final.kind id = program.kind id := fun id ↦ by
    rw [Program.kind, hstmt, Program.kind]
  have hparent : ∀ id, final.parent id = program.parent id := fun id ↦ by
    rw [Program.parent, hstmt, Program.parent]
  have hfunction : ∀ id, final.function id = program.function id := fun id ↦ by
    rw [Program.function, hfunctions, Program.function]
  have hbody : ∀ id, final.bodyOf id = program.bodyOf id := fun id ↦ by
    rw [Program.bodyOf, hfunction, Program.bodyOf]
  have hhas : ∀ id, final.HasFunction id ↔ program.HasFunction id := fun id ↦ by
    rw [Program.HasFunction, hfunctions, Program.HasFunction]
  refine ⟨fun hid ↦ ?_, fun hid ↦ (hstmt _).trans (h.stmt hid),
    fun hid ↦ (hparent _).trans (h.parent hid), fun hid ↦ hkind _ ▸ h.content hid,
    fun hid ↦ hkind _ ▸ h.members hid, fun hchild ↦ h.above (hkind _ ▸ hchild),
    fun hid ↦ h.inside ((hparent _).symm.trans hid),
    fun howner ↦ h.owner (hstmt _ ▸ howner), fun hid ↦ ?_, fun hid hfree ↦ ?_,
    fun hmade ↦ (hhas _).mpr (h.made hmade), h.enlarges.trans henlarges⟩
  · simpa only [Program.Has, hstatements] using h.has hid
  · rw [hhas, hfunction, hbody]
    exact h.function hid
  · rw [hbody]
    exact h.body ((hhas _).mp hid) hfree

/-- A function whose body is not kept may get another body that is not kept, and a function that
was not there at the start may change in every other respect too. -/
theorem modifyFunction (h : frame.Holds program) {function : FnId} {change : FnDef → FnDef}
    (hfree : frame.start.HasFunction function → ¬ frame.kept (frame.start.bodyOf function) ∧
      ∀ definition, change definition = { definition with body := (change definition).body })
    (hbody : program.HasFunction function →
      ¬ frame.kept (change (program.function function)).body) :
    frame.Holds (program.modifyFunction function change) := by
  have hhas : ∀ id, (program.modifyFunction function change).HasFunction id ↔
      program.HasFunction id := fun id ↦ by simp [Program.HasFunction, Program.modifyFunction]
  refine ⟨h.has, h.stmt, h.parent, h.content, h.members, h.above, h.inside, h.owner,
    fun {id} hid ↦ ?_, fun {id} hid hkept ↦ ?_, fun hmade ↦ (hhas _).mpr (h.made hmade),
    h.enlarges.trans (.of_eq rfl rfl rfl)⟩
  · obtain ⟨hthere, hsame, hstays⟩ := h.function hid
    refine ⟨(hhas id).mpr hthere, ?_⟩
    rw [Program.bodyOf, Program.function_modifyFunction]
    split
    · rename_i heq
      obtain ⟨rfl, -⟩ := heq
      obtain ⟨hopen, hchange⟩ := hfree hid
      refine ⟨?_, fun hkept ↦ absurd hkept hopen⟩
      rw [hchange, hsame]
    · exact ⟨hsame, hstays⟩
  · rw [Program.bodyOf, Program.function_modifyFunction]
    split
    · rename_i heq
      obtain ⟨rfl, hthere⟩ := heq
      exact hbody hthere
    · exact h.body ((hhas id).mp hid) hkept

/-- A function may be made whose body is not kept. -/
theorem withFunction (h : frame.Holds program) {definition : FnDef}
    (hbody : ¬ frame.kept definition.body) : frame.Holds (program.withFunction definition) := by
  have hnew : ∀ {id}, frame.start.HasFunction id → id ≠ ⟨program.functions.size⟩ := by
    rintro _ hid rfl
    exact Nat.lt_irrefl _ (h.function hid).1
  have hgrows : ∀ {id}, program.HasFunction id →
      (program.withFunction definition).HasFunction id := fun hid ↦ by
    rw [Program.HasFunction, Program.size_functions_withFunction]
    exact Nat.lt_succ_of_lt hid
  have howned : frame.Holds (program.setBodyOf definition.body (some ⟨program.functions.size⟩)) :=
    h.setBodyOf (frame.not_fixed hbody) fun function hmem hold ↦
      absurd (Option.some.inj hmem).symm (hnew hold)
  refine ⟨howned.has, howned.stmt, howned.parent, howned.content, howned.members, howned.above,
    howned.inside, howned.owner, fun {id} hid ↦ ?_, fun {id} hid hkept ↦ ?_,
    fun hmade ↦ hgrows (h.made hmade), howned.enlarges.trans (.of_eq rfl rfl rfl)⟩
  · rw [Program.bodyOf, Program.function_withFunction, if_neg (hnew hid)]
    exact ⟨hgrows (h.function hid).1, (h.function hid).2⟩
  · rw [Program.HasFunction, Program.size_functions_withFunction] at hid
    rw [Program.bodyOf_withFunction]
    obtain ⟨hlt, hne⟩ | rfl := Program.ne_or_eq_of_lt_succ hid
    · rw [if_neg hne]
      exact h.body hlt hkept
    · rw [if_pos rfl]
      exact hbody

end Holds

end LoopFrame

end IteratorLowering
