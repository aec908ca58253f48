import IteratorLowering.Proofs.Passes.Headers

/-!
# What emitters leave behind

An emitter appends one statement to the block of its cursor. All other statements that were there,
the types, the functions, the symbols and the registered routines stay as they are
(`Program.Emits`), and the block has one member more (`Program.Places`). A block that was made by
the emitter itself may be written to as well (`Program.Emits.inside`), so the relation covers
emitters that nest.

What was emitted may be moved about later, into blocks that are changed for it (`Program.Extends`).
`Program.Spares` says which later changes a given set of statements does not notice.
-/

set_option autoImplicit false
set_option relaxedAutoImplicit false

namespace IteratorLowering

namespace Program

/-- Some statements and what they are read against are the same in a later program. -/
structure Spares (fixed : StmtId → Prop) (program final : Program) : Prop where
  types : final.types = program.types
  retType : ∀ id, (final.function id).retType = (program.function id).retType
  symbol : ∀ {id}, program.HasSymbol id → final.symbol id = program.symbol id
  kind : ∀ {id}, program.Has id → fixed id → final.kind id = program.kind id

/-- Whatever else is emitted, only a block of the program has changed. -/
structure Emits (block : StmtId) (program final : Program) : Prop where
  types : final.types = program.types
  functions : final.functions = program.functions
  autoCopy : final.autoCopy = program.autoCopy
  autoDestroy : final.autoDestroy = program.autoDestroy
  symbol : ∀ {id}, program.HasSymbol id →
    final.HasSymbol id ∧ final.symbol id = program.symbol id
  kind : ∀ {id}, program.Has id → final.Has id ∧
    (id ≠ block → final.kind id = program.kind id)

/-- Whatever else was made, only some blocks of the program have changed. -/
structure Extends (blocks : List StmtId) (program final : Program) : Prop where
  types : final.types = program.types
  functions : final.functions = program.functions
  autoCopy : final.autoCopy = program.autoCopy
  autoDestroy : final.autoDestroy = program.autoDestroy
  symbol : ∀ {id}, program.HasSymbol id →
    final.HasSymbol id ∧ final.symbol id = program.symbol id
  kind : ∀ {id}, program.Has id → final.Has id ∧
    (id ∉ blocks → final.kind id = program.kind id)

theorem Spares.refl (fixed : StmtId → Prop) (program : Program) : program.Spares fixed program :=
  ⟨rfl, fun _ ↦ rfl, fun _ ↦ rfl, fun _ _ ↦ rfl⟩

/-- A statement is new and stands at the end of a block. -/
structure Places (program final : Program) (block : StmtId) (body : List StmtId) (kind : StmtKind)
    (id : StmtId) : Prop where
  new : ¬ program.Has id
  has : final.Has id
  kind : final.kind id = kind
  block : final.kind block = .plain (body ++ [id])

/-- A symbol is new and stands for a variable of a type. -/
structure Introduces (program final : Program) (type : TypeId) (symbol : SymId) : Prop where
  new : ¬ program.HasSymbol symbol
  has : final.HasSymbol symbol
  type : final.symbolType symbol = type
  notLabel : (final.symbol symbol).isLabel = false

namespace Extends

variable {program middle final : Program} {blocks blocks' : List StmtId}

theorem refl (program : Program) : program.Extends [] program :=
  ⟨rfl, rfl, rfl, rfl, fun h ↦ ⟨h, rfl⟩, fun h ↦ ⟨h, fun _ ↦ rfl⟩⟩

theorem trans (first : program.Extends blocks middle) (second : middle.Extends blocks' final) :
    program.Extends (blocks ++ blocks') final where
  types := second.types.trans first.types
  functions := second.functions.trans first.functions
  autoCopy := second.autoCopy.trans first.autoCopy
  autoDestroy := second.autoDestroy.trans first.autoDestroy
  symbol h := by
    obtain ⟨hmiddle, hsame⟩ := first.symbol h
    obtain ⟨hfinal, hsame'⟩ := second.symbol hmiddle
    exact ⟨hfinal, hsame'.trans hsame⟩
  kind {id} h := by
    obtain ⟨hmiddle, hsame⟩ := first.kind h
    obtain ⟨hfinal, hsame'⟩ := second.kind hmiddle
    refine ⟨hfinal, fun hnot ↦ ?_⟩
    rw [List.mem_append, not_or] at hnot
    exact (hsame' hnot.2).trans (hsame hnot.1)

/-- Blocks that the program does not have need not be named. -/
theorem restrict (h : program.Extends blocks final)
    (hsub : ∀ id ∈ blocks, program.Has id → id ∈ blocks') : program.Extends blocks' final :=
  { h with kind := fun hid ↦ ⟨(h.kind hid).1, fun hnot ↦
      (h.kind hid).2 fun hmem ↦ hnot (hsub _ hmem hid)⟩ }

theorem function (h : program.Extends blocks final) (id : FnId) :
    final.function id = program.function id := by
  rw [Program.function, Program.function, h.functions]

theorem type (h : program.Extends blocks final) (id : TypeId) :
    final.type id = program.type id := by
  rw [Program.type, Program.type, h.types]

theorem bodyOf (h : program.Extends blocks final) (id : FnId) :
    final.bodyOf id = program.bodyOf id := by
  rw [Program.bodyOf, Program.bodyOf, h.function]

end Extends

theorem Emits.extends {block : StmtId} {program final : Program} (h : program.Emits block final) :
    program.Extends [block] final :=
  ⟨h.types, h.functions, h.autoCopy, h.autoDestroy, h.symbol, fun hid ↦
    ⟨(h.kind hid).1, fun hnot ↦ (h.kind hid).2 fun heq ↦ hnot (List.mem_singleton.mpr heq)⟩⟩

namespace Emits

variable {block inner : StmtId} {program middle final : Program}

theorem refl (block : StmtId) (program : Program) : program.Emits block program :=
  ⟨rfl, rfl, rfl, rfl, fun h ↦ ⟨h, rfl⟩, fun h ↦ ⟨h, fun _ ↦ rfl⟩⟩

/-- A block that the first emitter made may be written to by the second. -/
theorem inside (first : program.Emits block middle) (second : middle.Emits inner final)
    (hinner : ¬ program.Has inner ∨ inner = block) : program.Emits block final where
  types := second.types.trans first.types
  functions := second.functions.trans first.functions
  autoCopy := second.autoCopy.trans first.autoCopy
  autoDestroy := second.autoDestroy.trans first.autoDestroy
  symbol h := by
    obtain ⟨hmiddle, hsame⟩ := first.symbol h
    obtain ⟨hfinal, hsame'⟩ := second.symbol hmiddle
    exact ⟨hfinal, hsame'.trans hsame⟩
  kind {id} h := by
    obtain ⟨hmiddle, hsame⟩ := first.kind h
    obtain ⟨hfinal, hsame'⟩ := second.kind hmiddle
    refine ⟨hfinal, fun hne ↦ (hsame' ?_).trans (hsame hne)⟩
    rintro rfl
    exact hinner.elim (fun hnot ↦ hnot h) hne

instance (block : StmtId) : IsPreorder Program (Emits block) where
  refl := refl block
  trans _ _ _ first second := first.inside second (.inr rfl)

theorem addSymbol (block : StmtId) (program : Program) (entry : Symbol) :
    program.Emits block (program.addSymbol entry).2 where
  types := rfl
  functions := rfl
  autoCopy := rfl
  autoDestroy := rfl
  symbol {id} h := by
    have hlt : id.index < program.symbols.size := h
    refine ⟨((Declares.addSymbol program entry).symbol h).1, ?_⟩
    simp only [Program.symbol, Program.addSymbol, Array.getD_eq_getD_getElem?,
      Array.getElem?_push_lt hlt, Array.getElem?_eq_getElem hlt]
  kind h := ⟨h, fun _ ↦ rfl⟩

theorem newStmt (block : StmtId) (program : Program) (kind : StmtKind) (span : Span) :
    program.Emits block (program.newStmt kind span).2 := by
  obtain ⟨statements, harenas⟩ := program.newStmt_arenas kind span
  refine ⟨by rw [harenas], by rw [harenas], by rw [harenas], by rw [harenas], fun h ↦ ?_,
    fun {id} h ↦ ⟨?_, fun _ ↦ ?_⟩⟩
  · rw [harenas]
    exact ⟨h, rfl⟩
  · exact (program.has_newStmt kind span id).mpr (.inl h)
  · rw [kind_newStmt, if_neg]
    rintro rfl
    exact program.not_has_nextStmt h

theorem appendMember (block : StmtId) (program : Program) (new : StmtId) :
    program.Emits block (program.appendMember block new) := by
  unfold Program.appendMember
  split
  next info body _ =>
    refine ⟨rfl, rfl, rfl, rfl, fun h ↦ ⟨h, rfl⟩, fun {id} h ↦ ⟨by simpa using h, fun hne ↦ ?_⟩⟩
    rw [kind_setParent, kind_setKind, if_neg fun hand ↦ hne hand.1]
  next => exact refl block program
  next => exact refl block program

theorem function (h : program.Emits block final) (id : FnId) :
    final.function id = program.function id :=
  h.extends.function id

theorem symbolType (h : program.Emits block final) {symbol : SymId}
    (hsymbol : program.HasSymbol symbol) : final.symbolType symbol = program.symbolType symbol :=
  congrArg Symbol.type (h.symbol hsymbol).2

/-- What is emitted into a block that was made before, or into the same block. -/
theorem next {m : Type → Type} [Monad m] [MonadStateOf Program m] [Runs m Program] {α β : Type}
    {first : m α} {rest : α → m β} {result : α → Program → Prop} {last : β → Program → Prop}
    (hsofar : program.Emits block middle) (hinner : ¬ program.Has inner ∨ inner = block)
    (h : Ensures first middle (middle.Emits inner) result)
    (hrest : ∀ value final, program.Emits block final → middle.Emits inner final →
      result value final → Ensures (rest value) final (program.Emits block) last) :
    Ensures (first >>= rest) middle (program.Emits block) last := by
  have hfirst : Ensures first middle (program.Emits block) fun value final ↦
      middle.Emits inner final ∧ result value final :=
    h.tagged.mono (fun _ hstep ↦ hsofar.inside hstep hinner) fun _ _ _ hresult ↦ hresult
  exact hfirst.bind fun value final hall hresult ↦ hrest value final hall hresult.1 hresult.2

end Emits

theorem Introduces.keep {program middle final : Program} {block : StmtId} {type : TypeId}
    {symbol : SymId} (h : program.Introduces middle type symbol)
    (hemits : middle.Emits block final) : program.Introduces final type symbol where
  new := h.new
  has := (hemits.symbol h.has).1
  type := (hemits.symbolType h.has).trans h.type
  notLabel := by rw [(hemits.symbol h.has).2, h.notLabel]

theorem introduces_newLocal (program : Program) (owner : FnId) (name : String) (type : TypeId) :
    program.Introduces (program.newLocal owner name type).2 type
      (program.newLocal owner name type).1 where
  new := program.not_hasSymbol_addSymbol _
  has := program.hasSymbol_addSymbol _
  type := program.symbolType_addSymbol _
  notLabel := by
    simp only [Program.symbol, newLocal, Program.addSymbol, Array.getD_eq_getD_getElem?,
      Array.getElem?_push_size, Option.getD_some]
    rfl

/-! ### What later changes leave alone -/

section

variable {program program' middle final lowered : Program} {block : StmtId} {symbol : SymId}
variable {blocks : List StmtId}

/-- Statements that stay after other blocks were changed are seen from before that. -/
theorem Extends.spares {fixed fixed' : StmtId → Prop} (h : middle.Extends blocks final)
    (hspares : final.Spares fixed' lowered)
    (hfixed : ∀ {id}, middle.Has id → fixed id → id ∉ blocks ∧ fixed' id) :
    middle.Spares fixed lowered where
  types := hspares.types.trans h.types
  retType id := (hspares.retType id).trans (congrArg FnDef.retType (h.function id))
  symbol hid := (hspares.symbol (h.symbol hid).1).trans (h.symbol hid).2
  kind hid hfix := by
    obtain ⟨hnot, hfix'⟩ := hfixed hid hfix
    exact (hspares.kind (h.kind hid).1 hfix').trans ((h.kind hid).2 hnot)

/-- A variable of a later program that the program does not know. -/
structure Temporary (program lowered : Program) (symbol : SymId) : Prop where
  new : ¬ program.HasSymbol symbol
  notLabel : (lowered.symbol symbol).isLabel = false

theorem Temporary.mono (h : program'.Temporary lowered symbol)
    (hsub : ∀ {id}, program.HasSymbol id → program'.HasSymbol id) :
    program.Temporary lowered symbol :=
  ⟨fun hhas ↦ h.new (hsub hhas), h.notLabel⟩

/-- Statements that stay after a block was written to are seen from before that. -/
theorem Emits.spares {fixed fixed' : StmtId → Prop} (hemits : middle.Emits block final)
    (hspares : final.Spares fixed' lowered)
    (hfixed : ∀ {id}, middle.Has id → fixed id → id ≠ block ∧ fixed' id) :
    middle.Spares fixed lowered :=
  hemits.extends.spares hspares fun hhas hid ↦
    (hfixed hhas hid).imp (mt List.mem_singleton.mp) fun h ↦ h

/-- New statements stay, if the block that was written to is an old one or is made later. -/
theorem Emits.spares_new (hemits : middle.Emits block final)
    (hspares : final.Spares (fun id ↦ ¬ program.Has id) lowered)
    (hprogram : ∀ {id}, program.Has id → program'.Has id)
    (hblock : program'.Has block ∨ ¬ middle.Has block) :
    middle.Spares (fun id ↦ ¬ program'.Has id) lowered :=
  hemits.spares hspares fun hhas hnew ↦
    ⟨fun heq ↦ hblock.elim (heq ▸ hnew) fun hnot ↦ hnot (heq ▸ hhas), mt hprogram hnew⟩

theorem Spares.mono {fixed fixed' : StmtId → Prop} (h : program.Spares fixed lowered)
    (hsub : ∀ {id}, fixed' id → fixed id) : program.Spares fixed' lowered :=
  ⟨h.types, h.retType, h.symbol, fun hhas hfixed ↦ h.kind hhas (hsub hfixed)⟩

theorem Spares.symbolType {fixed : StmtId → Prop} (h : program.Spares fixed lowered)
    (hsymbol : program.HasSymbol symbol) :
    lowered.symbolType symbol = program.symbolType symbol :=
  congrArg Symbol.type (h.symbol hsymbol)

theorem Introduces.temporary {type : TypeId} {fixed : StmtId → Prop}
    (h : program.Introduces final type symbol) (hspares : final.Spares fixed lowered) :
    program.Temporary lowered symbol :=
  ⟨h.new, by rw [hspares.symbol h.has, h.notLabel]⟩

theorem Places.kind_of_spares {body : List StmtId} {kind : StmtKind} {id : StmtId}
    (h : program.Places final block body kind id)
    (hspares : final.Spares (fun id ↦ ¬ program.Has id) lowered) : lowered.kind id = kind :=
  (hspares.kind h.has h.new).trans h.kind

end

end Program

/-! ### The emitters -/

namespace Cursor

open Program

variable {program : Program} {cursor : Cursor} {body : List StmtId}

theorem places_emit {kind : StmtKind} (hblock : program.kind cursor.block = .plain body) :
    Ensures (cursor.emit kind) program (program.Emits cursor.block)
      fun id final ↦ program.Places final cursor.block body kind id := by
  unfold emit
  refine ensures_modifyGet_bind.mpr (ensures_modify_bind.mpr ?_)
  rw [newStmt_fst]
  have hhas := has_of_kind_block hblock
  have hne : cursor.block ≠ program.nextStmt := by
    intro heq
    exact program.not_has_nextStmt (heq ▸ hhas)
  have hmade := Emits.newStmt cursor.block program kind cursor.span
  have hkind := kind_newStmt program kind cursor.span
  have hblock' := ((hkind _).trans (if_neg hne)).trans hblock
  have happend := Emits.appendMember cursor.block (program.newStmt kind cursor.span).2
    program.nextStmt
  refine ensures_pure.mpr ⟨hmade.inside happend (.inr rfl), program.not_has_nextStmt, ?_, ?_, ?_⟩
  · exact (happend.kind ((program.has_newStmt ..).mpr (.inr rfl))).1
  · rw [(happend.kind ((program.has_newStmt ..).mpr (.inr rfl))).2 hne.symm, hkind, if_pos rfl]
  · unfold Program.appendMember
    rw [hblock']
    change Program.kind (Program.setParent _ _ _) _ = _
    rw [kind_setParent, kind_setKind, if_pos ⟨rfl, (hmade.kind hhas).1⟩]
    rfl

theorem places_fresh {name : String} {type : TypeId}
    (hblock : program.kind cursor.block = .plain body) :
    Ensures (cursor.fresh name type) program (program.Emits cursor.block) fun symbol final ↦
      program.Introduces final type symbol ∧
        ∃ id, program.Places final cursor.block body (.action (.define symbol)) id := by
  unfold fresh
  refine ensures_modifyGet_bind.mpr ?_
  refine Ensures.after (Emits.addSymbol cursor.block program _) ?_
  refine Ensures.seq (places_emit hblock) fun id middle hemits hid ↦ .stay ⟨?_, id, ?_⟩
  · exact (introduces_newLocal program cursor.function name type).keep hemits
  · exact ⟨hid.new, hid.has, hid.kind, hid.block⟩

/-- The branches of a conditional with two empty branches. -/
structure Branches (program final : Program) (branches : StmtId × StmtId) : Prop where
  newThen : ¬ program.Has branches.1
  newElse : ¬ program.Has branches.2
  distinct : branches.1 ≠ branches.2
  thenBlock : final.kind branches.1 = .plain []
  elseBlock : final.kind branches.2 = .plain []

theorem places_openIfElse {condition : Operand}
    (hblock : program.kind cursor.block = .plain body) :
    Ensures (cursor.openIfElse condition) program (program.Emits cursor.block)
      fun branches final ↦ Branches program final branches ∧ ∃ id, program.Places final cursor.block
        body (.branch condition branches.1 (some branches.2)) id := by
  unfold openIfElse
  refine ensures_modifyGet_bind.mpr (ensures_modifyGet_bind.mpr ?_)
  simp only [newStmt_fst]
  set first := (program.newStmt (.plain []) cursor.span).2 with hfirst
  set second := (first.newStmt (.plain []) cursor.span).2 with hsecond
  have hthen := Emits.newStmt cursor.block program (.plain []) cursor.span
  have helse := Emits.newStmt cursor.block first (.plain []) cursor.span
  have hmade : program.Emits cursor.block second := hthen.inside helse (.inr rfl)
  have hhas := has_of_kind_block hblock
  have hthenHas : first.Has program.nextStmt := (program.has_newStmt ..).mpr (.inr rfl)
  have helseHas : second.Has first.nextStmt := (first.has_newStmt ..).mpr (.inr rfl)
  have hne : program.nextStmt ≠ first.nextStmt := by
    intro heq
    exact first.not_has_nextStmt (heq ▸ hthenHas)
  have hnewElse : ¬ program.Has first.nextStmt := fun h ↦ first.not_has_nextStmt (hthen.kind h).1
  have hblockThen : cursor.block ≠ program.nextStmt :=
    fun heq ↦ program.not_has_nextStmt (heq ▸ hhas)
  have hblockElse : cursor.block ≠ first.nextStmt := fun heq ↦ hnewElse (heq ▸ hhas)
  have hblock' : second.kind cursor.block = .plain body := by
    rw [hsecond, kind_newStmt, if_neg hblockElse, hfirst, kind_newStmt, if_neg hblockThen, hblock]
  refine Ensures.after hmade (Ensures.seq (places_emit hblock') fun id final hemits hid ↦ .stay ?_)
  refine ⟨⟨program.not_has_nextStmt, hnewElse, hne, ?_, ?_⟩, id,
    ⟨fun h ↦ hid.new (hmade.kind h).1, hid.has, hid.kind, hid.block⟩⟩
  · rw [(hemits.kind (helse.kind hthenHas).1).2 hblockThen.symm, hsecond, kind_newStmt, if_neg hne,
      hfirst, kind_newStmt, if_pos rfl]
  · rw [(hemits.kind helseHas).2 hblockElse.symm, hsecond, kind_newStmt, if_pos rfl]

end Cursor

end IteratorLowering
