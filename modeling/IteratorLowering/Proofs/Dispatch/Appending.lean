import IteratorLowering.Proofs.Dispatch.Emission

/-!
# Emitters in sequence

An emitter appends a list of statements to a block, and the list has a shape in every later program
that leaves it alone (`Appends`). Emitters in sequence append the concatenation of what each of them
appends (`Appends.bind`), so that the shape of a longer list is read off from the shapes of its
parts. A loop appends one part for each of its items (`Appends.forM`), and what is written to the
branch of a conditional is described in the same way (`appends_openIf`).
-/

set_option autoImplicit false
set_option relaxedAutoImplicit false

namespace IteratorLowering

open Program

section

variable {m : Type → Type} [Monad m] [MonadStateOf Program m] [Runs m Program] {α β : Type}

/-- A computation appends statements to a block. Its result has a property when it is done, and the
statements have a shape in all programs that leave them alone. -/
structure Appends (block : StmtId) (program : Program) (computation : m α)
    (left : α → Program → Prop) (shape : α → Program → List StmtId → Prop) : Prop where
  emits : ∀ {body}, program.kind block = .plain body →
    Ensures computation program (program.Emits block) fun value final ↦ left value final ∧
      ∃ ids, final.kind block = .plain (body ++ ids) ∧
        ∀ {lowered}, final.Spares (fun id ↦ ¬ program.Has id) lowered → shape value lowered ids

variable {block : StmtId} {program : Program} {first : m α} {rest : α → m β}
variable {left : α → Program → Prop} {left' : β → Program → Prop}
variable {shape shape' : α → Program → List StmtId → Prop} {goal : β → Program → List StmtId → Prop}

namespace Appends

theorem mono (h : Appends block program first left shape)
    (hshape : ∀ value lowered ids, shape value lowered ids → shape' value lowered ids) :
    Appends block program first left shape' where
  emits hblock := (h.emits hblock).mono (fun _ h ↦ h) fun value _ _ ⟨hleft, ids, hids, hspares⟩ ↦
    ⟨hleft, ids, hids, fun h ↦ hshape value _ ids (hspares h)⟩

theorem pure {value : α} (hleft : left value program)
    (hshape : ∀ lowered, program.Spares (fun id ↦ ¬ program.Has id) lowered →
      shape value lowered []) :
    Appends block program (Pure.pure value : m α) left shape where
  emits hblock := .stay ⟨hleft, [], by rw [List.append_nil, hblock], fun h ↦ hshape _ h⟩

/-- What the second part appends comes after what the first part appends. -/
theorem bind (h : Appends block program first left shape)
    (hrest : ∀ value middle, program.Emits block middle → left value middle →
      Appends block middle (rest value) left'
        fun result lowered ids' ↦ ∀ ids, shape value lowered ids →
          goal result lowered (ids ++ ids')) :
    Appends block program (first >>= rest) left' goal := by
  refine ⟨fun hblock ↦ ?_⟩
  have hhas := has_of_kind_block hblock
  refine Ensures.seq (h.emits hblock) fun value middle hfirst ⟨hleft, ids, hids, hshape⟩ ↦ ?_
  refine ((hrest value middle hfirst hleft).emits hids).tagged.mono (fun _ h ↦ h) ?_
  rintro result final - ⟨hsecond, hleft', ids', hids', hgoal⟩
  refine ⟨hleft', ids ++ ids', by rw [hids', List.append_assoc], fun hspares ↦ ?_⟩
  refine hgoal (hspares.mono (mt fun h ↦ (hfirst.kind h).1)) ids (hshape ?_)
  exact hsecond.spares_new hspares (fun h ↦ h) (.inl hhas)

theorem get_bind {rest : Program → m β} (h : Appends block program (rest program) left' goal) :
    Appends block program (get >>= rest) left' goal :=
  ⟨fun hblock ↦ ensures_get_bind.mpr (h.emits hblock)⟩

/-- A computation that only looks appends nothing. -/
theorem of_looks {found : α → Prop}
    (h : Ensures first program (Eq program) fun value _ ↦ found value)
    (hrest : ∀ value, found value → Appends block program (rest value) left' goal) :
    Appends block program (first >>= rest) left' goal where
  emits hblock := by
    refine Ensures.seq (h.tagged.mono (fun _ hsame ↦ hsame ▸ .refl block program) fun _ _ _ h ↦ h)
      fun value _ _ hfound ↦ ?_
    obtain ⟨rfl, hfound⟩ := hfound
    exact (hrest value hfound).emits hblock

/-- An emitter is one of passes as well. -/
theorem build {computation : Build α} {left : α → Program → Prop}
    {shape : α → Program → List StmtId → Prop} (h : Appends block program computation left shape) :
    Appends block program (liftM computation : Pass α) left shape :=
  ⟨fun hblock ↦ (h.emits hblock).build⟩

/-- A loop appends one part for each item. -/
theorem forM {items : List β} {step : β → m PUnit} {part : β → Program → List StmtId → Prop}
    (hstep : ∀ item ∈ items, ∀ middle, program.Emits block middle →
      Appends block middle (step item) (fun _ _ ↦ True) fun _ lowered ids ↦ part item lowered ids) :
    Appends block program (items.forM step) (fun _ _ ↦ True) fun _ lowered ids ↦
      ∃ parts : List (List StmtId), ids = parts.flatten ∧
        List.Forall₂ (fun item ids ↦ part item lowered ids) items parts := by
  induction items generalizing program with
  | nil => exact .pure trivial fun _ _ ↦ ⟨[], rfl, .nil⟩
  | cons item rest ih =>
    refine (hstep item List.mem_cons_self program (.refl block program)).bind
      fun _ middle hfirst _ ↦ ?_
    refine (ih fun other hother final hsecond ↦ hstep other (List.mem_cons_of_mem _ hother) final
      (hfirst.inside hsecond (.inr rfl))).mono ?_
    rintro _ lowered _ ⟨parts, rfl, hparts⟩ ids hids
    exact ⟨ids :: parts, rfl, .cons hids hparts⟩

end Appends

end

/-! ### Emitters -/

variable {cursor : Cursor} {program : Program}

theorem appends_emit {kind : StmtKind} :
    Appends cursor.block program (cursor.emit kind) (fun _ _ ↦ True) fun id lowered ids ↦
      ids = [id] ∧ lowered.kind id = kind where
  emits hblock := (Cursor.places_emit hblock).mono (fun _ h ↦ h) fun id _ _ hid ↦
    ⟨trivial, [id], hid.block, fun hspares ↦ ⟨rfl, hid.kind_of_spares hspares⟩⟩

/-- The declaration of a new variable. -/
structure Program.DeclaresNew (program lowered : Program) (type : TypeId) (symbol : SymId)
    (ids : List StmtId) : Prop where
  temporary : program.Temporary lowered symbol
  type : lowered.symbolType symbol = type
  declare : ∃ id, ids = [id] ∧ lowered.kind id = .action (.define symbol)

theorem appends_fresh {name : String} {type : TypeId} :
    Appends cursor.block program (cursor.fresh name type)
      (fun symbol final ↦ final.HasSymbol symbol)
      fun symbol lowered ids ↦ program.DeclaresNew lowered type symbol ids where
  emits hblock := (Cursor.places_fresh hblock).mono (fun _ h ↦ h) fun _ _ _ ⟨hsymbol, id, hid⟩ ↦
    ⟨hsymbol.has, [id], hid.block, fun hspares ↦
      ⟨hsymbol.temporary hspares, (hspares.symbolType hsymbol.has).trans hsymbol.type, id, rfl,
        hid.kind_of_spares hspares⟩⟩

/-- A conditional without an else-branch, of which the branch is written to. -/
theorem appends_openIf {α : Type} {condition : Operand} {rest : StmtId → Build α}
    {shape : Program → List StmtId → Prop}
    (hrest : ∀ thenBlock middle, program.Emits cursor.block middle →
      Appends thenBlock middle (rest thenBlock) (fun _ _ ↦ True)
        fun _ lowered ids ↦ shape lowered ids) :
    Appends cursor.block program (cursor.openIf condition >>= rest) (fun _ _ ↦ True)
      fun _ lowered ids ↦ ∃ branch thenBlock thenIds, ids = [branch] ∧
        lowered.kind branch = .branch condition thenBlock none ∧
        lowered.kind thenBlock = .plain thenIds ∧ shape lowered thenIds := by
  refine ⟨fun hblock ↦ ?_⟩
  have hhas := has_of_kind_block hblock
  unfold Cursor.openIf
  simp only [bind_assoc, pure_bind]
  refine ensures_modifyGet_bind.mpr ?_
  rw [newStmt_fst]
  have hthen := Emits.newStmt cursor.block program (.plain []) cursor.span
  have hmade := program.kind_newStmt (.plain []) cursor.span
  have hthenHas := (program.has_newStmt (.plain []) cursor.span program.nextStmt).mpr (.inr rfl)
  have hne : cursor.block ≠ program.nextStmt := fun heq ↦ program.not_has_nextStmt (heq ▸ hhas)
  refine hthen.next (.inr rfl) (Cursor.places_emit (((hmade _).trans (if_neg hne)).trans hblock))
    fun branch second hsofar hsecond hbranch ↦ ?_
  have hempty : second.kind program.nextStmt = .plain [] :=
    ((hsecond.kind hthenHas).2 hne.symm).trans ((hmade _).trans (if_pos rfl))
  refine ((hrest _ second hsofar).emits hempty).tagged.mono
    (fun _ h ↦ hsofar.inside h (.inl program.not_has_nextStmt)) ?_
  rintro value final - ⟨hinner, -, thenIds, hthenIds, hshape⟩
  have hbranchNe : branch ≠ program.nextStmt := fun heq ↦ hbranch.new (heq ▸ hthenHas)
  refine ⟨trivial, [branch], ?_, fun hspares ↦ ⟨branch, program.nextStmt, thenIds, rfl, ?_, ?_,
    hshape (hspares.mono (mt fun h ↦ (hsofar.kind h).1))⟩⟩
  · rw [(hinner.kind (hsofar.kind hhas).1).2 hne, hbranch.block]
  · refine (hspares.kind (hinner.kind hbranch.has).1 fun h ↦ hbranch.new (hthen.kind h).1).trans ?_
    rw [(hinner.kind hbranch.has).2 hbranchNe, hbranch.kind]
  · rw [hspares.kind (has_of_kind_block hthenIds) program.not_has_nextStmt, hthenIds]
    rw [List.nil_append]

/-- A conditional with two branches, which are written to one after the other. -/
theorem appends_openIfElse {condition : Operand} {first second : StmtId → Build Unit}
    {thenShape elseShape : Program → List StmtId → Prop}
    (hfirst : ∀ thenBlock middle, program.Emits cursor.block middle →
      Appends thenBlock middle (first thenBlock) (fun _ _ ↦ True) fun _ lowered ids ↦
        thenShape lowered ids)
    (hsecond : ∀ elseBlock middle, program.Emits cursor.block middle →
      Appends elseBlock middle (second elseBlock) (fun _ _ ↦ True) fun _ lowered ids ↦
        elseShape lowered ids) :
    Appends cursor.block program
      (do
        let branches ← cursor.openIfElse condition
        first branches.1
        second branches.2)
      (fun _ _ ↦ True)
      fun _ lowered ids ↦ ∃ branch thenBlock elseBlock thenIds elseIds, ids = [branch] ∧
        lowered.kind branch = .branch condition thenBlock (some elseBlock) ∧
        lowered.kind thenBlock = .plain thenIds ∧ lowered.kind elseBlock = .plain elseIds ∧
        thenShape lowered thenIds ∧ elseShape lowered elseIds := by
  refine ⟨fun hblock ↦ ?_⟩
  have hhas := has_of_kind_block hblock
  refine (Emits.refl cursor.block program).next (.inr rfl) (Cursor.places_openIfElse hblock) ?_
  rintro ⟨thenBlock, elseBlock⟩ opened hopened - ⟨hbranches, branch, hbranch⟩
  dsimp only at hbranches hbranch ⊢
  have hthenHas := has_of_kind_block hbranches.thenBlock
  have helseHas := has_of_kind_block hbranches.elseBlock
  refine hopened.next (.inl hbranches.newThen)
    ((hfirst thenBlock opened hopened).emits hbranches.thenBlock) ?_
  rintro _ middle hmiddle hthen ⟨-, thenIds, hthenIds, hthenShape⟩
  have hempty : middle.kind elseBlock = .plain [] :=
    ((hthen.kind helseHas).2 hbranches.distinct.symm).trans hbranches.elseBlock
  refine ((hsecond elseBlock middle hmiddle).emits hempty).tagged.mono
    (fun _ h ↦ hmiddle.inside h (.inl hbranches.newElse)) ?_
  rintro _ final - ⟨helse, -, elseIds, helseIds, helseShape⟩
  have hkept {id : StmtId} (hid : opened.Has id) (hneThen : id ≠ thenBlock)
      (hneElse : id ≠ elseBlock) : final.kind id = opened.kind id :=
    ((helse.kind (hthen.kind hid).1).2 hneElse).trans ((hthen.kind hid).2 hneThen)
  refine ⟨trivial, [branch], ?_, fun hspares ↦ ⟨branch, thenBlock, elseBlock, thenIds, elseIds, rfl,
    ?_, ?_, ?_, hthenShape (helse.spares hspares fun _ hnew ↦ ⟨?_, ?_⟩),
    helseShape (hspares.mono ?_)⟩⟩
  · rw [hkept (hopened.kind hhas).1 (fun heq ↦ hbranches.newThen (heq ▸ hhas))
      (fun heq ↦ hbranches.newElse (heq ▸ hhas)), hbranch.block]
  · refine (hspares.kind (helse.kind (hthen.kind hbranch.has).1).1 hbranch.new).trans
      ((hkept hbranch.has ?_ ?_).trans hbranch.kind)
    · rintro rfl
      cases hbranches.thenBlock.symm.trans hbranch.kind
    · rintro rfl
      cases hbranches.elseBlock.symm.trans hbranch.kind
  · have hthenMiddle := has_of_kind_block hthenIds
    refine (hspares.kind (helse.kind hthenMiddle).1 hbranches.newThen).trans ?_
    rw [(helse.kind hthenMiddle).2 hbranches.distinct, hthenIds, List.nil_append]
  · rw [hspares.kind (has_of_kind_block helseIds) hbranches.newElse, helseIds, List.nil_append]
  · rintro rfl
    exact hnew helseHas
  · exact mt (fun h ↦ (hopened.kind h).1) hnew
  · exact mt fun h ↦ (hmiddle.kind h).1

end IteratorLowering
