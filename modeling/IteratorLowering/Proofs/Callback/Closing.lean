import IteratorLowering.Proofs.Callback.FreeSymbols
import IteratorLowering.Proofs.Callback.Scratches
import IteratorLowering.Proofs.Frame.Invariant
import IteratorLowering.Proofs.Passes.Headers

/-!
# Closing a body over its captures

`closeBody` gives a function a formal for each symbol that its body captures. What is done for one
capture is a `Binding`: the formal, and the symbol that the body uses from then on, which is a new
local if the symbol is passed by reference. The bindings are made one after the other
(`ensures_bindCapture`), and since every one of them brings new symbols, no replacement touches what
an earlier one has put in (`Program.ClosesTo`).

In the end the loads stand before the old statements and the stores behind them, and the old
statements have changed in the captured symbols only (`Program.ClosesBody`). The body mentions no
captured symbol any more and captures nothing (`Program.ClosesBody.unmentioned`,
`Program.ClosesBody.closed`).
-/

set_option autoImplicit false
set_option relaxedAutoImplicit false

namespace IteratorLowering

/-! ### Bindings -/

/-- How a capture is passed: by a formal, and in the body by a symbol of its own. -/
structure Binding where
  capture : Capture
  formal : SymId
  /-- The symbol that the body uses, which is the formal if the capture is passed by value. -/
  inner : SymId

namespace Binding

/-- The symbols that are made for a binding. -/
def made (binding : Binding) : List SymId :=
  if binding.capture.byReference then [binding.formal, binding.inner] else [binding.formal]

/-- What is done before the body: a capture that is passed by reference is loaded. -/
def loads (binding : Binding) : List Action :=
  if binding.capture.byReference then
    [.define binding.inner, .assign binding.inner (.deref binding.formal)]
  else []

/-- What is done behind the body: a capture that is passed by reference is stored back. -/
def stores (binding : Binding) : List Action :=
  if binding.capture.byReference then [.store binding.formal (.sym binding.inner)] else []

/-- A capture that is passed by value is neither loaded nor stored. -/
theorem gather_eq_nil_of_byValue {bindings : List Binding}
    (h : ∀ binding ∈ bindings, binding.capture.byReference ≠ true) :
    bindings.flatMap loads = [] ∧ bindings.flatMap stores = [] := by
  constructor <;> refine List.flatMap_eq_nil_iff.mpr fun binding hbinding ↦ ?_
  · rw [loads, if_neg (h binding hbinding)]
  · rw [stores, if_neg (h binding hbinding)]

/-- What the bindings replace a symbol by. -/
def rename (bindings : List Binding) (symbol : SymId) : SymId :=
  ((bindings.find? fun binding ↦ binding.capture.symbol = symbol).map Binding.inner).getD symbol

variable {bindings : List Binding} {binding : Binding} {symbol : SymId}

theorem rename_of_not_captured
    (h : ∀ binding ∈ bindings, binding.capture.symbol ≠ symbol) :
    rename bindings symbol = symbol := by
  rw [rename, List.find?_eq_none.mpr fun binding hbinding ↦ by simpa using h binding hbinding]
  rfl

/-- A captured symbol is replaced by the symbol of one of its bindings. -/
theorem exists_rename_eq (h : binding ∈ bindings) :
    ∃ other ∈ bindings, other.capture.symbol = binding.capture.symbol ∧
      rename bindings binding.capture.symbol = other.inner := by
  cases hfound : bindings.find? fun other ↦ other.capture.symbol = binding.capture.symbol with
  | none => simpa using List.find?_eq_none.mp hfound binding h
  | some other =>
    refine ⟨other, List.mem_of_find?_eq_some hfound, by simpa using List.find?_some hfound, ?_⟩
    rw [rename, hfound]
    rfl

/-- One more replacement does not touch what the earlier ones have put in. -/
theorem rename_concat (h : ∀ other ∈ bindings, other.inner ≠ binding.capture.symbol) :
    rename (bindings ++ [binding]) =
      (fun symbol ↦ if symbol = binding.capture.symbol then binding.inner else symbol) ∘
        rename bindings := by
  funext symbol
  rw [Function.comp_apply, rename, List.find?_append]
  cases hfound : bindings.find? fun other ↦ other.capture.symbol = symbol with
  | some other =>
    have hother := h other (List.mem_of_find?_eq_some hfound)
    simp [rename, hfound, hother]
  | none =>
    have hself : rename bindings symbol = symbol := by rw [rename, hfound]; rfl
    rw [hself, Option.none_or, List.find?_singleton]
    by_cases heq : symbol = binding.capture.symbol
    · simp [heq]
    · simp [heq, Ne.symm heq]

end Binding

/-- How far a body has been closed: what its symbols have been replaced by, which formals the
function has got, and what has been gathered for the head and the tail of the body. -/
structure Progress where
  rename : SymId → SymId
  formals : List SymId
  loads : List Action
  stores : List Action

/-- How far a body is closed by some bindings. -/
def Progress.of (bindings : List Binding) : Progress where
  rename := Binding.rename bindings
  formals := bindings.map Binding.formal
  loads := bindings.flatMap Binding.loads
  stores := bindings.flatMap Binding.stores

/-- What has been done when one more capture is bound. -/
def Progress.bind (progress : Progress) (binding : Binding) : Progress where
  rename := (fun symbol ↦ if symbol = binding.capture.symbol then binding.inner else symbol) ∘
    progress.rename
  formals := progress.formals ++ [binding.formal]
  loads := progress.loads ++ binding.loads
  stores := progress.stores ++ binding.stores

theorem Progress.of_concat {bindings : List Binding} {binding : Binding}
    (h : ∀ other ∈ bindings, other.inner ≠ binding.capture.symbol) :
    Progress.of (bindings ++ [binding]) = (Progress.of bindings).bind binding := by
  simp [Progress.of, Progress.bind, Binding.rename_concat h]

namespace Program

variable {start program final : Program} {function : FnId} {entry exit id : StmtId}
variable {progress : Progress} {actions : List Action} {action : Action} {symbol : SymId}

/-! ### Walks that stay -/

/-- The walk of a function's body is the same where the statements have the same children. -/
theorem WellLinked.walk_body_eq (h : start.WellLinked) (hprogram : program.WellLinked)
    (hfunction : start.HasFunction function)
    (hsame : ∀ id ∈ start.functionStmts function,
      (program.kind id).children = (start.kind id).children)
    (hbody : program.parent (start.bodyOf function) = none)
    (hhas : program.Has (start.bodyOf function)) :
    program.walk (start.bodyOf function) = start.functionStmts function :=
  (hprogram.unfolds_walk (.root hbody) hhas).1.unique
    ((h.unfolds_functionStmts hfunction).1.congr hsame)

/-! ### Gathering statements -/

/-- A block that was made since the start holds new statements that do the given actions. -/
structure Gathers (start program : Program) (scratch : StmtId) (actions : List Action) : Prop where
  new : ¬ start.Has scratch
  members : ∃ members, program.kind scratch = .plain members ∧
    members.map program.kind = actions.map .action ∧ ∀ member ∈ members, ¬ start.Has member

namespace Gathers

variable {scratch other : StmtId} {members : List StmtId}

theorem isAction_of_mem (h : members.map program.kind = actions.map .action) {member : StmtId}
    (hmember : member ∈ members) : (program.kind member).isAction = true := by
  have haction : program.kind member ∈ actions.map StmtKind.action :=
    h ▸ List.mem_map_of_mem hmember
  obtain ⟨_, _, heq⟩ := List.mem_map.mp haction
  rw [← heq]
  rfl

/-- The gathered statements stay if no new action and no other block changes. -/
theorem congr (h : start.Gathers program scratch actions) (hlinked : program.WellLinked)
    (hkind : ∀ {id}, program.Has id → ¬ start.Has id →
      id = scratch ∨ (program.kind id).isAction = true → final.kind id = program.kind id) :
    start.Gathers final scratch actions := by
  obtain ⟨members, hscratch, hactions, hnew⟩ := h.members
  have hchild : ∀ member ∈ members, member ∈ (program.kind scratch).children :=
    fun member hmember ↦ by rwa [hscratch]
  refine ⟨h.new, members,
    (hkind (has_of_kind_block hscratch) h.new (.inl rfl)).trans hscratch, ?_, hnew⟩
  rw [← hactions]
  exact List.map_congr_left fun member hmember ↦
    hkind (hlinked.has_of_child (hchild member hmember)) (hnew member hmember)
      (.inr (isAction_of_mem hactions hmember))

theorem kind_of_putsAtEnd (hputs : program.PutsAtEnd other members action final)
    (hid : program.Has id) (hne : id ≠ other) : final.kind id = program.kind id := by
  rw [Program.kind, hputs.stmt hid hne, Program.kind]

/-- One more action goes to the end. -/
theorem putsAtEnd (h : start.Gathers program scratch actions)
    (hhas : ∀ {id}, start.Has id → program.Has id) (hlinked : program.WellLinked)
    (hscratch : program.kind scratch = .plain members)
    (hputs : program.PutsAtEnd scratch members action final) :
    start.Gathers final scratch (actions ++ [action]) := by
  obtain ⟨members', hscratch', hactions, hnew⟩ := h.members
  obtain rfl : members = members' := by
    simpa [StmtKind.plain] using hscratch.symm.trans hscratch'
  refine ⟨h.new, _, hputs.block, ?_, fun member hmember ↦ ?_⟩
  · rw [List.map_append, List.map_append, ← hactions]
    refine congrArg₂ _ (List.map_congr_left fun member hmember ↦ ?_)
      (congrArg (fun kind ↦ [kind]) hputs.new)
    have hchild : member ∈ (program.kind scratch).children := by rwa [hscratch]
    refine kind_of_putsAtEnd hputs (hlinked.has_of_child hchild) ?_
    rintro rfl
    have haction := isAction_of_mem hactions hmember
    rw [hscratch] at haction
    cases haction
  · rcases List.mem_append.mp hmember with hmember | hmember
    · exact hnew member hmember
    · rw [List.mem_singleton.mp hmember]
      exact fun hold ↦ program.not_has_nextStmt (hhas hold)

/-- What goes to another block leaves the gathered statements alone. -/
theorem putsElsewhere (h : start.Gathers program scratch actions) (hlinked : program.WellLinked)
    (hother : program.kind other = .plain members)
    (hputs : program.PutsAtEnd other members action final) (hne : scratch ≠ other) :
    start.Gathers final scratch actions := by
  refine h.congr hlinked fun hid _ hwhich ↦ kind_of_putsAtEnd hputs hid ?_
  rintro rfl
  rcases hwhich with rfl | haction
  · exact hne rfl
  · rw [hother] at haction
    cases haction

end Gathers

/-! ### Closing step by step -/

/-- A program in which the body of a function has been closed so far, seen from the start: the
statements of the body have changed in their symbols only, the function has got formals, and what
is to be done at the head and at the tail stands in blocks of its own. -/
structure ClosesTo (start : Program) (function : FnId) (entry exit : StmtId) (progress : Progress)
    (program : Program) : Prop where
  linked : program.WellLinked
  enlarges : start.Enlarges program
  functions : program.functions.size = start.functions.size
  definition : ∀ other, program.function other =
    if other = function then
      { start.function function with
        formals := (start.function function).formals ++ progress.formals }
    else start.function other
  has : ∀ {id}, start.Has id → program.Has id
  stmt : ∀ {id}, start.Has id → program.stmt id = { start.stmt id with
    kind := if id ∈ start.functionStmts function then (start.kind id).mapSymbols progress.rename
      else start.kind id }
  entry : start.Gathers program entry progress.loads
  exit : start.Gathers program exit progress.stores

namespace ClosesTo

theorem bodyOf_eq (h : start.ClosesTo function entry exit progress program) (other : FnId) :
    program.bodyOf other = start.bodyOf other := by
  rw [Program.bodyOf, h.definition]
  split
  · rename_i heq
    rw [heq, Program.bodyOf]
  · rfl

/-- An update of the symbols, the types and the table. -/
theorem of_tables (h : start.ClosesTo function entry exit progress program)
    (hstatements : final.statements = program.statements)
    (hfunctions : final.functions = program.functions) (henlarges : program.Enlarges final) :
    start.ClosesTo function entry exit progress final := by
  have hstmt (id : StmtId) : final.stmt id = program.stmt id := by
    rw [Program.stmt, hstatements, Program.stmt]
  have hkind (id : StmtId) : final.kind id = program.kind id := by
    rw [Program.kind, hstmt, Program.kind]
  have hfunction (id : FnId) : final.function id = program.function id := by
    rw [Program.function, hfunctions, Program.function]
  have hhas (id : StmtId) : final.Has id ↔ program.Has id := by
    rw [Has, hstatements, Has]
  exact {
    linked := h.linked.of_tables hstatements (by rw [hfunctions]) fun id ↦ by
      rw [Program.bodyOf, hfunction, Program.bodyOf]
    enlarges := h.enlarges.trans henlarges
    functions := by rw [hfunctions, h.functions]
    definition := fun other ↦ (hfunction other).trans (h.definition other)
    has := fun hid ↦ (hhas _).mpr (h.has hid)
    stmt := fun hid ↦ (hstmt _).trans (h.stmt hid)
    entry := h.entry.congr h.linked fun _ _ _ ↦ hkind _
    exit := h.exit.congr h.linked fun _ _ _ ↦ hkind _ }

theorem refOf (h : start.ClosesTo function entry exit progress program) (type : TypeId) :
    start.ClosesTo function entry exit progress (program.refOf type).2 := by
  refine h.of_tables ?_ ?_ (.refOf program type) <;>
    (rw [Program.refOf]; dsimp only; split <;> rfl)

theorem newLocal (h : start.ClosesTo function entry exit progress program) (owner : FnId)
    (name : String) (type : TypeId) :
    start.ClosesTo function entry exit progress (program.newLocal owner name type).2 :=
  h.of_tables rfl rfl (.addSymbol program _)

theorem enlarges_addFormal (program : Program) (owner : FnId) (name : String) (type : TypeId) :
    program.Enlarges (program.addFormal owner name type).2 :=
  (Enlarges.addSymbol program _).trans (.of_eq rfl rfl rfl)

theorem addFormal (h : start.ClosesTo function entry exit progress program)
    (hfunction : start.HasFunction function) (name : String) (type : TypeId) :
    start.ClosesTo function entry exit
      { progress with formals := progress.formals ++ [⟨program.symbols.size⟩] }
      (program.addFormal function name type).2 := by
  have hhas : function.index < program.functions.size := h.functions ▸ hfunction
  have hfunctions (other : FnId) : (program.addFormal function name type).2.function other =
      if other = function then
        { program.function function with
          formals := (program.function function).formals ++ [⟨program.symbols.size⟩] }
      else program.function other := by
    refine (function_modifyFunction _ function other _).trans ?_
    by_cases heq : other = function
    · rw [if_pos ⟨heq, hhas⟩, if_pos heq, heq]
      rfl
    · rw [if_neg fun hand ↦ heq hand.1, if_neg heq]
      rfl
  exact {
    linked := h.linked.of_tables rfl (by simp [Program.addFormal, modifyFunction, addSymbol])
      fun id ↦ by
        rw [Program.bodyOf, hfunctions]
        split
        · rename_i heq
          rw [heq, Program.bodyOf]
        · rfl
    enlarges := h.enlarges.trans (enlarges_addFormal program function name type)
    functions := by simpa [Program.addFormal, modifyFunction, addSymbol] using h.functions
    definition := fun other ↦ by
      rw [hfunctions]
      split
      · rw [h.definition, if_pos rfl, List.append_assoc]
      · rw [h.definition, if_neg ‹_›]
    has := h.has
    stmt := h.stmt
    entry := h.entry.congr h.linked fun _ _ _ ↦ rfl
    exit := h.exit.congr h.linked fun _ _ _ ↦ rfl }

theorem enlarges_substitute (program : Program) (root : StmtId) (old new : SymId) :
    program.Enlarges (program.substitute root old new) := by
  obtain ⟨statements, -, heq⟩ := @mapSymbolsIn_arenas program root
    fun symbol ↦ if symbol = old then new else symbol
  rw [Program.substitute, heq]
  exact .of_eq rfl rfl rfl

section

variable (hlinked : start.WellLinked) (hfunction : start.HasFunction function)
include hlinked hfunction

/-- The statements of the body are still those of the start. -/
theorem walk_eq (h : start.ClosesTo function entry exit progress program) :
    program.walk (start.bodyOf function) = start.functionStmts function := by
  have hbody := hlinked.has_body hfunction
  have hhas := (hlinked.unfolds_walk (.root (hlinked.parent_body hfunction)) hbody).2.2
  refine hlinked.walk_body_eq h.linked hfunction (fun id hid ↦ ?_) ?_ (h.has hbody)
  · rw [Program.kind, h.stmt (hhas id hid)]
    simp [hid]
  · rw [Program.parent, h.stmt hbody]
    exact hlinked.parent_body hfunction

theorem substitute (h : start.ClosesTo function entry exit progress program) (old new : SymId) :
    start.ClosesTo function entry exit
      { progress with
        rename := (fun symbol ↦ if symbol = old then new else symbol) ∘ progress.rename }
      (program.substitute (start.bodyOf function) old new) := by
  have hwalk := h.walk_eq hlinked hfunction
  have hnodup : (program.walk (start.bodyOf function)).Nodup := by
    rw [hwalk]
    exact (hlinked.unfolds_functionStmts hfunction).2
  have hhas := (hlinked.unfolds_walk (.root (hlinked.parent_body hfunction))
    (hlinked.has_body hfunction)).2.2
  have hstmt {id : StmtId} (hid : program.Has id) :=
    stmt_mapSymbolsIn hnodup (fun symbol ↦ if symbol = old then new else symbol) hid
  obtain ⟨statements, hsize, harenas⟩ := @mapSymbolsIn_arenas program (start.bodyOf function)
    fun symbol ↦ if symbol = old then new else symbol
  have hreworks : program.Reworks .everything
      (program.substitute (start.bodyOf function) old new) :=
    .substitute _ old new fun _ _ _ ↦ trivial
  have hnew {id : StmtId} (hid : program.Has id) (hnot : ¬ start.Has id) :
      (program.substitute (start.bodyOf function) old new).kind id = program.kind id := by
    have hout : id ∉ program.walk (start.bodyOf function) := by
      rw [hwalk]
      exact mt (hhas id) hnot
    rw [Program.kind, Program.substitute, hstmt hid, if_neg hout]
  exact {
    linked := hreworks.wellLinked h.linked
    enlarges := h.enlarges.trans (enlarges_substitute program _ old new)
    functions := by
      rw [Program.substitute, harenas]
      exact h.functions
    definition := fun other ↦ by
      rw [Program.substitute, harenas]
      exact h.definition other
    has := fun {id} hid ↦ by
      rw [Program.substitute, harenas]
      exact (hsize ▸ h.has hid : id.index < statements.size)
    stmt := fun {id} hid ↦ by
      have hkind : program.kind id = (program.stmt id).kind := rfl
      rw [Program.substitute, hstmt (h.has hid), hwalk, hkind, h.stmt hid]
      by_cases hmem : id ∈ start.functionStmts function
      · simp only [if_pos hmem, StmtKind.mapSymbols_mapSymbols]
      · simp only [if_neg hmem]
    entry := h.entry.congr h.linked fun hid hnot _ ↦ hnew hid hnot
    exit := h.exit.congr h.linked fun hid hnot _ ↦ hnew hid hnot }

end

theorem enlarges_putsAtEnd {block : StmtId} {members : List StmtId}
    (h : program.PutsAtEnd block members action final) : program.Enlarges final := by
  obtain ⟨statements, rfl⟩ := h.arenas
  exact .of_eq rfl rfl rfl

/-- Whatever goes to one of the two blocks is seen there only. -/
theorem putsAtEnd (h : start.ClosesTo function entry exit progress program) {block : StmtId}
    {members : List StmtId} (hblock : ¬ start.Has block)
    (hputs : program.PutsAtEnd block members action final) {loads stores : List Action}
    (hentry : start.Gathers final entry loads) (hexit : start.Gathers final exit stores) :
    start.ClosesTo function entry exit { progress with loads, stores } final where
  linked := hputs.linked
  enlarges := h.enlarges.trans (enlarges_putsAtEnd hputs)
  functions := by
    obtain ⟨statements, rfl⟩ := hputs.arenas
    exact h.functions
  definition other := by
    obtain ⟨statements, rfl⟩ := hputs.arenas
    exact h.definition other
  has hid := hputs.has (h.has hid)
  stmt {id} hid := by
    refine (hputs.stmt (h.has hid) ?_).trans (h.stmt hid)
    rintro rfl
    exact hblock hid
  entry := hentry
  exit := hexit

theorem ensures_load (h : start.ClosesTo function entry exit progress program)
    (hapart : entry ≠ exit) {cursor : Cursor} (hcursor : cursor.block = entry) (action : Action) :
    Ensures (cursor.emit (.action action)) program (fun _ ↦ True) fun _ final ↦
      start.ClosesTo function entry exit { progress with loads := progress.loads ++ [action] }
        final ∧ program.Enlarges final := by
  subst hcursor
  obtain ⟨members, hblock, -⟩ := h.entry.members
  refine (ensures_emitAction h.linked hblock action).mono (fun _ h ↦ h) fun _ _ _ hputs ↦ ?_
  exact ⟨h.putsAtEnd h.entry.new hputs (h.entry.putsAtEnd h.has h.linked hblock hputs)
    (h.exit.putsElsewhere h.linked hblock hputs hapart.symm), enlarges_putsAtEnd hputs⟩

theorem ensures_store (h : start.ClosesTo function entry exit progress program)
    (hapart : entry ≠ exit) {cursor : Cursor} (hcursor : cursor.block = exit) (action : Action) :
    Ensures (cursor.emit (.action action)) program (fun _ ↦ True) fun _ final ↦
      start.ClosesTo function entry exit { progress with stores := progress.stores ++ [action] }
        final ∧ program.Enlarges final := by
  subst hcursor
  obtain ⟨members, hblock, -⟩ := h.exit.members
  refine (ensures_emitAction h.linked hblock action).mono (fun _ h ↦ h) fun _ _ _ hputs ↦ ?_
  exact ⟨h.putsAtEnd h.exit.new hputs (h.entry.putsElsewhere h.linked hblock hputs hapart)
    (h.exit.putsAtEnd h.has h.linked hblock hputs), enlarges_putsAtEnd hputs⟩

end ClosesTo

/-! ### The types of a binding -/

namespace Enlarges

/-- A reference type that was recorded stays. -/
theorem refType (h : program.Enlarges final) {type reference : TypeId}
    (hrefType : (program.type type).refType = some reference) :
    (final.type type).refType = some reference := by
  have htype : program.HasType type := by
    by_contra hout
    rw [type_of_not_has hout] at hrefType
    cases hrefType
  rcases (h.type htype).2 with hsame | ⟨_, hnone, _⟩
  · rw [hsame, hrefType]
  · rw [hnone] at hrefType
    cases hrefType

end Enlarges

theorem refType_refOf {type : TypeId} (htype : program.HasType type) :
    ((program.refOf type).2.type type).refType = some (program.refOf type).1 := by
  cases href : (program.type type).refType with
  | some existing => simp only [refOf, href]
  | none =>
    simp only [refOf, href]
    set definition : TypeDef :=
      { name := "_ref_" ++ (program.type type).name
        kind := .ref type
        flags := { refArgBundle := (program.type type).flags.argBundle } }
    rw [type_modifyType, if_pos ⟨rfl, (Enlarges.type_addType program definition htype).1⟩]

/-- The symbols of a binding have the type of the captured symbol, or its reference type. -/
structure Binds (start : Program) (binding : Binding) (program : Program) : Prop where
  byValue : binding.capture.byReference = false → binding.inner = binding.formal ∧
    program.symbolType binding.formal = start.symbolType binding.capture.symbol
  byReference : binding.capture.byReference = true →
    program.symbolType binding.inner = start.symbolType binding.capture.symbol ∧
    (program.type (start.symbolType binding.capture.symbol)).refType =
      some (program.symbolType binding.formal)
  inner : binding.inner ∈ binding.made

theorem Binds.mono {binding : Binding} (h : start.Binds binding program)
    (hmade : ∀ symbol ∈ binding.made, program.HasSymbol symbol)
    (henlarges : program.Enlarges final) :
    start.Binds binding final where
  byValue hvalue := by
    have hformal : program.HasSymbol binding.formal := hmade _ (by simp [Binding.made, hvalue])
    rw [henlarges.symbolType hformal]
    exact h.byValue hvalue
  byReference href := by
    have hboth : program.HasSymbol binding.formal ∧ program.HasSymbol binding.inner := by
      simpa [Binding.made, href] using hmade
    rw [henlarges.symbolType hboth.1, henlarges.symbolType hboth.2]
    exact ⟨(h.byReference href).1, henlarges.refType (h.byReference href).2⟩
  inner := h.inner

/-! ### Binding captures -/

theorem symbolType_addFormal (program : Program) (owner : FnId) (name : String) (type : TypeId) :
    (program.addFormal owner name type).2.symbolType ⟨program.symbols.size⟩ = type :=
  symbolType_addSymbol program _

theorem hasSymbol_addFormal (program : Program) (owner : FnId) (name : String) (type : TypeId) :
    (program.addFormal owner name type).2.HasSymbol ⟨program.symbols.size⟩ :=
  hasSymbol_addSymbol program _

/-- A symbol that is there after an update is not the next one to be made. -/
theorem Enlarges.not_hasSymbol (h : program.Enlarges final) :
    ¬ program.HasSymbol ⟨final.symbols.size⟩ :=
  fun hold ↦ Nat.lt_irrefl _ (h.symbol hold).1

/-- The symbols of a binding have been made: they are new, they differ, and they have their
types. -/
structure Makes (start program : Program) (binding : Binding) (final : Program) : Prop where
  enlarges : program.Enlarges final
  binds : start.Binds binding final
  nodup : binding.made.Nodup
  made : ∀ symbol ∈ binding.made, ¬ program.HasSymbol symbol ∧ final.HasSymbol symbol

theorem Makes.trans {binding : Binding} {middle : Program} (h : start.Makes program binding middle)
    (henlarges : middle.Enlarges final) : start.Makes program binding final where
  enlarges := h.enlarges.trans henlarges
  binds := h.binds.mono (fun symbol hmem ↦ (h.made symbol hmem).2) henlarges
  nodup := h.nodup
  made symbol hmem := ⟨(h.made symbol hmem).1, (henlarges.symbol (h.made symbol hmem).2).1⟩

/-- A captured symbol's formal that has the symbol's own type, as it is passed by value. -/
theorem makes_addFormal {capture : Capture} (hvalue : capture.byReference = false)
    (hsame : program.symbolType capture.symbol = start.symbolType capture.symbol)
    (owner : FnId) (name : String) :
    start.Makes program ⟨capture, ⟨program.symbols.size⟩, ⟨program.symbols.size⟩⟩
      (program.addFormal owner name (program.symbolType capture.symbol)).2 where
  enlarges := ClosesTo.enlarges_addFormal ..
  binds := {
    byValue := fun _ ↦ ⟨rfl, (symbolType_addFormal ..).trans hsame⟩
    byReference := fun href ↦ absurd (href.symm.trans hvalue) (by decide)
    inner := by simp [Binding.made, hvalue] }
  nodup := by simp [Binding.made, hvalue]
  made symbol hmem := by
    obtain rfl : symbol = ⟨program.symbols.size⟩ := by simpa [Binding.made, hvalue] using hmem
    exact ⟨Nat.lt_irrefl _, hasSymbol_addFormal ..⟩

/-- The program with a formal for the reference to a captured symbol. -/
def referenceFormal (program : Program) (owner : FnId) (captured : SymId) : Program :=
  ((program.refOf (program.symbolType captured)).2.addFormal owner (program.symbolName captured)
    (program.refOf (program.symbolType captured)).1).2

/-- The program with such a formal, and with a local copy that is used instead of the symbol. -/
def referenceCopy (program : Program) (owner : FnId) (captured : SymId) : Program :=
  ((program.referenceFormal owner captured).newLocal owner (program.symbolName captured)
    (program.symbolType captured)).2

/-- The binding of a capture that is passed by reference. -/
def referenceBinding (program : Program) (owner : FnId) (capture : Capture) : Binding where
  capture := capture
  formal := ⟨(program.refOf (program.symbolType capture.symbol)).2.symbols.size⟩
  inner := ⟨(program.referenceFormal owner capture.symbol).symbols.size⟩

theorem ClosesTo.referenceCopy (h : start.ClosesTo function entry exit progress program)
    (hfunction : start.HasFunction function) (capture : Capture) :
    start.ClosesTo function entry exit
      { progress with
        formals := progress.formals ++ [(program.referenceBinding function capture).formal] }
      (program.referenceCopy function capture.symbol) :=
  ((h.refOf _).addFormal hfunction _ _).newLocal ..

theorem enlarges_referenceFormal (program : Program) (owner : FnId) (captured : SymId) :
    program.Enlarges (program.referenceFormal owner captured) :=
  (Enlarges.refOf program _).trans (ClosesTo.enlarges_addFormal ..)

/-- A captured symbol's formal and local copy, as it is passed by reference. -/
theorem makes_referenceCopy {capture : Capture} (href : capture.byReference = true)
    (hsame : program.symbolType capture.symbol = start.symbolType capture.symbol)
    (htype : program.HasType (program.symbolType capture.symbol)) (owner : FnId) :
    start.Makes program (program.referenceBinding owner capture)
      (program.referenceCopy owner capture.symbol) := by
  have hformal : (program.referenceFormal owner capture.symbol).HasSymbol
      (program.referenceBinding owner capture).formal :=
    hasSymbol_addFormal ..
  have hcopies : (program.referenceFormal owner capture.symbol).Enlarges
      (program.referenceCopy owner capture.symbol) :=
    .addSymbol _ _
  have hreference : ((program.referenceFormal owner capture.symbol).type
      (program.symbolType capture.symbol)).refType =
        some (program.refOf (program.symbolType capture.symbol)).1 :=
    (ClosesTo.enlarges_addFormal ..).refType (refType_refOf htype)
  exact {
    enlarges := (enlarges_referenceFormal ..).trans hcopies
    binds := {
      byValue := fun hvalue ↦ absurd (hvalue.symm.trans href) (by decide)
      byReference := fun _ ↦ ⟨(symbolType_addSymbol _ _).trans hsame, by
        rw [hcopies.symbolType hformal, referenceBinding, ← hsame]
        exact hcopies.refType (hreference.trans (congrArg some (symbolType_addFormal ..).symm))⟩
      inner := by simp [Binding.made, referenceBinding, href] }
    nodup := by
      have hne : (program.referenceBinding owner capture).formal ≠
          (program.referenceBinding owner capture).inner :=
        fun heq ↦ Nat.lt_irrefl _ (heq ▸ hformal)
      simpa [Binding.made, referenceBinding, href] using hne
    made := fun symbol hmem ↦ by
      have hmem : symbol ∈ [(program.referenceBinding owner capture).formal,
          (program.referenceBinding owner capture).inner] := by
        simpa [Binding.made, referenceBinding, href] using hmem
      rcases List.mem_pair.mp hmem with rfl | rfl
      · exact ⟨(Enlarges.refOf program _).not_hasSymbol, (hcopies.symbol hformal).1⟩
      · exact ⟨(enlarges_referenceFormal ..).not_hasSymbol, hasSymbol_addSymbol _ _⟩ }

/-- One capture is bound by new symbols. -/
theorem ensures_bindCapture (hlinked : start.WellLinked) (hfunction : start.HasFunction function)
    (h : start.ClosesTo function entry exit progress program) (hapart : entry ≠ exit)
    {load store : Cursor} (hload : load.function = function) (hentry : load.block = entry)
    (hexit : store.block = exit) {capture : Capture} (hsymbol : start.HasSymbol capture.symbol)
    (htype : start.HasType (start.symbolType capture.symbol)) :
    Ensures (bindCapture load store (start.bodyOf function) capture) program (fun _ ↦ True)
      fun _ final ↦ ∃ binding, binding.capture = capture ∧
        start.ClosesTo function entry exit (progress.bind binding) final ∧
        start.Makes program binding final := by
  unfold bindCapture
  refine ensures_get_bind.mpr ?_
  dsimp only
  rw [hload]
  have hsame := h.enlarges.symbolType hsymbol
  have hvalid : program.HasType (program.symbolType capture.symbol) :=
    hsame ▸ (h.enlarges.type htype).1
  split
  next href =>
    refine ensures_modifyGet_bind.mpr (ensures_modifyGet_bind.mpr (ensures_modifyGet_bind.mpr
      (ensures_modify_bind.mpr ?_)))
    set binding := program.referenceBinding function capture
    have hmakes : start.Makes program binding (program.referenceCopy function capture.symbol) :=
      makes_referenceCopy href hsame hvalid function
    have hcloses := (h.referenceCopy hfunction capture).substitute hlinked hfunction capture.symbol
      binding.inner
    refine (hcloses.ensures_load hapart hentry (.define binding.inner)).bind fun _ _ _ hdefine ↦ ?_
    refine (hdefine.1.ensures_load hapart hentry
      (.assign binding.inner (.deref binding.formal))).bind
      fun _ _ _ hassign ↦ ?_
    refine (hassign.1.ensures_store hapart hexit (.store binding.formal (.sym binding.inner))).bind
      fun _ final _ hstore ↦ .pure trivial ⟨binding, rfl, ?_, ?_⟩
    · have hdone := hstore.1
      simpa [binding, referenceBinding, Progress.bind, Binding.loads, Binding.stores, href]
        using hdone
    · exact hmakes.trans ((ClosesTo.enlarges_substitute ..).trans
        (hdefine.2.trans (hassign.2.trans hstore.2)))
  next hvalue =>
    have hvalue : capture.byReference = false := by simpa using hvalue
    refine ensures_modifyGet_bind.mpr (ensures_modify.mpr ⟨trivial,
      ⟨capture, ⟨program.symbols.size⟩, ⟨program.symbols.size⟩⟩, rfl, ?_,
      (makes_addFormal hvalue hsame function _).trans (ClosesTo.enlarges_substitute ..)⟩)
    have hcloses := (h.addFormal hfunction (program.symbolName capture.symbol)
      (program.symbolType capture.symbol)).substitute hlinked hfunction capture.symbol
      ⟨program.symbols.size⟩
    rw [show (program.addFormal function (program.symbolName capture.symbol)
      (program.symbolType capture.symbol)).1 = ⟨program.symbols.size⟩ from rfl]
    simpa [Progress.bind, Binding.loads, Binding.stores, hvalue] using hcloses

/-- A program in which some captures have been bound, one after the other. -/
structure Bound (start : Program) (function : FnId) (entry exit : StmtId)
    (bindings : List Binding) (program : Program) : Prop where
  closes : start.ClosesTo function entry exit (.of bindings) program
  binds : ∀ binding ∈ bindings, start.Binds binding program
  nodup : (bindings.flatMap Binding.made).Nodup
  made : ∀ symbol ∈ bindings.flatMap Binding.made,
    ¬ start.HasSymbol symbol ∧ program.HasSymbol symbol

/-- One more capture is bound, with symbols that none of the others uses. -/
theorem Bound.concat {bindings : List Binding} {binding : Binding}
    (h : start.Bound function entry exit bindings program)
    (hsymbol : start.HasSymbol binding.capture.symbol)
    (hcloses : start.ClosesTo function entry exit ((Progress.of bindings).bind binding) final)
    (hmakes : start.Makes program binding final) :
    start.Bound function entry exit (bindings ++ [binding]) final where
  closes := by
    rw [Progress.of_concat]
    · exact hcloses
    · intro other hother heq
      have hinner := List.mem_flatMap_of_mem hother (h.binds other hother).inner
      exact (h.made _ hinner).1 (heq ▸ hsymbol)
  binds other hother := by
    rcases List.mem_append.mp hother with hother | hother
    · exact (h.binds other hother).mono
        (fun symbol hsymbol ↦ (h.made symbol (List.mem_flatMap_of_mem hother hsymbol)).2)
        hmakes.enlarges
    · rw [List.mem_singleton.mp hother]
      exact hmakes.binds
  nodup := by
    rw [List.flatMap_append, List.flatMap_singleton]
    refine List.nodup_append.mpr ⟨h.nodup, hmakes.nodup, fun symbol hsymbol other hother heq ↦ ?_⟩
    exact (hmakes.made other hother).1 (heq ▸ (h.made symbol hsymbol).2)
  made symbol hmem := by
    rw [List.flatMap_append, List.flatMap_singleton] at hmem
    rcases List.mem_append.mp hmem with hmem | hmem
    · exact ⟨(h.made symbol hmem).1, (hmakes.enlarges.symbol (h.made symbol hmem).2).1⟩
    · refine ⟨fun hold ↦ (hmakes.made symbol hmem).1 ?_, (hmakes.made symbol hmem).2⟩
      exact (h.closes.enlarges.symbol hold).1

/-- All captures are bound, in their order. -/
theorem ensures_bindCaptures (hlinked : start.WellLinked)
    (hfunction : start.HasFunction function) (hapart : entry ≠ exit) {load store : Cursor}
    (hload : load.function = function) (hentry : load.block = entry) (hexit : store.block = exit)
    {captures : List Capture}
    (hsymbols : ∀ capture ∈ captures, start.HasSymbol capture.symbol ∧
      start.HasType (start.symbolType capture.symbol)) {done : List Binding}
    (h : start.Bound function entry exit done program) :
    Ensures (m := Pass) (captures.forM fun capture ↦
      liftM (bindCapture load store (start.bodyOf function) capture)) program (fun _ ↦ True)
      fun _ final ↦ ∃ bindings, bindings.map Binding.capture = captures ∧
        start.Bound function entry exit (done ++ bindings) final := by
  induction captures generalizing program done with
  | nil => exact .pure trivial ⟨[], rfl, by rwa [List.append_nil]⟩
  | cons capture rest ih =>
    obtain ⟨hsymbol, htype⟩ := hsymbols capture List.mem_cons_self
    refine (ensures_bindCapture hlinked hfunction h.closes hapart hload hentry hexit hsymbol
      htype).build.bind ?_
    rintro _ middle - ⟨binding, rfl, hcloses, hmakes⟩
    refine (ih (fun other hother ↦ hsymbols other (List.mem_cons_of_mem _ hother))
      (h.concat hsymbol hcloses hmakes)).mono (fun _ h ↦ h) ?_
    rintro _ final - ⟨bindings, rfl, hbound⟩
    exact ⟨binding :: bindings, rfl, by simpa using hbound⟩

end Program

end IteratorLowering
